import StreamInfa.Lib.Bytes
import StreamInfa.Lib.Reader
import StreamInfa.Lib.Bits
import StreamInfa.Lib.Checked
import StreamInfa.Lib.Text
import StreamInfa.Lib.Map
import StreamInfa.Lib.Sorted
import StreamInfa.Lib.Lru
import StreamInfa.Lib.Cut
import StreamInfa.Lib.Run
import StreamInfa.Lib.Trace
import StreamInfa.Lib.Stage
import StreamInfa.Lib.Paging
import StreamInfa.Lib.Follow
import StreamInfa.Lib.Attributes
import StreamInfa.Lib.Permits
import StreamInfa.Core.Types
import StreamInfa.Core.Error
import StreamInfa.Core.Auth
import StreamInfa.Core.KeyIndex
import StreamInfa.Core.Rotation
import StreamInfa.Core.BruteForce
import StreamInfa.Core.FailureWindow
import StreamInfa.Core.TrackerCleanup
import StreamInfa.Core.Security
import StreamInfa.Core.Toml
import StreamInfa.Control.State
import StreamInfa.Control.Events
import StreamInfa.Control.Ready
import StreamInfa.Control.Shared
import StreamInfa.Control.Lifecycle
import StreamInfa.Control.Gauges
import StreamInfa.Control.Plane
import StreamInfa.Control.Sound
import StreamInfa.Ingest.ChunkReader
import StreamInfa.Ingest.BodyLoop
import StreamInfa.Ingest.ChunkStream
import StreamInfa.Ingest.HeaderCompression
import StreamInfa.Ingest.Continuation
import StreamInfa.Ingest.FullHeaders
import StreamInfa.Ingest.Amf
import StreamInfa.Ingest.ConfiguredKeys
import StreamInfa.Ingest.BitReader
import StreamInfa.Ingest.SpsArithmetic
import StreamInfa.Ingest.SpsSyntax
import StreamInfa.Ingest.SpsChroma
import StreamInfa.Ingest.SpsEscapes
import StreamInfa.Ingest.ExpGolomb
import StreamInfa.Ingest.Demuxer
import StreamInfa.Ingest.Nalus
import StreamInfa.Ingest.Connection
import StreamInfa.Ingest.Negotiation
import StreamInfa.Ingest.Dialogue
import StreamInfa.Ingest.Attach
import StreamInfa.Transcode.Profile
import StreamInfa.Transcode.Segment
import StreamInfa.Transcode.Duration
import StreamInfa.Transcode.Conservation
import StreamInfa.Transcode.Independent
import StreamInfa.Transcode.AudioLead
import StreamInfa.Transcode.Pipeline
import StreamInfa.Ingest.LiveStream
import StreamInfa.Ingest.DemuxErrors
import StreamInfa.Ingest.Admission
import StreamInfa.Ingest.Timestamps
import StreamInfa.Package.Hls
import StreamInfa.Package.Manifest
import StreamInfa.Package.Paths
import StreamInfa.Package.SegmentIndex
import StreamInfa.Package.SlidingWindow
import StreamInfa.Package.TargetDuration
import StreamInfa.Package.PlaylistReader
import StreamInfa.Package.MasterReader
import StreamInfa.Package.Runner
import StreamInfa.Package.Sent
import StreamInfa.Package.Trace
import StreamInfa.Package.Masters
import StreamInfa.Package.Window
import StreamInfa.Package.Announced
import StreamInfa.Package.Framing
import StreamInfa.Package.Fragment
import StreamInfa.Package.BoxTree
import StreamInfa.Package.InitSegment
import StreamInfa.Package.ParameterSets
import StreamInfa.Ingest.Ladder
import StreamInfa.Ingest.Progress
import StreamInfa.Ingest.Fanout
import StreamInfa.Package.Packing
import StreamInfa.Package.Player
import StreamInfa.Package.LivePlayer
import StreamInfa.Ingest.LivePipeline
import StreamInfa.Ingest.Cadence
import StreamInfa.Ingest.VodStream
import StreamInfa.Ingest.VodRecord
import StreamInfa.Ingest.VodReady
import StreamInfa.Ingest.VodProgress
import StreamInfa.Storage.Media
import StreamInfa.Storage.Writer
import StreamInfa.Storage.Order
import StreamInfa.Storage.References
import StreamInfa.Storage.Drained
import StreamInfa.Storage.Cache
import StreamInfa.Storage.CacheSize
import StreamInfa.Storage.Cleanup
import StreamInfa.Storage.LiveCleanup
import StreamInfa.Storage.Objects
import StreamInfa.Storage.S3
import StreamInfa.Storage.S3Deletion
import StreamInfa.Storage.Retention
import StreamInfa.Storage.CleanupRace
import StreamInfa.Storage.Cycle
import StreamInfa.Delivery.KeyLifecycle
import StreamInfa.Delivery.Serve
import StreamInfa.Ingest.Upload
import StreamInfa.Ingest.VodPlayback
import StreamInfa.Ingest.VodUpload
import StreamInfa.Delivery.Range
import StreamInfa.Delivery.Server
import StreamInfa.Delivery.Deletion
import StreamInfa.Delivery.Isolation
import StreamInfa.Delivery.Gate
import StreamInfa.Delivery.Freshness
import StreamInfa.Delivery.CacheControl
