import StreamInfa.Core.Types

/-!
Error types (`src/core/error.rs`), with the data the modelled functions put in
them.
-/

namespace StreamInfa

/-- Errors of the ingest module. `io` is an I/O error of the socket; the only one a
finite byte stream can produce is an unexpected end of file. -/
inductive IngestError where
  | malformedAmf (reason : Text)
  | connectionReset (streamId : StreamId)
  | missingSequenceHeader (timeoutSecs : ℕ)
  | corruptNalu (reason : Text)
  | invalidCodec (expected actual : Text)
  | authFailed (reason : Text)
  | validationFailed (reason : Text)
  | invalidResolution (width height : UInt32)
  | unsupportedCodec (codec : Text)
  | unsupportedFormat (format : Text)
  | uploadTooLarge (sizeBytes maxBytes : ℕ)
  | durationExceeded (durationSecs maxSecs : ℚ)
  | corruptFile (reason : Text)
  | io
deriving DecidableEq, Repr

/-- The text of an ingest error; an I/O error is the runtime's at the end of the bytes. -/
def IngestError.toText : IngestError → Text
  | .malformedAmf reason => "malformed AMF data: ".toList ++ reason
  | .connectionReset streamId => "RTMP connection reset for stream ".toList ++ streamId.toText
  | .missingSequenceHeader timeoutSecs =>
    "missing AVC sequence header within ".toList ++ decimal timeoutSecs ++ "s".toList
  | .corruptNalu reason => "corrupt NALU: ".toList ++ reason
  | .invalidCodec expected actual =>
    "invalid codec detected: expected ".toList ++ expected ++ ", got ".toList ++ actual
  | .authFailed reason => "authentication failed: ".toList ++ reason
  | .validationFailed reason => "validation failed: ".toList ++ reason
  | .invalidResolution width height =>
    "invalid resolution: ".toList ++ decimal width.toNat ++ 'x' :: decimal height.toNat
  | .unsupportedCodec codec => "unsupported codec: ".toList ++ codec
  | .unsupportedFormat format => "unsupported container format: ".toList ++ format
  | .uploadTooLarge sizeBytes maxBytes =>
    "upload too large: ".toList ++ decimal sizeBytes ++ " bytes exceeds limit ".toList ++
      decimal maxBytes ++ " bytes".toList
  | .durationExceeded durationSecs maxSecs =>
    "duration exceeded: ".toList ++ plain durationSecs ++ "s exceeds limit ".toList ++
      plain maxSecs ++ "s".toList
  | .corruptFile reason => "corrupt file: ".toList ++ reason
  | .io => "ingest I/O error: early eof".toList

/-- Errors of the transcode module. -/
inductive TranscodeError where
  | ffmpegInit (reason : Text)
  | cancelled (streamId : StreamId)
  | consecutiveDecodeErrors (streamId : StreamId) (count : ℕ)
deriving DecidableEq, Repr

def TranscodeError.toText : TranscodeError → Text
  | .ffmpegInit reason => "FFmpeg initialization failed: ".toList ++ reason
  | .cancelled streamId =>
    "transcode pipeline cancelled for stream ".toList ++ streamId.toText
  | .consecutiveDecodeErrors streamId count =>
    "consecutive decode errors (".toList ++ decimal count ++ ") for stream ".toList ++
      streamId.toText

/-- Errors of the packaging module. -/
inductive PackageError where
  | initSegmentFailed (reason : Text)
  | mediaSegmentFailed (reason : Text)
  | invalidBoxStructure (reason : Text)
deriving DecidableEq, Repr

/-- Errors of the storage module. -/
inductive StorageError where
  | s3GetFailed (path reason : Text)
  | s3DeleteFailed (path reason : Text)
  | retriesExhausted (path : Text)
deriving DecidableEq, Repr

def StorageError.toText : StorageError → Text
  | .s3GetFailed path reason =>
    "S3 GET failed for path ".toList ++ path ++ ": ".toList ++ reason
  | .s3DeleteFailed path reason =>
    "S3 DELETE failed for path ".toList ++ path ++ ": ".toList ++ reason
  | .retriesExhausted path => "retries exhausted for path ".toList ++ path

/-- Errors of stream state transitions. -/
inductive StateError where
  | invalidTransition (streamId : StreamId) ( fromState toState : Text)
  | streamNotFound (streamId : StreamId)
deriving DecidableEq, Repr

def StateError.toText : StateError → Text
  | .invalidTransition streamId from_ to_ =>
    "invalid state transition from ".toList ++ from_ ++ " to ".toList ++ to_ ++
      " for stream ".toList ++ streamId.toText
  | .streamNotFound streamId => "stream not found: ".toList ++ streamId.toText

end StreamInfa
