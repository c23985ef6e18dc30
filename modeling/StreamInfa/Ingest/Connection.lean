import StreamInfa.Ingest.Amf
import StreamInfa.Ingest.Demuxer

/-!
An RTMP connection after the handshake (`RtmpConnection` of `src/ingest/rtmp.rs`).

Three loops read messages one after the other: `processCommands` until `publish`,
`waitForSequenceHeader` until the demuxer knows the video, and `runDemuxLoop` until
the stream ends. They share `readLoop`, which reads a message, applies it to the
reader if it sets the chunk size, and lets the loop's handler decide.

The surroundings of a connection are explicit: `Surroundings` authenticates the key
and finds the stream, and `Cutoffs` says after how many messages a timeout, a
shutdown, a failed answer or a closed channel stops each loop.
-/

namespace StreamInfa.Ingest

/-! ### The reading loop -/

/-- Why a loop stopped: its handler returned, the bytes ran out, or it was cut off. -/
inductive LoopExit (ρ : Type) where
  | done (result : ρ)
  | eof
  | cut
deriving DecidableEq, Repr

/-- A run of a loop: the messages it decoded and what it leaves behind. -/
structure LoopRun (σ ρ : Type) where
  messages : List RtmpMessage
  exit : LoopExit ρ
  state : σ
  reader : ChunkReader
  rest : Bytes

/-- Read up to `reads` messages, until `handler` returns a result. -/
def readLoop {σ ρ : Type} (handler : σ → RtmpMessage → σ × Option ρ) :
    ℕ → ChunkReader → σ → Bytes → LoopRun σ ρ
  | 0, reader, state, bytes => ⟨[], .cut, state, reader, bytes⟩
  | reads + 1, reader, state, bytes =>
    match reader.readMessage bytes with
    | none => ⟨[], .eof, state, reader, []⟩
    | some (msg, rest) =>
      match handler state msg with
      | (state, some result) => ⟨[msg], .done result, state, reader.applyControl msg, rest⟩
      | (state, none) =>
        let run := readLoop handler reads (reader.applyControl msg) state rest
        { run with messages := msg :: run.messages }

/-! ### The three loops -/

/-- Commands until `publish`; the state is the answers sent so far. `freshId` is the
random id of the error for `deleteStream`. -/
def commandHandler (freshId : StreamId) (answers : Bytes) (msg : RtmpMessage) :
    Bytes × Option (Except IngestError Text) :=
  match msg.msgType with
  | .amfCommand | .amfCommand3 =>
    match parseAmfCommand msg.data with
    | .error e => (answers, some (.error e))
    | .ok (.connect _) => (answers ++ sendConnectResult, none)
    | .ok .releaseStream | .ok .fcPublish => (answers ++ sendCommandResult, none)
    | .ok .createStream => (answers ++ sendCreateStreamResult, none)
    | .ok (.publish streamKey) => (answers, some (.ok streamKey))
    | .ok .deleteStream => (answers, some (.error (.connectionReset freshId)))
    | .ok (.unknown _) => (answers, none)
  | _ => (answers, none)

def processCommands (freshId : StreamId) (reads : ℕ) (bytes : Bytes) :
    LoopRun Bytes (Except IngestError Text) :=
  readLoop (commandHandler freshId) reads ChunkReader.new [] bytes

/-- Media messages until the demuxer has the sequence header. -/
def headerHandler (demuxer : FlvDemuxer) (msg : RtmpMessage) :
    FlvDemuxer × Option (Except IngestError Unit) :=
  match msg.msgType with
  | .video | .audio =>
    match (demuxFlvTag msg).run.run demuxer with
    | (.error e, demuxer) => (demuxer, some (.error e))
    | (.ok _, demuxer) => (demuxer, if demuxer.hasSequenceHeader then some (.ok ()) else none)
  | _ => (demuxer, none)

/-- The reader is a new one: it starts from the default chunk size. -/
def waitForSequenceHeader (streamId : StreamId) (reads : ℕ) (bytes : Bytes) :
    LoopRun FlvDemuxer (Except IngestError Unit) :=
  readLoop headerHandler reads ChunkReader.new (FlvDemuxer.new streamId) bytes

def maxConsecutiveErrors : ℕ := 10

/-- The state of the demux loop, with the frames sent to the transcoder. -/
structure DemuxLoop where
  demuxer : FlvDemuxer
  consecutiveErrors : ℕ
  frames : List DemuxedFrame
deriving DecidableEq, Repr

def demuxHandler (loop : DemuxLoop) (msg : RtmpMessage) :
    DemuxLoop × Option (Except IngestError Unit) :=
  -- The message was read, which resets the count before it is demuxed.
  let loop := { loop with consecutiveErrors := 0 }
  match msg.msgType with
  | .video | .audio =>
    match (demuxFlvTag msg).run.run loop.demuxer with
    | (.ok (some frame), demuxer) =>
      ({ loop with demuxer := demuxer, frames := loop.frames ++ [frame] }, none)
    | (.ok none, demuxer) => ({ loop with demuxer := demuxer }, none)
    | (.error _, demuxer) =>
      let consecutiveErrors := loop.consecutiveErrors + 1
      ({ loop with demuxer := demuxer, consecutiveErrors := consecutiveErrors },
        if maxConsecutiveErrors ≤ consecutiveErrors then
          some (.error (.validationFailed ("too many consecutive demux errors (".toList ++
            decimal consecutiveErrors ++ ")".toList)))
        else none)
  | .amfCommand | .amfCommand3 =>
    match parseAmfCommand msg.data with
    | .ok .deleteStream => (loop, some (.ok ()))
    | _ => (loop, none)
  | _ => (loop, none)

/-- Goes on with the demuxer and the reader of `waitForSequenceHeader`. -/
def runDemuxLoop (demuxer : FlvDemuxer) (reader : ChunkReader) (reads : ℕ) (bytes : Bytes) :
    LoopRun DemuxLoop (Except IngestError Unit) :=
  readLoop demuxHandler reads reader ⟨demuxer, 0, []⟩ bytes

/-! ### The connection -/

def maxResolutionWidth : UInt32 := 3840

def maxResolutionHeight : UInt32 := 2160

def minResolution : UInt32 := 1

/-- `{width}x{height}`. -/
def sizeText (width height : UInt32) : Text :=
  decimal width.toNat ++ 'x' :: decimal height.toNat

def validateResolution (width height : UInt32) : Except Text Unit :=
  if width < minResolution ∨ height < minResolution then
    .error ("resolution ".toList ++ sizeText width height ++ " is below minimum (".toList ++
      sizeText minResolution minResolution ++ ")".toList)
  else if maxResolutionWidth < width ∨ maxResolutionHeight < height then
    .error ("resolution ".toList ++ sizeText width height ++ " exceeds maximum (".toList ++
      sizeText maxResolutionWidth maxResolutionHeight ++ ")".toList)
  else .ok ()

def sequenceHeaderTimeoutSecs : ℕ := 10

/-- What a connection asks of the rest of the server: to authenticate a stream key,
reserve a place and find or create the stream. -/
structure Surroundings where
  attach : Text → Except IngestError StreamId
  freshId : StreamId

/-- How many messages each loop reads before something else stops it. -/
structure Cutoffs where
  commands : ℕ
  header : ℕ
  demux : ℕ

/-- What became of a connection. `atEof`: it ended because the client's bytes did. -/
structure ConnectionRun where
  messages : List RtmpMessage
  answers : Bytes
  frames : List DemuxedFrame
  result : Except IngestError Unit
  atEof : Bool

/-- A connection ended by its demux loop. -/
def finishDemuxLoop (messages : List RtmpMessage) (answers : Bytes)
    (run : LoopRun DemuxLoop (Except IngestError Unit)) : ConnectionRun where
  messages := messages ++ run.messages
  answers := answers
  frames := run.state.frames
  result := match run.exit with
    | .done result => result
    | .eof | .cut => .ok ()
  atEof := match run.exit with
    | .eof => true
    | .done _ | .cut => false

/-- A connection from the start of the media on. -/
def handleMedia (streamId : StreamId) (cuts : Cutoffs) (messages : List RtmpMessage)
    (answers bytes : Bytes) : ConnectionRun :=
  let header := waitForSequenceHeader streamId cuts.header bytes
  let messages := messages ++ header.messages
  match header.exit with
  | .eof => ⟨messages, answers, [], .error .io, true⟩
  | .cut =>
    ⟨messages, answers, [], .error (.missingSequenceHeader sequenceHeaderTimeoutSecs), false⟩
  | .done (.error e) => ⟨messages, answers, [], .error e, false⟩
  | .done (.ok ()) =>
    match validateResolution header.state.videoWidth header.state.videoHeight with
    | .error reason => ⟨messages, answers, [], .error (.validationFailed reason), false⟩
    | .ok () =>
      finishDemuxLoop messages answers
        (runDemuxLoop header.state header.reader cuts.demux header.rest)

/-- A connection from the end of its handshake on. -/
def handle (env : Surroundings) (cuts : Cutoffs) (bytes : Bytes) : ConnectionRun :=
  let commands := processCommands env.freshId cuts.commands bytes
  match commands.exit with
  | .eof => ⟨commands.messages, commands.state, [], .error .io, true⟩
  | .cut => ⟨commands.messages, commands.state, [], .error .io, false⟩
  | .done (.error e) => ⟨commands.messages, commands.state, [], .error e, false⟩
  | .done (.ok streamKey) =>
    match env.attach streamKey with
    | .error e => ⟨commands.messages, commands.state, [], .error e, false⟩
    | .ok streamId =>
      handleMedia streamId cuts commands.messages commands.state commands.rest

end StreamInfa.Ingest
