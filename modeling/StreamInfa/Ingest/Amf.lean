import StreamInfa.Core.Error
import StreamInfa.Ingest.ChunkReader

/-!
RTMP commands (`src/ingest/rtmp.rs`): the simplified AMF0 parsing of what the client
asks, and the bytes of the answers.
-/

namespace StreamInfa.Ingest

/-- The commands the server handles. -/
inductive RtmpCommand where
  | connect (app : Text)
  | releaseStream
  | fcPublish
  | createStream
  | publish (streamKey : Text)
  | deleteStream
  | unknown (name : Text)
deriving DecidableEq, Repr

/-! ### Parsing -/

def maxAmfStringLength : ℕ := 4096

/-- The first complete UTF-8 string behind a string marker, at whatever offset; the
name of the wanted field plays no part. -/
def extractAmfStringField : Bytes → Option Text
  | [] => none
  | b :: bs =>
    -- The loop runs while more than three bytes are left.
    if bs.length < 3 then none
    else
      let len := beNat (bs.take 2)
      let found :=
        if b = 0x02 ∧ len ≤ (bs.drop 2).length then fromUtf8 ((bs.drop 2).take len) else none
      match found with
      | some s => some s
      | none => extractAmfStringField bs

/-- The first string after the transaction id. -/
def extractPublishStreamKey (data : Bytes) : Option Text :=
  match data with
  | [] => none
  | b :: bs =>
    if b = 0x00 then extractPublishStreamKey (bs.drop 8)
    else if b = 0x02 then
      if bs.length < 2 then none
      else
        let len := beNat (bs.take 2)
        if (bs.drop 2).length < len then none
        else fromUtf8 ((bs.drop 2).take len)
    else extractPublishStreamKey bs
termination_by data.length
decreasing_by
  · simp only [List.length_drop, List.length_cons]
    omega
  · simp only [List.length_cons]
    omega

def parseAmfCommand (data : Bytes) : Except IngestError RtmpCommand :=
  match data with
  | 0x02 :: l₁ :: l₀ :: rest =>
    let nameLen := beNat [l₁, l₀]
    if maxAmfStringLength < nameLen then
      .error (.malformedAmf ("AMF string length ".toList ++ decimal nameLen ++
        " exceeds max ".toList ++ decimal maxAmfStringLength))
    else if rest.length < nameLen then
      .error (.malformedAmf "AMF0 string length exceeds data".toList)
    else
      match fromUtf8 (rest.take nameLen) with
      | none => .error (.malformedAmf "invalid UTF-8 in command name".toList)
      | some name =>
        let arguments := rest.drop nameLen
        if name = "connect".toList then
          .ok (.connect ((extractAmfStringField arguments).getD "live".toList))
        else if name = "releaseStream".toList then .ok .releaseStream
        else if name = "FCPublish".toList then .ok .fcPublish
        else if name = "createStream".toList then .ok .createStream
        else if name = "publish".toList then
          .ok (.publish ((extractPublishStreamKey arguments).getD []))
        else if name = "deleteStream".toList then .ok .deleteStream
        else .ok (.unknown name)
  | _ => .error (.malformedAmf "expected AMF0 string marker".toList)

/-! ### Answers -/

/-- One message with a full header, never split into chunks. -/
def writeRtmpMessage (msgType : UInt8) (streamId : ℕ) (data : Bytes) : Bytes :=
  (if msgType = 20 then 3 else 2) :: beBytes 3 0 ++ beBytes 3 data.length ++ [msgType] ++
    leBytes 4 streamId ++ data

/-- An AMF0 string. -/
def amfString (s : Text) : Bytes := 0x02 :: beBytes 2 (encodeUtf8 s).length ++ encodeUtf8 s

/-- The AMF0 number 0.0. -/
def amfZero : Bytes := [0x00, 0, 0, 0, 0, 0, 0, 0, 0]

/-- The AMF0 number 1.0. -/
def amfOne : Bytes := [0x00, 0x3F, 0xF0, 0, 0, 0, 0, 0, 0]

def buildConnectResultAmf : Bytes :=
  amfString "_result".toList ++ amfOne ++ [0x03, 0x00, 0x00, 0x09] ++
    [0x03] ++ beBytes 2 4 ++ encodeUtf8 "code".toList ++
    amfString "NetConnection.Connect.Success".toList ++ [0x00, 0x00, 0x09]

def buildGenericResultAmf : Bytes := amfString "_result".toList ++ amfZero ++ [0x05]

def buildCreateStreamResultAmf : Bytes :=
  amfString "_result".toList ++ amfZero ++ [0x05] ++ amfOne

def sendConnectResult : Bytes :=
  writeRtmpMessage 5 0 (beBytes 4 2500000) ++ writeRtmpMessage 6 0 (beBytes 4 2500000 ++ [2]) ++
    writeRtmpMessage 20 0 buildConnectResultAmf

def sendCommandResult : Bytes := writeRtmpMessage 20 0 buildGenericResultAmf

def sendCreateStreamResult : Bytes := writeRtmpMessage 20 0 buildCreateStreamResultAmf

end StreamInfa.Ingest
