import StreamInfa.Control.State
import StreamInfa.Delivery.Serve

/-!
Uploads of whole files (`upload_vod` of `src/delivery/handlers.rs`, with
`src/ingest/http_upload.rs` and `src/ingest/validator.rs`).

A request streams its file part to a temporary file, which is then probed and validated before
the stream gets a record. A request that fails on the way is to leave neither the file nor a
record. The probe depends on the build; `probePlaceholder` is the one without FFmpeg.

Every return cleans up by hand, and the one behind the probe does not (`unknown_file_stays`).
**`leaves_nothing_iff`**: a request that is not answered 201 leaves nothing behind exactly if the
probe refuses no file that it delivers.
-/

namespace StreamInfa.Ingest

open Control
open Delivery (Response errorJson u64Max)

/-! ### Validation -/

/-- The ingest configuration an upload reads. -/
structure IngestConfig where
  maxUploadSizeBytes : UInt64
  allowedCodecs : List Text
  allowedAudioCodecs : List Text
  maxDurationSecs : ℚ
deriving DecidableEq, Repr

/-- Result of probing an uploaded file. -/
structure ProbeResult where
  container : Container
  videoCodec : VideoCodec
  videoWidth : UInt32
  videoHeight : UInt32
  frameRate : ℚ
  audioCodec : Option AudioCodec
  audioSampleRate : Option UInt32
  audioChannels : Option UInt8
  durationSecs : Option ℚ
  videoBitrateKbps : Option UInt32
  audioBitrateKbps : Option UInt32
deriving DecidableEq, Repr

/-- Convert a probe result into media info. -/
def ProbeResult.toMediaInfo (probe : ProbeResult) (streamId : StreamId) : MediaInfo where
  streamId := streamId
  videoCodec := probe.videoCodec
  videoWidth := probe.videoWidth
  videoHeight := probe.videoHeight
  videoBitrateKbps := probe.videoBitrateKbps
  frameRate := probe.frameRate
  audioCodec := probe.audioCodec
  audioSampleRate := probe.audioSampleRate
  audioChannels := probe.audioChannels
  audioBitrateKbps := probe.audioBitrateKbps
  durationSecs := probe.durationSecs
  container := probe.container

def Validator.maxResolutionWidth : UInt32 := 3840
def Validator.maxResolutionHeight : UInt32 := 2160

/-- Validate an uploaded file against the configured rules. -/
def validateUpload (probe : ProbeResult) (config : IngestConfig) : Except IngestError Unit := do
  if probe.container = .flv then
    throw (.unsupportedFormat probe.container.toText)
  if !config.allowedCodecs.any fun c => c = probe.videoCodec.toText then
    throw (.unsupportedCodec probe.videoCodec.toText)
  probe.audioCodec.forM fun audioCodec => do
    if !config.allowedAudioCodecs.any fun c => c = audioCodec.toText then
      throw (.unsupportedCodec audioCodec.toText)
  probe.durationSecs.forM fun duration => do
    if config.maxDurationSecs < duration then
      throw (.durationExceeded duration config.maxDurationSecs)
  if probe.videoWidth = 0 ∨ probe.videoHeight = 0 then
    throw (.invalidResolution probe.videoWidth probe.videoHeight)
  if Validator.maxResolutionWidth < probe.videoWidth ∨
      Validator.maxResolutionHeight < probe.videoHeight then
    throw (.invalidResolution probe.videoWidth probe.videoHeight)

/-! ### The probe -/

/-- What the file system says to the probe of a file that is there. -/
structure ProbeFaults where
  metadata : Option Text
  opening : Option Text
  reading : Option Text
deriving DecidableEq, Repr

/-- The container the first bytes of a file show. -/
def detectContainer (header : Bytes) : Option Container :=
  if 12 ≤ header.length ∧ (header.drop 4).take 4 = encodeUtf8 "ftyp".toList then some .mp4
  else if 4 ≤ header.length ∧ header.take 4 = [0x1A, 0x45, 0xDF, 0xA3] then some .mkv
  else none

/-- The probe without FFmpeg: magic bytes and conservative defaults. -/
def probePlaceholder (faults : ProbeFaults) (file : Option Bytes) :
    Except IngestError ProbeResult := do
  let some contents := file
    | throw (.corruptFile "cannot read file: No such file or directory (os error 2)".toList)
  if let some e := faults.metadata then
    throw (.corruptFile ("cannot read file: ".toList ++ e))
  if contents.length = 0 then
    throw (.corruptFile "file is empty".toList)
  if let some e := faults.opening then
    throw (.corruptFile ("cannot open file for probe: ".toList ++ e))
  if let some e := faults.reading then
    throw (.corruptFile ("cannot read file header: ".toList ++ e))
  let some container := detectContainer (contents.take 12)
    | throw (.unsupportedFormat "unknown (could not detect container from magic bytes)".toList)
  return {
    container := container
    videoCodec := .h264
    videoWidth := 1920
    videoHeight := 1080
    frameRate := 30
    audioCodec := some .aac
    audioSampleRate := some 48000
    audioChannels := some 2
    durationSecs := none
    videoBitrateKbps := none
    audioBitrateKbps := some 128 }

/-- The placeholder refuses a file it can read exactly if it does not know the container. -/
theorem probePlaceholder_error_iff (contents : Bytes) :
    (∃ e, probePlaceholder ⟨none, none, none⟩ (some contents) = .error e) ↔
      detectContainer (contents.take 12) = none := by
  cases contents with
  | nil => exact iff_of_true ⟨_, rfl⟩ rfl
  | cons b contents =>
    cases hdetect : detectContainer ((b :: contents).take 12) with
    | none =>
      refine iff_of_true ?_ rfl
      simp only [probePlaceholder, hdetect]
      exact ⟨_, rfl⟩
    | some container =>
      refine iff_of_false ?_ (Option.some_ne_none _)
      rintro ⟨e, he⟩
      simp only [probePlaceholder, hdetect] at he
      cases he

/-! ### The request -/

/-- A chunk of a part; if its write fails, with the error and how many bytes were written. -/
structure Chunk where
  data : Bytes
  writeFault : Option (ℕ × Text)
deriving DecidableEq, Repr

/-- A part of the multipart body; `fault` is the error its last read fails with. -/
structure Part where
  name : Option Text
  fileName : Option Text
  chunks : List Chunk
  fault : Option Text
deriving DecidableEq, Repr

/-- The body of a request, as the multipart parser gives it: the parts up to the end, or up to
an error. -/
structure UploadRequest where
  parts : List Part
  fault : Option Text
deriving DecidableEq, Repr

/-- A file-like part: it is called `file`, or has a file name. -/
def Part.isFile (part : Part) : Bool :=
  part.name = some "file".toList ∨ part.fileName.isSome

/-- What one upload meets: the id generated for it, the clock, the errors of the file system and
the probe of a file's contents. -/
structure UploadEnv where
  config : IngestConfig
  streamId : StreamId
  createdAt : DateTime
  acceptedAt : DateTime
  createDirFault : Option Text
  createFault : Option Text
  flushFault : Option Text
  probe : Option Bytes → Except IngestError ProbeResult

/-- The files and the stream records. -/
structure UploadState where
  files : Map Text Bytes
  manager : StreamStateManager

structure UploadResponse where
  streamId : Text
  status : Text
  uploadSizeBytes : ℕ
  detectedCodec : Text
  detectedAudio : Option Text
  durationSecs : Option ℚ
  resolution : Text
deriving DecidableEq, Repr

structure UploadErrorResponse where
  error : Text
  message : Text
  streamId : Option Text
deriving DecidableEq, Repr

inductive UploadAnswer where
  /-- 201; the pipeline runs on the file, with the size and the frame rate of the source. -/
  | created (response : UploadResponse) (sourceWidth sourceHeight : UInt32) (sourceFps : ℚ)
  | refused (response : Response)
  | rejected (status : ℕ) (response : UploadErrorResponse)
deriving DecidableEq, Repr

def UploadAnswer.status : UploadAnswer → ℕ
  | .created .. => 201
  | .refused response => response.status
  | .rejected status _ => status

/-- Map an ingest error to an HTTP status code. -/
def ingestErrorToStatusCode : IngestError → ℕ
  | .authFailed _ => 401
  | .uploadTooLarge .. => 413
  | .unsupportedFormat _ => 415
  | .unsupportedCodec _ | .invalidResolution .. | .durationExceeded .. | .corruptFile _ => 422
  | _ => 500

/-- Build an error response body from an ingest error. -/
def buildErrorResponse (err : IngestError) (streamId : Option StreamId) : UploadErrorResponse where
  error :=
    match err with
    | .unsupportedCodec _ => "unsupported_codec".toList
    | .unsupportedFormat _ => "unsupported_format".toList
    | .invalidResolution .. => "invalid_resolution".toList
    | .durationExceeded .. => "duration_exceeded".toList
    | .corruptFile _ => "corrupt_file".toList
    | .uploadTooLarge .. => "payload_too_large".toList
    | .authFailed _ => "unauthorized".toList
    | _ => "internal_error".toList
  message := err.toText
  streamId := streamId.map StreamId.toText

theorem ingestErrorToStatusCode_ne_created (err : IngestError) :
    ingestErrorToStatusCode err ≠ 201 := by
  cases err <;> simp [ingestErrorToStatusCode]

/-! ### The handler -/

def tempFilePath (streamId : StreamId) : Text :=
  "/tmp/streaminfa/uploads/".toList ++ streamId.toText ++ ".tmp".toList

/-- Write behind the end of a file. -/
def appendFile (files : Map Text Bytes) (path : Text) (data : Bytes) : Map Text Bytes :=
  files.adjust path (· ++ data)

/-- Remove the temporary file; the removal itself does not fail. -/
def cleanupTempFile (files : Map Text Bytes) (path : Text) : Map Text Bytes := files.erase path

def saturatingAdd (a b : ℕ) : ℕ := min (a + b) u64Max

/-- Write the chunks of the file part: the size of the file, or the answer to give up with. -/
def writeChunks (maxSize : ℕ) (path : Text) (fault : Option Text) :
    List Chunk → ℕ → Map Text Bytes → Except Response ℕ × Map Text Bytes
  | [], fileSize, files =>
    match fault with
    | some e =>
      (.error (errorJson 400 "invalid_upload".toList ("Invalid file chunk: ".toList ++ e)),
        cleanupTempFile files path)
    | none => (.ok fileSize, files)
  | chunk :: chunks, fileSize, files =>
    let fileSize := saturatingAdd fileSize chunk.data.length
    if maxSize < fileSize then
      (.error (errorJson 413 "payload_too_large".toList
          ("Upload exceeds max size (".toList ++ decimal maxSize ++ " bytes).".toList)),
        cleanupTempFile files path)
    else
      match chunk.writeFault with
      | some (written, e) =>
        (.error (errorJson 500 "upload_failed".toList ("Failed to write upload: ".toList ++ e)),
          cleanupTempFile (appendFile files path (chunk.data.take written)) path)
      | none => writeChunks maxSize path fault chunks fileSize (appendFile files path chunk.data)

/-- Read the body up to the first file part, and write that: its size, `none` without one. -/
def receiveFile (maxSize : ℕ) (path : Text) (fault : Option Text) :
    List Part → Map Text Bytes → Except Response (Option ℕ) × Map Text Bytes
  | [], files =>
    match fault with
    | some e =>
      (.error (errorJson 400 "invalid_multipart".toList
          ("Invalid multipart payload: ".toList ++ e)),
        cleanupTempFile files path)
    | none => (.ok none, files)
  | part :: parts, files =>
    if part.isFile then
      let (received, files) := writeChunks maxSize path part.fault part.chunks 0 files
      (received.map some, files)
    else receiveFile maxSize path fault parts files

/-- Process a completed upload file: probe, validate, and create the stream record. -/
def processUpload (env : UploadEnv) (path : Text) (fileSize : ℕ) (s : UploadState) :
    Except IngestError UploadResponse × UploadState :=
  if env.config.maxUploadSizeBytes.toNat < fileSize then
    (.error (.uploadTooLarge fileSize env.config.maxUploadSizeBytes.toNat),
      { s with files := cleanupTempFile s.files path })
  else
    match env.probe (s.files.lookup path) with
    | .error e => (.error e, s)
    | .ok probe =>
      match validateUpload probe env.config with
      | .error e => (.error e, { s with files := cleanupTempFile s.files path })
      | .ok () =>
        let manager := (s.manager.createStream env.streamId .vod env.createdAt).2
        match manager.transition env.streamId .processing env.acceptedAt with
        | .error e => (.error (.validationFailed e.toText), { s with manager := manager })
        | .ok (_, manager) =>
          (.ok {
              streamId := env.streamId.toText
              status := "processing".toList
              uploadSizeBytes := fileSize
              detectedCodec := probe.videoCodec.toText
              detectedAudio := probe.audioCodec.map AudioCodec.toText
              durationSecs := probe.durationSecs
              resolution := decimal probe.videoWidth.toNat ++ 'x' ::
                decimal probe.videoHeight.toNat },
            { s with
              manager := manager.setMediaInfo env.streamId (probe.toMediaInfo env.streamId) })

/-- The size and the frame rate the pipeline starts with. -/
def sourceOf (manager : StreamStateManager) (streamId : StreamId) : UInt32 × UInt32 × ℚ :=
  match (manager.streams.lookup streamId).bind fun entry => entry.metadata.mediaInfo with
  | some m => (m.videoWidth, m.videoHeight, m.frameRate)
  | none => (1920, 1080, 30)

/-- Handle an upload past its authentication. -/
def uploadVod (env : UploadEnv) (request : UploadRequest) (s : UploadState) :
    UploadAnswer × UploadState :=
  let path := tempFilePath env.streamId
  match env.createDirFault with
  | some e =>
    (.refused (errorJson 500 "upload_failed".toList
      ("Failed to prepare upload: ingest I/O error: ".toList ++ e)), s)
  | none =>
    match env.createFault with
    | some e =>
      (.refused (errorJson 500 "upload_failed".toList
        ("Failed to create upload temp file: ".toList ++ e)), s)
    | none =>
      match receiveFile env.config.maxUploadSizeBytes.toNat path request.fault request.parts
        (s.files.insert path []) with
      | (.error response, files) => (.refused response, { s with files := files })
      | (.ok none, files) =>
        (.refused (errorJson 400 "missing_file".toList
          "No file part found in multipart payload.".toList),
          { s with files := cleanupTempFile files path })
      | (.ok (some fileSize), files) =>
        match env.flushFault with
        | some e =>
          (.refused (errorJson 500 "upload_failed".toList
            ("Failed to flush upload file: ".toList ++ e)),
            { s with files := cleanupTempFile files path })
        | none =>
          match processUpload env path fileSize { s with files := files } with
          | (.ok response, s) =>
            let (sourceWidth, sourceHeight, sourceFps) := sourceOf s.manager env.streamId
            (.created response sourceWidth sourceHeight sourceFps, s)
          | (.error e, s) =>
            (.rejected (ingestErrorToStatusCode e) (buildErrorResponse e (some env.streamId)), s)

/-! ### What is left of it -/

/-- The file part arrives and is written to its end. -/
def Part.Whole (part : Part) : Prop :=
  part.fault = none ∧ ∀ chunk ∈ part.chunks, chunk.writeFault = none

def Part.data (part : Part) : Bytes := part.chunks.flatMap (·.data)

/-- The first file part has these contents, arrives and is written whole, and is not too large. -/
def FileFits (maxSize : ℕ) (parts : List Part) (contents : Bytes) : Prop :=
  ∃ part, parts.find? Part.isFile = some part ∧ part.Whole ∧ part.data = contents ∧
    saturatingAdd 0 contents.length ≤ maxSize

/-- The request delivers a whole file: it reaches the probe. -/
structure Delivers (env : UploadEnv) (request : UploadRequest) (contents : Bytes) : Prop where
  createDir : env.createDirFault = none
  create : env.createFault = none
  file : FileFits env.config.maxUploadSizeBytes.toNat request.parts contents
  flush : env.flushFault = none

/-- The upload has neither its temporary file nor a record. -/
structure LeavesNothing (streamId : StreamId) (s : UploadState) : Prop where
  file : s.files.lookup (tempFilePath streamId) = none
  record : s.manager.streams.lookup streamId = none

theorem lookup_cleanupTempFile (files : Map Text Bytes) (path : Text) :
    (cleanupTempFile files path).lookup path = none :=
  AList.lookup_erase path files

theorem saturatingAdd_saturatingAdd (a b c : ℕ) :
    saturatingAdd (saturatingAdd a b) c = saturatingAdd a (b + c) := by
  unfold saturatingAdd
  omega

theorem saturatingAdd_mono {a b c : ℕ} (h : b ≤ c) : saturatingAdd a b ≤ saturatingAdd a c := by
  unfold saturatingAdd
  omega

section Receive

variable {maxSize : ℕ} {path : Text} {files : Map Text Bytes} {written : Bytes}

/-- The chunks arrive and are written to the last one, within the size limit. -/
def ChunksFit (maxSize : ℕ) (fault : Option Text) (chunks : List Chunk) (written : Bytes) : Prop :=
  (fault = none ∧ ∀ chunk ∈ chunks, chunk.writeFault = none) ∧
    saturatingAdd 0 (written ++ chunks.flatMap (·.data)).length ≤ maxSize

/-- The chunks are all written behind what is in the file, or the file is removed. -/
theorem writeChunks_outcome (hfile : files.lookup path = some written)
    (hsize : saturatingAdd 0 written.length ≤ maxSize) (fault : Option Text) (chunks : List Chunk) :
    (ChunksFit maxSize fault chunks written ∧
      ∃ files', writeChunks maxSize path fault chunks (saturatingAdd 0 written.length) files =
        (.ok (saturatingAdd 0 (written ++ chunks.flatMap (·.data)).length), files') ∧
          files'.lookup path = some (written ++ chunks.flatMap (·.data))) ∨
    ¬ ChunksFit maxSize fault chunks written ∧
      ∃ response files', writeChunks maxSize path fault chunks (saturatingAdd 0 written.length)
        files = (.error response, files') ∧ response.status ≠ 201 ∧ files'.lookup path = none := by
  induction chunks generalizing files written with
  | nil =>
    cases fault with
    | none =>
      rw [List.flatMap_nil, List.append_nil]
      refine Or.inl ⟨⟨⟨rfl, fun chunk hchunk => ?_⟩, ?_⟩, files, rfl, hfile⟩
      · cases hchunk
      · rwa [List.flatMap_nil, List.append_nil]
    | some e =>
      refine Or.inr ⟨fun h => ?_, _, _, rfl, by simp [errorJson], lookup_cleanupTempFile files path⟩
      cases h.1.1
  | cons chunk chunks ih =>
    have hlength : saturatingAdd (saturatingAdd 0 written.length) chunk.data.length =
        saturatingAdd 0 (written ++ chunk.data).length := by
      rw [saturatingAdd_saturatingAdd, List.length_append]
    simp only [writeChunks, hlength]
    by_cases hlarge : maxSize < saturatingAdd 0 (written ++ chunk.data).length
    · rw [if_pos hlarge]
      refine Or.inr ⟨fun h => ?_, _, _, rfl, by simp [errorJson], lookup_cleanupTempFile files path⟩
      have hle := h.2
      rw [List.flatMap_cons, ← List.append_assoc, List.length_append] at hle
      exact absurd hlarge (Nat.not_lt.mpr
        ((saturatingAdd_mono (Nat.le_add_right _ _)).trans hle))
    · rw [if_neg hlarge]
      cases hfault : chunk.writeFault with
      | some x =>
        refine Or.inr ⟨fun h => ?_, _, _, rfl, by simp [errorJson], lookup_cleanupTempFile _ path⟩
        cases hfault.symm.trans (h.1.2 chunk List.mem_cons_self)
      | none =>
        have happended : (appendFile files path chunk.data).lookup path =
            some (written ++ chunk.data) := by
          rw [appendFile, Map.lookup_adjust_self, hfile, Option.map_some]
        have hfit : ChunksFit maxSize fault (chunk :: chunks) written ↔
            ChunksFit maxSize fault chunks (written ++ chunk.data) := by
          rw [ChunksFit, ChunksFit, List.forall_mem_cons, and_iff_right hfault, List.flatMap_cons,
            List.append_assoc]
        rw [hfit, List.flatMap_cons, ← List.append_assoc]
        exact ih happended (Nat.not_lt.mp hlarge)

/-- The file part is in the file, or there is no file part, or the file is removed. -/
theorem receiveFile_outcome (hfile : files.lookup path = some []) (fault : Option Text)
    (parts : List Part) :
    (∃ contents files', FileFits maxSize parts contents ∧
      receiveFile maxSize path fault parts files =
        (.ok (some (saturatingAdd 0 contents.length)), files') ∧
      files'.lookup path = some contents) ∨
    (¬ ∃ contents, FileFits maxSize parts contents) ∧
      ((∃ files', receiveFile maxSize path fault parts files = (.ok none, files')) ∨
      ∃ response files', receiveFile maxSize path fault parts files = (.error response, files') ∧
        response.status ≠ 201 ∧ files'.lookup path = none) := by
  induction parts with
  | nil =>
    refine Or.inr ⟨?_, ?_⟩
    · rintro ⟨contents, part, hpart, -⟩
      cases hpart
    · cases fault with
      | none => exact Or.inl ⟨files, rfl⟩
      | some e => exact Or.inr ⟨_, _, rfl, by simp [errorJson], lookup_cleanupTempFile files path⟩
  | cons part parts ih =>
    rw [receiveFile]
    cases hisFile : part.isFile with
    | false =>
      have hfits : ∀ contents, FileFits maxSize (part :: parts) contents ↔
          FileFits maxSize parts contents := by
        intro contents
        rw [FileFits, FileFits, List.find?_cons_of_neg (by rw [hisFile]; exact Bool.false_ne_true)]
      simp only [hfits, Bool.false_eq_true, if_false]
      exact ih
    | true =>
      have hfits : ∀ contents, FileFits maxSize (part :: parts) contents ↔
          part.Whole ∧ part.data = contents ∧ saturatingAdd 0 contents.length ≤ maxSize := by
        intro contents
        rw [FileFits, List.find?_cons_of_pos hisFile]
        simp
      simp only [hfits, if_true]
      have hempty : saturatingAdd 0 ([] : Bytes).length ≤ maxSize := Nat.zero_le _
      rcases writeChunks_outcome hfile hempty part.fault part.chunks with
        ⟨⟨hwhole, hsize⟩, files', hwrite, hwritten⟩ | ⟨hnot, response, files', hwrite, hrefused⟩
      · refine Or.inl ⟨part.data, files', ⟨hwhole, rfl, hsize⟩, ?_, hwritten⟩
        rw [show saturatingAdd 0 ([] : Bytes).length = 0 from rfl] at hwrite
        rw [hwrite]
        rfl
      · refine Or.inr ⟨?_, Or.inr ⟨response, files', ?_, hrefused⟩⟩
        · rintro ⟨contents, hwhole, rfl, hsize⟩
          exact hnot ⟨hwhole, hsize⟩
        · rw [show saturatingAdd 0 ([] : Bytes).length = 0 from rfl] at hwrite
          rw [hwrite]
          rfl

end Receive

section Upload

variable {env : UploadEnv} {path : Text} {fileSize : ℕ} {s : UploadState}

/-- A file the probe refuses stays; one that fails validation is removed. -/
theorem processUpload_outcome (hsize : fileSize ≤ env.config.maxUploadSizeBytes.toNat) :
    (∃ e, env.probe (s.files.lookup path) = .error e ∧
      processUpload env path fileSize s = (.error e, s)) ∨
    (∃ probe, env.probe (s.files.lookup path) = .ok probe) ∧
      ((∃ e, processUpload env path fileSize s =
        (.error e, { s with files := cleanupTempFile s.files path })) ∨
      ∃ response s', processUpload env path fileSize s = (.ok response, s')) := by
  unfold processUpload
  rw [if_neg (Nat.not_lt.mpr hsize)]
  cases hprobe : env.probe (s.files.lookup path) with
  | error e => exact Or.inl ⟨e, rfl, rfl⟩
  | ok probe =>
    refine Or.inr ⟨⟨probe, rfl⟩, ?_⟩
    dsimp only
    cases hvalid : validateUpload probe env.config with
    | error e => exact Or.inl ⟨e, rfl⟩
    | ok =>
      -- A record just created as VOD can move to PROCESSING.
      have hcreated := AList.lookup_insert (a := env.streamId) (b := (s.manager.createStream
        env.streamId .vod env.createdAt).1) s.manager.streams
      have htransition : ∃ x, (s.manager.createStream env.streamId .vod env.createdAt).2.transition
          env.streamId .processing env.acceptedAt = .ok x := by
        rw [StreamStateManager.transition, show (s.manager.createStream env.streamId .vod
          env.createdAt).2.streams.lookup env.streamId = _ from hcreated]
        exact ⟨_, rfl⟩
      obtain ⟨⟨entry, manager⟩, hmoved⟩ := htransition
      exact Or.inr ⟨_, _, by simp only [hmoved]; rfl⟩

theorem Delivers.unique {request : UploadRequest} {contents contents' : Bytes}
    (h : Delivers env request contents) (h' : Delivers env request contents') :
    contents' = contents := by
  obtain ⟨part, hpart, -, hdata, -⟩ := h.file
  obtain ⟨part', hpart', -, hdata', -⟩ := h'.file
  rw [← hdata, ← hdata', Option.some.inj (hpart.symm.trans hpart')]

/-- The upload was answered 201, or it leaves nothing behind. -/
def EndsClean (env : UploadEnv) (result : UploadAnswer × UploadState) : Prop :=
  result.1.status ≠ 201 → LeavesNothing env.streamId result.2

/-- Only a file that the probe refuses stays behind. -/
theorem uploadVod_outcome (env : UploadEnv) (request : UploadRequest)
    (hfresh : LeavesNothing env.streamId s) :
    (¬ ∃ contents, Delivers env request contents) ∧ EndsClean env (uploadVod env request s) ∨
    ∃ contents, Delivers env request contents ∧
      ((∃ e, env.probe (some contents) = .error e) ∧ ¬ EndsClean env (uploadVod env request s) ∨
      (∃ probe, env.probe (some contents) = .ok probe) ∧
        EndsClean env (uploadVod env request s)) := by
  have hrecord := hfresh.record
  unfold uploadVod
  cases hdir : env.createDirFault with
  | some e =>
    refine Or.inl ⟨fun ⟨contents, hdelivers⟩ => ?_, fun _ => hfresh⟩
    cases hdir.symm.trans hdelivers.createDir
  | none =>
    cases hcreate : env.createFault with
    | some e =>
      refine Or.inl ⟨fun ⟨contents, hdelivers⟩ => ?_, fun _ => hfresh⟩
      cases hcreate.symm.trans hdelivers.create
    | none =>
      rcases @receiveFile_outcome env.config.maxUploadSizeBytes.toNat (tempFilePath env.streamId)
        (s.files.insert (tempFilePath env.streamId) []) (AList.lookup_insert _) request.fault
        request.parts with
        ⟨contents, files, hfits, hreceive, hfile⟩ |
        ⟨hnone, ⟨files, hreceive⟩ | ⟨response, files, hreceive, -, hgone⟩⟩
      · simp only [hreceive]
        cases hflush : env.flushFault with
        | some e =>
          refine Or.inl ⟨fun ⟨contents', hdelivers⟩ => ?_,
            fun _ => ⟨lookup_cleanupTempFile files _, hrecord⟩⟩
          cases hflush.symm.trans hdelivers.flush
        | none =>
          refine Or.inr ⟨contents, ⟨hdir, hcreate, hfits, hflush⟩, ?_⟩
          obtain ⟨part, -, -, -, hsize⟩ := hfits
          have hprocessed := @processUpload_outcome env (tempFilePath env.streamId)
            (saturatingAdd 0 contents.length) { s with files := files } hsize
          simp only [hfile] at hprocessed
          rcases hprocessed with ⟨e, hprobe, hprocess⟩ |
            ⟨hprobe, ⟨e, hprocess⟩ | ⟨response, s', hprocess⟩⟩
          · refine Or.inl ⟨⟨e, hprobe⟩, fun h => ?_⟩
            simp only [hprocess] at h
            cases hfile.symm.trans (h (ingestErrorToStatusCode_ne_created e)).file
          · refine Or.inr ⟨hprobe, fun _ => ?_⟩
            simp only [hprocess]
            exact ⟨lookup_cleanupTempFile files _, hrecord⟩
          · refine Or.inr ⟨hprobe, fun h => ?_⟩
            simp only [hprocess] at h
            exact absurd rfl h
      · simp only [hreceive]
        exact Or.inl ⟨fun ⟨contents, hdelivers⟩ => hnone ⟨contents, hdelivers.file⟩,
          fun _ => ⟨lookup_cleanupTempFile files _, hrecord⟩⟩
      · simp only [hreceive]
        exact Or.inl ⟨fun ⟨contents, hdelivers⟩ => hnone ⟨contents, hdelivers.file⟩,
          fun _ => ⟨hgone, hrecord⟩⟩

/-- A request under a fresh id that is not answered 201 leaves nothing behind, exactly if the probe
refuses no file that the request delivers. -/
theorem leaves_nothing_iff (env : UploadEnv) (request : UploadRequest) (s : UploadState)
    (hfresh : LeavesNothing env.streamId s) :
    EndsClean env (uploadVod env request s) ↔
      ∀ contents, Delivers env request contents → ∀ e, env.probe (some contents) ≠ .error e := by
  rcases uploadVod_outcome env request hfresh with ⟨hnone, hclean⟩ |
    ⟨contents, hdelivers, ⟨⟨e, hprobe⟩, hleft⟩ | ⟨⟨probe, hprobe⟩, hclean⟩⟩
  · exact iff_of_true hclean fun contents hdelivers => absurd ⟨contents, hdelivers⟩ hnone
  · exact iff_of_false hleft fun h => h contents hdelivers e hprobe
  · refine iff_of_true hclean fun contents' hdelivers' e he => ?_
    rw [hdelivers.unique hdelivers', hprobe] at he
    cases he

end Upload

/-- An upload under the default limits, with the placeholder as its probe. -/
def defaultUpload : UploadEnv where
  config :=
    { maxUploadSizeBytes := 10737418240
      allowedCodecs := ["h264".toList]
      allowedAudioCodecs := ["aac".toList, "mp3".toList]
      maxDurationSecs := 21600 }
  streamId := ⟨1⟩
  createdAt := ⟨0⟩
  acceptedAt := ⟨1⟩
  createDirFault := none
  createFault := none
  flushFault := none
  probe := probePlaceholder ⟨none, none, none⟩

/-- A request with one file part, in one chunk. -/
def fileRequest (contents : Bytes) : UploadRequest :=
  ⟨[⟨some "file".toList, none, [⟨contents, none⟩], none⟩], none⟩

def emptyServer : UploadState := ⟨∅, .new⟩

theorem leavesNothing_emptyServer : LeavesNothing defaultUpload.streamId emptyServer := ⟨rfl, rfl⟩

/-- A text is refused as an unknown container, and stays. -/
theorem unknown_file_stays :
    LeavesNothing defaultUpload.streamId emptyServer ∧
      (uploadVod defaultUpload (fileRequest (encodeUtf8 "text".toList)) emptyServer).1.status =
        415 ∧
      (uploadVod defaultUpload (fileRequest (encodeUtf8 "text".toList)) emptyServer).2.files.lookup
        (tempFilePath defaultUpload.streamId) = some (encodeUtf8 "text".toList) ∧
      ¬ EndsClean defaultUpload
        (uploadVod defaultUpload (fileRequest (encodeUtf8 "text".toList)) emptyServer) := by
  have hstays : (uploadVod defaultUpload (fileRequest (encodeUtf8 "text".toList))
      emptyServer).2.files.lookup (tempFilePath defaultUpload.streamId) =
        some (encodeUtf8 "text".toList) := by decide
  refine ⟨leavesNothing_emptyServer, by decide, hstays, fun hclean => ?_⟩
  cases hstays.symm.trans (hclean (by decide)).file

/-- The start of an MP4 file. -/
def mp4Header : Bytes := [0, 0, 0, 24] ++ encodeUtf8 "ftypisom".toList

theorem delivers_mp4Header : Delivers defaultUpload (fileRequest mp4Header) mp4Header :=
  ⟨rfl, rfl, ⟨_, rfl, ⟨rfl, by decide⟩, rfl, by decide⟩, rfl⟩

/-- An upload to a server that takes H.265 only. -/
def hevcUpload : UploadEnv :=
  { defaultUpload with config := { defaultUpload.config with allowedCodecs := ["h265".toList] } }

/-- The file passes the probe, and is refused for its codec; nothing is left of it. -/
theorem leaves_nothing_iff_mp4Header :
    (uploadVod hevcUpload (fileRequest mp4Header) emptyServer).1.status = 422 ∧
      LeavesNothing hevcUpload.streamId
        (uploadVod hevcUpload (fileRequest mp4Header) emptyServer).2 := by
  have hrefused : (uploadVod hevcUpload (fileRequest mp4Header) emptyServer).1.status = 422 := by
    decide
  have hdelivered : Delivers hevcUpload (fileRequest mp4Header) mp4Header :=
    ⟨rfl, rfl, delivers_mp4Header.file, rfl⟩
  have hclean := (leaves_nothing_iff hevcUpload (fileRequest mp4Header) emptyServer
    leavesNothing_emptyServer).mpr fun contents hdelivers e he => by
      rw [hdelivered.unique hdelivers] at he
      exact absurd ((probePlaceholder_error_iff mp4Header).mp ⟨e, he⟩) (by decide)
  exact ⟨hrefused, hclean (by rw [hrefused]; decide)⟩

end StreamInfa.Ingest
