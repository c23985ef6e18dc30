import StreamInfa.Ingest.Upload
import StreamInfa.Ingest.VodPlayback

/-!
From the upload of a file to its playback, in a build without FFmpeg.

A request that is answered 201 leaves the contents of its file part in the temp file and the
stream's record in PROCESSING (`created_spec`), which is what the pipeline of the file starts
with.
-/

namespace StreamInfa.Ingest

open Control Transcode Package Storage

/-- What the server adds to an upload when it starts the pipeline. -/
structure VodServer where
  ladder : List TranscodeProfile
  keyframeIntervalSecs : ℕ
  packaging : PackagingConfig

/-- The pipeline of an accepted upload. -/
def VodServer.pipeline (server : VodServer) (env : UploadEnv) (files : Map Text Bytes)
    (sourceWidth sourceHeight : UInt32) (sourceFps : ℚ) : VodConfig where
  streamId := env.streamId
  file := (files.lookup (tempFilePath env.streamId)).getD []
  sourceWidth := sourceWidth
  sourceHeight := sourceHeight
  sourceFps := sourceFps
  ladder := server.ladder
  keyframeIntervalSecs := server.keyframeIntervalSecs
  packaging := server.packaging

section Created

variable {env : UploadEnv} {s s' : UploadState} {path : Text} {fileSize : ℕ}

/-- A record that has just been created and moved to PROCESSING awaits its renditions. -/
theorem awaiting_of_transition {m m' : StreamStateManager} {streamId : StreamId}
    {createdAt acceptedAt : DateTime} {entry : StreamEntry}
    (h : (m.createStream streamId .vod createdAt).2.transition streamId .processing acceptedAt =
      .ok (entry, m')) : m'.streams.lookup streamId = some entry ∧ Awaiting entry := by
  have hcreated : (m.createStream streamId .vod createdAt).2.streams.lookup streamId =
      some (m.createStream streamId .vod createdAt).1 := AList.lookup_insert _
  rw [StreamStateManager.transition, hcreated] at h
  simp only [StreamStateManager.createStream, StreamMetadata.new] at h
  obtain ⟨rfl, rfl⟩ := Prod.mk.inj (Except.ok.inj h)
  exact ⟨AList.lookup_insert _, rfl, rfl, rfl⟩

/-- An upload that is processed has a record in PROCESSING, and its file is left alone. -/
theorem processUpload_ok {response : UploadResponse}
    (h : processUpload env path fileSize s = (.ok response, s')) :
    s'.files = s.files ∧ ∃ entry, s'.manager.streams.lookup env.streamId = some entry ∧
      Awaiting entry := by
  unfold processUpload at h
  split at h
  · cases h
  · split at h
    · cases h
    · split at h
      · cases h
      · simp only at h
        split at h
        · cases h
        · rename_i probe _ _ _ x entry manager hmoved
          obtain ⟨hentry, hawaiting⟩ := awaiting_of_transition hmoved
          obtain ⟨-, rfl⟩ := Prod.mk.inj h
          refine ⟨rfl, { entry with metadata := { entry.metadata with
            mediaInfo := some (probe.toMediaInfo env.streamId) } }, ?_, hawaiting.state,
            hawaiting.renditions, hawaiting.expected⟩
          simp only [StreamStateManager.setMediaInfo, StreamStateManager.modifyEntry,
            Map.lookup_adjust_self, hentry, Option.map_some]

/-- What an upload that is answered 201 leaves behind: the contents of the file part that it
delivers, and a record in PROCESSING. -/
theorem created_spec {request : UploadRequest} {response : UploadResponse}
    {sourceWidth sourceHeight : UInt32} {sourceFps : ℚ}
    (h : uploadVod env request s = (.created response sourceWidth sourceHeight sourceFps, s')) :
    ∃ contents, Delivers env request contents ∧
      s'.files.lookup (tempFilePath env.streamId) = some contents ∧
        ∃ entry, s'.manager.streams.lookup env.streamId = some entry ∧ Awaiting entry := by
  unfold uploadVod at h
  cases hdir : env.createDirFault with
  | some e =>
    simp only [hdir] at h
    cases h
  | none =>
    cases hcreate : env.createFault with
    | some e =>
      simp only [hdir, hcreate] at h
      cases h
    | none =>
      simp only [hdir, hcreate] at h
      rcases @receiveFile_outcome env.config.maxUploadSizeBytes.toNat (tempFilePath env.streamId)
        (s.files.insert (tempFilePath env.streamId) []) (AList.lookup_insert _) request.fault
        request.parts with
        ⟨contents, files, hfits, hreceive, hfile⟩ |
        ⟨-, ⟨files, hreceive⟩ | ⟨refusal, files, hreceive, -⟩⟩
      · simp only [hreceive] at h
        cases hflush : env.flushFault with
        | some e =>
          simp only [hflush] at h
          cases h
        | none =>
          refine ⟨contents, ⟨hdir, hcreate, hfits, hflush⟩, ?_⟩
          simp only [hflush] at h
          split at h
          · rename_i hprocess
            obtain ⟨hfiles, hentry⟩ := processUpload_ok hprocess
            obtain ⟨-, rfl⟩ := Prod.mk.inj h
            exact ⟨hfiles ▸ hfile, hentry⟩
          · cases h
      · simp only [hreceive] at h
        cases h
      · simp only [hreceive] at h
        cases h

end Created

/-- **What is uploaded is played.** An upload that is answered 201 delivers the contents of a file
part. When the tasks that it starts are all done, whatever their interleaving, and its record is
READY, and the storage writer has put all that the packager wrote, with no put given up and no last
write overtaken: a player gets these contents, byte for byte, for every rendition, as long as
keyframes are no more than 48 minutes apart and no upload may be larger than 1 PiB. The record is
READY unless the ladder is empty, the temp file could not be opened or read, two renditions share an
id or the file ends right behind a cut. -/
theorem upload_plays_back (server : VodServer) (env : UploadEnv) (request : UploadRequest)
    (u u' : UploadState) (response : UploadResponse) (sourceWidth sourceHeight : UInt32)
    (sourceFps : ℚ) (cfg : VodConfig) (as : List VodAction) (s : VodTasks) (store : MediaStore)
    (puts : List WriterAction) (writer : Writer)
    (hupload : uploadVod env request u =
      (.created response sourceWidth sourceHeight sourceFps, u'))
    (hcfg : cfg = server.pipeline env u'.files sourceWidth sourceHeight sourceFps)
    (hsize : env.config.maxUploadSizeBytes.toNat ≤ 2 ^ 50)
    (hinterval : server.keyframeIntervalSecs ≤ 2900)
    (hrun : run (vodStep cfg) (.start u'.manager) as = some s) (hsettled : s.Settled)
    (hputs : Meets writerStep (fun s a => PutsSucceed s a ∧ KeepsLast s a)
      (Writer.start s.packager.writes store) puts)
    (hwriter : run writerStep (Writer.start s.packager.writes store) puts = some writer)
    (hdone : writer.received = writer.channel.length ∧ writer.tasks = []) :
    ∃ contents final, Delivers env request contents ∧
      s.manager.streams.lookup env.streamId = some final ∧
      (¬ cfg.Fails as → cfg.Completes as → final.state = .ready) ∧
      (final.state = .ready → ∀ r ∈ cfg.ids,
        playVod (fun path => (writer.store.lookup path).map StoredObject.data)
          env.streamId.toText r.asStr = some contents) := by
  obtain ⟨contents, hdelivers, hcontents, entry, hentry, hawaiting⟩ := created_spec hupload
  have hfile : cfg.file = contents := by
    rw [hcfg, VodServer.pipeline, hcontents, Option.getD_some]
  have hid : cfg.streamId = env.streamId := by rw [hcfg, VodServer.pipeline]
  have hlen : cfg.file.length ≤ 2 ^ 50 := by
    obtain ⟨part, -, -, -, hfits⟩ := hdelivers.file
    rw [saturatingAdd, Delivery.u64Max] at hfits
    rw [hfile]
    omega
  rw [← hid] at hentry ⊢
  obtain ⟨final, hfinal, hcases⟩ := settled_cases hlen hentry hawaiting hrun hsettled
  refine ⟨contents, final, hdelivers, hfinal, fun hfails hcompletes => ?_, fun hready => ?_⟩
  · rcases hcases with ⟨h, -⟩ | ⟨-, -, hstate⟩ | ⟨-, h, -⟩
    · exact absurd h hfails
    · exact hstate
    · exact absurd hcompletes h
  · rw [← hfile]
    refine plays_of_ready hlen ?_ hentry hawaiting hrun hsettled hfinal hready hputs hwriter hdone
    rw [hcfg, VodServer.pipeline]
    exact hinterval

/-- A ladder of one rung, under default intervals. -/
def oneRungServer : VodServer where
  ladder := oneByte.ladder
  keyframeIntervalSecs := 2
  packaging := ⟨6, 5⟩

theorem upload_mp4Header : ∃ response u',
    uploadVod defaultUpload (fileRequest mp4Header) emptyServer =
      (.created response 1920 1080 30, u') := ⟨_, _, rfl⟩

/-- The start of an MP4 file is uploaded, becomes READY and plays back. -/
theorem upload_plays_back_mp4Header : ∃ (u' : UploadState) (cfg : VodConfig) (as : List VodAction)
    (s : VodTasks) (puts : List WriterAction) (writer : Writer),
    run (vodStep cfg) (.start u'.manager) as = some s ∧
      run writerStep (Writer.start s.packager.writes ∅) puts = some writer ∧ cfg.ids ≠ [] ∧
        ∀ r ∈ cfg.ids, playVod (fun path => (writer.store.lookup path).map StoredObject.data)
          defaultUpload.streamId.toText r.asStr = some mp4Header := by
  obtain ⟨response, u', hupload⟩ := upload_mp4Header
  obtain ⟨contents, hdelivers, hcontents, -⟩ := created_spec hupload
  obtain rfl := delivers_mp4Header.unique hdelivers
  generalize hcfg : oneRungServer.pipeline defaultUpload u'.files 1920 1080 30 = cfg
  have hfile : cfg.file = mp4Header := by
    rw [← hcfg, VodServer.pipeline, hcontents, Option.getD_some]
  have hids : cfg.ids = [.source] := by
    rw [← hcfg]
    rfl
  have hsome : cfg.renditions ≠ [] := by
    intro hnone
    rw [VodConfig.ids, hnone] at hids
    cases hids
  obtain ⟨as, s, hrun, hsettled, hfails, hcompletes⟩ := @exists_settled_fedAtOnce cfg
    (by rw [hfile]; exact List.cons_ne_nil _ _) (by rw [hfile]; decide) hsome
    (by rw [hids]; exact List.nodup_singleton _) (by rw [← hcfg]; exact Nat.two_pos) u'.manager
  obtain ⟨puts, writer, hputs, hwriter, hdone⟩ := exists_drained s.packager.writes ∅
  obtain ⟨contents, final, hdelivers', -, hready, hplays⟩ := upload_plays_back oneRungServer
    defaultUpload (fileRequest mp4Header) emptyServer u' response 1920 1080 30 cfg as s ∅ puts
    writer hupload hcfg.symm (by decide) (by decide) hrun hsettled hputs hwriter hdone
  rw [delivers_mp4Header.unique hdelivers'] at hplays
  exact ⟨u', cfg, as, s, puts, writer, hrun, hwriter, by rw [hids]; exact List.cons_ne_nil _ _,
    hplays (hready hfails hcompletes)⟩

end StreamInfa.Ingest
