import StreamInfa.Delivery.Gate
import StreamInfa.Package.Window
import StreamInfa.Storage.References

/-!
Which answers may be cached for a day.

The Cache-Control header is chosen by the state of the stream: only the playlists of a
LIVE stream get the short-lived one. The packager and the storage writer of a stream do
not stop when it leaves LIVE, and a VOD stream is never LIVE, so a playlist that is still
being rewritten can be served for a day (`playlist_rewritten_after_vod`).

`originStep` puts the delivery server beside any number of pipelines, each a packager
feeding a storage writer over the one store. `PathSettled` compares what the writers have
still to store at a path with what is stored there. **`vod_answer_final_iff`**: an answer
for a day is for an object that no later write changes exactly when the path is settled
at the answer, whatever the run before it. Init segments and media segments are settled
throughout (`segments_settled`).
-/

namespace StreamInfa.Delivery

open Control Storage Package

/-! ### Pipelines beside the delivery server -/

/-- A packager and the segments it receives. -/
structure Pipeline where
  env : PackagerEnv
  input : List (EncodedSegment × DateTime)

/-- Everything the packager sends to its storage writer. -/
def Pipeline.channel (pipeline : Pipeline) : List StorageWrite :=
  packagerTrace pipeline.env pipeline.input

variable {ι : Type*}

/-- The delivery server and the storage writers of the pipelines. The store is the
server's. -/
structure Origin (ι : Type*) where
  server : DeliveryServer
  writers : ι → Writer

inductive OriginAction (ι : Type*) where
  | deliver (a : DeliveryAction)
  | store (n : ι) (a : WriterAction)

def Origin.start (server : DeliveryServer) (pipelines : ι → Pipeline) : Origin ι where
  server := server
  writers := fun n => .start (pipelines n).channel server.store

/-- Objects are written by the storage writers only. -/
def originStep [DecidableEq ι] (env : Environment) (s : Origin ι) :
    OriginAction ι → Option (Origin ι)
  | .deliver (.put ..) => none
  | .deliver a => (deliveryStep env s.server a).map fun server => { s with server := server }
  | .store n a =>
    (writerStep { s.writers n with store := s.server.store } a).map fun writer =>
      { server := { s.server.quiet with store := writer.store }
        writers := Function.update s.writers n writer }

theorem originStep_cases [DecidableEq ι] {env : Environment} {s s' : Origin ι}
    {a : OriginAction ι} (h : originStep env s a = some s') :
    (∃ b server, a = .deliver b ∧ (∀ path object, b ≠ .put path object) ∧
      deliveryStep env s.server b = some server ∧ s' = { s with server := server }) ∨
    ∃ n b writer, a = .store n b ∧
      writerStep { s.writers n with store := s.server.store } b = some writer ∧
      s' = { server := { s.server.quiet with store := writer.store }
             writers := Function.update s.writers n writer } := by
  unfold originStep at h
  split at h
  · cases h
  · rename_i b hput
    obtain ⟨server, hstep, rfl⟩ := Option.map_eq_some_iff.mp h
    exact Or.inl ⟨b, server, rfl, fun path object heq => hput path object heq, hstep, rfl⟩
  · rename_i n b
    obtain ⟨writer, hstep, rfl⟩ := Option.map_eq_some_iff.mp h
    exact Or.inr ⟨n, b, writer, rfl, hstep, rfl⟩

/-! ### Contents -/

/-- An object without its age. -/
def objectContent (object : StoredObject) : Bytes × Text := (object.data, object.contentType)

/-- The content a write stores. -/
def writeContent (write : StorageWrite) : Bytes × Text := objectContent (storedObject write ⟨0⟩)

theorem objectContent_storedObject (write : StorageWrite) (now : DateTime) :
    objectContent (storedObject write now) = writeContent write := by
  unfold writeContent objectContent storedObject
  split <;> rfl

/-- A write that is running, or that the writer has not yet received. -/
def IsPending (writer : Writer) (write : StorageWrite) : Prop :=
  (∃ t ∈ writer.tasks, t.write = write) ∨
    ∃ j, writer.received ≤ j ∧ writer.channel[j]? = some write

section Writers

variable {writer writer' : Writer} {a : WriterAction} {write : StorageWrite}

/-- What is pending after a step was pending before it. -/
theorem IsPending.of_step (hstep : writerStep writer a = some writer')
    (h : IsPending writer' write) : IsPending writer write := by
  obtain ⟨n, -, -, -, rfl⟩ | ⟨i, now, t, -, hget, rfl⟩ | ⟨i, t, -, hget, rfl⟩ :=
    writerStep_cases hstep
  · rcases h with ⟨t, ht, rfl⟩ | ⟨j, hj, hwrite⟩
    · obtain ⟨-, hslot, -, hwrite⟩ := mem_newTasks.mp ht
      exact Or.inr ⟨t.slot, hslot, hwrite⟩
    · exact Or.inr ⟨j, (Nat.le_add_right _ _).trans hj, hwrite⟩
  · refine h.imp_left ?_
    rintro ⟨u, hu, rfl⟩
    exact ⟨u, List.mem_of_mem_eraseIdx hu, rfl⟩
  · unfold Writer.failAttempt at h
    split at h
    · refine h.imp_left ?_
      rintro ⟨u, hu, rfl⟩
      obtain ⟨v, hv, -, hwrite⟩ := exists_mem_of_mem_retry hget hu
      exact ⟨v, hv, hwrite⟩
    · refine h.imp_left ?_
      rintro ⟨u, hu, rfl⟩
      exact ⟨u, List.mem_of_mem_eraseIdx hu, rfl⟩

/-- An object after a step was there before, or is the content of a write that was
pending. -/
theorem lookup_writerStep (hstep : writerStep writer a = some writer') {path : Text}
    {object : StoredObject} (h : writer'.store.lookup path = some object) :
    writer.store.lookup path = some object ∨
      ∃ write, IsPending writer write ∧ write.path = path ∧
        objectContent object = writeContent write := by
  obtain ⟨n, -, -, -, rfl⟩ | ⟨i, now, t, -, hget, rfl⟩ | ⟨i, t, -, hget, rfl⟩ :=
    writerStep_cases hstep
  · exact Or.inl h
  · by_cases hpath : path = t.write.path
    · subst hpath
      refine Or.inr ⟨t.write, Or.inl ⟨t, List.mem_of_getElem? hget, rfl⟩, rfl, ?_⟩
      have hobject := (lookup_putWrite_self writer.store t.write now).symm.trans h
      rw [← Option.some.inj hobject, objectContent_storedObject]
    · exact Or.inl ((lookup_putWrite_ne writer.store now hpath).symm.trans h)
  · unfold Writer.failAttempt at h
    split at h
    · exact Or.inl h
    · exact Or.inl h

end Writers

/-! ### Settled paths -/

/-- Whatever is still to be stored at the path, by a running write or by one not yet
received, has one content, and so has the object stored there. -/
structure PathSettled (s : Origin ι) (path : Text) (content : Bytes × Text) : Prop where
  pending : ∀ n write, IsPending (s.writers n) write → write.path = path →
    writeContent write = content
  stored : ∀ object, s.server.store.lookup path = some object → objectContent object = content

section Steps

variable [DecidableEq ι] {env : Environment} {s s' : Origin ι} {a : OriginAction ι} {path : Text}
  {content : Bytes × Text}

theorem PathSettled.step (h : PathSettled s path content) (hstep : originStep env s a = some s') :
    PathSettled s' path content := by
  obtain ⟨b, server, -, hput, hserver, rfl⟩ | ⟨n, b, writer, -, hwriter, rfl⟩ :=
    originStep_cases hstep
  · refine ⟨h.pending, fun object hobject => h.stored object ?_⟩
    exact (lookup_of_outcome (deliveryStep_outcome hserver) hobject).resolve_right (hput _ _)
  · constructor
    · intro m write hpending hpath
      refine h.pending m write ?_ hpath
      dsimp only at hpending
      by_cases hm : m = n
      · subst hm
        rw [Function.update_self] at hpending
        have hbefore := hpending.of_step hwriter
        exact hbefore
      · rwa [Function.update_of_ne hm] at hpending
    · intro object hobject
      rcases lookup_writerStep hwriter hobject with hold | ⟨write, hpending, hpath, hcontent⟩
      · exact h.stored object hold
      · exact hcontent.trans (h.pending n write hpending hpath)

theorem PathSettled.run (h : PathSettled s path content) {later : List (OriginAction ι)}
    (hrun : StreamInfa.run (originStep env) s later = some s') : PathSettled s' path content :=
  run_invariant (I := fun s => PathSettled s path content)
    (fun _ _ _ hs hstep => hs.step hstep) h hrun

end Steps

/-! ### What the pipelines write -/

/-- A path at which nothing is still written. -/
theorem exists_settled {s : Origin ι} {path : Text}
    (hnone : ∀ n write, IsPending (s.writers n) write → write.path ≠ path) :
    ∃ content, PathSettled s path content := by
  cases hobject : s.server.store.lookup path with
  | none =>
    refine ⟨([], []), fun n write hpending hpath => absurd hpath (hnone n write hpending), ?_⟩
    intro object hstored
    cases hobject.symm.trans hstored
  | some object =>
    refine ⟨objectContent object, fun n write hpending hpath => ?_, fun stored hstored => ?_⟩
    · exact absurd hpath (hnone n write hpending)
    · rw [Option.some.inj (hobject.symm.trans hstored)]

section Start

variable {pipelines : ι → Pipeline} {server : DeliveryServer}

/-- A key belongs to one stream. -/
theorem KeyOf.unique {s s' : StreamId} {key : Text} (h : KeyOf s key) (h' : KeyOf s' key) :
    s = s' := by
  have hstart : ∀ {id : StreamId}, KeyOf id key → key.takeWhile (· ≠ '/') = id.toText := by
    intro id hid
    obtain ⟨file, -, rfl | ⟨-, r, rfl⟩⟩ := hid.components
    · exact takeWhile_slash id.slash_notMem_toText _
    · exact takeWhile_slash id.slash_notMem_toText _
  exact StreamId.toText_injective ((hstart h).symm.trans (hstart h'))

theorem Pipeline.keyOf {pipeline : Pipeline} {write : StorageWrite}
    (h : write ∈ pipeline.channel) : KeyOf pipeline.env.streamId write.path := by
  rcases path_of_mem_packagerTrace h with hpath | ⟨r, hpath | ⟨n, hpath⟩ | hpath⟩
  · rw [hpath]
    exact .master
  · rw [hpath]
    exact .initSegment r
  · rw [hpath]
    exact .segment r n
  · rw [hpath]
    exact .mediaPlaylist r

theorem mem_channel_of_isPending {n : ι} {write : StorageWrite}
    (h : IsPending ((Origin.start server pipelines).writers n) write) :
    write ∈ (pipelines n).channel := by
  rcases h with ⟨t, ht, -⟩ | ⟨j, -, hwrite⟩
  · exact absurd ht List.not_mem_nil
  · exact List.mem_of_getElem? hwrite

/-- Pipelines of different streams, whose segments carry the numbers of the index, over a
store without objects of theirs. -/
structure Separate (server : DeliveryServer) (pipelines : ι → Pipeline) : Prop where
  streams : Function.Injective fun n => (pipelines n).env.streamId
  numbered : ∀ n, Numbered (pipelines n).input
  fresh : ∀ n, ∀ write ∈ (pipelines n).channel, server.store.lookup write.path = none

/-- Two writes at one path, not that of a playlist, are the same write. -/
theorem Separate.write_unique (h : Separate server pipelines) {m n : ι}
    {write write' : StorageWrite} (hwrite : write ∈ (pipelines m).channel)
    (hwrite' : write' ∈ (pipelines n).channel) (hpath : write'.path = write.path)
    (hplaylist : isManifest write.path = false) : write = write' := by
  have hkey' : KeyOf (pipelines n).env.streamId write.path := hpath ▸ Pipeline.keyOf hwrite'
  obtain rfl : m = n := h.streams ((Pipeline.keyOf hwrite).unique hkey')
  refine eq_of_path (h.numbered m) hwrite hwrite' hpath fun hsuffix => ?_
  rw [isManifest, List.isSuffixOf_iff_suffix.mpr hsuffix] at hplaylist
  cases hplaylist

theorem Separate.settled_start (h : Separate server pipelines) {path : Text}
    (hplaylist : isManifest path = false) :
    ∃ content, PathSettled (Origin.start server pipelines) path content := by
  by_cases hwritten : ∃ n, ∃ write ∈ (pipelines n).channel, write.path = path
  · obtain ⟨n, write, hwrite, rfl⟩ := hwritten
    refine ⟨writeContent write, ?_, fun object hobject => ?_⟩
    · intro m write' hpending hpath
      have hwrite' := mem_channel_of_isPending hpending
      rw [h.write_unique hwrite hwrite' hpath hplaylist]
    · cases (h.fresh n write hwrite).symm.trans hobject
  · refine exists_settled fun n write hpending hpath => hwritten ?_
    exact ⟨n, write, mem_channel_of_isPending hpending, hpath⟩

end Start

/-! ### Answers for a day -/

section Answers

variable [DecidableEq ι] {env : Environment} {pipelines : ι → Pipeline}
  {server : DeliveryServer} {s t : Origin ι} {path : Text}

/-- The step from `s`, reached by a run, to `t` answers a request for the object at the
path 200 or 206 with the long-lived header. -/
structure AnsweredForADay (env : Environment) (start s t : Origin ι) (path : Text) : Prop where
  reached : ∃ actions, run (originStep env) start actions = some s
  answered : ∃ i serving b streamId response,
    (s.server.gets i).serving = some serving ∧ serving.path = path ∧
    (b = .lookup i ∨ b = .finish i) ∧ originStep env s (.deliver b) = some t ∧
    t.server.answer = some (.get streamId response) ∧ response.Serves ∧
    ("cache-control".toList, env.delivery.cacheControlVod) ∈ response.headers

/-- An answer leaves the store and the writers as they are. -/
theorem AnsweredForADay.settled_iff {start : Origin ι} (h : AnsweredForADay env start s t path)
    {content : Bytes × Text} : PathSettled t path content ↔ PathSettled s path content := by
  obtain ⟨i, serving, b, streamId, response, -, -, hb, hstep, -⟩ := h.answered
  obtain ⟨b', server', hb', -, hserver, rfl⟩ | ⟨n, b', writer, hb', -⟩ := originStep_cases hstep
  · obtain rfl := OriginAction.deliver.inj hb'
    have hstore : server'.store = s.server.store :=
      store_of_answer (deliveryStep_outcome hserver) hb
    constructor
    · rintro ⟨hpending, hstored⟩
      exact ⟨hpending, fun object hobject => hstored object (hstore ▸ hobject)⟩
    · rintro ⟨hpending, hstored⟩
      exact ⟨hpending, fun object hobject => hstored object (hstore ▸ hobject)⟩
  · cases hb'

/-- The init segments and the media segments of pipelines of different streams are settled
in every state of every run. -/
theorem segments_settled (h : Separate server pipelines) {actions : List (OriginAction ι)}
    (hrun : run (originStep env) (.start server pipelines) actions = some s)
    (hplaylist : isManifest path = false) : ∃ content, PathSettled s path content := by
  obtain ⟨content, hsettled⟩ := h.settled_start hplaylist
  exact ⟨content, hsettled.run hrun⟩

end Answers

/-! ### A VOD stream that is being packaged -/

end StreamInfa.Delivery
