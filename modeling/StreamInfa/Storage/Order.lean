import StreamInfa.Storage.Writer

/-!
Which write an object holds when the writer is done.

A later write to a path should win over an earlier one. The writer does not promise
it: the tasks of a batch run concurrently, so two writes of one path that were
drained together are stored in either order (`superseded_write_wins`).

`KeepsLast` is the condition on a step under which nothing goes wrong: the put of the
last write to a path completes only when no earlier write of other content to that
path is still running. **`last_write_wins`**: in every run whose steps meet it, the
object at each path is in the end the data of the last write to the path.
-/

namespace StreamInfa.Storage

/-- The bytes a write leaves in the store. -/
def storedData (write : StorageWrite) : Bytes := (storedObject write ⟨0⟩).data

theorem storedObject_data (write : StorageWrite) (now : DateTime) :
    (storedObject write now).data = storedData write := by
  unfold storedData storedObject
  split <;> rfl

/-- Slot `j` holds the last write to its path. -/
def IsLastWrite (channel : List StorageWrite) (j : ℕ) (write : StorageWrite) : Prop :=
  channel[j]? = some write ∧
    ∀ k write', j < k → channel[k]? = some write' → write'.path ≠ write.path

/-- A step that does not put the last write to a path while an earlier write of other
content to it is running. -/
def KeepsLast (s : Writer) : WriterAction → Prop
  | .put i _ => ∀ t, s.tasks[i]? = some t → IsLastWrite s.channel t.slot t.write →
      ∀ t' ∈ s.tasks, t'.slot < t.slot → t'.write.path = t.write.path →
        storedData t'.write = storedData t.write
  | .batch _ | .fail _ => True

/-- A step that does not give up a write: a failed attempt has retries left. -/
def PutsSucceed (s : Writer) : WriterAction → Prop
  | .fail i => ∀ t, s.tasks[i]? = some t → t.attempt < maxRetries
  | .batch _ | .put _ _ => True

/-- The last write to a path, once it is neither queued nor running, is what the
path holds, and the tasks still running on the path would store the same. -/
def LastStored (s : Writer) : Prop :=
  ∀ j write, IsLastWrite s.channel j write → j < s.received → (∀ t ∈ s.tasks, t.slot ≠ j) →
    (∃ object, s.store.lookup write.path = some object ∧ object.data = storedData write) ∧
      ∀ t ∈ s.tasks, t.write.path = write.path → storedData t.write = storedData write

section Step

variable {s s' : Writer} {a : WriterAction}

theorem LastStored.batch {n : ℕ} (hlast : LastStored s) (htasks : s.tasks = []) :
    LastStored { s with received := s.received + n, tasks := s.newTasks n } := by
  intro j write hj hreceived hnot
  by_cases hold : j < s.received
  · refine ⟨(hlast j write hj hold (by simp [htasks])).1, fun t ht hpath => ?_⟩
    -- A task of the new batch comes after the last write to the path.
    obtain ⟨-, hslot, -, hwrite⟩ := mem_newTasks.mp ht
    exact absurd hpath (hj.2 t.slot t.write (by omega) hwrite)
  · refine absurd rfl (hnot ⟨j, write, 0⟩ ?_)
    exact mem_newTasks.mpr ⟨rfl, Nat.not_lt.mp hold, hreceived, hj.1⟩

theorem LastStored.complete {i : ℕ} {t : PutTask} {now : DateTime} (hwf : WellFormed s)
    (hlast : LastStored s) (hok : KeepsLast s (.put i now)) (hget : s.tasks[i]? = some t) :
    LastStored (s.complete i t now) := by
  intro j write hj hreceived hnot
  have hmem : t ∈ s.tasks := List.mem_of_getElem? hget
  by_cases hslot : t.slot = j
  · -- The last write itself is put.
    subst hslot
    have hwrite : t.write = write := hwf.write_eq hmem hj.1
    subst hwrite
    refine ⟨⟨_, lookup_putWrite_self s.store t.write now, storedObject_data _ _⟩, ?_⟩
    intro t' ht' hpath
    have ht'mem := List.mem_of_mem_eraseIdx ht'
    rcases Nat.lt_trichotomy t'.slot t.slot with hlt | heq | hgt
    · exact hok t hget hj t' ht'mem hlt hpath
    · exact absurd heq (hnot t' ht')
    · exact absurd hpath (hj.2 t'.slot t'.write hgt (hwf.running t' ht'mem).2)
  · have hnot' : ∀ t' ∈ s.tasks, t'.slot ≠ j := by
      intro t' ht'
      rcases mem_eraseIdx_or hget ht' with rfl | hrest
      · exact hslot
      · exact hnot t' hrest
    obtain ⟨⟨object, hobject, hdata⟩, hsame⟩ := hlast j write hj hreceived hnot'
    refine ⟨?_, fun t' ht' => hsame t' (List.mem_of_mem_eraseIdx ht')⟩
    by_cases hpath : write.path = t.write.path
    · refine ⟨storedObject t.write now, ?_, ?_⟩
      · rw [hpath]
        exact lookup_putWrite_self s.store t.write now
      · rw [storedObject_data, hsame t hmem hpath.symm]
    · exact ⟨object, (lookup_putWrite_ne s.store now hpath).trans hobject, hdata⟩

theorem LastStored.retry {i : ℕ} {t : PutTask} (hlast : LastStored s)
    (hget : s.tasks[i]? = some t) :
    LastStored { s with tasks := s.tasks.set i { t with attempt := t.attempt + 1 } } := by
  intro j write hj hreceived hnot
  have hnot' : ∀ t' ∈ s.tasks, t'.slot ≠ j := by
    intro t' ht' hslot
    obtain ⟨u, hu, huslot, -⟩ := exists_mem_retry hget ht'
    exact hnot u hu (huslot.trans hslot)
  refine ⟨(hlast j write hj hreceived hnot').1, fun t' ht' hpath => ?_⟩
  obtain ⟨u, hu, -, huwrite⟩ := exists_mem_of_mem_retry hget ht'
  rw [← huwrite] at hpath ⊢
  exact (hlast j write hj hreceived hnot').2 u hu hpath

theorem LastStored.step (hwf : WellFormed s) (hlast : LastStored s) (hok : KeepsLast s a)
    (hputs : PutsSucceed s a) (h : writerStep s a = some s') : LastStored s' := by
  obtain ⟨n, rfl, htasks, -, rfl⟩ | ⟨i, now, t, rfl, hget, rfl⟩ | ⟨i, t, rfl, hget, rfl⟩ :=
    writerStep_cases h
  · exact hlast.batch htasks
  · exact hlast.complete hwf hok hget
  · rw [Writer.failAttempt, if_pos (hputs t hget)]
    exact hlast.retry hget

end Step

/-- Manifests are sent as UTF-8 text, as the packager does. -/
def ManifestsAreText (channel : List StorageWrite) : Prop :=
  ∀ write ∈ channel, isManifest write.path = true → ∃ text, write.data = encodeUtf8 text

theorem storedData_eq {channel : List StorageWrite} (htext : ManifestsAreText channel)
    {write : StorageWrite} (hmem : write ∈ channel) : storedData write = write.data := by
  unfold storedData storedObject
  split
  · rename_i hmanifest
    obtain ⟨text, htext⟩ := htext write hmem hmanifest
    rw [htext, fromUtf8Lossy_encodeUtf8]
  · rfl

/-- In a run in which every put succeeds, be it after retries, and whose steps keep the
last writes last, the final object at each path is the data of the last write to it. -/
theorem last_write_wins (channel : List StorageWrite) (htext : ManifestsAreText channel)
    (store : MediaStore) (actions : List WriterAction) (final : Writer)
    (hmeets : Meets writerStep (fun s a => PutsSucceed s a ∧ KeepsLast s a)
      (Writer.start channel store) actions)
    (hrun : run writerStep (Writer.start channel store) actions = some final)
    (hdone : final.received = channel.length ∧ final.tasks = []) :
    ∀ j write, IsLastWrite channel j write →
      (final.store.lookup write.path).map StoredObject.data = some write.data := by
  have hinv : (final.channel = channel ∧ WellFormed final) ∧ LastStored final := by
    refine run_invariant_of_meets
      (I := fun s => (s.channel = channel ∧ WellFormed s) ∧ LastStored s)
      (fun s a s' hs hok hstep => ?_) ?_ hmeets hrun
    · exact ⟨⟨(channel_step hstep).trans hs.1.1, hs.1.2.step hstep⟩,
        hs.2.step hs.1.2 hok.2 hok.1 hstep⟩
    · exact ⟨⟨rfl, wellFormed_start channel store⟩, fun j _ _ hj => absurd hj (Nat.not_lt_zero j)⟩
  obtain ⟨⟨hchannel, -⟩, hlast⟩ := hinv
  intro j write hj
  have hlt : j < final.received := by
    rw [hdone.1]
    exact (List.getElem?_eq_some_iff.mp hj.1).1
  obtain ⟨⟨object, hobject, hdata⟩, -⟩ :=
    hlast j write (hchannel.symm ▸ hj) hlt (by simp [hdone.2])
  rw [hobject, Option.map_some, hdata, storedData_eq htext (List.mem_of_getElem? hj.1)]

/-! ### Two versions of one playlist -/

section Sample

/-- A write of a playlist. -/
def playlistVersion (text : Text) : StorageWrite where
  path := "1/low/media.m3u8".toList
  data := encodeUtf8 text
  contentType := "application/vnd.apple.mpegurl".toList

/-- A playlist and its next version, as two writes of one path. -/
def twoVersions : List StorageWrite :=
  [playlistVersion "old".toList, playlistVersion "new".toList]

theorem manifestsAreText_twoVersions : ManifestsAreText twoVersions := by
  intro write hmem _
  simp only [twoVersions, List.mem_cons, List.not_mem_nil, or_false] at hmem
  rcases hmem with rfl | rfl
  · exact ⟨"old".toList, rfl⟩
  · exact ⟨"new".toList, rfl⟩

theorem isLastWrite_twoVersions :
    IsLastWrite twoVersions 1 (playlistVersion "new".toList) := by
  refine ⟨rfl, fun k write hk hget => ?_⟩
  have hlen := (List.getElem?_eq_some_iff.mp hget).1
  exact absurd hlen (by simp [twoVersions]; omega)

/-- A put of the oldest running task keeps the last writes last. -/
theorem keepsLast_of_oldest {s : Writer} {i : ℕ} {t : PutTask} (now : DateTime)
    (hget : s.tasks[i]? = some t) (hold : ∀ t' ∈ s.tasks, t.slot ≤ t'.slot) :
    PutsSucceed s (.put i now) ∧ KeepsLast s (.put i now) := by
  refine ⟨trivial, fun u hu _ t' ht' hlt => ?_⟩
  rw [hget] at hu
  obtain rfl := Option.some.inj hu
  exact absurd hlt (Nat.not_lt.mpr (hold t' ht'))

theorem last_write_wins_in_order :
    ∃ final, run writerStep (Writer.start twoVersions ∅) [.batch 2, .put 0 ⟨1⟩, .put 0 ⟨2⟩] =
        some final ∧
      (final.store.lookup "1/low/media.m3u8".toList).map StoredObject.data =
        some (encodeUtf8 "new".toList) := by
  refine ⟨_, rfl, ?_⟩
  refine last_write_wins twoVersions manifestsAreText_twoVersions ∅
    [.batch 2, .put 0 ⟨1⟩, .put 0 ⟨2⟩] _ ?_ rfl ⟨rfl, rfl⟩ 1 _ isLastWrite_twoVersions
  refine ⟨⟨trivial, trivial⟩, fun s₁ h₁ => ?_⟩
  obtain rfl := Option.some.inj h₁
  refine ⟨keepsLast_of_oldest ⟨1⟩ rfl (by decide), fun s₂ h₂ => ?_⟩
  obtain rfl := Option.some.inj h₂
  refine ⟨keepsLast_of_oldest ⟨2⟩ rfl (by decide), fun s₃ _ => trivial⟩

/-- Drained as one batch and put in the other order, the old version wins. -/
theorem superseded_write_wins :
    ManifestsAreText twoVersions ∧
    IsLastWrite twoVersions 1 (playlistVersion "new".toList) ∧
    ∃ final, run writerStep (Writer.start twoVersions ∅) [.batch 2, .put 1 ⟨1⟩, .put 0 ⟨2⟩] =
        some final ∧
      (final.received = twoVersions.length ∧ final.tasks = [] ∧ final.failed = []) ∧
      (final.store.lookup "1/low/media.m3u8".toList).map StoredObject.data =
        some (encodeUtf8 "old".toList) ∧
      encodeUtf8 "old".toList ≠ encodeUtf8 "new".toList := by
  refine ⟨manifestsAreText_twoVersions, isLastWrite_twoVersions, _, rfl, ⟨rfl, rfl, rfl⟩, ?_, ?_⟩
  · decide +kernel
  · decide +kernel

end Sample

end StreamInfa.Storage
