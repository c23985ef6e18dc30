import StreamInfa.Package.Player
import StreamInfa.Storage.Order
import StreamInfa.Storage.References

/-!
The store behind a packager whose writes are all done.

The packager's manifests are text, so storing them does not change them
(`manifestsAreText_packagerTrace`). A run of the writer in which no put is given up and the last
writes stay last leaves the store as `HoldsLast` wants it (`holdsLast_of_run`).
-/

namespace StreamInfa.Storage

open Package

/-! ### Manifests -/

theorem not_isManifest_of_getLast {path : Text} {c : Char} (hlast : path.getLast? = some c)
    (hc : c ≠ '8') : isManifest path = false := by
  rw [isManifest, ← Bool.not_eq_true, List.isSuffixOf_iff_suffix]
  rintro ⟨front, rfl⟩
  rw [List.getLast?_append] at hlast
  exact hc (Option.some.inj hlast).symm

theorem not_isManifest_segmentPath (streamId rendition : Text) (n : ℕ) :
    isManifest (segmentPath streamId rendition n) = false := by
  refine not_isManifest_of_getLast (c := 's') ?_ (by decide)
  rw [segmentPath, List.getLast?_append]
  rfl

theorem not_isManifest_initSegmentPath (streamId rendition : Text) :
    isManifest (initSegmentPath streamId rendition) = false := by
  refine not_isManifest_of_getLast (c := '4') ?_ (by decide)
  rw [initSegmentPath, List.getLast?_append]
  rfl

/-- The packager sends its manifests as text. -/
theorem manifestsAreText_packagerTrace (env : PackagerEnv)
    (input : List (EncodedSegment × DateTime)) : ManifestsAreText (packagerTrace env input) := by
  intro write hmem hmanifest
  cases sent_of_mem hmem with
  | init segment =>
    rw [initWriteOf, initWrite, not_isManifest_initSegmentPath] at hmanifest
    cases hmanifest
  | media segment =>
    rw [segmentWrite, not_isManifest_segmentPath] at hmanifest
    cases hmanifest
  | master infos => exact ⟨_, rfl⟩
  | playlist r playlist => exact ⟨playlist, rfl⟩

/-! ### The last writes -/

/-- The last write that a filter finds is the last write to its path. -/
theorem exists_isLastWrite {channel : List StorageWrite} {path : Text} {write : StorageWrite}
    (h : (channel.filter fun w => w.path = path).getLast? = some write) :
    write.path = path ∧ ∃ j, IsLastWrite channel j write := by
  obtain ⟨front, hfilter⟩ := List.getLast?_eq_some_iff.mp h
  obtain ⟨before, after, rfl, -, hlast⟩ := List.filter_eq_append_iff.mp hfilter
  obtain ⟨skipped, rest, rfl, -, hpath, hrest⟩ := List.filter_eq_cons_iff.mp hlast
  have hwrite : write.path = path := of_decide_eq_true hpath
  refine ⟨hwrite, (before ++ skipped).length, ?_, ?_⟩
  · rw [← List.append_assoc, List.getElem?_append_right (Nat.le_refl _), Nat.sub_self]
    rfl
  · intro k write' hk hget hsame
    have hlen : (before ++ skipped ++ [write]).length ≤ k := by
      rw [List.length_append, List.length_singleton]
      exact hk
    rw [← List.append_assoc, List.append_cons, List.getElem?_append_right hlen] at hget
    have hmem : write' ∈ rest.filter fun w => w.path = path :=
      List.mem_filter.mpr ⟨List.mem_of_getElem? hget, decide_eq_true (hsame.trans hwrite)⟩
    rw [hrest] at hmem
    cases hmem

/-- When the writer is done, each path that the packager wrote to holds the last write to it. -/
theorem holdsLast_of_run {env : PackagerEnv} {input : List (EncodedSegment × DateTime)}
    {store : MediaStore} {actions : List WriterAction} {final : Writer}
    (hmeets : Meets writerStep (fun s a => PutsSucceed s a ∧ KeepsLast s a)
      (Writer.start (packagerTrace env input) store) actions)
    (hrun : run writerStep (Writer.start (packagerTrace env input) store) actions = some final)
    (hdone : final.received = final.channel.length ∧ final.tasks = []) :
    HoldsLast (packagerTrace env input) fun path =>
      (final.store.lookup path).map StoredObject.data := by
  obtain ⟨⟨hchannel, -⟩, hlast⟩ := run_invariant_of_meets
    (I := fun s => (s.channel = packagerTrace env input ∧ WellFormed s) ∧ LastStored s)
    (fun s a s' hs hok hstep => ⟨⟨(channel_step hstep).trans hs.1.1, hs.1.2.step hstep⟩,
      hs.2.step hs.1.2 hok.2 hok.1 hstep⟩)
    ⟨⟨rfl, wellFormed_start _ _⟩, fun j _ _ hj => absurd hj (Nat.not_lt_zero j)⟩ hmeets hrun
  intro path write hwrite
  obtain ⟨rfl, j, hj⟩ := exists_isLastWrite hwrite
  rw [← hchannel] at hj
  have hreceived : j < final.received := by
    rw [hdone.1]
    exact (List.getElem?_eq_some_iff.mp hj.1).1
  obtain ⟨⟨object, hobject, hdata⟩, -⟩ := hlast j write hj hreceived (by simp [hdone.2])
  have hmem : write ∈ packagerTrace env input := hchannel ▸ List.mem_of_getElem? hj.1
  simp only [hobject, Option.map_some, hdata,
    storedData_eq (manifestsAreText_packagerTrace env input) hmem]

/-- A writer that puts one write after another keeps the last writes last. -/
theorem exists_drained (channel : List StorageWrite) (store : MediaStore) :
    ∃ puts writer, Meets writerStep (fun s a => PutsSucceed s a ∧ KeepsLast s a)
        (Writer.start channel store) puts ∧
      run writerStep (Writer.start channel store) puts = some writer ∧
        writer.received = writer.channel.length ∧ writer.tasks = [] := by
  suffices hall : ∀ n (s : Writer), s.tasks = [] → s.received + n = s.channel.length →
      ∃ puts writer, Meets writerStep (fun s a => PutsSucceed s a ∧ KeepsLast s a) s puts ∧
        run writerStep s puts = some writer ∧ writer.received = writer.channel.length ∧
          writer.tasks = [] from
    hall channel.length (Writer.start channel store) rfl (Nat.zero_add _)
  intro n
  induction n with
  | zero => exact fun s htasks hreceived => ⟨[], s, trivial, rfl, hreceived, htasks⟩
  | succ n ih =>
    intro s htasks hreceived
    have hget : s.channel[s.received]? = some (s.channel.get ⟨s.received, by omega⟩) :=
      List.getElem?_eq_getElem _
    generalize s.channel.get ⟨s.received, _⟩ = write at hget
    have hone : s.newTasks 1 = [⟨s.received, write, 0⟩] := by
      rw [Writer.newTasks, List.take_one, List.head?_drop, hget]
      rfl
    have hbatch : writerStep s (.batch 1) =
        some { s with received := s.received + 1, tasks := [⟨s.received, write, 0⟩] } := by
      rw [← hone]
      exact if_pos ⟨htasks, Nat.one_pos, by omega⟩
    obtain ⟨puts, writer, hmeets, hrun, hdone⟩ := ih
      (({ s with received := s.received + 1, tasks := [⟨s.received, write, 0⟩] } : Writer).complete
        0 ⟨s.received, write, 0⟩ ⟨0⟩) rfl (by simp only [Writer.complete]; omega)
    have hput : writerStep { s with received := s.received + 1, tasks := [⟨s.received, write, 0⟩] }
        (.put 0 ⟨0⟩) = some (({ s with
          received := s.received + 1, tasks := [⟨s.received, write, 0⟩] } : Writer).complete
            0 ⟨s.received, write, 0⟩ ⟨0⟩) := rfl
    refine ⟨.batch 1 :: .put 0 ⟨0⟩ :: puts, writer,
      .cons ⟨trivial, trivial⟩ hbatch (.cons (keepsLast_of_oldest ⟨0⟩ rfl ?_) hput hmeets), ?_,
      hdone⟩
    · intro t ht
      rw [List.mem_singleton.mp ht]
    · rw [run_cons_of_step hbatch, run_cons_of_step hput, hrun]

end StreamInfa.Storage
