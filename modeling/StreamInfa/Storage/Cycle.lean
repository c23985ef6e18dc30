import StreamInfa.Lib.Trace
import StreamInfa.Storage.LiveCleanup

/-!
A whole cleanup cycle: the objects and the records (`run_cleanup_cycle` in
`src/storage/cleanup.rs`).

`LiveCleanup` follows the objects through phases 1 and 2, and `Cleanup` the records through
phases 2 and 3. `cleanupCycle` runs all three over both and logs the calls of phases 2 and 3
in their order; `store_cleanupCycle` and `records_retireAndForget` say that its two sides are
these.

What a cycle does to a stream depends on the state of its record: `record_cleanupCycle` and
`agreeOn_cleanupCycle` are about the streams that no phase is for, `objects_cleanupCycle` is
about the LIVE ones and `retired_cleanupCycle` about those in ERROR.
-/

namespace StreamInfa.Storage

open Control

/-! ### The cycle -/

/-- A call of phase 2 or 3. -/
inductive CleanupCall where
  | deletePrefix (streamId : StreamId) (ok : Bool)
  /-- To DELETED. -/
  | transition (streamId : StreamId)
  | removeStream (streamId : StreamId)
deriving DecidableEq, Repr

structure CleanupCycle where
  records : StreamStateManager
  store : MediaStore
  calls : List CleanupCall

/-- Phase 2 for one stream. The deletion fails for the streams in `failing`, and `stamp` is
when a transition happens. -/
def retireStream (stamp : StreamId → DateTime) (faults : StoreFaults) (failing : List StreamId)
    (c : CleanupCycle) (id : StreamId) : CleanupCycle :=
  let store := c.store.deletePrefix (streamPrefix id) faults.kept
  if id ∈ failing then { c with store := store, calls := c.calls ++ [.deletePrefix id false] }
  else
    { records := orUnchanged c.records (c.records.transition id .deleted (stamp id))
      store := store
      calls := c.calls ++ [.deletePrefix id true, .transition id] }

/-- Phase 3 for one stream. -/
def forgetStream (c : CleanupCycle) (id : StreamId) : CleanupCycle :=
  { c with records := (c.records.removeStream id).2, calls := c.calls ++ [.removeStream id] }

/-- Phases 2 and 3. Each reads the records when it begins. -/
def retireAndForget (now : DateTime) (stamp : StreamId → DateTime) (faults : StoreFaults)
    (failing : List StreamId) (c : CleanupCycle) : CleanupCycle :=
  let c := (c.records.streams.keysWhere (errorExpired now)).foldl
    (retireStream stamp faults failing) c
  (c.records.streams.keysWhere (tombstoneExpired now)).foldl forgetStream c

/-- A cycle. If phase 1 panics, the others do not run. -/
def cleanupCycle (m : StreamStateManager) (config : RetentionConfig) (now : DateTime)
    (stamp : StreamId → DateTime) (faults : StoreFaults) (failing : List StreamId)
    (store : MediaStore) : CleanupCycle :=
  match (liveStreams m).foldlM (cleanupLiveStream config now faults) store with
  | .error store => ⟨m, store, []⟩
  | .ok store => retireAndForget now stamp faults failing ⟨m, store, []⟩

section Cycle

variable {m : StreamStateManager} {config : RetentionConfig} {now : DateTime}
  {stamp : StreamId → DateTime} {faults : StoreFaults} {failing : List StreamId}
  {store store' : MediaStore} {c : CleanupCycle} {id : StreamId} {entry : StreamEntry}

/-! ### Its two sides -/

theorem store_foldl_retireStream (ids : List StreamId) (c : CleanupCycle) :
    (ids.foldl (retireStream stamp faults failing) c).store =
      ids.foldl (fun store id => store.deletePrefix (streamPrefix id) faults.kept) c.store := by
  induction ids generalizing c with
  | nil => rfl
  | cons id ids ih =>
    rw [List.foldl_cons, List.foldl_cons, ih]
    congr 1
    unfold retireStream
    split <;> rfl

theorem store_foldl_forgetStream (ids : List StreamId) (c : CleanupCycle) :
    (ids.foldl forgetStream c).store = c.store := by
  induction ids generalizing c with
  | nil => rfl
  | cons id ids ih => exact ih _

/-- The store after a cycle. -/
theorem store_cleanupCycle (m : StreamStateManager) (config : RetentionConfig) (now : DateTime)
    (stamp : StreamId → DateTime) (faults : StoreFaults) (failing : List StreamId)
    (store : MediaStore) :
    (cleanupCycle m config now stamp faults failing store).store =
      storeAfter (runCleanupCycle m config now faults store) := by
  unfold cleanupCycle runCleanupCycle
  cases (liveStreams m).foldlM (cleanupLiveStream config now faults) store with
  | error store => rfl
  | ok store =>
    unfold retireAndForget
    rw [store_foldl_forgetStream, store_foldl_retireStream]
    rfl

theorem records_foldl_retireStream (stamp : DateTime) (ids : List StreamId) (c : CleanupCycle) :
    (ids.foldl (retireStream (fun _ => stamp) faults failing) c).records =
      (ids.filter fun id => id ∉ failing).foldl
        (fun m id => orUnchanged m (m.transition id .deleted stamp)) c.records := by
  induction ids generalizing c with
  | nil => rfl
  | cons id ids ih =>
    rw [List.foldl_cons, ih]
    by_cases hfails : id ∈ failing
    · rw [List.filter_cons_of_neg (by simpa using hfails), retireStream, if_pos hfails]
    · rw [List.filter_cons_of_pos (by simpa using hfails), retireStream, if_neg hfails,
        List.foldl_cons]

theorem records_foldl_forgetStream (ids : List StreamId) (c : CleanupCycle) :
    (ids.foldl forgetStream c).records =
      ids.foldl (fun m id => (m.removeStream id).2) c.records := by
  induction ids generalizing c with
  | nil => rfl
  | cons id ids ih => exact ih _

/-- The records after phases 2 and 3. -/
theorem records_retireAndForget (m : StreamStateManager) (now stamp : DateTime)
    (faults : StoreFaults) (failing : List StreamId) (store : MediaStore) :
    (retireAndForget now (fun _ => stamp) faults failing ⟨m, store, []⟩).records =
      cleanupRecords m now stamp failing := by
  unfold retireAndForget
  rw [records_foldl_forgetStream, records_foldl_retireStream]
  rfl

/-! ### Records -/

theorem lookup_removeStream_ne (m : StreamStateManager) {id other : StreamId}
    (hne : id ≠ other) : (m.removeStream other).2.streams.lookup id = m.streams.lookup id := by
  unfold StreamStateManager.removeStream
  cases m.streams.lookup other with
  | none => rfl
  | some entry => exact AList.lookup_erase_ne hne

theorem lookup_retireStream_ne {other : StreamId} (hne : id ≠ other) :
    (retireStream stamp faults failing c other).records.streams.lookup id =
      c.records.streams.lookup id := by
  unfold retireStream
  split
  · rfl
  · exact lookup_transition_ne .deleted hne

/-- Phase 2 leaves the other records. -/
theorem lookup_foldl_retireStream {ids : List StreamId} (hid : id ∉ ids) (c : CleanupCycle) :
    (ids.foldl (retireStream stamp faults failing) c).records.streams.lookup id =
      c.records.streams.lookup id := by
  induction ids generalizing c with
  | nil => rfl
  | cons other ids ih =>
    rw [List.mem_cons, not_or] at hid
    rw [List.foldl_cons, ih hid.2, lookup_retireStream_ne hid.1]

theorem lookup_foldl_forgetStream {ids : List StreamId} (hid : id ∉ ids) (c : CleanupCycle) :
    (ids.foldl forgetStream c).records.streams.lookup id = c.records.streams.lookup id := by
  induction ids generalizing c with
  | nil => rfl
  | cons other ids ih =>
    rw [List.mem_cons, not_or] at hid
    rw [List.foldl_cons, ih hid.2]
    exact lookup_removeStream_ne _ hid.1

/-- A stream in another state is on no list of a phase. -/
theorem notMem_keysWhere_errorExpired (hentry : m.streams.lookup id = some entry)
    (hstate : entry.state ≠ .error) : id ∉ m.streams.keysWhere (errorExpired now) := by
  intro hmem
  obtain ⟨_, hentry', herror⟩ := Map.mem_keysWhere.mp hmem
  obtain rfl := Option.some.inj (hentry.symm.trans hentry')
  exact hstate (of_decide_eq_true herror).1

theorem notMem_keysWhere_tombstoneExpired (hentry : m.streams.lookup id = some entry)
    (hstate : entry.state ≠ .deleted) : id ∉ m.streams.keysWhere (tombstoneExpired now) := by
  intro hmem
  obtain ⟨_, hentry', hdeleted⟩ := Map.mem_keysWhere.mp hmem
  obtain rfl := Option.some.inj (hentry.symm.trans hentry')
  exact hstate (of_decide_eq_true hdeleted).1

theorem notMem_liveStreams (hentry : m.streams.lookup id = some entry)
    (hstate : entry.state ≠ .live) : id ∉ liveStreams m := by
  intro hmem
  obtain ⟨_, hentry', hlive⟩ := Map.mem_keysWhere.mp hmem
  obtain rfl := Option.some.inj (hentry.symm.trans hentry')
  exact hstate (of_decide_eq_true hlive)

/-- Phase 3 keeps the records that are not DELETED. -/
theorem lookup_forgetAll (hentry : c.records.streams.lookup id = some entry)
    (hstate : entry.state ≠ .deleted) :
    ((c.records.streams.keysWhere (tombstoneExpired now)).foldl forgetStream
      c).records.streams.lookup id = some entry :=
  (lookup_foldl_forgetStream (notMem_keysWhere_tombstoneExpired hentry hstate) c).trans hentry

/-- A cycle keeps the records that are neither ERROR nor DELETED. -/
theorem record_cleanupCycle (hentry : m.streams.lookup id = some entry)
    (herror : entry.state ≠ .error) (hdeleted : entry.state ≠ .deleted) :
    (cleanupCycle m config now stamp faults failing store).records.streams.lookup id =
      some entry := by
  unfold cleanupCycle
  split
  · exact hentry
  · unfold retireAndForget
    refine lookup_forgetAll ?_ hdeleted
    exact (lookup_foldl_retireStream (notMem_keysWhere_errorExpired hentry herror) _).trans hentry

/-! ### Objects -/

/-- A cycle keeps the objects of the streams that are neither LIVE nor ERROR. -/
theorem agreeOn_cleanupCycle (hentry : m.streams.lookup id = some entry)
    (hlive : entry.state ≠ .live) (herror : entry.state ≠ .error) :
    AgreeOn id store (cleanupCycle m config now stamp faults failing store).store := by
  have hphase1 := agreeOn_foldlM config now faults store (notMem_liveStreams hentry hlive)
  unfold cleanupCycle
  cases hfold : (liveStreams m).foldlM (cleanupLiveStream config now faults) store with
  | error s =>
    rw [hfold] at hphase1
    exact hphase1
  | ok s =>
    rw [hfold] at hphase1
    have hexpired : id ∉ m.streams.keysWhere (errorExpired now) :=
      notMem_keysWhere_errorExpired hentry herror
    have hphase2 := agreeOn_deletePrefix hexpired faults.kept s
    unfold retireAndForget
    rw [store_foldl_forgetStream, store_foldl_retireStream]
    exact fun path hpath => (hphase2 path hpath).trans (hphase1 path hpath)

/-- Of a LIVE stream's objects a cycle deletes segments only. -/
theorem objects_cleanupCycle (hentry : m.streams.lookup id = some entry)
    (hlive : entry.state = .live) {path : Text} (hpath : streamPrefix id <+: path) :
    (cleanupCycle m config now stamp faults failing store).store.lookup path =
        store.lookup path ∨
      ".m4s".toList <:+ path ∧
        (cleanupCycle m config now stamp faults failing store).store.lookup path = none := by
  have hmem : id ∈ liveStreams m := Map.mem_keysWhere.mpr ⟨entry, hentry, decide_eq_true hlive⟩
  rw [store_cleanupCycle]
  obtain ⟨hgone, hkept⟩ := leaves_runCleanupCycle config now faults store hmem path hpath
  by_cases hdeletes : Deletes config now faults store id path
  · refine Or.inr ⟨?_, hgone hdeletes⟩
    exact List.isSuffixOf_iff_suffix.mp (Bool.and_eq_true_iff.mp hdeletes.segment).1
  · exact Or.inl (hkept hdeletes)

/-! ### Streams in ERROR -/

/-- A transition follows a deletion of the stream's objects that succeeded. -/
def PurgedBefore (done : List CleanupCall) (call : CleanupCall) : Prop :=
  ∀ id, call = .transition id → .deletePrefix id true ∈ done

/-- The calls so far are in order, and the record of the stream is the one that phase 2
found unless the stream has been moved. -/
structure Retires (id : StreamId) (entry : StreamEntry) (c : CleanupCycle) : Prop where
  ordered : EachAfter PurgedBefore [] c.calls
  record : c.records.streams.lookup id = some entry ∨ .transition id ∈ c.calls

theorem purgedBefore_deletePrefix (done : List CleanupCall) (id : StreamId) (ok : Bool) :
    PurgedBefore done (.deletePrefix id ok) := nofun

theorem Retires.retireStream (h : Retires id entry c) (other : StreamId) :
    Retires id entry (retireStream stamp faults failing c other) := by
  obtain ⟨hordered, hrecord⟩ := h
  unfold Storage.retireStream
  by_cases hfails : other ∈ failing
  · rw [if_pos hfails]
    constructor
    · exact eachAfter_append.mpr ⟨hordered, purgedBefore_deletePrefix _ _ _, trivial⟩
    · exact hrecord.imp_right (List.mem_append_left _)
  · rw [if_neg hfails]
    constructor
    · refine eachAfter_append.mpr ⟨hordered, purgedBefore_deletePrefix _ _ _, ?_, trivial⟩
      intro moved hmoved
      obtain rfl := CleanupCall.transition.inj hmoved
      exact List.mem_append_right _ List.mem_cons_self
    · by_cases hother : id = other
      · subst hother
        exact Or.inr (by simp)
      · refine hrecord.imp (fun hlookup => ?_) (List.mem_append_left _)
        exact (lookup_transition_ne .deleted hother).trans hlookup

theorem Retires.foldl (h : Retires id entry c) (ids : List StreamId) :
    Retires id entry (ids.foldl (Storage.retireStream stamp faults failing) c) := by
  induction ids generalizing c with
  | nil => exact h
  | cons other ids ih => exact ih (h.retireStream other)

/-- A removal leaves the order of the calls. -/
theorem ordered_foldl_forgetStream (h : EachAfter PurgedBefore [] c.calls)
    (ids : List StreamId) : EachAfter PurgedBefore [] (ids.foldl forgetStream c).calls := by
  induction ids generalizing c with
  | nil => exact h
  | cons id ids ih =>
    refine ih (eachAfter_append.mpr ⟨h, ?_, trivial⟩)
    exact fun _ => nofun

theorem calls_foldl_forgetStream (ids : List StreamId) (c : CleanupCycle) :
    c.calls ⊆ (ids.foldl forgetStream c).calls := by
  induction ids generalizing c with
  | nil => exact List.Subset.refl _
  | cons id ids ih => exact fun _ hcall => ih (forgetStream c id) (List.mem_append_left _ hcall)

/-- A record in ERROR stays as it is unless the cycle moves the stream, and it does that
after a deletion of the stream's objects that succeeded. -/
theorem retired_cleanupCycle (hentry : m.streams.lookup id = some entry)
    (herror : entry.state = .error) :
    Retires id entry (cleanupCycle m config now stamp faults failing store) := by
  unfold cleanupCycle
  split
  · exact ⟨trivial, Or.inl hentry⟩
  · rename_i store' _
    have hphase2 : Retires id entry ((m.streams.keysWhere (errorExpired now)).foldl
        (retireStream stamp faults failing) ⟨m, store', []⟩) :=
      Retires.foldl (c := ⟨m, store', []⟩) ⟨trivial, Or.inl hentry⟩ _
    constructor
    · exact ordered_foldl_forgetStream hphase2.ordered _
    · rcases hphase2.record with hlookup | hmoved
      · exact Or.inl (lookup_forgetAll hlookup (by rw [herror]; decide))
      · exact Or.inr (calls_foldl_forgetStream _ _ hmoved)

end Cycle

end StreamInfa.Storage
