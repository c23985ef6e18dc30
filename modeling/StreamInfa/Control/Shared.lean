import StreamInfa.Control.Events
import StreamInfa.Lib.Run

/-!
The stream state manager as a shared object.

Each access to the map of streams is one atomic step, and so is each update of a
state counter; any number of operations interleave between these steps. A counter
is updated after the map access, so a running operation owes adjustments
(`Operation.adjusting`), and `mark_rendition_complete` takes two map accesses, the
second of which is the transition to READY (`Operation.marking`).

`sharedStep` runs the sections in any order. `sharedStep_lookup` says once what a
step can do to the entry of a stream (`EntryStep`), and the theorems of the last
section say that the sections of an operation run one after the other are the
operation of `StreamStateManager`.
-/

namespace StreamInfa.Control

open StreamStateManager

/-- An operation between two of its atomic steps. -/
inductive Operation where
  /-- `mark_rendition_complete` has decided to move the stream to READY. -/
  | marking (streamId : StreamId)
  /-- The map is updated, these counter adjustments are still to be made. -/
  | adjusting (owed : List (StreamState × ℤ))
deriving DecidableEq, Repr

/-- The map of streams, the state counters and the operations in progress. -/
structure SharedManager where
  streams : Map StreamId StreamEntry
  stateCounts : StreamState → ℤ
  operations : List Operation

/-- The atomic steps: the map access of each operation, and one counter update. -/
inductive ManagerAction where
  | create (streamId : StreamId) (ingestMode : IngestMode) (now : DateTime)
  | transition (streamId : StreamId) (newState : StreamState) (now : DateTime)
  | transitionToError (streamId : StreamId) (errorMessage : Text) (now : DateTime)
  /-- The first section of `mark_rendition_complete`. -/
  | noteComplete (streamId : StreamId) (rendition : Text)
  /-- The second section of the `i`-th operation in progress. -/
  | finishComplete (i : ℕ) (now : DateTime)
  | updateProgress (streamId : StreamId) (rendition : Text) (sequence : ℕ) (now : DateTime)
  | setExpected (streamId : StreamId) (count : ℕ)
  | setMediaInfo (streamId : StreamId) (mediaInfo : MediaInfo)
  | remove (streamId : StreamId)
  /-- The next counter update of the `i`-th operation in progress. -/
  | adjust (i : ℕ)

namespace SharedManager

def new : SharedManager := ⟨∅, fun _ => 0, []⟩

/-- The manager as an operation sees it. -/
def manager (s : SharedManager) : StreamStateManager := ⟨s.streams, s.stateCounts⟩

/-- The map access of an operation that leads to the manager `m`. Its counter updates
are still owed. -/
def begin (s : SharedManager) (m : StreamStateManager) (owed : List (StreamState × ℤ)) :
    SharedManager :=
  { s with streams := m.streams, operations := s.operations ++ [.adjusting owed] }

/-- The map access of `transition`; a failed one changes nothing. -/
def transitionSection (s : SharedManager) (streamId : StreamId) (newState : StreamState)
    (now : DateTime) : SharedManager :=
  match s.streams.lookup streamId, s.manager.transition streamId newState now with
  | some entry, .ok (_, m) => s.begin m [(entry.state, -1), (newState, 1)]
  | _, _ => s

/-- The map access of `transition_to_error`. -/
def errorSection (s : SharedManager) (streamId : StreamId) (errorMessage : Text)
    (now : DateTime) : SharedManager :=
  match s.streams.lookup streamId, s.manager.transitionToError streamId errorMessage now with
  | some entry, .ok (_, m) => s.begin m [(entry.state, -1), (.error, 1)]
  | _, _ => s

/-- The first map access of `mark_rendition_complete`. -/
def noteSection (s : SharedManager) (streamId : StreamId) (rendition : Text) : SharedManager :=
  match s.streams.lookup streamId with
  | none => s
  | some entry =>
    let (entry, shouldTransition) := noteRenditionComplete entry rendition
    { s with
      streams := s.streams.insert streamId entry
      operations := if shouldTransition then s.operations ++ [.marking streamId] else s.operations }

/-- The map access of `remove_stream`. -/
def removeSection (s : SharedManager) (streamId : StreamId) : SharedManager :=
  match s.streams.lookup streamId with
  | none => s
  | some entry => s.begin (s.manager.removeStream streamId).2 [(entry.state, -1)]

/-- An access that updates the map in place and owes nothing. -/
def edit (s : SharedManager) (m : StreamStateManager) : SharedManager :=
  { s with streams := m.streams }

end SharedManager

def sharedStep (s : SharedManager) : ManagerAction → Option SharedManager
  | .create streamId ingestMode now =>
    if s.streams.lookup streamId = none then
      some (s.begin (s.manager.createStream streamId ingestMode now).2 [(.pending, 1)])
    else none
  | .transition streamId newState now => some (s.transitionSection streamId newState now)
  | .transitionToError streamId errorMessage now =>
    some (s.errorSection streamId errorMessage now)
  | .noteComplete streamId rendition => some (s.noteSection streamId rendition)
  | .finishComplete i now =>
    match s.operations[i]? with
    | some (.marking streamId) =>
      some ({ s with operations := s.operations.eraseIdx i }.transitionSection streamId .ready now)
    | _ => none
  | .updateProgress streamId rendition sequence now =>
    some (s.edit (s.manager.updateRenditionProgress streamId rendition sequence now))
  | .setExpected streamId count => some (s.edit (s.manager.setExpectedRenditions streamId count))
  | .setMediaInfo streamId mediaInfo => some (s.edit (s.manager.setMediaInfo streamId mediaInfo))
  | .remove streamId => some (s.removeSection streamId)
  | .adjust i =>
    match s.operations[i]? with
    | some (.adjusting ((state, change) :: owed)) =>
      some { s with
        stateCounts := fun t => s.stateCounts t + if t = state then change else 0
        operations :=
          if owed = [] then s.operations.eraseIdx i else s.operations.set i (.adjusting owed) }
    | _ => none

/-! ### What a step does to an entry -/

/-- The valid transitions, one by one. -/
theorem isValidTransition_cases {current target : StreamState} {ingestMode : IngestMode}
    (h : isValidTransition current target ingestMode = true) :
    (target = .error ∧ current ≠ .deleted) ∨
    (current = .pending ∧ target = .live ∧ ingestMode = .live) ∨
    (current = .live ∧ target = .processing ∧ ingestMode = .live) ∨
    (current = .pending ∧ target = .processing ∧ ingestMode = .vod) ∨
    (current = .processing ∧ target = .ready) ∨
    ((current = .ready ∨ current = .error) ∧ target = .deleted) := by
  revert h
  cases current <;> cases target <;> cases ingestMode <;> decide

theorem isValidTransition_deleted (target : StreamState) (ingestMode : IngestMode) :
    isValidTransition .deleted target ingestMode = false := by
  cases target <;> cases ingestMode <;> rfl

/-- The entry `transition_to_error` writes. -/
def StreamEntry.failed (entry : StreamEntry) (errorMessage : Text) (now : DateTime) :
    StreamEntry :=
  { entry with
    metadata := { entry.metadata with endedAt := some now }
    state := .error
    errorMessage := some errorMessage }

/-- What one step can do to the entry of a stream. -/
inductive EntryStep : Option StreamEntry → Option StreamEntry → Prop where
  | same (e : Option StreamEntry) : EntryStep e e
  | created (m : StreamStateManager) (streamId : StreamId) (ingestMode : IngestMode)
      (now : DateTime) : EntryStep none (some (m.createStream streamId ingestMode now).1)
  | moved {entry : StreamEntry} {newState : StreamState} (now : DateTime)
      (h : isValidTransition entry.state newState entry.metadata.ingestMode = true) :
      EntryStep (some entry) (some (entry.moveTo newState now))
  | failed {entry : StreamEntry} (h : entry.state ≠ .deleted) (errorMessage : Text)
      (now : DateTime) : EntryStep (some entry) (some (entry.failed errorMessage now))
  | tracked (entry : StreamEntry) (renditions : Map Text RenditionStatus)
      (expected : Option ℕ) (mediaInfo : Option MediaInfo) :
      EntryStep (some entry)
        (some { entry with
          metadata := { entry.metadata with mediaInfo := mediaInfo }
          renditions := renditions
          expectedRenditions := expected })
  | removed (entry : StreamEntry) : EntryStep (some entry) none

/-- An access to one key of the map: the other entries stay as they are. -/
theorem entryStep_of_eq_or {m m' : Map StreamId StreamEntry} {streamId : StreamId}
    (hself : EntryStep (m.lookup streamId) (m'.lookup streamId))
    (hne : ∀ other, other ≠ streamId → m'.lookup other = m.lookup other) (id : StreamId) :
    EntryStep (m.lookup id) (m'.lookup id) := by
  by_cases hid : id = streamId
  · subst hid
    exact hself
  · rw [hne id hid]
    exact .same _

theorem entryStep_adjust (m : Map StreamId StreamEntry) {streamId : StreamId}
    {f : StreamEntry → StreamEntry} (hf : ∀ entry, EntryStep (some entry) (some (f entry)))
    (id : StreamId) : EntryStep (m.lookup id) ((m.adjust streamId f).lookup id) := by
  refine entryStep_of_eq_or ?_ (fun other hne => Map.lookup_adjust_ne m f hne) id
  rw [Map.lookup_adjust_self]
  cases m.lookup streamId with
  | none => exact .same none
  | some entry => exact hf entry

/-- The map access that replaces the entry of a stream by one in another state. -/
def SharedManager.replace (s : SharedManager) (streamId : StreamId) (current : StreamState)
    (updated : StreamEntry) : SharedManager :=
  { s with
    streams := s.streams.insert streamId updated
    operations := s.operations ++ [.adjusting [(current, -1), (updated.state, 1)]] }

theorem transition_of_valid {m : StreamStateManager} {streamId : StreamId} {entry : StreamEntry}
    {newState : StreamState} (now : DateTime) (hentry : m.streams.lookup streamId = some entry)
    (hvalid : isValidTransition entry.state newState entry.metadata.ingestMode = true) :
    m.transition streamId newState now =
      .ok (entry.moveTo newState now,
        m.setEntry streamId (entry.moveTo newState now) entry.state) := by
  simp only [transition, hentry, if_pos hvalid, StreamEntry.moveTo]

/-- The map access of `transition` either fails and changes nothing, or moves the
entry by a valid transition. -/
theorem transitionSection_cases (s : SharedManager) (streamId : StreamId)
    (newState : StreamState) (now : DateTime) :
    ((∃ e, s.manager.transition streamId newState now = .error e) ∧
      s.transitionSection streamId newState now = s) ∨
    ∃ entry, s.streams.lookup streamId = some entry ∧
      isValidTransition entry.state newState entry.metadata.ingestMode = true ∧
      s.manager.transition streamId newState now = .ok (entry.moveTo newState now,
        s.manager.setEntry streamId (entry.moveTo newState now) entry.state) ∧
      s.transitionSection streamId newState now =
        s.replace streamId entry.state (entry.moveTo newState now) := by
  have hlookup : s.manager.streams.lookup streamId = s.streams.lookup streamId := rfl
  unfold SharedManager.transitionSection transition
  cases h : s.streams.lookup streamId with
  | none =>
    rw [h] at hlookup
    exact Or.inl ⟨⟨_, by rw [hlookup]⟩, rfl⟩
  | some entry =>
    rw [h] at hlookup
    by_cases hvalid : isValidTransition entry.state newState entry.metadata.ingestMode = true
    · have hok := transition_of_valid now hlookup hvalid
      refine Or.inr ⟨entry, rfl, hvalid, hok, ?_⟩
      rw [transition] at hok
      simp only [hok]
      simp only [StreamEntry.moveTo, if_pos hvalid]
      rfl
    · simp only [hlookup]
      refine Or.inl ⟨⟨_, if_neg hvalid⟩, ?_⟩
      simp only [if_neg hvalid]

/-- The map access of `transition_to_error` either fails and changes nothing, or moves
an entry that is not DELETED to ERROR. -/
theorem errorSection_cases (s : SharedManager) (streamId : StreamId) (errorMessage : Text)
    (now : DateTime) :
    ((∃ e, s.manager.transitionToError streamId errorMessage now = .error e) ∧
      s.errorSection streamId errorMessage now = s) ∨
    ∃ entry, s.streams.lookup streamId = some entry ∧ entry.state ≠ .deleted ∧
      s.manager.transitionToError streamId errorMessage now = .ok (entry.failed errorMessage now,
        s.manager.setEntry streamId (entry.failed errorMessage now) entry.state) ∧
      s.errorSection streamId errorMessage now =
        s.replace streamId entry.state (entry.failed errorMessage now) := by
  have hlookup : s.manager.streams.lookup streamId = s.streams.lookup streamId := rfl
  unfold SharedManager.errorSection transitionToError
  cases h : s.streams.lookup streamId with
  | none =>
    rw [h] at hlookup
    exact Or.inl ⟨⟨_, by rw [hlookup]⟩, rfl⟩
  | some entry =>
    rw [h] at hlookup
    simp only [hlookup]
    by_cases hdeleted : entry.state = .deleted
    · refine Or.inl ⟨⟨_, if_pos hdeleted⟩, ?_⟩
      simp only [if_pos hdeleted]
    · simp only [if_neg hdeleted]
      exact Or.inr ⟨entry, rfl, hdeleted, rfl, rfl⟩

theorem entryStep_replace {s : SharedManager} {streamId : StreamId} {entry updated : StreamEntry}
    (current : StreamState) (hentry : s.streams.lookup streamId = some entry)
    (hstep : EntryStep (some entry) (some updated)) (id : StreamId) :
    EntryStep (s.streams.lookup id) ((s.replace streamId current updated).streams.lookup id) := by
  refine entryStep_of_eq_or ?_ (fun other hne => AList.lookup_insert_ne hne) id
  rw [hentry]
  exact (AList.lookup_insert s.streams).symm ▸ hstep

theorem entryStep_transitionSection (s : SharedManager) (streamId : StreamId)
    (newState : StreamState) (now : DateTime) (id : StreamId) :
    EntryStep (s.streams.lookup id)
      ((s.transitionSection streamId newState now).streams.lookup id) := by
  rcases transitionSection_cases s streamId newState now with
    ⟨-, heq⟩ | ⟨entry, hentry, hvalid, -, heq⟩
  · rw [heq]
    exact .same _
  · rw [heq]
    exact entryStep_replace _ hentry (.moved now hvalid) id

/-- Noting a completed rendition changes the rendition map only. -/
theorem noteRenditionComplete_fst (entry : StreamEntry) (rendition : Text) :
    (noteRenditionComplete entry rendition).1 = setComplete entry rendition := by
  simp only [noteRenditionComplete]
  split <;> rfl

/-- The first section decides for the transition in PROCESSING only, once the
expected number of renditions is complete. -/
theorem noteRenditionComplete_true {entry noted : StreamEntry} {rendition : Text}
    (h : noteRenditionComplete entry rendition = (noted, true)) :
    noted = setComplete entry rendition ∧ noted.state = .processing ∧
      ∃ expected, noted.expectedRenditions = some expected ∧ expected ≤ completeCount noted := by
  obtain rfl : setComplete entry rendition = noted :=
    (noteRenditionComplete_fst entry rendition).symm.trans (congrArg Prod.fst h)
  have hdone := congrArg Prod.snd h
  simp only [noteRenditionComplete] at hdone
  split at hdone
  · rename_i expected hexpected
    obtain ⟨hstate, hcount⟩ := of_decide_eq_true hdone
    exact ⟨rfl, hstate, expected, hexpected, hcount⟩
  · cases hdone

theorem streams_noteSection (s : SharedManager) (streamId : StreamId) (rendition : Text) :
    (s.noteSection streamId rendition).streams =
      s.streams.adjust streamId fun entry => setComplete entry rendition := by
  unfold SharedManager.noteSection Map.adjust
  cases h : s.streams.lookup streamId with
  | none => rfl
  | some entry => simp only [noteRenditionComplete_fst]

theorem lookup_removeSection (s : SharedManager) (streamId id : StreamId) :
    (s.removeSection streamId).streams.lookup id =
      if id = streamId then none else s.streams.lookup id := by
  unfold SharedManager.removeSection removeStream
  have hlookup : s.manager.streams.lookup streamId = s.streams.lookup streamId := rfl
  by_cases hid : id = streamId
  · subst hid
    rw [if_pos rfl]
    cases h : s.streams.lookup id with
    | none => exact h
    | some entry =>
      simp only [hlookup, h]
      exact AList.lookup_erase id s.streams
  · rw [if_neg hid]
    cases h : s.streams.lookup streamId with
    | none => rfl
    | some entry =>
      simp only [hlookup, h]
      exact AList.lookup_erase_ne hid

theorem entryStep_removeSection (s : SharedManager) (streamId id : StreamId) :
    EntryStep (s.streams.lookup id) ((s.removeSection streamId).streams.lookup id) := by
  rw [lookup_removeSection]
  split
  · cases s.streams.lookup id with
    | none => exact .same none
    | some entry => exact .removed entry
  · exact .same _

/-- A step of the shared manager takes every entry by an `EntryStep`. -/
theorem sharedStep_lookup {s s' : SharedManager} {a : ManagerAction}
    (h : sharedStep s a = some s') (id : StreamId) :
    EntryStep (s.streams.lookup id) (s'.streams.lookup id) := by
  cases a with
  | create streamId ingestMode now =>
    simp only [sharedStep] at h
    split at h
    · rename_i hnone
      obtain rfl := Option.some.inj h
      refine entryStep_of_eq_or ?_ (fun other hne => AList.lookup_insert_ne hne) id
      rw [hnone]
      exact (AList.lookup_insert s.streams).symm ▸ .created s.manager streamId ingestMode now
    · cases h
  | transition streamId newState now =>
    obtain rfl := Option.some.inj h
    exact entryStep_transitionSection s streamId newState now id
  | transitionToError streamId message now =>
    obtain rfl := Option.some.inj h
    rcases errorSection_cases s streamId message now with ⟨-, heq⟩ | ⟨entry, hentry, hstate, -, heq⟩
    · rw [heq]
      exact .same _
    · rw [heq]
      exact entryStep_replace _ hentry (.failed hstate message now) id
  | noteComplete streamId rendition =>
    obtain rfl := Option.some.inj h
    rw [streams_noteSection]
    exact entryStep_adjust s.streams (fun entry => .tracked entry _ _ entry.metadata.mediaInfo) id
  | finishComplete i now =>
    simp only [sharedStep] at h
    split at h
    · obtain rfl := Option.some.inj h
      rename_i streamId _
      exact entryStep_transitionSection { s with operations := s.operations.eraseIdx i } streamId
        .ready now id
    · cases h
  | updateProgress streamId rendition sequence now =>
    obtain rfl := Option.some.inj h
    exact entryStep_adjust s.streams (fun entry => .tracked entry _ _ entry.metadata.mediaInfo) id
  | setExpected streamId count =>
    obtain rfl := Option.some.inj h
    exact entryStep_adjust s.streams (fun entry => .tracked entry _ _ entry.metadata.mediaInfo) id
  | setMediaInfo streamId mediaInfo =>
    obtain rfl := Option.some.inj h
    exact entryStep_adjust s.streams (fun entry => .tracked entry _ _ (some mediaInfo)) id
  | remove streamId =>
    obtain rfl := Option.some.inj h
    exact entryStep_removeSection s streamId id
  | adjust i =>
    simp only [sharedStep] at h
    split at h
    · obtain rfl := Option.some.inj h
      exact .same _
    · cases h

/-! ### Which entries there are -/

theorem isSome_lookup_replace {s : SharedManager} {streamId : StreamId} {entry : StreamEntry}
    (current : StreamState) (updated : StreamEntry)
    (hentry : s.streams.lookup streamId = some entry) (id : StreamId) :
    ((s.replace streamId current updated).streams.lookup id).isSome =
      (s.streams.lookup id).isSome := by
  by_cases hid : id = streamId
  · subst hid
    rw [hentry, SharedManager.replace, AList.lookup_insert]
    rfl
  · rw [SharedManager.replace, AList.lookup_insert_ne hid]

theorem isSome_lookup_transitionSection (s : SharedManager) (streamId : StreamId)
    (newState : StreamState) (now : DateTime) (id : StreamId) :
    ((s.transitionSection streamId newState now).streams.lookup id).isSome =
      (s.streams.lookup id).isSome := by
  rcases transitionSection_cases s streamId newState now with ⟨-, heq⟩ | ⟨entry, hentry, -, -, heq⟩
  · rw [heq]
  · rw [heq, isSome_lookup_replace _ _ hentry]

/-- Only `create_stream` and `remove_stream` add and remove entries. -/
theorem isSome_lookup_sharedStep {s s' : SharedManager} {a : ManagerAction}
    (h : sharedStep s a = some s')
    (hcreate : ∀ streamId ingestMode now, a ≠ .create streamId ingestMode now)
    (hremove : ∀ streamId, a ≠ .remove streamId) (id : StreamId) :
    (s'.streams.lookup id).isSome = (s.streams.lookup id).isSome := by
  cases a with
  | create streamId ingestMode now => exact absurd rfl (hcreate streamId ingestMode now)
  | transition streamId newState now =>
    obtain rfl := Option.some.inj h
    exact isSome_lookup_transitionSection s streamId newState now id
  | transitionToError streamId message now =>
    obtain rfl := Option.some.inj h
    rcases errorSection_cases s streamId message now with ⟨-, heq⟩ | ⟨entry, hentry, -, -, heq⟩
    · rw [heq]
    · rw [heq, isSome_lookup_replace _ _ hentry]
  | noteComplete streamId rendition =>
    obtain rfl := Option.some.inj h
    rw [streams_noteSection, Map.isSome_lookup_adjust]
  | finishComplete i now =>
    simp only [sharedStep] at h
    split at h
    · obtain rfl := Option.some.inj h
      exact isSome_lookup_transitionSection _ _ _ _ _
    · cases h
  | updateProgress streamId rendition sequence now =>
    obtain rfl := Option.some.inj h
    exact Map.isSome_lookup_adjust _ _ _ _
  | setExpected streamId count =>
    obtain rfl := Option.some.inj h
    exact Map.isSome_lookup_adjust _ _ _ _
  | setMediaInfo streamId mediaInfo =>
    obtain rfl := Option.some.inj h
    exact Map.isSome_lookup_adjust _ _ _ _
  | remove streamId => exact absurd rfl (hremove streamId)
  | adjust i =>
    simp only [sharedStep] at h
    split at h
    · obtain rfl := Option.some.inj h
      rfl
    · cases h

/-! ### Operations without interruption -/

/-- The sum of the adjustments to the counter of `state`. -/
def owedTo (state : StreamState) (owed : List (StreamState × ℤ)) : ℤ :=
  (owed.map fun d => if state = d.1 then d.2 else 0).sum

/-- The manager `m`, with the operations in progress of `s`. -/
def SharedManager.withManager (s : SharedManager) (m : StreamStateManager) : SharedManager :=
  { s with streams := m.streams, stateCounts := m.stateCounts }

/-- The last operation makes its counter updates, one after the other. -/
theorem run_adjusts (s : SharedManager) {owed : List (StreamState × ℤ)} (hne : owed ≠ []) :
    run sharedStep { s with operations := s.operations ++ [.adjusting owed] }
        (List.replicate owed.length (.adjust s.operations.length)) =
      some { s with stateCounts := fun t => s.stateCounts t + owedTo t owed } := by
  induction owed generalizing s with
  | nil => exact absurd rfl hne
  | cons d owed ih =>
    obtain ⟨state, change⟩ := d
    rw [List.length_cons, List.replicate_succ, run_cons]
    simp only [sharedStep, List.getElem?_concat_length, Option.bind_some]
    cases owed with
    | nil =>
      rw [if_pos rfl, List.eraseIdx_append_of_length_le (le_refl _)]
      simp [owedTo]
    | cons d owed =>
      have hset : (s.operations ++ [Operation.adjusting ((state, change) :: d :: owed)]).set
          s.operations.length (.adjusting (d :: owed)) =
          s.operations ++ [.adjusting (d :: owed)] := by
        simp
      rw [if_neg (by simp), hset]
      refine (ih
        { s with stateCounts := fun t => s.stateCounts t + if t = state then change else 0 }
        (by simp)).trans ?_
      simp only [owedTo, List.map_cons, List.sum_cons, add_assoc]

section Uninterrupted

variable {s : SharedManager} {streamId : StreamId}

/-- The map access that leads to `m'` and the counter updates it owes. -/
theorem run_begin {a : ManagerAction} {m' : StreamStateManager} (owed : List (StreamState × ℤ))
    (hne : owed ≠ []) (hstep : sharedStep s a = some (s.begin m' owed))
    (hcounts : ∀ t, m'.stateCounts t = s.stateCounts t + owedTo t owed) :
    run sharedStep s (a :: List.replicate owed.length (.adjust s.operations.length)) =
      some (s.withManager m') := by
  rw [run_cons_of_step hstep]
  refine (run_adjusts { s with streams := m'.streams } hne).trans ?_
  simp only [SharedManager.withManager, ← hcounts]

theorem run_create (ingestMode : IngestMode) (now : DateTime)
    (hnone : s.streams.lookup streamId = none) :
    run sharedStep s [.create streamId ingestMode now, .adjust s.operations.length] =
      some (s.withManager (s.manager.createStream streamId ingestMode now).2) := by
  refine run_begin [(.pending, 1)] (by simp) ?_ ?_
  · simp only [sharedStep, if_pos hnone]
  · intro t
    simp [owedTo, createStream, SharedManager.manager]

/-- A successful transition out of `current` owes one decrement and one increment. -/
theorem stateCounts_setEntry (m : StreamStateManager) (entry : StreamEntry)
    (current t : StreamState) :
    (m.setEntry streamId entry current).stateCounts t =
      m.stateCounts t + owedTo t [(current, -1), (entry.state, 1)] := by
  simp only [setEntry, owedTo, List.map_cons, List.map_nil, List.sum_cons, List.sum_nil]
  split <;> split <;> ring

theorem run_transition {newState : StreamState} {now : DateTime} {updated : StreamEntry}
    {m' : StreamStateManager} (h : s.manager.transition streamId newState now = .ok (updated, m')) :
    run sharedStep s [.transition streamId newState now, .adjust s.operations.length,
      .adjust s.operations.length] = some (s.withManager m') := by
  rcases transitionSection_cases s streamId newState now with
    ⟨⟨e, herror⟩, -⟩ | ⟨entry, -, -, hok, hsection⟩
  · exact absurd (herror.symm.trans h) (by simp)
  · obtain ⟨rfl, rfl⟩ := Prod.mk.inj (Except.ok.inj (hok.symm.trans h))
    refine run_begin [(entry.state, -1), (_, 1)] (by simp) ?_ (stateCounts_setEntry _ _ _)
    rw [sharedStep, hsection]
    rfl

theorem run_transitionToError {errorMessage : Text} {now : DateTime} {updated : StreamEntry}
    {m' : StreamStateManager}
    (h : s.manager.transitionToError streamId errorMessage now = .ok (updated, m')) :
    run sharedStep s [.transitionToError streamId errorMessage now, .adjust s.operations.length,
      .adjust s.operations.length] = some (s.withManager m') := by
  rcases errorSection_cases s streamId errorMessage now with
    ⟨⟨e, herror⟩, -⟩ | ⟨entry, -, -, hok, hsection⟩
  · exact absurd (herror.symm.trans h) (by simp)
  · obtain ⟨rfl, rfl⟩ := Prod.mk.inj (Except.ok.inj (hok.symm.trans h))
    refine run_begin [(entry.state, -1), (_, 1)] (by simp) ?_ (stateCounts_setEntry _ _ _)
    rw [sharedStep, hsection]
    rfl

theorem run_remove {entry : StreamEntry} (h : s.streams.lookup streamId = some entry) :
    run sharedStep s [.remove streamId, .adjust s.operations.length] =
      some (s.withManager (s.manager.removeStream streamId).2) := by
  have hlookup : s.manager.streams.lookup streamId = some entry := h
  refine run_begin [(entry.state, -1)] (by simp) ?_ ?_
  · simp only [sharedStep, SharedManager.removeSection, h]
  · intro t
    simp only [removeStream, hlookup, owedTo, List.map_cons, List.map_nil, List.sum_cons,
      List.sum_nil]
    split
    · exact sub_eq_add_neg _ _
    · exact sub_eq_add_neg _ _

/-- `mark_rendition_complete` of a stream that is not done is its first section. -/
theorem run_mark_undone {entry : StreamEntry} {rendition : Text} (now : DateTime)
    (h : s.streams.lookup streamId = some entry)
    (hdone : (noteRenditionComplete entry rendition).2 = false) :
    run sharedStep s [.noteComplete streamId rendition] =
      some (s.withManager (s.manager.markRenditionComplete streamId rendition now).2) := by
  have hlookup : s.manager.streams.lookup streamId = some entry := h
  rw [markRenditionComplete_eq rendition hlookup, run_cons]
  simp only [sharedStep, SharedManager.noteSection, h, hdone, Option.bind_some, run_nil]
  rfl

/-- `mark_rendition_complete` of a stream that is done goes on with its second section. -/
theorem run_mark_done {entry : StreamEntry} {rendition : Text} (now : DateTime)
    (h : s.streams.lookup streamId = some entry)
    (hdone : (noteRenditionComplete entry rendition).2 = true) :
    run sharedStep s [.noteComplete streamId rendition, .finishComplete s.operations.length now,
      .adjust s.operations.length, .adjust s.operations.length] =
      some (s.withManager (s.manager.markRenditionComplete streamId rendition now).2) := by
  obtain ⟨noted, hnoted⟩ : ∃ noted, noteRenditionComplete entry rendition = (noted, true) :=
    ⟨_, Prod.ext rfl hdone⟩
  have hlookup : s.manager.streams.lookup streamId = some entry := h
  let s₁ : SharedManager := { s with streams := s.streams.insert streamId noted }
  have hprocessing : noted.state = .processing := (noteRenditionComplete_true hnoted).2.1
  -- The second section is a transition of the manager the first one leaves.
  have hnote : sharedStep s (.noteComplete streamId rendition) =
      some { s₁ with operations := s.operations ++ [.marking streamId] } := by
    simp only [sharedStep, SharedManager.noteSection, h, hnoted, if_true, s₁]
  have hfinish : sharedStep { s₁ with operations := s.operations ++ [.marking streamId] }
      (.finishComplete s.operations.length now) =
      sharedStep s₁ (.transition streamId .ready now) := by
    simp only [sharedStep, List.getElem?_concat_length, s₁]
    rw [List.eraseIdx_append_of_length_le (le_refl _)]
    simp
  have hvalid : isValidTransition noted.state .ready noted.metadata.ingestMode = true := by
    rw [hprocessing]
    rfl
  have hok := transition_of_valid (m := s₁.manager) now (AList.lookup_insert s.streams) hvalid
  rw [run_cons_of_step hnote, run_cons, hfinish, ← run_cons,
    markRenditionComplete_eq rendition hlookup]
  refine (run_transition hok).trans ?_
  simp only [hnoted, if_true]
  change _ = some (s.withManager
    (orUnchanged s₁.manager (s₁.manager.transition streamId .ready now)))
  rw [hok]
  rfl

end Uninterrupted

end StreamInfa.Control
