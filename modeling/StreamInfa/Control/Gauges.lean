import StreamInfa.Control.Shared

/-!
The state gauges.

A counter is adjusted after the map access it accounts for, so it may lag behind the
map. `Operation.owed` is what an operation in progress still owes to the counter of a
state, `debt` the sum over the operations in progress, and `Balanced` says that
counter and debt together are the number of entries in the state. Every step keeps
the balance: a map access incurs exactly the change it makes, and a counter update
pays off what it adds.
-/

namespace StreamInfa.Control

open StreamStateManager

/-- The number of entries in a state. -/
def entriesIn (streams : Map StreamId StreamEntry) (state : StreamState) : ℕ :=
  streams.values.countP fun entry => state = entry.state

/-- What an operation in progress still owes to the counter of `state`. -/
def Operation.owed (state : StreamState) : Operation → ℤ
  | .marking _ => 0
  | .adjusting owed => owedTo state owed

def debt (state : StreamState) (operations : List Operation) : ℤ :=
  (operations.map (Operation.owed state)).sum

/-- The counters and what is owed to them are the numbers of entries. -/
def Balanced (s : SharedManager) : Prop :=
  ∀ state, s.stateCounts state + debt state s.operations = entriesIn s.streams state

/-! ### Arithmetic of debts -/

@[simp] theorem owedTo_nil (state : StreamState) : owedTo state [] = 0 := rfl

@[simp] theorem owedTo_cons (state : StreamState) (d : StreamState × ℤ)
    (owed : List (StreamState × ℤ)) :
    owedTo state (d :: owed) = (if state = d.1 then d.2 else 0) + owedTo state owed := by
  simp [owedTo]

@[simp] theorem debt_nil (state : StreamState) : debt state [] = 0 := rfl

@[simp] theorem debt_concat (state : StreamState) (operations : List Operation) (o : Operation) :
    debt state (operations ++ [o]) = debt state operations + o.owed state := by
  simp [debt]

section Update

variable {operations : List Operation} {i : ℕ} {o : Operation}

theorem debt_eraseIdx (state : StreamState) (h : operations[i]? = some o) :
    debt state (operations.eraseIdx i) + o.owed state = debt state operations := by
  obtain ⟨hi, rfl⟩ := List.getElem?_eq_some_iff.mp h
  have hsum := List.add_sum_eraseIdx (l := operations.map (Operation.owed state)) (i := i)
    (by simpa using hi) (fun _ _ => AddCommute.all _ _)
  rw [List.getElem_map, List.eraseIdx_map] at hsum
  rw [debt, debt, ← hsum, add_comm]

theorem debt_set (state : StreamState) (h : operations[i]? = some o) (o' : Operation) :
    debt state (operations.set i o') + o.owed state = debt state operations + o'.owed state := by
  obtain ⟨hi, rfl⟩ := List.getElem?_eq_some_iff.mp h
  have hsum := List.sum_set' (operations.map (Operation.owed state)) i (o'.owed state)
  rw [dif_pos (by simpa using hi), ← List.map_set, List.getElem_map] at hsum
  rw [debt, debt, hsum]
  ring

end Update

/-! ### Counting entries -/

section Entries

variable {streams : Map StreamId StreamEntry} {streamId : StreamId}

theorem entriesIn_insert (streams : Map StreamId StreamEntry) (streamId : StreamId)
    (entry : StreamEntry) (state : StreamState) :
    (entriesIn (streams.insert streamId entry) state : ℤ) =
      entriesIn (streams.erase streamId) state + if state = entry.state then 1 else 0 := by
  rw [entriesIn, Map.countP_values_insert]
  simp only [decide_eq_true_eq, Nat.cast_add, Nat.cast_ite, Nat.cast_one, Nat.cast_zero]
  rfl

theorem entriesIn_erase {entry : StreamEntry} (state : StreamState)
    (h : streams.lookup streamId = some entry) :
    (entriesIn (streams.erase streamId) state : ℤ) =
      entriesIn streams state + if state = entry.state then -1 else 0 := by
  have hcount := Map.countP_values_erase (fun entry => decide (state = entry.state)) h
  rw [entriesIn, entriesIn, hcount]
  simp only [decide_eq_true_eq, Nat.cast_add, Nat.cast_ite, Nat.cast_one, Nat.cast_zero]
  split <;> ring

theorem entriesIn_adjust {f : StreamEntry → StreamEntry}
    (hf : ∀ entry, (f entry).state = entry.state) (state : StreamState) :
    entriesIn (streams.adjust streamId f) state = entriesIn streams state :=
  Map.countP_values_adjust streams streamId fun entry => by rw [hf]

end Entries

/-! ### The balance of one step -/

theorem Balanced.replace {s : SharedManager} {streamId : StreamId} {entry : StreamEntry}
    (hs : Balanced s) (h : s.streams.lookup streamId = some entry) (updated : StreamEntry) :
    Balanced (s.replace streamId entry.state updated) := by
  intro state
  have hentries := entriesIn_insert s.streams streamId updated state
  have hbalance := hs state
  rw [entriesIn_erase state h] at hentries
  simp only [SharedManager.replace, debt_concat, Operation.owed, owedTo_cons, owedTo_nil]
  omega

theorem Balanced.transitionSection {s : SharedManager} (hs : Balanced s) (streamId : StreamId)
    (newState : StreamState) (now : DateTime) :
    Balanced (s.transitionSection streamId newState now) := by
  rcases transitionSection_cases s streamId newState now with
    ⟨-, heq⟩ | ⟨entry, hentry, -, -, heq⟩
  · rwa [heq]
  · rw [heq]
    exact hs.replace hentry _

theorem Balanced.adjust {s : SharedManager} (hs : Balanced s) (streamId : StreamId)
    {f : StreamEntry → StreamEntry} (hf : ∀ entry, (f entry).state = entry.state) :
    Balanced { s with streams := s.streams.adjust streamId f } := by
  intro state
  rw [entriesIn_adjust hf]
  exact hs state

/-- The first section of `mark_rendition_complete` owes nothing. -/
theorem Balanced.noteSection {s : SharedManager} (hs : Balanced s) (streamId : StreamId)
    (rendition : Text) : Balanced (s.noteSection streamId rendition) := by
  have hadjust := hs.adjust streamId (f := fun entry => setComplete entry rendition) fun _ => rfl
  intro state
  have hbalance := hadjust state
  rw [streams_noteSection]
  unfold SharedManager.noteSection
  cases s.streams.lookup streamId with
  | none => exact hbalance
  | some entry =>
    dsimp only
    split
    · rw [debt_concat, Operation.owed, add_zero]
      exact hbalance
    · exact hbalance

theorem Balanced.removeSection {s : SharedManager} (hs : Balanced s) (streamId : StreamId) :
    Balanced (s.removeSection streamId) := by
  have hlookup : s.manager.streams.lookup streamId = s.streams.lookup streamId := rfl
  unfold SharedManager.removeSection removeStream
  cases h : s.streams.lookup streamId with
  | none => exact hs
  | some entry =>
    rw [h] at hlookup
    simp only [hlookup]
    intro state
    have hentries := entriesIn_erase state h
    have hbalance := hs state
    simp only [SharedManager.begin, SharedManager.manager, debt_concat, Operation.owed, owedTo_cons,
      owedTo_nil]
    omega

theorem Balanced.create {s : SharedManager} (hs : Balanced s) {streamId : StreamId}
    (hnone : s.streams.lookup streamId = none) (ingestMode : IngestMode) (now : DateTime) :
    Balanced (s.begin (s.manager.createStream streamId ingestMode now).2 [(.pending, 1)]) := by
  intro state
  have hentries :
      (entriesIn (s.manager.createStream streamId ingestMode now).2.streams state : ℤ) =
      entriesIn (s.streams.erase streamId) state + if state = .pending then 1 else 0 :=
    entriesIn_insert s.streams streamId _ state
  have hbalance := hs state
  rw [Map.erase_of_lookup_eq_none hnone] at hentries
  simp only [SharedManager.begin, debt_concat, Operation.owed, owedTo_cons, owedTo_nil]
  omega

/-- A pending transition to READY owes nothing. -/
theorem Balanced.eraseMarking {s : SharedManager} (hs : Balanced s) {i : ℕ} {streamId : StreamId}
    (hmarking : s.operations[i]? = some (.marking streamId)) :
    Balanced { s with operations := s.operations.eraseIdx i } := by
  intro state
  have hdebt := debt_eraseIdx state hmarking
  have hbalance := hs state
  simp only [Operation.owed] at hdebt
  dsimp only
  omega

/-- What an update adds to the counter is what it takes off the debt. -/
theorem debt_paid {operations : List Operation} {i : ℕ} {target : StreamState} {change : ℤ}
    {owed : List (StreamState × ℤ)} (state : StreamState)
    (h : operations[i]? = some (.adjusting ((target, change) :: owed))) :
    debt state (if owed = [] then operations.eraseIdx i else operations.set i (.adjusting owed)) =
      debt state operations - if state = target then change else 0 := by
  split
  · rename_i hnil
    have hdebt := debt_eraseIdx state h
    simp only [Operation.owed, owedTo_cons, hnil, owedTo_nil] at hdebt
    omega
  · have hdebt := debt_set state h (.adjusting owed)
    simp only [Operation.owed, owedTo_cons] at hdebt
    omega

theorem Balanced.step {s s' : SharedManager} {a : ManagerAction} (hs : Balanced s)
    (h : sharedStep s a = some s') : Balanced s' := by
  cases a with
  | create streamId ingestMode now =>
    simp only [sharedStep] at h
    split at h
    · rename_i hnone
      obtain rfl := Option.some.inj h
      exact hs.create hnone ingestMode now
    · cases h
  | transition streamId newState now =>
    obtain rfl := Option.some.inj h
    exact hs.transitionSection streamId newState now
  | transitionToError streamId message now =>
    obtain rfl := Option.some.inj h
    rcases errorSection_cases s streamId message now with ⟨-, heq⟩ | ⟨entry, hentry, -, -, heq⟩
    · rwa [heq]
    · rw [heq]
      exact hs.replace hentry _
  | noteComplete streamId rendition =>
    obtain rfl := Option.some.inj h
    exact hs.noteSection streamId rendition
  | finishComplete i now =>
    simp only [sharedStep] at h
    split at h
    · rename_i streamId hmarking
      obtain rfl := Option.some.inj h
      exact (hs.eraseMarking hmarking).transitionSection streamId .ready now
    · cases h
  | updateProgress streamId rendition sequence now =>
    obtain rfl := Option.some.inj h
    exact hs.adjust streamId fun _ => rfl
  | setExpected streamId count =>
    obtain rfl := Option.some.inj h
    exact hs.adjust streamId fun _ => rfl
  | setMediaInfo streamId mediaInfo =>
    obtain rfl := Option.some.inj h
    exact hs.adjust streamId fun _ => rfl
  | remove streamId =>
    obtain rfl := Option.some.inj h
    exact hs.removeSection streamId
  | adjust i =>
    simp only [sharedStep] at h
    split at h
    · rename_i target change owed hadjusting
      obtain rfl := Option.some.inj h
      intro state
      have hbalance := hs state
      dsimp only
      rw [debt_paid state hadjusting]
      omega
    · cases h

/-! ### Whole runs -/

/-- **The gauges are exact at rest.** At every moment of every run, the numbers of
entries differ from the counters by what the operations in progress owe; when none is
in progress, each counter is the number of entries in its state. -/
theorem stateCounts_of_every_run {t : SharedManager} {as : List ManagerAction}
    (h : run sharedStep .new as = some t) :
    (∀ state, (entriesIn t.streams state : ℤ) - t.stateCounts state = debt state t.operations) ∧
    (t.operations = [] → ∀ state,
      t.stateCounts state = entriesIn t.streams state ∧ 0 ≤ t.stateCounts state) := by
  have hbalanced : Balanced t := by
    refine run_invariant (fun s a s' hs hstep => hs.step hstep) ?_ h
    intro state
    rfl
  refine ⟨fun state => ?_, fun hrest state => ?_⟩
  · rw [← hbalanced state]
    ring
  · have hcount := hbalanced state
    rw [hrest, debt_nil, add_zero] at hcount
    exact ⟨hcount, by rw [hcount]; exact Int.natCast_nonneg _⟩

/-- Two operations race on one stream: the error is counted before the transition it
overtakes has taken the stream out of PENDING. -/
def overtakenRun : List ManagerAction :=
  [.create ⟨1⟩ .live ⟨0⟩, .adjust 0, .transition ⟨1⟩ .live ⟨1⟩, .transitionToError ⟨1⟩ ['e'] ⟨2⟩,
    .adjust 1, .adjust 1, .adjust 0, .adjust 0]

theorem stateCounts_of_overtakenRun :
    ∃ t, run sharedStep .new overtakenRun = some t ∧ t.operations = [] ∧
      t.stateCounts .error = 1 ∧
      ∀ state, t.stateCounts state = entriesIn t.streams state ∧ 0 ≤ t.stateCounts state :=
  ⟨_, rfl, rfl, rfl, (@stateCounts_of_every_run _ overtakenRun rfl).2 rfl⟩

end StreamInfa.Control
