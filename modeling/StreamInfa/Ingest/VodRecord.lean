import StreamInfa.Control.Ready
import StreamInfa.Ingest.Ladder

/-!
The record of an uploaded file while it is processed.

From the upload on the record is in PROCESSING, and four kinds of events reach it: progress,
segments, complete renditions and errors. `Kept` is its state after any of them, in any order in
which a rendition has a segment before it is complete: in ERROR after the first error, and short
of that in READY exactly if as many renditions are complete as the pipeline expects.
-/

namespace StreamInfa.Ingest

open Control Transcode Package

/-! ### Events -/

/-- The events of an uploaded file. -/
inductive VodEvent (streamId : StreamId) : PipelineEvent → Prop
  | progress (percent : ℚ) : VodEvent streamId (.vodProgress streamId percent)
  | produced (name : Text) (sequence : ℕ) :
      VodEvent streamId (.segmentProduced streamId name sequence)
  | complete (name : Text) : VodEvent streamId (.renditionComplete streamId name)
  | error (error : Text) : VodEvent streamId (.streamError streamId error)

/-- The rendition that an event completes. -/
def completedName : PipelineEvent → Option Text
  | .renditionComplete _ name => some name
  | _ => none

/-- The renditions that events complete. -/
def completedNames (events : List PipelineEvent) : List Text := events.filterMap completedName

/-- The renditions that segments end. -/
def lastNames (segments : List EncodedSegment) : List Text :=
  (segments.filter (·.isLast)).map fun segment => segment.rendition.asStr

/-- Every rendition has a segment before it is complete. -/
def Ordered (streamId : StreamId) (events : List PipelineEvent) : Prop :=
  ∀ before name later, events = before ++ .renditionComplete streamId name :: later →
    ∃ sequence, .segmentProduced streamId name sequence ∈ before

section Events

variable {streamId : StreamId} {events more : List PipelineEvent} {event : PipelineEvent}

theorem completedNames_append (xs ys : List PipelineEvent) :
    completedNames (xs ++ ys) = completedNames xs ++ completedNames ys := List.filterMap_append

theorem lastNames_append (xs ys : List EncodedSegment) :
    lastNames (xs ++ ys) = lastNames xs ++ lastNames ys := by
  simp only [lastNames, List.filter_append, List.map_append]

theorem lastNames_eq_nil {segments : List EncodedSegment}
    (h : ∀ segment ∈ segments, segment.isLast = false) : lastNames segments = [] := by
  rw [lastNames, List.map_eq_nil_iff, List.filter_eq_nil_iff]
  intro segment hmem
  rw [h segment hmem]
  exact Bool.false_ne_true

/-- Packaging a segment completes its rendition if it is the last. -/
theorem completedNames_segmentEvents (env : PackagerEnv) (segment : EncodedSegment) :
    completedNames (segmentEvents env segment) = lastNames [segment] := by
  unfold segmentEvents
  cases hlast : segment.isLast with
  | true =>
    rw [lastNames, List.filter_cons_of_pos hlast]
    rfl
  | false =>
    rw [lastNames_eq_nil fun other hmem => (List.mem_singleton.mp hmem) ▸ hlast]
    rfl

theorem ordered_nil (streamId : StreamId) : Ordered streamId [] := by
  intro before name later heq
  cases before <;> cases heq

theorem Ordered.concat (h : Ordered streamId events)
    (hevent : ∀ name, event = .renditionComplete streamId name →
      ∃ sequence, .segmentProduced streamId name sequence ∈ events) :
    Ordered streamId (events ++ [event]) := by
  intro before name later heq
  rcases List.eq_nil_or_concat later with rfl | ⟨later, last, rfl⟩
  · obtain ⟨rfl, hlast⟩ := List.append_inj' heq rfl
    exact hevent name (List.cons.inj hlast).1
  · rw [List.concat_eq_append, ← List.cons_append, ← List.append_assoc] at heq
    obtain ⟨rfl, -⟩ := List.append_inj' heq rfl
    exact h before name later rfl

/-- The events of a packaged segment keep the order. -/
theorem Ordered.package (h : Ordered streamId events) {env : PackagerEnv}
    (henv : env.streamId = streamId) (segment : EncodedSegment) :
    Ordered streamId (events ++ segmentEvents env segment) := by
  subst henv
  have hfirst : Ordered env.streamId (events ++
      [.segmentProduced env.streamId segment.rendition.asStr segment.sequence]) :=
    h.concat fun name hname => by cases hname
  unfold segmentEvents
  cases segment.isLast with
  | false => exact hfirst
  | true =>
    simp only [if_true]
    rw [← List.singleton_append, ← List.append_assoc]
    refine hfirst.concat fun name hname => ?_
    obtain ⟨-, rfl⟩ := PipelineEvent.renditionComplete.inj hname
    exact ⟨segment.sequence, List.mem_append_right _ List.mem_cons_self⟩

theorem vodEvent_segmentEvents (env : PackagerEnv) (segment : EncodedSegment) :
    ∀ event ∈ segmentEvents env segment, VodEvent env.streamId event := by
  intro event hmem
  rcases List.mem_cons.mp hmem with rfl | hmem
  · exact .produced _ _
  · split at hmem
    · obtain rfl := List.mem_singleton.mp hmem
      exact .complete _
    · cases hmem

end Events

/-! ### The record -/

/-- A record as the upload leaves it. -/
structure Awaiting (entry : StreamEntry) : Prop where
  state : entry.state = .processing
  renditions : entry.renditions = ∅
  expected : entry.expectedRenditions = none

/-- As many renditions are complete as are expected. -/
def allComplete (expected : Option ℕ) (names : List Text) : Bool :=
  match expected with
  | some n => n ≤ names.dedup.length
  | none => false

/-- The record when the events are handled. -/
structure Kept (streamId : StreamId) (expected : Option ℕ) (handled : List PipelineEvent)
    (entry : StreamEntry) : Prop where
  expects : entry.expectedRenditions = expected
  known : ∀ name sequence, .segmentProduced streamId name sequence ∈ handled →
    entry.renditions.lookup name ≠ none
  complete : ∀ name, HasComplete entry name ↔ name ∈ completedNames handled
  failed : ∀ error, .streamError streamId error ∈ handled → entry.state = .error
  going : (∀ error, .streamError streamId error ∉ handled) →
    entry.state = if allComplete expected (completedNames handled) then .ready else .processing

section Kept

variable {streamId : StreamId} {expected : Option ℕ} {handled : List PipelineEvent}
  {entry : StreamEntry} {event : PipelineEvent}

theorem Awaiting.kept (h : Awaiting entry) (streamId : StreamId) : Kept streamId none [] entry where
  expects := h.expected
  known _ _ hmem := absurd hmem List.not_mem_nil
  complete name := by
    refine ⟨fun hcomplete => ?_, fun hmem => absurd hmem List.not_mem_nil⟩
    obtain ⟨status, hstatus, -⟩ := hcomplete
    rw [h.renditions] at hstatus
    cases hstatus
  failed _ hmem := absurd hmem List.not_mem_nil
  going _ := h.state

theorem completeCount_eq_length {names : List Text}
    (h : ∀ name, HasComplete entry name ↔ name ∈ names) :
    StreamStateManager.completeCount entry = names.dedup.length := by
  refine Map.countP_values names.nodup_dedup fun name => ?_
  rw [List.mem_dedup, ← h name]
  exact exists_congr fun status => and_congr_right fun _ => decide_eq_true_iff.symm

/-- The pipeline sets how many renditions it expects. -/
theorem Kept.expect (h : Kept streamId none handled entry) {n : ℕ} (hn : 0 < n)
    (hnone : completedNames handled = []) :
    Kept streamId (some n) handled { entry with expectedRenditions := some n } where
  expects := rfl
  known := h.known
  complete := h.complete
  failed := h.failed
  going hfree := by
    have hstate := h.going hfree
    rw [hnone] at hstate ⊢
    have hfew : allComplete (some n) [] = false := decide_eq_false (by
      rw [List.dedup_nil, List.length_nil]
      exact Nat.not_le.mpr hn)
    rw [hfew]
    exact hstate

/-- An event that completes nothing and is no error. -/
theorem Kept.quiet (h : Kept streamId expected handled entry) {entry' : StreamEntry}
    (hname : completedName event = none)
    (herror : ∀ error, event ≠ .streamError streamId error)
    (hstate : entry'.state = entry.state)
    (hexpects : entry'.expectedRenditions = entry.expectedRenditions)
    (hcomplete : ∀ name, HasComplete entry' name ↔ HasComplete entry name)
    (hknown : ∀ name sequence, .segmentProduced streamId name sequence ∈ handled ++ [event] →
      entry'.renditions.lookup name ≠ none) :
    Kept streamId expected (handled ++ [event]) entry' := by
  have hnames : completedNames (handled ++ [event]) = completedNames handled := by
    rw [completedNames_append]
    simp only [completedNames, List.filterMap_cons, hname, List.filterMap_nil, List.append_nil]
  have herrors : ∀ error, .streamError streamId error ∈ handled ++ [event] ↔
      .streamError streamId error ∈ handled := by
    intro error
    rw [List.mem_append, List.mem_singleton]
    exact or_iff_left fun heq => herror error heq.symm
  refine ⟨hexpects.trans h.expects, hknown, fun name => ?_, fun error hmem => ?_,
    fun hfree => ?_⟩
  · rw [hnames, hcomplete, h.complete]
  · rw [hstate]
    exact h.failed error ((herrors error).mp hmem)
  · rw [hstate, hnames]
    exact h.going fun error => mt (herrors error).mpr (hfree error)

theorem Kept.error (h : Kept streamId expected handled entry) (error : Text) (now : DateTime)
    (hlive : entry.state ≠ .deleted) :
    Kept streamId expected (handled ++ [.streamError streamId error])
      (ControlStep.onEntry now entry (.event (.streamError streamId error))) := by
  have hnames : completedNames (handled ++ [.streamError streamId error]) =
      completedNames handled := by
    rw [completedNames_append]
    exact List.append_nil _
  have hentry : ControlStep.onEntry now entry (.event (.streamError streamId error)) =
      { entry with
        metadata := { entry.metadata with endedAt := some now }
        state := .error
        errorMessage := some error } := by
    simp only [ControlStep.onEntry, if_neg hlive]
  rw [hentry]
  refine ⟨h.expects, fun name sequence hmem => h.known name sequence ?_, fun name => ?_,
    fun _ _ => rfl, fun hfree => absurd ?_ (hfree error)⟩
  · rcases List.mem_append.mp hmem with hmem | hmem
    · exact hmem
    · cases List.mem_singleton.mp hmem
  · rw [hnames, ← h.complete]
    exact Iff.rfl
  · exact List.mem_append_right _ (List.mem_singleton_self _)

theorem Kept.produced (h : Kept streamId expected handled entry) (name : Text) (sequence : ℕ)
    (now : DateTime) :
    Kept streamId expected (handled ++ [.segmentProduced streamId name sequence])
      (ControlStep.onEntry now entry (.event (.segmentProduced streamId name sequence))) := by
  refine h.quiet rfl (by simp) rfl rfl (fun other => ?_) fun other number hmem => ?_
  · exact (hasComplete_onEntry_iff now (.segmentProduced streamId name sequence)).trans
      (or_iff_left fun hcompletes => by cases hcompletes.1)
  · simp only [ControlStep.onEntry]
    by_cases hname : other = name
    · subst hname
      rw [AList.lookup_insert]
      exact Option.some_ne_none _
    · rw [AList.lookup_insert_ne hname]
      rcases List.mem_append.mp hmem with hmem | hmem
      · exact h.known other number hmem
      · obtain ⟨-, rfl, -⟩ := PipelineEvent.segmentProduced.inj (List.mem_singleton.mp hmem)
        exact absurd rfl hname

/-- The state after a rendition is complete. -/
theorem state_completed (now : DateTime) (entry : StreamEntry) (streamId : StreamId)
    (name : Text) :
    (ControlStep.onEntry now entry (.event (.renditionComplete streamId name))).state =
      if entry.state = .processing ∧ ∃ n, entry.expectedRenditions = some n ∧
          n ≤ StreamStateManager.completeCount (StreamStateManager.setComplete entry name)
        then .ready else entry.state := by
  simp only [ControlStep.onEntry]
  cases hexpected : entry.expectedRenditions with
  | none =>
    have hnoted : StreamStateManager.noteRenditionComplete entry name =
        (StreamStateManager.setComplete entry name, false) := by
      have hsame : (StreamStateManager.setComplete entry name).expectedRenditions = none :=
        hexpected
      simp only [StreamStateManager.noteRenditionComplete, hsame]
    simp only [hnoted, Bool.false_eq_true, if_false, reduceCtorEq, false_and, exists_false,
      and_false]
    rfl
  | some n =>
    rw [noteRenditionComplete_of_expected name hexpected]
    simp only [Option.some.injEq, exists_eq_left', decide_eq_true_eq]
    split
    · rename_i hdone
      have hstate : (StreamStateManager.setComplete entry name).state = .processing := hdone.1
      simp [StreamEntry.moveTo, StreamStateManager.isValidTransition, hstate]
    · rfl

theorem Kept.completed (h : Kept streamId expected handled entry) {name : Text} {sequence : ℕ}
    (hproduced : .segmentProduced streamId name sequence ∈ handled) (now : DateTime) :
    Kept streamId expected (handled ++ [.renditionComplete streamId name])
      (ControlStep.onEntry now entry (.event (.renditionComplete streamId name))) := by
  have hknown := h.known name sequence hproduced
  have hrenditions := renditions_completed now entry streamId name
  have hnames : completedNames (handled ++ [.renditionComplete streamId name]) =
      completedNames handled ++ [name] := completedNames_append _ _
  have hcomplete : ∀ other, HasComplete (ControlStep.onEntry now entry
      (.event (.renditionComplete streamId name))) other ↔
        other ∈ completedNames handled ++ [name] := by
    intro other
    rw [hasComplete_onEntry_iff, h.complete, List.mem_append, List.mem_singleton]
    refine or_congr_right ⟨fun hcompletes => ?_, fun heq => ?_⟩
    · exact (PipelineEvent.renditionComplete.inj hcompletes.1).2.symm
    · subst heq
      exact ⟨rfl, hknown⟩
  have hcount := completeCount_eq_length fun other =>
    (hasComplete_congr hrenditions).symm.trans (hcomplete other)
  have hmono := completeCount_le_setComplete entry name
  rw [hcount, completeCount_eq_length h.complete] at hmono
  have herrors : ∀ error, .streamError streamId error ∈
      handled ++ [.renditionComplete streamId name] ↔
        .streamError streamId error ∈ handled := by
    intro error
    rw [List.mem_append, List.mem_singleton]
    exact or_iff_left fun heq => by cases heq
  refine ⟨(expectedRenditions_onEntry now entry _).trans h.expects, fun other number hmem => ?_,
    fun other => ?_, fun error hmem => ?_, fun hfree => ?_⟩
  · rw [hrenditions]
    refine Option.isSome_iff_ne_none.mp ((Map.isSome_lookup_adjust _ _ _ _).trans ?_)
    rcases List.mem_append.mp hmem with hmem | hmem
    · exact Option.isSome_iff_ne_none.mpr (h.known other number hmem)
    · cases List.mem_singleton.mp hmem
  · rw [hnames]
    exact hcomplete other
  · rw [state_completed, h.failed error ((herrors error).mp hmem)]
    exact if_neg fun hdone => by cases hdone.1
  · have hstate := h.going fun error => mt (herrors error).mpr (hfree error)
    rw [state_completed, hcount, h.expects, hnames, hstate]
    cases expected with
    | none => rfl
    | some n =>
      simp only [allComplete, Option.some.injEq, exists_eq_left', decide_eq_true_eq]
      -- Once as many as expected are complete, they stay so.
      by_cases hbefore : n ≤ (completedNames handled).dedup.length
      · simp [hbefore, hbefore.trans hmono]
      · simp [hbefore]

/-- The record after an event of the file. -/
theorem Kept.handle (h : Kept streamId expected handled entry) (hevent : VodEvent streamId event)
    (hordered : Ordered streamId (handled ++ [event])) (now : DateTime) :
    Kept streamId expected (handled ++ [event]) (ControlStep.onEntry now entry (.event event)) := by
  cases hevent with
  | progress percent =>
    refine h.quiet rfl (by simp) rfl rfl (fun _ => Iff.rfl) fun name sequence hmem => ?_
    rcases List.mem_append.mp hmem with hmem | hmem
    · exact h.known name sequence hmem
    · cases List.mem_singleton.mp hmem
  | produced name sequence => exact h.produced name sequence now
  | complete name =>
    obtain ⟨sequence, hproduced⟩ := hordered handled name [] rfl
    exact h.completed hproduced now
  | error error =>
    refine h.error error now fun hdeleted => ?_
    by_cases hfree : ∀ error, .streamError streamId error ∉ handled
    · have hstate := h.going hfree
      rw [hdeleted] at hstate
      split at hstate <;> cases hstate
    · push Not at hfree
      obtain ⟨other, hmem⟩ := hfree
      have hstate := h.failed other hmem
      rw [hdeleted] at hstate
      cases hstate

end Kept

end StreamInfa.Ingest
