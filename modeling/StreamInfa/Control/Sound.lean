import StreamInfa.Control.Plane

/-!
What READY stands for.

The count of completed renditions is taken in one section of
`mark_rendition_complete` and the stream moves to READY in the next. `Decided` is what
the entry keeps in between, whatever the other tasks do: it may fail, be deleted or be
replaced by a new record, but it cannot get back to PROCESSING, and completed
renditions stay complete. `Evidence` relates the renditions of an entry to the events
handled since its record was created.
-/

namespace StreamInfa.Control

open StreamStateManager

/-! ### Histories -/

/-- None of the actions creates the stream. -/
def SameRecord (streamId : StreamId) (actions : List PlaneAction) : Prop :=
  ∀ a ∈ actions, a.creates streamId = false

/-- A SegmentProduced of the rendition has been handled under the current record. -/
def Produced (streamId : StreamId) (rendition : Text) (p : List PlaneAction) : Prop :=
  ∃ before sequence now after,
    p = before ++ .handle (.segmentProduced streamId rendition sequence) now :: after ∧
      SameRecord streamId after

/-- A RenditionComplete has been handled under the current record, after a
SegmentProduced of the rendition. -/
def CompletedAfterProduced (streamId : StreamId) (rendition : Text) (p : List PlaneAction) : Prop :=
  ∃ before now after, p = before ++ .handle (.renditionComplete streamId rendition) now :: after ∧
    Produced streamId rendition before ∧ SameRecord streamId after

/-- The current record of the stream has been in PROCESSING. -/
def PassedProcessing (streamId : StreamId) (p : List PlaneAction) : Prop :=
  ∃ before after c entry, p = before ++ after ∧ SameRecord streamId after ∧
    run planeStep .start before = some c ∧ c.manager.streams.lookup streamId = some entry ∧
    entry.state = .processing

section History

variable {streamId : StreamId} {rendition : Text} {p : List PlaneAction} {a : PlaneAction}

theorem SameRecord.concat {actions : List PlaneAction} (h : SameRecord streamId actions)
    (ha : a.creates streamId = false) : SameRecord streamId (actions ++ [a]) := by
  intro b hb
  rcases List.mem_append.mp hb with hb | hb
  · exact h b hb
  · rw [List.mem_singleton.mp hb]
    exact ha

theorem Produced.concat (h : Produced streamId rendition p) (ha : a.creates streamId = false) :
    Produced streamId rendition (p ++ [a]) := by
  obtain ⟨before, sequence, now, after, rfl, hafter⟩ := h
  exact ⟨before, sequence, now, after ++ [a], by simp, hafter.concat ha⟩

theorem CompletedAfterProduced.concat (h : CompletedAfterProduced streamId rendition p)
    (ha : a.creates streamId = false) : CompletedAfterProduced streamId rendition (p ++ [a]) := by
  obtain ⟨before, now, after, rfl, hbefore, hafter⟩ := h
  exact ⟨before, now, after ++ [a], by simp, hbefore, hafter.concat ha⟩

theorem PassedProcessing.concat (h : PassedProcessing streamId p)
    (ha : a.creates streamId = false) : PassedProcessing streamId (p ++ [a]) := by
  obtain ⟨before, after, c, entry, rfl, hafter, hrun⟩ := h
  exact ⟨before, after ++ [a], c, entry, by simp, hafter.concat ha, hrun⟩

end History

/-! ### Completed renditions stay complete -/

theorem completeCount_le_setComplete (entry : StreamEntry) (rendition : Text) :
    completeCount entry ≤ completeCount (setComplete entry rendition) := by
  simp only [completeCount, setComplete, Map.adjust]
  cases h : entry.renditions.lookup rendition with
  | none => exact le_refl _
  | some status => exact Map.countP_values_le_insert fun _ _ _ => rfl

theorem completeCount_le_produced (entry : StreamEntry) (rendition : Text) (sequence : ℕ)
    (now : DateTime) :
    completeCount entry ≤ completeCount { entry with
      renditions := entry.renditions.insert rendition
        { renditionStatus entry.renditions rendition with
          segmentsProduced := sequence, lastSegmentTime := some now } } := by
  refine Map.countP_values_le_insert fun status hstatus hcomplete => ?_
  rw [renditionStatus, hstatus]
  exact hcomplete

theorem completeCount_moveTo (entry : StreamEntry) (newState : StreamState) (now : DateTime) :
    completeCount (entry.moveTo newState now) = completeCount entry := by
  unfold StreamEntry.moveTo
  split <;> rfl

/-- Short of creating it anew, nothing takes back a completed rendition. -/
theorem EntryChange.completeCount_le {c : ControlPlane} {a : PlaneAction} {streamId : StreamId}
    {entry entry' : StreamEntry} (h : EntryChange c a streamId (some entry) (some entry')) :
    completeCount entry ≤ completeCount entry' := by
  cases h with
  | same | expected | informed | failed => exact le_refl _
  | started _ now _ => exact (completeCount_moveTo entry .live now).ge
  | processed _ now => exact (completeCount_moveTo entry .processing now).ge
  | deleted _ now => exact (completeCount_moveTo entry .deleted now).ge
  | readied _ now _ _ => exact (completeCount_moveTo entry .ready now).ge
  | produced _ rendition sequence now _ =>
    exact completeCount_le_produced entry rendition sequence now
  | completed _ rendition _ _ => exact completeCount_le_setComplete entry rendition

/-! ### The renditions of an entry and the events handled -/

/-- A rendition has a status once it has produced a segment, and is complete only
after its RenditionComplete. -/
def Evidence (streamId : StreamId) (p : List PlaneAction) (entry : StreamEntry) : Prop :=
  ∀ rendition status, entry.renditions.lookup rendition = some status →
    Produced streamId rendition p ∧
      (status.status = .complete → CompletedAfterProduced streamId rendition p)

section Evidence

variable {c : ControlPlane} {a : PlaneAction} {streamId : StreamId} {p : List PlaneAction}
  {entry entry' : StreamEntry}

theorem renditions_moveTo (newState : StreamState) (now : DateTime) :
    (entry.moveTo newState now).renditions = entry.renditions := by
  unfold StreamEntry.moveTo
  split <;> rfl

theorem Evidence.of_renditions_eq (h : Evidence streamId p entry)
    (ha : a.creates streamId = false) (heq : entry'.renditions = entry.renditions) :
    Evidence streamId (p ++ [a]) entry' := by
  intro rendition status hstatus
  rw [heq] at hstatus
  obtain ⟨hproduced, hcomplete⟩ := h rendition status hstatus
  exact ⟨hproduced.concat ha, fun hs => (hcomplete hs).concat ha⟩

theorem Evidence.produced (h : Evidence streamId p entry) (rendition : Text) (sequence : ℕ)
    (now : DateTime) :
    Evidence streamId (p ++ [.handle (.segmentProduced streamId rendition sequence) now])
      { entry with
        renditions := entry.renditions.insert rendition
          { renditionStatus entry.renditions rendition with
            segmentsProduced := sequence, lastSegmentTime := some now } } := by
  intro r status hstatus
  by_cases hr : r = rendition
  · subst hr
    refine ⟨⟨p, sequence, now, [], by simp, fun _ hb => absurd hb List.not_mem_nil⟩, fun hs => ?_⟩
    obtain rfl := Option.some.inj ((AList.lookup_insert _).symm.trans hstatus)
    -- A rendition without a status becomes an active one.
    cases hprev : entry.renditions.lookup r with
    | none => simp [renditionStatus, hprev] at hs
    | some prev =>
      rw [renditionStatus, hprev] at hs
      exact ((h r prev hprev).2 hs).concat rfl
  · obtain ⟨hproduced, hcomplete⟩ := h r status ((AList.lookup_insert_ne hr).symm.trans hstatus)
    exact ⟨hproduced.concat rfl, fun hs => (hcomplete hs).concat rfl⟩

theorem Evidence.completed (h : Evidence streamId p entry) (rendition : Text) (now : DateTime) :
    Evidence streamId (p ++ [.handle (.renditionComplete streamId rendition) now])
      (setComplete entry rendition) := by
  intro r status hstatus
  unfold setComplete at hstatus
  by_cases hr : r = rendition
  · subst hr
    rw [Map.lookup_adjust_self] at hstatus
    obtain ⟨prev, hprev, -⟩ := Option.map_eq_some_iff.mp hstatus
    have hproduced := (h r prev hprev).1
    refine ⟨hproduced.concat rfl, fun _ => ⟨p, now, [], by simp, hproduced, ?_⟩⟩
    exact fun _ hb => absurd hb List.not_mem_nil
  · rw [Map.lookup_adjust_ne _ _ hr] at hstatus
    obtain ⟨hproduced, hcomplete⟩ := h r status hstatus
    exact ⟨hproduced.concat rfl, fun hs => (hcomplete hs).concat rfl⟩

theorem EntryChange.evidence (hchange : EntryChange c a streamId (some entry) (some entry'))
    (ha : a.creates streamId = false) (h : Evidence streamId p entry) :
    Evidence streamId (p ++ [a]) entry' := by
  cases hchange with
  | same | failed | expected | informed => exact h.of_renditions_eq ha rfl
  | started | processed | deleted | readied => exact h.of_renditions_eq ha (renditions_moveTo _ _)
  | produced _ rendition sequence now ha =>
    subst ha
    exact h.produced rendition sequence now
  | completed _ rendition now ha =>
    subst ha
    exact h.completed rendition now

end Evidence

/-! ### Between the decision and the transition -/

/-- The entry of a stream that has been found done: it is in PROCESSING with its `n`
renditions complete, or cannot get there before the transition is made. -/
structure Decided (n : ℕ) (entry : StreamEntry) : Prop where
  not_live : entry.state ≠ .live
  pending : entry.state = .pending → entry.metadata.ingestMode = .live
  processing : entry.state = .processing → n ≤ completeCount entry

section Decided

variable {c : ControlPlane} {a : PlaneAction} {streamId : StreamId} {p : List PlaneAction}
  {entry entry' : StreamEntry} {n : ℕ}

/-- A transition of an entry reaches its target, if valid, or does nothing. -/
theorem moveTo_cases (entry : StreamEntry) (newState : StreamState) (now : DateTime) :
    isValidTransition entry.state newState entry.metadata.ingestMode = true ∧
      (entry.moveTo newState now).state = newState ∨ entry.moveTo newState now = entry := by
  unfold StreamEntry.moveTo
  split
  · rename_i h
    exact Or.inl ⟨h, rfl⟩
  · exact Or.inr rfl

theorem Decided.mono (h : Decided n entry) (hstate : entry'.state = entry.state)
    (hmode : entry'.metadata.ingestMode = entry.metadata.ingestMode)
    (hcount : completeCount entry ≤ completeCount entry') : Decided n entry' where
  not_live := by rw [hstate]; exact h.not_live
  pending hp := by rw [hmode]; exact h.pending (hstate ▸ hp)
  processing hp := (h.processing (hstate ▸ hp)).trans hcount

theorem Decided.of_final (h : entry.state = .error ∨ entry.state = .deleted) : Decided n entry := by
  rcases h with h | h
  all_goals exact ⟨by simp [h], by simp [h], by simp [h]⟩

/-- No other task gets a stream that has been found done back to PROCESSING. -/
theorem EntryChange.decided (hchange : EntryChange c a streamId (some entry) (some entry'))
    (hmarking : c.handler = .marking streamId) (hresume : ∀ now, a ≠ .resume now)
    (h : Decided n entry) : Decided n entry' := by
  have hcount := hchange.completeCount_le
  cases hchange with
  | same => exact h
  | started _ _ hidle => exact absurd (hidle.symm.trans hmarking) (by simp)
  | processed _ now =>
    rcases moveTo_cases entry .processing now with ⟨hvalid, -⟩ | heq
    · -- Neither source of PROCESSING is left.
      rcases isValidTransition_cases hvalid with ⟨htarget, -⟩ | ⟨-, htarget, -⟩ | ⟨hlive, -, -⟩ |
        ⟨hpending, -, hvod⟩ | ⟨-, htarget⟩ | ⟨-, htarget⟩
      · cases htarget
      · cases htarget
      · exact absurd hlive h.not_live
      · exact absurd ((h.pending hpending).symm.trans hvod) (by simp)
      · cases htarget
      · cases htarget
    · rwa [heq]
  | deleted _ now =>
    rcases moveTo_cases entry .deleted now with ⟨-, hstate⟩ | heq
    · exact .of_final (Or.inr hstate)
    · rwa [heq]
  | failed => exact .of_final (Or.inl rfl)
  | readied _ now ha _ => exact absurd ha (hresume now)
  | produced | completed | expected | informed => exact h.mono rfl rfl hcount

/-- READY is reached from PROCESSING only, by the handler. -/
theorem EntryChange.ready (hchange : EntryChange c a streamId (some entry) (some entry'))
    (ha : a.creates streamId = false) (hrun : run planeStep .start p = some c)
    (hentry : c.manager.streams.lookup streamId = some entry)
    (hdecided : c.handler = .marking streamId → Decided n entry)
    (h : entry.state = .ready → n ≤ completeCount entry ∧ PassedProcessing streamId p)
    (hready : entry'.state = .ready) :
    n ≤ completeCount entry' ∧ PassedProcessing streamId (p ++ [a]) := by
  have hcount := hchange.completeCount_le
  -- An entry that was READY before has only gained renditions.
  have hkept : entry.state = .ready →
      n ≤ completeCount entry' ∧ PassedProcessing streamId (p ++ [a]) := fun hr =>
    ⟨(h hr).1.trans hcount, (h hr).2.concat ha⟩
  have hmove : ∀ newState now, newState ≠ .ready →
      (entry.moveTo newState now).state = .ready → entry.state = .ready := by
    intro newState now hne hr
    rcases moveTo_cases entry newState now with ⟨-, hstate⟩ | heq
    · exact absurd (hstate.symm.trans hr) hne
    · rwa [heq] at hr
  cases hchange with
  | same | produced | completed | expected | informed => exact hkept hready
  | started _ now _ => exact hkept (hmove .live now (by simp) hready)
  | processed _ now => exact hkept (hmove .processing now (by simp) hready)
  | deleted _ now => exact hkept (hmove .deleted now (by simp) hready)
  | failed => cases hready
  | readied _ now _ hmarking =>
    rcases moveTo_cases entry .ready now with ⟨hvalid, -⟩ | heq
    · have hprocessing : entry.state = .processing := by
        rcases isValidTransition_cases hvalid with ⟨htarget, -⟩ | ⟨-, htarget, -⟩ |
          ⟨-, htarget, -⟩ | ⟨-, htarget, -⟩ | ⟨hprocessing, -⟩ | ⟨-, htarget⟩
        all_goals first | exact hprocessing | cases htarget
      refine ⟨((hdecided hmarking).processing hprocessing).trans hcount, ?_⟩
      refine ⟨p, [a], c, entry, rfl, ?_, hrun, hentry, hprocessing⟩
      intro b hb
      rw [List.mem_singleton.mp hb]
      exact ha
    · rw [heq] at hready
      exact hkept hready

end Decided

/-! ### Whole runs -/

/-- The invariant of a stream with `n` expected renditions after the actions `p`. -/
structure ReadySound (streamId : StreamId) (n : ℕ) (p : List PlaneAction) (c : ControlPlane) :
    Prop where
  used : ∀ entry, c.manager.streams.lookup streamId = some entry → streamId ∈ c.used
  marking_used : c.handler = .marking streamId → streamId ∈ c.used
  expected : ∀ entry, c.manager.streams.lookup streamId = some entry →
    ∀ count, entry.expectedRenditions = some count → count = n
  evidence : ∀ entry, c.manager.streams.lookup streamId = some entry → Evidence streamId p entry
  decided : c.handler = .marking streamId →
    ∀ entry, c.manager.streams.lookup streamId = some entry → Decided n entry
  ready : ∀ entry, c.manager.streams.lookup streamId = some entry → entry.state = .ready →
    n ≤ completeCount entry ∧ PassedProcessing streamId p

section Runs

variable {c c' : ControlPlane} {a : PlaneAction} {streamId : StreamId} {p : List PlaneAction}
  {n : ℕ}

theorem planeStep_used (h : planeStep c a = some c') {id : StreamId} (hid : id ∈ c.used) :
    id ∈ c'.used := by
  cases a with
  | handle event now =>
    simp only [planeStep] at h
    split at h
    · obtain rfl := Option.some.inj h
      exact hid
    · cases h
  | create =>
    simp only [planeStep] at h
    split at h
    · obtain rfl := Option.some.inj h
      exact List.mem_cons_of_mem _ hid
    · cases h
  | attach =>
    obtain rfl := Option.some.inj h
    exact List.mem_cons_of_mem _ hid
  | resume | expect | process | inform | delete | remove =>
    obtain rfl := Option.some.inj h
    exact hid

theorem used_of_creates (h : planeStep c a = some c') (ha : a.creates streamId = true) :
    streamId ∈ c'.used := by
  cases a with
  | create id ingestMode now =>
    simp only [planeStep] at h
    split at h
    · obtain rfl := Option.some.inj h
      exact of_decide_eq_true ha ▸ List.mem_cons_self
    · cases h
  | attach id now =>
    obtain rfl := Option.some.inj h
    exact of_decide_eq_true ha ▸ List.mem_cons_self
  | handle | resume | expect | process | inform | delete | remove => cases ha

/-- The expected number of renditions is the one `set_expected_renditions` was called
with. -/
theorem EntryChange.expected_eq {entry entry' : StreamEntry}
    (hchange : EntryChange c a streamId (some entry) (some entry'))
    (hcall : ∀ count, a = .expect streamId count → count = n)
    (h : ∀ count, entry.expectedRenditions = some count → count = n) :
    ∀ count, entry'.expectedRenditions = some count → count = n := by
  have hmove : ∀ newState now, (entry.moveTo newState now).expectedRenditions =
      entry.expectedRenditions := by
    intro newState now
    unfold StreamEntry.moveTo
    split <;> rfl
  cases hchange with
  | same | failed | produced | completed | informed => exact h
  | started | processed | deleted | readied =>
    rw [hmove]
    exact h
  | expected _ count ha =>
    intro k hk
    exact Option.some.inj hk ▸ hcall count ha

theorem ReadySound.created (hs : ReadySound streamId n p c) (h : planeStep c a = some c')
    (ha : a.creates streamId = true) {ingestMode : IngestMode} {now : DateTime}
    (hmode : ingestMode = .live ∨ streamId ∉ c.used)
    (hmanager : c'.manager = (c.manager.createStream streamId ingestMode now).2) :
    ReadySound streamId n (p ++ [a]) c' := by
  have hlookup : c'.manager.streams.lookup streamId =
      some (c.manager.createStream streamId ingestMode now).1 := by
    rw [hmanager]
    exact AList.lookup_insert _
  have hused := used_of_creates h ha
  refine ⟨fun _ _ => hused, fun _ => hused, ?_, ?_, ?_, ?_⟩
  · intro entry hentry count hcount
    obtain rfl := Option.some.inj (hlookup.symm.trans hentry)
    cases hcount
  · intro entry hentry rendition status hstatus
    obtain rfl := Option.some.inj (hlookup.symm.trans hentry)
    simp [createStream] at hstatus
  · intro hmarking entry hentry
    obtain rfl := Option.some.inj (hlookup.symm.trans hentry)
    -- The id of a stream the handler is marking is not new, so a connection attached.
    have hlive : ingestMode = .live := by
      rcases planeStep_marking h hmarking with ⟨hbefore, -⟩ | ⟨_, _, _, _, rfl, -⟩
      · exact hmode.resolve_right fun hnew => hnew (hs.marking_used hbefore)
      · cases ha
    exact ⟨by simp [createStream], fun _ => hlive, by simp [createStream]⟩
  · intro entry hentry hready
    obtain rfl := Option.some.inj (hlookup.symm.trans hentry)
    cases hready

theorem EntryChange.source {e : Option StreamEntry} {entry' : StreamEntry}
    (h : EntryChange c a streamId e (some entry')) :
    ∃ entry, e = some entry := by
  cases h with
  | same => exact ⟨entry', rfl⟩
  | started | processed | deleted | failed | readied | produced | completed | expected
  | informed => exact ⟨_, rfl⟩

theorem ReadySound.changed (hs : ReadySound streamId n p c) (hrun : run planeStep .start p = some c)
    (hcall : ∀ count, a = .expect streamId count → count = n) (h : planeStep c a = some c')
    (ha : a.creates streamId = false)
    (hchange : EntryChange c a streamId (c.manager.streams.lookup streamId)
      (c'.manager.streams.lookup streamId)) :
    ReadySound streamId n (p ++ [a]) c' := by
  have hbefore : ∀ entry', c'.manager.streams.lookup streamId = some entry' →
      ∃ entry, c.manager.streams.lookup streamId = some entry ∧
        EntryChange c a streamId (some entry) (some entry') := by
    intro entry' hentry'
    rw [hentry'] at hchange
    obtain ⟨entry, hentry⟩ := hchange.source
    exact ⟨entry, hentry, hentry ▸ hchange⟩
  refine ⟨?_, ?_, ?_, ?_, ?_, ?_⟩
  · intro entry' hentry'
    obtain ⟨entry, hentry, -⟩ := hbefore entry' hentry'
    exact planeStep_used h (hs.used entry hentry)
  · intro hmarking
    rcases planeStep_marking h hmarking with ⟨hwas, -⟩ | ⟨_, _, entry, _, -, hentry, -⟩
    · exact planeStep_used h (hs.marking_used hwas)
    · exact planeStep_used h (hs.used entry hentry)
  · intro entry' hentry'
    obtain ⟨entry, hentry, hstep⟩ := hbefore entry' hentry'
    exact hstep.expected_eq hcall (hs.expected entry hentry)
  · intro entry' hentry'
    obtain ⟨entry, hentry, hstep⟩ := hbefore entry' hentry'
    exact hstep.evidence ha (hs.evidence entry hentry)
  · intro hmarking entry' hentry'
    rcases planeStep_marking h hmarking with
      ⟨hwas, hresume⟩ | ⟨_, _, entry, noted, -, hentry, hnoted, hstreams⟩
    · obtain ⟨entry, hentry, hstep⟩ := hbefore entry' hentry'
      exact hstep.decided hwas hresume (hs.decided hwas entry hentry)
    · obtain ⟨rfl, hstate, expected, hexpected, hcount⟩ := noteRenditionComplete_true hnoted
      rw [hstreams] at hentry'
      obtain rfl := Option.some.inj ((AList.lookup_insert _).symm.trans hentry')
      obtain rfl := hs.expected entry hentry expected hexpected
      exact ⟨by simp [hstate], by simp [hstate], fun _ => hcount⟩
  · intro entry' hentry'
    obtain ⟨entry, hentry, hstep⟩ := hbefore entry' hentry'
    exact hstep.ready ha hrun hentry (fun hm => hs.decided hm entry hentry) (hs.ready entry hentry)

theorem ReadySound.step (hs : ReadySound streamId n p c) (hrun : run planeStep .start p = some c)
    (hcall : ∀ count, a = .expect streamId count → count = n) (h : planeStep c a = some c') :
    ReadySound streamId n (p ++ [a]) c' := by
  rcases planeStep_cases h streamId with ⟨ha, ingestMode, now, hmode, hmanager⟩ | ⟨ha, hchange⟩
  · exact hs.created h ha hmode hmanager
  · exact hs.changed hrun hcall h ha hchange

theorem readySound_of_run {as : List PlaneAction} (hrun : run planeStep .start as = some c)
    (hcall : ∀ count, .expect streamId count ∈ as → count = n) : ReadySound streamId n as c := by
  refine run_history (I := fun p c => (∀ count, .expect streamId count ∈ p → count = n) →
    ReadySound streamId n p c) ?_ ?_ hrun hcall
  · intro p c a c' hp hI hstep hcall
    refine (hI fun count hmem => hcall count (List.mem_append_left _ hmem)).step hp ?_ hstep
    rintro count rfl
    exact hcall count (List.mem_append_right _ List.mem_cons_self)
  · intro _
    refine ⟨?_, ?_, ?_, ?_, ?_, ?_⟩
    all_goals simp [ControlPlane.start, StreamStateManager.new]

/-- **Ready is sound.** In every run of the control plane in which
`set_expected_renditions` sets `n` for a stream, whenever the stream is READY its
record has been in PROCESSING, and at least `n` distinct renditions are marked
complete, each by a RenditionComplete handled after a SegmentProduced. -/
theorem whenever_ready {as : List PlaneAction} {entry : StreamEntry}
    (hrun : run planeStep .start as = some c)
    (hcall : ∀ count, .expect streamId count ∈ as → count = n)
    (hentry : c.manager.streams.lookup streamId = some entry) (hready : entry.state = .ready) :
    PassedProcessing streamId as ∧
    ∃ renditions : List Text, renditions.Nodup ∧ n ≤ renditions.length ∧
      ∀ rendition ∈ renditions,
        (∃ status, entry.renditions.lookup rendition = some status ∧ status.status = .complete) ∧
        CompletedAfterProduced streamId rendition as := by
  have hsound := readySound_of_run hrun hcall
  obtain ⟨hcount, hpassed⟩ := hsound.ready entry hentry hready
  refine ⟨hpassed, entry.renditions.keysWhere fun r => decide (r.status = .complete),
    Map.nodup_keysWhere _ _, ?_, ?_⟩
  · rw [Map.length_keysWhere]
    exact hcount
  · intro rendition hmem
    obtain ⟨status, hstatus, hcomplete⟩ := Map.mem_keysWhere.mp hmem
    have hdone := of_decide_eq_true hcomplete
    have hevidence := hsound.evidence entry hentry rendition status hstatus
    exact ⟨⟨status, hstatus, hdone⟩, hevidence.2 hdone⟩

end Runs

/-- A stream with one rendition; while the handler is about to move it to READY, a
DELETE is refused and a second stream is created. -/
def readyRun : List PlaneAction :=
  [.create ⟨1⟩ .live ⟨0⟩, .handle (.streamEnded ⟨1⟩) ⟨1⟩,
    .handle (.streamStarted ⟨1⟩
      ⟨⟨1⟩, .h264, 640, 480, none, 30, none, none, none, none, none, .flv⟩) ⟨2⟩,
    .expect ⟨1⟩ 1, .resume ⟨3⟩, .handle (.segmentProduced ⟨1⟩ ['a'] 0) ⟨4⟩,
    .handle (.streamEnded ⟨1⟩) ⟨5⟩, .handle (.renditionComplete ⟨1⟩ ['a']) ⟨6⟩, .delete ⟨1⟩ ⟨7⟩,
    .create ⟨2⟩ .vod ⟨8⟩, .resume ⟨9⟩]

theorem whenever_ready_readyRun :
    ∃ c entry, run planeStep .start readyRun = some c ∧
      c.manager.streams.lookup ⟨1⟩ = some entry ∧ entry.state = .ready ∧
      PassedProcessing ⟨1⟩ readyRun :=
  ⟨_, _, rfl, rfl, rfl, (@whenever_ready _ ⟨1⟩ 1 readyRun _ rfl
    (by simp [readyRun]) rfl rfl).1⟩

end StreamInfa.Control
