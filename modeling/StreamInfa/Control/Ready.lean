import StreamInfa.Control.Events

/-!
When a live stream becomes READY.

The events of a stream come from two senders over one channel: the RTMP task sends
StreamStarted and StreamEnded, the packager sends, for each rendition, its
SegmentProduced events and then its RenditionComplete. `LiveOrder` says that an
order of arrival respects both.

The transcode pipeline sets the expected count on the manager directly and not through
the channel, so that it can be set before StreamStarted is handled. `Waiting` is the
stream's entry up to StreamStarted, and `Progress` is the invariant of the entry over
the steps handled from then on; **`ready_iff_completes_after_end`** reads off it that
the stream ends READY exactly when some RenditionComplete is handled after StreamEnded.
The check that completes a stream runs inside `markRenditionComplete` only, so a
StreamEnded that is handled last leaves the stream in PROCESSING.
-/

namespace StreamInfa.Control

/-- The rendition a packager event is about. -/
def ControlStep.rendition? : ControlStep → Option Text
  | .event (.segmentProduced _ rendition _) => some rendition
  | .event (.renditionComplete _ rendition) => some rendition
  | _ => none

/-- The steps that can follow StreamStarted in a run of a stream with the renditions
`rs`, without error or deletion. -/
inductive LiveStep (streamId : StreamId) (rs : List Text) : ControlStep → Prop where
  | ended : LiveStep streamId rs (.event (.streamEnded streamId))
  | expect : LiveStep streamId rs (.expect streamId rs.length)
  | produced {r : Text} (hr : r ∈ rs) (sequence : ℕ) :
      LiveStep streamId rs (.event (.segmentProduced streamId r sequence))
  | complete {r : Text} (hr : r ∈ rs) :
      LiveStep streamId rs (.event (.renditionComplete streamId r))

/-- The orders in which the steps of a live stream with the expected renditions `rs`
can be handled: StreamStarted is the first event, there is one StreamEnded, the expected
count is set before any rendition completes (before or after StreamStarted), and each
rendition has at least one SegmentProduced before its RenditionComplete and none after. -/
structure LiveOrder (streamId : StreamId) (rs : List Text) (own : List ControlStep) : Prop where
  expects : rs ≠ []
  distinct : rs.Nodup
  started_first : ∃ before mediaInfo rest,
    own = before ++ .event (.streamStarted streamId mediaInfo) :: rest ∧
      (∀ s ∈ before, s = .expect streamId rs.length) ∧ ∀ s ∈ rest, LiveStep streamId rs s
  ended_once : own.count (.event (.streamEnded streamId)) = 1
  expected_set : ∃ before after, own = before ++ .expect streamId rs.length :: after ∧
    ∀ r, .event (.renditionComplete streamId r) ∉ before
  packager_order : ∀ r ∈ rs, ∃ produced, produced ≠ [] ∧
    (∀ s ∈ produced, ∃ sequence, s = .event (.segmentProduced streamId r sequence)) ∧
    own.filter (fun s => s.rendition? = some r) =
      produced ++ [.event (.renditionComplete streamId r)]

/-- Some rendition completes after the stream has ended. -/
def CompletesAfterEnd (streamId : StreamId) (own : List ControlStep) : Prop :=
  ∃ before after r, own = before ++ .event (.streamEnded streamId) :: after ∧
    .event (.renditionComplete streamId r) ∈ after

variable {streamId : StreamId} {rs : List Text} {own p : List ControlStep} {s : ControlStep}

theorem CompletesAfterEnd.append (h : CompletesAfterEnd streamId p) :
    CompletesAfterEnd streamId (p ++ [s]) := by
  obtain ⟨before, after, r, rfl, hr⟩ := h
  exact ⟨before, after ++ [s], r, by simp, List.mem_append_left _ hr⟩

theorem CompletesAfterEnd.ended_mem (h : CompletesAfterEnd streamId p) :
    .event (.streamEnded streamId) ∈ p := by
  obtain ⟨before, after, r, rfl, -⟩ := h
  simp

/-- A step that completes nothing completes nothing after the end. -/
theorem completesAfterEnd_append (hs : ∀ r, s ≠ .event (.renditionComplete streamId r)) :
    CompletesAfterEnd streamId (p ++ [s]) ↔ CompletesAfterEnd streamId p := by
  refine ⟨?_, CompletesAfterEnd.append⟩
  rintro ⟨before, after, r, heq, hr⟩
  rcases List.eq_nil_or_concat after with rfl | ⟨after', s', rfl⟩
  · simp at hr
  · rw [List.concat_eq_append, ← List.cons_append, ← List.append_assoc] at heq
    obtain ⟨hp, hs'⟩ := List.append_inj' heq rfl
    obtain rfl : s = s' := by simpa using hs'
    rw [List.concat_eq_append, List.mem_append, List.mem_singleton] at hr
    rcases hr with hr | hr
    · exact ⟨before, after', r, hp, hr⟩
    · exact absurd hr.symm (hs r)

theorem completesAfterEnd_append_complete (r : Text) (hend : .event (.streamEnded streamId) ∈ p) :
    CompletesAfterEnd streamId (p ++ [.event (.renditionComplete streamId r)]) := by
  obtain ⟨before, after, rfl⟩ := List.append_of_mem hend
  exact ⟨before, after ++ [.event (.renditionComplete streamId r)], r, by simp, by simp⟩

/-! ### What an order promises at each step -/

section Order

variable (horder : LiveOrder streamId rs own)
include horder

/-- A step comes before StreamStarted, is StreamStarted, or follows it. -/
theorem LiveOrder.step_cases (hp : p ++ [s] <+: own) :
    (∀ s' ∈ p, s' = .expect streamId rs.length) ∧
        (s = .expect streamId rs.length ∨
          ∃ mediaInfo, s = .event (.streamStarted streamId mediaInfo)) ∨
      (∃ mediaInfo, .event (.streamStarted streamId mediaInfo) ∈ p) ∧
        LiveStep streamId rs s := by
  obtain ⟨before, mediaInfo, rest, hown, hbefore, hrest⟩ := horder.started_first
  obtain ⟨later, hlater⟩ := hp
  rw [hown, List.append_assoc, List.singleton_append] at hlater
  rcases List.append_eq_append_iff.mp hlater with ⟨mid, rfl, hmid⟩ | ⟨mid, rfl, hmid⟩
  · have hp : ∀ s' ∈ p, s' = .expect streamId rs.length :=
      fun s' hs' => hbefore s' (List.mem_append_left _ hs')
    cases mid with
    | nil => exact Or.inl ⟨hp, Or.inr ⟨mediaInfo, (List.cons.inj hmid).1⟩⟩
    | cons s₀ mid =>
      obtain ⟨rfl, -⟩ := List.cons.inj hmid
      exact Or.inl ⟨hp, Or.inl (hbefore s (by simp))⟩
  · cases mid with
    | nil =>
      obtain ⟨rfl, -⟩ := List.cons.inj hmid
      rw [List.append_nil]
      exact Or.inl ⟨hbefore, Or.inr ⟨mediaInfo, rfl⟩⟩
    | cons s₀ mid =>
      obtain ⟨rfl, rfl⟩ := List.cons.inj hmid
      exact Or.inr ⟨⟨mediaInfo, by simp⟩, hrest s (by simp)⟩

theorem LiveOrder.ended_notMem (hp : p ++ [.event (.streamEnded streamId)] <+: own) :
    .event (.streamEnded streamId) ∉ p := by
  intro hmem
  obtain ⟨later, rfl⟩ := hp
  have hcount := horder.ended_once
  have hpos := List.count_pos_iff.mpr hmem
  simp only [List.count_append, List.count_singleton_self] at hcount
  omega

theorem LiveOrder.expect_mem {r : Text}
    (hp : p ++ [.event (.renditionComplete streamId r)] <+: own) :
    .expect streamId rs.length ∈ p := by
  obtain ⟨later, hlater⟩ := hp
  obtain ⟨before, after, hsplit, hnot⟩ := horder.expected_set
  rw [← hlater, List.append_assoc, List.singleton_append] at hsplit
  -- One of the two splits of `own` cuts earlier than the other.
  rcases List.append_eq_append_iff.mp hsplit with ⟨mid, hbefore, hmid⟩ | ⟨mid, hbefore, hmid⟩
  · cases mid with
    | nil => simp at hmid
    | cons s₀ mid =>
      obtain ⟨rfl, -⟩ := List.cons.inj hmid
      exact absurd (by rw [hbefore]; simp) (hnot r)
  · cases mid with
    | nil => simp at hmid
    | cons s₀ mid =>
      obtain ⟨rfl, -⟩ := List.cons.inj hmid
      rw [hbefore]
      simp

theorem LiveOrder.produced_mem {r : Text} (hr : r ∈ rs)
    (hp : p ++ [.event (.renditionComplete streamId r)] <+: own) :
    ∃ sequence, .event (.segmentProduced streamId r sequence) ∈ p := by
  obtain ⟨later, hlater⟩ := hp
  obtain ⟨produced, hne, hproduced, hfilter⟩ := horder.packager_order r hr
  rw [← hlater, List.append_assoc, List.singleton_append, List.filter_append,
    List.filter_cons_of_pos (by simp [ControlStep.rendition?])] at hfilter
  cases produced with
  | nil => exact absurd rfl hne
  | cons s₀ produced =>
    obtain ⟨sequence, rfl⟩ := hproduced s₀ List.mem_cons_self
    cases hpf : p.filter (fun s => s.rendition? = some r) with
    | nil =>
      rw [hpf] at hfilter
      simp at hfilter
    | cons s₁ pf =>
      rw [hpf, List.cons_append, List.cons_append, List.cons.injEq] at hfilter
      obtain ⟨rfl, -⟩ := hfilter
      have hmem : .event (.segmentProduced streamId r sequence) ∈
          p.filter (fun s => s.rendition? = some r) := by
        rw [hpf]
        exact List.mem_cons_self
      exact ⟨sequence, List.mem_of_mem_filter hmem⟩

/-- A rendition that is complete is one of the stream's and has produced a segment. -/
theorem LiveOrder.complete_mem {r : Text} (hp : p <+: own)
    (hr : .event (.renditionComplete streamId r) ∈ p) :
    r ∈ rs ∧ ∃ sequence, .event (.segmentProduced streamId r sequence) ∈ p := by
  obtain ⟨before, after, rfl⟩ := List.append_of_mem hr
  have hpre : before ++ [.event (.renditionComplete streamId r)] <+: own := by
    refine List.IsPrefix.trans ⟨after, ?_⟩ hp
    simp
  rcases horder.step_cases hpre with ⟨-, h | ⟨mediaInfo, h⟩⟩ | ⟨-, hlive⟩
  · cases h
  · cases h
  · cases hlive with
    | complete hmem =>
      obtain ⟨sequence, hseq⟩ := horder.produced_mem hmem hpre
      exact ⟨hmem, sequence, List.mem_append_left _ hseq⟩

end Order

/-! ### The invariant -/

/-- Every rendition is complete, one of them after the end of the stream. -/
def Finished (streamId : StreamId) (rs : List Text) (p : List ControlStep) : Prop :=
  (∀ r ∈ rs, .event (.renditionComplete streamId r) ∈ p) ∧ CompletesAfterEnd streamId p

/-- The entry of a live stream that has not started: as it was created, but for the
expected count. -/
structure Waiting (streamId : StreamId) (rs : List Text) (p : List ControlStep)
    (entry : StreamEntry) : Prop where
  expects : ∀ s ∈ p, s = .expect streamId rs.length
  mode : entry.metadata.ingestMode = .live
  pending : entry.state = .pending
  fresh : entry.renditions = ∅
  expected : .expect streamId rs.length ∈ p → entry.expectedRenditions = some rs.length

/-- The entry of a live stream after the steps `p`, with StreamStarted among them. -/
structure Progress (streamId : StreamId) (rs : List Text) (p : List ControlStep)
    (entry : StreamEntry) : Prop where
  mode : entry.metadata.ingestMode = .live
  expected : .expect streamId rs.length ∈ p → entry.expectedRenditions = some rs.length
  known : ∀ r sequence, .event (.segmentProduced streamId r sequence) ∈ p →
    ∃ status, entry.renditions.lookup r = some status
  complete : ∀ r status, entry.renditions.lookup r = some status →
    (status.status = .complete ↔ .event (.renditionComplete streamId r) ∈ p)
  live : .event (.streamEnded streamId) ∉ p → entry.state = .live
  done : .event (.streamEnded streamId) ∈ p →
    entry.state = .ready ∧ Finished streamId rs p ∨
      entry.state = .processing ∧ ¬ Finished streamId rs p

theorem Waiting.expect {entry : StreamEntry} (now : DateTime)
    (hwait : Waiting streamId rs p entry) :
    Waiting streamId rs (p ++ [.expect streamId rs.length])
      (ControlStep.onEntry now entry (.expect streamId rs.length)) where
  expects := by
    intro s hs
    rcases List.mem_append.mp hs with hs | hs
    · exact hwait.expects s hs
    · exact List.mem_singleton.mp hs
  mode := hwait.mode
  pending := hwait.pending
  fresh := hwait.fresh
  expected := fun _ => rfl

theorem Waiting.started {entry : StreamEntry} (mediaInfo : MediaInfo) (now : DateTime)
    (hwait : Waiting streamId rs p entry) :
    Progress streamId rs (p ++ [.event (.streamStarted streamId mediaInfo)])
      (ControlStep.onEntry now entry (.event (.streamStarted streamId mediaInfo))) := by
  have hstart : ControlStep.onEntry now entry (.event (.streamStarted streamId mediaInfo)) =
      { entry with
        metadata := { entry.metadata with startedAt := some now, mediaInfo := some mediaInfo }
        state := .live } := by
    simp [ControlStep.onEntry, StreamEntry.moveTo, StreamStateManager.isValidTransition,
      hwait.pending, hwait.mode, StreamStateManager.stampTransition]
  have hnot : ∀ e, .event e ∈ p ++ [.event (.streamStarted streamId mediaInfo)] →
      e = .streamStarted streamId mediaInfo := by
    intro e hmem
    rcases List.mem_append.mp hmem with hmem | hmem
    · cases hwait.expects _ hmem
    · exact ControlStep.event.inj (List.mem_singleton.mp hmem)
  rw [hstart]
  refine ⟨hwait.mode, ?_, ?_, ?_, fun _ => rfl, ?_⟩
  · intro hmem
    exact hwait.expected (by simpa using hmem)
  · intro r sequence hmem
    cases hnot _ hmem
  · intro r status hlookup
    simp [hwait.fresh] at hlookup
  · intro hmem
    cases hnot _ hmem

/-- A step that completes nothing does not finish the stream. -/
theorem finished_append (hs : ∀ r, s ≠ .event (.renditionComplete streamId r)) :
    Finished streamId rs (p ++ [s]) ↔ Finished streamId rs p := by
  unfold Finished
  rw [completesAfterEnd_append hs]
  have hmem : ∀ r, .event (.renditionComplete streamId r) ∈ p ++ [s] ↔
      .event (.renditionComplete streamId r) ∈ p := by
    intro r
    simp [(hs r).symm]
  simp only [hmem]

/-- A step that neither ends the stream nor completes a rendition, and that leaves
mode and state of the entry alone, preserves what `Progress` says about them. -/
theorem Progress.of_quiet {entry entry' : StreamEntry} (hprog : Progress streamId rs p entry)
    (hend : s ≠ .event (.streamEnded streamId))
    (hcomp : ∀ r, s ≠ .event (.renditionComplete streamId r))
    (hmeta : entry'.metadata = entry.metadata) (hstate : entry'.state = entry.state)
    (hexpected : .expect streamId rs.length ∈ p ++ [s] →
      entry'.expectedRenditions = some rs.length)
    (hknown : ∀ r sequence, .event (.segmentProduced streamId r sequence) ∈ p ++ [s] →
      ∃ status, entry'.renditions.lookup r = some status)
    (hcomplete : ∀ r status, entry'.renditions.lookup r = some status →
      (status.status = .complete ↔ .event (.renditionComplete streamId r) ∈ p)) :
    Progress streamId rs (p ++ [s]) entry' where
  mode := by rw [hmeta, hprog.mode]
  expected := hexpected
  known := hknown
  complete := by
    intro r status hlookup
    rw [hcomplete r status hlookup]
    simp [(hcomp r).symm]
  live := by
    intro hmem
    rw [hstate]
    exact hprog.live fun h => hmem (List.mem_append_left _ h)
  done := by
    intro hmem
    rw [hstate, finished_append hcomp]
    refine hprog.done ?_
    simpa [hend.symm] using hmem

theorem Progress.ended {entry : StreamEntry} (now : DateTime)
    (hprog : Progress streamId rs p entry) (hnot : .event (.streamEnded streamId) ∉ p) :
    Progress streamId rs (p ++ [.event (.streamEnded streamId)])
      (ControlStep.onEntry now entry (.event (.streamEnded streamId))) := by
  have hlive := hprog.live hnot
  have hentry : ControlStep.onEntry now entry (.event (.streamEnded streamId)) =
      { entry with state := .processing } := by
    simp [ControlStep.onEntry, StreamEntry.moveTo, StreamStateManager.isValidTransition, hlive,
      hprog.mode, StreamStateManager.stampTransition]
  rw [hentry]
  refine ⟨hprog.mode, ?_, ?_, ?_, ?_, ?_⟩
  · intro hmem
    exact hprog.expected (by simpa using hmem)
  · intro r sequence hmem
    exact hprog.known r sequence (by simpa using hmem)
  · intro r status hlookup
    rw [hprog.complete r status hlookup]
    simp
  · intro hmem
    exact absurd (by simp) hmem
  · intro _
    refine Or.inr ⟨rfl, ?_⟩
    rintro ⟨-, hafter⟩
    exact hnot ((completesAfterEnd_append (by simp)).mp hafter).ended_mem

theorem Progress.expect {entry : StreamEntry} (now : DateTime)
    (hprog : Progress streamId rs p entry) :
    Progress streamId rs (p ++ [.expect streamId rs.length])
      (ControlStep.onEntry now entry (.expect streamId rs.length)) := by
  refine hprog.of_quiet (by simp) (by simp) rfl rfl (fun _ => rfl) ?_ hprog.complete
  intro r sequence hmem
  exact hprog.known r sequence (by simpa using hmem)

theorem Progress.produced {entry : StreamEntry} {r : Text} (sequence : ℕ) (now : DateTime)
    (hprog : Progress streamId rs p entry)
    (hfirst : .event (.renditionComplete streamId r) ∈ p →
      ∃ q, .event (.segmentProduced streamId r q) ∈ p) :
    Progress streamId rs (p ++ [.event (.segmentProduced streamId r sequence)])
      (ControlStep.onEntry now entry (.event (.segmentProduced streamId r sequence))) := by
  refine hprog.of_quiet (by simp) (by simp) rfl rfl ?_ ?_ ?_
  · intro hmem
    exact hprog.expected (by simpa using hmem)
  · intro r' sequence' hmem
    by_cases hr : r' = r
    · subst hr
      exact ⟨_, AList.lookup_insert _⟩
    · obtain ⟨status, hstatus⟩ := hprog.known r' sequence' (by simpa [hr] using hmem)
      exact ⟨status, (AList.lookup_insert_ne hr).trans hstatus⟩
  · intro r' status hlookup
    by_cases hr : r' = r
    · subst hr
      obtain rfl := Option.some.inj ((AList.lookup_insert _).symm.trans hlookup)
      cases hprev : entry.renditions.lookup r' with
      | some prev =>
        simp only [StreamStateManager.renditionStatus, hprev, Option.getD_some]
        exact hprog.complete r' prev hprev
      | none =>
        simp only [StreamStateManager.renditionStatus, hprev, Option.getD_none, reduceCtorEq,
          false_iff]
        intro hmem
        obtain ⟨q, hq⟩ := hfirst hmem
        obtain ⟨prev, hsome⟩ := hprog.known r' q hq
        simp [hprev] at hsome
    · exact hprog.complete r' status ((AList.lookup_insert_ne hr).symm.trans hlookup)

/-- Marking `r` complete in an entry that tracks `p` tracks `p` with its completion. -/
theorem Progress.setComplete_complete {entry : StreamEntry} {r : Text}
    (hprog : Progress streamId rs p entry) (k : Text) (status : RenditionStatus)
    (hlookup : (StreamStateManager.setComplete entry r).renditions.lookup k = some status) :
    status.status = .complete ↔
      .event (.renditionComplete streamId k) ∈ p ++ [.event (.renditionComplete streamId r)] := by
  unfold StreamStateManager.setComplete at hlookup
  by_cases hk : k = r
  · subst hk
    rw [Map.lookup_adjust_self] at hlookup
    obtain ⟨prev, -, rfl⟩ := Option.map_eq_some_iff.mp hlookup
    simp
  · rw [Map.lookup_adjust_ne _ _ hk] at hlookup
    rw [hprog.complete k status hlookup]
    simp [hk]

theorem Progress.setComplete_known {entry : StreamEntry} {r k : Text} {sequence : ℕ}
    (hprog : Progress streamId rs p entry)
    (hk : .event (.segmentProduced streamId k sequence) ∈ p) :
    ∃ status, (StreamStateManager.setComplete entry r).renditions.lookup k = some status := by
  obtain ⟨status, hstatus⟩ := hprog.known k sequence hk
  unfold StreamStateManager.setComplete
  by_cases hkr : k = r
  · subst hkr
    exact ⟨_, by rw [Map.lookup_adjust_self, hstatus, Option.map_some]⟩
  · exact ⟨status, by rw [Map.lookup_adjust_ne _ _ hkr, hstatus]⟩

/-- The completion check counts the renditions whose RenditionComplete was handled. -/
theorem Progress.completeCount_setComplete {entry : StreamEntry} {r : Text}
    (hnodup : rs.Nodup) (hprog : Progress streamId rs p entry)
    (hsteps : ∀ k, .event (.renditionComplete streamId k) ∈
      p ++ [.event (.renditionComplete streamId r)] →
      k ∈ rs ∧ ∃ q, .event (.segmentProduced streamId k q) ∈ p) :
    rs.length ≤ StreamStateManager.completeCount (StreamStateManager.setComplete entry r) ↔
      ∀ k ∈ rs, .event (.renditionComplete streamId k) ∈
        p ++ [.event (.renditionComplete streamId r)] := by
  set done := rs.filter fun k =>
    .event (.renditionComplete streamId k) ∈ p ++ [.event (.renditionComplete streamId r)]
  have hcount : StreamStateManager.completeCount (StreamStateManager.setComplete entry r) =
      done.length := by
    refine Map.countP_values (hnodup.filter _) fun k => ?_
    rw [List.mem_filter, decide_eq_true_eq]
    constructor
    · rintro ⟨-, hk⟩
      obtain ⟨-, q, hq⟩ := hsteps k hk
      obtain ⟨status, hstatus⟩ := hprog.setComplete_known (r := r) hq
      exact ⟨status, hstatus,
        decide_eq_true ((hprog.setComplete_complete k status hstatus).mpr hk)⟩
    · rintro ⟨status, hstatus, hc⟩
      have hk := (hprog.setComplete_complete k status hstatus).mp (of_decide_eq_true hc)
      exact ⟨(hsteps k hk).1, hk⟩
  have hle : done.length ≤ rs.length := List.length_filter_le _ _
  have hall := List.length_filter_eq_length_iff (l := rs) (p := fun k => decide
    (.event (.renditionComplete streamId k) ∈ p ++ [.event (.renditionComplete streamId r)]))
  simp only [decide_eq_true_eq] at hall
  rw [hcount, ← hall]
  exact ⟨fun h => Nat.le_antisymm hle h, fun h => h.ge⟩

theorem noteRenditionComplete_of_expected {entry : StreamEntry} {n : ℕ} (r : Text)
    (h : entry.expectedRenditions = some n) :
    StreamStateManager.noteRenditionComplete entry r =
      (StreamStateManager.setComplete entry r, decide (entry.state = .processing ∧
        n ≤ StreamStateManager.completeCount (StreamStateManager.setComplete entry r))) := by
  have h' : (StreamStateManager.setComplete entry r).expectedRenditions = some n := h
  simp only [StreamStateManager.noteRenditionComplete, h', ge_iff_le]
  rfl

theorem Progress.completed {entry : StreamEntry} {r : Text} (now : DateTime)
    (hnodup : rs.Nodup) (hprog : Progress streamId rs p entry)
    (hexpect : .expect streamId rs.length ∈ p)
    (hsteps : ∀ k, .event (.renditionComplete streamId k) ∈
      p ++ [.event (.renditionComplete streamId r)] →
      k ∈ rs ∧ ∃ q, .event (.segmentProduced streamId k q) ∈ p) :
    Progress streamId rs (p ++ [.event (.renditionComplete streamId r)])
      (ControlStep.onEntry now entry (.event (.renditionComplete streamId r))) := by
  have hcount := hprog.completeCount_setComplete hnodup hsteps
  set entry' := StreamStateManager.setComplete entry r
  set p' := p ++ [.event (.renditionComplete streamId r)]
  have hnoted : StreamStateManager.noteRenditionComplete entry r =
      (entry', decide (entry.state = .processing ∧
        ∀ k ∈ rs, .event (.renditionComplete streamId k) ∈ p')) := by
    rw [noteRenditionComplete_of_expected r (hprog.expected hexpect), Prod.mk.injEq]
    exact ⟨rfl, decide_eq_decide.mpr (and_congr_right fun _ => hcount)⟩
  have hend : .event (.streamEnded streamId) ∈ p' ↔ .event (.streamEnded streamId) ∈ p := by
    simp [p']
  have hknown : ∀ k sequence, .event (.segmentProduced streamId k sequence) ∈ p' →
      ∃ status, entry'.renditions.lookup k = some status := by
    intro k sequence hmem
    have hk : .event (.segmentProduced streamId k sequence) ∈ p := by simpa [p'] using hmem
    exact hprog.setComplete_known hk
  simp only [ControlStep.onEntry, hnoted]
  split
  · rename_i hshould
    obtain ⟨hproc, hall⟩ := of_decide_eq_true hshould
    have hmove : entry'.moveTo .ready now =
        { entry' with
          metadata := { entry'.metadata with endedAt := some now }
          state := .ready } := by
      have hstate : entry'.state = .processing := hproc
      simp [StreamEntry.moveTo, StreamStateManager.isValidTransition, hstate,
        StreamStateManager.stampTransition]
    have hended : .event (.streamEnded streamId) ∈ p := by
      by_contra hnot
      rw [hprog.live hnot] at hproc
      exact absurd hproc (by decide)
    rw [hmove]
    refine ⟨hprog.mode, fun _ => hprog.expected hexpect, hknown,
      hprog.setComplete_complete, ?_, ?_⟩
    · exact fun hnot => absurd (hend.mpr hended) hnot
    · exact fun _ => Or.inl ⟨rfl, hall, completesAfterEnd_append_complete r hended⟩
  · rename_i hshould
    refine ⟨hprog.mode, fun _ => hprog.expected hexpect, hknown,
      hprog.setComplete_complete, ?_, ?_⟩
    · exact fun hnot => hprog.live fun h => hnot (hend.mpr h)
    · intro hmem
      rcases hprog.done (hend.mp hmem) with ⟨hready, hall, hafter⟩ | ⟨hproc, -⟩
      · exact Or.inl ⟨hready, fun k hk => List.mem_append_left _ (hall k hk), hafter.append⟩
      · refine Or.inr ⟨hproc, ?_⟩
        rintro ⟨hall, -⟩
        exact hshould (decide_eq_true ⟨hproc, hall⟩)

/-! ### The run -/

/-- The entry of a live stream tracks the steps handled so far. -/
theorem LiveOrder.progress (horder : LiveOrder streamId rs own) (entry : StreamEntry)
    (hpending : entry.state = .pending) (hmode : entry.metadata.ingestMode = .live)
    (hfresh : entry.renditions = ∅) (steps : List (ControlStep × DateTime))
    (hsteps : steps.map Prod.fst <+: own) :
    Waiting streamId rs (steps.map Prod.fst) (entry.after steps) ∨
      (∃ mediaInfo, .event (.streamStarted streamId mediaInfo) ∈ steps.map Prod.fst) ∧
        Progress streamId rs (steps.map Prod.fst) (entry.after steps) := by
  induction steps using List.reverseRecOn with
  | nil =>
    left
    exact ⟨fun s hs => absurd hs List.not_mem_nil, hmode, hpending, hfresh,
      fun hmem => absurd hmem List.not_mem_nil⟩
  | append_singleton steps s ih =>
    obtain ⟨s, now⟩ := s
    rw [List.map_append, List.map_singleton] at hsteps ⊢
    have hpre : steps.map Prod.fst <+: own := (List.prefix_append _ _).trans hsteps
    have hafter : entry.after (steps ++ [(s, now)]) = s.onEntry now (entry.after steps) := by
      simp [StreamEntry.after]
    rw [hafter]
    rcases ih hpre with hwait | ⟨⟨mediaInfo, hstarted⟩, hprog⟩
    · rcases horder.step_cases hsteps with ⟨-, rfl | ⟨mediaInfo, rfl⟩⟩ | ⟨⟨mediaInfo, hmem⟩, -⟩
      · exact Or.inl (hwait.expect now)
      · exact Or.inr ⟨⟨mediaInfo, by simp⟩, hwait.started mediaInfo now⟩
      · cases hwait.expects _ hmem
    · refine Or.inr ⟨⟨mediaInfo, List.mem_append_left _ hstarted⟩, ?_⟩
      have hlive : LiveStep streamId rs s := by
        rcases horder.step_cases hsteps with ⟨hexpects, -⟩ | ⟨-, hlive⟩
        · cases hexpects _ hstarted
        · exact hlive
      have hfirst : ∀ r, .event (.renditionComplete streamId r) ∈ steps.map Prod.fst →
          r ∈ rs ∧ ∃ q, .event (.segmentProduced streamId r q) ∈ steps.map Prod.fst :=
        fun r hr => horder.complete_mem hpre hr
      cases hlive with
      | ended => exact hprog.ended now (horder.ended_notMem hsteps)
      | expect => exact hprog.expect now
      | produced hr sequence => exact hprog.produced sequence now fun h => (hfirst _ h).2
      | complete hr =>
        refine hprog.completed now horder.distinct (horder.expect_mem hsteps) fun k hk => ?_
        rcases List.mem_append.mp hk with hk | hk
        · exact hfirst k hk
        · obtain rfl : k = _ := by simpa using hk
          exact ⟨hr, horder.produced_mem hr hsteps⟩

theorem LiveOrder.ended_mem (horder : LiveOrder streamId rs own) :
    .event (.streamEnded streamId) ∈ own := by
  rw [← List.count_pos_iff, horder.ended_once]
  exact Nat.one_pos

theorem LiveOrder.all_complete (horder : LiveOrder streamId rs own) (r : Text) (hr : r ∈ rs) :
    .event (.renditionComplete streamId r) ∈ own := by
  obtain ⟨produced, -, -, hfilter⟩ := horder.packager_order r hr
  refine List.mem_of_mem_filter (p := fun s => s.rendition? = some r) ?_
  rw [hfilter]
  simp

/-- A live stream all of whose renditions have completed and whose end has been
handled is READY exactly when one of the completions was handled after the end. -/
theorem ready_iff_completes_after_end (m : StreamStateManager) (created : DateTime)
    (steps : List (ControlStep × DateTime))
    (horder : LiveOrder streamId rs ((ownSteps streamId steps).map Prod.fst)) :
    ((runControl (m.createStream streamId .live created).2 steps).streams.lookup streamId).map
        StreamEntry.state = some .ready ↔
      CompletesAfterEnd streamId ((ownSteps streamId steps).map Prod.fst) := by
  have hprog : Progress streamId rs ((ownSteps streamId steps).map Prod.fst)
      ((m.createStream streamId .live created).1.after (ownSteps streamId steps)) := by
    rcases horder.progress (m.createStream streamId .live created).1 rfl rfl rfl
      (ownSteps streamId steps) (List.prefix_refl _) with hwait | ⟨-, hprog⟩
    · cases hwait.expects _ horder.ended_mem
    · exact hprog
  have hlookup : (m.createStream streamId .live created).2.streams.lookup streamId =
      some (m.createStream streamId .live created).1 := AList.lookup_insert _
  rw [lookup_runControl, hlookup, Option.map_some, Option.map_some, Option.some.injEq]
  rcases hprog.done horder.ended_mem with ⟨hready, -, hafter⟩ | ⟨hproc, hnot⟩
  · exact ⟨fun _ => hafter, fun _ => hready⟩
  · rw [hproc]
    exact ⟨fun h => absurd h (by decide), fun h => absurd ⟨horder.all_complete, h⟩ hnot⟩

section OneRendition

/-- The media information of the stream below. -/
def sampleMediaInfo : MediaInfo where
  streamId := ⟨1⟩
  videoCodec := .h264
  videoWidth := 1280
  videoHeight := 720
  videoBitrateKbps := none
  frameRate := 30
  audioCodec := none
  audioSampleRate := none
  audioChannels := none
  audioBitrateKbps := none
  durationSecs := none
  container := .flv

/-- A live stream with the one rendition `high` and one segment, up to its last two
events. The expected count is set before StreamStarted is handled. -/
def oneRendition (tail : List ControlStep) : List ControlStep :=
  .expect ⟨1⟩ 1 :: .event (.streamStarted ⟨1⟩ sampleMediaInfo) ::
    .event (.segmentProduced ⟨1⟩ "high".toList 0) :: tail

/-- Both orders of StreamEnded and RenditionComplete respect the senders. -/
theorem liveOrder_oneRendition {tail : List ControlStep}
    (htail : tail = [.event (.streamEnded ⟨1⟩), .event (.renditionComplete ⟨1⟩ "high".toList)] ∨
      tail = [.event (.renditionComplete ⟨1⟩ "high".toList), .event (.streamEnded ⟨1⟩)]) :
    LiveOrder ⟨1⟩ ["high".toList] (oneRendition tail) := by
  refine ⟨by decide, by decide, ⟨[.expect ⟨1⟩ 1], sampleMediaInfo, _, rfl, ?_, ?_⟩, ?_,
    ⟨[], _, rfl, by simp⟩, ?_⟩
  · intro s hs
    exact List.mem_singleton.mp hs
  · intro s hs
    rcases List.mem_cons.mp hs with rfl | hs
    · exact .produced (by simp) 0
    have hs' : s = .event (.streamEnded ⟨1⟩) ∨
        s = .event (.renditionComplete ⟨1⟩ "high".toList) := by
      rcases htail with rfl | rfl
      · simpa using hs
      · simpa [or_comm] using hs
    rcases hs' with rfl | rfl
    · exact .ended
    · exact .complete (by simp)
  · rcases htail with rfl | rfl <;> decide
  · intro r hr
    obtain rfl := List.mem_singleton.mp hr
    refine ⟨[.event (.segmentProduced ⟨1⟩ "high".toList 0)], by simp, by simp, ?_⟩
    rcases htail with rfl | rfl <;> decide

/-- The stream is READY when its end is handled before the completion. -/
theorem ready_when_end_first :
    ((runControl (StreamStateManager.new.createStream ⟨1⟩ .live ⟨0⟩).2
      ((oneRendition [.event (.streamEnded ⟨1⟩),
        .event (.renditionComplete ⟨1⟩ "high".toList)]).map (·, ⟨0⟩))).streams.lookup ⟨1⟩).map
        StreamEntry.state = some .ready :=
  (ready_iff_completes_after_end StreamStateManager.new ⟨0⟩ _
    (liveOrder_oneRendition (.inl rfl))).mpr
    ⟨_ :: _ :: [_], [_], "high".toList, rfl, by simp⟩

/-- The stream stays in PROCESSING when its end is handled last. -/
theorem processing_when_end_last :
    LiveOrder ⟨1⟩ ["high".toList] (oneRendition
      [.event (.renditionComplete ⟨1⟩ "high".toList), .event (.streamEnded ⟨1⟩)]) ∧
    ((runControl (StreamStateManager.new.createStream ⟨1⟩ .live ⟨0⟩).2
      ((oneRendition [.event (.renditionComplete ⟨1⟩ "high".toList),
        .event (.streamEnded ⟨1⟩)]).map (·, ⟨0⟩))).streams.lookup ⟨1⟩).map
        StreamEntry.state = some .processing :=
  ⟨liveOrder_oneRendition (.inr rfl), by decide +kernel⟩

end OneRendition

end StreamInfa.Control
