import StreamInfa.Ingest.VodReady

/-!
The progress gauge of an uploaded file, and its temp file.

The feeder sends VodProgress as it reads, and the event handler sets the gauge to what it is sent.
When the record comes to READY or ERROR the gauge is set to 0, and progress that is still on its way
sets it once more.

`GaugeOutcome` is what a step of the tasks does to the gauge and to the progress on its way, and
`Shown` and `AtLeast` follow from it. **`vod_progress_rises`**: the gauge goes up except where the
end of the record clears it, and the temp file is removed only after the whole file has been read.
The percentages are exact here; the code rounds them to floats, which keeps their order.
-/

namespace StreamInfa.Ingest

open Control Transcode Package

/-! ### The end of the record -/

/-- The record of the stream is READY or in ERROR. -/
def HasEnded (m : StreamStateManager) (streamId : StreamId) : Prop :=
  ∃ entry, m.streams.lookup streamId = some entry ∧
    (entry.state = .ready ∨ entry.state = .error)

section Ended

variable {m : StreamStateManager} {streamId : StreamId} {event : PipelineEvent}

theorem ended_onEntry {entry : StreamEntry} (h : entry.state = .ready ∨ entry.state = .error)
    (hevent : VodEvent streamId event) (now : DateTime) :
    (ControlStep.onEntry now entry (.event event)).state = .ready ∨
      (ControlStep.onEntry now entry (.event event)).state = .error := by
  cases hevent with
  | progress | produced => exact h
  | complete name =>
    rw [state_completed, if_neg]
    · exact h
    · rintro ⟨hprocessing, -⟩
      rcases h with h | h
      · cases h.symm.trans hprocessing
      · cases h.symm.trans hprocessing
  | error error =>
    simp only [ControlStep.onEntry]
    split
    · exact h
    · exact .inr rfl

/-- A record that has ended does not leave READY and ERROR. -/
theorem HasEnded.handle (h : HasEnded m streamId) (hevent : VodEvent streamId event)
    (now : DateTime) : HasEnded (handleEvent m event now) streamId := by
  obtain ⟨entry, hentry, hstate⟩ := h
  have hown : event.streamId = streamId := by cases hevent <;> rfl
  have hself := lookup_controlStep_self m (.event event) now
  rw [ControlStep.streamId, hown, hentry] at hself
  exact ⟨_, hself, ended_onEntry hstate hevent now⟩

theorem HasEnded.expect (h : HasEnded m streamId) (n : ℕ) :
    HasEnded (m.setExpectedRenditions streamId n) streamId := by
  obtain ⟨entry, hentry, hstate⟩ := h
  have hself := lookup_controlStep_self m (.expect streamId n) ⟨0⟩
  rw [ControlStep.streamId, hentry] at hself
  exact ⟨_, hself, hstate⟩

/-- The gauges are cleared where the record ends. -/
theorem hasEnded_of_clears (h : clearsMetrics m event = true) (now : DateTime) :
    HasEnded (handleEvent m event now) event.streamId := by
  have hself := lookup_controlStep_self m (.event event) now
  cases event with
  | streamStarted | segmentProduced | streamEnded | vodProgress => cases h
  | streamError id error =>
    obtain ⟨entry, hentry, hstate⟩ := (Option.any_eq_true _ _).mp h
    rw [ControlStep.streamId, PipelineEvent.streamId, hentry, Option.map_some, ControlStep.onEntry,
      if_neg (of_decide_eq_true hstate)] at hself
    exact ⟨_, hself, .inr rfl⟩
  | renditionComplete id rendition =>
    obtain ⟨entry, hentry, hclears⟩ := (Option.any_eq_true _ _).mp h
    rw [ControlStep.streamId, PipelineEvent.streamId, hentry, Option.map_some,
      ControlStep.onEntry] at hself
    generalize StreamStateManager.noteRenditionComplete entry rendition = noted at hself hclears
    obtain ⟨noted, should⟩ := noted
    obtain ⟨hshould, hvalid⟩ := Bool.and_eq_true_iff.mp hclears
    dsimp only at hself
    rw [if_pos hshould, StreamEntry.moveTo, if_pos hvalid] at hself
    exact ⟨_, hself, .inl rfl⟩

end Ended

/-! ### What a step does to the gauge -/

/-- The percentage of a progress event. -/
def progressOf : PipelineEvent → Option ℚ
  | .vodProgress _ percent => some percent
  | _ => none

/-- The progress on its way to the gauge. -/
def VodTasks.coming (s : VodTasks) : List ℚ := s.events.filterMap progressOf

/-- The most that the feeder has sent as its progress. -/
def VodConfig.reached (cfg : VodConfig) : Feeder → ℚ
  | .opening => 0
  | .reading _ bytesRead _ | .sent _ bytesRead _ => cfg.percent bytesRead
  | .closing | .removing | .done | .failed _ | .aborted => 100

/-- The feeder has sent that it is through. -/
def Feeder.isThrough : Feeder → Bool
  | .removing | .done => true
  | .opening | .reading .. | .sent .. | .closing | .failed _ | .aborted => false

/-- What a step does to the gauge and to what is on its way to it. -/
inductive GaugeOutcome (cfg : VodConfig) (s s' : VodTasks) : Prop
  | quiet (hgauge : s'.vodProgress = s.vodProgress) (hcoming : s'.coming = s.coming)
      (hreached : cfg.reached s.feeder ≤ cfg.reached s'.feeder)
      (hthrough : s'.feeder.isThrough = true → s.feeder.isThrough = true)
  | sends (percent : ℚ) (hgauge : s'.vodProgress = s.vodProgress)
      (hcoming : s'.coming = s.coming ++ [percent])
      (hfrom : cfg.reached s.feeder ≤ percent) (hto : cfg.reached s'.feeder = percent)
  | shows (percent : ℚ) (hgauge : s'.vodProgress = some percent)
      (hcoming : s.coming = percent :: s'.coming) (hfeeder : s'.feeder = s.feeder)
  | clears (hgauge : s'.vodProgress = some 0) (hcoming : s'.coming = s.coming)
      (hfeeder : s'.feeder = s.feeder) (hended : HasEnded s'.manager cfg.streamId)

section Percent

variable (cfg : VodConfig)

theorem percent_nonneg (n : ℕ) : 0 ≤ cfg.percent n := by
  refine le_min ?_ (by norm_num)
  positivity

theorem percent_le (n : ℕ) : cfg.percent n ≤ 100 := min_le_right _ _

theorem percent_mono {m n : ℕ} (h : m ≤ n) : cfg.percent m ≤ cfg.percent n := by
  unfold VodConfig.percent
  gcongr

theorem reached_nonneg (feeder : Feeder) : 0 ≤ cfg.reached feeder := by
  unfold VodConfig.reached
  split
  · exact le_refl _
  · exact percent_nonneg cfg _
  · exact percent_nonneg cfg _
  all_goals norm_num

theorem reached_le (feeder : Feeder) : cfg.reached feeder ≤ 100 := by
  unfold VodConfig.reached
  split
  · norm_num
  · exact percent_le cfg _
  · exact percent_le cfg _
  all_goals exact le_refl _

theorem reached_of_isThrough {feeder : Feeder} (h : feeder.isThrough = true) :
    cfg.reached feeder = 100 := by
  cases feeder with
  | removing | done => rfl
  | opening | reading | sent | closing | failed | aborted => cases h

end Percent

section Outcome

variable {cfg : VodConfig} {s s' : VodTasks} {a : VodAction}

/-- Packaging sends no progress. -/
theorem progress_segmentEvents (env : PackagerEnv) (segment : EncodedSegment) :
    (segmentEvents env segment).filterMap progressOf = [] := by
  unfold segmentEvents
  split <;> rfl

/-- A step that leaves the feeder alone and sends no progress. -/
theorem GaugeOutcome.aside (hgauge : s'.vodProgress = s.vodProgress)
    (hcoming : s'.coming = s.coming) (hfeeder : s'.feeder = s.feeder) : GaugeOutcome cfg s s' := by
  refine .quiet hgauge hcoming ?_ ?_
  · rw [hfeeder]
  · rw [hfeeder]
    exact id

theorem gaugeOutcome_decode (accs : List SegmentAccumulator) (errors : ℕ)
    (frame : DemuxedFrame) (frames : List DemuxedFrame) :
    GaugeOutcome cfg s (s.decode cfg accs errors frame frames) := by
  unfold VodTasks.decode
  rcases processFrame (!s.packaging) accs frame with ⟨accs', segments, _ | ⟨⟩⟩
  · dsimp only
    split <;> exact .aside rfl rfl rfl
  · exact .aside rfl rfl rfl

theorem gaugeOutcome_handle {event : PipelineEvent} {events : List PipelineEvent}
    (hevents : s.events = event :: events) (hevent : VodEvent cfg.streamId event)
    (now : DateTime) : GaugeOutcome cfg s (s.handle event events now) := by
  have hown : event.streamId = cfg.streamId := by cases hevent <;> rfl
  -- An event without progress clears the gauge, or leaves it alone.
  have hother : progressOf event = none → (s.handle event events now).vodProgress =
      (if clearsMetrics s.manager event then some 0 else s.vodProgress) →
      GaugeOutcome cfg s (s.handle event events now) := by
    intro hnone hgauge
    have hcoming : (s.handle event events now).coming = s.coming := by
      rw [VodTasks.coming, VodTasks.coming, hevents, List.filterMap_cons_none hnone]
      rfl
    cases hclears : clearsMetrics s.manager event with
    | true =>
      rw [hclears, if_pos rfl] at hgauge
      exact .clears hgauge hcoming rfl (hown ▸ hasEnded_of_clears hclears now)
    | false =>
      rw [hclears] at hgauge
      exact .aside hgauge hcoming rfl
  cases hevent with
  | progress percent =>
    refine .shows percent rfl ?_ rfl
    rw [VodTasks.coming, hevents]
    rfl
  | produced | complete | error => exact hother rfl rfl

/-- **What a step does to the gauge.** -/
theorem gauge_outcome (hown : ∀ event ∈ s.events, VodEvent cfg.streamId event)
    (hstep : vodStep cfg s a = some s') : GaugeOutcome cfg s s' := by
  cases vodStep_outcome hstep with
  | opened hfeeder =>
    have hzero : cfg.percent 0 = 0 := by simp [VodConfig.percent]
    refine .sends 0 rfl ?_ ?_ hzero
    · simp [VodTasks.coming, progressOf]
    · rw [hfeeder]
      exact le_refl _
  | notOpened hfeeder | readFailed hfeeder | endOfFile hfeeder | refusedFrame hfeeder =>
    exact .quiet rfl rfl (reached_le cfg _) (fun h => by cases h)
  | fed hfeeder hn hread hopen =>
    refine .quiet rfl rfl ?_ (fun h => by cases h)
    rw [hfeeder]
    exact percent_mono cfg (Nat.le_add_right _ _)
  | @progressed rest bytesRead frameIdx hfeeder =>
    refine .sends (cfg.percent bytesRead) rfl ?_ ?_ rfl
    · simp [VodTasks.coming, progressOf]
    · rw [hfeeder]
      exact le_refl _
  | concluded hfeeder =>
    refine .sends 100 rfl ?_ (reached_le cfg _) rfl
    simp [VodTasks.coming, progressOf]
  | removed hfeeder removed =>
    refine .quiet rfl rfl (reached_le cfg _) (fun _ => ?_)
    rw [hfeeder]
    rfl
  | aborted hfeeder =>
    refine .quiet rfl ?_ (reached_le cfg _) (fun h => by cases h)
    simp [VodTasks.coming, progressOf]
  | refused | launched | flushed | packagerEnded => exact .aside rfl rfl rfl
  | decoded htranscode hframes => exact gaugeOutcome_decode _ _ _ _
  | reported =>
    refine .aside rfl ?_ rfl
    simp [VodTasks.coming, progressOf]
  | @packaged p segment segments now hpackaging hsegments hturn =>
    have hemits := emits_handleSegment cfg.packagerEnv { s.packager with events := [] } segment now
    rw [hturn] at hemits
    refine .aside rfl ?_ rfl
    rw [VodTasks.coming, List.filterMap_append, show p.events = segmentEvents _ segment from hemits,
      progress_segmentEvents, List.append_nil, VodTasks.coming]
  | @broken p segment segments now hpackaging hsegments hturn =>
    have hemits := emits_handleSegment cfg.packagerEnv { s.packager with events := [] } segment now
    rw [hturn] at hemits
    refine .aside rfl ?_ rfl
    rw [VodTasks.coming, show p.events = [] from hemits, List.append_nil, VodTasks.coming]
  | handled now hevents =>
    exact gaugeOutcome_handle hevents (hown _ (by rw [hevents]; simp)) now

/-- The events are those of the upload. -/
theorem vodEvent_step (hown : ∀ event ∈ s.events, VodEvent cfg.streamId event)
    (hstep : vodStep cfg s a = some s') : ∀ event ∈ s'.events, VodEvent cfg.streamId event := by
  have hsent : ∀ {sent : List PipelineEvent}, (∀ event ∈ sent, VodEvent cfg.streamId event) →
      ∀ event ∈ s.events ++ sent, VodEvent cfg.streamId event := by
    intro sent hsent event hmem
    rcases List.mem_append.mp hmem with hmem | hmem
    · exact hown event hmem
    · exact hsent event hmem
  have hone : ∀ {event : PipelineEvent}, VodEvent cfg.streamId event →
      ∀ event' ∈ s.events ++ [event], VodEvent cfg.streamId event' := by
    intro event hevent
    refine hsent fun event' hmem => ?_
    rw [List.mem_singleton.mp hmem]
    exact hevent
  cases vodStep_outcome hstep with
  | opened | progressed | concluded => exact hone (.progress _)
  | notOpened | readFailed | endOfFile | refusedFrame | fed | removed | refused | launched
  | flushed | packagerEnded => exact hown
  | aborted | reported => exact hone (.error _)
  | decoded htranscode hframes =>
    unfold VodTasks.decode
    rcases processFrame _ _ _ with ⟨accs', segments, _ | ⟨⟩⟩
    · dsimp only
      split <;> exact hown
    · exact hown
  | @packaged p segment segments now hpackaging hsegments hturn =>
    have hemits := emits_handleSegment cfg.packagerEnv { s.packager with events := [] } segment now
    rw [hturn] at hemits
    refine hsent ?_
    rw [show p.events = segmentEvents _ segment from hemits]
    exact vodEvent_segmentEvents cfg.packagerEnv segment
  | @broken p segment segments now hpackaging hsegments hturn =>
    have hemits := emits_handleSegment cfg.packagerEnv { s.packager with events := [] } segment now
    rw [hturn] at hemits
    refine hsent ?_
    rw [show p.events = [] from hemits]
    exact fun event hmem => absurd hmem List.not_mem_nil
  | handled now hevents =>
    intro event hmem
    refine hown event ?_
    rw [hevents]
    exact List.mem_cons_of_mem _ hmem

/-- The record does not come back from its end. -/
theorem HasEnded.step (h : HasEnded s.manager cfg.streamId)
    (hown : ∀ event ∈ s.events, VodEvent cfg.streamId event)
    (hstep : vodStep cfg s a = some s') : HasEnded s'.manager cfg.streamId := by
  cases vodStep_outcome hstep with
  | launched => exact h.expect _
  | decoded htranscode hframes =>
    unfold VodTasks.decode
    rcases processFrame _ _ _ with ⟨accs', segments, _ | ⟨⟩⟩
    · dsimp only
      split <;> exact h
    · exact h
  | handled now hevents => exact h.handle (hown _ (by rw [hevents]; simp)) now
  | _ => exact h

end Outcome

/-! ### What the gauge shows -/

/-- What the gauge shows, and is going to show. -/
def VodTasks.shown (s : VodTasks) : List ℚ := s.vodProgress.toList ++ s.coming

/-- The gauge is a part of the way that the feeder has reached, and shows 100 in the end unless
the record's end clears it. -/
structure Shown (cfg : VodConfig) (s : VodTasks) : Prop where
  own : ∀ event ∈ s.events, VodEvent cfg.streamId event
  sorted : s.shown.Pairwise (· ≤ ·)
  nonneg : ∀ p ∈ s.shown, 0 ≤ p
  reached : ∀ p ∈ s.shown, p ≤ cfg.reached s.feeder
  through : s.feeder.isThrough = true → s.shown.getLast? = some 100 ∨
    s.vodProgress = some 0 ∧ s.coming = [] ∧ HasEnded s.manager cfg.streamId

/-- Once the gauge has shown `p` it shows no less, but for the 0 of a record that has ended. -/
structure AtLeast (cfg : VodConfig) (p : ℚ) (s : VodTasks) : Prop where
  coming : ∀ q ∈ s.coming, p ≤ q
  reached : p ≤ cfg.reached s.feeder
  gauge : ∃ q, s.vodProgress = some q ∧ (p ≤ q ∨ q = 0 ∧ HasEnded s.manager cfg.streamId)

section Steps

variable {cfg : VodConfig} {s s' : VodTasks} {a : VodAction} {p : ℚ}

theorem shown_start (cfg : VodConfig) (m : StreamStateManager) : Shown cfg (.start m) where
  own event hmem := absurd hmem List.not_mem_nil
  sorted := .nil
  nonneg p hp := absurd hp List.not_mem_nil
  reached p hp := absurd hp List.not_mem_nil
  through h := by cases h

/-- **One step**: what is shown stays in order. -/
theorem Shown.step (h : Shown cfg s) (hstep : vodStep cfg s a = some s') : Shown cfg s' := by
  have hown := vodEvent_step h.own hstep
  cases gauge_outcome h.own hstep with
  | quiet hgauge hcoming hreached hthrough =>
    have hshown : s'.shown = s.shown := by rw [VodTasks.shown, hgauge, hcoming, VodTasks.shown]
    refine ⟨hown, hshown ▸ h.sorted, hshown ▸ h.nonneg, fun p hp => ?_, fun hend => ?_⟩
    · exact (h.reached p (hshown ▸ hp)).trans hreached
    · rw [hshown, hgauge, hcoming]
      refine (h.through (hthrough hend)).imp_right fun hcleared => ?_
      exact ⟨hcleared.1, hcleared.2.1, hcleared.2.2.step h.own hstep⟩
  | sends percent hgauge hcoming hfrom hto =>
    have hshown : s'.shown = s.shown ++ [percent] := by
      rw [VodTasks.shown, hgauge, hcoming, VodTasks.shown, List.append_assoc]
    have hmem : ∀ p ∈ s'.shown, p ∈ s.shown ∨ p = percent := by
      intro p hp
      rw [hshown] at hp
      exact (List.mem_append.mp hp).imp_right List.mem_singleton.mp
    have hle : ∀ p ∈ s.shown, p ≤ percent := fun p hp => (h.reached p hp).trans hfrom
    refine ⟨hown, ?_, fun p hp => ?_, fun p hp => ?_, fun hend => ?_⟩
    · rw [hshown, List.pairwise_append]
      refine ⟨h.sorted, List.pairwise_singleton _ _, fun p hp q hq => ?_⟩
      rw [List.mem_singleton.mp hq]
      exact hle p hp
    · rcases hmem p hp with hp | rfl
      · exact h.nonneg p hp
      · exact hto ▸ reached_nonneg cfg _
    · rw [hto]
      rcases hmem p hp with hp | rfl
      · exact hle p hp
      · exact le_refl p
    · rw [hshown, List.getLast?_concat, ← hto, reached_of_isThrough cfg hend]
      exact .inl rfl
  | shows percent hgauge hcoming hfeeder =>
    have hnext : s'.shown = percent :: s'.coming := by
      rw [VodTasks.shown, hgauge]
      rfl
    have hshown : s.shown = s.vodProgress.toList ++ s'.shown := by
      rw [VodTasks.shown, hcoming, hnext]
    have hmem : ∀ q ∈ s'.shown, q ∈ s.shown := by
      intro q hq
      rw [hshown]
      exact List.mem_append_right _ hq
    have hsorted := h.sorted
    rw [hshown, List.pairwise_append] at hsorted
    refine ⟨hown, hsorted.2.1, fun q hq => h.nonneg q (hmem q hq), ?_, fun hend => ?_⟩
    · rw [hfeeder]
      exact fun q hq => h.reached q (hmem q hq)
    · rw [hfeeder] at hend
      rcases h.through hend with hlast | ⟨-, hnone, -⟩
      · left
        rwa [hshown, hnext, List.getLast?_append_of_ne_nil _ (List.cons_ne_nil _ _), ← hnext]
          at hlast
      · rw [hcoming] at hnone
        cases hnone
  | clears hgauge hcoming hfeeder hended =>
    have hnext : s'.shown = 0 :: s.coming := by
      rw [VodTasks.shown, hgauge, hcoming]
      rfl
    have hmem : ∀ q ∈ s.coming, q ∈ s.shown := fun q hq => List.mem_append_right _ hq
    have hsorted := h.sorted
    rw [VodTasks.shown, List.pairwise_append] at hsorted
    refine ⟨hown, ?_, ?_, ?_, fun hend => ?_⟩
    · rw [hnext]
      exact .cons (fun q hq => h.nonneg q (hmem q hq)) hsorted.2.1
    · rw [hnext]
      exact List.forall_mem_cons.mpr ⟨le_refl _, fun q hq => h.nonneg q (hmem q hq)⟩
    · rw [hnext, hfeeder]
      exact List.forall_mem_cons.mpr
        ⟨reached_nonneg cfg _, fun q hq => h.reached q (hmem q hq)⟩
    · rw [hfeeder] at hend
      by_cases hnone : s.coming = []
      · exact .inr ⟨hgauge, hcoming.trans hnone, hended⟩
      · rcases h.through hend with hlast | ⟨-, hempty, -⟩
        · left
          rw [VodTasks.shown, List.getLast?_append_of_ne_nil _ hnone] at hlast
          rw [hnext, List.getLast?_cons_of_ne_nil hnone, hlast]
        · exact absurd hempty hnone

theorem Shown.atLeast (h : Shown cfg s) (hp : s.vodProgress = some p) : AtLeast cfg p s := by
  have hshown : s.shown = p :: s.coming := by
    rw [VodTasks.shown, hp]
    rfl
  have hsorted := h.sorted
  rw [hshown, List.pairwise_cons] at hsorted
  have hmem : p ∈ s.shown := by
    rw [hshown]
    exact List.mem_cons_self
  exact ⟨hsorted.1, h.reached p hmem, p, hp, .inl (le_refl p)⟩

/-- **One step**: the gauge does not go down, unless the end of the record clears it. -/
theorem AtLeast.step (h : AtLeast cfg p s)
    (hown : ∀ event ∈ s.events, VodEvent cfg.streamId event)
    (hstep : vodStep cfg s a = some s') : AtLeast cfg p s' := by
  have hkept : s'.vodProgress = s.vodProgress → ∃ q, s'.vodProgress = some q ∧
      (p ≤ q ∨ q = 0 ∧ HasEnded s'.manager cfg.streamId) := by
    intro hgauge
    obtain ⟨q, hq, hle⟩ := h.gauge
    exact ⟨q, hgauge.trans hq, hle.imp_right fun hzero => ⟨hzero.1, hzero.2.step hown hstep⟩⟩
  cases gauge_outcome hown hstep with
  | quiet hgauge hcoming hreached hthrough =>
    exact ⟨hcoming ▸ h.coming, h.reached.trans hreached, hkept hgauge⟩
  | sends percent hgauge hcoming hfrom hto =>
    refine ⟨fun q hq => ?_, hto ▸ h.reached.trans hfrom, hkept hgauge⟩
    rw [hcoming] at hq
    rcases List.mem_append.mp hq with hq | hq
    · exact h.coming q hq
    · rw [List.mem_singleton.mp hq]
      exact h.reached.trans hfrom
  | shows percent hgauge hcoming hfeeder =>
    have hall := h.coming
    rw [hcoming] at hall
    obtain ⟨hpercent, hrest⟩ := List.forall_mem_cons.mp hall
    exact ⟨hrest, hfeeder ▸ h.reached, percent, hgauge, .inl hpercent⟩
  | clears hgauge hcoming hfeeder hended =>
    exact ⟨hcoming ▸ h.coming, hfeeder ▸ h.reached, 0, hgauge, .inr ⟨rfl, hended⟩⟩

end Steps

/-! ### The temp file -/

/-- How many bytes an action reads. -/
def VodAction.bytesRead : VodAction → ℕ
  | .read (.ok n) => n
  | _ => 0

/-- How many bytes are read in all. -/
def bytesReadBy (as : List VodAction) : ℕ := (as.map (·.bytesRead)).sum

/-- Where the feeder stands after reading `n` bytes. -/
inductive ReadUpTo (cfg : VodConfig) (n : ℕ) : Feeder → Prop
  | opening (hn : n = 0) : ReadUpTo cfg n .opening
  | reading {rest : Bytes} {frameIdx : ℕ} (hrest : n + rest.length = cfg.file.length) :
      ReadUpTo cfg n (.reading rest n frameIdx)
  | sent {rest : Bytes} {frameIdx : ℕ} (hrest : n + rest.length = cfg.file.length) :
      ReadUpTo cfg n (.sent rest n frameIdx)
  | closing (hn : n = cfg.file.length) : ReadUpTo cfg n .closing
  | removing (hn : n = cfg.file.length) : ReadUpTo cfg n .removing
  | done (hn : n = cfg.file.length) : ReadUpTo cfg n .done
  | failed (error : Text) : ReadUpTo cfg n (.failed error)
  | aborted : ReadUpTo cfg n .aborted

/-- The feeder has read `n` bytes, and the temp file is there until it is done. -/
structure FileRead (cfg : VodConfig) (n : ℕ) (s : VodTasks) : Prop where
  bytes : ReadUpTo cfg n s.feeder
  kept : s.tempFile = false → s.feeder = .done

section File

variable {cfg : VodConfig} {n : ℕ} {s s' : VodTasks} {a : VodAction}

theorem fileRead_start (cfg : VodConfig) (m : StreamStateManager) : FileRead cfg 0 (.start m) where
  bytes := .opening rfl
  kept h := by cases h

theorem FileRead.step (h : FileRead cfg n s) (hstep : vodStep cfg s a = some s') :
    FileRead cfg (n + a.bytesRead) s' := by
  have hkept : ∀ {feeder : Feeder}, s.feeder ≠ .done → s.tempFile = false → feeder = .done :=
    fun hne htemp => absurd (h.kept htemp) hne
  have hbytes := h.bytes
  cases vodStep_outcome hstep with
  | opened hfeeder =>
    rw [hfeeder] at hbytes
    cases hbytes with
    | opening hn =>
      subst hn
      exact ⟨.reading (Nat.zero_add _), hkept (by simp [hfeeder])⟩
  | notOpened hfeeder | readFailed hfeeder | refusedFrame hfeeder =>
    exact ⟨.failed _, hkept (by simp [hfeeder])⟩
  | endOfFile hfeeder =>
    rw [hfeeder] at hbytes
    cases hbytes with
    | reading hrest => exact ⟨.closing hrest, hkept (by simp [hfeeder])⟩
  | @fed rest bytesRead frameIdx k hfeeder hk hread hopen =>
    rw [hfeeder] at hbytes
    cases hbytes with
    | reading hrest =>
      refine ⟨.sent ?_, hkept (by simp [hfeeder])⟩
      have hle := hread.2.1
      simp only [List.length_drop, VodAction.bytesRead]
      omega
  | progressed hfeeder =>
    rw [hfeeder] at hbytes
    cases hbytes with
    | sent hrest => exact ⟨.reading hrest, hkept (by simp [hfeeder])⟩
  | concluded hfeeder =>
    rw [hfeeder] at hbytes
    cases hbytes with
    | closing hn => exact ⟨.removing hn, hkept (by simp [hfeeder])⟩
  | removed hfeeder removed =>
    rw [hfeeder] at hbytes
    cases hbytes with
    | removing hn => exact ⟨.done hn, fun _ => rfl⟩
  | aborted hfeeder => exact ⟨.aborted, hkept (by simp [hfeeder])⟩
  | refused | launched | flushed | reported | packaged | broken | packagerEnded =>
    exact ⟨hbytes, h.kept⟩
  | decoded htranscode hframes =>
    unfold VodTasks.decode
    rcases processFrame _ _ _ with ⟨accs', segments, _ | ⟨⟩⟩
    · dsimp only
      split <;> exact ⟨hbytes, h.kept⟩
    · exact ⟨hbytes, h.kept⟩
  | handled => exact ⟨hbytes, h.kept⟩

end File

/-! ### Runs -/

section Runs

variable {cfg : VodConfig} {m : StreamStateManager} {as : List VodAction} {s : VodTasks}

theorem shown_of_run (hrun : run (vodStep cfg) (.start m) as = some s) : Shown cfg s :=
  run_invariant (I := Shown cfg) (fun _ _ _ h hstep => h.step hstep) (shown_start cfg m) hrun

theorem fileRead_of_run (hrun : run (vodStep cfg) (.start m) as = some s) :
    FileRead cfg (bytesReadBy as) s := by
  refine run_history (I := fun p s => FileRead cfg (bytesReadBy p) s) ?_ (fileRead_start cfg m) hrun
  intro p c a c' _ hread hstep
  have hbytes : bytesReadBy (p ++ [a]) = bytesReadBy p + a.bytesRead := by
    rw [bytesReadBy, List.map_append, List.sum_append, List.map_singleton, List.sum_singleton]
    rfl
  rw [hbytes]
  exact hread.step hstep

end Runs

/-- **The progress gauge of an uploaded file.** In every run: the gauge stays between 0 and 100
and does not go down, except that it may show 0 once the record is READY or in ERROR; when all is
done and the feeder did not fail it shows 100, or that 0; and the temp file is gone only if the
whole file has been read. -/
theorem vod_progress_rises (cfg : VodConfig) (m : StreamStateManager) (as : List VodAction)
    (s : VodTasks) (hrun : run (vodStep cfg) (.start m) as = some s) :
    (∀ p, s.vodProgress = some p → 0 ≤ p ∧ p ≤ 100 ∧
        ∀ more t, run (vodStep cfg) s more = some t → ∃ q, t.vodProgress = some q ∧
          (p ≤ q ∨ q = 0 ∧ HasEnded t.manager cfg.streamId)) ∧
      (s.Settled → s.feeder = .done → s.vodProgress = some 100 ∨
        s.vodProgress = some 0 ∧ HasEnded s.manager cfg.streamId) ∧
      (s.tempFile = false → bytesReadBy as = cfg.file.length) := by
  have hshown := shown_of_run hrun
  refine ⟨fun p hp => ?_, fun hsettled hdone => ?_, fun hremoved => ?_⟩
  · have hmem : p ∈ s.shown := by
      rw [VodTasks.shown, hp]
      exact List.mem_append_left _ (List.mem_singleton_self p)
    refine ⟨hshown.nonneg p hmem, (hshown.reached p hmem).trans (reached_le cfg _),
      fun more t hmore => ?_⟩
    have hboth : Shown cfg t ∧ AtLeast cfg p t :=
      run_invariant (I := fun t => Shown cfg t ∧ AtLeast cfg p t)
        (fun _ _ _ h hstep => ⟨h.1.step hstep, h.2.step h.1.own hstep⟩)
        ⟨hshown, hshown.atLeast hp⟩ hmore
    exact hboth.2.gauge
  · have hcoming : s.coming = [] := by
      rw [VodTasks.coming, hsettled.events]
      rfl
    rcases hshown.through (by rw [hdone]; rfl) with hlast | ⟨hzero, -, hended⟩
    · rw [VodTasks.shown, hcoming, List.append_nil] at hlast
      cases hgauge : s.vodProgress with
      | none =>
        rw [hgauge] at hlast
        cases hlast
      | some p =>
        rw [hgauge] at hlast
        exact .inl hlast
    · exact .inr ⟨hzero, hended⟩
  · have hread := fileRead_of_run hrun
    have hbytes := hread.bytes
    rw [hread.kept hremoved] at hbytes
    cases hbytes with
    | done hn => exact hn

/-- The file of one byte, up to its last progress. -/
def oneByteRead : List VodAction :=
  fedAtOnce oneByte ++ [.decode, .flush, .package ⟨0⟩, .packagerEnd] ++
    List.replicate 3 (.handle ⟨1⟩)

/-- Its segment and the end of its rendition are handled. -/
def oneByteEnd : List VodAction := List.replicate 2 (.handle ⟨1⟩)

theorem gauge_oneByte :
    ((run (vodStep oneByte) (.start (.setEntry .new ⟨7⟩ uploaded .pending)) oneByteRead).map
        fun s => (s.vodProgress, s.tempFile)) = some (some 100, false) ∧
      ((run (vodStep oneByte) (.start (.setEntry .new ⟨7⟩ uploaded .pending))
        (oneByteRead ++ oneByteEnd)).map fun t => t.vodProgress) = some (some 0) := by
  decide +kernel

/-- The gauge of the file of one byte goes up to 100, and is cleared as its record ends. -/
theorem vod_progress_rises_oneByte : ∃ s t,
    run (vodStep oneByte) (.start (.setEntry .new ⟨7⟩ uploaded .pending)) oneByteRead = some s ∧
      s.vodProgress = some 100 ∧ bytesReadBy oneByteRead = 1 ∧
      run (vodStep oneByte) s oneByteEnd = some t ∧ t.vodProgress = some 0 ∧
      HasEnded t.manager ⟨7⟩ := by
  obtain ⟨hread, hend⟩ := gauge_oneByte
  obtain ⟨s, hs, hgauge⟩ := Option.map_eq_some_iff.mp hread
  obtain ⟨hfull, hremoved⟩ := Prod.mk.inj hgauge
  obtain ⟨t, ht, hzero⟩ := Option.map_eq_some_iff.mp hend
  have hmore : run (vodStep oneByte) s oneByteEnd = some t :=
    (run_append hs oneByteEnd).symm.trans ht
  obtain ⟨hrises, -, hfile⟩ := vod_progress_rises oneByte _ oneByteRead s hs
  obtain ⟨-, -, hlater⟩ := hrises 100 hfull
  obtain ⟨q, hq, hle | ⟨-, hended⟩⟩ := hlater oneByteEnd t hmore
  · -- The gauge went down, so the record has ended.
    obtain rfl := Option.some.inj (hzero.symm.trans hq)
    norm_num at hle
  · exact ⟨s, t, hs, hfull, hfile hremoved, hmore, hzero, hended⟩

end StreamInfa.Ingest
