import StreamInfa.Lib.Stage
import StreamInfa.Package.Trace

/-!
The packager as a stage behind the segment channel.

A task that runs the packager turn by turn sends the events of each turn on before the next one
(`Packages`). Over an open channel that makes no difference to what is written: after any number
of turns the packager is the one of `packagerLoop` on the segments it took
(`packagerLoop_of_feeds`).
-/

namespace StreamInfa.Package

open Control (PipelineEvent)

variable {env : PackagerEnv} {p q : Packager}

/-- One turn over an open channel, from a packager whose earlier events are sent. -/
def Packages (env : PackagerEnv) (p : Packager) (segment : EncodedSegment) (q : Packager)
    (writes : List StorageWrite) : Prop :=
  ∃ now, handleSegment env { p with events := [] } segment now = .ok q ∧
    q.writes = p.writes ++ writes

theorem Packager.Open.withEvents (h : p.Open) (events : List PipelineEvent) :
    ({ p with events := events } : Packager).Open :=
  ⟨h.room, h.published, h.opened⟩

/-- A turn over an open channel only appends to the events. -/
theorem handleSegment_events (env : PackagerEnv) (hopen : p.Open) (segment : EncodedSegment)
    (now : DateTime) (events : List PipelineEvent)
    (h : handleSegment env { p with events := [] } segment now = .ok q) :
    handleSegment env { p with events := events } segment now =
      .ok { q with events := events ++ segmentEvents env segment } := by
  unfold handleSegment at h ⊢
  cases hinit : p.initSegmentsWritten.lookup segment.rendition with
  | some written =>
    simp only [Except.bind, hinit] at h ⊢
    rw [writeMediaSegment_open (by exact hopen.room)] at h ⊢
    obtain rfl := Except.ok.inj h
    rfl
  | none =>
    simp only [hinit] at h ⊢
    rw [openRendition_open (by exact hopen.room) (by exact hopen.published)] at h ⊢
    simp only [Except.bind] at h ⊢
    rw [writeMediaSegment_open (by exact hopen.room)] at h ⊢
    obtain rfl := Except.ok.inj h
    rfl

/-- One more segment at the end of an input. -/
theorem packagerLoop_concat (hopen : p.Open) (input : List (EncodedSegment × DateTime))
    (segment : EncodedSegment) (now : DateTime)
    (h : handleSegment env (packagerLoop env p input) segment now = .ok q) :
    packagerLoop env p (input ++ [(segment, now)]) = q := by
  induction input generalizing p with
  | nil =>
    rw [packagerLoop] at h
    simp only [List.nil_append, packagerLoop, h]
  | cons x input ih =>
    obtain ⟨first, at'⟩ := x
    obtain ⟨next, hstep, hopen', -⟩ := handleSegment_open env first at' hopen
    rw [packagerLoop, hstep] at h
    rw [List.cons_append, packagerLoop, hstep]
    exact ih hopen' h

/-- A packager that is fed segment by segment does what one run over the segments does. -/
theorem packagerLoop_of_feeds {segments : List EncodedSegment} {writes : List StorageWrite}
    (h : Feeds (Packages env) (Packager.start none) segments p writes) :
    ∃ input, input.map Prod.fst = segments ∧ p.Open ∧ p.writes = writes ∧
      packagerLoop env (Packager.start none) input =
        { p with events := segments.flatMap (segmentEvents env) } := by
  induction h with
  | nil => exact ⟨[], rfl, Packager.open_start, rfl, rfl⟩
  | @concat segments p q segment writes more h hstep ih =>
    obtain ⟨input, hinput, hopen, hwrites, hloop⟩ := ih
    obtain ⟨now, hturn, hmore⟩ := hstep
    have hopen' : q.Open := by
      obtain ⟨q', hok, hq', -⟩ := handleSegment_open env segment now (hopen.withEvents [])
      obtain rfl := Except.ok.inj (hturn.symm.trans hok)
      exact hq'
    refine ⟨input ++ [(segment, now)], ?_, hopen', by rw [hmore, hwrites], ?_⟩
    · rw [List.map_append, hinput]
      rfl
    · apply packagerLoop_concat Packager.open_start
      rw [hloop, handleSegment_events env hopen segment now _ hturn, List.flatMap_append,
        List.flatMap_singleton]

/-- What an open channel makes of a turn. -/
theorem packages_of_open (hopen : p.Open) {segment : EncodedSegment} {now : DateTime}
    (h : handleSegment env { p with events := [] } segment now = .ok q) :
    ∃ writes, Packages env p segment q writes := by
  obtain ⟨q', hok, -, hwrites, -⟩ := handleSegment_open env segment now (hopen.withEvents [])
  obtain rfl := Except.ok.inj (h.symm.trans hok)
  exact ⟨_, now, h, hwrites⟩

end StreamInfa.Package
