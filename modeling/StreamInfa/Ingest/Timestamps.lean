import StreamInfa.Ingest.DemuxErrors

/-!
Timestamp normalization (`FlvDemuxer::normalize_pts` and the branches that call it).

`Stamped` says what one message does to the timestamps: it emits no frame and leaves the
start of the timestamps alone, or it emits a frame whose timestamps are those of the tag
less the start, which it sets if it was not set. `Started` is the run: nothing was emitted,
or the start is the presentation time of the first frame and every frame is translated by
it.

**`one_translation`**: over every sequence of messages there is one such start.
-/

namespace StreamInfa.Ingest

/-! ### The times of a tag -/

/-- The composition offset in the body of a video tag, in milliseconds. -/
def offsetOf : Bytes → ℤ
  | _ :: _ :: b₂ :: b₃ :: b₄ :: _ => compositionOffset b₂ b₃ b₄
  | _ => 0

/-- The presentation time of a frame by its tag, on the 90 kHz clock. -/
def ptsTicks (msg : RtmpMessage) (frame : DemuxedFrame) : ℤ :=
  match frame.track with
  | .video .. => 90 * (msg.timestamp.toNat + offsetOf msg.data)
  | .audio .. => 90 * msg.timestamp.toNat

/-- The decode time of a frame by its tag. -/
def dtsTicks (msg : RtmpMessage) : ℤ := 90 * msg.timestamp.toNat

/-- The timestamps of a frame are those of its tag less `start`. -/
def Translated (start : ℤ) (p : RtmpMessage × DemuxedFrame) : Prop :=
  p.2.pts.toInt = ptsTicks p.1 p.2 - start ∧ p.2.dts.toInt = dtsTicks p.1 - start

/-- The frame that a message yields, if it does. -/
def emittedFrame : Except IngestError (Option DemuxedFrame) → Option DemuxedFrame
  | .ok frame => frame
  | .error _ => none

/-- The frames that a sequence of messages yields, each with the message it came from. -/
def framesFrom : FlvDemuxer → List RtmpMessage → List (RtmpMessage × DemuxedFrame)
  | _, [] => []
  | d, msg :: msgs =>
    ((emittedFrame ((demuxFlvTag msg).run.run d).1).map (msg, ·)).toList ++
      framesFrom ((demuxFlvTag msg).run.run d).2 msgs

/-! ### One message -/

/-- What a message can do to the timestamps. -/
inductive Stamped (d : FlvDemuxer) (msg : RtmpMessage) :
    Except IngestError (Option DemuxedFrame) × FlvDemuxer → Prop
  | silent {out : Except IngestError (Option DemuxedFrame)} {d' : FlvDemuxer}
      (hout : emittedFrame out = none) (hkeep : d'.firstPts = d.firstPts) :
      Stamped d msg (out, d')
  | frame {frame : DemuxedFrame} {d' : FlvDemuxer} (first : Int64)
      (hfirst : first = d.firstPts.getD (.ofInt (ptsTicks msg frame)))
      (hset : d'.firstPts = some first)
      (hpts : frame.pts = .ofInt (ptsTicks msg frame) - first)
      (hdts : frame.dts = .ofInt (dtsTicks msg) - first) : Stamped d msg (.ok (some frame), d')

/-- A configuration record has no timestamp. -/
theorem firstPts_parseAvcDecoderConfig (data : Bytes) (d : FlvDemuxer) :
    ((parseAvcDecoderConfig data).run.run d).2.firstPts = d.firstPts := by
  rcases Nat.lt_or_ge data.length 7 with hshort | hlen
  · rw [run_parseAvcDecoderConfig_short hshort]
  · rw [run_parseAvcDecoderConfig hlen]
    rfl

theorem AudioOutcome.stamped {msg : RtmpMessage} {d : FlvDemuxer}
    {out : Except IngestError (Option DemuxedFrame) × FlvDemuxer}
    (h : AudioOutcome msg.timestamp d out) : Stamped d msg out := by
  cases h with
  | silent => exact .silent rfl rfl
  | frame codec htrack hpts hdts =>
    have hcomm : (msg.timestamp.toNat : ℤ) * 90 = 90 * msg.timestamp.toNat := Int.mul_comm _ _
    obtain ⟨codec, rate, channels, htrack⟩ := htrack
    have hticks : ∀ frame : DemuxedFrame, frame.track = .audio codec rate channels →
        ptsTicks msg frame = 90 * msg.timestamp.toNat := by
      intro frame htrack
      rw [ptsTicks, htrack]
    rw [hcomm] at hpts ⊢
    refine .frame _ ?_ rfl ?_ ?_
    · rw [hticks _ htrack]
    · rw [hticks _ htrack, hpts]
    · rw [hdts, hpts, dtsTicks]

theorem VideoOutcome.stamped {msg : RtmpMessage} {d : FlvDemuxer}
    {out : Except IngestError (Option DemuxedFrame) × FlvDemuxer}
    (h : VideoOutcome msg.data msg.timestamp d out) : Stamped d msg out := by
  cases h with
  | failed e => exact .silent rfl rfl
  | dropped => exact .silent rfl rfl
  | @record b₀ b₁ b₂ b₃ b₄ body hdata hcodec hpacket =>
    have hkeep := firstPts_parseAvcDecoderConfig body d
    rw [DemuxM.run_bind_eq]
    generalize (parseAvcDecoderConfig body).run.run d = r at hkeep
    obtain ⟨_ | u, d'⟩ := r
    · exact .silent rfl hkeep
    · exact .silent rfl hkeep
  | @units b₀ b₁ b₂ b₃ b₄ body naluBytes keyframe frame first hdata hseq hnalus hfirst hframe =>
    have hoffset : offsetOf msg.data = compositionOffset b₂ b₃ b₄ := by
      rw [hdata]
      rfl
    have hticks : ptsTicks msg frame =
        (msg.timestamp.toNat + compositionOffset b₂ b₃ b₄) * 90 := by
      rw [ptsTicks, hframe, hoffset, Int.mul_comm]
    have hdts : dtsTicks msg = msg.timestamp.toNat * 90 := Int.mul_comm _ _
    refine .frame first ?_ rfl ?_ ?_
    · rw [hticks, hfirst]
    · rw [hticks, hframe]
    · rw [hdts, hframe]

/-- What a message does to the timestamps, whatever it holds. -/
theorem stamped_demuxFlvTag (msg : RtmpMessage) (d : FlvDemuxer) :
    Stamped d msg ((demuxFlvTag msg).run.run d) := by
  have houtcome := demuxFlvTag_outcome msg d
  generalize (demuxFlvTag msg).run.run d = out at houtcome
  cases houtcome with
  | failed e => exact .silent rfl rfl
  | ignored => exact .silent rfl rfl
  | video _ _ hout => exact hout.stamped
  | audio hout => exact hout.stamped

/-! ### The machine's integers -/

/-- The ticks of a tag are far from the ends of the 64-bit range. -/
def Moderate (ticks : ℤ) : Prop := -2 ^ 62 ≤ ticks ∧ ticks < 2 ^ 62

theorem moderate_dtsTicks (msg : RtmpMessage) : Moderate (dtsTicks msg) := by
  have hword := msg.timestamp.toNat_lt
  unfold Moderate dtsTicks
  omega

theorem moderate_ptsTicks (msg : RtmpMessage) (frame : DemuxedFrame) :
    Moderate (ptsTicks msg frame) := by
  have hword := msg.timestamp.toNat_lt
  have hoffset : -2 ^ 24 ≤ offsetOf msg.data ∧ offsetOf msg.data < 2 ^ 24 := by
    unfold offsetOf
    split
    · rename_i b₂ b₃ b₄ _ _
      have hbytes : beNat [b₂, b₃, b₄] < 256 ^ 3 := beNat_lt [b₂, b₃, b₄]
      unfold compositionOffset
      dsimp only
      split <;> omega
    · decide
  unfold Moderate ptsTicks
  split <;> omega

theorem toInt_ofInt_of_moderate {ticks : ℤ} (h : Moderate ticks) :
    (Int64.ofInt ticks).toInt = ticks :=
  Int64.toInt_ofInt_of_le (by unfold Moderate at h; omega) (by unfold Moderate at h; omega)

/-- The difference of two moderate times is exact. -/
theorem toInt_ofInt_sub {a b : ℤ} (ha : Moderate a) (hb : Moderate b) :
    (Int64.ofInt a - Int64.ofInt b).toInt = a - b := by
  rw [Int64.toInt_sub, toInt_ofInt_of_moderate ha, toInt_ofInt_of_moderate hb]
  obtain ⟨halow, hahigh⟩ := ha
  obtain ⟨hblow, hbhigh⟩ := hb
  exact Int.bmod_eq_of_le (by omega) (by omega)

/-! ### Runs -/

/-- Nothing was emitted and the start is not set, or it is the presentation time of the first
frame and all frames are translated by it. -/
inductive Started (first : Option Int64) : List (RtmpMessage × DemuxedFrame) → Prop
  | silent (hnone : first = none) : Started first []
  | frames {p : RtmpMessage × DemuxedFrame} {ps : List (RtmpMessage × DemuxedFrame)}
      (hfirst : first = some (.ofInt (ptsTicks p.1 p.2)))
      (hall : ∀ q ∈ p :: ps, Translated (ptsTicks p.1 p.2) q) : Started first (p :: ps)

theorem framesFrom_append {d d' : FlvDemuxer} {msgs : List RtmpMessage}
    (h : run demuxStep d msgs = some d') (more : List RtmpMessage) :
    framesFrom d (msgs ++ more) = framesFrom d msgs ++ framesFrom d' more := by
  induction msgs generalizing d with
  | nil =>
    obtain rfl := Option.some.inj h
    rfl
  | cons msg msgs ih =>
    have hrest := ih h
    rw [List.cons_append, framesFrom, framesFrom, hrest, List.append_assoc]

/-- A start that is set stays, and translates every later frame. -/
theorem translated_of_set {d d' : FlvDemuxer} {start : ℤ} (hmoderate : Moderate start)
    (hfirst : d.firstPts = some (.ofInt start)) {msgs : List RtmpMessage}
    (hrun : run demuxStep d msgs = some d') :
    d'.firstPts = some (.ofInt start) ∧ ∀ q ∈ framesFrom d msgs, Translated start q := by
  induction msgs generalizing d with
  | nil =>
    obtain rfl := Option.some.inj hrun
    exact ⟨hfirst, fun q hq => absurd hq List.not_mem_nil⟩
  | cons msg msgs ih =>
    obtain ⟨d₁, hstep, hrest⟩ := run_cons_eq_some hrun
    obtain rfl := Option.some.inj hstep
    have hstamped := stamped_demuxFlvTag msg d
    simp only [framesFrom]
    generalize (demuxFlvTag msg).run.run d = r at hstamped hrest
    cases hstamped with
    | silent hout hkeep =>
      simp only [hout]
      exact ih (hkeep.trans hfirst) hrest
    | frame first hset hkeep hpts hdts =>
      rw [hfirst, Option.getD_some] at hset
      subst hset
      obtain ⟨hlast, hall⟩ := ih hkeep hrest
      refine ⟨hlast, List.forall_mem_cons.mpr ⟨⟨?_, ?_⟩, hall⟩⟩
      · rw [hpts, toInt_ofInt_sub (moderate_ptsTicks msg _) hmoderate]
      · rw [hdts, toInt_ofInt_sub (moderate_dtsTicks msg) hmoderate]

/-- From a demuxer that has emitted nothing. -/
theorem started_of_run {d d' : FlvDemuxer} (hnone : d.firstPts = none) {msgs : List RtmpMessage}
    (hrun : run demuxStep d msgs = some d') : Started d'.firstPts (framesFrom d msgs) := by
  induction msgs generalizing d with
  | nil =>
    obtain rfl := Option.some.inj hrun
    exact .silent hnone
  | cons msg msgs ih =>
    obtain ⟨d₁, hstep, hrest⟩ := run_cons_eq_some hrun
    obtain rfl := Option.some.inj hstep
    have hstamped := stamped_demuxFlvTag msg d
    simp only [framesFrom]
    generalize (demuxFlvTag msg).run.run d = r at hstamped hrest
    cases hstamped with
    | silent hout hkeep =>
      simp only [hout]
      exact ih (hkeep.trans hnone) hrest
    | @frame frame d₁ first hset hkeep hpts hdts =>
      -- The first frame: its own presentation time is the start.
      rw [hnone, Option.getD_none] at hset
      subst hset
      have hmoderate := moderate_ptsTicks msg frame
      obtain ⟨hlast, hall⟩ := translated_of_set hmoderate hkeep hrest
      refine .frames (p := (msg, frame)) hlast (List.forall_mem_cons.mpr ⟨⟨?_, ?_⟩, hall⟩)
      · rw [hpts, toInt_ofInt_sub hmoderate hmoderate]
      · rw [hdts, toInt_ofInt_sub (moderate_dtsTicks msg) hmoderate]

/-- The presentation time of the first of the frames. -/
def startOf (frames : List (RtmpMessage × DemuxedFrame)) : ℤ :=
  match frames with
  | [] => 0
  | p :: _ => ptsTicks p.1 p.2

theorem Started.translated {first : Option Int64} {frames : List (RtmpMessage × DemuxedFrame)}
    (h : Started first frames) : ∀ p ∈ frames, Translated (startOf frames) p := by
  cases h with
  | silent => exact fun p hp => absurd hp List.not_mem_nil
  | frames _ hall => exact hall

theorem Started.first_eq {first : Option Int64} {frames : List (RtmpMessage × DemuxedFrame)}
    (h : Started first frames) :
    first = if frames = [] then none else some (.ofInt (startOf frames)) := by
  cases h with
  | silent hnone => exact hnone
  | frames hfirst _ => exact hfirst

/-- Every message leads on to a state. -/
theorem exists_run_demuxStep (d : FlvDemuxer) (msgs : List RtmpMessage) :
    ∃ d', run demuxStep d msgs = some d' := by
  induction msgs generalizing d with
  | nil => exact ⟨d, rfl⟩
  | cons msg msgs ih => exact ih _

/-- **Normalization is one translation**: for every sequence of messages to a new demuxer
there is one start such that the timestamps of every frame are those of its tag less the
start. The start is the presentation time of the first frame; before a frame was emitted
none is stored, behind one it is the one stored, and a message that emits no frame leaves
what is stored as it is. -/
theorem one_translation (streamId : StreamId) (msgs : List RtmpMessage) :
    (∃ start, (∀ p ∈ framesFrom (.new streamId) msgs, Translated start p) ∧
      (∀ p, (framesFrom (.new streamId) msgs).head? = some p → start = ptsTicks p.1 p.2) ∧
      ∀ n d, run demuxStep (.new streamId) (msgs.take n) = some d →
        d.firstPts =
          if framesFrom (.new streamId) (msgs.take n) = [] then none
          else some (.ofInt start)) ∧
    ∀ (d : FlvDemuxer) (msg : RtmpMessage),
      emittedFrame ((demuxFlvTag msg).run.run d).1 = none →
        ((demuxFlvTag msg).run.run d).2.firstPts = d.firstPts := by
  constructor
  · obtain ⟨dEnd, hEnd⟩ := exists_run_demuxStep (.new streamId) msgs
    refine ⟨startOf (framesFrom (.new streamId) msgs), (started_of_run rfl hEnd).translated, ?_, ?_⟩
    · intro p hp
      obtain ⟨ps, hframes⟩ := List.head?_eq_some_iff.mp hp
      rw [hframes, startOf]
    · intro n d hd
      -- The frames so far come first, and so does their start.
      have hsplit := framesFrom_append hd (msgs.drop n)
      rw [List.take_append_drop] at hsplit
      rw [(started_of_run rfl hd).first_eq]
      split
      · rfl
      · rename_i hsome
        obtain ⟨p, ps, hframes⟩ := List.exists_cons_of_ne_nil hsome
        rw [hsplit, hframes, List.cons_append, startOf, startOf]
  · intro d msg hsilent
    have hstamped := stamped_demuxFlvTag msg d
    generalize (demuxFlvTag msg).run.run d = r at hstamped hsilent
    cases hstamped with
    | silent _ hkeep => exact hkeep
    | frame => cases hsilent

end StreamInfa.Ingest
