import StreamInfa.Transcode.Conservation

/-!
Whether a segment can be decoded by itself.

Every master playlist carries EXT-X-INDEPENDENT-SEGMENTS, which promises that the
video of each segment starts with a keyframe. The accumulator appends the keyframe
that triggers a cut to the segment it closes, so the next segment starts with
whatever packet comes after that keyframe.

* `independent_iff` — for every packet sequence whose video starts with a keyframe:
  all emitted segments start with one exactly when the video packet after each cut
  is a keyframe too.
* `second_segment_starts_mid_gop` — an ordinary sequence of keyframes and other
  frames breaks the promise.
-/

namespace StreamInfa.Transcode

open SegmentAccumulator

/-- The first video packet, if there is one, is a keyframe. -/
def StartsWithKeyframe (ps : List EncodedPacket) : Prop :=
  ∀ p, ps.find? (fun q => !q.isAudio) = some p → p.keyframe = true

instance (ps : List EncodedPacket) : Decidable (StartsWithKeyframe ps) :=
  match h : ps.find? (fun q => !q.isAudio) with
  | none => isTrue fun p hp => absurd (h.symm.trans hp) (by simp)
  | some p =>
    decidable_of_iff (p.keyframe = true)
      ⟨fun hkey _ hq => Option.some.inj (h.symm.trans hq) ▸ hkey, fun hall => hall p h⟩

/-- The packets that went into a segment: those pushed while its number was open. -/
def segmentPackets (acc : SegmentAccumulator) (ps : List EncodedPacket) (s : EncodedSegment) :
    List EncodedPacket :=
  ((acc.openSegments ps).filter (·.1 == s.sequence)).map Prod.snd

/-- The video of every emitted segment starts with a keyframe. -/
def IndependentSegments (acc : SegmentAccumulator) (ps : List EncodedPacket) : Prop :=
  ∀ s ∈ acc.segments ps, StartsWithKeyframe (segmentPackets acc ps s)

instance (acc : SegmentAccumulator) (ps : List EncodedPacket) :
    Decidable (IndependentSegments acc ps) :=
  inferInstanceAs (Decidable (∀ s ∈ acc.segments ps, _))

/-- After each packet that closes a segment, the next video packet is a keyframe.
What follows the last cut does not matter if it has no video to emit. -/
def KeyframeAfterCut (target : ℚ) (ps : List EncodedPacket) : Prop :=
  ∀ before cut rest, ps = before ++ cut :: rest →
    closesSegment target (openTail target before ++ [cut]) = true →
    (openTail target rest = rest → videoBytes rest ≠ []) → StartsWithKeyframe rest

/-! ### Where the first video packet is -/

theorem startsWithKeyframe_append {ps : List EncodedPacket} (h : ∃ p ∈ ps, p.isAudio = false)
    (qs : List EncodedPacket) : StartsWithKeyframe (ps ++ qs) ↔ StartsWithKeyframe ps := by
  obtain ⟨p, hp⟩ : ∃ p, ps.find? (fun q => !q.isAudio) = some p := by
    obtain ⟨p, hmem, hp⟩ := h
    refine Option.isSome_iff_exists.mp (List.find?_isSome.mpr ⟨p, hmem, ?_⟩)
    rw [hp]
    rfl
  simp only [StartsWithKeyframe, List.find?_append, hp, Option.some_or]

/-- A group is closed by a video packet. -/
theorem exists_video_of_closes {target : ℚ} {g : List EncodedPacket}
    (h : closesSegment target g = true) : ∃ p ∈ g, p.isAudio = false := by
  unfold closesSegment at h
  split at h
  · rename_i a b _ hlast
    simp only [Bool.and_eq_true, Bool.not_eq_true'] at h
    exact ⟨b, List.mem_of_getLast? hlast, h.1.1⟩
  · exact absurd h (by simp)

/-- The first closed group, if there is one, holds the first video packet. -/
theorem startsWithKeyframe_closed {target : ℚ} {o ps g : List EncodedPacket}
    {gs : List (List EncodedPacket)} (h : (cutFrom (closesSegment target) o ps).1 = g :: gs) :
    StartsWithKeyframe (o ++ ps) ↔ StartsWithKeyframe g := by
  have hvideo : ∃ p ∈ g, p.isAudio = false :=
    exists_video_of_closes (closes_of_mem_cutFrom (h ▸ List.mem_cons_self))
  rw [← flatten_cutFrom (closesSegment target) o ps, h, List.flatten_cons, List.append_assoc,
    startsWithKeyframe_append hvideo]

/-- With nothing closed, all of the input is in the open group. -/
theorem open_eq_of_closed_nil {target : ℚ} {o ps : List EncodedPacket}
    (h : (cutFrom (closesSegment target) o ps).1 = []) :
    (cutFrom (closesSegment target) o ps).2 = o ++ ps := by
  have hall := flatten_cutFrom (closesSegment target) o ps
  rwa [h, List.flatten_nil, List.nil_append] at hall

theorem closed_nil_of_openTail {target : ℚ} {ps : List EncodedPacket}
    (h : openTail target ps = ps) : (cutFrom (closesSegment target) [] ps).1 = [] := by
  cases hclosed : (cutFrom (closesSegment target) [] ps).1 with
  | nil => rfl
  | cons g gs =>
    -- A closed group takes its packets away from the tail.
    obtain ⟨p, hp, -⟩ : ∃ p ∈ g, p.isAudio = false :=
      exists_video_of_closes (closes_of_mem_cutFrom (hclosed ▸ List.mem_cons_self))
    have hall := congrArg List.length (flatten_cutFrom (closesSegment target) [] ps)
    rw [hclosed, ← openTail, h] at hall
    have hpos := List.length_pos_of_mem hp
    simp only [List.flatten_cons, List.length_append, List.length_nil] at hall
    omega

/-! ### Groups and cuts -/

/-- The emitted groups when `o` is already open. -/
def emittedFrom (target : ℚ) (o ps : List EncodedPacket) : List (List EncodedPacket) :=
  (cutFrom (closesSegment target) o ps).1 ++
    if videoBytes (cutFrom (closesSegment target) o ps).2 = [] then []
    else [(cutFrom (closesSegment target) o ps).2]

/-- `KeyframeAfterCut` when `o` is already open. -/
def KeyframeAfterCutFrom (target : ℚ) (o ps : List EncodedPacket) : Prop :=
  ∀ before cut rest, ps = before ++ cut :: rest →
    closesSegment target ((cutFrom (closesSegment target) o before).2 ++ [cut]) = true →
    (openTail target rest = rest → videoBytes rest ≠ []) → StartsWithKeyframe rest

section

variable {target : ℚ} {o ps : List EncodedPacket} {x : EncodedPacket}

theorem emittedFrom_of_closes (h : closesSegment target (o ++ [x]) = true) :
    emittedFrom target o (x :: ps) = (o ++ [x]) :: emittedFrom target [] ps := by
  simp only [emittedFrom, cutFrom_cons_of_closes h, List.cons_append]

theorem emittedFrom_of_not_closes (h : closesSegment target (o ++ [x]) = false) :
    emittedFrom target o (x :: ps) = emittedFrom target (o ++ [x]) ps := by
  simp only [emittedFrom, cutFrom_cons_of_not_closes h]

theorem keyframeAfterCutFrom_of_closes (h : closesSegment target (o ++ [x]) = true) :
    KeyframeAfterCutFrom target o (x :: ps) ↔
      ((openTail target ps = ps → videoBytes ps ≠ []) → StartsWithKeyframe ps) ∧
        KeyframeAfterCutFrom target [] ps := by
  constructor
  · intro hall
    refine ⟨hall [] x ps rfl h, fun before cut rest hps hcut => ?_⟩
    refine hall (x :: before) cut rest (by rw [hps, List.cons_append]) ?_
    rwa [cutFrom_cons_of_closes h]
  · rintro ⟨hnow, hlater⟩ before cut rest hps hcut
    cases before with
    | nil =>
      obtain ⟨-, rfl⟩ := List.cons.inj hps
      exact hnow
    | cons y before =>
      obtain ⟨rfl, hrest⟩ := List.cons.inj hps
      rw [cutFrom_cons_of_closes h] at hcut
      exact hlater before cut rest hrest hcut

theorem keyframeAfterCutFrom_of_not_closes (h : closesSegment target (o ++ [x]) = false) :
    KeyframeAfterCutFrom target o (x :: ps) ↔ KeyframeAfterCutFrom target (o ++ [x]) ps := by
  constructor
  · intro hall before cut rest hps hcut
    refine hall (x :: before) cut rest (by rw [hps, List.cons_append]) ?_
    rwa [cutFrom_cons_of_not_closes h]
  · intro hlater before cut rest hps hcut
    cases before with
    | nil =>
      obtain ⟨rfl, -⟩ := List.cons.inj hps
      have hclosed : closesSegment target (o ++ [x]) = true := hcut
      rw [h] at hclosed
      exact absurd hclosed (by simp)
    | cons y before =>
      obtain ⟨rfl, hrest⟩ := List.cons.inj hps
      rw [cutFrom_cons_of_not_closes h] at hcut
      exact hlater before cut rest hrest hcut

/-- Where nothing is closed there is no cut. -/
theorem keyframeAfterCutFrom_of_closed_nil
    (h : (cutFrom (closesSegment target) o ps).1 = []) : KeyframeAfterCutFrom target o ps := by
  rintro before cut rest rfl hcut
  rw [cutFrom_append, cutFrom_cons_of_closes hcut] at h
  exact absurd h (by simp)

/-- The first emitted group holds the first video packet, unless nothing is emitted. -/
theorem startsWithKeyframe_of_emitted
    (hemits : openTail target ps = ps → videoBytes ps ≠ [])
    (hall : ∀ g ∈ emittedFrom target [] ps, StartsWithKeyframe g) : StartsWithKeyframe ps := by
  cases hclosed : (cutFrom (closesSegment target) [] ps).1 with
  | nil =>
    have htail : (cutFrom (closesSegment target) [] ps).2 = ps := open_eq_of_closed_nil hclosed
    apply hall
    rw [emittedFrom, htail, if_neg (hemits htail)]
    exact List.mem_append_right _ (List.mem_singleton_self _)
  | cons g gs =>
    rw [← List.nil_append ps, startsWithKeyframe_closed hclosed]
    apply hall
    rw [emittedFrom, hclosed]
    exact List.mem_append_left _ List.mem_cons_self

theorem emittedFrom_eq_nil (htail : openTail target ps = ps) (hvideo : videoBytes ps = []) :
    emittedFrom target [] ps = [] := by
  rw [openTail] at htail
  rw [emittedFrom, closed_nil_of_openTail htail, htail, if_pos hvideo, List.nil_append]

/-- Group by group: if the input starts with a keyframe, all emitted groups do exactly
when the input after each cut does. -/
theorem emitted_startWithKeyframe_iff (hfirst : StartsWithKeyframe (o ++ ps)) :
    (∀ g ∈ emittedFrom target o ps, StartsWithKeyframe g) ↔
      KeyframeAfterCutFrom target o ps := by
  induction ps generalizing o with
  | nil =>
    rw [List.append_nil] at hfirst
    refine iff_of_true (fun g hg => ?_) (fun before cut rest hps => absurd hps (by simp))
    unfold emittedFrom cutFrom at hg
    split at hg
    · exact absurd hg (by simp)
    · obtain rfl := List.mem_singleton.mp hg
      exact hfirst
  | cons x ps ih =>
    cases h : closesSegment target (o ++ [x]) with
    | false =>
      rw [emittedFrom_of_not_closes h, keyframeAfterCutFrom_of_not_closes h]
      exact ih (by simpa using hfirst)
    | true =>
      have hgroup : StartsWithKeyframe (o ++ [x]) := by
        rw [← List.singleton_append, ← List.append_assoc,
          startsWithKeyframe_append (exists_video_of_closes h)] at hfirst
        exact hfirst
      rw [emittedFrom_of_closes h, keyframeAfterCutFrom_of_closes h, List.forall_mem_cons]
      constructor
      · rintro ⟨-, hall⟩
        refine ⟨fun hemits => startsWithKeyframe_of_emitted hemits hall, ?_⟩
        by_cases hemits : openTail target ps = ps → videoBytes ps ≠ []
        · have hps := startsWithKeyframe_of_emitted hemits hall
          exact (ih (by rwa [List.nil_append])).mp hall
        · push Not at hemits
          exact keyframeAfterCutFrom_of_closed_nil (closed_nil_of_openTail hemits.1)
      · rintro ⟨hnow, hlater⟩
        refine ⟨hgroup, ?_⟩
        by_cases hemits : openTail target ps = ps → videoBytes ps ≠ []
        · have hps := hnow hemits
          exact (ih (by rwa [List.nil_append])).mpr hlater
        · push Not at hemits
          rw [emittedFrom_eq_nil hemits.1 hemits.2]
          exact fun g hg => absurd hg List.not_mem_nil

end

/-! ### The segments of a rendition -/

section Rendition

variable (streamId : StreamId) (rendition : RenditionId) (target : ℚ)
  (width height videoKbps audioKbps : UInt32) (profile level : Text) (frameRate : ℚ)

/-- Segment `i` is made of the packets of group `i`. -/
theorem segmentPackets_eq (ps : List EncodedPacket) :
    let acc := new streamId rendition target width height videoKbps audioKbps profile level
      frameRate
    (acc.segments ps).map (segmentPackets acc ps) = emittedGroups target ps := by
  intro acc
  obtain ⟨hall, -⟩ := segments_carry streamId rendition target width height videoKbps audioKbps
    profile level frameRate ps
  refine List.ext_getElem (by rw [List.length_map, hall.length_eq]) fun i hi hi' => ?_
  have hlen : i < (acc.segments ps).length := by rwa [List.length_map] at hi
  have hnumber : (acc.segments ps)[i].sequence = i := sequence_getElem streamId rendition target
    width height videoKbps audioKbps profile level frameRate ps hlen
  rw [List.getElem_map, segmentPackets, hnumber, ← openSegments_group streamId rendition target
    width height videoKbps audioKbps profile level frameRate ps hi']

/-- **Segments are independent exactly when keyframes follow the cuts.** For every
packet sequence whose video starts with a keyframe. -/
theorem independent_iff (ps : List EncodedPacket) (hfirst : StartsWithKeyframe ps) :
    IndependentSegments (new streamId rendition target width height videoKbps audioKbps profile
      level frameRate) ps ↔ KeyframeAfterCut target ps := by
  have hgroups := segmentPackets_eq streamId rendition target width height videoKbps audioKbps
    profile level frameRate ps
  unfold IndependentSegments
  rw [← List.forall_mem_map (P := StartsWithKeyframe), hgroups]
  exact emitted_startWithKeyframe_iff (o := []) hfirst

end Rendition

/-- Intra-only video: every frame is a keyframe. -/
def keyframesOnly : List EncodedPacket :=
  [{ pts := 0, dts := 0, keyframe := true, data := [0x65], isAudio := false },
    { pts := 540000, dts := 540000, keyframe := true, data := [0x65], isAudio := false },
    { pts := 543000, dts := 543000, keyframe := true, data := [0x65], isAudio := false }]

/-- With nothing but keyframes every segment is independent. -/
theorem independent_keyframesOnly :
    StartsWithKeyframe keyframesOnly ∧
      IndependentSegments (new ⟨0⟩ .high 6 1920 1080 3500 128 "high".toList "4.1".toList 30)
        keyframesOnly := by
  have hall : ∀ p ∈ keyframesOnly, p.keyframe = true := by decide
  have hfirst : StartsWithKeyframe keyframesOnly := fun p hp =>
    hall p (List.mem_of_find?_eq_some hp)
  refine ⟨hfirst, ?_⟩
  refine (independent_iff ⟨0⟩ .high 6 1920 1080 3500 128 _ _ 30 keyframesOnly hfirst).mpr ?_
  intro before cut rest hps _ _ p hp
  apply hall
  rw [hps]
  exact List.mem_append_right _ (List.mem_cons_of_mem _ (List.mem_of_find?_eq_some hp))

/-- A keyframe every six seconds and another frame after each. -/
def keyframeThenDelta : List EncodedPacket :=
  [{ pts := 0, dts := 0, keyframe := true, data := [0x65], isAudio := false },
    { pts := 3000, dts := 3000, keyframe := false, data := [0x41], isAudio := false },
    { pts := 540000, dts := 540000, keyframe := true, data := [0x65], isAudio := false },
    { pts := 543000, dts := 543000, keyframe := false, data := [0x41], isAudio := false }]

/-- The second segment starts with the frame after the keyframe that should start it. -/
theorem second_segment_starts_mid_gop :
    StartsWithKeyframe keyframeThenDelta ∧
      ¬ IndependentSegments (new ⟨0⟩ .high 6 1920 1080 3500 128 "high".toList "4.1".toList 30)
        keyframeThenDelta := by
  refine ⟨by decide, ?_⟩
  decide +kernel

end StreamInfa.Transcode
