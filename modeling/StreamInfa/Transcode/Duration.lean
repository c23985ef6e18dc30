import StreamInfa.Transcode.Segment
import Mathlib.Data.List.Chain
import Mathlib.Tactic.Linarith

/-!
How long a segment is.

A segment is closed by the first video keyframe at or past the target, so it is as long as
the target at least, and the keyframe before it was not yet past the target. Where that
keyframe lies is what `BelowTarget` carries from packet to packet: in the open segment
before its target, or ahead of the segment. The clock has 64 bits and differences wrap
around; a distance that does not fit comes out negative and closes nothing
(`toInt_sub_neg`).

**`segment_duration_bounds`**: with keyframes at most `gap` apart every segment is at least
the target and less than `target + gap` long, and ends before the next one starts.
-/

namespace StreamInfa.Transcode

open SegmentAccumulator

/-! ### Distances between packets -/

def EncodedPacket.isVideoKeyframe (p : EncodedPacket) : Bool := !p.isAudio && p.keyframe

/-- The exact distance from `a` to `b`, in seconds of the 90 kHz clock. -/
def secsBetween (a b : EncodedPacket) : ℚ := ((b.pts.toInt - a.pts.toInt : ℤ) : ℚ) / 90000

/-- `b` is not before `a`. -/
def NotBefore (a b : EncodedPacket) : Prop := a.pts.toInt ≤ b.pts.toInt

instance (a b : EncodedPacket) : Decidable (NotBefore a b) :=
  inferInstanceAs (Decidable (_ ≤ _))

variable {a b : EncodedPacket}

/-- A distance of less than `2 ^ 63` ticks is measured exactly. -/
theorem toInt_sub_of_lt (hle : NotBefore a b) (hlt : b.pts.toInt - a.pts.toInt < 2 ^ 63) :
    (b.pts - a.pts).toInt = b.pts.toInt - a.pts.toInt := by
  unfold NotBefore at hle
  rw [Int64.toInt_sub]
  exact Int.bmod_eq_of_le_mul_two (by push_cast; omega) (by push_cast; omega)

/-- A longer one comes out negative. -/
theorem toInt_sub_neg (h : 2 ^ 63 ≤ b.pts.toInt - a.pts.toInt) : (b.pts - a.pts).toInt < 0 := by
  have hlow := a.pts.le_toInt
  have hhigh := b.pts.toInt_lt
  have hwrap : (b.pts.toInt - a.pts.toInt).bmod (2 ^ 64) =
      b.pts.toInt - a.pts.toInt - 2 ^ 64 := by
    rw [← Int.sub_bmod_right]
    exact Int.bmod_eq_of_le_mul_two (by push_cast; omega) (by push_cast; omega)
  rw [Int64.toInt_sub, hwrap]
  omega

/-- A distance that reaches a positive target fits, and is exact. -/
theorem secsBetween_of_target_le {target : ℚ} (htarget : 0 < target) (hle : NotBefore a b)
    (h : target ≤ ticksToSecs (b.pts - a.pts)) :
    b.pts.toInt - a.pts.toInt < 2 ^ 63 ∧ ticksToSecs (b.pts - a.pts) = secsBetween a b := by
  have hlt : b.pts.toInt - a.pts.toInt < 2 ^ 63 := by
    by_contra hlong
    have hneg := toInt_sub_neg (Int.not_lt.mp hlong)
    have hsecs : ticksToSecs (b.pts - a.pts) < 0 := by
      rw [ticksToSecs, div_lt_iff₀ (by norm_num), zero_mul]
      exact_mod_cast hneg
    linarith
  exact ⟨hlt, by rw [ticksToSecs, toInt_sub_of_lt hle hlt, secsBetween]⟩

theorem secsBetween_add (a b c : EncodedPacket) :
    secsBetween a b + secsBetween b c = secsBetween a c := by
  unfold secsBetween
  push_cast
  ring

theorem secsBetween_nonneg (h : NotBefore a b) : 0 ≤ secsBetween a b := by
  have hnonneg : (0 : ℤ) ≤ b.pts.toInt - a.pts.toInt := Int.sub_nonneg_of_le h
  exact div_nonneg (by exact_mod_cast hnonneg) (by norm_num)

/-! ### The keyframe before the cut -/

/-- The keyframe `k` closed no segment that starts with `a`: it is before the target, or
too far away to be measured. -/
def BelowTarget (target : ℚ) (a k : EncodedPacket) : Prop :=
  secsBetween a k < target ∨ 2 ^ 63 ≤ k.pts.toInt - a.pts.toInt

theorem belowTarget_of_notBefore {target : ℚ} (htarget : 0 < target) (h : NotBefore b a) :
    BelowTarget target a b := by
  refine .inl (lt_of_le_of_lt ?_ htarget)
  have hneg := secsBetween_nonneg h
  have hsum := secsBetween_add a b a
  have hself : secsBetween a a = 0 := by simp [secsBetween]
  linarith

theorem closesSegment_concat {target : ℚ} {o : List EncodedPacket} {a p : EncodedPacket}
    (ha : (o ++ [p]).head? = some a) :
    closesSegment target (o ++ [p]) = true ↔
      p.isVideoKeyframe = true ∧ target ≤ ticksToSecs (p.pts - a.pts) := by
  rw [closesSegment, ha, List.getLast?_concat]
  simp only [EncodedPacket.isVideoKeyframe, Bool.and_eq_true, decide_eq_true_eq]

theorem belowTarget_of_not_closes {target : ℚ} {o : List EncodedPacket} {a p : EncodedPacket}
    (ha : (o ++ [p]).head? = some a) (hkey : p.isVideoKeyframe = true) (hle : NotBefore a p)
    (h : closesSegment target (o ++ [p]) = false) : BelowTarget target a p := by
  have hshort : ticksToSecs (p.pts - a.pts) < target := by
    by_contra hlong
    have hcloses := (closesSegment_concat ha).mpr ⟨hkey, le_of_not_gt hlong⟩
    rw [h] at hcloses
    cases hcloses
  rcases lt_or_ge (p.pts.toInt - a.pts.toInt) (2 ^ 63) with hlt | hfar
  · refine .inl ?_
    rwa [ticksToSecs, toInt_sub_of_lt hle hlt] at hshort
  · exact .inr hfar

/-- What is known of the packets to come: they are in order behind the last keyframe `k`, and
their keyframes are at most `gap` apart. -/
structure Regular (gap : ℚ) (k : EncodedPacket) (ps : List EncodedPacket) : Prop where
  sorted : (k :: ps).Pairwise NotBefore
  keyframes : (k :: ps.filter EncodedPacket.isVideoKeyframe).IsChain
    fun a b => secsBetween a b ≤ gap

/-- One packet on: it is in order, and if it is a keyframe it is the last one now. -/
theorem Regular.tail {gap : ℚ} {k p : EncodedPacket} {ps : List EncodedPacket}
    (h : Regular gap k (p :: ps)) :
    NotBefore k p ∧
      (p.isVideoKeyframe = true → secsBetween k p ≤ gap ∧ Regular gap p ps) ∧
      (p.isVideoKeyframe = false → Regular gap k ps) := by
  obtain ⟨hbehind, htail⟩ := List.pairwise_cons.mp h.sorted
  obtain ⟨hp, hps⟩ := List.forall_mem_cons.mp hbehind
  refine ⟨hp, fun hkey => ?_, fun hkey => ?_⟩
  · have hchain := h.keyframes
    rw [List.filter_cons_of_pos hkey, List.isChain_cons_cons] at hchain
    exact ⟨hchain.1, htail, hchain.2⟩
  · have hchain := h.keyframes
    rw [List.filter_cons_of_neg (by simp [hkey])] at hchain
    exact ⟨List.pairwise_cons.mpr ⟨hps, (List.pairwise_cons.mp htail).2⟩, hchain⟩

/-- A group that a keyframe closes: the keyframe before it had not. -/
theorem bounds_of_closes {target gap : ℚ} (htarget : 0 < target) {k a p : EncodedPacket}
    {o : List EncodedPacket} (ha : (o ++ [p]).head? = some a) (hle : NotBefore a p)
    (hkp : NotBefore k p) (hgap : secsBetween k p ≤ gap) (hbelow : BelowTarget target a k)
    (h : closesSegment target (o ++ [p]) = true) :
    ticksToSecs (p.pts - a.pts) = secsBetween a p ∧ target ≤ secsBetween a p ∧
      secsBetween a p < target + gap := by
  obtain ⟨-, hreached⟩ := (closesSegment_concat ha).mp h
  obtain ⟨hfits, hexact⟩ := secsBetween_of_target_le htarget hle hreached
  refine ⟨hexact, hexact ▸ hreached, ?_⟩
  rcases hbelow with hshort | hfar
  · calc secsBetween a p = secsBetween a k + secsBetween k p := (secsBetween_add a k p).symm
      _ < target + gap := add_lt_add_of_lt_of_le hshort hgap
  · -- The keyframe before is nearer than the one that was measured.
    unfold NotBefore at hkp
    omega

/-- Every group that is closed keeps the bounds. `k` is the last keyframe so far. -/
theorem bounds_of_mem_cutFrom {target gap : ℚ} (htarget : 0 < target) {k : EncodedPacket}
    {o ps g : List EncodedPacket} (hbelow : ∀ a, o.head? = some a → BelowTarget target a k)
    (hsorted : ∀ a, o.head? = some a → ∀ p ∈ ps, NotBefore a p) (hregular : Regular gap k ps)
    (hg : g ∈ (cutFrom (closesSegment target) o ps).1) :
    ∃ a b, g.head? = some a ∧ g.getLast? = some b ∧
      ticksToSecs (b.pts - a.pts) = secsBetween a b ∧ target ≤ secsBetween a b ∧
        secsBetween a b < target + gap := by
  induction ps generalizing k o with
  | nil => exact absurd hg List.not_mem_nil
  | cons p ps ih =>
    obtain ⟨hkp, hkeyed, hplain⟩ := hregular.tail
    have hbehind : ∀ q ∈ ps, NotBefore p q :=
      (List.pairwise_cons.mp (List.pairwise_cons.mp hregular.sorted).2).1
    -- The first packet of the open group with `p` in it.
    obtain ⟨a, ha, hle, hbelow, hsorted⟩ : ∃ a, (o ++ [p]).head? = some a ∧ NotBefore a p ∧
        BelowTarget target a k ∧ ∀ q ∈ ps, NotBefore a q := by
      cases o with
      | nil => exact ⟨p, rfl, Int.le_refl _, belowTarget_of_notBefore htarget hkp, hbehind⟩
      | cons a o =>
        obtain ⟨hp, hps⟩ := List.forall_mem_cons.mp (hsorted a rfl)
        exact ⟨a, rfl, hp, hbelow a rfl, hps⟩
    have hhead : ∀ {P : EncodedPacket → Prop}, P a → ∀ b, (o ++ [p]).head? = some b → P b := by
      intro P hP b hb
      exact Option.some.inj (ha.symm.trans hb) ▸ hP
    cases hkey : p.isVideoKeyframe with
    | true =>
      obtain ⟨hgap, hregular⟩ := hkeyed hkey
      cases hcloses : closesSegment target (o ++ [p]) with
      | true =>
        rw [cutFrom_cons_of_closes hcloses] at hg
        rcases List.mem_cons.mp hg with rfl | hg
        · exact ⟨a, p, ha, List.getLast?_concat,
            bounds_of_closes htarget ha hle hkp hgap hbelow hcloses⟩
        · exact ih (by simp) (by simp) hregular hg
      | false =>
        rw [cutFrom_cons_of_not_closes hcloses] at hg
        exact ih (hhead (belowTarget_of_not_closes ha hkey hle hcloses)) (hhead hsorted)
          hregular hg
    | false =>
      have hcloses : closesSegment target (o ++ [p]) = false := by
        by_contra hnot
        have hp := ((closesSegment_concat ha).mp (Bool.not_eq_false _ ▸ hnot)).1
        rw [hkey] at hp
        cases hp
      rw [cutFrom_cons_of_not_closes hcloses] at hg
      exact ih (hhead hbelow) (hhead hsorted) (hplain hkey) hg

/-! ### Segments -/

/-- What follows from one group to the next, follows from one segment to the next. -/
theorem isChain_of_forall₂ {α β : Type*} {R : α → β → Prop} {P : β → β → Prop}
    {Q : α → α → Prop} (himp : ∀ x y x' y', R x y → R x' y' → P y y' → Q x x') {xs : List α}
    {ys : List β} (h : List.Forall₂ R xs ys) (hchain : ys.IsChain P) : xs.IsChain Q := by
  induction h with
  | nil => exact .nil
  | @cons x y xs ys hxy hrest ih =>
    cases hrest with
    | nil => exact .singleton x
    | cons hnext hrest =>
      obtain ⟨hfirst, htail⟩ := List.isChain_cons_cons.mp hchain
      exact List.isChain_cons_cons.mpr ⟨himp _ _ _ _ hxy hnext hfirst, ih htail⟩

theorem exists_of_mem_forall₂ {α β : Type*} {R : α → β → Prop} {xs : List α} {ys : List β}
    (h : List.Forall₂ R xs ys) {x : α} (hx : x ∈ xs) : ∃ y, R x y := by
  induction h with
  | nil => exact absurd hx List.not_mem_nil
  | cons hxy _ ih =>
    rcases List.mem_cons.mp hx with rfl | hx
    · exact ⟨_, hxy⟩
    · exact ih hx

/-- In order, each group ends before the next begins. -/
theorem isChain_cutFrom {target : ℚ} {ps : List EncodedPacket} (hsorted : ps.IsChain NotBefore) :
    (cutFrom (closesSegment target) [] ps).1.IsChain fun g g' =>
      ∀ b ∈ g.getLast?, ∀ a ∈ g'.head?, NotBefore b a := by
  have hflat := flatten_cutFrom (closesSegment target) [] ps
  rw [List.nil_append] at hflat
  rw [← hflat] at hsorted
  have hnonempty : [] ∉ (cutFrom (closesSegment target) [] ps).1 := by
    intro hmem
    exact absurd (closes_of_mem_cutFrom hmem) (by simp [closesSegment])
  exact ((List.isChain_flatten hnonempty).mp hsorted.left_of_append).2

/-- A group of packets and its bounds. -/
def Bounded (target gap : ℚ) (g : List EncodedPacket) : Prop :=
  ∃ a b, g.head? = some a ∧ g.getLast? = some b ∧
    ticksToSecs (b.pts - a.pts) = secsBetween a b ∧ target ≤ secsBetween a b ∧
      secsBetween a b < target + gap

/-- A segment starts with its first packet and is as long as the way to its last. -/
theorem times_of_carries {s : EncodedSegment} {g : List EncodedPacket} {a b : EncodedPacket}
    (h : Carries s g) (ha : g.head? = some a) (hb : g.getLast? = some b)
    (hexact : ticksToSecs (b.pts - a.pts) = secsBetween a b) :
    s.ptsStart = a.pts ∧ s.durationSecs = secsBetween a b := by
  have hstart := h.ptsStart
  have hduration := h.duration b hb
  rw [ha, Option.map_some, Option.getD_some] at hstart hduration
  exact ⟨hstart, hduration.trans hexact⟩

/-- The first packet alone closes nothing; from there on the bounds are kept. -/
theorem bounded_of_mem_cutFrom {target gap : ℚ} (htarget : 0 < target) {ps g : List EncodedPacket}
    (hsorted : ps.IsChain NotBefore)
    (hfirst : ∀ p, ps.head? = some p → p.isVideoKeyframe = true)
    (hgap : (ps.filter EncodedPacket.isVideoKeyframe).IsChain fun a b => secsBetween a b ≤ gap)
    (hg : g ∈ (cutFrom (closesSegment target) [] ps).1) : Bounded target gap g := by
  cases ps with
  | nil => exact absurd hg List.not_mem_nil
  | cons p ps =>
    have hkey := hfirst p rfl
    have hpairwise : (p :: ps).Pairwise NotBefore := by
      have htrans : Trans NotBefore NotBefore NotBefore := ⟨fun h h' => Int.le_trans h h'⟩
      exact List.isChain_iff_pairwise.mp hsorted
    have hcloses : closesSegment target ([] ++ [p]) = false := by
      by_contra hnot
      have hreached := ((closesSegment_concat rfl).mp (Bool.not_eq_false _ ▸ hnot)).2
      rw [Int64.sub_self, ticksToSecs, Int64.toInt_zero, Int.cast_zero, zero_div] at hreached
      exact absurd htarget (not_lt.mpr hreached)
    rw [List.filter_cons_of_pos hkey] at hgap
    rw [cutFrom_cons_of_not_closes hcloses] at hg
    refine bounds_of_mem_cutFrom htarget ?_ ?_ ⟨hpairwise, hgap⟩ hg
    · intro a ha
      obtain rfl : p = a := Option.some.inj ha
      exact belowTarget_of_notBefore htarget (Int.le_refl _)
    · intro a ha
      obtain rfl : p = a := Option.some.inj ha
      exact (List.pairwise_cons.mp hpairwise).1

/-- **Segment durations**: when the packets are in order, the first is a video keyframe and
consecutive video keyframes are at most `gap` apart, every segment that comes out is at least
the target and less than `target + gap` long, and ends before the next one starts. -/
theorem segment_duration_bounds (streamId : StreamId) (rendition : RenditionId)
    (width height videoKbps audioKbps : UInt32) (profile level : Text) (frameRate : ℚ)
    (target gap : ℚ) (htarget : 0 < target) (ps : List EncodedPacket)
    (hsorted : ps.IsChain NotBefore)
    (hfirst : ∀ p, ps.head? = some p → p.isVideoKeyframe = true)
    (hgap : (ps.filter EncodedPacket.isVideoKeyframe).IsChain fun a b => secsBetween a b ≤ gap) :
    let acc := new streamId rendition target width height videoKbps audioKbps profile level
      frameRate
    (∀ s ∈ (acc.pushAll ps).1, target ≤ s.durationSecs ∧ s.durationSecs < target + gap) ∧
      (acc.pushAll ps).1.IsChain fun s s' =>
        (s.ptsStart.toInt : ℚ) + s.durationSecs * 90000 ≤ s'.ptsStart.toInt := by
  intro acc
  have hcut := (pushAll_eq_cut (new_holds streamId rendition target width height videoKbps
    audioKbps profile level frameRate) ps).1
  have hbounded : ∀ g ∈ (cutFrom (closesSegment target) [] ps).1, Bounded target gap g :=
    fun g hg => bounded_of_mem_cutFrom htarget hsorted hfirst hgap hg
  have hboth : List.Forall₂ (fun s g => Bounded target gap g ∧ Carries s g) (acc.pushAll ps).1
      (cutFrom (closesSegment target) [] ps).1 :=
    ((List.forall₂_and_left _ _).mpr ⟨hbounded, hcut.flip⟩).flip
  constructor
  · intro s hs
    obtain ⟨g, ⟨a, b, ha, hb, hexact, hlow, hhigh⟩, hcarries⟩ := exists_of_mem_forall₂ hboth hs
    rw [(times_of_carries hcarries ha hb hexact).2]
    exact ⟨hlow, hhigh⟩
  · refine isChain_of_forall₂ ?_ hboth (isChain_cutFrom hsorted)
    rintro s g s' g' ⟨hg, hcarries⟩ ⟨hg', hcarries'⟩ hnext
    obtain ⟨a, b, ha, hb, hexact, -⟩ := hg
    obtain ⟨a', b', ha', hb', hexact', -⟩ := hg'
    obtain ⟨hstart, hduration⟩ := times_of_carries hcarries ha hb hexact
    have hle : b.pts.toInt ≤ a'.pts.toInt := hnext b hb a' ha'
    rw [hstart, hduration, (times_of_carries hcarries' ha' hb' hexact').1, secsBetween,
      div_mul_cancel₀ _ (by norm_num)]
    push_cast
    rw [add_sub_cancel]
    exact_mod_cast hle

/-- Keyframes every two seconds with some audio between them. -/
def twoSecondGops : List EncodedPacket :=
  [⟨0, 0, true, [1], false⟩, ⟨900, 900, true, [2], true⟩, ⟨180000, 180000, true, [3], false⟩,
    ⟨360000, 360000, true, [4], false⟩, ⟨360900, 360900, true, [5], true⟩,
    ⟨540000, 540000, true, [6], false⟩, ⟨720000, 720000, true, [7], false⟩]

/-- With a target of three seconds they make segments of three to five. -/
theorem segment_duration_bounds_twoSecondGops :
    let acc := new ⟨1⟩ .low 3 640 360 800 96 [] [] 30
    (∀ s ∈ (acc.pushAll twoSecondGops).1, 3 ≤ s.durationSecs ∧ s.durationSecs < 3 + 2) ∧
      (acc.pushAll twoSecondGops).1.IsChain fun s s' =>
        (s.ptsStart.toInt : ℚ) + s.durationSecs * 90000 ≤ s'.ptsStart.toInt :=
  segment_duration_bounds ⟨1⟩ .low 640 360 800 96 [] [] 30 3 2 (by norm_num) twoSecondGops
    (by decide) (by decide) (by decide +kernel)

end StreamInfa.Transcode
