import StreamInfa.Transcode.Conservation

/-!
Where segments end in a stream of steady cadence.

The file feeder stamps the frames of an upload by their position: one every `ptsStep` ticks, and a
keyframe every `keyframeEvery` frames. So the segments are cut at positions that depend on the
target duration alone. `cutStart k j` is the number of frames in front of the `j`-th cut, for a
target of three times `k` seconds, and **`steady_cut`** says that the accumulator cuts there and
nowhere else. A stream that ends right behind a cut has nothing left to flush.
-/

namespace StreamInfa.Ingest

open Transcode

/-- The distance of two frames: `(90000.0 / 30.0) as i64`. -/
def ptsStep : ℕ := 3000

/-- The distance of two keyframes, in frames. -/
def keyframeEvery : ℕ := 60

/-- The packets of a steady stream, at their positions. -/
def Steady (packets : List EncodedPacket) : Prop :=
  ∀ i packet, packets[i]? = some packet → packet.isAudio = false ∧
    packet.pts = Int64.ofNat (i * ptsStep) ∧ packet.keyframe = decide (i % keyframeEvery = 0)

/-- How many frames come before the `j`-th cut, for a target of `3 * k` seconds. The first segment
starts with a keyframe and the later ones start right behind one, so they are up to a keyframe
distance longer. -/
def cutStart (k : ℕ) : ℕ → ℕ
  | 0 => 0
  | j + 1 => keyframeEvery * ((3 * k + 1) / 2) + 1 + keyframeEvery * (3 * k / 2 + 1) * j

/-- A segment that starts at a cut ends with the frame in front of the next one: the first keyframe
that is a target duration past its start. -/
theorem cutStart_step {k j n : ℕ} (hstart : cutStart k j ≤ n) (hnext : n < cutStart k (j + 1)) :
    n % keyframeEvery = 0 ∧ cutStart k j + 90 * k ≤ n ↔ n + 1 = cutStart k (j + 1) := by
  cases j with
  | zero =>
    simp only [cutStart, keyframeEvery] at *
    omega
  | succ j =>
    -- All cuts but the first are right behind a keyframe.
    obtain ⟨passed, hpassed⟩ : ∃ m, keyframeEvery * (3 * k / 2 + 1) * j = 60 * m :=
      ⟨(3 * k / 2 + 1) * j, Nat.mul_assoc ..⟩
    have hsucc : keyframeEvery * (3 * k / 2 + 1) * (j + 1) =
        60 * passed + 60 * (3 * k / 2 + 1) := by
      rw [Nat.mul_succ, hpassed]
      rfl
    simp only [cutStart, hpassed, hsucc] at *
    simp only [keyframeEvery] at *
    omega

/-- No segment is longer than the target by more than a keyframe distance. -/
theorem cutStart_succ_le (k j : ℕ) : cutStart k (j + 1) ≤ cutStart k j + (90 * k + 61) := by
  cases j with
  | zero =>
    simp only [cutStart, keyframeEvery]
    omega
  | succ j =>
    simp only [cutStart, keyframeEvery, Nat.mul_succ]
    omega

theorem cutStart_lt (k j : ℕ) : cutStart k j < cutStart k (j + 1) := by
  cases j with
  | zero => exact Nat.succ_pos _
  | succ j =>
    simp only [cutStart, keyframeEvery, Nat.mul_succ]
    omega

theorem cutStart_strictMono (k : ℕ) : StrictMono (cutStart k) :=
  strictMono_nat_of_lt_succ (cutStart_lt k)

section Steady

variable {packets : List EncodedPacket} {packet : EncodedPacket} {k : ℕ}

theorem Steady.of_concat (h : Steady (packets ++ [packet])) : Steady packets := by
  intro i p hp
  have hi : i < packets.length := (List.getElem?_eq_some_iff.mp hp).1
  exact h i p (by rw [List.getElem?_append_left hi, hp])

theorem Steady.last (h : Steady (packets ++ [packet])) : packet.isAudio = false ∧
    packet.pts = Int64.ofNat (packets.length * ptsStep) ∧
      packet.keyframe = decide (packets.length % keyframeEvery = 0) :=
  h packets.length packet (by simp)

/-- Timestamps of a stream that is not absurdly long do not wrap. -/
theorem toInt_sub_pts {a n : ℕ} (ha : a ≤ n) (hn : n ≤ 2 ^ 50) :
    (Int64.ofNat (n * ptsStep) - Int64.ofNat (a * ptsStep)).toInt = (n - a : ℕ) * 3000 := by
  have hsmall : ∀ i, i ≤ 2 ^ 50 → (Int64.ofNat (i * ptsStep)).toInt = (i * 3000 : ℕ) := by
    intro i hi
    exact Int64.toInt_ofNat_of_lt (by simp only [ptsStep]; omega)
  rw [Int64.toInt_sub, hsmall n hn, hsmall a (ha.trans hn)]
  rw [Int.bmod_eq_of_le_mul_two (by omega) (by omega)]
  omega

/-- The boundary check on the frames from `a` on, when the next one arrives. -/
theorem closesSegment_steady (h : Steady (packets ++ [packet])) {a : ℕ} (ha : a ≤ packets.length)
    (hlen : packets.length ≤ 2 ^ 50) :
    closesSegment ((k : ℚ) * 3) (packets.drop a ++ [packet]) = true ↔
      packets.length % keyframeEvery = 0 ∧ a + 90 * k ≤ packets.length := by
  obtain ⟨haudio, hpts, hkey⟩ := h.last
  obtain ⟨first, hfirst, hstart⟩ : ∃ first, (packets.drop a ++ [packet]).head? = some first ∧
      first.pts = Int64.ofNat (a * ptsStep) := by
    rcases Nat.lt_or_eq_of_le ha with hlt | rfl
    · have hget : packets[a]? = some packets[a] := List.getElem?_eq_getElem hlt
      refine ⟨packets[a], ?_, (h.of_concat a _ hget).2.1⟩
      rw [List.head?_append, List.head?_drop, hget]
      rfl
    · refine ⟨packet, ?_, hpts⟩
      rw [List.drop_length, List.nil_append]
      rfl
  have hreach : (k : ℚ) * 3 ≤ ticksToSecs (packet.pts - first.pts) ↔
      a + 90 * k ≤ packets.length := by
    rw [hpts, hstart, ticksToSecs, toInt_sub_pts ha hlen, le_div_iff₀ (by norm_num)]
    constructor
    · intro hle
      have hnat : k * 3 * 90000 ≤ (packets.length - a) * 3000 := by exact_mod_cast hle
      omega
    · intro hle
      have hnat : k * 3 * 90000 ≤ (packets.length - a) * 3000 := by omega
      exact_mod_cast hnat
  simp only [closesSegment, hfirst, List.getLast?_concat, haudio, hkey, Bool.not_false,
    Bool.true_and, Bool.and_eq_true, decide_eq_true_eq, hreach]

/-- **The cuts of a steady stream.** The frames since the last cut are open, the groups in front of
them are the segments that were closed, and none of these is longer than the target by more than a
keyframe distance. -/
theorem steady_cut (k : ℕ) (h : Steady packets) (hlen : packets.length ≤ 2 ^ 50) :
    ∃ j, cutStart k j ≤ packets.length ∧ packets.length < cutStart k (j + 1) ∧
      (cutFrom (closesSegment ((k : ℚ) * 3)) [] packets).2 = packets.drop (cutStart k j) ∧
      ∀ g ∈ (cutFrom (closesSegment ((k : ℚ) * 3)) [] packets).1, g.length ≤ 90 * k + 61 := by
  induction packets using List.reverseRecOn with
  | nil => exact ⟨0, Nat.le_refl 0, Nat.succ_pos _, rfl, fun g hg => absurd hg List.not_mem_nil⟩
  | append_singleton packets packet ih =>
    rw [List.length_append, List.length_singleton] at hlen ⊢
    obtain ⟨j, hstart, hnext, hrest, hgroups⟩ := ih h.of_concat (by omega)
    have hcloses := (closesSegment_steady (k := k) h hstart (by omega)).trans
      (cutStart_step hstart hnext)
    rw [cutFrom_append, hrest]
    cases hc : closesSegment ((k : ℚ) * 3) (packets.drop (cutStart k j) ++ [packet]) with
    | true =>
      have hcut := hcloses.mp hc
      rw [cutFrom_cons_of_closes hc]
      refine ⟨j + 1, hcut.symm.le, hcut ▸ cutStart_lt k (j + 1), ?_, fun g hg => ?_⟩
      · rw [← hcut]
        exact (List.drop_eq_nil_of_le (by rw [List.length_append]; rfl)).symm
      · rcases List.mem_append.mp hg with hg | hg
        · exact hgroups g hg
        · obtain rfl := List.mem_singleton.mp hg
          have hle := cutStart_succ_le k j
          rw [List.length_append, List.length_drop, List.length_singleton]
          omega
    | false =>
      have hno : packets.length + 1 ≠ cutStart k (j + 1) := fun heq => by
        rw [hcloses.mpr heq] at hc
        cases hc
      rw [cutFrom_cons_of_not_closes hc]
      refine ⟨j, by omega, by omega, ?_, fun g hg => ?_⟩
      · rw [List.drop_append_of_le_length hstart]
        rfl
      · rw [cutFrom, List.append_nil] at hg
        exact hgroups g hg

/-- Nothing is left open exactly if the stream ends at a cut. -/
theorem openTail_eq_nil_iff (h : Steady packets) (hlen : packets.length ≤ 2 ^ 50) :
    openTail ((k : ℚ) * 3) packets = [] ↔ ∃ j, packets.length = cutStart k j := by
  obtain ⟨j, hstart, hnext, hrest, -⟩ := steady_cut k h hlen
  rw [openTail, hrest, List.drop_eq_nil_iff]
  constructor
  · exact fun hle => ⟨j, hle.antisymm hstart⟩
  · rintro ⟨i, hi⟩
    rw [hi] at hstart hnext ⊢
    have hlt := (cutStart_strictMono k).lt_iff_lt.mp hnext
    exact (cutStart_strictMono k).monotone (Nat.lt_succ_iff.mp hlt)

end Steady

end StreamInfa.Ingest
