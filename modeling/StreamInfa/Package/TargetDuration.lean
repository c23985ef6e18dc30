import StreamInfa.Package.SlidingWindow

/-!
EXT-X-TARGETDURATION over the playlists of a rendition.

An index keeps the longest duration it has seen (`Windowed.maxDuration`), but the target of
a playlist is computed from the segments in the window. `covers_succ_iff` says what one more
segment must satisfy for the target to stay that of all segments so far: its duration fits
32 bits, and if a segment leaves the window, one that stays is as long when rounded up.

**`target_covers_iff`**: the target is the rounded-up maximum of all segments added, after
every call of a run, exactly when every call satisfies that (`KeepsTarget`).
-/

namespace StreamInfa.Package

/-! ### Rounded-up maxima -/

section Durations

variable {durations more window rest : List ℚ} {x d first : ℚ}

theorem one_le_roundedUp (durations : List ℚ) : 1 ≤ roundedUp durations :=
  (roundedUp_le_iff.mp le_rfl).1

theorem roundedUp_le_of_subset (h : ∀ d ∈ window, d ∈ durations) :
    roundedUp window ≤ roundedUp durations :=
  roundedUp_le_iff.mpr ⟨one_le_roundedUp _, fun d hd => le_roundedUp (h d hd)⟩

theorem longest_eq_zero_or_mem (durations : List ℚ) :
    longest durations = 0 ∨ longest durations ∈ durations := by
  induction durations using List.reverseRecOn with
  | nil => exact .inl rfl
  | append_singleton durations d ih =>
    rw [longest_concat]
    split
    · exact .inr (List.mem_append_right _ List.mem_cons_self)
    · exact ih.imp_right (List.mem_append_left _)

/-- What is below the rounded-up maximum is below one of the durations rounded up. -/
theorem le_roundedUp_iff : x ≤ roundedUp durations ↔ x ≤ 1 ∨ ∃ d ∈ durations, x ≤ d.ceil := by
  constructor
  · intro h
    rcases Nat.le_total (longest durations).ceil.toNat 1 with hone | hmany
    · rw [roundedUp, Nat.max_eq_right hone, Nat.cast_one] at h
      exact .inl h
    · rw [roundedUp, Nat.max_eq_left hmany] at h
      have hpos : 0 ≤ (longest durations).ceil := by omega
      have hcast : (((longest durations).ceil.toNat : ℤ) : ℚ) = (longest durations).ceil := by
        rw [Int.toNat_of_nonneg hpos]
      rcases longest_eq_zero_or_mem durations with hzero | hmem
      · rw [hzero] at hmany
        exact absurd hmany (by decide)
      · exact .inr ⟨_, hmem, h.trans (le_of_eq hcast)⟩
  · rintro (hone | ⟨d, hd, hle⟩)
    · exact hone.trans (by exact_mod_cast one_le_roundedUp durations)
    · have hceil : d.ceil ≤ (roundedUp durations : ℤ) :=
        Rat.ceil_le_iff.mpr (by exact_mod_cast le_roundedUp hd)
      exact hle.trans (by exact_mod_cast hceil)

/-- The target written for the window is that of all durations: they fit, and none is above
the rounded-up maximum of the window. -/
theorem target_eq_iff (h : ∀ d ∈ window, d ∈ durations) :
    min (roundedUp window) u32Max = roundedUp durations ↔
      (∀ d ∈ durations, d ≤ u32Max) ∧ ∀ d ∈ durations, d ≤ roundedUp window := by
  have hle := roundedUp_le_of_subset h
  constructor
  · intro heq
    have hfits : roundedUp durations ≤ u32Max := heq ▸ Nat.min_le_right _ _
    have hsame : roundedUp durations ≤ roundedUp window := heq ▸ Nat.min_le_left _ _
    exact ⟨(roundedUp_le_iff.mp hfits).2, (roundedUp_le_iff.mp hsame).2⟩
  · rintro ⟨hfits, hbelow⟩
    have hmax : roundedUp durations ≤ u32Max := roundedUp_le_iff.mpr ⟨by decide, hfits⟩
    have hsame : roundedUp durations ≤ roundedUp window :=
      roundedUp_le_iff.mpr ⟨one_le_roundedUp _, hbelow⟩
    omega

/-- One more duration that evicts none. -/
theorem target_push_iff (h : ∀ x ∈ window, x ∈ durations)
    (heq : min (roundedUp window) u32Max = roundedUp durations) :
    min (roundedUp (window ++ [d])) u32Max = roundedUp (durations ++ [d]) ↔ d ≤ u32Max := by
  obtain ⟨hfits, hbelow⟩ := (target_eq_iff h).mp heq
  have hmono : roundedUp window ≤ roundedUp (window ++ [d]) :=
    roundedUp_le_of_subset fun x hx => List.mem_append_left _ hx
  have hsub : ∀ x ∈ window ++ [d], x ∈ durations ++ [d] := fun x hx =>
    List.mem_append.mpr ((List.mem_append.mp hx).imp_left (h x))
  rw [target_eq_iff hsub, List.forall_mem_append, List.forall_mem_append, List.forall_mem_singleton,
    List.forall_mem_singleton]
  constructor
  · exact fun hall => hall.1.2
  · intro hd
    refine ⟨⟨hfits, hd⟩, fun x hx => ?_, ?_⟩
    · exact (hbelow x hx).trans (by exact_mod_cast hmono)
    · exact le_roundedUp (List.mem_append_right _ List.mem_cons_self)

/-- One more duration that evicts the first. -/
theorem target_evict_iff (h : ∀ x ∈ window, x ∈ durations)
    (heq : min (roundedUp window) u32Max = roundedUp durations)
    (hcons : window ++ [d] = first :: rest) :
    min (roundedUp rest) u32Max = roundedUp (durations ++ [d]) ↔
      d ≤ u32Max ∧ (first ≤ 1 ∨ ∃ y ∈ rest, first ≤ y.ceil) := by
  obtain ⟨hfits, hbelow⟩ := (target_eq_iff h).mp heq
  have hsub : ∀ x ∈ first :: rest, x ∈ durations ++ [d] := by
    rw [← hcons]
    exact fun x hx => List.mem_append.mpr ((List.mem_append.mp hx).imp_left (h x))
  rw [target_eq_iff fun x hx => hsub x (List.mem_cons_of_mem _ hx), ← le_roundedUp_iff,
    List.forall_mem_append, List.forall_mem_singleton]
  constructor
  · rintro ⟨⟨-, hd⟩, hall⟩
    exact ⟨hd, hall first (hsub first List.mem_cons_self)⟩
  · rintro ⟨hd, hfirst⟩
    refine ⟨⟨hfits, hd⟩, ?_⟩
    -- Everything in the window before the eviction is below the rest.
    have hrest : roundedUp (window ++ [d]) ≤ roundedUp rest := by
      rw [hcons]
      refine roundedUp_le_iff.mpr ⟨one_le_roundedUp _, List.forall_mem_cons.mpr ⟨hfirst, ?_⟩⟩
      exact fun x hx => le_roundedUp hx
    have hwindow : roundedUp window ≤ roundedUp rest :=
      (roundedUp_le_of_subset fun x hx => List.mem_append_left _ hx).trans hrest
    rw [List.forall_mem_append, List.forall_mem_singleton]
    constructor
    · exact fun x hx => (hbelow x hx).trans (by exact_mod_cast hwindow)
    · exact (le_roundedUp (List.mem_append_right window List.mem_cons_self)).trans
        (by exact_mod_cast hrest)

end Durations

/-! ### One more segment -/

/-- The new duration fits the target, and when the window is full, the segment that leaves it
is not longer than one that stays is when rounded up. -/
def KeepsTarget (index : SegmentIndex) (s : NewSegment) : Prop :=
  s.durationSecs ≤ u32Max ∧
    ∀ w first rest, index.liveWindowSegments = some w → w ≤ index.segments.length →
      index.durations ++ [s.durationSecs] = first :: rest →
        first ≤ 1 ∨ ∃ d ∈ rest, first ≤ d.ceil

/-- A call appends its duration, and a full window loses its first. -/
theorem durations_add_of_full {index : SegmentIndex} (s : NewSegment) (h : index.Full) :
    (index.add s).1.durations = (index.durations ++ [s.durationSecs]).tail := by
  rw [SegmentIndex.add, SegmentIndex.addSegment_of_full _ _ _ _ h, SegmentIndex.durations,
    SegmentIndex.durations, List.map_tail]
  exact congrArg List.tail List.map_append

theorem durations_add_of_not_full {index : SegmentIndex} (s : NewSegment) (h : ¬index.Full) :
    (index.add s).1.durations = index.durations ++ [s.durationSecs] := by
  rw [SegmentIndex.add, SegmentIndex.addSegment_of_not_full _ _ _ _ h]
  exact List.map_append

/-- The target stays that of all segments exactly when the call keeps it. -/
theorem covers_succ_iff {index : SegmentIndex} {durations : List ℚ} (s : NewSegment)
    (h : ∀ d ∈ index.durations, d ∈ durations)
    (heq : min (roundedUp index.durations) u32Max = roundedUp durations) :
    min (roundedUp (index.add s).1.durations) u32Max = roundedUp (durations ++ [s.durationSecs]) ↔
      KeepsTarget index s := by
  rw [KeepsTarget]
  by_cases hfull : index.Full
  · obtain ⟨w, hw, hle⟩ := id hfull
    obtain ⟨first, rest, hcons⟩ : ∃ first rest, index.durations ++ [s.durationSecs] =
        first :: rest := List.exists_cons_of_ne_nil (by simp)
    rw [durations_add_of_full s hfull, hcons, List.tail_cons, target_evict_iff h heq hcons]
    refine and_congr_right fun _ => ⟨?_, fun hall => hall w first rest hw hle rfl⟩
    rintro hfirst w' first' rest' - - hcons'
    obtain ⟨rfl, rfl⟩ := List.cons.inj hcons'
    exact hfirst
  · rw [durations_add_of_not_full s hfull, target_push_iff h heq]
    refine ⟨fun hd => ⟨hd, ?_⟩, fun hall => hall.1⟩
    intro w first rest hw hle
    exact absurd ⟨w, hw, hle⟩ hfull

/-! ### Runs -/

section Run

variable (streamId : StreamId) (rendition : RenditionId) (window : Option ℕ)
  (added : List NewSegment)

/-- The target of every playlist is the rounded-up maximum of all segments added so far, so
that it never decreases. -/
structure TargetCovers : Prop where
  covers : ∀ n ≤ added.length, ∀ hlsVersion isVod isFinished,
    playlistTag targetTag ((after streamId rendition window added n).1.generatePlaylist
        hlsVersion isVod isFinished) =
      some (decimal (roundedUp ((added.take n).map (·.durationSecs))))
  monotone : ∀ m n a b hlsVersion isVod isFinished hlsVersion' isVod' isFinished',
    m ≤ n → n ≤ added.length →
    playlistTag targetTag ((after streamId rendition window added m).1.generatePlaylist
        hlsVersion isVod isFinished) = some (decimal a) →
    playlistTag targetTag ((after streamId rendition window added n).1.generatePlaylist
        hlsVersion' isVod' isFinished') = some (decimal b) → a ≤ b

variable {streamId rendition window added}

theorem covers_after_iff :
    (∀ n ≤ added.length, min (roundedUp (after streamId rendition window added n).1.durations)
        u32Max = roundedUp ((added.take n).map (·.durationSecs))) ↔
      ∀ n (hn : n < added.length), KeepsTarget (after streamId rendition window added n).1
        added[n] := by
  have hstep : ∀ n (hn : n < added.length),
      min (roundedUp (after streamId rendition window added n).1.durations) u32Max =
        roundedUp ((added.take n).map (·.durationSecs)) →
      (min (roundedUp (after streamId rendition window added (n + 1)).1.durations) u32Max =
          roundedUp ((added.take (n + 1)).map (·.durationSecs)) ↔
        KeepsTarget (after streamId rendition window added n).1 added[n]) := by
    intro n hn heq
    have htake : added.take (n + 1) = added.take n ++ [added[n]] :=
      List.take_succ_eq_append_getElem hn
    have hafter : (after streamId rendition window added (n + 1)).1 =
        ((after streamId rendition window added n).1.add added[n]).1 := by
      rw [after, htake, SegmentIndex.addAll_concat]
      rfl
    rw [hafter, htake, List.map_append, List.map_singleton]
    exact covers_succ_iff added[n] (fun d hd => (windowed_after _ _ _ _ n).mem_durations hd) heq
  constructor
  · intro hall n hn
    exact (hstep n hn (hall n hn.le)).mp (hall (n + 1) hn)
  · intro hall n
    induction n with
    | zero => exact fun _ => rfl
    | succ n ih => exact fun hn => (hstep n hn (ih (Nat.le_of_lt hn))).mpr (hall n hn)

end Run

/-- **The target duration covers every segment ever listed** exactly in the runs whose calls
keep it: for every window and every sequence of `add_segment` calls, the target of each
playlist is the rounded-up maximum of all segments added so far if and only if every
duration fits 32 bits and no segment leaves the window that is longer than those that stay
are when rounded up. -/
theorem target_covers_iff (streamId : StreamId) (rendition : RenditionId) (window : Option ℕ)
    (added : List NewSegment) :
    TargetCovers streamId rendition window added ↔
      ∀ n (hn : n < added.length), KeepsTarget (after streamId rendition window added n).1
        added[n] := by
  rw [← covers_after_iff]
  constructor
  · intro h n hn
    have htag := h.covers n hn 7 false false
    rw [playlistTag_target, Option.some.injEq] at htag
    exact decimal_injective htag
  · intro h
    constructor
    · intro n hn hlsVersion isVod isFinished
      rw [playlistTag_target, h n hn]
    · intro m n a b hlsVersion isVod isFinished hlsVersion' isVod' isFinished' hmn hn ha hb
      rw [playlistTag_target, h m (hmn.trans hn), Option.some.injEq] at ha
      rw [playlistTag_target, h n hn, Option.some.injEq] at hb
      rw [← decimal_injective ha, ← decimal_injective hb]
      refine roundedUp_le_of_subset fun d hd => ?_
      obtain ⟨s, hs, rfl⟩ := List.mem_map.mp hd
      exact List.mem_map.mpr ⟨s, (List.take_subset_take_left added hmn) hs, rfl⟩

/-- Behind the third segment the first is out of the window, and the target drops from eight
seconds to six. -/
theorem target_drops_behind_longest :
    playlistTag targetTag
        ((after ⟨1⟩ .high (some 2) threeSegments 2).1.generatePlaylist 7 false false) =
        some "8".toList ∧
      playlistTag targetTag
        ((after ⟨1⟩ .high (some 2) threeSegments 3).1.generatePlaylist 7 false false) =
        some "6".toList ∧
      ¬TargetCovers ⟨1⟩ .high (some 2) threeSegments := by
  have height : playlistTag targetTag
      ((after ⟨1⟩ .high (some 2) threeSegments 2).1.generatePlaylist 7 false false) =
      some (decimal 8) := by
    rw [playlistTag_target]
    decide +kernel
  have hsix : playlistTag targetTag
      ((after ⟨1⟩ .high (some 2) threeSegments 3).1.generatePlaylist 7 false false) =
      some (decimal 6) := by
    rw [playlistTag_target]
    decide +kernel
  refine ⟨height, hsix, fun h => ?_⟩
  have hle := h.monotone 2 3 8 6 7 false false 7 false false (by decide) (by decide) height hsix
  exact absurd hle (by decide)

end StreamInfa.Package
