import StreamInfa.Ingest.Demuxer

/-!
The byte strings that `FlvDemuxer::extract_nalus` accepts.

`Spells units stray data` is the format: units behind four bytes of length each, and up to
three bytes that are too few for another length. `Spells.unique` says that a byte string is
read in one way at most; `extractNalusFrom_unit` and `extractNalusFrom_stray` follow the
format through the loop, and `spells_or_corrupt` has the byte strings outside it.

**`extractNalus_grammar`** puts them together.
-/

namespace StreamInfa.Ingest

/-! ### The format -/

/-- A unit behind its length. -/
def lengthPrefixed (unit : Bytes) : Bytes := beBytes 4 unit.length ++ unit

/-- `data` is these units, each behind its length, and `stray` behind them. -/
structure Spells (units : List Bytes) (stray data : Bytes) : Prop where
  unit_lt : ∀ unit ∈ units, unit.length < 2 ^ 32
  stray_le : stray.length ≤ 3
  data_eq : data = units.flatMap lengthPrefixed ++ stray

/-- The NAL type of a unit; an empty one has none. -/
def unitType (unit : Bytes) : Option ℕ := unit.head?.map fun header => header.toNat % 32

/-- A unit in Annex B; an empty one is left out. -/
def annexBUnit : Bytes → Bytes
  | [] => []
  | header :: body => startCode ++ header :: body

theorem flatMap_annexBUnit (units : List Bytes) :
    units.flatMap annexBUnit = (units.filter (· ≠ [])).flatMap (startCode ++ ·) := by
  induction units with
  | nil => rfl
  | cons unit units ih =>
    cases unit with
    | nil =>
      rw [List.flatMap_cons, annexBUnit, ih, List.nil_append, List.filter_cons_of_neg (by simp)]
    | cons header body =>
      rw [List.flatMap_cons, annexBUnit, ih, List.filter_cons_of_pos (by simp), List.flatMap_cons]

variable {units : List Bytes} {unit stray data rest : Bytes}

theorem Spells.cons (h : Spells units stray rest) (hlt : unit.length < 2 ^ 32) :
    Spells (unit :: units) stray (lengthPrefixed unit ++ rest) where
  unit_lt := List.forall_mem_cons.mpr ⟨hlt, h.unit_lt⟩
  stray_le := h.stray_le
  data_eq := by rw [List.flatMap_cons, List.append_assoc, ← h.data_eq]

/-- The first unit, and the units of what is behind it. -/
theorem Spells.tail (h : Spells (unit :: units) stray data) :
    ∃ rest, unit.length < 2 ^ 32 ∧ data = lengthPrefixed unit ++ rest ∧
      Spells units stray rest := by
  obtain ⟨hlt, hlts⟩ := List.forall_mem_cons.mp h.unit_lt
  refine ⟨units.flatMap lengthPrefixed ++ stray, hlt, ?_, hlts, h.stray_le, rfl⟩
  rw [h.data_eq, List.flatMap_cons, List.append_assoc]

theorem Spells.nil (h : Spells [] stray data) : data = stray := h.data_eq

/-- Fewer than four bytes hold no length. -/
theorem takeExact_stray (h : stray.length ≤ 3) : takeExact 4 stray = none := by
  rw [takeExact, if_neg (by omega)]

theorem takeExact_lengthPrefixed (unit rest : Bytes) :
    takeExact 4 (lengthPrefixed unit ++ rest) =
      some (beBytes 4 unit.length, unit ++ rest) := by
  rw [lengthPrefixed, List.append_assoc, takeExact_beBytes]

theorem beNat_length (hlt : unit.length < 2 ^ 32) :
    beNat (beBytes 4 unit.length) = unit.length :=
  beNat_beBytes_of_lt hlt

/-- A length and the unit it announces. -/
theorem eq_lengthPrefixed {len left : Bytes} (hlen : takeExact 4 data = some (len, left))
    (hunit : takeExact (beNat len) left = some (unit, rest)) :
    unit.length < 2 ^ 32 ∧ data = lengthPrefixed unit ++ rest := by
  obtain ⟨rfl, hfour⟩ := takeExact_eq_some hlen
  obtain ⟨rfl, hlength⟩ := takeExact_eq_some hunit
  have hword := beNat_lt len
  rw [hfour] at hword
  constructor
  · rw [hlength]
    exact hword
  · rw [lengthPrefixed, hlength, ← hfour, beBytes_beNat, List.append_assoc]

/-- A byte string is read in one way. -/
theorem Spells.unique {units' : List Bytes} {stray' : Bytes} (h : Spells units stray data)
    (h' : Spells units' stray' data) : units' = units ∧ stray' = stray := by
  induction units generalizing units' data with
  | nil =>
    obtain rfl := h.nil
    cases units' with
    | nil => exact ⟨rfl, h'.nil.symm⟩
    | cons unit' units' =>
      obtain ⟨rest', -, rfl, -⟩ := h'.tail
      have hstray := takeExact_stray h.stray_le
      rw [takeExact_lengthPrefixed] at hstray
      exact absurd hstray (by simp)
  | cons unit units ih =>
    obtain ⟨rest, hlt, rfl, hrest⟩ := h.tail
    cases units' with
    | nil =>
      have hstray := takeExact_stray h'.stray_le
      rw [← h'.nil, takeExact_lengthPrefixed] at hstray
      exact absurd hstray (by simp)
    | cons unit' units' =>
      obtain ⟨rest', hlt', heq, hrest'⟩ := h'.tail
      -- The same four bytes announce both units, so they have the same length.
      have hboth := takeExact_lengthPrefixed unit rest
      rw [heq, takeExact_lengthPrefixed] at hboth
      obtain ⟨hlen, happend⟩ := Prod.mk.inj (Option.some.inj hboth)
      have hlength : unit'.length = unit.length := by
        rw [← beNat_length hlt', hlen, beNat_length hlt]
      obtain ⟨rfl, rfl⟩ := List.append_inj happend hlength
      obtain ⟨rfl, rfl⟩ := ih hrest hrest'
      exact ⟨rfl, rfl⟩

/-! ### The loop on the format -/

theorem extractNalusFrom_stray (h : stray.length ≤ 3) (pos : ℕ) :
    extractNalusFrom pos stray = .ok (false, []) := by
  rw [extractNalusFrom]
  split
  · rfl
  · rename_i len left hlen
    rw [takeExact_stray h] at hlen
    exact absurd hlen (by simp)

/-- One round of the loop. -/
theorem extractNalusFrom_unit (hlt : unit.length < 2 ^ 32) (pos : ℕ) (rest : Bytes) :
    extractNalusFrom pos (lengthPrefixed unit ++ rest) =
      (extractNalusFrom (pos + 4 + unit.length) rest).map fun r =>
        (decide (unitType unit = some nalTypeIdr) || r.1, annexBUnit unit ++ r.2) := by
  rw [extractNalusFrom]
  split
  · rename_i hlen
    rw [takeExact_lengthPrefixed] at hlen
    exact absurd hlen (by simp)
  · rename_i len left hlen
    rw [takeExact_lengthPrefixed] at hlen
    obtain ⟨rfl, rfl⟩ := Prod.mk.inj (Option.some.inj hlen)
    have hunit : takeExact (beNat (beBytes 4 unit.length)) (unit ++ rest) = some (unit, rest) := by
      rw [beNat_length hlt, takeExact_append rest rfl]
    split
    · rename_i hnone
      exact absurd (hunit.symm.trans hnone) (by simp)
    · rename_i unit' rest' hsome
      obtain ⟨rfl, rfl⟩ := Prod.mk.inj (Option.some.inj (hunit.symm.trans hsome))
      rw [beNat_length hlt]
      cases extractNalusFrom (pos + 4 + unit.length) rest with
      | error e => rfl
      | ok r =>
        cases unit with
        | nil => rfl
        | cons header body =>
          simp only [Except.map, unitType, annexBUnit, List.head?_cons, Option.map_some,
            Option.some.injEq, beq_eq_decide]
          rfl

/-- The units of the format come out in Annex B, and an IDR slice among them is seen. -/
theorem extractNalusFrom_of_spells (h : Spells units stray data) (pos : ℕ) :
    extractNalusFrom pos data =
      .ok (decide (∃ unit ∈ units, unitType unit = some nalTypeIdr),
        units.flatMap annexBUnit) := by
  induction units generalizing data pos with
  | nil =>
    obtain rfl := h.nil
    rw [extractNalusFrom_stray h.stray_le]
    simp
  | cons unit units ih =>
    obtain ⟨rest, hlt, rfl, hrest⟩ := h.tail
    rw [extractNalusFrom_unit hlt, ih hrest, Except.map, List.flatMap_cons]
    simp only [List.exists_mem_cons_iff, Bool.decide_or]

/-- A byte string is of the format, or a length in it announces more than there is. -/
theorem spells_or_corrupt (pos : ℕ) (data : Bytes) :
    (∃ units stray, Spells units stray data) ∨
      ∃ reason, extractNalusFrom pos data = .error (.corruptNalu reason) := by
  induction hn : data.length using Nat.strong_induction_on generalizing pos data with
  | _ n ih =>
    cases hlen : takeExact 4 data with
    | none =>
      refine .inl ⟨[], data, ?_, ?_, rfl⟩
      · exact fun unit hmem => absurd hmem List.not_mem_nil
      · by_contra hlong
        rw [takeExact, if_pos (by omega)] at hlen
        exact absurd hlen (by simp)
    | some p =>
      obtain ⟨len, left⟩ := p
      cases hunit : takeExact (beNat len) left with
      | none =>
        right
        rw [extractNalusFrom]
        split
        · rename_i hnone
          exact absurd (hlen.symm.trans hnone) (by simp)
        · rename_i len' left' hsome
          obtain ⟨rfl, rfl⟩ := Prod.mk.inj (Option.some.inj (hlen.symm.trans hsome))
          split
          · exact ⟨_, rfl⟩
          · rename_i unit rest hsome'
            exact absurd (hunit.symm.trans hsome') (by simp)
      | some q =>
        obtain ⟨unit, rest⟩ := q
        obtain ⟨hlt, rfl⟩ := eq_lengthPrefixed hlen hunit
        have hshort : rest.length < n := by
          rw [← hn, List.length_append, lengthPrefixed, List.length_append, length_beBytes]
          omega
        rcases ih _ hshort (pos + 4 + unit.length) rest rfl with
          ⟨units, stray, hrest⟩ | ⟨reason, he⟩
        · exact .inl ⟨unit :: units, stray, hrest.cons hlt⟩
        · refine .inr ⟨reason, ?_⟩
          rw [extractNalusFrom_unit hlt, he]
          rfl

/-- **NAL units are extracted from exactly their format**: a byte string is accepted if and
only if it is a sequence of units behind four bytes of length each, with up to three bytes
behind them. Units and stray bytes are then unique, the output is the non-empty units in
Annex B, and the keyframe flag says whether one of them is an IDR slice. Every other byte
string is a corrupt NALU. -/
theorem extractNalus_grammar (data : Bytes) :
    ((∃ out, extractNalus data = .ok out) ↔ ∃ units stray, Spells units stray data) ∧
      (∀ units stray, Spells units stray data →
        (∀ units' stray', Spells units' stray' data → units' = units ∧ stray' = stray) ∧
          ∀ keyframe output, extractNalus data = .ok (keyframe, output) →
            (keyframe = true ↔ ∃ unit ∈ units, unitType unit = some nalTypeIdr) ∧
              output = (units.filter (· ≠ [])).flatMap (startCode ++ ·)) ∧
      ((¬∃ units stray, Spells units stray data) →
        ∃ reason, extractNalus data = .error (.corruptNalu reason)) := by
  refine ⟨⟨?_, ?_⟩, ?_, ?_⟩
  · rintro ⟨out, hok⟩
    refine (spells_or_corrupt 0 data).resolve_right ?_
    rintro ⟨reason, herror⟩
    exact absurd (hok.symm.trans herror) (by simp)
  · rintro ⟨units, stray, h⟩
    exact ⟨_, extractNalusFrom_of_spells h 0⟩
  · intro units stray h
    refine ⟨fun units' stray' h' => h.unique h', fun keyframe output hok => ?_⟩
    have hout := (extractNalusFrom_of_spells h 0).symm.trans hok
    obtain ⟨rfl, rfl⟩ := Prod.mk.inj (Except.ok.inj hout)
    exact ⟨decide_eq_true_iff, flatMap_annexBUnit units⟩
  · exact (spells_or_corrupt 0 data).resolve_left

end StreamInfa.Ingest
