import StreamInfa.Lib.Bytes
import Mathlib.Data.Char
import Mathlib.Data.List.Lex
import Mathlib.Data.List.TakeWhile
import Mathlib.Data.Rat.Floor

/-!
Text: strings as character sequences, their UTF-8 bytes, lines and decimal
numerals.

* `encodeUtf8` / `fromUtf8` / `fromUtf8Lossy` are the conversions between a
  string and its bytes; `fromUtf8Lossy` puts one U+FFFD for each maximal invalid
  prefix, and inverts `encodeUtf8` (`fromUtf8Lossy_encodeUtf8`).
* `sliceTo` takes the first bytes of a text, where they end with a character
  (`sliceTo_ne_none_iff`).
* `unlines` ends every line with a newline and `lines` splits at newlines,
  dropping the carriage return of a CR LF. They are inverse on lines that hold
  neither character (`lines_unlines`).
* `decimalPad w n` is the zero-padded decimal numeral; it is injective
  (`decimalPad_injective`) and made of digits.
* `textLe` is the order of strings, lexicographic by characters (`textLe_iff_le`). Numerals
  of one width are ordered as their numbers (`decimalPad_append_lt`).
-/

namespace StreamInfa

/-- A string, as its sequence of characters. -/
abbrev Text := List Char

/-! ### UTF-8 -/

/-- The UTF-8 bytes of a string. -/
def encodeUtf8 (t : Text) : Bytes := t.flatMap String.utf8EncodeChar

/-- The first character of a byte string and the bytes after it; `none` when the
bytes do not start with a valid encoding. -/
def decodeChar (bs : Bytes) : Option (Char × Bytes) :=
  (bs.toByteArray.utf8DecodeChar? 0).map fun c => (c, bs.drop c.utf8Size)

theorem decodeChar_encode (c : Char) (rest : Bytes) :
    decodeChar (String.utf8EncodeChar c ++ rest) = some (c, rest) := by
  have hdrop : (String.utf8EncodeChar c ++ rest).drop c.utf8Size = rest := by
    rw [← String.length_utf8EncodeChar, List.drop_left]
  rw [decodeChar, List.toByteArray_append, ByteArray.utf8DecodeChar?_utf8EncodeChar_append,
    Option.map_some, hdrop]

theorem decodeChar_nil : decodeChar [] = none := by decide +kernel

theorem decodeChar_rest_lt {bs rest : Bytes} {c : Char} (h : decodeChar bs = some (c, rest)) :
    rest.length < bs.length := by
  cases bs with
  | nil => simp [decodeChar_nil] at h
  | cons b bs =>
    obtain ⟨c', -, heq⟩ := Option.map_eq_some_iff.mp h
    obtain ⟨rfl, rfl⟩ := Prod.mk.inj heq
    have := c'.utf8Size_pos
    simp only [List.length_drop, List.length_cons]
    omega

/-- Strict decoding: `none` on any invalid byte. -/
def fromUtf8 (bs : Bytes) : Option Text :=
  match bs with
  | [] => some []
  | b :: bs =>
    match _h : decodeChar (b :: bs) with
    | none => none
    | some (c, rest) => (fromUtf8 rest).map (c :: ·)
termination_by bs.length
decreasing_by exact decodeChar_rest_lt _h

/-- A continuation byte `10xxxxxx`. -/
def isContinuation (b : UInt8) : Bool := b &&& 0xC0 == 0x80

/-- Whether `b₁` may follow the lead byte `b₀` of a three- or four-byte
character: it excludes overlong forms, surrogates and values past U+10FFFF. -/
def secondByteOk (b₀ b₁ : UInt8) : Bool :=
  if b₀ == 0xE0 then 0xA0 ≤ b₁ && b₁ ≤ 0xBF
  else if b₀ == 0xED then 0x80 ≤ b₁ && b₁ ≤ 0x9F
  else if b₀ == 0xF0 then 0x90 ≤ b₁ && b₁ ≤ 0xBF
  else if b₀ == 0xF4 then 0x80 ≤ b₁ && b₁ ≤ 0x8F
  else isContinuation b₁

/-- How many bytes one U+FFFD stands for at the head of bytes that do not decode:
the longest prefix that could have begun a character. -/
def invalidPrefix : Bytes → Nat
  | b₀ :: b₁ :: b₂ :: _ =>
    if 0xE0 ≤ b₀ && b₀ ≤ 0xEF then (if secondByteOk b₀ b₁ then 2 else 1)
    else if 0xF0 ≤ b₀ && b₀ ≤ 0xF4 then
      (if secondByteOk b₀ b₁ then (if isContinuation b₂ then 3 else 2) else 1)
    else 1
  | [b₀, b₁] => if 0xE0 ≤ b₀ && b₀ ≤ 0xF4 && secondByteOk b₀ b₁ then 2 else 1
  | _ => 1

theorem invalidPrefix_pos (bs : Bytes) : 0 < invalidPrefix bs := by
  unfold invalidPrefix
  split <;> (repeat' split) <;> omega

/-- Lossy decoding: every maximal invalid prefix becomes one U+FFFD. -/
def fromUtf8Lossy (bs : Bytes) : Text :=
  match bs with
  | [] => []
  | b :: bs =>
    match _h : decodeChar (b :: bs) with
    | none => Char.ofNat 0xFFFD :: fromUtf8Lossy ((b :: bs).drop (invalidPrefix (b :: bs)))
    | some (c, rest) => c :: fromUtf8Lossy rest
termination_by bs.length
decreasing_by
  · have := invalidPrefix_pos (b :: bs)
    simp only [List.length_drop, List.length_cons]
    omega
  · exact decodeChar_rest_lt _h

/-- The encoding of a text is a first character and the encoding of the rest. -/
theorem encodeUtf8_cons (c : Char) (t : Text) :
    ∃ b bs, encodeUtf8 (c :: t) = b :: bs ∧ decodeChar (b :: bs) = some (c, encodeUtf8 t) := by
  have hcons : encodeUtf8 (c :: t) = String.utf8EncodeChar c ++ encodeUtf8 t := rfl
  obtain ⟨b, bs, hb⟩ := List.exists_cons_of_ne_nil (String.utf8EncodeChar_ne_nil (c := c))
  refine ⟨b, bs ++ encodeUtf8 t, by rw [hcons, hb, List.cons_append], ?_⟩
  rw [← List.cons_append, ← hb, decodeChar_encode]

/-- Decoding inverts encoding. -/
theorem fromUtf8_encodeUtf8 (t : Text) : fromUtf8 (encodeUtf8 t) = some t := by
  induction t with
  | nil => simp [encodeUtf8, fromUtf8]
  | cons c t ih =>
    obtain ⟨b, bs, hbytes, hdec⟩ := encodeUtf8_cons c t
    rw [hbytes, fromUtf8]
    split
    · rename_i hnone
      rw [hdec] at hnone
      cases hnone
    · rename_i c' rest hsome
      rw [hdec] at hsome
      obtain ⟨rfl, rfl⟩ := Prod.mk.inj (Option.some.inj hsome)
      rw [ih, Option.map_some]

/-- Bytes that decode are decoded alike without a replacement. -/
theorem fromUtf8Lossy_of_fromUtf8 {bs : Bytes} {t : Text} (h : fromUtf8 bs = some t) :
    fromUtf8Lossy bs = t := by
  induction bs using fromUtf8.induct generalizing t with
  | case1 =>
    rw [fromUtf8] at h
    rw [fromUtf8Lossy]
    exact Option.some.inj h
  | case2 b bs hnone =>
    rw [fromUtf8] at h
    split at h
    · cases h
    · rename_i hsome
      cases hnone.symm.trans hsome
  | case3 b bs c rest hsome ih =>
    rw [fromUtf8] at h
    rw [fromUtf8Lossy]
    split at h
    · cases h
    · rename_i c' rest' hsome'
      obtain ⟨rfl, rfl⟩ := Prod.mk.inj (Option.some.inj (hsome.symm.trans hsome'))
      obtain ⟨u, hu, rfl⟩ := Option.map_eq_some_iff.mp h
      rw [ih hu]

/-- Lossy decoding inverts encoding. -/
theorem fromUtf8Lossy_encodeUtf8 (t : Text) : fromUtf8Lossy (encodeUtf8 t) = t :=
  fromUtf8Lossy_of_fromUtf8 (fromUtf8_encodeUtf8 t)

/-! ### Slices -/

/-- `str::len`: the number of UTF-8 bytes. -/
def byteLength (t : Text) : ℕ := (encodeUtf8 t).length

theorem byteLength_cons (c : Char) (t : Text) :
    byteLength (c :: t) = c.utf8Size + byteLength t := by
  rw [byteLength, encodeUtf8, List.flatMap_cons, ← encodeUtf8, List.length_append,
    String.length_utf8EncodeChar, byteLength]

/-- `&t[..n]`, the text of the first `n` bytes: a panic unless they end with a character. -/
def sliceTo : Text → ℕ → Option Text
  | _, 0 => some []
  | [], _ + 1 => none
  | c :: t, n + 1 =>
    if c.utf8Size ≤ n + 1 then (sliceTo t (n + 1 - c.utf8Size)).map (c :: ·) else none

/-- The first `n` bytes are those of some characters. -/
def IsCharBoundary (t : Text) (n : ℕ) : Prop := ∃ head, head <+: t ∧ byteLength head = n

theorem isCharBoundary_byteLength (t : Text) : IsCharBoundary t (byteLength t) :=
  ⟨t, List.prefix_rfl, rfl⟩

/-- A slice is taken exactly at a boundary. -/
theorem sliceTo_ne_none_iff {t : Text} {n : ℕ} : sliceTo t n ≠ none ↔ IsCharBoundary t n := by
  induction t generalizing n with
  | nil =>
    cases n with
    | zero => exact ⟨fun _ => ⟨[], List.prefix_rfl, rfl⟩, fun _ => Option.some_ne_none _⟩
    | succ n =>
      refine ⟨fun h => absurd rfl h, ?_⟩
      rintro ⟨head, hhead, hlen⟩
      rw [List.prefix_nil.mp hhead] at hlen
      cases hlen
  | cons c t ih =>
    cases n with
    | zero => exact ⟨fun _ => ⟨[], List.nil_prefix, rfl⟩, fun _ => Option.some_ne_none _⟩
    | succ n =>
      rw [sliceTo]
      have hsplit : IsCharBoundary (c :: t) (n + 1) ↔
          c.utf8Size ≤ n + 1 ∧ IsCharBoundary t (n + 1 - c.utf8Size) := by
        constructor
        · rintro ⟨head, hhead, hlen⟩
          rcases List.prefix_cons_iff.mp hhead with rfl | ⟨head, rfl, htail⟩
          · cases hlen
          · rw [byteLength_cons] at hlen
            exact ⟨by omega, head, htail, by omega⟩
        · rintro ⟨hsize, head, hhead, hlen⟩
          refine ⟨c :: head, (List.prefix_cons_inj c).mpr hhead, ?_⟩
          rw [byteLength_cons]
          omega
      rw [hsplit]
      split
      · rename_i hsize
        rw [ne_eq, Option.map_eq_none_iff, ← ne_eq, ih]
        exact (and_iff_right hsize).symm
      · rename_i hsize
        exact ⟨fun h => absurd rfl h, fun h => absurd h.1 hsize⟩

/-! ### Lines -/

/-- Every line followed by a newline. -/
def unlines (ls : List Text) : Text := ls.flatMap (· ++ ['\n'])

/-- Drop one trailing carriage return. -/
def stripCr (l : Text) : Text := if l.getLast? = some '\r' then l.dropLast else l

/-- Lines of the text `cur ++ t`, where `cur` holds no newline. -/
def linesFrom (cur : Text) : Text → List Text
  | [] => if cur = [] then [] else [cur]
  | c :: cs => if c = '\n' then stripCr cur :: linesFrom [] cs else linesFrom (cur ++ [c]) cs

/-- The lines of a text, without their line endings. -/
def lines (t : Text) : List Text := linesFrom [] t

/-- A text with no line break in it. -/
def SingleLine (l : Text) : Prop := '\n' ∉ l ∧ '\r' ∉ l

instance (l : Text) : Decidable (SingleLine l) := inferInstanceAs (Decidable (_ ∧ _))

theorem SingleLine.append {a b : Text} (ha : SingleLine a) (hb : SingleLine b) :
    SingleLine (a ++ b) := by
  simp only [SingleLine, List.mem_append, not_or]
  exact ⟨⟨ha.1, hb.1⟩, ha.2, hb.2⟩

theorem singleLine_flatten {ls : List Text} (h : ∀ l ∈ ls, SingleLine l) :
    SingleLine ls.flatten := by
  constructor
  · intro hmem
    obtain ⟨l, hl, hn⟩ := List.mem_flatten.mp hmem
    exact (h l hl).1 hn
  · intro hmem
    obtain ⟨l, hl, hr⟩ := List.mem_flatten.mp hmem
    exact (h l hl).2 hr

theorem stripCr_of_singleLine {l : Text} (h : SingleLine l) : stripCr l = l := by
  rw [stripCr, if_neg]
  intro hlast
  exact h.2 (List.mem_of_getLast? hlast)

theorem linesFrom_append_newline {cur l : Text} (t : Text) (h : '\n' ∉ l) :
    linesFrom cur (l ++ '\n' :: t) = stripCr (cur ++ l) :: linesFrom [] t := by
  induction l generalizing cur with
  | nil => simp [linesFrom]
  | cons c l ih =>
    have hc : c ≠ '\n' := fun e => h (e ▸ List.mem_cons_self)
    have hl : '\n' ∉ l := fun m => h (List.mem_cons_of_mem c m)
    rw [List.cons_append, linesFrom, if_neg hc, ih hl, List.append_assoc, List.singleton_append]

/-- Splitting a text written line by line gives the lines back. -/
theorem lines_unlines {ls : List Text} (h : ∀ l ∈ ls, SingleLine l) : lines (unlines ls) = ls := by
  induction ls with
  | nil => rfl
  | cons l ls ih =>
    have hl := h l List.mem_cons_self
    have ih' := ih fun l' hl' => h l' (List.mem_cons_of_mem l hl')
    have hsplit : unlines (l :: ls) = l ++ '\n' :: unlines ls := by
      simp [unlines]
    rw [lines, hsplit, linesFrom_append_newline _ hl.1, List.nil_append, stripCr_of_singleLine hl]
    rw [lines] at ih'
    rw [ih']

/-- Whatever ends at a newline, the lines behind it are lines of the whole text. -/
theorem exists_linesFrom_append_newline (cur l t : Text) :
    ∃ before, linesFrom cur (l ++ '\n' :: t) = before ++ lines t := by
  induction l generalizing cur with
  | nil => exact ⟨[stripCr cur], by simp [linesFrom, lines]⟩
  | cons c l ih =>
    rw [List.cons_append, linesFrom]
    split
    · obtain ⟨before, hbefore⟩ := ih []
      exact ⟨stripCr cur :: before, by rw [hbefore, List.cons_append]⟩
    · exact ih _

/-- A line without line breaks is found among lines that may have some. -/
theorem mem_lines_unlines {ls : List Text} {l : Text} (hl : SingleLine l) (hmem : l ∈ ls) :
    l ∈ lines (unlines ls) := by
  induction ls with
  | nil => cases hmem
  | cons first ls ih =>
    have hsplit : unlines (first :: ls) = first ++ '\n' :: unlines ls := by
      simp [unlines]
    rw [lines, hsplit]
    rcases List.mem_cons.mp hmem with rfl | hrest
    · rw [linesFrom_append_newline _ hl.1, List.nil_append, stripCr_of_singleLine hl]
      exact List.mem_cons_self
    · obtain ⟨before, hbefore⟩ := exists_linesFrom_append_newline [] first (unlines ls)
      rw [hbefore]
      exact List.mem_append_right before (ih hrest)

/-! ### Decimal numerals -/

/-- The decimal numeral of `n`. -/
def decimal (n : Nat) : Text := Nat.toDigits 10 n

/-- The decimal numeral of `n`, padded with zeros to at least `w` digits. -/
def decimalPad (w n : Nat) : Text := (Nat.toDigits 10 n).leftpad w '0'

theorem isDigit_of_mem_decimal {n : Nat} {c : Char} (h : c ∈ decimal n) : c.isDigit :=
  Nat.isDigit_of_mem_toDigits (by decide) (by decide) h

theorem isDigit_of_mem_decimalPad {w n : Nat} {c : Char} (h : c ∈ decimalPad w n) :
    c.isDigit := by
  rcases List.mem_append.mp h with hz | hd
  · rw [List.eq_of_mem_replicate hz]
    decide
  · exact isDigit_of_mem_decimal hd

theorem decimalPad_ne_nil (w n : Nat) : decimalPad w n ≠ [] := by
  intro h
  exact Nat.toDigits_ne_nil (List.append_eq_nil_iff.mp h).2

theorem length_decimalPad {w n : ℕ} (hw : 0 < w) (h : n < 10 ^ w) :
    (decimalPad w n).length = w := by
  have hle : (Nat.toDigits 10 n).length ≤ w := (Nat.length_toDigits_le_iff (by decide) hw).mpr h
  rw [decimalPad, List.length_leftpad, Nat.max_eq_left hle]

/-- Padding keeps the value: the numeral determines the number. -/
theorem ofDigitChars_decimalPad (w n : Nat) : Nat.ofDigitChars 10 (decimalPad w n) 0 = n := by
  rw [decimalPad, List.leftpad, Nat.ofDigitChars_append, Nat.ofDigitChars_replicate_zero,
    Nat.mul_zero, Nat.ofDigitChars_ten_toDigits]

theorem decimalPad_injective {w m n : Nat} (h : decimalPad w m = decimalPad w n) : m = n := by
  rw [← ofDigitChars_decimalPad w m, h, ofDigitChars_decimalPad]

theorem decimal_injective {m n : Nat} (h : decimal m = decimal n) : m = n := by
  have hvalue : ∀ k, Nat.ofDigitChars 10 (decimal k) 0 = k := fun _ => Nat.ofDigitChars_ten_toDigits
  rw [← hvalue m, h, hvalue]

theorem toNat_of_isDigit {c : Char} (h : c.isDigit = true) : 48 ≤ c.toNat ∧ c.toNat ≤ 57 := by
  simp only [Char.isDigit, Bool.and_eq_true, decide_eq_true_eq, ge_iff_le] at h
  exact h

/-- The first digit of a numeral is worth a power of ten for each digit behind it. -/
theorem ofDigitChars_cons_eq (c : Char) (t : Text) :
    Nat.ofDigitChars 10 (c :: t) 0 =
      10 ^ t.length * (c.toNat - 48) + Nat.ofDigitChars 10 t 0 := by
  rw [Nat.ofDigitChars_cons, Nat.ofDigitChars_eq_ofDigitChars_zero, Nat.mul_zero, Nat.zero_add]
  rfl

theorem ofDigitChars_lt {t : Text} (h : ∀ c ∈ t, c.isDigit) :
    Nat.ofDigitChars 10 t 0 < 10 ^ t.length := by
  induction t with
  | nil => decide
  | cons c t ih =>
    have hc := toNat_of_isDigit (h c List.mem_cons_self)
    have ht := ih fun d hd => h d (List.mem_cons_of_mem c hd)
    have hdigit : 10 ^ t.length * (c.toNat - 48) ≤ 10 ^ t.length * 9 :=
      Nat.mul_le_mul_left _ (by omega)
    rw [ofDigitChars_cons_eq, List.length_cons, Nat.pow_succ]
    omega

/-- A text of digits holds none of the characters that are not digits. -/
theorem notMem_of_digits {t : Text} {c : Char} (h : ∀ d ∈ t, d.isDigit) (hc : c.isDigit = false) :
    c ∉ t := by
  intro hmem
  rw [h c hmem] at hc
  exact absurd hc (by decide)

theorem singleLine_of_digits {t : Text} (h : ∀ d ∈ t, d.isDigit) : SingleLine t :=
  ⟨notMem_of_digits h (by decide), notMem_of_digits h (by decide)⟩

theorem singleLine_decimal (n : Nat) : SingleLine (decimal n) :=
  singleLine_of_digits fun _ h => isDigit_of_mem_decimal h

theorem singleLine_decimalPad (w n : Nat) : SingleLine (decimalPad w n) :=
  singleLine_of_digits fun _ h => isDigit_of_mem_decimalPad h

/-- An unsigned 64-bit number from its digits, with an optional plus sign. -/
def parseU64 (t : Text) : Option ℕ :=
  let digits := if t.head? = some '+' then t.tail else t
  if digits ≠ [] ∧ digits.all Char.isDigit ∧ Nat.ofDigitChars 10 digits 0 < 2 ^ 64 then
    some (Nat.ofDigitChars 10 digits 0)
  else none

/-- An unsigned 16-bit number, read likewise. -/
def parseU16 (t : Text) : Option UInt16 :=
  (parseU64 t).bind fun n => if n < 2 ^ 16 then some (UInt16.ofNat n) else none

theorem decimal_ne_nil (n : Nat) : decimal n ≠ [] := Nat.toDigits_ne_nil

theorem parseU64_lt {t : Text} {n : ℕ} (h : parseU64 t = some n) : n < 2 ^ 64 := by
  unfold parseU64 at h
  extract_lets digits at h
  split at h
  · rename_i hcond
    obtain rfl := Option.some.inj h
    exact hcond.2.2
  · cases h

/-- A numeral is read back. -/
theorem parseU64_decimal {n : ℕ} (h : n < 2 ^ 64) : parseU64 (decimal n) = some n := by
  have hdigits : ∀ c ∈ decimal n, c.isDigit = true := fun c hc => isDigit_of_mem_decimal hc
  have hplus : (decimal n).head? ≠ some '+' := by
    intro hhead
    have hdigit := hdigits _ (List.mem_of_head? hhead)
    exact absurd hdigit (by decide)
  have hvalue : Nat.ofDigitChars 10 (decimal n) 0 = n := Nat.ofDigitChars_ten_toDigits
  simp only [parseU64, if_neg hplus, hvalue, decimal_ne_nil, ne_eq, not_false_iff,
    List.all_eq_true.mpr hdigits, h, and_self, if_true]

/-! ### Order -/

/-- The order of strings: by code point, which is also the order of their UTF-8 bytes. -/
def textLe : Text → Text → Bool
  | [], _ => true
  | _ :: _, [] => false
  | c :: t, d :: u => Nat.blt c.toNat d.toNat || (c == d && textLe t u)

theorem textLe_cons (c d : Char) (t u : Text) :
    textLe (c :: t) (d :: u) = true ↔ c.toNat < d.toNat ∨ c = d ∧ textLe t u = true := by
  simp only [textLe, Bool.or_eq_true, Nat.blt_eq, Bool.and_eq_true, beq_iff_eq]

/-- It is the lexicographic order. -/
theorem textLe_iff_le {t u : Text} : textLe t u = true ↔ t ≤ u := by
  rw [← not_lt]
  induction t generalizing u with
  | nil => exact iff_of_true rfl (List.not_lt_nil u)
  | cons c t ih =>
    cases u with
    | nil => exact iff_of_false Bool.false_ne_true (not_not_intro (List.nil_lt_cons c t))
    | cons d u =>
      rw [textLe_cons, ih, List.cons_lt_cons_iff, not_or, not_and]
      rcases lt_trichotomy c d with hlt | rfl | hgt
      · exact iff_of_true (Or.inl hlt) ⟨lt_asymm hlt, fun heq => absurd heq hlt.ne'⟩
      · simp
      · refine iff_of_false ?_ fun h => h.1 hgt
        rintro (hlt | ⟨rfl, -⟩)
        · exact lt_asymm hlt hgt
        · exact lt_irrefl _ hgt

/-- Numerals of one length are ordered as their values, whatever stands behind them. -/
theorem append_lt_append_of_digits {t u : Text} (hlen : t.length = u.length)
    (ht : ∀ c ∈ t, c.isDigit) (hu : ∀ c ∈ u, c.isDigit)
    (h : Nat.ofDigitChars 10 t 0 < Nat.ofDigitChars 10 u 0) (v w : Text) : t ++ v < u ++ w := by
  induction t generalizing u with
  | nil =>
    obtain rfl := List.eq_nil_of_length_eq_zero hlen.symm
    exact absurd h (lt_irrefl _)
  | cons c t ih =>
    cases u with
    | nil => cases hlen
    | cons d u =>
      have htail : t.length = u.length := Nat.succ.inj hlen
      have hc := toNat_of_isDigit (ht c List.mem_cons_self)
      have hd := toNat_of_isDigit (hu d List.mem_cons_self)
      have ht' : ∀ e ∈ t, e.isDigit := fun e he => ht e (List.mem_cons_of_mem c he)
      have hu' : ∀ e ∈ u, e.isDigit := fun e he => hu e (List.mem_cons_of_mem d he)
      rw [ofDigitChars_cons_eq, ofDigitChars_cons_eq, htail] at h
      rw [List.cons_append, List.cons_append, List.cons_lt_cons_iff]
      rcases Nat.lt_trichotomy c.toNat d.toNat with hlt | heq | hgt
      · exact Or.inl hlt
      · obtain rfl := Char.toNat_inj.mp heq
        exact Or.inr ⟨rfl, ih htail ht' hu' (Nat.lt_of_add_lt_add_left h)⟩
      · -- A greater first digit outweighs all that follows.
        have hult := ofDigitChars_lt hu'
        have hstep : 10 ^ u.length * (d.toNat - 48 + 1) ≤ 10 ^ u.length * (c.toNat - 48) :=
          Nat.mul_le_mul_left _ (by omega)
        rw [Nat.mul_succ] at hstep
        omega

/-- Padded numerals are ordered as their numbers, as long as the padding is wide enough. -/
theorem decimalPad_append_lt {k m n : ℕ} (hn : n < 10 ^ k) (h : m < n) (v w : Text) :
    decimalPad k m ++ v < decimalPad k n ++ w := by
  have hk : 0 < k := by
    refine Nat.pos_of_ne_zero fun hk => ?_
    rw [hk, Nat.pow_zero] at hn
    omega
  have hlen : (decimalPad k m).length = (decimalPad k n).length := by
    rw [length_decimalPad hk (h.trans hn), length_decimalPad hk hn]
  refine append_lt_append_of_digits hlen (fun _ hc => isDigit_of_mem_decimalPad hc)
    (fun _ hc => isDigit_of_mem_decimalPad hc) ?_ v w
  rw [ofDigitChars_decimalPad, ofDigitChars_decimalPad]
  exact h

/-! ### White space -/

/-- The characters with the property `White_Space`. -/
def isWhitespace (c : Char) : Bool :=
  9 ≤ c.toNat && c.toNat ≤ 13 || 0x2000 ≤ c.toNat && c.toNat ≤ 0x200A ||
    c.toNat ∈ [0x20, 0x85, 0xA0, 0x1680, 0x2028, 0x2029, 0x202F, 0x205F, 0x3000]

theorem isWhitespace_of_isDigit {c : Char} (h : c.isDigit = true) : isWhitespace c = false := by
  obtain ⟨hlow, hhigh⟩ := toNat_of_isDigit h
  simp only [isWhitespace, Bool.or_eq_false_iff, Bool.and_eq_false_iff, decide_eq_false_iff_not,
    List.mem_cons, List.not_mem_nil, or_false]
  omega

/-- Without the white space at both ends. -/
def trim (t : Text) : Text :=
  ((t.dropWhile isWhitespace).reverse.dropWhile isWhitespace).reverse

/-- A text is blank if it is trimmed to nothing: it is all white space. -/
theorem trim_eq_nil_iff (t : Text) : trim t = [] ↔ ∀ c ∈ t, isWhitespace c = true := by
  rw [trim, List.reverse_eq_nil_iff, List.dropWhile_eq_nil_iff]
  simp only [List.mem_reverse]
  constructor
  · intro h c hc
    rw [← List.takeWhile_append_dropWhile (p := isWhitespace) (l := t)] at hc
    rcases List.mem_append.mp hc with htake | hdrop
    · exact List.mem_takeWhile_imp htake
    · exact h c hdrop
  · exact fun h c hc => h c (List.dropWhile_subset _ hc)

theorem dropWhile_concat_of_neg {p : Char → Bool} {c : Char} (hc : p c = false) (t : Text) :
    (t ++ [c]).dropWhile p = t.dropWhile p ++ [c] := by
  induction t with
  | nil => simp [hc]
  | cons d t ih =>
    rw [List.cons_append, List.dropWhile_cons, List.dropWhile_cons, ih]
    split
    · rfl
    · rfl

/-- A text that starts with a visible character still does when trimmed. -/
theorem trim_cons {c : Char} (hc : isWhitespace c = false) (t : Text) :
    trim (c :: t) = c :: (t.reverse.dropWhile isWhitespace).reverse := by
  rw [trim, List.dropWhile_cons_of_neg (by simp [hc]), List.reverse_cons,
    dropWhile_concat_of_neg hc, List.reverse_append]
  rfl

/-- A text between two visible characters is trimmed. -/
theorem trim_eq_self {c d : Char} (hc : isWhitespace c = false) (hd : isWhitespace d = false)
    (t : Text) : trim (c :: (t ++ [d])) = c :: (t ++ [d]) := by
  rw [trim_cons hc, List.reverse_append, List.reverse_singleton, List.singleton_append,
    List.dropWhile_cons_of_neg (by simp [hd]), List.reverse_cons, List.reverse_reverse]

/-! ### Fixed decimals -/

/-- Nearest integer, ties to even. -/
def roundHalfEven (q : ℚ) : ℤ :=
  let f := q.floor
  let r := q - f
  if r < 1 / 2 then f else if 1 / 2 < r then f + 1 else if f % 2 = 0 then f else f + 1

/-- A number with exactly three decimals. -/
def fixed3 (q : ℚ) : Text :=
  let n := (roundHalfEven (|q| * 1000)).toNat
  (if q < 0 then ['-'] else []) ++ decimal (n / 1000) ++ ['.'] ++ decimalPad 3 (n % 1000)

/-- A number with the decimals it needs, at most 17. -/
def plain (q : ℚ) : Text :=
  let places := ((List.range 17).find? fun k => (q * 10 ^ k).den = 1).getD 17
  let n := (roundHalfEven (|q| * 10 ^ places)).toNat
  (if q < 0 then ['-'] else []) ++ decimal (n / 10 ^ places) ++
    if places = 0 then [] else '.' :: decimalPad places (n % 10 ^ places)

theorem singleLine_fixed3 (q : ℚ) : SingleLine (fixed3 q) := by
  unfold fixed3
  refine SingleLine.append (SingleLine.append (SingleLine.append ?_ (singleLine_decimal _)) ?_)
    (singleLine_decimalPad _ _)
  · split <;> decide
  · decide

end StreamInfa
