import StreamInfa.Lib.Map
import StreamInfa.Lib.Text

/-!
Metadata limits (`src/core/security.rs`) and the redaction of stream keys
(`src/core/redact.rs`).

Both shorten strings of clients by a byte-index slice, which panics inside a character:
`none` is the panic. A hash map is passed as the list of its entries in the order in which
the loop meets them, of which nothing is known.

**`truncation_iff`**: `validate_metadata` returns in every order exactly when there are too
many entries or no overlong key has a character across its byte 32, and
`redact_stream_key` exactly when the key has none across its byte 6.
-/

namespace StreamInfa

def maxMetadataKeyLength : ℕ := 64

def maxMetadataValueLength : ℕ := 1024

def maxMetadataEntries : ℕ := 50

/-- The loop over the entries. -/
def validateEntries : List (Text × Text) → Option (Except Text Unit)
  | [] => some (.ok ())
  | (key, value) :: entries =>
    if byteLength key > maxMetadataKeyLength then
      (sliceTo key (min 32 (byteLength key))).map fun head =>
        .error ("metadata key '".toList ++ head ++ "...' exceeds max length ".toList ++
          decimal maxMetadataKeyLength ++ " chars".toList)
    else if byteLength value > maxMetadataValueLength then
      some (.error ("metadata value for key '".toList ++ key ++ "' exceeds max length ".toList ++
        decimal maxMetadataValueLength ++ " chars".toList))
    else validateEntries entries

/-- Validate metadata key-value pairs. -/
def validateMetadata (metadata : List (Text × Text)) : Option (Except Text Unit) :=
  if metadata.length > maxMetadataEntries then
    some (.error ("too many metadata entries: ".toList ++ decimal metadata.length ++
      " (max ".toList ++ decimal maxMetadataEntries ++ ")".toList))
  else validateEntries metadata

/-- Redact a stream key for logging. -/
def redactStreamKey (key : Text) : Option Text :=
  if byteLength key ≤ 4 then some "****".toList
  else (sliceTo key (min (byteLength key) 6)).map fun visible => visible ++ "***".toList

/-! ### Panics -/

/-- The orders in which a hash map can be iterated. -/
def IterationOrder (metadata : Map Text Text) (order : List (Text × Text)) : Prop :=
  order.Perm (metadata.entries.map fun e => (e.1, e.2))

/-- A key that is too long and cannot be cut at byte 32. -/
def Uncuttable (key : Text) : Prop := maxMetadataKeyLength < byteLength key ∧ ¬IsCharBoundary key 32

variable {key value : Text} {entries : List (Text × Text)}

theorem sliceTo_overlong (h : maxMetadataKeyLength < byteLength key) :
    sliceTo key (min 32 (byteLength key)) = sliceTo key 32 := by
  have hlong : 32 ≤ byteLength key := Nat.le_of_lt (Nat.lt_trans (by decide) h)
  rw [Nat.min_eq_left hlong]

/-- Entries without an uncuttable key do not panic. -/
theorem validateEntries_ne_none (h : ∀ e ∈ entries, ¬Uncuttable e.1) :
    validateEntries entries ≠ none := by
  induction entries with
  | nil => exact Option.some_ne_none _
  | cons e entries ih =>
    obtain ⟨key, value⟩ := e
    rw [validateEntries]
    split
    · rename_i hlong
      have hcut : IsCharBoundary key 32 := by
        by_contra hno
        exact h (key, value) List.mem_cons_self ⟨hlong, hno⟩
      rw [sliceTo_overlong hlong, ne_eq, Option.map_eq_none_iff]
      exact sliceTo_ne_none_iff.mpr hcut
    · split
      · exact Option.some_ne_none _
      · exact ih fun e he => h e (List.mem_cons_of_mem _ he)

theorem validateEntries_of_uncuttable (h : Uncuttable key) :
    validateEntries ((key, value) :: entries) = none := by
  rw [validateEntries, if_pos h.1, sliceTo_overlong h.1, Option.map_eq_none_iff]
  exact not_not.mp fun hsome => h.2 (sliceTo_ne_none_iff.mp hsome)

theorem validateMetadata_ne_none_iff (metadata : Map Text Text) :
    (∀ order, IterationOrder metadata order → validateMetadata order ≠ none) ↔
      maxMetadataEntries < metadata.entries.length ∨
        ∀ key value, metadata.lookup key = some value → ¬Uncuttable key := by
  have hlen : ∀ order, IterationOrder metadata order →
      order.length = metadata.entries.length := by
    intro order horder
    rw [horder.length_eq, List.length_map]
  constructor
  · intro hall
    by_contra hno
    rw [not_or] at hno
    obtain ⟨hfew, hkeys⟩ := hno
    simp only [not_forall, not_not] at hkeys
    obtain ⟨key, value, hlookup, hkey⟩ := hkeys
    -- An iteration that meets the key first.
    have hmem : (key, value) ∈ metadata.entries.map fun e => (e.1, e.2) :=
      List.mem_map.mpr ⟨⟨key, value⟩, AList.mem_lookup_iff.mp hlookup, rfl⟩
    have horder : IterationOrder metadata
        ((key, value) :: (metadata.entries.map fun e => (e.1, e.2)).erase (key, value)) :=
      (List.perm_cons_erase hmem).symm
    refine hall _ horder ?_
    rw [validateMetadata, if_neg (by rw [hlen _ horder]; exact hfew)]
    exact validateEntries_of_uncuttable hkey
  · rintro (hmany | hkeys) order horder
    · rw [validateMetadata, if_pos (by rw [hlen _ horder]; exact hmany)]
      exact Option.some_ne_none _
    · rw [validateMetadata]
      split
      · exact Option.some_ne_none _
      · refine validateEntries_ne_none fun e he => ?_
        obtain ⟨e', he', rfl⟩ := List.mem_map.mp (horder.subset he)
        exact hkeys e'.1 e'.2 (AList.mem_lookup_iff.mpr he')

theorem redactStreamKey_ne_none_iff (key : Text) :
    redactStreamKey key ≠ none ↔ byteLength key ≤ 6 ∨ IsCharBoundary key 6 := by
  unfold redactStreamKey
  split
  · rename_i hshort
    exact ⟨fun _ => .inl (hshort.trans (by decide)), fun _ => Option.some_ne_none _⟩
  · rw [ne_eq, Option.map_eq_none_iff, ← ne_eq, sliceTo_ne_none_iff]
    rcases Nat.lt_or_ge 6 (byteLength key) with hlt | hle
    · rw [Nat.min_eq_right (Nat.le_of_lt hlt)]
      exact (or_iff_right (Nat.not_le.mpr hlt)).symm
    · rw [Nat.min_eq_left hle]
      exact ⟨fun _ => .inl hle, fun _ => isCharBoundary_byteLength key⟩

/-- **When the slices do not panic**: `validate_metadata` returns a result for a map, in
whatever order it is iterated, exactly when it has more than 50 entries or each key of
more than 64 bytes has a boundary at byte 32; `redact_stream_key` returns a string exactly
for keys of at most 6 bytes or with a boundary at byte 6. -/
theorem truncation_iff (metadata : Map Text Text) (key : Text) :
    ((∀ order, IterationOrder metadata order → validateMetadata order ≠ none) ↔
      50 < metadata.entries.length ∨ ∀ key value, metadata.lookup key = some value →
        64 < byteLength key → IsCharBoundary key 32) ∧
    (redactStreamKey key ≠ none ↔ byteLength key ≤ 6 ∨ IsCharBoundary key 6) := by
  refine ⟨(validateMetadata_ne_none_iff metadata).trans (or_congr_right ?_),
    redactStreamKey_ne_none_iff key⟩
  refine forall_congr' fun key => forall_congr' fun value => imp_congr_right fun _ => ?_
  rw [Uncuttable, not_and, not_not]
  rfl

/-- A metadata key of 65 bytes with an accent on the 32nd letter. -/
def accentedKey : Text := List.replicate 31 'a' ++ 'é' :: List.replicate 32 'a'

/-- A two-byte character across byte 32 of a metadata key, and one across byte 6 of a
stream key. -/
theorem truncation_panics :
    (¬∀ (metadata : Map Text Text) order, IterationOrder metadata order →
      validateMetadata order ≠ none) ∧
    ¬∀ key, redactStreamKey key ≠ none := by
  constructor
  · intro hall
    have horder : IterationOrder ((∅ : Map Text Text).insert accentedKey [])
        [(accentedKey, [])] := .refl _
    exact hall _ _ horder (by decide +kernel)
  · intro hall
    exact hall "abcdeé".toList (by decide +kernel)

end StreamInfa
