import StreamInfa.Core.Error
import StreamInfa.Lib.Map

/-!
Stream keys (`src/core/auth.rs`): the store of hashed keys with its lookup index,
the generation of keys, and the check of a key a client presents.

bcrypt and the hasher of the index live outside the repository: they are the
parameter `KeyHashing`, of which `KeyHashing.Exact` says that verification decides
equality with the hashed key. The index of a store is always the one
`rebuild_index` computes; `IngestKeyStore` carries that as a field, and
**`validateStreamKey_eq_ok_iff`** reads from it what the check accepts: in a store
of genuine records, any key at all when the store is empty, and otherwise the keys
whose hashes are stored.
-/

namespace StreamInfa

/-! ### Hash functions -/

/-- The hash functions of the key store. `hash` and `verify` are bcrypt's, `none`
where they return an error; a `Salt` is the randomness of one hash.
`fastKeyHash` is the routing hash of the lookup index. -/
structure KeyHashing (Salt : Type) where
  hash : Text → Salt → Option Text
  verify : Text → Text → Option Bool
  fastKeyHash : Text → UInt64

/-- Verification against the hash of a key succeeds for that key alone. -/
def KeyHashing.Exact {Salt : Type} (H : KeyHashing Salt) : Prop :=
  ∀ key salt hash, H.hash key salt = some hash → ∀ key', H.verify key' hash = some true ↔ key' = key

/-! ### The key store -/

structure IngestKeyRecord where
  hash : Text
  fastIndex : UInt64
  streamId : Option StreamId
deriving DecidableEq, Repr

/-- The lookup index of a list of records: later records replace earlier ones that
share their routing hash. -/
def buildIndex (keys : List IngestKeyRecord) : Map UInt64 ℕ :=
  keys.zipIdx.foldl (fun index (record, i) => index.insert record.fastIndex i) ∅

/-- The stored records and their lookup index, which is never stale. -/
structure IngestKeyStore where
  keys : List IngestKeyRecord
  index : Map UInt64 ℕ
  index_eq : index = buildIndex keys

namespace IngestKeyStore

def new : IngestKeyStore := ⟨[], ∅, rfl⟩

/-- `retain` followed by `rebuild_index`. -/
def retain (store : IngestKeyStore) (keep : IngestKeyRecord → Bool) : IngestKeyStore :=
  ⟨store.keys.filter keep, buildIndex (store.keys.filter keep), rfl⟩

theorem buildIndex_append (keys : List IngestKeyRecord) (record : IngestKeyRecord) :
    buildIndex (keys ++ [record]) = (buildIndex keys).insert record.fastIndex keys.length := by
  simp [buildIndex, List.zipIdx_append]

def push (store : IngestKeyStore) (record : IngestKeyRecord) : IngestKeyStore where
  keys := store.keys ++ [record]
  index := store.index.insert record.fastIndex store.keys.length
  index_eq := by rw [store.index_eq, buildIndex_append]

/-- The index finds the routing hash of every stored record. -/
theorem lookup_index_ne_none {store : IngestKeyStore} {record : IngestKeyRecord}
    (hmem : record ∈ store.keys) : store.index.lookup record.fastIndex ≠ none := by
  rw [store.index_eq]
  generalize store.keys = keys at hmem
  induction keys using List.reverseRecOn with
  | nil => exact absurd hmem List.not_mem_nil
  | append_singleton keys last ih =>
    rw [buildIndex_append]
    by_cases hlast : record.fastIndex = last.fastIndex
    · rw [hlast, AList.lookup_insert]
      exact Option.some_ne_none _
    · rw [AList.lookup_insert_ne hlast]
      rcases List.mem_append.mp hmem with hold | hnew
      · exact ih hold
      · rw [List.mem_singleton.mp hnew] at hlast
        exact absurd rfl hlast

end IngestKeyStore

/-! ### Generating keys -/

/-- The characters of random keys. -/
def alphanumeric : Text := "abcdefghijklmnopqrstuvwxyz0123456789".toList

def streamKeyPrefix : Text := "sk_".toList

def streamKeyRandomLength : ℕ := 24

/-- The index of a random character, as drawn for each position of the key. -/
abbrev RandomPart (length : ℕ) := Fin length → Fin alphanumeric.length

def generateRandomToken (start : Text) {length : ℕ} (random : RandomPart length) : Text :=
  start ++ List.ofFn fun i => alphanumeric.get (random i)

section

variable {Salt : Type} (H : KeyHashing Salt)

/-- The record of a key, `none` when hashing fails. -/
def hashedRecord (key : Text) (salt : Salt) (streamId : Option StreamId) :
    Option IngestKeyRecord :=
  (H.hash key salt).map fun hash => ⟨hash, H.fastKeyHash key, streamId⟩

/-- The key store of a new provider: the configured keys whose hashing succeeds, each
hashed with its own salt and bound to no stream. -/
def newKeyStore (configured : List (Text × Salt)) : IngestKeyStore :=
  configured.foldl (fun store (key, salt) =>
    match hashedRecord H key salt none with
    | some record => store.push record
    | none => store) IngestKeyStore.new

/-- The records of a new provider, in the order of the configuration. -/
theorem keys_newKeyStore (configured : List (Text × Salt)) :
    (newKeyStore H configured).keys =
      configured.filterMap fun p => hashedRecord H p.1 p.2 none := by
  induction configured using List.reverseRecOn with
  | nil => rfl
  | append_singleton configured last ih =>
    rw [newKeyStore, List.foldl_append, ← newKeyStore, List.filterMap_append, ← ih]
    simp only [List.foldl_cons, List.foldl_nil]
    cases h : hashedRecord H last.1 last.2 none with
    | none => simp [h]
    | some record => simp [h, IngestKeyStore.push]

/-- The plaintext of a new key and its record; `none` is the panic on a failed hash.
No lock is held. -/
def newStreamKey (random : RandomPart streamKeyRandomLength) (salt : Salt)
    (streamId : Option StreamId) : Option (Text × IngestKeyRecord) :=
  let plaintext := generateRandomToken streamKeyPrefix random
  (hashedRecord H plaintext salt streamId).map fun record => (plaintext, record)

/-! ### Checking keys -/

/-- `bcrypt::verify(..).unwrap_or(false)`. -/
def verifies (key : Text) (record : IngestKeyRecord) : Bool :=
  (H.verify key record.hash).getD false

def validateStreamKey (store : IngestKeyStore) (streamKey : Text) : Except IngestError Unit :=
  if store.keys.isEmpty then .ok ()
  else
    match store.index.lookup (H.fastKeyHash streamKey) with
    | none => .error (.authFailed "invalid stream key".toList)
    | some idx =>
      if (store.keys[idx]?).any (verifies H streamKey) then .ok ()
      -- A collision of the routing hash: scan all records.
      else if store.keys.any (verifies H streamKey) then .ok ()
      else .error (.authFailed "invalid stream key".toList)

def resolveStreamIdForKey (store : IngestKeyStore) (streamKey : Text) : Option StreamId :=
  match store.index.lookup (H.fastKeyHash streamKey) with
  | none => none
  | some idx =>
    match (store.keys[idx]?).filter (verifies H streamKey) with
    | some record => record.streamId
    | none => store.keys.findSome? fun record =>
        if verifies H streamKey record then record.streamId else none

/-! ### What the check accepts -/

/-- The record of `key`: its hash under some salt, indexed by its routing hash. -/
def IsRecordOf (key : Text) (record : IngestKeyRecord) : Prop :=
  ∃ salt streamId, hashedRecord H key salt streamId = some record

variable {H} {store : IngestKeyStore} {key : Text}

/-- A new key is its own record's. -/
theorem isRecordOf_newStreamKey {random : RandomPart streamKeyRandomLength} {salt : Salt}
    {binding : Option StreamId} {key : Text} {record : IngestKeyRecord}
    (h : newStreamKey H random salt binding = some (key, record)) : IsRecordOf H key record := by
  obtain ⟨record', hrecord, heq⟩ := Option.map_eq_some_iff.mp h
  obtain ⟨rfl, rfl⟩ := Prod.mk.inj heq
  exact ⟨salt, binding, hrecord⟩

theorem IsRecordOf.fastIndex_eq {record : IngestKeyRecord} (h : IsRecordOf H key record) :
    record.fastIndex = H.fastKeyHash key := by
  obtain ⟨salt, streamId, h⟩ := h
  obtain ⟨hash, -, rfl⟩ := Option.map_eq_some_iff.mp h
  rfl

theorem IsRecordOf.verifies_iff {record : IngestKeyRecord} (hexact : H.Exact)
    (h : IsRecordOf H key record) {key' : Text} : verifies H key' record = true ↔ key' = key := by
  obtain ⟨salt, streamId, h⟩ := h
  obtain ⟨hash, hhash, rfl⟩ := Option.map_eq_some_iff.mp h
  rw [← hexact key salt hash hhash key', verifies]
  cases H.verify key' hash with
  | none => simp
  | some b => simp

/-- A record is that of one key only. -/
theorem IsRecordOf.key_unique {record : IngestKeyRecord} {key' : Text} (hexact : H.Exact)
    (h : IsRecordOf H key record) (h' : IsRecordOf H key' record) : key' = key :=
  (h.verifies_iff hexact).mp ((h'.verifies_iff hexact).mpr rfl)

/-- An accepted key verifies against a stored record, unless there is none. -/
theorem exists_verifies_of_validate (hne : store.keys ≠ [])
    (h : validateStreamKey H store key = .ok ()) :
    ∃ record ∈ store.keys, verifies H key record = true := by
  unfold validateStreamKey at h
  rw [if_neg (by simpa using hne)] at h
  split at h
  · exact absurd h (by simp)
  · rename_i idx _
    split at h
    · rename_i hhit
      obtain ⟨record, hget, hverifies⟩ := (Option.any_eq_true _ _).mp hhit
      exact ⟨record, List.mem_of_getElem? hget, hverifies⟩
    · split at h
      · rename_i hscan
        exact List.any_eq_true.mp hscan
      · exact absurd h (by simp)

theorem validateStreamKey_of_empty (h : store.keys = []) :
    validateStreamKey H store key = .ok () := by
  rw [validateStreamKey, if_pos (by simp [h])]

theorem validateStreamKey_of_verifies {record : IngestKeyRecord} (hmem : record ∈ store.keys)
    (hindex : record.fastIndex = H.fastKeyHash key) (hverifies : verifies H key record = true) :
    validateStreamKey H store key = .ok () := by
  have hne : ¬ store.keys.isEmpty = true := by
    simpa using List.ne_nil_of_mem hmem
  have hscan : store.keys.any (verifies H key) = true := List.any_eq_true.mpr ⟨_, hmem, hverifies⟩
  rw [validateStreamKey, if_neg hne, ← hindex]
  cases hlookup : store.index.lookup record.fastIndex with
  | none => exact absurd hlookup (IngestKeyStore.lookup_index_ne_none hmem)
  | some idx => simp only [if_pos hscan, ite_self]

/-- Where every record is that of some key, the check accepts exactly the stored keys,
except that an empty store accepts everything. -/
theorem validateStreamKey_eq_ok_iff (hexact : H.Exact)
    (hrecords : ∀ record ∈ store.keys, ∃ key, IsRecordOf H key record) :
    validateStreamKey H store key = .ok () ↔
      store.keys = [] ∨ ∃ record ∈ store.keys, IsRecordOf H key record := by
  constructor
  · intro h
    by_cases hne : store.keys = []
    · exact .inl hne
    · obtain ⟨record, hmem, hverifies⟩ := exists_verifies_of_validate hne h
      obtain ⟨key', hkey'⟩ := hrecords record hmem
      obtain rfl := (hkey'.verifies_iff hexact).mp hverifies
      exact .inr ⟨record, hmem, hkey'⟩
  · rintro (hempty | ⟨record, hmem, hrecord⟩)
    · exact validateStreamKey_of_empty hempty
    · exact validateStreamKey_of_verifies hmem hrecord.fastIndex_eq
        ((hrecord.verifies_iff hexact).mpr rfl)

end

/-! ### A hash that can be read -/

/-- A transparent hash of the same shape as bcrypt's: scheme and cost, salt, digest. -/
def plainHashing : KeyHashing Char where
  hash key salt := some ("$2b$10$".toList ++ salt :: key)
  verify key hash := some (hash.drop 8 = key)
  fastKeyHash key := UInt64.ofNat (key.map Char.toNat).sum

theorem plainHashing_exact : plainHashing.Exact := by
  intro key salt hash hhash key'
  obtain rfl := Option.some.inj hhash
  have hdrop : ("$2b$10$".toList ++ salt :: key).drop 8 = key := by
    rw [List.append_cons, List.drop_left' (by simp)]
  simp only [plainHashing, hdrop, Option.some.injEq, decide_eq_true_eq]
  exact eq_comm

end StreamInfa
