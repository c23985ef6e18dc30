import StreamInfa.Core.Auth
import StreamInfa.Lib.Run

/-!
The lookup index against the full scan.

`validate_stream_key` and `resolve_stream_id_for_key` look a key up by its routing
hash and scan all records only when the record found there is another's. Nothing is
assumed of the routing hash: keys may collide, and a later key takes over the index
slot of an earlier one. Records move when a rotation removes others.

**`indexed_lookup_eq_scan`**: after any sequence of operations over distinct keys,
the index points at records of the right routing hash and misses none, so that the
check accepts exactly the stored keys and the resolution returns the binding of the
stored record of the key.
-/

namespace StreamInfa

/-- The operations on the key store of a provider, one call each. The random choices
of a new key come from outside. -/
inductive KeyOperation (Salt : Type) where
  /-- `generate_stream_key_for_stream`, and `generate_stream_key` for no stream. -/
  | generate (streamId : Option StreamId) (random : RandomPart streamKeyRandomLength) (salt : Salt)
  /-- `rotate_stream_key`. -/
  | rotateByHash (oldHash : Text) (random : RandomPart streamKeyRandomLength) (salt : Salt)
  /-- `rotate_stream_key_for_stream`. -/
  | rotateForStream (streamId : StreamId) (random : RandomPart streamKeyRandomLength) (salt : Salt)
  /-- `update_stream_keys`. -/
  | update (keys : List (Text × Salt))

section

variable {Salt : Type} (H : KeyHashing Salt)

/-- Add a new key, unless its hashing panicked. -/
def addStreamKey (store : IngestKeyStore) (streamId : Option StreamId)
    (random : RandomPart streamKeyRandomLength) (salt : Salt) : IngestKeyStore :=
  match newStreamKey H random salt streamId with
  | some (_, record) => store.push record
  | none => store

def keyStep (store : IngestKeyStore) : KeyOperation Salt → Option IngestKeyStore
  | .generate streamId random salt => some (addStreamKey H store streamId random salt)
  | .rotateByHash oldHash random salt =>
    some (addStreamKey H (store.retain fun k => k.hash ≠ oldHash) none random salt)
  | .rotateForStream streamId random salt =>
    some (addStreamKey H (store.retain fun k => k.streamId ≠ some streamId) (some streamId) random
      salt)
  | .update keys => some (newKeyStore H keys)

/-- The keys an operation brings in differ from each other and from those stored. -/
def DistinctKeys (store : IngestKeyStore) : KeyOperation Salt → Prop
  | .generate _ random _ | .rotateByHash _ random _ | .rotateForStream _ random _ =>
    ∀ record ∈ store.keys, ¬ IsRecordOf H (generateRandomToken streamKeyPrefix random) record
  | .update keys => (keys.map Prod.fst).Nodup

/-- Every record is that of some key, and no two records are of the same key. -/
structure OneRecordPerKey (store : IngestKeyStore) : Prop where
  genuine : ∀ record ∈ store.keys, ∃ key, IsRecordOf H key record
  distinct : store.keys.Pairwise fun record record' =>
    ∀ key, IsRecordOf H key record → ¬ IsRecordOf H key record'

/-! ### The index -/

/-- An index entry points at a record with its routing hash. -/
theorem IngestKeyStore.getElem?_of_lookup_index {store : IngestKeyStore} {fast : UInt64} {idx : ℕ}
    (h : store.index.lookup fast = some idx) :
    ∃ record, store.keys[idx]? = some record ∧ record.fastIndex = fast := by
  rw [store.index_eq] at h
  generalize store.keys = keys at h
  induction keys using List.reverseRecOn with
  | nil => exact absurd h (by simp [buildIndex])
  | append_singleton keys last ih =>
    rw [buildIndex_append] at h
    by_cases hlast : fast = last.fastIndex
    · rw [hlast, AList.lookup_insert] at h
      obtain rfl := Option.some.inj h
      exact ⟨last, List.getElem?_concat_length, hlast.symm⟩
    · rw [AList.lookup_insert_ne hlast] at h
      obtain ⟨record, hget, hfast⟩ := ih h
      have hidx : idx < keys.length := (List.getElem?_eq_some_iff.mp hget).1
      exact ⟨record, by rw [List.getElem?_append_left hidx, hget], hfast⟩

variable {H} {store store' : IngestKeyStore} {op : KeyOperation Salt} {key : Text}
  {record : IngestKeyRecord}

/-! ### One record per key -/

theorem OneRecordPerKey.eq_of_isRecordOf (h : OneRecordPerKey H store) {record' : IngestKeyRecord}
    (hmem : record ∈ store.keys) (hmem' : record' ∈ store.keys) (hkey : IsRecordOf H key record)
    (hkey' : IsRecordOf H key record') : record = record' := by
  have hall : store.keys.Pairwise fun r r' =>
      ∀ k, IsRecordOf H k r → IsRecordOf H k r' → r = r' :=
    h.distinct.imp fun hne k hr hr' => absurd hr' (hne k hr)
  have hflip : store.keys.Pairwise fun r r' =>
      ∀ k, IsRecordOf H k r' → IsRecordOf H k r → r' = r :=
    hall.imp fun heq k hr' hr => (heq k hr hr').symm
  exact hall.forall_of_forall_of_flip (fun _ _ _ _ _ => rfl) hflip hmem hmem' key hkey hkey'

theorem OneRecordPerKey.retain (h : OneRecordPerKey H store) (keep : IngestKeyRecord → Bool) :
    OneRecordPerKey H (store.retain keep) where
  genuine := fun record hmem => h.genuine record (List.mem_filter.mp hmem).1
  distinct := h.distinct.filter _

theorem OneRecordPerKey.addStreamKey (h : OneRecordPerKey H store)
    {random : RandomPart streamKeyRandomLength}
    (hnew : ∀ record ∈ store.keys,
      ¬ IsRecordOf H (generateRandomToken streamKeyPrefix random) record)
    (streamId : Option StreamId) (salt : Salt) (hexact : H.Exact) :
    OneRecordPerKey H (addStreamKey H store streamId random salt) := by
  unfold StreamInfa.addStreamKey
  split
  · rename_i plaintext added hadded
    have hrecord := isRecordOf_newStreamKey hadded
    have hplain : plaintext = generateRandomToken streamKeyPrefix random := by
      obtain ⟨_, -, heq⟩ := Option.map_eq_some_iff.mp hadded
      exact (Prod.mk.inj heq).1.symm
    rw [hplain] at hrecord
    constructor
    · intro record hmem
      rcases List.mem_append.mp hmem with hold | hlast
      · exact h.genuine record hold
      · exact ⟨_, List.mem_singleton.mp hlast ▸ hrecord⟩
    · refine List.pairwise_append.mpr ⟨h.distinct, List.pairwise_singleton _ _, ?_⟩
      intro record hold record' hlast key hkey hkey'
      obtain rfl := List.mem_singleton.mp hlast
      rw [hrecord.key_unique hexact hkey'] at hkey
      exact hnew record hold hkey
  · exact h

theorem oneRecordPerKey_newKeyStore (hexact : H.Exact) {configured : List (Text × Salt)}
    (hnodup : (configured.map Prod.fst).Nodup) : OneRecordPerKey H (newKeyStore H configured) := by
  constructor
  · intro record hmem
    rw [keys_newKeyStore] at hmem
    obtain ⟨p, -, hrecord⟩ := List.mem_filterMap.mp hmem
    exact ⟨p.1, p.2, none, hrecord⟩
  · rw [keys_newKeyStore]
    refine List.Pairwise.filterMap _ ?_ (List.pairwise_map.mp hnodup)
    intro p p' hne record hrecord record' hrecord' key hkey hkey'
    have h : key = p.1 := IsRecordOf.key_unique hexact ⟨p.2, none, hrecord⟩ hkey
    have h' : key = p'.1 := IsRecordOf.key_unique hexact ⟨p'.2, none, hrecord'⟩ hkey'
    exact hne (h.symm.trans h')

theorem OneRecordPerKey.step (hexact : H.Exact) (h : OneRecordPerKey H store)
    (hdistinct : DistinctKeys H store op) (hstep : keyStep H store op = some store') :
    OneRecordPerKey H store' := by
  cases op with
  | generate streamId random salt =>
    obtain rfl := Option.some.inj hstep
    exact h.addStreamKey hdistinct streamId salt hexact
  | rotateByHash oldHash random salt =>
    obtain rfl := Option.some.inj hstep
    refine (h.retain _).addStreamKey (fun record hmem => ?_) none salt hexact
    exact hdistinct record (List.mem_filter.mp hmem).1
  | rotateForStream streamId random salt =>
    obtain rfl := Option.some.inj hstep
    refine (h.retain _).addStreamKey (fun record hmem => ?_) (some streamId) salt hexact
    exact hdistinct record (List.mem_filter.mp hmem).1
  | update keys =>
    obtain rfl := Option.some.inj hstep
    exact oneRecordPerKey_newKeyStore hexact hdistinct

/-! ### Resolving -/

/-- A record verifies a key exactly when it is that key's. -/
theorem OneRecordPerKey.verifies_iff (hexact : H.Exact) (h : OneRecordPerKey H store)
    (hmem : record ∈ store.keys) : verifies H key record = true ↔ IsRecordOf H key record := by
  obtain ⟨key', hkey'⟩ := h.genuine record hmem
  rw [hkey'.verifies_iff hexact]
  refine ⟨fun heq => heq ▸ hkey', fun hkey => hkey'.key_unique hexact hkey⟩

theorem resolveStreamIdForKey_of_mem (hexact : H.Exact) (h : OneRecordPerKey H store)
    (hmem : record ∈ store.keys) (hkey : IsRecordOf H key record) :
    resolveStreamIdForKey H store key = record.streamId := by
  -- Every record that verifies the key is this one.
  have honly : ∀ r ∈ store.keys, verifies H key r = true → r = record := fun r hr hverifies =>
    h.eq_of_isRecordOf hr hmem ((h.verifies_iff hexact hr).mp hverifies) hkey
  have hverifies : verifies H key record = true := (h.verifies_iff hexact hmem).mpr hkey
  unfold resolveStreamIdForKey
  split
  · rename_i hnone
    rw [← hkey.fastIndex_eq] at hnone
    exact absurd hnone (IngestKeyStore.lookup_index_ne_none hmem)
  · split
    · rename_i r hr
      obtain ⟨hget, hr⟩ := Option.filter_eq_some_iff.mp hr
      rw [honly r (List.mem_of_getElem? hget) hr]
    · cases hbound : record.streamId with
      | none =>
        rw [List.findSome?_eq_none_iff]
        intro r hr
        split
        · rename_i hr'
          rw [honly r hr hr', hbound]
        · rfl
      | some streamId =>
        have hfound : (store.keys.findSome? fun r =>
            if verifies H key r then r.streamId else none).isSome :=
          List.findSome?_isSome_iff.mpr ⟨record, hmem, by rw [if_pos hverifies, hbound]; rfl⟩
        obtain ⟨found, hfound⟩ := Option.isSome_iff_exists.mp hfound
        obtain ⟨r, hr, heq⟩ := List.exists_of_findSome?_eq_some hfound
        rw [Option.ite_none_right_eq_some] at heq
        rw [hfound, ← hbound, ← honly r hr heq.1, heq.2]

theorem resolveStreamIdForKey_eq_none (hexact : H.Exact) (h : OneRecordPerKey H store)
    (hnone : ∀ record ∈ store.keys, ¬ IsRecordOf H key record) :
    resolveStreamIdForKey H store key = none := by
  have hfails : ∀ r ∈ store.keys, ¬ verifies H key r = true := fun r hr hverifies =>
    hnone r hr ((h.verifies_iff hexact hr).mp hverifies)
  unfold resolveStreamIdForKey
  split
  · rfl
  · split
    · rename_i r hr
      obtain ⟨hget, hr⟩ := Option.filter_eq_some_iff.mp hr
      exact absurd hr (hfails r (List.mem_of_getElem? hget))
    · rw [List.findSome?_eq_none_iff]
      intro r hr
      rw [if_neg (hfails r hr)]

/-- **The indexed lookup is the full scan.** For every routing hash and every sequence
of operations over distinct keys. -/
theorem indexed_lookup_eq_scan (H : KeyHashing Salt) (hexact : H.Exact)
    (configured : List (Text × Salt)) (hnodup : (configured.map Prod.fst).Nodup)
    (ops : List (KeyOperation Salt))
    (hdistinct : Meets (keyStep H) (DistinctKeys H) (newKeyStore H configured) ops)
    (store : IngestKeyStore) (hrun : run (keyStep H) (newKeyStore H configured) ops = some store) :
    (∀ fast idx, store.index.lookup fast = some idx →
      ∃ record, store.keys[idx]? = some record ∧ record.fastIndex = fast) ∧
    (∀ record ∈ store.keys, ∃ idx, store.index.lookup record.fastIndex = some idx) ∧
    (∀ key, validateStreamKey H store key = .ok () ↔
      store.keys = [] ∨ ∃ record ∈ store.keys, IsRecordOf H key record) ∧
    (∀ key, ∀ record ∈ store.keys, IsRecordOf H key record →
      resolveStreamIdForKey H store key = record.streamId) ∧
    ∀ key, (∀ record ∈ store.keys, ¬ IsRecordOf H key record) →
      resolveStreamIdForKey H store key = none := by
  have hone : OneRecordPerKey H store :=
    run_invariant_of_meets (fun _ _ _ hs hok hstep => hs.step hexact hok hstep)
      (oneRecordPerKey_newKeyStore hexact hnodup) hdistinct hrun
  refine ⟨?_, ?_, ?_, ?_, ?_⟩
  · exact fun fast idx h => IngestKeyStore.getElem?_of_lookup_index h
  · exact fun record hmem =>
      Option.ne_none_iff_exists'.mp (IngestKeyStore.lookup_index_ne_none hmem)
  · exact fun key => validateStreamKey_eq_ok_iff hexact hone.genuine
  · exact fun key record hmem hkey => resolveStreamIdForKey_of_mem hexact hone hmem hkey
  · exact fun key hnone => resolveStreamIdForKey_eq_none hexact hone hnone

end

/-! ### A constant routing hash -/

/-- Every key has the same routing hash. -/
def collidingHashing : KeyHashing Char := { plainHashing with fastKeyHash := fun _ => 0 }

theorem collidingHashing_exact : collidingHashing.Exact := plainHashing_exact

/-- Two configured keys and one bound key share an index slot, which the last one
holds; the first is still found. -/
theorem indexed_lookup_of_collisions :
    collidingHashing.Exact ∧
    ∃ store, run (keyStep collidingHashing)
        (newKeyStore collidingHashing [("sk_a".toList, 'a'), ("sk_b".toList, 'b')])
        [.generate (some ⟨7⟩) (fun _ => ⟨0, by decide⟩) 'c'] = some store ∧
      validateStreamKey collidingHashing store "sk_a".toList = .ok () ∧
      resolveStreamIdForKey collidingHashing store "sk_a".toList = none := by
  have hdistinct : Meets (keyStep collidingHashing) (DistinctKeys collidingHashing)
      (newKeyStore collidingHashing [("sk_a".toList, 'a'), ("sk_b".toList, 'b')])
      [.generate (some ⟨7⟩) (fun _ => ⟨0, by decide⟩) 'c'] := by
    refine ⟨fun record hmem hkey => ?_, fun _ _ => trivial⟩
    rw [keys_newKeyStore] at hmem
    obtain ⟨p, hp, hrecord⟩ := List.mem_filterMap.mp hmem
    have hother : ∀ p ∈ [("sk_a".toList, 'a'), ("sk_b".toList, 'b')],
        (generateRandomToken streamKeyPrefix fun _ : Fin streamKeyRandomLength =>
          (⟨0, by decide⟩ : Fin alphanumeric.length)) ≠ p.1 := by decide +kernel
    exact hother p hp (IsRecordOf.key_unique collidingHashing_exact ⟨p.2, none, hrecord⟩ hkey)
  obtain ⟨-, -, hvalid, hresolve, -⟩ := indexed_lookup_eq_scan collidingHashing
    collidingHashing_exact [("sk_a".toList, 'a'), ("sk_b".toList, 'b')] (by decide) _ hdistinct _
    rfl
  have hmem : (⟨"$2b$10$ask_a".toList, 0, none⟩ : IngestKeyRecord) ∈ (addStreamKey collidingHashing
      (newKeyStore collidingHashing [("sk_a".toList, 'a'), ("sk_b".toList, 'b')]) (some ⟨7⟩)
      (fun _ => ⟨0, by decide⟩) 'c').keys := by
    decide +kernel
  have hrecord : IsRecordOf collidingHashing "sk_a".toList ⟨"$2b$10$ask_a".toList, 0, none⟩ :=
    ⟨'a', none, rfl⟩
  exact ⟨collidingHashing_exact, _, rfl, (hvalid _).mpr (.inr ⟨_, hmem, hrecord⟩),
    hresolve _ _ hmem hrecord⟩

end StreamInfa
