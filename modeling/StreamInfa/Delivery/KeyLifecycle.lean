import StreamInfa.Core.Rotation
import StreamInfa.Storage.Cleanup

/-!
The life of a stream key.

A key is issued when a live stream is created, when one is generated for a stream, and
when the keys of a stream are rotated. It should be good until its stream is rotated
or deleted. Creation, generation and rotation keep that law among themselves, but a
deletion does not touch the key store, and a reload of the configuration replaces it. The
steps of the event handler are there so that the records pass through all their states.

`KeepsKeys` is what an operation needs to keep the law, and **`issued_keys_iff`** says
that a run keeps it exactly if all its operations meet this condition.
-/

namespace StreamInfa.Delivery

open Control Storage

/-- A key handed out for a stream, and whether the stream has been rotated or deleted
since. -/
structure IssuedKey where
  key : Text
  streamId : StreamId
  revoked : Bool
deriving DecidableEq, Repr

/-- The stream records, the key store and the keys issued so far. -/
structure KeyService where
  manager : StreamStateManager
  store : IngestKeyStore
  issued : List IssuedKey

inductive KeyAction (Salt : Type) where
  /-- POST of a stream with a new id; a live one gets a key. -/
  | create (streamId : StreamId) (ingestMode : IngestMode)
      (random : RandomPart streamKeyRandomLength) (salt : Salt) (now : DateTime)
  /-- `generate_stream_key_for_stream`. -/
  | generate (streamId : StreamId) (random : RandomPart streamKeyRandomLength) (salt : Salt)
  /-- `rotate_stream_key_for_stream`. -/
  | rotate (streamId : StreamId) (random : RandomPart streamKeyRandomLength) (salt : Salt)
  /-- The delete handler. -/
  | delete (streamId : StreamId) (now : DateTime)
  /-- A cleanup cycle. -/
  | cleanup (now stamp : DateTime) (failing : List StreamId)
  /-- SIGHUP: `update_stream_keys` with the keys of the configuration. -/
  | reload (keys : List (Text × Salt))
  /-- The event handler moves a record on. -/
  | event (event : PipelineEvent) (now : DateTime)

/-- The stream has been rotated or deleted. -/
def revoke (issued : List IssuedKey) (gone : StreamId → Bool) : List IssuedKey :=
  issued.map fun k => if gone k.streamId then { k with revoked := true } else k

section

variable {Salt : Type} (H : KeyHashing Salt)

def KeyService.start (configured : List (Text × Salt)) : KeyService :=
  ⟨.new, newKeyStore H configured, []⟩

/-- Add a new key for a stream. A failed hash is a panic, and keys are drawn distinct. -/
def KeyService.issue (s : KeyService) (streamId : StreamId)
    (random : RandomPart streamKeyRandomLength) (salt : Salt) : Option KeyService :=
  match newStreamKey H random salt (some streamId) with
  | none => none
  | some (key, record) =>
    if key ∈ s.issued.map IssuedKey.key then none
    else
      some { s with
        store := s.store.push record
        issued := s.issued ++ [⟨key, streamId, false⟩] }

/-- The records after the delete handler, `none` when it answers 404. -/
def deleteRecord (m : StreamStateManager) (streamId : StreamId) (now : DateTime) :
    Option StreamStateManager :=
  (m.streams.lookup streamId).map fun entry =>
    if entry.state ≠ .deleted then orUnchanged m (m.transition streamId .deleted now) else m

def keyServiceStep (s : KeyService) : KeyAction Salt → Option KeyService
  | .create streamId ingestMode random salt now =>
    if s.manager.streams.lookup streamId = none then
      let s := { s with manager := (s.manager.createStream streamId ingestMode now).2 }
      match ingestMode with
      | .live => s.issue H streamId random salt
      | .vod => some s
    else none
  | .generate streamId random salt => s.issue H streamId random salt
  | .rotate streamId random salt =>
    { s with
      store := s.store.retain fun k => k.streamId ≠ some streamId
      issued := revoke s.issued (· = streamId) }.issue H streamId random salt
  | .delete streamId now =>
    match deleteRecord s.manager streamId now with
    | none => some s
    | some m => some { s with manager := m, issued := revoke s.issued (· = streamId) }
  | .cleanup now stamp failing =>
    some { s with
      manager := cleanupRecords s.manager now stamp failing
      issued := revoke s.issued (· ∈ retiredStreams s.manager now failing) }
  | .reload keys => some { s with store := newKeyStore H keys }
  | .event event now => some { s with manager := handleEvent s.manager event now }

/-- The law: an issued key is accepted as long as its stream has been neither rotated nor
deleted. -/
def KeysFollowStreams (s : KeyService) : Prop :=
  ∀ k ∈ s.issued, validateStreamKey H s.store k.key = .ok () ↔ k.revoked = false

/-- What an operation needs to keep the law. A first record must not lock out keys that an
empty store lets in. A rotation must find the keys of its stream bound to it, as they
are unless a reload has listed them. A deletion must have no key left to revoke. A
reload must list the keys that are good, and no others. -/
def KeepsKeys (s : KeyService) : KeyAction Salt → Prop
  | .create _ .live _ _ _ | .generate .. => s.store.keys = [] → s.issued = []
  | .create _ .vod _ _ _ | .event .. => True
  | .rotate streamId _ _ =>
    (s.store.keys = [] → ∀ k ∈ s.issued, k.streamId = streamId) ∧
    ∀ k ∈ s.issued, k.streamId = streamId → ∀ record ∈ s.store.keys,
      IsRecordOf H k.key record → record.streamId = some streamId
  | .delete streamId _ =>
    s.manager.streams.lookup streamId ≠ none →
      ∀ k ∈ s.issued, k.streamId = streamId → k.revoked = true
  | .cleanup now _ failing =>
    ∀ k ∈ s.issued, k.streamId ∈ retiredStreams s.manager now failing → k.revoked = true
  | .reload keys =>
    ∀ k ∈ s.issued, ((∀ p ∈ keys, H.hash p.1 p.2 = none) ∨
      ∃ salt, (k.key, salt) ∈ keys ∧ H.hash k.key salt ≠ none) ↔ k.revoked = false

/-! ### Records and issued keys -/

/-- Every record is that of some key, a bound one that of a key issued for its stream,
and the issued keys are distinct. -/
structure WellIssued (s : KeyService) : Prop where
  genuine : ∀ record ∈ s.store.keys, ∃ key, IsRecordOf H key record
  bound : ∀ record ∈ s.store.keys, ∀ id, record.streamId = some id →
    ∃ k ∈ s.issued, IsRecordOf H k.key record ∧ k.streamId = id
  distinct : (s.issued.map IssuedKey.key).Nodup

variable {H} {s s' : KeyService}

theorem mem_revoke {issued : List IssuedKey} {gone : StreamId → Bool} {k : IssuedKey} :
    k ∈ revoke issued gone ↔ ∃ k₀ ∈ issued, k.key = k₀.key ∧ k.streamId = k₀.streamId ∧
      k.revoked = (gone k₀.streamId || k₀.revoked) := by
  rw [revoke, List.mem_map]
  constructor
  · rintro ⟨k₀, hk₀, rfl⟩
    refine ⟨k₀, hk₀, ?_⟩
    cases hgone : gone k₀.streamId <;> simp
  · rintro ⟨k₀, hk₀, hkey, hid, hrevoked⟩
    refine ⟨k₀, hk₀, ?_⟩
    obtain ⟨key, id, revoked⟩ := k
    obtain rfl : key = k₀.key := hkey
    obtain rfl : id = k₀.streamId := hid
    cases hgone : gone k₀.streamId <;> simp_all

theorem forall_revoke (issued : List IssuedKey) (gone : StreamId → Bool)
    (P : Text → Bool → Prop) :
    (∀ k ∈ revoke issued gone, P k.key k.revoked) ↔
      ∀ k ∈ issued, P k.key (gone k.streamId || k.revoked) := by
  constructor
  · intro hall k hk
    exact hall ⟨k.key, k.streamId, gone k.streamId || k.revoked⟩
      (mem_revoke.mpr ⟨k, hk, rfl, rfl, rfl⟩)
  · intro hall k hk
    obtain ⟨k₀, hk₀, hkey, -, hrevoked⟩ := mem_revoke.mp hk
    rw [hkey, hrevoked]
    exact hall k₀ hk₀

theorem keys_revoke (issued : List IssuedKey) (gone : StreamId → Bool) :
    (revoke issued gone).map IssuedKey.key = issued.map IssuedKey.key := by
  rw [revoke, List.map_map]
  refine List.map_congr_left fun k _ => ?_
  simp only [Function.comp_apply]
  split <;> rfl

theorem WellIssued.retain (h : WellIssued H s) (gone : StreamId → Bool)
    (keep : IngestKeyRecord → Bool) :
    WellIssued H { s with store := s.store.retain keep, issued := revoke s.issued gone } where
  genuine record hmem := h.genuine record (List.mem_filter.mp hmem).1
  bound record hmem id hid := by
    obtain ⟨k, hk, hrecord, hstream⟩ := h.bound record (List.mem_filter.mp hmem).1 id hid
    exact ⟨{ k with revoked := gone k.streamId || k.revoked },
      mem_revoke.mpr ⟨k, hk, rfl, rfl, rfl⟩, hrecord, hstream⟩
  distinct := by
    rw [keys_revoke]
    exact h.distinct

theorem issue_eq_some {streamId : StreamId} {random : RandomPart streamKeyRandomLength}
    {salt : Salt} (h : s.issue H streamId random salt = some s') :
    ∃ key record, key ∉ s.issued.map IssuedKey.key ∧ IsRecordOf H key record ∧
      record.streamId = some streamId ∧
      s' =
        { s with
          store := s.store.push record
          issued := s.issued ++ [⟨key, streamId, false⟩] } := by
  unfold KeyService.issue at h
  split at h
  · cases h
  · rename_i key record hnew
    split at h
    · cases h
    · rename_i hfresh
      have hbinding : record.streamId = some streamId := by
        obtain ⟨record', hrecord, heq⟩ := Option.map_eq_some_iff.mp hnew
        obtain ⟨-, rfl⟩ := Prod.mk.inj heq
        obtain ⟨hash, -, rfl⟩ := Option.map_eq_some_iff.mp hrecord
        rfl
      exact ⟨key, record, hfresh, isRecordOf_newStreamKey hnew, hbinding, (Option.some.inj h).symm⟩

theorem WellIssued.issue (h : WellIssued H s) {streamId : StreamId}
    {random : RandomPart streamKeyRandomLength} {salt : Salt}
    (hissue : s.issue H streamId random salt = some s') : WellIssued H s' := by
  obtain ⟨key, record, hfresh, hrecord, hbinding, rfl⟩ := issue_eq_some hissue
  refine ⟨?_, ?_, ?_⟩
  · intro r hr
    rcases List.mem_append.mp hr with hr | hr
    · exact h.genuine r hr
    · rw [List.mem_singleton.mp hr]
      exact ⟨key, hrecord⟩
  · intro r hr id hid
    rcases List.mem_append.mp hr with hr | hr
    · obtain ⟨k, hk, hkey, hstream⟩ := h.bound r hr id hid
      exact ⟨k, List.mem_append_left _ hk, hkey, hstream⟩
    · obtain rfl := List.mem_singleton.mp hr
      refine ⟨⟨key, streamId, false⟩, List.mem_append_right _ List.mem_cons_self, hrecord, ?_⟩
      exact Option.some.inj (hbinding.symm.trans hid)
  · rw [List.map_append, List.nodup_append]
    refine ⟨h.distinct, by simp, ?_⟩
    intro k hk k' hk' heq
    obtain rfl : k' = key := by simpa using hk'
    exact hfresh (heq ▸ hk)

theorem wellIssued_reload (h : WellIssued H s) (keys : List (Text × Salt)) :
    WellIssued H { s with store := newKeyStore H keys } := by
  have hrecord : ∀ record ∈ (newKeyStore H keys).keys,
      ∃ p ∈ keys, hashedRecord H p.1 p.2 none = some record := by
    intro record hmem
    rw [keys_newKeyStore] at hmem
    exact List.mem_filterMap.mp hmem
  refine ⟨?_, ?_, h.distinct⟩
  · intro record hmem
    obtain ⟨p, -, hp⟩ := hrecord record hmem
    exact ⟨p.1, p.2, none, hp⟩
  · intro record hmem id hid
    obtain ⟨p, -, hp⟩ := hrecord record hmem
    obtain ⟨hash, -, rfl⟩ := Option.map_eq_some_iff.mp hp
    cases hid

theorem WellIssued.step (h : WellIssued H s) {a : KeyAction Salt}
    (hstep : keyServiceStep H s a = some s') : WellIssued H s' := by
  have hkeep : ∀ (m : StreamStateManager) (gone : StreamId → Bool),
      WellIssued H { s with manager := m, issued := revoke s.issued gone } := by
    intro m gone
    have hall := h.retain gone fun _ => true
    refine ⟨h.genuine, fun record hmem => hall.bound record ?_, hall.distinct⟩
    exact List.mem_filter.mpr ⟨hmem, rfl⟩
  cases a with
  | create streamId ingestMode random salt now =>
    simp only [keyServiceStep] at hstep
    split at hstep
    · cases ingestMode with
      | live =>
        refine WellIssued.issue ?_ hstep
        exact ⟨h.genuine, h.bound, h.distinct⟩
      | vod =>
        obtain rfl := Option.some.inj hstep
        exact ⟨h.genuine, h.bound, h.distinct⟩
    · cases hstep
  | generate streamId random salt => exact h.issue hstep
  | rotate streamId random salt => exact (h.retain _ _).issue hstep
  | delete streamId now =>
    simp only [keyServiceStep] at hstep
    split at hstep
    · obtain rfl := Option.some.inj hstep
      exact h
    · obtain rfl := Option.some.inj hstep
      exact hkeep _ _
  | cleanup now stamp failing =>
    obtain rfl := Option.some.inj hstep
    exact hkeep _ _
  | reload keys =>
    obtain rfl := Option.some.inj hstep
    exact wellIssued_reload h keys
  | event event now =>
    obtain rfl := Option.some.inj hstep
    exact ⟨h.genuine, h.bound, h.distinct⟩

/-! ### The law in terms of the records -/

/-- A record of the key is stored. -/
def Stored (H : KeyHashing Salt) (store : IngestKeyStore) (key : Text) : Prop :=
  ∃ record ∈ store.keys, IsRecordOf H key record

theorem keysFollowStreams_iff (hexact : H.Exact) (h : WellIssued H s) :
    KeysFollowStreams H s ↔
      ∀ k ∈ s.issued, (s.store.keys = [] ∨ Stored H s.store k.key) ↔ k.revoked = false := by
  refine forall_congr' fun k => forall_congr' fun _ => ?_
  rw [validateStreamKey_eq_ok_iff hexact h.genuine]
  rfl

/-- A bound record of an issued key is bound to the stream of the key. -/
theorem WellIssued.streamId_eq (hexact : H.Exact) (h : WellIssued H s) {record : IngestKeyRecord}
    (hmem : record ∈ s.store.keys) {id : StreamId} (hid : record.streamId = some id)
    {k : IssuedKey} (hk : k ∈ s.issued) (hrecord : IsRecordOf H k.key record) :
    k.streamId = id := by
  obtain ⟨k', hk', hrecord', hstream⟩ := h.bound record hmem id hid
  have hkey : k'.key = k.key := hrecord.key_unique hexact hrecord'
  obtain rfl := List.inj_on_of_nodup_map h.distinct hk' hk hkey
  exact hstream

/-- Only the new key gets a record by an issue. -/
theorem stored_push {store : IngestKeyStore} {record : IngestKeyRecord} {key other : Text}
    (hexact : H.Exact) (hrecord : IsRecordOf H key record) :
    Stored H (store.push record) other ↔ Stored H store other ∨ other = key := by
  constructor
  · rintro ⟨r, hr, hother⟩
    rcases List.mem_append.mp hr with hr | hr
    · exact Or.inl ⟨r, hr, hother⟩
    · rw [List.mem_singleton.mp hr] at hother
      exact Or.inr (hrecord.key_unique hexact hother)
  · rintro (⟨r, hr, hother⟩ | rfl)
    · exact ⟨r, List.mem_append_left _ hr, hother⟩
    · exact ⟨record, List.mem_append_right _ List.mem_cons_self, hrecord⟩

theorem push_keys_ne_nil (store : IngestKeyStore) (record : IngestKeyRecord) :
    (store.push record).keys ≠ [] := by
  simp [IngestKeyStore.push]

/-- The law after a key is issued: the earlier keys no longer profit from an empty
store. -/
theorem keysFollowStreams_issue (hexact : H.Exact) (h : WellIssued H s) {streamId : StreamId}
    {random : RandomPart streamKeyRandomLength} {salt : Salt}
    (hissue : s.issue H streamId random salt = some s') :
    KeysFollowStreams H s' ↔ ∀ k ∈ s.issued, Stored H s.store k.key ↔ k.revoked = false := by
  rw [keysFollowStreams_iff hexact (h.issue hissue)]
  obtain ⟨key, record, hfresh, hrecord, -, rfl⟩ := issue_eq_some hissue
  have hne := push_keys_ne_nil s.store record
  have hold : ∀ k ∈ s.issued, k.key ≠ key := by
    rintro k hk rfl
    exact hfresh (List.mem_map_of_mem hk)
  simp only [hne, false_or, stored_push hexact hrecord, List.mem_append, List.mem_singleton]
  constructor
  · intro hall k hk
    rw [← hall k (Or.inl hk), or_iff_left (hold k hk)]
  · rintro hall k (hk | rfl)
    · rw [or_iff_left (hold k hk)]
      exact hall k hk
    · simp

/-! ### One operation -/

theorem KeysFollowStreams.stored_iff (hexact : H.Exact) (h : WellIssued H s)
    (hlaw : KeysFollowStreams H s) (hne : s.store.keys ≠ []) {k : IssuedKey} (hk : k ∈ s.issued) :
    Stored H s.store k.key ↔ k.revoked = false := by
  rw [← (keysFollowStreams_iff hexact h).mp hlaw k hk, or_iff_right hne]

/-- An empty store accepts every key, so none can have been revoked. -/
theorem KeysFollowStreams.not_revoked (hexact : H.Exact) (h : WellIssued H s)
    (hlaw : KeysFollowStreams H s) (hnil : s.store.keys = []) {k : IssuedKey} (hk : k ∈ s.issued) :
    k.revoked = false :=
  ((keysFollowStreams_iff hexact h).mp hlaw k hk).mp (Or.inl hnil)

theorem not_stored_of_nil {store : IngestKeyStore} (hnil : store.keys = []) (key : Text) :
    ¬ Stored H store key := by
  rintro ⟨record, hmem, -⟩
  rw [hnil] at hmem
  exact List.not_mem_nil hmem

theorem keeps_issue_iff (hexact : H.Exact) (h : WellIssued H s) (hlaw : KeysFollowStreams H s)
    {streamId : StreamId} {random : RandomPart streamKeyRandomLength} {salt : Salt}
    (hissue : s.issue H streamId random salt = some s') :
    KeysFollowStreams H s' ↔ (s.store.keys = [] → s.issued = []) := by
  rw [keysFollowStreams_issue hexact h hissue]
  constructor
  · intro hstored hnil
    refine List.eq_nil_iff_forall_not_mem.mpr fun k hk => ?_
    exact not_stored_of_nil hnil _ ((hstored k hk).mpr (hlaw.not_revoked hexact h hnil hk))
  · intro hempty k hk
    refine hlaw.stored_iff hexact h (fun hnil => ?_) hk
    rw [hempty hnil] at hk
    exact List.not_mem_nil hk

/-- After the removal of the records of a stream, the keys of the other streams are
stored as before, and those of the stream only in records that are not bound to it. -/
theorem stored_retain_iff (hexact : H.Exact) (h : WellIssued H s) (streamId : StreamId)
    {k : IssuedKey} (hk : k ∈ s.issued) :
    Stored H (s.store.retain fun r => r.streamId ≠ some streamId) k.key ↔
      if k.streamId = streamId then
        ¬ ∀ record ∈ s.store.keys, IsRecordOf H k.key record → record.streamId = some streamId
      else Stored H s.store k.key := by
  have hmem : Stored H (s.store.retain fun r => r.streamId ≠ some streamId) k.key ↔
      ∃ record ∈ s.store.keys, IsRecordOf H k.key record ∧ record.streamId ≠ some streamId := by
    simp only [Stored, IngestKeyStore.retain, List.mem_filter, decide_eq_true_eq]
    exact exists_congr fun _ => by rw [and_assoc, and_comm (b := IsRecordOf H k.key _)]
  rw [hmem]
  split
  · push Not
    rfl
  · rename_i hother
    constructor
    · rintro ⟨record, hrecord, hof, -⟩
      exact ⟨record, hrecord, hof⟩
    · rintro ⟨record, hrecord, hof⟩
      refine ⟨record, hrecord, hof, fun hbound => hother ?_⟩
      exact h.streamId_eq hexact hrecord hbound hk hof

theorem keeps_rotate_iff (hexact : H.Exact) (h : WellIssued H s) (hlaw : KeysFollowStreams H s)
    {streamId : StreamId} {random : RandomPart streamKeyRandomLength} {salt : Salt}
    (hstep : keyServiceStep H s (.rotate streamId random salt) = some s') :
    KeysFollowStreams H s' ↔ KeepsKeys H s (.rotate streamId random salt) := by
  have hone : ∀ k ∈ s.issued,
      ((Stored H (s.store.retain fun r => r.streamId ≠ some streamId) k.key ↔
        (decide (k.streamId = streamId) || k.revoked) = false) ↔
      if k.streamId = streamId then
        ∀ record ∈ s.store.keys, IsRecordOf H k.key record → record.streamId = some streamId
      else s.store.keys ≠ []) := by
    intro k hk
    rw [stored_retain_iff hexact h streamId hk]
    by_cases hid : k.streamId = streamId
    · simp [hid]
    · simp only [hid, if_false, decide_false, Bool.false_or]
      constructor
      · intro hiff hnil
        exact not_stored_of_nil hnil _ (hiff.mpr (hlaw.not_revoked hexact h hnil hk))
      · exact fun hne => hlaw.stored_iff hexact h hne hk
  rw [keysFollowStreams_issue hexact (h.retain _ _) hstep]
  refine Iff.trans (forall_revoke s.issued (· = streamId) fun key revoked =>
    Stored H (s.store.retain fun r => r.streamId ≠ some streamId) key ↔ revoked = false) ?_
  refine Iff.trans (forall₂_congr hone) ?_
  constructor
  · intro hall
    refine ⟨fun hnil k hk => ?_, fun k hk hid => ?_⟩
    · by_contra hid
      have hne := hall k hk
      rw [if_neg hid] at hne
      exact hne hnil
    · have hbound := hall k hk
      rwa [if_pos hid] at hbound
  · rintro ⟨hnil, hbound⟩ k hk
    split
    · rename_i hid
      exact hbound k hk hid
    · rename_i hid
      exact fun hempty => hid (hnil hempty k hk)

/-- A revocation that leaves the store alone. -/
theorem keeps_revoke_iff (hlaw : KeysFollowStreams H s)
    (m : StreamStateManager) (gone : StreamId → Bool) :
    KeysFollowStreams H { s with manager := m, issued := revoke s.issued gone } ↔
      ∀ k ∈ s.issued, gone k.streamId = true → k.revoked = true := by
  refine Iff.trans (forall_revoke s.issued gone fun key revoked =>
    validateStreamKey H s.store key = .ok () ↔ revoked = false) (forall₂_congr fun k hk => ?_)
  rw [hlaw k hk]
  cases gone k.streamId <;> cases k.revoked <;> simp

theorem keys_newKeyStore_eq_nil (keys : List (Text × Salt)) :
    (newKeyStore H keys).keys = [] ↔ ∀ p ∈ keys, H.hash p.1 p.2 = none := by
  rw [keys_newKeyStore, List.filterMap_eq_nil_iff]
  simp [hashedRecord]

theorem stored_newKeyStore (hexact : H.Exact) (keys : List (Text × Salt)) (key : Text) :
    Stored H (newKeyStore H keys) key ↔ ∃ salt, (key, salt) ∈ keys ∧ H.hash key salt ≠ none := by
  rw [Stored, keys_newKeyStore]
  constructor
  · rintro ⟨record, hmem, hof⟩
    obtain ⟨p, hp, hrecord⟩ := List.mem_filterMap.mp hmem
    obtain rfl : key = p.1 := IsRecordOf.key_unique hexact ⟨p.2, none, hrecord⟩ hof
    refine ⟨p.2, hp, fun hnone => ?_⟩
    rw [hashedRecord, hnone] at hrecord
    cases hrecord
  · rintro ⟨salt, hmem, hhash⟩
    obtain ⟨hash, hhash⟩ := Option.ne_none_iff_exists'.mp hhash
    have hrecord : hashedRecord H key salt none = some ⟨hash, H.fastKeyHash key, none⟩ := by
      rw [hashedRecord, hhash]
      rfl
    exact ⟨_, List.mem_filterMap.mpr ⟨(key, salt), hmem, hrecord⟩, salt, none, hrecord⟩

/-- From a state that obeys the law, an operation leads to one that does exactly if it
meets the condition. -/
theorem keysFollowStreams_step_iff (hexact : H.Exact) (h : WellIssued H s)
    (hlaw : KeysFollowStreams H s) {a : KeyAction Salt} (hstep : keyServiceStep H s a = some s') :
    KeysFollowStreams H s' ↔ KeepsKeys H s a := by
  cases a with
  | create streamId ingestMode random salt now =>
    simp only [keyServiceStep] at hstep
    split at hstep
    · cases ingestMode with
      | live =>
        have h' : WellIssued H
            { s with manager := (s.manager.createStream streamId .live now).2 } :=
          ⟨h.genuine, h.bound, h.distinct⟩
        have hkeeps := keeps_issue_iff hexact h' hlaw hstep
        exact hkeeps
      | vod =>
        obtain rfl := Option.some.inj hstep
        exact iff_of_true hlaw trivial
    · cases hstep
  | generate streamId random salt => exact keeps_issue_iff hexact h hlaw hstep
  | rotate streamId random salt => exact keeps_rotate_iff hexact h hlaw hstep
  | delete streamId now =>
    simp only [keyServiceStep, deleteRecord] at hstep
    cases hlookup : s.manager.streams.lookup streamId with
    | none =>
      rw [hlookup] at hstep
      obtain rfl := Option.some.inj hstep
      exact iff_of_true hlaw fun hsome => absurd hlookup hsome
    | some entry =>
      rw [hlookup] at hstep
      obtain rfl := Option.some.inj hstep
      rw [keeps_revoke_iff hlaw]
      simp [KeepsKeys, hlookup]
  | cleanup now stamp failing =>
    obtain rfl := Option.some.inj hstep
    rw [keeps_revoke_iff hlaw]
    simp [KeepsKeys]
  | reload keys =>
    obtain rfl := Option.some.inj hstep
    rw [keysFollowStreams_iff hexact (wellIssued_reload h keys)]
    simp only [keys_newKeyStore_eq_nil, stored_newKeyStore hexact]
    rfl
  | event event now =>
    obtain rfl := Option.some.inj hstep
    exact iff_of_true hlaw trivial

/-! ### Runs -/

theorem wellIssued_start (configured : List (Text × Salt)) :
    WellIssued H (.start H configured) := by
  have hnew : WellIssued H ⟨.new, .new, []⟩ := by
    constructor <;> simp [IngestKeyStore.new]
  exact wellIssued_reload hnew configured

/-- In every run from the start of the server, each issued key is accepted as long as its
stream has been neither rotated nor deleted, at every moment, exactly if every operation
meets its condition. -/
theorem issued_keys_iff (H : KeyHashing Salt) (hexact : H.Exact)
    (configured : List (Text × Salt)) (actions : List (KeyAction Salt)) (s : KeyService)
    (hrun : run (keyServiceStep H) (.start H configured) actions = some s) :
    (∀ n t, run (keyServiceStep H) (.start H configured) (actions.take n) = some t →
        KeysFollowStreams H t) ↔
      Meets (keyServiceStep H) (KeepsKeys H) (.start H configured) actions := by
  have hstart : WellIssued H (.start H configured) := wellIssued_start configured
  have hissued : ∀ n t, run (keyServiceStep H) (.start H configured) (actions.take n) = some t →
      WellIssued H t := fun n t =>
    run_invariant (fun _ _ _ hs hstep => hs.step hstep) hstart
  rw [← meets_enabled_iff hrun, ← forall_reached_iff_meets
    (I := fun s => WellIssued H s ∧ KeysFollowStreams H s) ?_ ?_ ⟨hstart, ?_⟩]
  · exact forall₃_congr fun n t ht => (and_iff_right (hissued n t ht)).symm
  · rintro s a s' ⟨hs, hlaw⟩ hstep
    rw [and_iff_right (hs.step hstep), keysFollowStreams_step_iff hexact hs hlaw hstep]
    exact ⟨fun hkeeps _ => hkeeps, fun hkeeps => hkeeps (by simp [hstep])⟩
  · exact fun s a hnone henabled => absurd hnone henabled
  · rintro k ⟨⟩

end

/-! ### Two servers -/

def cameraStream : StreamId := ⟨11⟩

def allLetterB : RandomPart streamKeyRandomLength := fun _ => ⟨1, by decide⟩

/-- A stream is created and its key rotated. -/
def rotationRun : List (KeyAction Char) :=
  [.create cameraStream .live allLetterA 'b' ⟨0⟩,
    .rotate cameraStream allLetterB 'c']

theorem issued_keys_rotationRun :
    plainHashing.Exact ∧
    (run (keyServiceStep plainHashing) (.start plainHashing []) rotationRun).map
      (fun s => s.issued.map IssuedKey.revoked) = some [true, false] ∧
    ∀ n t, run (keyServiceStep plainHashing) (.start plainHashing []) (rotationRun.take n) =
      some t → KeysFollowStreams plainHashing t := by
  refine ⟨plainHashing_exact, rfl, ?_⟩
  refine (issued_keys_iff plainHashing plainHashing_exact [] rotationRun _ rfl).mpr ?_
  refine ⟨fun _ => rfl, fun s hs => ⟨?_, fun _ _ => trivial⟩⟩
  obtain rfl := Option.some.inj hs
  constructor
  · intro hnil
    exact absurd hnil (List.cons_ne_nil _ _)
  · intro k _ _ record hrecord _
    rw [List.mem_singleton.mp hrecord]

def firstKey : Text := generateRandomToken streamKeyPrefix allLetterA

/-- The key of a deleted stream is still accepted. The key of a stream that has been left
alone is not, once the configuration has been reloaded. -/
theorem keys_outlive_streams :
    plainHashing.Exact ∧
    (∃ s, run (keyServiceStep plainHashing) (.start plainHashing [])
        [.create cameraStream .live allLetterA 'b' ⟨0⟩,
          .event (.streamError cameraStream "no frames".toList) ⟨1⟩,
          .delete cameraStream ⟨2⟩] = some s ∧
      (s.manager.streams.lookup cameraStream).map StreamEntry.state = some .deleted ∧
      ⟨firstKey, cameraStream, true⟩ ∈ s.issued ∧
      validateStreamKey plainHashing s.store firstKey = .ok ()) ∧
    ∃ s, run (keyServiceStep plainHashing) (.start plainHashing [("sk_studio".toList, 'a')])
        [.create cameraStream .live allLetterA 'b' ⟨0⟩,
          .reload [("sk_studio".toList, 'c')]] = some s ∧
      ⟨firstKey, cameraStream, false⟩ ∈ s.issued ∧
      validateStreamKey plainHashing s.store firstKey ≠ .ok () := by
  refine ⟨plainHashing_exact, ⟨_, rfl, ?_, ?_, ?_⟩, ⟨_, rfl, ?_, ?_⟩⟩
  · decide +kernel
  · decide +kernel
  · decide +kernel
  · decide +kernel
  · decide +kernel

end StreamInfa.Delivery
