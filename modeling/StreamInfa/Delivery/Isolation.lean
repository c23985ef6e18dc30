import StreamInfa.Delivery.Deletion
import StreamInfa.Storage.Cycle

/-!
What a deletion deletes.

The objects of all streams lie in one key space, and a stream is deleted by a prefix of its
paths. `ParsesUuids` is what the handlers rely on of the UUID parser.
**`deletion_isolated`**: neither the DELETE requests for a stream, however they spell its id,
nor a cleanup cycle reach the objects of a stream they are not about.

The DELETE handler takes the prefix from the request and the record from the parsed id.
**`delete_clears_iff`**: it empties the stream's own prefix exactly if the id is spelled the
way the paths spell it, or there was nothing to delete. A request in upper case is answered
and deletes nothing (`upper_case_leaves_playlist`).
-/

namespace StreamInfa.Delivery

open Control Package Storage

/-! ### Spellings -/

/-- The UUID parser accepts the canonical spelling of an id, and no text with a slash. -/
structure ParsesUuids (parseUuid : Text → Option StreamId) : Prop where
  canonical : ∀ id : StreamId, parseUuid id.toText = some id
  slashless : ∀ raw id, parseUuid raw = some id → '/' ∉ raw

/-- The spelling of the id in the request. -/
def DeletePhase.spelling : DeletePhase → Option Text
  | .idle => none
  | .found streamId .. | .purged streamId .. => some streamId

/-- The spelling of the id in the DELETE request that makes a step. -/
def deleteSpelling (s : DeliveryServer) : DeliveryAction → Option Text
  | .delete _ _ streamId => some streamId
  | .purge i _ _ | .conclude i _ => (s.deletes i).spelling
  | _ => none

/-- A step of a DELETE request for the stream, under some spelling of its id. -/
def OfDeletion (env : Environment) (id : StreamId) (s : DeliveryServer) (a : DeliveryAction) :
    Prop :=
  ∃ raw, deleteSpelling s a = some raw ∧ parseStreamIdParam env.parseUuid raw = .ok id

variable {env : Environment} {s s' : DeliveryServer} {id other : StreamId} {raw path : Text}

/-- Under the prefix of a stream and of a spelling, the spelling is the stream's own. -/
theorem eq_toText_of_prefixes (hslash : '/' ∉ raw) (hraw : raw ++ ['/'] <+: path)
    (hid : streamPrefix id <+: path) : raw = id.toText :=
  (takeWhile_of_slash hslash hraw).symm.trans
    (takeWhile_of_slash id.slash_notMem_toText hid)

/-! ### DELETE requests -/

/-- A step of a DELETE request keeps the objects of the other streams. -/
theorem agreeOn_of_ofDeletion (hparser : ParsesUuids env.parseUuid) {a : DeliveryAction}
    (ha : OfDeletion env id s a) (hne : id ≠ other) (hstep : deliveryStep env s a = some s') :
    AgreeOn other s.store s'.store := by
  obtain ⟨raw, hspelling, hid⟩ := ha
  have houtcome := deliveryStep_outcome hstep
  cases houtcome with
  | rejected | found | concluded => exact fun _ _ => rfl
  | purged kept failed hi =>
    rw [deleteSpelling, hi] at hspelling
    obtain rfl := Option.some.inj hspelling
    have huuid := parseUuid_of_parseStreamIdParam hid
    intro path hpath
    refine (lookup_deletePrefix _ _ _ _).trans (if_neg ?_)
    rintro ⟨hraw, -⟩
    obtain rfl := eq_toText_of_prefixes (hparser.slashless _ _ huuid) hraw hpath
    exact hne (Option.some.inj (huuid.symm.trans (hparser.canonical other)))
  | ticked | managed | stored | refused | passed | hit | missed | fetched | unfetched
  | finished | expired | listedErrors | listedDeleted | retired | buried | forgot =>
    cases hspelling

/-- The steps of DELETE requests for a stream and nothing else keep the objects of the other
streams, and a cleanup cycle keeps what it is not for: the objects and the record of a stream
in PENDING, PROCESSING or READY, what is not a segment of a LIVE stream, and the record of a
stream in ERROR until its objects have been deleted. -/
theorem deletion_isolated (hparser : ParsesUuids env.parseUuid) :
    (∀ {s s' : DeliveryServer} {steps : List DeliveryAction} {a b : StreamId}, a ≠ b →
      Meets (deliveryStep env) (OfDeletion env a) s steps →
      run (deliveryStep env) s steps = some s' → AgreeOn b s.store s'.store) ∧
    ∀ (m : StreamStateManager) (config : RetentionConfig) (now : DateTime)
      (stamp : StreamId → DateTime) (faults : StoreFaults) (failing : List StreamId)
      (store : MediaStore) (id : StreamId) (entry : StreamEntry),
      m.streams.lookup id = some entry →
      let c := cleanupCycle m config now stamp faults failing store
      (entry.state ∈ [.pending, .processing, .ready] →
        AgreeOn id store c.store ∧ c.records.streams.lookup id = some entry) ∧
      (entry.state = .live → ∀ path, streamPrefix id <+: path →
        c.store.lookup path = store.lookup path ∨
          ".m4s".toList <:+ path ∧ c.store.lookup path = none) ∧
      (entry.state = .error →
        (c.records.streams.lookup id = some entry ∨ .transition id ∈ c.calls) ∧
        ∀ before after, c.calls = before ++ .transition id :: after →
          .deletePrefix id true ∈ before) := by
  constructor
  · intro s s' steps a b hne hmeets hrun
    refine run_invariant_of_meets (I := fun t => AgreeOn b s.store t.store) ?_
      (fun _ _ => rfl) hmeets hrun
    intro t act t' hagree hact hstep path hpath
    exact (agreeOn_of_ofDeletion hparser hact hne hstep path hpath).trans (hagree path hpath)
  · intro m config now stamp faults failing store id entry hentry c
    refine ⟨fun hstate => ?_, fun hlive path hpath => ?_, fun herror => ?_⟩
    · have hlive : entry.state ≠ .live := by rintro heq; simp [heq] at hstate
      have herror : entry.state ≠ .error := by rintro heq; simp [heq] at hstate
      have hdeleted : entry.state ≠ .deleted := by rintro heq; simp [heq] at hstate
      exact ⟨agreeOn_cleanupCycle hentry hlive herror,
        record_cleanupCycle hentry herror hdeleted⟩
    · exact objects_cleanupCycle hentry hlive hpath
    · have hretires : Retires id entry c := retired_cleanupCycle hentry herror
      refine ⟨hretires.record, fun before after hcalls => ?_⟩
      have hbefore := eachAfter_iff.mp hretires.ordered before _ after hcalls id rfl
      rwa [List.nil_append] at hbefore

/-! ### What a DELETE request leaves -/

/-- The steps of a DELETE request in a row, the store's call with what it keeps. -/
def deletionSteps (i : ℕ) (denied : Option Response) (raw : Text) (kept : List Text)
    (failed : Bool) (now : DateTime) : List DeliveryAction :=
  [.delete i denied raw, .purge i kept failed, .conclude i now]

/-- A request that comes to its end is answered 200, and has deleted the prefix of its
spelling. -/
theorem run_deletionSteps {i : ℕ} {denied : Option Response} {kept : List Text} {failed : Bool}
    {now : DateTime}
    (hrun : run (deliveryStep env) s (deletionSteps i denied raw kept failed now) = some s') :
    s'.store = s.store.deletePrefix (raw ++ ['/']) kept ∧
      ∃ n, s'.answer = some (.deleted raw n) := by
  obtain ⟨s₁, hfirst, hrun⟩ := run_cons_eq_some hrun
  obtain ⟨s₂, hsecond, hrun⟩ := run_cons_eq_some hrun
  obtain ⟨s₃, hthird, hrun⟩ := run_cons_eq_some hrun
  obtain rfl := Option.some.inj hrun
  cases deliveryStep_outcome hfirst with
  | rejected hi =>
    cases deliveryStep_outcome hsecond with
    | purged _ _ hfound => cases hi.symm.trans hfound
  | found =>
    cases deliveryStep_outcome hsecond with
    | purged _ _ hfound =>
      obtain ⟨rfl, -, -⟩ := DeletePhase.found.inj ((Function.update_self _ _ _).symm.trans hfound)
      cases deliveryStep_outcome hthird with
      | concluded _ hpurged =>
        obtain ⟨rfl, -, -, -⟩ :=
          DeletePhase.purged.inj ((Function.update_self _ _ _).symm.trans hpurged)
        exact ⟨rfl, _, rfl⟩

/-- A DELETE request over a store whose operations succeed is answered 200; it leaves no object
of the stream exactly if it spells the id as the paths do, or the stream has no object. -/
theorem delete_clears_iff (hparser : ParsesUuids env.parseUuid) {i : ℕ}
    {denied : Option Response} {now : DateTime}
    (hid : parseStreamIdParam env.parseUuid raw = .ok id)
    (hrun : run (deliveryStep env) s (deletionSteps i denied raw [] false now) = some s') :
    (∃ n, s'.answer = some (.deleted raw n)) ∧
      ((∀ path, streamPrefix id <+: path → s'.store.lookup path = none) ↔
        raw = id.toText ∨ ∀ path, streamPrefix id <+: path → s.store.lookup path = none) := by
  obtain ⟨hstore, hanswer⟩ := run_deletionSteps hrun
  refine ⟨hanswer, ?_⟩
  have hslash : '/' ∉ raw := hparser.slashless raw id (parseUuid_of_parseStreamIdParam hid)
  rw [hstore]
  constructor
  · intro hcleared
    by_cases hraw : raw = id.toText
    · exact Or.inl hraw
    · refine Or.inr fun path hpath => ?_
      have hkept := hcleared path hpath
      rw [lookup_deletePrefix, if_neg] at hkept
      · exact hkept
      · exact fun hdeleted => hraw (eq_toText_of_prefixes hslash hdeleted.1 hpath)
  · rintro (rfl | hempty) path hpath
    · rw [lookup_deletePrefix]
      exact if_pos ⟨hpath, List.not_mem_nil⟩
    · rw [lookup_deletePrefix, hempty path hpath, ite_self]

/-! ### Upper case -/

section Sample

def hexValueFrom (start : ℕ) (digits : Text) : ℕ :=
  digits.foldl (fun n c => n * 16 + "0123456789abcdef".toList.idxOf c) start

/-- The hyphenated form of a UUID, in either case. -/
def parseHyphenated (raw : Text) : Option StreamId :=
  let lower := raw.map Char.toLower
  let id : StreamId := ⟨BitVec.ofNat 128 (hexValueFrom 0 (lower.filter (· ≠ '-')))⟩
  if lower = id.toText then some id else none

theorem hexValueFrom_hexPad (start w n : ℕ) :
    hexValueFrom start (hexPad w n) = start * 16 ^ w + n % 16 ^ w := by
  have hdigit : ∀ d < 16, "0123456789abcdef".toList.idxOf (Nat.digitChar d) = d := by decide
  induction w generalizing start with
  | zero => simp [hexValueFrom, hexPad, Nat.mod_one]
  | succ w ih =>
    have htail := ih (start * 16 + n / 16 ^ w % 16)
    rw [hexPad_succ, hexValueFrom, List.foldl_cons, hdigit _ (Nat.mod_lt _ (by decide)),
      ← hexValueFrom, htail, Nat.pow_succ, Nat.mod_mul]
    ring

theorem map_toLower_toText (id : StreamId) : id.toText.map Char.toLower = id.toText := by
  have hlower : ("0123456789abcdef-".toList.all fun c => c.toLower = c) = true := by decide
  conv_rhs => rw [← List.map_id id.toText]
  refine List.map_congr_left fun c hc => ?_
  exact of_decide_eq_true (List.all_eq_true.mp hlower c (StreamId.mem_toText hc))

theorem parsesUuids_parseHyphenated : ParsesUuids parseHyphenated where
  canonical := by
    intro id
    have hvalue : hexValueFrom 0 (id.toText.filter (· ≠ '-')) = id.uuid.toNat := by
      rw [StreamId.filter_toText, hexValueFrom_hexPad]
      have hlt : id.uuid.toNat < 16 ^ 32 := lt_of_lt_of_eq id.uuid.isLt (by norm_num)
      rw [Nat.mod_eq_of_lt hlt]
      ring
    unfold parseHyphenated
    rw [map_toLower_toText]
    dsimp only
    rw [hvalue, BitVec.ofNat_toNat, BitVec.setWidth_eq, if_pos rfl]
  slashless := by
    intro raw id h hslash
    unfold parseHyphenated at h
    dsimp only at h
    split at h
    · rename_i hlower
      have hmem : '/' ∈ raw.map Char.toLower := List.mem_map.mpr ⟨'/', hslash, by decide⟩
      rw [hlower] at hmem
      exact StreamId.slash_notMem_toText _ hmem
    · cases h

def recordedStream : StreamId := ⟨0x0190abcdef007000800000000000000a#128⟩

def recordedPath : Text := recordedStream.toText ++ "/master.m3u8".toList

def hyphenatedEnvironment : Environment where
  parseUuid := parseHyphenated
  delivery := ⟨"no-cache".toList, "public, max-age=86400".toList⟩
  cache := ⟨true, 536870912, 300, 3600⟩

/-- The stream is PENDING and has one object. -/
def recorded : List DeliveryAction :=
  [.manage (.create recordedStream .live ⟨0⟩),
    .put recordedPath ⟨[0x23], "application/vnd.apple.mpegurl".toList, ⟨1⟩⟩]

def upperCase : Text := recordedStream.toText.map Char.toUpper

theorem parse_upperCase : parseStreamIdParam parseHyphenated upperCase = .ok recordedStream := by
  decide +kernel

theorem parse_toText :
    parseStreamIdParam parseHyphenated recordedStream.toText = .ok recordedStream := by
  decide +kernel

/-- The request is answered and the playlist stays. -/
theorem upper_case_leaves_playlist :
    parseStreamIdParam parseHyphenated upperCase = .ok recordedStream ∧
    ∃ s s', run (deliveryStep hyphenatedEnvironment) (.start ∅) recorded = some s ∧
      run (deliveryStep hyphenatedEnvironment) s (deletionSteps 0 none upperCase [] false ⟨2⟩) =
        some s' ∧
      s'.answer = some (.deleted upperCase 0) ∧
      streamPrefix recordedStream <+: recordedPath ∧
      (s'.store.lookup recordedPath).isSome = true := by
  refine ⟨parse_upperCase, _, _, rfl, rfl, ?_, ?_, ?_⟩
  · decide +kernel
  · exact ⟨"master.m3u8".toList, by decide⟩
  · decide +kernel

/-- Under its canonical spelling the stream is emptied. -/
theorem canonical_spelling_clears :
    ∃ s s', run (deliveryStep hyphenatedEnvironment) (.start ∅) recorded = some s ∧
      run (deliveryStep hyphenatedEnvironment) s
        (deletionSteps 0 none recordedStream.toText [] false ⟨2⟩) = some s' ∧
      ∀ path, streamPrefix recordedStream <+: path → s'.store.lookup path = none := by
  have hruns : ∃ s, run (deliveryStep hyphenatedEnvironment) (.start ∅) recorded = some s ∧
      (run (deliveryStep hyphenatedEnvironment) s
        (deletionSteps 0 none recordedStream.toText [] false ⟨2⟩)).isSome = true := ⟨_, rfl, rfl⟩
  obtain ⟨s, hs, hsome⟩ := hruns
  obtain ⟨s', hs'⟩ := Option.isSome_iff_exists.mp hsome
  have hclears := @delete_clears_iff hyphenatedEnvironment _ _ _ _ parsesUuids_parseHyphenated 0
    none ⟨2⟩ parse_toText hs'
  exact ⟨s, s', hs, hs', hclears.2.mpr (Or.inl rfl)⟩

theorem meets_upperCase {s : DeliveryServer}
    (hs : run (deliveryStep hyphenatedEnvironment) (.start ∅) recorded = some s) :
    Meets (deliveryStep hyphenatedEnvironment) (OfDeletion hyphenatedEnvironment recordedStream) s
      (deletionSteps 0 none upperCase [] false ⟨2⟩) := by
  obtain rfl := Option.some.inj hs
  iterate 3
    refine ⟨⟨upperCase, rfl, parse_upperCase⟩, fun t ht => ?_⟩
    obtain rfl := Option.some.inj ht
  trivial

/-- A DELETE request in upper case keeps what another stream has stored, and a cleanup cycle
the record of a PENDING stream. -/
theorem deletion_isolated_upperCase :
    (∃ s s', run (deliveryStep hyphenatedEnvironment) (.start ∅) recorded = some s ∧
      run (deliveryStep hyphenatedEnvironment) s (deletionSteps 0 none upperCase [] false ⟨2⟩) =
        some s' ∧
      AgreeOn doorStream s.store s'.store) ∧
    (cleanupCycle (StreamStateManager.new.createStream recordedStream .live ⟨0⟩).2
      ⟨60, by decide⟩ ⟨2⟩ (fun _ => ⟨2⟩) noFaults [] ∅).records.streams.lookup recordedStream =
        some (StreamStateManager.new.createStream recordedStream .live ⟨0⟩).1 := by
  have hisolated := @deletion_isolated hyphenatedEnvironment parsesUuids_parseHyphenated
  constructor
  · refine ⟨_, _, rfl, rfl, ?_⟩
    have hne : recordedStream ≠ doorStream := by decide
    exact hisolated.1 hne (meets_upperCase rfl) rfl
  · exact ((hisolated.2 _ _ _ _ _ _ _ _ _ (AList.lookup_insert _)).1 (by decide)).2

end Sample

end StreamInfa.Delivery
