import StreamInfa.Core.Auth
import StreamInfa.Ingest.Amf

/-!
The configured stream keys: `AppConfig::apply_env_overrides` of `src/core/config.rs`, with
`AuthProvider::new` of `src/core/auth.rs`.

A provider accepts its configured keys, and any key at all if there are none
(`validate_newIngestKeys_iff`). A list of keys from the environment is split at its commas and
trimmed, and a blank item becomes the empty key. **`empty_key_rejected_iff`**: a publish command
without a stream key, which the parser gives the empty one, is rejected exactly if no item of the
list is blank. A comma at the end of the list (`trailing_comma_admits`) opens the server.
-/

namespace StreamInfa.Ingest

/-! ### The configuration -/

structure ServerConfig where
  host : Text
  controlPort : UInt16
  rtmpPort : UInt16
deriving DecidableEq, Repr

/-- The parts of the storage configuration that variables override. -/
structure StorageConfig where
  endpoint : Text
  bucket : Text
  accessKeyId : Text
  secretAccessKey : Text
  region : Text
deriving DecidableEq, Repr

structure AuthConfig where
  ingestStreamKeys : List Text
  adminBearerTokens : List Text
deriving DecidableEq, Repr

/-- The sections that variables override. -/
structure AppConfig where
  server : ServerConfig
  storage : StorageConfig
  auth : AuthConfig
  logLevel : Text
deriving DecidableEq, Repr

/-- The items between the commas, trimmed. -/
def splitItems (v : Text) : List Text := (v.splitOn ',').map trim

/-- Environment variable overrides. `var` is the environment; a port that does not parse is
ignored. -/
def applyEnvOverrides (var : Text → Option Text) (config : AppConfig) : AppConfig where
  server :=
    { host := (var "STREAMINFA_SERVER_HOST".toList).getD config.server.host
      controlPort := ((var "STREAMINFA_SERVER_CONTROL_PORT".toList).bind parseU16).getD
        config.server.controlPort
      rtmpPort := ((var "STREAMINFA_SERVER_RTMP_PORT".toList).bind parseU16).getD
        config.server.rtmpPort }
  storage :=
    { endpoint := (var "STREAMINFA_STORAGE_ENDPOINT".toList).getD config.storage.endpoint
      bucket := (var "STREAMINFA_STORAGE_BUCKET".toList).getD config.storage.bucket
      accessKeyId := (var "STREAMINFA_STORAGE_ACCESS_KEY_ID".toList).getD
        config.storage.accessKeyId
      secretAccessKey := (var "STREAMINFA_STORAGE_SECRET_ACCESS_KEY".toList).getD
        config.storage.secretAccessKey
      region := (var "STREAMINFA_STORAGE_REGION".toList).getD config.storage.region }
  auth :=
    { ingestStreamKeys := ((var "STREAMINFA_AUTH_INGEST_STREAM_KEYS".toList).map splitItems).getD
        config.auth.ingestStreamKeys
      adminBearerTokens := ((var "STREAMINFA_AUTH_ADMIN_BEARER_TOKENS".toList).map splitItems).getD
        config.auth.adminBearerTokens }
  logLevel := (var "STREAMINFA_OBSERVABILITY_LOG_LEVEL".toList).getD config.logLevel

/-- A list from the environment has a blank item exactly if it has an empty key. -/
theorem nil_mem_splitItems_iff (v : Text) :
    [] ∈ splitItems v ↔ ∃ item ∈ v.splitOn ',', ∀ c ∈ item, isWhitespace c = true := by
  simp only [splitItems, List.mem_map, trim_eq_nil_iff]

/-- It is never the empty list. -/
theorem splitItems_ne_nil (v : Text) : splitItems v ≠ [] := by
  intro h
  exact List.splitOnP_ne_nil _ v (List.map_eq_nil_iff.mp h)

/-! ### The provider -/

section Provider

variable {Salt : Type} (H : KeyHashing Salt)

/-- The key store of `AuthProvider::new`; `salt` is the randomness of each key's hash. -/
def newIngestKeys (config : AuthConfig) (salt : ℕ → Salt) : IngestKeyStore :=
  newKeyStore H (config.ingestStreamKeys.zipIdx.map fun (key, i) => (key, salt i))

variable {H} {config : AuthConfig} {salt : ℕ → Salt}

/-- The records are those of the configured keys. -/
theorem mem_keys_newIngestKeys {record : IngestKeyRecord} :
    record ∈ (newIngestKeys H config salt).keys ↔
      ∃ key i, (key, i) ∈ config.ingestStreamKeys.zipIdx ∧
        hashedRecord H key (salt i) none = some record := by
  simp only [newIngestKeys, keys_newKeyStore, List.mem_filterMap, List.mem_map, Prod.exists]
  constructor
  · rintro ⟨key, s, ⟨key', i, hmem, heq⟩, hrecord⟩
    obtain ⟨rfl, rfl⟩ := Prod.mk.inj heq
    exact ⟨key', i, hmem, hrecord⟩
  · rintro ⟨key, i, hmem, hrecord⟩
    exact ⟨key, salt i, ⟨key, i, hmem, rfl⟩, hrecord⟩

/-- If every key can be hashed, the records stand for the configured keys. -/
theorem exists_record_iff (hexact : H.Exact) (hhash : ∀ key salt, H.hash key salt ≠ none)
    {key : Text} : (∃ record ∈ (newIngestKeys H config salt).keys, IsRecordOf H key record) ↔
      key ∈ config.ingestStreamKeys := by
  constructor
  · rintro ⟨record, hmem, hrecord⟩
    obtain ⟨key', i, hkey', hhashed⟩ := mem_keys_newIngestKeys.mp hmem
    obtain rfl := hrecord.key_unique hexact ⟨salt i, none, hhashed⟩
    exact List.fst_mem_of_mem_zipIdx hkey'
  · intro hkey
    obtain ⟨i, hi, hget⟩ := List.mem_iff_getElem.mp hkey
    have hmem : (key, i) ∈ config.ingestStreamKeys.zipIdx :=
      List.mk_mem_zipIdx_iff_getElem?.mpr (by rw [List.getElem?_eq_getElem hi, hget])
    obtain ⟨hash, hhash⟩ := Option.ne_none_iff_exists'.mp (hhash key (salt i))
    have hhashed : hashedRecord H key (salt i) none = some ⟨hash, H.fastKeyHash key, none⟩ := by
      rw [hashedRecord, hhash, Option.map_some]
    exact ⟨_, mem_keys_newIngestKeys.mpr ⟨key, i, hmem, hhashed⟩, salt i, none, hhashed⟩

/-- A new provider accepts its configured keys, and everything if there are none. -/
theorem validate_newIngestKeys_iff (hexact : H.Exact) (hhash : ∀ key salt, H.hash key salt ≠ none)
    {key : Text} : validateStreamKey H (newIngestKeys H config salt) key = .ok () ↔
      config.ingestStreamKeys = [] ∨ key ∈ config.ingestStreamKeys := by
  have hrecords : ∀ record ∈ (newIngestKeys H config salt).keys,
      ∃ key, IsRecordOf H key record := by
    intro record hmem
    obtain ⟨key', i, -, hhashed⟩ := mem_keys_newIngestKeys.mp hmem
    exact ⟨key', salt i, none, hhashed⟩
  rw [validateStreamKey_eq_ok_iff hexact hrecords, exists_record_iff hexact hhash]
  refine or_congr_left ?_
  constructor
  · intro hnone
    by_contra hne
    obtain ⟨key', hkey'⟩ := List.exists_mem_of_ne_nil _ hne
    obtain ⟨record, hmem, -⟩ := (exists_record_iff hexact hhash).mpr hkey'
    rw [hnone] at hmem
    cases hmem
  · intro hnil
    rw [newIngestKeys, hnil]
    rfl

end Provider

/-! ### Publishing without a key -/

/-- A publish command whose arguments hold no stream key. -/
def PublishesNoKey (data : Bytes) : Prop :=
  ∃ l₁ l₀ rest, data = 0x02 :: l₁ :: l₀ :: rest ∧ beNat [l₁, l₀] ≤ maxAmfStringLength ∧
    beNat [l₁, l₀] ≤ rest.length ∧
    fromUtf8 (rest.take (beNat [l₁, l₀])) = some "publish".toList ∧
    extractPublishStreamKey (rest.drop (beNat [l₁, l₀])) = none

/-- It is parsed as a publish under the empty key. -/
theorem PublishesNoKey.parse {data : Bytes} (h : PublishesNoKey data) :
    parseAmfCommand data = .ok (.publish []) := by
  obtain ⟨l₁, l₀, rest, rfl, hmax, hlength, hname, hkey⟩ := h
  simp only [parseAmfCommand, if_neg (Nat.not_lt.mpr hmax), if_neg (Nat.not_lt.mpr hlength), hname,
    hkey, Option.getD_none]
  rfl

/-- A publish with a transaction id and null, and nothing behind. -/
def bareCommand : Bytes := amfString "publish".toList ++ amfZero ++ [0x05]

theorem publishesNoKey_bareCommand : PublishesNoKey bareCommand := by
  have hname : (encodeUtf8 "publish".toList ++ amfZero ++ [0x05]).take 7 =
      encodeUtf8 "publish".toList := by decide
  have harguments : (encodeUtf8 "publish".toList ++ amfZero ++ [0x05]).drop 7 =
      amfZero ++ [0x05] := by decide
  refine ⟨0, 7, encodeUtf8 "publish".toList ++ amfZero ++ [0x05], rfl, by decide, by decide, ?_, ?_⟩
  · rw [show beNat [0, 7] = 7 from rfl, hname, fromUtf8_encodeUtf8]
  · rw [show beNat [0, 7] = 7 from rfl, harguments]
    simp [extractPublishStreamKey, amfZero]

/-- A publish command without a stream key is always rejected by the provider started from a list
of keys in the environment exactly if no item of the list is blank. -/
theorem empty_key_rejected_iff {Salt : Type} (H : KeyHashing Salt) (hexact : H.Exact)
    (hhash : ∀ key salt, H.hash key salt ≠ none) (var : Text → Option Text) (config : AppConfig)
    (salt : ℕ → Salt) (v : Text)
    (hvar : var "STREAMINFA_AUTH_INGEST_STREAM_KEYS".toList = some v) :
    (∀ data streamKey, PublishesNoKey data → parseAmfCommand data = .ok (.publish streamKey) →
      validateStreamKey H (newIngestKeys H (applyEnvOverrides var config).auth salt) streamKey ≠
        .ok ()) ↔
    ∀ item ∈ v.splitOn ',', ∃ c ∈ item, isWhitespace c = false := by
  have hkeys : (applyEnvOverrides var config).auth.ingestStreamKeys = splitItems v := by
    simp only [applyEnvOverrides, hvar, Option.map_some, Option.getD_some]
  have haccepted : validateStreamKey H (newIngestKeys H (applyEnvOverrides var config).auth salt)
      [] = .ok () ↔ ∃ item ∈ v.splitOn ',', ∀ c ∈ item, isWhitespace c = true := by
    rw [validate_newIngestKeys_iff hexact hhash, hkeys, ← nil_mem_splitItems_iff]
    exact or_iff_right (splitItems_ne_nil v)
  have hblank : (∀ item ∈ v.splitOn ',', ∃ c ∈ item, isWhitespace c = false) ↔
      ¬ ∃ item ∈ v.splitOn ',', ∀ c ∈ item, isWhitespace c = true := by
    push Not
    simp only [Bool.not_eq_true]
  rw [hblank, ← haccepted]
  constructor
  · exact fun h => h bareCommand [] publishesNoKey_bareCommand publishesNoKey_bareCommand.parse
  · intro hrejected data streamKey hnokey hparse
    obtain rfl : [] = streamKey :=
      RtmpCommand.publish.inj (Except.ok.inj (hnokey.parse.symm.trans hparse))
    exact hrejected

/-- An environment with a list of stream keys and nothing else. -/
def keysFromEnv (v : Text) (name : Text) : Option Text :=
  if name = "STREAMINFA_AUTH_INGEST_STREAM_KEYS".toList then some v else none

/-- The configuration of the repository, as far as variables override it. -/
def defaultConfig : AppConfig where
  server := ⟨"0.0.0.0".toList, 8080, 1935⟩
  storage := ⟨"http://localhost:9000".toList, "streaminfa-media".toList, [], [], "us-east-1".toList⟩
  auth := ⟨[], []⟩
  logLevel := "info".toList

/-- With a comma behind the only key, a client without a key may publish. -/
theorem trailing_comma_admits :
    (∃ item ∈ "sk_live,".toList.splitOn ',', ∃ c ∈ item, isWhitespace c = false) ∧
      PublishesNoKey bareCommand ∧ parseAmfCommand bareCommand = .ok (.publish []) ∧
      validateStreamKey plainHashing (newIngestKeys plainHashing
        (applyEnvOverrides (keysFromEnv "sk_live,".toList) defaultConfig).auth fun _ => 'a') [] =
          .ok () := by
  have hitems : "sk_live,".toList.splitOn ',' = ["sk_live".toList, []] := by decide +kernel
  refine ⟨?_, publishesNoKey_bareCommand, publishesNoKey_bareCommand.parse, ?_⟩
  · rw [hitems]
    exact ⟨_, List.mem_cons_self, 's', List.mem_cons_self, by decide +kernel⟩
  · refine (validate_newIngestKeys_iff plainHashing_exact fun _ _ => Option.some_ne_none _).mpr ?_
    show _ ∨ [] ∈ splitItems "sk_live,".toList
    rw [splitItems, hitems]
    exact Or.inr (List.mem_cons_of_mem _ List.mem_cons_self)

theorem empty_key_rejected_iff_spaced :
    validateStreamKey plainHashing (newIngestKeys plainHashing
      (applyEnvOverrides (keysFromEnv " sk_a , sk_b".toList) defaultConfig).auth fun _ => 'a') [] ≠
        .ok () := by
  have hitems : " sk_a , sk_b".toList.splitOn ',' = [" sk_a ".toList, " sk_b".toList] := by
    decide +kernel
  refine (empty_key_rejected_iff plainHashing plainHashing_exact (fun _ _ => Option.some_ne_none _)
    (keysFromEnv " sk_a , sk_b".toList) defaultConfig (fun _ => 'a') " sk_a , sk_b".toList
      (if_pos rfl)).mpr (fun item hitem => ?_) bareCommand [] publishesNoKey_bareCommand
        publishesNoKey_bareCommand.parse
  have hletter : 's' ∈ item := by
    rw [hitems] at hitem
    revert item
    decide +kernel
  exact ⟨'s', hletter, by decide +kernel⟩

end StreamInfa.Ingest
