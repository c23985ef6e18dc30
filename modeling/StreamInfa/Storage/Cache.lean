import StreamInfa.Lib.Lru
import StreamInfa.Lib.Text

/-!
The object cache (`src/storage/cache.rs`).

Objects are kept for a time that depends on their path, in a map that drops the least
recently used when it is full. Instants and durations are in nanoseconds.
-/

namespace StreamInfa.Storage

structure CacheConfig where
  enabled : Bool
  maxSizeBytes : ℕ
  ttlSecs : ℕ
  segmentTtlSecs : ℕ
deriving DecidableEq, Repr

structure CacheEntry where
  data : Bytes
  contentType : Text
  etag : Text
  insertedAt : ℕ
  ttl : ℕ
  size : ℕ
deriving DecidableEq, Repr

def CacheEntry.isExpired (entry : CacheEntry) (now : ℕ) : Bool :=
  entry.ttl < now - entry.insertedAt

/-- What has expired stays so. -/
theorem CacheEntry.isExpired_earlier {entry : CacheEntry} {now later : ℕ} (hle : now ≤ later)
    (h : entry.isExpired later = false) : entry.isExpired now = false := by
  simp only [isExpired, decide_eq_false_iff_not] at h ⊢
  omega

/-- An object of these bytes is kept when it is put into the cache. -/
def CacheConfig.Keeps (config : CacheConfig) (data : Bytes) : Prop :=
  config.enabled = true ∧ data.length ≤ config.maxSizeBytes / 2

/-- The capacity of the map; what bounds the cache is the size. -/
def cacheCapacity : ℕ+ := 100000

structure ObjectCache where
  lru : Lru cacheCapacity Text CacheEntry
  currentSize : ℕ

def fromSecs (secs : ℕ) : ℕ := secs * 1000000000

def ttlForKey (config : CacheConfig) (key : Text) : ℕ :=
  if ".m4s".toList.isSuffixOf key || "init.mp4".toList.isSuffixOf key then
    fromSecs config.segmentTtlSecs
  else if "master.m3u8".toList.isSuffixOf key then fromSecs config.ttlSecs
  else if "media.m3u8".toList.isSuffixOf key then fromSecs 1
  else fromSecs config.ttlSecs

/-- The eviction loop of `put` pops from the least recently used end until the new
entry fits: the number of entries popped and the size left. -/
def evicted (maxSize entrySize : ℕ) : List (Text × CacheEntry) → ℕ → ℕ × ℕ
  | [], size => (0, size)
  | (_, entry) :: rest, size =>
    if maxSize < size + entrySize then
      let (n, size) := evicted maxSize entrySize rest (size - entry.size)
      (n + 1, size)
    else (0, size)

namespace ObjectCache

def new : ObjectCache := ⟨.new, 0⟩

/-- Data, content type and ETag of an object that is present and has not expired. -/
def get (cache : ObjectCache) (key : Text) (now : ℕ) :
    Option (Bytes × Text × Text) × ObjectCache :=
  match cache.lru.peek key with
  | none => (none, cache)
  | some entry =>
    if entry.isExpired now then
      (none, { lru := cache.lru.pop key, currentSize := cache.currentSize - entry.size })
    else
      (some (entry.data, entry.contentType, entry.etag), { cache with lru := cache.lru.touch key })

def put (config : CacheConfig) (cache : ObjectCache) (key : Text) (data : Bytes)
    (contentType etag : Text) (now : ℕ) : ObjectCache :=
  if !config.enabled then cache
  -- An object larger than half the cache is not kept.
  else if config.maxSizeBytes / 2 < data.length then cache
  else
    let (n, size) :=
      evicted config.maxSizeBytes data.length cache.lru.entries cache.currentSize
    let lru := cache.lru.drop n
    let size := size - ((lru.peek key).map CacheEntry.size).getD 0
    let entry : CacheEntry :=
      { data := data, contentType := contentType, etag := etag, insertedAt := now
        ttl := ttlForKey config key, size := data.length }
    { lru := (lru.pop key).put key entry, currentSize := size + data.length }

/-- The cache would serve `key`. -/
def Holds (cache : ObjectCache) (now : ℕ) (key : Text) : Prop :=
  ∃ entry, (key, entry) ∈ cache.lru.entries ∧ entry.isExpired now = false

variable {cache : ObjectCache} {now : ℕ} {key other : Text}

theorem not_holds_new : ¬ new.Holds now key := by
  rintro ⟨entry, hmem, -⟩
  exact List.not_mem_nil hmem

/-- What is found is the content of an entry that has not expired. -/
theorem exists_entry_of_get {data : Bytes} {contentType etag : Text}
    (h : (cache.get key now).1 = some (data, contentType, etag)) :
    ∃ entry, (key, entry) ∈ cache.lru.entries ∧ entry.isExpired now = false ∧
      entry.data = data ∧ entry.contentType = contentType ∧ entry.etag = etag := by
  unfold get at h
  split at h
  · cases h
  · rename_i entry hpeek
    split at h
    · cases h
    · rename_i hfresh
      obtain ⟨rfl, rfl, rfl⟩ : _ ∧ _ ∧ _ := by simpa using h
      exact ⟨entry, Lru.mem_of_peek hpeek, by simpa using hfresh, rfl, rfl, rfl⟩

/-- Looking an object up brings nothing into the cache. -/
theorem mem_of_mem_get {e : Text × CacheEntry} (h : e ∈ (cache.get key now).2.lru.entries) :
    e ∈ cache.lru.entries := by
  unfold get at h
  split at h
  · exact h
  · split at h
    · exact Lru.mem_of_mem_pop h
    · exact Lru.mem_of_mem_touch h

/-- A put brings in nothing but its own object. -/
theorem mem_of_mem_put {config : CacheConfig} {data : Bytes} {contentType etag : Text} {stamp : ℕ}
    {e : Text × CacheEntry}
    (h : e ∈ (cache.put config key data contentType etag stamp).lru.entries) :
    e ∈ cache.lru.entries ∨ config.Keeps data ∧ e.1 = key ∧ e.2.data = data ∧
      e.2.contentType = contentType ∧ e.2.etag = etag := by
  unfold put at h
  split at h
  · exact Or.inl h
  · rename_i henabled
    split at h
    · exact Or.inl h
    · rename_i hsize
      rcases Lru.mem_of_mem_put h with hold | rfl
      · exact Or.inl (Lru.mem_of_mem_drop (Lru.mem_of_mem_pop hold))
      · exact Or.inr ⟨⟨by simpa using henabled, by omega⟩, rfl, rfl, rfl, rfl⟩

end ObjectCache

end StreamInfa.Storage
