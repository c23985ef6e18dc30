import StreamInfa.Lib.Run
import StreamInfa.Storage.Cache

/-!
How much the object cache holds (`src/storage/cache.rs`).

`currentSize` is a counter beside the entries. It never falls below what they hold, so
that no saturating subtraction saturates and the size loop keeps the entries under the
configured bound (`cache_bounded`). It can stand above it: at `cacheCapacity` the map
drops an entry by itself, and the counter is not told (`accounting_exact_iff`).
-/

namespace StreamInfa.Storage

/-- A call on the cache, with the instant at which it reads the clock. -/
inductive CacheCall where
  | get (key : Text) (now : ℕ)
  | put (key : Text) (data : Bytes) (contentType etag : Text) (now : ℕ)
deriving DecidableEq, Repr

namespace ObjectCache

def call (config : CacheConfig) (cache : ObjectCache) : CacheCall → Option ObjectCache
  | .get key now => some (cache.get key now).2
  | .put key data contentType etag now => some (cache.put config key data contentType etag now)

/-- The sum of the sizes of the entries held. -/
def heldSize (cache : ObjectCache) : ℕ := cache.lru.weight CacheEntry.size

end ObjectCache

/-! ### The eviction loop -/

/-- One turn of the eviction loop of `put`; `none` when the loop is left, because the
entry fits or because nothing is left to pop. -/
def evictTurn (maxSize entrySize : ℕ) :
    List (Text × CacheEntry) × ℕ → Unit → Option (List (Text × CacheEntry) × ℕ)
  | ([], _), () => none
  | ((_, entry) :: rest, size), () =>
    if maxSize < size + entrySize then some (rest, size - entry.size) else none

/-- The subtractions the loop makes, each as its minuend and its subtrahend. -/
def evictionSubs (maxSize entrySize : ℕ) : List (Text × CacheEntry) → ℕ → List (ℕ × ℕ)
  | [], _ => []
  | (_, entry) :: rest, size =>
    if maxSize < size + entrySize then
      (size, entry.size) :: evictionSubs maxSize entrySize rest (size - entry.size)
    else []

section Eviction

variable {size : ℕ} {entries : List (Text × CacheEntry)} (maxSize entrySize : ℕ)

/-- The loop is left after at most as many turns as there are entries, in the state
`evicted` describes. -/
theorem run_evictTurn (entries : List (Text × CacheEntry)) (size : ℕ) :
    (evicted maxSize entrySize entries size).1 ≤ entries.length ∧
      run (evictTurn maxSize entrySize) (entries, size)
          (List.replicate (evicted maxSize entrySize entries size).1 ()) =
        some (entries.drop (evicted maxSize entrySize entries size).1,
          (evicted maxSize entrySize entries size).2) ∧
      evictTurn maxSize entrySize (entries.drop (evicted maxSize entrySize entries size).1,
        (evicted maxSize entrySize entries size).2) () = none := by
  induction entries generalizing size with
  | nil => exact ⟨le_rfl, rfl, rfl⟩
  | cons e rest ih =>
    obtain ⟨key, entry⟩ := e
    by_cases hover : maxSize < size + entrySize
    · obtain ⟨hle, hrun, hleft⟩ := ih (size - entry.size)
      have hturn : evictTurn maxSize entrySize ((key, entry) :: rest, size) () =
          some (rest, size - entry.size) := by
        rw [evictTurn, if_pos hover]
      simp only [evicted, if_pos hover, List.replicate_succ, run_cons_of_step hturn,
        List.drop_succ_cons, List.length_cons]
      exact ⟨Nat.succ_le_succ hle, hrun, hleft⟩
    · simp only [evicted, if_neg hover, List.replicate_zero, run_nil, List.drop_zero, evictTurn]
      exact ⟨Nat.zero_le _, trivial, trivial⟩

/-- What the loop takes off the counter is the size of what it pops. -/
theorem evicted_size (hle : (entries.map fun e => e.2.size).sum ≤ size) :
    (evicted maxSize entrySize entries size).2 + (entries.map fun e => e.2.size).sum =
      size + ((entries.drop (evicted maxSize entrySize entries size).1).map fun e =>
        e.2.size).sum := by
  induction entries generalizing size with
  | nil => rfl
  | cons e rest ih =>
    obtain ⟨key, entry⟩ := e
    by_cases hover : maxSize < size + entrySize
    · simp only [List.map_cons, List.sum_cons] at hle
      have hle' : (rest.map fun e => e.2.size).sum ≤ size - entry.size := by omega
      have hrest := ih hle'
      simp only [evicted, if_pos hover, List.drop_succ_cons, List.map_cons, List.sum_cons]
      omega
    · simp only [evicted, if_neg hover, List.drop_zero]

/-- The loop makes room or empties the map. -/
theorem evicted_fits (entries : List (Text × CacheEntry)) (size : ℕ) :
    (evicted maxSize entrySize entries size).2 + entrySize ≤ maxSize ∨
      entries.drop (evicted maxSize entrySize entries size).1 = [] := by
  induction entries generalizing size with
  | nil => exact Or.inr rfl
  | cons e rest ih =>
    by_cases hover : maxSize < size + entrySize
    · simpa only [evicted, if_pos hover, List.drop_succ_cons] using ih (size - e.2.size)
    · simp only [evicted, if_neg hover]
      exact Or.inl (by omega)

theorem evicted_of_fits (hfits : size + entrySize ≤ maxSize) :
    evicted maxSize entrySize entries size = (0, size) := by
  cases entries with
  | nil => rfl
  | cons e rest => rw [evicted, if_neg (by omega)]

theorem evicted_pos (hne : entries ≠ []) (hover : maxSize < size + entrySize) :
    0 < (evicted maxSize entrySize entries size).1 := by
  cases entries with
  | nil => exact absurd rfl hne
  | cons e rest =>
    rw [evicted, if_pos hover]
    exact Nat.succ_pos _

theorem evictionSubs_le (hle : (entries.map fun e => e.2.size).sum ≤ size) :
    ∀ sub ∈ evictionSubs maxSize entrySize entries size, sub.2 ≤ sub.1 := by
  induction entries generalizing size with
  | nil =>
    intro sub hsub
    cases hsub
  | cons e rest ih =>
    obtain ⟨key, entry⟩ := e
    simp only [List.map_cons, List.sum_cons] at hle
    intro sub hsub
    rw [evictionSubs] at hsub
    split at hsub
    · rcases List.mem_cons.mp hsub with rfl | hrest
      · exact le_trans (Nat.le_add_right _ _) hle
      · exact ih (by omega) sub hrest
    · cases hsub

end Eviction

namespace ObjectCache

/-! ### What a put leaves -/

/-- The entry a put makes of its object. -/
def newEntry (config : CacheConfig) (key : Text) (data : Bytes) (contentType etag : Text)
    (now : ℕ) : CacheEntry where
  data := data
  contentType := contentType
  etag := etag
  insertedAt := now
  ttl := ttlForKey config key
  size := data.length

/-- The cache as a put leaves it just before it inserts: there is room for the new entry
and the old entry of the key is gone. -/
def cleared (config : CacheConfig) (cache : ObjectCache) (key : Text) (entrySize : ℕ) :
    ObjectCache :=
  let (n, size) := evicted config.maxSizeBytes entrySize cache.lru.entries cache.currentSize
  { lru := (cache.lru.drop n).pop key
    currentSize := size - (((cache.lru.drop n).peek key).map CacheEntry.size).getD 0 }

variable {config : CacheConfig} {cache : ObjectCache} {key : Text} {data : Bytes}
  {contentType etag : Text} {now entrySize : ℕ}

theorem put_of_not_keeps (h : ¬ config.Keeps data) :
    cache.put config key data contentType etag now = cache := by
  unfold put
  split
  · rfl
  · rename_i henabled
    rw [if_pos]
    by_contra hsize
    exact h ⟨by simpa using henabled, by omega⟩

theorem put_of_keeps (h : config.Keeps data) :
    cache.put config key data contentType etag now =
      { lru := (cache.cleared config key data.length).lru.put key
          (newEntry config key data contentType etag now)
        currentSize := (cache.cleared config key data.length).currentSize + data.length } := by
  unfold put
  rw [if_neg (by simp [h.1]), if_neg (by have := h.2; omega)]
  rfl

theorem cleared_peek : (cache.cleared config key entrySize).lru.peek key = none :=
  Lru.peek_eq_none.mpr Lru.not_mem_pop

theorem mem_of_mem_cleared {e : Text × CacheEntry}
    (h : e ∈ (cache.cleared config key entrySize).lru.entries) : e ∈ cache.lru.entries :=
  Lru.mem_of_mem_drop (Lru.mem_of_mem_pop h)

/-- Up to the insertion the counter loses what the entries lose. -/
theorem cleared_size (config : CacheConfig) (key : Text) (entrySize : ℕ)
    (hle : cache.heldSize ≤ cache.currentSize) :
    (cache.cleared config key entrySize).currentSize + cache.heldSize =
      cache.currentSize + (cache.cleared config key entrySize).heldSize := by
  have hevicted := evicted_size config.maxSizeBytes entrySize hle
  unfold cleared
  set popped := evicted config.maxSizeBytes entrySize cache.lru.entries cache.currentSize
  obtain ⟨n, size⟩ := popped
  have hdrop : size + cache.heldSize =
      cache.currentSize + (cache.lru.drop n).weight CacheEntry.size := hevicted
  simp only [heldSize] at hle hdrop ⊢
  cases hpeek : (cache.lru.drop n).peek key with
  | none =>
    have hpop : ((cache.lru.drop n).pop key).weight CacheEntry.size =
        (cache.lru.drop n).weight CacheEntry.size := by
      rw [Lru.weight, Lru.pop_of_peek_none hpeek, ← Lru.weight]
    simpa [hpop] using hdrop
  | some old =>
    have hpop := Lru.weight_pop (w := CacheEntry.size) hpeek
    simp only [Option.map_some, Option.getD_some]
    omega

/-- There is room for the new entry, or nothing is left. -/
theorem cleared_fits (config : CacheConfig) (cache : ObjectCache) (key : Text) (entrySize : ℕ) :
    (cache.cleared config key entrySize).currentSize + entrySize ≤ config.maxSizeBytes ∨
      (cache.cleared config key entrySize).lru.entries = [] := by
  rcases evicted_fits config.maxSizeBytes entrySize cache.lru.entries cache.currentSize
    with hfits | hnil
  · refine Or.inl (le_trans (Nat.add_le_add_right ?_ entrySize) hfits)
    exact Nat.sub_le _ _
  · refine Or.inr (List.eq_nil_iff_forall_not_mem.mpr fun e he => ?_)
    have hmem : e ∈ cache.lru.entries.drop _ := Lru.mem_of_mem_pop he
    exact List.not_mem_nil (hnil ▸ hmem)

/-- Where nothing has to be evicted only the old entry of the key goes. -/
theorem entries_cleared_of_fits (key : Text)
    (hfits : cache.currentSize + entrySize ≤ config.maxSizeBytes) :
    (cache.cleared config key entrySize).lru.entries = (cache.lru.pop key).entries := by
  unfold cleared
  rw [evicted_of_fits _ _ hfits]
  rfl

/-- After an eviction the map is not full. -/
theorem length_cleared_lt_of_evicts (key : Text)
    (hover : config.maxSizeBytes < cache.currentSize + entrySize) :
    (cache.cleared config key entrySize).lru.entries.length < cacheCapacity := by
  have hcap : 0 < (cacheCapacity : ℕ) := cacheCapacity.pos
  have hle := cache.lru.length_le
  have hpop : (cache.cleared config key entrySize).lru.entries.length ≤
      (cache.lru.entries.drop _).length := List.length_filter_le _ _
  rw [List.length_drop] at hpop
  by_cases hnil : cache.lru.entries = []
  · rw [hnil, List.length_nil] at hpop
    omega
  · have hpos := evicted_pos config.maxSizeBytes entrySize hnil hover
    omega

/-- The map is full at the insertion exactly if it was, the key is new and nothing had
to be evicted. -/
theorem cleared_full_iff :
    (cache.cleared config key entrySize).lru.entries.length = cacheCapacity ↔
      cache.lru.entries.length = cacheCapacity ∧ cache.lru.peek key = none ∧
        cache.currentSize + entrySize ≤ config.maxSizeBytes := by
  have hle := cache.lru.length_le
  by_cases hfits : cache.currentSize + entrySize ≤ config.maxSizeBytes
  · rw [entries_cleared_of_fits key hfits]
    cases hpeek : cache.lru.peek key with
    | none => simp [Lru.pop_of_peek_none hpeek, hfits]
    | some old =>
      have hlength := Lru.length_pop hpeek
      simp only [reduceCtorEq, false_and, and_false, iff_false]
      omega
  · have hlt := length_cleared_lt_of_evicts key (Nat.lt_of_not_le hfits)
    simp only [hfits, and_false, iff_false]
    omega

/-! ### The counter is never below what is held -/

/-- What the sizes satisfy in every state of the cache. The counter may exceed the sizes
held, but by no more than the bound. -/
structure Sized (config : CacheConfig) (cache : ObjectCache) : Prop where
  size_eq : ∀ e ∈ cache.lru.entries, e.2.size = e.2.data.length
  entry_le : ∀ e ∈ cache.lru.entries, e.2.size ≤ config.maxSizeBytes / 2
  held_le_max : cache.heldSize ≤ config.maxSizeBytes
  held_le : cache.heldSize ≤ cache.currentSize
  excess_le : cache.currentSize ≤ cache.heldSize + config.maxSizeBytes
  counter_le : cache.currentSize ≤ config.maxSizeBytes + config.maxSizeBytes / 2

theorem sized_new : Sized config new where
  size_eq := fun _ he => absurd he List.not_mem_nil
  entry_le := fun _ he => absurd he List.not_mem_nil
  held_le_max := Nat.zero_le _
  held_le := le_rfl
  excess_le := Nat.zero_le _
  counter_le := Nat.zero_le _

/-- What is held grows by the new entry at most. -/
theorem heldSize_put_le (cache : ObjectCache) (key : Text) (contentType etag : Text) (now : ℕ)
    (hkeeps : config.Keeps data) :
    (cache.put config key data contentType etag now).heldSize ≤
      (cache.cleared config key data.length).heldSize + data.length := by
  rw [put_of_keeps hkeeps]
  simp only [heldSize]
  rcases (cache.cleared config key data.length).lru.length_le.lt_or_eq with hroom | hfull
  · exact (Lru.weight_put_of_room cleared_peek hroom).le
  · obtain ⟨e, -, hweight⟩ := Lru.exists_weight_put_of_full CacheEntry.size
      (newEntry config key data contentType etag now) cleared_peek hfull
    exact le_trans (Nat.le_add_right _ _) hweight.le

/-- After the map was emptied only the new entry is held. -/
theorem heldSize_put_of_emptied (contentType etag : Text) (now : ℕ) (hkeeps : config.Keeps data)
    (hnil : (cache.cleared config key data.length).lru.entries = []) :
    (cache.put config key data contentType etag now).heldSize = data.length := by
  rw [put_of_keeps hkeeps, heldSize, Lru.weight_put_of_room cleared_peek]
  · simp [Lru.weight, hnil, newEntry]
  · rw [hnil]
    exact cacheCapacity.pos

theorem Sized.put (h : Sized config cache) (key : Text) (data : Bytes) (contentType etag : Text)
    (now : ℕ) : Sized config (cache.put config key data contentType etag now) := by
  by_cases hkeeps : config.Keeps data
  swap
  · rw [put_of_not_keeps hkeeps]
    exact h
  have hentry : ∀ e ∈ (cache.put config key data contentType etag now).lru.entries,
      e ∈ cache.lru.entries ∨ e = (key, newEntry config key data contentType etag now) := by
    intro e he
    rw [put_of_keeps hkeeps] at he
    exact (Lru.mem_of_mem_put he).imp_left mem_of_mem_cleared
  have hcounter : (cache.put config key data contentType etag now).currentSize =
      (cache.cleared config key data.length).currentSize + data.length := by
    rw [put_of_keeps hkeeps]
  have hheld := heldSize_put_le cache key contentType etag now hkeeps
  have hcleared := cleared_size config key data.length h.held_le
  have hhalf := hkeeps.2
  have hle := h.held_le
  have hexcess := h.excess_le
  -- Either the counter is small again, or the map was emptied and only the excess is left.
  have hbounds : (cache.put config key data contentType etag now).heldSize ≤
        config.maxSizeBytes ∧
      (cache.put config key data contentType etag now).currentSize ≤
        (cache.put config key data contentType etag now).heldSize + config.maxSizeBytes ∧
      (cache.put config key data contentType etag now).currentSize ≤
        config.maxSizeBytes + config.maxSizeBytes / 2 := by
    rcases cleared_fits config cache key data.length with hfits | hnil
    · omega
    · have hput := heldSize_put_of_emptied contentType etag now hkeeps hnil
      have hzero : (cache.cleared config key data.length).heldSize = 0 := by
        simp [heldSize, Lru.weight, hnil]
      omega
  refine ⟨fun e he => ?_, fun e he => ?_, hbounds.1, by omega, hbounds.2.1, hbounds.2.2⟩
  · rcases hentry e he with hold | rfl
    · exact h.size_eq e hold
    · rfl
  · rcases hentry e he with hold | rfl
    · exact h.entry_le e hold
    · exact hhalf

/-- A lookup takes off the counter what it removes. -/
theorem get_size (key : Text) (now : ℕ) (hle : cache.heldSize ≤ cache.currentSize) :
    (cache.get key now).2.currentSize + cache.heldSize =
        cache.currentSize + (cache.get key now).2.heldSize ∧
      (cache.get key now).2.heldSize ≤ cache.heldSize := by
  unfold get
  split
  · exact ⟨rfl, le_rfl⟩
  · rename_i entry hpeek
    split
    · have hpop := Lru.weight_pop (w := CacheEntry.size) hpeek
      simp only [heldSize] at hle ⊢
      constructor <;> omega
    · simp only [heldSize, Lru.weight_touch]
      exact ⟨trivial, le_rfl⟩

theorem Sized.get (h : Sized config cache) (key : Text) (now : ℕ) :
    Sized config (cache.get key now).2 := by
  have hentry : ∀ e ∈ (cache.get key now).2.lru.entries, e ∈ cache.lru.entries :=
    fun e he => mem_of_mem_get he
  obtain ⟨hsize, hheld⟩ := get_size key now h.held_le
  have hmax := h.held_le_max
  have hle := h.held_le
  have hexcess := h.excess_le
  have hcounter := h.counter_le
  refine ⟨fun e he => h.size_eq e (hentry e he), fun e he => h.entry_le e (hentry e he),
    ?_, ?_, ?_, ?_⟩
  all_goals omega

theorem Sized.call {cache' : ObjectCache} (h : Sized config cache) {c : CacheCall}
    (hcall : cache.call config c = some cache') : Sized config cache' := by
  cases c with
  | get key now =>
    cases hcall
    exact h.get key now
  | put key data contentType etag now =>
    cases hcall
    exact h.put key data contentType etag now

/-! ### The bound -/

/-- The saturating subtractions of a call, each as its minuend and its subtrahend: of an
expired entry, of every entry evicted, and of the entry replaced. -/
def subtractions (config : CacheConfig) (cache : ObjectCache) : CacheCall → List (ℕ × ℕ)
  | .get key now =>
    match cache.lru.peek key with
    | none => []
    | some entry => if entry.isExpired now then [(cache.currentSize, entry.size)] else []
  | .put key data _ _ _ =>
    if !config.enabled then []
    else if config.maxSizeBytes / 2 < data.length then []
    else
      let (n, size) :=
        evicted config.maxSizeBytes data.length cache.lru.entries cache.currentSize
      evictionSubs config.maxSizeBytes data.length cache.lru.entries cache.currentSize ++
        match (cache.lru.drop n).peek key with
        | none => []
        | some old => [(size, old.size)]

theorem subtractions_le (hle : cache.heldSize ≤ cache.currentSize) (c : CacheCall) :
    ∀ sub ∈ cache.subtractions config c, sub.2 ≤ sub.1 := by
  cases c with
  | get key now =>
    intro sub hsub
    simp only [subtractions] at hsub
    split at hsub
    · cases hsub
    · rename_i entry hpeek
      split at hsub
      · obtain rfl := List.mem_singleton.mp hsub
        have hpop := Lru.weight_pop (w := CacheEntry.size) hpeek
        simp only [heldSize] at hle
        exact le_trans (by omega) hle
      · cases hsub
  | put key data contentType etag now =>
    intro sub hsub
    simp only [subtractions] at hsub
    split at hsub
    · cases hsub
    · split at hsub
      · cases hsub
      · rcases List.mem_append.mp hsub with hloop | hold
        · exact evictionSubs_le _ _ hle sub hloop
        · split at hold
          · cases hold
          · rename_i old hpeek
            obtain rfl := List.mem_singleton.mp hold
            have hevicted := evicted_size config.maxSizeBytes data.length hle
            have hpop := Lru.weight_pop (w := CacheEntry.size) hpeek
            simp only [heldSize, Lru.weight, Lru.drop] at hle hevicted hpop ⊢
            omega

/-- The eviction loop for an entry of this size is left after at most as many turns as
there are entries, with the counter and the entries that `put` goes on with. -/
def EvictionEnds (config : CacheConfig) (cache : ObjectCache) (entrySize : ℕ) : Prop :=
  ∃ n ≤ cache.lru.entries.length, ∃ size,
    evicted config.maxSizeBytes entrySize cache.lru.entries cache.currentSize = (n, size) ∧
    run (evictTurn config.maxSizeBytes entrySize) (cache.lru.entries, cache.currentSize)
      (List.replicate n ()) = some (cache.lru.entries.drop n, size) ∧
    evictTurn config.maxSizeBytes entrySize (cache.lru.entries.drop n, size) () = none

/-- However the cache is called, what it holds stays within the configured bound, in
entries of at most half of it and with distinct keys; the eviction loop ends and no
saturating subtraction saturates. The last part is the largest sum a put computes: the
bound is read from a TOML integer, so it is below `2 ^ 63` and the sum fits a `u64`. -/
theorem cache_bounded {calls : List CacheCall}
    (h : run (call config) new calls = some cache) :
    cache.heldSize ≤ config.maxSizeBytes ∧
      (∀ e ∈ cache.lru.entries, e.2.size = e.2.data.length ∧
        e.2.size ≤ config.maxSizeBytes / 2) ∧
      (cache.lru.entries.map Prod.fst).Nodup ∧
      (∀ entrySize, EvictionEnds config cache entrySize) ∧
      (∀ c, ∀ sub ∈ cache.subtractions config c, sub.2 ≤ sub.1) ∧
      ∀ data, config.Keeps data →
        cache.currentSize + data.length ≤ 2 * config.maxSizeBytes := by
  have hsized : Sized config cache :=
    run_invariant (fun _ _ _ hs hcall => hs.call hcall) sized_new h
  refine ⟨hsized.held_le_max, fun e he => ⟨hsized.size_eq e he, hsized.entry_le e he⟩,
    cache.lru.nodup, fun entrySize => ?_, subtractions_le hsized.held_le, fun data hkeeps => ?_⟩
  · obtain ⟨hle, hrun, hleft⟩ := run_evictTurn config.maxSizeBytes entrySize cache.lru.entries
      cache.currentSize
    exact ⟨_, hle, _, rfl, hrun, hleft⟩
  · have hcounter := hsized.counter_le
    have hhalf := hkeeps.2
    omega

/-- The defaults of `config/default.toml`. -/
def defaultConfig : CacheConfig where
  enabled := true
  maxSizeBytes := 536870912
  ttlSecs := 300
  segmentTtlSecs := 3600

theorem cache_bounded_single :
    ∃ cache, run (call defaultConfig) new [.put "a".toList [0] [] [] 0, .get "a".toList 1] =
        some cache ∧ cache.heldSize ≤ defaultConfig.maxSizeBytes := by
  have hrun : run (call defaultConfig) new [.put "a".toList [0] [] [] 0, .get "a".toList 1] =
    some ((new.put defaultConfig "a".toList [0] [] [] 0).get "a".toList 1).2 := rfl
  exact ⟨_, hrun, (cache_bounded hrun).1⟩

/-! ### When the counter is exact -/

/-- The put inserts a new key at capacity without an eviction before it: the map drops its
least recently used entry, whose size stays in the counter. -/
def DropsUncounted (config : CacheConfig) (cache : ObjectCache) : CacheCall → Prop
  | .get .. => False
  | .put key data _ _ _ =>
    config.Keeps data ∧ cache.lru.entries.length = cacheCapacity ∧ cache.lru.peek key = none ∧
      cache.currentSize + data.length ≤ config.maxSizeBytes ∧
      ∃ e, cache.lru.entries.head? = some e ∧ 0 < e.2.size

/-- From an exact counter, a put leaves an exact one unless it drops an entry uncounted. -/
theorem put_exact_iff (hexact : cache.currentSize = cache.heldSize) :
    (cache.put config key data contentType etag now).currentSize =
        (cache.put config key data contentType etag now).heldSize ↔
      ¬ DropsUncounted config cache (.put key data contentType etag now) := by
  by_cases hkeeps : config.Keeps data
  swap
  · simp [put_of_not_keeps hkeeps, DropsUncounted, hkeeps, hexact]
  have hcleared := cleared_size config key data.length hexact.ge
  have hvalue : (newEntry config key data contentType etag now).size = data.length := rfl
  rw [put_of_keeps hkeeps]
  simp only [heldSize] at hexact hcleared ⊢
  rcases (cache.cleared config key data.length).lru.length_le.lt_or_eq with hroom | hfull
  · have hnot : ¬ DropsUncounted config cache (.put key data contentType etag now) := by
      rintro ⟨-, hcap, hpeek, hfits, -⟩
      exact hroom.ne (cleared_full_iff.mpr ⟨hcap, hpeek, hfits⟩)
    have hweight : ((cache.cleared config key data.length).lru.put key
        (newEntry config key data contentType etag now)).weight CacheEntry.size = _ :=
      Lru.weight_put_of_room cleared_peek hroom
    simp only [hnot, not_false_iff, iff_true]
    omega
  · obtain ⟨hcap, hpeek, hfits⟩ := cleared_full_iff.mp hfull
    obtain ⟨e, hhead, hweight⟩ := Lru.exists_weight_put_of_full CacheEntry.size
      (newEntry config key data contentType etag now) cleared_peek hfull
    rw [entries_cleared_of_fits key hfits, Lru.pop_of_peek_none hpeek] at hhead
    have hdrops : DropsUncounted config cache (.put key data contentType etag now) ↔
        0 < e.2.size := by
      simp [DropsUncounted, hkeeps, hcap, hpeek, hfits, hhead]
    rw [hdrops]
    omega

/-- The counter is the sum of the sizes held in every state a sequence of calls goes
through, exactly if no call of it drops an entry uncounted. -/
theorem accounting_exact_iff (config : CacheConfig) (calls : List CacheCall) :
    (∀ n cache, run (call config) new (calls.take n) = some cache →
        cache.currentSize = cache.heldSize) ↔
      Meets (call config) (fun cache c => ¬ DropsUncounted config cache c) new calls := by
  refine forall_reached_iff_meets
    (I := fun cache : ObjectCache => cache.currentSize = cache.heldSize) ?_ ?_ rfl calls
  · intro cache c cache' hexact hcall
    cases c with
    | get key now =>
      cases hcall
      have hsize := (get_size key now hexact.ge).1
      simp only [DropsUncounted, not_false_iff, iff_true]
      omega
    | put key data contentType etag now =>
      cases hcall
      exact put_exact_iff hexact
  · intro cache c hnone
    cases c <;> cases hnone

theorem put_of_room (contentType etag : Text) (now : ℕ) (hkeeps : config.Keeps data)
    (hpeek : cache.lru.peek key = none) (hroom : cache.lru.entries.length < cacheCapacity)
    (hfits : cache.currentSize + data.length ≤ config.maxSizeBytes) :
    (cache.put config key data contentType etag now).lru.entries =
        cache.lru.entries ++ [(key, newEntry config key data contentType etag now)] ∧
      (cache.put config key data contentType etag now).currentSize =
        cache.currentSize + data.length := by
  have hentries := entries_cleared_of_fits key hfits
  rw [Lru.pop_of_peek_none hpeek] at hentries
  have hsize : (cache.cleared config key data.length).currentSize = cache.currentSize := by
    have hdrop : (cache.lru.drop 0).peek key = none := hpeek
    simp [cleared, evicted_of_fits _ _ hfits, hdrop]
  rw [put_of_keeps hkeeps, Lru.entries_put_of_room cleared_peek (hentries ▸ hroom), hentries,
    hsize]
  exact ⟨rfl, rfl⟩

/-- Objects of one byte under distinct keys. -/
def tinyPuts (n : ℕ) : List CacheCall :=
  (List.range n).map fun i => .put (List.replicate i 'k') [0] [] [] 0

/-- The entries `tinyPuts` makes. -/
def tinyEntries (n : ℕ) : List (Text × CacheEntry) :=
  (List.range n).map fun i =>
    (List.replicate i 'k', newEntry defaultConfig (List.replicate i 'k') [0] [] [] 0)

theorem peek_of_tinyEntries {n : ℕ} (hentries : cache.lru.entries = tinyEntries n) :
    cache.lru.peek (List.replicate n 'k') = none := by
  rw [Lru.peek_eq_none, hentries]
  intro e he hkey
  obtain ⟨i, hi, rfl⟩ := List.mem_map.mp he
  have hlength : i = n := by simpa using congrArg List.length hkey
  exact absurd (List.mem_range.mp hi) (by omega)

theorem sum_tinyEntries (n : ℕ) : ((tinyEntries n).map fun e => e.2.size).sum = n := by
  have hone : (fun e : Text × CacheEntry => e.2.size) ∘ (fun i =>
      (List.replicate i 'k', newEntry defaultConfig (List.replicate i 'k') [0] [] [] 0)) =
        fun _ => 1 := rfl
  rw [tinyEntries, List.map_map, hone]
  simp

theorem keeps_tiny : defaultConfig.Keeps [0] := ⟨rfl, by decide⟩

/-- Up to the capacity all of them are held. -/
theorem run_tinyPuts {n : ℕ} (hn : n ≤ cacheCapacity) :
    ∃ cache, run (call defaultConfig) new (tinyPuts n) = some cache ∧
      cache.lru.entries = tinyEntries n ∧ cache.currentSize = n := by
  induction n with
  | zero => exact ⟨new, rfl, rfl, rfl⟩
  | succ n ih =>
    obtain ⟨cache, hrun, hentries, hsize⟩ := ih (Nat.le_of_succ_le hn)
    have hfits : cache.currentSize + 1 ≤ defaultConfig.maxSizeBytes := by
      rw [hsize]
      exact le_trans hn (by decide)
    have hroom : cache.lru.entries.length < cacheCapacity := by
      rw [hentries, tinyEntries, List.length_map, List.length_range]
      exact hn
    obtain ⟨hput, hcounter⟩ :=
      put_of_room [] [] 0 keeps_tiny (peek_of_tinyEntries hentries) hroom hfits
    refine ⟨cache.put defaultConfig (List.replicate n 'k') [0] [] [] 0, ?_, ?_, ?_⟩
    · rw [tinyPuts, List.range_succ, List.map_append, ← tinyPuts, run_append hrun]
      rfl
    · rw [hput, hentries, tinyEntries, tinyEntries, List.range_succ, List.map_append]
      rfl
    · rw [hcounter, hsize]
      rfl

/-- One object of one byte more than the capacity: the counter keeps the byte of the one
that was dropped. -/
theorem accounting_overcounts :
    ∃ cache, run (call defaultConfig) new (tinyPuts (cacheCapacity + 1)) = some cache ∧
      cache.currentSize ≠ cache.heldSize := by
  obtain ⟨cache, hrun, hentries, hsize⟩ := run_tinyPuts (le_refl (cacheCapacity : ℕ))
  have hexact : cache.currentSize = cache.heldSize := by
    rw [hsize, heldSize, Lru.weight, hentries, sum_tinyEntries]
  have hdrops : DropsUncounted defaultConfig cache
      (.put (List.replicate cacheCapacity 'k') [0] [] [] 0) := by
    refine ⟨keeps_tiny, ?_, peek_of_tinyEntries hentries, ?_, ?_⟩
    · rw [hentries, tinyEntries, List.length_map, List.length_range]
    · rw [hsize]
      decide
    · refine ⟨([], newEntry defaultConfig [] [0] [] [] 0), ?_, Nat.one_pos⟩
      rw [hentries, tinyEntries, List.head?_map, List.head?_range]
      rfl
  refine ⟨cache.put defaultConfig (List.replicate cacheCapacity 'k') [0] [] [] 0, ?_, ?_⟩
  · rw [tinyPuts, List.range_succ, List.map_append, ← tinyPuts, run_append hrun]
    rfl
  · intro hput
    exact (put_exact_iff hexact).mp hput hdrops

end ObjectCache

end StreamInfa.Storage
