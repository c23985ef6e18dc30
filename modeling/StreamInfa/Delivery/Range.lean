import StreamInfa.Delivery.Serve

/-!
Answers to range requests (`serve_object`, `build_response` and `parse_range_header` of
`src/delivery/handlers.rs`).

`answer` is the handler of one request for an object that is in the store, with no other
task in between. `parseRangeHeader_le` says that a range that is parsed is in order, with
2^64 - 1 for an open end, so that all that is left to check is its start against the size
of the object. `sliced_consecutive` puts consecutive ranges together again.

**`range_responses_exact`**: what is answered depends on the range and the bytes of the
object alone, from the cache as from the store.
-/

namespace StreamInfa.Delivery

open Control Storage

/-! ### One request -/

/-- The states whose objects are served; a stream without a record is. -/
def Servable (state : Option StreamState) : Prop :=
  state ≠ some .pending ∧ state ≠ some .error ∧ state ≠ some .deleted

/-- The answer to a request for an object of the store. -/
def answer (config : DeliveryConfig) (cacheConfig : CacheConfig) (state : Option StreamState)
    (streamId : Text) (route : Route) (object : GetObjectOutput) (rangeHeader : Option Text)
    (cache : ObjectCache) (now : ℕ) : Response :=
  match beginServe state streamId route rangeHeader with
  | .error response => response
  | .ok serving =>
    match serveCached config cache now serving with
    | (some response, _) => response
    | (none, cache) => (serveFetched config cacheConfig cache now serving object).1

/-- The cache has nothing for the path, or these bytes. -/
def MissesOrHolds (cache : ObjectCache) (now : ℕ) (path : Text) (data : Bytes) : Prop :=
  ∀ found contentType etag, (cache.get path now).1 = some (found, contentType, etag) →
    found = data

/-- The cache has nothing for the path, or the object of the store. -/
def MissesOrMirrors (cache : ObjectCache) (now : ℕ) (path : Text) (object : GetObjectOutput) :
    Prop :=
  ∀ found, (cache.get path now).1 = some found →
    found = (object.body, object.contentType, object.etag)

/-- The bytes from `start` to `stop`, both included. -/
def sliced (data : Bytes) (start stop : ℕ) : Bytes := (data.drop start).take (stop - start + 1)

/-- The bytes that a response carries. -/
def Response.data (response : Response) : Bytes :=
  match response.body with
  | .object data => data
  | .error .. => []

/-- 206 with these bytes of the object: they are within it, and the headers say which. -/
structure Partial (data : Bytes) (start stop : ℕ) (response : Response) : Prop where
  in_order : start ≤ stop
  in_bounds : stop < data.length
  status : response.status = 206
  body : response.body = .object (sliced data start stop)
  length : (sliced data start stop).length = stop - start + 1
  contentLength : response.headers.lookup "content-length".toList =
    some (decimal (sliced data start stop).length)
  contentRange : response.headers.lookup "content-range".toList =
    some ("bytes ".toList ++ decimal start ++ '-' :: decimal stop ++ '/' :: decimal data.length)

/-- What a request for an object of these bytes is to be answered. -/
def Exact (rangeHeader : Option Text) (data : Bytes) (response : Response) : Prop :=
  match rangeHeader with
  | none => response.status = 200 ∧ response.body = .object data
  | some raw =>
    match parseRangeHeader raw with
    | none => response.status = 416
    | some (start, stop) =>
      if data.length = 0 ∨ data.length ≤ start then response.status = 416
      else Partial data start (min stop (data.length - 1)) response

/-! ### Parsing -/

/-- A range that is parsed is in order. -/
theorem parseRangeHeader_le {value : Text} {start stop : ℕ}
    (h : parseRangeHeader value = some (start, stop)) : start ≤ stop := by
  simp only [parseRangeHeader] at h
  split at h
  · split at h
    · rename_i firstText lastText _
      split at h
      · cases h
      · obtain ⟨first, hfirst, h⟩ := Option.bind_eq_some_iff.mp h
        have hlt := parseU64_lt hfirst
        -- Whatever the end is, the start is not behind it unless the end is open.
        have hordered : ∀ last, (if last ≠ u64Max ∧ last < first then none
            else some (first, last)) = some (start, stop) → start ≤ stop := by
          intro last hlast
          split at hlast
          · cases hlast
          · rename_i hcond
            obtain ⟨rfl, rfl⟩ := Prod.mk.inj (Option.some.inj hlast)
            unfold u64Max at hcond
            omega
        split at h
        · exact hordered u64Max h
        · obtain ⟨last, -, h⟩ := Option.bind_eq_some_iff.mp h
          exact hordered last h
    · cases h
  · cases h

/-- The header that asks for the bytes from `start` to `stop`. -/
def rangeHeaderText (start stop : ℕ) : Text :=
  "bytes=".toList ++ (decimal start ++ '-' :: decimal stop)

/-- A range in order is read back from its header. -/
theorem parseRangeHeader_rangeHeaderText {start stop : ℕ} (hle : start ≤ stop)
    (hlt : stop < 2 ^ 64) : parseRangeHeader (rangeHeaderText start stop) = some (start, stop) := by
  have hdash : ∀ n, '-' ∉ decimal n := fun n =>
    notMem_of_digits (fun _ h => isDigit_of_mem_decimal h) (by decide)
  have htrim : trim (rangeHeaderText start stop) = rangeHeaderText start stop := by
    obtain ⟨t, d, hlast⟩ : ∃ t d, decimal stop = t ++ [d] :=
      ⟨_, _, (List.dropLast_append_getLast (decimal_ne_nil stop)).symm⟩
    have hd : d ∈ decimal stop := by
      rw [hlast]
      exact List.mem_append_right t List.mem_cons_self
    have htext : rangeHeaderText start stop =
        'b' :: (("ytes=".toList ++ (decimal start ++ '-' :: t)) ++ [d]) := by
      show "bytes=".toList ++ (decimal start ++ '-' :: decimal stop) = _
      rw [hlast]
      simp
    rw [htext]
    exact trim_eq_self (by decide) (isWhitespace_of_isDigit (isDigit_of_mem_decimal hd)) _
  have hprefix : "bytes=".toList.isPrefixOf (rangeHeaderText start stop) = true :=
    List.isPrefixOf_iff_prefix.mpr (List.prefix_append _ _)
  have hdrop : (rangeHeaderText start stop).drop 6 = decimal start ++ '-' :: decimal stop :=
    List.drop_left' rfl
  have hsplit : (decimal start ++ '-' :: decimal stop).splitOn '-' =
      [decimal start, decimal stop] := by
    rw [List.splitOn_append_cons_self_of_not_mem (hdash start),
      List.splitOn_eq_singleton (hdash stop)]
  have hstart := parseU64_decimal (Nat.lt_of_le_of_lt hle hlt)
  simp only [parseRangeHeader, htrim, hprefix, hdrop, hsplit, decimal_ne_nil, if_true, if_false,
    hstart, parseU64_decimal hlt, Option.bind_eq_bind, Option.bind_some,
    if_neg (show ¬(stop ≠ u64Max ∧ stop < start) by omega)]

/-! ### Building the response -/

theorem length_sliced {data : Bytes} {start stop : ℕ} (hle : start ≤ stop)
    (hlt : stop < data.length) : (sliced data start stop).length = stop - start + 1 := by
  rw [sliced, List.length_take, List.length_drop]
  omega

/-- The response is exact for the object it is built from. -/
theorem exact_buildResponse (config : DeliveryConfig) (data : Bytes) (contentType etag path : Text)
    (isLive : Bool) {raw : Text} {start stop : ℕ}
    (hparse : parseRangeHeader raw = some (start, stop)) :
    Exact (some raw) data
      (buildResponse config data contentType etag path (some (start, stop)) isLive) := by
  have hle := parseRangeHeader_le hparse
  simp only [Exact, hparse, buildResponse]
  by_cases hempty : data.length = 0
  · rw [if_pos (.inl hempty), if_pos hempty]
    rfl
  · rw [if_neg hempty]
    by_cases hbeyond : data.length ≤ start
    · rw [if_pos (.inr hbeyond), if_pos (.inl hbeyond)]
      rfl
    · rw [if_neg (by omega), if_neg (by omega)]
      have hin : start ≤ min stop (data.length - 1) := by omega
      have hlt : min stop (data.length - 1) < data.length := by omega
      exact
        { in_order := hin
          in_bounds := hlt
          status := rfl
          body := rfl
          length := length_sliced hin hlt
          contentLength := rfl
          contentRange := rfl }

/-- A request without a range is answered with the whole object. -/
theorem exact_buildResponse_none (config : DeliveryConfig) (data : Bytes)
    (contentType etag path : Text) (isLive : Bool) :
    Exact none data (buildResponse config data contentType etag path none isLive) :=
  ⟨rfl, rfl⟩

/-! ### The two sources -/

section Answer

variable {config : DeliveryConfig} {cacheConfig : CacheConfig} {state : Option StreamState}
  {streamId : Text} {route : Route} {object : GetObjectOutput} {rangeHeader : Option Text}

/-- What the answer is built from: the entry in the cache, or the object of the store. -/
def source (object : GetObjectOutput) (cache : ObjectCache) (now : ℕ) (path : Text) :
    Bytes × Text × Text :=
  (cache.get path now).1.getD (object.body, object.contentType, object.etag)

theorem answer_of_error {response : Response}
    (h : beginServe state streamId route rangeHeader = .error response) (cache : ObjectCache)
    (now : ℕ) :
    answer config cacheConfig state streamId route object rangeHeader cache now = response := by
  rw [answer, h]

theorem answer_of_ok {serving : Serving}
    (h : beginServe state streamId route rangeHeader = .ok serving) (cache : ObjectCache)
    (now : ℕ) :
    answer config cacheConfig state streamId route object rangeHeader cache now =
      buildResponse config (source object cache now serving.path).1
        (source object cache now serving.path).2.1 (source object cache now serving.path).2.2
        serving.path serving.range serving.isLive := by
  rw [answer, h, source]
  simp only [serveCached]
  cases (cache.get serving.path now).1 with
  | none => rfl
  | some found => rfl

theorem gateResponse_of_servable (hstate : Servable state) (streamId : Text) :
    gateResponse streamId state = none := by
  obtain ⟨hpending, herror, hdeleted⟩ := hstate
  unfold gateResponse
  split
  · exact absurd rfl hpending
  · exact absurd rfl herror
  · exact absurd rfl hdeleted
  · rfl

/-- The answer of a servable stream is exact, from the cache as from the store. -/
theorem exact_answer (hstate : Servable state) {cache : ObjectCache} {now : ℕ}
    (hcache : MissesOrHolds cache now (route.path streamId) object.body)
    (rangeHeader : Option Text) :
    Exact rangeHeader object.body
      (answer config cacheConfig state streamId route object rangeHeader cache now) := by
  have hgate := gateResponse_of_servable hstate streamId
  have hsource : (source object cache now (route.path streamId)).1 = object.body := by
    rw [source]
    cases hget : (cache.get (route.path streamId) now).1 with
    | none => rfl
    | some found => exact hcache _ _ _ hget
  cases rangeHeader with
  | none =>
    have hbegin : beginServe state streamId route none =
        .ok ⟨streamId, route, none, state = some .live⟩ := by
      simp only [beginServe, hgate]
    rw [answer_of_ok hbegin, Serving.path, hsource]
    exact exact_buildResponse_none _ _ _ _ _ _
  | some raw =>
    cases hparse : parseRangeHeader raw with
    | none =>
      have hbegin : beginServe state streamId route (some raw) =
          .error (errorJson 416 "range_not_satisfiable".toList
            "Invalid or unsupported Range header.".toList) := by
        simp only [beginServe, hgate, hparse]
      rw [answer_of_error hbegin]
      simp only [Exact, hparse]
      rfl
    | some range =>
      have hbegin : beginServe state streamId route (some raw) =
          .ok ⟨streamId, route, some range, state = some .live⟩ := by
        simp only [beginServe, hgate, hparse]
      rw [answer_of_ok hbegin, Serving.path, hsource]
      exact exact_buildResponse _ _ _ _ _ _ hparse

/-- A cache that has the object of the store does not show in the answer. -/
theorem answer_of_mirrors {cache : ObjectCache} {now : ℕ}
    (hcache : MissesOrMirrors cache now (route.path streamId) object)
    (rangeHeader : Option Text) :
    answer config cacheConfig state streamId route object rangeHeader cache now =
      answer config cacheConfig state streamId route object rangeHeader .new 0 := by
  have hsource : source object cache now (route.path streamId) =
      source object .new 0 (route.path streamId) := by
    have hempty : source object .new 0 (route.path streamId) =
        (object.body, object.contentType, object.etag) := rfl
    rw [hempty, source]
    cases hget : (cache.get (route.path streamId) now).1 with
    | none => rfl
    | some found => exact hcache found hget
  cases hbegin : beginServe state streamId route rangeHeader with
  | error response => rw [answer_of_error hbegin, answer_of_error hbegin]
  | ok serving =>
    obtain ⟨hstream, hroute, -⟩ := beginServe_serving hbegin
    have hpath : serving.path = route.path streamId := by
      rw [Serving.path, hstream, hroute]
    rw [answer_of_ok hbegin, answer_of_ok hbegin, hpath, hsource]

end Answer

/-! ### Consecutive ranges -/

/-- Ranges that cover the bytes from `start` up to `size`, one behind the other. The last one
may end behind them. -/
inductive Consecutive (size : ℕ) : ℕ → List (ℕ × ℕ) → Prop
  | nil : Consecutive size size []
  | cons {start stop : ℕ} {ranges : List (ℕ × ℕ)} (hlt : start < size) (hle : start ≤ stop)
      (hrest : Consecutive size (min stop (size - 1) + 1) ranges) :
      Consecutive size start ((start, stop) :: ranges)

/-- A slice and what is behind it. -/
theorem sliced_append_drop (data : Bytes) {start stop : ℕ} (hle : start ≤ stop) :
    sliced data start stop ++ data.drop (stop + 1) = data.drop start := by
  have hstop : stop + 1 = start + (stop - start + 1) := by omega
  rw [sliced, hstop, ← List.drop_drop, List.take_append_drop]

/-- A request for a part of the object, with the cache that it meets. -/
structure RangeRequest where
  raw : Text
  cache : ObjectCache
  now : ℕ

section Parts

variable {config : DeliveryConfig} {cacheConfig : CacheConfig} {state : Option StreamState}
  {streamId : Text} {route : Route} {object : GetObjectOutput}

/-- The answers to consecutive ranges carry the bytes behind each other. -/
theorem sliced_consecutive (hstate : Servable state) {requests : List RangeRequest}
    {ranges : List (ℕ × ℕ)} {start : ℕ}
    (hparse : List.Forall₂ (fun r range => parseRangeHeader r.raw = some range) requests ranges)
    (hcache : ∀ r ∈ requests, MissesOrHolds r.cache r.now (route.path streamId) object.body)
    (hranges : Consecutive object.body.length start ranges) :
    (∀ r ∈ requests, (answer config cacheConfig state streamId route object (some r.raw) r.cache
        r.now).status = 206) ∧
      (requests.flatMap fun r => (answer config cacheConfig state streamId route object
        (some r.raw) r.cache r.now).data) = object.body.drop start := by
  induction hparse generalizing start with
  | nil =>
    cases hranges
    exact ⟨fun r hr => absurd hr List.not_mem_nil, List.drop_length.symm⟩
  | @cons r range requests ranges hfirst _ ih =>
    obtain ⟨hmine, hothers⟩ := List.forall_mem_cons.mp hcache
    cases hranges with
    | @cons _ stop _ hlt hle hrest =>
      have hexact := @exact_answer config cacheConfig state streamId route object hstate _ _
        hmine (some r.raw)
      have hsome : ¬(object.body.length = 0 ∨ object.body.length ≤ start) := by omega
      simp only [Exact, hfirst, if_neg hsome] at hexact
      obtain ⟨hstatus, hdata⟩ := ih hothers hrest
      refine ⟨List.forall_mem_cons.mpr ⟨hexact.status, hstatus⟩, ?_⟩
      rw [List.flatMap_cons, hdata, Response.data, hexact.body]
      exact sliced_append_drop object.body hexact.in_order

end Parts

/-- **Answers to range requests are exact**: for every object of a servable stream, whether
the cache has its bytes or not, a request without a range is answered with the whole object,
one with a header that is no range or with a range behind the object with 416, and every
other with exactly the bytes from its start to its end, or to the end of the object. The
answer does not show whether it came from the cache, and the answers to consecutive ranges
make up the object. -/
theorem range_responses_exact (config : DeliveryConfig) (cacheConfig : CacheConfig)
    (state : Option StreamState) (hstate : Servable state) (streamId : Text) (route : Route)
    (object : GetObjectOutput) :
    (∀ rangeHeader cache now, MissesOrHolds cache now (route.path streamId) object.body →
      Exact rangeHeader object.body
        (answer config cacheConfig state streamId route object rangeHeader cache now)) ∧
    (∀ rangeHeader cache now cache' now',
      MissesOrMirrors cache now (route.path streamId) object →
      MissesOrMirrors cache' now' (route.path streamId) object →
        answer config cacheConfig state streamId route object rangeHeader cache now =
          answer config cacheConfig state streamId route object rangeHeader cache' now') ∧
    ∀ (requests : List RangeRequest) (ranges : List (ℕ × ℕ)),
      List.Forall₂ (fun r range => parseRangeHeader r.raw = some range) requests ranges →
      (∀ r ∈ requests, MissesOrHolds r.cache r.now (route.path streamId) object.body) →
      Consecutive object.body.length 0 ranges →
        (∀ r ∈ requests, (answer config cacheConfig state streamId route object (some r.raw)
          r.cache r.now).status = 206) ∧
        (requests.flatMap fun r => (answer config cacheConfig state streamId route object
          (some r.raw) r.cache r.now).data) = object.body := by
  refine ⟨?_, ?_, ?_⟩
  · intro rangeHeader cache now hcache
    exact exact_answer hstate hcache rangeHeader
  · intro rangeHeader cache now cache' now' hcache hcache'
    rw [answer_of_mirrors hcache, answer_of_mirrors hcache']
  · intro requests ranges hparse hcache hranges
    exact sliced_consecutive hstate hparse hcache hranges

/-- The first four bytes of a segment, then the rest with an open end. -/
def twoParts : List RangeRequest := [⟨rangeHeaderText 0 3, .new, 0⟩, ⟨"bytes=4-".toList, .new, 0⟩]

theorem range_responses_exact_twoParts :
    (∀ r ∈ twoParts, (answer ⟨[], []⟩ ⟨true, 1000, 60, 60⟩ (some .live) "1".toList
      (.initSegment "high".toList) ⟨[1, 2, 3, 4, 5, 6], [], []⟩ (some r.raw) r.cache
      r.now).status = 206) ∧
    (twoParts.flatMap fun r => (answer ⟨[], []⟩ ⟨true, 1000, 60, 60⟩ (some .live) "1".toList
      (.initSegment "high".toList) ⟨[1, 2, 3, 4, 5, 6], [], []⟩ (some r.raw) r.cache
      r.now).data) = [1, 2, 3, 4, 5, 6] := by
  refine (range_responses_exact ⟨[], []⟩ ⟨true, 1000, 60, 60⟩ (some .live)
    ⟨by decide, by decide, by decide⟩ "1".toList (.initSegment "high".toList)
    ⟨[1, 2, 3, 4, 5, 6], [], []⟩).2.2 twoParts [(0, 3), (4, u64Max)] ?_ ?_ ?_
  · refine .cons (parseRangeHeader_rangeHeaderText (by decide) (by decide)) (.cons ?_ .nil)
    decide +kernel
  · intro r hr found contentType etag hget
    have hmiss : (r.cache.get (Route.path "1".toList (.initSegment "high".toList)) r.now).1 =
        none := by
      simp only [twoParts, List.mem_cons, List.not_mem_nil, or_false] at hr
      rcases hr with rfl | rfl <;> rfl
    exact absurd (hmiss.symm.trans hget) (by simp)
  · exact .cons (by decide) (by decide) (.cons (by decide) (by decide) .nil)

end StreamInfa.Delivery
