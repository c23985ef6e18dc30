import StreamInfa.Control.State
import StreamInfa.Storage.Cache
import StreamInfa.Storage.Media

/-!
Serving objects (`serve_object` and its helpers in `src/delivery/handlers.rs`).

A request reads the state of its stream, then the cache, then the store, and other
tasks run between these reads. So the handler is cut at them: `beginServe` is the
gate on the state with the parsing of the range, `serveCached` the look into the
cache, and `serveFetched` what is done with the object the store returned.

`beginServe_ok` says which states the gate lets pass.
-/

namespace StreamInfa.Delivery

open Control Storage

/-! ### Responses -/

inductive Body where
  /-- The JSON of an error: its code and message, with the status repeated. -/
  | error (error message : Text)
  | object (data : Bytes)
deriving DecidableEq, Repr

structure Response where
  status : ℕ
  headers : List (Text × Text)
  body : Body
deriving DecidableEq, Repr

def errorJson (status : ℕ) (error message : Text) : Response :=
  ⟨status, [("content-type".toList, "application/json".toList)], .error error message⟩

/-- 200 or 206: the request was given (a part of) an object. -/
def Response.Serves (response : Response) : Prop :=
  response.status = 200 ∨ response.status = 206

structure DeliveryConfig where
  cacheControlLive : Text
  cacheControlVod : Text
deriving DecidableEq, Repr

def u64Max : ℕ := 2 ^ 64 - 1

/-- A range header such as `bytes=0-1048575`; suffix ranges are not supported. -/
def parseRangeHeader (value : Text) : Option (ℕ × ℕ) :=
  let value := trim value
  if "bytes=".toList.isPrefixOf value then
    match (value.drop 6).splitOn '-' with
    | [first, last] =>
      if first = [] then none
      else do
        let start ← parseU64 first
        let stop ← if last = [] then some u64Max else parseU64 last
        if stop ≠ u64Max ∧ stop < start then none else some (start, stop)
    | _ => none
  else none

def buildResponse (config : DeliveryConfig) (data : Bytes) (contentType etag path : Text)
    (range : Option (ℕ × ℕ)) (isLive : Bool) : Response :=
  let cacheControl :=
    if isLive && ".m3u8".toList.isSuffixOf path then config.cacheControlLive
    else config.cacheControlVod
  let streamId := path.takeWhile (· ≠ '/')
  match range with
  | some (start, stop) =>
    let total := data.length
    if total = 0 then
      errorJson 416 "range_not_satisfiable".toList
        "Cannot satisfy range request for empty object.".toList
    else
      let stop := min stop (total - 1)
      if total ≤ start ∨ stop < start then
        errorJson 416 "range_not_satisfiable".toList
          ("Requested range bytes=".toList ++ decimal start ++ '-' :: decimal stop ++
            " is outside object size ".toList ++ decimal total ++ ".".toList)
      else
        let slice := (data.drop start).take (stop - start + 1)
        { status := 206
          headers :=
            [("content-type".toList, contentType),
              ("content-length".toList, decimal slice.length),
              ("content-range".toList,
                "bytes ".toList ++ decimal start ++ '-' :: decimal stop ++ '/' :: decimal total),
              ("cache-control".toList, cacheControl), ("etag".toList, etag),
              ("accept-ranges".toList, "bytes".toList),
              ("x-streaminfa-stream-id".toList, streamId)]
          body := .object slice }
  | none =>
    { status := 200
      headers :=
        [("content-type".toList, contentType), ("content-length".toList, decimal data.length),
          ("cache-control".toList, cacheControl), ("etag".toList, etag),
          ("accept-ranges".toList, "bytes".toList), ("x-streaminfa-stream-id".toList, streamId)]
      body := .object data }

/-! ### Serving an object -/

/-- The routes under `/streams/{stream_id}/`. -/
inductive Route where
  | masterPlaylist
  | mediaPlaylist (rendition : Text)
  | initSegment (rendition : Text)
  | segment (rendition filename : Text)
deriving DecidableEq, Repr

/-- The path of the object behind a route; `streamId` is as it stands in the request. -/
def Route.path (streamId : Text) : Route → Text
  | .masterPlaylist => streamId ++ "/master.m3u8".toList
  | .mediaPlaylist rendition => streamId ++ '/' :: rendition ++ "/media.m3u8".toList
  | .initSegment rendition => streamId ++ '/' :: rendition ++ "/init.mp4".toList
  | .segment rendition filename => streamId ++ '/' :: rendition ++ '/' :: filename

/-- A request that has passed the gate. -/
structure Serving where
  streamId : Text
  route : Route
  range : Option (ℕ × ℕ)
  isLive : Bool
deriving DecidableEq, Repr

def Serving.path (serving : Serving) : Text := serving.route.path serving.streamId

/-- The gate on the state of the stream; a stream without a record passes it. -/
def gateResponse (streamId : Text) : Option StreamState → Option Response
  | some .pending =>
    some (errorJson 404 "stream_not_ready".toList
      ("Stream '".toList ++ streamId ++ "' is not yet ingesting.".toList))
  | some .error =>
    some (errorJson 410 "stream_error".toList
      ("Stream '".toList ++ streamId ++ "' encountered an error.".toList))
  | some .deleted =>
    some (errorJson 404 "stream_not_found".toList
      ("Stream '".toList ++ streamId ++ "' has been deleted.".toList))
  | _ => none

/-- Up to the look into the cache. A range header that is not visible ASCII is none. -/
def beginServe (state : Option StreamState) (streamId : Text) (route : Route)
    (rangeHeader : Option Text) : Except Response Serving :=
  match gateResponse streamId state with
  | some response => .error response
  | none =>
    let serving : Serving := ⟨streamId, route, none, state = some .live⟩
    match rangeHeader with
    | none => .ok serving
    | some raw =>
      match parseRangeHeader raw with
      | some range => .ok { serving with range := some range }
      | none =>
        .error (errorJson 416 "range_not_satisfiable".toList
          "Invalid or unsupported Range header.".toList)

/-- The look into the cache: the answer on a hit. -/
def serveCached (config : DeliveryConfig) (cache : ObjectCache) (now : ℕ) (serving : Serving) :
    Option Response × ObjectCache :=
  let (found, cache) := cache.get serving.path now
  (found.map fun (data, contentType, etag) =>
    buildResponse config data contentType etag serving.path serving.range serving.isLive, cache)

/-- The answer with an object from the store, which is cached unless only a range of it
was asked for. -/
def serveFetched (config : DeliveryConfig) (cacheConfig : CacheConfig) (cache : ObjectCache)
    (now : ℕ) (serving : Serving) (output : GetObjectOutput) : Response × ObjectCache :=
  (buildResponse config output.body output.contentType output.etag serving.path serving.range
    serving.isLive,
    if serving.range = none then
      cache.put cacheConfig serving.path output.body output.contentType output.etag now
    else cache)

def storageErrorResponse (path : Text) (error : StorageError) : Response :=
  if "not found".toList <:+: error.toText then
    let code :=
      if ".m4s".toList.isSuffixOf path then "segment_not_found".toList
      else if "media.m3u8".toList <:+: path ∨ "init.mp4".toList <:+: path then
        "rendition_not_found".toList
      else "stream_not_found".toList
    errorJson 404 code ("Object '".toList ++ path ++ "' not found.".toList)
  else errorJson 502 "storage_error".toList "Failed to retrieve object from storage.".toList

@[simp] theorem serves_errorJson (status : ℕ) (error message : Text) :
    (errorJson status error message).Serves ↔ status = 200 ∨ status = 206 := Iff.rfl

theorem not_serves_gateResponse {streamId : Text} {state : Option StreamState}
    {response : Response} (h : gateResponse streamId state = some response) :
    ¬ response.Serves := by
  unfold gateResponse at h
  split at h
  · obtain rfl := Option.some.inj h
    simp
  · obtain rfl := Option.some.inj h
    simp
  · obtain rfl := Option.some.inj h
    simp
  · cases h

theorem not_serves_storageErrorResponse (path : Text) (error : StorageError) :
    ¬ (storageErrorResponse path error).Serves := by
  unfold storageErrorResponse
  split
  · rw [serves_errorJson]
    omega
  · rw [serves_errorJson]
    omega

/-- A request refused at the beginning is given nothing. -/
theorem not_serves_beginServe {state : Option StreamState} {streamId : Text} {route : Route}
    {rangeHeader : Option Text} {response : Response}
    (h : beginServe state streamId route rangeHeader = .error response) :
    ¬ response.Serves := by
  unfold beginServe at h
  split at h
  · rename_i refused hgate
    obtain rfl := Except.error.inj h
    exact not_serves_gateResponse hgate
  · split at h
    · cases h
    · split at h
      · cases h
      · obtain rfl := Except.error.inj h
        simp

/-- The gate lets pass the streams that are not known as PENDING, ERROR or DELETED. -/
theorem beginServe_ok {state : Option StreamState} {streamId : Text} {route : Route}
    {rangeHeader : Option Text} {serving : Serving}
    (h : beginServe state streamId route rangeHeader = .ok serving) :
    serving.streamId = streamId ∧
      state ≠ some .pending ∧ state ≠ some .error ∧ state ≠ some .deleted := by
  unfold beginServe at h
  split at h
  · cases h
  · rename_i hgate
    have hstate : state ≠ some .pending ∧ state ≠ some .error ∧ state ≠ some .deleted := by
      refine ⟨?_, ?_, ?_⟩ <;> rintro rfl <;> cases hgate
    split at h
    · obtain rfl := Except.ok.inj h
      exact ⟨rfl, hstate⟩
    · split at h
      · obtain rfl := Except.ok.inj h
        exact ⟨rfl, hstate⟩
      · cases h

/-- What a request past the gate remembers of it. -/
theorem beginServe_serving {state : Option StreamState} {streamId : Text} {route : Route}
    {rangeHeader : Option Text} {serving : Serving}
    (h : beginServe state streamId route rangeHeader = .ok serving) :
    serving.streamId = streamId ∧ serving.route = route ∧
      serving.isLive = decide (state = some .live) := by
  unfold beginServe at h
  split at h
  · cases h
  · split at h
    · obtain rfl := Except.ok.inj h
      exact ⟨rfl, rfl, rfl⟩
    · split at h
      · obtain rfl := Except.ok.inj h
        exact ⟨rfl, rfl, rfl⟩
      · cases h

/-- What a GET of the cache returns for an entry. -/
def entryOutput (entry : CacheEntry) : GetObjectOutput where
  body := entry.data
  contentType := entry.contentType
  etag := entry.etag

/-- A request past the store brings nothing into the cache but what it has read. -/
theorem mem_of_mem_serveFetched (config : DeliveryConfig) {cacheConfig : CacheConfig}
    {cache : ObjectCache} {now : ℕ} {serving : Serving} {output : GetObjectOutput}
    {e : Text × CacheEntry}
    (h : e ∈ (serveFetched config cacheConfig cache now serving output).2.lru.entries) :
    e ∈ cache.lru.entries ∨ serving.range = none ∧ cacheConfig.Keeps output.body ∧
      e.1 = serving.path ∧ entryOutput e.2 = output := by
  simp only [serveFetched] at h
  split at h
  · rename_i hrange
    rcases ObjectCache.mem_of_mem_put h with hold | ⟨hkeeps, hkey, hdata, hcontentType, hetag⟩
    · exact Or.inl hold
    · refine Or.inr ⟨hrange, hkeeps, hkey, ?_⟩
      rw [entryOutput, hdata, hcontentType, hetag]
  · exact Or.inl h

/-- A request is for an object under the stream id it names. -/
theorem Serving.path_eq (serving : Serving) :
    ∃ rest, serving.path = serving.streamId ++ '/' :: rest := by
  obtain ⟨streamId, route, range, isLive⟩ := serving
  cases route with
  | masterPlaylist => exact ⟨"master.m3u8".toList, rfl⟩
  | mediaPlaylist rendition => exact ⟨rendition ++ "/media.m3u8".toList, by simp [path, Route.path]⟩
  | initSegment rendition => exact ⟨rendition ++ "/init.mp4".toList, by simp [path, Route.path]⟩
  | segment rendition filename => exact ⟨rendition ++ '/' :: filename, by simp [path, Route.path]⟩

end StreamInfa.Delivery
