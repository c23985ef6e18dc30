import StreamInfa.Delivery.Server
import StreamInfa.Package.Manifest

/-!
The gate on the state of a stream, and the keys of the store.

The gate reads the stream id that stands in the request; the object is looked up under a
path that is put together from it and the other parameters, any of which may hold
slashes. The keys of the store begin with the canonical spelling of a stream id and have
one or two more components, and this leaves one way to spell them
(`streamId_of_keyOf`): the request names the stream whose key it asks for, so the gate
looks at that stream's record.

**`gate_not_bypassed`** lifts this to runs of the delivery server: in whatever way the
requests are interleaved and the cache was filled, an object is served only if the gate
found its stream without a record or LIVE, PROCESSING or READY.
-/

namespace StreamInfa.Delivery

open Control Storage Package

/-- Where the metadata of a stream is stored (`write_metadata_json`). -/
def metadataPath (streamId : Text) : Text := streamId ++ "/metadata.json".toList

/-- The keys under which the objects of a stream are stored. -/
inductive KeyOf (s : StreamId) : Text → Prop where
  | master : KeyOf s (masterPlaylistPath s.toText)
  | metadata : KeyOf s (metadataPath s.toText)
  | initSegment (r : RenditionId) : KeyOf s (initSegmentPath s.toText r.asStr)
  | mediaPlaylist (r : RenditionId) : KeyOf s (mediaPlaylistPath s.toText r.asStr)
  | segment (r : RenditionId) (n : ℕ) : KeyOf s (segmentPath s.toText r.asStr n)

/-! ### Spelling a key -/

section Keys

variable {s : StreamId} {key streamId : Text}

/-- A key has a file directly under the stream id or under a rendition. -/
theorem KeyOf.components (h : KeyOf s key) :
    ∃ file, '/' ∉ file ∧
      (key = s.toText ++ '/' :: file ∨
        file ≠ "master.m3u8".toList ∧
          ∃ r : RenditionId, key = s.toText ++ '/' :: (r.asStr ++ '/' :: file)) := by
  cases h with
  | master => exact ⟨"master.m3u8".toList, by decide, Or.inl rfl⟩
  | metadata => exact ⟨"metadata.json".toList, by decide, Or.inl rfl⟩
  | initSegment r =>
    exact ⟨"init.mp4".toList, by decide, Or.inr ⟨by decide, r, by simp [initSegmentPath]⟩⟩
  | mediaPlaylist r =>
    exact ⟨"media.m3u8".toList, by decide, Or.inr ⟨by decide, r, by simp [mediaPlaylistPath]⟩⟩
  | segment r n =>
    exact ⟨segmentFilename n, slash_notMem_segmentFilename n,
      Or.inr ⟨segmentFilename_ne (c := 'm') rfl rfl n, r, by simp [segmentPath, segmentFilename]⟩⟩

theorem count_slash_eq_zero {t : Text} (h : '/' ∉ t) : t.count '/' = 0 := List.count_eq_zero.mpr h

/-- The text after the last slash. -/
theorem file_unique (dir dir' : Text) {file file' : Text} (hfile : '/' ∉ file)
    (hfile' : '/' ∉ file') (h : dir ++ '/' :: file = dir' ++ '/' :: file') : file = file' := by
  have hreverse := congrArg List.reverse h
  rw [List.reverse_append, List.reverse_append, List.reverse_cons, List.reverse_cons,
    List.append_assoc, List.append_assoc, List.singleton_append, List.singleton_append] at hreverse
  exact List.reverse_injective
    (first_unique (by simpa using hfile) (by simpa using hfile') hreverse).1

/-- The path of a route has the slashes of the stream id and at least one more; two more,
unless it is the master playlist. -/
theorem count_slash_path (route : Route) (streamId : Text) :
    route = .masterPlaylist ∨ streamId.count '/' + 2 ≤ (route.path streamId).count '/' := by
  cases route with
  | masterPlaylist => exact Or.inl rfl
  | mediaPlaylist rendition | initSegment rendition =>
    refine Or.inr ?_
    simp [Route.path, List.count_append]
  | segment rendition filename =>
    refine Or.inr ?_
    simp [Route.path, List.count_append]
    omega

/-- A request whose path is a key names the stream of the key. -/
theorem streamId_of_keyOf {route : Route} (h : KeyOf s (route.path streamId)) :
    streamId = s.toText := by
  obtain ⟨file, hfile, hkey⟩ := h.components
  have hslash := s.slash_notMem_toText
  have hstart : ∃ rest, route.path streamId = s.toText ++ '/' :: rest := by
    rcases hkey with hkey | ⟨-, r, hkey⟩
    · exact ⟨_, hkey⟩
    · exact ⟨_, hkey⟩
  obtain ⟨rest, hrest⟩ := hstart
  obtain ⟨tail, htail⟩ := Serving.path_eq ⟨streamId, route, none, false⟩
  have htail : route.path streamId = streamId ++ '/' :: tail := htail
  by_cases hparam : '/' ∈ streamId
  · -- A slash in the stream id makes the path too long, or its file the wrong one.
    exfalso
    have hpos : 0 < streamId.count '/' := List.count_pos_iff.mpr hparam
    rcases hkey with hkey | ⟨hne, r, hkey⟩
    · have hcount : (route.path streamId).count '/' = 1 := by
        rw [hkey, List.count_append, List.count_cons, count_slash_eq_zero hslash,
          count_slash_eq_zero hfile]
        rfl
      rw [htail, List.count_append, List.count_cons] at hcount
      simp at hcount
      omega
    · have hcount : (route.path streamId).count '/' = 2 := by
        rw [hkey, List.count_append, List.count_cons, List.count_append, List.count_cons,
          count_slash_eq_zero hslash, count_slash_eq_zero hfile,
          count_slash_eq_zero r.slash_notMem_asStr]
        rfl
      rcases count_slash_path route streamId with rfl | hle
      · refine hne (file_unique (s.toText ++ '/' :: r.asStr) streamId hfile (by decide) ?_)
        rw [List.append_assoc, List.cons_append, ← hkey]
        rfl
      · omega
  · exact (first_unique hparam hslash (htail.symm.trans hrest)).1

end Keys

/-! ### Runs -/

/-- The states in which a stream is served. -/
def GateOpen (state : Option StreamState) : Prop :=
  state = none ∨ state = some .live ∨ state = some .processing ∨ state = some .ready

theorem gateOpen_of_ne {state : Option StreamState} (hpending : state ≠ some .pending)
    (herror : state ≠ some .error) (hdeleted : state ≠ some .deleted) : GateOpen state := by
  unfold GateOpen
  cases state with
  | none => exact Or.inl rfl
  | some state =>
    cases state with
    | pending => exact absurd rfl hpending
    | live => exact Or.inr (Or.inl rfl)
    | processing => exact Or.inr (Or.inr (Or.inl rfl))
    | ready => exact Or.inr (Or.inr (Or.inr rfl))
    | error => exact absurd rfl herror
    | deleted => exact absurd rfl hdeleted

section History

variable {env : Environment} {start s s' : DeliveryServer} {actions : List DeliveryAction}
  {a : DeliveryAction}

/-- The bytes were stored under the path at some moment of the run. -/
def WasStored (env : Environment) (start : DeliveryServer) (actions : List DeliveryAction)
    (path : Text) (data : Bytes) : Prop :=
  ∃ before u object, before <+: actions ∧ run (deliveryStep env) start before = some u ∧
    u.store.lookup path = some object ∧ object.data = data

/-- When request `i` last began, in the state `u` of the run, it passed the gate as
`serving`. -/
def PassedGate (env : Environment) (start : DeliveryServer) (actions : List DeliveryAction)
    (i : ℕ) (serving : Serving) (u : DeliveryServer) : Prop :=
  ∃ before since rangeHeader,
    actions = before ++ .get i serving.streamId serving.route rangeHeader :: since ∧
    (∀ a ∈ since, ¬ a.Begins i) ∧
    run (deliveryStep env) start before = some u ∧
    beginServe ((env.parseUuid serving.streamId).bind u.state) serving.streamId serving.route
      rangeHeader = .ok serving

theorem WasStored.append {path : Text} {data : Bytes} (h : WasStored env start actions path data)
    (a : DeliveryAction) : WasStored env start (actions ++ [a]) path data := by
  obtain ⟨before, u, object, hbefore, hrest⟩ := h
  exact ⟨before, u, object, hbefore.trans (List.prefix_append _ _), hrest⟩

theorem PassedGate.append {i : ℕ} {serving : Serving} {u : DeliveryServer}
    (h : PassedGate env start actions i serving u) (ha : ¬ a.Begins i) :
    PassedGate env start (actions ++ [a]) i serving u := by
  obtain ⟨before, since, rangeHeader, hactions, hsince, hrest⟩ := h
  refine ⟨before, since ++ [a], rangeHeader, ?_, ?_, hrest⟩
  · rw [hactions, List.append_assoc, List.cons_append]
  · intro b hb
    rcases List.mem_append.mp hb with hb | hb
    · exact hsince b hb
    · rwa [List.mem_singleton.mp hb]

/-- What the cache and the requests hold: bytes that were stored, and requests that were
checked. -/
structure Sourced (env : Environment) (start : DeliveryServer) (actions : List DeliveryAction)
    (s : DeliveryServer) : Prop where
  cache : ∀ e ∈ s.cache.lru.entries, WasStored env start actions e.1 e.2.data
  fetched : ∀ i serving output, s.gets i = .fetched serving output →
    WasStored env start actions serving.path output.body
  passed : ∀ i serving, (s.gets i).serving = some serving →
    ∃ u, PassedGate env start actions i serving u

theorem sourced_fresh (hcache : start.cache = .new) (hidle : ∀ i, start.gets i = .idle) :
    Sourced env start [] start where
  cache := by
    rw [hcache]
    exact nofun
  fetched := by
    intro i serving output hi
    cases (hidle i).symm.trans hi
  passed := by
    intro i serving hi
    rw [hidle i] at hi
    cases hi

theorem wasStored_of_getObject (hrun : run (deliveryStep env) start actions = some s) {path : Text}
    {output : GetObjectOutput} (h : s.store.getObject path = .ok output) :
    WasStored env start actions path output.body := by
  obtain ⟨object, hobject, rfl⟩ := getObject_eq_ok h
  exact ⟨actions, s, object, List.prefix_rfl, hrun, hobject, rfl⟩

theorem passedGate_of_beginServe (hrun : run (deliveryStep env) start actions = some s)
    {i : ℕ} {streamId : Text} {route : Route} {rangeHeader : Option Text} {serving : Serving}
    (h : beginServe ((env.parseUuid streamId).bind s.state) streamId route rangeHeader =
      .ok serving) :
    PassedGate env start (actions ++ [.get i streamId route rangeHeader]) i serving s := by
  obtain ⟨rfl, rfl, -⟩ := beginServe_serving h
  exact ⟨actions, [], rangeHeader, rfl, fun _ ha => absurd ha List.not_mem_nil, hrun, h⟩

theorem Sourced.step (hrun : run (deliveryStep env) start actions = some s)
    (h : Sourced env start actions s) (hstep : Outcome env s a s') :
    Sourced env start (actions ++ [a]) s' where
  cache := by
    intro e he
    rcases cache_of_outcome hstep he with hold | ⟨i, serving, output, -, hi, -, -, hkey, houtput⟩
    · exact (h.cache e hold).append a
    · have hdata : e.2.data = output.body := congrArg GetObjectOutput.body houtput
      rw [hkey, hdata]
      exact (h.fetched i serving output hi).append a
  fetched := by
    intro i serving output hi
    rcases fetched_of_outcome hstep hi with hold | ⟨-, hget⟩
    · exact (h.fetched i serving output hold).append a
    · exact (wasStored_of_getObject hrun hget).append a
  passed := by
    intro i serving hi
    rcases serving_of_outcome hstep hi with hold | ⟨streamId, route, rangeHeader, rfl, hbegin⟩
    · obtain ⟨u, hu⟩ := h.passed i serving hold
      exact ⟨u, hu.append (not_begins_of_outcome hstep hold)⟩
    · exact ⟨s, passedGate_of_beginServe hrun hbegin⟩

/-- A 200 or 206 is the answer to a request past the gate, with bytes that were stored. -/
theorem Sourced.served (h : Sourced env start actions s) (hstep : Outcome env s a s')
    {streamId : Text} {response : Response} (hanswer : s'.answer = some (.get streamId response))
    (hserves : response.Serves) :
    ∃ i serving data contentType etag, (a = .lookup i ∨ a = .finish i) ∧
      (s.gets i).serving = some serving ∧ streamId = serving.streamId ∧
      response = buildResponse env.delivery data contentType etag serving.path serving.range
        serving.isLive ∧
      WasStored env start actions serving.path data := by
  rcases answer_of_outcome hstep hanswer with
    ⟨hrefused, -⟩ | ⟨i, serving, output, hi, hid, hresponse, hsource⟩
  · exact absurd hserves hrefused
  · refine ⟨i, serving, output.body, output.contentType, output.etag, ?_, hi, hid, hresponse, ?_⟩
    · exact hsource.imp And.left And.left
    · rcases hsource with ⟨-, entry, hentry, -, rfl⟩ | ⟨-, hfetched⟩
      · exact h.cache _ hentry
      · exact h.fetched i serving output hfetched

/-! ### The keys of the store -/

/-- Every object is stored under a key of some stream. -/
def Canonical (store : MediaStore) : Prop :=
  ∀ path object, store.lookup path = some object → ∃ s, KeyOf s path

/-- The action writes no object but under a key of some stream. -/
def DeliveryAction.WritesKey : DeliveryAction → Prop
  | .put path _ => ∃ s, KeyOf s path
  | _ => True

theorem Canonical.step (h : Canonical s.store) (ha : a.WritesKey) (hstep : Outcome env s a s') :
    Canonical s'.store := by
  intro path object hobject
  rcases lookup_of_outcome hstep hobject with hold | rfl
  · exact h path object hold
  · exact ha

theorem keyOf_of_wasStored (hstart : Canonical start.store) (hputs : ∀ a ∈ actions, a.WritesKey)
    {path : Text} {data : Bytes} (h : WasStored env start actions path data) :
    ∃ s, KeyOf s path := by
  obtain ⟨before, u, object, hbefore, hrun, hobject, -⟩ := h
  have hmeets : Meets (deliveryStep env) (fun _ a => a.WritesKey) start before :=
    meets_of_forall fun a ha _ => hputs a (hbefore.subset ha)
  have hu : Canonical u.store :=
    run_invariant_of_meets (I := fun s => Canonical s.store)
      (fun _ _ _ hs ha hstep => hs.step ha (deliveryStep_outcome hstep)) hstart hmeets hrun
  exact hu path object hobject

/-- The gate was open to the stream whose key the request asks for. -/
theorem PassedGate.gateOpen {i : ℕ} {serving : Serving} {u : DeliveryServer}
    (h : PassedGate env start actions i serving u) {id : StreamId}
    (hparse : env.parseUuid id.toText = some id) (hkey : KeyOf id serving.path) :
    GateOpen (u.state id) := by
  obtain ⟨before, since, rangeHeader, -, -, -, hbegin⟩ := h
  have hid : serving.streamId = id.toText := streamId_of_keyOf hkey
  rw [hid, hparse] at hbegin
  obtain ⟨-, hpending, herror, hdeleted⟩ := beginServe_ok hbegin
  exact gateOpen_of_ne hpending herror hdeleted

/-- From any records and any store with the keys of streams, with the cache filled by the
requests of the run: an answer 200 or 206 has the bytes of an object that was stored under
a key of some stream, and when the request was checked, the gate was open to that stream. -/
theorem gate_not_bypassed (hidle : ∀ i, start.gets i = .idle) (hcache : start.cache = .new)
    (hstart : Canonical start.store) (hputs : ∀ a ∈ actions, a.WritesKey)
    {t : DeliveryServer} (hrun : run (deliveryStep env) start (actions ++ [a]) = some t)
    {streamId : Text} {response : Response} (hanswer : t.answer = some (.get streamId response))
    (hserves : response.Serves) :
    ∃ i serving u data contentType etag, (a = .lookup i ∨ a = .finish i) ∧
      streamId = serving.streamId ∧ PassedGate env start actions i serving u ∧
      response = buildResponse env.delivery data contentType etag serving.path serving.range
        serving.isLive ∧
      WasStored env start actions serving.path data ∧ (∃ id, KeyOf id serving.path) ∧
      ∀ id, env.parseUuid id.toText = some id → KeyOf id serving.path →
        GateOpen (u.state id) := by
  obtain ⟨s, hs, hlast⟩ := run_append_eq_some hrun
  obtain ⟨s', hstep, hend⟩ := run_cons_eq_some hlast
  obtain rfl := Option.some.inj hend
  have hsourced : Sourced env start actions s :=
    run_history (fun _ _ _ _ hp hI hstep => hI.step hp (deliveryStep_outcome hstep))
      (sourced_fresh hcache hidle) hs
  obtain ⟨i, serving, data, contentType, etag, haction, hserving, hid, hresponse, hstored⟩ :=
    hsourced.served (deliveryStep_outcome hstep) hanswer hserves
  obtain ⟨u, hpassed⟩ := hsourced.passed i serving hserving
  exact ⟨i, serving, u, data, contentType, etag, haction, hid, hpassed, hresponse, hstored,
    keyOf_of_wasStored hstart hputs hstored, fun id hparse hkey => hpassed.gateOpen hparse hkey⟩

end History

/-! ### Two routes to one playlist -/

def routedStream : StreamId := ⟨0x01900000000070008000000000000002#128⟩

/-- The parser takes the spelling without hyphens as well. -/
def routedEnvironment : Environment where
  parseUuid raw :=
    if raw.filter (· ≠ '-') = routedStream.toText.filter (· ≠ '-') then some routedStream else none
  delivery := ⟨"no-cache".toList, "public, max-age=86400".toList⟩
  cache := ⟨true, 536870912, 300, 3600⟩

/-- A playlist is requested and cached while the stream is LIVE; when the stream is in
PROCESSING, a range of it is requested as if it were a segment. -/
def routedRequests : List DeliveryAction :=
  [.manage (.create routedStream .live ⟨0⟩), .manage (.transition routedStream .live ⟨1⟩),
    .put (mediaPlaylistPath routedStream.toText RenditionId.high.asStr)
      ⟨encodeUtf8 "#EXTM3U".toList, "application/vnd.apple.mpegurl".toList, ⟨2⟩⟩,
    .get 0 routedStream.toText (.mediaPlaylist "high".toList) none, .lookup 0, .fetch 0 none,
    .finish 0, .manage (.transition routedStream .processing ⟨3⟩),
    .get 1 routedStream.toText (.segment "high".toList "media.m3u8".toList)
      (some "bytes=0-3".toList)]

/-- The second request is answered from the cache. -/
theorem gate_not_bypassed_routed :
    ∃ t response,
      run (deliveryStep routedEnvironment) (.start ∅) (routedRequests ++ [.lookup 1]) = some t ∧
      t.answer = some (.get routedStream.toText response) ∧ response.Serves ∧
      ∃ i serving u data contentType etag,
        (DeliveryAction.lookup 1 = .lookup i ∨ DeliveryAction.lookup 1 = .finish i) ∧
        routedStream.toText = serving.streamId ∧
        PassedGate routedEnvironment (.start ∅) routedRequests i serving u ∧
        response = buildResponse routedEnvironment.delivery data contentType etag serving.path
          serving.range serving.isLive ∧
        WasStored routedEnvironment (.start ∅) routedRequests serving.path data ∧
        (∃ id, KeyOf id serving.path) ∧
        ∀ id, routedEnvironment.parseUuid id.toText = some id → KeyOf id serving.path →
          GateOpen (u.state id) := by
  have hserves : ∃ t response,
      run (deliveryStep routedEnvironment) (.start ∅) (routedRequests ++ [.lookup 1]) = some t ∧
      t.answer = some (.get routedStream.toText response) ∧ response.Serves :=
    ⟨_, _, rfl, rfl, Or.inr rfl⟩
  obtain ⟨t, response, hrun, hanswer, hserves⟩ := hserves
  refine ⟨t, response, hrun, hanswer, hserves, ?_⟩
  refine gate_not_bypassed (fun _ => rfl) rfl ?_ ?_ hrun hanswer hserves
  · intro path object hobject
    cases hobject
  · have hkey : ∃ s, KeyOf s (mediaPlaylistPath routedStream.toText RenditionId.high.asStr) :=
      ⟨routedStream, .mediaPlaylist .high⟩
    simpa [routedRequests, DeliveryAction.WritesKey] using hkey

end StreamInfa.Delivery
