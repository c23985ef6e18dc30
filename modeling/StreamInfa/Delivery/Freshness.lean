import StreamInfa.Delivery.Gate

/-!
When a playlist in the cache is the one in the store.

Nothing takes a playlist out of the cache when a new one is stored: the old one is served
until it expires (`superseded_playlist_served`). `PutsFresh` is what the puts need so that
a request never gets less than what was stored when it began: no copy of another content
may be in the cache, or on its way there from a request that has read the store.
**`served_at_least`** says that in the runs that meet it, this is enough.
-/

namespace StreamInfa.Delivery

open Control Storage

/-! ### Puts and requests -/

/-- The objects put at a path, in order. -/
def putsTo (p : Text) (actions : List DeliveryAction) : List StoredObject :=
  actions.filterMap fun
    | .put path object => if path = p then some object else none
    | _ => none

/-- The actions `before` were performed when GET request `i` last began, and it asked for
`path`. -/
def BeganAfter (actions : List DeliveryAction) (i : ℕ) (before : List DeliveryAction)
    (path : Text) : Prop :=
  ∃ since streamId route rangeHeader,
    actions = before ++ .get i streamId route rangeHeader :: since ∧
    (∀ a ∈ since, ¬ a.Begins i) ∧ path = route.path streamId

/-- The output is of one of the objects put at the path, not older than the last of those
put `before`. -/
def AtLeast (p : Text) (before actions : List DeliveryAction) (output : GetObjectOutput) : Prop :=
  ∃ j object, (putsTo p before).length ≤ j + 1 ∧ (putsTo p actions)[j]? = some object ∧
    output = objectOutput object

/-- A put at the path finds no copy of another content in the cache, nor in a request that
will put it there. -/
def PutsFresh (env : Environment) (p : Text) (s : DeliveryServer) : DeliveryAction → Prop
  | .put path object => path = p →
    (∀ entry, (p, entry) ∈ s.cache.lru.entries → entry.isExpired s.clock = false →
      entryOutput entry = objectOutput object) ∧
    ∀ i serving output, s.gets i = .fetched serving output → serving.path = p →
      serving.range = none → env.cache.Keeps output.body → output = objectOutput object
  | _ => True

section Puts

variable {env : Environment} {p path : Text} {actions before : List DeliveryAction}
  {a : DeliveryAction} {i : ℕ} {s s' : DeliveryServer} {last object : StoredObject}

theorem putsTo_append_put (object : StoredObject) :
    putsTo p (actions ++ [.put p object]) = putsTo p actions ++ [object] := by
  simp [putsTo]

theorem putsTo_append_of_ne (ha : ∀ object, a ≠ .put p object) :
    putsTo p (actions ++ [a]) = putsTo p actions := by
  cases a with
  | put path object =>
    have hne : path ≠ p := by
      rintro rfl
      exact ha object rfl
    simp [putsTo, hne]
  | _ => simp [putsTo]

theorem putsTo_mono (h : before <+: actions) : putsTo p before <+: putsTo p actions :=
  h.filterMap _

/-- The last action begins the request, or the request began before it. -/
theorem BeganAfter.append_cases (h : BeganAfter (actions ++ [a]) i before path) :
    (before = actions ∧ ∃ streamId route rangeHeader,
      a = .get i streamId route rangeHeader ∧ path = route.path streamId) ∨
    ¬ a.Begins i ∧ BeganAfter actions i before path := by
  obtain ⟨since, streamId, route, rangeHeader, heq, hsince, hpath⟩ := h
  rcases List.eq_nil_or_concat since with rfl | ⟨since, b, rfl⟩
  · obtain ⟨rfl, ha⟩ := List.append_inj' heq rfl
    exact Or.inl ⟨rfl, streamId, route, rangeHeader, List.singleton_inj.mp ha, hpath⟩
  · rw [List.concat_eq_append, ← List.cons_append, ← List.append_assoc] at heq
    obtain ⟨rfl, hb⟩ := List.append_inj' heq rfl
    obtain rfl := List.singleton_inj.mp hb
    refine Or.inr ⟨hsince a (by simp), since, streamId, route, rangeHeader, rfl, ?_, hpath⟩
    intro c hc
    exact hsince c (by simp [hc])

theorem BeganAfter.of_append (h : BeganAfter (actions ++ [a]) i before path)
    (ha : ¬ a.Begins i) : BeganAfter actions i before path := by
  rcases h.append_cases with ⟨-, streamId, route, rangeHeader, rfl, -⟩ | ⟨-, hbegan⟩
  · exact absurd rfl ha
  · exact hbegan

theorem BeganAfter.earlier (h : BeganAfter actions i before path) : before <+: actions := by
  obtain ⟨since, streamId, route, rangeHeader, rfl, -⟩ := h
  exact List.prefix_append _ _

theorem AtLeast.append {output : GetObjectOutput} (h : AtLeast p before actions output)
    (a : DeliveryAction) : AtLeast p before (actions ++ [a]) output := by
  obtain ⟨j, object, hj, hget, houtput⟩ := h
  obtain ⟨new, hnew⟩ : putsTo p actions <+: putsTo p (actions ++ [a]) :=
    putsTo_mono (List.prefix_append _ _)
  obtain ⟨hlt, -⟩ := List.getElem?_eq_some_iff.mp hget
  refine ⟨j, object, hj, ?_, houtput⟩
  rw [← hnew, List.getElem?_append_left hlt, hget]

/-- The last object put is new enough for every request. -/
theorem atLeast_of_getLast (hbefore : before <+: actions)
    (h : (putsTo p actions).getLast? = some last) :
    AtLeast p before actions (objectOutput last) := by
  have hlength := (putsTo_mono (p := p) hbefore).length_le
  rw [List.getLast?_eq_getElem?] at h
  exact ⟨_, last, by omega, h, rfl⟩

end Puts

/-! ### One step -/

section Steps

variable {env : Environment} {p : Text} {actions : List DeliveryAction} {a : DeliveryAction}
  {s s' : DeliveryServer} {last : StoredObject}

/-- The store and what the cache serves, now and when the requests are done, agree with the
last object put at the path. -/
structure Agrees (env : Environment) (p : Text) (last : StoredObject) (s : DeliveryServer) :
    Prop where
  store : ∀ object, s.store.lookup p = some object → object = last
  cache : ∀ entry, (p, entry) ∈ s.cache.lru.entries → entry.isExpired s.clock = false →
    entryOutput entry = objectOutput last
  fill : ∀ i serving output, s.gets i = .fetched serving output → serving.path = p →
    serving.range = none → env.cache.Keeps output.body → output = objectOutput last

theorem Agrees.step (h : Agrees env p last s) (ha : ∀ object, a ≠ .put p object)
    (hstep : Outcome env s a s') : Agrees env p last s' where
  store := by
    intro object hobject
    rcases lookup_of_outcome hstep hobject with hold | hput
    · exact h.store object hold
    · exact absurd hput (ha object)
  cache := by
    intro entry hentry hfresh
    rcases cache_of_outcome hstep hentry with
      hold | ⟨i, serving, output, -, hi, hrange, hkeeps, hkey, houtput⟩
    · exact h.cache entry hold (CacheEntry.isExpired_earlier (clock_le_of_outcome hstep) hfresh)
    · exact houtput.trans (h.fill i serving output hi hkey.symm hrange hkeeps)
  fill := by
    intro i serving output hi hpath hrange hkeeps
    rcases fetched_of_outcome hstep hi with hold | ⟨-, hget⟩
    · exact h.fill i serving output hold hpath hrange hkeeps
    · obtain ⟨object, hobject, rfl⟩ := getObject_eq_ok hget
      rw [hpath] at hobject
      rw [h.store object hobject]

/-- A put that finds no copy of another content. -/
theorem agrees_put {object : StoredObject} (hok : PutsFresh env p s (.put p object))
    (hstep : Outcome env s (.put p object) s') : Agrees env p object s' := by
  obtain ⟨hcache, hfill⟩ := hok rfl
  cases hstep with
  | stored =>
    refine ⟨fun stored hstored => ?_, hcache, hfill⟩
    exact (Option.some.inj ((AList.lookup_insert s.store).symm.trans hstored)).symm

/-- The requests since they began: what they ask for, and how new what they have read is. -/
structure Asking (p : Text) (actions : List DeliveryAction) (s : DeliveryServer) : Prop where
  asked : ∀ i serving before path, (s.gets i).serving = some serving →
    BeganAfter actions i before path → serving.path = path
  read : ∀ i serving output before path, s.gets i = .fetched serving output → serving.path = p →
    BeganAfter actions i before path → putsTo p before ≠ [] → AtLeast p before actions output

theorem exists_last {before : List DeliveryAction} (hbefore : before <+: actions)
    (hputs : putsTo p before ≠ []) : ∃ last, (putsTo p actions).getLast? = some last := by
  refine Option.isSome_iff_exists.mp (List.getLast?_isSome.mpr fun hnil => hputs ?_)
  exact List.prefix_nil.mp (hnil ▸ putsTo_mono hbefore)

/-- What the store returns is the last object put. -/
theorem atLeast_of_getObject
    (hagrees : ∀ last, (putsTo p actions).getLast? = some last → Agrees env p last s)
    {output : GetObjectOutput} (hget : s.store.getObject p = .ok output)
    {before : List DeliveryAction} (hbefore : before <+: actions) (hputs : putsTo p before ≠ []) :
    AtLeast p before actions output := by
  obtain ⟨last, hlast⟩ := exists_last hbefore hputs
  obtain ⟨object, hobject, rfl⟩ := getObject_eq_ok hget
  rw [(hagrees last hlast).store object hobject]
  exact atLeast_of_getLast hbefore hlast

theorem Asking.step (h : Asking p actions s)
    (hagrees : ∀ last, (putsTo p actions).getLast? = some last → Agrees env p last s)
    (hstep : Outcome env s a s') : Asking p (actions ++ [a]) s' where
  asked := by
    intro i serving before path hi hbegan
    rcases serving_of_outcome hstep hi with hold | ⟨streamId, route, rangeHeader, rfl, hbegin⟩
    · have hbegan := hbegan.of_append (not_begins_of_outcome hstep hold)
      exact h.asked i serving before path hold hbegan
    · rcases hbegan.append_cases with ⟨-, _, _, _, heq, rfl⟩ | ⟨hnot, -⟩
      · obtain ⟨-, rfl, rfl, -⟩ := DeliveryAction.get.inj heq
        obtain ⟨hid, hroute, -⟩ := beginServe_serving hbegin
        rw [Serving.path, hid, hroute]
      · exact absurd rfl hnot
  read := by
    intro i serving output before path hi hpath hbegan hputs
    rcases fetched_of_outcome hstep hi with hold | ⟨hmissed, hget⟩
    · have hserving : (s.gets i).serving = some serving := by
        rw [hold]
        rfl
      have hbegan := hbegan.of_append (not_begins_of_outcome hstep hserving)
      exact (h.read i serving output before path hold hpath hbegan hputs).append a
    · have hserving : (s.gets i).serving = some serving := by
        rw [hmissed]
        rfl
      have hbegan := hbegan.of_append (not_begins_of_outcome hstep hserving)
      rw [hpath] at hget
      exact (atLeast_of_getObject hagrees hget hbegan.earlier hputs).append a

end Steps

/-! ### Runs -/

section Runs

variable {env : Environment} {p : Text} {start s s' : DeliveryServer}
  {actions : List DeliveryAction} {a : DeliveryAction}

/-- The invariant of a run. -/
structure Current (env : Environment) (p : Text) (actions : List DeliveryAction)
    (s : DeliveryServer) : Prop where
  agrees : ∀ last, (putsTo p actions).getLast? = some last → Agrees env p last s
  asking : Asking p actions s

theorem current_fresh (hidle : ∀ i, start.gets i = .idle) : Current env p [] start where
  agrees := nofun
  asking := by
    constructor
    · intro i serving before path hi
      rw [hidle i] at hi
      cases hi
    · intro i serving output before path hi
      cases (hidle i).symm.trans hi

theorem Current.step (h : Current env p actions s) (hok : PutsFresh env p s a)
    (hstep : Outcome env s a s') : Current env p (actions ++ [a]) s' := by
  refine ⟨fun last hlast => ?_, h.asking.step h.agrees hstep⟩
  by_cases hput : ∃ object, a = .put p object
  · obtain ⟨object, rfl⟩ := hput
    rw [putsTo_append_put, List.getLast?_concat] at hlast
    obtain rfl := Option.some.inj hlast
    exact agrees_put hok hstep
  · have hne : ∀ object, a ≠ .put p object := fun object heq => hput ⟨object, heq⟩
    rw [putsTo_append_of_ne hne] at hlast
    exact (h.agrees last hlast).step hne hstep

/-- A 200 or 206 to a request for the path is made of what was put there, at least as new
as what had been put when the request began. -/
theorem Current.served (h : Current env p actions s) (hstep : Outcome env s a s') {i : ℕ}
    (ha : a = .lookup i ∨ a = .finish i) {before : List DeliveryAction}
    (hbegan : BeganAfter actions i before p) (hputs : putsTo p before ≠ [])
    {streamId : Text} {response : Response} (hanswer : s'.answer = some (.get streamId response)) :
    ∃ output range isLive, AtLeast p before actions output ∧
      response = buildResponse env.delivery output.body output.contentType output.etag p range
        isLive := by
  obtain ⟨last, hlast⟩ := exists_last hbegan.earlier hputs
  obtain ⟨serving, output, hi, rfl, hsource⟩ := answer_of_request hstep ha hanswer
  have hpath : serving.path = p := h.asking.asked i serving before p hi hbegan
  refine ⟨output, serving.range, serving.isLive, ?_, by rw [hpath]⟩
  rw [hpath] at hsource
  rcases hsource with ⟨entry, hentry, hfresh, rfl⟩ | hfetched
  · rw [(h.agrees last hlast).cache entry hentry hfresh]
    exact atLeast_of_getLast hbegan.earlier hlast
  · exact h.asking.read i serving output before p hfetched hpath hbegan hputs

/-- In every run whose puts at a path find no copy of another content, a request for the
path that began after a put there is given what that put or a later one stored. -/
theorem served_at_least (hidle : ∀ i, start.gets i = .idle)
    (hmeets : Meets (deliveryStep env) (PutsFresh env p) start actions)
    {t : DeliveryServer} (hrun : run (deliveryStep env) start (actions ++ [a]) = some t) {i : ℕ}
    (ha : a = .lookup i ∨ a = .finish i) {before : List DeliveryAction}
    (hbegan : BeganAfter actions i before p) (hputs : putsTo p before ≠ [])
    {streamId : Text} {response : Response} (hanswer : t.answer = some (.get streamId response)) :
    ∃ output range isLive, AtLeast p before actions output ∧
      response = buildResponse env.delivery output.body output.contentType output.etag p range
        isLive := by
  obtain ⟨s, hs, hlast⟩ := run_append_eq_some hrun
  obtain ⟨s', hstep, hend⟩ := run_cons_eq_some hlast
  obtain rfl := Option.some.inj hend
  have hcurrent : Current env p actions s :=
    run_history_of_meets (fun _ _ _ _ _ hI hok hstep => hI.step hok (deliveryStep_outcome hstep))
      (current_fresh hidle) hmeets hs
  exact hcurrent.served (deliveryStep_outcome hstep) ha hbegan hputs hanswer

end Runs

/-! ### Two versions of a playlist -/

def twiceStream : StreamId := ⟨0x01900000000070008000000000000003#128⟩

def twicePlaylist : Text := Package.mediaPlaylistPath twiceStream.toText RenditionId.high.asStr

def twiceEnvironment : Environment where
  parseUuid raw := if raw = twiceStream.toText then some twiceStream else none
  delivery := ⟨"no-cache".toList, "public, max-age=86400".toList⟩
  cache := ⟨true, 536870912, 300, 3600⟩

def twiceVersion (content : Text) : StoredObject :=
  ⟨encodeUtf8 content, "application/vnd.apple.mpegurl".toList, ⟨0⟩⟩

/-- The first version is requested, and `nanos` later the second is stored. -/
def twicePuts (nanos : ℕ) : List DeliveryAction :=
  [.put twicePlaylist (twiceVersion "first".toList),
    .get 0 twiceStream.toText (.mediaPlaylist "high".toList) none, .lookup 0, .fetch 0 none,
    .finish 0, .tick nanos, .put twicePlaylist (twiceVersion "second".toList)]

def twiceRequest : DeliveryAction :=
  .get 1 twiceStream.toText (.mediaPlaylist "high".toList) none

theorem began_twiceRequest (nanos : ℕ) (since : List DeliveryAction)
    (hsince : ∀ a ∈ since, ¬ a.Begins 1) :
    BeganAfter (twicePuts nanos ++ twiceRequest :: since) 1 (twicePuts nanos) twicePlaylist :=
  ⟨since, _, _, _, rfl, hsince, rfl⟩

theorem body_of_status {config : DeliveryConfig} {data : Bytes} {contentType etag path : Text}
    {range : Option (ℕ × ℕ)} {isLive : Bool}
    (h : (buildResponse config data contentType etag path range isLive).status = 200) :
    (buildResponse config data contentType etag path range isLive).body = .object data := by
  unfold buildResponse at h ⊢
  dsimp only at h ⊢
  split at h
  · split at h
    · cases h
    · split at h
      · cases h
      · cases h
  · rfl

/-- Half a second after it was cached, the first version is still served. -/
theorem first_version_served :
    ∃ t response,
      run (deliveryStep twiceEnvironment) (.start ∅)
        (twicePuts 500000000 ++ [twiceRequest] ++ [.lookup 1]) = some t ∧
      t.answer = some (.get twiceStream.toText response) ∧ response.status = 200 ∧
      response.body = .object (encodeUtf8 "first".toList) :=
  ⟨_, _, rfl, rfl, rfl, rfl⟩

theorem putsTo_twicePuts (nanos : ℕ) :
    putsTo twicePlaylist (twicePuts nanos) =
      [twiceVersion "first".toList, twiceVersion "second".toList] := rfl

/-- The first version is served to a request that began after the second was stored. -/
theorem superseded_playlist_served :
    ∃ t streamId response, ".m3u8".toList <:+ twicePlaylist ∧
      run (deliveryStep twiceEnvironment) (.start ∅)
        (twicePuts 500000000 ++ [twiceRequest] ++ [.lookup 1]) = some t ∧
      BeganAfter (twicePuts 500000000 ++ [twiceRequest]) 1 (twicePuts 500000000) twicePlaylist ∧
      putsTo twicePlaylist (twicePuts 500000000) ≠ [] ∧
      t.answer = some (.get streamId response) ∧ response.Serves ∧
      ¬ ∃ output range isLive,
        AtLeast twicePlaylist (twicePuts 500000000) (twicePuts 500000000 ++ [twiceRequest]) output ∧
        response = buildResponse twiceEnvironment.delivery output.body output.contentType
          output.etag twicePlaylist range isLive := by
  obtain ⟨t, response, hrun, hanswer, hstatus, hbody⟩ := first_version_served
  refine ⟨t, twiceStream.toText, response, by decide +kernel, hrun, ?_, ?_, hanswer,
    Or.inl hstatus, ?_⟩
  · exact began_twiceRequest _ [] fun _ ha => absurd ha List.not_mem_nil
  · rw [putsTo_twicePuts]
    exact List.cons_ne_nil _ _
  · rintro ⟨output, range, isLive, ⟨j, object, hj, hobject, rfl⟩, rfl⟩
    rw [putsTo_twicePuts] at hj
    rw [putsTo_append_of_ne (fun _ => DeliveryAction.noConfusion), putsTo_twicePuts] at hobject
    have hsecond : object = twiceVersion "second".toList := by
      match j, hj, hobject with
      | 1, _, hobject => exact (Option.some.inj hobject).symm
    rw [body_of_status hstatus, hsecond] at hbody
    cases hbody

/-- Two seconds after it was cached, the first version has expired. -/
theorem first_version_expired :
    ∃ s, run (deliveryStep twiceEnvironment) (.start ∅) (twicePuts 2000000000).dropLast = some s ∧
      (s.cache.lru.entries.all fun e => e.2.isExpired s.clock) = true ∧
      ∀ i, s.gets i = .idle := by
  refine ⟨_, rfl, ?_, fun i => ?_⟩
  · decide +kernel
  · simp [DeliveryServer.answerGet, DeliveryServer.setGet, DeliveryServer.quiet,
      DeliveryServer.start]

theorem meets_twicePuts :
    Meets (deliveryStep twiceEnvironment) (PutsFresh twiceEnvironment twicePlaylist) (.start ∅)
      (twicePuts 2000000000 ++ [twiceRequest, .lookup 1, .fetch 1 none]) := by
  have hsplit : twicePuts 2000000000 ++ [twiceRequest, .lookup 1, .fetch 1 none] =
    (twicePuts 2000000000).dropLast ++
      [.put twicePlaylist (twiceVersion "second".toList), twiceRequest, .lookup 1,
        .fetch 1 none] := rfl
  rw [hsplit]
  apply Meets.append
  · refine ⟨fun _ => ⟨fun _ hentry => absurd hentry List.not_mem_nil, fun i _ _ hi => ?_⟩, ?_⟩
    · cases hi
    · exact fun _ _ => ⟨trivial, fun _ _ => ⟨trivial, fun _ _ => ⟨trivial, fun _ _ =>
        ⟨trivial, fun _ _ => ⟨trivial, fun _ _ => trivial⟩⟩⟩⟩⟩
  · intro t ht
    obtain ⟨s, hs, hexpired, hidle⟩ := first_version_expired
    obtain rfl := Option.some.inj (hs.symm.trans ht)
    refine ⟨fun _ => ⟨fun entry hentry hfresh => ?_, fun i serving output hi => ?_⟩, ?_⟩
    · have hentry := List.all_eq_true.mp hexpired _ hentry
      cases hfresh.symm.trans hentry
    · cases (hidle i).symm.trans hi
    · exact fun _ _ => ⟨trivial, fun _ _ => ⟨trivial, fun _ _ => ⟨trivial, fun _ _ => trivial⟩⟩⟩

/-- The second version is served once the first has expired. -/
theorem served_at_least_twicePuts :
    ∃ t response,
      run (deliveryStep twiceEnvironment) (.start ∅)
        (twicePuts 2000000000 ++ [twiceRequest, .lookup 1, .fetch 1 none] ++ [.finish 1]) =
        some t ∧
      t.answer = some (.get twiceStream.toText response) ∧ response.status = 200 ∧
      response.body = .object (encodeUtf8 "second".toList) ∧
      ∃ output range isLive,
        AtLeast twicePlaylist (twicePuts 2000000000)
          (twicePuts 2000000000 ++ [twiceRequest, .lookup 1, .fetch 1 none]) output ∧
        response = buildResponse twiceEnvironment.delivery output.body output.contentType
          output.etag twicePlaylist range isLive := by
  have hserved : ∃ t response,
      run (deliveryStep twiceEnvironment) (.start ∅)
        (twicePuts 2000000000 ++ [twiceRequest, .lookup 1, .fetch 1 none] ++ [.finish 1]) =
        some t ∧
      t.answer = some (.get twiceStream.toText response) ∧ response.status = 200 ∧
      response.body = .object (encodeUtf8 "second".toList) :=
    ⟨_, _, rfl, rfl, rfl, rfl⟩
  obtain ⟨t, response, hrun, hanswer, hstatus, hbody⟩ := hserved
  refine ⟨t, response, hrun, hanswer, hstatus, hbody, ?_⟩
  refine served_at_least (fun _ => rfl) meets_twicePuts hrun (Or.inr rfl)
    (began_twiceRequest _ _ fun a ha => ?_) (List.cons_ne_nil _ _) hanswer
  simp only [List.mem_cons, List.not_mem_nil, or_false] at ha
  rcases ha with rfl | rfl
  · exact fun hbegins => hbegins
  · exact fun hbegins => hbegins

end StreamInfa.Delivery
