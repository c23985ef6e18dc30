import StreamInfa.Control.Shared
import StreamInfa.Delivery.Serve
import StreamInfa.Storage.Cleanup

/-!
The delivery server: GET and DELETE requests among the other tasks.

`deliveryStep` interleaves the steps of any number of GET and DELETE requests with the
cleanup task, the writes of the pipelines and every other use of the stream records. A
DELETE reads the record, deletes the objects and moves the record to DELETED, and
ignores what goes wrong in the last two. The record then closes the stream to GET
requests until the cleanup task removes it.

`Outcome` lists what a step can do, and `deliveryStep_outcome` says that these are all. The
lemmas after it say where the objects in the store and the cache, the requests and the
answers come from.
-/

namespace StreamInfa.Delivery

open Control Storage

/-! ### The server -/

/-- A GET request between its steps: past the gate, past the cache, and with the object
from the store. -/
inductive GetPhase where
  | idle
  | checked (serving : Serving)
  | missed (serving : Serving)
  | fetched (serving : Serving) (output : GetObjectOutput)
deriving DecidableEq, Repr

/-- The request in a phase past the gate. -/
def GetPhase.serving : GetPhase → Option Serving
  | .idle => none
  | .checked serving => some serving
  | .missed serving => some serving
  | .fetched serving _ => some serving

/-- A DELETE request between its steps: it has found the record in `state`, and has
deleted the objects. -/
inductive DeletePhase where
  | idle
  | found (streamId : Text) (sid : StreamId) (state : StreamState)
  | purged (streamId : Text) (sid : StreamId) (state : StreamState) (segmentsDeleted : ℕ)
deriving DecidableEq, Repr

/-- What the cleanup task still has to do in its cycle. -/
inductive CleanupJob where
  /-- Delete the objects of a stream in ERROR. -/
  | retire (streamId : StreamId)
  /-- Move the stream to DELETED. -/
  | bury (streamId : StreamId)
  /-- Remove the record of a DELETED stream. -/
  | forget (streamId : StreamId)
deriving DecidableEq, Repr

inductive Answer where
  | get (streamId : Text) (response : Response)
  /-- 200 with status `deleted`. -/
  | deleted (streamId : Text) (segmentsDeleted : ℕ)
  | refused (response : Response)
deriving DecidableEq, Repr

/-- The UUID parser, which lives outside the repository, and the configuration. -/
structure Environment where
  parseUuid : Text → Option StreamId
  delivery : DeliveryConfig
  cache : CacheConfig

structure DeliveryServer where
  manager : SharedManager
  store : MediaStore
  cache : ObjectCache
  clock : ℕ
  gets : ℕ → GetPhase
  deletes : ℕ → DeletePhase
  cleanup : List CleanupJob
  /-- The streams of the DELETE requests answered so far. -/
  deleted : List StreamId
  /-- The answer given by the last step. -/
  answer : Option Answer

inductive DeliveryAction where
  | tick (nanos : ℕ)
  /-- Any other task uses the stream records. -/
  | manage (a : ManagerAction)
  /-- Any task writes an object. -/
  | put (path : Text) (object : StoredObject)
  /-- GET request `i` up to the gate. -/
  | get (i : ℕ) (streamId : Text) (route : Route) (rangeHeader : Option Text)
  | lookup (i : ℕ)
  /-- GET request `i` reads the store, which may fail. -/
  | fetch (i : ℕ) (fault : Option StorageError)
  | finish (i : ℕ)
  /-- DELETE request `i` up to the record; `denied` is the answer to a request without
  the admin token. -/
  | delete (i : ℕ) (denied : Option Response) (streamId : Text)
  /-- DELETE request `i` deletes the objects but those in `kept`. -/
  | purge (i : ℕ) (kept : List Text) (failed : Bool)
  | conclude (i : ℕ) (now : DateTime)
  /-- The cleanup task deletes a segment of a live stream. -/
  | expireSegment (path : Text)
  | listErrors (now : DateTime)
  | listDeleted (now : DateTime)
  /-- The next job of the cleanup task. -/
  | cleanup (kept : List Text) (failed : Bool) (now : DateTime)

/-- The action begins GET request `i`. -/
def DeliveryAction.Begins (i : ℕ) : DeliveryAction → Prop
  | .get j .. => j = i
  | _ => False

/-- The version number of a UUID. -/
def StreamId.versionNum (streamId : StreamId) : ℕ := streamId.uuid.toNat / 2 ^ 76 % 16

def parseStreamIdParam (parseUuid : Text → Option StreamId) (raw : Text) :
    Except Response StreamId :=
  match parseUuid raw with
  | none => .error (errorJson 400 "invalid_stream_id".toList "Invalid stream ID format.".toList)
  | some uuid =>
    if StreamId.versionNum uuid ≠ 7 then
      .error (errorJson 400 "invalid_stream_id".toList
        "Invalid stream ID version. Expected UUIDv7.".toList)
    else .ok uuid

/-- Any use of the records but their removal, which only the cleanup task does. A
connection that found no record creates one without looking again, so a creation may
replace a record. -/
def manageStep (m : SharedManager) : ManagerAction → Option SharedManager
  | .create streamId ingestMode now =>
    some (m.begin (m.manager.createStream streamId ingestMode now).2 [(.pending, 1)])
  | .remove _ => none
  | a => sharedStep m a

namespace DeliveryServer

def start (store : MediaStore) : DeliveryServer where
  manager := .new
  store := store
  cache := .new
  clock := 0
  gets := fun _ => .idle
  deletes := fun _ => .idle
  cleanup := []
  deleted := []
  answer := none

def quiet (s : DeliveryServer) : DeliveryServer := { s with answer := none }

def setGet (s : DeliveryServer) (i : ℕ) (phase : GetPhase) : DeliveryServer :=
  { s with gets := Function.update s.gets i phase }

def setDelete (s : DeliveryServer) (i : ℕ) (phase : DeletePhase) : DeliveryServer :=
  { s with deletes := Function.update s.deletes i phase }

/-- GET request `i` ends with a response. -/
def answerGet (s : DeliveryServer) (i : ℕ) (streamId : Text) (response : Response) :
    DeliveryServer :=
  { s.setGet i .idle with answer := some (.get streamId response) }

def state (s : DeliveryServer) (streamId : StreamId) : Option StreamState :=
  (s.manager.streams.lookup streamId).map StreamEntry.state

/-- The paths a deletion by prefix lists and counts. -/
def objectsUnder (s : DeliveryServer) (streamId : Text) : List Text :=
  s.store.keys.filter fun path => (streamId ++ ['/']).isPrefixOf path

/-- DELETE request `i`, which found the record in `state`, ends. A refused transition is
ignored. -/
def conclude (s : DeliveryServer) (i : ℕ) (streamId : Text) (sid : StreamId)
    (state : StreamState) (segmentsDeleted : ℕ) (now : DateTime) : DeliveryServer :=
  { s.setDelete i .idle with
    manager := if state ≠ .deleted then s.manager.transitionSection sid .deleted now else s.manager
    deleted := sid :: s.deleted
    answer := some (.deleted streamId segmentsDeleted) }

end DeliveryServer

/-- The record a DELETE request finds, or the answer it gets at once. -/
def beginDelete (env : Environment) (m : SharedManager) (denied : Option Response)
    (streamId : Text) : Except Response (StreamId × StreamState) :=
  match denied with
  | some response => .error response
  | none =>
    match parseStreamIdParam env.parseUuid streamId with
    | .error response => .error response
    | .ok sid =>
      match m.streams.lookup sid with
      | some entry => .ok (sid, entry.state)
      | none =>
        .error (errorJson 404 "stream_not_found".toList
          ("Stream '".toList ++ streamId ++ "' not found.".toList))

/-- The next job of a cleanup cycle. -/
def cleanupStep (s : DeliveryServer) (kept : List Text) (failed : Bool) (now : DateTime) :
    Option DeliveryServer :=
  match s.cleanup with
  | [] => none
  | .retire id :: jobs =>
    some { s with
      store := s.store.deletePrefix (id.toText ++ ['/']) kept
      cleanup := if failed then jobs else .bury id :: jobs }
  | .bury id :: jobs =>
    some { s with manager := s.manager.transitionSection id .deleted now, cleanup := jobs }
  | .forget id :: jobs => some { s with manager := s.manager.removeSection id, cleanup := jobs }

def deliveryStep (env : Environment) (s : DeliveryServer) :
    DeliveryAction → Option DeliveryServer
  | .tick nanos => some { s.quiet with clock := s.clock + nanos }
  | .manage a => (manageStep s.manager a).map fun m => { s.quiet with manager := m }
  | .put path object => some { s.quiet with store := s.store.insert path object }
  | .get i streamId route rangeHeader =>
    match s.gets i with
    | .idle =>
      match beginServe ((env.parseUuid streamId).bind s.state) streamId route rangeHeader with
      | .error response => some (s.answerGet i streamId response)
      | .ok serving => some (s.quiet.setGet i (.checked serving))
    | _ => none
  | .lookup i =>
    match s.gets i with
    | .checked serving =>
      match serveCached env.delivery s.cache s.clock serving with
      | (some response, cache) =>
        some { s.answerGet i serving.streamId response with cache := cache }
      | (none, cache) => some { s.quiet.setGet i (.missed serving) with cache := cache }
    | _ => none
  | .fetch i fault =>
    match s.gets i with
    | .missed serving =>
      match fault.elim (s.store.getObject serving.path) .error with
      | .ok output => some (s.quiet.setGet i (.fetched serving output))
      | .error e =>
        some (s.answerGet i serving.streamId (storageErrorResponse serving.path e))
    | _ => none
  | .finish i =>
    match s.gets i with
    | .fetched serving output =>
      let (response, cache) := serveFetched env.delivery env.cache s.cache s.clock serving output
      some { s.answerGet i serving.streamId response with cache := cache }
    | _ => none
  | .delete i denied streamId =>
    match s.deletes i with
    | .idle =>
      match beginDelete env s.manager denied streamId with
      | .error response => some { s with answer := some (.refused response) }
      | .ok (sid, state) => some (s.quiet.setDelete i (.found streamId sid state))
    | _ => none
  | .purge i kept failed =>
    match s.deletes i with
    | .found streamId sid state =>
      some { s.quiet.setDelete i (.purged streamId sid state
            (if failed then 0 else (s.objectsUnder streamId).length)) with
        store := s.store.deletePrefix (streamId ++ ['/']) kept }
    | _ => none
  | .conclude i now =>
    match s.deletes i with
    | .purged streamId sid state segmentsDeleted =>
      some (s.conclude i streamId sid state segmentsDeleted now)
    | _ => none
  | .expireSegment path =>
    if ".m4s".toList.isSuffixOf path then
      some { s.quiet with store := s.store.deleteObject path }
    else none
  | .listErrors now =>
    if s.cleanup = [] then
      some { s.quiet with
        cleanup := (s.manager.streams.keysWhere (errorExpired now)).map .retire }
    else none
  | .listDeleted now =>
    if s.cleanup = [] then
      some { s.quiet with
        cleanup := (s.manager.streams.keysWhere (tombstoneExpired now)).map .forget }
    else none
  | .cleanup kept failed now => cleanupStep s.quiet kept failed now

/-! ### What a step does -/

/-- A use of the records creates one, or leaves those that exist where they are. -/
theorem manageStep_cases {m m' : SharedManager} {a : ManagerAction}
    (h : manageStep m a = some m') :
    (∃ streamId ingestMode now, a = .create streamId ingestMode now ∧
      m'.streams = (m.manager.createStream streamId ingestMode now).2.streams) ∨
    ∀ id, EntryStep (m.streams.lookup id) (m'.streams.lookup id) ∧
      (m'.streams.lookup id).isSome = (m.streams.lookup id).isSome := by
  by_cases hcreate : ∃ streamId ingestMode now, a = .create streamId ingestMode now
  · obtain ⟨streamId, ingestMode, now, rfl⟩ := hcreate
    obtain rfl := Option.some.inj h
    exact Or.inl ⟨streamId, ingestMode, now, rfl, rfl⟩
  · have hremove : ∀ streamId, a ≠ .remove streamId := by
      rintro streamId rfl
      cases h
    have hshared : sharedStep m a = some m' := by
      unfold manageStep at h
      split at h
      · exact absurd ⟨_, _, _, rfl⟩ hcreate
      · cases h
      · exact h
    refine Or.inr fun id => ⟨sharedStep_lookup hshared id, ?_⟩
    refine isSome_lookup_sharedStep hshared (fun streamId ingestMode now heq => ?_) hremove id
    exact hcreate ⟨streamId, ingestMode, now, heq⟩

/-- The manager after a creation has the records of the other streams. -/
theorem lookup_createStream_ne (m : StreamStateManager) {streamId : StreamId}
    (ingestMode : IngestMode) (now : DateTime) {id : StreamId} (hne : id ≠ streamId) :
    (m.createStream streamId ingestMode now).2.streams.lookup id = m.streams.lookup id :=
  AList.lookup_insert_ne hne

/-- The outcomes of the steps, one constructor for each way a step can go. -/
inductive Outcome (env : Environment) (s : DeliveryServer) :
    DeliveryAction → DeliveryServer → Prop where
  | ticked (nanos : ℕ) : Outcome env s (.tick nanos) { s.quiet with clock := s.clock + nanos }
  | managed {a : ManagerAction} {m : SharedManager} (h : manageStep s.manager a = some m) :
      Outcome env s (.manage a) { s.quiet with manager := m }
  | stored (path : Text) (object : StoredObject) :
      Outcome env s (.put path object) { s.quiet with store := s.store.insert path object }
  | refused {i : ℕ} {streamId : Text} {route : Route} {rangeHeader : Option Text}
      {response : Response} (hi : s.gets i = .idle)
      (h : beginServe ((env.parseUuid streamId).bind s.state) streamId route rangeHeader =
        .error response) :
      Outcome env s (.get i streamId route rangeHeader) (s.answerGet i streamId response)
  | passed {i : ℕ} {streamId : Text} {route : Route} {rangeHeader : Option Text}
      {serving : Serving} (hi : s.gets i = .idle)
      (h : beginServe ((env.parseUuid streamId).bind s.state) streamId route rangeHeader =
        .ok serving) :
      Outcome env s (.get i streamId route rangeHeader) (s.quiet.setGet i (.checked serving))
  | hit {i : ℕ} {serving : Serving} {data : Bytes} {contentType etag : Text}
      (hi : s.gets i = .checked serving)
      (h : (s.cache.get serving.path s.clock).1 = some (data, contentType, etag)) :
      Outcome env s (.lookup i)
        { s.answerGet i serving.streamId (buildResponse env.delivery data contentType etag
            serving.path serving.range serving.isLive) with
          cache := (s.cache.get serving.path s.clock).2 }
  | missed {i : ℕ} {serving : Serving} (hi : s.gets i = .checked serving)
      (h : (s.cache.get serving.path s.clock).1 = none) :
      Outcome env s (.lookup i)
        { s.quiet.setGet i (.missed serving) with
          cache := (s.cache.get serving.path s.clock).2 }
  | fetched {i : ℕ} {serving : Serving} {output : GetObjectOutput}
      (hi : s.gets i = .missed serving) (h : s.store.getObject serving.path = .ok output) :
      Outcome env s (.fetch i none) (s.quiet.setGet i (.fetched serving output))
  | unfetched {i : ℕ} {serving : Serving} {fault : Option StorageError} {e : StorageError}
      (hi : s.gets i = .missed serving)
      (h : fault.elim (s.store.getObject serving.path) .error = .error e) :
      Outcome env s (.fetch i fault)
        (s.answerGet i serving.streamId (storageErrorResponse serving.path e))
  | finished {i : ℕ} {serving : Serving} {output : GetObjectOutput}
      (hi : s.gets i = .fetched serving output) :
      Outcome env s (.finish i)
        { s.answerGet i serving.streamId
            (serveFetched env.delivery env.cache s.cache s.clock serving output).1 with
          cache := (serveFetched env.delivery env.cache s.cache s.clock serving output).2 }
  | rejected {i : ℕ} {denied : Option Response} {streamId : Text} {response : Response}
      (hi : s.deletes i = .idle) (h : beginDelete env s.manager denied streamId = .error response) :
      Outcome env s (.delete i denied streamId) { s with answer := some (.refused response) }
  | found {i : ℕ} {denied : Option Response} {streamId : Text} {sid : StreamId}
      {state : StreamState} (hi : s.deletes i = .idle)
      (h : beginDelete env s.manager denied streamId = .ok (sid, state)) :
      Outcome env s (.delete i denied streamId) (s.quiet.setDelete i (.found streamId sid state))
  | purged {i : ℕ} {streamId : Text} {sid : StreamId} {state : StreamState} (kept : List Text)
      (failed : Bool) (hi : s.deletes i = .found streamId sid state) :
      Outcome env s (.purge i kept failed)
        { s.quiet.setDelete i (.purged streamId sid state
            (if failed then 0 else (s.objectsUnder streamId).length)) with
          store := s.store.deletePrefix (streamId ++ ['/']) kept }
  | concluded {i : ℕ} {streamId : Text} {sid : StreamId} {state : StreamState} {n : ℕ}
      (now : DateTime) (hi : s.deletes i = .purged streamId sid state n) :
      Outcome env s (.conclude i now) (s.conclude i streamId sid state n now)
  | expired {path : Text} (h : ".m4s".toList.isSuffixOf path = true) :
      Outcome env s (.expireSegment path) { s.quiet with store := s.store.deleteObject path }
  | listedErrors (now : DateTime) (hjobs : s.cleanup = []) :
      Outcome env s (.listErrors now)
        { s.quiet with cleanup := (s.manager.streams.keysWhere (errorExpired now)).map .retire }
  | listedDeleted (now : DateTime) (hjobs : s.cleanup = []) :
      Outcome env s (.listDeleted now)
        { s.quiet with cleanup := (s.manager.streams.keysWhere (tombstoneExpired now)).map .forget }
  | retired {id : StreamId} {jobs : List CleanupJob} (kept : List Text) (failed : Bool)
      (now : DateTime) (hjobs : s.cleanup = .retire id :: jobs) :
      Outcome env s (.cleanup kept failed now)
        { s.quiet with
          store := s.store.deletePrefix (id.toText ++ ['/']) kept
          cleanup := if failed then jobs else .bury id :: jobs }
  | buried {id : StreamId} {jobs : List CleanupJob} (kept : List Text) (failed : Bool)
      (now : DateTime) (hjobs : s.cleanup = .bury id :: jobs) :
      Outcome env s (.cleanup kept failed now)
        { s.quiet with manager := s.manager.transitionSection id .deleted now, cleanup := jobs }
  | forgot {id : StreamId} {jobs : List CleanupJob} (kept : List Text) (failed : Bool)
      (now : DateTime) (hjobs : s.cleanup = .forget id :: jobs) :
      Outcome env s (.cleanup kept failed now)
        { s.quiet with manager := s.manager.removeSection id, cleanup := jobs }

section Outcome

variable {env : Environment} {s s' : DeliveryServer}

theorem get_outcome {i : ℕ} {streamId : Text} {route : Route} {rangeHeader : Option Text}
    (h : deliveryStep env s (.get i streamId route rangeHeader) = some s') :
    Outcome env s (.get i streamId route rangeHeader) s' := by
  simp only [deliveryStep] at h
  split at h
  · rename_i hi
    split at h
    · rename_i response hrefused
      obtain rfl := Option.some.inj h
      exact .refused hi hrefused
    · rename_i serving hpassed
      obtain rfl := Option.some.inj h
      exact .passed hi hpassed
  · cases h

theorem lookup_outcome {i : ℕ} (h : deliveryStep env s (.lookup i) = some s') :
    Outcome env s (.lookup i) s' := by
  simp only [deliveryStep] at h
  split at h
  · rename_i serving hi
    split at h
    · rename_i response cache hcached
      obtain rfl := Option.some.inj h
      obtain ⟨hfound, rfl⟩ := Prod.mk.inj hcached
      obtain ⟨⟨data, contentType, etag⟩, hget, rfl⟩ := Option.map_eq_some_iff.mp hfound
      exact .hit hi hget
    · rename_i cache hcached
      obtain rfl := Option.some.inj h
      obtain ⟨hfound, rfl⟩ := Prod.mk.inj hcached
      exact .missed hi (Option.map_eq_none_iff.mp hfound)
  · cases h

theorem fetch_outcome {i : ℕ} {fault : Option StorageError}
    (h : deliveryStep env s (.fetch i fault) = some s') : Outcome env s (.fetch i fault) s' := by
  simp only [deliveryStep] at h
  split at h
  · rename_i serving hi
    split at h
    · rename_i output hget
      obtain rfl := Option.some.inj h
      cases fault with
      | none => exact .fetched hi hget
      | some fault => cases hget
    · rename_i e hget
      obtain rfl := Option.some.inj h
      exact .unfetched hi hget
  · cases h

theorem delete_outcome {i : ℕ} {denied : Option Response} {streamId : Text}
    (h : deliveryStep env s (.delete i denied streamId) = some s') :
    Outcome env s (.delete i denied streamId) s' := by
  simp only [deliveryStep] at h
  split at h
  · rename_i hi
    split at h
    · rename_i response hrejected
      obtain rfl := Option.some.inj h
      exact .rejected hi hrejected
    · rename_i sid state hfound
      obtain rfl := Option.some.inj h
      exact .found hi hfound
  · cases h

theorem cleanup_outcome {kept : List Text} {failed : Bool} {now : DateTime}
    (h : deliveryStep env s (.cleanup kept failed now) = some s') :
    Outcome env s (.cleanup kept failed now) s' := by
  simp only [deliveryStep, cleanupStep] at h
  split at h
  · cases h
  · rename_i id jobs hjobs
    obtain rfl := Option.some.inj h
    exact .retired kept failed now hjobs
  · rename_i id jobs hjobs
    obtain rfl := Option.some.inj h
    exact .buried kept failed now hjobs
  · rename_i id jobs hjobs
    obtain rfl := Option.some.inj h
    exact .forgot kept failed now hjobs

/-- Every step has one of the outcomes. -/
theorem deliveryStep_outcome {a : DeliveryAction} (h : deliveryStep env s a = some s') :
    Outcome env s a s' := by
  cases a with
  | tick nanos =>
    obtain rfl := Option.some.inj h
    exact .ticked nanos
  | manage a =>
    obtain ⟨m, hm, rfl⟩ := Option.map_eq_some_iff.mp h
    exact .managed hm
  | put path object =>
    obtain rfl := Option.some.inj h
    exact .stored path object
  | get i streamId route rangeHeader => exact get_outcome h
  | lookup i => exact lookup_outcome h
  | fetch i fault => exact fetch_outcome h
  | finish i =>
    simp only [deliveryStep] at h
    split at h
    · rename_i serving output hi
      obtain rfl := Option.some.inj h
      exact .finished hi
    · cases h
  | delete i denied streamId => exact delete_outcome h
  | purge i kept failed =>
    simp only [deliveryStep] at h
    split at h
    · rename_i streamId sid state hi
      obtain rfl := Option.some.inj h
      exact .purged kept failed hi
    · cases h
  | conclude i now =>
    simp only [deliveryStep] at h
    split at h
    · rename_i streamId sid state n hi
      obtain rfl := Option.some.inj h
      exact .concluded now hi
    · cases h
  | expireSegment path =>
    simp only [deliveryStep] at h
    split at h
    · rename_i hsuffix
      obtain rfl := Option.some.inj h
      exact .expired hsuffix
    · cases h
  | listErrors now =>
    simp only [deliveryStep] at h
    split at h
    · rename_i hjobs
      obtain rfl := Option.some.inj h
      exact .listedErrors now hjobs
    · cases h
  | listDeleted now =>
    simp only [deliveryStep] at h
    split at h
    · rename_i hjobs
      obtain rfl := Option.some.inj h
      exact .listedDeleted now hjobs
    · cases h
  | cleanup kept failed now => exact cleanup_outcome h

end Outcome

/-! ### What a step brings in -/

section Sources

variable {env : Environment} {s s' : DeliveryServer} {a : DeliveryAction} {i : ℕ}
  {serving : Serving} {output : GetObjectOutput}

theorem clock_le_of_outcome (hstep : Outcome env s a s') : s.clock ≤ s'.clock := by
  cases hstep with
  | ticked nanos => exact Nat.le_add_right _ _
  | _ => exact Nat.le_refl _

/-- What a step does to the records. -/
theorem manager_of_outcome (hstep : Outcome env s a s') :
    s'.manager = s.manager ∨
    (∃ b, a = .manage b ∧ manageStep s.manager b = some s'.manager) ∨
    (∃ streamId now, s'.manager = s.manager.transitionSection streamId .deleted now) ∨
    ∃ id jobs kept failed now, s.cleanup = .forget id :: jobs ∧ a = .cleanup kept failed now ∧
      s' = { s.quiet with manager := s.manager.removeSection id, cleanup := jobs } := by
  cases hstep with
  | @managed b m hm => exact Or.inr (Or.inl ⟨b, rfl, hm⟩)
  | @concluded i streamId sid state n now hi =>
    unfold DeliveryServer.conclude
    dsimp only
    split
    · exact Or.inr (Or.inr (Or.inl ⟨sid, now, rfl⟩))
    · exact Or.inl rfl
  | @buried id jobs kept failed now hjobs => exact Or.inr (Or.inr (Or.inl ⟨id, now, rfl⟩))
  | @forgot id jobs kept failed now hjobs =>
    exact Or.inr (Or.inr (Or.inr ⟨id, jobs, kept, failed, now, hjobs, rfl, rfl⟩))
  | ticked | stored | refused | passed | hit | missed | fetched | unfetched | finished
  | rejected | found | purged | expired | listedErrors | listedDeleted
  | retired => exact Or.inl rfl

/-- Only puts bring objects into the store. -/
theorem lookup_of_outcome (hstep : Outcome env s a s') {path : Text} {object : StoredObject}
    (h : s'.store.lookup path = some object) :
    s.store.lookup path = some object ∨ a = .put path object := by
  cases hstep with
  | stored put new =>
    by_cases hpath : path = put
    · subst hpath
      obtain rfl := Option.some.inj ((AList.lookup_insert s.store).symm.trans h)
      exact Or.inr rfl
    · exact Or.inl ((AList.lookup_insert_ne hpath).symm.trans h)
  | purged | retired => exact Or.inl (lookup_of_lookup_deletePrefix h)
  | expired => exact Or.inl (lookup_of_lookup_deleteObject h)
  | ticked | managed | refused | passed | hit | missed | fetched | unfetched | finished
  | rejected | found | concluded | listedErrors | listedDeleted | buried
  | forgot => exact Or.inl h

/-- Only the last step of a request brings something into the cache, and that is what the
request has read. -/
theorem cache_of_outcome (hstep : Outcome env s a s') {e : Text × CacheEntry}
    (h : e ∈ s'.cache.lru.entries) :
    e ∈ s.cache.lru.entries ∨ ∃ i serving output, a = .finish i ∧
      s.gets i = .fetched serving output ∧ serving.range = none ∧ env.cache.Keeps output.body ∧
      e.1 = serving.path ∧ entryOutput e.2 = output := by
  cases hstep with
  | hit | missed => exact Or.inl (ObjectCache.mem_of_mem_get h)
  | @finished i serving output hi =>
    rcases mem_of_mem_serveFetched env.delivery h with hold | ⟨hrange, hkeeps, hkey, houtput⟩
    · exact Or.inl hold
    · exact Or.inr ⟨i, serving, output, rfl, hi, hrange, hkeeps, hkey, houtput⟩
  | ticked | managed | stored | refused | passed | fetched | unfetched | rejected | found
  | purged | concluded | expired | listedErrors | listedDeleted | retired | buried
  | forgot => exact Or.inl h

/-- What a step does to the GET requests: nothing, or it moves one of them. -/
theorem gets_of_outcome (hstep : Outcome env s a s') :
    s'.gets = s.gets ∨ ∃ i phase, s'.gets = Function.update s.gets i phase ∧
      (phase = .idle ∨
        (∃ streamId route rangeHeader serving, a = .get i streamId route rangeHeader ∧
          beginServe ((env.parseUuid streamId).bind s.state) streamId route rangeHeader =
            .ok serving ∧ phase = .checked serving) ∨
        (∃ serving, s.gets i = .checked serving ∧ phase = .missed serving) ∨
        ∃ serving output, s.gets i = .missed serving ∧
          s.store.getObject serving.path = .ok output ∧ phase = .fetched serving output) := by
  cases hstep with
  | refused | hit | unfetched | finished => exact Or.inr ⟨_, _, rfl, Or.inl rfl⟩
  | passed hi hbegin =>
    exact Or.inr ⟨_, _, rfl, Or.inr (Or.inl ⟨_, _, _, _, rfl, hbegin, rfl⟩)⟩
  | missed hi => exact Or.inr ⟨_, _, rfl, Or.inr (Or.inr (Or.inl ⟨_, hi, rfl⟩))⟩
  | fetched hi hget =>
    exact Or.inr ⟨_, _, rfl, Or.inr (Or.inr (Or.inr ⟨_, _, hi, hget, rfl⟩))⟩
  | ticked | managed | stored | rejected | found | purged | concluded | expired | listedErrors
  | listedDeleted | retired | buried | forgot => exact Or.inl rfl

/-- A request past the gate was there before, or has just passed it. -/
theorem serving_of_outcome (hstep : Outcome env s a s')
    (h : (s'.gets i).serving = some serving) :
    (s.gets i).serving = some serving ∨ ∃ streamId route rangeHeader,
      a = .get i streamId route rangeHeader ∧
      beginServe ((env.parseUuid streamId).bind s.state) streamId route rangeHeader =
        .ok serving := by
  rcases gets_of_outcome hstep with hgets | ⟨k, phase, hgets, hphase⟩
  · rw [hgets] at h
    exact Or.inl h
  · rw [hgets] at h
    by_cases hi : i = k
    · subst hi
      rw [Function.update_self] at h
      rcases hphase with rfl | ⟨streamId, route, rangeHeader, _, ha, hbegin, rfl⟩ |
        ⟨_, hk, rfl⟩ | ⟨_, _, hk, -, rfl⟩
      · cases h
      · obtain rfl := Option.some.inj h
        exact Or.inr ⟨streamId, route, rangeHeader, ha, hbegin⟩
      · rw [hk]
        exact Or.inl h
      · rw [hk]
        exact Or.inl h
    · rw [Function.update_of_ne hi] at h
      exact Or.inl h

/-- What a request has read was read before, or has just been read from the store. -/
theorem fetched_of_outcome (hstep : Outcome env s a s')
    (h : s'.gets i = .fetched serving output) :
    s.gets i = .fetched serving output ∨
      s.gets i = .missed serving ∧ s.store.getObject serving.path = .ok output := by
  rcases gets_of_outcome hstep with hgets | ⟨k, phase, hgets, hphase⟩
  · rw [hgets] at h
    exact Or.inl h
  · rw [hgets] at h
    by_cases hi : i = k
    · subst hi
      rw [Function.update_self] at h
      subst h
      rcases hphase with hphase | ⟨_, _, _, _, -, -, hphase⟩ | ⟨_, -, hphase⟩ |
        ⟨_, _, hk, hget, hphase⟩
      · cases hphase
      · cases hphase
      · cases hphase
      · obtain ⟨rfl, rfl⟩ := GetPhase.fetched.inj hphase
        exact Or.inr ⟨hk, hget⟩
    · rw [Function.update_of_ne hi] at h
      exact Or.inl h

/-- A request that is past the gate does not begin. -/
theorem not_begins_of_outcome (hstep : Outcome env s a s')
    (h : (s.gets i).serving = some serving) : ¬ a.Begins i := by
  have hidle : ∀ k, s.gets k = .idle → k ≠ i := by
    rintro k hk rfl
    rw [hk] at h
    cases h
  cases hstep with
  | refused hi | passed hi => exact hidle _ hi
  | _ => exact fun hbegins => hbegins

/-- Looking up the cache and answering leave the store as it is. -/
theorem store_of_answer (hstep : Outcome env s a s') (ha : a = .lookup i ∨ a = .finish i) :
    s'.store = s.store := by
  rcases ha with rfl | rfl
  · cases hstep with
    | hit | missed => rfl
  · cases hstep with
    | finished => rfl

/-- An answer to a GET request that is no refusal is made of an entry of the cache that has
not expired, or of what the request has read. -/
theorem answer_of_outcome (hstep : Outcome env s a s') {streamId : Text} {response : Response}
    (hanswer : s'.answer = some (.get streamId response)) :
    (¬ response.Serves ∧ ∀ i, a ≠ .lookup i ∧ a ≠ .finish i) ∨
    ∃ i serving output, (s.gets i).serving = some serving ∧ streamId = serving.streamId ∧
      response = buildResponse env.delivery output.body output.contentType output.etag
        serving.path serving.range serving.isLive ∧
      ((a = .lookup i ∧ ∃ entry, (serving.path, entry) ∈ s.cache.lru.entries ∧
          entry.isExpired s.clock = false ∧ entryOutput entry = output) ∨
        a = .finish i ∧ s.gets i = .fetched serving output) := by
  cases hstep with
  | refused _ hrefused =>
    obtain ⟨-, rfl⟩ := Answer.get.inj (Option.some.inj hanswer)
    exact Or.inl ⟨not_serves_beginServe hrefused, fun i => ⟨nofun, nofun⟩⟩
  | unfetched =>
    obtain ⟨-, rfl⟩ := Answer.get.inj (Option.some.inj hanswer)
    exact Or.inl ⟨not_serves_storageErrorResponse _ _, fun i => ⟨nofun, nofun⟩⟩
  | @hit i serving data contentType etag hi hget =>
    obtain ⟨rfl, rfl⟩ := Answer.get.inj (Option.some.inj hanswer)
    obtain ⟨entry, hentry, hfresh, rfl, rfl, rfl⟩ := ObjectCache.exists_entry_of_get hget
    refine Or.inr ⟨i, serving, entryOutput entry, ?_, rfl, rfl, Or.inl ⟨rfl, ?_⟩⟩
    · rw [hi]
      rfl
    · exact ⟨entry, hentry, hfresh, rfl⟩
  | @finished i serving output hi =>
    obtain ⟨rfl, rfl⟩ := Answer.get.inj (Option.some.inj hanswer)
    refine Or.inr ⟨i, serving, output, ?_, rfl, rfl, Or.inr ⟨rfl, hi⟩⟩
    rw [hi]
    rfl
  | ticked | managed | stored | passed | missed | fetched | rejected | found | purged
  | concluded | expired | listedErrors | listedDeleted | retired | buried
  | forgot => cases hanswer

/-- The answer given by the last step of request `i`. -/
theorem answer_of_request (hstep : Outcome env s a s') (ha : a = .lookup i ∨ a = .finish i)
    {streamId : Text} {response : Response} (hanswer : s'.answer = some (.get streamId response)) :
    ∃ serving output, (s.gets i).serving = some serving ∧
      response = buildResponse env.delivery output.body output.contentType output.etag
        serving.path serving.range serving.isLive ∧
      ((∃ entry, (serving.path, entry) ∈ s.cache.lru.entries ∧
          entry.isExpired s.clock = false ∧ entryOutput entry = output) ∨
        s.gets i = .fetched serving output) := by
  rcases answer_of_outcome hstep hanswer with
    ⟨-, hother⟩ | ⟨k, serving, output, hk, -, hresponse, hsource⟩
  · rcases ha with ha | ha
    · exact absurd ha (hother i).1
    · exact absurd ha (hother i).2
  · have hanswered : a = .lookup k ∨ a = .finish k := hsource.imp And.left And.left
    obtain rfl : k = i := by
      rcases ha with rfl | rfl <;> simpa [eq_comm] using hanswered
    exact ⟨serving, output, hk, hresponse, hsource.imp And.right And.right⟩

end Sources

end StreamInfa.Delivery
