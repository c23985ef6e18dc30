import StreamInfa.Delivery.Server
import StreamInfa.Lib.Run

/-!
When the deletion of a stream is final.

A DELETE that is answered should leave the record DELETED and close the stream to GET
requests for good. `StaysDeleted` is what the steps of the server need for that, and
**`delete_is_final`** says that in the runs that meet it, it is so. A stream deleted
while it is LIVE is not (`live_stream_outlives_delete`).

The invariant is `Gone`: a deleted stream is closed by its record, or has no record and
no object left.
-/

namespace StreamInfa.Delivery

open Control Storage

/-! ### When a deletion is final -/

/-- The path of an object that a GET request under some spelling of the id asks for. -/
def UnderStream (env : Environment) (id : StreamId) (path : Text) : Prop :=
  ∃ streamId rest, path = streamId ++ '/' :: rest ∧ env.parseUuid streamId = some id

/-- The request is under a spelling of the id. -/
def GetPhase.IsOf (env : Environment) (id : StreamId) : GetPhase → Prop
  | .idle => False
  | .checked serving | .missed serving | .fetched serving _ =>
    env.parseUuid serving.streamId = some id

/-- The request has read an object of the stream. -/
def GetPhase.HasObjectOf (env : Environment) (id : StreamId) : GetPhase → Prop
  | .fetched serving _ => UnderStream env id serving.path
  | _ => False

/-- Neither the store nor the cache has an object of the stream. -/
structure Cleared (env : Environment) (s : DeliveryServer) (id : StreamId) : Prop where
  store : ∀ path, UnderStream env id path → s.store.lookup path = none
  cache : ∀ path, UnderStream env id path → ¬ s.cache.Holds s.clock path

/-- What a step needs to keep the deletions final. A DELETE must be answered when the
record can become DELETED and no GET request is past the gate. When the record of a
deleted stream is removed, no object of it may be left, and afterwards none may be
written. A deleted stream must not be created again. -/
def StaysDeleted (env : Environment) (s : DeliveryServer) : DeliveryAction → Prop
  | .manage (.create streamId _ _) => streamId ∉ s.deleted
  | .put path _ => ∀ id ∈ s.deleted, s.state id = none → ¬ UnderStream env id path
  | .conclude i _ => ∀ streamId sid state n, s.deletes i = .purged streamId sid state n →
    (s.state sid = some .deleted ∨
      state ≠ .deleted ∧ (s.state sid = some .ready ∨ s.state sid = some .error)) ∧
    ∀ j, ¬ (s.gets j).IsOf env sid
  | .cleanup .. => ∀ id jobs, s.cleanup = .forget id :: jobs → id ∈ s.deleted →
    Cleared env s id ∧ ∀ j, ¬ (s.gets j).HasObjectOf env id
  | _ => True

/-- A GET request under a spelling of the id is answered 200 or 206. -/
def Serves (env : Environment) (s : DeliveryServer) (id : StreamId) : Prop :=
  ∃ streamId response, s.answer = some (.get streamId response) ∧
    env.parseUuid streamId = some id ∧ response.Serves

/-! ### The invariant -/

variable {env : Environment} {s s' : DeliveryServer} {id : StreamId}

/-- A request that cannot be given an object of a stream whose record is in `state`:
it has not passed the gate of a DELETED stream, nor read an object of a stream without
a record. -/
def Harmless (env : Environment) (state : Option StreamState) (id : StreamId)
    (phase : GetPhase) : Prop :=
  (state = some .deleted → ¬ phase.IsOf env id) ∧ (state = none → ¬ phase.HasObjectOf env id)

/-- The stream is closed to GET requests, by its record or by the lack of objects. -/
structure Gone (env : Environment) (s : DeliveryServer) (id : StreamId) : Prop where
  closed : s.state id = some .deleted ∨ s.state id = none ∧ Cleared env s id
  gets : ∀ i, Harmless env (s.state id) id (s.gets i)

theorem Gone.cleared (h : Gone env s id) (hnone : s.state id = none) : Cleared env s id := by
  rcases h.closed with hdeleted | ⟨-, hcleared⟩
  · rw [hnone] at hdeleted
    cases hdeleted
  · exact hcleared

theorem Gone.state_eq (h : Gone env s id) : s.state id = some .deleted ∨ s.state id = none :=
  h.closed.imp_right And.left

/-! ### Requests -/

theorem Serving.underStream {serving : Serving} (h : env.parseUuid serving.streamId = some id) :
    UnderStream env id serving.path := by
  obtain ⟨rest, hpath⟩ := serving.path_eq
  exact ⟨serving.streamId, rest, hpath, h⟩

theorem GetPhase.IsOf.exists_serving {phase : GetPhase} (h : phase.IsOf env id) :
    ∃ serving, phase.serving = some serving ∧ env.parseUuid serving.streamId = some id := by
  cases phase with
  | idle => exact absurd h not_false
  | checked serving => exact ⟨serving, rfl, h⟩
  | missed serving => exact ⟨serving, rfl, h⟩
  | fetched serving output => exact ⟨serving, rfl, h⟩

theorem GetPhase.isOf_of_serving {phase : GetPhase} {serving : Serving}
    (h : phase.serving = some serving) (hof : env.parseUuid serving.streamId = some id) :
    phase.IsOf env id := by
  cases phase with
  | idle => cases h
  | checked _ | missed _ | fetched _ _ =>
    obtain rfl := Option.some.inj h
    exact hof

theorem GetPhase.HasObjectOf.exists_output {phase : GetPhase} (h : phase.HasObjectOf env id) :
    ∃ serving output, phase = .fetched serving output ∧ UnderStream env id serving.path := by
  cases phase with
  | fetched serving output => exact ⟨serving, output, rfl, h⟩
  | idle | checked _ | missed _ => exact absurd h not_false

/-- A gone stream lets no request past the gate as long as it has its record. -/
theorem not_deleted_of_beginServe {streamId : Text} {route : Route} {rangeHeader : Option Text}
    {serving : Serving}
    (hok : beginServe ((env.parseUuid streamId).bind s.state) streamId route rangeHeader =
      .ok serving) (hof : env.parseUuid serving.streamId = some id) :
    s.state id ≠ some .deleted := by
  obtain ⟨hid, -, -, hgate⟩ := beginServe_ok hok
  rw [hid] at hof
  rw [hof] at hgate
  exact hgate

/-- A request that can still be given an object of a gone stream is past the gate of a
stream without a record. -/
theorem Gone.state_eq_none (h : Gone env s id) {i : ℕ} (hof : (s.gets i).IsOf env id) :
    s.state id = none := by
  rcases h.state_eq with hdeleted | hnone
  · exact absurd hof ((h.gets i).1 hdeleted)
  · exact hnone

theorem Gone.not_fetched (h : Gone env s id) (hnone : s.state id = none) {i : ℕ}
    {serving : Serving} {output : GetObjectOutput} (hi : s.gets i = .fetched serving output) :
    ¬ UnderStream env id serving.path := by
  have hobject := (h.gets i).2 hnone
  rwa [hi] at hobject

/-! ### One step -/

variable {a : DeliveryAction}

/-- A step after which the stream has no record brings in none of its objects. -/
theorem Gone.clears (h : Gone env s id) (hnone : s.state id = none) (hstep : Outcome env s a s')
    (hput : ∀ path object, a = .put path object → ¬ UnderStream env id path) :
    Cleared env s' id where
  store := by
    intro path hunder
    rw [Option.eq_none_iff_forall_ne_some]
    intro object hobject
    rcases lookup_of_outcome hstep hobject with hold | hnew
    · cases ((h.cleared hnone).store path hunder).symm.trans hold
    · exact hput path object hnew hunder
  cache := by
    rintro path hunder ⟨entry, hentry, hfresh⟩
    rcases cache_of_outcome hstep hentry with hold | ⟨i, serving, output, -, hi, -, -, rfl, -⟩
    · refine (h.cleared hnone).cache path hunder ⟨entry, hold, ?_⟩
      exact CacheEntry.isExpired_earlier (clock_le_of_outcome hstep) hfresh
    · exact h.not_fetched hnone hi hunder

/-- No step makes a request harmful. -/
theorem Gone.harmless (h : Gone env s id) (hstep : Outcome env s a s') (i : ℕ) :
    Harmless env (s.state id) id (s'.gets i) := by
  constructor
  · intro hdeleted hof
    obtain ⟨serving, hserving, hof⟩ := hof.exists_serving
    rcases serving_of_outcome hstep hserving with hold | ⟨streamId, route, rangeHeader, -, hbegin⟩
    · exact (h.gets i).1 hdeleted (GetPhase.isOf_of_serving hold hof)
    · exact not_deleted_of_beginServe hbegin hof hdeleted
  · intro hnone hobject
    obtain ⟨serving, output, hi, hunder⟩ := hobject.exists_output
    rcases fetched_of_outcome hstep hi with hold | ⟨-, hget⟩
    · exact h.not_fetched hnone hold hunder
    · obtain ⟨object, hobject, -⟩ := getObject_eq_ok hget
      cases ((h.cleared hnone).store _ hunder).symm.trans hobject

/-- A step that leaves the record of a gone stream as it is, and stores none of its
objects. -/
theorem Gone.keeps (h : Gone env s id) (hstep : Outcome env s a s')
    (hstate : s'.state id = s.state id)
    (hput : ∀ path object, a = .put path object → s.state id = none →
      ¬ UnderStream env id path) : Gone env s' id := by
  constructor
  · rw [hstate]
    refine h.state_eq.imp_right fun hnone => ⟨hnone, h.clears hnone hstep ?_⟩
    exact fun path object hnew => hput path object hnew hnone
  · rw [hstate]
    exact h.harmless hstep

/-- A gone stream is neither revived nor forgotten by a use of the records that neither
creates nor removes one. -/
theorem state_eq_of_entryStep (h : Gone env s id)
    (hstep : EntryStep (s.manager.streams.lookup id) (s'.manager.streams.lookup id))
    (hsome : (s'.manager.streams.lookup id).isSome = (s.manager.streams.lookup id).isSome) :
    s'.state id = s.state id := by
  have hstate := h.state_eq
  unfold DeliveryServer.state at hstate ⊢
  generalize s.manager.streams.lookup id = e at hstep hsome hstate
  generalize s'.manager.streams.lookup id = e' at hstep hsome ⊢
  cases hstep with
  | same => rfl
  | created m streamId ingestMode now => cases hsome
  | removed entry => cases hsome
  | tracked entry renditions expected mediaInfo => rfl
  | failed hlive message now =>
    rcases hstate with hdeleted | hnone
    · exact absurd (Option.some.inj hdeleted) hlive
    · cases hnone
  | @moved entry newState now hvalid =>
    rcases hstate with hdeleted | hnone
    · rw [Option.some.inj hdeleted, isValidTransition_deleted] at hvalid
      cases hvalid
    · cases hnone

theorem Gone.manage (h : Gone env s id) (hid : id ∈ s.deleted) {a : ManagerAction}
    (hok : StaysDeleted env s (.manage a)) (hm : manageStep s.manager a = some s'.manager) :
    s'.state id = s.state id := by
  rcases manageStep_cases hm with ⟨streamId, ingestMode, now, rfl, hstreams⟩ | hkept
  · have hne : id ≠ streamId := by
      rintro rfl
      exact hok hid
    unfold DeliveryServer.state
    rw [hstreams, lookup_createStream_ne _ _ _ hne]
    rfl
  · exact state_eq_of_entryStep h (hkept id).1 (hkept id).2

theorem Gone.transitionSection (h : Gone env s id) (streamId : StreamId)
    (newState : StreamState) (now : DateTime)
    (hmanager : s'.manager = s.manager.transitionSection streamId newState now) :
    s'.state id = s.state id := by
  refine state_eq_of_entryStep h ?_ ?_
  · rw [hmanager]
    exact entryStep_transitionSection _ _ _ _ _
  · rw [hmanager]
    exact isSome_lookup_transitionSection _ _ _ _ _

/-- The removal of the record of a gone stream. -/
theorem Gone.forget {jobs : List CleanupJob} (hcleared : Cleared env s id)
    (hgets : ∀ j, ¬ (s.gets j).HasObjectOf env id) :
    Gone env { s.quiet with manager := s.manager.removeSection id, cleanup := jobs } id := by
  have hstate : DeliveryServer.state
      { s.quiet with manager := s.manager.removeSection id, cleanup := jobs } id = none := by
    simp only [DeliveryServer.state]
    rw [lookup_removeSection, if_pos rfl]
    rfl
  constructor
  · exact Or.inr ⟨hstate, hcleared.store, hcleared.cache⟩
  · intro i
    constructor
    · intro hdeleted
      cases hstate.symm.trans hdeleted
    · exact fun _ => hgets i

/-- A step that meets the condition leaves a gone stream gone: only the removal of its
record changes its state. -/
theorem Gone.step (h : Gone env s id) (hid : id ∈ s.deleted)
    (hok : StaysDeleted env s a) (hstep : Outcome env s a s') : Gone env s' id := by
  have hput : ∀ path object, a = .put path object → s.state id = none →
      ¬ UnderStream env id path := by
    rintro path object rfl hnone
    exact hok id hid hnone
  rcases manager_of_outcome hstep with hmanager | ⟨b, rfl, hm⟩ | ⟨streamId, now, hmanager⟩ |
    ⟨forgotten, jobs, kept, failed, now, hjobs, rfl, rfl⟩
  · refine h.keeps hstep ?_ hput
    unfold DeliveryServer.state
    rw [hmanager]
  · exact h.keeps hstep (h.manage hid hok hm) hput
  · exact h.keeps hstep (h.transitionSection streamId .deleted now hmanager) hput
  · by_cases hforgotten : id = forgotten
    · subst hforgotten
      obtain ⟨hcleared, hgets⟩ := hok id jobs hjobs hid
      exact Gone.forget hcleared hgets
    · refine h.keeps hstep ?_ hput
      exact congrArg _ ((lookup_removeSection _ _ _).trans (if_neg hforgotten))

/-- No step serves an object of a gone stream. -/
theorem Gone.not_serves (h : Gone env s id) (hstep : Outcome env s a s') :
    ¬ Serves env s' id := by
  rintro ⟨streamId, response, hanswer, hof, hserves⟩
  rcases answer_of_outcome hstep hanswer with
    ⟨hrefused, -⟩ | ⟨i, serving, output, hi, rfl, -, hsource⟩
  · exact hrefused hserves
  · have hnone : s.state id = none := h.state_eq_none (GetPhase.isOf_of_serving hi hof)
    rcases hsource with ⟨-, entry, hentry, hfresh, -⟩ | ⟨-, hfetched⟩
    · exact (h.cleared hnone).cache _ (Serving.underStream hof) ⟨entry, hentry, hfresh⟩
    · exact h.not_fetched hnone hfetched (Serving.underStream hof)

/-! ### Answered deletions -/

/-- The request names the stream it is about. -/
def DeletePhase.Parsed (env : Environment) : DeletePhase → Prop
  | .idle => True
  | .found streamId sid _ | .purged streamId sid _ _ => env.parseUuid streamId = some sid

theorem parseUuid_of_parseStreamIdParam {parseUuid : Text → Option StreamId} {raw : Text}
    (h : parseStreamIdParam parseUuid raw = .ok id) : parseUuid raw = some id := by
  unfold parseStreamIdParam at h
  split at h
  · cases h
  · rename_i uuid huuid
    split at h
    · cases h
    · exact huuid.trans (congrArg some (Except.ok.inj h))

theorem parseUuid_of_beginDelete {m : SharedManager} {denied : Option Response} {streamId : Text}
    {sid : StreamId} {state : StreamState}
    (h : beginDelete env m denied streamId = .ok (sid, state)) :
    env.parseUuid streamId = some sid := by
  unfold beginDelete at h
  split at h
  · cases h
  · split at h
    · cases h
    · rename_i sid' hparse
      split at h
      · obtain ⟨rfl, -⟩ := Prod.mk.inj (Except.ok.inj h)
        exact parseUuid_of_parseStreamIdParam hparse
      · cases h

theorem parsed_setDelete (h : ∀ i, (s.deletes i).Parsed env) {i : ℕ} {phase : DeletePhase}
    (hphase : phase.Parsed env) (j : ℕ) : (Function.update s.deletes i phase j).Parsed env := by
  by_cases hj : j = i
  · subst hj
    rw [Function.update_self]
    exact hphase
  · rw [Function.update_of_ne hj]
    exact h j

/-- A step that answers no DELETE request. -/
structure NoDeletion (env : Environment) (s s' : DeliveryServer) : Prop where
  deleted : s'.deleted = s.deleted
  answer : ∀ streamId n, s'.answer ≠ some (.deleted streamId n)
  parsed : (∀ i, (s.deletes i).Parsed env) → ∀ i, (s'.deletes i).Parsed env

/-- Only the last step of a DELETE request answers it. -/
theorem noDeletion_or_conclude {a : DeliveryAction} (h : Outcome env s a s') :
    NoDeletion env s s' ∨ ∃ i streamId sid state n now, a = .conclude i now ∧
      s.deletes i = .purged streamId sid state n ∧
      s' = s.conclude i streamId sid state n now := by
  cases h with
  | found hi hfound =>
    refine Or.inl ⟨rfl, nofun, fun hparsed => parsed_setDelete hparsed ?_⟩
    exact parseUuid_of_beginDelete hfound
  | @purged i _ _ _ kept failed hi =>
    refine Or.inl ⟨rfl, nofun, fun hparsed => parsed_setDelete hparsed ?_⟩
    have hfound := hparsed i
    rw [hi] at hfound
    exact hfound
  | concluded now hi => exact Or.inr ⟨_, _, _, _, _, now, rfl, hi, rfl⟩
  | ticked | managed | stored | refused | passed | hit | missed | fetched | unfetched
  | finished | rejected | expired | listedErrors | listedDeleted | retired | buried
  | forgot => exact Or.inl ⟨rfl, nofun, fun hparsed => hparsed⟩

/-- The transition to DELETED leaves a stream DELETED that is in READY, ERROR or DELETED. -/
theorem state_transitionSection {m : SharedManager} {sid : StreamId} (now : DateTime)
    (h : (m.streams.lookup sid).map StreamEntry.state = some .deleted ∨
      (m.streams.lookup sid).map StreamEntry.state = some .ready ∨
      (m.streams.lookup sid).map StreamEntry.state = some .error) :
    ((m.transitionSection sid .deleted now).streams.lookup sid).map StreamEntry.state =
      some .deleted := by
  rcases transitionSection_cases m sid .deleted now with
    ⟨⟨e, hrefused⟩, heq⟩ | ⟨entry, -, hvalid, -, heq⟩
  · rw [heq]
    refine h.resolve_right fun hended => ?_
    have hentry : ∃ entry, m.streams.lookup sid = some entry ∧
        (entry.state = .ready ∨ entry.state = .error) := by
      rcases hended with hready | herror
      · obtain ⟨entry, hentry, hstate⟩ := Option.map_eq_some_iff.mp hready
        exact ⟨entry, hentry, Or.inl hstate⟩
      · obtain ⟨entry, hentry, hstate⟩ := Option.map_eq_some_iff.mp herror
        exact ⟨entry, hentry, Or.inr hstate⟩
    obtain ⟨entry, hentry, hstate⟩ := hentry
    have hvalid : StreamStateManager.isValidTransition entry.state .deleted
        entry.metadata.ingestMode = true := by
      rcases hstate with hstate | hstate <;> rw [hstate] <;> cases entry.metadata.ingestMode <;> rfl
    rw [transition_of_valid (m := m.manager) now hentry hvalid] at hrefused
    cases hrefused
  · rw [heq, SharedManager.replace, AList.lookup_insert, StreamEntry.moveTo, if_pos hvalid]
    rfl

/-- A DELETE request that is answered in time leaves the stream gone. -/
theorem gone_conclude {i : ℕ} {now : DateTime} (hok : StaysDeleted env s (.conclude i now))
    {streamId : Text} {sid : StreamId} {state : StreamState} {n : ℕ}
    (hi : s.deletes i = .purged streamId sid state n) :
    (s.conclude i streamId sid state n now).state sid = some .deleted ∧
      Gone env (s.conclude i streamId sid state n now) sid := by
  obtain ⟨hstate, hgets⟩ := hok streamId sid state n hi
  have hdeleted : (s.conclude i streamId sid state n now).state sid = some .deleted := by
    unfold DeliveryServer.state at hstate ⊢
    unfold DeliveryServer.conclude
    dsimp only
    split
    · exact state_transitionSection now (hstate.imp_right And.right)
    · rename_i hread
      rcases hstate with hstate | ⟨hother, -⟩
      · exact hstate
      · exact absurd hother hread
  refine ⟨hdeleted, Or.inl hdeleted, fun j => ⟨fun _ => hgets j, fun hnone => ?_⟩⟩
  cases hnone.symm.trans hdeleted

/-! ### Runs -/

/-- Every stream whose deletion has been answered is gone. -/
structure Settled (env : Environment) (s : DeliveryServer) : Prop where
  gone : ∀ id ∈ s.deleted, Gone env s id
  parsed : ∀ i, (s.deletes i).Parsed env
  answered : ∀ streamId n id, s.answer = some (.deleted streamId n) →
    env.parseUuid streamId = some id → id ∈ s.deleted ∧ s.state id = some .deleted

theorem settled_start (store : MediaStore) : Settled env (.start store) :=
  ⟨nofun, fun _ => trivial, nofun⟩

theorem Settled.step (h : Settled env s) {a : DeliveryAction} (hok : StaysDeleted env s a)
    (hstep : Outcome env s a s') : Settled env s' := by
  have hkept : ∀ id ∈ s.deleted, Gone env s' id := by
    intro id hid
    exact (h.gone id hid).step hid hok hstep
  rcases noDeletion_or_conclude hstep with hquiet | ⟨i, streamId, sid, state, n, now, rfl, hi, rfl⟩
  · constructor
    · intro id hid
      rw [hquiet.deleted] at hid
      exact hkept id hid
    · exact hquiet.parsed h.parsed
    · intro streamId n _ hanswer
      exact absurd hanswer (hquiet.answer streamId n)
  · obtain ⟨hdeleted, hgone⟩ := gone_conclude hok hi
    constructor
    · intro id hid
      rcases List.mem_cons.mp hid with rfl | hid
      · exact hgone
      · exact hkept id hid
    · exact parsed_setDelete h.parsed trivial
    · intro streamId' n' id hanswer hid
      obtain ⟨rfl, -⟩ := Answer.deleted.inj (Option.some.inj hanswer)
      have hparsed := h.parsed i
      rw [hi] at hparsed
      obtain rfl := Option.some.inj (hparsed.symm.trans hid)
      exact ⟨List.mem_cons_self, hdeleted⟩

theorem deleted_subset {a : DeliveryAction} (hstep : Outcome env s a s') :
    s.deleted ⊆ s'.deleted := by
  rcases noDeletion_or_conclude hstep with hquiet | ⟨i, streamId, sid, state, n, now, -, -, rfl⟩
  · rw [hquiet.deleted]
    exact List.Subset.refl _
  · exact List.subset_cons_self _ _

/-- In every run that meets the condition, a DELETE request answered `deleted` leaves the
record DELETED, and from then on no GET request under the stream, however its id is
spelled, is answered 200 or 206. -/
theorem delete_is_final {store : MediaStore} {before after : List DeliveryAction}
    {t : DeliveryServer}
    (hmeets : Meets (deliveryStep env) (StaysDeleted env) (.start store) (before ++ after))
    (hbefore : run (deliveryStep env) (.start store) before = some t)
    {streamId : Text} {n : ℕ} (hanswer : t.answer = some (.deleted streamId n))
    {id : StreamId} (hid : env.parseUuid streamId = some id) :
    t.state id = some .deleted ∧
      ∀ k u, run (deliveryStep env) t (after.take k) = some u → ¬ Serves env u id := by
  have ht : Settled env t :=
    run_invariant_of_meets (fun _ _ _ hs hok hstep => hs.step hok (deliveryStep_outcome hstep))
      (settled_start store) hmeets.left hbefore
  obtain ⟨hmem, hstate⟩ := ht.answered streamId n id hanswer hid
  refine ⟨hstate, fun k u hu => ?_⟩
  have hstart : Settled env t ∧ id ∈ t.deleted ∧ ¬ Serves env t id := by
    refine ⟨ht, hmem, ?_⟩
    rintro ⟨streamId', response, hget, -⟩
    cases hanswer.symm.trans hget
  refine (run_invariant_of_meets (I := fun s => Settled env s ∧ id ∈ s.deleted ∧ ¬ Serves env s id)
    ?_ hstart ((hmeets.right hbefore).take k) hu).2.2
  rintro s a s' ⟨hs, hdeleted, -⟩ hok hstep
  have houtcome := deliveryStep_outcome hstep
  exact ⟨hs.step hok houtcome, deleted_subset houtcome hdeleted,
    (hs.gone id hdeleted).not_serves houtcome⟩

/-! ### Two deletions -/

def doorStream : StreamId := ⟨0x01900000000070008000000000000001#128⟩

def doorPlaylist : Text := doorStream.toText ++ "/master.m3u8".toList

def doorEnvironment : Environment where
  parseUuid raw := if raw = doorStream.toText then some doorStream else none
  delivery := ⟨"no-cache".toList, "public, max-age=86400".toList⟩
  cache := ⟨true, 536870912, 300, 3600⟩

/-- The playlist is stored and the stream deleted. -/
def storeAndDelete : List DeliveryAction :=
  [.put doorPlaylist ⟨encodeUtf8 "#EXTM3U".toList, "application/vnd.apple.mpegurl".toList, ⟨4⟩⟩,
    .delete 0 none doorStream.toText, .purge 0 [] false, .conclude 0 ⟨5⟩]

/-- A stream is deleted while it is LIVE, and its pipeline goes on. -/
def liveDeletion : List DeliveryAction :=
  [.manage (.create doorStream .live ⟨0⟩), .manage (.transition doorStream .live ⟨1⟩)] ++
    storeAndDelete

def servedAgain : List DeliveryAction :=
  [.put doorPlaylist ⟨encodeUtf8 "#EXTM3U".toList, "application/vnd.apple.mpegurl".toList, ⟨6⟩⟩,
    .get 0 doorStream.toText .masterPlaylist none, .lookup 0, .fetch 0 none, .finish 0]

/-- A stream deleted while LIVE stays LIVE and is served again. -/
theorem live_stream_outlives_delete :
    ∃ t u, run (deliveryStep doorEnvironment) (.start ∅) liveDeletion = some t ∧
      t.answer = some (.deleted doorStream.toText 1) ∧
      doorEnvironment.parseUuid doorStream.toText = some doorStream ∧
      t.state doorStream = some .live ∧
      run (deliveryStep doorEnvironment) t servedAgain = some u ∧
      Serves doorEnvironment u doorStream := by
  refine ⟨_, _, rfl, ?_, ?_, ?_, rfl, doorStream.toText, _, rfl, ?_, Or.inl rfl⟩
  · decide +kernel
  · decide +kernel
  · decide +kernel
  · decide +kernel

/-- A stream is deleted when it is READY. -/
def readyDeletion : List DeliveryAction :=
  [.manage (.create doorStream .live ⟨0⟩), .manage (.transition doorStream .live ⟨1⟩),
    .manage (.transition doorStream .processing ⟨2⟩), .manage (.transition doorStream .ready ⟨3⟩)]
    ++ storeAndDelete

/-- A request for the playlist, the removal of the record a day later, and another
request. -/
def afterwards : List DeliveryAction :=
  [.get 0 doorStream.toText .masterPlaylist none, .listDeleted ⟨90000000000000⟩,
    .cleanup [] false ⟨90000000000000⟩, .get 0 doorStream.toText .masterPlaylist none, .lookup 0,
    .fetch 0 none]

theorem meets_readyDeletion :
    Meets (deliveryStep doorEnvironment) (StaysDeleted doorEnvironment) (.start ∅)
      (readyDeletion ++ afterwards) := by
  refine ⟨by rintro ⟨⟩, fun s hs => ?_⟩
  obtain rfl := Option.some.inj hs
  iterate 3
    refine ⟨trivial, fun s hs => ?_⟩
    obtain rfl := Option.some.inj hs
  refine ⟨by rintro id ⟨⟩, fun s hs => ?_⟩
  obtain rfl := Option.some.inj hs
  iterate 2
    refine ⟨trivial, fun s hs => ?_⟩
    obtain rfl := Option.some.inj hs
  refine ⟨?_, fun s hs => ?_⟩
  · intro streamId sid state n hi
    obtain ⟨-, rfl, rfl, -⟩ := DeletePhase.purged.inj
      (show DeletePhase.purged doorStream.toText doorStream .ready _ = _ from hi)
    refine ⟨Or.inr ⟨by decide, Or.inl ?_⟩, fun j hof => hof⟩
    decide +kernel
  obtain rfl := Option.some.inj hs
  iterate 2
    refine ⟨trivial, fun s hs => ?_⟩
    obtain rfl := Option.some.inj hs
  refine ⟨?_, fun s hs => ?_⟩
  · rintro id jobs - -
    refine ⟨⟨fun path _ => ?_, fun path _ => ObjectCache.not_holds_new⟩, fun j => ?_⟩
    · exact List.dlookup_nil path
    · show ¬ GetPhase.HasObjectOf _ id (Function.update (fun _ => GetPhase.idle) 0 .idle j)
      by_cases hj : j = 0
      · subst hj
        exact fun hobject => hobject
      · rw [Function.update_of_ne hj]
        exact fun hobject => hobject
  obtain rfl := Option.some.inj hs
  iterate 3
    refine ⟨trivial, fun s hs => ?_⟩
    obtain rfl := Option.some.inj hs
  trivial

/-- A deletion in READY, with nothing left behind, is final. -/
theorem delete_is_final_readyDeletion :
    ∃ t, run (deliveryStep doorEnvironment) (.start ∅) readyDeletion = some t ∧
      t.answer = some (.deleted doorStream.toText 1) ∧
      t.state doorStream = some .deleted ∧
      (run (deliveryStep doorEnvironment) t afterwards).isSome ∧
      ∀ k u, run (deliveryStep doorEnvironment) t (afterwards.take k) = some u →
        ¬ Serves doorEnvironment u doorStream := by
  have hparse : doorEnvironment.parseUuid doorStream.toText = some doorStream := by decide +kernel
  have hfinal := delete_is_final meets_readyDeletion rfl (n := 1) (by decide +kernel) hparse
  exact ⟨_, rfl, by decide +kernel, hfinal.1, by decide +kernel, hfinal.2⟩

end StreamInfa.Delivery
