import StreamInfa.Core.Auth
import StreamInfa.Lib.Run
import Mathlib.Data.Fintype.EquivFin

/-!
Key rotation against concurrent checks.

A rotation takes the lock twice: once to remove the old keys, and once more to add
the new key after it was hashed. The machine `authStep` runs these sections, of any
number of calls, in any order. A check of a key reads the store under the lock and
changes nothing, so it can be asked in every state.

Between the two sections of a rotation that removed the last record the store is
empty, and an empty store accepts everyone (`rotation_opens_ingest`).
**`ingest_closed_iff`**: a run from a provider with keys accepts nothing but keys
configured or issued so far exactly when every rotation that begins in it leaves at
least one record in place.
-/

namespace StreamInfa

/-- A provider shared by concurrent calls. -/
structure AuthState where
  store : IngestKeyStore
  /-- The rotations between their two sections, each with the stream its new key will
  be bound to. -/
  pending : List (Option StreamId)
  /-- The plaintexts of all keys configured or issued so far. -/
  issued : List Text

/-- The locked sections. The random choices of a new key come from outside. -/
inductive AuthAction (Salt : Type) where
  /-- The first section of `rotate_stream_key`. -/
  | rotateByHash (oldHash : Text)
  /-- The first section of `rotate_stream_key_for_stream`. -/
  | rotateForStream (streamId : StreamId)
  /-- The second section of the `i`-th pending rotation. -/
  | finish (i : ℕ) (random : RandomPart streamKeyRandomLength) (salt : Salt)
  /-- `generate_stream_key_for_stream`, called on its own. -/
  | generate (streamId : Option StreamId) (random : RandomPart streamKeyRandomLength) (salt : Salt)

namespace AuthState

/-- The first section of a rotation: keep the records that satisfy `keep`. -/
def remove (s : AuthState) (keep : IngestKeyRecord → Bool) (binding : Option StreamId) :
    AuthState :=
  { s with store := s.store.retain keep, pending := s.pending ++ [binding] }

/-- Add a new key, unless its hashing panicked. -/
def add (s : AuthState) (new : Option (Text × IngestKeyRecord)) : AuthState :=
  match new with
  | some (plaintext, record) =>
    { s with store := s.store.push record, issued := s.issued ++ [plaintext] }
  | none => s

end AuthState

section

variable {Salt : Type} (H : KeyHashing Salt)

/-- A new provider. -/
def AuthState.start (configured : List (Text × Salt)) : AuthState where
  store := newKeyStore H configured
  pending := []
  issued := configured.map Prod.fst

def authStep (s : AuthState) : AuthAction Salt → Option AuthState
  | .rotateByHash oldHash => some (s.remove (fun k => k.hash ≠ oldHash) none)
  | .rotateForStream streamId =>
    some (s.remove (fun k => k.streamId ≠ some streamId) (some streamId))
  | .finish i random salt =>
    (s.pending[i]?).map fun binding =>
      { s with pending := s.pending.eraseIdx i }.add (newStreamKey H random salt binding)
  | .generate streamId random salt => some (s.add (newStreamKey H random salt streamId))

/-- A rotation that begins leaves at least one record in place. -/
def LeavesKey (s : AuthState) : AuthAction Salt → Prop
  | .rotateByHash oldHash => ∃ k ∈ s.store.keys, k.hash ≠ oldHash
  | .rotateForStream streamId => ∃ k ∈ s.store.keys, k.streamId ≠ some streamId
  | .finish .. | .generate .. => True

/-- Every check accepts configured and issued keys only. -/
def IngestClosed (s : AuthState) : Prop :=
  ∀ key, validateStreamKey H s.store key = .ok () → key ∈ s.issued

/-- Every record is that of a configured or issued key. -/
def GenuineRecords (s : AuthState) : Prop :=
  ∀ record ∈ s.store.keys, ∃ key ∈ s.issued, IsRecordOf H key record

variable {H} {s s' : AuthState} {a : AuthAction Salt}

/-! ### What a step does -/

/-- A step removes records and begins a rotation, or adds the record of a new key. -/
theorem authStep_cases (h : authStep H s a = some s') :
    (∃ keep binding, s' = s.remove keep binding ∧
      (LeavesKey s a ↔ ∃ k ∈ s.store.keys, keep k = true)) ∨
    (∃ pending random salt binding, LeavesKey s a ∧
      s' = { s with pending := pending }.add (newStreamKey H random salt binding)) := by
  cases a with
  | rotateByHash oldHash =>
    refine .inl ⟨_, _, (Option.some.inj h).symm, ?_⟩
    simp [LeavesKey]
  | rotateForStream streamId =>
    refine .inl ⟨_, _, (Option.some.inj h).symm, ?_⟩
    simp [LeavesKey]
  | finish i random salt =>
    obtain ⟨binding, -, rfl⟩ := Option.map_eq_some_iff.mp h
    exact .inr ⟨_, random, salt, binding, trivial, rfl⟩
  | generate streamId random salt =>
    exact .inr ⟨s.pending, random, salt, streamId, trivial, (Option.some.inj h).symm⟩

/-! ### Records stay genuine -/

theorem GenuineRecords.step (hs : GenuineRecords H s) (h : authStep H s a = some s') :
    GenuineRecords H s' := by
  obtain ⟨keep, binding, rfl, -⟩ | ⟨pending, random, salt, binding, -, rfl⟩ := authStep_cases h
  · intro record hmem
    exact hs record (List.mem_filter.mp hmem).1
  · cases hnew : newStreamKey H random salt binding with
    | none => exact hs
    | some new =>
      intro record hmem
      rcases List.mem_append.mp hmem with hold | hadded
      · obtain ⟨key, hkey, hrecord⟩ := hs record hold
        exact ⟨key, List.mem_append_left _ hkey, hrecord⟩
      · obtain rfl := List.mem_singleton.mp hadded
        exact ⟨new.1, List.mem_append_right _ (List.mem_singleton_self _),
          isRecordOf_newStreamKey hnew⟩

theorem genuineRecords_start (configured : List (Text × Salt)) :
    GenuineRecords H (AuthState.start H configured) := by
  intro record hmem
  rw [AuthState.start, keys_newKeyStore] at hmem
  obtain ⟨p, hp, hrecord⟩ := List.mem_filterMap.mp hmem
  exact ⟨p.1, List.mem_map_of_mem hp, p.2, none, hrecord⟩

theorem genuineRecords_run {configured : List (Text × Salt)} {actions : List (AuthAction Salt)}
    (h : run (authStep H) (AuthState.start H configured) actions = some s) :
    GenuineRecords H s :=
  run_invariant (fun _ _ _ hs hstep => hs.step hstep) (genuineRecords_start configured) h

/-! ### Closed means not empty -/

/-- With genuine records, ingest is closed exactly when there is one. -/
theorem ingestClosed_iff_keys_ne_nil (hexact : H.Exact) (hs : GenuineRecords H s) :
    IngestClosed H s ↔ s.store.keys ≠ [] := by
  have haccepts : ∀ key, validateStreamKey H s.store key = .ok () ↔
      s.store.keys = [] ∨ ∃ record ∈ s.store.keys, IsRecordOf H key record := by
    refine fun key => validateStreamKey_eq_ok_iff hexact fun record hmem => ?_
    obtain ⟨key', -, hrecord⟩ := hs record hmem
    exact ⟨key', hrecord⟩
  constructor
  · intro hclosed hempty
    -- Some text was never issued, and the empty store accepts it.
    obtain ⟨key, hkey⟩ := Infinite.exists_notMem_finset s.issued.toFinset
    exact hkey (List.mem_toFinset.mpr (hclosed key ((haccepts key).mpr (.inl hempty))))
  · intro hne key hok
    rcases (haccepts key).mp hok with hempty | ⟨record, hmem, hrecord⟩
    · exact absurd hempty hne
    · obtain ⟨key', hkey', hrecord'⟩ := hs record hmem
      rwa [hrecord'.key_unique hexact hrecord]

/-- A step from a provider with keys leaves it with keys exactly if it is not the
beginning of a rotation that removes them all. -/
theorem keys_ne_nil_step_iff (hs : s.store.keys ≠ []) (h : authStep H s a = some s') :
    s'.store.keys ≠ [] ↔ LeavesKey s a := by
  obtain ⟨keep, binding, rfl, hleaves⟩ | ⟨pending, random, salt, binding, hleaves, rfl⟩ :=
    authStep_cases h
  · rw [hleaves, AuthState.remove, IngestKeyStore.retain, ne_eq, List.filter_eq_nil_iff]
    simp
  · refine ⟨fun _ => hleaves, fun _ => ?_⟩
    cases newStreamKey H random salt binding with
    | none => exact hs
    | some new => exact List.append_ne_nil_of_right_ne_nil _ (List.cons_ne_nil _ _)

theorem leavesKey_of_stuck (s : AuthState) (a : AuthAction Salt) (h : authStep H s a = none) :
    LeavesKey s a := by
  cases a with
  | rotateByHash oldHash => exact absurd h (by simp [authStep])
  | rotateForStream streamId => exact absurd h (by simp [authStep])
  | finish i random salt => trivial
  | generate streamId random salt => trivial

/-- In a run from a provider with keys, every state accepts only keys configured or
issued so far exactly when every rotation that begins leaves a record in place. -/
theorem ingest_closed_iff (H : KeyHashing Salt) (hexact : H.Exact)
    (configured : List (Text × Salt)) (before actions : List (AuthAction Salt)) (s : AuthState)
    (hbefore : run (authStep H) (AuthState.start H configured) before = some s)
    (hne : s.store.keys ≠ []) :
    (∀ n t, run (authStep H) s (actions.take n) = some t → IngestClosed H t) ↔
      Meets (authStep H) LeavesKey s actions := by
  have hgenuine : ∀ n t, run (authStep H) s (actions.take n) = some t → GenuineRecords H t := by
    intro n t ht
    exact run_invariant (fun _ _ _ hs hstep => hs.step hstep) (genuineRecords_run hbefore) ht
  rw [← forall_reached_iff_meets (fun _ _ _ hs hstep => keys_ne_nil_step_iff hs hstep)
    leavesKey_of_stuck hne actions]
  constructor
  · intro hall n t ht
    exact (ingestClosed_iff_keys_ne_nil hexact (hgenuine n t ht)).mp (hall n t ht)
  · intro hall n t ht
    exact (ingestClosed_iff_keys_ne_nil hexact (hgenuine n t ht)).mpr (hall n t ht)

end

/-! ### Two runs -/

def rotatedStream : StreamId := ⟨7⟩

def allLetterA : RandomPart streamKeyRandomLength := fun _ => ⟨0, by decide⟩

/-- With a configured key besides the one of the stream, rotating the latter never
opens ingest. -/
theorem ingest_closed_beside_configured_key :
    plainHashing.Exact ∧
    (AuthState.start plainHashing [("sk_studio".toList, 'a')]).store.keys ≠ [] ∧
    ∀ n t, run (authStep plainHashing)
        (AuthState.start plainHashing [("sk_studio".toList, 'a')])
        ([.generate (some rotatedStream) allLetterA 'b', .rotateForStream rotatedStream,
          .finish 0 allLetterA 'c'].take n) = some t → IngestClosed plainHashing t := by
  have hne : (AuthState.start plainHashing [("sk_studio".toList, 'a')]).store.keys ≠ [] := by
    decide +kernel
  refine ⟨plainHashing_exact, hne, ?_⟩
  refine (ingest_closed_iff plainHashing plainHashing_exact [("sk_studio".toList, 'a')] [] _ _ rfl
    hne).mpr ⟨trivial, fun s hs => ⟨?_, fun _ _ => ⟨trivial, fun _ _ => trivial⟩⟩⟩
  obtain rfl := Option.some.inj hs
  show ∃ k ∈ _, _
  decide +kernel

/-- A server without configured keys creates one stream and rotates its key: between
the two sections of the rotation it accepts a text that was never a key. -/
theorem rotation_opens_ingest :
    plainHashing.Exact ∧
    ∃ s t, run (authStep plainHashing) (AuthState.start plainHashing [])
        [.generate (some rotatedStream) allLetterA 'b'] = some s ∧ s.store.keys ≠ [] ∧
      run (authStep plainHashing) s [.rotateForStream rotatedStream] = some t ∧
      validateStreamKey plainHashing t.store "intruder".toList = .ok () ∧
      "intruder".toList ∉ t.issued := by
  refine ⟨plainHashing_exact, _, _, rfl, ?_, rfl, ?_, ?_⟩
  · decide +kernel
  · exact validateStreamKey_of_empty (by decide +kernel)
  · decide +kernel

end StreamInfa
