import StreamInfa.Core.BruteForce

/-!
The periodic cleanup of the tracker against the answers to the callers.

`cleanup_brute_force_tracker` drops an entry when 60 whole seconds have passed since
its window started; `record_failed_attempt` still counts in that window through the
61st second. A cleanup in between forgets failures that would have counted.

**`cleanup_invisible`**: unless a failure comes in that second behind a cleanup that has
dropped its entry, a timeline with cleanups answers every call as the timeline without
them does. Between the two runs an entry is the same, or has been dropped with no more
to say (`Forgotten`).
-/

namespace StreamInfa

def TrackerCall.isValidate : TrackerCall → Bool
  | .validate .. => true
  | .cleanup _ => false

/-- The same calls on a tracker that is never cleaned up. -/
def withoutCleanups (calls : List TrackerCall) : List TrackerCall :=
  calls.filter TrackerCall.isValidate

section

variable {Salt : Type} (H : KeyHashing Salt) (store : IngestKeyStore)

/-- The answers to the validations. -/
def answers (tracker : BruteForceTracker) : List TrackerCall → List (Except IngestError Unit)
  | [] => []
  | .validate streamKey clientIp checkedAt recordedAt :: calls =>
    (validateStreamKeyWithIp H store tracker streamKey clientIp checkedAt recordedAt).1 ::
      answers (trackerStep H store tracker (.validate streamKey clientIp checkedAt recordedAt))
        calls
  | .cleanup now :: calls => answers (trackerStep H store tracker (.cleanup now)) calls

/-- A failure of an IP whose entry has been dropped comes when the window of the entry
would have expired. -/
def DropsExpiredOnly (calls : List TrackerCall) : Prop :=
  ∀ before streamKey ip checkedAt recordedAt after,
    calls = before ++ .validate streamKey ip checkedAt recordedAt :: after →
    validateStreamKey H store streamKey ≠ .ok () →
    (trackerAfter H store ∅ before).lookup ip = none →
    ∀ entry, (trackerAfter H store ∅ (withoutCleanups before)).lookup ip = some entry →
      entry.windowStart + fromSecs 61 ≤ recordedAt

/-! ### One call in both runs -/

variable {H store} {tracker tracker' : BruteForceTracker} {ip : IpAddr} {streamKey : Text}
  {checkedAt recordedAt : ℕ}

/-- A validation looks at nothing but the entry of its IP. -/
theorem validateStreamKeyWithIp_congr (h : tracker.lookup ip = tracker'.lookup ip) :
    (validateStreamKeyWithIp H store tracker streamKey ip checkedAt recordedAt).1 =
        (validateStreamKeyWithIp H store tracker' streamKey ip checkedAt recordedAt).1 ∧
      (validateStreamKeyWithIp H store tracker streamKey ip checkedAt recordedAt).2.lookup ip =
        (validateStreamKeyWithIp H store tracker' streamKey ip checkedAt recordedAt).2.lookup
          ip := by
  have hblock : isIpBlocked tracker ip checkedAt = isIpBlocked tracker' ip checkedAt := by
    unfold isIpBlocked
    rw [h]
  unfold validateStreamKeyWithIp
  rw [hblock]
  split
  · exact ⟨rfl, h⟩
  · split
    · simp only [resetIpAttempts, AList.lookup_erase, and_self]
    · rw [lookup_recordFailedAttempt_self, lookup_recordFailedAttempt_self, h]
      exact ⟨rfl, rfl⟩

/-- An entry without a block, and the entry of an IP without attempts, in a window that
has expired by the time a failure is noted. -/
theorem validateStreamKeyWithIp_of_forgotten (hnone : tracker.lookup ip = none)
    {entry : BruteForceEntry} (hentry : tracker'.lookup ip = some entry)
    (hover : ∀ blockedUntil, entry.blockedUntil = some blockedUntil → blockedUntil ≤ checkedAt)
    (hexp : validateStreamKey H store streamKey ≠ .ok () →
      entry.windowStart + fromSecs 61 ≤ recordedAt) :
    (validateStreamKeyWithIp H store tracker streamKey ip checkedAt recordedAt).1 =
        (validateStreamKeyWithIp H store tracker' streamKey ip checkedAt recordedAt).1 ∧
      (validateStreamKeyWithIp H store tracker streamKey ip checkedAt recordedAt).2.lookup ip =
        (validateStreamKeyWithIp H store tracker' streamKey ip checkedAt recordedAt).2.lookup
          ip := by
  have hfree : ¬isIpBlocked tracker ip checkedAt = true := by
    rw [isIpBlocked_iff]
    rintro ⟨entry, blockedUntil, hlookup, -⟩
    exact absurd (hnone.symm.trans hlookup) (by simp)
  have hfree' : ¬isIpBlocked tracker' ip checkedAt = true := by
    rw [isIpBlocked_iff]
    rintro ⟨entry', blockedUntil, hlookup, hblock, hlt⟩
    obtain rfl := Option.some.inj (hentry.symm.trans hlookup)
    exact absurd hlt (Nat.not_lt.mpr (hover _ hblock))
  unfold validateStreamKeyWithIp
  rw [if_neg hfree, if_neg hfree']
  cases hkey : validateStreamKey H store streamKey with
  | ok => simp only [resetIpAttempts, AList.lookup_erase, and_self]
  | error e =>
    have hwindow : bruteForceWindowSecs < elapsedSecs recordedAt entry.windowStart :=
      (le_elapsedSecs_iff (Nat.succ_pos 60)).mpr (hexp (by rw [hkey]; simp))
    rw [lookup_recordFailedAttempt_self, lookup_recordFailedAttempt_self, hnone, hentry,
      Option.getD_none, Option.getD_some, BruteForceEntry.record_new,
      BruteForceEntry.record_of_expired hwindow]
    exact ⟨rfl, rfl⟩

/-! ### Both runs -/

/-- The entry of an IP with and without cleanups: the same, or it has been dropped, and
with it at most a block that is over. -/
inductive Forgotten (readings : List ℕ) :
    Option BruteForceEntry → Option BruteForceEntry → Prop
  | same (entry : Option BruteForceEntry) : Forgotten readings entry entry
  | dropped {entry : BruteForceEntry} (hover : ∀ blockedUntil,
      entry.blockedUntil = some blockedUntil → ∃ r ∈ readings, blockedUntil ≤ r) :
      Forgotten readings none (some entry)

theorem Forgotten.mono {readings readings' : List ℕ} {entry entry' : Option BruteForceEntry}
    (h : Forgotten readings entry entry') (hsub : readings ⊆ readings') :
    Forgotten readings' entry entry' := by
  cases h with
  | same => exact .same _
  | dropped hover =>
    refine .dropped fun blockedUntil hblock => ?_
    obtain ⟨r, hr, hle⟩ := hover blockedUntil hblock
    exact ⟨r, hsub hr, hle⟩

theorem answers_append_singleton (tracker : BruteForceTracker) (calls : List TrackerCall)
    (call : TrackerCall) :
    answers H store tracker (calls ++ [call]) =
      answers H store tracker calls ++
        answers H store (trackerAfter H store tracker calls) [call] := by
  induction calls generalizing tracker with
  | nil => rfl
  | cons first calls ih =>
    cases first with
    | validate =>
      rw [List.cons_append, answers, ih]
      rfl
    | cleanup =>
      rw [List.cons_append, answers, ih]
      rfl

theorem DropsExpiredOnly.left {calls more : List TrackerCall}
    (h : DropsExpiredOnly H store (calls ++ more)) : DropsExpiredOnly H store calls := by
  rintro before streamKey ip checkedAt recordedAt after rfl
  exact h before streamKey ip checkedAt recordedAt (after ++ more) (by simp)

/-- A cleanup drops what has no block left. -/
theorem Forgotten.cleanup {readings : List ℕ} {now : ℕ} (hnow : now ∈ readings)
    (h : Forgotten readings (tracker.lookup ip) (tracker'.lookup ip)) :
    Forgotten readings ((cleanupBruteForceTracker tracker now).lookup ip)
      (tracker'.lookup ip) := by
  rw [cleanupBruteForceTracker, Map.lookup_retain]
  generalize tracker.lookup ip = entry at h
  generalize tracker'.lookup ip = entry' at h
  cases h with
  | dropped hover => exact .dropped hover
  | same =>
    cases entry with
    | none => exact .same none
    | some entry =>
      by_cases hkept : entry.isKept now = true
      · rw [Option.filter_some, if_pos hkept]
        exact .same _
      · rw [Option.filter_some, if_neg hkept]
        refine .dropped fun blockedUntil hblock => ⟨now, hnow, Nat.not_lt.mp fun hlt => hkept ?_⟩
        simp [BruteForceEntry.isKept, hblock, hlt]

/-- A validation in both runs. -/
theorem Forgotten.validate {readings : List ℕ} (hpast : ∀ r ∈ readings, r ≤ checkedAt)
    (h : Forgotten readings (tracker.lookup ip) (tracker'.lookup ip))
    (hexp : validateStreamKey H store streamKey ≠ .ok () → tracker.lookup ip = none →
      ∀ entry, tracker'.lookup ip = some entry → entry.windowStart + fromSecs 61 ≤ recordedAt) :
    (validateStreamKeyWithIp H store tracker streamKey ip checkedAt recordedAt).1 =
        (validateStreamKeyWithIp H store tracker' streamKey ip checkedAt recordedAt).1 ∧
      (validateStreamKeyWithIp H store tracker streamKey ip checkedAt recordedAt).2.lookup ip =
        (validateStreamKeyWithIp H store tracker' streamKey ip checkedAt recordedAt).2.lookup
          ip := by
  generalize hentry : tracker.lookup ip = entry at h
  generalize hentry' : tracker'.lookup ip = entry' at h
  cases h with
  | same => exact validateStreamKeyWithIp_congr (hentry.trans hentry'.symm)
  | dropped hover =>
    refine validateStreamKeyWithIp_of_forgotten hentry hentry' (fun blockedUntil hblock => ?_)
      fun hkey => hexp hkey hentry _ hentry'
    obtain ⟨r, hr, hle⟩ := hover blockedUntil hblock
    exact hle.trans (hpast r hr)

theorem forgotten_trackerAfter {calls : List TrackerCall} (hclock : Timeline calls)
    (hdrops : DropsExpiredOnly H store calls) :
    (∀ ip, Forgotten (calls.flatMap TrackerCall.readings)
        ((trackerAfter H store ∅ calls).lookup ip)
        ((trackerAfter H store ∅ (withoutCleanups calls)).lookup ip)) ∧
      answers H store ∅ calls = answers H store ∅ (withoutCleanups calls) := by
  induction calls using List.reverseRecOn with
  | nil => exact ⟨fun ip => .same _, rfl⟩
  | append_singleton calls call ih =>
    obtain ⟨hbefore, hown, hlater⟩ := timeline_append_singleton hclock
    obtain ⟨hforgotten, hanswers⟩ := ih hbefore hdrops.left
    have hsub : calls.flatMap TrackerCall.readings ⊆
        (calls ++ [call]).flatMap TrackerCall.readings := by
      rw [List.flatMap_append]
      exact List.subset_append_left _ _
    rw [answers_append_singleton, trackerAfter_append, withoutCleanups, List.filter_append,
      ← withoutCleanups, hanswers]
    cases call with
    | cleanup now =>
      have hnow : now ∈ (calls ++ [TrackerCall.cleanup now]).flatMap TrackerCall.readings := by
        simp [TrackerCall.readings]
      have hnone : [TrackerCall.cleanup now].filter TrackerCall.isValidate = [] := rfl
      rw [hnone, List.append_nil]
      exact ⟨fun ip => ((hforgotten ip).mono hsub).cleanup hnow, List.append_nil _⟩
    | validate streamKey ip checkedAt recordedAt =>
      have hpast : ∀ r ∈ calls.flatMap TrackerCall.readings, r ≤ checkedAt :=
        fun r hr => hlater r hr _ (by simp [TrackerCall.readings])
      obtain ⟨hanswer, hentry⟩ := (hforgotten ip).validate hpast
        (hdrops calls streamKey ip checkedAt recordedAt [] rfl)
      have hone : [TrackerCall.validate streamKey ip checkedAt recordedAt].filter
          TrackerCall.isValidate = [.validate streamKey ip checkedAt recordedAt] := rfl
      rw [hone, trackerAfter_append, answers_append_singleton]
      refine ⟨fun other => ?_, ?_⟩
      · change Forgotten _ ((validateStreamKeyWithIp H store _ streamKey ip checkedAt
          recordedAt).2.lookup other) ((validateStreamKeyWithIp H store _ streamKey ip checkedAt
          recordedAt).2.lookup other)
        by_cases hother : other = ip
        · subst hother
          rw [hentry]
          exact .same _
        · rw [lookup_validateStreamKeyWithIp_ne hother, lookup_validateStreamKeyWithIp_ne hother]
          exact (hforgotten other).mono hsub
      · rw [answers, answers, hanswer]
        rfl

/-- **Cleanup is invisible** where it drops expired entries only: unless a failure comes
less than 61 seconds after the start of a window that a cleanup has dropped, every
validation of the timeline is answered as it is without the cleanups. -/
theorem cleanup_invisible (H : KeyHashing Salt) (store : IngestKeyStore)
    {calls : List TrackerCall} (hclock : Timeline calls)
    (hdrops : DropsExpiredOnly H store calls) :
    answers H store ∅ calls = answers H store ∅ (withoutCleanups calls) :=
  (forgotten_trackerAfter hclock hdrops).2

end

/-- An entry dropped after a minute, and a failure in the 61st second behind it. -/
theorem cleanup_invisible_expired :
    answers plainHashing oneKeyStore ∅ [callAt "a" 0, .cleanup (fromSecs 60), callAt "b" 61] =
      answers plainHashing oneKeyStore ∅
        (withoutCleanups [callAt "a" 0, .cleanup (fromSecs 60), callAt "b" 61]) := by
  refine cleanup_invisible plainHashing oneKeyStore (by decide +kernel) ?_
  intro before streamKey ip checkedAt recordedAt after hsplit hkey hnone entry hentry
  rcases before with _ | ⟨_, _ | ⟨_, _ | ⟨_, before⟩⟩⟩
  · cases hentry
  · cases hsplit
  · obtain ⟨rfl, rfl, hlast, -⟩ := by simpa using hsplit
    obtain ⟨-, rfl, -, rfl⟩ := TrackerCall.validate.inj hlast
    have hwindow : (trackerAfter plainHashing oneKeyStore ∅ [callAt "a" 0]).lookup localhost =
        some ⟨1, 0, none⟩ := by
      decide +kernel
    obtain rfl := Option.some.inj (hwindow.symm.trans hentry)
    exact (Nat.zero_add _).le
  · simp at hsplit

/-- Four failures, a cleanup 60 seconds behind the first, and half a second later the
fifth: without the cleanup the right key comes to a blocked IP. -/
theorem cleanup_visible :
    ¬∀ calls : List TrackerCall, Timeline calls →
      answers plainHashing oneKeyStore ∅ calls =
        answers plainHashing oneKeyStore ∅ (withoutCleanups calls) := by
  intro hclaim
  have hrun := hclaim [callAt "a" 0, callAt "b" 1, callAt "c" 2, callAt "d" 3,
    .cleanup (fromSecs 60), .validate "e".toList localhost 60500000000 60500000000,
    callAt "sk_a" 61] (by decide +kernel)
  exact absurd hrun (by decide +kernel)

end StreamInfa
