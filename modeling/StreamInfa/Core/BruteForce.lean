import StreamInfa.Core.Auth

/-!
Brute-force protection (`src/core/auth.rs`): the failed attempts of each IP, and the
block that follows too many of them.

Readings of the monotonic clock are in nanoseconds. `validate_stream_key_with_ip` reads
it when it looks for a block and again, once the key has been verified, when it notes a
failure; a `TrackerCall` carries the readings its call can make.

* `Validated`: what one call can do to the tracker.
* `counted_trackerAfter`: the count of an entry does not pass five, so that its `u32`
  is kept as a number.
* **`block_enforced`**: an IP that becomes blocked stays so for 300 seconds, in every
  timeline of calls, and no call changes the entry of an IP that it does not come from.
-/

namespace StreamInfa

inductive IpAddr where
  | v4 (octets : BitVec 32)
  | v6 (segments : BitVec 128)
deriving DecidableEq, Repr

/-! ### The clock -/

/-- A number of seconds, in nanoseconds. -/
def fromSecs (secs : ℕ) : ℕ := secs * 1000000000

/-- `now.duration_since(start).as_secs()`: whole seconds, none when `start` is later. -/
def elapsedSecs (now start : ℕ) : ℕ := (now - start) / 1000000000

theorem le_elapsedSecs_iff {now start secs : ℕ} (hpos : 0 < secs) :
    secs ≤ elapsedSecs now start ↔ start + fromSecs secs ≤ now := by
  unfold elapsedSecs fromSecs
  rw [Nat.le_div_iff_mul_le (by decide)]
  have hsecs : 0 < secs * 1000000000 := Nat.mul_pos hpos (by decide)
  omega

/-! ### The tracker -/

def bruteForceMaxAttempts : ℕ := 5

def bruteForceWindowSecs : ℕ := 60

def bruteForceBlockSecs : ℕ := 300

/-- The failed attempts of one IP: how many there are in the current window, when the
first of them was, and the end of the block. -/
structure BruteForceEntry where
  attempts : ℕ
  windowStart : ℕ
  blockedUntil : Option ℕ
deriving DecidableEq, Repr

abbrev BruteForceTracker := Map IpAddr BruteForceEntry

def isIpBlocked (tracker : BruteForceTracker) (ip : IpAddr) (now : ℕ) : Bool :=
  match tracker.lookup ip with
  | some entry =>
    match entry.blockedUntil with
    | some blockedUntil => decide (now < blockedUntil)
    | none => false
  | none => false

/-- An entry without attempts, whose window starts now. -/
def BruteForceEntry.new (now : ℕ) : BruteForceEntry := ⟨0, now, none⟩

/-- One more attempt, in a new window when the current one has expired. -/
def BruteForceEntry.record (entry : BruteForceEntry) (now : ℕ) : BruteForceEntry :=
  let entry :=
    if elapsedSecs now entry.windowStart > bruteForceWindowSecs then .new now else entry
  let entry := { entry with attempts := entry.attempts + 1 }
  if entry.attempts ≥ bruteForceMaxAttempts then
    { entry with blockedUntil := some (now + fromSecs bruteForceBlockSecs) }
  else entry

def recordFailedAttempt (tracker : BruteForceTracker) (ip : IpAddr) (now : ℕ) :
    BruteForceTracker :=
  tracker.insert ip (((tracker.lookup ip).getD (.new now)).record now)

def resetIpAttempts (tracker : BruteForceTracker) (ip : IpAddr) : BruteForceTracker :=
  tracker.erase ip

/-- An entry is kept while its block lasts, and in its window. -/
def BruteForceEntry.isKept (entry : BruteForceEntry) (now : ℕ) : Bool :=
  (match entry.blockedUntil with
    | some blockedUntil => decide (now < blockedUntil)
    | none => false) ||
  decide (elapsedSecs now entry.windowStart < bruteForceWindowSecs)

def cleanupBruteForceTracker (tracker : BruteForceTracker) (now : ℕ) : BruteForceTracker :=
  tracker.retain fun _ip entry => entry.isKept now

/-- What a blocked IP is answered. -/
def tooManyAttempts : IngestError :=
  .authFailed "too many failed attempts, IP temporarily blocked".toList

section

variable {Salt : Type} (H : KeyHashing Salt) (store : IngestKeyStore)

/-- The clock shows `checkedAt` when the block is looked for, and `recordedAt` when a
failure is noted. -/
def validateStreamKeyWithIp (tracker : BruteForceTracker) (streamKey : Text) (clientIp : IpAddr)
    (checkedAt recordedAt : ℕ) : Except IngestError Unit × BruteForceTracker :=
  if isIpBlocked tracker clientIp checkedAt then (.error tooManyAttempts, tracker)
  else
    match validateStreamKey H store streamKey with
    | .ok () => (.ok (), resetIpAttempts tracker clientIp)
    | .error e => (.error e, recordFailedAttempt tracker clientIp recordedAt)

/-! ### Timelines -/

/-- A call, with the readings of the clock it can make. -/
inductive TrackerCall where
  | validate (streamKey : Text) (clientIp : IpAddr) (checkedAt recordedAt : ℕ)
  | cleanup (now : ℕ)
deriving DecidableEq, Repr

def TrackerCall.readings : TrackerCall → List ℕ
  | .validate _ _ checkedAt recordedAt => [checkedAt, recordedAt]
  | .cleanup now => [now]

/-- Calls one after the other: the readings of the clock do not decrease. -/
def Timeline (calls : List TrackerCall) : Prop :=
  (calls.flatMap TrackerCall.readings).Pairwise (· ≤ ·)

instance (calls : List TrackerCall) : Decidable (Timeline calls) :=
  inferInstanceAs (Decidable (List.Pairwise _ _))

def trackerStep (tracker : BruteForceTracker) : TrackerCall → BruteForceTracker
  | .validate streamKey clientIp checkedAt recordedAt =>
    (validateStreamKeyWithIp H store tracker streamKey clientIp checkedAt recordedAt).2
  | .cleanup now => cleanupBruteForceTracker tracker now

/-- The tracker after some calls. -/
def trackerAfter (tracker : BruteForceTracker) (calls : List TrackerCall) : BruteForceTracker :=
  calls.foldl (trackerStep H store) tracker

theorem trackerAfter_append (tracker : BruteForceTracker) (calls more : List TrackerCall) :
    trackerAfter H store tracker (calls ++ more) =
      trackerAfter H store (trackerAfter H store tracker calls) more :=
  List.foldl_append

variable {H store} {tracker : BruteForceTracker} {ip : IpAddr} {streamKey : Text}
  {checkedAt recordedAt : ℕ}

/-! ### What a call can do -/

/-- A validation is answered by the block, or it accepts the key and forgets the IP's
attempts, or it notes another one. -/
inductive Validated (H : KeyHashing Salt) (store : IngestKeyStore) (tracker : BruteForceTracker)
    (streamKey : Text) (ip : IpAddr) (checkedAt recordedAt : ℕ) :
    Except IngestError Unit × BruteForceTracker → Prop
  | blocked (hblocked : isIpBlocked tracker ip checkedAt = true) :
      Validated H store tracker streamKey ip checkedAt recordedAt (.error tooManyAttempts, tracker)
  | accepted (hfree : isIpBlocked tracker ip checkedAt = false)
      (hkey : validateStreamKey H store streamKey = .ok ()) :
      Validated H store tracker streamKey ip checkedAt recordedAt
        (.ok (), resetIpAttempts tracker ip)
  | failed (hfree : isIpBlocked tracker ip checkedAt = false) {e : IngestError}
      (hkey : validateStreamKey H store streamKey = .error e) :
      Validated H store tracker streamKey ip checkedAt recordedAt
        (.error e, recordFailedAttempt tracker ip recordedAt)

theorem validateStreamKeyWithIp_validated (H : KeyHashing Salt) (store : IngestKeyStore)
    (tracker : BruteForceTracker) (streamKey : Text) (ip : IpAddr) (checkedAt recordedAt : ℕ) :
    Validated H store tracker streamKey ip checkedAt recordedAt
      (validateStreamKeyWithIp H store tracker streamKey ip checkedAt recordedAt) := by
  unfold validateStreamKeyWithIp
  split
  · rename_i hblocked
    exact .blocked hblocked
  · rename_i hfree
    split
    · rename_i hkey
      exact .accepted (Bool.eq_false_iff.mpr hfree) hkey
    · rename_i e hkey
      exact .failed (Bool.eq_false_iff.mpr hfree) hkey

theorem isIpBlocked_iff {now : ℕ} :
    isIpBlocked tracker ip now = true ↔
      ∃ entry blockedUntil, tracker.lookup ip = some entry ∧
        entry.blockedUntil = some blockedUntil ∧ now < blockedUntil := by
  unfold isIpBlocked
  cases tracker.lookup ip with
  | none => simp
  | some entry => cases hblock : entry.blockedUntil <;> simp [hblock]

theorem validateStreamKeyWithIp_of_blocked (hblocked : isIpBlocked tracker ip checkedAt = true) :
    validateStreamKeyWithIp H store tracker streamKey ip checkedAt recordedAt =
      (.error tooManyAttempts, tracker) := by
  rw [validateStreamKeyWithIp, if_pos hblocked]

theorem lookup_recordFailedAttempt_self (now : ℕ) :
    (recordFailedAttempt tracker ip now).lookup ip =
      some (((tracker.lookup ip).getD (.new now)).record now) :=
  AList.lookup_insert _

/-- A validation leaves the entries of other IPs as they are. -/
theorem lookup_validateStreamKeyWithIp_ne {other : IpAddr} (hne : other ≠ ip) :
    (validateStreamKeyWithIp H store tracker streamKey ip checkedAt recordedAt).2.lookup other =
      tracker.lookup other := by
  have hvalidated := validateStreamKeyWithIp_validated H store tracker streamKey ip checkedAt
    recordedAt
  generalize validateStreamKeyWithIp H store tracker streamKey ip checkedAt recordedAt = out
    at hvalidated
  cases hvalidated with
  | blocked => rfl
  | accepted => exact AList.lookup_erase_ne hne
  | failed => exact AList.lookup_insert_ne hne

/-! ### The count of an entry -/

/-- Fewer than five attempts and no block, or five and a block that outlasts the window. -/
inductive BruteForceEntry.Counted (entry : BruteForceEntry) : Prop
  | counting (hattempts : entry.attempts < bruteForceMaxAttempts)
      (hblock : entry.blockedUntil = none)
  | blocked {blockedUntil : ℕ} (hattempts : entry.attempts = bruteForceMaxAttempts)
      (hblock : entry.blockedUntil = some blockedUntil)
      (hlong : entry.windowStart + fromSecs bruteForceBlockSecs ≤ blockedUntil)

/-- An attempt in a window that has expired is the first of a new one. -/
theorem BruteForceEntry.record_of_expired {entry : BruteForceEntry} {now : ℕ}
    (h : bruteForceWindowSecs < elapsedSecs now entry.windowStart) :
    entry.record now = ⟨1, now, none⟩ := by
  rw [record, if_pos h]
  rfl

/-- An attempt in its window is counted, and the fifth is followed by a block. -/
theorem BruteForceEntry.record_of_open {entry : BruteForceEntry} {now : ℕ}
    (h : elapsedSecs now entry.windowStart ≤ bruteForceWindowSecs) :
    entry.record now =
      { entry with
        attempts := entry.attempts + 1
        blockedUntil :=
          if bruteForceMaxAttempts ≤ entry.attempts + 1 then
            some (now + fromSecs bruteForceBlockSecs)
          else entry.blockedUntil } := by
  simp only [record, if_neg (Nat.not_lt.mpr h)]
  split <;> rfl

/-- An attempt that is not answered by the block. -/
theorem BruteForceEntry.Counted.record {entry : BruteForceEntry} (h : entry.Counted) {now : ℕ}
    (hstart : entry.windowStart ≤ now)
    (hfree : ∀ blockedUntil, entry.blockedUntil = some blockedUntil → blockedUntil ≤ now) :
    (entry.record now).Counted := by
  rcases Nat.lt_or_ge bruteForceWindowSecs (elapsedSecs now entry.windowStart) with hexp | hopen
  · rw [record_of_expired hexp]
    exact .counting (Nat.one_lt_succ_succ 3) rfl
  · rw [record_of_open hopen]
    cases h with
    | counting hattempts hblock =>
      rcases Nat.lt_or_ge (entry.attempts + 1) bruteForceMaxAttempts with hfew | hfive
      · exact .counting hfew ((if_neg (Nat.not_le.mpr hfew)).trans hblock)
      · exact .blocked (Nat.le_antisymm hattempts hfive) (if_pos hfive)
          (Nat.add_le_add_right hstart _)
    | blocked hattempts hblock hlong =>
      -- The block is over, and the window with it.
      have hover := hfree _ hblock
      have helapsed : bruteForceBlockSecs ≤ elapsedSecs now entry.windowStart :=
        (le_elapsedSecs_iff (by decide)).mpr (hlong.trans hover)
      exact absurd (helapsed.trans hopen) (by decide)

theorem BruteForceEntry.record_new (now : ℕ) :
    (BruteForceEntry.new now).record now = ⟨1, now, none⟩ := by
  have hopen : elapsedSecs now now ≤ bruteForceWindowSecs := by
    rw [elapsedSecs, Nat.sub_self]
    decide
  rw [record_of_open hopen]
  rfl

theorem BruteForceEntry.windowStart_record (entry : BruteForceEntry) (now : ℕ) :
    (entry.record now).windowStart = entry.windowStart ∨ (entry.record now).windowStart = now := by
  rcases Nat.lt_or_ge bruteForceWindowSecs (elapsedSecs now entry.windowStart) with hexp | hopen
  · rw [record_of_expired hexp]
    exact .inr rfl
  · rw [record_of_open hopen]
    exact .inl rfl

/-- What a failure leaves of the entry of an IP that is not blocked. -/
theorem counted_recordFailedAttempt (hfree : isIpBlocked tracker ip checkedAt = false)
    (hle : checkedAt ≤ recordedAt)
    (hold : ∀ entry, tracker.lookup ip = some entry →
      entry.Counted ∧ entry.windowStart ≤ recordedAt) {entry : BruteForceEntry}
    (h : (recordFailedAttempt tracker ip recordedAt).lookup ip = some entry) :
    entry.Counted ∧ (entry.windowStart = recordedAt ∨
      ∃ old, tracker.lookup ip = some old ∧ entry.windowStart = old.windowStart) := by
  rw [lookup_recordFailedAttempt_self] at h
  obtain rfl := Option.some.inj h
  cases hentry : tracker.lookup ip with
  | none =>
    rw [Option.getD_none, BruteForceEntry.record_new]
    exact ⟨.counting (Nat.one_lt_succ_succ 3) rfl, .inl rfl⟩
  | some old =>
    obtain ⟨hcounted, hstart⟩ := hold old hentry
    rw [Option.getD_some]
    constructor
    · refine hcounted.record hstart fun blockedUntil hblock => ?_
      refine le_trans (Nat.not_lt.mp fun hlt => ?_) hle
      have hblocked := isIpBlocked_iff.mpr ⟨old, blockedUntil, hentry, hblock, hlt⟩
      exact absurd (hfree.symm.trans hblocked) (by simp)
    · rcases old.windowStart_record recordedAt with hkept | hnew
      · exact .inr ⟨old, rfl, hkept⟩
      · exact .inl hnew

/-! ### Runs -/

/-- The readings of some calls, and then those of one more that comes behind them. -/
theorem timeline_append_singleton {calls : List TrackerCall} {call : TrackerCall}
    (h : Timeline (calls ++ [call])) :
    Timeline calls ∧ call.readings.Pairwise (· ≤ ·) ∧
      ∀ r ∈ calls.flatMap TrackerCall.readings, ∀ r' ∈ call.readings, r ≤ r' := by
  rw [Timeline, List.flatMap_append, List.pairwise_append, List.flatMap_singleton] at h
  exact h

/-- Every entry is counted, in a window that started at a reading of the clock. -/
theorem counted_trackerAfter {calls : List TrackerCall} (hclock : Timeline calls)
    {entry : BruteForceEntry} (h : (trackerAfter H store ∅ calls).lookup ip = some entry) :
    entry.Counted ∧ entry.windowStart ∈ calls.flatMap TrackerCall.readings := by
  induction calls using List.reverseRecOn generalizing ip entry with
  | nil => cases h
  | append_singleton calls call ih =>
    obtain ⟨hcalls, hown, hlater⟩ := timeline_append_singleton hclock
    rw [List.flatMap_append, List.flatMap_singleton, List.mem_append]
    rw [trackerAfter_append] at h
    have hold : ∀ {ip : IpAddr} {entry : BruteForceEntry},
        (trackerAfter H store ∅ calls).lookup ip = some entry →
          entry.Counted ∧ (entry.windowStart ∈ calls.flatMap TrackerCall.readings ∨
            entry.windowStart ∈ call.readings) :=
      fun hentry => ⟨(ih hcalls hentry).1, .inl (ih hcalls hentry).2⟩
    generalize trackerAfter H store ∅ calls = tracker at h hold ih
    cases call with
    | cleanup now =>
      change (cleanupBruteForceTracker tracker now).lookup ip = some entry at h
      rw [cleanupBruteForceTracker, Map.lookup_retain] at h
      exact hold (Option.filter_eq_some_iff.mp h).1
    | validate streamKey clientIp checkedAt recordedAt =>
      change (validateStreamKeyWithIp H store tracker streamKey clientIp checkedAt
        recordedAt).2.lookup ip = some entry at h
      by_cases hip : ip = clientIp
      swap
      · rw [lookup_validateStreamKeyWithIp_ne hip] at h
        exact hold h
      subst hip
      have hvalidated := validateStreamKeyWithIp_validated H store tracker streamKey ip checkedAt
        recordedAt
      generalize validateStreamKeyWithIp H store tracker streamKey ip checkedAt recordedAt = out
        at h hvalidated
      cases hvalidated with
      | blocked => exact hold h
      | accepted => exact absurd h (by simp [resetIpAttempts, AList.lookup_erase])
      | failed hfree hkey =>
        have hle : checkedAt ≤ recordedAt := by
          simpa [TrackerCall.readings] using hown
        have hmem : recordedAt ∈
            (TrackerCall.validate streamKey ip checkedAt recordedAt).readings := by
          simp [TrackerCall.readings]
        obtain ⟨hcounted, hstart | ⟨old, hlookup, hstart⟩⟩ :=
          counted_recordFailedAttempt hfree hle (fun old hlookup =>
            ⟨(hold hlookup).1, hlater _ (ih hcalls hlookup).2 _ hmem⟩) h
        · exact ⟨hcounted, .inr (hstart ▸ hmem)⟩
        · exact ⟨hcounted, hstart ▸ (hold hlookup).2⟩

/-! ### Blocks -/

/-- An IP that a call leaves blocked, and that was not, is blocked for the whole time. -/
theorem blockedUntil_of_becomes_blocked (hle : checkedAt ≤ recordedAt)
    (hfree : isIpBlocked tracker ip checkedAt = false)
    (hblocked : isIpBlocked
      (validateStreamKeyWithIp H store tracker streamKey ip checkedAt recordedAt).2 ip recordedAt =
        true) :
    ∃ entry,
      (validateStreamKeyWithIp H store tracker streamKey ip checkedAt recordedAt).2.lookup ip =
        some entry ∧
      entry.blockedUntil = some (recordedAt + fromSecs bruteForceBlockSecs) := by
  have hvalidated := validateStreamKeyWithIp_validated H store tracker streamKey ip checkedAt
    recordedAt
  generalize validateStreamKeyWithIp H store tracker streamKey ip checkedAt recordedAt = out
    at hvalidated hblocked
  obtain ⟨entry, blockedUntil, hlookup, hblock, hlt⟩ := isIpBlocked_iff.mp hblocked
  refine ⟨entry, hlookup, ?_⟩
  cases hvalidated with
  | blocked hbefore => exact absurd (hfree.symm.trans hbefore) (by simp)
  | accepted => exact absurd hlookup (by simp [resetIpAttempts, AList.lookup_erase])
  | failed =>
    rw [lookup_recordFailedAttempt_self] at hlookup
    obtain rfl := Option.some.inj hlookup
    cases hold : tracker.lookup ip with
    | none =>
      rw [hold, Option.getD_none, BruteForceEntry.record_new] at hblock
      cases hblock
    | some old =>
      rw [hold, Option.getD_some] at hblock
      rw [Option.getD_some]
      rcases Nat.lt_or_ge bruteForceWindowSecs (elapsedSecs recordedAt old.windowStart) with
        hexp | hopen
      · rw [BruteForceEntry.record_of_expired hexp] at hblock
        cases hblock
      · rw [BruteForceEntry.record_of_open hopen] at hblock ⊢
        dsimp only at hblock ⊢
        split at hblock
        · rename_i hfive
          rw [if_pos hfive]
        · -- The block would be an earlier one, which was over.
          have hbefore := isIpBlocked_iff.mpr
            ⟨old, blockedUntil, hold, hblock, Nat.lt_of_le_of_lt hle hlt⟩
          exact absurd (hfree.symm.trans hbefore) (by simp)

/-- While a block lasts no call touches the entry. -/
theorem lookup_trackerStep_of_blocked {entry : BruteForceEntry} {blockedUntil : ℕ}
    (hlookup : tracker.lookup ip = some entry) (hblock : entry.blockedUntil = some blockedUntil)
    {call : TrackerCall} (hnow : ∀ r ∈ call.readings, r < blockedUntil) :
    (trackerStep H store tracker call).lookup ip = some entry := by
  cases call with
  | cleanup now =>
    have hkept : entry.isKept now = true := by
      have hlt : now < blockedUntil := hnow now (by simp [TrackerCall.readings])
      simp [BruteForceEntry.isKept, hblock, hlt]
    rw [trackerStep, cleanupBruteForceTracker, Map.lookup_retain, hlookup]
    exact Option.filter_eq_some_iff.mpr ⟨rfl, hkept⟩
  | validate streamKey clientIp checkedAt recordedAt =>
    rw [trackerStep]
    by_cases hip : ip = clientIp
    · subst hip
      have hlt : checkedAt < blockedUntil := hnow checkedAt (by simp [TrackerCall.readings])
      rw [validateStreamKeyWithIp_of_blocked
        (isIpBlocked_iff.mpr ⟨entry, blockedUntil, hlookup, hblock, hlt⟩)]
      exact hlookup
    · rw [lookup_validateStreamKeyWithIp_ne hip]
      exact hlookup

theorem lookup_trackerAfter_of_blocked {entry : BruteForceEntry} {blockedUntil : ℕ}
    (hlookup : tracker.lookup ip = some entry) (hblock : entry.blockedUntil = some blockedUntil)
    {calls : List TrackerCall}
    (hnow : ∀ r ∈ calls.flatMap TrackerCall.readings, r < blockedUntil) :
    (trackerAfter H store tracker calls).lookup ip = some entry := by
  induction calls generalizing tracker with
  | nil => exact hlookup
  | cons call calls ih =>
    rw [List.flatMap_cons] at hnow
    refine ih (lookup_trackerStep_of_blocked hlookup hblock fun r hr => ?_) fun r hr => ?_
    · exact hnow r (List.mem_append_left _ hr)
    · exact hnow r (List.mem_append_right _ hr)

/-- **A block is enforced**: when a call leaves its IP blocked that was not, each later
call of the IP that looks for the block in the 300 seconds from then on is refused,
whatever key it presents and whatever calls come between, cleanups among them, and
leaves the tracker as it is. No call changes the entry of another IP. -/
theorem block_enforced (H : KeyHashing Salt) (store : IngestKeyStore)
    (before between : List TrackerCall) (streamKey streamKey' : Text) (ip : IpAddr)
    (checkedAt recordedAt checkedAt' recordedAt' : ℕ)
    (hclock : Timeline (before ++ [.validate streamKey ip checkedAt recordedAt] ++ between ++
      [.validate streamKey' ip checkedAt' recordedAt']))
    (hfree : isIpBlocked (trackerAfter H store ∅ before) ip checkedAt = false)
    (hblocked : isIpBlocked (trackerAfter H store ∅
      (before ++ [.validate streamKey ip checkedAt recordedAt])) ip recordedAt = true)
    (hearly : checkedAt' < recordedAt + fromSecs 300) :
    let tracker := trackerAfter H store ∅
      (before ++ [.validate streamKey ip checkedAt recordedAt] ++ between)
    isIpBlocked tracker ip checkedAt' = true ∧
      validateStreamKeyWithIp H store tracker streamKey' ip checkedAt' recordedAt' =
        (.error tooManyAttempts, tracker) ∧
      ∀ tracker streamKey caller other checkedAt recordedAt, other ≠ caller →
        (validateStreamKeyWithIp H store tracker streamKey caller checkedAt
          recordedAt).2.lookup other = tracker.lookup other := by
  obtain ⟨hbefore, -, hlast⟩ := timeline_append_singleton hclock
  have hbetween : ∀ r ∈ between.flatMap TrackerCall.readings,
      r < recordedAt + fromSecs bruteForceBlockSecs := by
    intro r hr
    refine Nat.lt_of_le_of_lt (hlast r ?_ checkedAt' (by simp [TrackerCall.readings])) hearly
    rw [List.flatMap_append]
    exact List.mem_append_right _ hr
  rw [Timeline, List.flatMap_append, List.pairwise_append] at hbefore
  obtain ⟨-, hown, -⟩ := timeline_append_singleton hbefore.1
  have hle : checkedAt ≤ recordedAt := by simpa [TrackerCall.readings] using hown
  rw [trackerAfter_append] at hblocked
  obtain ⟨entry, hlookup, hblock⟩ := blockedUntil_of_becomes_blocked hle hfree hblocked
  have hstill : isIpBlocked (trackerAfter H store ∅
      (before ++ [.validate streamKey ip checkedAt recordedAt] ++ between)) ip checkedAt' =
        true := by
    rw [trackerAfter_append, trackerAfter_append]
    exact isIpBlocked_iff.mpr
      ⟨entry, _, lookup_trackerAfter_of_blocked hlookup hblock hbetween, hblock, hearly⟩
  exact ⟨hstill, validateStreamKeyWithIp_of_blocked hstill,
    fun _ _ _ _ _ _ hne => lookup_validateStreamKeyWithIp_ne hne⟩

end

/-- A store with one key, and one of its callers. -/
def oneKeyStore : IngestKeyStore := newKeyStore plainHashing [("sk_a".toList, 'x')]

def localhost : IpAddr := .v4 0x7F000001#32

/-- A call from there at a time in seconds. -/
def callAt (streamKey : String) (secs : ℕ) : TrackerCall :=
  .validate streamKey.toList localhost (fromSecs secs) (fromSecs secs)

/-- The right key, 100 seconds behind five wrong ones and a cleanup. -/
theorem block_enforced_oneKeyStore :
    (validateStreamKeyWithIp plainHashing oneKeyStore
      (trackerAfter plainHashing oneKeyStore ∅
        ([callAt "a" 0, callAt "b" 1, callAt "c" 2, callAt "d" 3] ++ [callAt "e" 4] ++
          [.cleanup (fromSecs 100)]))
      "sk_a".toList localhost (fromSecs 104) (fromSecs 104)).1 = .error tooManyAttempts := by
  have h := (block_enforced plainHashing oneKeyStore
    [callAt "a" 0, callAt "b" 1, callAt "c" 2, callAt "d" 3] [.cleanup (fromSecs 100)]
    "e".toList "sk_a".toList localhost (fromSecs 4) (fromSecs 4) (fromSecs 104) (fromSecs 104)
    (by decide +kernel) (by decide +kernel) (by decide +kernel) (by decide +kernel)).2.1
  exact congrArg Prod.fst h

end StreamInfa
