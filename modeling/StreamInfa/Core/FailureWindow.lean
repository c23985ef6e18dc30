import StreamInfa.Core.BruteForce

/-!
Five failures in sixty seconds.

The tracker counts the failures of an IP in windows: a window starts with a failure and
takes those of the next 61 seconds (`as_secs()` rounds down), and with its fifth
failure it lasts until the block that follows is over. A `FailureLog` keeps these windows
by the readings of the clock alone, and `Tracks` says that the entry of the IP is the
count of its current window.

**`five_failures_block_iff`**: the fifth of five failures within 60 seconds leaves the IP
blocked, in a timeline of failing calls, exactly when no new window starts among the
five. The counter of a window forgets the failures of the one before.
-/

namespace StreamInfa

/-- A call of an IP, with the readings of the clock it can make. -/
structure Attempt where
  streamKey : Text
  checkedAt : ℕ
  recordedAt : ℕ
deriving DecidableEq, Repr

def Attempt.call (ip : IpAddr) (a : Attempt) : TrackerCall :=
  .validate a.streamKey ip a.checkedAt a.recordedAt

section

variable {Salt : Type} (H : KeyHashing Salt) (store : IngestKeyStore) (ip : IpAddr)

/-- The tracker after the attempts of an IP that has made none before. -/
def trackerOf (attempts : List Attempt) : BruteForceTracker :=
  trackerAfter H store ∅ (attempts.map (Attempt.call ip))

/-- When a failing call reads the clock last: it is refused there, or its failure noted. -/
def failedAt (tracker : BruteForceTracker) (a : Attempt) : ℕ :=
  if isIpBlocked tracker ip a.checkedAt then a.checkedAt else a.recordedAt

/-- The times at which calls fail. -/
def failureTimes (tracker : BruteForceTracker) : List Attempt → List ℕ
  | [] => []
  | a :: attempts =>
    failedAt ip tracker a :: failureTimes (trackerStep H store tracker (a.call ip)) attempts

/-- No call is successful. -/
def AllFail (attempts : List Attempt) : Prop :=
  ∀ before a after, attempts = before ++ a :: after →
    (validateStreamKeyWithIp H store (trackerOf H store ip before) a.streamKey ip a.checkedAt
      a.recordedAt).1 ≠ .ok ()

/-- The number of failures in the 60 seconds up to `now`. -/
def recentFailures (times : List ℕ) (now : ℕ) : ℕ :=
  times.countP fun time => now ≤ time + fromSecs 60

/-- Whenever a call fails as the fifth within 60 seconds, the IP is blocked right after. -/
def FifthFailureBlocks (attempts : List Attempt) : Prop :=
  ∀ before a after, attempts = before ++ a :: after →
    let now := failedAt ip (trackerOf H store ip before) a
    5 ≤ recentFailures (failureTimes H store ip ∅ (before ++ [a])) now →
      isIpBlocked (trackerOf H store ip (before ++ [a])) ip now = true

end

/-! ### Windows -/

/-- The times of some failures, and of those in the last window. -/
structure FailureLog where
  times : List ℕ
  window : List ℕ
deriving DecidableEq, Repr

/-- With its fifth failure a window lasts for the block. -/
def windowBlocks (window : List ℕ) (now : ℕ) : Bool :=
  match window[4]? with
  | some fifth => decide (now < fifth + fromSecs 300)
  | none => false

/-- A window takes the failures of 61 seconds. -/
def windowOpen (window : List ℕ) (now : ℕ) : Bool :=
  match window.head? with
  | some first => decide (now < first + fromSecs 61)
  | none => false

/-- When an attempt behind these failures fails. -/
def FailureLog.next (log : FailureLog) (a : Attempt) : ℕ :=
  if windowBlocks log.window a.checkedAt then a.checkedAt else a.recordedAt

def FailureLog.add (log : FailureLog) (a : Attempt) : FailureLog where
  times := log.times ++ [log.next a]
  window :=
    if windowBlocks log.window a.checkedAt || windowOpen log.window a.recordedAt then
      log.window ++ [log.next a]
    else [log.next a]

/-- The log of the attempts, by the readings of their clock alone. -/
def failureLog (attempts : List Attempt) : FailureLog :=
  attempts.foldl FailureLog.add ⟨[], []⟩

/-- Five failures within 60 seconds are in one window. -/
def FiveInOneWindow (attempts : List Attempt) : Prop :=
  ∀ before a after, attempts = before ++ a :: after →
    ∀ now, (failureLog (before ++ [a])).times.getLast? = some now →
      5 ≤ recentFailures (failureLog (before ++ [a])).times now →
        5 ≤ (failureLog (before ++ [a])).window.length

theorem failureLog_append_singleton (attempts : List Attempt) (a : Attempt) :
    failureLog (attempts ++ [a]) = (failureLog attempts).add a := by
  rw [failureLog, List.foldl_append]
  rfl

theorem windowBlocks_iff {window : List ℕ} {now : ℕ} :
    windowBlocks window now = true ↔
      ∃ fifth, window[4]? = some fifth ∧ now < fifth + fromSecs 300 := by
  unfold windowBlocks
  cases window[4]? with
  | none => simp
  | some fifth => simp only [decide_eq_true_eq, Option.some.injEq, exists_eq_left']

theorem windowOpen_iff {window : List ℕ} {now : ℕ} :
    windowOpen window now = true ↔
      ∃ first, window.head? = some first ∧ now < first + fromSecs 61 := by
  unfold windowOpen
  cases window.head? with
  | none => simp
  | some first => simp only [decide_eq_true_eq, Option.some.injEq, exists_eq_left']

/-- Behind a failure the IP is blocked exactly when the window holds five. -/
theorem windowBlocks_append_iff {window : List ℕ} {now : ℕ}
    (h : window.length ≤ 4 ∨ windowBlocks window now = true) :
    windowBlocks (window ++ [now]) now = true ↔ 5 ≤ (window ++ [now]).length := by
  constructor
  · intro hblocks
    obtain ⟨fifth, hfifth, -⟩ := windowBlocks_iff.mp hblocks
    exact (List.getElem?_eq_some_iff.mp hfifth).1
  · intro hfive
    rw [List.length_append, List.length_singleton] at hfive
    rcases h with hshort | hblocks
    · have hfour : window.length = 4 := by omega
      refine windowBlocks_iff.mpr ⟨now, ?_, Nat.lt_add_of_pos_right (by decide)⟩
      rw [← hfour]
      exact List.getElem?_concat_length
    · obtain ⟨fifth, hfifth, hlt⟩ := windowBlocks_iff.mp hblocks
      refine windowBlocks_iff.mpr ⟨fifth, ?_, hlt⟩
      rw [List.getElem?_append_left (List.getElem?_eq_some_iff.mp hfifth).1, hfifth]

/-! ### The entry counts the window -/

/-- The entry of the IP for the failures of the current window. -/
inductive Tracks : Option BruteForceEntry → List ℕ → Prop
  | none : Tracks none []
  | counting {window : List ℕ} {first : ℕ} (hfirst : window.head? = some first)
      (hfew : window.length < 5) : Tracks (some ⟨window.length, first, Option.none⟩) window
  | blocked {window : List ℕ} {first fifth : ℕ} (hfirst : window.head? = some first)
      (hfifth : window[4]? = some fifth) (hle : first ≤ fifth) :
      Tracks (some ⟨5, first, some (fifth + fromSecs 300)⟩) window

variable {Salt : Type} {H : KeyHashing Salt} {store : IngestKeyStore} {ip : IpAddr}
  {tracker : BruteForceTracker} {window : List ℕ}

theorem Tracks.isIpBlocked_iff {now : ℕ} (h : Tracks (tracker.lookup ip) window) :
    isIpBlocked tracker ip now = true ↔ windowBlocks window now = true := by
  rw [StreamInfa.isIpBlocked_iff, windowBlocks_iff]
  constructor
  · rintro ⟨entry, blockedUntil, hlookup, hblock, hlt⟩
    rw [hlookup] at h
    cases h with
    | counting => cases hblock
    | blocked hfirst hfifth =>
      obtain rfl := Option.some.inj hblock
      exact ⟨_, hfifth, hlt⟩
  · rintro ⟨fifth, hfifth, hlt⟩
    generalize hlookup : tracker.lookup ip = entry at h
    cases h with
    | none => cases hfifth
    | counting hfirst hfew =>
      exact absurd (List.getElem?_eq_some_iff.mp hfifth).1 (by omega)
    | blocked hfirst hfifth' =>
      obtain rfl := Option.some.inj (hfifth.symm.trans hfifth')
      exact ⟨_, _, rfl, rfl, hlt⟩

theorem elapsedSecs_le_iff {now start : ℕ} :
    elapsedSecs now start ≤ bruteForceWindowSecs ↔ now < start + fromSecs 61 := by
  have h : bruteForceWindowSecs + 1 ≤ elapsedSecs now start ↔ start + fromSecs 61 ≤ now :=
    le_elapsedSecs_iff (Nat.succ_pos _)
  omega

/-- The first failure of an IP. -/
theorem tracks_new (now : ℕ) : Tracks (some ((BruteForceEntry.new now).record now)) [now] := by
  have hone : Tracks (some ⟨[now].length, now, none⟩) [now] :=
    .counting rfl (Nat.one_lt_succ_succ 3)
  rw [BruteForceEntry.record_new]
  exact hone

/-- A failure that is not answered by the block. -/
theorem Tracks.record {entry : BruteForceEntry} (h : Tracks (some entry) window) {now : ℕ}
    (hfree : ¬windowBlocks window now = true) (hpast : ∀ time ∈ window, time ≤ now) :
    Tracks (some (entry.record now))
      (if windowOpen window now then window ++ [now] else [now]) := by
  obtain ⟨first, hfirst, hstart⟩ :
      ∃ first, window.head? = some first ∧ entry.windowStart = first := by
    cases h with
    | counting hfirst => exact ⟨_, hfirst, rfl⟩
    | blocked hfirst => exact ⟨_, hfirst, rfl⟩
  have hhead : (window ++ [now]).head? = some first := by
    rw [List.head?_append, hfirst, Option.some_or]
  by_cases hopen : now < first + fromSecs 61
  swap
  · -- The window has ended, and the failure starts another.
    have hclosed : ¬windowOpen window now = true := by
      intro h
      obtain ⟨first', hfirst', hlt⟩ := windowOpen_iff.mp h
      obtain rfl := Option.some.inj (hfirst.symm.trans hfirst')
      exact hopen hlt
    have hexp : bruteForceWindowSecs < elapsedSecs now entry.windowStart := by
      rw [hstart]
      exact Nat.lt_of_not_le fun h => hopen (elapsedSecs_le_iff.mp h)
    rw [if_neg hclosed, BruteForceEntry.record_of_expired hexp, ← BruteForceEntry.record_new]
    exact tracks_new now
  have helapsed : elapsedSecs now entry.windowStart ≤ bruteForceWindowSecs := by
    rw [hstart]
    exact elapsedSecs_le_iff.mpr hopen
  rw [if_pos (windowOpen_iff.mpr ⟨first, hfirst, hopen⟩),
    BruteForceEntry.record_of_open helapsed, hstart]
  cases h with
  | blocked hfirst' hfifth hle =>
    -- The block outlasts the window.
    obtain rfl := Option.some.inj (hfirst.symm.trans hfirst')
    refine absurd (windowBlocks_iff.mpr ⟨_, hfifth, ?_⟩) hfree
    have hlong : fromSecs 61 < fromSecs 300 := by decide
    omega
  | counting hfirst' hfew =>
    rcases Nat.lt_or_ge (window.length + 1) 5 with hlt | hge
    · have hcount := Tracks.counting hhead (by rwa [List.length_append, List.length_singleton])
      rw [List.length_append, List.length_singleton] at hcount
      have hno : ¬bruteForceMaxAttempts ≤ window.length + 1 := Nat.not_le.mpr hlt
      rw [if_neg hno]
      exact hcount
    · have hfour : window.length = 4 := by omega
      have hfifth : (window ++ [now])[4]? = some now := by
        rw [← hfour]
        exact List.getElem?_concat_length
      have hle : first ≤ now := hpast first (List.mem_of_mem_head? hfirst)
      have hcount : bruteForceMaxAttempts ≤ 4 + 1 := le_refl 5
      rw [hfour, if_pos hcount]
      exact .blocked hhead hfifth hle

theorem Tracks.next_eq {log : FailureLog} (h : Tracks (tracker.lookup ip) log.window)
    (a : Attempt) : log.next a = failedAt ip tracker a := by
  unfold FailureLog.next failedAt
  by_cases hblocks : windowBlocks log.window a.checkedAt = true
  · rw [if_pos hblocks, if_pos (h.isIpBlocked_iff.mpr hblocks)]
  · rw [if_neg hblocks, if_neg fun hblocked => hblocks (h.isIpBlocked_iff.mp hblocked)]

/-- A refused call leaves the entry to the window that its failure is added to. -/
theorem Tracks.refused {entry : Option BruteForceEntry} (h : Tracks entry window) {now : ℕ}
    (hblocks : windowBlocks window now = true) : Tracks entry (window ++ [now]) := by
  obtain ⟨fifth, hfifth, -⟩ := windowBlocks_iff.mp hblocks
  have hlen := (List.getElem?_eq_some_iff.mp hfifth).1
  cases h with
  | none => cases hfifth
  | counting hfirst hfew => exact absurd hlen (by omega)
  | blocked hfirst hfifth' hle =>
    refine .blocked ?_ ?_ hle
    · rw [List.head?_append, hfirst, Option.some_or]
    · rw [List.getElem?_append_left hlen, hfifth']

/-- What a failing call does to the entry and to the log. -/
theorem Tracks.step {log : FailureLog} (h : Tracks (tracker.lookup ip) log.window) {a : Attempt}
    (hle : a.checkedAt ≤ a.recordedAt) (hpast : ∀ time ∈ log.window, time ≤ a.recordedAt)
    (hfail : (validateStreamKeyWithIp H store tracker a.streamKey ip a.checkedAt
      a.recordedAt).1 ≠ .ok ()) :
    Tracks ((trackerStep H store tracker (a.call ip)).lookup ip) (log.add a).window := by
  have hvalidated := validateStreamKeyWithIp_validated H store tracker a.streamKey ip a.checkedAt
    a.recordedAt
  rw [Attempt.call, trackerStep]
  generalize validateStreamKeyWithIp H store tracker a.streamKey ip a.checkedAt a.recordedAt = out
    at hvalidated hfail
  cases hvalidated with
  | accepted => exact absurd rfl hfail
  | blocked hblocked =>
    have hblocks := h.isIpBlocked_iff.mp hblocked
    simp only [FailureLog.add, FailureLog.next, hblocks, Bool.true_or, if_true]
    exact h.refused hblocks
  | failed hfree =>
    have hover : ∀ now, a.checkedAt ≤ now → ¬windowBlocks log.window now = true := by
      intro now hnow hblocks
      obtain ⟨fifth, hfifth, hlt⟩ := windowBlocks_iff.mp hblocks
      have hbefore := windowBlocks_iff.mpr ⟨fifth, hfifth, Nat.lt_of_le_of_lt hnow hlt⟩
      exact absurd (hfree.symm.trans (h.isIpBlocked_iff.mpr hbefore)) (by simp)
    simp only [FailureLog.add, FailureLog.next, hover _ (le_refl _), Bool.false_or]
    rw [lookup_recordFailedAttempt_self]
    cases hentry : tracker.lookup ip with
    | none =>
      rw [hentry] at h
      generalize log.window = window at h
      cases h
      exact tracks_new a.recordedAt
    | some entry =>
      rw [hentry] at h
      exact h.record (hover _ hle) hpast

/-- After a failure the window blocks exactly when it holds five. -/
theorem Tracks.windowBlocks_add_iff {entry : Option BruteForceEntry} {log : FailureLog}
    (h : Tracks entry log.window) {a : Attempt} (hle : a.checkedAt ≤ a.recordedAt) :
    windowBlocks (log.add a).window (log.next a) = true ↔ 5 ≤ (log.add a).window.length := by
  unfold FailureLog.add
  split
  · rename_i hin
    apply windowBlocks_append_iff
    by_cases hblocks : windowBlocks log.window a.checkedAt = true
    · right
      rwa [FailureLog.next, if_pos hblocks]
    · left
      rw [Bool.or_eq_true, or_iff_right hblocks] at hin
      obtain ⟨first, hfirst, hopen⟩ := windowOpen_iff.mp hin
      generalize log.window = window at h hfirst hblocks
      cases h with
      | none => cases hfirst
      | counting _ hfew => omega
      | blocked hfirst' hfifth hlong =>
        -- A window with a fifth failure is open no longer when its block is over.
        obtain rfl := Option.some.inj (hfirst.symm.trans hfirst')
        refine absurd (windowBlocks_iff.mpr ⟨_, hfifth, ?_⟩) hblocks
        have hlong : fromSecs 61 < fromSecs 300 := by decide
        omega
  · exact @windowBlocks_append_iff [] _ (.inl (Nat.zero_le _))

/-! ### Runs -/

theorem failureTimes_append_singleton (tracker : BruteForceTracker) (attempts : List Attempt)
    (a : Attempt) :
    failureTimes H store ip tracker (attempts ++ [a]) =
      failureTimes H store ip tracker attempts ++
        [failedAt ip (trackerAfter H store tracker (attempts.map (Attempt.call ip))) a] := by
  induction attempts generalizing tracker with
  | nil => rfl
  | cons a' attempts ih =>
    rw [List.cons_append, failureTimes, ih]
    rfl

theorem trackerOf_append_singleton (attempts : List Attempt) (a : Attempt) :
    trackerOf H store ip (attempts ++ [a]) =
      trackerStep H store (trackerOf H store ip attempts) (a.call ip) := by
  rw [trackerOf, List.map_append, trackerAfter_append]
  rfl

theorem AllFail.left {attempts more : List Attempt} (h : AllFail H store ip (attempts ++ more)) :
    AllFail H store ip attempts := by
  rintro before a after rfl
  exact h before a (after ++ more) (by simp)

/-- Keys that are not accepted. -/
theorem allFail_of_forall {attempts : List Attempt}
    (h : ∀ a ∈ attempts, validateStreamKey H store a.streamKey ≠ .ok ()) :
    AllFail H store ip attempts := by
  rintro before a after rfl
  have hvalidated := validateStreamKeyWithIp_validated H store (trackerOf H store ip before)
    a.streamKey ip a.checkedAt a.recordedAt
  generalize validateStreamKeyWithIp H store (trackerOf H store ip before) a.streamKey ip
    a.checkedAt a.recordedAt = out at hvalidated
  cases hvalidated with
  | blocked | failed => exact fun hok => by cases hok
  | accepted _ hkey => exact absurd hkey (h a (by simp))

/-- The log of a timeline of failing calls has their times, and the entry of the IP
counts its window. -/
theorem tracks_trackerOf {attempts : List Attempt}
    (hclock : Timeline (attempts.map (Attempt.call ip))) (hfail : AllFail H store ip attempts) :
    Tracks ((trackerOf H store ip attempts).lookup ip) (failureLog attempts).window ∧
      (failureLog attempts).times = failureTimes H store ip ∅ attempts ∧
      ∀ time ∈ (failureLog attempts).window,
        time ∈ (attempts.map (Attempt.call ip)).flatMap TrackerCall.readings := by
  induction attempts using List.reverseRecOn with
  | nil => exact ⟨.none, rfl, fun time htime => absurd htime List.not_mem_nil⟩
  | append_singleton attempts a ih =>
    rw [List.map_append, List.map_singleton] at hclock
    obtain ⟨hbefore, hown, hlater⟩ := timeline_append_singleton hclock
    obtain ⟨htracks, htimes, hpast⟩ := ih hbefore hfail.left
    have hle : a.checkedAt ≤ a.recordedAt := by
      simpa [Attempt.call, TrackerCall.readings] using hown
    have hnow : ∀ time ∈ (failureLog attempts).window, time ≤ a.recordedAt :=
      fun time htime => hlater time (hpast time htime) _ (by simp [Attempt.call,
        TrackerCall.readings])
    rw [failureLog_append_singleton, trackerOf_append_singleton, failureTimes_append_singleton]
    refine ⟨htracks.step hle hnow (hfail attempts a [] rfl), ?_, ?_⟩
    · rw [FailureLog.add, htracks.next_eq, htimes]
      rfl
    · rw [List.map_append, List.map_singleton, List.flatMap_append, List.flatMap_singleton]
      have hnext : (failureLog attempts).next a ∈ (a.call ip).readings := by
        unfold FailureLog.next
        split <;> simp [Attempt.call, TrackerCall.readings]
      intro time htime
      rw [FailureLog.add] at htime
      dsimp only at htime
      split at htime
      · rcases List.mem_append.mp htime with hold | hlast
        · exact List.mem_append_left _ (hpast time hold)
        · rw [List.mem_singleton.mp hlast]
          exact List.mem_append_right _ hnext
      · rw [List.mem_singleton.mp htime]
        exact List.mem_append_right _ hnext

/-- **Five failures within 60 seconds block** exactly where no window of the counter
starts among them: in a timeline of failing calls of one IP the fifth of any five
failures within 60 seconds leaves the IP blocked if and only if any five are in one
window. -/
theorem five_failures_block_iff (H : KeyHashing Salt) (store : IngestKeyStore) (ip : IpAddr)
    {attempts : List Attempt} (hclock : Timeline (attempts.map (Attempt.call ip)))
    (hfail : AllFail H store ip attempts) :
    FifthFailureBlocks H store ip attempts ↔ FiveInOneWindow attempts := by
  -- Both speak of every call of the timeline, and agree on each.
  unfold FifthFailureBlocks FiveInOneWindow
  refine forall_congr' fun before => forall_congr' fun a => forall_congr' fun after =>
    forall_congr' fun hsplit => ?_
  subst hsplit
  rw [List.append_cons] at hfail hclock
  rw [List.map_append, Timeline, List.flatMap_append, List.pairwise_append] at hclock
  obtain ⟨htracks, htimes, -⟩ := tracks_trackerOf hclock.1 hfail.left
  have hprefix := hclock.1
  rw [List.map_append, List.map_singleton] at hprefix
  obtain ⟨hbefore, hown, -⟩ := timeline_append_singleton hprefix
  obtain ⟨hold, -, -⟩ := tracks_trackerOf hbefore hfail.left.left
  have hle : a.checkedAt ≤ a.recordedAt := by
    simpa [Attempt.call, TrackerCall.readings] using hown
  have hlast : (failureLog (before ++ [a])).times.getLast? =
      some (failedAt ip (trackerOf H store ip before) a) := by
    rw [htimes, failureTimes_append_singleton, List.getLast?_concat]
    rfl
  have hblocked : isIpBlocked _ ip (failedAt ip (trackerOf H store ip before) a) = true ↔ _ :=
    htracks.isIpBlocked_iff
  rw [failureLog_append_singleton, ← hold.next_eq, hold.windowBlocks_add_iff hle,
    ← failureLog_append_singleton] at hblocked
  rw [hlast, htimes]
  simp only [Option.some.injEq, forall_eq']
  rw [← hold.next_eq, hblocked]

/-- Wrong keys at some times, in seconds. -/
def wrongKeysAt (secs : List ℕ) : List Attempt :=
  secs.map fun s => ⟨"wrong".toList, fromSecs s, fromSecs s⟩

theorem allFail_wrongKeysAt (ip : IpAddr) (secs : List ℕ) :
    AllFail plainHashing oneKeyStore ip (wrongKeysAt secs) := by
  refine allFail_of_forall fun a ha => ?_
  obtain ⟨s, -, rfl⟩ := List.mem_map.mp ha
  have hwrong : validateStreamKey plainHashing oneKeyStore "wrong".toList ≠ .ok () := by
    decide +kernel
  exact hwrong

theorem five_failures_block_iff_burst :
    FifthFailureBlocks plainHashing oneKeyStore localhost (wrongKeysAt [0, 10, 20, 30, 40]) ↔
      FiveInOneWindow (wrongKeysAt [0, 10, 20, 30, 40]) :=
  five_failures_block_iff plainHashing oneKeyStore localhost (by decide +kernel)
    (allFail_wrongKeysAt localhost _)

/-- Five failures in the twelve seconds behind a first one at 0 s: the window of the first
ends at 61 s, and the counter with it. -/
theorem five_failures_not_blocked :
    ¬∀ (ip : IpAddr) (attempts : List Attempt), Timeline (attempts.map (Attempt.call ip)) →
      AllFail plainHashing oneKeyStore ip attempts →
        FifthFailureBlocks plainHashing oneKeyStore ip attempts := by
  intro hclaim
  have hrun := hclaim localhost (wrongKeysAt [0, 50, 51, 52, 61, 62]) (by decide +kernel)
    (allFail_wrongKeysAt localhost _)
  have hfifth := hrun (wrongKeysAt [0, 50, 51, 52, 61]) ⟨"wrong".toList, fromSecs 62, fromSecs 62⟩
    [] rfl
  exact absurd (hfifth (by decide +kernel)) (by decide +kernel)

end StreamInfa
