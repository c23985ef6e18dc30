import StreamInfa.Storage.Media
import StreamInfa.Lib.Run

/-!
The storage writer task (`src/storage/writer.rs`).

The writer takes whatever is queued as one batch and runs the puts of the batch
concurrently, each with its own retries; the next batch starts when every task of
this one has ended. The machine's actions are the choices the program does not make
itself: how much the channel held when it was drained (`batch`), and which running
task's current attempt ends next and how (`put`, `fail`). A run of the machine is
one batching, one schedule and one pattern of failures.

`channel` is everything ever sent, `received` how much of it has been taken. A task
remembers the slot of its write; `failed` is the log of the writes given up after
all retries.

`writerStep_cases` says once what a step can do, and `WellFormed` is what holds in
every state: each received write is running, was given up, or is stored.
-/

namespace StreamInfa.Storage

/-- Maximum number of retry attempts per storage write. -/
def maxRetries : ℕ := 3

/-- A running put: the write, its slot in the channel and the attempts that failed. -/
structure PutTask where
  slot : ℕ
  write : StorageWrite
  attempt : ℕ
deriving DecidableEq, Repr

structure Writer where
  channel : List StorageWrite
  received : ℕ
  tasks : List PutTask
  failed : List PutTask
  store : MediaStore
  segmentsWritten : ℕ
  bytesWritten : ℕ

inductive WriterAction where
  | batch (n : ℕ)
  | put (i : ℕ) (now : DateTime)
  | fail (i : ℕ)
deriving DecidableEq, Repr

/-- Whether a path is written with `put_manifest`. -/
def isManifest (path : Text) : Bool := ".m3u8".toList.isSuffixOf path

/-- The object a write stores: a manifest goes through a string. -/
def storedObject (write : StorageWrite) (now : DateTime) : StoredObject :=
  if isManifest write.path then
    { data := encodeUtf8 (fromUtf8Lossy write.data)
      contentType := "application/vnd.apple.mpegurl".toList
      createdAt := now }
  else { data := write.data, contentType := write.contentType, createdAt := now }

/-- One put, as the task calls the store. -/
def putWrite (store : MediaStore) (write : StorageWrite) (now : DateTime) : MediaStore :=
  if isManifest write.path then store.putManifest write.path (fromUtf8Lossy write.data) now
  else store.putSegment write.path write.data write.contentType now

namespace Writer

/-- A writer about to read the channel. -/
def start (channel : List StorageWrite) (store : MediaStore) : Writer where
  channel := channel
  received := 0
  tasks := []
  failed := []
  store := store
  segmentsWritten := 0
  bytesWritten := 0

/-- The tasks of a batch of the next `n` writes. -/
def newTasks (s : Writer) (n : ℕ) : List PutTask :=
  (((s.channel.drop s.received).take n).zipIdx s.received).map fun (write, slot) =>
    { slot := slot, write := write, attempt := 0 }

/-- Task `i` ends with a successful put. -/
def complete (s : Writer) (i : ℕ) (t : PutTask) (now : DateTime) : Writer :=
  { s with
    tasks := s.tasks.eraseIdx i
    store := putWrite s.store t.write now
    segmentsWritten := s.segmentsWritten + 1
    bytesWritten := s.bytesWritten + t.write.data.length }

/-- The current attempt of task `i` fails: it is retried, or given up. -/
def failAttempt (s : Writer) (i : ℕ) (t : PutTask) : Writer :=
  if t.attempt < maxRetries then
    { s with tasks := s.tasks.set i { t with attempt := t.attempt + 1 } }
  else { s with tasks := s.tasks.eraseIdx i, failed := s.failed ++ [t] }

end Writer

def writerStep (s : Writer) : WriterAction → Option Writer
  | .batch n =>
    if s.tasks = [] ∧ 0 < n ∧ s.received + n ≤ s.channel.length then
      some { s with received := s.received + n, tasks := s.newTasks n }
    else none
  | .put i now => (s.tasks[i]?).map fun t => s.complete i t now
  | .fail i => (s.tasks[i]?).map fun t => s.failAttempt i t

/-- Everything a step can do. -/
theorem writerStep_cases {s s' : Writer} {a : WriterAction} (h : writerStep s a = some s') :
    (∃ n, a = .batch n ∧ s.tasks = [] ∧ s.received + n ≤ s.channel.length ∧
      s' = { s with received := s.received + n, tasks := s.newTasks n }) ∨
    (∃ i now t, a = .put i now ∧ s.tasks[i]? = some t ∧ s' = s.complete i t now) ∨
    (∃ i t, a = .fail i ∧ s.tasks[i]? = some t ∧ s' = s.failAttempt i t) := by
  cases a with
  | batch n =>
    simp only [writerStep, Option.ite_none_right_eq_some, Option.some.injEq] at h
    obtain ⟨⟨htasks, -, hle⟩, rfl⟩ := h
    exact Or.inl ⟨n, rfl, htasks, hle, rfl⟩
  | put i now =>
    obtain ⟨t, ht, rfl⟩ := Option.map_eq_some_iff.mp h
    exact Or.inr (Or.inl ⟨i, now, t, rfl, ht, rfl⟩)
  | fail i =>
    obtain ⟨t, ht, rfl⟩ := Option.map_eq_some_iff.mp h
    exact Or.inr (Or.inr ⟨i, t, rfl, ht, rfl⟩)

/-! ### The store -/

theorem createdAt_storedObject (write : StorageWrite) (now : DateTime) :
    (storedObject write now).createdAt = now := by
  unfold storedObject
  split <;> rfl

theorem putWrite_eq (store : MediaStore) (write : StorageWrite) (now : DateTime) :
    putWrite store write now = store.insert write.path (storedObject write now) := by
  unfold putWrite storedObject MediaStore.putManifest MediaStore.putSegment
  split <;> rfl

theorem lookup_putWrite_self (store : MediaStore) (write : StorageWrite) (now : DateTime) :
    (putWrite store write now).lookup write.path = some (storedObject write now) := by
  rw [putWrite_eq, AList.lookup_insert]

theorem lookup_putWrite_ne (store : MediaStore) {write : StorageWrite} {path : Text}
    (now : DateTime) (hne : path ≠ write.path) :
    (putWrite store write now).lookup path = store.lookup path := by
  rw [putWrite_eq, AList.lookup_insert_ne hne]

/-- A put removes nothing. -/
theorem isSome_lookup_putWrite {store : MediaStore} {path : Text} (write : StorageWrite)
    (now : DateTime) (h : (store.lookup path).isSome) :
    ((putWrite store write now).lookup path).isSome := by
  by_cases hpath : path = write.path
  · rw [hpath, lookup_putWrite_self]
    rfl
  · rwa [lookup_putWrite_ne store now hpath]

/-! ### The tasks -/

section Tasks

variable {s : Writer} {i : ℕ} {t t' : PutTask}

/-- The tasks of a batch are the writes of its slots. -/
theorem mem_newTasks {n : ℕ} :
    t ∈ s.newTasks n ↔ t.attempt = 0 ∧ s.received ≤ t.slot ∧ t.slot < s.received + n ∧
      s.channel[t.slot]? = some t.write := by
  have hslot : ∀ (write : StorageWrite) (slot : ℕ),
      (write, slot) ∈ ((s.channel.drop s.received).take n).zipIdx s.received ↔
        s.received ≤ slot ∧ slot < s.received + n ∧ s.channel[slot]? = some write := by
    intro write slot
    rw [List.mk_mem_zipIdx_iff_le_and_getElem?_sub]
    refine and_congr_right fun hle => ?_
    rw [List.getElem?_take, List.getElem?_drop, Nat.add_sub_cancel' hle]
    split
    · exact ⟨fun h => ⟨by omega, h⟩, fun h => h.2⟩
    · exact ⟨fun h => absurd h (by simp), fun h => by omega⟩
  constructor
  · intro ht
    obtain ⟨⟨write, slot⟩, hmem, rfl⟩ := List.mem_map.mp ht
    exact ⟨rfl, (hslot write slot).mp hmem⟩
  · rintro ⟨hattempt, hrest⟩
    refine List.mem_map.mpr ⟨(t.write, t.slot), (hslot t.write t.slot).mpr hrest, ?_⟩
    rw [← hattempt]

theorem mem_eraseIdx_or (hget : s.tasks[i]? = some t) (ht' : t' ∈ s.tasks) :
    t' = t ∨ t' ∈ s.tasks.eraseIdx i := by
  obtain ⟨k, hk⟩ := List.mem_iff_getElem?.mp ht'
  by_cases hik : k = i
  · subst hik
    rw [hget] at hk
    exact Or.inl (Option.some.inj hk).symm
  · exact Or.inr (List.mem_eraseIdx_iff_getElem?.mpr ⟨k, hik, hk⟩)

/-- A retried task keeps its slot and its write. -/
theorem exists_mem_retry (hget : s.tasks[i]? = some t) (ht' : t' ∈ s.tasks) :
    ∃ u ∈ s.tasks.set i { t with attempt := t.attempt + 1 },
      u.slot = t'.slot ∧ u.write = t'.write := by
  obtain ⟨k, hk⟩ := List.mem_iff_getElem?.mp ht'
  by_cases hik : k = i
  · subst hik
    rw [hget] at hk
    obtain rfl := Option.some.inj hk
    refine ⟨{ t with attempt := t.attempt + 1 }, List.mem_iff_getElem?.mpr ⟨k, ?_⟩, rfl, rfl⟩
    exact List.getElem?_set_self (List.getElem?_eq_some_iff.mp hget).1
  · refine ⟨t', List.mem_iff_getElem?.mpr ⟨k, ?_⟩, rfl, rfl⟩
    rw [List.getElem?_set_ne (Ne.symm hik), hk]

theorem exists_mem_of_mem_retry (hget : s.tasks[i]? = some t)
    (ht' : t' ∈ s.tasks.set i { t with attempt := t.attempt + 1 }) :
    ∃ u ∈ s.tasks, u.slot = t'.slot ∧ u.write = t'.write := by
  rcases List.mem_or_eq_of_mem_set ht' with ht' | rfl
  · exact ⟨t', ht', rfl, rfl⟩
  · exact ⟨t, List.mem_of_getElem? hget, rfl, rfl⟩

end Tasks

/-! ### The invariant -/

/-- What holds in every state of the writer: tasks and failures are received writes,
and every received write is running, was given up, or has been stored. -/
structure WellFormed (s : Writer) : Prop where
  received_le : s.received ≤ s.channel.length
  running : ∀ t ∈ s.tasks, t.slot < s.received ∧ s.channel[t.slot]? = some t.write
  tracked : ∀ j write, j < s.received → s.channel[j]? = some write →
    (∃ t ∈ s.tasks, t.slot = j) ∨ (∃ t ∈ s.failed, t.slot = j ∧ t.write = write) ∨
      (s.store.lookup write.path).isSome

theorem wellFormed_start (channel : List StorageWrite) (store : MediaStore) :
    WellFormed (Writer.start channel store) where
  received_le := Nat.zero_le _
  running := fun _ ht => absurd ht List.not_mem_nil
  tracked := fun j _ hj => absurd hj (Nat.not_lt_zero j)

section Preservation

variable {s s' : Writer} {a : WriterAction} {i n : ℕ} {t : PutTask} {now : DateTime}

theorem WellFormed.write_eq (hwf : WellFormed s) (ht : t ∈ s.tasks) {write : StorageWrite}
    (hwrite : s.channel[t.slot]? = some write) : t.write = write :=
  Option.some.inj ((hwf.running t ht).2.symm.trans hwrite)

theorem WellFormed.batch (hwf : WellFormed s) (htasks : s.tasks = [])
    (hle : s.received + n ≤ s.channel.length) :
    WellFormed { s with received := s.received + n, tasks := s.newTasks n } where
  received_le := hle
  running := fun t ht => (mem_newTasks.mp ht).2.2
  tracked := by
    intro j write hj hwrite
    by_cases hold : j < s.received
    · rcases hwf.tracked j write hold hwrite with ⟨t, ht, -⟩ | h
      · rw [htasks] at ht
        exact absurd ht List.not_mem_nil
      · exact Or.inr h
    · refine Or.inl ⟨⟨j, write, 0⟩, ?_, rfl⟩
      exact mem_newTasks.mpr ⟨rfl, Nat.not_lt.mp hold, hj, hwrite⟩

theorem WellFormed.complete (hwf : WellFormed s) (hget : s.tasks[i]? = some t) :
    WellFormed (s.complete i t now) where
  received_le := hwf.received_le
  running := fun t' ht' => hwf.running t' (List.mem_of_mem_eraseIdx ht')
  tracked := by
    intro j write hj hwrite
    rcases hwf.tracked j write hj hwrite with ⟨t', ht', rfl⟩ | h | h
    · rcases mem_eraseIdx_or hget ht' with rfl | hrest
      · refine Or.inr (Or.inr ?_)
        rw [← hwf.write_eq ht' hwrite]
        exact Option.isSome_iff_exists.mpr ⟨_, lookup_putWrite_self s.store t'.write now⟩
      · exact Or.inl ⟨t', hrest, rfl⟩
    · exact Or.inr (Or.inl h)
    · exact Or.inr (Or.inr (isSome_lookup_putWrite t.write now h))

theorem WellFormed.failAttempt (hwf : WellFormed s) (hget : s.tasks[i]? = some t) :
    WellFormed (s.failAttempt i t) := by
  unfold Writer.failAttempt
  split
  · refine ⟨hwf.received_le, fun t' ht' => ?_, fun j write hj hwrite => ?_⟩
    · obtain ⟨u, hu, hslot, hwrite⟩ := exists_mem_of_mem_retry hget ht'
      rw [← hslot, ← hwrite]
      exact hwf.running u hu
    · refine (hwf.tracked j write hj hwrite).imp_left ?_
      rintro ⟨t', ht', rfl⟩
      obtain ⟨u, hu, hslot, -⟩ := exists_mem_retry hget ht'
      exact ⟨u, hu, hslot⟩
  · refine ⟨hwf.received_le, fun t' ht' => ?_, fun j write hj hwrite => ?_⟩
    · exact hwf.running t' (List.mem_of_mem_eraseIdx ht')
    · rcases hwf.tracked j write hj hwrite with ⟨t', ht', rfl⟩ | ⟨t', ht', h⟩ | h
      · rcases mem_eraseIdx_or hget ht' with rfl | hrest
        · exact Or.inr (Or.inl ⟨t', List.mem_append_right _ (List.mem_singleton_self _), rfl,
            hwf.write_eq ht' hwrite⟩)
        · exact Or.inl ⟨t', hrest, rfl⟩
      · exact Or.inr (Or.inl ⟨t', List.mem_append_left _ ht', h⟩)
      · exact Or.inr (Or.inr h)

theorem WellFormed.step (hwf : WellFormed s) (h : writerStep s a = some s') : WellFormed s' := by
  obtain ⟨n, -, htasks, hle, rfl⟩ | ⟨i, now, t, -, hget, rfl⟩ | ⟨i, t, -, hget, rfl⟩ :=
    writerStep_cases h
  · exact hwf.batch htasks hle
  · exact hwf.complete hget
  · exact hwf.failAttempt hget

/-- The channel is fixed: a run consumes what was sent. -/
theorem channel_step (h : writerStep s a = some s') : s'.channel = s.channel := by
  obtain ⟨n, -, -, -, rfl⟩ | ⟨i, now, t, -, -, rfl⟩ | ⟨i, t, -, -, rfl⟩ := writerStep_cases h
  · rfl
  · rfl
  · unfold Writer.failAttempt
    split <;> rfl

end Preservation

/-! ### A batch and one put -/

theorem getElem?_newTasks {s : Writer} {n i : ℕ} {write : StorageWrite} (hi : i < n)
    (hget : s.channel[s.received + i]? = some write) :
    (s.newTasks n)[i]? = some ⟨s.received + i, write, 0⟩ := by
  have htaken : ((s.channel.drop s.received).take n)[i]? = some write := by
    rw [List.getElem?_take_of_lt hi, List.getElem?_drop, hget]
  rw [Writer.newTasks, List.getElem?_map, List.getElem?_zipIdx, htaken]
  rfl

/-- Any put of a batch may be the first to end. -/
theorem run_batch_put {s : Writer} {n i : ℕ} {write : StorageWrite} (htasks : s.tasks = [])
    (hle : s.received + n ≤ s.channel.length) (hi : i < n)
    (hget : s.channel[s.received + i]? = some write) (now : DateTime) :
    run writerStep s [.batch n, .put i now] =
      some ({ s with received := s.received + n, tasks := s.newTasks n }.complete i
        ⟨s.received + i, write, 0⟩ now) := by
  have hbatch : writerStep s (.batch n) =
      some { s with received := s.received + n, tasks := s.newTasks n } := by
    rw [writerStep, if_pos ⟨htasks, Nat.zero_lt_of_lt hi, hle⟩]
  rw [run_cons_of_step hbatch, run_cons_of_step _, run_nil]
  rw [writerStep, getElem?_newTasks hi hget, Option.map_some]

end StreamInfa.Storage
