import StreamInfa.Storage.S3

/-!
Deleting by prefix in a bucket (`delete_prefix` in `src/storage/s3.rs`).

A deletion lists the bucket page by page and has the objects of each page deleted before it
requests the next one. The service may fail to delete some of them, which the backend does not
look at. `Deletion.Counts` and `Cleared` are the two halves of what a deletion does: it counts the
paths it came across, and leaves none of them behind.
-/

namespace StreamInfa.Storage

/-- A deletion: about to request a page, about to have the keys of a page deleted, or done. -/
inductive Deletion
  | listing (token : Option Text) (deleted : ℕ)
  | deleting (keys : List Text) (more : Bool) (next : Option Text) (deleted : ℕ)
  | done (result : Except StorageError ℕ)

/-- The end of a round of the loop. -/
def Deletion.goOn (more : Bool) (next : Option Text) (deleted : ℕ) : Deletion :=
  if more then .listing next deleted else .done (.ok deleted)

/-- What a deletion does with a page. -/
def Deletion.page (deleted : ℕ) (output : ListObjectsV2Output) : Deletion :=
  let keys := (output.contents.getD []).filterMap S3Object.key
  let more := output.isTruncated.getD false
  if keys.isEmpty then .goOn more output.nextContinuationToken deleted
  else .deleting keys more output.nextContinuationToken deleted

/-- The service deletes objects, except those in `kept`. -/
def MediaStore.deleteObjects (store : MediaStore) (keys kept : List Text) : MediaStore :=
  (keys.filter fun key => !kept.contains key).foldl (fun store key => store.erase key) store

inductive DeleteAction
  | client (action : ClientAction)
  | answer (output : ListObjectsV2Output)
  | failList (reason : Text)
  | deleted (kept : List Text)
  | failDelete (kept : List Text) (reason : Text)

/-- A request that fails may have deleted some of the objects. -/
def deleteStep (start : Text) (s : S3World Deletion) : DeleteAction → Option (S3World Deletion)
  | .client action => some { s with store := action.apply s.store }
  | .answer output =>
    match s.task with
    | .listing _ deleted => some { s with task := .page deleted output }
    | _ => none
  | .failList reason =>
    match s.task with
    | .listing _ _ => some { s with task := .done (.error (.s3DeleteFailed start reason)) }
    | _ => none
  | .deleted kept =>
    match s.task with
    | .deleting keys more next deleted =>
      some ⟨s.store.deleteObjects keys kept, .goOn more next (deleted + keys.length)⟩
    | _ => none
  | .failDelete kept reason =>
    match s.task with
    | .deleting keys _ _ _ =>
      some ⟨s.store.deleteObjects keys kept, .done (.error (.s3DeleteFailed start reason))⟩
    | _ => none

/-- The service answers the listing requests of a deletion. -/
def DeleteAnswered (position : Text → Text) (start : Text) (s : S3World Deletion) :
    DeleteAction → Prop
  | .answer output => ∀ token deleted, s.task = .listing token deleted →
      Answers position s.store start token output
  | _ => True

/-- What the other users do. -/
def DeleteAction.client? : DeleteAction → Option ClientAction
  | .client action => some action
  | _ => none

/-- What the other users alone make of a bucket. -/
def MediaStore.afterOthers (store : MediaStore) (actions : List DeleteAction) : MediaStore :=
  (actions.filterMap DeleteAction.client?).foldl ClientAction.apply store

theorem lookup_deleteObjects (store : MediaStore) (keys kept : List Text) (path : Text) :
    (store.deleteObjects keys kept).lookup path =
      if path ∈ keys ∧ path ∉ kept then none else store.lookup path := by
  rw [MediaStore.deleteObjects, lookup_foldl_erase]
  refine if_congr ?_ rfl rfl
  simp

section Deletion

variable {position : Text → Text} {start : Text} {stays : Set Text} {seen : Set ObjectInfo}
  {store : MediaStore} {s s' : S3World Deletion} {a : DeleteAction}

/-- Each step of a deletion: the others' or the service's. -/
theorem deleteStep_cases (h : deleteStep start s a = some s') :
    (∃ action, a = .client action ∧ s' = { s with store := action.apply s.store }) ∨
    (∃ token deleted output, s.task = .listing token deleted ∧ a = .answer output ∧
      s' = { s with task := .page deleted output }) ∨
    (∃ keys kept more next deleted, s.task = .deleting keys more next deleted ∧
      a = .deleted kept ∧
        s' = ⟨s.store.deleteObjects keys kept, .goOn more next (deleted + keys.length)⟩) ∨
    (∃ reason, s'.task = .done (.error (.s3DeleteFailed start reason)) ∧ a.client? = none ∧
      (s'.store = s.store ∨ ∃ keys kept more next deleted,
        s.task = .deleting keys more next deleted ∧
          s'.store = s.store.deleteObjects keys kept)) := by
  cases a with
  | client action => exact Or.inl ⟨action, rfl, (Option.some.inj h).symm⟩
  | answer output =>
    rw [deleteStep] at h
    split at h
    · rename_i token deleted htask
      exact Or.inr (Or.inl ⟨token, deleted, output, htask, rfl, (Option.some.inj h).symm⟩)
    · cases h
  | failList reason =>
    rw [deleteStep] at h
    split at h
    · obtain rfl := Option.some.inj h
      exact Or.inr (Or.inr (Or.inr ⟨reason, rfl, rfl, Or.inl rfl⟩))
    · cases h
  | deleted kept =>
    rw [deleteStep] at h
    split at h
    · rename_i keys more next deleted htask
      exact Or.inr (Or.inr (Or.inl
        ⟨keys, kept, more, next, deleted, htask, rfl, (Option.some.inj h).symm⟩))
    · cases h
  | failDelete kept reason =>
    rw [deleteStep] at h
    split at h
    · rename_i keys more next deleted htask
      obtain rfl := Option.some.inj h
      exact Or.inr (Or.inr (Or.inr
        ⟨reason, rfl, rfl, Or.inr ⟨keys, kept, more, next, deleted, htask, rfl⟩⟩))
    · cases h

/-- The paths that a deletion has covered. -/
def Deletion.covered (position : Text → Text) : Deletion → LowerSet Text
  | .listing token _ => upTo (token.map position)
  | .deleting _ more next _ => if more then upTo (next.map position) else ⊤
  | .done _ => ⊤

/-- The keys a deletion is about to have deleted. -/
def Deletion.pending : Deletion → List Text
  | .deleting keys _ _ _ => keys
  | .listing _ _ | .done _ => []

/-- The keys counted by a deletion that has not failed, with those of the page at hand. -/
def Deletion.counted : Deletion → Option ℕ
  | .listing _ deleted => some deleted
  | .deleting keys _ _ deleted => some (deleted + keys.length)
  | .done (.ok deleted) => some deleted
  | .done (.error _) => none

@[simp] theorem Deletion.covered_goOn (position : Text → Text) (more : Bool) (next : Option Text)
    (n : ℕ) : (Deletion.goOn more next n).covered position =
      if more then upTo (next.map position) else ⊤ := by
  cases more <;> rfl

@[simp] theorem Deletion.pending_goOn (more : Bool) (next : Option Text) (n : ℕ) :
    (Deletion.goOn more next n).pending = [] := by
  cases more <;> rfl

@[simp] theorem Deletion.counted_goOn (more : Bool) (next : Option Text) (n : ℕ) :
    (Deletion.goOn more next n).counted = some n := by
  cases more <;> rfl

/-- What a deletion has covered, has at hand and has counted when it has read a page. -/
theorem Deletion.page_spec (position : Text → Text) {output : ListObjectsV2Output}
    {infos : List ObjectInfo} (deleted : ℕ)
    (hcontents : List.Forall₂ Describes (output.contents.getD []) infos) :
    (Deletion.page deleted output).covered position = output.ahead position ∧
      (Deletion.page deleted output).pending = infos.map ObjectInfo.key ∧
      (Deletion.page deleted output).counted = some (deleted + infos.length) := by
  have hkeys := filterMap_key hcontents
  rw [Deletion.page, hkeys]
  cases infos with
  | nil => simp [ListObjectsV2Output.ahead]
  | cons info infos => simp [ListObjectsV2Output.ahead, Deletion.covered, Deletion.pending,
      Deletion.counted]

theorem lookup_of_lookup_deleteObjects {keys kept : List Text} {path : Text}
    {object : StoredObject} (h : (store.deleteObjects keys kept).lookup path = some object) :
    store.lookup path = some object := by
  rw [lookup_deleteObjects] at h
  split at h
  · cases h
  · exact h

theorem mem_deleteObjects {keys kept : List Text} {path : Text} :
    path ∈ store.deleteObjects keys kept ↔ path ∈ store ∧ (path ∈ keys → path ∈ kept) := by
  rw [← AList.lookup_isSome, lookup_deleteObjects, ← AList.lookup_isSome]
  by_cases hdeleted : path ∈ keys ∧ path ∉ kept
  · simp [hdeleted]
  · rw [if_neg hdeleted, iff_self_and]
    exact fun _ hkeys => by_contra fun hkept => hdeleted ⟨hkeys, hkept⟩

/-! ### What a deletion counts -/

/-- A deletion has counted the paths it came across, each once. The paths `stays` are still there
where it has not been. -/
structure Deletion.Counts (position : Text → Text) (start : Text) (stays : Set Text)
    (seen : Set ObjectInfo) (s : S3World Deletion) : Prop where
  at_hand : ∀ key ∈ s.task.pending, start <+: key ∧ key ∈ s.task.covered position
  there : ∀ path ∈ stays, path ∉ s.task.covered position → start <+: path ∧ path ∈ s.store
  count : ∀ n, s.task.counted = some n → ∃ read,
    Gathered ObjectInfo.key stays seen (s.task.covered position) read ∧ n = read.length

/-- The other users put nothing but `seen` objects, and leave the paths `stays`. -/
def Respects (start : Text) (stays : Set Text) (seen : Set ObjectInfo) (s : S3World Deletion)
    (a : DeleteAction) : Prop :=
  (∀ info ∈ s.store.listObjects start, info ∈ seen) ∧
    ∀ path ∈ stays, a ≠ .client (.remove path)

theorem Deletion.Counts.initial (position : Text → Text) (seen : Set ObjectInfo)
    (hstays : ∀ path ∈ stays, start <+: path ∧ path ∈ store) :
    Deletion.Counts position start stays seen ⟨store, .listing none 0⟩ where
  at_hand key hkey := absurd hkey List.not_mem_nil
  there path hpath _ := hstays path hpath
  count n hn := by
    obtain rfl := Option.some.inj hn
    exact ⟨[], Gathered.start _ stays seen, rfl⟩

theorem Deletion.Counts.step (h : Deletion.Counts position start stays seen s)
    (hrespects : Respects start stays seen s a) (hanswered : DeleteAnswered position start s a)
    (hstep : deleteStep start s a = some s') :
    Deletion.Counts position start stays seen s' := by
  rcases deleteStep_cases hstep with ⟨action, rfl, rfl⟩ |
    ⟨token, deleted, output, htask, rfl, rfl⟩ |
    ⟨keys, kept, more, next, deleted, htask, rfl, rfl⟩ | ⟨reason, htask, -, -⟩
  · refine ⟨h.at_hand, fun path hpath huncovered => ?_, h.count⟩
    obtain ⟨hstart, hmem⟩ := h.there path hpath huncovered
    refine ⟨hstart, ?_⟩
    cases action with
    | put path' object => exact (AList.mem_insert s.store).mpr (Or.inr hmem)
    | remove path' =>
      have hne : path ≠ path' := by
        rintro rfl
        exact hrespects.2 path hpath rfl
      exact AList.mem_erase.mpr ⟨hne, hmem⟩
  · obtain ⟨infos, hcontents, hpage, -⟩ := (hanswered token deleted htask).isPage
    obtain ⟨hcovered, hpending, hcounted⟩ :=
      Deletion.page_spec position deleted hcontents
    obtain ⟨-, hthere, hcount⟩ := h
    rw [htask] at hthere hcount
    obtain ⟨read, hgathered, rfl⟩ := hcount deleted rfl
    refine ⟨fun key hkey => ?_, fun path hpath huncovered => ?_, fun n hn => ?_⟩
    · rw [hpending] at hkey
      obtain ⟨info, hinfo, rfl⟩ := List.mem_map.mp hkey
      obtain ⟨hlisted, -, hafter⟩ := (hpage.mem_iff info).mp hinfo
      exact ⟨(mem_listObjects.mp hlisted).1, hcovered ▸ hafter⟩
    · rw [hcovered] at huncovered
      exact hthere path hpath fun hbefore => huncovered (hpage.le hbefore)
    · rw [hcounted, Option.some.injEq] at hn
      refine ⟨read ++ infos, ?_, by rw [← hn, List.length_append]⟩
      rw [hcovered]
      refine hgathered.append hpage (fun path hpath huncovered => ?_) hrespects.1
      exact exists_info_of_mem (hthere path hpath huncovered).1 (hthere path hpath huncovered).2
  · obtain ⟨hhand, hthere, hcount⟩ := h
    rw [htask] at hhand hthere hcount
    refine ⟨?_, ?_, ?_⟩
    · rw [Deletion.pending_goOn]
      exact fun key hkey => absurd hkey List.not_mem_nil
    · rw [Deletion.covered_goOn]
      intro path hpath huncovered
      obtain ⟨hstart, hmem⟩ := hthere path hpath huncovered
      exact ⟨hstart, mem_deleteObjects.mpr
        ⟨hmem, fun hkey => absurd (hhand path hkey).2 huncovered⟩⟩
    · rw [Deletion.covered_goOn, Deletion.counted_goOn]
      exact hcount
  · refine ⟨?_, ?_, ?_⟩
    · rw [htask]
      exact fun key hkey => absurd hkey List.not_mem_nil
    · rw [htask]
      exact fun path _ huncovered => absurd LowerSet.mem_top huncovered
    · rw [htask]
      intro n hn
      cases hn

/-! ### What a deletion leaves -/

/-- An object put by nobody while the deletion runs, and not kept by the service, is gone as soon
as the deletion has covered its path and the objects at hand are deleted. -/
def Cleared (position : Text → Text) (path : Text) (s : S3World Deletion) : Prop :=
  s.task.counted ≠ none → path ∈ s.task.covered position → path ∉ s.task.pending →
    s.store.lookup path = none

/-- An action that neither puts an object nor says that it was kept. -/
def LetsGo (path : Text) : DeleteAction → Prop
  | .client (.put path' _) => path' ≠ path
  | .deleted kept => path ∉ kept
  | _ => True

theorem Cleared.step {path : Text} (h : Cleared position path s) (hstart : start <+: path)
    (hletsGo : LetsGo path a) (hanswered : DeleteAnswered position start s a)
    (hstep : deleteStep start s a = some s') : Cleared position path s' := by
  rcases deleteStep_cases hstep with ⟨action, rfl, rfl⟩ |
    ⟨token, deleted, output, htask, rfl, rfl⟩ |
    ⟨keys, kept, more, next, deleted, htask, rfl, rfl⟩ | ⟨reason, htask, -, -⟩
  · intro hcounted hcovered hpending
    have hgone := h hcounted hcovered hpending
    cases action with
    | put path' object => exact (AList.lookup_insert_ne (Ne.symm hletsGo)).trans hgone
    | remove path' =>
      have hnot := AList.lookup_eq_none.mp hgone
      exact AList.lookup_eq_none.mpr fun hmem => hnot (AList.mem_erase.mp hmem).2
  · obtain ⟨infos, hcontents, hpage, -⟩ := (hanswered token deleted htask).isPage
    obtain ⟨hcovered, hpending, -⟩ :=
      Deletion.page_spec position deleted hcontents
    rw [Cleared, htask] at h
    intro _ hafter hnot
    rw [hcovered] at hafter
    rw [hpending] at hnot
    by_cases hbefore : path ∈ upTo (token.map position)
    · exact h (Option.some_ne_none _) hbefore List.not_mem_nil
    · rw [AList.lookup_eq_none]
      intro hmem
      obtain ⟨info, hinfo, rfl⟩ := exists_info_of_mem hstart hmem
      exact hnot (List.mem_map_of_mem ((hpage.mem_iff info).mpr ⟨hinfo, hbefore, hafter⟩))
  · rw [Cleared, htask] at h
    intro _ hcovered _
    rw [Deletion.covered_goOn] at hcovered
    rw [lookup_deleteObjects]
    split
    · rfl
    · rename_i hkept
      exact h (Option.some_ne_none _) hcovered fun hkey => hkept ⟨hkey, hletsGo⟩
  · intro hcounted
    rw [htask] at hcounted
    exact absurd rfl hcounted

/-! ### What a deletion leaves alone -/

theorem ClientAction.lookup_apply_congr {store store' : MediaStore} {path : Text}
    (h : store.lookup path = store'.lookup path) (action : ClientAction) :
    (action.apply store).lookup path = (action.apply store').lookup path := by
  cases action with
  | put path' object =>
    rw [ClientAction.apply, ClientAction.apply]
    by_cases hpath : path = path'
    · rw [hpath, AList.lookup_insert, AList.lookup_insert]
    · rw [AList.lookup_insert_ne hpath, AList.lookup_insert_ne hpath, h]
  | remove path' =>
    rw [ClientAction.apply, ClientAction.apply]
    by_cases hpath : path = path'
    · rw [hpath, AList.lookup_erase, AList.lookup_erase]
    · rw [AList.lookup_erase_ne hpath, AList.lookup_erase_ne hpath, h]

/-- Of what it does not have at hand, a step leaves what the others make of it. -/
theorem lookup_of_step {path : Text} (hhand : path ∉ s.task.pending)
    (hstep : deleteStep start s a = some s') :
    s'.store.lookup path = (s.store.afterOthers [a]).lookup path := by
  rcases deleteStep_cases hstep with ⟨action, rfl, rfl⟩ |
    ⟨token, deleted, output, htask, rfl, rfl⟩ |
    ⟨keys, kept, more, next, deleted, htask, rfl, rfl⟩ | ⟨reason, htask, hclient, hstore⟩
  · rfl
  · rfl
  · rw [htask] at hhand
    rw [lookup_deleteObjects, if_neg fun h => hhand h.1]
    rfl
  · rw [MediaStore.afterOthers, List.filterMap_cons_none hclient]
    rcases hstore with hstore | ⟨keys, kept, more, next, deleted, hdeleting, hstore⟩
    · rw [hstore]
      rfl
    · rw [hdeleting] at hhand
      rw [hstore, lookup_deleteObjects, if_neg fun h => hhand h.1]
      rfl

theorem afterOthers_append (store : MediaStore) (actions actions' : List DeleteAction) :
    store.afterOthers (actions ++ actions') =
      (store.afterOthers actions).afterOthers actions' := by
  rw [MediaStore.afterOthers, List.filterMap_append, List.foldl_append]
  rfl

theorem lookup_afterOthers_congr {store store' : MediaStore} {path : Text}
    (h : store.lookup path = store'.lookup path) (actions : List DeleteAction) :
    (store.afterOthers actions).lookup path = (store'.afterOthers actions).lookup path := by
  rw [MediaStore.afterOthers, MediaStore.afterOthers]
  induction actions.filterMap DeleteAction.client? generalizing store store' with
  | nil => exact h
  | cons action rest ih => exact ih (ClientAction.lookup_apply_congr h action)

/-! ### Whole runs -/

section Runs

variable {actions : List DeleteAction} {t : S3World Deletion}

theorem counts_of_run
    (hanswered : Meets (deleteStep start) (DeleteAnswered position start)
      ⟨store, .listing none 0⟩ actions)
    (hstays : ∀ path ∈ stays, start <+: path ∧ path ∈ store ∧
      DeleteAction.client (.remove path) ∉ actions)
    (hseen : ∀ n t, run (deleteStep start) ⟨store, .listing none 0⟩ (actions.take n) = some t →
      ∀ info ∈ t.store.listObjects start, info ∈ seen)
    (hrun : run (deleteStep start) ⟨store, .listing none 0⟩ actions = some t) :
    Deletion.Counts position start stays seen t := by
  have hothers : Meets (deleteStep start) (fun _ a => ∀ path ∈ stays, a ≠ .client (.remove path))
      ⟨store, .listing none 0⟩ actions := by
    refine meets_of_forall fun a ha _ path hpath heq => ?_
    rw [heq] at ha
    exact (hstays path hpath).2.2 ha
  exact run_invariant_of_meets (fun _ _ _ h hok hstep => h.step ⟨hok.2.1, hok.2.2⟩ hok.1 hstep)
    (.initial position seen fun path hpath => ⟨(hstays path hpath).1, (hstays path hpath).2.1⟩)
    (hanswered.and ((meets_of_reached hseen).and hothers)) hrun

/-- What a run says of the paths with another beginning. -/
theorem lookup_outside_of_run {path : Text}
    (hanswered : Meets (deleteStep start) (DeleteAnswered position start)
      ⟨store, .listing none 0⟩ actions)
    (hrun : run (deleteStep start) ⟨store, .listing none 0⟩ actions = some t)
    (hout : ¬ start <+: path) :
    t.store.lookup path = (store.afterOthers actions).lookup path := by
  refine (run_history_of_meets
    (I := fun done t => Deletion.Counts position start ∅ Set.univ t ∧
      t.store.lookup path = (store.afterOthers done).lookup path)
    (fun done c a c' _ h hok hstep => ⟨?_, ?_⟩)
    ⟨.initial position _ fun path hpath => absurd hpath (Set.notMem_empty path), rfl⟩
    hanswered hrun).2
  · refine h.1.step ⟨fun info _ => Set.mem_univ info, fun path hpath => ?_⟩ hok hstep
    exact absurd hpath (Set.notMem_empty path)
  · rw [lookup_of_step (fun hhand => hout (h.1.at_hand path hhand).1) hstep, afterOthers_append,
      lookup_afterOthers_congr h.2]

theorem cleared_of_run {path : Text}
    (hanswered : Meets (deleteStep start) (DeleteAnswered position start)
      ⟨store, .listing none 0⟩ actions)
    (hrun : run (deleteStep start) ⟨store, .listing none 0⟩ actions = some t)
    (hstart : start <+: path) (hletsGo : ∀ a ∈ actions, LetsGo path a) :
    Cleared position path t := by
  refine run_invariant_of_meets (fun _ _ _ h hok hstep => h.step hstart hok.2 hok.1 hstep) ?_
    (hanswered.and (meets_of_forall fun a ha _ => hletsGo a ha)) hrun
  intro _ hcovered
  exact False.elim hcovered

/-- A bucket that the others leave alone gets no objects from a deletion. -/
theorem lookup_of_quiet {path : Text} {object : StoredObject}
    (hquiet : ∀ action, DeleteAction.client action ∉ actions)
    (hrun : run (deleteStep start) s actions = some t)
    (hlookup : t.store.lookup path = some object) : s.store.lookup path = some object := by
  have hmeets : Meets (deleteStep start) (fun _ a => ∀ action, a ≠ .client action) s actions := by
    refine meets_of_forall fun a ha _ action heq => ?_
    rw [heq] at ha
    exact hquiet action ha
  refine run_invariant_of_meets
    (I := fun t => t.store.lookup path = some object → s.store.lookup path = some object)
    (fun c a c' hc hok hstep hlookup => hc ?_) id hmeets hrun hlookup
  rcases deleteStep_cases hstep with ⟨action, rfl, -⟩ |
    ⟨token, deleted, output, htask, rfl, rfl⟩ |
    ⟨keys, kept, more, next, deleted, htask, rfl, rfl⟩ | ⟨reason, htask, -, hstore⟩
  · exact absurd rfl (hok action)
  · exact hlookup
  · exact lookup_of_lookup_deleteObjects hlookup
  · rcases hstore with hstore | ⟨keys, kept, more, next, deleted, -, hstore⟩
    · rwa [hstore] at hlookup
    · rw [hstore] at hlookup
      exact lookup_of_lookup_deleteObjects hlookup

theorem count_of_quiet {n : ℕ} (hquiet : ∀ action, DeleteAction.client action ∉ actions)
    (hanswered : Meets (deleteStep start) (DeleteAnswered position start)
      ⟨store, .listing none 0⟩ actions)
    (hrun : run (deleteStep start) ⟨store, .listing none 0⟩ actions = some t)
    (hdone : t.task = .done (.ok n)) : n = (store.listObjects start).length := by
  have hseen : ∀ m t, run (deleteStep start) ⟨store, .listing none 0⟩ (actions.take m) = some t →
      ∀ info ∈ t.store.listObjects start, info ∈ {info | info ∈ store.listObjects start} := by
    intro m t ht info hinfo
    obtain ⟨hstart, object, hobject, heq⟩ := mem_listObjects.mp hinfo
    have hkept := lookup_of_quiet
      (fun action hmem => hquiet action (List.mem_of_mem_take hmem)) ht hobject
    exact mem_listObjects.mpr ⟨hstart, object, hkept, heq⟩
  have hcounts : Deletion.Counts position start {path | start <+: path ∧ path ∈ store}
      {info | info ∈ store.listObjects start} t :=
    counts_of_run hanswered (fun path hpath => ⟨hpath.1, hpath.2, hquiet _⟩) hseen hrun
  obtain ⟨-, -, hcount⟩ := hcounts
  rw [hdone] at hcount
  obtain ⟨infos, hgathered, rfl⟩ := hcount n rfl
  have hall : infos = store.listObjects start := by
    refine hgathered.eq_of_quiet (pairwise_listObjects store start) (fun info hinfo => ?_)
      fun info hinfo => hinfo
    obtain ⟨hstart, object, hobject, -⟩ := mem_listObjects.mp hinfo
    exact ⟨hstart, AList.lookup_isSome.mp (Option.isSome_iff_exists.mpr ⟨object, hobject⟩)⟩
  rw [hall]

theorem afterOthers_of_quiet (hquiet : ∀ action, DeleteAction.client action ∉ actions) :
    store.afterOthers actions = store := by
  have hnone : actions.filterMap DeleteAction.client? = [] := by
    refine List.filterMap_eq_nil_iff.mpr fun a ha => ?_
    cases a with
    | client action => exact absurd ha (hquiet action)
    | answer output => rfl
    | failList reason => rfl
    | deleted kept => rfl
    | failDelete kept reason => rfl
  rw [MediaStore.afterOthers, hnone, List.foldl_nil]

/-- Where the service keeps nothing, a deletion that runs alone is that of the plain store. -/
theorem lookup_deletePrefix_of_quiet {n : ℕ} (path : Text)
    (hquiet : ∀ action, DeleteAction.client action ∉ actions)
    (hkept : ∀ kept, DeleteAction.deleted kept ∈ actions → kept = [])
    (hanswered : Meets (deleteStep start) (DeleteAnswered position start)
      ⟨store, .listing none 0⟩ actions)
    (hrun : run (deleteStep start) ⟨store, .listing none 0⟩ actions = some t)
    (hdone : t.task = .done (.ok n)) :
    t.store.lookup path = (store.deletePrefix start []).lookup path := by
  rw [lookup_deletePrefix]
  by_cases hstart : start <+: path
  · rw [if_pos ⟨hstart, List.not_mem_nil⟩]
    have hcleared : Cleared position path t := by
      refine cleared_of_run hanswered hrun hstart fun a ha => ?_
      cases a with
      | client action => exact absurd ha (hquiet action)
      | deleted kept =>
        rw [LetsGo, hkept kept ha]
        exact List.not_mem_nil
      | answer output => trivial
      | failList reason => trivial
      | failDelete kept reason => trivial
    rw [Cleared, hdone] at hcleared
    exact hcleared (Option.some_ne_none n) LowerSet.mem_top List.not_mem_nil
  · rw [if_neg fun h => hstart h.1, lookup_outside_of_run hanswered hrun hstart,
      afterOthers_of_quiet hquiet]

/-- A deletion leaves the paths with another beginning as the other users alone would leave them.
When it succeeds, no object under its prefix is left that nobody put while it ran and the service
did not keep. It returns the number of paths it came across, kept or not: each is counted once, was
there at some time, and those there from the beginning are counted unless others removed them. When
the others leave the bucket alone, that is the number of objects under the prefix. -/
theorem delete_prefix_clears
    (hanswered : Meets (deleteStep start) (DeleteAnswered position start)
      ⟨store, .listing none 0⟩ actions)
    (hrun : run (deleteStep start) ⟨store, .listing none 0⟩ actions = some t) :
    (∀ path, ¬ start <+: path → t.store.lookup path = (store.afterOthers actions).lookup path) ∧
      ∀ n, t.task = .done (.ok n) →
        (∀ path, start <+: path → (∀ a ∈ actions, LetsGo path a) →
          t.store.lookup path = none) ∧
        (∃ infos : List ObjectInfo, infos.length = n ∧
          (infos.Pairwise fun a b => a.key < b.key) ∧
          (∀ info ∈ infos, ∃ m t,
            run (deleteStep start) ⟨store, .listing none 0⟩ (actions.take m) = some t ∧
              info ∈ t.store.listObjects start) ∧
          ∀ path ∈ store, start <+: path → DeleteAction.client (.remove path) ∉ actions →
            ∃ info ∈ infos, info.key = path) ∧
        ((∀ action, DeleteAction.client action ∉ actions) →
          n = (store.listObjects start).length ∧
            ((∀ kept, DeleteAction.deleted kept ∈ actions → kept = []) →
              ∀ path, t.store.lookup path = (store.deletePrefix start []).lookup path)) := by
  refine ⟨fun path hout => lookup_outside_of_run hanswered hrun hout, fun n hdone => ⟨?_, ?_, ?_⟩⟩
  · intro path hstart hletsGo
    have hcleared := cleared_of_run hanswered hrun hstart hletsGo
    rw [Cleared, hdone] at hcleared
    exact hcleared (Option.some_ne_none n) LowerSet.mem_top List.not_mem_nil
  · have hcounts : Deletion.Counts position start
        {path | start <+: path ∧ path ∈ store ∧ DeleteAction.client (.remove path) ∉ actions}
        {info | ∃ m t,
          run (deleteStep start) ⟨store, .listing none 0⟩ (actions.take m) = some t ∧
            info ∈ t.store.listObjects start} t :=
      counts_of_run hanswered (fun path hpath => hpath)
        (fun m t ht info hinfo => ⟨m, t, ht, hinfo⟩) hrun
    obtain ⟨-, -, hcount⟩ := hcounts
    rw [hdone] at hcount
    obtain ⟨infos, hgathered, hn⟩ := hcount n rfl
    exact ⟨infos, hn.symm, hgathered.ascending, hgathered.genuine,
      fun path hmem hstart hstays => hgathered.complete path ⟨hstart, hmem, hstays⟩ trivial⟩
  · exact fun hquiet => ⟨count_of_quiet hquiet hanswered hrun hdone, fun hkept path =>
      lookup_deletePrefix_of_quiet path hquiet hkept hanswered hrun hdone⟩

/-- Two pages. Between them others put an object before the second page and one on it, which the
service then keeps. -/
def interrupted : List DeleteAction :=
  [.answer ⟨some [⟨some "a".toList, some 2, some ⟨0⟩⟩], some true, some "a".toList⟩,
    .deleted [],
    .client (.put "a".toList ⟨[1, 2], [], ⟨0⟩⟩),
    .client (.put "c".toList ⟨[1, 2], [], ⟨0⟩⟩),
    .answer ⟨some [⟨some "b".toList, some 2, some ⟨0⟩⟩, ⟨some "c".toList, some 2, some ⟨0⟩⟩],
      none, none⟩,
    .deleted ["c".toList]]

theorem delete_prefix_clears_interrupted :
    ∃ t, run (deleteStep []) ⟨twoObjects, .listing none 0⟩ interrupted = some t ∧
      t.task = .done (.ok 3) ∧ t.store.lookup "b".toList = none := by
  have hsize : (2 : Int64).toInt = (2 : ℕ) := by decide
  have hanswered : Meets (deleteStep []) (DeleteAnswered id []) ⟨twoObjects, .listing none 0⟩
      interrupted := by
    refine ⟨?_, fun s' hs' => ⟨trivial, fun s'' hs'' => ⟨trivial, fun s₃ hs₃ => ⟨trivial,
      fun s₄ hs₄ => ⟨?_, fun _ _ => ⟨trivial, fun _ _ => trivial⟩⟩⟩⟩⟩⟩
    · rintro token deleted ⟨⟩
      exact .more 1 ⟨"a".toList, 2, ⟨0⟩⟩ "a".toList (.cons ⟨rfl, rfl, 2, rfl, hsize⟩ .nil) rfl rfl
        rfl rfl
    · obtain rfl := Option.some.inj hs'
      obtain rfl := Option.some.inj hs''
      obtain rfl := Option.some.inj hs₃
      obtain rfl := Option.some.inj hs₄
      rintro token deleted ⟨⟩
      exact .last (.cons ⟨rfl, rfl, 2, rfl, hsize⟩ (.cons ⟨rfl, rfl, 2, rfl, hsize⟩ .nil))
        (by decide)
  refine ⟨_, rfl, rfl, ?_⟩
  apply ((delete_prefix_clears hanswered rfl).2 3 rfl).1 "b".toList List.nil_prefix
  intro a ha
  simp only [interrupted, List.mem_cons, List.not_mem_nil, or_false] at ha
  rcases ha with rfl | rfl | rfl | rfl | rfl | rfl <;> simp [LetsGo]

end Runs

end Deletion

end StreamInfa.Storage
