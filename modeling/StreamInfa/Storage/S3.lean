import StreamInfa.Lib.Paging
import StreamInfa.Lib.Run
import StreamInfa.Storage.Objects

/-!
Listing a bucket (`list_objects` in `src/storage/s3.rs`).

The S3 backend lists a bucket page by page, while the other users of the bucket go on writing
to it. `Answers` is what the service says of a page: it lists the objects behind the
continuation token in the order of their paths, and hands out a token for what is behind the
page. `gathered_of_run` is what a listing then has, whatever the others do in the meantime.
-/

namespace StreamInfa.Storage

/-! ### The service -/

/-- An object on a page of a listing. -/
structure S3Object where
  key : Option Text
  size : Option Int64
  lastModified : Option DateTime
deriving DecidableEq

/-- A page of a listing. -/
structure ListObjectsV2Output where
  contents : Option (List S3Object)
  isTruncated : Option Bool
  nextContinuationToken : Option Text
deriving DecidableEq

/-- What the other users of a bucket do to it. -/
inductive ClientAction
  | put (path : Text) (object : StoredObject)
  | remove (path : Text)

def ClientAction.apply (store : MediaStore) : ClientAction → MediaStore
  | .put path object => store.insert path object
  | .remove path => store.erase path

/-- A bucket, and a task that works on it through the service. -/
structure S3World (τ : Type) where
  store : MediaStore
  task : τ

/-- A page says of an object what a listing has of it. -/
def Describes (obj : S3Object) (info : ObjectInfo) : Prop :=
  obj.key = some info.key ∧ obj.lastModified = some info.lastModified ∧
    ∃ size, obj.size = some size ∧ size.toInt = info.size

/-- The service's answer to a request for the objects behind a token. It may have any number of
them; if it does not have all, it has some, and its token stands for the path of the last. -/
inductive Answers (position : Text → Text) (store : MediaStore) (start : Text)
    (token : Option Text) (output : ListObjectsV2Output) : Prop
  | more (n : ℕ) (last : ObjectInfo) (next : Text)
      (contents : List.Forall₂ Describes (output.contents.getD [])
        ((behind ObjectInfo.key (token.map position) (store.listObjects start)).take n))
      (truncated : output.isTruncated = some true)
      (isLast : ((behind ObjectInfo.key (token.map position)
        (store.listObjects start)).take n).getLast? = some last)
      (isNext : output.nextContinuationToken = some next) (standsFor : position next = last.key)
  | last
      (contents : List.Forall₂ Describes (output.contents.getD [])
        (behind ObjectInfo.key (token.map position) (store.listObjects start)))
      (complete : output.isTruncated ≠ some true)

theorem exists_info_of_mem {store : MediaStore} {start path : Text} (hstart : start <+: path)
    (hmem : path ∈ store) : ∃ info ∈ store.listObjects start, info.key = path := by
  obtain ⟨object, hobject⟩ := Option.isSome_iff_exists.mp (AList.lookup_isSome.mpr hmem)
  exact ⟨objectInfo path object, mem_listObjects.mpr ⟨hstart, object, hobject, rfl⟩, rfl⟩

/-! ### Listing -/

/-- The backend's account of an object on a page. -/
def S3Object.info (now : DateTime) (obj : S3Object) : ObjectInfo where
  key := obj.key.getD []
  size := (obj.size.getD 0).toUInt64.toNat
  lastModified := obj.lastModified.getD now

/-- A listing: about to request a page, or done. -/
inductive Listing
  | requesting (token : Option Text) (objects : List ObjectInfo)
  | done (result : Except StorageError (List ObjectInfo))

/-- What a listing does with a page. -/
def Listing.page (objects : List ObjectInfo) (output : ListObjectsV2Output) (now : DateTime) :
    Listing :=
  let objects := objects ++ (output.contents.getD []).map (S3Object.info now)
  if output.isTruncated.getD false then .requesting output.nextContinuationToken objects
  else .done (.ok objects)

inductive ListAction
  | client (action : ClientAction)
  | answer (output : ListObjectsV2Output) (now : DateTime)
  | fail (reason : Text)

def listStep (start : Text) (s : S3World Listing) : ListAction → Option (S3World Listing)
  | .client action => some { s with store := action.apply s.store }
  | .answer output now =>
    match s.task with
    | .requesting _ objects => some { s with task := .page objects output now }
    | .done _ => none
  | .fail reason =>
    match s.task with
    | .requesting _ _ => some { s with task := .done (.error (.s3GetFailed start reason)) }
    | .done _ => none

/-- The service answers the requests of a listing. -/
def ListAnswered (position : Text → Text) (start : Text) (s : S3World Listing) :
    ListAction → Prop
  | .answer output _ => ∀ token objects, s.task = .requesting token objects →
      Answers position s.store start token output
  | _ => True

/-- A request for a page. -/
def ListAction.isAnswer : ListAction → Bool
  | .answer _ _ => true
  | _ => false

/-! ### Reading a page -/

theorem S3Object.info_of_describes {obj : S3Object} {info : ObjectInfo} (now : DateTime)
    (h : Describes obj info) : obj.info now = info := by
  obtain ⟨hkey, hmodified, size, hsize, hnat⟩ := h
  have hsize' : size.toUInt64.toNat = info.size := by
    have hle : 0 ≤ size := by
      rw [Int64.le_iff_toInt_le, hnat]
      exact Int.natCast_nonneg info.size
    rw [Int64.toNat_toUInt64_of_le hle, Int64.toNatClampNeg, hnat, Int.toNat_natCast]
  rw [S3Object.info, hkey, hmodified, hsize, Option.getD_some, Option.getD_some, Option.getD_some,
    hsize']

theorem map_info {contents : List S3Object} {infos : List ObjectInfo} (now : DateTime)
    (h : List.Forall₂ Describes contents infos) : contents.map (S3Object.info now) = infos := by
  induction h with
  | nil => rfl
  | cons hdescribes _ ih => rw [List.map_cons, S3Object.info_of_describes now hdescribes, ih]

theorem filterMap_key {contents : List S3Object} {infos : List ObjectInfo}
    (h : List.Forall₂ Describes contents infos) :
    contents.filterMap S3Object.key = infos.map ObjectInfo.key := by
  induction h with
  | nil => rfl
  | cons hdescribes _ ih => rw [List.filterMap_cons_some hdescribes.1, List.map_cons, ih]

section Listing

variable {position : Text → Text} {start : Text} {stays : Set Text} {seen : Set ObjectInfo}
  {store : MediaStore} {token : Option Text} {objects : List ObjectInfo}
  {output : ListObjectsV2Output}

/-- The paths that a listing has covered when it has read an answer. -/
def ListObjectsV2Output.ahead (position : Text → Text) (output : ListObjectsV2Output) :
    LowerSet Text :=
  if output.isTruncated.getD false then upTo (output.nextContinuationToken.map position) else ⊤

/-- The service's answer is a page of the bucket's listing. It is not empty, unless it is the
last. -/
theorem Answers.isPage (h : Answers position store start token output) :
    ∃ infos, List.Forall₂ Describes (output.contents.getD []) infos ∧
      IsPage ObjectInfo.key (store.listObjects start) (upTo (token.map position))
        (output.ahead position) infos ∧
      (output.isTruncated.getD false = true → 0 < infos.length) := by
  have hasc := pairwise_listObjects store start
  cases h with
  | more n last next contents truncated isLast isNext standsFor =>
    have hahead : output.ahead position = upTo (some last.key) := by
      simp [ListObjectsV2Output.ahead, truncated, isNext, standsFor]
    refine ⟨_, contents, ?_, fun _ => List.length_pos_of_mem (List.mem_of_getLast? isLast)⟩
    rw [hahead]
    exact isPage_take hasc isLast
  | last contents complete =>
    have hfalse : output.isTruncated.getD false = false := by
      cases htruncated : output.isTruncated with
      | none => rfl
      | some truncated =>
        cases truncated with
        | false => rfl
        | true => exact absurd htruncated complete
    refine ⟨_, contents, ?_, fun htrue => ?_⟩
    · rw [ListObjectsV2Output.ahead, hfalse]
      exact isPage_behind hasc
    · rw [hfalse] at htrue
      cases htrue

/-- The paths `stays` are in the bucket, and its objects are among `seen`. -/
def Spans (start : Text) (stays : Set Text) (seen : Set ObjectInfo) (store : MediaStore) : Prop :=
  (∀ path ∈ stays, ∃ info ∈ store.listObjects start, info.key = path) ∧
    ∀ info ∈ store.listObjects start, info ∈ seen

/-- What a listing has after some requests. It has no fewer objects than it has requested pages,
but for the last page. -/
def Listing.Has (position : Text → Text) (stays : Set Text) (seen : Set ObjectInfo)
    (requests : ℕ) : Listing → Prop
  | .requesting token objects => requests ≤ objects.length ∧
      Gathered ObjectInfo.key stays seen (upTo (token.map position)) objects
  | .done (.ok objects) => requests ≤ objects.length + 1 ∧
      Gathered ObjectInfo.key stays seen ⊤ objects
  | .done (.error _) => True

theorem Listing.Has.page {requests : ℕ}
    (h : (Listing.requesting token objects).Has position stays seen requests)
    (hstore : Spans start stays seen store)
    (hanswer : Answers position store start token output) (now : DateTime) :
    (Listing.page objects output now).Has position stays seen (requests + 1) := by
  obtain ⟨hrequests, hgathered⟩ := h
  obtain ⟨infos, hcontents, hpage, hmore⟩ := hanswer.isPage
  have hread := hgathered.append hpage (fun path hpath _ => hstore.1 path hpath) hstore.2
  rw [Listing.page, map_info now hcontents]
  rw [ListObjectsV2Output.ahead] at hread
  by_cases htruncated : output.isTruncated.getD false = true
  · rw [if_pos htruncated] at hread
    rw [if_pos htruncated]
    refine ⟨?_, hread⟩
    rw [List.length_append]
    exact Nat.add_le_add hrequests (hmore htruncated)
  · rw [if_neg htruncated] at hread
    rw [if_neg htruncated]
    refine ⟨?_, hread⟩
    rw [List.length_append]
    omega

theorem Listing.Has.step {s s' : S3World Listing} {a : ListAction} {requests : ℕ}
    (h : s.task.Has position stays seen requests) (hstore : Spans start stays seen s.store)
    (hanswered : ListAnswered position start s a) (hstep : listStep start s a = some s') :
    s'.task.Has position stays seen (requests + if a.isAnswer then 1 else 0) := by
  cases a with
  | client action =>
    obtain rfl := Option.some.inj hstep
    exact h
  | answer output now =>
    rw [listStep] at hstep
    split at hstep
    · rename_i token objects htask
      obtain rfl := Option.some.inj hstep
      rw [htask] at h
      exact h.page hstore (hanswered token objects htask) now
    · cases hstep
  | fail reason =>
    rw [listStep] at hstep
    split at hstep
    · obtain rfl := Option.some.inj hstep
      trivial
    · cases hstep

/-- A listing has what its pages gathered, whatever the other users do in the meantime. -/
theorem has_of_run {actions : List ListAction} {s : S3World Listing}
    (hanswered : Meets (listStep start) (ListAnswered position start)
      ⟨store, .requesting none []⟩ actions)
    (hspans : ∀ n t, run (listStep start) ⟨store, .requesting none []⟩ (actions.take n) = some t →
      Spans start stays seen t.store)
    (hrun : run (listStep start) ⟨store, .requesting none []⟩ actions = some s) :
    s.task.Has position stays seen (actions.countP ListAction.isAnswer) := by
  refine run_history_of_meets
    (I := fun done s => s.task.Has position stays seen (done.countP ListAction.isAnswer))
    (fun done c a c' _ h hok hstep => ?_) ⟨Nat.le_refl 0, Gathered.start _ stays seen⟩
    (hanswered.and (meets_of_reached hspans)) hrun
  rw [List.countP_append, List.countP_singleton]
  exact h.step hok.2 hok.1 hstep

/-- A bucket that the others leave alone does not change under a listing. -/
theorem store_of_quiet {actions : List ListAction} {s t : S3World Listing}
    (hquiet : ∀ action, ListAction.client action ∉ actions)
    (hrun : run (listStep start) s actions = some t) : t.store = s.store := by
  have hmeets : Meets (listStep start) (fun _ a => ∀ action, a ≠ .client action) s actions := by
    refine meets_of_forall fun a ha _ action heq => ?_
    rw [heq] at ha
    exact hquiet action ha
  refine run_invariant_of_meets (I := fun t => t.store = s.store) (fun c a c' hc hok hstep => ?_)
    rfl hmeets hrun
  cases a with
  | client action => exact absurd rfl (hok action)
  | answer output now =>
    rw [listStep] at hstep
    split at hstep
    · obtain rfl := Option.some.inj hstep
      exact hc
    · cases hstep
  | fail reason =>
    rw [listStep] at hstep
    split at hstep
    · obtain rfl := Option.some.inj hstep
      exact hc
    · cases hstep

/-- A listing is in order and names no path twice. It has every object that is there all the time
and none that is there at no time, and it takes no more requests than it has objects, and one.
When the others leave the bucket alone, it is the listing of the bucket. -/
theorem list_objects_gathers {actions : List ListAction} {s : S3World Listing}
    {infos : List ObjectInfo}
    (hanswered : Meets (listStep start) (ListAnswered position start)
      ⟨store, .requesting none []⟩ actions)
    (hrun : run (listStep start) ⟨store, .requesting none []⟩ actions = some s)
    (hdone : s.task = .done (.ok infos)) :
    (infos.Pairwise fun a b => a.key < b.key) ∧
      (∀ path, start <+: path →
        (∀ n t, run (listStep start) ⟨store, .requesting none []⟩ (actions.take n) = some t →
          path ∈ t.store) → ∃ info ∈ infos, info.key = path) ∧
      (∀ info ∈ infos, ∃ n t,
        run (listStep start) ⟨store, .requesting none []⟩ (actions.take n) = some t ∧
          info ∈ t.store.listObjects start) ∧
      actions.countP ListAction.isAnswer ≤ infos.length + 1 ∧
      ((∀ action, ListAction.client action ∉ actions) → infos = store.listObjects start) := by
  have hspans : ∀ n t,
      run (listStep start) ⟨store, .requesting none []⟩ (actions.take n) = some t →
        Spans start {path | start <+: path ∧ ∀ n t,
            run (listStep start) ⟨store, .requesting none []⟩ (actions.take n) = some t →
              path ∈ t.store}
          {info | ∃ n t,
            run (listStep start) ⟨store, .requesting none []⟩ (actions.take n) = some t ∧
              info ∈ t.store.listObjects start} t.store := by
    exact fun n t ht => ⟨fun path hpath => exists_info_of_mem hpath.1 (hpath.2 n t ht),
      fun info hinfo => ⟨n, t, ht, hinfo⟩⟩
  have hhas := has_of_run hanswered hspans hrun
  rw [hdone] at hhas
  obtain ⟨hrequests, hgathered⟩ := hhas
  refine ⟨hgathered.ascending,
    fun path hstart hall => hgathered.complete path ⟨hstart, hall⟩ trivial, hgathered.genuine,
    hrequests, fun hquiet => ?_⟩
  have hstore : ∀ n t,
      run (listStep start) ⟨store, .requesting none []⟩ (actions.take n) = some t →
        t.store = store := fun n t ht =>
    store_of_quiet (fun action hmem => hquiet action (List.mem_of_mem_take hmem)) ht
  refine hgathered.eq_of_quiet (pairwise_listObjects store start) (fun info hinfo => ?_) ?_
  · obtain ⟨hstart, object, hobject, -⟩ := mem_listObjects.mp hinfo
    refine ⟨hstart, fun n t ht => ?_⟩
    rw [hstore n t ht]
    exact AList.lookup_isSome.mp (Option.isSome_iff_exists.mpr ⟨object, hobject⟩)
  · rintro info ⟨n, t, ht, hinfo⟩
    rwa [hstore n t ht] at hinfo

/-- A bucket with two objects. -/
def twoObjects : MediaStore :=
  let object : StoredObject := ⟨[1, 2], "video/mp4".toList, ⟨0⟩⟩
  ((∅ : MediaStore).insert "a".toList object).insert "b".toList object

/-- Two pages, with an object put between them that is on the second. -/
def twoPages : List ListAction :=
  [.answer ⟨some [⟨some "a".toList, some 2, some ⟨0⟩⟩], some true, some "a".toList⟩ ⟨1⟩,
    .client (.put "c".toList ⟨[3], "video/mp4".toList, ⟨1⟩⟩),
    .answer ⟨some [⟨some "b".toList, some 2, some ⟨0⟩⟩, ⟨some "c".toList, some 1, some ⟨1⟩⟩],
      none, none⟩ ⟨2⟩]

/-- What is there all the time is listed. -/
theorem list_objects_gathers_twoPages :
    ∃ s infos, run (listStep []) ⟨twoObjects, .requesting none []⟩ twoPages = some s ∧
      s.task = .done (.ok infos) ∧ (infos.Pairwise fun a b => a.key < b.key) ∧
      ∃ info ∈ infos, info.key = "b".toList := by
  have hone : (1 : Int64).toInt = (1 : ℕ) := by decide
  have htwo : (2 : Int64).toInt = (2 : ℕ) := by decide
  have hanswered : Meets (listStep []) (ListAnswered id []) ⟨twoObjects, .requesting none []⟩
      twoPages := by
    refine ⟨?_, ?_⟩
    · rintro token objects ⟨⟩
      exact .more 1 ⟨"a".toList, 2, ⟨0⟩⟩ "a".toList (.cons ⟨rfl, rfl, 2, rfl, htwo⟩ .nil) rfl rfl
        rfl rfl
    · rintro s ⟨⟩
      refine ⟨trivial, ?_⟩
      rintro s ⟨⟩
      refine ⟨?_, fun _ _ => trivial⟩
      rintro token objects ⟨⟩
      exact .last (.cons ⟨rfl, rfl, 2, rfl, htwo⟩ (.cons ⟨rfl, rfl, 1, rfl, hone⟩ .nil)) (by decide)
  obtain ⟨hascending, hcomplete, -⟩ := list_objects_gathers hanswered rfl rfl
  refine ⟨_, _, rfl, rfl, hascending, hcomplete "b".toList List.nil_prefix fun n t ht => ?_⟩
  match n with
  | 0 => cases ht; decide
  | 1 => cases ht; decide
  | 2 => cases ht; decide
  | n + 3 =>
    rw [List.take_of_length_le (Nat.le_add_left 3 n)] at ht
    cases ht
    decide

end Listing

end StreamInfa.Storage
