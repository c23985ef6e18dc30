import StreamInfa.Package.Paths
import StreamInfa.Storage.LiveCleanup

/-!
The store as a store of named objects.

The backends know paths only. As no two objects share a path, a store says of every
`ObjectName` what is stored under it (`MediaStore.objectAt`), a put changes that for the one
object it names, and a deletion by the prefix of a stream for the objects of that stream.
A listing is in the order of the paths, which has the segments of a rendition in the order of
their numbers. **`objects_of_run`**: after any operations on named objects the reads and the
listings are those of a function on names.
-/

namespace StreamInfa.Storage

open Package

/-- The object stored under a name. -/
def MediaStore.objectAt (store : MediaStore) (o : ObjectName) : Option StoredObject :=
  store.lookup o.path

theorem objectAt_insert (store : MediaStore) (o : ObjectName) (object : StoredObject) :
    MediaStore.objectAt (store.insert o.path object) =
      Function.update store.objectAt o (some object) := by
  funext o'
  by_cases ho : o' = o
  · subst ho
    rw [Function.update_self, MediaStore.objectAt, AList.lookup_insert]
  · rw [Function.update_of_ne ho, MediaStore.objectAt,
      AList.lookup_insert_ne (ObjectName.path_injective.ne ho)]
    rfl

theorem objectAt_putSegment (store : MediaStore) (o : ObjectName) (data : Bytes)
    (contentType : Text) (now : DateTime) :
    (store.putSegment o.path data contentType now).objectAt =
      Function.update store.objectAt o (some ⟨data, contentType, now⟩) :=
  objectAt_insert store o _

theorem objectAt_putManifest (store : MediaStore) (o : ObjectName) (content : Text)
    (now : DateTime) :
    (store.putManifest o.path content now).objectAt = Function.update store.objectAt o
      (some ⟨encodeUtf8 content, "application/vnd.apple.mpegurl".toList, now⟩) :=
  objectAt_insert store o _

theorem objectAt_deleteObject (store : MediaStore) (o : ObjectName) :
    (store.deleteObject o.path).objectAt = Function.update store.objectAt o none := by
  funext o'
  by_cases ho : o' = o
  · subst ho
    rw [Function.update_self, MediaStore.objectAt, MediaStore.deleteObject, AList.lookup_erase]
  · rw [Function.update_of_ne ho, MediaStore.objectAt, MediaStore.deleteObject,
      AList.lookup_erase_ne (ObjectName.path_injective.ne ho)]
    rfl

/-- A deletion of all that a stream has stored leaves every other stream's objects, and those the
backend failed to delete. -/
theorem objectAt_deletePrefix (store : MediaStore) (id : StreamId) (kept : List ObjectName)
    (o : ObjectName) :
    (store.deletePrefix (streamPrefix id) (kept.map ObjectName.path)).objectAt o =
      if o.streamId = streamComponent id ∧ o ∉ kept then none else store.objectAt o := by
  rw [MediaStore.objectAt, lookup_deletePrefix]
  refine if_congr (and_congr (ObjectName.prefix_path_iff (streamComponent id) o) ?_) rfl rfl
  rw [List.mem_map_of_injective ObjectName.path_injective]

/-- A listing ascends, and names no path twice. -/
theorem pairwise_listObjects (store : MediaStore) (start : Text) :
    (store.listObjects start).Pairwise fun a b => a.key < b.key := by
  have htotal : Std.Total fun a b : ObjectInfo => textLe a.key b.key = true := by
    refine ⟨fun a b => ?_⟩
    rw [textLe_iff_le, textLe_iff_le]
    exact le_total a.key b.key
  have htrans : IsTrans ObjectInfo fun a b => textLe a.key b.key = true := by
    refine ⟨fun a b c => ?_⟩
    rw [textLe_iff_le, textLe_iff_le, textLe_iff_le]
    exact le_trans
  have hnodup : (store.listObjects start).Pairwise fun a b => a.key ≠ b.key := by
    rw [MediaStore.listObjects, (List.perm_insertionSort _ _).pairwise_iff fun h => h.symm,
      List.pairwise_map]
    exact (List.pairwise_map.mp store.nodupKeys).filter _
  have hsorted := List.pairwise_insertionSort (fun a b : ObjectInfo => textLe a.key b.key = true)
  refine ((hsorted _).and hnodup).imp fun {a b} h => ?_
  exact lt_of_le_of_ne (textLe_iff_le.mp h.1) h.2

/-- The segments of a rendition are listed in the order of their numbers, up to 999999. -/
theorem segments_ascend_listObjects (store : MediaStore) (start streamId rendition : Text) :
    (store.listObjects start).Pairwise fun a b => ∀ m < 10 ^ 6, ∀ n < 10 ^ 6,
      a.key = segmentPath streamId rendition m → b.key = segmentPath streamId rendition n →
        m < n := by
  refine (pairwise_listObjects store start).imp fun {a b} hlt m hm n hn ha hb => ?_
  rw [ha, hb] at hlt
  exact ((segmentPath_strictMonoOn streamId rendition).lt_iff_lt hm hn).mp hlt

/-! ### Runs -/

/-- An operation of a backend on named objects. -/
inductive StoreOp
  | putSegment (o : ObjectName) (data : Bytes) (contentType : Text) (now : DateTime)
  | putManifest (o : ObjectName) (content : Text) (now : DateTime)
  | deleteObject (o : ObjectName)
  | deletePrefix (id : StreamId) (kept : List ObjectName)

/-- The operation on the paths. -/
def StoreOp.apply (store : MediaStore) : StoreOp → MediaStore
  | .putSegment o data contentType now => store.putSegment o.path data contentType now
  | .putManifest o content now => store.putManifest o.path content now
  | .deleteObject o => store.deleteObject o.path
  | .deletePrefix id kept => store.deletePrefix (streamPrefix id) (kept.map ObjectName.path)

/-- The operation on what is stored under each name. -/
def StoreOp.update (objects : ObjectName → Option StoredObject) :
    StoreOp → ObjectName → Option StoredObject
  | .putSegment o data contentType now =>
    Function.update objects o (some ⟨data, contentType, now⟩)
  | .putManifest o content now => Function.update objects o
      (some ⟨encodeUtf8 content, "application/vnd.apple.mpegurl".toList, now⟩)
  | .deleteObject o => Function.update objects o none
  | .deletePrefix id kept => fun o =>
    if o.streamId = streamComponent id ∧ o ∉ kept then none else objects o

theorem objectAt_apply (store : MediaStore) (op : StoreOp) :
    (op.apply store).objectAt = op.update store.objectAt := by
  cases op with
  | putSegment o data contentType now => exact objectAt_putSegment store o data contentType now
  | putManifest o content now => exact objectAt_putManifest store o content now
  | deleteObject o => exact objectAt_deleteObject store o
  | deletePrefix id kept => exact funext fun o => objectAt_deletePrefix store id kept o

theorem objectAt_run (store : MediaStore) (ops : List StoreOp) :
    (ops.foldl StoreOp.apply store).objectAt = ops.foldl StoreOp.update store.objectAt := by
  induction ops generalizing store with
  | nil => rfl
  | cons op ops ih => rw [List.foldl_cons, List.foldl_cons, ih, objectAt_apply]

/-- Nothing is stored at a path that no object has. -/
def OnlyNamed (store : MediaStore) : Prop :=
  ∀ path object, store.lookup path = some object → ∃ o : ObjectName, o.path = path

theorem OnlyNamed.insert {store : MediaStore} (h : OnlyNamed store) (o : ObjectName)
    (object : StoredObject) : OnlyNamed (store.insert o.path object) := by
  intro path stored hstored
  by_cases hpath : path = o.path
  · exact ⟨o, hpath.symm⟩
  · rw [AList.lookup_insert_ne hpath] at hstored
    exact h path stored hstored

theorem OnlyNamed.apply {store : MediaStore} (h : OnlyNamed store) (op : StoreOp) :
    OnlyNamed (op.apply store) := by
  cases op with
  | putSegment o data contentType now => exact h.insert o _
  | putManifest o content now => exact h.insert o _
  | deleteObject o =>
    exact fun path object hobject => h path object (lookup_of_lookup_deleteObject hobject)
  | deletePrefix id kept =>
    exact fun path object hobject => h path object (lookup_of_lookup_deletePrefix hobject)

theorem onlyNamed_run {store : MediaStore} (h : OnlyNamed store) (ops : List StoreOp) :
    OnlyNamed (ops.foldl StoreOp.apply store) := by
  induction ops generalizing store with
  | nil => exact h
  | cons op ops ih => exact ih (h.apply op)

/-- The listing of a stream has the objects stored under the stream's names. -/
theorem OnlyNamed.mem_listObjects_iff {store : MediaStore} (h : OnlyNamed store) (id : StreamId)
    (info : ObjectInfo) :
    info ∈ store.listObjects (streamPrefix id) ↔ ∃ o object, o.streamId = streamComponent id ∧
      store.objectAt o = some object ∧ info = objectInfo o.path object := by
  rw [mem_listObjects]
  constructor
  · rintro ⟨hstart, object, hobject, hinfo⟩
    obtain ⟨o, ho⟩ := h info.key object hobject
    rw [← ho] at hstart hobject hinfo
    exact ⟨o, object, (ObjectName.prefix_path_iff (streamComponent id) o).mp hstart, hobject, hinfo⟩
  · rintro ⟨o, object, hstream, hobject, rfl⟩
    exact ⟨(ObjectName.prefix_path_iff (streamComponent id) o).mpr hstream, object, hobject, rfl⟩

/-- **The store is a store of named objects.** After any operations on named objects a read of one
returns what was last stored under its name and not deleted since, by itself or with its stream;
the listing of a stream has exactly the stream's objects, in the order of their paths, which for the
segments of a rendition is that of their numbers, up to 999999. -/
theorem objects_of_run (ops : List StoreOp) :
    let store := ops.foldl StoreOp.apply (∅ : MediaStore)
    let objects := ops.foldl StoreOp.update fun _ => none
    (∀ o : ObjectName, store.getObject o.path = match objects o with
      | none => .error (.s3GetFailed o.path "not found".toList)
      | some object => .ok (objectOutput object)) ∧
    (∀ id info, info ∈ store.listObjects (streamPrefix id) ↔
      ∃ o object, o.streamId = streamComponent id ∧ objects o = some object ∧
        info = objectInfo o.path object) ∧
    ∀ start, ((store.listObjects start).Pairwise fun a b => a.key < b.key) ∧
      ∀ streamId rendition, (store.listObjects start).Pairwise fun a b =>
        ∀ m < 10 ^ 6, ∀ n < 10 ^ 6, a.key = segmentPath streamId rendition m →
          b.key = segmentPath streamId rendition n → m < n := by
  intro store objects
  have hobjects : store.objectAt = objects := objectAt_run ∅ ops
  have hnamed : OnlyNamed store :=
    onlyNamed_run (fun path object hobject => by simp at hobject) ops
  refine ⟨fun o => ?_, fun id info => ?_, fun start =>
    ⟨pairwise_listObjects store start, segments_ascend_listObjects store start⟩⟩
  · rw [← hobjects, MediaStore.getObject]
    rfl
  · rw [← hobjects]
    exact hnamed.mem_listObjects_iff id info

end StreamInfa.Storage
