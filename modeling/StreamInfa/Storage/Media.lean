import StreamInfa.Core.Error
import StreamInfa.Lib.Map

/-!
Object storage (`src/storage/mod.rs`, `src/storage/memory.rs`).

The store is the map of the in-memory backend: a put replaces the object at its
path. A deletion by prefix may be partial, as it can be on a remote backend.
-/

namespace StreamInfa.Storage

/-- Content type from the file extension. -/
def contentTypeForPath (path : Text) : Text :=
  if ".m4s".toList.isSuffixOf path || ".mp4".toList.isSuffixOf path then "video/mp4".toList
  else if ".m3u8".toList.isSuffixOf path then "application/vnd.apple.mpegurl".toList
  else if ".json".toList.isSuffixOf path then "application/json".toList
  else "application/octet-stream".toList

/-- A stored object. -/
structure StoredObject where
  data : Bytes
  contentType : Text
  createdAt : DateTime
deriving DecidableEq, Repr

/-- The objects of a store, by path. -/
abbrev MediaStore := Map Text StoredObject

def MediaStore.putSegment (store : MediaStore) (path : Text) (data : Bytes) (contentType : Text)
    (now : DateTime) : MediaStore :=
  store.insert path { data := data, contentType := contentType, createdAt := now }

def MediaStore.putManifest (store : MediaStore) (path content : Text) (now : DateTime) :
    MediaStore :=
  store.insert path
    { data := encodeUtf8 content
      contentType := "application/vnd.apple.mpegurl".toList
      createdAt := now }

/-- What a read of an object returns. -/
structure GetObjectOutput where
  body : Bytes
  contentType : Text
  etag : Text
deriving DecidableEq, Repr

/-- What a GET of the store returns for an object. -/
def objectOutput (object : StoredObject) : GetObjectOutput where
  body := object.data
  contentType := object.contentType
  etag := '"' :: decimal object.data.length ++ ['"']

def MediaStore.getObject (store : MediaStore) (path : Text) :
    Except StorageError GetObjectOutput :=
  match store.lookup path with
  | none => .error (.s3GetFailed path "not found".toList)
  | some object => .ok (objectOutput object)

theorem getObject_eq_ok {store : MediaStore} {path : Text} {output : GetObjectOutput}
    (h : store.getObject path = .ok output) :
    ∃ object, store.lookup path = some object ∧ output = objectOutput object := by
  unfold MediaStore.getObject at h
  split at h
  · cases h
  · rename_i object hobject
    exact ⟨object, hobject, (Except.ok.inj h).symm⟩

def MediaStore.deleteObject (store : MediaStore) (path : Text) : MediaStore := store.erase path

/-- Delete the objects whose path starts with `start`, except those in `kept`, which the
backend failed to delete. -/
def MediaStore.deletePrefix (store : MediaStore) (start : Text) (kept : List Text) :
    MediaStore :=
  (store.keys.filter fun path => start.isPrefixOf path && !kept.contains path).foldl
    (fun store path => store.erase path) store

/-! ### Deleting brings nothing in -/

theorem lookup_of_lookup_deleteObject {store : MediaStore} {path deleted : Text}
    {object : StoredObject} (h : (store.deleteObject deleted).lookup path = some object) :
    store.lookup path = some object := by
  by_cases hpath : path = deleted
  · subst hpath
    exact absurd ((AList.lookup_erase path store).symm.trans h) (by simp)
  · exact (AList.lookup_erase_ne hpath).symm.trans h

theorem lookup_of_lookup_deletePrefix {store : MediaStore} {path start : Text} {kept : List Text}
    {object : StoredObject} (h : (store.deletePrefix start kept).lookup path = some object) :
    store.lookup path = some object := by
  unfold MediaStore.deletePrefix at h
  generalize store.keys.filter _ = paths at h
  induction paths generalizing store with
  | nil => exact h
  | cons deleted paths ih => exact lookup_of_lookup_deleteObject (ih h)

/-! ### Deletion by prefix -/

theorem lookup_foldl_erase (paths : List Text) (store : MediaStore) (path : Text) :
    (paths.foldl (fun store path => store.erase path) store).lookup path =
      if path ∈ paths then none else store.lookup path := by
  induction paths generalizing store with
  | nil => simp
  | cons deleted paths ih =>
    rw [List.foldl_cons, ih]
    by_cases hpath : path = deleted
    · subst hpath
      simp
    · rw [AList.lookup_erase_ne hpath]
      simp [hpath]

theorem lookup_deletePrefix (store : MediaStore) (start : Text) (kept : List Text) (path : Text) :
    (store.deletePrefix start kept).lookup path =
      if start <+: path ∧ path ∉ kept then none else store.lookup path := by
  rw [MediaStore.deletePrefix, lookup_foldl_erase]
  by_cases hstored : path ∈ store.keys
  · refine if_congr ?_ rfl rfl
    simp [hstored]
  · have hnone : store.lookup path = none := AList.lookup_eq_none.mpr hstored
    rw [hnone, ite_self, ite_self]

end StreamInfa.Storage
