import StreamInfa.Package.Fragment

/-!
Nested boxes.

Some ISO-BMFF boxes hold further boxes behind a run of fixed fields
(`containerFields`). `readTree` reads a file down to the boxes that hold none and
fails unless every container is filled exactly by its fixed fields and its children;
`writeAll` is the layout of a forest, and `readTree_writeAll` says that the reader
inverts it on every forest whose boxes have the kind their type says and whose
bytes fit a 32-bit size.
-/

namespace StreamInfa.Package

/-- A box: one that is not looked into, or fixed fields and the boxes behind them. -/
inductive IsoBox
  | leaf (boxType content : Bytes)
  | container (boxType fields : Bytes) (children : List IsoBox)

namespace IsoBox

def boxType : IsoBox → Bytes
  | leaf boxType _ => boxType
  | container boxType _ _ => boxType

/-- The bytes of a leaf, the fixed fields of a container. -/
def content : IsoBox → Bytes
  | leaf _ content => content
  | container _ fields _ => fields

def children : IsoBox → List IsoBox
  | leaf _ _ => []
  | container _ _ children => children

/-- The boxes reached by a path of box types. -/
def find : List Bytes → List IsoBox → List IsoBox
  | [], _ => []
  | [boxType], boxes => boxes.filter fun b => b.boxType = boxType
  | boxType :: path, boxes =>
    find path ((boxes.filter fun b => b.boxType = boxType).flatMap children)

theorem find_cons_cons (ty next : Bytes) (path : List Bytes) (boxes : List IsoBox) :
    find (ty :: next :: path) boxes =
      find (next :: path) ((boxes.filter fun b => b.boxType = ty).flatMap children) := rfl

/-- A path goes on inside the boxes its first part reaches. -/
theorem find_append {path rest : List Bytes} (hpath : path ≠ []) (hrest : rest ≠ [])
    (boxes : List IsoBox) :
    find (path ++ rest) boxes = find rest ((find path boxes).flatMap children) := by
  obtain ⟨ty, rest, rfl⟩ := List.exists_cons_of_ne_nil hrest
  induction path generalizing boxes with
  | nil => exact absurd rfl hpath
  | cons head path ih =>
    cases path with
    | nil => rfl
    | cons next path => exact ih (List.cons_ne_nil next path) _

theorem find_boxes_append (path : List Bytes) (xs ys : List IsoBox) :
    find path (xs ++ ys) = find path xs ++ find path ys := by
  induction path generalizing xs ys with
  | nil => rfl
  | cons ty path ih =>
    cases path with
    | nil => exact List.filter_append ..
    | cons next path =>
      simp only [find_cons_cons, List.filter_append, List.flatMap_append, ih]

mutual

/-- The bytes of a box. -/
def write : IsoBox → Bytes
  | leaf boxType content => writeBox boxType content
  | container boxType fields children => writeBox boxType (fields ++ writeAll children)

/-- The bytes of boxes that stand one after the other. -/
def writeAll : List IsoBox → Bytes
  | [] => []
  | box :: boxes => box.write ++ writeAll boxes

end

/-- What stands behind the size and the type of a box. -/
def payload : IsoBox → Bytes
  | leaf _ content => content
  | container _ fields children => fields ++ writeAll children

theorem write_eq (box : IsoBox) : box.write = writeBox box.boxType box.payload := by
  cases box with
  | leaf ty content => rw [write, boxType, payload]
  | container ty fields children => rw [write, boxType, payload]

theorem writeAll_eq_flatMap (boxes : List IsoBox) :
    writeAll boxes =
      (boxes.map fun b => (b.boxType, b.payload)).flatMap fun b => writeBox b.1 b.2 := by
  induction boxes with
  | nil => rw [writeAll, List.map_nil, List.flatMap_nil]
  | cons box boxes ih => rw [writeAll, List.map_cons, List.flatMap_cons, ih, write_eq]

end IsoBox

open IsoBox

/-- How many bytes of fixed fields precede the children of a box of this type; `none`
for a type whose boxes hold no others. A sample description and a data reference
start with version, flags and the number of entries. -/
def containerFields (boxType : Bytes) : Option ℕ :=
  if boxType ∈ ["moov", "trak", "mdia", "minf", "dinf", "stbl", "mvex"].map ascii then some 0
  else if boxType ∈ ["dref", "stsd"].map ascii then some 8
  else if boxType = ascii "avc1" then some 78
  else if boxType = ascii "mp4a" then some 28
  else none

/-- A box of the given type and content, its children read by `inner`. -/
def readNode (inner : Bytes → Option (List IsoBox)) (box : Bytes × Bytes) : Option IsoBox :=
  match containerFields box.1 with
  | none => some (leaf box.1 box.2)
  | some k =>
    (takeExact k box.2).bind fun (fields, rest) => (inner rest).map (container box.1 fields)

/-- The forest a byte string spells, containers at most `n` deep. -/
def readTreeUpTo : ℕ → Bytes → Option (List IsoBox)
  | 0, bs => (readBoxes bs).bind fun boxes => boxes.mapM (readNode fun _ => none)
  | n + 1, bs => (readBoxes bs).bind fun boxes => boxes.mapM (readNode (readTreeUpTo n))

/-- The boxes of a file, containers with their children. A container takes at least a
byte more than its children, so no nesting is deeper than the file is long. -/
def readTree (bs : Bytes) : Option (List IsoBox) := readTreeUpTo bs.length bs

/-! ### Reading back what was laid out -/

/-- The box and those inside it are of the kind their types say, and containers are
nested at most `n` deep. -/
def IsoBox.Fits : ℕ → IsoBox → Prop
  | _, leaf boxType _ => boxType.length = 4 ∧ containerFields boxType = none
  | 0, container _ _ _ => False
  | n + 1, container boxType fields children =>
    boxType.length = 4 ∧ containerFields boxType = some fields.length ∧
      ∀ box ∈ children, box.Fits n

theorem IsoBox.Fits.length_boxType {n : ℕ} {box : IsoBox} (h : box.Fits n) :
    box.boxType.length = 4 := by
  cases box with
  | leaf boxType content =>
    cases n <;> exact h.1
  | container boxType fields children =>
    cases n with
    | zero => exact h.elim
    | succ n => exact h.1

/-- No box is longer than the forest it stands in. -/
theorem length_payload_le {box : IsoBox} {boxes : List IsoBox} {n : ℕ} (hbox : box ∈ boxes)
    (h : box.Fits n) : box.payload.length + 8 ≤ (writeAll boxes).length := by
  have hwrite : box.write.length = box.payload.length + 8 := by
    rw [write_eq, length_writeBox, h.length_boxType]
    omega
  rw [← hwrite]
  induction boxes with
  | nil => exact absurd hbox List.not_mem_nil
  | cons head boxes ih =>
    rw [writeAll, List.length_append]
    rcases List.mem_cons.mp hbox with rfl | hmem
    · exact Nat.le_add_right _ _
    · exact Nat.le_add_left_of_le (ih hmem)

/-- Reading each box of a list of boxes. -/
theorem mapM_map_eq_some {α β : Type} {f : α → β} {g : β → Option α} {l : List α}
    (h : ∀ a ∈ l, g (f a) = some a) : (l.map f).mapM g = some l := by
  induction l with
  | nil => rfl
  | cons a l ih =>
    obtain ⟨ha, hl⟩ := List.forall_mem_cons.mp h
    rw [List.map_cons, List.mapM_cons, ha, ih hl]
    rfl

theorem readBoxes_writeAll {n : ℕ} {boxes : List IsoBox} (hfits : ∀ box ∈ boxes, box.Fits n)
    (hlen : (writeAll boxes).length < 256 ^ 4) :
    readBoxes (writeAll boxes) = some (boxes.map fun b => (b.boxType, b.payload)) := by
  rw [writeAll_eq_flatMap]
  apply readBoxes_flatMap
  intro b hb
  obtain ⟨box, hbox, rfl⟩ := List.mem_map.mp hb
  have hle := length_payload_le hbox (hfits box hbox)
  exact ⟨(hfits box hbox).length_boxType, Nat.lt_of_le_of_lt hle hlen⟩

theorem readNode_leaf {inner : Bytes → Option (List IsoBox)} {ty content : Bytes}
    (hleaf : containerFields ty = none) :
    readNode inner (ty, content) = some (leaf ty content) := by
  simp only [readNode, hleaf]

theorem readNode_container {inner : Bytes → Option (List IsoBox)} {ty fields : Bytes}
    {children : List IsoBox} (hfields : containerFields ty = some fields.length)
    (hinner : inner (writeAll children) = some children) :
    readNode inner (ty, fields ++ writeAll children) = some (container ty fields children) := by
  simp only [readNode, hfields, takeExact_append _ rfl, Option.bind_some, hinner, Option.map_some]

theorem readTreeUpTo_writeAll {n : ℕ} {boxes : List IsoBox} (hfits : ∀ box ∈ boxes, box.Fits n)
    (hlen : (writeAll boxes).length < 256 ^ 4) :
    readTreeUpTo n (writeAll boxes) = some boxes := by
  induction n generalizing boxes with
  | zero =>
    rw [readTreeUpTo, readBoxes_writeAll hfits hlen, Option.bind_some]
    apply mapM_map_eq_some
    intro box hbox
    cases box with
    | leaf ty content => exact readNode_leaf (hfits _ hbox).2
    | container ty fields children => exact (hfits _ hbox).elim
  | succ n ih =>
    rw [readTreeUpTo, readBoxes_writeAll hfits hlen, Option.bind_some]
    apply mapM_map_eq_some
    intro box hbox
    cases box with
    | leaf ty content => exact readNode_leaf (hfits _ hbox).2
    | container ty fields children =>
      obtain ⟨-, hfields, hchildren⟩ := hfits _ hbox
      have hle := length_payload_le hbox (hfits _ hbox)
      have hinner : (writeAll children).length < 256 ^ 4 := by
        simp only [payload, List.length_append] at hle
        omega
      exact readNode_container hfields (ih hchildren hinner)

/-- A box that fits a nesting depth fits every larger one. -/
theorem IsoBox.Fits.mono {n m : ℕ} {box : IsoBox} (hnm : n ≤ m) (h : box.Fits n) :
    box.Fits m := by
  induction n generalizing m box with
  | zero =>
    cases box with
    | leaf ty content => cases m <;> exact h
    | container ty fields children => exact h.elim
  | succ n ih =>
    obtain ⟨m, rfl⟩ := Nat.exists_eq_add_of_lt hnm
    cases box with
    | leaf ty content => exact h
    | container ty fields children =>
      refine ⟨h.1, h.2.1, fun box hbox => ih (by omega) (h.2.2 box hbox)⟩

/-- **The reader inverts the layout** of every forest no deeper than it is long. -/
theorem readTree_writeAll {n : ℕ} {boxes : List IsoBox} (hfits : ∀ box ∈ boxes, box.Fits n)
    (hn : n ≤ (writeAll boxes).length) (hlen : (writeAll boxes).length < 256 ^ 4) :
    readTree (writeAll boxes) = some boxes :=
  readTreeUpTo_writeAll (fun box hbox => (hfits box hbox).mono hn) hlen

end StreamInfa.Package
