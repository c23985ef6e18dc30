import StreamInfa.Lib.Text

/-!
Attribute lists: names and their values, with a comma between one and the next.

A value is written as it is or between quotes, and then it may have commas in it. A list is read in
two steps: it is split at the commas outside quotes, and the parts are read one by one.
**`readAttributes_writeAttributes`**: what was written is read back.
-/

namespace StreamInfa

inductive AttributeValue
  | bare (value : Text)
  | quoted (value : Text)
deriving DecidableEq, Repr

structure Attribute where
  name : Text
  value : AttributeValue
deriving DecidableEq, Repr

def AttributeValue.write : AttributeValue → Text
  | bare value => value
  | quoted value => '"' :: (value ++ ['"'])

def Attribute.write (a : Attribute) : Text := a.name ++ '=' :: a.value.write

def writeAttributes (attributes : List Attribute) : Text :=
  [','].intercalate (attributes.map Attribute.write)

/-- Split at the commas outside quotes; `cur` is the part read so far. -/
def splitAttributes (inQuotes : Bool) (cur : Text) : Text → List Text
  | [] => [cur]
  | c :: t =>
    if c = ',' ∧ inQuotes = false then cur :: splitAttributes false [] t
    else splitAttributes (if c = '"' then !inQuotes else inQuotes) (cur ++ [c]) t

def readValue : Text → AttributeValue
  | '"' :: t => .quoted (t.takeWhile (· ≠ '"'))
  | t => .bare t

def readAttribute (part : Text) : Option Attribute :=
  match part.dropWhile (· ≠ '=') with
  | [] => none
  | _ :: value => some ⟨part.takeWhile (· ≠ '='), readValue value⟩

def readAttributes (t : Text) : Option (List Attribute) :=
  (splitAttributes false [] t).mapM readAttribute

/-- The value of an attribute. -/
def attributeValue (name : Text) (attributes : List Attribute) : Option AttributeValue :=
  (attributes.find? (·.name = name)).map Attribute.value

/-! ### Splitting -/

/-- A text that splits nowhere and leaves no quote open. -/
def Closed (t : Text) : Prop :=
  ∀ cur rest, splitAttributes false cur (t ++ rest) = splitAttributes false (cur ++ t) rest

theorem Closed.append {t u : Text} (ht : Closed t) (hu : Closed u) : Closed (t ++ u) := by
  intro cur rest
  rw [List.append_assoc, ht, hu, List.append_assoc]

theorem closed_of_plain {t : Text} (hcomma : ',' ∉ t) (hquote : '"' ∉ t) : Closed t := by
  induction t with
  | nil =>
    intro cur rest
    rw [List.nil_append, List.append_nil]
  | cons c t ih =>
    intro cur rest
    obtain ⟨hc, hcomma⟩ := not_or.mp (mt List.mem_cons.mpr hcomma)
    obtain ⟨hq, hquote⟩ := not_or.mp (mt List.mem_cons.mpr hquote)
    rw [List.cons_append, splitAttributes, if_neg fun h => hc h.1.symm, if_neg (Ne.symm hq),
      ih hcomma hquote, List.append_assoc, List.singleton_append]

/-- Between quotes nothing splits. -/
theorem splitAttributes_inside {t : Text} (hquote : '"' ∉ t) (cur rest : Text) :
    splitAttributes true cur (t ++ rest) = splitAttributes true (cur ++ t) rest := by
  induction t generalizing cur with
  | nil => rw [List.nil_append, List.append_nil]
  | cons c t ih =>
    obtain ⟨hq, hquote⟩ := not_or.mp (mt List.mem_cons.mpr hquote)
    have hsplit : ¬(c = ',' ∧ true = false) := fun h => absurd h.2 (by decide)
    rw [List.cons_append, splitAttributes, if_neg hsplit, if_neg (Ne.symm hq), ih hquote,
      List.append_assoc, List.singleton_append]

theorem closed_quoted {t : Text} (hquote : '"' ∉ t) : Closed ('"' :: (t ++ ['"'])) := by
  intro cur rest
  have hopen : ¬('"' = ',' ∧ false = false) := fun h => absurd h.1 (by decide)
  have hclose : ¬('"' = ',' ∧ true = false) := fun h => absurd h.2 (by decide)
  rw [List.cons_append, splitAttributes, if_neg hopen, if_pos rfl, Bool.not_false,
    List.append_assoc, splitAttributes_inside hquote, List.singleton_append, splitAttributes,
    if_neg hclose, if_pos rfl, Bool.not_true]
  simp only [List.append_assoc, List.cons_append, List.nil_append]

/-- Closed parts are split as they were put together. -/
theorem splitAttributes_intercalate {part : Text} {parts : List Text}
    (h : ∀ p ∈ part :: parts, Closed p) :
    splitAttributes false [] ([','].intercalate (part :: parts)) = part :: parts := by
  induction parts generalizing part with
  | nil =>
    have hpart := h part List.mem_cons_self [] []
    rw [List.append_nil, List.nil_append] at hpart
    rw [List.intercalate_singleton, hpart]
    rfl
  | cons next parts ih =>
    obtain ⟨hpart, hparts⟩ := List.forall_mem_cons.mp h
    rw [List.intercalate_cons_cons, List.append_assoc, hpart, List.nil_append,
      List.singleton_append, splitAttributes, if_pos ⟨rfl, rfl⟩, ih hparts]

/-! ### Reading what was written -/

/-- A value that can be told from what stands around it. -/
def AttributeValue.Plain : AttributeValue → Prop
  | bare value => ',' ∉ value ∧ '"' ∉ value
  | quoted value => '"' ∉ value

structure Attribute.Plain (a : Attribute) : Prop where
  comma : ',' ∉ a.name
  quote : '"' ∉ a.name
  equals : '=' ∉ a.name
  value : a.value.Plain

theorem Attribute.Plain.of_name {name : Text} {value : AttributeValue} (hcomma : ',' ∉ name)
    (hquote : '"' ∉ name) (hequals : '=' ∉ name) (hvalue : value.Plain) :
    Attribute.Plain ⟨name, value⟩ :=
  ⟨hcomma, hquote, hequals, hvalue⟩

theorem AttributeValue.Plain.closed {value : AttributeValue} (h : value.Plain) :
    Closed value.write := by
  cases value with
  | bare value => exact closed_of_plain h.1 h.2
  | quoted value => exact closed_quoted h

theorem Attribute.Plain.closed {a : Attribute} (h : a.Plain) : Closed a.write := by
  have hequals : Closed ['='] := closed_of_plain (by decide) (by decide)
  exact (closed_of_plain h.comma h.quote).append (hequals.append h.value.closed)

theorem readValue_write {value : AttributeValue} (h : value.Plain) :
    readValue value.write = value := by
  cases value with
  | bare value =>
    obtain ⟨-, hquote⟩ := h
    rw [AttributeValue.write]
    unfold readValue
    split
    · exact absurd List.mem_cons_self hquote
    · rfl
  | quoted value =>
    have hchars : ∀ c ∈ value, decide (c ≠ '"') = true := fun c hc =>
      decide_eq_true fun heq => h (heq ▸ hc)
    rw [AttributeValue.write, readValue, List.takeWhile_append_of_pos hchars]
    simp

theorem readAttribute_write {a : Attribute} (h : a.Plain) : readAttribute a.write = some a := by
  have hchars : ∀ c ∈ a.name, decide (c ≠ '=') = true := fun c hc =>
    decide_eq_true fun heq => h.equals (heq ▸ hc)
  have hname : a.write.takeWhile (· ≠ '=') = a.name := by
    rw [Attribute.write, List.takeWhile_append_of_pos hchars]
    simp
  have hvalue : a.write.dropWhile (· ≠ '=') = '=' :: a.value.write := by
    rw [Attribute.write, List.dropWhile_append_of_pos hchars]
    simp
  rw [readAttribute, hvalue, hname]
  dsimp only
  rw [readValue_write h.value]

/-- **What was written is read back.** -/
theorem readAttributes_writeAttributes {a : Attribute} {attributes : List Attribute}
    (h : ∀ b ∈ a :: attributes, b.Plain) :
    readAttributes (writeAttributes (a :: attributes)) = some (a :: attributes) := by
  have hclosed : ∀ p ∈ (a :: attributes).map Attribute.write, Closed p := by
    intro p hp
    obtain ⟨b, hb, rfl⟩ := List.mem_map.mp hp
    exact (h b hb).closed
  rw [readAttributes, writeAttributes, List.map_cons, splitAttributes_intercalate hclosed,
    ← List.map_cons]
  generalize a :: attributes = bs at h
  clear hclosed
  induction bs with
  | nil => rfl
  | cons b bs ih =>
    obtain ⟨hb, hbs⟩ := List.forall_mem_cons.mp h
    rw [List.map_cons, List.mapM_cons, readAttribute_write hb, ih hbs]
    rfl

end StreamInfa
