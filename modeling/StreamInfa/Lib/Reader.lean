import StreamInfa.Lib.Bytes

/-!
Readers: functions that take a value off the front of a byte string.

`f : Bytes → Option (α × Bytes)` is a `Reader` when each of its successes is decided
by the bytes it takes: they are a prefix of the input, and any other bytes may follow
them. The rules (`Reader.pure`, `Reader.map`, `Reader.bind`, `reader_takeExact`) say
that a parser composed of readers is one.

A parser that keeps its input in a state reads a code when it returns the value the code
stands for and leaves what is behind it (`Reads`), and all that it returns has such a code
(`Consumes`). The rules follow the parser: a sequence reads one code after the other. What it
does on any input is decided by what it takes of it (`Decided`), as long as it does not run to
the end; where it may stop is a relation between states (`Moves`).
-/

namespace StreamInfa

variable {α β : Type*}

/-- A success of `f` consumes a prefix of the input and depends on nothing else. -/
def Reader (f : Bytes → Option (α × Bytes)) : Prop :=
  ∀ bs a rest, f bs = some (a, rest) →
    ∃ used, bs = used ++ rest ∧ ∀ ys, f (used ++ ys) = some (a, ys)

namespace Reader

theorem pure (a : α) : Reader fun bs => some (a, bs) := by
  intro bs b rest h
  obtain ⟨rfl, rfl⟩ := Prod.mk.inj (Option.some.inj h)
  exact ⟨[], rfl, fun _ => rfl⟩

theorem bind {f : Bytes → Option (α × Bytes)} {g : α → Bytes → Option (β × Bytes)}
    (hf : Reader f) (hg : ∀ a, Reader (g a)) :
    Reader fun bs => (f bs).bind fun p => g p.1 p.2 := by
  intro bs b rest h
  obtain ⟨⟨a, mid⟩, ha, hb⟩ := Option.bind_eq_some_iff.mp h
  obtain ⟨used₁, rfl, hany₁⟩ := hf bs a mid ha
  obtain ⟨used₂, rfl, hany₂⟩ := hg a mid b rest hb
  refine ⟨used₁ ++ used₂, (List.append_assoc ..).symm, fun ys => ?_⟩
  show (f (used₁ ++ used₂ ++ ys)).bind _ = _
  rw [List.append_assoc, hany₁, Option.bind_some, hany₂]

theorem map {f : Bytes → Option (α × Bytes)} (hf : Reader f) (g : α → β) :
    Reader fun bs => (f bs).map fun p => (g p.1, p.2) := by
  have h := hf.bind fun a => Reader.pure (g a)
  have heq : (fun bs => (f bs).bind fun p => some (g p.1, p.2)) =
      fun bs => (f bs).map fun p => (g p.1, p.2) := by
    funext bs
    exact Option.map_eq_bind.symm
  rwa [heq] at h

end Reader

theorem reader_takeExact (n : ℕ) : Reader (takeExact n) := by
  intro bs xs rest h
  obtain ⟨rfl, hlen⟩ := takeExact_eq_some h
  exact ⟨xs, rfl, fun ys => takeExact_append ys hlen⟩

/-! ### Parsers with a state -/

section State

variable {σ τ α β : Type}

section Run

variable {m : Type → Type} [Monad m] [LawfulMonad m] {x : OptionT (StateT σ m) α}
  {f : α → OptionT (StateT σ m) β} {s s' : σ}

/-- A sequence goes on in the state that its first part leaves. -/
theorem run_bind_some {a : α} (h : x.run s = pure (some a, s')) :
    (x >>= f).run s = (f a).run s' := by
  show StateT.run (OptionT.run (x >>= f)) s = _
  change StateT.run (OptionT.run x) s = _ at h
  rw [OptionT.run_bind, Option.elimM, StateT.run_bind, h, pure_bind]
  rfl

/-- A failure ends a sequence and keeps its state. -/
theorem run_bind_none (h : x.run s = pure (none, s')) :
    (x >>= f).run s = pure (none, s') := by
  show StateT.run (OptionT.run (x >>= f)) s = _
  change StateT.run (OptionT.run x) s = _ at h
  rw [OptionT.run_bind, Option.elimM, StateT.run_bind, h, pure_bind]
  rfl

end Run

/-- When `code` is first in what is left, `x` returns a value that satisfies `P` and leaves
the rest. -/
def Reads (left : σ → List τ → Prop) (x : OptionT (StateM σ) α) (code : List τ) (P : α → Prop) :
    Prop :=
  ∀ s rest, left s (code ++ rest) → ∃ a s', x.run s = (some a, s') ∧ P a ∧ left s' rest

namespace Reads

variable {left : σ → List τ → Prop} {x : OptionT (StateM σ) α} {f : α → OptionT (StateM σ) β}
  {code code' : List τ} {P : α → Prop} {Q : β → Prop}

theorem pure {a : α} (h : P a) : Reads left (Pure.pure a) [] P :=
  fun s _ hs => ⟨a, s, rfl, h, hs⟩

theorem bind (hx : Reads left x code P) (hf : ∀ a, P a → Reads left (f a) code' Q) :
    Reads left (x >>= f) (code ++ code') Q := by
  intro s rest hs
  rw [List.append_assoc] at hs
  obtain ⟨a, s₁, hrun, ha, hs₁⟩ := hx s (code' ++ rest) hs
  obtain ⟨b, s₂, hrun', hb, hs₂⟩ := hf a ha s₁ rest hs₁
  exact ⟨b, s₂, (run_bind_some hrun).trans hrun', hb, hs₂⟩

/-- A sequence behind a known value. -/
theorem seq {a : α} (hx : Reads left x code (· = a)) (hf : Reads left (f a) code' Q) :
    Reads left (x >>= f) (code ++ code') Q :=
  hx.bind fun _ h => h ▸ hf

/-- A sequence whose last step reads nothing. -/
theorem seq_nil {a : α} (hx : Reads left x code (· = a)) (hf : Reads left (f a) [] Q) :
    Reads left (x >>= f) code Q := by
  have hseq := hx.seq hf
  rwa [List.append_nil] at hseq

theorem mono {R : α → Prop} (hx : Reads left x code P) (h : ∀ a, P a → R a) :
    Reads left x code R := by
  intro s rest hs
  obtain ⟨a, s', hrun, ha, hs'⟩ := hx s rest hs
  exact ⟨a, s', hrun, h a ha, hs'⟩

end Reads

/-- What `x` returns and the code that it took for it satisfy `C`. -/
def Consumes (left : σ → List τ → Prop) (x : OptionT (StateM σ) α) (C : α → List τ → Prop) :
    Prop :=
  ∀ s ts a s', left s ts → x.run s = (some a, s') →
    ∃ code rest, ts = code ++ rest ∧ C a code ∧ left s' rest

namespace Consumes

variable {left : σ → List τ → Prop} {x y : OptionT (StateM σ) α} {f : α → OptionT (StateM σ) β}
  {C : α → List τ → Prop} {D : β → List τ → Prop}

theorem pure {a : α} (h : C a []) : Consumes left (Pure.pure a) C := by
  intro s ts b s' hs hrun
  obtain ⟨hb, rfl⟩ := Prod.mk.inj hrun
  obtain rfl : a = b := Option.some.inj hb
  exact ⟨[], ts, rfl, h, hs⟩

theorem failure : Consumes left (Alternative.failure : OptionT (StateM σ) α) C := by
  intro s ts a s' hs hrun
  cases hrun

theorem bind (hx : Consumes left x C)
    (hf : ∀ a code, C a code → Consumes left (f a) fun b code' => D b (code ++ code')) :
    Consumes left (x >>= f) D := by
  intro s ts b s' hs hrun
  rcases hx' : x.run s with ⟨_ | a, s₁⟩
  · rw [run_bind_none hx'] at hrun
    cases hrun
  · rw [run_bind_some hx'] at hrun
    obtain ⟨code, rest, rfl, hcode, hs₁⟩ := hx s ts a s₁ hs hx'
    obtain ⟨code', rest', rfl, hcode', hs'⟩ := hf a code hcode s₁ rest b s' hs₁ hrun
    exact ⟨code ++ code', rest', (List.append_assoc ..).symm, hcode', hs'⟩

theorem mono {E : α → List τ → Prop} (hx : Consumes left x C)
    (h : ∀ a code, C a code → E a code) : Consumes left x E := by
  intro s ts a s' hs hrun
  obtain ⟨code, rest, rfl, hcode, hs'⟩ := hx s ts a s' hs hrun
  exact ⟨code, rest, rfl, h a code hcode, hs'⟩

end Consumes

/-- Whether it fails or not, `x` leaves a state that `R` relates to the one it started in. -/
def Moves (R : σ → σ → Prop) (x : OptionT (StateM σ) α) : Prop := ∀ s, R s (x.run s).2

namespace Moves

variable {R : σ → σ → Prop} {x y : OptionT (StateM σ) α} {f : α → OptionT (StateM σ) β}

theorem pure [Std.Refl R] (a : α) : Moves R (Pure.pure a : OptionT (StateM σ) α) :=
  fun s => Std.Refl.refl s

theorem failure [Std.Refl R] : Moves R (Alternative.failure : OptionT (StateM σ) α) :=
  fun s => Std.Refl.refl s

theorem ite {p : Prop} [Decidable p] (hx : Moves R x) (hy : Moves R y) :
    Moves R (if p then x else y) := by
  split
  · exact hx
  · exact hy

theorem bind [IsTrans σ R] (hx : Moves R x) (hf : ∀ a, Moves R (f a)) : Moves R (x >>= f) := by
  intro s
  have hfirst := hx s
  rcases hrun : x.run s with ⟨_ | a, s₁⟩
  · rw [hrun] at hfirst
    rwa [run_bind_none hrun]
  · rw [hrun] at hfirst
    rw [run_bind_some hrun]
    exact IsTrans.trans _ _ _ hfirst (hf a s₁)

end Moves

/-- The code that `x` takes decides what it does, unless it takes all there is. -/
def Decided (left : σ → List τ → Prop) (x : OptionT (StateM σ) α) : Prop :=
  ∀ s ts, left s ts → ∃ code rest, ts = code ++ rest ∧ left (x.run s).2 rest ∧
    (rest ≠ [] → ∀ s' rest', left s' (code ++ rest') →
      (x.run s').1 = (x.run s).1 ∧ left (x.run s').2 rest')

namespace Decided

variable {left : σ → List τ → Prop} {x y : OptionT (StateM σ) α} {f : α → OptionT (StateM σ) β}

theorem pure (a : α) : Decided left (Pure.pure a : OptionT (StateM σ) α) := by
  intro s ts hs
  exact ⟨[], ts, rfl, hs, fun _ s' rest' hs' => ⟨rfl, hs'⟩⟩

theorem failure : Decided left (Alternative.failure : OptionT (StateM σ) α) := by
  intro s ts hs
  exact ⟨[], ts, rfl, hs, fun _ s' rest' hs' => ⟨rfl, hs'⟩⟩

theorem ite {p : Prop} [Decidable p] (hx : Decided left x) (hy : Decided left y) :
    Decided left (if p then x else y) := by
  split
  · exact hx
  · exact hy

theorem bind (hx : Decided left x) (hf : ∀ a, Decided left (f a)) : Decided left (x >>= f) := by
  intro s ts hs
  obtain ⟨code, rest, rfl, hrest, hsame⟩ := hx s ts hs
  rcases hrun : x.run s with ⟨_ | a, s₁⟩
  · rw [hrun] at hrest hsame
    rw [run_bind_none hrun]
    refine ⟨code, rest, rfl, hrest, fun hne s' rest' hs' => ?_⟩
    obtain ⟨hvalue, hleft⟩ := hsame hne s' rest' hs'
    rcases hrun' : x.run s' with ⟨v, s₁'⟩
    rw [hrun'] at hvalue hleft
    obtain rfl : v = none := hvalue
    rw [run_bind_none hrun']
    exact ⟨rfl, hleft⟩
  · rw [hrun] at hrest hsame
    rw [run_bind_some hrun]
    obtain ⟨code₂, rest₂, rfl, hrest₂, hsame₂⟩ := hf a s₁ rest hrest
    refine ⟨code ++ code₂, rest₂, (List.append_assoc ..).symm, hrest₂,
      fun hne s' rest' hs' => ?_⟩
    rw [List.append_assoc] at hs'
    obtain ⟨hvalue, hleft⟩ := hsame (List.append_ne_nil_of_right_ne_nil _ hne) s' _ hs'
    rcases hrun' : x.run s' with ⟨v, s₁'⟩
    rw [hrun'] at hvalue hleft
    obtain rfl : v = some a := hvalue
    rw [run_bind_some hrun']
    exact hsame₂ hne s₁' rest' hleft

/-- A value computed from the result, of a failure too. -/
theorem map (hx : Decided left x) (g : Option α → Option β) :
    Decided left (OptionT.mk (g <$> x.run)) := by
  intro s ts hs
  obtain ⟨code, rest, rfl, hrest, hsame⟩ := hx s ts hs
  refine ⟨code, rest, rfl, hrest, fun hne s' rest' hs' => ?_⟩
  obtain ⟨hvalue, hleft⟩ := hsame hne s' rest' hs'
  exact ⟨congrArg g hvalue, hleft⟩

end Decided

end State

end StreamInfa
