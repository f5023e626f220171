/- digest: Computations that note their machine operations and the array elements they touch,
     and what it is for none of the operations to wrap. -/

import Mathlib.Algebra.Group.Nat.Defs
import Mathlib.Data.List.Basic

set_option autoImplicit false

namespace LinuxDeviceDriver.Lib.MachineOps

/-- An operation on unsigned words of w bits, by its operands. -/
inductive Op
  | add (w a b : Nat)
  | sub (w a b : Nat)
  | mul (w a b : Nat)
  deriving DecidableEq, Repr

/-- The result as a number fits the word. -/
def Op.Exact : Op → Prop
  | .add w a b => a + b < 2 ^ w
  | .sub _ a b => b ≤ a
  | .mul w a b => a * b < 2 ^ w

instance : (o : Op) → Decidable o.Exact
  | .add w a b => inferInstanceAs (Decidable (a + b < 2 ^ w))
  | .sub _ a b => inferInstanceAs (Decidable (b ≤ a))
  | .mul w a b => inferInstanceAs (Decidable (a * b < 2 ^ w))

/-- What a computation notes: an operation, or an element that it reads or writes. -/
inductive Note
  | op (o : Op)
  | touch (i : Nat)
  deriving DecidableEq, Repr

/-- A value, and the notes made on the way to it. -/
structure Noted (α : Type) where
  val : α
  notes : List Note

instance : Monad Noted where
  pure a := ⟨a, []⟩
  bind x f := ⟨(f x.val).val, x.notes ++ (f x.val).notes⟩

variable {α β : Type} {w : Nat}

def add (a b : BitVec w) : Noted (BitVec w) := ⟨a + b, [.op (.add w a.toNat b.toNat)]⟩

def sub (a b : BitVec w) : Noted (BitVec w) := ⟨a - b, [.op (.sub w a.toNat b.toNat)]⟩

def mul (a b : BitVec w) : Noted (BitVec w) := ⟨a * b, [.op (.mul w a.toNat b.toNat)]⟩

/-- The elements that a call is given to read or to write. -/
def touch (is : List Nat) : Noted Unit := ⟨(), is.map .touch⟩

/-- One computation for each element of a list, in order. -/
def each (f : α → Noted β) (as : List α) : Noted (List β) :=
  ⟨as.map fun a => (f a).val, as.flatMap fun a => (f a).notes⟩

/-! The values are those of the computation without its notes. -/

@[simp] theorem val_pure (a : α) : (pure a : Noted α).val = a := rfl

@[simp] theorem val_bind (x : Noted α) (f : α → Noted β) : (x >>= f).val = (f x.val).val := rfl

/-- Where the rest of the computation is known, whatever its value is. -/
theorem val_bind_eq {x : Noted α} {f : α → Noted β} {y : Noted β} (h : f x.val = y) :
    (x >>= f).val = y.val := by
  rw [val_bind, h]

@[simp] theorem val_add (a b : BitVec w) : (add a b).val = a + b := rfl

@[simp] theorem val_sub (a b : BitVec w) : (sub a b).val = a - b := rfl

@[simp] theorem val_mul (a b : BitVec w) : (mul a b).val = a * b := rfl

@[simp] theorem val_each (f : α → Noted β) (as : List α) :
    (each f as).val = as.map fun a => (f a).val := rfl

theorem mem_notes_bind {x : Noted α} {f : α → Noted β} {n : Note} :
    n ∈ (x >>= f).notes ↔ n ∈ x.notes ∨ n ∈ (f x.val).notes := List.mem_append

theorem mem_notes_bind_eq {x : Noted α} {f : α → Noted β} {y : Noted β} {n : Note}
    (h : f x.val = y) (hn : n ∈ y.notes) : n ∈ (x >>= f).notes := by
  rw [mem_notes_bind, h]
  exact .inr hn

theorem mem_notes_touch {is : List Nat} {i : Nat} (h : i ∈ is) : .touch i ∈ (touch is).notes :=
  List.mem_map_of_mem h

/-- Every operation noted is exact, and every element touched is one of those that P allows. -/
def Noted.Sound (P : Nat → Prop) (x : Noted α) : Prop :=
  ∀ n ∈ x.notes, match n with
    | .op o => o.Exact
    | .touch i => P i

theorem Noted.Sound.exact {P : Nat → Prop} {x : Noted α} (h : x.Sound P) {o : Op}
    (ho : .op o ∈ x.notes) : o.Exact := h _ ho

theorem Noted.Sound.touched {P : Nat → Prop} {x : Noted α} (h : x.Sound P) {i : Nat}
    (hi : .touch i ∈ x.notes) : P i := h _ hi

section Rules

variable {P : Nat → Prop}

theorem sound_pure (a : α) : (pure a : Noted α).Sound P := by
  intro n hn
  cases hn

theorem sound_bind {x : Noted α} {f : α → Noted β} (hx : x.Sound P) (hf : (f x.val).Sound P) :
    (x >>= f).Sound P := by
  intro n hn
  rcases mem_notes_bind.mp hn with h | h
  · exact hx n h
  · exact hf n h

private theorem sound_op {a : α} {o : Op} (ho : o.Exact) :
    (⟨a, [.op o]⟩ : Noted α).Sound P := by
  intro n hn
  cases List.mem_singleton.mp hn
  exact ho

theorem sound_add {a b : BitVec w} (h : a.toNat + b.toNat < 2 ^ w) : (add a b).Sound P :=
  sound_op h

theorem sound_sub {a b : BitVec w} (h : b.toNat ≤ a.toNat) : (sub a b).Sound P :=
  sound_op h

theorem sound_mul {a b : BitVec w} (h : a.toNat * b.toNat < 2 ^ w) : (mul a b).Sound P :=
  sound_op h

theorem sound_touch {is : List Nat} (h : ∀ i ∈ is, P i) : (touch is).Sound P := by
  intro n hn
  obtain ⟨i, hi, rfl⟩ := List.mem_map.mp hn
  exact h i hi

theorem sound_each {f : α → Noted β} {as : List α} (h : ∀ a ∈ as, (f a).Sound P) :
    (each f as).Sound P := by
  intro n hn
  obtain ⟨a, ha, hn⟩ := List.mem_flatMap.mp hn
  exact h a ha n hn

theorem Noted.Sound.mono {Q : Nat → Prop} {x : Noted α} (h : x.Sound P) (hPQ : ∀ i, P i → Q i) :
    x.Sound Q := by
  intro n hn
  cases n with
  | op o => exact h.exact hn
  | touch i => exact hPQ i (h.touched hn)

end Rules

end LinuxDeviceDriver.Lib.MachineOps
