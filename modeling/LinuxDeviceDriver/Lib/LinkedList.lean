/- digest: Singly linked lists through a next pointer that several lists share. -/

import Mathlib.Data.List.Nodup
import Mathlib.Logic.Function.Basic

set_option autoImplicit false

namespace LinuxDeviceDriver.Lib.LinkedList

universe u

variable {A : Type u}

/-- Following next from head passes exactly the elements of the list, then ends. -/
def Chain (next : A → Option A) : Option A → List A → Prop
  | head, [] => head = none
  | head, a :: l => head = some a ∧ Chain next (next a) l

section

variable {next : A → Option A} {head : Option A} {a : A} {l : List A}

@[simp] theorem chain_nil : Chain next head [] ↔ head = none := Iff.rfl

@[simp] theorem chain_cons :
    Chain next head (a :: l) ↔ head = some a ∧ Chain next (next a) l := Iff.rfl

/-- The head pointer is null exactly when the list is empty. -/
theorem Chain.head_eq (h : Chain next head l) : head = l.head? := by
  cases l with
  | nil => exact h
  | cons a l => exact h.1

variable [DecidableEq A]

/-- A write to the pointer of an element outside leaves the list as it is. -/
theorem Chain.frame (h : Chain next head l) (ha : a ∉ l) (v : Option A) :
    Chain (Function.update next a v) head l := by
  induction l generalizing head with
  | nil => exact h
  | cons b l ih =>
    have hb : a ≠ b := List.ne_of_not_mem_cons ha
    have hl : a ∉ l := List.not_mem_of_not_mem_cons ha
    refine ⟨h.1, ?_⟩
    rw [Function.update_of_ne (Ne.symm hb)]
    exact ih h.2 hl

theorem Chain.push (h : Chain next head l) (ha : a ∉ l) :
    Chain (Function.update next a head) (some a) (a :: l) := by
  refine ⟨rfl, ?_⟩
  rw [Function.update_self]
  exact h.frame ha head

/-- An element with a null pointer of its own is linked behind the last one. -/
theorem Chain.append (h : Chain next head l) (hl : l.Nodup) (ha : a ∉ l) (hz : next a = none)
    {t : A} (ht : l.getLast? = some t) :
    Chain (Function.update next t (some a)) head (l ++ [a]) := by
  induction l generalizing head with
  | nil => cases ht
  | cons b l ih =>
    obtain ⟨hb, hl⟩ := List.nodup_cons.mp hl
    have hab : a ≠ b := List.ne_of_not_mem_cons ha
    have ha : a ∉ l := List.not_mem_of_not_mem_cons ha
    refine ⟨h.1, ?_⟩
    cases l with
    | nil =>
      obtain rfl : b = t := Option.some.inj ht
      rw [Function.update_self]
      refine ⟨rfl, ?_⟩
      rw [Function.update_of_ne hab]
      exact hz
    | cons c l =>
      rw [List.getLast?_cons_cons] at ht
      have hbt : b ≠ t := by
        rintro rfl
        exact hb (List.mem_of_getLast? ht)
      rw [Function.update_of_ne hbt]
      exact ih h.2 hl ha ht

end

end LinuxDeviceDriver.Lib.LinkedList
