/- digest: A list repeated without end, and the parts of it that one piece or many copies give. -/

import Mathlib.Data.List.Basic

set_option autoImplicit false

namespace LinuxDeviceDriver.Lib.Repetition

universe u

variable {α : Type u} {xs : List α} {p m k : Nat}

/-- So many entries of the endless repetition of a list, from a position on. -/
def repeated (xs : List α) (p m : Nat) : List α :=
  (List.range' p m).filterMap fun i => xs[i % xs.length]?

@[simp] theorem repeated_zero (xs : List α) (p : Nat) : repeated xs p 0 = [] := rfl

theorem repeated_one (xs : List α) (p : Nat) : repeated xs p 1 = (xs[p % xs.length]?).toList := by
  rw [repeated, List.range'_one, List.filterMap_cons]
  cases xs[p % xs.length]? <;> rfl

theorem repeated_add (xs : List α) (p m k : Nat) :
    repeated xs p (m + k) = repeated xs p m ++ repeated xs (p + m) k := by
  rw [repeated, repeated, repeated, ← List.range'_append_1, List.filterMap_append]

theorem repeated_mod (xs : List α) (p m : Nat) :
    repeated xs (p % xs.length) m = repeated xs p m := by
  induction m generalizing p with
  | zero => rfl
  | succ m ih =>
    have hhead : repeated xs (p % xs.length) 1 = repeated xs p 1 := by
      rw [repeated_one, repeated_one, Nat.mod_mod]
    have htail : repeated xs (p % xs.length + 1) m = repeated xs (p + 1) m := by
      rw [← ih (p % xs.length + 1), ← ih (p + 1), Nat.mod_add_mod]
    rw [Nat.add_comm m 1, repeated_add, repeated_add, hhead, htail]

/-- A piece that does not go past the end of the list is part of the list. -/
theorem repeated_straight (h : p + m ≤ xs.length) : repeated xs p m = (xs.drop p).take m := by
  induction m generalizing p with
  | zero => rw [repeated_zero, List.take_zero]
  | succ m ih =>
    have hlt : p < xs.length := by omega
    have hhead : repeated xs p 1 = [xs[p]] := by
      rw [repeated_one, Nat.mod_eq_of_lt hlt, List.getElem?_eq_getElem hlt, Option.toList_some]
    rw [Nat.add_comm m 1, repeated_add, hhead, ih (by omega), Nat.add_comm 1 m,
      List.drop_eq_getElem_cons hlt, List.take_succ_cons, List.singleton_append]

theorem repeated_length (hne : xs ≠ []) (p m : Nat) : (repeated xs p m).length = m := by
  have hpos : 0 < xs.length := List.length_pos_iff.mpr hne
  induction m generalizing p with
  | zero => rfl
  | succ m ih =>
    have hhead : (repeated xs p 1).length = 1 := by
      have hlt : p % xs.length < xs.length := Nat.mod_lt p hpos
      rw [repeated_one, List.getElem?_eq_getElem hlt, Option.toList_some, List.length_singleton]
    rw [Nat.add_comm m 1, repeated_add, List.length_append, hhead, ih]

theorem take_repeated (hne : xs ≠ []) (h : m ≤ k) : (repeated xs p k).take m = repeated xs p m := by
  have hsplit : k = m + (k - m) := by omega
  rw [hsplit, repeated_add, List.take_left' (repeated_length hne p m)]

/-- The piece from any position to the end of the copy it falls into. -/
theorem repeated_inside (h : p % xs.length + m ≤ xs.length) :
    repeated xs p m = (xs.drop (p % xs.length)).take m := by
  rw [← repeated_mod, repeated_straight h]

theorem length_flatten_replicate (xs : List α) (k : Nat) :
    (List.replicate k xs).flatten.length = k * xs.length := by
  induction k with
  | zero => simp
  | succ k ih =>
    rw [List.replicate_succ, List.flatten_cons, List.length_append, ih, Nat.succ_mul, Nat.add_comm]

theorem flatten_replicate (xs : List α) (k : Nat) :
    (List.replicate k xs).flatten = repeated xs 0 (k * xs.length) := by
  induction k with
  | zero => simp
  | succ k ih =>
    have hfirst : repeated xs 0 xs.length = xs := by
      rw [repeated_straight (Nat.le_of_eq (Nat.zero_add _)), List.drop_zero, List.take_length]
    have hrest : repeated xs (0 + xs.length) (k * xs.length) = repeated xs 0 (k * xs.length) := by
      rw [← repeated_mod, Nat.zero_add, Nat.mod_self]
    rw [List.replicate_succ, List.flatten_cons, ih, Nat.succ_mul, Nat.add_comm (k * xs.length),
      repeated_add, hfirst, hrest]

theorem drop_flatten_replicate (hne : xs ≠ []) (k p : Nat) :
    (List.replicate k xs).flatten.drop p = repeated xs p (k * xs.length - p) := by
  rw [flatten_replicate]
  rcases Nat.le_total p (k * xs.length) with hle | hge
  · have hsplit : k * xs.length = p + (k * xs.length - p) := by omega
    rw [hsplit, repeated_add, List.drop_left' (repeated_length hne 0 p), Nat.zero_add]
    congr 1
    omega
  · have hnone : k * xs.length - p = 0 := by omega
    rw [hnone, repeated_zero, List.drop_eq_nil_of_le]
    rw [repeated_length hne]
    exact hge

end LinuxDeviceDriver.Lib.Repetition
