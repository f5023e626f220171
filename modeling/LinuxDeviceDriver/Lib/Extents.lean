/- digest: Items laid out one after the other, as many of them as fit below a limit; and what
     a store holds after writes to extents of it. -/

import LinuxDeviceDriver.Lib.ScatterGather
import Mathlib.Data.List.GetD
import Mathlib.Data.List.TakeWhile

set_option autoImplicit false

namespace LinuxDeviceDriver.Lib.Extents

open Lib.ScatterGather

universe u v

/-! ## Layout -/

section Layout

variable {A : Type u} (len : A → Nat)

/-- Each item with the offset at which it begins. -/
def place : Nat → List A → List (Nat × A)
  | _, [] => []
  | o, a :: as => (o, a) :: place (o + len a) as

def total : List A → Nat
  | [] => 0
  | a :: as => len a + total as

/-- An item that ends below the limit or at it. -/
def fits (limit : Nat) (p : Nat × A) : Bool := decide (p.1 + len p.2 ≤ limit)

/-- The items before the first that does not fit. -/
def fitting (limit : Nat) (ps : List (Nat × A)) : List (Nat × A) := ps.takeWhile (fits len limit)

variable {len} {o limit : Nat} {as bs : List A} {ps qs : List (Nat × A)} {p : Nat × A}

@[simp] theorem total_nil : total len [] = 0 := rfl

@[simp] theorem total_cons (a : A) : total len (a :: as) = len a + total len as := rfl

@[simp] theorem total_append : total len (as ++ bs) = total len as + total len bs := by
  induction as with
  | nil => rw [List.nil_append, total_nil, Nat.zero_add]
  | cons a as ih => rw [List.cons_append, total_cons, total_cons, ih, Nat.add_assoc]

theorem le_total {a : A} (h : a ∈ as) : len a ≤ total len as := by
  induction as with
  | nil => cases h
  | cons b as ih =>
    rw [total_cons]
    rcases List.mem_cons.mp h with rfl | h
    · exact Nat.le_add_right _ _
    · exact (ih h).trans (Nat.le_add_left _ _)

theorem place_append :
    place len o (as ++ bs) = place len o as ++ place len (o + total len as) bs := by
  induction as generalizing o with
  | nil => rfl
  | cons a as ih =>
    rw [List.cons_append, place, place, ih, total_cons, Nat.add_assoc]
    rfl

theorem mem_place (h : p ∈ place len o as) :
    o ≤ p.1 ∧ p.1 + len p.2 ≤ o + total len as ∧ p.2 ∈ as := by
  induction as generalizing o with
  | nil => cases h
  | cons a as ih =>
    rw [total_cons]
    rcases List.mem_cons.mp h with rfl | h
    · exact ⟨Nat.le_refl o, Nat.add_le_add_left (Nat.le_add_right _ _) o, List.mem_cons_self⟩
    · obtain ⟨hle, hend, hmem⟩ := ih h
      exact ⟨by omega, by omega, List.mem_cons_of_mem a hmem⟩

theorem fitting_cons_pos (h : fits len limit p = true) :
    fitting len limit (p :: ps) = p :: fitting len limit ps := List.takeWhile_cons_of_pos h

theorem fitting_cons_neg (h : fits len limit p = false) : fitting len limit (p :: ps) = [] :=
  List.takeWhile_cons_of_neg (by simp [h])

theorem fitting_all (h : ∀ p ∈ ps, fits len limit p = true) : fitting len limit ps = ps :=
  List.takeWhile_eq_self_iff.mpr h

theorem fitting_append_all (h : ∀ p ∈ ps, fits len limit p = true) :
    fitting len limit (ps ++ qs) = ps ++ fitting len limit qs :=
  List.takeWhile_append_of_pos h

theorem fitting_append_stop (h : ∃ p ∈ ps, fits len limit p = false) :
    fitting len limit (ps ++ qs) = fitting len limit ps := by
  induction ps with
  | nil =>
    obtain ⟨p, hp, -⟩ := h
    cases hp
  | cons q ps ih =>
    rw [List.cons_append]
    cases hq : fits len limit q with
    | false => rw [fitting_cons_neg hq, fitting_cons_neg hq]
    | true =>
      obtain ⟨p, hp, hfit⟩ := h
      have hrest : p ∈ ps := by
        rcases List.mem_cons.mp hp with rfl | hp
        · rw [hq] at hfit
          cases hfit
        · exact hp
      rw [fitting_cons_pos hq, fitting_cons_pos hq, ih ⟨p, hrest, hfit⟩]

theorem fitting_past (ho : limit < o) : fitting len limit (place len o as) = [] := by
  cases as with
  | nil => rfl
  | cons a as => exact fitting_cons_neg (decide_eq_false (by omega))

end Layout

/-! ## Writes to extents -/

section Writes

variable {B : Type v}

def extent (o n : Nat) : List Nat := (List.range n).map (o + ·)

@[simp] theorem extent_length (o n : Nat) : (extent o n).length = n := by simp [extent]

theorem mem_extent {o n a : Nat} : a ∈ extent o n ↔ o ≤ a ∧ a < o + n := by
  rw [extent, List.mem_map]
  constructor
  · rintro ⟨i, hi, rfl⟩
    have hi := List.mem_range.mp hi
    omega
  · rintro ⟨hle, hlt⟩
    exact ⟨a - o, List.mem_range.mpr (by omega), by omega⟩

theorem extent_nodup (o n : Nat) : (extent o n).Nodup :=
  List.nodup_range.map fun _ _ h => Nat.add_left_cancel h

theorem extent_append (o n m : Nat) : extent o (n + m) = extent o n ++ extent (o + n) m := by
  rw [extent, List.range_add, List.map_append, List.map_map]
  refine congrArg _ (List.map_congr_left fun i _ => ?_)
  exact (Nat.add_assoc o n i).symm

/-- A write of values from an offset on. -/
structure Write (B : Type v) where
  offset : Nat
  values : List B

def Write.covers (w : Write B) (a : Nat) : Bool :=
  decide (w.offset ≤ a ∧ a < w.offset + w.values.length)

def Write.apply (m : Nat → B) (w : Write B) : Nat → B :=
  store m (extent w.offset w.values.length) w.values

/-- What the last write to a location wrote there, and a default if there was none. -/
def lastWritten (dflt : B) (ws : List (Write B)) (a : Nat) : B :=
  match ws.reverse.find? (·.covers a) with
  | some w => w.values.getD (a - w.offset) dflt
  | none => dflt

theorem Write.apply_covers {w : Write B} {a : Nat} (m : Nat → B) (dflt : B)
    (h : w.covers a = true) : w.apply m a = w.values.getD (a - w.offset) dflt := by
  have hc := of_decide_eq_true h
  have hi : a - w.offset < w.values.length := by omega
  have hx : a - w.offset < (extent w.offset w.values.length).length := by simpa using hi
  have hget : (extent w.offset w.values.length)[a - w.offset] = a := by
    simp only [extent, List.getElem_map, List.getElem_range]
    omega
  have hstore := store_getElem m (extent w.offset w.values.length) w.values (extent_nodup _ _)
    (a - w.offset) hx hi
  rw [hget] at hstore
  rw [Write.apply, hstore, List.getD_eq_getElem _ _ hi]

theorem Write.apply_frame {w : Write B} {a : Nat} (m : Nat → B) (h : w.covers a = false) :
    w.apply m a = m a :=
  store_frame m _ _ fun hmem => of_decide_eq_false h (mem_extent.mp hmem)

/-- Writes one after the other leave the last at each location. -/
theorem foldl_apply (dflt : B) (ws : List (Write B)) (a : Nat) :
    ws.foldl Write.apply (fun _ => dflt) a = lastWritten dflt ws a := by
  induction ws using List.reverseRecOn with
  | nil => rfl
  | append_singleton ws w ih =>
    rw [List.foldl_append, List.foldl_cons, List.foldl_nil, lastWritten, List.reverse_append,
      List.reverse_singleton, List.singleton_append]
    cases hc : w.covers a with
    | true => rw [Write.apply_covers _ dflt hc, List.find?_cons, hc]
    | false =>
      rw [Write.apply_frame _ hc, ih, List.find?_cons, hc]
      rfl

end Writes

end LinuxDeviceDriver.Lib.Extents
