/- digest: Stamps taken from a counter that only grows, each of them later than the one before. -/

import Mathlib.Data.List.Pairwise
import Mathlib.Data.List.GetD

set_option autoImplicit false

namespace LinuxDeviceDriver.Lib.Stamps

/-- The last stamp, or what the counter was at the start. -/
def latest (start : Nat) (stamps : List Nat) : Nat := stamps.getLastD start

@[simp] theorem latest_nil (start : Nat) : latest start [] = start := rfl

theorem latest_cons (start n : Nat) (stamps : List Nat) :
    latest start (n :: stamps) = latest n stamps := List.getLastD_cons

@[simp] theorem latest_append (start : Nat) (stamps : List Nat) (n : Nat) :
    latest start (stamps ++ [n]) = n := by
  simp [latest]

/-- Each stamp is later than the start and the stamps before it, and none is yet to come. -/
structure Stamped (start : Nat) (stamps : List Nat) (now : Nat) : Prop where
  increasing : (start :: stamps).Pairwise (· < ·)
  past : latest start stamps ≤ now

namespace Stamped

variable {start now now' n : Nat} {stamps : List Nat}

theorem begin (now : Nat) : Stamped now [] now :=
  ⟨List.pairwise_singleton _ now, Nat.le_refl now⟩

theorem later (h : Stamped start stamps now) (hle : now ≤ now') : Stamped start stamps now' :=
  ⟨h.increasing, Nat.le_trans h.past hle⟩

theorem le_latest (h : Stamped start stamps now) (hn : n ∈ start :: stamps) :
    n ≤ latest start stamps := by
  have hincreasing := h.increasing
  clear h
  induction stamps generalizing start n with
  | nil =>
    obtain rfl := List.mem_singleton.mp hn
    exact Nat.le_refl _
  | cons x xs ih =>
    obtain ⟨hfirst, hrest⟩ := List.pairwise_cons.mp hincreasing
    rw [latest_cons]
    rcases List.mem_cons.mp hn with rfl | hn
    · have hx : x ≤ latest x xs := ih (List.mem_cons_self ..) hrest
      have hlt := hfirst x (List.mem_cons_self ..)
      omega
    · exact ih hn hrest

theorem take (h : Stamped start stamps now) (hnew : latest start stamps < n) (hle : n ≤ now) :
    Stamped start (stamps ++ [n]) now := by
  refine ⟨?_, ?_⟩
  · rw [← List.cons_append, List.pairwise_append]
    refine ⟨h.increasing, List.pairwise_singleton _ n, ?_⟩
    intro a ha b hb
    obtain rfl := List.mem_singleton.mp hb
    have hold := h.le_latest ha
    omega
  · rw [latest_append]
    exact hle

/-- There are no more stamps than the counter has grown. -/
theorem length_le (h : Stamped start stamps now) : stamps.length + start ≤ now := by
  induction stamps generalizing start with
  | nil =>
    have hpast := h.past
    rw [latest_nil] at hpast
    rw [List.length_nil]
    omega
  | cons x xs ih =>
    obtain ⟨hfirst, hrest⟩ := List.pairwise_cons.mp h.increasing
    have hlt := hfirst x (List.mem_cons_self ..)
    have hpast := h.past
    rw [latest_cons] at hpast
    have hlen := ih ⟨hrest, hpast⟩
    rw [List.length_cons]
    omega

end Stamped

end LinuxDeviceDriver.Lib.Stamps
