/- digest: A lock held by one thread at a time: what is true while it is free, and what its
     holder knows before each of its actions. -/

import LinuxDeviceDriver.Lib.Threads

set_option autoImplicit false

namespace LinuxDeviceDriver.Lib.Mutex

open Threads

universe u

variable {C A : Type u}

/-- The actions inside the lock are those of its one holder. Free is true while nobody holds
the lock, Holds of the holder's next action. -/
structure Locked (inside : A → Bool) (locked : C → Bool) (Free : C → Prop) (Holds : C → A → Prop)
    (c : C) (m : Multiset A) : Prop where
  excl : cnt inside m = (locked c).toNat
  free : locked c = false → Free c
  held : ∀ a ∈ m, inside a = true → Holds c a

namespace Locked

variable {inside : A → Bool} {locked : C → Bool} {Free : C → Prop} {Holds : C → A → Prop}
variable {c c' : C} {a : A} {rest pushed : Multiset A}

theorem locked_of_inside {m : Multiset A} (h : Locked inside locked Free Holds c m) (ha : a ∈ m)
    (hin : inside a = true) : locked c = true := by
  have hpos := cnt_pos_of_mem ha hin
  rw [h.excl] at hpos
  cases hl : locked c with
  | true => rfl
  | false =>
    rw [hl] at hpos
    cases hpos

theorem taken (hlock : locked c = true) (ha : inside a = true) (hholds : Holds c a) :
    Locked inside locked Free Holds c ([a] : List A) := by
  refine ⟨?_, ?_, ?_⟩
  · rw [cnt_coe_cons, ha, hlock]
    rfl
  · intro hf
    rw [hlock] at hf
    cases hf
  · intro b hb _
    obtain rfl := List.mem_singleton.mp (Multiset.mem_coe.mp hb)
    exact hholds

theorem given_back (hlock : locked c = false) (hpushed : cnt inside pushed = 0) (hfree : Free c) :
    Locked inside locked Free Holds c pushed := by
  refine ⟨?_, fun _ => hfree, ?_⟩
  · rw [hpushed, hlock]
    rfl
  · intro b hb hin
    rw [cnt_eq_zero.mp hpushed b hb] at hin
    cases hin

/-- The holder, or whoever finds the lock free, has the others outside. -/
theorem others_outside (h : Locked inside locked Free Holds c (a ::ₘ rest))
    (ha : inside a = true ∨ locked c = false) : cnt inside rest = 0 := by
  have hexcl := h.excl
  have hle := Bool.toNat_le (locked c)
  rw [cnt_cons] at hexcl
  rcases ha with ha | ha
  · rw [ha, Bool.toNat_true] at hexcl
    omega
  · rw [ha, Bool.toNat_false] at hexcl
    omega

/-- An action of the holder, or of a thread that finds the lock free, answers for itself
alone. -/
theorem alone (h : Locked inside locked Free Holds c (a ::ₘ rest))
    (ha : inside a = true ∨ locked c = false) (h' : Locked inside locked Free Holds c' pushed) :
    Locked inside locked Free Holds c' (pushed + rest) := by
  have hrest := h.others_outside ha
  refine ⟨?_, h'.free, ?_⟩
  · rw [cnt_add, hrest, h'.excl, Nat.add_zero]
  · intro b hb hin
    rcases Multiset.mem_add.mp hb with hb | hb
    · exact h'.held b hb hin
    · rw [cnt_eq_zero.mp hrest b hb] at hin
      cases hin

/-- What leaves alone what the lock protects, and adds no action inside it. -/
theorem add {m : Multiset A} (h : Locked inside locked Free Holds c m)
    (hpushed : cnt inside pushed = 0) (hlock : locked c' = locked c)
    (hfree : Free c → Free c') (hholds : ∀ b ∈ m, inside b = true → Holds c b → Holds c' b) :
    Locked inside locked Free Holds c' (pushed + m) := by
  refine ⟨?_, ?_, ?_⟩
  · rw [cnt_add, hpushed, h.excl, hlock, Nat.zero_add]
  · intro hf
    exact hfree (h.free (hlock ▸ hf))
  · intro b hb hin
    rcases Multiset.mem_add.mp hb with hb | hb
    · rw [cnt_eq_zero.mp hpushed b hb] at hin
      cases hin
    · exact hholds b hb hin (h.held b hb hin)

theorem frame (h : Locked inside locked Free Holds c (a ::ₘ rest)) (ha : inside a = false)
    (hpushed : cnt inside pushed = 0) (hlock : locked c' = locked c)
    (hfree : Free c → Free c') (hholds : ∀ b, inside b = true → Holds c b → Holds c' b) :
    Locked inside locked Free Holds c' (pushed + rest) := by
  have hrest : Locked inside locked Free Holds c rest := by
    refine ⟨?_, h.free, fun b hb => h.held b (Multiset.mem_cons_of_mem hb)⟩
    have hexcl := h.excl
    rwa [cnt_cons, ha, Bool.toNat_false, Nat.zero_add] at hexcl
  exact hrest.add hpushed hlock hfree fun b _ => hholds b

end Locked

end LinuxDeviceDriver.Lib.Mutex
