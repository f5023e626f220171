/- digest: A loop that may be left in the middle of its body, with fuel: when it ends, and what is
     true at its end. -/

import Mathlib.Data.Nat.Init

set_option autoImplicit false

namespace LinuxDeviceDriver.Lib.Loop

universe u

variable {S : Type u}

/-- What an iteration comes to: the condition is tested again, or the loop is left. -/
inductive Next (S : Type u)
  | again (s : S)
  | leave (s : S)

/-- The fuel is the number of times that the condition may be tested. -/
def loop (cond : S → Bool) (body : S → Next S) : Nat → S → Option S
  | 0, _ => none
  | fuel + 1, s =>
    if cond s then
      match body s with
      | .again s' => loop cond body fuel s'
      | .leave s' => some s'
    else some s

section Rules

variable {cond : S → Bool} {body : S → Next S} {fuel : Nat} {s s' : S}

theorem loop_stop (h : cond s = false) : loop cond body (fuel + 1) s = some s := by
  rw [loop, if_neg (by rw [h]; exact Bool.false_ne_true)]

theorem loop_again (h : cond s = true) (hbody : body s = .again s') :
    loop cond body (fuel + 1) s = loop cond body fuel s' := by
  rw [loop, if_pos h, hbody]

theorem loop_leave (h : cond s = true) (hbody : body s = .leave s') :
    loop cond body (fuel + 1) s = some s' := by
  rw [loop, if_pos h, hbody]

/-- A loop ends whose iterations each lower a rank, unless they leave it. -/
theorem loop_ends (rank : S → Nat)
    (hrank : ∀ s s', cond s = true → body s = .again s' → rank s' < rank s) (s : S) :
    ∃ s', ∀ fuel, rank s < fuel → loop cond body fuel s = some s' := by
  generalize hr : rank s = r
  induction r using Nat.strong_induction_on generalizing s with
  | _ r ih =>
    cases hcond : cond s with
    | false =>
      refine ⟨s, fun fuel hfuel => ?_⟩
      obtain ⟨fuel, rfl⟩ := Nat.exists_eq_succ_of_ne_zero (Nat.ne_zero_of_lt hfuel)
      exact loop_stop hcond
    | true =>
      cases hbody : body s with
      | leave s' =>
        refine ⟨s', fun fuel hfuel => ?_⟩
        obtain ⟨fuel, rfl⟩ := Nat.exists_eq_succ_of_ne_zero (Nat.ne_zero_of_lt hfuel)
        exact loop_leave hcond hbody
      | again s₁ =>
        have hless : rank s₁ < r := hr ▸ hrank s s₁ hcond hbody
        obtain ⟨s', hs'⟩ := ih (rank s₁) hless s₁ rfl
        refine ⟨s', fun fuel hfuel => ?_⟩
        obtain ⟨fuel, rfl⟩ := Nat.exists_eq_succ_of_ne_zero (Nat.ne_zero_of_lt hfuel)
        rw [loop_again hcond hbody]
        exact hs' fuel (by omega)

/-- What is true before each test of the condition gives what is true at the end, whether the
condition fails or the loop is left. -/
theorem loop_post {Inv Post : S → Prop}
    (hagain : ∀ s s', Inv s → cond s = true → body s = .again s' → Inv s')
    (hleave : ∀ s s', Inv s → cond s = true → body s = .leave s' → Post s')
    (hstop : ∀ s, Inv s → cond s = false → Post s)
    (h : Inv s) (hloop : loop cond body fuel s = some s') : Post s' := by
  induction fuel generalizing s with
  | zero => cases hloop
  | succ fuel ih =>
    cases hcond : cond s with
    | false =>
      rw [loop_stop hcond] at hloop
      obtain rfl := Option.some.inj hloop
      exact hstop s h hcond
    | true =>
      cases hbody : body s with
      | again s₁ =>
        rw [loop_again hcond hbody] at hloop
        exact ih (hagain s s₁ h hcond hbody) hloop
      | leave s₁ =>
        rw [loop_leave hcond hbody] at hloop
        obtain rfl := Option.some.inj hloop
        exact hleave s s₁ h hcond hbody

end Rules

end LinuxDeviceDriver.Lib.Loop
