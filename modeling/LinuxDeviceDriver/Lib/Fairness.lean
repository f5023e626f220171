/- digest: Infinite runs, weak fairness, and progress by a rank. -/

import Mathlib.Data.Nat.Init
import Mathlib.Tactic.ByContra

set_option autoImplicit false

namespace LinuxDeviceDriver.Lib.Fairness

universe u v

variable {S : Type u} {L : Type v} {step : S → L → S → Prop}

/-- An infinite run: every state goes to the next by one labelled step. -/
structure Run (step : S → L → S → Prop) where
  state : Nat → S
  label : Nat → L
  next : ∀ i, step (state i) (label i) (state (i + 1))

theorem Run.invariant (r : Run step) {Inv : S → Prop}
    (hstep : ∀ s l s', Inv s → step s l s' → Inv s') (h0 : Inv (r.state 0)) (i : Nat) :
    Inv (r.state i) := by
  induction i with
  | zero => exact h0
  | succ i ih => exact hstep _ _ _ ih (r.next i)

/-- The states of a step function along a sequence of labels. -/
def follow (next : S → L → Option S) (label : Nat → L) (s : S) : Nat → S
  | 0 => s
  | i + 1 => (next (follow next label s i) (label i)).getD (follow next label s i)

theorem follow_succ {next : S → L → Option S} {label : Nat → L} {s : S} {i : Nat}
    (h : (next (follow next label s i) (label i)).isSome = true) :
    next (follow next label s i) (label i) = some (follow next label s (i + 1)) := by
  obtain ⟨t, ht⟩ := Option.isSome_iff_exists.mp h
  rw [follow, ht]
  rfl

/-- Something that fairness can be asked of: when it is enabled, and which
labels take it. -/
structure Action (S : Type u) (L : Type v) where
  enabled : S → Prop
  taken : L → Prop

/-- An action that stays enabled is taken at last. -/
def Run.WeakFair (r : Run step) (a : Action S L) : Prop :=
  ∀ i, (∀ j, i ≤ j → a.enabled (r.state j)) → ∃ j, i ≤ j ∧ a.taken (r.label j)

/-- While P holds and the goal is not reached, one fair action helps: it is
enabled, no other step changes which one it is or raises the rank, and taking it
lowers the rank. Then the goal is reached. -/
theorem Run.progress (r : Run step) {P : S → Prop} {Goal : S → L → S → Prop} (rank : S → Nat)
    (help : S → Action S L) (hfair : ∀ s, P s → r.WeakFair (help s))
    (henabled : ∀ s, P s → (help s).enabled s)
    (hstep : ∀ s l s', P s → step s l s' → Goal s l s' ∨
      (P s' ∧ (rank s' < rank s ∨
        (rank s' = rank s ∧ help s' = help s ∧ ¬ (help s).taken l))))
    {i : Nat} (hi : P (r.state i)) :
    ∃ j, i ≤ j ∧ Goal (r.state j) (r.label j) (r.state (j + 1)) := by
  induction hn : rank (r.state i) using Nat.strong_induction_on generalizing i with
  | _ n ih =>
    by_contra hno
    have hgoal : ∀ j, i ≤ j → ¬ Goal (r.state j) (r.label j) (r.state (j + 1)) :=
      fun j hj hg => hno ⟨j, hj, hg⟩
    -- otherwise the rank stands still, and so does the helpful action, untaken
    have hstill : ∀ j, i ≤ j → P (r.state j) → rank (r.state j) = n →
        P (r.state (j + 1)) ∧ rank (r.state (j + 1)) = n ∧
          help (r.state (j + 1)) = help (r.state j) ∧ ¬ (help (r.state j)).taken (r.label j) := by
      intro j hj hp hr
      rcases hstep _ _ _ hp (r.next j) with hg | ⟨hp', hlt | ⟨heq, hsame, hnot⟩⟩
      · exact absurd hg (hgoal j hj)
      · obtain ⟨k, hk, hg⟩ := ih _ (hr ▸ hlt) hp' rfl
        exact absurd hg (hgoal k (by omega))
      · exact ⟨hp', heq.trans hr, hsame, hnot⟩
    have hall : ∀ k, P (r.state (i + k)) ∧ rank (r.state (i + k)) = n ∧
        help (r.state (i + k)) = help (r.state i) := by
      intro k
      induction k with
      | zero => exact ⟨hi, hn, rfl⟩
      | succ k ihk =>
        obtain ⟨hp, hr, hh⟩ := ihk
        obtain ⟨hp', hr', hh', -⟩ := hstill (i + k) (by omega) hp hr
        exact ⟨hp', hr', hh'.trans hh⟩
    have hon : ∀ j, i ≤ j → (help (r.state i)).enabled (r.state j) := by
      intro j hj
      obtain ⟨k, rfl⟩ := Nat.exists_eq_add_of_le hj
      obtain ⟨hp, -, hh⟩ := hall k
      exact hh ▸ henabled _ hp
    obtain ⟨j, hj, ht⟩ := hfair _ hi i hon
    obtain ⟨k, rfl⟩ := Nat.exists_eq_add_of_le hj
    obtain ⟨hp, hr, hh⟩ := hall k
    exact (hstill (i + k) hj hp hr).2.2.2 (hh ▸ ht)

end LinuxDeviceDriver.Lib.Fairness
