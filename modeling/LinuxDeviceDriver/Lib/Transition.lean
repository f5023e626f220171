/- digest: Labelled transition systems: runs, invariants and simulations. -/

import Mathlib.Data.List.Basic

set_option autoImplicit false

namespace LinuxDeviceDriver.Lib.Transition

universe u v w

variable {S : Type u} {L : Type v} {T : Type w} {M : Type*}

/-- A finite run: each label takes one step. -/
inductive Steps (step : S → L → S → Prop) : S → List L → S → Prop
  | nil (s : S) : Steps step s [] s
  | cons {s s' s'' : S} {l : L} {ls : List L} (h : step s l s') (hs : Steps step s' ls s'') :
      Steps step s (l :: ls) s''

theorem Steps.append {step : S → L → S → Prop} {s s' s'' : S} {ls ls' : List L}
    (h : Steps step s ls s') (h' : Steps step s' ls' s'') : Steps step s (ls ++ ls') s'' := by
  induction h with
  | nil s => exact h'
  | cons hstep _ ih => exact .cons hstep (ih h')

/-- The runs of a step function. -/
def exec (next : S → L → Option S) : S → List L → Option S
  | s, [] => some s
  | s, l :: ls => (next s l).bind fun s' => exec next s' ls

theorem exec_steps {next : S → L → Option S} {s s' : S} {ls : List L}
    (h : exec next s ls = some s') : Steps (fun s l s' => next s l = some s') s ls s' := by
  induction ls generalizing s with
  | nil =>
    obtain rfl := Option.some.inj h
    exact .nil s
  | cons l ls ih =>
    obtain ⟨t, ht, h⟩ := Option.bind_eq_some_iff.mp h
    exact .cons ht (ih h)

theorem Steps.invariant {step : S → L → S → Prop} {Inv : S → Prop}
    (hstep : ∀ s l s', Inv s → step s l s' → Inv s') {s s' : S} {ls : List L}
    (h : Steps step s ls s') (hs : Inv s) : Inv s' := by
  induction h with
  | nil s => exact hs
  | cons h _ ih => exact ih (hstep _ _ _ hs h)

/-- An invariant that looks back at the labels so far. -/
theorem Steps.history {step : S → L → S → Prop} {I : List L → S → Prop}
    (hstep : ∀ past s l s', I past s → step s l s' → I (past ++ [l]) s') {s s' : S}
    {ls past : List L} (h : Steps step s ls s') (hs : I past s) : I (past ++ ls) s' := by
  induction h generalizing past with
  | nil s =>
    rw [List.append_nil]
    exact hs
  | cons h _ ih =>
    have hrest := ih (hstep _ _ _ _ hs h)
    rw [List.append_assoc] at hrest
    exact hrest

/-- A run that has come through a state with a property, which it may have lost since. -/
def Passed (step : S → L → S → Prop) (P : S → Prop) (s₀ : S) (ls : List L) (s : S) : Prop :=
  ∃ before after t, ls = before ++ after ∧ Steps step s₀ before t ∧ Steps step t after s ∧ P t

/-- What only a step from a state with the property brings about is true only after such a state. -/
theorem Steps.passed {step : S → L → S → Prop} {P Q : S → Prop}
    (hstep : ∀ s l s', step s l s' → Q s' → Q s ∨ P s) {s s' : S} {ls : List L}
    (h : Steps step s ls s') (hs : ¬Q s) (hs' : Q s') : Passed step P s ls s' := by
  induction h with
  | nil s => exact absurd hs' hs
  | @cons s t u l ls hfirst hrest ih =>
    by_cases hq : Q t
    · have hP : P s := (hstep s l t hfirst hq).resolve_left hs
      exact ⟨[], l :: ls, s, rfl, .nil s, .cons hfirst hrest, hP⟩
    · obtain ⟨before, after, v, rfl, hbefore, hafter, hP⟩ := ih hq hs'
      exact ⟨l :: before, after, v, rfl, .cons hfirst hbefore, hafter, hP⟩

/-- What an invariant makes true of every step is true of every label of a run. -/
theorem Steps.forall_label {step : S → L → S → Prop} {Inv : S → Prop} {P : L → Prop}
    (hstep : ∀ s l s', Inv s → step s l s' → Inv s')
    (hlabel : ∀ s l s', Inv s → step s l s' → P l) {s s' : S} {ls : List L}
    (h : Steps step s ls s') (hs : Inv s) : ∀ l ∈ ls, P l := by
  induction h with
  | nil s =>
    intro l hl
    exact absurd hl List.not_mem_nil
  | cons h _ ih =>
    intro l hl
    rcases List.mem_cons.mp hl with rfl | hl
    · exact hlabel _ _ _ hs h
    · exact ih (hstep _ _ _ hs h) l hl

/-- A step-by-step simulation carries over to runs. The abstraction maps states
and labels; the invariant is the concrete side's own. -/
theorem Steps.simulation {step : S → L → S → Prop} {astep : T → M → T → Prop} {Inv : S → Prop}
    (abs : S → T) (obs : L → M) (hstep : ∀ s l s', Inv s → step s l s' → Inv s')
    (hsim : ∀ s l s', Inv s → step s l s' → astep (abs s) (obs l) (abs s')) {s s' : S}
    {ls : List L} (h : Steps step s ls s') (hs : Inv s) :
    Steps astep (abs s) (ls.map obs) (abs s') := by
  induction h with
  | nil s => exact .nil _
  | cons h _ ih => exact .cons (hsim _ _ _ hs h) (ih (hstep _ _ _ hs h))

/-- A simulation in which one step is a run of the other system, of any length. -/
theorem Steps.simulation_runs {step : S → L → S → Prop} {astep : T → M → T → Prop} (abs : S → T)
    (obs : L → List M) (hsim : ∀ s l s', step s l s' → Steps astep (abs s) (obs l) (abs s'))
    {s s' : S} {ls : List L} (h : Steps step s ls s') :
    Steps astep (abs s) (ls.flatMap obs) (abs s') := by
  induction h with
  | nil s => exact .nil _
  | cons hstep _ ih =>
    rw [List.flatMap_cons]
    exact (hsim _ _ _ hstep).append ih

/-- A simulation by a relation: each run has a run of the other system with the same labels
that ends in a related state. -/
theorem Steps.forward {step : S → L → S → Prop} {astep : T → L → T → Prop} {R : S → T → Prop}
    (hsim : ∀ s t l s', R s t → step s l s' → ∃ t', astep t l t' ∧ R s' t') {s s' : S}
    {ls : List L} (h : Steps step s ls s') {t : T} (ht : R s t) :
    ∃ t', Steps astep t ls t' ∧ R s' t' := by
  induction h generalizing t with
  | nil s => exact ⟨t, .nil t, ht⟩
  | cons h _ ih =>
    obtain ⟨u, hu, hr⟩ := hsim _ _ _ _ ht h
    obtain ⟨t', hs, hr'⟩ := ih hr
    exact ⟨t', .cons hu hs, hr'⟩

/-- The steps that meet a condition on the state they are taken in. -/
def Guarded (G : S → L → Prop) (step : S → L → S → Prop) (s : S) (l : L) (s' : S) : Prop :=
  G s l ∧ step s l s'

/-- The runs of a step function whose steps all meet a decidable condition. -/
theorem exec_guarded_steps {next : S → L → Option S} {G : S → L → Prop}
    [∀ s l, Decidable (G s l)] {s s' : S} {ls : List L}
    (h : exec (fun s l => if G s l then next s l else none) s ls = some s') :
    Steps (Guarded G fun s l s' => next s l = some s') s ls s' := by
  induction ls generalizing s with
  | nil =>
    obtain rfl := Option.some.inj h
    exact .nil s
  | cons l ls ih =>
    obtain ⟨t, ht, h⟩ := Option.bind_eq_some_iff.mp h
    obtain ⟨hg, ht⟩ := Option.ite_none_right_eq_some.mp ht
    exact .cons ⟨hg, ht⟩ (ih h)

/-! ## Labels with what is observed -/

/-- The labels of a run, each with what is observed in the state that it is taken in. -/
def annotate (next : S → L → Option S) (obs : S → L → M) : S → List L → List (L × M)
  | _, [] => []
  | s, l :: ls => (l, obs s l) :: (next s l).elim [] fun t => annotate next obs t ls

def Annotated (obs : S → L → M) (step : S → L → S → Prop) (s : S) (l : L × M) (s' : S) : Prop :=
  step s l.1 s' ∧ l.2 = obs s l.1

/-- Every run of a step function, with what is observed on the way. -/
theorem Steps.annotated {step : S → L → S → Prop} {next : S → L → Option S} {obs : S → L → M}
    (hnext : ∀ s l s', step s l s' → next s l = some s') {s s' : S} {ls : List L}
    (h : Steps step s ls s') : Steps (Annotated obs step) s (annotate next obs s ls) s' := by
  induction h with
  | nil s => exact .nil s
  | cons hstep _ ih =>
    rw [annotate, hnext _ _ _ hstep]
    exact .cons ⟨hstep, rfl⟩ ih

end LinuxDeviceDriver.Lib.Transition
