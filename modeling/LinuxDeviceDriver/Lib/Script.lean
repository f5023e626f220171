/- digest: One thread among others that works through a fixed list of steps, once. -/

import LinuxDeviceDriver.Lib.Threads

set_option autoImplicit false

namespace LinuxDeviceDriver.Lib.Script

open Threads

universe u

section Order

variable {X : Type u} {script done todo : List X} {x : X}

/-- What is true wherever the list is cut is true of what is done. -/
theorem of_prefix {P : List X → Prop} (h : done <+: script)
    (hall : ∀ k ∈ List.range (script.length + 1), P (script.take k)) : P done := by
  have hle := h.length_le
  rw [List.prefix_iff_eq_take.mp h]
  exact hall done.length (List.mem_range.mpr (by omega))

/-- The same of a step, with what comes before and after it. -/
theorem of_split {P : List X → X → List X → Prop} (h : done ++ x :: todo = script)
    (hall : ∀ k ∈ List.range script.length, ∀ y ∈ (script.drop k).head?,
      P (script.take k) y (script.drop (k + 1))) : P done x todo := by
  subst h
  have hlen : done.length < (done ++ x :: todo).length := by
    rw [List.length_append, List.length_cons]
    omega
  have hstep := hall done.length (List.mem_range.mpr hlen) x
  rw [List.take_left, List.drop_left, ← List.drop_drop, List.drop_left] at hstep
  exact hstep rfl

end Order

variable {A X : Type u}

/-- The steps that are done are the first of the script; whoever has steps left has the others;
and that is one from the start of the script to its end. -/
structure Followed (left : A → Option (List X)) (script done : List X) (started : Bool)
    (m : Multiset A) : Prop where
  inOrder : done <+: script
  todo : ∀ a ∈ m, ∀ t, left a = some t → done ++ t = script
  once : cnt (fun a => (left a).isSome) m ≤ started.toNat
  before : started = false → done = []
  unfinished : started = true → done ≠ script → ∃ a ∈ m, ∃ t, left a = some t

namespace Followed

variable {left : A → Option (List X)} {script done todo : List X} {started : Bool} {x : X}
variable {m rest : Multiset A} {pushed : List A} {a b : A}

theorem none (left : A → Option (List X)) (script : List X) : Followed left script [] false 0 where
  inOrder := List.nil_prefix
  todo a ha := absurd ha (Multiset.notMem_zero a)
  once := Nat.le_refl 0
  before _ := rfl
  unfinished hno := absurd hno Bool.false_ne_true

theorem add (h : Followed left script done started m) (hpushed : ∀ b ∈ pushed, left b = .none) :
    Followed left script done started ((pushed : Multiset A) + m) where
  inOrder := h.inOrder
  todo b hb t ht := by
    rcases Multiset.mem_add.mp hb with hb | hb
    · rw [hpushed b (Multiset.mem_coe.mp hb)] at ht
      cases ht
    · exact h.todo b hb t ht
  once := by
    have hnone : cnt (fun a => (left a).isSome) (pushed : Multiset A) = 0 := by
      rw [cnt_eq_zero]
      intro b hb
      rw [hpushed b (Multiset.mem_coe.mp hb)]
      rfl
    rw [cnt_add, hnone, Nat.zero_add]
    exact h.once
  before := h.before
  unfinished hyes hne := by
    obtain ⟨a, ha, t, ht⟩ := h.unfinished hyes hne
    exact ⟨a, Multiset.mem_add.mpr (.inr ha), t, ht⟩

theorem drop (h : Followed left script done started (a ::ₘ rest)) (ha : left a = .none) :
    Followed left script done started rest where
  inOrder := h.inOrder
  todo b hb := h.todo b (Multiset.mem_cons_of_mem hb)
  once := by
    have honce := h.once
    rw [cnt_cons] at honce
    omega
  before := h.before
  unfinished hyes hne := by
    obtain ⟨b, hb, t, ht⟩ := h.unfinished hyes hne
    rcases Multiset.mem_cons.mp hb with rfl | hb
    · rw [ha] at ht
      cases ht
    · exact ⟨b, hb, t, ht⟩

theorem other (h : Followed left script done started (a ::ₘ rest)) (ha : left a = .none)
    (hpushed : ∀ b ∈ pushed, left b = .none) :
    Followed left script done started ((pushed : Multiset A) + rest) :=
  (h.drop ha).add hpushed

theorem start (h : Followed left script done false m) (hb : left b = some script) :
    Followed left script done true (([b] : List A) + m) := by
  have hdone := h.before rfl
  have hnone : cnt (fun a => (left a).isSome) m = 0 := Nat.le_zero.mp h.once
  refine ⟨h.inOrder, ?_, ?_, nofun, ?_⟩
  · intro a ha t ht
    rcases Multiset.mem_add.mp ha with ha | ha
    · obtain rfl := List.mem_singleton.mp (Multiset.mem_coe.mp ha)
      obtain rfl := Option.some.inj (hb.symm.trans ht)
      rw [hdone, List.nil_append]
    · have hleft := cnt_eq_zero.mp hnone a ha
      rw [ht] at hleft
      cases hleft
  · rw [cnt_add, hnone, cnt_coe_cons, cnt_coe_nil, hb]
    exact Nat.le_refl 1
  · intro _ _
    exact ⟨b, Multiset.mem_add.mpr (.inl (Multiset.mem_coe.mpr List.mem_cons_self)), script, hb⟩

/-- The next step of the script; after the last one nothing is left. -/
theorem advance (h : Followed left script done started (a ::ₘ rest))
    (ha : left a = some (x :: todo)) (hb : left b = some todo)
    (hpushed : pushed = [b] ∨ (pushed = [] ∧ todo = [])) :
    Followed left script (done ++ [x]) started ((pushed : Multiset A) + rest) := by
  have hsplit := h.todo a (Multiset.mem_cons_self a rest) _ ha
  have honce := h.once
  rw [cnt_cons, ha, Option.isSome_some, Bool.toNat_true] at honce
  have hle := Bool.toNat_le started
  have hothers : cnt (fun a => (left a).isSome) rest = 0 := by omega
  refine ⟨⟨todo, ?_⟩, ?_, ?_, ?_, ?_⟩
  · rw [List.append_assoc]
    exact hsplit
  · intro a' ha' t ht
    rcases Multiset.mem_add.mp ha' with ha' | ha'
    · rcases hpushed with rfl | ⟨rfl, -⟩
      · obtain rfl := List.mem_singleton.mp (Multiset.mem_coe.mp ha')
        obtain rfl := Option.some.inj (hb.symm.trans ht)
        rw [List.append_assoc]
        exact hsplit
      · cases ha'
    · have hleft := cnt_eq_zero.mp hothers a' ha'
      rw [ht] at hleft
      cases hleft
  · have hcnt : cnt (fun a => (left a).isSome) (pushed : Multiset A) ≤ pushed.length :=
      Multiset.countP_le_card _ _
    have hone : pushed.length ≤ 1 := by
      rcases hpushed with rfl | ⟨rfl, -⟩
      · exact Nat.le_refl 1
      · exact Nat.zero_le 1
    rw [cnt_add, hothers]
    omega
  · intro hno
    rw [hno, Bool.toNat_false] at honce
    omega
  · intro _ hne
    rcases hpushed with rfl | ⟨-, rfl⟩
    · exact ⟨b, Multiset.mem_add.mpr (.inl (Multiset.mem_coe.mpr List.mem_cons_self)), todo, hb⟩
    · exact absurd hsplit hne

end Followed

end LinuxDeviceDriver.Lib.Script
