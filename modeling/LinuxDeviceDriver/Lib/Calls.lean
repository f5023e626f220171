/- digest: Numbered calls, each of which has one action to come or has ended, and not both; and
     what each has entered in a ledger by the time it reports. -/

import LinuxDeviceDriver.Lib.Threads

set_option autoImplicit false

namespace LinuxDeviceDriver.Lib.Calls

open Threads

universe u

variable {A : Type u}

/-- Of the calls made so far, each has exactly one action to come or has ended exactly once. -/
def Accounted (number : A → Nat) (calls : Nat) (ended : List Nat) (m : Multiset A) : Prop :=
  ∀ id, cnt (fun a => number a == id) m + ended.count id = (decide (id < calls)).toNat

namespace Accounted

variable {number : A → Nat} {calls : Nat} {ended : List Nat} {m rest : Multiset A} {a b : A}

theorem none (number : A → Nat) : Accounted number 0 [] 0 := by
  intro id
  rfl

theorem start (h : Accounted number calls ended m) (ha : number a = calls) :
    Accounted number (calls + 1) ended (([a] : List A) + m) := by
  intro id
  have hid := h id
  rw [cnt_add, cnt_coe_cons, cnt_coe_nil, ha]
  by_cases heq : calls = id
  · subst heq
    simp only [lt_irrefl, decide_false, Bool.toNat_false] at hid
    simp only [beq_self_eq_true, Bool.toNat_true, Nat.lt_succ_self, decide_true]
    omega
  · have hne : (calls == id) = false := by simpa using heq
    have hlt : decide (id < calls + 1) = decide (id < calls) := by
      rw [decide_eq_decide]
      omega
    rw [hne, hlt, Bool.toNat_false]
    omega

theorem next (h : Accounted number calls ended (a ::ₘ rest)) (hb : number b = number a) :
    Accounted number calls ended (([b] : List A) + rest) := by
  intro id
  have hid := h id
  rw [cnt_cons, ← hb] at hid
  rw [cnt_add, cnt_coe_cons, cnt_coe_nil]
  omega

theorem finish (h : Accounted number calls ended (a ::ₘ rest)) :
    Accounted number calls (ended ++ [number a]) (([] : List A) + rest) := by
  intro id
  have hid := h id
  rw [cnt_cons] at hid
  rw [cnt_add, cnt_coe_nil, List.count_append]
  by_cases heq : number a = id
  · rw [heq, beq_self_eq_true, Bool.toNat_true] at hid
    rw [heq, List.count_singleton_self]
    omega
  · have hne : (number a == id) = false := by simpa using heq
    rw [hne, Bool.toNat_false] at hid
    have hnone : [number a].count id = 0 :=
      List.count_eq_zero_of_not_mem (by simpa using Ne.symm heq)
    omega

theorem lt_calls (h : Accounted number calls ended m) (ha : a ∈ m) : number a < calls := by
  have hid := h (number a)
  have hpos : 0 < cnt (fun b => number b == number a) m :=
    cnt_pos_of_mem ha (beq_self_eq_true _)
  by_contra hge
  rw [decide_eq_false hge, Bool.toNat_false] at hid
  omega

/-- No other call has the number of one that is in progress. -/
theorem ne_of_mem (h : Accounted number calls ended (a ::ₘ rest)) (hb : b ∈ rest) :
    number b ≠ number a := by
  intro heq
  have hid := h (number a)
  have hle := Bool.toNat_le (decide (number a < calls))
  have hpos : 0 < cnt (fun x => number x == number a) rest :=
    cnt_pos_of_mem hb (by simpa using heq)
  rw [cnt_cons, beq_self_eq_true, Bool.toNat_true] at hid
  omega

theorem ne_of_ended (h : Accounted number calls ended (a ::ₘ rest)) {id : Nat} (hid : id ∈ ended) :
    id ≠ number a := by
  rintro rfl
  have hsum := h (number a)
  have hle := Bool.toNat_le (decide (number a < calls))
  have hpos := List.count_pos_iff.mpr hid
  rw [cnt_cons, beq_self_eq_true, Bool.toNat_true] at hsum
  omega

end Accounted

/-! ## A log with the numbers of the calls -/

section Log

variable {V : Type u} {log : List (Nat × V)} {id id' : Nat} {v : V}

/-- What a log says of one call, in order. -/
def entriesOf (log : List (Nat × V)) (id : Nat) : List V :=
  (log.filter fun e => e.1 == id).map Prod.snd

@[simp] theorem entriesOf_nil (id : Nat) : entriesOf ([] : List (Nat × V)) id = [] := rfl

theorem entriesOf_own : entriesOf (log ++ [(id, v)]) id = entriesOf log id ++ [v] := by
  simp [entriesOf]

theorem entriesOf_other (h : id ≠ id') : entriesOf (log ++ [(id', v)]) id = entriesOf log id := by
  have hne : (id' == id) = false := by simpa using Ne.symm h
  simp [entriesOf, hne]

end Log

/-! ## A ledger of what the calls do -/

section Ledger

variable {V E : Type u} {number : A → Nat} {blank : E} {Open : A → E → Prop}
variable {Closed : V → E → Prop}

/-- What has been entered for a call: nothing at first, then what suits its next action, and in the
end what suits the value it reported. -/
structure Ledger (number : A → Nat) (blank : E) (Open : A → E → Prop) (Closed : V → E → Prop)
    (calls : Nat) (entries : Nat → E) (reported : List (Nat × V)) (m : Multiset A) : Prop where
  each : Accounted number calls (reported.map Prod.fst) m
  early : ∀ id, calls ≤ id → entries id = blank
  current : ∀ a ∈ m, Open a (entries (number a))
  closed : ∀ r ∈ reported, Closed r.2 (entries r.1)

namespace Ledger

variable {calls : Nat} {entries entries' : Nat → E} {reported : List (Nat × V)}
variable {m rest : Multiset A} {a b : A} {v : V}

theorem none : Ledger number blank Open Closed 0 (fun _ => blank) [] 0 where
  each := Accounted.none number
  early _ _ := rfl
  current a ha := absurd ha (Multiset.notMem_zero a)
  closed _ hr := absurd hr List.not_mem_nil

theorem start (h : Ledger number blank Open Closed calls entries reported m)
    (ha : number a = calls) (hopen : Open a blank) :
    Ledger number blank Open Closed (calls + 1) entries reported (([a] : List A) + m) where
  each := h.each.start ha
  early id hid := h.early id (by omega)
  current b hb := by
    rcases Multiset.mem_add.mp hb with hb | hb
    · obtain rfl := List.mem_singleton.mp (Multiset.mem_coe.mp hb)
      rw [h.early _ ha.ge]
      exact hopen
    · exact h.current b hb
  closed := h.closed

theorem next (h : Ledger number blank Open Closed calls entries reported (a ::ₘ rest))
    (hb : number b = number a) (hother : ∀ id, id ≠ number a → entries' id = entries id)
    (hopen : Open b (entries' (number a))) :
    Ledger number blank Open Closed calls entries' reported (([b] : List A) + rest) where
  each := h.each.next hb
  early id hid := by
    have hlt := h.each.lt_calls (Multiset.mem_cons_self a rest)
    rw [hother id (by omega)]
    exact h.early id hid
  current x hx := by
    rcases Multiset.mem_add.mp hx with hx | hx
    · obtain rfl := List.mem_singleton.mp (Multiset.mem_coe.mp hx)
      rw [hb]
      exact hopen
    · rw [hother _ (h.each.ne_of_mem hx)]
      exact h.current x (Multiset.mem_cons_of_mem hx)
  closed r hr := by
    rw [hother r.1 (h.each.ne_of_ended (List.mem_map_of_mem hr))]
    exact h.closed r hr

theorem report (h : Ledger number blank Open Closed calls entries reported (a ::ₘ rest))
    (hother : ∀ id, id ≠ number a → entries' id = entries id)
    (hclosed : Closed v (entries' (number a))) :
    Ledger number blank Open Closed calls entries' (reported ++ [(number a, v)])
      (([] : List A) + rest) where
  each := by
    rw [List.map_append]
    exact h.each.finish
  early id hid := by
    have hlt := h.each.lt_calls (Multiset.mem_cons_self a rest)
    rw [hother id (by omega)]
    exact h.early id hid
  current x hx := by
    rw [Multiset.coe_nil, zero_add] at hx
    rw [hother _ (h.each.ne_of_mem hx)]
    exact h.current x (Multiset.mem_cons_of_mem hx)
  closed r hr := by
    rcases List.mem_append.mp hr with hr | hr
    · rw [hother r.1 (h.each.ne_of_ended (List.mem_map_of_mem hr))]
      exact h.closed r hr
    · obtain rfl := List.mem_singleton.mp hr
      exact hclosed

/-- A call that was made is in progress, or it has reported a value. -/
theorem cases (h : Ledger number blank Open Closed calls entries reported m) {id : Nat}
    (hid : id < calls) :
    (∃ a ∈ m, number a = id ∧ Open a (entries id)) ∨
      ∃ v, (id, v) ∈ reported ∧ Closed v (entries id) := by
  have hsum := h.each id
  rw [decide_eq_true hid, Bool.toNat_true] at hsum
  rcases Nat.eq_zero_or_pos (cnt (fun a => number a == id) m) with hnone | hsome
  · have hmem : id ∈ reported.map Prod.fst := List.count_pos_iff.mp (by omega)
    obtain ⟨r, hr, rfl⟩ := List.mem_map.mp hmem
    exact .inr ⟨r.2, hr, h.closed r hr⟩
  · obtain ⟨a, ha, hnumber⟩ := cnt_pos.mp hsome
    obtain rfl := eq_of_beq hnumber
    exact .inl ⟨a, ha, rfl, h.current a ha⟩

end Ledger

end Ledger

end LinuxDeviceDriver.Lib.Calls
