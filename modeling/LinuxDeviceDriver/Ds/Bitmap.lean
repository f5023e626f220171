/- source: examples/ds/bitmap/main.c, lines 9 and 21 to 38; lines 65 and 66
   digest: Any number of callers take slots of a bitmap and give them back: no slot is held twice,
     and a call fails only if all slots were taken at some moment of it. -/

import LinuxDeviceDriver.Lib.Bitmap
import LinuxDeviceDriver.Lib.Calls
import LinuxDeviceDriver.Lib.Transition

set_option autoImplicit false

namespace LinuxDeviceDriver.Ds.Bitmap

open Lib.Bitmap
open Lib.Calls (Accounted)
open Lib.Threads
open Lib.Transition (Steps Passed exec exec_steps)

def nslots : Nat := 40

def enospc : Int := -28

/-- A slot and who holds it: the call that took it, or none for a bit that was set before. -/
structure Hold where
  holder : Option Nat
  slot : Nat
  deriving DecidableEq, Repr

/-- The steps of take_slot, with the number of the call. -/
inductive Act
  | search (id : Nat)
  | claim (id bit : Nat)
  | ret (id : Nat) (value : Int)
  deriving DecidableEq, Repr

def Act.number : Act → Nat
  | .search id | .claim id _ | .ret id _ => id

/-- The bitmap. Then, for the record: the calls so far, the bits that a test_and_set_bit of a call
found clear and set, who holds which slot, and what the calls have returned. -/
structure Core where
  slots : BitVec 64
  calls : Nat := 0
  won : List (Nat × Nat) := []
  held : List Hold := []
  returned : List (Nat × Int) := []

/-- One step of a call. -/
def act (_ : Unit) (c : Core) : Act → Option (Core × List Act)
  | .search id =>
    let bit := findFirstZeroBit c.slots nslots
    if bit ≥ nslots then some (c, [.ret id enospc]) else some (c, [.claim id bit])
  | .claim id bit =>
    -- test_and_set_bit: the loop goes on where the bit was set
    if c.slots.getLsbD bit then some (c, [.search id])
    else
      some ({ c with
        slots := setBit c.slots bit
        won := c.won ++ [(id, bit)]
        held := ⟨some id, bit⟩ :: c.held }, [.ret id bit])
  | .ret id value => some ({ c with returned := c.returned ++ [(id, value)] }, [])

inductive Event
  | call
  | step (i : Nat)
  | giveBack (hold : Hold)
  deriving DecidableEq, Repr

/-- A slot is given back with clear_bit, by a holder whose call has returned. -/
def mayGiveBack (c : Core) (hold : Hold) : Prop :=
  hold ∈ c.held ∧ ∀ id ∈ hold.holder, id ∈ c.returned.map Prod.fst

instance (c : Core) (hold : Hold) : Decidable (mayGiveBack c hold) :=
  inferInstanceAs (Decidable (_ ∧ ∀ id ∈ hold.holder, _))

abbrev System := Pool Core Unit Act

def next (s : System) : Event → Option System
  | .call =>
    some (s.spawn { s.core with calls := s.core.calls + 1 } ⟨(), [.search s.core.calls]⟩)
  | .step i => s.run act i ()
  | .giveBack hold =>
    if mayGiveBack s.core hold then
      some { s with core := { s.core with
        slots := clearBit s.core.slots hold.slot, held := s.core.held.erase hold } }
    else none

/-- Before any call, with any bits set by others. -/
def start (slots : BitVec 64) : System :=
  { core := { slots, held := ((List.range nslots).filter slots.getLsbD).map (⟨none, ·⟩) } }

/-! ## The invariant -/

/-- A value that a call returns: the error, or a slot whose bit the call set. -/
def Returns (c : Core) (id : Nat) (value : Int) : Prop :=
  value = enospc ∨ ∃ bit : Nat, bit < nslots ∧ value = bit ∧ (id, bit) ∈ c.won

/-- The set bits are the slots held, each once; and what each call knows before its next step. A
slot is held from the moment that its bit is set, and still when the call returns it. -/
structure Inv (c : Core) (m : Multiset Act) : Prop where
  each : Accounted Act.number c.calls (c.returned.map Prod.fst) m
  bits : ∀ b < nslots, (c.slots.getLsbD b = true ↔ b ∈ c.held.map Hold.slot)
  below : ∀ h ∈ c.held, h.slot < nslots
  once : (c.held.map Hold.slot).Nodup
  claims : ∀ id bit, .claim id bit ∈ m → bit < nslots
  rets : ∀ id value, .ret id value ∈ m → Returns c id value
  holds : ∀ id (bit : Nat), .ret id bit ∈ m → ⟨some id, bit⟩ ∈ c.held
  returned : ∀ r ∈ c.returned, Returns c r.1 r.2

theorem slot_lt {bit : Nat} (h : bit < nslots) : bit < 64 := by
  unfold nslots at h
  omega

theorem start_inv (slots : BitVec 64) : Inv (start slots).core (start slots).pending := by
  have hslots : (start slots).core.held.map Hold.slot =
      (List.range nslots).filter slots.getLsbD := by
    unfold start
    dsimp only
    rw [List.map_map]
    exact List.map_id _
  refine ⟨Accounted.none _, ?_, ?_, ?_, ?_, ?_, ?_, ?_⟩
  · intro b hb
    rw [hslots, List.mem_filter, List.mem_range]
    exact ⟨fun h => ⟨hb, h⟩, fun h => h.2⟩
  · intro h hmem
    have hslot : h.slot ∈ (start slots).core.held.map Hold.slot := List.mem_map_of_mem hmem
    rw [hslots, List.mem_filter, List.mem_range] at hslot
    exact hslot.1
  · rw [hslots]
    exact List.nodup_range.filter _
  · intro id bit hmem
    exact absurd hmem (Multiset.notMem_zero _)
  · intro id value hmem
    exact absurd hmem (Multiset.notMem_zero _)
  · intro id bit hmem
    exact absurd hmem (Multiset.notMem_zero _)
  · intro r hmem
    exact absurd hmem List.not_mem_nil

section Step

variable {c c' : Core} {m rest : Multiset Act} {a b : Act} {pushed : List Act}

theorem Inv.call (h : Inv c m) :
    Inv { c with calls := c.calls + 1 } (([.search c.calls] : List Act) + m) := by
  have hother : ∀ a : Act, a ∈ (([.search c.calls] : List Act) : Multiset Act) + m →
      a ≠ .search c.calls → a ∈ m := by
    intro a ha hne
    rcases Multiset.mem_add.mp ha with hnew | hold
    · exact absurd (List.mem_singleton.mp (Multiset.mem_coe.mp hnew)) hne
    · exact hold
  exact ⟨h.each.start rfl, h.bits, h.below, h.once,
    fun id bit hmem => h.claims id bit (hother _ hmem (by simp)),
    fun id value hmem => h.rets id value (hother _ hmem (by simp)),
    fun id bit hmem => h.holds id bit (hother _ hmem (by simp)), h.returned⟩

theorem Inv.goOn (h : Inv c (a ::ₘ rest)) (hnumber : b.number = a.number)
    (hclaim : ∀ id bit, b = .claim id bit → bit < nslots)
    (hret : ∀ id value, b = .ret id value → value = enospc) :
    Inv c (([b] : List Act) + rest) := by
  have hcases : ∀ x : Act, x ∈ (([b] : List Act) : Multiset Act) + rest →
      b = x ∨ x ∈ a ::ₘ rest := by
    intro x hx
    rcases Multiset.mem_add.mp hx with hnew | hold
    · exact .inl (List.mem_singleton.mp (Multiset.mem_coe.mp hnew)).symm
    · exact .inr (Multiset.mem_cons_of_mem hold)
  refine ⟨h.each.next hnumber, h.bits, h.below, h.once, ?_, ?_, ?_, h.returned⟩
  · intro id bit hmem
    rcases hcases _ hmem with hnew | hold
    · exact hclaim id bit hnew
    · exact h.claims id bit hold
  · intro id value hmem
    rcases hcases _ hmem with hnew | hold
    · exact .inl (hret id value hnew)
    · exact h.rets id value hold
  · intro id bit hmem
    rcases hcases _ hmem with hnew | hold
    · have hneg : (bit : Int) = -28 := hret id bit hnew
      omega
    · exact h.holds id bit hold

theorem Returns.won_append {id : Nat} {value : Int} {entry : Nat × Nat} (h : Returns c id value)
    (hwon : c'.won = c.won ++ [entry]) : Returns c' id value := by
  rcases h with herror | ⟨bit, hbit, hvalue, hmem⟩
  · exact .inl herror
  · refine .inr ⟨bit, hbit, hvalue, ?_⟩
    rw [hwon]
    exact List.mem_append_left _ hmem

/-- A call sets a bit that was clear: nobody holds that slot. -/
theorem Inv.claimed {id bit : Nat} (h : Inv c (.claim id bit ::ₘ rest))
    (hclear : c.slots.getLsbD bit = false) :
    Inv { c with
      slots := setBit c.slots bit
      won := c.won ++ [(id, bit)]
      held := ⟨some id, bit⟩ :: c.held } (([.ret id bit] : List Act) + rest) := by
  have hbit : bit < nslots := h.claims id bit (Multiset.mem_cons_self _ _)
  have hfree : bit ∉ c.held.map Hold.slot := by
    rw [← h.bits bit hbit, hclear]
    exact Bool.false_ne_true
  have hcases : ∀ x : Act, x ∈ (([.ret id bit] : List Act) : Multiset Act) + rest →
      x = .ret id bit ∨ x ∈ Act.claim id bit ::ₘ rest := by
    intro x hx
    rcases Multiset.mem_add.mp hx with hnew | hold
    · exact .inl (List.mem_singleton.mp (Multiset.mem_coe.mp hnew))
    · exact .inr (Multiset.mem_cons_of_mem hold)
  refine ⟨h.each.next rfl, ?_, ?_, ?_, ?_, ?_, ?_, ?_⟩
  · intro b hb
    rw [getLsbD_setBit _ (slot_lt hbit), h.bits b hb, List.map_cons, List.mem_cons]
    exact or_comm
  · intro x hx
    rcases List.mem_cons.mp hx with rfl | hx
    · exact hbit
    · exact h.below x hx
  · rw [List.map_cons]
    exact List.nodup_cons.mpr ⟨hfree, h.once⟩
  · intro id' bit' hmem
    rcases hcases _ hmem with hnew | hold
    · cases hnew
    · exact h.claims id' bit' hold
  · intro id' value hmem
    rcases hcases _ hmem with hnew | hold
    · injection hnew with hid hvalue
      subst hid hvalue
      exact .inr ⟨bit, hbit, rfl, List.mem_append_right _ List.mem_cons_self⟩
    · exact (h.rets id' value hold).won_append rfl
  · intro id' bit' hmem
    rcases hcases _ hmem with hnew | hold
    · injection hnew with hid hvalue
      obtain rfl : bit' = bit := Int.ofNat.inj hvalue
      subst hid
      exact List.mem_cons_self
    · exact List.mem_cons_of_mem _ (h.holds id' bit' hold)
  · exact fun r hr => (h.returned r hr).won_append rfl

theorem Inv.ret {id : Nat} {value : Int} (h : Inv c (.ret id value ::ₘ rest)) :
    Inv { c with returned := c.returned ++ [(id, value)] } (([] : List Act) + rest) := by
  have hmore : ∀ x : Act, x ∈ (([] : List Act) : Multiset Act) + rest →
      x ∈ Act.ret id value ::ₘ rest := by
    intro x hx
    rw [Multiset.coe_nil, zero_add] at hx
    exact Multiset.mem_cons_of_mem hx
  refine ⟨?_, h.bits, h.below, h.once, fun id' bit hmem => h.claims id' bit (hmore _ hmem),
    fun id' v hmem => h.rets id' v (hmore _ hmem),
    fun id' bit hmem => h.holds id' bit (hmore _ hmem), ?_⟩
  · rw [List.map_append]
    exact h.each.finish
  · intro r hr
    rcases List.mem_append.mp hr with hold | hnew
    · exact h.returned r hold
    · rw [List.mem_singleton.mp hnew]
      exact h.rets id value (Multiset.mem_cons_self _ _)

theorem act_inv (h : Inv c (a ::ₘ rest)) (hact : act () c a = some (c', pushed)) :
    Inv c' ((pushed : Multiset Act) + rest) := by
  cases a with
  | search id =>
    unfold act at hact
    dsimp only at hact
    split at hact
    · cases hact
      refine h.goOn rfl (fun _ _ heq => nomatch heq) ?_
      intro id' value heq
      injection heq with _ hvalue
      exact hvalue.symm
    · next hsome =>
      cases hact
      refine h.goOn rfl ?_ (fun _ _ heq => nomatch heq)
      intro id' bit heq
      injection heq with _ hbit
      omega
  | claim id bit =>
    unfold act at hact
    dsimp only at hact
    split at hact
    · cases hact
      exact h.goOn rfl (fun _ _ heq => nomatch heq) (fun _ _ heq => nomatch heq)
    · next hclear =>
      cases hact
      exact h.claimed (Bool.eq_false_iff.mpr hclear)
  | ret id value =>
    cases hact
    exact h.ret

/-- A holder whose call has returned gives its slot back: the slots held by others stay. -/
theorem Inv.giveBack {hold : Hold} (h : Inv c m) (hmay : mayGiveBack c hold) :
    Inv { c with slots := clearBit c.slots hold.slot, held := c.held.erase hold } m := by
  have hbelow := h.below hold hmay.1
  have hperm : (c.held.map Hold.slot).Perm (hold.slot :: (c.held.erase hold).map Hold.slot) :=
    (List.perm_cons_erase hmay.1).map Hold.slot
  have honce : (hold.slot :: (c.held.erase hold).map Hold.slot).Nodup := hperm.nodup_iff.mp h.once
  refine ⟨h.each, ?_, fun x hx => h.below x (List.mem_of_mem_erase hx),
    (List.nodup_cons.mp honce).2, h.claims, h.rets, ?_, h.returned⟩
  · intro b hb
    rw [getLsbD_clearBit _ (slot_lt hbelow), h.bits b hb, hperm.mem_iff, List.mem_cons]
    constructor
    · rintro ⟨heq | hmem, hne⟩
      · exact absurd heq hne
      · exact hmem
    · intro hmem
      refine ⟨.inr hmem, ?_⟩
      rintro rfl
      exact (List.nodup_cons.mp honce).1 hmem
  · intro id bit hmem
    refine (List.mem_erase_of_ne ?_).mpr (h.holds id bit hmem)
    rintro rfl
    -- a call that is about to return has not returned
    obtain ⟨rest, rfl⟩ := Multiset.exists_cons_of_mem hmem
    exact h.each.ne_of_ended (hmay.2 id rfl) rfl

end Step

theorem next_inv {s t : System} {e : Event} (h : Inv s.core s.pending) (hnext : next s e = some t) :
    Inv t.core t.pending := by
  cases e with
  | call =>
    obtain rfl := Option.some.inj hnext
    rw [Pool.spawn_pending]
    exact h.call
  | step i =>
    have hact : ∀ o c a rest c' pushed, Inv c (a ::ₘ rest) → act o c a = some (c', pushed) →
        Inv c' ((pushed : Multiset Act) + rest) := fun _ _ _ _ _ _ h hact => act_inv h hact
    exact Pool.run_invariant hact hnext h
  | giveBack hold =>
    obtain ⟨hmay, heq⟩ := Option.ite_none_right_eq_some.mp hnext
    obtain rfl := Option.some.inj heq
    exact h.giveBack hmay

/-! ## Calls that fail -/

/-- A call has failed, or is about to return the error. -/
def Failing (id : Nat) (s : System) : Prop :=
  .ret id enospc ∈ s.pending ∨ (id, enospc) ∈ s.core.returned

/-- A call is in progress, and all slots are taken. -/
def FullDuring (id : Nat) (s : System) : Prop :=
  (∃ a ∈ s.pending, a.number = id) ∧ Full s.core.slots nslots

/-- A step of one call makes that call fail, and it finds all bits set then. -/
theorem act_failing {c c' : Core} {a : Act} {rest : Multiset Act} {pushed : List Act} {id : Nat}
    (hact : act () c a = some (c', pushed))
    (h : .ret id enospc ∈ (pushed : Multiset Act) + rest ∨ (id, enospc) ∈ c'.returned) :
    (.ret id enospc ∈ a ::ₘ rest ∨ (id, enospc) ∈ c.returned) ∨
      a.number = id ∧ Full c.slots nslots := by
  have hold : .ret id enospc ∈ rest → .ret id enospc ∈ a ::ₘ rest := Multiset.mem_cons_of_mem
  rw [Multiset.mem_add, Multiset.mem_coe] at h
  cases a with
  | search id' =>
    unfold act at hact
    dsimp only at hact
    split at hact
    · next hfull =>
      cases hact
      rcases h with (hnew | hrest) | hreturned
      · injection List.mem_singleton.mp hnew with hid
        exact .inr ⟨hid.symm, findFirstZeroBit_full hfull⟩
      · exact .inl (.inl (hold hrest))
      · exact .inl (.inr hreturned)
    · cases hact
      rcases h with (hnew | hrest) | hreturned
      · cases List.mem_singleton.mp hnew
      · exact .inl (.inl (hold hrest))
      · exact .inl (.inr hreturned)
  | claim id' bit =>
    unfold act at hact
    dsimp only at hact
    split at hact
    · cases hact
      rcases h with (hnew | hrest) | hreturned
      · cases List.mem_singleton.mp hnew
      · exact .inl (.inl (hold hrest))
      · exact .inl (.inr hreturned)
    · cases hact
      rcases h with (hnew | hrest) | hreturned
      · injection List.mem_singleton.mp hnew with _ hvalue
        have hneg : (-28 : Int) = bit := hvalue
        omega
      · exact .inl (.inl (hold hrest))
      · exact .inl (.inr hreturned)
  | ret id' value =>
    cases hact
    rcases h with (hnew | hrest) | hreturned
    · cases hnew
    · exact .inl (.inl (hold hrest))
    · rcases List.mem_append.mp hreturned with hbefore | hnow
      · exact .inl (.inr hbefore)
      · injection List.mem_singleton.mp hnow with hid hvalue
        subst hid hvalue
        exact .inl (.inl (Multiset.mem_cons_self _ _))

theorem next_failing {s t : System} {e : Event} {id : Nat} (hnext : next s e = some t)
    (h : Failing id t) : Failing id s ∨ FullDuring id s := by
  unfold Failing at h
  cases e with
  | call =>
    obtain rfl := Option.some.inj hnext
    rw [Pool.spawn_pending, Multiset.mem_add, Multiset.mem_coe] at h
    rcases h with (hnew | hpending) | hreturned
    · cases List.mem_singleton.mp hnew
    · exact .inl (.inl hpending)
    · exact .inl (.inr hreturned)
  | step i =>
    obtain ⟨a, rest, pushed, hpending, hact, hpending', -⟩ := Pool.run_pending hnext
    rw [hpending'] at h
    rcases act_failing hact h with hbefore | ⟨hid, hfull⟩
    · rw [← hpending] at hbefore
      exact .inl hbefore
    · refine .inr ⟨⟨a, ?_, hid⟩, hfull⟩
      rw [hpending]
      exact Multiset.mem_cons_self a rest
  | giveBack hold =>
    obtain ⟨-, heq⟩ := Option.ite_none_right_eq_some.mp hnext
    obtain rfl := Option.some.inj heq
    exact .inl h

/-- In any run of any number of callers and holders: no slot is held twice, the set bits are the
slots held, what a call returns is a slot whose bit it set itself, or the error; and a call that
returns the error was in progress at a moment when all bits were set. -/
theorem slots_held_once (slots : BitVec 64) (es : List Event) (s : System)
    (h : Steps (fun s e t => next s e = some t) (start slots) es s) :
    (s.core.held.map Hold.slot).Nodup ∧
      (∀ b < nslots, (s.core.slots.getLsbD b = true ↔ ∃ hold ∈ s.core.held, hold.slot = b)) ∧
      (∀ hold ∈ s.core.held, hold.slot < nslots) ∧
      (∀ id value, (id, value) ∈ s.core.returned → value = enospc ∨
        ∃ bit : Nat, bit < nslots ∧ value = bit ∧ (id, bit) ∈ s.core.won) ∧
      (∀ id (bit : Nat), .ret id bit ∈ s.pending → ⟨some id, bit⟩ ∈ s.core.held) ∧
      ∀ id, (id, enospc) ∈ s.core.returned →
        Passed (fun s e t => next s e = some t)
          (fun t => (∃ a ∈ t.pending, a.number = id) ∧ Full t.core.slots nslots)
          (start slots) es s := by
  have hstep : ∀ s e t, Inv s.core s.pending → next s e = some t → Inv t.core t.pending :=
    fun _ _ _ hs hnext => next_inv hs hnext
  have hinv : Inv s.core s.pending := h.invariant hstep (start_inv slots)
  refine ⟨hinv.once, ?_, hinv.below, fun id value hr => hinv.returned (id, value) hr,
    hinv.holds, ?_⟩
  · intro b hb
    rw [hinv.bits b hb, List.mem_map]
  · intro id hfailed
    have hnone : ¬Failing id (start slots) := by
      rintro (hpending | hreturned)
      · exact absurd hpending (Multiset.notMem_zero _)
      · exact absurd hreturned List.not_mem_nil
    exact h.passed (fun _ _ _ hnext hfail => next_failing hnext hfail) hnone (.inr hfailed)

/-- Two calls find the same bit; one of them sets it, the other looks again. Then the slot is given
back. -/
def race : List Event :=
  [.call, .call, .step 0, .step 1, .step 1, .step 0, .step 0, .step 0, .step 1, .step 0,
    .giveBack ⟨some 1, 0⟩]

theorem race_for_first_slot :
    ∃ s, Steps (fun s e t => next s e = some t) (start 0) race s ∧
      s.core.returned = [(1, 0), (0, 1)] ∧ s.core.held = [⟨some 0, 1⟩] ∧
      (s.core.held.map Hold.slot).Nodup := by
  have hexec : (exec next (start 0) race).map (fun s => (s.core.returned, s.core.held)) =
      some ([(1, 0), (0, 1)], [⟨some 0, 1⟩]) := by decide
  obtain ⟨s, hs, heq⟩ := Option.map_eq_some_iff.mp hexec
  injection heq with hreturned hheld
  have hrun := exec_steps hs
  exact ⟨s, hrun, hreturned, hheld, (slots_held_once 0 race s hrun).1⟩

end LinuxDeviceDriver.Ds.Bitmap
