/- digest: A queue whose items are taken out by hands that settle them later. With one hand
     at a time the items are settled in the order they were queued. -/

import Mathlib.Data.List.Basic
import Mathlib.Data.Multiset.AddSub

set_option autoImplicit false

namespace LinuxDeviceDriver.Lib.Handover

universe u v

/-- All items ever queued, those that wait, those taken out and not settled, and those
settled, with what became of each. -/
structure Pipe (F : Type u) (R : Type v) where
  queued : List F
  waiting : List F
  hand : Multiset F
  settled : List (F × R)

inductive Kind (R : Type v)
  | stay | arrive | take | settle (r : R) | discard (r : R)

variable {F : Type u} {R : Type v} {p p' : Pipe F R} {k : Kind R}

inductive Move : Pipe F R → Kind R → Pipe F R → Prop
  | stay (p : Pipe F R) : Move p .stay p
  | arrive (p : Pipe F R) (f : F) :
      Move p .arrive { p with queued := p.queued ++ [f], waiting := p.waiting ++ [f] }
  | take (p : Pipe F R) (f : F) (w : List F) (h : p.waiting = f :: w) :
      Move p .take { p with waiting := w, hand := f ::ₘ p.hand }
  | settle (p : Pipe F R) (f : F) (r : R) (hand : Multiset F) (h : p.hand = f ::ₘ hand) :
      Move p (.settle r) { p with hand := hand, settled := p.settled ++ [(f, r)] }
  | discard (p : Pipe F R) (f : F) (r : R) (w : List F) (h : p.waiting = f :: w) :
      Move p (.discard r) { p with waiting := w, settled := p.settled ++ [(f, r)] }

/-- At most one item is in hand; settled, in hand and waiting are what was queued. -/
def Whole (p : Pipe F R) : Prop :=
  ∃ h : List F, p.hand = h ∧ h.length ≤ 1 ∧ p.settled.map Prod.fst ++ (h ++ p.waiting) = p.queued

/-- The same but for items that went another way than those kept. -/
def InOrder (keep : R → Bool) (p : Pipe F R) : Prop :=
  ∃ h : List F, p.hand = h ∧ h.length ≤ 1 ∧
    ((p.settled.filter fun s => keep s.2).map Prod.fst ++ (h ++ p.waiting)).Sublist p.queued

/-- What waits, is in hand or has been settled has been queued. -/
def FromQueue (p : Pipe F R) : Prop :=
  ∀ f, f ∈ p.waiting ∨ f ∈ p.hand ∨ (∃ r, (f, r) ∈ p.settled) → f ∈ p.queued

theorem FromQueue.move (hq : FromQueue p) (h : Move p k p') : FromQueue p' := by
  intro g hg
  cases h with
  | stay => exact hq g hg
  | arrive f =>
    refine List.mem_append.mpr ?_
    rcases hg with hg | hg
    · exact (List.mem_append.mp hg).imp_left fun h => hq g (.inl h)
    · exact .inl (hq g (.inr hg))
  | take f w hwait =>
    apply hq
    rcases hg with hg | hg | hg
    · exact .inl (by rw [hwait]; exact List.mem_cons_of_mem f hg)
    · rcases Multiset.mem_cons.mp hg with rfl | hg
      · exact .inl (by rw [hwait]; exact List.mem_cons_self)
      · exact .inr (.inl hg)
    · exact .inr (.inr hg)
  | settle f r hand hcons =>
    apply hq
    rcases hg with hg | hg | ⟨r', hg⟩
    · exact .inl hg
    · exact .inr (.inl (by rw [hcons]; exact Multiset.mem_cons_of_mem hg))
    · rcases List.mem_append.mp hg with hg | hg
      · exact .inr (.inr ⟨r', hg⟩)
      · obtain ⟨rfl, -⟩ := Prod.mk.inj (List.mem_singleton.mp hg)
        exact .inr (.inl (by rw [hcons]; exact Multiset.mem_cons_self g hand))
  | discard f r w hwait =>
    apply hq
    rcases hg with hg | hg | ⟨r', hg⟩
    · exact .inl (by rw [hwait]; exact List.mem_cons_of_mem f hg)
    · exact .inr (.inl hg)
    · rcases List.mem_append.mp hg with hg | hg
      · exact .inr (.inr ⟨r', hg⟩)
      · obtain ⟨rfl, -⟩ := Prod.mk.inj (List.mem_singleton.mp hg)
        exact .inl (by rw [hwait]; exact List.mem_cons_self)

/-- A hand that may hold one item and holds this one holds nothing else. -/
private theorem hand_single {f : F} {rest : Multiset F} {h : List F} (hh : f ::ₘ rest = h)
    (hl : h.length ≤ 1) : h = [f] ∧ rest = 0 := by
  have hcard := congrArg Multiset.card hh
  rw [Multiset.card_cons, Multiset.coe_card] at hcard
  have hrest : rest = 0 := Multiset.card_eq_zero.mp (by omega)
  subst hrest
  refine ⟨?_, rfl⟩
  rw [Multiset.cons_zero, ← Multiset.coe_singleton, Multiset.coe_eq_coe] at hh
  exact List.perm_singleton.mp hh.symm

private theorem hand_empty {h : List F} (hhand : p.hand = h) (hz : p.hand = 0) : h = [] := by
  rw [hhand] at hz
  exact (Multiset.coe_eq_zero h).mp hz

/-- Items that are taken or discarded while none is in hand. -/
theorem Whole.move (hw : Whole p) (h : Move p k p') (htake : k = .take → p.hand = 0)
    (hdiscard : ∀ r, k = .discard r → p.hand = 0) : Whole p' := by
  obtain ⟨hd, hhand, hlen, heq⟩ := hw
  cases h with
  | stay => exact ⟨hd, hhand, hlen, heq⟩
  | arrive f =>
    refine ⟨hd, hhand, hlen, ?_⟩
    show _ = p.queued ++ [f]
    rw [← heq]
    simp only [List.append_assoc]
  | take f w hwait =>
    obtain rfl := hand_empty hhand (htake rfl)
    refine ⟨[f], ?_, Nat.le_refl 1, ?_⟩
    · show f ::ₘ p.hand = _
      rw [hhand]
      rfl
    · rw [hwait] at heq
      exact heq
  | settle f r hand hcons =>
    obtain ⟨rfl, rfl⟩ := hand_single (hcons.symm.trans hhand) hlen
    refine ⟨[], rfl, Nat.zero_le 1, ?_⟩
    rw [← heq]
    simp
  | discard f r w hwait =>
    obtain rfl := hand_empty hhand (hdiscard r rfl)
    refine ⟨[], hhand, Nat.zero_le 1, ?_⟩
    rw [← heq, hwait]
    simp

/-- Items that are taken while none is in hand; those that are discarded are not kept. -/
theorem InOrder.move {keep : R → Bool} (hw : InOrder keep p) (h : Move p k p')
    (htake : k = .take → p.hand = 0) (hdiscard : ∀ r, k = .discard r → keep r = false) :
    InOrder keep p' := by
  obtain ⟨hd, hhand, hlen, hsub⟩ := hw
  cases h with
  | stay => exact ⟨hd, hhand, hlen, hsub⟩
  | arrive f =>
    refine ⟨hd, hhand, hlen, ?_⟩
    have hmore := hsub.append (List.Sublist.refl [f])
    simpa only [List.append_assoc] using hmore
  | take f w hwait =>
    obtain rfl := hand_empty hhand (htake rfl)
    refine ⟨[f], ?_, Nat.le_refl 1, ?_⟩
    · show f ::ₘ p.hand = _
      rw [hhand]
      rfl
    · rw [hwait] at hsub
      exact hsub
  | settle f r hand hcons =>
    obtain ⟨rfl, rfl⟩ := hand_single (hcons.symm.trans hhand) hlen
    refine ⟨[], rfl, Nat.zero_le 1, List.Sublist.trans ?_ hsub⟩
    cases hk : keep r with
    | true => simp [hk]
    | false => simp [hk]
  | discard f r w hwait =>
    refine ⟨hd, hhand, hlen, List.Sublist.trans ?_ hsub⟩
    simp [hdiscard r rfl, hwait]

end LinuxDeviceDriver.Lib.Handover
