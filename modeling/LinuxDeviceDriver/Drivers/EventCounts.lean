/- source: examples/26_msi_interrupt/main.c, lines 31 to 77;
     tools/qemu/hw/ldd/pcie.c, lines 120 to 142 and 344 to 355
   digest: What every step of the system keeps: no event is lost and none is counted
     twice, with MSI-X, MSI and INTx. -/

import LinuxDeviceDriver.Drivers.MsiInterrupt

set_option autoImplicit false

namespace LinuxDeviceDriver.Drivers.EventCounts

open Qemu.Pcie
open State Transfer TransferOutcome Registers Interrupts Engine Events CharFile DmaHost DmaProbe
open MsiInterrupt

/-! ## The invariant -/

def event (s : Sys) (n : Nat) : Bool := s.machine.ps.regs.intStatus.getLsbD n

/-- The vector that event n interrupts on. -/
def vec (s : Sys) (n : Nat) : Nat := if s.nvec = lddNrEvents then n else 0

/-- A run of the handler of vector v is to come. -/
def Due (s : Sys) (v : Nat) : Prop :=
  s.served v < s.sent v ∨ (s.intxMode ∧ v = 0 ∧ s.machine.ps.pdev.intx = true)

/-- The handler is going to clear event n. -/
def takes : HandlerPc → Nat → Bool
  | .entered, _ => true
  | .clear status, n => status.getLsbD n
  | .idle, _ | .count _, _ => false

/-- The handler has cleared event n and not counted it yet. -/
def holds : HandlerPc → Nat → Bool
  | .count status, n => status.getLsbD n
  | .idle, _ | .entered, _ | .clear _, _ => false

structure Inv (s : Sys) : Prop where
  unmasked : Unmasked s.machine.ps
  mode : s.nvec = if s.machine.ps.pdev.msixEnabled = true then lddNrEvents else 1
  served : ∀ v, s.served v ≤ s.sent v
  spare : ∀ v, s.nvec ≤ v → s.handler v = .idle
  own : s.nvec = lddNrEvents → ∀ v, s.handler v = .idle ∨ s.handler v = .clear (bit v) ∨
    s.handler v = .count (bit v)
  taken : ∀ v status, s.handler v = .clear status → ∀ n, status.getLsbD n = true →
    event s n = true
  /-- With MSI-X a message is on its way only while its event waits for it. -/
  single : s.nvec = lddNrEvents → ∀ n,
    s.sent n ≤ s.served n + (event s n && !takes (s.handler n) n).toNat
  due : ∀ n, event s n = true → Due s (vec s n) ∨ takes (s.handler (vec s n)) n = true
  budget : ∀ n, s.count n + (holds (s.handler (vec s n)) n).toNat + (event s n).toNat ≤ s.raised n

theorem Inv.nvec_cases {s : Sys} (hi : Inv s) :
    (s.nvec = lddNrEvents ∧ s.machine.ps.pdev.msixEnabled = true) ∨
      (s.nvec = 1 ∧ s.machine.ps.pdev.msixEnabled = false) := by
  have h := hi.mode
  cases hx : s.machine.ps.pdev.msixEnabled with
  | true => exact .inl ⟨by simpa [hx] using h, rfl⟩
  | false => exact .inr ⟨by simpa [hx] using h, rfl⟩

theorem Inv.msix {s : Sys} (hi : Inv s) (hn : s.nvec = lddNrEvents) :
    s.machine.ps.pdev.msixEnabled = true := by
  rcases hi.nvec_cases with h | h
  · exact h.2
  · exact absurd (hn.symm.trans h.1) (by decide)

theorem vec_msix {s : Sys} (hn : s.nvec = lddNrEvents) (n : Nat) : vec s n = n := if_pos hn

theorem vec_shared {s : Sys} (hn : s.nvec = 1) (n : Nat) : vec s n = 0 :=
  if_neg (by rw [hn]; decide)

/-- With MSI-X a handler only clears an event that is set. -/
theorem Inv.takes_event {s : Sys} (hi : Inv s) (hn : s.nvec = lddNrEvents) {v n : Nat}
    (ht : takes (s.handler v) n = true) : event s n = true := by
  rcases hi.own hn v with h | h | h
  · rw [h] at ht
    cases ht
  · rw [h] at ht
    exact hi.taken v _ h n ht
  · rw [h] at ht
    cases ht

/-- Only the handler of its own vector deals with an event. -/
theorem Inv.elsewhere {s : Sys} (hi : Inv s) {v n : Nat} (hv : v ≠ vec s n) :
    takes (s.handler v) n = false ∧ holds (s.handler v) n = false := by
  rcases hi.nvec_cases with ⟨hn, -⟩ | ⟨hn, -⟩
  · rw [vec_msix hn] at hv
    by_cases hlt : v < lddNrEvents
    · have hbit : (bit v).getLsbD n = false := by
        rw [bit_getLsbD (Nat.lt_trans hlt (by decide))]
        simp [hv]
      rcases hi.own hn v with h | h | h <;> rw [h] <;> exact ⟨by simp [takes, hbit], by simp [holds, hbit]⟩
    · rw [hi.spare v (by omega)]
      exact ⟨rfl, rfl⟩
  · have hz := vec_shared hn n
    rw [hi.spare v (by omega)]
    exact ⟨rfl, rfl⟩

/-! ## Steps of the device -/

section Device

variable {s : Sys} {e : DevEvent}

theorem device_event (hr : isReset e = false) (n : Nat) : event (s.device e) n =
    (event s n && !(clearedBy e).getLsbD n || (raisedBy s.machine e).getLsbD n) :=
  devStep_event s.machine e hr n

theorem clear_event (status : BitVec 32) (n : Nat) :
    event (s.device (.write (lddReg .intStatus) status)) n = (event s n && !status.getLsbD n) := by
  rw [device_event (by simp [isReset]) n]
  simp [clearedBy, raisedBy]

theorem device_sent_le (v : Nat) : s.sent v ≤ (s.device e).sent v :=
  devStep_sent_le s.machine e v

theorem device_msix : (s.device e).machine.ps.pdev.msixEnabled =
    s.machine.ps.pdev.msixEnabled :=
  (devStep_irqStep s.machine e).mode.1

theorem device_msi : (s.device e).machine.ps.pdev.msiEnabled = s.machine.ps.pdev.msiEnabled :=
  (devStep_irqStep s.machine e).mode.2

theorem device_mode (hi : Inv s) :
    s.nvec = if (s.device e).machine.ps.pdev.msixEnabled = true then lddNrEvents else 1 := by
  rw [device_msix]
  exact hi.mode

/-- MSI-X: a message on the event's own vector when it rises, and only then. -/
theorem device_sent_msix (hu : Unmasked s.machine.ps) (hr : isReset e = false)
    (hm : isMask e = false) (hx : s.machine.ps.pdev.msixEnabled = true) (n : Nat) :
    (s.device e).sent n = s.sent n + (!event s n && event (s.device e) n).toNat := by
  have h := (devStep_irqStep s.machine e).sent_msix hu.irq hx n
  rw [hu.rises_eq (hu.step hr hm)] at h
  refine h.trans (congrArg (s.sent n + ·) ?_)
  show (if (!event s n && event (s.device e) n) = true then 1 else 0) = _
  cases !event s n && event (s.device e) n <;> rfl

theorem due_of_line (hu : Unmasked s.machine.ps) (hx : s.intxMode) {n : Nat}
    (he : event s n = true) : Due s 0 := by
  refine .inr ⟨hx, rfl, ?_⟩
  rw [hu.line_eq hx.1 hx.2]
  refine bne_iff_ne.mpr ?_
  intro hz
  rw [event, hz] at he
  simp at he

/-- In every mode an event that rises is signalled on its vector. -/
theorem due_of_rise (hi : Inv s) (hr : isReset e = false) (hm : isMask e = false) {n : Nat}
    (he : event s n = false) (he' : event (s.device e) n = true) :
    Due (s.device e) (vec s n) := by
  have hu' := hi.unmasked.step hr hm
  rcases hi.nvec_cases with ⟨hn, hx⟩ | ⟨hn, hx⟩
  · have hsent := device_sent_msix hi.unmasked hr hm hx n
    have hle := hi.served n
    rw [he, he'] at hsent
    rw [vec_msix hn]
    refine .inl ?_
    show s.served n < (s.device e).sent n
    rw [hsent]
    exact Nat.lt_succ_of_le hle
  · rw [vec_shared hn]
    cases hmsi : s.machine.ps.pdev.msiEnabled with
    | true =>
      have hrise : rises n s.machine.ps (devStep s.machine e).ps = true := by
        rw [hi.unmasked.rises_eq hu']
        show (!event s n && event (s.device e) n) = true
        rw [he, he']
        rfl
      have hsent := ((devStep_irqStep s.machine e).sent_msi hi.unmasked.irq hx hmsi).1 ⟨n, hrise⟩
      have hle := hi.served 0
      refine .inl ?_
      show s.served 0 < (devStep s.machine e).ps.pdev.sent.count 0
      rw [hsent, List.count_cons_self]
      exact Nat.lt_succ_of_le hle
    | false => exact due_of_line hu' ⟨device_msix.trans hx, device_msi.trans hmsi⟩ he'

/-- A run that is to come still is, after a step that leaves the event set. -/
theorem Due.device (hu : Unmasked s.machine.ps) (hr : isReset e = false) (hm : isMask e = false)
    {v n : Nat} (hd : Due s v) (he' : event (s.device e) n = true) : Due (s.device e) v := by
  rcases hd with hlt | ⟨hx, rfl, -⟩
  · exact .inl (hlt.trans_le (device_sent_le v))
  · exact due_of_line (hu.step hr hm) ⟨device_msix.trans hx.1, device_msi.trans hx.2⟩ he'

theorem allowed_spec (ha : allowed e = true) :
    isReset e = false ∧ isMask e = false ∧ clearedBy e = 0 := by
  cases e with
  | write addr val =>
    simp only [allowed, Bool.and_eq_true, bne_iff_ne, ne_eq] at ha
    obtain ⟨⟨hc, hs⟩, hm⟩ := ha
    exact ⟨by simp [isReset, hc], by simp [isMask, hm], by simp [clearedBy, hs]⟩
  | expire | env => exact ⟨rfl, rfl, rfl⟩
  | pciReset => cases ha

/-- A raise or a completion: the event waits for its vector, and pays for its own
count. -/
theorem inv_device (hi : Inv s) (ha : allowed e = true) : Inv (s.device e) := by
  obtain ⟨hr, hm, hc⟩ := allowed_spec ha
  have hev : ∀ n, event (s.device e) n = (event s n || (raisedBy s.machine e).getLsbD n) := by
    intro n
    rw [device_event hr n, hc]
    simp
  refine ⟨hi.unmasked.step hr hm, device_mode hi, fun v => (hi.served v).trans (device_sent_le v),
    hi.spare, hi.own, ?_, ?_, ?_, ?_⟩
  · intro v status hh n hn
    rw [hev, hi.taken v status hh n hn]
    rfl
  · intro hn n
    have hold := hi.single hn n
    show (s.device e).sent n ≤ s.served n + (event (s.device e) n && !takes (s.handler n) n).toNat
    rw [device_sent_msix hi.unmasked hr hm (hi.msix hn) n, hev]
    cases he : event s n with
    | true =>
      rw [he] at hold
      exact hold
    | false =>
      have ht : takes (s.handler n) n = false := by
        cases ht : takes (s.handler n) n with
        | false => rfl
        | true => exact absurd (hi.takes_event hn ht) (by rw [he]; decide)
      rw [he] at hold
      rw [ht, Bool.not_false, Bool.and_true, Bool.true_and, Bool.false_or]
      exact Nat.add_le_add_right hold _
  · intro n he
    show Due (s.device e) (vec s n) ∨ takes (s.handler (vec s n)) n = true
    cases hold : event s n with
    | false => exact .inl (due_of_rise hi hr hm hold he)
    | true => exact (hi.due n hold).imp_left fun hd => hd.device hi.unmasked hr hm he
  · intro n
    have hold := hi.budget n
    show s.count n + (holds (s.handler (vec s n)) n).toNat + (event (s.device e) n).toNat ≤
      s.raised n + ((raisedBy s.machine e).getLsbD n).toNat
    rw [hev]
    have hor : (event s n || (raisedBy s.machine e).getLsbD n).toNat ≤
        (event s n).toNat + ((raisedBy s.machine e).getLsbD n).toNat := by
      cases event s n <;> cases (raisedBy s.machine e).getLsbD n <;> decide
    omega

end Device

/-! ## Steps of the kernel and of the handlers -/

section Handler

variable {s : Sys} {v : Nat}

theorem Inv.running_lt (hi : Inv s) (hh : s.handler v ≠ .idle) : v < s.nvec := by
  by_contra h
  exact hh (hi.spare v (Nat.not_lt.mp h))

/-! What is left of the invariant to show when the handler of one vector moves. -/

theorem Inv.spare_update (hi : Inv s) (hv : v < s.nvec) (pc : HandlerPc) :
    ∀ w, s.nvec ≤ w → Function.update s.handler v pc w = .idle := by
  intro w hw
  rw [Function.update_of_ne (by omega)]
  exact hi.spare w hw

theorem Inv.own_update (hi : Inv s) {pc : HandlerPc}
    (hpc : s.nvec = lddNrEvents → pc = .idle ∨ pc = .clear (bit v) ∨ pc = .count (bit v)) :
    s.nvec = lddNrEvents → ∀ w, Function.update s.handler v pc w = .idle ∨
      Function.update s.handler v pc w = .clear (bit w) ∨
      Function.update s.handler v pc w = .count (bit w) := by
  intro hn w
  by_cases hw : w = v
  · subst hw
    rw [Function.update_self]
    exact hpc hn
  · rw [Function.update_of_ne hw]
    exact hi.own hn w

theorem Inv.taken_update (hi : Inv s) {pc : HandlerPc}
    (hpc : ∀ status, pc = .clear status → ∀ n, status.getLsbD n = true → event s n = true) :
    ∀ w status, Function.update s.handler v pc w = .clear status →
      ∀ n, status.getLsbD n = true → event s n = true := by
  intro w status hw
  by_cases hwv : w = v
  · subst hwv
    rw [Function.update_self] at hw
    exact hpc status hw
  · rw [Function.update_of_ne hwv] at hw
    exact hi.taken w status hw

theorem Inv.budget_update (hi : Inv s) {pc : HandlerPc}
    (hpc : ∀ n, holds pc n = holds (s.handler v) n) (n : Nat) :
    s.count n + (holds (Function.update s.handler v pc (vec s n)) n).toNat + (event s n).toNat ≤
      s.raised n := by
  have hold := hi.budget n
  by_cases hw : vec s n = v
  · rw [hw] at hold
    rwa [hw, Function.update_self, hpc]
  · rwa [Function.update_of_ne hw]

/-- A handler that is called is going to clear the events of its vector. -/
theorem enter_takes (hv : v < s.nvec) {n : Nat} (hn : vec s n = v) :
    takes ((s.enter v).handler v) n = true := by
  show takes (Function.update s.handler v _ v) n = true
  rw [Function.update_self]
  split
  · next h =>
    rw [vec_msix h] at hn
    rw [hn, takes, bit_getLsbD (Nat.lt_trans (h ▸ hv) (by decide))]
    exact decide_eq_true rfl
  · rfl

/-- The handler of an idle vector is called. With MSI-X this takes the only
message that is on its way, and its event is set. -/
theorem inv_enter (hi : Inv s) {served : Nat → Nat} (hidle : s.handler v = .idle)
    (hv : v < s.nvec) (hle : ∀ w, served w ≤ s.sent w) (hother : ∀ w, w ≠ v → served w = s.served w)
    (hmsix : s.nvec = lddNrEvents → event s v = true ∧ s.sent v ≤ served v) :
    Inv { s.enter v with served := served } := by
  refine ⟨hi.unmasked, hi.mode, hle, hi.spare_update hv _,
    hi.own_update fun hn => .inr (.inl (if_pos hn)), hi.taken_update ?_, ?_, ?_,
    hi.budget_update ?_⟩
  · intro status hh n hn
    split at hh
    · next h =>
      obtain rfl := HandlerPc.clear.inj hh
      rw [bit_getLsbD (Nat.lt_trans (h ▸ hv) (by decide))] at hn
      exact of_decide_eq_true hn ▸ (hmsix h).1
    · cases hh
  · intro hn n
    by_cases hw : n = v
    · subst hw
      exact (hmsix hn).2.trans (Nat.le_add_right _ _)
    · have hold := hi.single hn n
      show s.sent n ≤ served n + (event s n && !takes (Function.update s.handler v _ n) n).toNat
      rwa [hother n hw, Function.update_of_ne hw]
  · intro n he
    show Due _ (vec s n) ∨ takes (Function.update s.handler v _ (vec s n)) n = true
    by_cases hw : vec s n = v
    · have ht := enter_takes hv hw
      rw [Sys.enter] at ht
      exact .inr (hw.symm ▸ ht)
    · rw [Function.update_of_ne hw]
      refine (hi.due n he).imp_left ?_
      rintro (hlt | hline)
      · refine .inl ?_
        show served (vec s n) < s.sent (vec s n)
        rwa [hother _ hw]
      · exact .inr hline
  · intro n
    rw [hidle]
    split <;> rfl

theorem inv_message (hi : Inv s) {k : Nat} (hidle : s.handler v = .idle) (hv : v < s.nvec)
    (hlo : s.served v < k) (hhi : k ≤ s.sent v) :
    Inv { s.enter v with served := Function.update s.served v k } := by
  refine inv_enter hi hidle hv ?_ ?_ ?_
  · intro w
    by_cases hw : w = v
    · subst hw
      rwa [Function.update_self]
    · rw [Function.update_of_ne hw]
      exact hi.served w
  · exact fun w hw => Function.update_of_ne hw _ _
  · intro hn
    have hone := hi.single hn v
    rw [Function.update_self]
    cases he : event s v with
    | false =>
      rw [he] at hone
      exact absurd (hlo.trans_le hhi) (Nat.not_lt.mpr hone)
    | true =>
      have hle := Bool.toNat_le (event s v && !takes (s.handler v) v)
      exact ⟨rfl, by omega⟩

theorem inv_intx (hi : Inv s) (hidle : s.handler 0 = .idle) (hx : s.intxMode) :
    Inv (s.enter 0) := by
  have hn : s.nvec = 1 := by
    rw [hi.mode, if_neg (by rw [hx.1]; decide)]
  refine inv_enter hi hidle (by omega) hi.served (fun _ _ => rfl) ?_
  intro h
  exact absurd (h.symm.trans hn) (by decide)

/-- The shared handler reads INT_STATUS: it takes every event that is set. -/
theorem inv_read (hi : Inv s) (hh : s.handler v = .entered) :
    Inv { s with
      handler := Function.update s.handler v
        (if s.machine.ps.regs.intStatus = 0 then .idle else .clear s.machine.ps.regs.intStatus) } := by
  have hrun : s.handler v ≠ .idle := by rw [hh]; decide
  have hmsix : s.nvec ≠ lddNrEvents := by
    intro hn
    rcases hi.own hn v with h | h | h <;> rw [hh] at h <;> cases h
  have hn : s.nvec = 1 := (hi.nvec_cases.resolve_left fun h => hmsix h.1).1
  have hv : ∀ n, vec s n = v := by
    intro n
    have hlt := hi.running_lt hrun
    rw [vec_shared hn]
    omega
  refine ⟨hi.unmasked, hi.mode, hi.served, hi.spare_update (hi.running_lt hrun) _,
    fun h => absurd h hmsix, hi.taken_update ?_, fun h => absurd h hmsix, ?_, hi.budget_update ?_⟩
  · intro status hst n hn
    split at hst
    · cases hst
    · obtain rfl := HandlerPc.clear.inj hst
      exact hn
  · intro n he
    show _ ∨ takes (Function.update s.handler v _ (vec s n)) n = true
    rw [hv, Function.update_self, if_neg]
    · exact .inr he
    · intro hz
      change s.machine.ps.regs.intStatus.getLsbD n = true at he
      rw [hz] at he
      simp at he
  · intro n
    rw [hh]
    split <;> rfl

/-! The write of a handler that clears what it took. -/

section Clear

variable {status : BitVec 32}

theorem Inv.clear_vec (hi : Inv s) (hh : s.handler v = .clear status) {n : Nat}
    (hn : status.getLsbD n = true) : v = vec s n := by
  by_contra h
  have ht := (hi.elsewhere h).1
  rw [hh, takes, hn] at ht
  cases ht

theorem Inv.clear_elsewhere (hi : Inv s) (hh : s.handler v = .clear status) {n : Nat}
    (hn : vec s n ≠ v) : status.getLsbD n = false :=
  Bool.eq_false_iff.mpr fun h => hn (hi.clear_vec hh h).symm

/-- With MSI-X it takes the event of its vector, whatever INT_STATUS holds. -/
theorem Inv.clear_own (hi : Inv s) (hh : s.handler v = .clear status)
    (hn : s.nvec = lddNrEvents) : status = bit v := by
  rcases hi.own hn v with h | h | h <;> rw [hh] at h
  · cases h
  · exact HandlerPc.clear.inj h
  · cases h

theorem Inv.clear_lt (hi : Inv s) (hh : s.handler v = .clear status) : v < s.nvec :=
  hi.running_lt fun h => nomatch hh.symm.trans h

/-- What the other handlers are going to clear is still set. -/
theorem taken_clear (hi : Inv s) (hh : s.handler v = .clear status) {w : Nat} {st : BitVec 32}
    (hw : Function.update s.handler v (.count status) w = .clear st) {n : Nat}
    (hn : st.getLsbD n = true) : (event s n && !status.getLsbD n) = true := by
  by_cases hwv : w = v
  · subst hwv
    rw [Function.update_self] at hw
    cases hw
  · rw [Function.update_of_ne hwv] at hw
    have hvec : vec s n ≠ v := hi.clear_vec hw hn ▸ hwv
    rw [hi.taken w st hw n hn, hi.clear_elsewhere hh hvec]
    rfl

theorem single_clear (hi : Inv s) (hh : s.handler v = .clear status) (hn : s.nvec = lddNrEvents)
    (n : Nat) : s.sent n ≤ s.served n + ((event s n && !status.getLsbD n) &&
      !takes (Function.update s.handler v (.count status) n) n).toNat := by
  have hold := hi.single hn n
  by_cases hw : n = v
  · subst hw
    have hlt : n < 32 := Nat.lt_trans (hn ▸ hi.clear_lt hh) (by decide)
    have htake : takes (s.handler n) n = true := by
      rw [hh, hi.clear_own hh hn, takes, bit_getLsbD hlt]
      exact decide_eq_true rfl
    rw [htake, Bool.not_true, Bool.and_false] at hold
    exact hold.trans (Nat.le_add_right _ _)
  · have hother : vec s n ≠ v := (vec_msix hn n).symm ▸ hw
    rw [Function.update_of_ne hw, hi.clear_elsewhere hh hother, Bool.not_false, Bool.and_true]
    exact hold

/-- An event that the write clears moves from the register to the handler. -/
theorem budget_clear (hi : Inv s) (hh : s.handler v = .clear status) (n : Nat) :
    s.count n + (holds (Function.update s.handler v (.count status) (vec s n)) n).toNat +
      (event s n && !status.getLsbD n).toNat ≤ s.raised n := by
  have hold := hi.budget n
  by_cases hw : vec s n = v
  · rw [hw, hh] at hold
    rw [hw, Function.update_self]
    cases hst : status.getLsbD n with
    | true =>
      rw [hi.taken v status hh n hst] at hold
      rw [Bool.not_true, Bool.and_false, holds, hst]
      exact hold
    | false =>
      rw [Bool.not_false, Bool.and_true, holds, hst]
      exact hold
  · rw [Function.update_of_ne hw, hi.clear_elsewhere hh hw, Bool.not_false, Bool.and_true]
    exact hold

/-- A handler clears what it took: those events are now held by it alone. -/
theorem inv_clear (hi : Inv s) (hh : s.handler v = .clear status) :
    Inv { s.device (.write (lddReg .intStatus) status) with
      handler := Function.update s.handler v (.count status) } := by
  have hr : isReset (.write (lddReg .intStatus) status) = false := by simp [isReset]
  have hm : isMask (.write (lddReg .intStatus) status) = false := by simp [isMask]
  have hev : ∀ n, event (s.device (.write (lddReg .intStatus) status)) n =
      (event s n && !status.getLsbD n) := clear_event status
  refine ⟨hi.unmasked.step hr hm, device_mode hi,
    fun w => (hi.served w).trans (device_sent_le w), hi.spare_update (hi.clear_lt hh) _,
    hi.own_update fun hn => .inr (.inr (congrArg _ (hi.clear_own hh hn))),
    fun w st hw n hn => (hev n).trans (taken_clear hi hh hw hn), ?_, ?_, ?_⟩
  · intro hn n
    -- a write that only clears raises no event, so no message is sent
    have hnone : (!event s n && (event s n && !status.getLsbD n)) = false := by
      cases event s n <;> rfl
    show (s.device _).sent n ≤ s.served n +
      (event (s.device _) n && !takes (Function.update s.handler v _ n) n).toNat
    rw [device_sent_msix hi.unmasked hr hm (hi.msix hn) n, hev, hnone]
    exact single_clear hi hh hn n
  · intro n he
    change event (s.device _) n = true at he
    have hset := he
    rw [hev, Bool.and_eq_true] at hset
    show Due (s.device _) (vec s n) ∨ takes (Function.update s.handler v _ (vec s n)) n = true
    rcases hi.due n hset.1 with hd | ht
    · exact .inl (hd.device hi.unmasked hr hm he)
    · by_cases hw : vec s n = v
      · rw [hw, hh] at ht
        rw [show status.getLsbD n = true from ht] at hset
        exact absurd hset.2 (by decide)
      · rw [Function.update_of_ne hw]
        exact .inr ht
  · intro n
    show s.count n + (holds (Function.update s.handler v _ (vec s n)) n).toNat +
      (event (s.device _) n).toNat ≤ s.raised n + _
    rw [hev]
    exact (budget_clear hi hh n).trans (Nat.le_add_right _ _)

end Clear

theorem inv_count (hi : Inv s) {status : BitVec 32} (hh : s.handler v = .count status) :
    Inv { s with
      count := countEvents s.count status
      lastStatus := status
      handler := Function.update s.handler v .idle } := by
  have hrun : s.handler v ≠ .idle := by rw [hh]; exact HandlerPc.noConfusion
  refine ⟨hi.unmasked, hi.mode, hi.served, hi.spare_update (hi.running_lt hrun) _,
    hi.own_update fun _ => .inl rfl, hi.taken_update (fun _ h => nomatch h), ?_, ?_, ?_⟩
  · intro hn n
    have hold := hi.single hn n
    show s.sent n ≤ s.served n + (event s n && !takes (Function.update s.handler v _ n) n).toNat
    by_cases hw : n = v
    · subst hw
      rw [hh] at hold
      rw [Function.update_self]
      exact hold
    · rwa [Function.update_of_ne hw]
  · intro n he
    show Due s (vec s n) ∨ takes (Function.update s.handler v _ (vec s n)) n = true
    rcases hi.due n he with hd | ht
    · exact .inl hd
    · have hw : vec s n ≠ v := by
        intro hw
        rw [hw, hh] at ht
        cases ht
      rw [Function.update_of_ne hw]
      exact .inr ht
  · intro n
    have hold := hi.budget n
    show countEvents s.count status n + (holds (Function.update s.handler v _ (vec s n)) n).toNat +
      (event s n).toNat ≤ s.raised n
    rw [countEvents_apply]
    by_cases hw : vec s n = v
    · rw [hw, hh] at hold
      rw [hw, Function.update_self]
      change s.count n + (status.getLsbD n).toNat + (event s n).toNat ≤ s.raised n at hold
      refine le_trans ?_ hold
      cases decide (n < lddNrEvents) <;> cases status.getLsbD n <;> simp [holds]
    · have hst := (hi.elsewhere (Ne.symm hw)).2
      rw [hh, holds] at hst
      rw [Function.update_of_ne hw, hst, Bool.and_false]
      exact hold

end Handler

/-- What the next action of the handler of vector v can be. -/
inductive HandlerMove (s : Sys) (v : Nat) (s' : Sys) : Prop
  | read (hh : s.handler v = .entered) (after : s' = { s with
      handler := Function.update s.handler v
        (if s.machine.ps.regs.intStatus = 0 then .idle else .clear s.machine.ps.regs.intStatus) })
  | clear (status : BitVec 32) (hh : s.handler v = .clear status)
      (after : s' = { s.device (.write (lddReg .intStatus) status) with
        handler := Function.update s.handler v (.count status) })
  | count (status : BitVec 32) (hh : s.handler v = .count status) (after : s' = { s with
      count := countEvents s.count status
      lastStatus := status
      handler := Function.update s.handler v .idle })

theorem handlerStep_move {s s' : Sys} {v : Nat} (hu : Unmasked s.machine.ps)
    (h : handlerStep s v = some s') : HandlerMove s v s' := by
  have hread : ioread32 s.machine .intStatus &&& lddIntAll = s.machine.ps.regs.intStatus := by
    have hp := hu.pending_eq
    rwa [pending, hu.mask] at hp
  unfold handlerStep at h
  cases hh : s.handler v with
  | idle =>
    rw [hh] at h
    cases h
  | entered =>
    rw [hh] at h
    dsimp only at h
    rw [hread] at h
    refine .read hh ?_
    split at h
    · next hz => rw [if_pos hz]; exact (Option.some.inj h).symm
    · next hz => rw [if_neg hz]; exact (Option.some.inj h).symm
  | clear status =>
    rw [hh] at h
    exact .clear status hh (Option.some.inj h).symm
  | count status =>
    rw [hh] at h
    exact .count status hh (Option.some.inj h).symm

/-- What a step can be. -/
inductive Move (s : Sys) : Event → Sys → Prop
  | device (e : DevEvent) (ha : allowed e = true) : Move s (.device e) (s.device e)
  | message (v k : Nat) (hidle : s.handler v = .idle) (hv : v < s.nvec) (hlo : s.served v < k)
      (hhi : k ≤ s.sent v) :
      Move s (.message v k) { s.enter v with served := Function.update s.served v k }
  | line (hidle : s.handler 0 = .idle) (hx : s.intxMode) : Move s .line (s.enter 0)
  | shared (hidle : s.handler 0 = .idle) (hx : s.intxMode) : Move s .shared (s.enter 0)
  | handler (v : Nat) (s' : Sys) (move : HandlerMove s v s') : Move s (.handler v) s'

theorem step_move {s s' : Sys} {l : Event} (hu : Unmasked s.machine.ps) (h : Step s l s') :
    Move s l s' := by
  unfold Step next at h
  cases l with
  | device e =>
    obtain ⟨ha, h⟩ := Option.ite_none_right_eq_some.mp h
    obtain rfl := Option.some.inj h
    exact .device e ha
  | message v k =>
    obtain ⟨⟨hidle, hv, hlo, hhi⟩, h⟩ := Option.ite_none_right_eq_some.mp h
    obtain rfl := Option.some.inj h
    exact .message v k hidle hv hlo hhi
  | line =>
    obtain ⟨⟨hidle, hx, -⟩, h⟩ := Option.ite_none_right_eq_some.mp h
    obtain rfl := Option.some.inj h
    exact .line hidle hx
  | shared =>
    obtain ⟨⟨hidle, hx⟩, h⟩ := Option.ite_none_right_eq_some.mp h
    obtain rfl := Option.some.inj h
    exact .shared hidle hx
  | handler v => exact .handler v s' (handlerStep_move hu h)

theorem inv_step (s : Sys) (l : Event) (s' : Sys) (hi : Inv s) (h : Step s l s') : Inv s' := by
  cases step_move hi.unmasked h with
  | device e ha => exact inv_device hi ha
  | message v k hidle hv hlo hhi => exact inv_message hi hidle hv hlo hhi
  | line hidle hx | shared hidle hx => exact inv_intx hi hidle hx
  | handler v _ move =>
    cases move with
    | read hh after => exact after ▸ inv_read hi hh
    | clear status hh after => exact after ▸ inv_clear hi hh
    | count status hh after => exact after ▸ inv_count hi hh

/-! ## What follows of a state -/

/-- At rest: no message is on its way, the line is low and no handler runs. -/
theorem Inv.at_rest {s : Sys} (hi : Inv s) (hsent : ∀ v, s.served v = s.sent v)
    (hline : s.machine.ps.pdev.intx = false) (hidle : ∀ v, s.handler v = .idle) :
    s.machine.ps.regs.intStatus = 0 := by
  apply BitVec.eq_of_getLsbD_eq
  intro n _
  refine Eq.trans ?_ BitVec.getLsbD_zero.symm
  by_contra h
  rcases hi.due n (Bool.eq_true_of_not_eq_false h) with (hlt | ⟨-, -, hhigh⟩) | ht
  · exact absurd (hsent (vec s n)) (Nat.ne_of_lt hlt)
  · rw [hline] at hhigh
    cases hhigh
  · rw [hidle] at ht
    cases ht

theorem Inv.event_lt {s : Sys} (hi : Inv s) {n : Nat} (he : event s n = true) :
    n < lddNrEvents := by
  by_contra h
  have hz := hi.unmasked.known n (Nat.not_lt.mp h)
  exact absurd (he.symm.trans hz) (by decide)

theorem Inv.vec_lt {s : Sys} (hi : Inv s) {n : Nat} (he : event s n = true) :
    vec s n < s.nvec := by
  rcases hi.nvec_cases with ⟨hn, -⟩ | ⟨hn, -⟩
  · rw [vec_msix hn, hn]
    exact hi.event_lt he
  · rw [vec_shared hn, hn]
    decide

end LinuxDeviceDriver.Drivers.EventCounts
