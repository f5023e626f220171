/- source: tools/qemu/hw/ldd/pcie.c, lines 120 to 142, 264 to 277 and 344 to 355
   digest: What raises and clears events, and what a device with all of them
     unmasked sends for them. -/

import LinuxDeviceDriver.Qemu.Pcie.Engine

set_option autoImplicit false

namespace LinuxDeviceDriver.Qemu.Pcie.Events

open State Transfer TransferOutcome Registers Interrupts Engine

/-- The events a step raises: those written to INT_RAISE, or the one of a
completion. -/
def raisedBy (m : Machine) : DevEvent → BitVec 32
  | .write addr val => if regAt addr = some .intRaise then val &&& lddIntAll else 0
  | .expire => if m.ps.timer = true then intBitOf m.ps.regs.result else 0
  | .pciReset | .env _ _ => 0

/-- The events a step clears: those written to INT_STATUS. -/
def clearedBy : DevEvent → BitVec 32
  | .write addr val => if regAt addr = some .intStatus then val else 0
  | .expire | .pciReset | .env _ _ => 0

/-- INT_MASK is written. -/
def isMask : DevEvent → Bool
  | .write addr _ => regAt addr == some .intMask
  | _ => false

/-- What a step can do to INT_STATUS and INT_MASK. -/
inductive EventStep (m : Machine) (e : DevEvent) (regs : Regs) : Prop
  | reset (hr : isReset e = true)
  | clear (v : BitVec 32) (hc : clearedBy e = v) (hs : raisedBy m e = 0) (hm : isMask e = false)
      (status : regs.intStatus = m.ps.regs.intStatus &&& ~~~v)
      (mask : regs.intMask = m.ps.regs.intMask)
  | raise (v : BitVec 32) (hc : clearedBy e = 0) (hs : raisedBy m e = v) (hm : isMask e = false)
      (status : regs.intStatus = m.ps.regs.intStatus ||| v)
      (mask : regs.intMask = m.ps.regs.intMask)
  | mask (hc : clearedBy e = 0) (hs : raisedBy m e = 0) (hm : isMask e = true)
      (status : regs.intStatus = m.ps.regs.intStatus)
  | other (hc : clearedBy e = 0) (hs : raisedBy m e = 0) (hm : isMask e = false)
      (status : regs.intStatus = m.ps.regs.intStatus)
      (mask : regs.intMask = m.ps.regs.intMask)

private theorem write_eventStep (m : Machine) (addr : Nat) (val : BitVec 32) :
    EventStep m (.write addr val) (lddPcieBar0Write m addr val).ps.regs := by
  unfold lddPcieBar0Write
  cases ha : regAt addr with
  | none =>
    exact .other (by simp [clearedBy, ha]) (by simp [raisedBy, ha]) (by simp [isMask, ha]) rfl rfl
  | some r =>
    cases r with
    | ctrl =>
      dsimp only
      split
      · next hv => exact .reset (by simp [isReset, ha, hv])
      · exact .other (by simp [clearedBy, ha]) (by simp [raisedBy, ha]) (by simp [isMask, ha]) rfl rfl
    | intStatus =>
      exact .clear val (by simp [clearedBy, ha]) (by simp [raisedBy, ha]) (by simp [isMask, ha])
        rfl rfl
    | intRaise =>
      exact .raise (val &&& lddIntAll) (by simp [clearedBy, ha]) (by simp [raisedBy, ha])
        (by simp [isMask, ha]) rfl rfl
    | intMask =>
      exact .mask (by simp [clearedBy, ha]) (by simp [raisedBy, ha]) (by simp [isMask, ha]) rfl
    | dmaCtrl =>
      have hother : ∀ regs : Regs, regs.intStatus = m.ps.regs.intStatus →
          regs.intMask = m.ps.regs.intMask → EventStep m (.write addr val) regs :=
        fun _ => .other (by simp [clearedBy, ha]) (by simp [raisedBy, ha]) (by simp [isMask, ha])
      dsimp only
      split
      · exact hother _ rfl rfl
      · split
        · refine hother _ ?_ ?_ <;> rw [start_regs] <;> rfl
        · exact hother _ rfl rfl
    | descAddrLo | descAddrHi | descCount | devOffset =>
      dsimp only
      split <;>
        exact .other (by simp [clearedBy, ha]) (by simp [raisedBy, ha]) (by simp [isMask, ha])
          rfl rfl
    | id | version | caps | scratch | status | maxSeg | maxDesc | xferBytes | errDesc | xor =>
      exact .other (by simp [clearedBy, ha]) (by simp [raisedBy, ha]) (by simp [isMask, ha]) rfl rfl

theorem devStep_eventStep (m : Machine) (e : DevEvent) : EventStep m e (devStep m e).ps.regs := by
  cases e with
  | write addr val => exact write_eventStep m addr val
  | expire =>
    by_cases ht : m.ps.timer = true
    · have hregs : (devStep m .expire).ps.regs = _ :=
        (congrArg LDDPCIEState.regs (if_pos ht)).trans
          (complete_regs { m.ps with timer := false })
      refine .raise (intBitOf m.ps.regs.result) rfl (if_pos ht) rfl ?_ ?_ <;> rw [hregs]
    · have hm : devStep m .expire = m := by simp [devStep, timerExpire, ht, setPs]
      rw [hm]
      exact .other rfl (if_neg ht) rfl rfl rfl
  | pciReset => exact .reset rfl
  | env bus guest => exact .other rfl rfl rfl rfl rfl

/-- Events come and go by INT_RAISE, completions and INT_STATUS only. -/
theorem devStep_event (m : Machine) (e : DevEvent) (hr : isReset e = false) (n : Nat) :
    (devStep m e).ps.regs.intStatus.getLsbD n =
      (m.ps.regs.intStatus.getLsbD n && !(clearedBy e).getLsbD n || (raisedBy m e).getLsbD n) := by
  cases devStep_eventStep m e with
  | reset h =>
    rw [hr] at h
    cases h
  | clear v hc hs hm status =>
    rw [status, hc, hs, BitVec.getLsbD_and, BitVec.getLsbD_not]
    by_cases hn : n < 32
    · simp [hn]
    · simp [BitVec.getLsbD_of_ge _ n (Nat.le_of_not_lt hn)]
  | raise v hc hs hm status =>
    rw [status, hc, hs, BitVec.getLsbD_or]
    simp
  | mask hc hs hm status | other hc hs hm status =>
    rw [status, hc, hs]
    simp

theorem devStep_intMask (m : Machine) (e : DevEvent) (hr : isReset e = false)
    (hm : isMask e = false) : (devStep m e).ps.regs.intMask = m.ps.regs.intMask := by
  cases devStep_eventStep m e with
  | reset h =>
    rw [hr] at h
    cases h
  | mask _ _ h =>
    rw [hm] at h
    cases h
  | clear _ _ _ _ _ mask => exact mask
  | raise _ _ _ _ _ mask => exact mask
  | other _ _ _ _ mask => exact mask

theorem raisedBy_known (m : Machine) (e : DevEvent) {n : Nat} (hn : lddMsixVectors ≤ n) :
    (raisedBy m e).getLsbD n = false := by
  have hbit : ∀ code, intBitOf code &&& lddIntAll = intBitOf code := by
    intro code
    unfold intBitOf
    split <;> decide
  cases e with
  | write addr val =>
    rw [raisedBy]
    split
    · exact lddIntAll_reserved val n hn
    · exact BitVec.getLsbD_zero
  | expire =>
    rw [raisedBy]
    split
    · rw [← hbit]
      exact lddIntAll_reserved _ n hn
    · exact BitVec.getLsbD_zero
  | pciReset | env => exact BitVec.getLsbD_zero

theorem reset_regs (m : Machine) {e : DevEvent} (hr : isReset e = true) :
    (devStep m e).ps.regs = {} := by
  cases devStep_engineStep m e with
  | start hs =>
    rw [accepted_of_isReset m hr] at hs
    cases hs
  | reset _ _ _ regs => exact regs
  | complete he =>
    rw [he] at hr
    cases hr
  | other _ h =>
    rw [hr] at h
    cases h

/-- Only the three events ever show in INT_STATUS. -/
def Known (ps : LDDPCIEState) : Prop :=
  ∀ n, lddMsixVectors ≤ n → ps.regs.intStatus.getLsbD n = false

theorem Known.step {m : Machine} (h : Known m.ps) (e : DevEvent) : Known (devStep m e).ps := by
  intro n hn
  cases hr : isReset e with
  | true =>
    rw [reset_regs m hr]
    exact BitVec.getLsbD_zero
  | false =>
    rw [devStep_event m e hr, h n hn, raisedBy_known m e hn]
    rfl

theorem devRun_known (m : Machine) (es : List DevEvent) (h : Known m.ps) :
    Known (devRun m es).ps := by
  induction es generalizing m with
  | nil => exact h
  | cons e es ih => exact ih (devStep m e) (h.step e)

/-! ## All events unmasked -/

/-- The device as a driver of all its events leaves it. -/
structure Unmasked (ps : LDDPCIEState) : Prop where
  irq : IrqInv ps
  mask : ps.regs.intMask = lddIntAll
  known : Known ps

theorem lddIntAll_getLsbD {n : Nat} (hn : n < lddMsixVectors) : lddIntAll.getLsbD n = true := by
  have h : ∀ i, i < lddMsixVectors → lddIntAll.getLsbD i = true := by decide
  exact h n hn

theorem Unmasked.pending_eq {ps : LDDPCIEState} (h : Unmasked ps) :
    pending ps = ps.regs.intStatus := by
  ext n hn
  rw [pending, h.mask, BitVec.getElem_and, ← BitVec.getLsbD_eq_getElem, ← BitVec.getLsbD_eq_getElem]
  by_cases hv : n < lddMsixVectors
  · rw [lddIntAll_getLsbD hv, Bool.and_true]
  · rw [h.known n (Nat.le_of_not_lt hv), Bool.false_and]

theorem Unmasked.step {m : Machine} (h : Unmasked m.ps) {e : DevEvent} (hr : isReset e = false)
    (hm : isMask e = false) : Unmasked (devStep m e).ps :=
  ⟨(devStep_irqStep m e).inv h.irq, (devStep_intMask m e hr hm).trans h.mask, h.known.step e⟩

theorem Unmasked.rises_eq {ps ps' : LDDPCIEState} (h : Unmasked ps) (h' : Unmasked ps') (n : Nat) :
    rises n ps ps' = (!ps.regs.intStatus.getLsbD n && ps'.regs.intStatus.getLsbD n) := by
  rw [rises, h.pending_eq, h'.pending_eq]

theorem devStep_sent_le (m : Machine) (e : DevEvent) (v : Nat) :
    m.ps.pdev.sent.count v ≤ (devStep m e).ps.pdev.sent.count v := by
  cases devStep_irqStep m e with
  | quiet pdev => rw [pdev]
  | reset pdev => rw [pdev]; exact le_refl _
  | update q pdev _ _ after =>
    rw [after, updateIrq_pdev, pdev, List.count_append]
    exact Nat.le_add_left _ _

theorem Unmasked.line_eq {ps : LDDPCIEState} (h : Unmasked ps) (hx : ps.pdev.msixEnabled = false)
    (hm : ps.pdev.msiEnabled = false) : ps.pdev.intx = (ps.regs.intStatus != 0) := by
  rw [h.irq.line hx hm, h.pending_eq]

end LinuxDeviceDriver.Qemu.Pcie.Events
