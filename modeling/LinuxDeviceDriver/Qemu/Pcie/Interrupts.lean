/- source: tools/qemu/hw/ldd/pcie.c, lines 114 to 149
   digest: Messages follow the rising bits of INT_STATUS & INT_MASK, the line its level. -/

import LinuxDeviceDriver.Qemu.Pcie.Registers

set_option autoImplicit false

namespace LinuxDeviceDriver.Qemu.Pcie.Interrupts

open State Transfer TransferOutcome Registers

@[simp] theorem updateIrq_regs (ps : LDDPCIEState) :
    (lddPcieUpdateIrq ps).regs = { ps.regs with irqSent := pending ps } := rfl

@[simp] theorem updateIrq_pending (ps : LDDPCIEState) :
    pending (lddPcieUpdateIrq ps) = pending ps := rfl

private theorem notify_modes (l : List Nat) (f : Nat → Bool) (pdev : PciDevice) :
    (l.foldl (fun pdev i => if f i = true then msixNotify pdev i else pdev) pdev) =
      { pdev with sent := (l.filter f).reverse ++ pdev.sent } := by
  induction l generalizing pdev with
  | nil => rfl
  | cons i l ih =>
    rw [List.foldl_cons, ih]
    cases hf : f i <;> simp [hf, msixNotify]

/-- The vectors of the messages one call of ldd_pcie_update_irq sends. -/
def notified (ps : LDDPCIEState) : List Nat :=
  let new := pending ps &&& ~~~ps.regs.irqSent
  if ps.pdev.msixEnabled = true then
    ((List.range lddMsixVectors).filter fun i => anySet new (bit i)).reverse
  else if ps.pdev.msiEnabled = true then (if new ≠ 0 then [0] else [])
  else []

theorem updateIrq_pdev (ps : LDDPCIEState) : (lddPcieUpdateIrq ps).pdev =
    { ps.pdev with
      sent := notified ps ++ ps.pdev.sent
      intx := !ps.pdev.msixEnabled && !ps.pdev.msiEnabled && (pending ps != 0) } := by
  unfold lddPcieUpdateIrq notified
  cases hx : ps.pdev.msixEnabled with
  | true => simp [notify_modes, pciIrqDeassert, hx]
  | false =>
    cases hi : ps.pdev.msiEnabled with
    | true =>
      by_cases hn : pending ps &&& ~~~ps.regs.irqSent = 0#32 <;>
        simp [hn, msiNotify, pciIrqDeassert, hx, hi]
    | false => simp [pciSetIrq, hx, hi]

theorem updateIrq_command (ps : LDDPCIEState) :
    (lddPcieUpdateIrq ps).pdev.command = ps.pdev.command := by
  rw [updateIrq_pdev]

/-- What a step can do to the interrupt side of the device: nothing, a reset,
or a change of INT_STATUS or INT_MASK that ldd_pcie_update_irq then signals. -/
inductive IrqStep (ps ps' : LDDPCIEState) : Prop
  | quiet (pdev : ps'.pdev = ps.pdev) (status : ps'.regs.intStatus = ps.regs.intStatus)
      (mask : ps'.regs.intMask = ps.regs.intMask) (sent : ps'.regs.irqSent = ps.regs.irqSent)
  | reset (pdev : ps'.pdev = pciIrqDeassert ps.pdev) (regs : ps'.regs = {})
  | update (q : LDDPCIEState) (pdev : q.pdev = ps.pdev) (sent : q.regs.irqSent = ps.regs.irqSent)
      (mask : q.regs.intMask = ps.regs.intMask ∨ ∃ val, q.regs.intMask = val &&& lddIntAll)
      (after : ps' = lddPcieUpdateIrq q)

theorem IrqStep.refl (ps : LDDPCIEState) : IrqStep ps ps := .quiet rfl rfl rfl rfl

private theorem irqStep_start (m : Machine) (val : BitVec 32) :
    IrqStep m.ps (lddPcieStart (setDmaDir m val)).ps := by
  refine .quiet (start_pdev (setDmaDir m val)) ?_ ?_ ?_ <;> rw [start_regs] <;> rfl

private theorem irqStep_write (m : Machine) (addr : Nat) (val : BitVec 32) :
    IrqStep m.ps (lddPcieBar0Write m addr val).ps := by
  unfold lddPcieBar0Write
  cases hr : regAt addr with
  | none => exact .refl _
  | some r =>
    cases r with
    | ctrl =>
      dsimp only
      split
      · exact .reset rfl rfl
      · exact .refl _
    | intStatus | intRaise => refine .update _ ?_ ?_ (.inl ?_) rfl <;> rfl
    | intMask => refine .update _ ?_ ?_ (.inr ⟨val, ?_⟩) rfl <;> rfl
    | dmaCtrl =>
      dsimp only
      split
      · exact .refl _
      · split
        · exact irqStep_start m val
        · exact .quiet rfl rfl rfl rfl
    | descAddrLo | descAddrHi | descCount | devOffset =>
      dsimp only
      split <;> exact .quiet rfl rfl rfl rfl
    | id | version | caps | scratch | status | maxSeg | maxDesc | xferBytes | errDesc | xor =>
      exact .quiet rfl rfl rfl rfl

private theorem completeRegs_irqSent (regs : Regs) :
    (completeRegs regs).irqSent = regs.irqSent := by
  unfold completeRegs
  split <;> rfl

private theorem completeRegs_intMask (regs : Regs) :
    (completeRegs regs).intMask = regs.intMask := by
  unfold completeRegs
  split <;> rfl

private theorem irqStep_complete (ps : LDDPCIEState) : IrqStep ps (timerExpire ps) := by
  unfold timerExpire
  split
  · refine .update { ps with timer := false, regs := completeRegs ps.regs } rfl ?_ (.inl ?_) rfl
    · exact completeRegs_irqSent ps.regs
    · exact completeRegs_intMask ps.regs
  · exact .refl _

theorem devStep_irqStep (m : Machine) (e : DevEvent) : IrqStep m.ps (devStep m e).ps := by
  cases e with
  | write addr val => exact irqStep_write m addr val
  | expire => exact irqStep_complete m.ps
  | pciReset => exact .reset rfl rfl
  | env bus guest => exact .refl _

/-- The shadow copy is exact, no reserved bit is unmasked, and in INTx mode the
line has the level of what is pending. -/
structure IrqInv (ps : LDDPCIEState) : Prop where
  shadow : ps.regs.irqSent = pending ps
  reserved : ∀ n, lddMsixVectors ≤ n → ps.regs.intMask.getLsbD n = false
  line : ps.pdev.msixEnabled = false → ps.pdev.msiEnabled = false →
    ps.pdev.intx = (pending ps != 0)

theorem lddIntAll_reserved (val : BitVec 32) (n : Nat) (hn : lddMsixVectors ≤ n) :
    (val &&& lddIntAll).getLsbD n = false := by
  have h0 : n ≠ 0 := by unfold lddMsixVectors at hn; omega
  have h1 : n ≠ 1 := by unfold lddMsixVectors at hn; omega
  have h2 : n ≠ 2 := by unfold lddMsixVectors at hn; omega
  simp [lddIntAll, lddIntDmaDone, lddIntDmaError, lddIntSoft, bit, BitVec.getLsbD_twoPow,
    Ne.symm h0, Ne.symm h1, Ne.symm h2]

theorem IrqStep.inv {ps ps' : LDDPCIEState} (h : IrqStep ps ps') (hi : IrqInv ps) :
    IrqInv ps' := by
  cases h with
  | quiet pdev status mask sent =>
    have hp : pending ps' = pending ps := by rw [pending, pending, status, mask]
    exact ⟨by rw [sent, hp, hi.shadow], by rw [mask]; exact hi.reserved,
      by rw [pdev, hp]; exact hi.line⟩
  | reset pdev regs =>
    have hp : pending ps' = 0 := by rw [pending, regs]; rfl
    exact ⟨by rw [hp, regs], fun n _ => by rw [regs]; simp, fun _ _ => by rw [pdev, hp]; rfl⟩
  | update q pdev sent mask after =>
    subst after
    refine ⟨rfl, ?_, ?_⟩
    · intro n hn
      rcases mask with mask | ⟨val, mask⟩
      · rw [updateIrq_regs, mask]
        exact hi.reserved n hn
      · rw [updateIrq_regs, mask]
        exact lddIntAll_reserved val n hn
    · intro hx hm
      rw [updateIrq_pdev] at hx hm ⊢
      simp_all

theorem IrqStep.mode {ps ps' : LDDPCIEState} (h : IrqStep ps ps') :
    ps'.pdev.msixEnabled = ps.pdev.msixEnabled ∧ ps'.pdev.msiEnabled = ps.pdev.msiEnabled := by
  cases h with
  | quiet pdev => rw [pdev]; exact ⟨rfl, rfl⟩
  | reset pdev => rw [pdev]; exact ⟨rfl, rfl⟩
  | update q pdev _ _ after => rw [after, updateIrq_pdev, pdev]; exact ⟨rfl, rfl⟩

/-- Bit n of what is pending goes from 0 to 1. -/
def rises (n : Nat) (ps ps' : LDDPCIEState) : Bool :=
  !(pending ps).getLsbD n && (pending ps').getLsbD n

/-- With the shadow exact, what is new to ldd_pcie_update_irq is what rose. -/
private theorem new_getLsbD {ps : LDDPCIEState} (hi : IrqInv ps) (q : LDDPCIEState)
    (sent : q.regs.irqSent = ps.regs.irqSent) (n : Nat) :
    (pending q &&& ~~~q.regs.irqSent).getLsbD n = rises n ps q := by
  rw [sent, hi.shadow, BitVec.getLsbD_and, BitVec.getLsbD_not, rises]
  by_cases hn : n < 32
  · simp [hn, Bool.and_comm]
  · simp [hn, BitVec.getLsbD_of_ge _ n (Nat.le_of_not_lt hn)]

theorem IrqStep.quiet_rises {ps ps' : LDDPCIEState} (n : Nat)
    (status : ps'.regs.intStatus = ps.regs.intStatus)
    (mask : ps'.regs.intMask = ps.regs.intMask) : rises n ps ps' = false := by
  rw [rises, pending, pending, status, mask]
  cases (ps.regs.intStatus &&& ps.regs.intMask).getLsbD n <;> rfl

private theorem reset_rises {ps ps' : LDDPCIEState} (n : Nat) (regs : ps'.regs = {}) :
    rises n ps ps' = false := by
  rw [rises, pending, pending, regs]
  simp

private theorem count_filter_range (f : Nat → Bool) (k n : Nat) :
    ((List.range k).filter f).count n = if n < k ∧ f n = true then 1 else 0 := by
  split
  · next h =>
    refine List.count_eq_one_of_mem (List.nodup_range.filter f) ?_
    exact List.mem_filter.mpr ⟨List.mem_range.mpr h.1, h.2⟩
  · next h =>
    refine List.count_eq_zero_of_not_mem ?_
    intro hm
    obtain ⟨hr, hf⟩ := List.mem_filter.mp hm
    exact h ⟨List.mem_range.mp hr, hf⟩

/-- MSI-X: one message on vector n for a rising bit n, and no other. -/
theorem IrqStep.sent_msix {ps ps' : LDDPCIEState} (h : IrqStep ps ps') (hi : IrqInv ps)
    (hx : ps.pdev.msixEnabled = true) (n : Nat) : ps'.pdev.sent.count n =
      ps.pdev.sent.count n + (if rises n ps ps' = true then 1 else 0) := by
  cases h with
  | quiet pdev status mask sent => rw [pdev, IrqStep.quiet_rises n status mask]; rfl
  | reset pdev regs => rw [pdev, reset_rises n regs]; rfl
  | update q pdev sent mask after =>
    have hnew := new_getLsbD hi q sent n
    have hafter := IrqStep.inv (.update q pdev sent mask after) hi
    have hp : pending ps' = pending q := by rw [after]; rfl
    have hr : rises n ps ps' = rises n ps q := by rw [rises, rises, hp]
    have hcount : (notified q).count n = if rises n ps q = true then 1 else 0 := by
      simp only [notified, pdev, hx, if_true, List.count_reverse, count_filter_range]
      by_cases hn : n < lddMsixVectors
      · have h32 : n < 32 := by unfold lddMsixVectors at hn; omega
        rw [anySet_bit _ h32, hnew]
        simp [hn]
      · have hz : (pending ps').getLsbD n = false := by
          rw [pending, BitVec.getLsbD_and, hafter.reserved n (Nat.le_of_not_lt hn), Bool.and_false]
        have hf : rises n ps q = false := by rw [← hr, rises, hz, Bool.and_false]
        simp [hn, hf]
    rw [hr, after, updateIrq_pdev]
    simp only [List.count_append, pdev, hcount]
    exact Nat.add_comm _ _

/-- MSI: one message for a step in which any bit rises, and no other. -/
theorem IrqStep.sent_msi {ps ps' : LDDPCIEState} (h : IrqStep ps ps') (hi : IrqInv ps)
    (hx : ps.pdev.msixEnabled = false) (hm : ps.pdev.msiEnabled = true) :
    ((∃ n, rises n ps ps' = true) → ps'.pdev.sent = 0 :: ps.pdev.sent) ∧
      ((∀ n, rises n ps ps' = false) → ps'.pdev.sent = ps.pdev.sent) := by
  cases h with
  | quiet pdev status mask sent =>
    refine ⟨?_, fun _ => by rw [pdev]⟩
    rintro ⟨n, hn⟩
    rw [IrqStep.quiet_rises n status mask] at hn
    contradiction
  | reset pdev regs =>
    refine ⟨?_, fun _ => by rw [pdev]; rfl⟩
    rintro ⟨n, hn⟩
    rw [reset_rises n regs] at hn
    contradiction
  | update q pdev sent mask after =>
    have hr : ∀ n, rises n ps ps' = (pending q &&& ~~~q.regs.irqSent).getLsbD n := by
      intro n
      rw [new_getLsbD hi q sent n, after]
      rfl
    have hsent : ps'.pdev.sent =
        (if pending q &&& ~~~q.regs.irqSent ≠ 0 then [0] else []) ++ ps.pdev.sent := by
      rw [after, updateIrq_pdev]
      simp [notified, pdev, hx, hm]
    constructor
    · rintro ⟨n, hn⟩
      rw [hr] at hn
      have hz : pending q &&& ~~~q.regs.irqSent ≠ 0 := by
        intro hz
        rw [hz] at hn
        simp at hn
      rw [hsent, if_pos hz]
      rfl
    · intro hall
      have hz : pending q &&& ~~~q.regs.irqSent = 0 := by
        apply BitVec.eq_of_getLsbD_eq
        intro n _
        rw [← hr, hall]
        simp
      rw [hsent, if_neg (not_not.mpr hz)]
      rfl

theorem devRun_irqInv (m : Machine) (es : List DevEvent) (hi : IrqInv m.ps) :
    IrqInv (devRun m es).ps := by
  induction es generalizing m with
  | nil => exact hi
  | cons e es ih => exact ih (devStep m e) ((devStep_irqStep m e).inv hi)

theorem devRun_mode (m : Machine) (es : List DevEvent) :
    (devRun m es).ps.pdev.msixEnabled = m.ps.pdev.msixEnabled ∧
      (devRun m es).ps.pdev.msiEnabled = m.ps.pdev.msiEnabled := by
  induction es generalizing m with
  | nil => exact ⟨rfl, rfl⟩
  | cons e es ih =>
    have hs := (devStep_irqStep m e).mode
    exact ⟨(ih _).1.trans hs.1, (ih _).2.trans hs.2⟩

/-- The number of steps of a run in which bit n of what is pending rises. -/
def risingSteps (n : Nat) : Machine → List DevEvent → Nat
  | _, [] => 0
  | m, e :: es =>
    (if rises n m.ps (devStep m e).ps = true then 1 else 0) + risingSteps n (devStep m e) es

private theorem devRun_count_msix (m : Machine) (es : List DevEvent) (hi : IrqInv m.ps)
    (hx : m.ps.pdev.msixEnabled = true) (n : Nat) :
    (devRun m es).ps.pdev.sent.count n = m.ps.pdev.sent.count n + risingSteps n m es := by
  induction es generalizing m with
  | nil => rfl
  | cons e es ih =>
    have hs := devStep_irqStep m e
    rw [devRun_cons, ih (devStep m e) (hs.inv hi) (hs.mode.1.trans hx), hs.sent_msix hi hx n,
      risingSteps, Nat.add_assoc]

theorem powerOn_irqInv (command : BitVec 16) (msix msi : Bool)
    (ram : Nat → LinuxDeviceDriver.Lib.LittleEndian.Byte) (props : Realized) (bus : DmaBus)
    (guest : Memory) : IrqInv (powerOn command msix msi ram props bus guest).ps where
  shadow := by simp [powerOn, pending]
  reserved n _ := by simp [powerOn]
  line _ _ := by simp [powerOn, pending]

/-- Over every run from power on, in each of the three interrupt modes. -/
theorem interrupts_follow_pending (command : BitVec 16) (msix msi : Bool)
    (ram : Nat → LinuxDeviceDriver.Lib.LittleEndian.Byte) (props : Realized) (bus : DmaBus)
    (guest : Memory) (es : List DevEvent) :
    let start := powerOn command msix msi ram props bus guest
    let m := devRun start es
    m.ps.regs.irqSent = m.ps.regs.intStatus &&& m.ps.regs.intMask ∧
    (msix = true → ∀ n, m.ps.pdev.sent.count n = risingSteps n start es) ∧
    (msix = false → msi = true → ∀ e,
      ((∃ n, rises n m.ps (devStep m e).ps = true) →
        (devStep m e).ps.pdev.sent = 0 :: m.ps.pdev.sent) ∧
      ((∀ n, rises n m.ps (devStep m e).ps = false) →
        (devStep m e).ps.pdev.sent = m.ps.pdev.sent)) ∧
    (msix = false → msi = false →
      (m.ps.pdev.intx = true ↔ m.ps.regs.intStatus &&& m.ps.regs.intMask ≠ 0)) := by
  intro start m
  have hstart := powerOn_irqInv command msix msi ram props bus guest
  have hi : IrqInv m.ps := devRun_irqInv start es hstart
  obtain ⟨hmx, hmi⟩ := devRun_mode start es
  refine ⟨hi.shadow, ?_, ?_, ?_⟩
  · intro hx n
    have hc := devRun_count_msix start es hstart hx n
    rw [hc]
    exact Nat.zero_add _
  · intro hx hm e
    exact (devStep_irqStep m e).sent_msi hi (hmx.trans hx) (hmi.trans hm)
  · intro hx hm
    rw [hi.line (hmx.trans hx) (hmi.trans hm)]
    simp [pending]

end LinuxDeviceDriver.Qemu.Pcie.Interrupts
