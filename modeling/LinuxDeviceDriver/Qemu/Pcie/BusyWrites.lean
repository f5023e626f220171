/- source: tools/qemu/hw/ldd/pcie.c, lines 264 to 277 and 329 to 409
   digest: What a transfer reports is settled at START; writes while BUSY do not reach it. -/

import LinuxDeviceDriver.Qemu.Pcie.Engine

set_option autoImplicit false

namespace LinuxDeviceDriver.Qemu.Pcie.BusyWrites

open State Transfer TransferOutcome Registers Interrupts Engine

/-- What the guest may do before the timer fires: any register write but
CTRL.RESET, and any change of its own memory, the descriptor table included. -/
def GuestEvent : DevEvent → Prop
  | .write addr val => isReset (.write addr val) = false
  | .env _ _ => True
  | .expire => False
  | .pciReset => False

/-- Everything the outcome of the running transfer is made of. -/
structure Frozen (m m' : Machine) : Prop where
  status : m'.ps.regs.status = m.ps.regs.status
  result : m'.ps.regs.result = m.ps.regs.result
  xferBytes : m'.ps.regs.xferBytes = m.ps.regs.xferBytes
  errDesc : m'.ps.regs.errDesc = m.ps.regs.errDesc
  descAddr : m'.ps.regs.descAddr = m.ps.regs.descAddr
  descCount : m'.ps.regs.descCount = m.ps.regs.descCount
  devOffset : m'.ps.regs.devOffset = m.ps.regs.devOffset
  dmaCtrl : m'.ps.regs.dmaCtrl = m.ps.regs.dmaCtrl
  bar2 : m'.ps.bar2 = m.ps.bar2
  timer : m'.ps.timer = m.ps.timer

theorem Frozen.refl (m : Machine) : Frozen m m := by
  constructor <;> rfl

theorem Frozen.trans {m m' m'' : Machine} (h : Frozen m m') (h' : Frozen m' m'') :
    Frozen m m'' where
  status := h'.status.trans h.status
  result := h'.result.trans h.result
  xferBytes := h'.xferBytes.trans h.xferBytes
  errDesc := h'.errDesc.trans h.errDesc
  descAddr := h'.descAddr.trans h.descAddr
  descCount := h'.descCount.trans h.descCount
  devOffset := h'.devOffset.trans h.devOffset
  dmaCtrl := h'.dmaCtrl.trans h.dmaCtrl
  bar2 := h'.bar2.trans h.bar2
  timer := h'.timer.trans h.timer

private theorem frozen_write (m : Machine) (addr : Nat) (val : BitVec 32)
    (hb : busy m.ps = true) (hg : isReset (.write addr val) = false) :
    Frozen m (lddPcieBar0Write m addr val) := by
  unfold lddPcieBar0Write
  cases hr : regAt addr with
  | none => exact .refl m
  | some r =>
    cases r with
    | ctrl =>
      have hv : anySet val lddCtrlReset = false := by simpa [isReset, hr] using hg
      simp only [hv, Bool.false_eq_true, if_false]
      exact .refl m
    -- the busy check: these writes are ignored
    | descAddrLo | descAddrHi | descCount | devOffset | dmaCtrl =>
      simp only [hb, if_true]
      exact .refl m
    -- writable while BUSY, and no part of the outcome
    | scratch | intStatus | intMask | intRaise | xor => constructor <;> rfl
    | id | version | caps | status | maxSeg | maxDesc | xferBytes | errDesc => exact .refl m

private theorem frozen_step (m : Machine) (e : DevEvent) (hb : busy m.ps = true)
    (hg : GuestEvent e) : Frozen m (devStep m e) := by
  cases e with
  | write addr val => exact frozen_write m addr val hb hg
  | env bus guest => constructor <;> rfl
  | expire => exact hg.elim
  | pciReset => exact hg.elim

theorem frozen_run (m : Machine) (es : List DevEvent) (hb : busy m.ps = true)
    (hg : ∀ e ∈ es, GuestEvent e) : Frozen m (devRun m es) := by
  induction es generalizing m with
  | nil => exact .refl m
  | cons e es ih =>
    obtain ⟨he, hes⟩ := List.forall_mem_cons.mp hg
    have hstep := frozen_step m e hb he
    have hb' : busy (devStep m e).ps = true := by rw [busy, hstep.status]; exact hb
    exact hstep.trans (ih (devStep m e) hb' hes)

/-- The device once the completion callback has run. -/
def completed (m : Machine) : LDDPCIEState := lddPcieComplete { m.ps with timer := false }

/-- Two runs of guest events from one busy state complete alike: same STATUS,
XFER_BYTES and ERR_DESC, same completion bit, and the programmed registers and
the on-board memory as they were in that state. -/
theorem outcome_settled_at_start (m : Machine) (hb : busy m.ps = true) (ws ws' : List DevEvent)
    (hg : ∀ e ∈ ws, GuestEvent e) (hg' : ∀ e ∈ ws', GuestEvent e) :
    let c := completed (devRun m ws)
    let c' := completed (devRun m ws')
    c.regs.status = c'.regs.status ∧ c.regs.xferBytes = c'.regs.xferBytes ∧
    c.regs.errDesc = c'.regs.errDesc ∧
    (∃ bit, (bit = lddIntDmaDone ∨ bit = lddIntDmaError) ∧
      c.regs.intStatus = (devRun m ws).ps.regs.intStatus ||| bit ∧
      c'.regs.intStatus = (devRun m ws').ps.regs.intStatus ||| bit) ∧
    c.regs.descAddr = m.ps.regs.descAddr ∧ c'.regs.descAddr = m.ps.regs.descAddr ∧
    c.regs.descCount = m.ps.regs.descCount ∧ c'.regs.descCount = m.ps.regs.descCount ∧
    c.regs.devOffset = m.ps.regs.devOffset ∧ c'.regs.devOffset = m.ps.regs.devOffset ∧
    c.regs.dmaCtrl = m.ps.regs.dmaCtrl ∧ c'.regs.dmaCtrl = m.ps.regs.dmaCtrl ∧
    c.bar2.ram = m.ps.bar2.ram ∧ c'.bar2.ram = m.ps.bar2.ram := by
  intro c c'
  have hf := frozen_run m ws hb hg
  have hf' := frozen_run m ws' hb hg'
  have hc : c.regs = _ := complete_regs { (devRun m ws).ps with timer := false }
  have hc' : c'.regs = _ := complete_regs { (devRun m ws').ps with timer := false }
  rw [hf.result] at hc
  rw [hf'.result] at hc'
  refine ⟨?_, ?_, ?_, ⟨intBitOf m.ps.regs.result, ?_, ?_, ?_⟩, ?_⟩
  · rw [hc, hc']
  · rw [hc, hc', hf.xferBytes, hf'.xferBytes]
  · rw [hc, hc', hf.errDesc, hf'.errDesc]
  · unfold intBitOf
    split
    · exact .inr rfl
    · exact .inl rfl
  · rw [hc]
  · rw [hc']
  · have hbar : c.bar2 = (devRun m ws).ps.bar2 := rfl
    have hbar' : c'.bar2 = (devRun m ws').ps.bar2 := rfl
    rw [hc, hc', hbar, hbar', hf.descAddr, hf'.descAddr, hf.descCount, hf'.descCount,
      hf.devOffset, hf'.devOffset, hf.dmaCtrl, hf'.dmaCtrl, hf.bar2, hf'.bar2]
    simp

theorem outcome_settled_at_start_no_master :
    let m := devRun (powerOn 0 false true (fun _ => 0) defaultProps DmaBus.flat (fun _ => 0))
      [.write (lddReg .dmaCtrl) lddDmaCtrlStart]
    (completed (devRun m [.write (lddReg .xor) 0x55, .write (lddReg .descCount) 7])).regs.status =
      (completed (devRun m [.env DmaBus.flat (fun _ => 1)])).regs.status := by
  intro m
  refine (outcome_settled_at_start m (by decide) _ _ ?_ ?_).1
  · intro e he
    rcases List.mem_pair.mp he with rfl | rfl <;> exact rfl
  · intro e he
    rw [List.mem_singleton.mp he]
    trivial

end LinuxDeviceDriver.Qemu.Pcie.BusyWrites
