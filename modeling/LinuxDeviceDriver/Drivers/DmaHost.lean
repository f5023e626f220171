/- source: examples/28_dma_sg/main.c, lines 32 to 80 and 163 to 177;
     examples/27_dma/main.c, lines 40 to 125
   digest: How the dma drivers program the device, wait for it and handle its interrupt. -/

import LinuxDeviceDriver.Drivers.CharFile
import LinuxDeviceDriver.Qemu.Pcie.Copy
import LinuxDeviceDriver.Qemu.Pcie.Engine

set_option autoImplicit false

namespace LinuxDeviceDriver.Drivers.DmaHost

open Lib.LittleEndian
open Lib.ScatterGather
open Qemu.Pcie
open State Transfer TransferOutcome Registers Interrupts Engine Copy CharFile

inductive DmaDataDirection
  | toDevice | fromDevice
  deriving DecidableEq, Repr

/-- A read or write call: the file, the user's buffer and the request. -/
structure Call where
  file : Nat
  ubuf : Nat
  op : FileOp

def dirOf : FileOp → DmaDataDirection
  | .read _ => .fromDevice
  | .write _ => .toDevice

structure CallResult where
  log : CallLog
  /-- The device as START found it, and the ERR_CODE of the transfer. -/
  launch : Option (Machine × BitVec 32) := none

/-- The answer of a call that ends before any transfer. -/
def Call.answer (c : Call) (ret : Int) (refused : Option Int) : CallResult :=
  { log := ⟨c.file, c.op, refused, ret, []⟩ }

def iowrite32 (m : Machine) (reg : Reg) (val : BitVec 32) : Machine :=
  lddPcieBar0Write m (lddReg reg) val

def ioread32 (m : Machine) (reg : Reg) : BitVec 32 := lddPcieBar0Read m.ps (lddReg reg)

def lower32Bits (a : BitVec 64) : BitVec 32 := a.setWidth 32

def upper32Bits (a : BitVec 64) : BitVec 32 := (a >>> 32).setWidth 32

/-- LDD_INT_DMA_DONE | LDD_INT_DMA_ERROR, the events the drivers enable. -/
def dmaEvents : BitVec 32 := lddIntDmaDone ||| lddIntDmaError

/-- The register writes before START, in order. -/
def programWrites (descBus : BitVec 64) (nents pos : Nat) (dir : DmaDataDirection)
    (xor : BitVec 32) : List (Reg × BitVec 32) :=
  [(.descAddrLo, lower32Bits descBus), (.descAddrHi, upper32Bits descBus),
    (.descCount, BitVec.ofNat 32 nents), (.devOffset, BitVec.ofNat 32 pos)] ++
    (if dir = .fromDevice then [(.xor, xor &&& 0xff)] else [])

def startCtrl (dir : DmaDataDirection) : BitVec 32 :=
  if dir = .fromDevice then lddDmaCtrlStart ||| lddDmaCtrlDir else lddDmaCtrlStart

def iowrites (m : Machine) (ws : List (Reg × BitVec 32)) : Machine :=
  ws.foldl (fun m w => iowrite32 m w.1 w.2) m

/-- The interrupt handler of both drivers: the device, int_status, and whether
it called complete(). -/
def dmaHandler (m : Machine) (intStatus : BitVec 32) : Machine × BitVec 32 × Bool :=
  let status := ioread32 m .intStatus &&& dmaEvents
  if status = 0 then (m, intStatus, false)
  else (iowrite32 m .intStatus status, status, true)

/-- How wait_for_completion_timeout ends. -/
inductive Wait
  | completed | timedOut
  deriving DecidableEq, Repr

structure RunResult where
  ret : Int
  machine : Machine
  intStatus : BitVec 32
  /-- The device as the write of START found it. -/
  launch : Machine
  /-- ERR_CODE of the transfer that START began. -/
  code : BitVec 32

/-- The body of dma_sg_run, and the same code within dma_xfer, when no other
thread interferes: the device completes and its handler runs, or the wait ends. -/
def runTransfer (m : Machine) (intStatus : BitVec 32) (descBus : BitVec 64) (nents pos : Nat)
    (dir : DmaDataDirection) (xor : BitVec 32) (wait : Wait) : RunResult :=
  let launch := iowrites m (programWrites descBus nents pos dir xor)
  let started := iowrite32 launch .dmaCtrl (startCtrl dir)
  let code := started.ps.regs.result
  match wait with
  | .completed =>
    let h := dmaHandler (devStep started .expire) intStatus
    { ret := if anySet h.2.1 lddIntDmaError = true then -eio else 0
      machine := h.1, intStatus := h.2.1, launch := launch, code := code }
  | .timedOut =>
    let reset := iowrite32 started .ctrl lddCtrlReset
    { ret := -etimedout, machine := iowrite32 reset .intMask dmaEvents
      intStatus := intStatus, launch := launch, code := code }

/-- Between two transfers: not BUSY, no timer armed, no completion to report. -/
structure Idle (ps : LDDPCIEState) : Prop where
  notBusy : busy ps = false
  disarmed : ps.timer = false
  clear : ps.regs.intStatus &&& dmaEvents = 0

/-- The low four bits that the device drops from DESC_ADDR are 0. -/
def Aligned (descBus : BitVec 64) : Prop := descBus &&& 15 = 0

/-- The two halves put the bus address of an aligned table together again. -/
theorem deposit_halves (old descBus : BitVec 64) (ha : Aligned descBus) :
    deposit64 (deposit64 old 0 32
      ((lower32Bits descBus &&& ~~~(lddDescAddrAlign - 1)).setWidth 64)) 32 32
      ((upper32Bits descBus).setWidth 64) = descBus := by
  have hlow : ∀ i, i < 64 → (15#64).getLsbD i = decide (i < 4) := by decide
  have hlow' : ∀ i, i < 32 → (lddDescAddrAlign - 1).getLsbD i = decide (i < 4) := by decide
  apply BitVec.eq_of_getLsbD_eq
  intro i hi
  have hb : descBus.getLsbD i = true → 4 ≤ i := by
    have h := congrArg (fun x => x.getLsbD i) ha
    simpa [hlow i hi] using h
  simp only [deposit64, lower32Bits, upper32Bits, BitVec.getLsbD_or, BitVec.getLsbD_and,
    BitVec.getLsbD_not, BitVec.getLsbD_shiftLeft, BitVec.getLsbD_ushiftRight,
    BitVec.getLsbD_allOnes, BitVec.getLsbD_setWidth]
  by_cases h32 : i < 32
  · have h4 := hlow' i h32
    by_cases h : i < 4 <;> grind
  · grind

/-- The device once a transfer is programmed. -/
def withProgram (m : Machine) (descBus : BitVec 64) (nents pos : Nat) (dir : DmaDataDirection)
    (xor : BitVec 32) : Machine :=
  setRegs m { m.ps.regs with
    descAddr := descBus
    descCount := BitVec.ofNat 32 nents
    devOffset := BitVec.ofNat 32 pos
    xor := if dir = .fromDevice then xor &&& 0xff else m.ps.regs.xor }

/-- While the device is not BUSY, the program registers take what is written. -/
theorem iowrites_program (m : Machine) (descBus : BitVec 64) (nents pos : Nat)
    (dir : DmaDataDirection) (xor : BitVec 32) (hb : busy m.ps = false) (ha : Aligned descBus) :
    iowrites m (programWrites descBus nents pos dir xor) =
      withProgram m descBus nents pos dir xor := by
  have hs : anySet m.ps.regs.status lddStatusBusy = false := hb
  have hd := deposit_halves m.ps.regs.descAddr descBus ha
  have hx : (xor &&& 255#32) &&& 255#32 = xor &&& 255#32 := by
    rw [BitVec.and_assoc, BitVec.and_self]
  cases dir <;>
    simp [-BitVec.setWidth_and, iowrites, programWrites, iowrite32, lddPcieBar0Write, busy, hs,
      setRegs, setPs, withProgram, hx] <;>
    exact hd

/-- The transfer START begins: DIR is kept, and the engine runs. -/
def launched (m : Machine) (descBus : BitVec 64) (nents pos : Nat) (dir : DmaDataDirection)
    (xor : BitVec 32) : Machine :=
  setDmaDir (withProgram m descBus nents pos dir xor) (startCtrl dir)

theorem iowrite32_start (m : Machine) (dir : DmaDataDirection) (hb : busy m.ps = false) :
    iowrite32 m .dmaCtrl (startCtrl dir) = lddPcieStart (setDmaDir m (startCtrl dir)) := by
  have hc : anySet (startCtrl dir) lddDmaCtrlStart = true := by cases dir <;> decide
  simp [iowrite32, lddPcieBar0Write, hb, hc]

/-- The direction bit of START selects the engine's direction. -/
theorem toGuest_launched (m : Machine) (descBus : BitVec 64) (nents pos : Nat)
    (dir : DmaDataDirection) (xor : BitVec 32) :
    toGuest (launched m descBus nents pos dir xor) = decide (dir = .fromDevice) := by
  cases dir with
  | toDevice =>
    show anySet (startCtrl .toDevice &&& lddDmaCtrlDir) lddDmaCtrlDir = false
    decide
  | fromDevice =>
    show anySet (startCtrl .fromDevice &&& lddDmaCtrlDir) lddDmaCtrlDir = true
    decide

/-- What the driver and the device are left with when a transfer is over. -/
structure Finished (m started : Machine) (r : RunResult) : Prop where
  idle : Idle r.machine.ps
  bar2 : r.machine.ps.bar2 = started.ps.bar2
  guest : r.machine.guest = started.guest
  props : r.machine.ps.props = m.ps.props
  command : r.machine.ps.pdev.command = m.ps.pdev.command

theorem intBitOf_ne_zero (code : BitVec 32) : intBitOf code ≠ 0 := by
  unfold intBitOf
  split <;> decide

theorem masked_completion (old : BitVec 32) (code : BitVec 32)
    (hold : old &&& dmaEvents = 0) : (old ||| intBitOf code) &&& dmaEvents = intBitOf code := by
  have hb : intBitOf code &&& dmaEvents = intBitOf code := by
    unfold intBitOf
    split <;> decide
  rw [BitVec.and_comm, BitVec.and_or_distrib_left, BitVec.and_comm dmaEvents old, hold,
    BitVec.and_comm dmaEvents, hb]
  exact BitVec.zero_or

/-- The handler clears exactly the completion and hands it on. -/
theorem dmaHandler_completion (m : Machine) (intStatus old code : BitVec 32)
    (hold : old &&& dmaEvents = 0) (hm : m.ps.regs.intStatus = old ||| intBitOf code) :
    dmaHandler m intStatus =
      (iowrite32 m .intStatus (intBitOf code), intBitOf code, true) := by
  have hread : ioread32 m .intStatus &&& dmaEvents = intBitOf code := by
    have h : ioread32 m .intStatus = m.ps.regs.intStatus := by simp [ioread32, lddPcieBar0Read]
    rw [h, hm, masked_completion old code hold]
  unfold dmaHandler
  simp only [hread, if_neg (intBitOf_ne_zero code)]

/-- Starting a transfer leaves the interrupt registers alone. -/
theorem start_intStatus (m : Machine) :
    (lddPcieStart m).ps.regs.intStatus = m.ps.regs.intStatus := by
  rw [start_regs]

theorem start_code_le (m : Machine) : (lddPcieStart m).ps.regs.result.toNat ≤ 5 := by
  rw [start_regs]
  exact (transfer_outcome (startRegs m)).code_le

/-- W1C: the bits written are cleared, and the lines follow. -/
theorem iowrite32_intStatus (m : Machine) (v : BitVec 32) : iowrite32 m .intStatus v =
    setPs m (lddPcieUpdateIrq { m.ps with regs :=
      { m.ps.regs with intStatus := m.ps.regs.intStatus &&& ~~~v } }) := rfl

/-- Clearing bits commutes with looking at the completion bits only. -/
theorem masked_clear (old v : BitVec 32) :
    old &&& ~~~v &&& dmaEvents = old &&& dmaEvents &&& ~~~v := by
  rw [BitVec.and_assoc, BitVec.and_comm (~~~v), ← BitVec.and_assoc]

private theorem cleared_completion (old code : BitVec 32) (hold : old &&& dmaEvents = 0) :
    (old ||| intBitOf code) &&& ~~~(intBitOf code) &&& dmaEvents = 0 := by
  rw [masked_clear, masked_completion old code hold]
  exact BitVec.and_not_self _

/-- What the driver returns for its own transfer. -/
def runRet : Wait → BitVec 32 → Int
  | .completed, code => if code = 0 then 0 else -eio
  | .timedOut, _ => -etimedout

/-- A transfer the device completes: the driver returns 0 exactly when its own
transfer ended with ERR_CODE 0, and the device is idle again. -/
private theorem runTransfer_completed (m : Machine) (intStatus : BitVec 32) (descBus : BitVec 64)
    (nents pos : Nat) (dir : DmaDataDirection) (xor : BitVec 32) (hi : Idle m.ps)
    (ha : Aligned descBus) :
    let r := runTransfer m intStatus descBus nents pos dir xor .completed
    let started := lddPcieStart (launched m descBus nents pos dir xor)
    Finished m started r ∧ r.launch = withProgram m descBus nents pos dir xor ∧
      r.code = started.ps.regs.result ∧ r.ret = runRet .completed r.code := by
  intro r started
  have hlaunch := iowrites_program m descBus nents pos dir xor hi.notBusy ha
  have hstart : iowrite32 (withProgram m descBus nents pos dir xor) .dmaCtrl (startCtrl dir) =
      started := iowrite32_start _ dir hi.notBusy
  have hold : started.ps.regs.intStatus &&& dmaEvents = 0 := by
    rw [start_intStatus]
    exact hi.clear
  have hregs : (devStep started .expire).ps.regs = _ :=
    complete_regs { started.ps with timer := false }
  have hhandler := dmaHandler_completion (devStep started .expire) intStatus
    started.ps.regs.intStatus started.ps.regs.result hold (by rw [hregs])
  have hr : r = { ret := if anySet (intBitOf started.ps.regs.result) lddIntDmaError = true then -eio
                    else 0
                  machine := iowrite32 (devStep started .expire) .intStatus
                    (intBitOf started.ps.regs.result)
                  intStatus := intBitOf started.ps.regs.result
                  launch := withProgram m descBus nents pos dir xor
                  code := started.ps.regs.result } := by
    simp only [r, runTransfer, hlaunch, hstart, hhandler]
  rw [hr, iowrite32_intStatus]
  refine ⟨⟨⟨?_, rfl, ?_⟩, rfl, rfl, ?_, ?_⟩, rfl, rfl, ?_⟩
  · show anySet (devStep started .expire).ps.regs.status lddStatusBusy = false
    rw [hregs]
    exact (statusOf_word _ (start_code_le _)).2
  · show (devStep started .expire).ps.regs.intStatus &&& _ &&& dmaEvents = 0
    rw [hregs]
    exact cleared_completion _ _ hold
  · exact start_props _
  · exact (updateIrq_command _).trans ((updateIrq_command _).trans
      (congrArg PciDevice.command (start_pdev _)))
  · show (if anySet (intBitOf started.ps.regs.result) lddIntDmaError = true then -eio else 0) =
      if started.ps.regs.result = 0 then 0 else -eio
    by_cases hc : started.ps.regs.result = 0#32
    · rw [hc]
      rfl
    · have hb : intBitOf started.ps.regs.result = lddIntDmaError := if_pos hc
      rw [hb, if_pos (by decide)]
      exact (if_neg hc).symm

/-- A transfer the driver gives up on: the reset leaves the device idle. -/
private theorem runTransfer_timedOut (m : Machine) (intStatus : BitVec 32) (descBus : BitVec 64)
    (nents pos : Nat) (dir : DmaDataDirection) (xor : BitVec 32) (hi : Idle m.ps)
    (ha : Aligned descBus) :
    let r := runTransfer m intStatus descBus nents pos dir xor .timedOut
    let started := lddPcieStart (launched m descBus nents pos dir xor)
    Finished m started r ∧ r.launch = withProgram m descBus nents pos dir xor ∧
      r.code = started.ps.regs.result ∧ r.ret = runRet .timedOut r.code := by
  intro r started
  have hlaunch := iowrites_program m descBus nents pos dir xor hi.notBusy ha
  have hstart : iowrite32 (withProgram m descBus nents pos dir xor) .dmaCtrl (startCtrl dir) =
      started := iowrite32_start _ dir hi.notBusy
  have hreset : iowrite32 started .ctrl lddCtrlReset = setPs started (lddPcieReset started.ps) := by
    have hv : anySet lddCtrlReset lddCtrlReset = true := by decide
    simp [iowrite32, lddPcieBar0Write, hv]
  have hmask : ∀ k : Machine, iowrite32 k .intMask dmaEvents =
      setPs k (lddPcieUpdateIrq { k.ps with regs :=
        { k.ps.regs with intMask := dmaEvents &&& lddIntAll } }) := fun _ => rfl
  have hr : r = { ret := -etimedout
                  machine := iowrite32 (setPs started (lddPcieReset started.ps)) .intMask dmaEvents
                  intStatus := intStatus
                  launch := withProgram m descBus nents pos dir xor
                  code := started.ps.regs.result } := by
    simp only [r, runTransfer, hlaunch, hstart, hreset]
  rw [hr, hmask]
  refine ⟨⟨⟨?_, rfl, BitVec.zero_and⟩, rfl, rfl, ?_, ?_⟩, rfl, rfl, rfl⟩
  · show anySet 0 lddStatusBusy = false
    decide
  · exact start_props _
  · have hcmd : started.ps.pdev.command = m.ps.pdev.command :=
      congrArg PciDevice.command (start_pdev _)
    exact (updateIrq_command _).trans hcmd

/-- One transfer from an idle device: whatever ends the wait, the device is idle
again, and the driver returns what its own transfer came to. -/
theorem runTransfer_spec (m : Machine) (intStatus : BitVec 32) (descBus : BitVec 64)
    (nents pos : Nat) (dir : DmaDataDirection) (xor : BitVec 32) (wait : Wait) (hi : Idle m.ps)
    (ha : Aligned descBus) :
    let r := runTransfer m intStatus descBus nents pos dir xor wait
    let started := lddPcieStart (launched m descBus nents pos dir xor)
    Finished m started r ∧ r.launch = withProgram m descBus nents pos dir xor ∧
      r.code = started.ps.regs.result ∧ r.ret = runRet wait r.code := by
  cases wait with
  | completed => exact runTransfer_completed m intStatus descBus nents pos dir xor hi ha
  | timedOut => exact runTransfer_timedOut m intStatus descBus nents pos dir xor hi ha

end LinuxDeviceDriver.Drivers.DmaHost
