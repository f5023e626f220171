/- source: tools/qemu/hw/ldd/pcie.c, lines 114 to 149, 243 to 409 and 531 to 534
   digest: Register accesses, interrupts, reset and completion of the device. -/

import LinuxDeviceDriver.Qemu.Pcie.TransferOutcome

set_option autoImplicit false

namespace LinuxDeviceDriver.Qemu.Pcie.Registers

open State Transfer TransferOutcome

def pciIrqDeassert (pdev : PciDevice) : PciDevice := { pdev with intx := false }

def pciSetIrq (pdev : PciDevice) (level : Bool) : PciDevice := { pdev with intx := level }

def msixNotify (pdev : PciDevice) (vector : Nat) : PciDevice :=
  { pdev with sent := vector :: pdev.sent }

def msiNotify (pdev : PciDevice) (vector : Nat) : PciDevice :=
  { pdev with sent := vector :: pdev.sent }

/-- What INT_STATUS & INT_MASK holds. -/
def pending (ps : LDDPCIEState) : BitVec 32 := ps.regs.intStatus &&& ps.regs.intMask

def lddPcieUpdateIrq (ps : LDDPCIEState) : LDDPCIEState :=
  let new := pending ps &&& ~~~ps.regs.irqSent
  let pdev :=
    if ps.pdev.msixEnabled = true then
      (List.range lddMsixVectors).foldl
        (fun pdev i => if anySet new (bit i) = true then msixNotify pdev i else pdev)
        (pciIrqDeassert ps.pdev)
    else if ps.pdev.msiEnabled = true then
      if new ≠ 0 then msiNotify (pciIrqDeassert ps.pdev) 0 else pciIrqDeassert ps.pdev
    else pciSetIrq ps.pdev (pending ps != 0)
  { ps with pdev := pdev, regs := { ps.regs with irqSent := pending ps } }

def lddPcieReset (ps : LDDPCIEState) : LDDPCIEState :=
  { ps with timer := false, regs := {}, pdev := pciIrqDeassert ps.pdev }

/-- The registers as ldd_pcie_start sets them before it runs the transfer. -/
def startRegs (m : Machine) : Machine :=
  { m with ps := { m.ps with regs :=
    { m.ps.regs with status := lddStatusBusy, xferBytes := 0, errDesc := 0 } } }

/-- The data is moved now; arming the timer only delays the completion. -/
def lddPcieStart (m : Machine) : Machine :=
  let r := lddPcieTransfer (startRegs m)
  { r.2 with ps := { r.2.ps with regs := { r.2.ps.regs with result := r.1 }, timer := true } }

/-- STATUS and INT_STATUS as a completion with the stored result sets them. -/
def completeRegs (regs : Regs) : Regs :=
  if regs.result ≠ 0 then
    { regs with
      status := lddStatusError ||| regs.result <<< lddStatusErrCodeShift
      intStatus := regs.intStatus ||| lddIntDmaError }
  else
    { regs with
      status := lddStatusDone
      intStatus := regs.intStatus ||| lddIntDmaDone }

def lddPcieComplete (ps : LDDPCIEState) : LDDPCIEState :=
  lddPcieUpdateIrq { ps with regs := completeRegs ps.regs }

def extract64 (value : BitVec 64) (start length : Nat) : BitVec 64 :=
  value >>> start &&& BitVec.allOnes 64 >>> (64 - length)

def deposit64 (value : BitVec 64) (start length : Nat) (fieldval : BitVec 64) : BitVec 64 :=
  let mask := BitVec.allOnes 64 >>> (64 - length) <<< start
  value &&& ~~~mask ||| fieldval <<< start &&& mask

def lddPcieBar0Read (ps : LDDPCIEState) (addr : Nat) : BitVec 32 :=
  match regAt addr with
  | some .id => lddId
  | some .version => lddVersion
  | some .caps => if ps.props.dma64 = true then lddCapsDma64 else 0
  | some .scratch => ps.regs.scratch
  | some .ctrl => 0
  | some .intRaise => 0
  | some .status => ps.regs.status
  | some .intStatus => ps.regs.intStatus
  | some .intMask => ps.regs.intMask
  | some .maxSeg => ps.props.maxSeg
  | some .maxDesc => ps.props.maxDesc
  | some .descAddrLo => (extract64 ps.regs.descAddr 0 32).setWidth 32
  | some .descAddrHi => (extract64 ps.regs.descAddr 32 32).setWidth 32
  | some .descCount => ps.regs.descCount
  | some .devOffset => ps.regs.devOffset
  | some .dmaCtrl => ps.regs.dmaCtrl &&& lddDmaCtrlDir
  | some .xferBytes => ps.regs.xferBytes
  | some .errDesc => ps.regs.errDesc
  | some .xor => ps.regs.xor
  | none => 0

def setPs (m : Machine) (ps : LDDPCIEState) : Machine := { m with ps := ps }

def setRegs (m : Machine) (regs : Regs) : Machine := setPs m { m.ps with regs := regs }

/-- Only DIR of a value written to DMA_CTRL is kept. -/
def setDmaDir (m : Machine) (val : BitVec 32) : Machine :=
  setRegs m { m.ps.regs with dmaCtrl := val &&& lddDmaCtrlDir }

/-- STATUS.BUSY. -/
def busy (ps : LDDPCIEState) : Bool := anySet ps.regs.status lddStatusBusy

/-- A 4-byte write to BAR0, the only width the region takes. -/
def lddPcieBar0Write (m : Machine) (addr : Nat) (val : BitVec 32) : Machine :=
  let regs := m.ps.regs
  match regAt addr with
  | some .scratch => setRegs m { regs with scratch := val }
  | some .ctrl => if anySet val lddCtrlReset = true then setPs m (lddPcieReset m.ps) else m
  | some .intStatus =>
    setPs m (lddPcieUpdateIrq { m.ps with regs :=
      { regs with intStatus := regs.intStatus &&& ~~~val } })
  | some .intMask =>
    setPs m (lddPcieUpdateIrq { m.ps with regs := { regs with intMask := val &&& lddIntAll } })
  | some .intRaise =>
    setPs m (lddPcieUpdateIrq { m.ps with regs :=
      { regs with intStatus := regs.intStatus ||| val &&& lddIntAll } })
  | some .descAddrLo =>
    if busy m.ps = true then m
    else
      let low := (val &&& ~~~(lddDescAddrAlign - 1)).setWidth 64
      setRegs m { regs with descAddr := deposit64 regs.descAddr 0 32 low }
  | some .descAddrHi =>
    if busy m.ps = true then m
    else setRegs m { regs with descAddr := deposit64 regs.descAddr 32 32 (val.setWidth 64) }
  | some .descCount => if busy m.ps = true then m else setRegs m { regs with descCount := val }
  | some .devOffset => if busy m.ps = true then m else setRegs m { regs with devOffset := val }
  | some .dmaCtrl =>
    if busy m.ps = true then m
    else if anySet val lddDmaCtrlStart = true then lddPcieStart (setDmaDir m val)
    else setDmaDir m val
  | some .xor => setRegs m { regs with xor := val &&& 0xff }
  -- read-only registers and reserved offsets
  | some .id | some .version | some .caps | some .status | some .maxSeg | some .maxDesc
  | some .xferBytes | some .errDesc | none => m

/-- Starting a transfer sets BUSY, its two report registers and its result, and
leaves the rest of the registers alone. -/
theorem start_regs (m : Machine) : (lddPcieStart m).ps.regs = { m.ps.regs with
    status := lddStatusBusy
    errDesc := (lddPcieStart m).ps.regs.errDesc
    xferBytes := (lddPcieStart m).ps.regs.xferBytes
    result := (lddPcieTransfer (startRegs m)).1 } :=
  congrArg (fun r : Regs => { r with result := (lddPcieTransfer (startRegs m)).1 })
    (transfer_outcome (startRegs m)).onlyMoves.regs

theorem start_pdev (m : Machine) : (lddPcieStart m).ps.pdev = m.ps.pdev :=
  (transfer_outcome (startRegs m)).onlyMoves.pdev

theorem start_props (m : Machine) : (lddPcieStart m).ps.props = m.ps.props :=
  (transfer_outcome (startRegs m)).onlyMoves.props


/-- What can happen to the device: a register write, the timer, a PCI reset
(function level or bus reset), or a change of guest memory and of the way the
bus answers. -/
inductive DevEvent
  | write (addr : Nat) (val : BitVec 32)
  | expire
  | pciReset
  | env (bus : DmaBus) (guest : Memory)

/-- The callback of the timer, which is no longer armed when it runs. -/
def timerExpire (ps : LDDPCIEState) : LDDPCIEState :=
  if ps.timer = true then lddPcieComplete { ps with timer := false } else ps

def devStep (m : Machine) : DevEvent → Machine
  | .write addr val => lddPcieBar0Write m addr val
  | .expire => setPs m (timerExpire m.ps)
  | .pciReset => setPs m (lddPcieReset m.ps)
  | .env bus guest => { m with bus := bus, guest := guest }

def devRun (m : Machine) (es : List DevEvent) : Machine := es.foldl devStep m

@[simp] theorem devRun_cons (m : Machine) (e : DevEvent) (es : List DevEvent) :
    devRun m (e :: es) = devRun (devStep m e) es := rfl

/-- The device after power on: nothing pending, nothing armed, any contents of
the memories, any properties realize accepts and any interrupt mode. -/
def powerOn (command : BitVec 16) (msix msi : Bool) (ram : Nat → LinuxDeviceDriver.Lib.LittleEndian.Byte) (props : Realized)
    (bus : DmaBus) (guest : Memory) : Machine :=
  { ps := { pdev := { command := command, msixEnabled := msix, msiEnabled := msi }
            bar2 := { ram := ram }
            timer := false
            props := props
            regs := {} }
    bus := bus
    guest := guest
    trace := [] }

end LinuxDeviceDriver.Qemu.Pcie.Registers
