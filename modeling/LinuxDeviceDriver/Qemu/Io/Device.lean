/- source: tools/qemu/hw/ldd/io.c, lines 20 to 67, 234 to 271, 293 to 399 and 401 to 419
   digest: The ldd-io device: its registers, the receive path, guest accesses and reset,
     with the order in which it does what can be seen from outside. -/

import LinuxDeviceDriver.Lib.Bits
import LinuxDeviceDriver.Lib.LittleEndian
import LinuxDeviceDriver.Lib.Transition

set_option autoImplicit false

namespace LinuxDeviceDriver.Qemu.Io.Device

open Lib.Bits (isSet)
open Lib.LittleEndian (Byte)
open Lib.Transition (Steps)

def lddIoData : Nat := 0
def lddIoStatus : Nat := 1
def lddIoCtrl : Nat := 2
def lddIoMatrix : Nat := 8
def lddIoMatrixRows : Nat := 8
def lddIoSize : Nat := 16

def lddIoStatusRxReady : Byte := 1#8 <<< 0

def lddIoCtrlIrqEn : Byte := 1#8 <<< 0
def lddIoCtrlLoopback : Byte := 1#8 <<< 1
def lddIoCtrlMask : Byte := lddIoCtrlIrqEn ||| lddIoCtrlLoopback

/-- Where a byte of the receive buffer came from. -/
inductive Origin
  | keyboard
  | data
  deriving DecidableEq, Repr

/-- What the device logs of a guest that touches reserved bits or offsets. -/
inductive GuestError
  | statusBits (byte : Byte)
  | ctrlBits (byte : Byte)
  | offset (byte : Byte) (addr : Nat)
  deriving DecidableEq, Repr

/-- What the device does, one entry for each assignment to STATUS or CTRL, each byte stored
in the receive buffer, each pulse of the interrupt line, each logged error and each reset. -/
inductive Effect
  | status (v : Byte)
  | ctrl (v : Byte)
  | enter (origin : Origin) (byte : Byte)
  | pulse
  | guestError (e : GuestError)
  | reset
  deriving DecidableEq, Repr

/-- The device, and what it has done so far, latest first. -/
structure LDDIOState where
  dataOut : Byte := 0
  dataIn : Byte := 0
  status : Byte := 0
  ctrl : Byte := 0
  matrix : Vector Byte lddIoMatrixRows := Vector.replicate lddIoMatrixRows 0
  irqPulses : BitVec 32 := 0
  trace : List Effect := []
  deriving DecidableEq

namespace LDDIOState

def emit (s : LDDIOState) (e : Effect) : LDDIOState := { s with trace := e :: s.trace }

def setStatus (s : LDDIOState) (v : Byte) : LDDIOState :=
  { s with status := v, trace := .status v :: s.trace }

def setCtrl (s : LDDIOState) (v : Byte) : LDDIOState :=
  { s with ctrl := v, trace := .ctrl v :: s.trace }

/-- STATUS.RX_READY: the receive buffer holds a byte. -/
def rxReady (s : LDDIOState) : Bool := isSet s.status lddIoStatusRxReady

def irqEn (s : LDDIOState) : Bool := isSet s.ctrl lddIoCtrlIrqEn

def loopback (s : LDDIOState) : Bool := isSet s.ctrl lddIoCtrlLoopback

end LDDIOState

def lddIoPulse (s : LDDIOState) : LDDIOState :=
  { s with irqPulses := s.irqPulses + 1, trace := .pulse :: s.trace }

def storeByte (s : LDDIOState) (origin : Origin) (byte : Byte) : LDDIOState :=
  let s := ({ s with dataIn := byte } : LDDIOState).emit (.enter origin byte)
  s.setStatus (s.status ||| lddIoStatusRxReady)

/-- A byte enters the receive buffer: rule 1 of the interrupt. -/
def lddIoReceiveByte (s : LDDIOState) (origin : Origin) (byte : Byte) : LDDIOState :=
  let s := storeByte s origin byte
  if s.irqEn then lddIoPulse s else s

/-- How many bytes the keyboard may deliver. -/
def lddIoKeyboardCanReceive (s : LDDIOState) : Nat :=
  if s.rxReady then 0 else if s.loopback then 0 else 1

def lddIoKeyboardReceive (s : LDDIOState) (byte : Byte) : LDDIOState :=
  lddIoReceiveByte s .keyboard byte

/-- The backend is told that input may be accepted again. It may deliver what it holds back
at once, byte by byte, as long as it is told that there is room. -/
def qemuChrFeAcceptInput (s : LDDIOState) : List Byte → LDDIOState
  | [] => s
  | byte :: rest =>
    if lddIoKeyboardCanReceive s = 1 then
      qemuChrFeAcceptInput (lddIoKeyboardReceive s byte) rest
    else s

def lddIoAccepts (addr size : Nat) : Bool :=
  if addr ≥ lddIoMatrix then addr &&& (size - 1) == 0 else size == 1

def lddIoRead (s : LDDIOState) (addr size : Nat) : BitVec 64 :=
  if addr ≥ lddIoMatrix then
    -- from the last byte of the access down to the first
    (List.range size).foldr
      (fun i v => (v <<< 8) ||| (s.matrix.getD (addr - lddIoMatrix + i) 0).setWidth 64) 0
  else if addr = lddIoData then s.dataIn.setWidth 64
  else if addr = lddIoStatus then s.status.setWidth 64
  else if addr = lddIoCtrl then s.ctrl.setWidth 64
  else 0

/-- The rows that a write to MATRIX leaves. -/
def writeMatrix (matrix : Vector Byte lddIoMatrixRows) (addr : Nat) (data : BitVec 64)
    (size : Nat) : Vector Byte lddIoMatrixRows :=
  (List.range size).foldl
    (fun m i => m.setIfInBounds (addr - lddIoMatrix + i) ((data >>> (8 * i)).setWidth 8)) matrix

/-- What is logged if a write sets reserved bits. -/
def logReserved (s : LDDIOState) (byte reserved : Byte) (e : GuestError) : LDDIOState :=
  if isSet byte reserved then s.emit (.guestError e) else s

/-- A write to DATA sets the LEDs; with LOOPBACK it is also received, unless the buffer is
full. -/
def writeData (s : LDDIOState) (byte : Byte) : LDDIOState :=
  let s := { s with dataOut := byte }
  if s.loopback && !s.rxReady then lddIoReceiveByte s .data byte else s

/-- A write to STATUS clears RX_READY by writing 1. -/
def writeStatus (s : LDDIOState) (byte : Byte) (host : List Byte) : LDDIOState :=
  let s := logReserved s byte (~~~lddIoStatusRxReady) (.statusBits byte)
  if isSet byte lddIoStatusRxReady && s.rxReady then
    qemuChrFeAcceptInput (s.setStatus (s.status &&& ~~~lddIoStatusRxReady)) host
  else s

/-- CTRL takes the bits that exist: rule 2 of the interrupt. -/
def assignCtrl (old : LDDIOState) (byte : Byte) : LDDIOState :=
  let s := old.setCtrl (byte &&& lddIoCtrlMask)
  if !old.irqEn && s.irqEn && s.rxReady then lddIoPulse s else s

def writeCtrl (s : LDDIOState) (byte : Byte) (host : List Byte) : LDDIOState :=
  let old := logReserved s byte (~~~lddIoCtrlMask) (.ctrlBits byte)
  let s := assignCtrl old byte
  -- input held back during loopback can come in now
  if old.loopback && !s.loopback then qemuChrFeAcceptInput s host else s

/-- A guest write. The bytes are what the keyboard's backend offers if it is told in the
middle of the write to go on. -/
def lddIoWrite (s : LDDIOState) (addr : Nat) (data : BitVec 64) (size : Nat)
    (host : List Byte) : LDDIOState :=
  let byte := data.setWidth 8
  if addr ≥ lddIoMatrix then { s with matrix := writeMatrix s.matrix addr data size }
  else if addr = lddIoData then writeData s byte
  else if addr = lddIoStatus then writeStatus s byte host
  else if addr = lddIoCtrl then writeCtrl s byte host
  else s.emit (.guestError (.offset byte addr))

def lddIoResetEnter (s : LDDIOState) : LDDIOState :=
  let s := { s with dataOut := 0, dataIn := 0 }
  let s := (s.setStatus 0).setCtrl 0
  { s with matrix := Vector.replicate lddIoMatrixRows 0, irqPulses := 0 }.emit .reset

def lddIoResetExit (s : LDDIOState) (host : List Byte) : LDDIOState :=
  qemuChrFeAcceptInput s host

/-! ## Runs -/

/-- The accesses that the memory core hands on to the device: of a size that exists, inside
the region and accepted. -/
def lddIoOps (addr size : Nat) : Bool :=
  [1, 2, 4, 8].contains size && addr + size ≤ lddIoSize && lddIoAccepts addr size

inductive IoEvent
  | read (addr size : Nat)
  | write (addr : Nat) (data : BitVec 64) (size : Nat) (host : List Byte)
  | receive (byte : Byte)
  | resetEnter
  | resetExit (host : List Byte)
  deriving DecidableEq, Repr

/-- One event. The keyboard delivers a byte only where it is told that there is room. -/
def ioStep (s : LDDIOState) : IoEvent → Option LDDIOState
  | .read _ _ => some s
  | .write addr data size host =>
    some (if lddIoOps addr size then lddIoWrite s addr data size host else s)
  | .receive byte =>
    if lddIoKeyboardCanReceive s = 1 then some (lddIoKeyboardReceive s byte) else none
  | .resetEnter => some (lddIoResetEnter s)
  | .resetExit host => some (lddIoResetExit s host)

/-! ## What the functions do to the registers -/

section Registers

variable {s : LDDIOState} {origin : Origin} {byte : Byte} {host : List Byte}

@[simp] theorem isSet_or_rxReady (v : Byte) :
    isSet (v ||| lddIoStatusRxReady) lddIoStatusRxReady = true := by
  rw [Lib.Bits.isSet_or]
  exact Bool.or_true _

@[simp] theorem storeByte_rxReady : (storeByte s origin byte).rxReady = true :=
  isSet_or_rxReady s.status

@[simp] theorem setStatus_acked :
    (s.setStatus (s.status &&& ~~~lddIoStatusRxReady)).rxReady = false :=
  Lib.Bits.isSet_and_not

@[simp] theorem setStatus_irqEn (v : Byte) : (s.setStatus v).irqEn = s.irqEn := rfl
@[simp] theorem setStatus_loopback (v : Byte) : (s.setStatus v).loopback = s.loopback := rfl
@[simp] theorem pulse_rxReady : (lddIoPulse s).rxReady = s.rxReady := rfl

@[simp] theorem receiveByte_rxReady : (lddIoReceiveByte s origin byte).rxReady = true := by
  unfold lddIoReceiveByte
  dsimp only
  split
  · rw [pulse_rxReady, storeByte_rxReady]
  · rw [storeByte_rxReady]

@[simp] theorem receiveByte_ctrl : (lddIoReceiveByte s origin byte).ctrl = s.ctrl := by
  unfold lddIoReceiveByte
  dsimp only
  split <;> rfl

@[simp] theorem receiveByte_dataIn : (lddIoReceiveByte s origin byte).dataIn = byte := by
  unfold lddIoReceiveByte
  dsimp only
  split <;> rfl

section Log

variable {reserved : Byte} {e : GuestError}

@[simp] theorem logReserved_rxReady : (logReserved s byte reserved e).rxReady = s.rxReady := by
  unfold logReserved
  split <;> rfl

@[simp] theorem logReserved_irqEn : (logReserved s byte reserved e).irqEn = s.irqEn := by
  unfold logReserved
  split <;> rfl

@[simp] theorem logReserved_loopback : (logReserved s byte reserved e).loopback = s.loopback := by
  unfold logReserved
  split <;> rfl

end Log

@[simp] theorem assignCtrl_rxReady : (assignCtrl s byte).rxReady = s.rxReady := by
  unfold assignCtrl
  dsimp only
  split <;> rfl

theorem assignCtrl_ctrl : (assignCtrl s byte).ctrl = byte &&& lddIoCtrlMask := by
  unfold assignCtrl
  dsimp only
  split <;> rfl

@[simp] theorem assignCtrl_irqEn : (assignCtrl s byte).irqEn = isSet byte lddIoCtrlIrqEn := by
  rw [LDDIOState.irqEn, assignCtrl_ctrl]
  exact Lib.Bits.isSet_and_of_mask rfl

@[simp] theorem assignCtrl_loopback :
    (assignCtrl s byte).loopback = isSet byte lddIoCtrlLoopback := by
  rw [LDDIOState.loopback, assignCtrl_ctrl]
  exact Lib.Bits.isSet_and_of_mask rfl

@[simp] theorem resetEnter_rxReady : (lddIoResetEnter s).rxReady = false := Lib.Bits.isSet_zero
@[simp] theorem resetEnter_loopback : (lddIoResetEnter s).loopback = false := Lib.Bits.isSet_zero

theorem canReceive_iff :
    lddIoKeyboardCanReceive s = 1 ↔ s.rxReady = false ∧ s.loopback = false := by
  unfold lddIoKeyboardCanReceive
  cases s.rxReady <;> cases s.loopback <;> decide

/-- There is never room for a second byte: the backend delivers its first one or none. -/
theorem acceptInput_eq :
    qemuChrFeAcceptInput s host =
      match host.head? with
      | some byte =>
        if lddIoKeyboardCanReceive s = 1 then lddIoKeyboardReceive s byte else s
      | none => s := by
  cases host with
  | nil => rfl
  | cons byte rest =>
    simp only [qemuChrFeAcceptInput, List.head?_cons]
    split
    · cases rest with
      | nil => rfl
      | cons =>
        rw [qemuChrFeAcceptInput, if_neg]
        intro hroom
        have hready := (canReceive_iff.mp hroom).1
        rw [lddIoKeyboardReceive, receiveByte_rxReady] at hready
        cases hready
    · rfl

end Registers

/-! ## What a run can do -/

/-- What an assertion about the device has to survive: the assignments it makes, one at a
time. The flag says that a pulse is due. -/
structure Rules (P : Bool → LDDIOState → Prop) : Prop where
  quiet : ∀ {s : LDDIOState} (dataOut : Byte) (matrix : Vector Byte lddIoMatrixRows), P false s →
    P false { s with dataOut := dataOut, matrix := matrix }
  log : ∀ {s : LDDIOState} (e : GuestError), P false s → P false (s.emit (.guestError e))
  store : ∀ {s : LDDIOState} (origin : Origin) (byte : Byte), P false s → s.rxReady = false →
    (s.loopback = true → origin = .data) → P s.irqEn (storeByte s origin byte)
  ack : ∀ {s : LDDIOState}, P false s → s.rxReady = true →
    P false (s.setStatus (s.status &&& ~~~lddIoStatusRxReady))
  ctrl : ∀ {s : LDDIOState} (v : Byte), P false s →
    P (!s.irqEn && isSet v lddIoCtrlIrqEn && s.rxReady) (s.setCtrl v)
  pulse : ∀ {s : LDDIOState}, P true s → P false (lddIoPulse s)
  reset : ∀ {s : LDDIOState}, P false s → P false (lddIoResetEnter s)

namespace Rules

variable {P : Bool → LDDIOState → Prop} {s : LDDIOState} {byte : Byte} {host : List Byte}

theorem pulse_if (hP : Rules P) {due : Bool} (h : P due s) :
    P false (if due then lddIoPulse s else s) := by
  cases due with
  | true => exact hP.pulse h
  | false => exact h

theorem receiveByte (hP : Rules P) (h : P false s) {origin : Origin} (hempty : s.rxReady = false)
    (hloop : s.loopback = true → origin = .data) : P false (lddIoReceiveByte s origin byte) :=
  hP.pulse_if (hP.store origin byte h hempty hloop)

theorem keyboardReceive (hP : Rules P) (h : P false s) (hroom : lddIoKeyboardCanReceive s = 1) :
    P false (lddIoKeyboardReceive s byte) := by
  obtain ⟨hempty, hloop⟩ := canReceive_iff.mp hroom
  refine hP.receiveByte h hempty fun hset => ?_
  rw [hloop] at hset
  cases hset

theorem acceptInput (hP : Rules P) (h : P false s) : P false (qemuChrFeAcceptInput s host) := by
  rw [acceptInput_eq]
  split
  · split
    · next hroom => exact hP.keyboardReceive h hroom
    · exact h
  · exact h

theorem logReserved (hP : Rules P) (h : P false s) (byte reserved : Byte) (e : GuestError) :
    P false (Device.logReserved s byte reserved e) := by
  unfold Device.logReserved
  split
  · exact hP.log e h
  · exact h

theorem writeData (hP : Rules P) (h : P false s) : P false (Device.writeData s byte) := by
  have hleds := hP.quiet byte s.matrix h
  unfold Device.writeData
  dsimp only
  split
  · next hloop =>
    rw [Bool.and_eq_true, Bool.not_eq_true'] at hloop
    exact hP.receiveByte hleds hloop.2 fun _ => rfl
  · exact hleds

theorem writeStatus (hP : Rules P) (h : P false s) : P false (Device.writeStatus s byte host) := by
  have hlog := hP.logReserved h byte (~~~lddIoStatusRxReady) (.statusBits byte)
  unfold Device.writeStatus
  dsimp only
  split
  · next hack => exact hP.acceptInput (hP.ack hlog (Bool.and_eq_true_iff.mp hack).2)
  · exact hlog

theorem writeCtrl (hP : Rules P) (h : P false s) : P false (Device.writeCtrl s byte host) := by
  have hassign : P false (assignCtrl _ byte) :=
    hP.pulse_if (hP.ctrl (byte &&& lddIoCtrlMask)
      (hP.logReserved h byte (~~~lddIoCtrlMask) (.ctrlBits byte)))
  unfold Device.writeCtrl
  dsimp only
  split
  · exact hP.acceptInput hassign
  · exact hassign

theorem write (hP : Rules P) (h : P false s) (addr : Nat) (data : BitVec 64) (size : Nat) :
    P false (lddIoWrite s addr data size host) := by
  unfold lddIoWrite
  dsimp only
  split
  · exact hP.quiet s.dataOut _ h
  · split
    · exact hP.writeData h
    · split
      · exact hP.writeStatus h
      · split
        · exact hP.writeCtrl h
        · exact hP.log _ h

/-- What survives each assignment survives each event, with no pulse due after it. -/
theorem step (hP : Rules P) (h : P false s) {e : IoEvent} {s' : LDDIOState}
    (hs : ioStep s e = some s') : P false s' := by
  cases e with
  | read addr size =>
    obtain rfl := Option.some.inj hs
    exact h
  | write addr data size offered =>
    obtain rfl := Option.some.inj hs
    split
    · exact hP.write h addr data size
    · exact h
  | receive byte =>
    obtain ⟨hroom, hs⟩ := Option.ite_none_right_eq_some.mp hs
    obtain rfl := Option.some.inj hs
    exact hP.keyboardReceive h hroom
  | resetEnter =>
    obtain rfl := Option.some.inj hs
    exact hP.reset h
  | resetExit offered =>
    obtain rfl := Option.some.inj hs
    exact hP.acceptInput h

end Rules

end LinuxDeviceDriver.Qemu.Io.Device
