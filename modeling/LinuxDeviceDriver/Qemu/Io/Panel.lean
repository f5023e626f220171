/- source: tools/qemu/hw/ldd/io.c, lines 39 to 291 and 326 to 419
   digest: The status panel of the ldd-io device: what a frame shows, how frames are sent to a
     viewer that takes them piece by piece, and when they are drawn. -/

import LinuxDeviceDriver.Lib.Frames
import LinuxDeviceDriver.Qemu.Io.Device

set_option autoImplicit false

namespace LinuxDeviceDriver.Qemu.Io.Panel

open Lib.Bits (isSet)
open Lib.LittleEndian (Byte)
open Lib.Transition (Steps)
open Device hiding writeStatus writeCtrl

/-! ## The text -/

def text (s : String) : List Byte := s.toUTF8.data.toList.map UInt8.toBitVec

def number (radix n : Nat) : List Byte :=
  (Nat.toDigits radix n).map fun c => BitVec.ofNat 8 c.toNat

/-- A byte as 0x and two digits. -/
def hexByte (v : Byte) : List Byte :=
  text "0x" ++ (if v.toNat < 16 then text "0" else []) ++ number 16 v.toNat

def spaces (n : Nat) : List Byte := List.replicate n 0x20

def lddIoLedOn : List Byte := text "\x1b[1;32m●\x1b[0m"
def lddIoLedOff : List Byte := text "\x1b[90m○\x1b[0m"

def lddIoBit (on : Bool) : List Byte := if on then lddIoLedOn else lddIoLedOff

def lddIoAppendLeds (line : List Byte) (v : Byte) : List Byte :=
  line ++ (List.range 8).reverse.flatMap fun i =>
    lddIoBit (v.getLsbD i) ++ if i = 0 then [] else text " "

/-- One line: the label in 11 columns, the content in 17, then the hex value. -/
def lddIoAppendRow (panel : List Byte) (label : String) (content : List Byte) (width : Int)
    (hex : List Byte) : List Byte :=
  panel ++ text " " ++ text label ++ spaces (11 - (text label).length) ++ content ++
    spaces (17 - width).natAbs ++ hex ++ text "\x1b[K\r\n"

/-- The properties that are shown. -/
structure Properties where
  iobase : BitVec 32 := 0x200
  mmio : Bool := false
  mmiobase : BitVec 64 := 0xff000000
  isairq : BitVec 32 := 5

def rule : List Byte := text " ────────────────────────────────\x1b[K\r\n"

def gAsciiIsprint (c : Byte) : Bool := 0x20 ≤ c.toNat && c.toNat ≤ 0x7e

/-- The byte in the receive buffer, if there is one. -/
def dataInRow (panel : List Byte) (s : LDDIOState) : List Byte :=
  if s.rxReady then
    lddIoAppendRow panel "DATA in"
      (text "'" ++ [if gAsciiIsprint s.dataIn then s.dataIn else 0x2e] ++ text "'") 3
      (hexByte s.dataIn)
  else lddIoAppendRow panel "DATA in" (text "-") 1 []

def pulsesContent (s : LDDIOState) : List Byte := text "pulses " ++ number 10 s.irqPulses.toNat

def matrixRow (panel : List Byte) (s : LDDIOState) (row : Nat) : List Byte :=
  lddIoAppendRow panel (if row = 0 then "MATRIX" else "")
    (lddIoAppendLeds [] (s.matrix.getD row 0)) 15 (hexByte (s.matrix.getD row 0))

/-- One frame of the panel, drawn from the top left corner. -/
def lddIoBuildPanel (props : Properties) (s : LDDIOState) (panel : List Byte) : List Byte :=
  let panel := panel ++ text "\x1b[H"
  let panel := panel ++
    if props.mmio then
      text " ldd-io  mmio 0x" ++ number 16 props.mmiobase.toNat ++ text "  irq " ++
        number 10 props.isairq.toNat
    else
      text " ldd-io  port 0x" ++ number 16 props.iobase.toNat ++ text "  irq " ++
        number 10 props.isairq.toNat
  let panel := panel ++ text "\x1b[K\r\n" ++ rule
  let panel := lddIoAppendRow panel "DATA out" (lddIoAppendLeds [] s.dataOut) 15 (hexByte s.dataOut)
  let panel := dataInRow panel s
  let panel := lddIoAppendRow panel "STATUS" (text "RX_READY " ++ lddIoBit s.rxReady) 10
    (hexByte s.status)
  let panel := lddIoAppendRow panel "CTRL"
    (text "IRQ_EN " ++ lddIoBit s.irqEn ++ text " LOOP " ++ lddIoBit s.loopback) 15 (hexByte s.ctrl)
  let panel := lddIoAppendRow panel "IRQ" (pulsesContent s) (pulsesContent s).length []
  let panel := panel ++ rule
  (List.range lddIoMatrixRows).foldl (fun panel row => matrixRow panel s row) panel

def clearScreen : List Byte := text "\x1b[2J\x1b[?25l"

/-! ## The viewer -/

/-- What qemu_chr_fe_write returns: so many bytes are taken, at most all of them, or EAGAIN, or
another error. -/
inductive Written
  | takes (n : Nat)
  | again
  | fails
  deriving DecidableEq, Repr

/-- With the answer to a write, whether qemu_chr_fe_add_watch succeeds if it is called then. -/
structure Answer where
  written : Written
  watch : Bool
  deriving DecidableEq, Repr

/-- The device with its panel. Then, for the record: how the chardev will answer, in a step, which
bytes it has taken since it was opened, and which states the device has had since then. -/
structure PanelState where
  io : LDDIOState := {}
  connected : Bool := true
  panelOut : List Byte := []
  panelWatch : Bool := false
  panelDirty : Bool := false
  answers : List Answer := []
  taken : List Byte := []
  hist : List LDDIOState := []

namespace PanelState

def change (p : PanelState) (io : LDDIOState) : PanelState :=
  { p with io, hist := p.hist ++ [io] }

def build (props : Properties) (p : PanelState) : PanelState :=
  { p with panelOut := lddIoBuildPanel props p.io p.panelOut }

/-- The viewer takes nothing now: it is watched, or the frame is dropped. -/
def wait (p : PanelState) (watch : Bool) : PanelState :=
  if p.panelWatch || watch then { p with panelWatch := true } else { p with panelOut := [] }

def take (p : PanelState) (n : Nat) : PanelState :=
  { p with taken := p.taken ++ p.panelOut.take n, panelOut := p.panelOut.drop n }

/-- Frames that were not drawn meanwhile collapse into one. -/
def redraw (props : Properties) (p : PanelState) : PanelState :=
  if p.panelOut = [] ∧ p.panelDirty = true then { p with panelDirty := false }.build props else p

/-- The loop of ldd_io_panel_flush, with the answers that are left. Where there are none, the answer
is EAGAIN. -/
def flush (props : Properties) : List Answer → PanelState → PanelState
  | [], p => if p.panelOut = [] then p else p.wait true
  | answer :: answers, p =>
    if p.panelOut = [] then { p with answers := answer :: answers }
    else
      match answer.written with
      | .fails => { p with panelOut := [], answers }
      | .again => { p with answers }.wait answer.watch
      | .takes n =>
        if n = 0 then { p with answers }.wait answer.watch
        else flush props answers (({ p with answers }.take n).redraw props)

end PanelState

variable (props : Properties)

def lddIoPanelFlush (p : PanelState) : PanelState := p.flush props p.answers

def lddIoPanelWritable (p : PanelState) : PanelState :=
  lddIoPanelFlush props { p with panelWatch := false }

def lddIoDrawPanel (p : PanelState) : PanelState :=
  if p.connected = false then p
  else if p.panelOut ≠ [] then { p with panelDirty := true }
  else lddIoPanelFlush props (p.build props)

def lddIoPanelDrop (p : PanelState) : PanelState :=
  { p with panelWatch := false, panelOut := [], panelDirty := false }

/-- CHR_EVENT_OPENED. The record begins here. -/
def lddIoPanelOpened (p : PanelState) : PanelState :=
  let p := { lddIoPanelDrop p with taken := [], hist := [p.io] }
  let p := { p with panelOut := p.panelOut ++ clearScreen }
  lddIoPanelFlush props (p.build props)

/-! ## When the panel is drawn -/

def keyboardReceive (p : PanelState) (byte : Byte) : PanelState :=
  lddIoDrawPanel props (p.change (lddIoKeyboardReceive p.io byte))

def acceptInput (p : PanelState) : List Byte → PanelState
  | [] => p
  | byte :: rest =>
    if lddIoKeyboardCanReceive p.io = 1 then acceptInput (keyboardReceive props p byte) rest
    else p

def writeStatus (p : PanelState) (byte : Byte) (host : List Byte) : PanelState :=
  let s := logReserved p.io byte (~~~lddIoStatusRxReady) (.statusBits byte)
  if isSet byte lddIoStatusRxReady && s.rxReady then
    acceptInput props (p.change (s.setStatus (s.status &&& ~~~lddIoStatusRxReady))) host
  else p.change s

def writeCtrl (p : PanelState) (byte : Byte) (host : List Byte) : PanelState :=
  let old := logReserved p.io byte (~~~lddIoCtrlMask) (.ctrlBits byte)
  let s := assignCtrl old byte
  if old.loopback && !s.loopback then acceptInput props (p.change s) host else p.change s

def write (p : PanelState) (addr : Nat) (data : BitVec 64) (size : Nat) (host : List Byte) :
    PanelState :=
  let byte := data.setWidth 8
  if addr ≥ lddIoMatrix then
    lddIoDrawPanel props
      (p.change { p.io with matrix := writeMatrix p.io.matrix addr data size })
  else if addr = lddIoData then lddIoDrawPanel props (p.change (writeData p.io byte))
  else if addr = lddIoStatus then lddIoDrawPanel props (writeStatus props p byte host)
  else if addr = lddIoCtrl then lddIoDrawPanel props (writeCtrl props p byte host)
  -- a reserved offset is only logged
  else p.change (p.io.emit (.guestError (.offset byte addr)))

/-- Both phases: nothing else of the device runs between them. -/
def reset (p : PanelState) (host : List Byte) : PanelState :=
  lddIoDrawPanel props (acceptInput props (p.change (lddIoResetEnter p.io)) host)

inductive PanelEvent
  | opened
  | closed
  | writable
  | read (addr size : Nat)
  | write (addr : Nat) (data : BitVec 64) (size : Nat) (host : List Byte)
  | receive (byte : Byte)
  | reset (host : List Byte)
  deriving DecidableEq, Repr

/-- It may happen between CHR_EVENT_OPENED and CHR_EVENT_CLOSED. -/
def PanelEvent.inside : PanelEvent → Bool
  | .opened | .closed => false
  | _ => true

/-- One event, and how the chardev answers to the writes that are made in it. -/
def panelStep (p : PanelState) (e : List Answer × PanelEvent) : Option PanelState :=
  let p := { p with answers := e.1 }
  match e.2 with
  | .opened => some (lddIoPanelOpened props p)
  | .closed => some (lddIoPanelDrop p)
  | .writable => if p.panelWatch then some (lddIoPanelWritable props p) else none
  | .read _ _ => some p
  | .write addr data size host =>
    some (if lddIoOps addr size then write props p addr data size host else p)
  | .receive byte =>
    if lddIoKeyboardCanReceive p.io = 1 then some (keyboardReceive props p byte) else none
  | .reset host => some (reset props p host)

/-! ## The device under the panel -/

section Registers

variable {props} {p : PanelState}

theorem wait_io (watch : Bool) : (p.wait watch).io = p.io := by
  unfold PanelState.wait
  split <;> rfl

-- the frame is not looked at: it is a long text
theorem build_io : (p.build props).io = p.io := by
  dsimp only [PanelState.build]

theorem redraw_io : (p.redraw props).io = p.io := by
  unfold PanelState.redraw
  split
  · rw [build_io]
  · rfl

theorem flush_io (answers : List Answer) : (p.flush props answers).io = p.io := by
  induction answers generalizing p with
  | nil =>
    unfold PanelState.flush
    split
    · rfl
    · exact wait_io true
  | cons answer answers ih =>
    unfold PanelState.flush
    split
    · rfl
    · split
      · rfl
      · exact wait_io answer.watch
      · split
        · exact wait_io answer.watch
        · exact ih.trans redraw_io

theorem drawPanel_io : (lddIoDrawPanel props p).io = p.io := by
  unfold lddIoDrawPanel
  split
  · rfl
  · split
    · rfl
    · rw [lddIoPanelFlush, flush_io, build_io]

theorem acceptInput_io (host : List Byte) :
    (acceptInput props p host).io = qemuChrFeAcceptInput p.io host := by
  induction host generalizing p with
  | nil => rfl
  | cons byte rest ih =>
    unfold acceptInput qemuChrFeAcceptInput
    split
    · rw [ih, keyboardReceive, drawPanel_io]
      rfl
    · rfl

theorem writeStatus_io (byte : Byte) (host : List Byte) :
    (writeStatus props p byte host).io = Device.writeStatus p.io byte host := by
  unfold writeStatus Device.writeStatus
  dsimp only
  split
  · exact acceptInput_io host
  · rfl

theorem writeCtrl_io (byte : Byte) (host : List Byte) :
    (writeCtrl props p byte host).io = Device.writeCtrl p.io byte host := by
  unfold writeCtrl Device.writeCtrl
  dsimp only
  split
  · exact acceptInput_io host
  · rfl

theorem write_io (addr : Nat) (data : BitVec 64) (size : Nat) (host : List Byte) :
    (write props p addr data size host).io = lddIoWrite p.io addr data size host := by
  unfold write lddIoWrite
  dsimp only
  split
  · exact drawPanel_io
  · split
    · exact drawPanel_io
    · split
      · exact drawPanel_io.trans (writeStatus_io _ host)
      · split
        · exact drawPanel_io.trans (writeCtrl_io _ host)
        · rfl

/-- What an event is to the device. -/
def PanelEvent.device : PanelEvent → List IoEvent
  | .opened | .closed | .writable => []
  | .read addr size => [.read addr size]
  | .write addr data size host => [.write addr data size host]
  | .receive byte => [.receive byte]
  | .reset host => [.resetEnter, .resetExit host]

theorem panelStep_device {q : PanelState} {e : List Answer × PanelEvent}
    (h : panelStep props p e = some q) :
    Steps (fun s e s' => ioStep s e = some s') p.io e.2.device q.io := by
  obtain ⟨answers, e⟩ := e
  cases e with
  | opened =>
    obtain rfl := Option.some.inj h
    rw [lddIoPanelOpened, lddIoPanelFlush, flush_io, build_io]
    exact .nil p.io
  | closed =>
    obtain rfl := Option.some.inj h
    exact .nil p.io
  | writable =>
    obtain ⟨-, heq⟩ := Option.ite_none_right_eq_some.mp h
    obtain rfl := Option.some.inj heq
    rw [lddIoPanelWritable, lddIoPanelFlush, flush_io]
    exact .nil p.io
  | read addr size =>
    obtain rfl := Option.some.inj h
    exact .cons rfl (.nil p.io)
  | write addr data size host =>
    obtain rfl := Option.some.inj h
    refine .cons (congrArg some ?_) (.nil _)
    split
    · rw [write_io]
    · rfl
  | receive byte =>
    obtain ⟨hroom, heq⟩ := Option.ite_none_right_eq_some.mp h
    obtain rfl := Option.some.inj heq
    refine .cons ?_ (.nil _)
    rw [keyboardReceive, drawPanel_io]
    exact if_pos hroom
  | reset host =>
    obtain rfl := Option.some.inj h
    refine .cons rfl (.cons ?_ (.nil _))
    rw [reset, drawPanel_io, acceptInput_io]
    rfl

/-- Every run of the device with a panel is a run of the device: a viewer, however slow, takes no
part in it. -/
theorem panel_run_device {q : PanelState} {es : List (List Answer × PanelEvent)}
    (h : Steps (fun p e q => panelStep props p e = some q) p es q) :
    Steps (fun s e s' => ioStep s e = some s') p.io (es.flatMap fun e => e.2.device) q.io :=
  h.simulation_runs PanelState.io (fun e => e.2.device) fun _ _ _ hstep => panelStep_device hstep

theorem panel_run_device_write :
    ∃ q, Steps (fun p e q => panelStep {} p e = some q) {} [([], .write lddIoData 1 1 [])] q ∧
      Steps (fun s e s' => ioStep s e = some s') {} [.write lddIoData 1 1 []] q.io :=
  have h := .cons rfl (.nil _)
  ⟨_, h, panel_run_device h⟩

end Registers

/-! ## What every change and every draw keeps -/

structure Kept (props : Properties) (P : PanelState → Prop) : Prop where
  change : ∀ p io, P p → P (p.change io)
  draw : ∀ p, P p → P (lddIoDrawPanel props p)

namespace Kept

variable {props} {P : PanelState → Prop} {p : PanelState}

theorem acceptInput (k : Kept props P) (h : P p) (host : List Byte) :
    P (acceptInput props p host) := by
  induction host generalizing p with
  | nil => exact h
  | cons byte rest ih =>
    unfold Panel.acceptInput
    split
    · exact ih (k.draw _ (k.change p _ h))
    · exact h

theorem writeStatus (k : Kept props P) (h : P p) (byte : Byte) (host : List Byte) :
    P (writeStatus props p byte host) := by
  unfold Panel.writeStatus
  dsimp only
  split
  · exact k.acceptInput (k.change p _ h) host
  · exact k.change p _ h

theorem writeCtrl (k : Kept props P) (h : P p) (byte : Byte) (host : List Byte) :
    P (writeCtrl props p byte host) := by
  unfold Panel.writeCtrl
  dsimp only
  split
  · exact k.acceptInput (k.change p _ h) host
  · exact k.change p _ h

theorem write (k : Kept props P) (h : P p) (addr : Nat) (data : BitVec 64) (size : Nat)
    (host : List Byte) : P (write props p addr data size host) := by
  unfold Panel.write
  dsimp only
  split
  · exact k.draw _ (k.change p _ h)
  · split
    · exact k.draw _ (k.change p _ h)
    · split
      · exact k.draw _ (k.writeStatus h _ host)
      · split
        · exact k.draw _ (k.writeCtrl h _ host)
        · exact k.change p _ h

theorem reset (k : Kept props P) (h : P p) (host : List Byte) : P (reset props p host) :=
  k.draw _ (k.acceptInput (k.change p _ h) host)

end Kept

end LinuxDeviceDriver.Qemu.Io.Panel
