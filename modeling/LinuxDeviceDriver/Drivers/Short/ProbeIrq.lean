/- source: examples/19_short_irq_probe/main.c, lines 96 to 137; tools/qemu/hw/ldd/io.c, lines 234 to
     261 and 341 to 380
   digest: short_probe_irq on ldd-io: each attempt sends one pulse, between probe_irq_on and
     probe_irq_off, whenever the host's bytes come in. -/

import LinuxDeviceDriver.Drivers.CharFile
import LinuxDeviceDriver.Drivers.Short.Irq

set_option autoImplicit false

namespace LinuxDeviceDriver.Drivers.Short.ProbeIrq

open Lib.Bits (isSet)
open Lib.LittleEndian (Byte)
open Lib.Transition (Steps exec exec_steps)
open Qemu.Io.Device
open CharFile (enodev)
open Irq (assignCtrl_trace outbCtrl_eq receiveByte_trace)
open Registers

/-- What short_probe_irq does next. The value that probe_irq_off returned is kept for the end of
the attempt. -/
inductive Stage
  | inbStatus
  | outbAck
  | probeIrqOn
  | outbCtrl
  | outbData
  | probeIrqOff
  | outbQuiet (found : Int)
  | outbDrop (found : Int)
  | returned (value : Int)
  deriving DecidableEq, Repr

/-- What an attempt to find the line consists of. -/
inductive Mark
  | probeIrqOn
  | pulse
  | probeIrqOff
  deriving DecidableEq, Repr

/-- The device, the loop, what has happened in the attempt that is under way, and of the attempts
that have ended what happened in each and what CTRL was at its end. -/
structure Probe where
  dev : LDDIOState
  stage : Stage := .inbStatus
  tries : Nat := 0
  marks : List Mark := []
  attempts : List (List Mark × Byte) := []
  deriving DecidableEq

/-- The pulses that the device has sent. -/
def pulses (s : LDDIOState) : Nat := s.trace.count .pulse

namespace Probe

/-- The device does something; the pulses that it sends are marked. -/
def devStep (p : Probe) (dev : LDDIOState) : Probe :=
  { p with dev, marks := p.marks ++ List.replicate (pulses dev - pulses p.dev) .pulse }

def outb (p : Probe) (v : Byte) (off : Nat) (host : List Byte) : Probe :=
  p.devStep (iowrite8 p.dev v off host)

def mark (p : Probe) (m : Mark) : Probe := { p with marks := p.marks ++ [m] }

def maxTries : Nat := 5

/-- The end of the loop's body. -/
def next (p : Probe) (found : Int) : Probe :=
  { p with
    attempts := p.attempts ++ [(p.marks, p.dev.ctrl)]
    marks := []
    tries := p.tries + 1
    stage :=
      if found > 0 then .returned found
      else if p.tries + 1 < maxTries then .inbStatus
      else .returned (-enodev) }

end Probe

/-- One register access or call of short_probe_irq. The bytes are what the keyboard's backend
offers if it is told in the middle of the access to go on, and the number is what probe_irq_off
returns. -/
def shortProbeIrq (p : Probe) (host : List Byte) (found : Int) : Option Probe :=
  match p.stage with
  | .inbStatus =>
    some { p with
      stage :=
        if isSet (ioread8 p.dev lddIoStatus) lddIoStatusRxReady then .outbAck else .probeIrqOn }
  | .outbAck => some { p.outb lddIoStatusRxReady lddIoStatus host with stage := .inbStatus }
  | .probeIrqOn => some { p.mark .probeIrqOn with stage := .outbCtrl }
  | .outbCtrl =>
    some { p.outb (lddIoCtrlIrqEn ||| lddIoCtrlLoopback) lddIoCtrl host with stage := .outbData }
  | .outbData => some { p.outb 0 lddIoData host with stage := .probeIrqOff }
  | .probeIrqOff => some { p.mark .probeIrqOff with stage := .outbQuiet found }
  | .outbQuiet found => some { p.outb 0 lddIoCtrl host with stage := .outbDrop found }
  | .outbDrop found => some ((p.outb lddIoStatusRxReady lddIoStatus host).next found)
  | .returned _ => none

inductive ProbeEvent
  | driver (host : List Byte) (found : Int)
  | key (byte : Byte)
  deriving DecidableEq, Repr

/-- One step. The keyboard delivers a byte only where it is told that there is room. -/
def probeStep (p : Probe) : ProbeEvent → Option Probe
  | .driver host found => shortProbeIrq p host found
  | .key byte =>
    if lddIoKeyboardCanReceive p.dev = 1 then some (p.devStep (lddIoKeyboardReceive p.dev byte))
    else none

/-! ## What the accesses do -/

/-- No pulse is sent, and CTRL stays as it is. -/
structure Silent (s s' : LDDIOState) : Prop where
  pulses : pulses s' = pulses s
  ctrl : s'.ctrl = s.ctrl

theorem Silent.trans {s s' s'' : LDDIOState} (h : Silent s s') (h' : Silent s' s'') :
    Silent s s'' :=
  ⟨h'.pulses.trans h.pulses, h'.ctrl.trans h.ctrl⟩

section Accesses

variable {s : LDDIOState} {byte : Byte} {host : List Byte}

theorem irqEn_zero (h : s.ctrl = 0) : s.irqEn = false := by
  rw [LDDIOState.irqEn, h]
  rfl

theorem pulses_receiveByte (origin : Origin) :
    pulses (lddIoReceiveByte s origin byte) = pulses s + if s.irqEn then 1 else 0 := by
  rw [pulses, receiveByte_trace, List.count_append, List.count_append, Nat.add_comm, pulses]
  cases s.irqEn <;> rfl

/-- With CTRL 0, a byte that comes in raises no interrupt. -/
theorem silent_receive (h : s.ctrl = 0) : Silent s (lddIoKeyboardReceive s byte) := by
  refine ⟨?_, receiveByte_ctrl⟩
  rw [lddIoKeyboardReceive, pulses_receiveByte, irqEn_zero h]
  rfl

theorem silent_acceptInput (h : s.ctrl = 0) : Silent s (qemuChrFeAcceptInput s host) := by
  rw [acceptInput_eq]
  split
  · split
    · exact silent_receive h
    · exact ⟨rfl, rfl⟩
  · exact ⟨rfl, rfl⟩

/-- So an acknowledgement raises none either, even if the next byte comes in at once. -/
theorem silent_ack (h : s.ctrl = 0) (host : List Byte) :
    Silent s (iowrite8 s lddIoStatusRxReady lddIoStatus host) := by
  rw [iowrite8_status]
  unfold writeStatus
  have hlog : logReserved s lddIoStatusRxReady (~~~lddIoStatusRxReady)
      (.statusBits lddIoStatusRxReady) = s := rfl
  dsimp only
  rw [hlog]
  split
  · have hcleared : Silent s (s.setStatus (s.status &&& ~~~lddIoStatusRxReady)) :=
      ⟨List.count_cons_of_ne (by simp), rfl⟩
    have haccept : Silent (s.setStatus (s.status &&& ~~~lddIoStatusRxReady))
        (qemuChrFeAcceptInput (s.setStatus (s.status &&& ~~~lddIoStatusRxReady)) host) :=
      silent_acceptInput h
    exact hcleared.trans haccept
  · exact ⟨rfl, rfl⟩

/-- Rule 2: IRQ_EN is set, and a byte that is already there raises the interrupt. -/
theorem enable (h : s.ctrl = 0) (host : List Byte) {s' : LDDIOState}
    (hs : s' = iowrite8 s (lddIoCtrlIrqEn ||| lddIoCtrlLoopback) lddIoCtrl host) :
    pulses s' = pulses s + (if s.rxReady then 1 else 0) ∧ s'.rxReady = s.rxReady ∧
      s'.irqEn = true ∧ s'.loopback = true := by
  have hen : isSet (lddIoCtrlIrqEn ||| lddIoCtrlLoopback) lddIoCtrlIrqEn = true := by decide
  have hloop : isSet (lddIoCtrlIrqEn ||| lddIoCtrlLoopback) lddIoCtrlLoopback = true := by decide
  rw [outbCtrl_eq] at hs
  subst hs
  refine ⟨?_, assignCtrl_rxReady, assignCtrl_irqEn.trans hen, assignCtrl_loopback.trans hloop⟩
  rw [pulses, assignCtrl_trace (irqEn_zero h) _ hen, List.count_append, List.count_append,
    Nat.add_comm, pulses]
  cases s.rxReady <;> rfl

/-- Rule 1: the byte is received through LOOPBACK and raises the interrupt, unless another one is
in the buffer. -/
theorem loopBack (hen : s.irqEn = true) (hloop : s.loopback = true) (host : List Byte)
    {s' : LDDIOState} (hs : s' = iowrite8 s 0 lddIoData host) :
    pulses s' = pulses s + (if s.rxReady then 0 else 1) ∧ s'.rxReady = true := by
  let led : LDDIOState := { s with dataOut := 0 }
  have hen : led.irqEn = true := hen
  have hloop : led.loopback = true := hloop
  have hready : led.rxReady = s.rxReady := rfl
  have hwrite : s' = if led.loopback && !led.rxReady then lddIoReceiveByte led .data 0 else led := by
    rw [hs, iowrite8_data]
    rfl
  rw [hloop, hready, Bool.true_and] at hwrite
  cases hfull : s.rxReady with
  | true =>
    rw [hfull] at hwrite
    subst hwrite
    exact ⟨rfl, hfull⟩
  | false =>
    rw [hfull] at hwrite
    subst hwrite
    refine ⟨?_, receiveByte_rxReady⟩
    show pulses (lddIoReceiveByte led .data 0) = _
    rw [pulses_receiveByte, hen]
    rfl

/-- With a byte in the buffer no other comes in when LOOPBACK is cleared. -/
theorem quiet (h : s.rxReady = true) (host : List Byte) {s' : LDDIOState}
    (hs : s' = iowrite8 s 0 lddIoCtrl host) :
    pulses s' = pulses s ∧ s'.ctrl = 0 := by
  have hlog : logReserved s 0 (~~~lddIoCtrlMask) (.ctrlBits 0) = s := rfl
  have hassign : assignCtrl s 0 = s.setCtrl 0 := by
    have hen : (s.setCtrl (0 &&& lddIoCtrlMask)).irqEn = false := by
      show isSet (0 &&& lddIoCtrlMask) lddIoCtrlIrqEn = false
      decide
    unfold assignCtrl
    dsimp only
    rw [hen, Bool.and_false, Bool.false_and]
    rfl
  have hfull : qemuChrFeAcceptInput (s.setCtrl 0) host = s.setCtrl 0 := by
    have hroom : lddIoKeyboardCanReceive (s.setCtrl 0) ≠ 1 := by
      intro hone
      have hempty : s.rxReady = false := (canReceive_iff.mp hone).1
      rw [h] at hempty
      cases hempty
    rw [acceptInput_eq]
    split
    · rw [if_neg hroom]
    · rfl
  have hafter : s' = s.setCtrl 0 := by
    rw [hs, iowrite8_ctrl]
    unfold writeCtrl
    dsimp only
    rw [hlog, hassign, hfull, ite_self]
  rw [hafter]
  exact ⟨List.count_cons_of_ne (by simp), rfl⟩

end Accesses

/-! ## Every run -/

/-- The marks of one attempt. -/
def attempt : List Mark := [.probeIrqOn, .pulse, .probeIrqOff]

/-- What is true at each place of the loop. -/
def At (dev : LDDIOState) (marks : List Mark) : Stage → Prop
  | .inbStatus | .outbAck | .probeIrqOn | .returned _ => dev.ctrl = 0 ∧ marks = []
  | .outbCtrl => dev.ctrl = 0 ∧ marks = [.probeIrqOn]
  -- a byte that came in after the drain has raised the interrupt already
  | .outbData =>
    (dev.irqEn = true ∧ dev.loopback = true) ∧
      marks = .probeIrqOn :: if dev.rxReady then [.pulse] else []
  | .probeIrqOff => dev.rxReady = true ∧ marks = [.probeIrqOn, .pulse]
  | .outbQuiet _ => dev.rxReady = true ∧ marks = attempt
  | .outbDrop _ => dev.ctrl = 0 ∧ marks = attempt

/-- The attempts that have ended are as they should be. -/
structure Inv (p : Probe) : Prop where
  ended : ∀ a ∈ p.attempts, a = (attempt, 0)
  current : At p.dev p.marks p.stage

namespace Inv

variable {p p' : Probe} {host : List Byte} {found : Int}

theorem marks_devStep {dev : LDDIOState} {n : Nat} (h : pulses dev = pulses p.dev + n) :
    (p.devStep dev).marks = p.marks ++ List.replicate n .pulse := by
  show p.marks ++ List.replicate (pulses dev - pulses p.dev) .pulse = _
  rw [h, Nat.add_sub_cancel_left]

theorem marks_silent {dev : LDDIOState} (h : Silent p.dev dev) : (p.devStep dev).marks = p.marks := by
  rw [marks_devStep (n := 0) h.pulses]
  exact List.append_nil _

theorem ended_next (hended : ∀ a ∈ p.attempts, a = (attempt, 0)) (hctrl : p.dev.ctrl = 0)
    (hmarks : p.marks = attempt) : Inv (p.next found) := by
  constructor
  · intro a ha
    rcases List.mem_append.mp ha with ha | ha
    · exact hended a ha
    · rw [List.mem_singleton.mp ha, hmarks, hctrl]
  · unfold Probe.next
    dsimp only
    split
    · exact ⟨hctrl, rfl⟩
    · split
      · exact ⟨hctrl, rfl⟩
      · exact ⟨hctrl, rfl⟩

theorem driver (h : Inv p) (hs : shortProbeIrq p host found = some p') : Inv p' := by
  have hcurrent := h.current
  unfold shortProbeIrq at hs
  cases hstage : p.stage with
  | inbStatus =>
    rw [hstage] at hcurrent hs
    obtain rfl := Option.some.inj hs
    refine ⟨h.ended, ?_⟩
    dsimp only
    split
    · exact hcurrent
    · exact hcurrent
  | outbAck =>
    rw [hstage] at hcurrent hs
    obtain rfl := Option.some.inj hs
    have hack := silent_ack hcurrent.1 host
    exact ⟨h.ended, hack.ctrl.trans hcurrent.1, (marks_silent hack).trans hcurrent.2⟩
  | probeIrqOn =>
    rw [hstage] at hcurrent hs
    obtain rfl := Option.some.inj hs
    exact ⟨h.ended, hcurrent.1, congrArg (· ++ [Mark.probeIrqOn]) hcurrent.2⟩
  | outbCtrl =>
    rw [hstage] at hcurrent hs
    obtain rfl := Option.some.inj hs
    obtain ⟨hpulses, hready, hen, hloop⟩ := enable hcurrent.1 host rfl
    refine ⟨h.ended, ⟨hen, hloop⟩, ?_⟩
    show (p.devStep _).marks =
      .probeIrqOn :: if (iowrite8 p.dev _ lddIoCtrl host).rxReady then [.pulse] else []
    rw [marks_devStep hpulses, hcurrent.2, hready]
    cases p.dev.rxReady <;> rfl
  | outbData =>
    rw [hstage] at hcurrent hs
    obtain rfl := Option.some.inj hs
    obtain ⟨hpulses, hready⟩ := loopBack hcurrent.1.1 hcurrent.1.2 host rfl
    refine ⟨h.ended, hready, ?_⟩
    show (p.devStep _).marks = _
    rw [marks_devStep hpulses, hcurrent.2]
    cases p.dev.rxReady <;> rfl
  | probeIrqOff =>
    rw [hstage] at hcurrent hs
    obtain rfl := Option.some.inj hs
    exact ⟨h.ended, hcurrent.1, congrArg (· ++ [Mark.probeIrqOff]) hcurrent.2⟩
  | outbQuiet found =>
    rw [hstage] at hcurrent hs
    obtain rfl := Option.some.inj hs
    obtain ⟨hpulses, hctrl⟩ := quiet hcurrent.1 host rfl
    refine ⟨h.ended, hctrl, ?_⟩
    show (p.devStep _).marks = _
    rw [marks_devStep (n := 0) hpulses, hcurrent.2]
    rfl
  | outbDrop found =>
    rw [hstage] at hcurrent hs
    obtain rfl := Option.some.inj hs
    have hack := silent_ack hcurrent.1 host
    have hctrl : (p.outb lddIoStatusRxReady lddIoStatus host).dev.ctrl = 0 :=
      hack.ctrl.trans hcurrent.1
    have hmarks : (p.outb lddIoStatusRxReady lddIoStatus host).marks = attempt :=
      (marks_silent hack).trans hcurrent.2
    exact ended_next h.ended hctrl hmarks
  | returned value =>
    rw [hstage] at hs
    cases hs

theorem key (h : Inv p) {byte : Byte} (hroom : lddIoKeyboardCanReceive p.dev = 1) :
    Inv (p.devStep (lddIoKeyboardReceive p.dev byte)) := by
  obtain ⟨hempty, hplain⟩ := canReceive_iff.mp hroom
  have hcurrent := h.current
  have hsilent : p.dev.ctrl = 0 → Silent p.dev (lddIoKeyboardReceive p.dev byte) := silent_receive
  refine ⟨h.ended, ?_⟩
  show At (lddIoKeyboardReceive p.dev byte) (p.devStep (lddIoKeyboardReceive p.dev byte)).marks
    p.stage
  cases hstage : p.stage with
  | inbStatus | outbAck | probeIrqOn | returned | outbCtrl | outbDrop =>
    rw [hstage] at hcurrent
    have hquiet := hsilent hcurrent.1
    rw [marks_silent hquiet]
    exact ⟨hquiet.ctrl.trans hcurrent.1, hcurrent.2⟩
  | outbData =>
    -- LOOPBACK keeps the keyboard out
    rw [hstage] at hcurrent
    have hloop : p.dev.loopback = true := hcurrent.1.2
    rw [hplain] at hloop
    cases hloop
  | probeIrqOff | outbQuiet =>
    -- and so does the byte in the buffer
    rw [hstage] at hcurrent
    have hfull : p.dev.rxReady = true := hcurrent.1
    rw [hempty] at hfull
    cases hfull

theorem step (h : Inv p) {e : ProbeEvent} (hs : probeStep p e = some p') : Inv p' := by
  cases e with
  | driver host found => exact h.driver hs
  | key byte =>
    obtain ⟨hroom, hs⟩ := Option.ite_none_right_eq_some.mp hs
    obtain rfl := Option.some.inj hs
    exact h.key hroom

end Inv

/-- In every run of short_probe_irq on a device with CTRL 0: each attempt that has ended sent one
pulse, between probe_irq_on and probe_irq_off, and left CTRL 0; in the one that is under way
nothing else has happened so far, and its pulse has been sent when probe_irq_off is called. -/
theorem attempts_send_one_pulse (dev : LDDIOState) (hctrl : dev.ctrl = 0) (es : List ProbeEvent)
    (p : Probe) (h : Steps (fun p e p' => probeStep p e = some p') { dev } es p) :
    (∀ a ∈ p.attempts, a = ([.probeIrqOn, .pulse, .probeIrqOff], 0)) ∧
    p.marks <+: [.probeIrqOn, .pulse, .probeIrqOff] ∧
    (p.stage = .probeIrqOff → p.marks = [.probeIrqOn, .pulse]) ∧
    (∀ value, p.stage = .returned value → p.marks = [] ∧ p.dev.ctrl = 0) := by
  have hinv : Inv p := by
    refine h.invariant (fun _ _ _ hp hs => hp.step hs) ⟨?_, hctrl, rfl⟩
    intro a ha
    cases ha
  have hcurrent := hinv.current
  refine ⟨hinv.ended, ?_, ?_, ?_⟩
  · cases hstage : p.stage with
    | inbStatus | outbAck | probeIrqOn | returned =>
      rw [hstage] at hcurrent
      rw [hcurrent.2]
      exact List.nil_prefix
    | outbCtrl | probeIrqOff =>
      rw [hstage] at hcurrent
      rw [hcurrent.2]
      exact ⟨_, rfl⟩
    | outbData =>
      rw [hstage] at hcurrent
      rw [hcurrent.2]
      cases p.dev.rxReady <;> exact ⟨_, rfl⟩
    | outbQuiet | outbDrop =>
      rw [hstage] at hcurrent
      rw [hcurrent.2]
      exact List.prefix_rfl
  · intro hstage
    rw [hstage] at hcurrent
    exact hcurrent.2
  · intro value hstage
    rw [hstage] at hcurrent
    exact ⟨hcurrent.2, hcurrent.1⟩

/-- Two attempts. A byte is drained before the first; in the second one comes in after the drain,
so that the write to CTRL raises the interrupt. -/
def twoAttempts : List ProbeEvent :=
  [.key 7, .driver [] 0, .driver [] 0, .driver [] 0, .driver [] 0, .driver [] 0, .driver [] 0,
    .driver [] 0, .driver [] 0, .driver [] 0, .driver [] 0, .key 8, .driver [] 0, .driver [] 0,
    .driver [] 0, .driver [] 10, .driver [] 0, .driver [9] 0]

theorem attempts_send_one_pulse_twice : ∃ p,
    exec probeStep { dev := {} } twoAttempts = some p ∧ p.stage = .returned 10 ∧
    p.attempts.length = 2 ∧ ∀ a ∈ p.attempts, a = ([.probeIrqOn, .pulse, .probeIrqOff], 0) := by
  obtain ⟨p, hrun, hstage, hlen⟩ : ∃ p, exec probeStep { dev := {} } twoAttempts = some p ∧
      p.stage = .returned 10 ∧ p.attempts.length = 2 := ⟨_, rfl, by decide, by decide⟩
  exact ⟨p, hrun, hstage, hlen, (attempts_send_one_pulse {} rfl twoAttempts p (exec_steps hrun)).1⟩

end LinuxDeviceDriver.Drivers.Short.ProbeIrq
