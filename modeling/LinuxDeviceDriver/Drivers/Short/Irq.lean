/- source: examples/18_short_irq/main.c, lines 33 to 146; tools/qemu/hw/ldd/io.c, lines 234 to 248
     and 341 to 380
   digest: The short_irq driver on ldd-io: an edge-triggered line, a handler that takes one byte
     in a run, and any number of writers. -/

import LinuxDeviceDriver.Drivers.Short.Registers

set_option autoImplicit false

namespace LinuxDeviceDriver.Drivers.Short.Irq

open Lib.Bits (isSet isSet_and_not)
open Lib.LittleEndian (Byte)
open Lib.Transition (Steps exec exec_steps)
open Qemu.Io.Device
open Registers

def shortMaxWrite : Nat := 256

/-- What m_init does next. When a call of it fails it undoes the ones before and returns. -/
inductive InitStage
  | requestRegion
  | requestIrq
  | allocChrdev
  | cdevAdd
  | outbCtrl
  | done
  | failed
  deriving DecidableEq, Repr

namespace InitStage

/-- The handler is installed: from request_irq on. -/
def irqRequested : InitStage → Bool
  | .allocChrdev | .cdevAdd | .outbCtrl | .done => true
  | _ => false

/-- The node can be written to: from cdev_add on. -/
def live : InitStage → Bool
  | .outbCtrl | .done => true
  | _ => false

end InitStage

/-- What short_interrupt does next. -/
inductive HandlerStage
  | inbStatus
  | inbData
  | outbStatus
  | atomicInc
  deriving DecidableEq, Repr

/-- The handler has an acknowledgement before it, if it finds RX_READY set. -/
def HandlerStage.beforeAck : HandlerStage → Bool
  | .atomicInc => false
  | _ => true

/-- What happens at the device and in the handler. -/
inductive Seen
  | dev (e : Effect)
  | read (run : Nat) (byte : Byte)
  | ack (run : Nat)
  deriving DecidableEq, Repr

/-- The device, the line's latch, the driver and its callers. The handler's runs are numbered;
what happened is recorded latest first. -/
structure ShortIrq where
  dev : LDDIOState
  latched : Bool
  init : InitStage := .requestRegion
  handler : Option HandlerStage := none
  run : Nat := 0
  shortIrqs : BitVec 32 := 0
  shortLast : Byte := 0
  writers : List (List Byte) := []
  seen : List Seen := []
  deriving DecidableEq

/-- What the device did from one state to another. -/
def effects (dev dev' : LDDIOState) : List Effect :=
  dev'.trace.take (dev'.trace.length - dev.trace.length)

namespace ShortIrq

/-- The device does something. An edge on its line is latched. -/
def devStep (s : ShortIrq) (dev : LDDIOState) : ShortIrq :=
  { s with
    dev
    latched := s.latched || (effects s.dev dev).contains .pulse
    seen := (effects s.dev dev).map .dev ++ s.seen }

def outb (s : ShortIrq) (v : Byte) (off : Nat) (host : List Byte) : ShortIrq :=
  s.devStep (iowrite8 s.dev v off host)

def note (s : ShortIrq) (e : Seen) : ShortIrq := { s with seen := e :: s.seen }

def inb (s : ShortIrq) (off : Nat) : Byte := ioread8 s.dev off

end ShortIrq

/-- The next call of m_init. A call that fails once the handler is installed comes to free_irq,
which waits for a running handler. -/
def initStep (s : ShortIrq) (ok : Bool) (host : List Byte) : Option ShortIrq :=
  match s.init with
  | .requestRegion => some { s with init := if ok then .requestIrq else .failed }
  | .requestIrq => some { s with init := if ok then .allocChrdev else .failed }
  | .allocChrdev =>
    if ok then some { s with init := .cdevAdd }
    else if s.handler = none then some { s with init := .failed } else none
  | .cdevAdd =>
    if ok then some { s with init := .outbCtrl }
    else if s.handler = none then some { s with init := .failed } else none
  | .outbCtrl =>
    some { s.outb (lddIoCtrlIrqEn ||| lddIoCtrlLoopback) lddIoCtrl host with init := .done }
  | .done | .failed => none

/-- One step of short_interrupt. -/
def shortInterrupt (s : ShortIrq) (host : List Byte) : Option ShortIrq :=
  s.handler.map fun
    | .inbStatus =>
      { s with
        handler :=
          if isSet (s.inb lddIoStatus) lddIoStatusRxReady then some .inbData else none }
    | .inbData =>
      { s.note (.read s.run (s.inb lddIoData)) with
        shortLast := s.inb lddIoData
        handler := some .outbStatus }
    | .outbStatus =>
      { (s.note (.ack s.run)).outb lddIoStatusRxReady lddIoStatus host with
        handler := some .atomicInc }
    | .atomicInc => { s with shortIrqs := s.shortIrqs + 1, handler := none }

inductive IrqEvent
  | init (ok : Bool) (host : List Byte)
  | shortWrite (buf : List Byte) (ok : Bool)
  | outbData (writer : Nat) (host : List Byte)
  | irq
  | handle (host : List Byte)
  | key (byte : Byte)
  deriving DecidableEq, Repr

/-- One step of the whole. A handler may start at any time when none is running, also without an
edge; whatever was latched is then taken. The keyboard delivers a byte only where it is told
that there is room. -/
def irqStep (s : ShortIrq) : IrqEvent → Option ShortIrq
  | .init ok host => initStep s ok host
  | .shortWrite buf ok =>
    if s.init.live then
      some (if ok then { s with writers := s.writers ++ [buf.take shortMaxWrite] } else s)
    else none
  | .outbData i host =>
    match s.writers[i]? with
    | some (byte :: rest) =>
      some { s.outb byte lddIoData host with writers := s.writers.set i rest }
    | _ => none
  | .irq =>
    if s.init.irqRequested = true ∧ s.handler = none then
      some { s with latched := false, handler := some .inbStatus, run := s.run + 1 }
    else none
  | .handle host => shortInterrupt s host
  | .key byte =>
    if lddIoKeyboardCanReceive s.dev = 1 then some (s.devStep (lddIoKeyboardReceive s.dev byte))
    else none

/-! ## The life of a byte -/

/-- The receive buffer as the driver should see it: a byte is accepted, read by one run of the
handler and acknowledged by the same run. -/
inductive Buffer
  | empty
  | full (byte : Byte)
  | taken (byte : Byte) (run : Nat)
  | acking
  deriving DecidableEq, Repr

/-- What may happen next; anything else is lost, overwritten, read twice or acknowledged
unread. -/
def Buffer.next : Buffer → Seen → Option Buffer
  | .empty, .dev (.enter _ byte) => some (.full byte)
  | .full byte, .dev (.status v) => if isSet v lddIoStatusRxReady then some (.full byte) else none
  | .full byte, .read run byte' => if byte' = byte then some (.taken byte run) else none
  | .taken _ run, .ack run' => if run' = run then some .acking else none
  | .acking, .dev (.status v) => if isSet v lddIoStatusRxReady then none else some .empty
  | b, .dev .pulse => some b
  | b, .dev (.ctrl _) => some b
  | b, .dev (.guestError _) => some b
  | _, _ => none

/-- The buffer after all that has happened, if nothing went wrong. -/
def Buffer.follow (b : Buffer) : List Seen → Option Buffer
  | [] => some b
  | e :: t => (b.follow t).bind fun b' => b'.next e

/-- What the driver finds. -/
def Buffer.ofDev (dev : LDDIOState) : Buffer := if dev.rxReady then .full dev.dataIn else .empty

/-- RX_READY was cleared. -/
def Seen.acknowledged : Seen → Bool
  | .dev (.status v) => !isSet v lddIoStatusRxReady
  | _ => false

/-! ## What the device does in a step -/

section Effects

variable {s : ShortIrq} {dev dev' dev'' : LDDIOState} {new new' : List Effect}

theorem note_dev (e : Seen) : (s.note e).dev = s.dev := rfl

theorem note_seen (e : Seen) : (s.note e).seen = e :: s.seen := rfl

theorem devStep_eq (h : dev'.trace = new ++ s.dev.trace) :
    s.devStep dev' =
      { s with
        dev := dev'
        latched := s.latched || new.contains .pulse
        seen := new.map .dev ++ s.seen } := by
  have hnew : effects s.dev dev' = new := by
    rw [effects, h, List.length_append, Nat.add_sub_cancel, List.take_left]
  rw [ShortIrq.devStep, hnew]

theorem devStep_devStep (h : dev'.trace = new ++ s.dev.trace)
    (h' : dev''.trace = new' ++ dev'.trace) : (s.devStep dev').devStep dev'' = s.devStep dev'' := by
  have hboth : dev''.trace = (new' ++ new) ++ s.dev.trace := by
    rw [h', h, List.append_assoc]
  rw [devStep_eq hboth, devStep_eq h]
  have hsecond := devStep_eq (s := { s with
    dev := dev', latched := s.latched || new.contains .pulse, seen := new.map .dev ++ s.seen }) h'
  rw [hsecond]
  simp only [List.map_append, List.append_assoc, ShortIrq.mk.injEq, true_and, and_true]
  rw [Bool.or_assoc, Bool.or_comm (new.contains _), Bool.eq_iff_iff]
  simp

private theorem isSet_rxReady : isSet lddIoStatusRxReady lddIoStatusRxReady = true := by decide

theorem receiveByte_trace (origin : Origin) (byte : Byte) :
    (lddIoReceiveByte dev origin byte).trace =
      ((if dev.irqEn then [.pulse] else []) ++
        [.status (dev.status ||| lddIoStatusRxReady), .enter origin byte]) ++ dev.trace := by
  unfold lddIoReceiveByte
  dsimp only
  have hen : (storeByte dev origin byte).irqEn = dev.irqEn := rfl
  rw [hen]
  split <;> rfl

/-- What m_init writes to CTRL is taken as it is, and brings no input in. -/
theorem outbCtrl_eq (host : List Byte) :
    iowrite8 dev (lddIoCtrlIrqEn ||| lddIoCtrlLoopback) lddIoCtrl host =
      assignCtrl dev (lddIoCtrlIrqEn ||| lddIoCtrlLoopback) := by
  have hlog : logReserved dev (lddIoCtrlIrqEn ||| lddIoCtrlLoopback) (~~~lddIoCtrlMask)
      (.ctrlBits (lddIoCtrlIrqEn ||| lddIoCtrlLoopback)) = dev := rfl
  have hloop : (assignCtrl dev (lddIoCtrlIrqEn ||| lddIoCtrlLoopback)).loopback = true := by
    rw [assignCtrl_loopback]
    decide
  rw [iowrite8_ctrl, writeCtrl]
  simp only [hlog, hloop, Bool.not_true, Bool.and_false, Bool.false_eq_true, if_false]

theorem assignCtrl_trace (h : dev.irqEn = false) (byte : Byte)
    (hen : isSet byte lddIoCtrlIrqEn = true) :
    (assignCtrl dev byte).trace =
      ((if dev.rxReady then [.pulse] else []) ++ [.ctrl (byte &&& lddIoCtrlMask)]) ++ dev.trace := by
  unfold assignCtrl
  dsimp only
  have hnew : (dev.setCtrl (byte &&& lddIoCtrlMask)).irqEn = true := by
    rw [LDDIOState.irqEn, ← hen]
    exact Lib.Bits.isSet_and_of_mask rfl
  have hready : (dev.setCtrl (byte &&& lddIoCtrlMask)).rxReady = dev.rxReady := rfl
  rw [h, hnew, hready]
  cases dev.rxReady <;> rfl

theorem assignCtrl_dataIn (byte : Byte) : (assignCtrl dev byte).dataIn = dev.dataIn := by
  unfold assignCtrl
  dsimp only
  split <;> rfl

end Effects

/-! ## The invariant -/

/-- The buffer as the device and the handler have it. -/
def bufferOf (dev : LDDIOState) (handler : Option HandlerStage) (run : Nat) : Buffer :=
  if dev.rxReady then
    if handler = some .outbStatus then .taken dev.dataIn run else .full dev.dataIn
  else .empty

section BufferOf

variable {dev : LDDIOState} {handler : Option HandlerStage} {run : Nat}

theorem bufferOf_empty (h : dev.rxReady = false) : bufferOf dev handler run = .empty := by
  rw [bufferOf, h]
  rfl

theorem bufferOf_full (h : dev.rxReady = true) (hhandler : handler ≠ some .outbStatus) :
    bufferOf dev handler run = .full dev.dataIn := by
  rw [bufferOf, h, if_neg hhandler]
  rfl

theorem bufferOf_taken (h : dev.rxReady = true) :
    bufferOf dev (some .outbStatus) run = .taken dev.dataIn run := by
  rw [bufferOf, h]
  rfl

theorem bufferOf_start : bufferOf dev none run = .ofDev dev := by
  rw [bufferOf, Buffer.ofDev]
  rfl

end BufferOf

structure Inv (start : Buffer) (s : ShortIrq) : Prop where
  enabled : s.dev.irqEn = true ↔ s.init = .done
  loops : s.init = .done → s.dev.loopback = true
  awake : s.dev.rxReady = true → s.dev.irqEn = true →
    s.latched = true ∨ ∃ h, s.handler = some h ∧ h.beforeAck = true
  holds : s.handler = some .inbData ∨ s.handler = some .outbStatus → s.dev.rxReady = true
  life : start.follow s.seen = some (bufferOf s.dev s.handler s.run)
  counted : BitVec.ofNat 32 (s.seen.countP Seen.acknowledged) =
    s.shortIrqs + if s.handler = some .atomicInc then 1 else 0

namespace Inv

variable {start : Buffer} {s s' : ShortIrq} {host : List Byte} {byte : Byte}

theorem init (dev : LDDIOState) (latched : Bool) (hdev : dev.irqEn = false) :
    Inv (.ofDev dev) { dev, latched } where
  enabled := by simp [hdev]
  loops := by simp
  awake := by simp [hdev]
  holds := by simp
  life := congrArg some bufferOf_start.symm
  counted := by simp

theorem not_acking (h : Inv start s) (hempty : s.dev.rxReady = false) :
    s.handler ≠ some .outbStatus := by
  intro hack
  have hready := h.holds (.inr hack)
  rw [hempty] at hready
  cases hready

theorem off (h : Inv start s) (hstage : s.init ≠ .done) : s.dev.irqEn = false := by
  rw [Bool.eq_false_iff]
  intro hset
  exact hstage (h.enabled.mp hset)

/-- A byte comes in where there is room for it. With IRQ_EN its edge is latched. -/
theorem receive (h : Inv start s) (hempty : s.dev.rxReady = false) (origin : Origin) :
    Inv start (s.devStep (lddIoReceiveByte s.dev origin byte)) := by
  rw [devStep_eq (receiveByte_trace origin byte)]
  have hen : (lddIoReceiveByte s.dev origin byte).irqEn = s.dev.irqEn := by
    rw [LDDIOState.irqEn, receiveByte_ctrl]
    rfl
  refine ⟨?_, ?_, ?_, ?_, ?_, ?_⟩
  · show (lddIoReceiveByte s.dev origin byte).irqEn = true ↔ _
    rw [hen]
    exact h.enabled
  · intro hdone
    rw [← h.loops hdone, LDDIOState.loopback, receiveByte_ctrl]
    rfl
  · intro _ hset
    have hset : s.dev.irqEn = true := hen ▸ hset
    left
    simp [hset]
  · intro _
    exact receiveByte_rxReady
  · have hlife := h.life
    rw [bufferOf_empty hempty] at hlife
    dsimp only
    rw [bufferOf_full receiveByte_rxReady (h.not_acking hempty), receiveByte_dataIn]
    cases s.dev.irqEn <;> simp [Buffer.follow, Buffer.next, hlife, isSet_rxReady]
  · dsimp only
    rw [← h.counted]
    cases s.dev.irqEn <;> simp [Seen.acknowledged, isSet_rxReady]

theorem keyboard (h : Inv start s) (hroom : lddIoKeyboardCanReceive s.dev = 1) :
    Inv start (s.devStep (lddIoKeyboardReceive s.dev byte)) :=
  h.receive (canReceive_iff.mp hroom).1 .keyboard

theorem outbData (h : Inv start s) : Inv start (s.outb byte lddIoData host) := by
  have hleds : Inv start { s with dev := { s.dev with dataOut := byte } } :=
    ⟨h.enabled, h.loops, h.awake, h.holds, h.life, h.counted⟩
  rw [ShortIrq.outb, iowrite8_data]
  unfold writeData
  dsimp only
  split
  · next hloop =>
    rw [Bool.and_eq_true, Bool.not_eq_true'] at hloop
    exact hleds.receive hloop.2 .data
  · have hquiet : ({ s.dev with dataOut := byte } : LDDIOState).trace = [] ++ s.dev.trace := rfl
    rw [devStep_eq hquiet]
    simpa using hleds

/-- The end of m_init: a byte that is already there raises the line. -/
theorem outbCtrl (h : Inv start s) (hstage : s.init ≠ .done) :
    Inv start
      { s.outb (lddIoCtrlIrqEn ||| lddIoCtrlLoopback) lddIoCtrl host with init := .done } := by
  have hbit : isSet (lddIoCtrlIrqEn ||| lddIoCtrlLoopback) lddIoCtrlIrqEn = true := by decide
  rw [ShortIrq.outb, outbCtrl_eq, devStep_eq (assignCtrl_trace (h.off hstage) _ hbit)]
  refine ⟨?_, ?_, ?_, ?_, ?_, ?_⟩
  · exact ⟨fun _ => rfl, fun _ => assignCtrl_irqEn.trans hbit⟩
  · intro _
    exact assignCtrl_loopback.trans (by decide)
  · intro hready _
    have hready : s.dev.rxReady = true := assignCtrl_rxReady ▸ hready
    left
    simp [hready]
  · intro hstep
    exact assignCtrl_rxReady.trans (h.holds hstep)
  · have hbuffer : bufferOf (assignCtrl s.dev (lddIoCtrlIrqEn ||| lddIoCtrlLoopback)) s.handler
        s.run = bufferOf s.dev s.handler s.run := by
      rw [bufferOf, bufferOf, assignCtrl_rxReady, assignCtrl_dataIn]
    dsimp only
    rw [hbuffer]
    cases s.dev.rxReady <;> simp [Buffer.follow, Buffer.next, h.life]
  · dsimp only
    rw [← h.counted]
    cases s.dev.rxReady <;> simp [Seen.acknowledged]

/-- The acknowledgement itself, before the keyboard is told to go on. -/
theorem acked (h : Inv start s) (hstage : s.handler = some .outbStatus) :
    Inv start
      { (s.note (.ack s.run)).devStep
          (s.dev.setStatus (s.dev.status &&& ~~~lddIoStatusRxReady)) with
        handler := some .atomicInc } := by
  have hready := h.holds (.inr hstage)
  have hlife := h.life
  rw [hstage, bufferOf_taken hready] at hlife
  have htrace : (s.dev.setStatus (s.dev.status &&& ~~~lddIoStatusRxReady)).trace =
      [.status (s.dev.status &&& ~~~lddIoStatusRxReady)] ++ (s.note (.ack s.run)).dev.trace := rfl
  rw [devStep_eq htrace]
  refine ⟨h.enabled, h.loops, ?_, ?_, ?_, ?_⟩
  · intro hset
    rw [setStatus_acked] at hset
    cases hset
  · rintro (hbad | hbad) <;> cases hbad
  · dsimp only
    rw [bufferOf_empty setStatus_acked]
    simp [note_seen, Buffer.follow, Buffer.next, hlife]
  · have hcounted := h.counted
    rw [if_neg (by simp [hstage]), add_zero] at hcounted
    show _ = s.shortIrqs + 1
    simp [note_seen, Seen.acknowledged, BitVec.ofNat_add, hcounted]

/-- The acknowledgement, and what the keyboard then delivers. -/
theorem outbStatus (h : Inv start s) (hstage : s.handler = some .outbStatus) :
    Inv start
      { (s.note (.ack s.run)).outb lddIoStatusRxReady lddIoStatus host with
        handler := some .atomicInc } := by
  have hacked := h.acked hstage
  rw [ShortIrq.outb, note_dev, ack_eq (h.holds (.inr hstage)), acceptInput_eq]
  split
  · next byte _ =>
    split
    · next hroom =>
      have htrace : (s.dev.setStatus (s.dev.status &&& ~~~lddIoStatusRxReady)).trace =
          [.status (s.dev.status &&& ~~~lddIoStatusRxReady)] ++ (s.note (.ack s.run)).dev.trace :=
        rfl
      have hboth := devStep_devStep htrace (receiveByte_trace .keyboard byte)
      rw [lddIoKeyboardReceive, ← hboth]
      exact hacked.keyboard hroom
    · exact hacked
  · exact hacked

theorem handle (h : Inv start s) (hs : shortInterrupt s host = some s') : Inv start s' := by
  obtain ⟨stage, hstage, hs⟩ := Option.map_eq_some_iff.mp hs
  have hlife := h.life
  have hcounted := h.counted
  cases stage with
  | inbStatus =>
    subst hs
    have hread : isSet (s.inb lddIoStatus) lddIoStatusRxReady = s.dev.rxReady := by
      rw [ShortIrq.inb, ioread8_status]
      rfl
    rw [hstage] at hcounted
    rw [hread]
    cases hready : s.dev.rxReady with
    | true =>
      refine ⟨h.enabled, h.loops, ?_, fun _ => hready, ?_, hcounted⟩
      · intro _ _
        exact .inr ⟨.inbData, rfl, rfl⟩
      · dsimp only
        rw [hlife, bufferOf_full hready (by simp [hstage]), if_pos rfl,
          bufferOf_full hready (by simp)]
    | false =>
      refine ⟨h.enabled, h.loops, ?_, ?_, ?_, hcounted⟩
      · intro hset
        rw [hready] at hset
        cases hset
      · rintro (hbad | hbad) <;> cases hbad
      · dsimp only
        rw [hlife, bufferOf_empty hready, bufferOf_empty hready]
  | inbData =>
    subst hs
    have hready := h.holds (.inl hstage)
    have hread : s.inb lddIoData = s.dev.dataIn := by
      rw [ShortIrq.inb, ioread8_data]
    rw [hstage] at hcounted
    rw [bufferOf_full hready (by simp [hstage])] at hlife
    rw [hread]
    refine ⟨h.enabled, h.loops, ?_, fun _ => hready, ?_, ?_⟩
    · intro _ _
      exact .inr ⟨.outbStatus, rfl, rfl⟩
    · show Buffer.follow start (.read s.run s.dev.dataIn :: s.seen) =
        some (bufferOf s.dev (some .outbStatus) s.run)
      rw [bufferOf_taken hready, Buffer.follow, hlife]
      exact if_pos rfl
    · show BitVec.ofNat 32 ((.read s.run s.dev.dataIn :: s.seen).countP Seen.acknowledged) = _
      rw [List.countP_cons_of_neg (by simp [Seen.acknowledged])]
      exact hcounted
  | outbStatus =>
    subst hs
    exact h.outbStatus hstage
  | atomicInc =>
    subst hs
    refine ⟨h.enabled, h.loops, ?_, ?_, ?_, ?_⟩
    · intro hready hen
      rcases h.awake hready hen with hlatched | ⟨stage, hstage', hbefore⟩
      · exact .inl hlatched
      · -- the handler has acknowledged already: only a latched edge can stand for the byte
        rw [hstage] at hstage'
        obtain rfl := Option.some.inj hstage'
        cases hbefore
    · rintro (hbad | hbad) <;> cases hbad
    · dsimp only
      rw [hlife, hstage, bufferOf, bufferOf]
      rfl
    · rw [hstage, if_pos rfl] at hcounted
      dsimp only
      rw [hcounted, if_neg (by simp), add_zero]

theorem initStep (h : Inv start s) {ok : Bool} (hs : Irq.initStep s ok host = some s') :
    Inv start s' := by
  have hstage : ∀ stage : InitStage, s.init ≠ .done → stage ≠ .done →
      Inv start { s with init := stage } := by
    intro stage hold hnew
    refine ⟨?_, ?_, h.awake, h.holds, h.life, h.counted⟩
    · have hoff := h.off hold
      dsimp only
      simp [hoff, hnew]
    · intro hdone
      exact absurd hdone hnew
  unfold Irq.initStep at hs
  cases hold : s.init with
  | requestRegion | requestIrq =>
    rw [hold] at hs
    obtain rfl := Option.some.inj hs
    exact hstage _ (by simp [hold]) (by cases ok <;> simp)
  | allocChrdev | cdevAdd =>
    simp only [hold] at hs
    split at hs
    · obtain rfl := Option.some.inj hs
      exact hstage _ (by simp [hold]) (by simp)
    · obtain ⟨-, hs⟩ := Option.ite_none_right_eq_some.mp hs
      obtain rfl := Option.some.inj hs
      exact hstage _ (by simp [hold]) (by simp)
  | outbCtrl =>
    rw [hold] at hs
    obtain rfl := Option.some.inj hs
    exact h.outbCtrl (by simp [hold])
  | done | failed =>
    rw [hold] at hs
    cases hs

theorem writers (h : Inv start s) (w : List (List Byte)) : Inv start { s with writers := w } :=
  ⟨h.enabled, h.loops, h.awake, h.holds, h.life, h.counted⟩

/-- A handler starts: whatever edge was latched, the run will find the byte. -/
theorem irq (h : Inv start s) (hidle : s.handler = none) :
    Inv start { s with latched := false, handler := some .inbStatus, run := s.run + 1 } where
  enabled := h.enabled
  loops := h.loops
  awake _ _ := .inr ⟨.inbStatus, rfl, rfl⟩
  holds := by rintro (hbad | hbad) <;> cases hbad
  life := by
    have hlife := h.life
    rw [hidle, bufferOf] at hlife
    rw [hlife, bufferOf]
    rfl
  counted := by
    have hcounted := h.counted
    rw [hidle] at hcounted
    exact hcounted

theorem step (h : Inv start s) {e : IrqEvent} (hs : irqStep s e = some s') : Inv start s' := by
  cases e with
  | init ok host => exact h.initStep hs
  | shortWrite buf ok =>
    obtain ⟨-, hs⟩ := Option.ite_none_right_eq_some.mp hs
    obtain rfl := Option.some.inj hs
    split
    · exact h.writers _
    · exact h
  | outbData i host =>
    simp only [irqStep] at hs
    split at hs
    · obtain rfl := Option.some.inj hs
      exact (h.outbData).writers _
    · cases hs
  | irq =>
    obtain ⟨⟨-, hidle⟩, hs⟩ := Option.ite_none_right_eq_some.mp hs
    obtain rfl := Option.some.inj hs
    exact h.irq hidle
  | handle host => exact h.handle hs
  | key byte =>
    obtain ⟨hroom, hs⟩ := Option.ite_none_right_eq_some.mp hs
    obtain rfl := Option.some.inj hs
    exact h.keyboard hroom

end Inv

/-- From any state of the device with IRQ_EN clear, over every interleaving of m_init, the
writers, the handler and the keyboard: with RX_READY and IRQ_EN set an edge is latched or a
handler has yet to acknowledge; each byte accepted is read by one run of the handler, which then
acknowledges it, before the next is accepted; and between runs short_irqs is the number of bytes
acknowledged. -/
theorem interrupts_served (dev : LDDIOState) (latched : Bool) (hdev : dev.irqEn = false)
    (es : List IrqEvent) (s : ShortIrq)
    (h : Steps (fun s e s' => irqStep s e = some s') { dev, latched } es s) :
    (s.dev.rxReady = true → s.dev.irqEn = true →
      s.latched = true ∨ ∃ stage, s.handler = some stage ∧ stage.beforeAck = true) ∧
    (∃ b, (Buffer.ofDev dev).follow s.seen = some b) ∧
    (s.handler = none →
      s.shortIrqs = BitVec.ofNat 32 (s.seen.countP Seen.acknowledged)) := by
  have hinv : Inv (.ofDev dev) s :=
    h.invariant (fun _ _ _ hs hstep => hs.step hstep) (Inv.init dev latched hdev)
  refine ⟨hinv.awake, ⟨_, hinv.life⟩, ?_⟩
  intro hidle
  have hcounted := hinv.counted
  rw [hidle, if_neg (by simp), add_zero] at hcounted
  exact hcounted.symm

/-- A byte is there when the driver is loaded; a writer sends two bytes while the handler takes
it, of which the device has room for the second only. -/
def contended : List IrqEvent :=
  [.init true [], .init true [], .init true [], .init true [], .init true [], .irq,
    .shortWrite [0x61#8, 0x62#8] true, .handle [], .handle [], .outbData 0 [], .handle [],
    .outbData 0 [], .handle [], .irq, .handle [], .handle [], .handle [], .handle []]

theorem interrupts_served_contended :
    ∃ s, exec irqStep { dev := { status := lddIoStatusRxReady, dataIn := 0x6b#8 }, latched := false }
        contended = some s ∧ (s.run = 2 ∧ s.shortLast = 0x62#8 ∧ s.handler = none) ∧
      s.shortIrqs = 2 := by
  obtain ⟨s, hrun, hs, hacked⟩ : ∃ s,
      exec irqStep { dev := { status := lddIoStatusRxReady, dataIn := 0x6b#8 }, latched := false }
        contended = some s ∧ (s.run = 2 ∧ s.shortLast = 0x62#8 ∧ s.handler = none) ∧
        s.seen.countP Seen.acknowledged = 2 :=
    ⟨_, rfl, by decide, by decide⟩
  have hcount := (interrupts_served _ false (by decide) contended s (exec_steps hrun)).2.2 hs.2.2
  rw [hacked] at hcount
  exact ⟨s, hrun, hs, hcount⟩

end LinuxDeviceDriver.Drivers.Short.Irq
