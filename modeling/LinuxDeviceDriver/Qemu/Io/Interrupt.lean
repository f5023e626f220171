/- source: tools/qemu/hw/ldd/io.c, lines 234 to 271, 326 to 388 and 401 to 419
   digest: The two rules of the interrupt add up to the rising edges of RX_READY and IRQ_EN. -/

import LinuxDeviceDriver.Qemu.Io.Device

set_option autoImplicit false

namespace LinuxDeviceDriver.Qemu.Io.Interrupt

open Lib.Bits (isSet isSet_zero isSet_and_of_mask)
open Lib.LittleEndian (Byte)
open Lib.Transition (Steps exec exec_steps)
open Device

/-! ## What a trace tells -/

/-- The value STATUS was last given. -/
def lastStatus : List Effect → Byte
  | [] => 0
  | .status v :: _ => v
  | _ :: t => lastStatus t

/-- The value CTRL was last given. -/
def lastCtrl : List Effect → Byte
  | [] => 0
  | .ctrl v :: _ => v
  | _ :: t => lastCtrl t

/-- RX_READY and IRQ_EN are both set. -/
def level (t : List Effect) : Bool :=
  isSet (lastStatus t) lddIoStatusRxReady && isSet (lastCtrl t) lddIoCtrlIrqEn

/-- How often the level went from false to true since the last reset. -/
def rises : List Effect → Nat
  | [] => 0
  | .reset :: _ => 0
  | e :: t => rises t + (level (e :: t) && !level t).toNat

/-- How often the line was pulsed since the last reset. -/
def pulses : List Effect → Nat
  | [] => 0
  | .reset :: _ => 0
  | .pulse :: t => pulses t + 1
  | _ :: t => pulses t

/-- An effect that neither assigns a register nor pulses nor resets. -/
def idle : Effect → Bool
  | .enter _ _ | .guestError _ => true
  | .status _ | .ctrl _ | .pulse | .reset => false

section Trace

variable {e : Effect} {t : List Effect} {v : Byte}

theorem lastStatus_idle (h : idle e = true) : lastStatus (e :: t) = lastStatus t := by
  cases e <;> first | rfl | cases h

theorem lastCtrl_idle (h : idle e = true) : lastCtrl (e :: t) = lastCtrl t := by
  cases e <;> first | rfl | cases h

theorem pulses_idle (h : idle e = true) : pulses (e :: t) = pulses t := by
  cases e <;> first | rfl | cases h

theorem rises_idle (h : idle e = true) : rises (e :: t) = rises t := by
  have hlevel : level (e :: t) = level t := by
    rw [level, lastStatus_idle h, lastCtrl_idle h, level]
  have hrises : rises (e :: t) = rises t + (level (e :: t) && !level t).toNat := by
    cases e <;> first | rfl | cases h
  rw [hrises, hlevel, Bool.and_not_self, Bool.toNat_false, Nat.add_zero]

theorem rises_pulse : rises (.pulse :: t) = rises t := by
  show rises t + (level t && !level t).toNat = rises t
  rw [Bool.and_not_self, Bool.toNat_false, Nat.add_zero]

end Trace

/-! ## Pulses and edges -/

/-- The trace tells what is in STATUS and CTRL. -/
structure Traced (s : LDDIOState) : Prop where
  status : lastStatus s.trace = s.status
  ctrl : lastCtrl s.trace = s.ctrl

theorem Traced.level_eq {s : LDDIOState} (h : Traced s) :
    level s.trace = (s.rxReady && s.irqEn) := by
  rw [level, h.status, h.ctrl, LDDIOState.rxReady, LDDIOState.irqEn]

/-- Every rising edge has been pulsed, but for the last one if a pulse is due. -/
structure Paid (due : Bool) (s : LDDIOState) : Prop extends Traced s where
  edges : rises s.trace = pulses s.trace + due.toNat
  count : s.irqPulses = BitVec.ofNat 32 (pulses s.trace)

namespace Paid

variable {due : Bool} {s : LDDIOState} {v : Byte}

theorem emit (h : Paid due s) {e : Effect} (he : idle e = true) : Paid due (s.emit e) where
  status := (lastStatus_idle he).trans h.status
  ctrl := (lastCtrl_idle he).trans h.ctrl
  edges := by
    show rises (e :: s.trace) = pulses (e :: s.trace) + due.toNat
    rw [rises_idle he, pulses_idle he, h.edges]
  count := by
    show s.irqPulses = BitVec.ofNat 32 (pulses (e :: s.trace))
    rw [pulses_idle he, h.count]

theorem setStatus (h : Paid false s) (v : Byte) :
    Paid (isSet v lddIoStatusRxReady && s.irqEn && !s.rxReady) (s.setStatus v) := by
  refine ⟨⟨rfl, h.ctrl⟩, ?_, h.count⟩
  have hnew : level (.status v :: s.trace) = (isSet v lddIoStatusRxReady && s.irqEn) := by
    rw [LDDIOState.irqEn, ← h.ctrl]
    rfl
  show rises s.trace + (level (.status v :: s.trace) && !level s.trace).toNat = pulses s.trace + _
  rw [hnew, h.level_eq, h.edges]
  cases isSet v lddIoStatusRxReady <;> cases s.irqEn <;> cases s.rxReady <;> rfl

theorem setCtrl (h : Paid false s) (v : Byte) :
    Paid (!s.irqEn && isSet v lddIoCtrlIrqEn && s.rxReady) (s.setCtrl v) := by
  refine ⟨⟨h.status, rfl⟩, ?_, h.count⟩
  have hnew : level (.ctrl v :: s.trace) = (s.rxReady && isSet v lddIoCtrlIrqEn) := by
    rw [LDDIOState.rxReady, ← h.status]
    rfl
  show rises s.trace + (level (.ctrl v :: s.trace) && !level s.trace).toNat = pulses s.trace + _
  rw [hnew, h.level_eq, h.edges]
  cases isSet v lddIoCtrlIrqEn <;> cases s.irqEn <;> cases s.rxReady <;> rfl

/-- The two rules of the interrupt: a pulse is due exactly after a rising edge. -/
theorem rules : Rules Paid where
  quiet _ _ h := ⟨⟨h.status, h.ctrl⟩, h.edges, h.count⟩
  log _ h := h.emit rfl
  store := by
    intro s origin byte h hempty _
    have hstored : Paid false (({ s with dataIn := byte } : LDDIOState).emit (.enter origin byte)) :=
      emit (s := { s with dataIn := byte }) ⟨⟨h.status, h.ctrl⟩, h.edges, h.count⟩ rfl
    have hready : Paid (isSet (s.status ||| lddIoStatusRxReady) lddIoStatusRxReady && s.irqEn &&
        !s.rxReady) (storeByte s origin byte) :=
      hstored.setStatus (s.status ||| lddIoStatusRxReady)
    rw [isSet_or_rxReady, hempty, Bool.true_and, Bool.not_false, Bool.and_true] at hready
    exact hready
  ack := by
    intro s h _
    have hacked := h.setStatus (s.status &&& ~~~lddIoStatusRxReady)
    rw [Lib.Bits.isSet_and_not, Bool.false_and, Bool.false_and] at hacked
    exact hacked
  ctrl v h := h.setCtrl v
  pulse := by
    intro s h
    refine ⟨⟨h.status, h.ctrl⟩, ?_, ?_⟩
    · show rises (.pulse :: s.trace) = pulses s.trace + 1
      rw [rises_pulse, h.edges]
      rfl
    · show s.irqPulses + 1 = BitVec.ofNat 32 (pulses s.trace + 1)
      rw [h.count, BitVec.ofNat_add]
      rfl
  reset _ := ⟨⟨rfl, rfl⟩, rfl, rfl⟩

end Paid

/-! ## When an access pulses -/

section Quiet

variable {s : LDDIOState} {origin : Origin} {byte : Byte} {host : List Byte}

@[simp] theorem pulses_if_pulse (p : Bool) :
    pulses (if p then lddIoPulse s else s).trace = pulses s.trace + p.toNat := by
  cases p <;> rfl

@[simp] theorem pulses_logReserved {reserved : Byte} {e : GuestError} :
    pulses (logReserved s byte reserved e).trace = pulses s.trace := by
  unfold logReserved
  split <;> rfl

theorem pulses_receiveByte :
    pulses (lddIoReceiveByte s origin byte).trace = pulses s.trace + s.irqEn.toNat :=
  pulses_if_pulse s.irqEn

theorem pulses_acceptInput : pulses (qemuChrFeAcceptInput s host).trace =
    pulses s.trace + (!host.isEmpty && !s.rxReady && !s.loopback && s.irqEn).toNat := by
  rw [acceptInput_eq]
  cases host with
  | nil => rfl
  | cons byte rest =>
    simp only [List.head?_cons, canReceive_iff, lddIoKeyboardReceive]
    split
    · next hroom => rw [pulses_receiveByte, hroom.1, hroom.2]; rfl
    · next hroom =>
      cases hr : s.rxReady <;> cases hl : s.loopback <;> simp_all

theorem pulses_writeData : pulses (writeData s byte).trace =
    pulses s.trace + (s.loopback && !s.rxReady && s.irqEn).toNat := by
  unfold writeData
  dsimp only
  split
  · next hloop =>
    rw [pulses_receiveByte]
    change (s.loopback && !s.rxReady) = true at hloop
    rw [hloop, Bool.true_and]
    rfl
  · next hloop =>
    change ¬(s.loopback && !s.rxReady) = true at hloop
    rw [Bool.eq_false_iff.mpr hloop]
    rfl

theorem pulses_writeStatus : pulses (writeStatus s byte host).trace = pulses s.trace +
    (isSet byte lddIoStatusRxReady && s.rxReady && !host.isEmpty && !s.loopback &&
      s.irqEn).toNat := by
  unfold writeStatus
  dsimp only
  rw [logReserved_rxReady]
  split
  · next hack =>
    rw [pulses_acceptInput, setStatus_acked, hack]
    simp only [setStatus_loopback, setStatus_irqEn, logReserved_loopback, logReserved_irqEn,
      Bool.not_false, Bool.and_true, Bool.true_and]
    exact congrArg (· + _) pulses_logReserved
  · next hack => rw [Bool.eq_false_iff.mpr hack, pulses_logReserved]; rfl

theorem pulses_assignCtrl : pulses (assignCtrl s byte).trace = pulses s.trace +
    (!s.irqEn && isSet byte lddIoCtrlIrqEn && s.rxReady).toNat := by
  have hirq : isSet (byte &&& lddIoCtrlMask) lddIoCtrlIrqEn = isSet byte lddIoCtrlIrqEn :=
    isSet_and_of_mask rfl
  rw [← hirq]
  exact pulses_if_pulse (s := s.setCtrl (byte &&& lddIoCtrlMask)) _

theorem pulses_writeCtrl : pulses (writeCtrl s byte host).trace = pulses s.trace +
    (!s.irqEn && isSet byte lddIoCtrlIrqEn && s.rxReady).toNat +
    (s.loopback && !isSet byte lddIoCtrlLoopback && !host.isEmpty && !s.rxReady &&
      isSet byte lddIoCtrlIrqEn).toNat := by
  have hassign : pulses (assignCtrl (logReserved s byte (~~~lddIoCtrlMask) (.ctrlBits byte))
      byte).trace = _ := pulses_assignCtrl
  rw [pulses_logReserved, logReserved_irqEn, logReserved_rxReady] at hassign
  unfold writeCtrl
  dsimp only
  rw [logReserved_loopback, assignCtrl_loopback]
  split
  · next hleave =>
    rw [pulses_acceptInput, hassign, hleave]
    simp only [assignCtrl_rxReady, assignCtrl_loopback, assignCtrl_irqEn, logReserved_rxReady,
      (Bool.and_eq_true _ _ ▸ hleave).2, Bool.true_and, Bool.and_true]
  · next hstay => rw [hassign, Bool.eq_false_iff.mpr hstay]; rfl

/-- The bits of a register, below MATRIX, that a write can change. -/
def implemented (addr : Nat) : Byte :=
  if addr = lddIoData then 0xff
  else if addr = lddIoStatus then lddIoStatusRxReady
  else if addr = lddIoCtrl then lddIoCtrlMask
  else 0

/-- The writes that may not pulse: a byte that finds the buffer full in loopback, the CTRL
value that is there already, an acknowledgement of nothing and the offsets that are
reserved. -/
inductive Silent (s : LDDIOState) : IoEvent → Prop
  | overrun (data : BitVec 64) (size : Nat) (host : List Byte) (hloop : s.loopback = true)
      (hfull : s.rxReady = true) : Silent s (.write lddIoData data size host)
  | sameCtrl (data : BitVec 64) (size : Nat) (host : List Byte)
      (hsame : data.setWidth 8 &&& lddIoCtrlMask = s.ctrl) :
      Silent s (.write lddIoCtrl data size host)
  | noAck (data : BitVec 64) (size : Nat) (host : List Byte)
      (hbit : isSet (data.setWidth 8) lddIoStatusRxReady = false) :
      Silent s (.write lddIoStatus data size host)
  | emptyAck (data : BitVec 64) (size : Nat) (host : List Byte) (hempty : s.rxReady = false) :
      Silent s (.write lddIoStatus data size host)
  | reserved (addr : Nat) (data : BitVec 64) (size : Nat) (host : List Byte)
      (haddr : lddIoCtrl < addr) (hlow : addr < lddIoMatrix) : Silent s (.write addr data size host)

theorem pulses_silent {data : BitVec 64} {addr size : Nat}
    (h : Silent s (.write addr data size host)) :
    pulses (lddIoWrite s addr data size host).trace = pulses s.trace := by
  cases h with
  | overrun _ _ _ hloop hfull =>
    show pulses (writeData s _).trace = _
    rw [pulses_writeData, hfull]
    simp
  | sameCtrl _ _ _ hsame =>
    show pulses (writeCtrl s _ host).trace = _
    have hirq : isSet (data.setWidth 8) lddIoCtrlIrqEn = s.irqEn := by
      rw [LDDIOState.irqEn, ← hsame]
      exact (isSet_and_of_mask rfl).symm
    have hloop : isSet (data.setWidth 8) lddIoCtrlLoopback = s.loopback := by
      rw [LDDIOState.loopback, ← hsame]
      exact (isSet_and_of_mask rfl).symm
    rw [pulses_writeCtrl, hirq, hloop]
    simp
  | noAck _ _ _ hbit =>
    show pulses (writeStatus s _ host).trace = _
    rw [pulses_writeStatus, hbit]
    rfl
  | emptyAck _ _ _ hempty =>
    show pulses (writeStatus s _ host).trace = _
    rw [pulses_writeStatus, hempty]
    simp
  | reserved _ _ _ _ haddr hlow =>
    have hoffset : lddIoWrite s addr data size host =
        s.emit (.guestError (.offset (data.setWidth 8) addr)) := by
      simp only [lddIoCtrl] at haddr
      unfold lddIoWrite
      rw [if_neg (by omega), if_neg (by simp only [lddIoData]; omega),
        if_neg (by simp only [lddIoStatus]; omega), if_neg (by simp only [lddIoCtrl]; omega)]
    rw [hoffset]
    rfl

theorem pulses_implemented {addr : Nat} (haddr : addr < lddIoMatrix) (data : BitVec 64)
    (size : Nat) :
    pulses (lddIoWrite s addr (data &&& (implemented addr).setWidth 64) size host).trace =
      pulses (lddIoWrite s addr data size host).trace := by
  have hbyte : ∀ keep : Byte, (data &&& keep.setWidth 64).setWidth 8 = data.setWidth 8 &&& keep := by
    intro keep
    rw [BitVec.setWidth_and, BitVec.setWidth_setWidth_of_le _ (by decide), BitVec.setWidth_eq]
  unfold lddIoWrite implemented
  rw [if_neg (Nat.not_le.mpr haddr), if_neg (Nat.not_le.mpr haddr)]
  split
  · simp only [hbyte, pulses_writeData]
  · split
    · rw [hbyte, pulses_writeStatus, pulses_writeStatus, isSet_and_of_mask rfl]
    · split
      · rw [hbyte, pulses_writeCtrl, pulses_writeCtrl, isSet_and_of_mask rfl,
          isSet_and_of_mask rfl]
      · rfl

end Quiet

/-- Over every run the line is pulsed once for each rising edge of RX_READY and IRQ_EN; a
write that makes no edge sends no pulse. -/
theorem pulses_are_rising_edges {es : List IoEvent} {s : LDDIOState}
    (h : Steps (fun s e s' => ioStep s e = some s') {} es s) :
    pulses s.trace = rises s.trace ∧ s.irqPulses = BitVec.ofNat 32 (rises s.trace) ∧
      level s.trace = (s.rxReady && s.irqEn) ∧
      (∀ e s', Silent s e → ioStep s e = some s' → pulses s'.trace = pulses s.trace) ∧
      ∀ addr data size host, addr < lddIoMatrix →
        pulses (lddIoWrite s addr (data &&& (implemented addr).setWidth 64) size host).trace =
          pulses (lddIoWrite s addr data size host).trace := by
  have hpaid : Paid false s :=
    h.invariant (fun _ _ _ hs hstep => Paid.rules.step hs hstep) ⟨⟨rfl, rfl⟩, rfl, rfl⟩
  refine ⟨hpaid.edges.symm, ?_, hpaid.level_eq, ?_, ?_⟩
  · rw [hpaid.edges, hpaid.count]
    rfl
  · intro e s' hsilent hs
    cases e with
    | write addr data size host =>
      obtain rfl := Option.some.inj hs
      split
      · exact pulses_silent hsilent
      · rfl
    | read | receive | resetEnter | resetExit => cases hsilent
  · intro addr data size host haddr
    exact pulses_implemented haddr data size

/-- IRQ_EN is set with the buffer empty, a byte comes in and is acknowledged, the next one
comes in at once, and IRQ_EN is cleared and set again. -/
def twoBytesAndReenable : List IoEvent :=
  [.write lddIoCtrl 1 1 [], .receive 65, .write lddIoStatus 1 1 [66], .write lddIoCtrl 0 1 [],
    .write lddIoCtrl 1 1 []]

theorem pulses_are_rising_edges_three : ∃ s, exec ioStep {} twoBytesAndReenable = some s ∧
    rises s.trace = 3 ∧ pulses s.trace = rises s.trace := by
  obtain ⟨s, hrun⟩ : ∃ s, exec ioStep {} twoBytesAndReenable = some s := ⟨_, rfl⟩
  have hthree : (exec ioStep {} twoBytesAndReenable).map (rises ·.trace) = some 3 := by decide
  rw [hrun] at hthree
  exact ⟨s, hrun, Option.some.inj hthree, (pulses_are_rising_edges (exec_steps hrun)).1⟩

end LinuxDeviceDriver.Qemu.Io.Interrupt
