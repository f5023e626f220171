/- source: tools/qemu/hw/ldd/io.c, lines 240 to 271 and 341 to 380
   digest: A keyboard that asks whether there is room and delivers its byte later, with
     guest writes in between. -/

import LinuxDeviceDriver.Qemu.Io.Interrupt

set_option autoImplicit false

namespace LinuxDeviceDriver.Qemu.Io.Keyboard

open Lib.Bits (isSet)
open Lib.LittleEndian (Byte)
open Lib.Transition (Steps Guarded exec exec_steps exec_guarded_steps)
open Device Interrupt

/-! ## What may not happen -/

/-- A byte enters the buffer although the one before it has not been acknowledged. -/
def replaces (t : List Effect) : Effect → Bool
  | .enter _ _ => isSet (lastStatus t) lddIoStatusRxReady
  | _ => false

/-- A byte that was not written to DATA enters the buffer in loopback. -/
def intrudes (t : List Effect) : Effect → Bool
  | .enter .keyboard _ => isSet (lastCtrl t) lddIoCtrlLoopback
  | _ => false

/-- By the last effect RX_READY or IRQ_EN went from 0 to 1. -/
def rose : List Effect → Bool
  | .status v :: t => isSet v lddIoStatusRxReady && !isSet (lastStatus t) lddIoStatusRxReady
  | .ctrl v :: t => isSet v lddIoCtrlIrqEn && !isSet (lastCtrl t) lddIoCtrlIrqEn
  | _ => false

/-- A pulse is sent although neither RX_READY nor IRQ_EN went from 0 to 1. -/
def unfounded (t : List Effect) : Effect → Bool
  | .pulse => !rose t
  | _ => false

/-- Nothing bad was done at any point of the trace. -/
def never (bad : List Effect → Effect → Bool) : List Effect → Bool
  | [] => true
  | e :: t => !bad t e && never bad t

theorem never_suffix {bad : List Effect → Effect → Bool} {t t' : List Effect} (h : t <:+ t')
    (hnever : never bad t' = true) : never bad t = true := by
  induction t' with
  | nil =>
    rw [List.suffix_nil.mp h]
    rfl
  | cons e t' ih =>
    rcases List.suffix_cons_iff.mp h with rfl | h
    · exact hnever
    · exact ih h (Bool.and_eq_true_iff.mp hnever).2

structure Orderly (t : List Effect) : Prop where
  kept : never replaces t = true
  apart : never intrudes t = true
  founded : never unfounded t = true

namespace Orderly

variable {t t' : List Effect} {e : Effect}

theorem cons_iff : Orderly (e :: t) ↔
    Orderly t ∧ replaces t e = false ∧ intrudes t e = false ∧ unfounded t e = false := by
  constructor
  · rintro ⟨hk, ha, hf⟩
    rw [never, Bool.and_eq_true, Bool.not_eq_true'] at hk ha hf
    exact ⟨⟨hk.2, ha.2, hf.2⟩, hk.1, ha.1, hf.1⟩
  · rintro ⟨⟨hk, ha, hf⟩, hr, hi, hu⟩
    constructor
    · rw [never, hr, hk]
      rfl
    · rw [never, hi, ha]
      rfl
    · rw [never, hu, hf]
      rfl

theorem suffix (h : t <:+ t') (ht : Orderly t') : Orderly t :=
  ⟨never_suffix h ht.kept, never_suffix h ht.apart, never_suffix h ht.founded⟩

end Orderly

/-! ## On time -/

/-- All is in order, and a pulse that is due has its reason. -/
structure Founded (due : Bool) (s : LDDIOState) : Prop extends Traced s where
  orderly : Orderly s.trace
  reason : due = true → rose s.trace = true

theorem Founded.rules : Rules Founded where
  quiet _ _ h := ⟨⟨h.status, h.ctrl⟩, h.orderly, h.reason⟩
  log _ h := ⟨⟨h.status, h.ctrl⟩, Orderly.cons_iff.mpr ⟨h.orderly, rfl, rfl, rfl⟩, nofun⟩
  store := by
    intro s origin byte h hempty hloop
    have hready : isSet (lastStatus s.trace) lddIoStatusRxReady = false := h.status ▸ hempty
    have hdata : intrudes s.trace (.enter origin byte) = false := by
      cases origin with
      | data => rfl
      | keyboard =>
        show isSet (lastCtrl s.trace) lddIoCtrlLoopback = false
        rw [h.ctrl, Bool.eq_false_iff]
        intro hset
        cases hloop hset
    have henter : Orderly (.enter origin byte :: s.trace) :=
      Orderly.cons_iff.mpr ⟨h.orderly, hready, hdata, rfl⟩
    refine ⟨⟨rfl, h.ctrl⟩, Orderly.cons_iff.mpr ⟨henter, rfl, rfl, rfl⟩, fun _ => ?_⟩
    show (isSet (s.status ||| lddIoStatusRxReady) lddIoStatusRxReady &&
      !isSet (lastStatus s.trace) lddIoStatusRxReady) = true
    rw [isSet_or_rxReady, hready]
    rfl
  ack h _ := ⟨⟨rfl, h.ctrl⟩, Orderly.cons_iff.mpr ⟨h.orderly, rfl, rfl, rfl⟩, nofun⟩
  ctrl := by
    intro s v h
    refine ⟨⟨h.status, rfl⟩, Orderly.cons_iff.mpr ⟨h.orderly, rfl, rfl, rfl⟩, fun hdue => ?_⟩
    rw [Bool.and_eq_true, Bool.and_eq_true] at hdue
    show (isSet v lddIoCtrlIrqEn && !isSet (lastCtrl s.trace) lddIoCtrlIrqEn) = true
    rw [hdue.1.2, h.ctrl]
    exact hdue.1.1
  pulse := by
    intro s h
    refine ⟨⟨h.status, h.ctrl⟩, Orderly.cons_iff.mpr ⟨h.orderly, rfl, rfl, ?_⟩, nofun⟩
    show (!rose s.trace) = false
    rw [h.reason rfl]
    rfl
  reset := by
    intro s h
    have hzeroed := Orderly.cons_iff.mpr ⟨h.orderly, (rfl : replaces s.trace (.status 0) = false),
      rfl, rfl⟩
    have hcleared := Orderly.cons_iff.mpr ⟨hzeroed, (rfl : replaces _ (.ctrl 0) = false), rfl, rfl⟩
    exact ⟨⟨rfl, rfl⟩, Orderly.cons_iff.mpr ⟨hcleared, rfl, rfl, rfl⟩, nofun⟩

/-! ## Asking and delivering -/

/-- The device, and whether its keyboard has been told that there is room and has not yet
delivered its byte. -/
structure Polled where
  dev : LDDIOState := {}
  asked : Bool := false

inductive PollEvent
  | io (e : IoEvent)
  | ask
  | deliver (byte : Byte)
  deriving DecidableEq, Repr

/-- Once told that there is room the keyboard delivers one byte, whatever happens before. -/
def pollStep (p : Polled) : PollEvent → Option Polled
  | .io e => (ioStep p.dev e).map fun s => { p with dev := s }
  | .ask => some { p with asked := p.asked || lddIoKeyboardCanReceive p.dev == 1 }
  | .deliver byte =>
    if p.asked then some { dev := lddIoKeyboardReceive p.dev byte, asked := false } else none

/-- The room the keyboard was told about is still there when it delivers. -/
def OnTime (p : Polled) : PollEvent → Prop
  | .deliver _ => lddIoKeyboardCanReceive p.dev = 1
  | .io _ | .ask => True

instance (p : Polled) : (e : PollEvent) → Decidable (OnTime p e)
  | .deliver _ => inferInstanceAs (Decidable (lddIoKeyboardCanReceive p.dev = 1))
  | .io _ | .ask => inferInstanceAs (Decidable True)

/-- The keyboard is told that there is room. The guest then turns IRQ_EN and LOOPBACK on and
writes a byte to DATA, and the keyboard delivers its own. -/
def loopbackMeanwhile : List PollEvent :=
  [.ask, .io (.write lddIoCtrl 3 1 []), .io (.write lddIoData 66 1 []), .deliver 65]

/-- The guest never sees the byte it wrote: another one has come in, in loopback, and has
pulsed the line with RX_READY and IRQ_EN set as they were. -/
theorem late_byte_replaces : ∃ p, exec pollStep {} loopbackMeanwhile = some p ∧
    p.dev.dataIn = 65 ∧ never replaces p.dev.trace = false ∧ never intrudes p.dev.trace = false ∧
    never unfounded p.dev.trace = false :=
  ⟨_, rfl, by decide, by decide, by decide, by decide⟩

/-- The trace that was there is still there. -/
def Extends (t : List Effect) (_ : Bool) (s : LDDIOState) : Prop := t <:+ s.trace

theorem Extends.rules (t : List Effect) : Rules (Extends t) where
  quiet _ _ h := h
  log _ h := h.trans (List.suffix_cons _ _)
  store _ _ h _ _ := h.trans ((List.suffix_cons _ _).trans (List.suffix_cons _ _))
  ack h _ := h.trans (List.suffix_cons _ _)
  ctrl _ h := h.trans (List.suffix_cons _ _)
  pulse h := h.trans (List.suffix_cons _ _)
  reset h := h.trans ((List.suffix_cons _ _).trans
    ((List.suffix_cons _ _).trans (List.suffix_cons _ _)))

section Delivery

variable {s : LDDIOState} {byte : Byte} {p p' : Polled} {e : PollEvent}

/-- A delivery leaves the trace it found behind the byte that enters. -/
theorem keyboardReceive_trace :
    .enter .keyboard byte :: s.trace <:+ (lddIoKeyboardReceive s byte).trace := by
  have hstored : .enter .keyboard byte :: s.trace <:+ (storeByte s .keyboard byte).trace :=
    List.suffix_cons _ _
  exact (Extends.rules _).pulse_if hstored

theorem late_out_of_order (ht : Traced s) (hlate : lddIoKeyboardCanReceive s ≠ 1) :
    ¬Orderly (lddIoKeyboardReceive s byte).trace := by
  intro h
  obtain ⟨-, hreplace, hintrude, -⟩ := Orderly.cons_iff.mp (h.suffix keyboardReceive_trace)
  change isSet (lastStatus s.trace) lddIoStatusRxReady = false at hreplace
  change isSet (lastCtrl s.trace) lddIoCtrlLoopback = false at hintrude
  rw [ht.status] at hreplace
  rw [ht.ctrl] at hintrude
  exact hlate (canReceive_iff.mpr ⟨hreplace, hintrude⟩)

theorem pollStep_extends (h : pollStep p e = some p') : p.dev.trace <:+ p'.dev.trace := by
  cases e with
  | io e =>
    obtain ⟨s, hs, rfl⟩ := Option.map_eq_some_iff.mp h
    exact (Extends.rules p.dev.trace).step (List.suffix_refl _) hs
  | ask =>
    obtain rfl := Option.some.inj h
    exact List.suffix_refl _
  | deliver byte =>
    obtain ⟨-, h⟩ := Option.ite_none_right_eq_some.mp h
    obtain rfl := Option.some.inj h
    exact (List.suffix_cons _ _).trans keyboardReceive_trace

theorem pollStep_founded (hf : Founded false p.dev) (htime : OnTime p e)
    (h : pollStep p e = some p') : Founded false p'.dev := by
  cases e with
  | io e =>
    obtain ⟨s, hs, rfl⟩ := Option.map_eq_some_iff.mp h
    exact Founded.rules.step hf hs
  | ask =>
    obtain rfl := Option.some.inj h
    exact hf
  | deliver byte =>
    obtain ⟨-, h⟩ := Option.ite_none_right_eq_some.mp h
    obtain rfl := Option.some.inj h
    exact Founded.rules.keyboardReceive hf htime

theorem pollStep_onTime (hf : Founded false p.dev) (h : pollStep p e = some p')
    (ho : Orderly p'.dev.trace) : OnTime p e := by
  cases e with
  | io | ask => trivial
  | deliver byte =>
    obtain ⟨-, h⟩ := Option.ite_none_right_eq_some.mp h
    obtain rfl := Option.some.inj h
    by_contra hlate
    exact late_out_of_order hf.toTraced hlate ho

end Delivery

theorem steps_extends {es : List PollEvent} {p p' : Polled}
    (h : Steps (fun p e p' => pollStep p e = some p') p es p') :
    p.dev.trace <:+ p'.dev.trace := by
  induction h with
  | nil p => exact List.suffix_refl _
  | cons hstep _ ih => exact (pollStep_extends hstep).trans ih

/-- The order of a whole run is that of each of its steps. -/
theorem steps_onTime {es : List PollEvent} {p p' : Polled}
    (h : Steps (fun p e p' => pollStep p e = some p') p es p') (hf : Founded false p.dev)
    (ho : Orderly p'.dev.trace) :
    Steps (Guarded OnTime fun p e p' => pollStep p e = some p') p es p' := by
  induction h with
  | nil p => exact .nil p
  | cons hstep hrest ih =>
    have htime := pollStep_onTime hf hstep (ho.suffix (steps_extends hrest))
    exact .cons ⟨htime, hstep⟩ (ih (pollStep_founded hf htime hstep) ho)

theorem steps_founded {es : List PollEvent} {p p' : Polled}
    (h : Steps (Guarded OnTime fun p e p' => pollStep p e = some p') p es p')
    (hf : Founded false p.dev) : Founded false p'.dev := by
  induction h with
  | nil p => exact hf
  | cons hstep _ ih => exact ih (pollStep_founded hf hstep.1 hstep.2)

/-- A run is in order exactly if each delivery finds the room that the keyboard was told
about: no byte is replaced before it has been acknowledged, none but those written to DATA
enter in loopback, and no pulse is sent unless RX_READY or IRQ_EN goes from 0 to 1. -/
theorem orderly_iff_on_time {es : List PollEvent} {p : Polled}
    (h : Steps (fun p e p' => pollStep p e = some p') {} es p) :
    (never replaces p.dev.trace = true ∧ never intrudes p.dev.trace = true ∧
      never unfounded p.dev.trace = true) ↔
    Steps (Guarded OnTime fun p e p' => pollStep p e = some p') {} es p := by
  have hinit : Founded false ({} : Polled).dev := ⟨⟨rfl, rfl⟩, ⟨rfl, rfl, rfl⟩, nofun⟩
  constructor
  · rintro ⟨hkept, hapart, hfounded⟩
    exact steps_onTime h hinit ⟨hkept, hapart, hfounded⟩
  · intro hguarded
    have ho := (steps_founded hguarded hinit).orderly
    exact ⟨ho.kept, ho.apart, ho.founded⟩

/-- The guest only turns IRQ_EN on before the byte comes. -/
def irqEnMeanwhile : List PollEvent :=
  [.ask, .io (.write lddIoCtrl 1 1 []), .deliver 65, .io (.write lddIoStatus 1 1 [])]

theorem orderly_iff_on_time_irqEn : ∃ p, exec pollStep {} irqEnMeanwhile = some p ∧
    never unfounded p.dev.trace = true ∧ pulses p.dev.trace = 1 := by
  obtain ⟨p, hrun, htime, hone⟩ : ∃ p, exec pollStep {} irqEnMeanwhile = some p ∧
      exec (fun p e => if OnTime p e then pollStep p e else none) {} irqEnMeanwhile = some p ∧
      pulses p.dev.trace = 1 := ⟨_, rfl, rfl, by decide⟩
  exact ⟨p, hrun, ((orderly_iff_on_time (exec_steps hrun)).mpr (exec_guarded_steps htime)).2.2,
    hone⟩

end LinuxDeviceDriver.Qemu.Io.Keyboard
