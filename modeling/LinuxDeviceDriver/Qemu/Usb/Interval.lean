/- source: tools/qemu/hw/ldd/usb.c, lines 127 to 153, 167 to 180 and 224 to 243
   digest: The interval of ldd-usb is within its limits, and its timer always ahead of the clock,
     when the property is; realize does not check it. -/

import LinuxDeviceDriver.Qemu.Usb.Tick

set_option autoImplicit false

namespace LinuxDeviceDriver.Qemu.Usb.Interval

open Lib.LittleEndian (leNat)
open Lib.Transition (Steps exec exec_steps)
open Device Tick

/-- From 1 to LDD_USB_INTERVAL_MAX seconds. -/
def InLimits (interval : BitVec 32) : Prop :=
  1 ≤ interval.toNat ∧ interval.toNat ≤ lddUsbIntervalMax

/-- What the clamping of written intervals is for, once the device has been reset: the interval
is within its limits, the timer is set for a time after the one it was set at, and a tick is not
followed by another one at the same reading of the clock. -/
structure Paced (r : UsbRun) : Prop where
  limits : .reset ∈ r.seen → InLimits r.dev.interval
  ahead : .reset ∈ r.seen → ∀ t, r.dev.timer = some t → t.armed < t.expire
  once : .reset ∈ r.seen → ∀ clock r', usbStep r (.tick, clock) = some r' →
    ∀ clock', clock'.now = clock.now → usbStep r' (.tick, clock') = none

/-- Whatever is written, the interval is within its limits. -/
theorem clampInterval_inLimits (seconds : Nat) : InLimits (clampInterval seconds) := by
  unfold InLimits clampInterval lddUsbIntervalMax
  rw [BitVec.toNat_ofNat]
  omega

/-- The interval a device runs on: its property's or a written one, or none as long as it has
neither been reset nor written to. -/
structure InForce (defaultInterval : BitVec 32) (r : UsbRun) : Prop where
  property : r.dev.defaultInterval = defaultInterval
  limits : .reset ∈ r.seen ∨ r.dev.timer ≠ none → InLimits r.dev.interval

namespace InForce

variable {defaultInterval : BitVec 32} {r r' : UsbRun} {clock : HostClock}

theorem realize (defaultInterval : BitVec 32) :
    InForce defaultInterval (lddUsbRealize defaultInterval) := by
  refine ⟨rfl, ?_⟩
  rintro (hreset | htimer)
  · cases hreset
  · exact absurd rfl htimer

/-- An event that keeps the interval, where the timer already ran if it runs after it. -/
theorem kept (hr : InForce defaultInterval r) {s' : LDDUSBState} {o : Sight} (ho : o ≠ .reset)
    (hproperty : s'.defaultInterval = r.dev.defaultInterval)
    (hinterval : s'.interval = r.dev.interval) (htimer : s'.timer ≠ none → r.dev.timer ≠ none) :
    InForce defaultInterval ⟨s', o :: r.seen⟩ := by
  refine ⟨hproperty.trans hr.property, ?_⟩
  intro h
  rw [hinterval]
  apply hr.limits
  rcases h with hreset | hruns
  · rcases List.mem_cons.mp hreset with h | h
    · exact absurd h.symm ho
    · exact .inl h
  · exact .inr (htimer hruns)

theorem packet (hr : InForce defaultInterval r) {p : USBPacket} {out : LDDUSBState × USBPacket}
    (h : Answered r.dev p clock out) : InForce defaultInterval (r.after out) := by
  cases h with
  | refused | time | report => exact hr.kept (by simp) rfl rfl id
  | interval => exact ⟨hr.property, fun _ => clampInterval_inLimits _⟩

theorem step (hd : InLimits defaultInterval) {e : UsbEvent × HostClock}
    (hr : InForce defaultInterval r) (h : usbStep r e = some r') : InForce defaultInterval r' := by
  obtain ⟨e, clock⟩ := e
  cases e with
  | tick =>
    obtain ⟨t, ht, h⟩ := Option.bind_eq_some_iff.mp h
    obtain ⟨-, h⟩ := Option.ite_none_right_eq_some.mp h
    obtain rfl := Option.some.inj h
    refine hr.kept (by simp) rfl rfl fun _ => ?_
    rw [ht]
    simp
  | reset =>
    obtain rfl := Option.some.inj h
    refine ⟨hr.property, fun _ => ?_⟩
    change InLimits r.dev.defaultInterval
    rw [hr.property]
    exact hd
  | data pid ep iov =>
    obtain rfl := Option.some.inj h
    exact hr.packet handleData_answered
  | control iov ret =>
    obtain rfl := Option.some.inj h
    exact hr.kept (by simp) rfl rfl id

end InForce

/-- The timer that a tick sets, and when it goes off. -/
theorem tick_rearms {r r' : UsbRun} {clock : HostClock}
    (h : usbStep r (.tick, clock) = some r') :
    r'.dev.timer = some ⟨clock.now, clock.now + r.dev.interval.toNat * 1000⟩ := by
  obtain ⟨t, -, h⟩ := Option.bind_eq_some_iff.mp h
  obtain ⟨-, h⟩ := Option.ite_none_right_eq_some.mp h
  obtain rfl := Option.some.inj h
  rfl

theorem tick_too_early {r : UsbRun} {t : QEMUTimer} {clock : HostClock}
    (ht : r.dev.timer = some t) (hlate : clock.now < t.expire) :
    usbStep r (.tick, clock) = none := by
  unfold usbStep
  dsimp only
  rw [ht, Option.bind_some, if_neg (by omega)]

/-- With a property within the limits, the device is paced in every run. -/
theorem interval_paced (defaultInterval : BitVec 32) (hd : InLimits defaultInterval)
    (ls : List (UsbEvent × HostClock)) (r : UsbRun)
    (h : Steps (fun r e r' => usbStep r e = some r') (lddUsbRealize defaultInterval) ls r) :
    Paced r := by
  have hforce : InForce defaultInterval r :=
    h.invariant (fun _ _ _ hr hs => hr.step hd hs) (.realize defaultInterval)
  have hruns := inv_steps h
  refine ⟨fun hreset => hforce.limits (.inl hreset), ?_, ?_⟩
  · intro hreset t ht
    have hlow := (hforce.limits (.inl hreset)).1
    have hon : t.expire - t.armed = r.dev.interval.toNat * 1000 := hruns.armed t ht
    omega
  · intro hreset clock r' htick clock' hsame
    have hlow := (hforce.limits (.inl hreset)).1
    refine tick_too_early (tick_rearms htick) ?_
    show clock'.now < clock.now + r.dev.interval.toNat * 1000
    omega

/-- The run of Tick.polled, on a device with the default property. -/
theorem interval_paced_polled :
    ∃ r, exec usbStep (lddUsbRealize 1) polled = some r ∧ .reset ∈ r.seen ∧
      r.dev.interval = 5 ∧ Paced r := by
  obtain ⟨r, hrun, hreset, hinterval⟩ : ∃ r, exec usbStep (lddUsbRealize 1) polled = some r ∧
      .reset ∈ r.seen ∧ r.dev.interval = 5 := ⟨_, rfl, by decide, by decide⟩
  exact ⟨r, hrun, hreset, hinterval,
    interval_paced 1 ⟨by decide, by decide⟩ polled r (exec_steps hrun)⟩

/-! ## A property of 0 -/

section Zero

variable {r : UsbRun} {clock : HostClock}

/-- With no interval, a tick leaves the timer due at the reading it came at. -/
theorem tick_due (hzero : r.dev.interval = 0) (hdue : r.dev.timer = some ⟨clock.now, clock.now⟩) :
    ∃ r', usbStep r (.tick, clock) = some r' ∧ r'.dev.interval = 0 ∧
      r'.dev.timer = some ⟨clock.now, clock.now⟩ := by
  have hstep : usbStep r (.tick, clock) =
      some ⟨lddUsbTick { r.dev with timer := none } clock,
        .tick ⟨clock.now, clock.now⟩ :: r.seen⟩ := by
    unfold usbStep
    dsimp only
    rw [hdue, Option.bind_some, if_pos (le_refl _)]
  refine ⟨_, hstep, hzero, ?_⟩
  rw [tick_rearms hstep, hzero]
  simp

theorem ticks_due (n : Nat) (hzero : r.dev.interval = 0)
    (hdue : r.dev.timer = some ⟨clock.now, clock.now⟩) :
    ∃ r', exec usbStep r (List.replicate n (.tick, clock)) = some r' ∧ r'.dev.interval = 0 := by
  induction n generalizing r with
  | zero => exact ⟨r, rfl, hzero⟩
  | succ n ih =>
    obtain ⟨r₁, hstep, hzero₁, hdue₁⟩ := tick_due hzero hdue
    obtain ⟨r', hrest, hzero'⟩ := ih hzero₁ hdue₁
    refine ⟨r', ?_, hzero'⟩
    rw [List.replicate_succ, exec, hstep, Option.bind_some, hrest]

end Zero

/-- A device with the property 0 is reset; its timer then fires as often as one likes, at one
reading of the clock. -/
theorem zero_property_not_paced :
    ∃ clock : HostClock,
      (∃ r, exec usbStep (lddUsbRealize 0) [(.reset, clock)] = some r ∧ ¬ Paced r) ∧
      ∀ n, ∃ r, exec usbStep (lddUsbRealize 0)
        ((.reset, clock) :: List.replicate n (.tick, clock)) = some r ∧ r.dev.interval = 0 := by
  refine ⟨⟨0, Vector.replicate lddUsbTimeLen 0⟩, ⟨_, rfl, ?_⟩, ?_⟩
  · intro hpaced
    exact absurd (hpaced.limits List.mem_cons_self).1 (by decide)
  · intro n
    exact ticks_due n rfl rfl

end LinuxDeviceDriver.Qemu.Usb.Interval
