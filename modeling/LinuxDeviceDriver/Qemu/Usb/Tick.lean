/- source: tools/qemu/hw/ldd/usb.c, lines 127 to 153 and 166 to 222
   digest: Each report of ldd-usb is that of a tick of its own, with the interval the timer
     ran on. -/

import LinuxDeviceDriver.Qemu.Usb.Device

set_option autoImplicit false

namespace LinuxDeviceDriver.Qemu.Usb.Tick

open Lib.LittleEndian (Byte leNat)
open Lib.Transition (Steps exec exec_steps)
open Device

/-! ## What the host sees -/

def isReport (p : USBPacket) : Bool :=
  decide (p.pid = .tokenIn ∧ p.ep = lddUsbEpTick ∧ p.status = .success)

def acceptsInterval (p : USBPacket) : Bool :=
  decide (p.pid = .tokenOut ∧ p.ep = lddUsbEpInterval ∧ p.status = .success)

namespace Sight

def isTick : Sight → Bool
  | .tick _ => true
  | _ => false

def reports : Sight → Bool
  | .packet p => isReport p
  | _ => false

/-- A report, an accepted interval or a reset: a tick before it is not reported after it. -/
def settles : Sight → Bool
  | .tick _ => false
  | .reset => true
  | .packet p => isReport p || acceptsInterval p

end Sight

/-- What has been seen since the last report, accepted interval or reset. -/
def fresh (seen : List Sight) : List Sight := seen.takeWhile fun o => !Sight.settles o

/-- The timer was set to run for this interval. -/
def RunsOn (t : QEMUTimer) (interval : BitVec 32) : Prop :=
  t.expire - t.armed = interval.toNat * 1000

instance (t : QEMUTimer) (interval : BitVec 32) : Decidable (RunsOn t interval) :=
  inferInstanceAs (Decidable (_ = _))

/-- A report has a tick that is still fresh, and the interval that such ticks ran on. -/
structure Founded (before : List Sight) (p : USBPacket) : Prop where
  ticked : ∃ t, .tick t ∈ fresh before
  interval : ∃ interval, p.answer = (tickReport interval).take p.iov.length ∧
    ∀ t, .tick t ∈ fresh before → RunsOn t interval

section Fresh

variable {seen before after : List Sight} {o : Sight}

theorem fresh_settled (h : Sight.settles o = true) : fresh (o :: seen) = [] := by
  rw [fresh, List.takeWhile_cons, h]
  rfl

theorem fresh_cons (h : Sight.settles o = false) : fresh (o :: seen) = o :: fresh seen := by
  rw [fresh, List.takeWhile_cons, h]
  rfl

theorem mem_of_fresh (hsettled : Sight.settles o = true) {x : Sight}
    (hx : x ∈ fresh (after ++ o :: before)) : x ∈ after := by
  induction after with
  | nil =>
    rw [List.nil_append, fresh_settled hsettled] at hx
    cases hx
  | cons a after ih =>
    cases ha : Sight.settles a with
    | true =>
      rw [List.cons_append, fresh_settled ha] at hx
      cases hx
    | false =>
      rw [List.cons_append, fresh_cons ha] at hx
      rcases List.mem_cons.mp hx with rfl | hx
      · exact List.mem_cons_self
      · exact List.mem_cons_of_mem a (ih hx)

end Fresh

section Packets

variable {p : USBPacket} {bytes : List Byte}

theorem answer_fill (hnew : p.actualLength = 0) : (p.fill bytes).answer = bytes := by
  simp [USBPacket.fill, USBPacket.answer, hnew]

theorem length_fill (hnew : p.actualLength = 0) (hfits : bytes.length ≤ p.iov.length) :
    (p.fill bytes).iov.length = p.iov.length := by
  simp only [USBPacket.fill, hnew, List.take_zero, List.nil_append, Nat.zero_add,
    List.length_append, List.length_drop]
  omega

theorem answer_report (hnew : p.actualLength = 0) (interval : BitVec 32) :
    (p.fill ((tickReport interval).take (min 8 p.iov.length))).answer =
      (tickReport interval).take
        (p.fill ((tickReport interval).take (min 8 p.iov.length))).iov.length := by
  have hlen : (tickReport interval).length = 8 := rfl
  rw [answer_fill hnew, length_fill hnew]
  · rw [List.take_eq_take_iff, hlen]
    omega
  · rw [List.length_take]
    omega

theorem handleControl_pid (s : LDDUSBState) (ret : Int) :
    (lddUsbHandleControl s p ret).2.pid = p.pid := by
  unfold lddUsbHandleControl
  dsimp only
  split <;> rfl

theorem packet_quiet (hreport : isReport p = false) (haccepts : acceptsInterval p = false) :
    Sight.settles (.packet p) = false := by
  rw [Sight.settles, hreport, haccepts]
  rfl

theorem refused_quiet {status : UsbRet} (h : status ≠ .success) :
    isReport (p.refuse status) = false ∧ acceptsInterval (p.refuse status) = false :=
  ⟨decide_eq_false fun hp => h hp.2.2, decide_eq_false fun hp => h hp.2.2⟩

end Packets

/-! ## The invariant -/

structure Inv (r : UsbRun) : Prop where
  armed : ∀ t, r.dev.timer = some t → RunsOn t r.dev.interval
  ran : ∀ t, .tick t ∈ fresh r.seen → RunsOn t r.dev.interval
  pending : r.dev.tickPending = true ↔ ∃ t, .tick t ∈ fresh r.seen
  founded : ∀ p before after, r.seen = after ++ .packet p :: before → isReport p = true →
    Founded before p
  fewer : r.seen.countP Sight.reports + r.dev.tickPending.toNat ≤ r.seen.countP Sight.isTick

namespace Inv

variable {r r' : UsbRun} {s' : LDDUSBState} {p : USBPacket} {clock : HostClock}

theorem realize (defaultInterval : BitVec 32) : Inv (lddUsbRealize defaultInterval) where
  armed := by simp [lddUsbRealize]
  ran := by simp [lddUsbRealize, fresh]
  pending := by simp [lddUsbRealize, fresh]
  founded := by simp [lddUsbRealize]
  fewer := by simp [lddUsbRealize]

theorem runsOn_armTimer (s : LDDUSBState) (clock : HostClock) (t : QEMUTimer)
    (ht : (lddUsbArmTimer s clock).timer = some t) :
    RunsOn t (lddUsbArmTimer s clock).interval := by
  obtain rfl := Option.some.inj ht
  show clock.now + s.interval.toNat * 1000 - clock.now = s.interval.toNat * 1000
  omega

/-- What is seen and is no report adds no report to answer for. -/
theorem founded_cons (hr : Inv r) {o : Sight} (ho : Sight.reports o = false) (p : USBPacket)
    (before after : List Sight) (hsplit : o :: r.seen = after ++ .packet p :: before)
    (hp : isReport p = true) : Founded before p := by
  cases after with
  | nil =>
    obtain ⟨rfl, -⟩ := List.cons.inj hsplit
    rw [Sight.reports, hp] at ho
    cases ho
  | cons a after => exact hr.founded p before after (List.cons.inj hsplit).2 hp

/-- The device drops what was pending and starts its timer anew: an accepted interval or a
reset. -/
theorem restart (hr : Inv r) {o : Sight} (hsettles : Sight.settles o = true)
    (hreports : Sight.reports o = false)
    (harmed : ∀ t, s'.timer = some t → RunsOn t s'.interval) (hdropped : s'.tickPending = false) :
    Inv ⟨s', o :: r.seen⟩ where
  armed := harmed
  ran := by
    intro t ht
    rw [fresh_settled hsettles] at ht
    cases ht
  pending := by
    rw [fresh_settled hsettles, hdropped]
    simp
  founded := hr.founded_cons hreports
  fewer := by
    have hle := hr.fewer
    rw [List.countP_cons, List.countP_cons, hreports, hdropped]
    simp only [Bool.false_eq_true, if_false, Bool.toNat_false]
    omega

/-- A packet that changes nothing, and neither reports nor sets the interval. -/
theorem quiet (hr : Inv r) (hreport : isReport p = false) (haccepts : acceptsInterval p = false) :
    Inv ⟨r.dev, .packet p :: r.seen⟩ := by
  have hfresh : fresh (.packet p :: r.seen) = .packet p :: fresh r.seen :=
    fresh_cons (packet_quiet hreport haccepts)
  refine ⟨hr.armed, ?_, ?_, hr.founded_cons hreport, ?_⟩
  · intro t ht
    rw [hfresh] at ht
    exact hr.ran t (by simpa using ht)
  · rw [hfresh, hr.pending]
    simp
  · have hle := hr.fewer
    rw [List.countP_cons, List.countP_cons, Sight.reports, hreport]
    simpa [Sight.isTick] using hle

theorem tick (hr : Inv r) {t : QEMUTimer} (ht : r.dev.timer = some t) :
    Inv ⟨lddUsbTick { r.dev with timer := none } clock, .tick t :: r.seen⟩ := by
  have hfresh : fresh (.tick t :: r.seen) = .tick t :: fresh r.seen := fresh_cons rfl
  refine ⟨runsOn_armTimer _ _, ?_, ?_, hr.founded_cons rfl, ?_⟩
  · intro u hu
    rw [hfresh] at hu
    rcases List.mem_cons.mp hu with hu | hu
    · obtain rfl := Sight.tick.inj hu
      exact hr.armed u ht
    · exact hr.ran u hu
  · rw [hfresh]
    exact ⟨fun _ => ⟨t, List.mem_cons_self⟩, fun _ => rfl⟩
  · have hle := hr.fewer
    rw [List.countP_cons, List.countP_cons]
    show r.seen.countP Sight.reports + 0 + 1 ≤ r.seen.countP Sight.isTick + 1
    omega

theorem report (hr : Inv r) (hnew : p.actualLength = 0)
    (hreports : isReport (p.fill ((tickReport r.dev.interval).take (min 8 p.iov.length))) = true)
    (hpending : r.dev.tickPending = true) :
    Inv ⟨{ r.dev with tickPending := false },
      .packet (p.fill ((tickReport r.dev.interval).take (min 8 p.iov.length))) :: r.seen⟩ := by
  have hsettles : Sight.settles
      (.packet (p.fill ((tickReport r.dev.interval).take (min 8 p.iov.length)))) = true := by
    rw [Sight.settles, hreports]
    rfl
  refine ⟨hr.armed, ?_, ?_, ?_, ?_⟩
  · intro t ht
    rw [fresh_settled hsettles] at ht
    cases ht
  · rw [fresh_settled hsettles]
    simp
  · intro q before after hsplit hq
    cases after with
    | nil =>
      -- the new report: the tick that made it pending is still fresh
      obtain ⟨hpacket, rfl⟩ := List.cons.inj hsplit
      obtain rfl := Sight.packet.inj hpacket
      exact ⟨hr.pending.mp hpending, r.dev.interval, answer_report hnew _, hr.ran⟩
    | cons a after => exact hr.founded q before after (List.cons.inj hsplit).2 hq
  · have hle := hr.fewer
    rw [hpending] at hle
    rw [List.countP_cons, List.countP_cons, Sight.reports, hreports]
    simpa [Sight.isTick] using hle

theorem packet (hr : Inv r) (hnew : p.actualLength = 0) (hstatus : p.status = .success)
    {out : LDDUSBState × USBPacket} (h : Answered r.dev p clock out) : Inv (r.after out) := by
  cases h with
  | refused status hrefused =>
    obtain ⟨hreport, haccepts⟩ := refused_quiet (p := p) hrefused
    exact hr.quiet hreport haccepts
  | interval hpid hep hlen =>
    have hreport : isReport (p.drain 4).2 = false :=
      decide_eq_false fun h => by simp [USBPacket.drain, hpid] at h
    have haccepts : acceptsInterval (p.drain 4).2 = true :=
      decide_eq_true ⟨hpid, hep, hstatus⟩
    refine hr.restart ?_ hreport (runsOn_armTimer _ _) rfl
    rw [Sight.settles, haccepts, Bool.or_true]
  | time hpid hep =>
    refine hr.quiet (decide_eq_false fun h => ?_) (decide_eq_false fun h => ?_)
    · simp [USBPacket.fill, hep, lddUsbEpTime, lddUsbEpTick] at h
    · simp [USBPacket.fill, hpid] at h
  | report hpid hep hpending =>
    exact hr.report hnew (decide_eq_true ⟨hpid, hep, hstatus⟩) hpending

theorem step {e : UsbEvent × HostClock} (hr : Inv r) (h : usbStep r e = some r') : Inv r' := by
  obtain ⟨e, clock⟩ := e
  cases e with
  | tick =>
    obtain ⟨t, ht, h⟩ := Option.bind_eq_some_iff.mp h
    obtain ⟨-, h⟩ := Option.ite_none_right_eq_some.mp h
    obtain rfl := Option.some.inj h
    exact hr.tick ht
  | reset =>
    obtain rfl := Option.some.inj h
    exact hr.restart rfl rfl (runsOn_armTimer _ _) rfl
  | data pid ep iov =>
    obtain rfl := Option.some.inj h
    exact hr.packet rfl rfl handleData_answered
  | control iov ret =>
    obtain rfl := Option.some.inj h
    refine hr.quiet (decide_eq_false ?_) (decide_eq_false ?_)
    · rintro ⟨hpid, -⟩
      rw [handleControl_pid] at hpid
      cases hpid
    · rintro ⟨hpid, -⟩
      rw [handleControl_pid] at hpid
      cases hpid

end Inv

theorem inv_steps {defaultInterval : BitVec 32} {ls : List (UsbEvent × HostClock)} {r : UsbRun}
    (h : Steps (fun r e r' => usbStep r e = some r') (lddUsbRealize defaultInterval) ls r) :
    Inv r :=
  h.invariant (fun _ _ _ hr hs => hr.step hs) (Inv.realize defaultInterval)

/-- A packet that is refused leaves the device as it was. -/
theorem handleData_refused {s : LDDUSBState} {p : USBPacket} {clock : HostClock}
    (hnew : p.status = .success) (h : (lddUsbHandleData s p clock).2.status ≠ .success) :
    (lddUsbHandleData s p clock).1 = s := by
  have hans : Answered s p clock (lddUsbHandleData s p clock) := handleData_answered
  generalize lddUsbHandleData s p clock = out at hans h
  cases hans with
  | refused => rfl
  | interval => exact absurd hnew h
  | time => rfl
  | report => exact absurd hnew h

/-- Over every run: a report is answered only with a fresh tick and names the interval that the
timer ran on; two reports have a tick between them, so there are no more reports than ticks; and
what is refused changes nothing. -/
theorem reports_own_tick (defaultInterval : BitVec 32) (ls : List (UsbEvent × HostClock))
    (r : UsbRun)
    (h : Steps (fun r e r' => usbStep r e = some r') (lddUsbRealize defaultInterval) ls r) :
    (∀ p before after, r.seen = after ++ .packet p :: before → isReport p = true →
      Founded before p) ∧
    (∀ p q before between after,
      r.seen = after ++ .packet q :: (between ++ .packet p :: before) →
      isReport p = true → isReport q = true → ∃ t, .tick t ∈ between) ∧
    r.seen.countP Sight.reports ≤ r.seen.countP Sight.isTick ∧
    (∀ pid ep iov clock,
      (lddUsbHandleData r.dev ⟨pid, ep, iov, .success, 0⟩ clock).2.status ≠ .success →
      (lddUsbHandleData r.dev ⟨pid, ep, iov, .success, 0⟩ clock).1 = r.dev) ∧
    ∀ iov ret, (lddUsbHandleControl r.dev ⟨.setup, 0, iov, .success, 0⟩ ret).1 = r.dev := by
  have hr := inv_steps h
  refine ⟨?_, ?_, ?_, ?_, ?_⟩
  · exact hr.founded
  · intro p q before between after hsplit hp hq
    obtain ⟨t, ht⟩ := (hr.founded q _ after hsplit hq).ticked
    have hsettles : Sight.settles (.packet p) = true := by
      rw [Sight.settles, hp]
      rfl
    exact ⟨t, mem_of_fresh hsettles ht⟩
  · exact (Nat.le_add_right _ _).trans hr.fewer
  · intro pid ep iov clock
    exact handleData_refused rfl
  · intro iov ret
    rfl

/-- The device is reset and ticks twice, is polled twice, set to five seconds by a host that
polls again too early, and polled for the tick after that. -/
def polled : List (UsbEvent × HostClock) :=
  [(.reset, 0), (.tick, 1000), (.tick, 2000), (.data .tokenIn 3 (List.replicate 8 0), 2001),
    (.data .tokenIn 3 (List.replicate 8 0), 2002), (.tick, 3000),
    (.data .tokenOut 2 [5, 0, 0, 0], 3001), (.data .tokenIn 3 (List.replicate 8 0), 3002),
    (.tick, 8001), (.data .tokenIn 3 (List.replicate 6 0), 8002)].map fun e =>
      (e.1, ⟨e.2, Vector.replicate lddUsbTimeLen 0⟩)

theorem reports_own_tick_polled :
    ∃ r, exec usbStep (lddUsbRealize 1) polled = some r ∧
      (r.seen.countP Sight.reports = 2 ∧ r.seen.countP Sight.isTick = 4) ∧
      r.seen.countP Sight.reports ≤ r.seen.countP Sight.isTick := by
  obtain ⟨r, hrun, hcounts⟩ : ∃ r, exec usbStep (lddUsbRealize 1) polled = some r ∧
      r.seen.countP Sight.reports = 2 ∧ r.seen.countP Sight.isTick = 4 :=
    ⟨_, rfl, by decide, by decide⟩
  exact ⟨r, hrun, hcounts, (reports_own_tick 1 polled r (exec_steps hrun)).2.2.1⟩

end LinuxDeviceDriver.Qemu.Usb.Tick
