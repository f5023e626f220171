/- source: examples/30_netdev/main.c, lines 83 to 110 and 204 to 359
   digest: What one device's receive side does with NAPI, without its frames: the flags, and
     what the threads have left to do about them. No wake-up is lost. -/

import LinuxDeviceDriver.Drivers.Netdev.Model

set_option autoImplicit false

namespace LinuxDeviceDriver.Drivers.Netdev.NapiLine

open Model

/-- What a thread has left to do about one device: call ldd_interrupt for a frame, turn
receive interrupts off, call napi_schedule, go on polling, complete the poll, look at the
queue once more; and the steps of ldd_open and of ldd_stop. -/
inductive Job
  | raise | intOff | schedule | poll | complete | look
  | enable | «open» | start
  | stop | disable | disableWait | drain
  deriving DecidableEq, Repr

/-- The receive side of a device. -/
structure Line where
  link : Link
  running : Bool
  intEnabled : Bool
  /-- NETDEV_RX_INTR is set. -/
  bit : Bool
  /-- The receive queue is not empty. -/
  waiting : Bool
  napi : NapiStruct
  jobs : Multiset Job

/-- What can happen to it. -/
inductive Turn : Line → Line → Prop
  | stay (l : Line) : Turn l l
  -- a frame arrives
  | queue (l : Line) (hrun : l.running = true) (hint : l.intEnabled = true) :
      Turn l { l with waiting := true, bit := true, jobs := .raise ::ₘ l.jobs }
  | queueQuiet (l : Line) (hrun : l.running = true) (hint : l.intEnabled = false) :
      Turn l { l with waiting := true }
  -- an interrupt handler, for a frame or for a transmission
  | ack (l : Line) (jobs : Multiset Job) (h : l.jobs = .raise ::ₘ jobs ∨ l.jobs = jobs)
      (hbit : l.bit = true) : Turn l { l with bit := false, jobs := .intOff ::ₘ jobs }
  | ackNone (l : Line) (jobs : Multiset Job) (h : l.jobs = .raise ::ₘ jobs ∨ l.jobs = jobs)
      (hbit : l.bit = false) : Turn l { l with jobs := jobs }
  | intOff (l : Line) (jobs : Multiset Job) (h : l.jobs = .intOff ::ₘ jobs) :
      Turn l { l with intEnabled := false, jobs := .schedule ::ₘ jobs }
  | schedule (l : Line) (jobs : Multiset Job) (h : l.jobs = .schedule ::ₘ jobs) :
      Turn l { l with napi := napiSchedule l.napi, jobs := jobs }
  -- the poll
  | pollStart (l : Line) (hlisted : l.napi.listed = true) :
      Turn l { l with napi := { l.napi with listed := false }, jobs := .poll ::ₘ l.jobs }
  | pollSpent (l : Line) (jobs : Multiset Job) (h : l.jobs = .poll ::ₘ jobs) :
      Turn l { l with napi := napiRepoll l.napi, jobs := jobs }
  | pollSome (l : Line) (waiting : Bool) (hpoll : .poll ∈ l.jobs) (hwait : l.waiting = true) :
      Turn l { l with waiting := waiting }
  | pollNone (l : Line) (jobs : Multiset Job) (h : l.jobs = .poll ::ₘ jobs)
      (hwait : l.waiting = false) : Turn l { l with jobs := .complete ::ₘ jobs }
  | completeMissed (l : Line) (jobs : Multiset Job) (h : l.jobs = .complete ::ₘ jobs)
      (hmissed : l.napi.missed = true) :
      Turn l { l with napi := { l.napi with missed := false, listed := true }, jobs := jobs }
  | complete (l : Line) (jobs : Multiset Job) (h : l.jobs = .complete ::ₘ jobs)
      (hmissed : l.napi.missed = false) :
      Turn l { l with napi := { l.napi with sched := false }, jobs := .look ::ₘ jobs }
  | lookMore (l : Line) (jobs : Multiset Job) (h : l.jobs = .look ::ₘ jobs)
      (hwait : l.waiting = true) :
      Turn l { l with intEnabled := false, jobs := .schedule ::ₘ jobs }
  | lookNone (l : Line) (jobs : Multiset Job) (h : l.jobs = .look ::ₘ jobs)
      (hwait : l.waiting = false) : Turn l { l with intEnabled := true, jobs := jobs }
  -- ldd_open
  | openCall (l : Line) (hlink : l.link = .down) :
      Turn l { l with link := .changing, jobs := .enable ::ₘ l.jobs }
  | enable (l : Line) (jobs : Multiset Job) (h : l.jobs = .enable ::ₘ jobs) :
      Turn l { l with napi := { l.napi with sched := false }, jobs := .open ::ₘ jobs }
  | «open» (l : Line) (jobs : Multiset Job) (h : l.jobs = .open ::ₘ jobs) :
      Turn l { l with running := true, intEnabled := true, jobs := .start ::ₘ jobs }
  | start (l : Line) (jobs : Multiset Job) (h : l.jobs = .start ::ₘ jobs) :
      Turn l { l with link := .up, jobs := jobs }
  -- ldd_stop
  | stopCall (l : Line) (hlink : l.link = .up) :
      Turn l { l with link := .changing, jobs := .stop ::ₘ l.jobs }
  | stop (l : Line) (jobs : Multiset Job) (h : l.jobs = .stop ::ₘ jobs) :
      Turn l { l with running := false, intEnabled := false, jobs := .disable ::ₘ jobs }
  | disable (l : Line) (jobs : Multiset Job) (h : l.jobs = .disable ::ₘ jobs) :
      Turn l { l with napi := { l.napi with disable := true }, jobs := .disableWait ::ₘ jobs }
  | disabled (l : Line) (jobs : Multiset Job) (h : l.jobs = .disableWait ::ₘ jobs)
      (hsched : l.napi.sched = false) :
      Turn l { l with
        napi := { l.napi with sched := true, disable := false }, jobs := .drain ::ₘ jobs }
  | drainSome (l : Line) (waiting : Bool) (hdrain : .drain ∈ l.jobs) (hwait : l.waiting = true) :
      Turn l { l with waiting := waiting }
  | drainNone (l : Line) (jobs : Multiset Job) (h : l.jobs = .drain ::ₘ jobs)
      (hwait : l.waiting = false) : Turn l { l with link := .down, jobs := jobs }

/-- The poll goes on, or has yet to look at the queue once more. -/
def Line.polling (l : Line) : Nat := l.jobs.count .poll + l.jobs.count .complete

/-- The device is down, up, or in one call of ldd_open or ldd_stop. -/
def Line.phases (l : Line) : Nat :=
  (decide (l.link = .down)).toNat + (decide (l.link = .up)).toNat + l.jobs.count .enable +
    l.jobs.count .open + l.jobs.count .start + l.jobs.count .stop + l.jobs.count .disable +
    l.jobs.count .disableWait + l.jobs.count .drain

/-- The context is disabled. -/
def Line.off (l : Line) : Nat :=
  (decide (l.link = .down)).toNat + l.jobs.count .enable + l.jobs.count .drain

structure LineInv (l : Line) : Prop where
  phase : l.phases = 1
  running : l.running = true → l.link = .up ∨ 0 < l.jobs.count .start + l.jobs.count .stop
  disable : l.napi.disable = true → 0 < l.jobs.count .disableWait
  /-- The context is scheduled for one reason at a time: it is listed, it is polled, or it
  is disabled. -/
  sched : l.napi.sched.toNat = l.napi.listed.toNat + l.polling + l.off
  drained : l.running = false → l.waiting = true →
    0 < l.jobs.count .disable + l.jobs.count .disableWait + l.jobs.count .drain
  bit : l.bit = true → 0 < l.jobs.count .raise
  awake : l.running = true → l.waiting = true ∨ l.intEnabled = false → l.napi.listed = true ∨
    0 < l.polling + l.jobs.count .look ∨ l.bit = true ∨
      0 < l.jobs.count .intOff + l.jobs.count .schedule

/-! ## The flags of a NAPI context -/

section Napi

variable {n : NapiStruct}

@[simp] theorem napiSchedule_disable : (napiSchedule n).disable = n.disable := by
  unfold napiSchedule
  split
  · rfl
  · split <;> rfl

theorem napiSchedule_sched (h : n.disable = false) : (napiSchedule n).sched = true := by
  unfold napiSchedule
  rw [if_neg (by simp [h])]
  split
  · assumption
  · rfl

theorem napiSchedule_listed (h : n.listed.toNat ≤ n.sched.toNat) :
    (napiSchedule n).sched.toNat + n.listed.toNat = n.sched.toNat + (napiSchedule n).listed.toNat := by
  unfold napiSchedule
  split
  · rfl
  · split
    · rfl
    · next hs =>
      have hl : n.listed = false := by
        cases hn : n.listed with
        | false => rfl
        | true => simp [hn, hs] at h
      simp [hs, hl]

@[simp] theorem napiRepoll_disable : (napiRepoll n).disable = n.disable := by
  unfold napiRepoll napiCompleteDone
  split
  · split <;> rfl
  · rfl

/-- A context that was polled is listed again or is not scheduled any more. -/
theorem napiRepoll_listed (hs : n.sched = true) (hl : n.listed = false) :
    (napiRepoll n).sched = (napiRepoll n).listed := by
  unfold napiRepoll napiCompleteDone
  split
  · split
    · exact hs
    · exact hl.symm
  · exact hs

end Napi

/-! ## What a turn keeps -/

section Turn

variable {l l' : Line}

/-- A device that is running is in no call of ldd_open before it, and in no call of
ldd_stop after it, so its context is enabled. -/
theorem LineInv.enabled (hi : LineInv l) (hrun : l.running = true) :
    l.off = 0 ∧ l.napi.disable = false ∧ l.jobs.count .open = 0 ∧
      l.jobs.count .disable + l.jobs.count .disableWait = 0 := by
  have hphase := hi.phase
  have hup : 1 ≤ (decide (l.link = .up)).toNat + l.jobs.count .start + l.jobs.count .stop := by
    rcases hi.running hrun with hup | hjob
    · simp only [hup, decide_true, Bool.toNat_true]
      omega
    · omega
  simp only [Line.phases] at hphase
  refine ⟨by simp only [Line.off]; omega, ?_, by omega, by omega⟩
  by_contra hdis
  have hwait := hi.disable (Bool.not_eq_false _ ▸ hdis)
  omega

/-- While it is polled the context is scheduled, in no list and not disabled. -/
theorem LineInv.polled (hi : LineInv l) (hp : 0 < l.polling) :
    l.polling = 1 ∧ l.napi.sched = true ∧ l.napi.listed = false ∧ l.off = 0 := by
  have hs := hi.sched
  have hle := Bool.toNat_le l.napi.sched
  exact ⟨by omega, Bool.toNat_eq_one.mp (by omega), Bool.toNat_eq_zero.mp (by omega), by omega⟩

private theorem turn_phase (hi : LineInv l) (h : Turn l l') : l'.phases = 1 := by
  have hphase := hi.phase
  simp only [Line.phases] at hphase ⊢
  cases h with
  | ack jobs h | ackNone jobs h => rcases h with h | h <;> simpa [h] using hphase
  | stay => exact hphase
  | _ => simp_all <;> omega

private theorem turn_running (hi : LineInv l) (h : Turn l l') (hr : l'.running = true) :
    l'.link = .up ∨ 0 < l'.jobs.count .start + l'.jobs.count .stop := by
  have hrun := hi.running
  cases h with
  | ack jobs h | ackNone jobs h => rcases h with h | h <;> simpa [h] using hrun hr
  | openCall hlink =>
    have hoff := (hi.enabled hr).1
    simp [Line.off, hlink] at hoff
  | stopCall hlink => simp
  | «open» jobs h => simp
  | start jobs h => simp
  | stop jobs h => cases hr
  | drainNone jobs h =>
    have hoff := (hi.enabled hr).1
    simp [Line.off, h] at hoff
  | _ => simp_all

private theorem turn_disable (hi : LineInv l) (h : Turn l l') (hd : l'.napi.disable = true) :
    0 < l'.jobs.count .disableWait := by
  have hdis := hi.disable
  cases h with
  | ack jobs h | ackNone jobs h => rcases h with h | h <;> simpa [h] using hdis hd
  | schedule jobs h =>
    rw [napiSchedule_disable] at hd
    simpa [h] using hdis hd
  | pollSpent jobs h =>
    rw [napiRepoll_disable] at hd
    simpa [h] using hdis hd
  | disable jobs h => simp
  | disabled jobs h => cases hd
  | _ => simp_all

/-- The reason why the context is scheduled passes from one to the next. -/
private theorem turn_sched (hi : LineInv l) (h : Turn l l') :
    l'.napi.sched.toNat = l'.napi.listed.toNat + l'.polling + l'.off := by
  have hs := hi.sched
  have hle := Bool.toNat_le l.napi.sched
  have hphase := hi.phase
  have hpolled := hi.polled
  simp only [Line.polling, Line.off, Line.phases] at hs hphase hpolled ⊢
  cases h with
  | ack jobs h | ackNone jobs h => rcases h with h | h <;> simpa [h] using hs
  | schedule jobs h =>
    have hsched := napiSchedule_listed (n := l.napi) (by omega)
    simp only [h, Multiset.count_cons, reduceCtorEq, if_false, Nat.add_zero] at hs ⊢
    omega
  | pollStart hlisted =>
    simp only [hlisted, Bool.toNat_true] at hs
    simp only [Multiset.count_cons, reduceCtorEq, if_true, if_false, Bool.toNat_false]
    omega
  | pollSpent jobs h =>
    simp only [h, Multiset.count_cons, reduceCtorEq, if_true, if_false, Nat.add_zero] at hpolled ⊢
    obtain ⟨hone, hsched, hlisted, hoff⟩ := hpolled (by omega)
    rw [napiRepoll_listed hsched hlisted]
    omega
  | completeMissed jobs h hm =>
    simp only [h, Multiset.count_cons, reduceCtorEq, if_true, if_false, Nat.add_zero] at hpolled ⊢
    obtain ⟨hone, hsched, hlisted, hoff⟩ := hpolled (by omega)
    simp only [hsched, Bool.toNat_true]
    omega
  | complete jobs h hm =>
    simp only [h, Multiset.count_cons, reduceCtorEq, if_true, if_false, Nat.add_zero] at hpolled ⊢
    obtain ⟨hone, hsched, hlisted, hoff⟩ := hpolled (by omega)
    simp only [hlisted, Bool.toNat_false]
    omega
  | openCall hlink =>
    simp only [hlink, decide_true, Bool.toNat_true] at hs
    simp only [Multiset.count_cons, reduceCtorEq, if_true, if_false, decide_false, Bool.toNat_false]
    omega
  | enable jobs h =>
    simp only [h, Multiset.count_cons, reduceCtorEq, if_true, if_false] at hs hphase ⊢
    simp only [Bool.toNat_false]
    omega
  | start jobs h =>
    simp only [h, Multiset.count_cons, reduceCtorEq, if_true, if_false] at hs hphase ⊢
    simp only [decide_false, Bool.toNat_false]
    omega
  | stopCall hlink =>
    simp only [hlink, reduceCtorEq, decide_false, Bool.toNat_false] at hs
    simp only [Multiset.count_cons, reduceCtorEq, if_false, decide_false, Bool.toNat_false]
    omega
  | disabled jobs h hsched =>
    simp only [h, hsched, Multiset.count_cons, reduceCtorEq, if_true, if_false, Bool.toNat_false,
      Bool.toNat_true] at hs ⊢
    omega
  | drainNone jobs h hwait =>
    simp only [h, Multiset.count_cons, reduceCtorEq, if_true, if_false] at hs hphase ⊢
    simp only [decide_true, Bool.toNat_true]
    omega
  | pollNone jobs h hwait =>
    simp only [h, Multiset.count_cons, reduceCtorEq, if_true, if_false] at hs ⊢
    omega
  | _ =>
    clear hpolled
    simp_all

private theorem turn_drained (hi : LineInv l) (h : Turn l l') (hr : l'.running = false)
    (hw : l'.waiting = true) :
    0 < l'.jobs.count .disable + l'.jobs.count .disableWait + l'.jobs.count .drain := by
  have hdr := hi.drained
  cases h with
  | ack jobs h | ackNone jobs h => rcases h with h | h <;> simpa [h] using hdr hr hw
  | pollSome waiting hpoll hwait => exact hdr hr hwait
  | drainSome waiting hpoll hwait => exact hdr hr hwait
  | queue hrun =>
    rw [hr] at hrun
    cases hrun
  | queueQuiet hrun =>
    rw [hr] at hrun
    cases hrun
  | stop jobs h => simp
  | disable jobs h => simp
  | disabled jobs h => simp
  | _ => simp_all

private theorem turn_bit (hi : LineInv l) (h : Turn l l') (hb : l'.bit = true) :
    0 < l'.jobs.count .raise := by
  have hbit := hi.bit
  cases h with
  | ack jobs h => cases hb
  | ackNone jobs h hclear => 
    rw [hb] at hclear
    cases hclear
  | queue hrun => simp
  | _ => simp_all

/-- A frame that waits, or interrupts that are off, have someone to see to them. -/
private theorem turn_awake (hi : LineInv l) (h : Turn l l') (hr : l'.running = true)
    (hw : l'.waiting = true ∨ l'.intEnabled = false) :
    l'.napi.listed = true ∨ 0 < l'.polling + l'.jobs.count .look ∨ l'.bit = true ∨
      0 < l'.jobs.count .intOff + l'.jobs.count .schedule := by
  have hawake := hi.awake
  simp only [Line.polling] at hawake ⊢
  cases h with
  | stay => exact hawake hr hw
  | queue => exact .inr (.inr (.inl rfl))
  | queueQuiet _ hint => exact hawake hr (.inr hint)
  | ack => simp
  | ackNone jobs h => rcases h with h | h <;> simpa [h] using hawake hr hw
  | intOff => simp
  | schedule jobs h =>
    -- the context is enabled, so it is scheduled now: listed, or polled
    obtain ⟨hoff, hdis, -⟩ := hi.enabled hr
    have hs := hi.sched
    have hlisted := napiSchedule_listed (n := l.napi) (by omega)
    rw [napiSchedule_sched hdis] at hlisted
    simp only [Line.polling, hoff, h, Multiset.count_cons, reduceCtorEq, if_false, Nat.add_zero,
      Bool.toNat_true] at hs hlisted ⊢
    cases hl : (napiSchedule l.napi).listed with
    | true => exact .inl rfl
    | false =>
      rw [hl, Bool.toNat_false] at hlisted
      exact .inr (.inl (by omega))
  | pollStart => simp
  | pollSpent =>
    left
    simp [napiRepoll, (hi.enabled hr).2.1]
  | pollSome _ hpoll =>
    have hpos := Multiset.count_pos.mpr hpoll
    exact .inr (.inl (Nat.add_pos_left (Nat.add_pos_left hpos _) _))
  | pollNone => simp
  | completeMissed => exact .inl rfl
  | complete => simp
  | lookMore => simp
  | lookNone jobs h hwait => simp [hwait] at hw
  | openCall => simpa using hawake hr hw
  | enable jobs h =>
    have hoff := (hi.enabled hr).1
    simp [Line.off, h] at hoff
  | «open» jobs h =>
    -- the queue was emptied when the device was stopped
    have hwait : l.waiting = true := by simpa using hw
    have hphase := hi.phase
    simp only [Line.phases, h, Multiset.count_cons_self] at hphase
    cases hrun : l.running with
    | true =>
      have hopen := (hi.enabled hrun).2.2.1
      simp [h] at hopen
    | false =>
      have hdrain := hi.drained hrun hwait
      rw [h] at hdrain
      omega
  | start jobs h => simpa [h] using hawake hr hw
  | stopCall => simpa using hawake hr hw
  | stop => cases hr
  | disable jobs h | disabled jobs h =>
    have hoff := (hi.enabled hr).2.2.2
    simp [h] at hoff
  | drainSome _ hdrain hwait => exact hawake hr (.inl hwait)
  | drainNone jobs h => simpa [h] using hawake hr hw

theorem LineInv.turn (hi : LineInv l) (h : Turn l l') : LineInv l' :=
  ⟨turn_phase hi h, turn_running hi h, turn_disable hi h, turn_sched hi h, turn_drained hi h,
    turn_bit hi h, turn_awake hi h⟩

end Turn

end LinuxDeviceDriver.Drivers.Netdev.NapiLine
