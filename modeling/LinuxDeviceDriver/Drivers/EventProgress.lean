/- source: examples/26_msi_interrupt/main.c, lines 31 to 77 and 203 to 285;
     tools/qemu/hw/ldd/pcie.c, lines 120 to 142 and 344 to 355
   digest: Every event that is raised is counted, in every interrupt mode. -/

import LinuxDeviceDriver.Drivers.EventCounts
import LinuxDeviceDriver.Lib.Transition
import LinuxDeviceDriver.Lib.Fairness

set_option autoImplicit false

namespace LinuxDeviceDriver.Drivers.EventProgress

open Lib.Transition
open Lib.Fairness
open Qemu.Pcie
open State Transfer TransferOutcome Registers Interrupts Engine Events CharFile DmaProbe MsiInterrupt
open EventCounts

/-- A probe that succeeds leaves no event set and all of them unmasked. -/
theorem probed_inv {k : MsiKernel} {types : IrqTypes} {m m' : Machine} {nvec : Nat}
    (h : msiProbe k types m = (m', .ok nvec)) (hi : IrqInv m.ps) (hk : Known m.ps)
    (hx : m.ps.pdev.msixEnabled = false) (hm : m.ps.pdev.msiEnabled = false) :
    Inv (probed m' nvec) := by
  obtain ⟨msix, msi, rfl, -, rfl⟩ := msiProbe_ok h
  have hvec : IrqInv (setVectors (pciSetMaster m) msix msi).ps :=
    ⟨hi.shadow, hi.reserved, fun _ _ => hi.line hx hm⟩
  have hzero : ∀ n, event (probed (opened (setVectors (pciSetMaster m) msix msi))
      (if msix = true then lddNrEvents else 1)) n = false :=
    fun n => opened_intStatus hk n
  refine ⟨opened_unmasked hvec hk, ?_, fun _ => le_refl _, fun _ _ => rfl, fun _ _ => .inl rfl,
    ?_, fun _ _ => Nat.le_add_right _ _, ?_, ?_⟩
  · exact congrArg (fun b : Bool => if b = true then lddNrEvents else 1)
      (opened_mode (setVectors (pciSetMaster m) msix msi)).1.symm
  · intro v status hh
    cases hh
  · intro n he
    rw [hzero] at he
    cases he
  · intro n
    rw [hzero]
    exact le_refl 0

/-! ## Progress -/

/-- The vector whose handler an event is about. -/
def vectorOf : Event → Option Nat
  | .device _ => none
  | .message v _ | .handler v => some v
  | .line | .shared => some 0

/-- The kernel runs the handler of a vector that is due one. -/
def interrupting (v : Nat) : Action Sys Event where
  enabled s := s.handler v = .idle ∧ v < s.nvec ∧ Due s v
  taken l := (∃ k, l = .message v k) ∨ (v = 0 ∧ l = .line)

/-- A handler that runs goes on. -/
def handling (v : Nat) : Action Sys Event where
  enabled s := s.handler v ≠ .idle
  taken l := l = .handler v

/-- What is assumed of the kernel. -/
structure Fair (r : Run Step) : Prop where
  interrupts : ∀ v, r.WeakFair (interrupting v)
  handlers : ∀ v, r.WeakFair (handling v)

/-- The action that event n waits for on vector v. -/
def helpful (v : Nat) (s : Sys) : Action Sys Event :=
  if s.handler v = .idle then interrupting v else handling v

theorem helpful_taken {v : Nat} {s : Sys} {l : Event} (h : (helpful v s).taken l) :
    vectorOf l = some v := by
  unfold helpful at h
  split at h
  · rcases h with ⟨k, rfl⟩ | ⟨rfl, rfl⟩ <;> rfl
  · have hl : l = .handler v := h
    rw [hl]
    rfl

theorem step_nvec {s s' : Sys} {l : Event} (hi : Inv s) (h : Step s l s') : s'.nvec = s.nvec := by
  cases step_move hi.unmasked h with
  | device | message | line | shared => rfl
  | handler v _ move =>
    cases move with
    | read _ after | clear _ _ after | count _ _ after =>
      subst after
      rfl

theorem step_handler {s s' : Sys} {l : Event} {v : Nat} (hi : Inv s) (h : Step s l s')
    (hl : vectorOf l ≠ some v) : s'.handler v = s.handler v := by
  have hne : ∀ w, vectorOf l = some w → v ≠ w := by
    rintro w hw rfl
    exact hl hw
  cases step_move hi.unmasked h with
  | device => rfl
  | message w | line | shared => exact Function.update_of_ne (hne _ rfl) _ _
  | handler w _ move =>
    cases move with
    | read _ after | clear _ _ after | count _ _ after =>
      rw [after]
      exact Function.update_of_ne (hne _ rfl) _ _

/-- Only the handler of its vector clears an event, and holds it then. -/
theorem step_event {s s' : Sys} {l : Event} {n : Nat} (hi : Inv s) (h : Step s l s')
    (he : event s n = true) : event s' n = true ∨
      (event s' n = false ∧ l = .handler (vec s n) ∧
        ∃ status, s.handler (vec s n) = .clear status ∧ s'.handler (vec s n) = .count status ∧
          status.getLsbD n = true) := by
  cases step_move hi.unmasked h with
  | device e ha =>
    obtain ⟨hr, -, hc⟩ := allowed_spec ha
    refine .inl ?_
    rw [device_event hr n, hc, he]
    simp
  | message | line | shared => exact .inl he
  | handler v _ move =>
    cases move with
    | read _ after | count _ _ after =>
      rw [after]
      exact .inl he
    | clear status hh after =>
      have hev : event s' n = (event s n && !status.getLsbD n) := by
        rw [after]
        exact clear_event status n
      cases hst : status.getLsbD n with
      | false => exact .inl (by rw [hev, he, hst]; rfl)
      | true =>
        have hv : v = vec s n := by
          by_contra hv
          have ht := (hi.elsewhere hv).1
          rw [hh, takes, hst] at ht
          cases ht
        subst hv
        refine .inr ⟨by rw [hev, hst, Bool.not_true, Bool.and_false], rfl, status, hh, ?_, hst⟩
        rw [after]
        exact Function.update_self _ _ _

/-- How far the handler is from clearing event n. -/
def distance (n : Nat) : HandlerPc → Nat
  | .clear status => if status.getLsbD n = true then 1 else 5
  | .count _ => 4
  | .idle => 3
  | .entered => 2

theorem distance_takes {n : Nat} {pc : HandlerPc} (h : takes pc n = true) : distance n pc ≤ 2 := by
  cases pc with
  | entered => exact le_refl 2
  | clear status =>
    have hst : status.getLsbD n = true := h
    rw [distance, if_pos hst]
    decide
  | idle | count => cases h

/-- A step of the vector of a set event brings it closer, or clears it. -/
theorem distance_lt {s s' : Sys} {l : Event} {n : Nat} (hi : Inv s) (h : Step s l s')
    (he' : event s' n = true) (hl : vectorOf l = some (vec s n)) (hlt : vec s n < s.nvec) :
    distance n (s'.handler (vec s n)) < distance n (s.handler (vec s n)) := by
  have henter : ∀ {v : Nat}, vec s n = v → s.handler v = .idle →
      distance n ((s.enter v).handler v) < distance n (s.handler v) := by
    rintro v rfl hidle
    rw [hidle]
    exact Nat.lt_succ_of_le (distance_takes (enter_takes hlt rfl))
  cases step_move hi.unmasked h with
  | device => cases hl
  | message v k hidle =>
    obtain rfl := Option.some.inj hl
    exact henter rfl hidle
  | line hidle | shared hidle =>
    have hz : vec s n = 0 := (Option.some.inj hl).symm
    rw [hz]
    exact henter hz hidle
  | handler v _ move =>
    obtain rfl := Option.some.inj hl
    cases move with
    | read hh after =>
      subst after
      have hst : s.machine.ps.regs.intStatus.getLsbD n = true := he'
      have hne : s.machine.ps.regs.intStatus ≠ 0 := by
        intro hz
        rw [hz] at hst
        simp at hst
      show distance n (Function.update s.handler _ _ _) < _
      rw [Function.update_self, if_neg hne, hh, distance, if_pos hst]
      exact Nat.lt_succ_self 1
    | clear status hh after =>
      have hst : status.getLsbD n = false := by
        subst after
        have hkept := (clear_event status n).symm.trans he'
        exact Bool.not_eq_true' _ ▸ (Bool.and_eq_true_iff.mp hkept).2
      subst after
      show distance n (Function.update s.handler _ _ _) < _
      rw [Function.update_self, hh, distance, distance, if_neg (by rw [hst]; decide)]
      exact Nat.lt_succ_self 4
    | count status hh after =>
      subst after
      show distance n (Function.update s.handler _ _ _) < _
      rw [Function.update_self, hh]
      exact Nat.lt_succ_self 3

theorem helpful_congr {v : Nat} {s s' : Sys} (h : s'.handler v = s.handler v) :
    helpful v s' = helpful v s := by
  rw [helpful, helpful, h]

/-- Event n is set, and v is its vector. -/
structure Waiting (n v : Nat) (s : Sys) : Prop where
  inv : Inv s
  vec_eq : vec s n = v
  set : event s n = true

theorem Waiting.enabled {n v : Nat} {s : Sys} (h : Waiting n v s) : (helpful v s).enabled s := by
  obtain ⟨hi, rfl, he⟩ := h
  unfold helpful
  split
  · next hidle =>
    refine ⟨hidle, hi.vec_lt he, ?_⟩
    rcases hi.due n he with hd | ht
    · exact hd
    · rw [hidle] at ht
      cases ht
  · next hrun => exact hrun

theorem Waiting.step {n v : Nat} {s s' : Sys} {l : Event} (h : Waiting n v s) (hs : Step s l s') :
    (event s n = true ∧ event s' n = false ∧ holds (s'.handler v) n = true) ∨
      (Waiting n v s' ∧ (distance n (s'.handler v) < distance n (s.handler v) ∨
        (distance n (s'.handler v) = distance n (s.handler v) ∧ helpful v s' = helpful v s ∧
          ¬ (helpful v s).taken l))) := by
  obtain ⟨hi, rfl, he⟩ := h
  rcases step_event hi hs he with he' | ⟨he', -, status, -, hh', hst⟩
  · have hvec : vec s' n = vec s n := by rw [vec, vec, step_nvec hi hs]
    refine .inr ⟨⟨inv_step _ _ _ hi hs, hvec, he'⟩, ?_⟩
    by_cases hl : vectorOf l = some (vec s n)
    · exact .inl (distance_lt hi hs he' hl (hi.vec_lt he))
    · have hsame := step_handler hi hs hl
      exact .inr ⟨congrArg (distance n) hsame, helpful_congr hsame, fun ht => hl (helpful_taken ht)⟩
  · refine .inl ⟨he, he', ?_⟩
    rw [hh']
    exact hst

/-- Event n has been cleared by the handler of vector v, which is to count it. -/
structure Held (n v : Nat) (s : Sys) : Prop where
  inv : Inv s
  held : holds (s.handler v) n = true

theorem Held.step {n v : Nat} {s s' : Sys} {l : Event} (h : Held n v s) (hn : n < lddNrEvents)
    (hs : Step s l s') : s'.count n = s.count n + 1 ∨ (Held n v s' ∧ ¬ (handling v).taken l) := by
  obtain ⟨hi, hh⟩ := h
  by_cases hl : vectorOf l = some v
  · have hrun : s.handler v ≠ .idle := by
      intro hidle
      rw [hidle] at hh
      cases hh
    cases step_move hi.unmasked hs with
    | device => cases hl
    | message w k hidle | line hidle | shared hidle =>
      obtain rfl := Option.some.inj hl
      exact absurd hidle hrun
    | handler w _ move =>
      obtain rfl := Option.some.inj hl
      cases move with
      | read hpc | clear _ hpc =>
        rw [hpc] at hh
        cases hh
      | count status hpc after =>
        rw [hpc] at hh
        have hst : status.getLsbD n = true := hh
        refine .inl ?_
        rw [after]
        show countEvents s.count status n = _
        rw [countEvents_apply, hst, decide_eq_true hn]
        rfl
  · refine .inr ⟨⟨inv_step _ _ _ hi hs, ?_⟩, ?_⟩
    · rw [step_handler hi hs hl]
      exact hh
    · rintro rfl
      exact hl rfl

/-- The events that a step of the system raises. -/
def raises (s : Sys) : Event → BitVec 32
  | .device e => raisedBy s.machine e
  | .message _ _ | .line | .shared | .handler _ => 0

theorem raises_event {s s' : Sys} {l : Event} {n : Nat} (hs : Step s l s')
    (hr : (raises s l).getLsbD n = true) : event s' n = true := by
  cases l with
  | device e =>
    obtain ⟨ha, hs⟩ := Option.ite_none_right_eq_some.mp hs
    obtain rfl := Option.some.inj hs
    rw [device_event (allowed_spec ha).1 n, show (raisedBy s.machine e).getLsbD n = true from hr,
      Bool.or_true]
  | message | line | shared | handler => exact absurd hr (by simp [raises])

/-- In a fair run an event that is raised is cleared by a handler afterwards, and
then counted. -/
theorem counted_after_raise (r : Run Step) (hinv : Inv (r.state 0)) (hfair : Fair r) {i n : Nat}
    (hr : (raises (r.state i) (r.label i)).getLsbD n = true) :
    ∃ j c, i < j ∧ j < c ∧ event (r.state j) n = true ∧ event (r.state (j + 1)) n = false ∧
      (r.state (c + 1)).count n = (r.state c).count n + 1 := by
  have hi : ∀ k, Inv (r.state k) := r.invariant inv_step hinv
  have he := raises_event (r.next i) hr
  have hn := (hi (i + 1)).event_lt he
  obtain ⟨j, hj, hset, hclear, hheld⟩ := r.progress
    (P := Waiting n (vec (r.state (i + 1)) n))
    (fun s => distance n (s.handler (vec (r.state (i + 1)) n)))
    (helpful (vec (r.state (i + 1)) n))
    (fun s _ => by
      unfold helpful
      split
      · exact hfair.interrupts _
      · exact hfair.handlers _)
    (fun _ h => h.enabled) (fun _ _ _ h hs => h.step hs) ⟨hi (i + 1), rfl, he⟩
  obtain ⟨c, hc, hcount⟩ := r.progress (P := Held n (vec (r.state (i + 1)) n)) (fun _ => 0)
    (fun _ => handling (vec (r.state (i + 1)) n)) (fun _ _ => hfair.handlers _)
    (fun s h => by
      intro hidle
      have hh := h.held
      rw [hidle] at hh
      cases hh)
    (fun s l s' h hs => (h.step hn hs).imp_right fun h => ⟨h.1, .inr ⟨rfl, rfl, h.2⟩⟩)
    ⟨hi (j + 1), hheld⟩
  exact ⟨j, c, by omega, by omega, hset, hclear, hcount⟩

/-! A run with MSI-X: the soft event is raised, its message arrives, the handler
clears and counts it, and then nothing happens any more. -/

/-- A kernel in which every call of a probe succeeds, with MSI-X. -/
def willingMsix : MsiKernel where
  kzalloc := true
  pciEnableDevice := 0
  pciRequestRegions := 0
  pciIomap := true
  allocMsix := none
  allocOne msi _ := if msi = true then .ok true else .error (-enodev)
  allocOne_ok msi intx b h := by
    split_ifs at h with hm
    obtain rfl := Except.ok.inj h
    exact hm
  requestIrq _ := 0

def softLabel : Nat → Event
  | 0 => .device (.write (lddReg .intRaise) 4)
  | 1 => .message 2 1
  | 2 => .handler 2
  | 3 => .handler 2
  | _ => .device .expire

def softState (i : Nat) : Sys :=
  follow next softLabel (probed (msiProbe willingMsix ⟨true, true, true⟩ fresh).1 3) i

theorem expire_disarmed {s : Sys} (ht : s.machine.ps.timer = false) : s.device .expire = s := by
  have hm : devStep s.machine .expire = s.machine := by simp [devStep, timerExpire, ht, setPs]
  have hr : (fun n => s.raised n + ((raisedBy s.machine .expire).getLsbD n).toNat) = s.raised := by
    funext n
    rw [raisedBy, if_neg (by rw [ht]; decide)]
    exact congrArg (fun b : Bool => s.raised n + b.toNat) BitVec.getLsbD_zero
  rw [Sys.device, hm, hr]

theorem softState_rest (i : Nat) : softState (i + 4) = softState 4 := by
  have ht : (softState 4).machine.ps.timer = false := by decide +kernel
  induction i with
  | zero => rfl
  | succ i ih =>
    have hstay : next (softState 4) (.device .expire) = some (softState 4) :=
      congrArg some (expire_disarmed ht)
    show (next (softState (i + 4)) (.device .expire)).getD (softState (i + 4)) = _
    rw [ih, hstay]
    rfl

theorem softState_step (i : Nat) : Step (softState i) (softLabel i) (softState (i + 1)) := by
  refine follow_succ ?_
  match i with
  | 0 => decide +kernel
  | 1 => decide +kernel
  | 2 => decide +kernel
  | 3 => decide +kernel
  | n + 4 => rfl

def softRun : Run Step where
  state := softState
  label := softLabel
  next := softState_step

theorem softRun_inv (i : Nat) : Inv (softState i) := by
  have hprobe : msiProbe willingMsix ⟨true, true, true⟩ fresh =
      ((msiProbe willingMsix ⟨true, true, true⟩ fresh).1, .ok 3) := rfl
  have hfresh := powerOn_irqInv 0 false false (fun _ => 0) defaultProps DmaBus.flat (fun _ => 0)
  exact softRun.invariant inv_step
    (probed_inv hprobe hfresh (fun _ _ => BitVec.getLsbD_zero) rfl rfl) i

theorem softState_quiet (v : Nat) : (softState 4).handler v = .idle ∧ ¬ Due (softState 4) v := by
  have hi := softRun_inv 4
  have hlow : ∀ n, n < lddNrEvents →
      (softState 4).handler n = .idle ∧ event (softState 4) n = false := by decide +kernel
  have hx : ¬ (softState 4).intxMode := by decide +kernel
  have hzero : event (softState 4) v = false := by
    by_cases hv : v < lddNrEvents
    · exact (hlow v hv).2
    · exact hi.unmasked.known v (Nat.not_lt.mp hv)
  refine ⟨?_, ?_⟩
  · by_cases hv : v < lddNrEvents
    · exact (hlow v hv).1
    · exact hi.spare v (Nat.not_lt.mp hv)
  · rintro (hlt | ⟨hintx, -, -⟩)
    · have hle := hi.single (by decide +kernel) v
      rw [hzero] at hle
      exact absurd hlt (Nat.not_lt.mpr hle)
    · exact hx hintx

theorem softRun_fair : Fair softRun := by
  refine ⟨?_, ?_⟩
  · intro v i hon
    obtain ⟨-, -, hd⟩ := hon (i + 4) (Nat.le_add_right i 4)
    rw [show softRun.state (i + 4) = softState 4 from softState_rest i] at hd
    exact absurd hd (softState_quiet v).2
  · intro v i hon
    have hrun := hon (i + 4) (Nat.le_add_right i 4)
    rw [show softRun.state (i + 4) = softState 4 from softState_rest i] at hrun
    exact absurd (softState_quiet v).1 hrun

/-- After a probe of the device, whatever happened to it before, with MSI-X, MSI
or INTx: at rest INT_STATUS is 0, no event is counted more often than it was
raised, and in a fair run every raise is followed by a count. -/
theorem events_counted (k : MsiKernel) (types : IrqTypes) (command : BitVec 16)
    (ram : Nat → LinuxDeviceDriver.Lib.LittleEndian.Byte) (props : Realized) (bus : DmaBus)
    (guest : Memory) (es : List DevEvent) (m : Machine) (nvec : Nat)
    (hprobe : msiProbe k types (devRun (powerOn command false false ram props bus guest) es) =
      (m, .ok nvec)) :
    (∀ ls s, Steps Step (probed m nvec) ls s →
      ((∀ v, s.served v = s.sent v) → s.machine.ps.pdev.intx = false →
        (∀ v, s.handler v = .idle) → s.machine.ps.regs.intStatus = 0) ∧
      ∀ n, s.count n ≤ s.raised n) ∧
    ∀ r : Run Step, r.state 0 = probed m nvec → Fair r → ∀ i n,
      (raises (r.state i) (r.label i)).getLsbD n = true →
      ∃ j c, i < j ∧ j < c ∧ event (r.state j) n = true ∧ event (r.state (j + 1)) n = false ∧
        (r.state (c + 1)).count n = (r.state c).count n + 1 := by
  have hstart := powerOn_irqInv command false false ram props bus guest
  obtain ⟨hx, hm⟩ := devRun_mode (powerOn command false false ram props bus guest) es
  have hknown : Known (powerOn command false false ram props bus guest).ps :=
    fun _ _ => BitVec.getLsbD_zero
  have hinv := probed_inv hprobe (devRun_irqInv _ es hstart) (devRun_known _ es hknown) hx hm
  refine ⟨?_, ?_⟩
  · intro ls s hrun
    have hi : Inv s := hrun.invariant inv_step hinv
    refine ⟨hi.at_rest, ?_⟩
    intro n
    have hb := hi.budget n
    omega
  · intro r h0 hfair i n hr
    exact counted_after_raise r (h0 ▸ hinv) hfair hr

theorem events_counted_soft :
    ∃ j c, 0 < j ∧ j < c ∧ event (softState j) 2 = true ∧ event (softState (j + 1)) 2 = false ∧
      (softState (c + 1)).count 2 = (softState c).count 2 + 1 := by
  have hprobe : msiProbe willingMsix ⟨true, true, true⟩ (devRun fresh []) =
      ((msiProbe willingMsix ⟨true, true, true⟩ fresh).1, .ok 3) := rfl
  exact (events_counted willingMsix ⟨true, true, true⟩ 0 (fun _ => 0) defaultProps DmaBus.flat
    (fun _ => 0) [] _ 3 hprobe).2 softRun rfl softRun_fair 0 2 (by decide +kernel)

end LinuxDeviceDriver.Drivers.EventProgress
