/- source: examples/28_dma_sg/main.c, lines 98 to 229; examples/27_dma/main.c, lines 40 to 217
   digest: In every run of calls, what a dma driver hands to the device passes its checks. -/

import LinuxDeviceDriver.Drivers.Dma
import LinuxDeviceDriver.Drivers.DmaSg
import LinuxDeviceDriver.Lib.Transition

set_option autoImplicit false

namespace LinuxDeviceDriver.Drivers.LaunchSafety

open Lib.Transition
open Qemu.Pcie
open State Transfer TransferOutcome Registers CharFile DmaHost DescTable DmaProbe

/-! ## The runs of dma_sg -/

/-- A step of the scatter-gather system: a call with the kernel's part in it, or
a file position set by a seek. -/
inductive SgEvent (pageShift : Nat)
  | call (k : DmaSg.SgKernel pageShift) (c : Call) (r : CallResult)
  | seek (file pos : Nat)

def SgStep {pageShift : Nat} (s : DmaSg.Sys) : SgEvent pageShift → DmaSg.Sys → Prop
  | .call k c r, s' => DmaSg.dmaSgRw s k c = some (s', r)
  | .seek f p, s' => s' = { s with pos := Function.update s.pos f p }

def SgReady (pageShift : Nat) (s : DmaSg.Sys) : Prop := DmaSg.Ready pageShift s.machine s.dsg

def SgEvent.launch {pageShift : Nat} : SgEvent pageShift → Option (Machine × BitVec 32)
  | .call _ _ r => r.launch
  | .seek _ _ => none

theorem sg_call_outcome {pageShift : Nat} {s s' : DmaSg.Sys} {k : DmaSg.SgKernel pageShift}
    {c : Call} {r : CallResult} (hready : SgReady pageShift s)
    (h : DmaSg.dmaSgRw s k c = some (s', r)) : DmaSg.CallOutcome s k c s' r := by
  obtain ⟨t, q, ht, hout⟩ := DmaSg.dmaSgRw_outcome s k c hready
  obtain ⟨rfl, rfl⟩ := Prod.ext_iff.mp (Option.some.inj (ht.symm.trans h))
  exact hout

theorem sg_ready_step {pageShift : Nat} (s : DmaSg.Sys) (l : SgEvent pageShift) (s' : DmaSg.Sys)
    (hready : SgReady pageShift s) (h : SgStep s l s') : SgReady pageShift s' := by
  cases l with
  | call k c r =>
    cases sg_call_outcome hready h with
    | atEnd => exact hready
    | nothing => exact hready
    | refused => exact hready
    | moved n segs r hp hlo hhi hend source hr => exact hr.ready
  | seek f p =>
    have hs : s' = { s with pos := Function.update s.pos f p } := h
    rw [hs]
    exact hready

theorem sg_launch_step {pageShift : Nat} (s : DmaSg.Sys) (l : SgEvent pageShift) (s' : DmaSg.Sys)
    (hready : SgReady pageShift s) (h : SgStep s l s') :
    ∀ m code, l.launch = some (m, code) → LaunchOk m code := by
  intro m code hl
  cases l with
  | call k c r =>
    cases sg_call_outcome hready h with
    | atEnd => cases hl
    | nothing => cases hl
    | refused => cases hl
    | moved n segs r hp hlo hhi hend source hr =>
      obtain ⟨rfl, rfl⟩ := Prod.ext_iff.mp (Option.some.inj (hr.launch.symm.trans hl))
      have hok := launch_ok (DmaSg.mapped k s.machine s.dsg segs) k.guest s.dsg.desc
        (DmaSg.descsOf segs) (s.pos c.file) (dirOf c.op) k.xor rfl hr.good
      rw [DmaSg.descsOf_length] at hok
      exact hok
  | seek f p => cases hl

/-! ## The runs of dma -/

inductive DmaEvent
  | call (k : Dma.DmaKernel) (c : Call) (r : CallResult)
  | seek (file pos : Nat)

def DmaStep (s : Dma.Sys) : DmaEvent → Dma.Sys → Prop
  | .call k c r, s' => Dma.dmaRw s k c = (s', r)
  | .seek f p, s' => s' = { s with pos := Function.update s.pos f p }

def DmaReady (s : Dma.Sys) : Prop := Dma.Ready s.machine s.dma

def DmaEvent.launch : DmaEvent → Option (Machine × BitVec 32)
  | .call _ _ r => r.launch
  | .seek _ _ => none

/-- Whatever a call makes of its transfer, it leaves what the transfer left. -/
theorem endRw_fields (s : Dma.Sys) (k : Dma.DmaKernel) (c : Call) (n : Nat) (x : Dma.XferResult) :
    (Dma.endRw s k c n x).1.machine = x.machine ∧ (Dma.endRw s k c n x).1.dma = x.dma ∧
      (Dma.endRw s k c n x).2.launch = x.launch := by
  unfold Dma.endRw
  split_ifs <;> exact ⟨rfl, rfl, rfl⟩

private theorem outcome_ready {s : Dma.Sys} {k : Dma.DmaKernel} {c : Call}
    {p : Dma.Sys × CallResult} (hready : DmaReady s) (h : Dma.CallOutcome s k c p) :
    DmaReady p.1 := by
  cases h with
  | atEnd => exact hready
  | nothing => exact hready
  | refused | unfilled => exact ⟨hready.idle, hready.master, hready.chunk⟩
  | moved n bus buf x hp hlo hhi hend hn source hx =>
    obtain ⟨hm, hd, -⟩ := endRw_fields s k c n x
    show Dma.Ready _ _
    rw [hm, hd]
    exact hx.ready

private theorem outcome_launch {s : Dma.Sys} {k : Dma.DmaKernel} {c : Call}
    {p : Dma.Sys × CallResult} (h : Dma.CallOutcome s k c p) (m : Machine) (code : BitVec 32)
    (hl : p.2.launch = some (m, code)) : LaunchOk m code := by
  cases h with
  | atEnd => cases hl
  | nothing => cases hl
  | refused => cases hl
  | unfilled => cases hl
  | moved n bus buf x hp hlo hhi hend hn source hx =>
    rw [(endRw_fields s k c n x).2.2, hx.launch] at hl
    obtain ⟨rfl, rfl⟩ := Prod.ext_iff.mp (Option.some.inj hl)
    exact launch_ok (Dma.mapped k s.machine s.dma bus n) k.guest s.dma.desc [Dma.descOf bus n]
      (s.pos c.file) (dirOf c.op) k.xor rfl hx.good

theorem dma_ready_step (s : Dma.Sys) (l : DmaEvent) (s' : Dma.Sys) (hready : DmaReady s)
    (h : DmaStep s l s') : DmaReady s' := by
  cases l with
  | call k c r =>
    have hout := outcome_ready hready (Dma.dmaRw_outcome s k c hready)
    rw [show Dma.dmaRw s k c = (s', r) from h] at hout
    exact hout
  | seek f p =>
    have hs : s' = { s with pos := Function.update s.pos f p } := h
    rw [hs]
    exact hready

theorem dma_launch_step (s : Dma.Sys) (l : DmaEvent) (s' : Dma.Sys) (hready : DmaReady s)
    (h : DmaStep s l s') : ∀ m code, l.launch = some (m, code) → LaunchOk m code := by
  intro m code hl
  cases l with
  | call k c r =>
    refine outcome_launch (Dma.dmaRw_outcome s k c hready) m code ?_
    rw [show Dma.dmaRw s k c = (s', r) from h]
    exact hl
  | seek f p => cases hl

/-- From a successful probe of a device at rest on, in every run of read and
write calls of either driver: each transfer that is started passes every check
of the device but those on the bus, and no call of dma_sg leaves its arrays. -/
theorem launches_pass_checks :
    (∀ (pageShift : Nat) (pk : ProbeKernel) (m m' : Machine) (dsg : DmaSg.DmaSgDev)
      (pos : Nat → Nat) (ls : List (SgEvent pageShift)) (s' : DmaSg.Sys),
      busy m.ps = false → m.ps.timer = false → DmaSg.dmaSgProbe pageShift pk m = (m', .ok dsg) →
      Steps SgStep ⟨m', dsg, pos⟩ ls s' →
      (∀ l ∈ ls, ∀ launch code, l.launch = some (launch, code) → LaunchOk launch code) ∧
      ∀ (k : DmaSg.SgKernel pageShift) (c : Call), DmaSg.dmaSgRw s' k c ≠ none) ∧
    ∀ (pk : ProbeKernel) (old : List Lib.LittleEndian.Byte) (m m' : Machine) (dma : Dma.DmaDev)
      (pos : Nat → Nat) (ls : List DmaEvent) (s' : Dma.Sys),
      busy m.ps = false → m.ps.timer = false → Dma.dmaProbe pk old m = (m', .ok dma) →
      Steps DmaStep ⟨m', dma, pos⟩ ls s' →
      ∀ l ∈ ls, ∀ launch code, l.launch = some (launch, code) → LaunchOk launch code := by
  refine ⟨?_, ?_⟩
  · intro pageShift pk m m' dsg pos ls s' hb ht hprobe hrun
    have hready : SgReady pageShift ⟨m', dsg, pos⟩ := (DmaSg.dmaSgProbe_ready hprobe hb ht).1
    refine ⟨hrun.forall_label sg_ready_step sg_launch_step hready, ?_⟩
    intro k c hnone
    obtain ⟨t, r, hr, -⟩ := DmaSg.dmaSgRw_outcome s' k c (hrun.invariant sg_ready_step hready)
    rw [hnone] at hr
    cases hr
  · intro pk old m m' dma pos ls s' hb ht hprobe hrun
    have hready : DmaReady ⟨m', dma, pos⟩ := (Dma.dmaProbe_ready hprobe hb ht).1
    exact hrun.forall_label dma_ready_step dma_launch_step hready

theorem launches_pass_checks_one_write :
    let m := (DmaSg.dmaSgProbe 12 willing fresh).1
    ∃ s' r, DmaSg.dmaSgRw ⟨m, DmaSg.probedDev, fun _ => 5⟩ (DmaSg.undisturbed fun _ => 7)
        ⟨0, 100, .write [7, 7, 7]⟩ = some (s', r) ∧
      ∀ launch code, r.launch = some (launch, code) → LaunchOk launch code := by
  intro m
  have hprobe : DmaSg.dmaSgProbe 12 willing fresh = (m, .ok DmaSg.probedDev) := rfl
  obtain ⟨s', r, hr, -⟩ := DmaSg.dmaSgRw_outcome ⟨m, DmaSg.probedDev, fun _ => 5⟩
    (DmaSg.undisturbed fun _ => 7) ⟨0, 100, .write [7, 7, 7]⟩
    (DmaSg.dmaSgProbe_ready hprobe rfl rfl).1
  refine ⟨s', r, hr, ?_⟩
  exact (launches_pass_checks.1 12 willing fresh m _ (fun _ => 5) [.call _ _ r] s' rfl rfl
    hprobe (.cons hr (.nil s'))).1 _ (List.mem_singleton.mpr rfl)

end LinuxDeviceDriver.Drivers.LaunchSafety
