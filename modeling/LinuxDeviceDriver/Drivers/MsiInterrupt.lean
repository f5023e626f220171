/- source: examples/26_msi_interrupt/main.c, lines 31 to 102, 156 to 285 and 316 to 329
   digest: The msi_interrupt driver: its vectors, its handlers, and the system they
     form with the device. -/

import LinuxDeviceDriver.Drivers.DmaProbe
import LinuxDeviceDriver.Qemu.Pcie.Events

set_option autoImplicit false

namespace LinuxDeviceDriver.Drivers.MsiInterrupt

open Qemu.Pcie
open State Transfer TransferOutcome Registers Interrupts Engine Events CharFile DmaHost DmaProbe

def lddNrEvents : Nat := 3

/-! ## Loading and probing -/

/-- PCI_IRQ_* types. -/
structure IrqTypes where
  msix : Bool
  msi : Bool
  intx : Bool
  deriving DecidableEq, Repr

/-- irq_types from the module parameter mode. -/
def mInit (mode : String) : Except Int IrqTypes :=
  if mode = "msix" then .ok ⟨true, false, false⟩
  else if mode = "msi" then .ok ⟨false, true, false⟩
  else if mode = "intx" then .ok ⟨false, false, true⟩
  else if mode = "all" then .ok ⟨true, true, true⟩
  else .error (-einval)

/-- The kernel's answers to a probe. -/
structure MsiKernel where
  kzalloc : Bool
  pciEnableDevice : Int
  pciRequestRegions : Int
  pciIomap : Bool
  /-- All the MSI-X vectors asked for, or an errno. -/
  allocMsix : Option Int
  /-- One vector of the types asked for: MSI (true) or INTx. -/
  allocOne : (msi intx : Bool) → Except Int Bool
  allocOne_ok : ∀ msi intx b, allocOne msi intx = .ok b → (if b = true then msi else intx) = true
  requestIrq : Nat → Int

def irqMode (pdev : PciDevice) : String :=
  if pdev.msixEnabled = true then "msix" else if pdev.msiEnabled = true then "msi" else "intx"

def setVectors (m : Machine) (msix msi : Bool) : Machine :=
  setPdev m { m.ps.pdev with msixEnabled := msix, msiEnabled := msi }

/-- The device with its vectors enabled and their number, or an errno. -/
def allocVectors (k : MsiKernel) (m : Machine) (types : IrqTypes) : Except Int (Machine × Nat) :=
  let one := match k.allocOne types.msi types.intx with
    | .error e => .error e
    | .ok msi => .ok (setVectors m false msi, 1)
  if types.msix = true then
    match k.allocMsix with
    | none => .ok (setVectors m true false, lddNrEvents)
    | some e => if types = ⟨true, false, false⟩ then .error e else one
  else one

/-- request_irq() for each vector from i on, n of them: the first errno. -/
def requestIrqs (k : MsiKernel) (i : Nat) : Nat → Int
  | 0 => 0
  | n + 1 => if k.requestIrq i ≠ 0 then k.requestIrq i else requestIrqs k (i + 1) n

def msiProbe (k : MsiKernel) (types : IrqTypes) (m : Machine) : Machine × Except Int Nat :=
  if k.kzalloc = false then (m, .error (-enomem))
  else if k.pciEnableDevice ≠ 0 then (m, .error k.pciEnableDevice)
  else if k.pciRequestRegions ≠ 0 then (m, .error k.pciRequestRegions)
  else if k.pciIomap = false then (m, .error (-enomem))
  else if ioread32 m .id ≠ lddId then (m, .error (-enodev))
  else
    let master := pciSetMaster m
    match allocVectors k master types with
    | .error e => (pciClearMaster master, .error e)
    | .ok (vectors, nvec) =>
      let clear := iowrite32 (iowrite32 vectors .intMask 0) .intStatus lddIntAll
      let err := requestIrqs k 0 nvec
      if err ≠ 0 then (pciClearMaster (setVectors clear false false), .error err)
      else (iowrite32 clear .intMask lddIntAll, .ok nvec)

/-- The vectors that were enabled: one of the types asked for, and the number of
vectors that goes with it. -/
structure Granted (types : IrqTypes) (msix msi : Bool) (nvec : Nat) : Prop where
  asked : (if msix = true then types.msix else if msi = true then types.msi else types.intx) = true
  number : nvec = if msix = true then lddNrEvents else 1

theorem allocVectors_ok {k : MsiKernel} {m vectors : Machine} {types : IrqTypes} {nvec : Nat}
    (h : allocVectors k m types = .ok (vectors, nvec)) :
    ∃ msix msi, vectors = setVectors m msix msi ∧ Granted types msix msi nvec := by
  have hone : (match k.allocOne types.msi types.intx with
      | .error e => .error e
      | .ok msi => .ok (setVectors m false msi, 1)) = (.ok (vectors, nvec) : Except Int _) →
      ∃ msix msi, vectors = setVectors m msix msi ∧ Granted types msix msi nvec := by
    intro h
    cases ha : k.allocOne types.msi types.intx with
    | error e =>
      rw [ha] at h
      cases h
    | ok msi =>
      rw [ha] at h
      cases h
      exact ⟨false, msi, rfl, k.allocOne_ok types.msi types.intx msi ha, rfl⟩
  unfold allocVectors at h
  dsimp only at h
  split at h
  · next hx =>
    split at h
    · cases h
      exact ⟨true, false, rfl, hx, rfl⟩
    · split at h
      · cases h
      · exact hone h
  · exact hone h

/-- The registers as a probe that succeeds leaves them. -/
def opened (m : Machine) : Machine :=
  iowrite32 (iowrite32 (iowrite32 m .intMask 0) .intStatus lddIntAll) .intMask lddIntAll

theorem msiProbe_ok {k : MsiKernel} {types : IrqTypes} {m m' : Machine} {nvec : Nat}
    (h : msiProbe k types m = (m', .ok nvec)) :
    ∃ msix msi, m' = opened (setVectors (pciSetMaster m) msix msi) ∧
      Granted types msix msi nvec := by
  unfold msiProbe at h
  obtain ⟨-, h⟩ := of_ite_error h
  obtain ⟨-, h⟩ := of_ite_error h
  obtain ⟨-, h⟩ := of_ite_error h
  obtain ⟨-, h⟩ := of_ite_error h
  obtain ⟨-, h⟩ := of_ite_error h
  dsimp only at h
  cases hv : allocVectors k (pciSetMaster m) types with
  | error e =>
    rw [hv] at h
    exact nomatch (Prod.ext_iff.mp h).2
  | ok p =>
    obtain ⟨vectors, n⟩ := p
    rw [hv] at h
    obtain ⟨-, h⟩ := of_ite_error h
    obtain ⟨hm, hn⟩ := Prod.ext_iff.mp h
    obtain ⟨msix, msi, rfl, hgrant⟩ := allocVectors_ok hv
    exact ⟨msix, msi, hm.symm, Except.ok.inj hn ▸ hgrant⟩

theorem opened_unmasked {m : Machine} (hi : IrqInv m.ps) (hk : Known m.ps) :
    Unmasked (opened m).ps := by
  have hirq : ∀ {m : Machine} (reg : Reg) (val : BitVec 32), IrqInv m.ps →
      IrqInv (iowrite32 m reg val).ps :=
    fun {m} reg val h => (devStep_irqStep m (.write (lddReg reg) val)).inv h
  have hknown : ∀ {m : Machine} (reg : Reg) (val : BitVec 32), Known m.ps →
      Known (iowrite32 m reg val).ps :=
    fun {m} reg val h => h.step (.write (lddReg reg) val)
  exact ⟨hirq _ _ (hirq _ _ (hirq _ _ hi)), rfl, hknown _ _ (hknown _ _ (hknown _ _ hk))⟩

theorem opened_mode (m : Machine) :
    (opened m).ps.pdev.msixEnabled = m.ps.pdev.msixEnabled ∧
      (opened m).ps.pdev.msiEnabled = m.ps.pdev.msiEnabled :=
  devRun_mode m [.write (lddReg .intMask) 0, .write (lddReg .intStatus) lddIntAll,
    .write (lddReg .intMask) lddIntAll]

/-- All three events are cleared, and there are no others. -/
theorem opened_intStatus {m : Machine} (hk : Known m.ps) (n : Nat) :
    (opened m).ps.regs.intStatus.getLsbD n = false := by
  show (m.ps.regs.intStatus &&& ~~~lddIntAll).getLsbD n = false
  rw [BitVec.getLsbD_and]
  by_cases hn : n < lddMsixVectors
  · rw [BitVec.getLsbD_not, lddIntAll_getLsbD hn, Bool.not_true, Bool.and_false, Bool.and_false]
  · rw [hk n (Nat.le_of_not_lt hn), Bool.false_and]

/-! ## The handlers -/

/-- What the handler of a vector does next. -/
inductive HandlerPc
  | idle
  /-- msi_handler, before it reads INT_STATUS. -/
  | entered
  | clear (status : BitVec 32)
  | count (status : BitVec 32)
  deriving DecidableEq, Repr

/-- The device and the driver's structure, a handler for each vector, and for
each vector how many of its messages have led to a run of it. Beside them, how
often each event was raised. -/
structure Sys where
  machine : Machine
  nvec : Nat
  count : Nat → Nat := fun _ => 0
  lastStatus : BitVec 32 := 0
  handler : Nat → HandlerPc := fun _ => .idle
  served : Nat → Nat
  raised : Nat → Nat := fun _ => 0

def Sys.device (s : Sys) (e : DevEvent) : Sys :=
  { s with
    machine := devStep s.machine e
    raised := fun n => s.raised n + ((raisedBy s.machine e).getLsbD n).toNat }

def Sys.sent (s : Sys) (v : Nat) : Nat := s.machine.ps.pdev.sent.count v

/-- The loop of count_events over the counters. -/
def countEvents (count : Nat → Nat) (status : BitVec 32) : Nat → Nat :=
  (List.range lddNrEvents).foldl
    (fun c i => if anySet status (bit i) = true then Function.update c i (c i + 1) else c) count

theorem bit_getLsbD {v : Nat} (hv : v < 32) (n : Nat) : (bit v).getLsbD n = decide (v = n) := by
  simp [bit, BitVec.getLsbD_twoPow, hv]

private theorem foldl_count (f : Nat → Bool) (l : List Nat) (hl : l.Nodup) (count : Nat → Nat)
    (n : Nat) :
    l.foldl (fun c i => if f i = true then Function.update c i (c i + 1) else c) count n =
      count n + (decide (n ∈ l) && f n).toNat := by
  induction l generalizing count with
  | nil => simp
  | cons i l ih =>
    obtain ⟨hi, hl⟩ := List.nodup_cons.mp hl
    rw [List.foldl_cons, ih hl]
    by_cases hn : n = i
    · subst hn
      cases f n <;> simp [hi]
    · cases f i <;> simp [hn, Function.update_of_ne]

theorem countEvents_apply (count : Nat → Nat) (status : BitVec 32) (n : Nat) :
    countEvents count status n =
      count n + (decide (n < lddNrEvents) && status.getLsbD n).toNat := by
  rw [countEvents, foldl_count _ _ List.nodup_range]
  by_cases hn : n < lddNrEvents
  · have h32 : n < 32 := Nat.lt_trans hn (by decide)
    simp [hn, anySet_bit status h32]
  · simp [hn]

/-- The kernel calls the handler of vector v: msi_vec_handler, which starts with
its own bit, or msi_handler. -/
def Sys.enter (s : Sys) (v : Nat) : Sys :=
  { s with
    handler := Function.update s.handler v
      (if s.nvec = lddNrEvents then .clear (bit v) else .entered) }

def handlerStep (s : Sys) (v : Nat) : Option Sys :=
  match s.handler v with
  | .idle => none
  | .entered =>
    let status := ioread32 s.machine .intStatus &&& lddIntAll
    if status = 0 then some { s with handler := Function.update s.handler v .idle }
    else some { s with handler := Function.update s.handler v (.clear status) }
  | .clear status =>
    some { s.device (.write (lddReg .intStatus) status) with
      handler := Function.update s.handler v (.count status) }
  | .count status =>
    some { s with
      count := countEvents s.count status
      lastStatus := status
      handler := Function.update s.handler v .idle }

/-- A write to the sysfs file raise: the register write it makes, or an errno. -/
def raiseStore (parsed : Except Int (BitVec 32)) : Except Int DevEvent :=
  match parsed with
  | .error err => .error err
  | .ok val =>
    if val = 0 ∨ val &&& ~~~lddIntAll ≠ 0 then .error (-einval)
    else .ok (.write (lddReg .intRaise) val)

/-! ## The system -/

/-- What may happen to the device beside the handlers: anything but a reset and
writes to INT_STATUS and INT_MASK. -/
def allowed : DevEvent → Bool
  | .write addr _ => regAt addr != some .ctrl && regAt addr != some .intStatus &&
      regAt addr != some .intMask
  | .expire | .env _ _ => true
  | .pciReset => false

/-- The line of the device is what interrupts. -/
def Sys.intxMode (s : Sys) : Prop :=
  s.machine.ps.pdev.msixEnabled = false ∧ s.machine.ps.pdev.msiEnabled = false

instance (s : Sys) : Decidable s.intxMode := inferInstanceAs (Decidable (_ ∧ _))

/-- Something happens to the device; the messages of vector v up to the k-th lead
to a run of its handler; the line does; the line does for another device that
shares it; the handler of vector v acts. -/
inductive Event
  | device (e : DevEvent)
  | message (v k : Nat)
  | line
  | shared
  | handler (v : Nat)

def next (s : Sys) : Event → Option Sys
  | .device e => if allowed e = true then some (s.device e) else none
  | .message v k =>
    if s.handler v = .idle ∧ v < s.nvec ∧ s.served v < k ∧ k ≤ s.sent v then
      some { s.enter v with served := Function.update s.served v k }
    else none
  | .line =>
    if s.handler 0 = .idle ∧ s.intxMode ∧ s.machine.ps.pdev.intx = true then some (s.enter 0)
    else none
  | .shared => if s.handler 0 = .idle ∧ s.intxMode then some (s.enter 0) else none
  | .handler v => handlerStep s v

def Step (s : Sys) (e : Event) (s' : Sys) : Prop := next s e = some s'

/-- Right after a probe: no message is on its way. -/
def probed (m : Machine) (nvec : Nat) : Sys :=
  { machine := m, nvec := nvec, served := fun v => m.ps.pdev.sent.count v }

end LinuxDeviceDriver.Drivers.MsiInterrupt
