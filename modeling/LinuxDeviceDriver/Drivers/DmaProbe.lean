/- source: examples/28_dma_sg/main.c, lines 314 to 447; examples/27_dma/main.c, lines 255 to 390
   digest: What the probe functions of the two dma drivers have in common. -/

import LinuxDeviceDriver.Drivers.DescTable

set_option autoImplicit false

namespace LinuxDeviceDriver.Drivers.DmaProbe

open Qemu.Pcie
open State Transfer TransferOutcome Registers Interrupts CharFile DmaHost DescTable

/-- The kernel's answers to a probe. A call that returns an errno is an Int, 0
for success. -/
structure ProbeKernel where
  pciEnableDevice : Int
  pciRequestRegions : Int
  pciIomap : Bool
  dmaSetMaskAndCoherent : (mask64 : Bool) → Int
  dmaAllocCoherent : Nat → Option CoherentTable
  kmalloc : Nat → Bool
  /-- One vector: MSI (true) or INTx. -/
  pciAllocIrqVectors : Except Int Bool
  vectors_err : ∀ e, pciAllocIrqVectors = .error e → e < 0
  requestIrq : Int
  devSetName : Int
  cdevDeviceAdd : Int

def setPdev (m : Machine) (pdev : PciDevice) : Machine := setPs m { m.ps with pdev := pdev }

def pciSetMaster (m : Machine) : Machine :=
  setPdev m { m.ps.pdev with command := m.ps.pdev.command ||| pciCommandMaster }

def pciClearMaster (m : Machine) : Machine :=
  setPdev m { m.ps.pdev with command := m.ps.pdev.command &&& ~~~pciCommandMaster }

def setMsi (m : Machine) (msi : Bool) : Machine := setPdev m { m.ps.pdev with msiEnabled := msi }

/-- From pci_alloc_irq_vectors() to cdev_device_add(), with what each failure
undoes. -/
def probeIrqs (pk : ProbeKernel) (m : Machine) : Machine × Int :=
  match pk.pciAllocIrqVectors with
  | .error e => (m, e)
  | .ok msi =>
    let vectors := setMsi m msi
    if pk.requestIrq ≠ 0 then (setMsi vectors false, pk.requestIrq)
    else
      let clear := iowrite32 vectors .intStatus dmaEvents
      let live := iowrite32 clear .intMask dmaEvents
      let undone := setMsi (iowrite32 live .intMask 0) false
      if pk.devSetName ≠ 0 then (undone, pk.devSetName)
      else if pk.cdevDeviceAdd ≠ 0 then (undone, pk.cdevDeviceAdd)
      else (live, 0)

/-- The completion interrupts enabled on a device with nothing to report. -/
def enabled (m : Machine) (msi : Bool) : Machine :=
  iowrite32 (iowrite32 (setMsi m msi) .intStatus dmaEvents) .intMask dmaEvents

/-- A probe that got this far and succeeded has enabled the interrupts. -/
theorem probeIrqs_ok {pk : ProbeKernel} {m m' : Machine} (h : probeIrqs pk m = (m', 0)) :
    ∃ msi, pk.pciAllocIrqVectors = .ok msi ∧ m' = enabled m msi := by
  unfold probeIrqs at h
  cases hv : pk.pciAllocIrqVectors with
  | error e =>
    rw [hv] at h
    have he : e = 0 := (Prod.ext_iff.mp h).2
    have hneg := pk.vectors_err e hv
    omega
  | ok msi =>
    rw [hv] at h
    dsimp only at h
    split_ifs at h with h1 h2 h3
    · exact absurd (Prod.ext_iff.mp h).2 h1
    · exact absurd (Prod.ext_iff.mp h).2 h2
    · exact absurd (Prod.ext_iff.mp h).2 h3
    · exact ⟨msi, rfl, (Prod.ext_iff.mp h).1.symm⟩

theorem of_ite_error {α : Type} {c : Prop} [Decidable c] {n m' : Machine} {e : Int} {a : α}
    {rest : Machine × Except Int α} (h : (if c then (n, .error e) else rest) = (m', .ok a)) :
    ¬ c ∧ rest = (m', .ok a) := by
  by_cases hc : c
  · rw [if_pos hc] at h
    exact nomatch (Prod.ext_iff.mp h).2
  · rw [if_neg hc] at h
    exact ⟨hc, h⟩

theorem enabled_command (m : Machine) (msi : Bool) :
    (enabled m msi).ps.pdev.command = m.ps.pdev.command :=
  (updateIrq_command _).trans ((updateIrq_command _).trans rfl)

/-- Enabling the interrupts of a device at rest leaves it idle. -/
theorem enabled_idle (m : Machine) (msi : Bool) (hb : busy m.ps = false) (ht : m.ps.timer = false) :
    Idle (enabled m msi).ps := by
  refine ⟨hb, ht, ?_⟩
  show m.ps.regs.intStatus &&& ~~~dmaEvents &&& dmaEvents = 0
  rw [BitVec.and_assoc, BitVec.and_comm (~~~dmaEvents), BitVec.and_not_self]
  exact BitVec.and_zero

theorem master_pciSetMaster (m : Machine) : Master (pciSetMaster m) := by
  show (m.ps.pdev.command ||| pciCommandMaster) &&& pciCommandMaster ≠ 0
  intro h
  have hb := congrArg (fun x => x.getLsbD 2) h
  have h2 : pciCommandMaster.getLsbD 2 = true := by decide
  simp [h2] at hb
  exact absurd hb (by decide)

/-- A table that dma_alloc_coherent may give. -/
def firstTable : CoherentTable := ⟨0x1000, rfl⟩

/-- A kernel in which every call of a probe succeeds, with MSI and the table at
0x1000. -/
def willing : ProbeKernel where
  pciEnableDevice := 0
  pciRequestRegions := 0
  pciIomap := true
  dmaSetMaskAndCoherent _ := 0
  dmaAllocCoherent _ := some firstTable
  kmalloc _ := true
  pciAllocIrqVectors := .ok true
  vectors_err _ h := nomatch h
  requestIrq := 0
  devSetName := 0
  cdevDeviceAdd := 0

/-- A device at rest over flat memory, bus mastering still off. -/
def fresh : Machine :=
  powerOn 0 false false (fun _ => 0) defaultProps DmaBus.flat (fun _ => 0)

end LinuxDeviceDriver.Drivers.DmaProbe
