/- source: tools/qemu/hw/ldd/pcie.c, lines 19 to 112, 419 to 432 and 524 to 529
   digest: Registers, properties, bus and machine state of the ldd-pcie device. -/

import LinuxDeviceDriver.Lib.LittleEndian
import LinuxDeviceDriver.Lib.ScatterGather

set_option autoImplicit false

namespace LinuxDeviceDriver.Qemu.Pcie.State

open Lib.LittleEndian (Byte)
open Lib.ScatterGather

/-- BIT(n) of a 32-bit register. -/
def bit (n : Nat) : BitVec 32 := BitVec.twoPow 32 n

/-- The C condition `v & mask`. -/
def anySet (v mask : BitVec 32) : Bool := v &&& mask != 0

theorem anySet_bit (v : BitVec 32) {n : Nat} (hn : n < 32) : anySet v (bit n) = v.getLsbD n := by
  have hz : BitVec.twoPow 32 n ≠ 0#32 := by
    intro h
    have hb := congrArg (fun x => x.getLsbD n) h
    simp [hn] at hb
  unfold anySet bit
  rw [BitVec.and_twoPow]
  cases v.getLsbD n <;> simp [hz]

/-- The BAR0 registers; every other offset is reserved. -/
inductive Reg
  | id | version | caps | scratch | ctrl | status | intStatus | intMask | intRaise
  | maxSeg | maxDesc | descAddrLo | descAddrHi | descCount | devOffset | dmaCtrl
  | xferBytes | errDesc | xor
  deriving DecidableEq, Repr

/-- The LDD_REG_* offsets. -/
def lddReg : Reg → Nat
  | .id => 0x00
  | .version => 0x04
  | .caps => 0x08
  | .scratch => 0x0c
  | .ctrl => 0x10
  | .status => 0x14
  | .intStatus => 0x18
  | .intMask => 0x1c
  | .intRaise => 0x20
  | .maxSeg => 0x24
  | .maxDesc => 0x28
  | .descAddrLo => 0x40
  | .descAddrHi => 0x44
  | .descCount => 0x48
  | .devOffset => 0x4c
  | .dmaCtrl => 0x50
  | .xferBytes => 0x54
  | .errDesc => 0x58
  | .xor => 0x5c

/-- The case of the register switch an offset selects, none for the default. -/
def regAt (addr : Nat) : Option Reg :=
  [Reg.id, .version, .caps, .scratch, .ctrl, .status, .intStatus, .intMask, .intRaise,
    .maxSeg, .maxDesc, .descAddrLo, .descAddrHi, .descCount, .devOffset, .dmaCtrl,
    .xferBytes, .errDesc, .xor].find? (fun r => lddReg r == addr)

@[simp] theorem regAt_lddReg (r : Reg) : regAt (lddReg r) = some r := by
  cases r <;> rfl

def lddId : BitVec 32 := 0x4c444450
def lddVersion : BitVec 32 := 0x00010000

def lddCapsDma64 : BitVec 32 := bit 0

def lddCtrlReset : BitVec 32 := bit 0

def lddStatusBusy : BitVec 32 := bit 0
def lddStatusDone : BitVec 32 := bit 1
def lddStatusError : BitVec 32 := bit 2
def lddStatusErrCodeShift : Nat := 8

def lddErrNoMaster : BitVec 32 := 1
def lddErrBadCount : BitVec 32 := 2
def lddErrBadDesc : BitVec 32 := 3
def lddErrOutOfRange : BitVec 32 := 4
def lddErrDmaFault : BitVec 32 := 5

/-- INT_STATUS, INT_MASK and INT_RAISE share one layout; bit n uses MSI-X vector n. -/
def lddIntDmaDone : BitVec 32 := bit 0
def lddIntDmaError : BitVec 32 := bit 1
def lddIntSoft : BitVec 32 := bit 2
def lddIntAll : BitVec 32 := lddIntDmaDone ||| lddIntDmaError ||| lddIntSoft
def lddMsixVectors : Nat := 3

def lddDmaCtrlDir : BitVec 32 := bit 0
def lddDmaCtrlStart : BitVec 32 := bit 1

def lddDescAddrAlign : BitVec 32 := 16

def lddMemSize : Nat := 1048576

/-- PCI_COMMAND_MASTER of the PCI command word. -/
def pciCommandMaster : BitVec 16 := 4

/-- One entry of the descriptor table, in host byte order. -/
structure LDDPCIEDesc where
  addr : BitVec 64
  len : BitVec 32
  flags : BitVec 32
  deriving DecidableEq, Repr

/-- The register state, cleared by reset. -/
structure Regs where
  scratch : BitVec 32 := 0
  status : BitVec 32 := 0
  intStatus : BitVec 32 := 0
  intMask : BitVec 32 := 0
  descAddr : BitVec 64 := 0
  descCount : BitVec 32 := 0
  devOffset : BitVec 32 := 0
  dmaCtrl : BitVec 32 := 0
  xferBytes : BitVec 32 := 0
  errDesc : BitVec 32 := 0
  xor : BitVec 32 := 0
  irqSent : BitVec 32 := 0
  result : BitVec 32 := 0
  deriving DecidableEq, Repr

/-- The properties of the command line, with their defaults. -/
structure Props where
  dma64 : Bool := true
  maxSeg : BitVec 32 := 65536
  maxDesc : BitVec 32 := 256
  deriving DecidableEq, Repr

def isPowerOf2 (value : BitVec 64) : Bool :=
  if value = 0 then false else value &&& (value - 1) == 0

/-- Properties that realize accepts. No device exists with any others. -/
structure Realized extends Props where
  seg_min : 512 ≤ maxSeg.toNat
  seg_max : maxSeg.toNat ≤ 1048576
  seg_pow : isPowerOf2 (maxSeg.setWidth 64) = true
  desc_min : 1 ≤ maxDesc.toNat
  desc_max : maxDesc.toNat ≤ 4096

/-- The checks of ldd_pcie_realize on the properties, with its error texts. -/
def lddPcieRealize (p : Props) : Except String Realized :=
  if hs : p.maxSeg < 512 ∨ p.maxSeg > 1048576 ∨ ¬ isPowerOf2 (p.maxSeg.setWidth 64) = true then
    .error "ldd-pcie: max-seg must be a power of 2 from 512 to 1048576"
  else if hd : p.maxDesc < 1 ∨ p.maxDesc > 4096 then
    .error "ldd-pcie: max-desc must be 1 to 4096"
  else
    .ok { toProps := p
          seg_min := by
            have h := (not_or.mp hs).1
            simpa [BitVec.lt_def] using h
          seg_max := by
            have h := (not_or.mp (not_or.mp hs).2).1
            simpa [BitVec.lt_def] using h
          seg_pow := not_not.mp (not_or.mp (not_or.mp hs).2).2
          desc_min := by
            have h := (not_or.mp hd).1
            simpa [BitVec.lt_def, Nat.one_le_iff_ne_zero] using h
          desc_max := by
            have h := (not_or.mp hd).2
            simpa [BitVec.lt_def] using h }

/-- The properties of a device added with none of its own. -/
def defaultProps : Realized where
  seg_min := by decide
  seg_max := by decide
  seg_pow := by decide
  desc_min := by decide
  desc_max := by decide

theorem realize_default : lddPcieRealize {} = .ok defaultProps := by
  rw [lddPcieRealize, dif_neg (by decide), dif_neg (by decide)]
  rfl

/-- The PCI side of the device: command word, interrupt mode, and what it has
signalled. Messages are kept newest first, by vector. -/
structure PciDevice where
  command : BitVec 16
  msixEnabled : Bool
  msiEnabled : Bool
  intx : Bool := false
  sent : List Nat := []
  deriving DecidableEq, Repr

/-- BAR2: the on-board RAM by offset, and the ranges reported dirty, newest
first. Only offsets below LDD_MEM_SIZE belong to the memory. -/
structure MemoryRegion where
  ram : Nat → Byte
  dirty : List (Nat × Nat) := []

structure LDDPCIEState where
  pdev : PciDevice
  bar2 : MemoryRegion
  /-- The completion timer is armed. -/
  timer : Bool
  props : Realized
  regs : Regs

inductive MemTxResult
  | ok | error | decodeError | accessError
  deriving DecidableEq, Repr

/-- Guest memory as the device addresses it. The device's own BAR2 is not part of it. -/
abbrev Memory := BitVec 64 → Byte

/-- The addresses of a DMA access, in order. Addresses wrap at 64 bits. -/
def dmaRange (addr : BitVec 64) (len : Nat) : List (BitVec 64) :=
  (List.range len).map (fun j => addr + BitVec.ofNat 64 j)

@[simp] theorem dmaRange_length (addr : BitVec 64) (len : Nat) :
    (dmaRange addr len).length = len := by
  simp [dmaRange]

theorem dmaRange_append (addr : BitVec 64) (a b : Nat) :
    dmaRange addr (a + b) = dmaRange addr a ++ dmaRange (addr + BitVec.ofNat 64 a) b := by
  unfold dmaRange
  rw [List.range_add, List.map_append, List.map_map]
  refine congrArg (_ ++ ·) (List.map_congr_left ?_)
  intro j _
  rw [Function.comp_apply, BitVec.ofNat_add, BitVec.add_assoc]

theorem mem_dmaRange_iff {addr x : BitVec 64} {len : Nat} (hw : addr.toNat + len ≤ 2 ^ 64) :
    x ∈ dmaRange addr len ↔ addr.toNat ≤ x.toNat ∧ x.toNat < addr.toNat + len := by
  unfold dmaRange
  rw [List.mem_map]
  constructor
  · rintro ⟨j, hj, rfl⟩
    have hj := List.mem_range.mp hj
    rw [BitVec.toNat_add, BitVec.toNat_ofNat]
    omega
  · rintro ⟨hlo, hhi⟩
    refine ⟨x.toNat - addr.toNat, List.mem_range.mpr (by omega), ?_⟩
    apply BitVec.eq_of_toNat_eq
    rw [BitVec.toNat_add, BitVec.toNat_ofNat]
    omega

/-- How pci_dma_read and pci_dma_write answer. An access that returns MEMTX_OK
copies exactly its range; one that fails may have copied any part of it, and
nothing outside. -/
structure DmaBus where
  read : Memory → BitVec 64 → List Byte → MemTxResult × List Byte
  write : Memory → BitVec 64 → List Byte → MemTxResult × Memory
  read_length : ∀ g a buf, (read g a buf).2.length = buf.length
  read_ok : ∀ g a buf, (read g a buf).1 = .ok →
    (read g a buf).2 = (dmaRange a buf.length).map g
  write_ok : ∀ g a bs, (write g a bs).1 = .ok →
    (write g a bs).2 = store g (dmaRange a bs.length) bs
  write_frame : ∀ g a bs x, x ∉ dmaRange a bs.length → (write g a bs).2 x = g x

structure DmaAccess where
  isWrite : Bool
  addr : BitVec 64
  len : Nat
  deriving DecidableEq, Repr

/-- The device, the bus it masters, the guest memory behind it, and the DMA
accesses it has issued, oldest first. -/
structure Machine where
  ps : LDDPCIEState
  bus : DmaBus
  guest : Memory
  trace : List DmaAccess

/-- A bus with memory at every address: each access succeeds in full. -/
def DmaBus.flat : DmaBus where
  read g a buf := (.ok, (dmaRange a buf.length).map g)
  write g a bs := (.ok, store g (dmaRange a bs.length) bs)
  read_length g a buf := by simp
  read_ok _ _ _ _ := rfl
  write_ok _ _ _ _ := rfl
  write_frame g a bs x hx := store_frame g _ bs hx

end LinuxDeviceDriver.Qemu.Pcie.State
