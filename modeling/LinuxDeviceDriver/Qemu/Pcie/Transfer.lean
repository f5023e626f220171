/- source: tools/qemu/hw/ldd/pcie.c, lines 151 to 241
   digest: The DMA engine's transfer, loop by loop. -/

import LinuxDeviceDriver.Qemu.Pcie.State

set_option autoImplicit false

namespace LinuxDeviceDriver.Qemu.Pcie.Transfer

open Lib.LittleEndian
open Lib.ScatterGather
open State

/-- The sum wraps at 64 bits, as the C expression does. -/
def lddPcieDmaOk (ps : LDDPCIEState) (addr len : BitVec 64) : Bool :=
  ps.props.dma64 || decide (addr + len ≤ 4294967296#64)

/-- sizeof(LDDPCIEDesc). -/
def descSize : Nat := 16

/-- Entry i of the buffer the table was read into, converted from little endian. -/
def descAt (buf : List Byte) (i : Nat) : LDDPCIEDesc :=
  let e := buf.drop (descSize * i)
  { addr := BitVec.ofNat 64 (leNat (e.take 8))
    len := BitVec.ofNat 32 (leNat ((e.drop 8).take 4))
    flags := BitVec.ofNat 32 (leNat ((e.drop 12).take 4)) }

def descTable (buf : List Byte) (count : Nat) : List LDDPCIEDesc :=
  (List.range count).map (descAt buf)

/-- An entry as the guest lays it out in memory. -/
def descBytes (d : LDDPCIEDesc) : List Byte :=
  leBytes 8 d.addr.toNat ++ (leBytes 4 d.len.toNat ++ leBytes 4 d.flags.toNat)

@[simp] theorem descBytes_length (d : LDDPCIEDesc) : (descBytes d).length = descSize := by
  simp [descBytes, descSize]

/-- A table as the guest lays it out in memory. -/
def tableBytes (ds : List LDDPCIEDesc) : List Byte := ds.flatMap descBytes

@[simp] theorem tableBytes_length (ds : List LDDPCIEDesc) :
    (tableBytes ds).length = ds.length * descSize := by
  induction ds with
  | nil => rfl
  | cons d ds ih =>
    rw [tableBytes, List.flatMap_cons, List.length_append, descBytes_length, ← tableBytes, ih,
      List.length_cons, Nat.succ_mul, Nat.add_comm]

theorem descAt_descBytes (d : LDDPCIEDesc) (rest : List Byte) :
    descAt (descBytes d ++ rest) 0 = d := by
  have h8 : (leBytes 8 d.addr.toNat).length = 8 := leBytes_length _ _
  have h4 : (leBytes 4 d.len.toNat).length = 4 := leBytes_length _ _
  have h4' : (leBytes 4 d.flags.toNat).length = 4 := leBytes_length _ _
  have ha : BitVec.ofNat 64 (leNat (leBytes 8 d.addr.toNat)) = d.addr :=
    ofNat_leNat_leBytes 64 8 rfl d.addr
  have hl : BitVec.ofNat 32 (leNat (leBytes 4 d.len.toNat)) = d.len :=
    ofNat_leNat_leBytes 32 4 rfl d.len
  have hf : BitVec.ofNat 32 (leNat (leBytes 4 d.flags.toNat)) = d.flags :=
    ofNat_leNat_leBytes 32 4 rfl d.flags
  have e1 : ((descBytes d ++ rest).take 8) = leBytes 8 d.addr.toNat := by
    rw [descBytes, List.append_assoc, List.take_left' h8]
  have e2 : (((descBytes d ++ rest).drop 8).take 4) = leBytes 4 d.len.toNat := by
    rw [descBytes, List.append_assoc, List.drop_left' h8, List.append_assoc, List.take_left' h4]
  have e3 : (((descBytes d ++ rest).drop 12).take 4) = leBytes 4 d.flags.toNat := by
    have hd : (descBytes d ++ rest).drop 12 = ((descBytes d ++ rest).drop 8).drop 4 := by
      rw [List.drop_drop]
    rw [hd, descBytes, List.append_assoc, List.drop_left' h8, List.append_assoc,
      List.drop_left' h4, List.take_left' h4']
  simp only [descAt, Nat.mul_zero, List.drop_zero, e1, e2, e3, ha, hl, hf]

theorem descTable_tableBytes (ds : List LDDPCIEDesc) :
    descTable (tableBytes ds) ds.length = ds := by
  induction ds with
  | nil => rfl
  | cons d ds ih =>
    have hsplit : tableBytes (d :: ds) = descBytes d ++ tableBytes ds := rfl
    have hnext : ∀ i, descAt (tableBytes (d :: ds)) (i + 1) = descAt (tableBytes ds) i := by
      intro i
      unfold descAt
      rw [hsplit, Nat.mul_succ, Nat.add_comm, ← List.drop_drop,
        List.drop_left' (descBytes_length d)]
    rw [descTable, List.length_cons, List.range_succ_eq_map, List.map_cons, List.map_map, hsplit,
      descAt_descBytes, ← hsplit]
    refine congrArg (d :: ·) (Eq.trans ?_ ih)
    apply List.map_congr_left
    intro i _
    exact hnext i

def pciDmaRead (m : Machine) (addr : BitVec 64) (buf : List Byte) :
    MemTxResult × List Byte × Machine :=
  let r := m.bus.read m.guest addr buf
  (r.1, r.2, { m with trace := m.trace ++ [⟨false, addr, buf.length⟩] })

def pciDmaWrite (m : Machine) (addr : BitVec 64) (bs : List Byte) : MemTxResult × Machine :=
  let r := m.bus.write m.guest addr bs
  (r.1, { m with guest := r.2, trace := m.trace ++ [⟨true, addr, bs.length⟩] })

def setRam (m : Machine) (ram : Nat → Byte) : Machine :=
  { m with ps := { m.ps with bar2 := { m.ps.bar2 with ram := ram } } }

def setErrDesc (m : Machine) (i : BitVec 32) : Machine :=
  { m with ps := { m.ps with regs := { m.ps.regs with errDesc := i } } }

def addXferBytes (m : Machine) (len : BitVec 32) : Machine :=
  { m with ps := { m.ps with regs :=
    { m.ps.regs with xferBytes := m.ps.regs.xferBytes + len } } }

def memoryRegionSetDirty (m : Machine) (addr size : Nat) : Machine :=
  { m with ps := { m.ps with bar2 :=
    { m.ps.bar2 with dirty := (addr, size) :: m.ps.bar2.dirty } } }

/-- The first loop: convert and check every descriptor, adding up the lengths.
The error is the index of the descriptor that failed. -/
def checkDescs (maxSeg : BitVec 32) :
    List LDDPCIEDesc → BitVec 32 → BitVec 64 → Except (BitVec 32) (BitVec 64)
  | [], _, total => .ok total
  | d :: ds, i, total =>
    if d.len = 0 ∨ d.len > maxSeg ∨ d.flags ≠ 0 then .error i
    else checkDescs maxSeg ds (i + 1) (total + d.len.setWidth 64)

/-- One round of the copy loop, up to its result. -/
def copySeg (toGuest : Bool) (d : LDDPCIEDesc) (off : BitVec 32) (m : Machine) :
    MemTxResult × Machine :=
  let mem := m.ps.bar2.ram
  if lddPcieDmaOk m.ps d.addr (d.len.setWidth 64) = false then (.decodeError, m)
  else if toGuest = true ∧ m.ps.regs.xor ≠ 0 then
    pciDmaWrite m d.addr ((List.range d.len.toNat).map fun j =>
      mem (off + BitVec.ofNat 32 j).toNat ^^^ m.ps.regs.xor.setWidth 8)
  else if toGuest = true then
    pciDmaWrite m d.addr ((List.range' off.toNat d.len.toNat).map mem)
  else
    let r := pciDmaRead m d.addr ((List.range' off.toNat d.len.toNat).map mem)
    (r.1, setRam r.2.2 (store mem (List.range' off.toNat d.len.toNat) r.2.1))

/-- The copy loop. It ends with the running offset, or with none at a fault. -/
def copySegs (toGuest : Bool) :
    List LDDPCIEDesc → BitVec 32 → BitVec 32 → Machine → Option (BitVec 32) × Machine
  | [], _, off, m => (some off, m)
  | d :: ds, i, off, m =>
    let r := copySeg toGuest d off m
    if r.1 ≠ .ok then (none, setErrDesc r.2 i)
    else copySegs toGuest ds (i + 1) (off + d.len) (addXferBytes r.2 d.len)

/-- The part of ldd_pcie_transfer that moves the data, lines 205 to 240. -/
def transferCopy (desc : List LDDPCIEDesc) (m : Machine) : BitVec 32 × Machine :=
  let off := m.ps.regs.devOffset
  match copySegs (anySet m.ps.regs.dmaCtrl lddDmaCtrlDir) desc 0 off m with
  | (none, m) => (lddErrDmaFault, m)
  | (some end_, m) => (0, memoryRegionSetDirty m off.toNat (end_ - off).toNat)

/-- The part that checks the descriptors before any data is moved, lines 187 to 203. -/
def transferCheck (desc : List LDDPCIEDesc) (m : Machine) : BitVec 32 × Machine :=
  match checkDescs m.ps.props.maxSeg desc 0 0 with
  | .error i => (lddErrBadDesc, setErrDesc m i)
  | .ok total =>
    if m.ps.regs.devOffset.setWidth 64 > BitVec.ofNat 64 lddMemSize ∨
        total > BitVec.ofNat 64 lddMemSize - m.ps.regs.devOffset.setWidth 64 then
      (lddErrOutOfRange, m)
    else transferCopy desc m

def lddPcieTransfer (m : Machine) : BitVec 32 × Machine :=
  let count := m.ps.regs.descCount
  if m.ps.pdev.command &&& pciCommandMaster = 0 then (lddErrNoMaster, m)
  else if count = 0 ∨ count > m.ps.props.maxDesc then (lddErrBadCount, m)
  else if lddPcieDmaOk m.ps m.ps.regs.descAddr
      (count.setWidth 64 * BitVec.ofNat 64 descSize) = false then (lddErrDmaFault, m)
  else
    let r := pciDmaRead m m.ps.regs.descAddr (List.replicate (count.toNat * descSize) 0)
    if r.1 ≠ .ok then (lddErrDmaFault, r.2.2)
    else transferCheck (descTable r.2.1 count.toNat) r.2.2

end LinuxDeviceDriver.Qemu.Pcie.Transfer
