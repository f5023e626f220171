/- source: examples/28_dma_sg/main.c, lines 136 to 147; examples/27_dma/main.c, lines 59 to 66
   digest: The descriptor table a driver writes is the one the device checks and walks. -/

import LinuxDeviceDriver.Drivers.DmaHost

set_option autoImplicit false

namespace LinuxDeviceDriver.Drivers.DescTable

open Lib.LittleEndian
open Lib.ScatterGather
open Qemu.Pcie
open State Transfer TransferOutcome Registers Copy DmaHost

/-- Coherent memory for a table: dma_alloc_coherent aligns it to a page at least. -/
structure CoherentTable where
  bus : BitVec 64
  aligned : Aligned bus

/-- One store into the array of descriptors, little endian. -/
def storeDesc (guest : Memory) (desc : CoherentTable) (i : Nat) (d : LDDPCIEDesc) : Memory :=
  store guest (dmaRange (desc.bus + BitVec.ofNat 64 (descSize * i)) descSize) (descBytes d)

/-- The loop that fills the table from index i on. It ends in none where the
index leaves the array. -/
def storeDescs (desc : CoherentTable) (size : Nat) :
    Memory → Nat → List LDDPCIEDesc → Option Memory
  | guest, _, [] => some guest
  | guest, i, d :: ds =>
    if i < size then storeDescs desc size (storeDesc guest desc i d) (i + 1) ds else none

/-- The memory with the table written to it. -/
def withTable (guest : Memory) (desc : CoherentTable) (ds : List LDDPCIEDesc) : Memory :=
  store guest (dmaRange desc.bus (ds.length * descSize)) (tableBytes ds)

private theorem storeDescs_from (desc : CoherentTable) (size : Nat) (guest : Memory) (i : Nat)
    (ds : List LDDPCIEDesc) (hfit : i + ds.length ≤ size) :
    storeDescs desc size guest i ds = some (store guest
      (dmaRange (desc.bus + BitVec.ofNat 64 (descSize * i)) (ds.length * descSize))
      (tableBytes ds)) := by
  induction ds generalizing guest i with
  | nil => simp [storeDescs, dmaRange]
  | cons d ds ih =>
    rw [List.length_cons] at hfit
    have hbytes : tableBytes (d :: ds) = descBytes d ++ tableBytes ds := rfl
    have hlen : (d :: ds).length * descSize = descSize + ds.length * descSize := by
      rw [List.length_cons, Nat.succ_mul, Nat.add_comm]
    have hnext : desc.bus + BitVec.ofNat 64 (descSize * i) + BitVec.ofNat 64 descSize =
        desc.bus + BitVec.ofNat 64 (descSize * (i + 1)) := by
      rw [BitVec.add_assoc, ← BitVec.ofNat_add, Nat.mul_succ]
    rw [storeDescs, if_pos (by omega), ih _ _ (by omega), hbytes, hlen, dmaRange_append, hnext,
      store_append _ _ _ _ _ (by simp)]
    rfl

theorem storeDescs_eq (desc : CoherentTable) (size : Nat) (guest : Memory)
    (ds : List LDDPCIEDesc) (hfit : ds.length ≤ size) :
    storeDescs desc size guest 0 ds = some (withTable guest desc ds) := by
  have h := storeDescs_from desc size guest 0 ds (by omega)
  rw [Nat.mul_zero, show BitVec.ofNat 64 0 = 0#64 from rfl, BitVec.add_zero] at h
  exact h

theorem tableOf_withTable (m : Machine) (guest : Memory) (desc : CoherentTable)
    (ds : List LDDPCIEDesc) (hguest : m.guest = withTable guest desc ds)
    (haddr : m.ps.regs.descAddr = desc.bus) (hcount : m.ps.regs.descCount.toNat = ds.length)
    (hlen : ds.length ≤ 4096) : tableOf m = ds := by
  have hnodup : (dmaRange desc.bus (ds.length * descSize)).Nodup := by
    apply dmaRange_nodup
    unfold descSize
    omega
  have hread : (dmaRange desc.bus (ds.length * descSize)).map m.guest = tableBytes ds := by
    rw [hguest]
    exact map_store _ _ _ hnodup (by simp)
  rw [tableOf, tableLen, haddr, hcount, hread]
  exact descTable_tableBytes ds

/-- A table no check of the device finds fault with. -/
structure GoodTable (ps : LDDPCIEState) (ds : List LDDPCIEDesc) (pos : Nat) : Prop where
  nonempty : 1 ≤ ds.length
  count : ds.length ≤ ps.props.maxDesc.toNat
  desc : ∀ d ∈ ds, DescOk ps.props.maxSeg d
  fits : pos + totalLen ds ≤ lddMemSize

section Launch

variable (m : Machine) (guest : Memory) (desc : CoherentTable) (ds : List LDDPCIEDesc) (pos : Nat)
  (dir : DmaDataDirection) (xor : BitVec 32)

/-- What START finds passes every check of ldd_pcie_transfer. -/
theorem launched_checks (hguest : m.guest = withTable guest desc ds)
    (hgood : GoodTable m.ps ds pos) :
    let l := launched m desc.bus ds.length pos dir xor
    tableOf l = ds ∧ CountOk l ∧ (∀ d ∈ tableOf l, DescOk l.ps.props.maxSeg d) ∧ RangeOk l ∧
      l.ps.regs.devOffset.toNat = pos := by
  intro l
  have hmax := m.ps.props.desc_max
  have hn := hgood.count
  have hfit := hgood.fits
  have hcount : (BitVec.ofNat 32 ds.length).toNat = ds.length := by
    rw [BitVec.toNat_ofNat]
    omega
  have hpos : (BitVec.ofNat 32 pos).toNat = pos := by
    unfold lddMemSize at hfit
    rw [BitVec.toNat_ofNat]
    omega
  have htable : tableOf l = ds :=
    tableOf_withTable l guest desc ds hguest rfl hcount (by omega)
  refine ⟨htable, ⟨?_, ?_⟩, ?_, ?_, hpos⟩
  · show 1 ≤ (BitVec.ofNat 32 ds.length).toNat
    rw [hcount]
    exact hgood.nonempty
  · show (BitVec.ofNat 32 ds.length).toNat ≤ m.ps.props.maxDesc.toNat
    rw [hcount]
    exact hn
  · rw [htable]
    exact hgood.desc
  · show (BitVec.ofNat 32 pos).toNat + totalLen (tableOf l) ≤ lddMemSize
    rw [htable, hpos]
    exact hfit

/-- With bus mastering on, a transfer with a good table succeeds or faults. -/
theorem launched_code (hguest : m.guest = withTable guest desc ds)
    (hgood : GoodTable m.ps ds pos) :
    let code := (lddPcieStart (launched m desc.bus ds.length pos dir xor)).ps.regs.result
    code = 0 ∨ (code = lddErrNoMaster ∧ ¬ Master m) ∨ code = lddErrDmaFault := by
  obtain ⟨-, hcount, hdesc, hrange, -⟩ := launched_checks m guest desc ds pos dir xor hguest hgood
  exact (transfer_outcome (startRegs (launched m desc.bus ds.length pos dir xor))).code_of_checks
    hcount hdesc hrange

/-- What the write of START finds passes every check of ldd_pcie_transfer, and
ERR_CODE names none of them. -/
structure LaunchOk (l : Machine) (code : BitVec 32) : Prop where
  count : CountOk l
  desc : ∀ d ∈ tableOf l, DescOk l.ps.props.maxSeg d
  range : RangeOk l
  notCount : code ≠ lddErrBadCount
  notDesc : code ≠ lddErrBadDesc
  notRange : code ≠ lddErrOutOfRange

theorem launch_ok (hguest : m.guest = withTable guest desc ds) (hgood : GoodTable m.ps ds pos) :
    LaunchOk (withProgram m desc.bus ds.length pos dir xor)
      (lddPcieStart (launched m desc.bus ds.length pos dir xor)).ps.regs.result := by
  obtain ⟨-, hcount, hdesc, hrange, -⟩ := launched_checks m guest desc ds pos dir xor hguest hgood
  have hcode := launched_code m guest desc ds pos dir xor hguest hgood
  refine ⟨hcount, hdesc, hrange, ?_, ?_, ?_⟩ <;>
  · rcases hcode with h | ⟨h, -⟩ | h <;>
    · rw [h]
      decide

/-- The segments lie apart from each other and from the table. -/
structure Apart : Prop where
  segments : SegsDisjoint ds
  table : ∀ d ∈ ds, List.Disjoint (segRange d) (dmaRange desc.bus (ds.length * descSize))

theorem Apart.segsRange_map {desc : CoherentTable} {ds : List LDDPCIEDesc} (h : Apart desc ds)
    (guest : Memory) : (segsRange ds).map (withTable guest desc ds) = (segsRange ds).map guest := by
  refine map_store_disjoint _ _ _ _ ?_
  intro x hx ht
  obtain ⟨d, hd, hxd⟩ := List.mem_flatMap.mp hx
  exact h.table d hd hxd ht

/-- A successful transfer to the device stores the bytes of the segments. -/
theorem launched_toDevice (hguest : m.guest = withTable guest desc ds)
    (hgood : GoodTable m.ps ds pos) (hapart : Apart desc ds)
    (hcode : (lddPcieStart (launched m desc.bus ds.length pos .toDevice xor)).ps.regs.result = 0) :
    (lddPcieStart (launched m desc.bus ds.length pos .toDevice xor)).ps.bar2.ram =
      store m.ps.bar2.ram (List.range' pos (totalLen ds)) ((segsRange ds).map guest) := by
  obtain ⟨htable, -, -, -, hpos⟩ := launched_checks m guest desc ds pos .toDevice xor hguest hgood
  have h := (transfer_fetched (launched m desc.bus ds.length pos .toDevice xor) hcode
    (toGuest_launched m desc.bus ds.length pos .toDevice xor)).1
  rw [htable, hpos, gathered, show (launched m desc.bus ds.length pos .toDevice xor).guest =
    withTable guest desc ds from hguest, hapart.segsRange_map] at h
  exact h

/-- A successful transfer from the device, with nothing XORed in, leaves the
on-board bytes in the segments. -/
theorem launched_fromDevice (hguest : m.guest = withTable guest desc ds)
    (hgood : GoodTable m.ps ds pos) (hapart : Apart desc ds)
    (hcode : (lddPcieStart (launched m desc.bus ds.length pos .fromDevice 0)).ps.regs.result = 0) :
    let started := lddPcieStart (launched m desc.bus ds.length pos .fromDevice 0)
    started.ps.bar2.ram = m.ps.bar2.ram ∧
      (segsRange ds).map started.guest = (List.range' pos (totalLen ds)).map m.ps.bar2.ram := by
  intro started
  obtain ⟨htable, -, -, -, hpos⟩ := launched_checks m guest desc ds pos .fromDevice 0 hguest hgood
  obtain ⟨hg, hr⟩ := transfer_sent (launched m desc.bus ds.length pos .fromDevice 0) hcode
    (toGuest_launched m desc.bus ds.length pos .fromDevice 0)
  have hsent : sentBytes (launched m desc.bus ds.length pos .fromDevice 0) pos (totalLen ds) =
      (List.range' pos (totalLen ds)).map m.ps.bar2.ram := by
    apply List.map_congr_left
    intro i _
    exact BitVec.xor_zero
  rw [htable, hpos, hsent] at hg
  refine ⟨hr, ?_⟩
  rw [show started.guest = _ from hg]
  exact map_store _ _ _ (segsRange_nodup ds hapart.segments) (by simp)

end Launch

end LinuxDeviceDriver.Drivers.DescTable
