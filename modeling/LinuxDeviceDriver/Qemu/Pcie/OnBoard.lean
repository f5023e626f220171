/- source: tools/qemu/hw/ldd/pcie.c, lines 162 to 241 and 423 to 432
   digest: The on-board memory under a transfer: no sum over its lengths wraps, only the range
     at DEV_OFFSET is touched, and what has changed is reported dirty unless a fetch faults. -/

import LinuxDeviceDriver.Lib.MachineOps
import LinuxDeviceDriver.Qemu.Pcie.AddressLimit

set_option autoImplicit false

namespace LinuxDeviceDriver.Qemu.Pcie.OnBoard

open Lib.LittleEndian (Byte)
open Lib.MachineOps
open Lib.ScatterGather
open State Transfer TransferOutcome Registers Copy AddressLimit

/-! ## The transfer with its operations noted

The same loops as in Transfer. Each sum, difference and product of counts, lengths and
offsets is noted at the width the source computes it in, and so is each byte of the on-board
memory that the source reads, writes, or gives a DMA access to read or write. -/

def checkDescsNoted (maxSeg : BitVec 32) :
    List LDDPCIEDesc → BitVec 32 → BitVec 64 → Noted (Except (BitVec 32) (BitVec 64))
  | [], _, total => pure (.ok total)
  | d :: ds, i, total =>
    if d.len = 0 ∨ d.len > maxSeg ∨ d.flags ≠ 0 then pure (.error i)
    else do
      let total ← add total (d.len.setWidth 64)
      checkDescsNoted maxSeg ds (i + 1) total

def copySegNoted (toGuest : Bool) (d : LDDPCIEDesc) (off : BitVec 32) (m : Machine) :
    Noted (MemTxResult × Machine) :=
  let mem := m.ps.bar2.ram
  if lddPcieDmaOk m.ps d.addr (d.len.setWidth 64) = false then pure (.decodeError, m)
  else if toGuest = true ∧ m.ps.regs.xor ≠ 0 then do
    let buf ← each (fun j => do
      let i ← add off (BitVec.ofNat 32 j)
      touch [i.toNat]
      pure (mem i.toNat ^^^ m.ps.regs.xor.setWidth 8)) (List.range d.len.toNat)
    pure (pciDmaWrite m d.addr buf)
  else do
    -- mem + off and len are given to pci_dma_write or pci_dma_read
    touch (List.range' off.toNat d.len.toNat)
    if toGuest = true then
      pure (pciDmaWrite m d.addr ((List.range' off.toNat d.len.toNat).map mem))
    else
      let r := pciDmaRead m d.addr ((List.range' off.toNat d.len.toNat).map mem)
      pure (r.1, setRam r.2.2 (store mem (List.range' off.toNat d.len.toNat) r.2.1))

def setXferBytes (m : Machine) (n : BitVec 32) : Machine :=
  { m with ps := { m.ps with regs := { m.ps.regs with xferBytes := n } } }

def copySegsNoted (toGuest : Bool) :
    List LDDPCIEDesc → BitVec 32 → BitVec 32 → Machine → Noted (Option (BitVec 32) × Machine)
  | [], _, off, m => pure (some off, m)
  | d :: ds, i, off, m => do
    let r ← copySegNoted toGuest d off m
    if r.1 ≠ .ok then pure (none, setErrDesc r.2 i)
    else
      let off ← add off d.len
      let xferBytes ← add r.2.ps.regs.xferBytes d.len
      copySegsNoted toGuest ds (i + 1) off (setXferBytes r.2 xferBytes)

def transferCopyNoted (desc : List LDDPCIEDesc) (m : Machine) : Noted (BitVec 32 × Machine) := do
  let off := m.ps.regs.devOffset
  match ← copySegsNoted (anySet m.ps.regs.dmaCtrl lddDmaCtrlDir) desc 0 off m with
  | (none, m) => pure (lddErrDmaFault, m)
  | (some end_, m) =>
    let len ← sub end_ off
    pure (0, memoryRegionSetDirty m off.toNat len.toNat)

/-- The difference is only computed when the offset is not past the end. -/
def transferCheckNoted (desc : List LDDPCIEDesc) (m : Machine) : Noted (BitVec 32 × Machine) := do
  match ← checkDescsNoted m.ps.props.maxSeg desc 0 0 with
  | .error i => pure (lddErrBadDesc, setErrDesc m i)
  | .ok total =>
    let off := m.ps.regs.devOffset.setWidth 64
    if off > BitVec.ofNat 64 lddMemSize then pure (lddErrOutOfRange, m)
    else
      let room ← sub (BitVec.ofNat 64 lddMemSize) off
      if total > room then pure (lddErrOutOfRange, m) else transferCopyNoted desc m

def lddPcieTransferNoted (m : Machine) : Noted (BitVec 32 × Machine) := do
  let count := m.ps.regs.descCount
  if m.ps.pdev.command &&& pciCommandMaster = 0 then pure (lddErrNoMaster, m)
  else if count = 0 ∨ count > m.ps.props.maxDesc then pure (lddErrBadCount, m)
  else
    let size ← mul (count.setWidth 64) (BitVec.ofNat 64 descSize)
    if lddPcieDmaOk m.ps m.ps.regs.descAddr size = false then pure (lddErrDmaFault, m)
    else
      let r := pciDmaRead m m.ps.regs.descAddr (List.replicate size.toNat 0)
      if r.1 ≠ .ok then pure (lddErrDmaFault, r.2.2)
      else transferCheckNoted (descTable r.2.1 count.toNat) r.2.2

/-! Without the notes it is the transfer. -/

theorem checkDescsNoted_val (maxSeg : BitVec 32) (ds : List LDDPCIEDesc) (i : BitVec 32)
    (total : BitVec 64) :
    (checkDescsNoted maxSeg ds i total).val = checkDescs maxSeg ds i total := by
  induction ds generalizing i total with
  | nil => rfl
  | cons d ds ih =>
    unfold checkDescsNoted checkDescs
    split_ifs
    · rfl
    · rw [val_bind, val_add, ih]

theorem copySegNoted_val (dir : Bool) (d : LDDPCIEDesc) (off : BitVec 32) (m : Machine) :
    (copySegNoted dir d off m).val = copySeg dir d off m := by
  unfold copySegNoted copySeg
  split_ifs
  · rfl
  · rfl
  · rfl
  · rfl

theorem copySegsNoted_val (dir : Bool) (ds : List LDDPCIEDesc) (i off : BitVec 32) (m : Machine) :
    (copySegsNoted dir ds i off m).val = copySegs dir ds i off m := by
  induction ds generalizing i off m with
  | nil => rfl
  | cons d ds ih =>
    unfold copySegsNoted copySegs
    rw [val_bind, copySegNoted_val]
    dsimp only
    split_ifs
    · rfl
    · rw [val_bind, val_bind, val_add, val_add, ih]
      rfl

theorem transferCopyNoted_val (desc : List LDDPCIEDesc) (m : Machine) :
    (transferCopyNoted desc m).val = transferCopy desc m := by
  unfold transferCopyNoted transferCopy
  dsimp only
  rw [val_bind, copySegsNoted_val]
  rcases copySegs (anySet m.ps.regs.dmaCtrl lddDmaCtrlDir) desc 0 m.ps.regs.devOffset m with
    ⟨_ | end_, m'⟩
  · rfl
  · rfl

theorem transferCheckNoted_val (desc : List LDDPCIEDesc) (m : Machine) :
    (transferCheckNoted desc m).val = transferCheck desc m := by
  unfold transferCheckNoted transferCheck
  rw [val_bind, checkDescsNoted_val]
  cases checkDescs m.ps.props.maxSeg desc 0 0 with
  | error i => rfl
  | ok total =>
    dsimp only
    by_cases hoff : m.ps.regs.devOffset.setWidth 64 > BitVec.ofNat 64 lddMemSize
    · rw [if_pos hoff, if_pos (.inl hoff), val_pure]
    by_cases hroom : total > BitVec.ofNat 64 lddMemSize - m.ps.regs.devOffset.setWidth 64
    · rw [if_neg hoff, if_pos (.inr hroom)]
      refine (val_bind_eq ?_).trans (val_pure _)
      exact if_pos hroom
    · rw [if_neg hoff, if_neg (not_or.mpr ⟨hoff, hroom⟩), ← transferCopyNoted_val]
      apply val_bind_eq
      exact if_neg hroom

private theorem tableSize_exact (count : BitVec 32) :
    (count.setWidth 64).toNat * (BitVec.ofNat 64 descSize).toNat = count.toNat * descSize ∧
      count.toNat * descSize < 2 ^ 64 := by
  have hc := count.isLt
  rw [BitVec.toNat_setWidth, BitVec.toNat_ofNat]
  unfold descSize
  omega

private theorem tableSize_toNat (count : BitVec 32) :
    (count.setWidth 64 * BitVec.ofNat 64 descSize).toNat = count.toNat * descSize := by
  obtain ⟨hprod, hfit⟩ := tableSize_exact count
  rw [BitVec.toNat_mul, hprod, Nat.mod_eq_of_lt hfit]

theorem lddPcieTransferNoted_val (m : Machine) :
    (lddPcieTransferNoted m).val = lddPcieTransfer m := by
  have hsize := tableSize_toNat m.ps.regs.descCount
  unfold lddPcieTransferNoted lddPcieTransfer
  dsimp only
  split_ifs with hmaster hcount hok hread
  · rfl
  · rfl
  · rw [val_bind, val_mul, if_pos hok, val_pure]
  · rw [val_bind, val_mul, if_neg hok, hsize, if_pos hread, val_pure]
  · rw [val_bind, val_mul, if_neg hok, hsize, if_neg hread, transferCheckNoted_val]

/-! No byte changes that is not noted. -/

theorem copySegNoted_changed (dir : Bool) (d : LDDPCIEDesc) (off : BitVec 32) (m : Machine)
    {x : Nat} (hx : (copySeg dir d off m).2.ps.bar2.ram x ≠ m.ps.bar2.ram x) :
    .touch x ∈ (copySegNoted dir d off m).notes := by
  have hframe := (copySeg_frame dir d off m).1 x
  cases dir with
  | true => exact absurd (hframe (.inr rfl)) hx
  | false =>
    have hin : x ∈ List.range' off.toNat d.len.toNat := not_not.mp fun h => hx (hframe (.inl h))
    cases hok : lddPcieDmaOk m.ps d.addr (d.len.setWidth 64) with
    | false =>
      rw [copySeg_refused false d off m hok] at hx
      exact absurd rfl hx
    | true =>
      unfold copySegNoted
      dsimp only
      rw [hok, if_neg (by decide), if_neg (by simp)]
      exact mem_notes_bind.mpr (.inl (mem_notes_touch hin))

theorem copySegsNoted_changed (dir : Bool) (ds : List LDDPCIEDesc) (i off : BitVec 32) (m : Machine)
    {x : Nat} (hx : (copySegs dir ds i off m).2.ps.bar2.ram x ≠ m.ps.bar2.ram x) :
    .touch x ∈ (copySegsNoted dir ds i off m).notes := by
  induction ds generalizing i off m with
  | nil => exact absurd rfl hx
  | cons d ds ih =>
    unfold copySegs at hx
    unfold copySegsNoted
    apply mem_notes_bind.mpr
    by_cases hseg : (copySeg dir d off m).2.ps.bar2.ram x = m.ps.bar2.ram x
    swap
    · exact .inl (copySegNoted_changed dir d off m hseg)
    rw [← hseg] at hx
    rw [copySegNoted_val]
    dsimp only at hx ⊢
    split_ifs at hx ⊢ with hok
    · exact absurd rfl hx
    · exact .inr (mem_notes_bind.mpr (.inr (mem_notes_bind.mpr (.inr (ih _ _ _ hx)))))

theorem transferCopyNoted_changed (desc : List LDDPCIEDesc) (m : Machine) {x : Nat}
    (hx : (transferCopy desc m).2.ps.bar2.ram x ≠ m.ps.bar2.ram x) :
    .touch x ∈ (transferCopyNoted desc m).notes := by
  -- reporting a range dirty leaves the bytes as they are
  have hram : (transferCopy desc m).2.ps.bar2.ram = (copySegs (anySet m.ps.regs.dmaCtrl
      lddDmaCtrlDir) desc 0 m.ps.regs.devOffset m).2.ps.bar2.ram := by
    unfold transferCopy
    dsimp only
    rcases copySegs (anySet m.ps.regs.dmaCtrl lddDmaCtrlDir) desc 0 m.ps.regs.devOffset m with
      ⟨_ | end_, m'⟩
    · rfl
    · rfl
  rw [hram] at hx
  exact mem_notes_bind.mpr (.inl (copySegsNoted_changed _ desc 0 _ m hx))

theorem transferCheckNoted_changed (desc : List LDDPCIEDesc) (m : Machine) {x : Nat}
    (hx : (transferCheck desc m).2.ps.bar2.ram x ≠ m.ps.bar2.ram x) :
    .touch x ∈ (transferCheckNoted desc m).notes := by
  unfold transferCheck at hx
  refine mem_notes_bind.mpr (.inr ?_)
  rw [checkDescsNoted_val]
  cases hcheck : checkDescs m.ps.props.maxSeg desc 0 0 with
  | error i =>
    rw [hcheck] at hx
    exact absurd rfl hx
  | ok total =>
    rw [hcheck] at hx
    dsimp only at hx ⊢
    split_ifs at hx with hrange
    · exact absurd rfl hx
    · obtain ⟨hoff, hroom⟩ := not_or.mp hrange
      rw [if_neg hoff]
      refine mem_notes_bind_eq ?_ (transferCopyNoted_changed desc m hx)
      exact if_neg hroom

theorem lddPcieTransferNoted_changed (m : Machine) {x : Nat}
    (hx : (lddPcieTransfer m).2.ps.bar2.ram x ≠ m.ps.bar2.ram x) :
    .touch x ∈ (lddPcieTransferNoted m).notes := by
  unfold lddPcieTransfer at hx
  unfold lddPcieTransferNoted
  dsimp only at hx ⊢
  split_ifs at hx ⊢ with hmaster hcount hok hread
  · exact absurd rfl hx
  · exact absurd rfl hx
  · exact absurd rfl hx
  · exact absurd rfl hx
  · refine mem_notes_bind.mpr (.inr ?_)
    rw [val_mul, if_neg hok, tableSize_toNat, if_neg hread]
    exact transferCheckNoted_changed _ _ hx

/-! ## What the notes say -/

/-- The sum of the lengths fits 64 bits as long as every length is within its limit. -/
theorem checkDescsNoted_sound {P : Nat → Prop} (maxSeg : BitVec 32) (ds : List LDDPCIEDesc)
    (i : BitVec 32) (total : BitVec 64)
    (hfit : total.toNat + ds.length * maxSeg.toNat < 2 ^ 64) :
    (checkDescsNoted maxSeg ds i total).Sound P := by
  induction ds generalizing i total with
  | nil => exact sound_pure _
  | cons d ds ih =>
    unfold checkDescsNoted
    rw [List.length_cons, Nat.succ_mul] at hfit
    split_ifs with hbad
    · exact sound_pure _
    · have hlen : d.len.toNat ≤ maxSeg.toNat := ((descOk_iff maxSeg d).mp hbad).2.1
      have hwide : (d.len.setWidth 64).toNat = d.len.toNat := by
        have hl := d.len.isLt
        rw [BitVec.toNat_setWidth]
        omega
      have hsum : (total + d.len.setWidth 64).toNat = total.toNat + d.len.toNat := by
        rw [BitVec.toNat_add, hwide]
        omega
      refine sound_bind (sound_add (by omega)) (ih _ _ ?_)
      rw [val_add, hsum]
      omega

/-- A segment touches the bytes from its offset on, as many as it is long. -/
theorem copySegNoted_sound (dir : Bool) (d : LDDPCIEDesc) (off : BitVec 32) (m : Machine)
    (hfit : off.toNat + d.len.toNat ≤ lddMemSize) :
    (copySegNoted dir d off m).Sound
      (fun i => off.toNat ≤ i ∧ i < off.toNat + d.len.toNat) := by
  have hrange : ∀ i ∈ List.range' off.toNat d.len.toNat,
      off.toNat ≤ i ∧ i < off.toNat + d.len.toNat := fun i hi => List.mem_range'_1.mp hi
  unfold copySegNoted
  dsimp only
  split_ifs with hok hxor
  · exact sound_pure _
  · refine sound_bind (sound_each ?_) (sound_pure _)
    intro j hj
    have hj := List.mem_range.mp hj
    have hoff := toNat_off_add off hj hfit
    have hword : (BitVec.ofNat 32 j).toNat = j := by
      have hl := d.len.isLt
      rw [BitVec.toNat_ofNat]
      omega
    unfold lddMemSize at hfit
    refine sound_bind (sound_add (by omega)) (sound_bind (sound_touch ?_) (sound_pure _))
    intro i hi
    rw [List.mem_singleton.mp hi, val_add, hoff]
    omega
  · exact sound_bind (sound_touch hrange) (sound_pure _)
  · exact sound_bind (sound_touch hrange) (sound_pure _)

/-- The copy loop stays in the range that its segments fill, one behind the other. -/
theorem copySegsNoted_sound (dir : Bool) (ds : List LDDPCIEDesc) (i off : BitVec 32) (m : Machine)
    (hfit : off.toNat + totalLen ds ≤ lddMemSize)
    (hxfer : m.ps.regs.xferBytes.toNat + totalLen ds < 2 ^ 32) :
    (copySegsNoted dir ds i off m).Sound
      (fun i => off.toNat ≤ i ∧ i < off.toNat + totalLen ds) := by
  induction ds generalizing i off m with
  | nil => exact sound_pure _
  | cons d ds ih =>
    rw [totalLen_cons] at hfit hxfer ⊢
    have hregs : (copySeg dir d off m).2.ps.regs.xferBytes = m.ps.regs.xferBytes := by
      rw [copySeg_regs]
    have hoff : (off + d.len).toNat = off.toNat + d.len.toNat := by
      rw [BitVec.toNat_add]
      unfold lddMemSize at hfit
      omega
    have hbytes : (m.ps.regs.xferBytes + d.len).toNat =
        m.ps.regs.xferBytes.toNat + d.len.toNat := by
      rw [BitVec.toNat_add]
      omega
    unfold copySegsNoted
    refine sound_bind ((copySegNoted_sound dir d off m (by omega)).mono fun i hi => by omega) ?_
    rw [copySegNoted_val]
    split_ifs
    · exact sound_pure _
    · rw [hregs]
      unfold lddMemSize at hfit
      refine sound_bind (sound_add (by omega)) (sound_bind (sound_add (by omega)) ?_)
      rw [val_add, val_add]
      have hrest : off.toNat + d.len.toNat + totalLen ds ≤ lddMemSize := by
        unfold lddMemSize
        omega
      rw [← hoff] at hrest
      refine (ih (i + 1) (off + d.len) _ hrest ?_).mono fun i hi => by omega
      change (m.ps.regs.xferBytes + d.len).toNat + totalLen ds < 2 ^ 32
      omega

/-- The byte is one of those from DEV_OFFSET on, as many as the descriptors add up to, and
all of these are within the memory. -/
def InTarget (off : BitVec 32) (ds : List LDDPCIEDesc) (i : Nat) : Prop :=
  off.toNat ≤ i ∧ i < off.toNat + totalLen ds ∧ off.toNat + totalLen ds ≤ lddMemSize

theorem transferCopyNoted_sound (desc : List LDDPCIEDesc) (m : Machine)
    (hfit : m.ps.regs.devOffset.toNat + totalLen desc ≤ lddMemSize)
    (hxfer : m.ps.regs.xferBytes = 0) :
    (transferCopyNoted desc m).Sound (InTarget m.ps.regs.devOffset desc) := by
  have hsmall : totalLen desc < 2 ^ 32 := by
    unfold lddMemSize at hfit
    omega
  have hcopy := copySegsNoted_sound (anySet m.ps.regs.dmaCtrl lddDmaCtrlDir) desc 0
    m.ps.regs.devOffset m hfit (by rw [hxfer]; simpa using hsmall)
  unfold transferCopyNoted
  refine sound_bind (hcopy.mono fun i hi => ⟨hi.1, hi.2, hfit⟩) ?_
  rw [copySegsNoted_val]
  rcases copySegs_cases (anySet m.ps.regs.dmaCtrl lddDmaCtrlDir) desc 0 m.ps.regs.devOffset m hfit
    with ⟨-, hrun⟩ | ⟨pre, d, post, -, -, -, hrun⟩
  · rw [hrun]
    refine sound_bind (sound_sub ?_) (sound_pure _)
    rw [BitVec.toNat_add, BitVec.toNat_ofNat]
    unfold lddMemSize at hfit
    omega
  · rw [hrun]
    exact sound_pure _

theorem transferCheckNoted_sound (desc : List LDDPCIEDesc) (m : Machine)
    (hlen : desc.length ≤ 4096) (hxfer : m.ps.regs.xferBytes = 0) :
    (transferCheckNoted desc m).Sound (InTarget m.ps.regs.devOffset desc) := by
  have hmost : desc.length * m.ps.props.maxSeg.toNat ≤ 4096 * 1048576 :=
    Nat.mul_le_mul hlen m.ps.props.seg_max
  have hzero : (0 : BitVec 64).toNat = 0 := rfl
  unfold transferCheckNoted
  refine sound_bind (checkDescsNoted_sound _ _ _ _ (by omega)) ?_
  rw [checkDescsNoted_val]
  rcases checkDescs_cases m.ps.props.maxSeg desc 0 0 with
    ⟨good, hrun⟩ | ⟨pre, d, post, -, -, -, hrun⟩
  · have hsum := totalLen_le m.ps.props.maxSeg desc good
    have hoff : (m.ps.regs.devOffset.setWidth 64).toNat = m.ps.regs.devOffset.toNat := by
      have ho := m.ps.regs.devOffset.isLt
      rw [BitVec.toNat_setWidth]
      omega
    have htotal : ((0 : BitVec 64) + BitVec.ofNat 64 (totalLen desc)).toNat = totalLen desc := by
      rw [BitVec.toNat_add, BitVec.toNat_ofNat]
      omega
    have hmem : (BitVec.ofNat 64 lddMemSize).toNat = lddMemSize := by decide
    rw [hrun]
    dsimp only
    split_ifs with hpast
    · exact sound_pure _
    · rw [gt_iff_lt, BitVec.lt_def, hoff, hmem] at hpast
      refine sound_bind (sound_sub (by omega)) ?_
      rw [val_sub]
      split_ifs with hroom
      · exact sound_pure _
      · refine transferCopyNoted_sound desc m ?_ hxfer
        rw [gt_iff_lt, BitVec.lt_def, BitVec.toNat_sub, htotal, hoff, hmem] at hroom
        unfold lddMemSize at hroom hpast ⊢
        omega
  · rw [hrun]
    exact sound_pure _

theorem lddPcieTransferNoted_sound (m : Machine) (hxfer : m.ps.regs.xferBytes = 0) :
    (lddPcieTransferNoted m).Sound (InTarget m.ps.regs.devOffset (tableOf m)) := by
  obtain ⟨hprod, hfit⟩ := tableSize_exact m.ps.regs.descCount
  have hsize : (m.ps.regs.descCount.setWidth 64 * BitVec.ofNat 64 descSize).toNat = tableLen m :=
    tableSize_toNat m.ps.regs.descCount
  unfold lddPcieTransferNoted
  dsimp only
  split_ifs with hmaster hcount
  · exact sound_pure _
  · exact sound_pure _
  · refine sound_bind (sound_mul (by omega)) ?_
    rw [val_mul, hsize]
    split_ifs with hok hread
    · exact sound_pure _
    · exact sound_pure _
    · -- the bus has answered, so the descriptors are those of the table in guest memory
      have hbytes := m.bus.read_ok _ _ _ (not_not.mp hread)
      rw [List.length_replicate] at hbytes
      have htable : descTable (pciDmaRead m m.ps.regs.descAddr
          (List.replicate (tableLen m) 0)).2.1 m.ps.regs.descCount.toNat = tableOf m :=
        congrArg (descTable · m.ps.regs.descCount.toNat) hbytes
      have hcount : (tableOf m).length ≤ 4096 := by
        rw [tableOf_length]
        exact ((countOk_iff m).mp hcount).2.trans m.ps.props.desc_max
      rw [htable]
      exact transferCheckNoted_sound (tableOf m) _ hcount hxfer

/-- Whatever the registers hold when START is written, and whatever the table: no sum,
difference or product over counts, lengths and offsets wraps, and every byte of the on-board
memory that is touched is in [DEV_OFFSET, DEV_OFFSET + total), within the memory. -/
theorem transfer_exact_and_in_bounds (m : Machine) :
    let r := lddPcieTransferNoted (startRegs m)
    let base := m.ps.regs.devOffset.toNat
    let total := totalLen (tableOf m)
    r.val = lddPcieTransfer (startRegs m) ∧
    (∀ o, .op o ∈ r.notes → o.Exact) ∧
    (∀ i, .touch i ∈ r.notes → base ≤ i ∧ i < base + total ∧ base + total ≤ lddMemSize) ∧
    ∀ i, r.val.2.ps.bar2.ram i ≠ m.ps.bar2.ram i → .touch i ∈ r.notes := by
  intro r base total
  have hval : r.val = lddPcieTransfer (startRegs m) := lddPcieTransferNoted_val _
  have hsound := lddPcieTransferNoted_sound (startRegs m) rfl
  refine ⟨hval, fun o ho => hsound.exact ho, fun i hi => hsound.touched hi, ?_⟩
  intro i hi
  rw [hval] at hi
  exact lddPcieTransferNoted_changed (startRegs m) hi

/-- Two bytes sent through XOR, from the fourth on. -/
example : (lddPcieTransferNoted (startRegs (sample defaultProps
    { devOffset := 4, dmaCtrl := 1, xor := 0xff } [⟨0x2000, 2, 0⟩]))).notes =
    [.op (.mul 64 1 16), .op (.add 64 0 2), .op (.sub 64 1048576 4),
      .op (.add 32 4 0), .touch 4, .op (.add 32 4 1), .touch 5,
      .op (.add 32 4 2), .op (.add 32 0 2), .op (.sub 32 6 4)] := by
  decide +kernel

/-! ## What is reported dirty -/

/-- The transfer from m to out has passed ranges to memory_region_set_dirty, and every byte
that it changed is in one of them. -/
def ReportsChanges (m out : Machine) : Prop :=
  ∃ ranges, out.ps.bar2.dirty = ranges ++ m.ps.bar2.dirty ∧
    ∀ x, out.ps.bar2.ram x ≠ m.ps.bar2.ram x → ∃ r ∈ ranges, r.1 ≤ x ∧ x < r.1 + r.2

theorem reportsChanges_of_same {m out : Machine} (h : out.ps.bar2 = m.ps.bar2) :
    ReportsChanges m out := by
  refine ⟨[], by rw [h]; rfl, ?_⟩
  intro x hx
  rw [h] at hx
  exact absurd rfl hx

theorem segsCopied_dirty (dir : Bool) (off : Nat) (ds : List LDDPCIEDesc) (m : Machine) :
    (segsCopied dir off ds m).ps.bar2.dirty = m.ps.bar2.dirty := by
  induction ds generalizing off m with
  | nil => rfl
  | cons d ds ih =>
    rw [segsCopied, ih]
    cases dir
    · rfl
    · rfl

/-- What has been copied has only changed the range the segments fill. -/
theorem segsCopied_outside (dir : Bool) (off : Nat) (ds : List LDDPCIEDesc) (m : Machine) {x : Nat}
    (hx : x < off ∨ off + totalLen ds ≤ x) :
    (segsCopied dir off ds m).ps.bar2.ram x = m.ps.bar2.ram x := by
  cases dir with
  | true => rw [(segsCopied_send off ds m).2]
  | false =>
    rw [(segsCopied_fetch off ds m).1]
    apply store_frame
    intro hmem
    have h := List.mem_range'_1.mp hmem
    omega

theorem copySeg_bar2_send (d : LDDPCIEDesc) (off : BitVec 32) (m : Machine) :
    (copySeg true d off m).2.ps.bar2 = m.ps.bar2 := by
  unfold copySeg
  dsimp only
  split_ifs
  · rfl
  · rfl
  · rfl
  · contradiction

theorem segsCopied_bar2_send (off : Nat) (ds : List LDDPCIEDesc) (m : Machine) :
    (segsCopied true off ds m).ps.bar2 = m.ps.bar2 := by
  induction ds generalizing off m with
  | nil => rfl
  | cons d ds ih =>
    rw [segsCopied, ih]
    rfl

theorem outcome_reportsChanges {m out : Machine} {code : BitVec 32} (h : Outcome m code out)
    (hno : ¬ (toGuest m = false ∧ TableOk m ∧ code = lddErrDmaFault)) : ReportsChanges m out := by
  have htried : (tableTried m).ps.bar2 = m.ps.bar2 := by rw [tableTried_ps]
  cases h with
  | noMaster | badCount => exact reportsChanges_of_same rfl
  | tableFault | badDesc | outOfRange => exact reportsChanges_of_same htried
  | copyFault master count read good range pre d post split copied fault =>
    have hdir : toGuest m = true := by
      cases hdir : toGuest m with
      | true => rfl
      | false => exact absurd ⟨hdir, read, rfl⟩ hno
    -- what is sent is only read from the memory
    apply reportsChanges_of_same
    rw [segFaulted, hdir]
    refine (copySeg_bar2_send d _ _).trans ?_
    rw [segsCopied_bar2_send, htried]
  | done master count read good range copied =>
    refine ⟨[(m.ps.regs.devOffset.toNat, totalLen (tableOf m))], ?_, ?_⟩
    · change _ :: (segsCopied _ _ _ _).ps.bar2.dirty = _
      rw [segsCopied_dirty, htried]
      rfl
    · intro x hx
      refine ⟨_, List.mem_singleton.mpr rfl, ?_⟩
      by_contra hout
      apply hx
      refine (segsCopied_outside _ _ _ _ (by omega)).trans ?_
      rw [htried]

/-- Segments are copied from guest memory, and one of them faults. -/
def FetchFaults (m : Machine) : Prop :=
  toGuest m = false ∧ TableOk m ∧ (lddPcieTransfer m).1 = lddErrDmaFault

/-- A device that cannot reach its second segment; DMA_CTRL.DIR is clear. -/
def secondUnreachable : Machine :=
  startRegs (sample lowProps { devOffset := 8 } [⟨0x2000, 2, 0⟩, ⟨0x100000000, 2, 0⟩])

end LinuxDeviceDriver.Qemu.Pcie.OnBoard
