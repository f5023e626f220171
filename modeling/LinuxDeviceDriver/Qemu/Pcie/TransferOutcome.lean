/- source: tools/qemu/hw/ldd/pcie.c, lines 151 to 241
   digest: The seven ways a transfer can end, with the machine each one leaves. -/

import LinuxDeviceDriver.Qemu.Pcie.Transfer

set_option autoImplicit false

namespace LinuxDeviceDriver.Qemu.Pcie.TransferOutcome

open Lib.LittleEndian
open Lib.ScatterGather
open State Transfer

/-! What the checks ask for and what a segment's copy does, in plain numbers.
The loops of the source are compared with these. -/

def totalLen (ds : List LDDPCIEDesc) : Nat := (ds.map (fun d => d.len.toNat)).sum

@[simp] theorem totalLen_nil : totalLen [] = 0 := rfl

@[simp] theorem totalLen_cons (d : LDDPCIEDesc) (ds : List LDDPCIEDesc) :
    totalLen (d :: ds) = d.len.toNat + totalLen ds := by
  simp [totalLen]

def Master (m : Machine) : Prop := m.ps.pdev.command &&& pciCommandMaster ≠ 0

def CountOk (m : Machine) : Prop :=
  1 ≤ m.ps.regs.descCount.toNat ∧ m.ps.regs.descCount.toNat ≤ m.ps.props.maxDesc.toNat

/-- The length of the table in bytes. -/
def tableLen (m : Machine) : Nat := m.ps.regs.descCount.toNat * descSize

/-- The descriptor table as it stands in guest memory. -/
def tableOf (m : Machine) : List LDDPCIEDesc :=
  descTable ((dmaRange m.ps.regs.descAddr (tableLen m)).map m.guest) m.ps.regs.descCount.toNat

def tableAllowed (m : Machine) : Bool :=
  lddPcieDmaOk m.ps m.ps.regs.descAddr
    (m.ps.regs.descCount.setWidth 64 * BitVec.ofNat 64 descSize)

def tableAccess (m : Machine) : DmaAccess := ⟨false, m.ps.regs.descAddr, tableLen m⟩

/-- The table can be read: its address is within reach and the bus answers. -/
def TableOk (m : Machine) : Prop :=
  tableAllowed m = true ∧
    (m.bus.read m.guest m.ps.regs.descAddr (List.replicate (tableLen m) 0)).1 = .ok

/-- The access that read the table has been issued. -/
def tableTried (m : Machine) : Machine :=
  if tableAllowed m = true then { m with trace := m.trace ++ [tableAccess m] } else m

def DescOk (maxSeg : BitVec 32) (d : LDDPCIEDesc) : Prop :=
  1 ≤ d.len.toNat ∧ d.len.toNat ≤ maxSeg.toNat ∧ d.flags = 0

def RangeOk (m : Machine) : Prop :=
  m.ps.regs.devOffset.toNat + totalLen (tableOf m) ≤ lddMemSize

/-- DMA_CTRL.DIR: the data goes from the device to the guest. -/
def toGuest (m : Machine) : Bool := anySet m.ps.regs.dmaCtrl lddDmaCtrlDir

/-- What the engine sends to the guest: on-board bytes, each XORed. -/
def sentBytes (m : Machine) (off len : Nat) : List Byte :=
  (List.range' off len).map fun i => m.ps.bar2.ram i ^^^ m.ps.regs.xor.setWidth 8

def segAccess (dir : Bool) (d : LDDPCIEDesc) : DmaAccess := ⟨dir, d.addr, d.len.toNat⟩

/-- The segment is within reach and the bus answers its access. -/
def SegOk (dir : Bool) (off : Nat) (d : LDDPCIEDesc) (m : Machine) : Prop :=
  lddPcieDmaOk m.ps d.addr (d.len.setWidth 64) = true ∧
    (if dir = true then (m.bus.write m.guest d.addr (sentBytes m off d.len.toNat)).1
      else (m.bus.read m.guest d.addr
        ((List.range' off d.len.toNat).map m.ps.bar2.ram)).1) = .ok

/-- The machine once a segment has been copied in full. -/
def segCopied (dir : Bool) (off : Nat) (d : LDDPCIEDesc) (m : Machine) : Machine :=
  let after :=
    if dir = true then
      { m with guest := store m.guest (dmaRange d.addr d.len.toNat) (sentBytes m off d.len.toNat) }
    else
      setRam m (store m.ps.bar2.ram (List.range' off d.len.toNat)
        ((dmaRange d.addr d.len.toNat).map m.guest))
  addXferBytes { after with trace := m.trace ++ [segAccess dir d] } d.len

/-- The machine once all the segments have been copied in full, in order. -/
def segsCopied (dir : Bool) : Nat → List LDDPCIEDesc → Machine → Machine
  | _, [], m => m
  | off, d :: ds, m => segsCopied dir (off + d.len.toNat) ds (segCopied dir off d m)

theorem toNat_off_add (off : BitVec 32) {j n : Nat} (hj : j < n)
    (hfit : off.toNat + n ≤ lddMemSize) : (off + BitVec.ofNat 32 j).toNat = off.toNat + j := by
  rw [BitVec.toNat_add, BitVec.toNat_ofNat]
  unfold lddMemSize at hfit
  omega

theorem copySeg_refused (dir : Bool) (d : LDDPCIEDesc) (off : BitVec 32) (m : Machine)
    (hr : lddPcieDmaOk m.ps d.addr (d.len.setWidth 64) = false) :
    copySeg dir d off m = (.decodeError, m) := by
  unfold copySeg
  rw [if_pos hr]

/-- The XOR branch and the plain branch send the same bytes. -/
theorem copySeg_send (d : LDDPCIEDesc) (off : BitVec 32) (m : Machine)
    (hfit : off.toNat + d.len.toNat ≤ lddMemSize)
    (hr : lddPcieDmaOk m.ps d.addr (d.len.setWidth 64) = true) :
    copySeg true d off m = pciDmaWrite m d.addr (sentBytes m off.toNat d.len.toNat) := by
  unfold copySeg
  rw [if_neg (by simp [hr])]
  by_cases hx : m.ps.regs.xor = 0
  · have hb : (List.range' off.toNat d.len.toNat).map m.ps.bar2.ram =
        sentBytes m off.toNat d.len.toNat := by
      unfold sentBytes
      rw [hx]
      simp
    rw [if_neg (by simp [hx]), if_pos rfl, hb]
  · have hb : (List.range d.len.toNat).map (fun j => m.ps.bar2.ram (off + BitVec.ofNat 32 j).toNat ^^^
        m.ps.regs.xor.setWidth 8) = sentBytes m off.toNat d.len.toNat := by
      unfold sentBytes
      rw [List.range'_eq_map_range, List.map_map]
      apply List.map_congr_left
      intro j hj
      rw [Function.comp_apply, toNat_off_add off (List.mem_range.mp hj) hfit]
    rw [if_pos ⟨rfl, hx⟩, hb]

theorem copySeg_fetch (d : LDDPCIEDesc) (off : BitVec 32) (m : Machine)
    (hr : lddPcieDmaOk m.ps d.addr (d.len.setWidth 64) = true) :
    copySeg false d off m =
      (let buf := (List.range' off.toNat d.len.toNat).map m.ps.bar2.ram
       ((m.bus.read m.guest d.addr buf).1,
        setRam { m with trace := m.trace ++ [segAccess false d] }
          (store m.ps.bar2.ram (List.range' off.toNat d.len.toNat)
            (m.bus.read m.guest d.addr buf).2))) := by
  unfold copySeg pciDmaRead segAccess
  simp [hr]

theorem copySeg_ok_iff (dir : Bool) (d : LDDPCIEDesc) (off : BitVec 32) (m : Machine)
    (hfit : off.toNat + d.len.toNat ≤ lddMemSize) :
    (copySeg dir d off m).1 = .ok ↔ SegOk dir off.toNat d m := by
  unfold SegOk
  cases hr : lddPcieDmaOk m.ps d.addr (d.len.setWidth 64) with
  | false => simp [copySeg_refused dir d off m hr]
  | true =>
    cases dir with
    | true => simp [copySeg_send d off m hfit hr, pciDmaWrite]
    | false => simp [copySeg_fetch d off m hr]

theorem copySeg_ok (dir : Bool) (d : LDDPCIEDesc) (off : BitVec 32) (m : Machine)
    (hfit : off.toNat + d.len.toNat ≤ lddMemSize) (hs : SegOk dir off.toNat d m) :
    addXferBytes (copySeg dir d off m).2 d.len = segCopied dir off.toNat d m := by
  obtain ⟨hr, hb⟩ := hs
  cases dir with
  | true =>
    rw [copySeg_send d off m hfit hr]
    simp only [if_true] at hb
    have hw := m.bus.write_ok _ _ _ hb
    have hl : (sentBytes m off.toNat d.len.toNat).length = d.len.toNat := by simp [sentBytes]
    rw [hl] at hw
    simp [pciDmaWrite, segCopied, segAccess, hw, hl]
  | false =>
    rw [copySeg_fetch d off m hr]
    simp only [Bool.false_eq_true, if_false] at hb
    have hw := m.bus.read_ok _ _ _ hb
    rw [List.length_map, List.length_range'] at hw
    simp [segCopied, setRam, hw]

/-- Every segment's access succeeds, each one after those before it were copied. -/
def SegsOk (dir : Bool) : Nat → List LDDPCIEDesc → Machine → Prop
  | _, [], _ => True
  | off, d :: ds, m => SegOk dir off d m ∧ SegsOk dir (off + d.len.toNat) ds (segCopied dir off d m)

private theorem index_succ (i : BitVec 32) (n : Nat) :
    i + 1 + BitVec.ofNat 32 n = i + BitVec.ofNat 32 (n + 1) := by
  rw [BitVec.ofNat_add, BitVec.add_comm (BitVec.ofNat 32 n), BitVec.add_assoc]
  rfl

/-- The copy loop ends in full, or at the first segment whose access fails. -/
theorem copySegs_cases (dir : Bool) (ds : List LDDPCIEDesc) (i off : BitVec 32) (m : Machine)
    (hfit : off.toNat + totalLen ds ≤ lddMemSize) :
    (SegsOk dir off.toNat ds m ∧ copySegs dir ds i off m =
      (some (off + BitVec.ofNat 32 (totalLen ds)), segsCopied dir off.toNat ds m)) ∨
    ∃ pre d post, ds = pre ++ d :: post ∧ SegsOk dir off.toNat pre m ∧
      ¬ SegOk dir (off.toNat + totalLen pre) d (segsCopied dir off.toNat pre m) ∧
      copySegs dir ds i off m =
        (none, setErrDesc (copySeg dir d (off + BitVec.ofNat 32 (totalLen pre))
          (segsCopied dir off.toNat pre m)).2 (i + BitVec.ofNat 32 pre.length)) := by
  induction ds generalizing i off m with
  | nil => exact Or.inl ⟨trivial, by simp [copySegs, segsCopied]⟩
  | cons d ds ih =>
    rw [totalLen_cons] at hfit
    have hd : off.toNat + d.len.toNat ≤ lddMemSize := by omega
    by_cases hs : SegOk dir off.toNat d m
    · -- the segment is copied; the rest of the loop starts behind it
      have hok := (copySeg_ok_iff dir d off m hd).mpr hs
      have hoff : (off + d.len).toNat = off.toNat + d.len.toNat := by
        rw [BitVec.toNat_add]
        unfold lddMemSize at hd
        omega
      have hloop : copySegs dir (d :: ds) i off m =
          copySegs dir ds (i + 1) (off + d.len) (segCopied dir off.toNat d m) := by
        rw [copySegs, if_neg (by simp [hok]), copySeg_ok dir d off m hd hs]
      have hsum : ∀ n, off + d.len + BitVec.ofNat 32 n = off + BitVec.ofNat 32 (d.len.toNat + n) := by
        intro n
        rw [BitVec.ofNat_add, BitVec.ofNat_toNat, BitVec.setWidth_eq, BitVec.add_assoc]
      have hrest := ih (i + 1) (off + d.len) (segCopied dir off.toNat d m) (by omega)
      rw [hoff] at hrest
      rw [hloop]
      rcases hrest with ⟨hall, hrun⟩ | ⟨pre, e, post, hsplit, hall, hbad, hrun⟩
      · refine Or.inl ⟨⟨hs, hall⟩, ?_⟩
        rw [hrun, hsum, totalLen_cons, segsCopied]
      · refine Or.inr ⟨d :: pre, e, post, by rw [hsplit]; rfl, ⟨hs, hall⟩, ?_, ?_⟩
        · rw [totalLen_cons, segsCopied, ← Nat.add_assoc]
          exact hbad
        · rw [hrun, hsum, totalLen_cons, segsCopied, List.length_cons, index_succ]
    · have hok : (copySeg dir d off m).1 ≠ .ok := mt (copySeg_ok_iff dir d off m hd).mp hs
      refine Or.inr ⟨[], d, ds, rfl, trivial, by simpa [segsCopied] using hs, ?_⟩
      rw [copySegs, if_pos hok]
      simp [segsCopied]

theorem descOk_iff (maxSeg : BitVec 32) (d : LDDPCIEDesc) :
    ¬ (d.len = 0 ∨ d.len > maxSeg ∨ d.flags ≠ 0) ↔ DescOk maxSeg d := by
  have hz : d.len = 0 ↔ d.len.toNat = 0 := by
    rw [← BitVec.toNat_inj]
    rfl
  unfold DescOk
  rw [hz, gt_iff_lt, BitVec.lt_def]
  constructor
  · intro h
    obtain ⟨h1, h2, h3⟩ := And.intro (not_or.mp h).1 (not_or.mp (not_or.mp h).2)
    exact ⟨by omega, by omega, not_not.mp h3⟩
  · rintro ⟨h1, h2, h3⟩ (h | h | h)
    · omega
    · omega
    · exact h h3

/-- The checking loop ends with the sum, or at the first bad descriptor. -/
theorem checkDescs_cases (maxSeg : BitVec 32) (ds : List LDDPCIEDesc) (i : BitVec 32)
    (total : BitVec 64) :
    ((∀ d ∈ ds, DescOk maxSeg d) ∧ checkDescs maxSeg ds i total =
      .ok (total + BitVec.ofNat 64 (totalLen ds))) ∨
    ∃ pre d post, ds = pre ++ d :: post ∧ (∀ e ∈ pre, DescOk maxSeg e) ∧ ¬ DescOk maxSeg d ∧
      checkDescs maxSeg ds i total = .error (i + BitVec.ofNat 32 pre.length) := by
  induction ds generalizing i total with
  | nil => exact Or.inl ⟨by simp, by simp [checkDescs]⟩
  | cons d ds ih =>
    by_cases hd : DescOk maxSeg d
    · have hloop : checkDescs maxSeg (d :: ds) i total =
          checkDescs maxSeg ds (i + 1) (total + d.len.setWidth 64) := by
        rw [checkDescs, if_neg ((descOk_iff maxSeg d).mpr hd)]
      have hw : d.len.setWidth 64 = BitVec.ofNat 64 d.len.toNat := by
        rw [BitVec.ofNat_toNat]
      rw [hloop]
      rcases ih (i + 1) (total + d.len.setWidth 64) with ⟨hall, hrun⟩ | ⟨pre, e, post, hsplit, hall, hbad, hrun⟩
      · refine Or.inl ⟨List.forall_mem_cons.mpr ⟨hd, hall⟩, ?_⟩
        rw [hrun, hw, totalLen_cons, BitVec.ofNat_add, BitVec.add_assoc]
      · refine Or.inr ⟨d :: pre, e, post, by rw [hsplit]; rfl,
          List.forall_mem_cons.mpr ⟨hd, hall⟩, hbad, ?_⟩
        rw [hrun, List.length_cons, index_succ]
    · refine Or.inr ⟨[], d, ds, rfl, by simp, hd, ?_⟩
      rw [checkDescs, if_pos (not_not.mp (mt (descOk_iff maxSeg d).mp hd))]
      simp

/-- The state in which a failing segment leaves the machine. -/
def segFaulted (dir : Bool) (off : BitVec 32) (pre : List LDDPCIEDesc) (d : LDDPCIEDesc)
    (m : Machine) : Machine :=
  setErrDesc (copySeg dir d (off + BitVec.ofNat 32 (totalLen pre))
    (segsCopied dir off.toNat pre m)).2 (BitVec.ofNat 32 pre.length)

/-- Every way a transfer can end: the ERR_CODE, the machine it leaves, and the
checks passed on the way. One constructor for each return of the source. -/
inductive Outcome (m : Machine) : BitVec 32 → Machine → Prop
  | noMaster (master : ¬ Master m) : Outcome m lddErrNoMaster m
  | badCount (master : Master m) (count : ¬ CountOk m) : Outcome m lddErrBadCount m
  | tableFault (master : Master m) (count : CountOk m) (read : ¬ TableOk m) :
      Outcome m lddErrDmaFault (tableTried m)
  | badDesc (master : Master m) (count : CountOk m) (read : TableOk m)
      (pre : List LDDPCIEDesc) (d : LDDPCIEDesc) (post : List LDDPCIEDesc)
      (split : tableOf m = pre ++ d :: post) (good : ∀ e ∈ pre, DescOk m.ps.props.maxSeg e)
      (bad : ¬ DescOk m.ps.props.maxSeg d) :
      Outcome m lddErrBadDesc (setErrDesc (tableTried m) (BitVec.ofNat 32 pre.length))
  | outOfRange (master : Master m) (count : CountOk m) (read : TableOk m)
      (good : ∀ d ∈ tableOf m, DescOk m.ps.props.maxSeg d) (range : ¬ RangeOk m) :
      Outcome m lddErrOutOfRange (tableTried m)
  | copyFault (master : Master m) (count : CountOk m) (read : TableOk m)
      (good : ∀ d ∈ tableOf m, DescOk m.ps.props.maxSeg d) (range : RangeOk m)
      (pre : List LDDPCIEDesc) (d : LDDPCIEDesc) (post : List LDDPCIEDesc)
      (split : tableOf m = pre ++ d :: post)
      (copied : SegsOk (toGuest m) m.ps.regs.devOffset.toNat pre (tableTried m))
      (fault : ¬ SegOk (toGuest m) (m.ps.regs.devOffset.toNat + totalLen pre) d
        (segsCopied (toGuest m) m.ps.regs.devOffset.toNat pre (tableTried m))) :
      Outcome m lddErrDmaFault
        (segFaulted (toGuest m) m.ps.regs.devOffset pre d (tableTried m))
  | done (master : Master m) (count : CountOk m) (read : TableOk m)
      (good : ∀ d ∈ tableOf m, DescOk m.ps.props.maxSeg d) (range : RangeOk m)
      (copied : SegsOk (toGuest m) m.ps.regs.devOffset.toNat (tableOf m) (tableTried m)) :
      Outcome m 0 (memoryRegionSetDirty
        (segsCopied (toGuest m) m.ps.regs.devOffset.toNat (tableOf m) (tableTried m))
        m.ps.regs.devOffset.toNat (totalLen (tableOf m)))

theorem countOk_iff (m : Machine) :
    ¬ (m.ps.regs.descCount = 0 ∨ m.ps.regs.descCount > m.ps.props.maxDesc) ↔ CountOk m := by
  have hz : m.ps.regs.descCount = 0 ↔ m.ps.regs.descCount.toNat = 0 := by
    rw [← BitVec.toNat_inj]
    rfl
  unfold CountOk
  rw [hz, gt_iff_lt, BitVec.lt_def]
  omega

/-- The sum of the checked lengths stays far below the 64 bits it is kept in. -/
theorem totalLen_le (maxSeg : BitVec 32) (ds : List LDDPCIEDesc)
    (hg : ∀ d ∈ ds, DescOk maxSeg d) : totalLen ds ≤ ds.length * maxSeg.toNat := by
  induction ds with
  | nil => simp
  | cons d ds ih =>
    obtain ⟨hd, hds⟩ := List.forall_mem_cons.mp hg
    have hr := ih hds
    have hl := hd.2.1
    rw [totalLen_cons, List.length_cons, Nat.succ_mul]
    omega

@[simp] theorem tableOf_length (m : Machine) :
    (tableOf m).length = m.ps.regs.descCount.toNat := by
  simp [tableOf, descTable]

theorem totalLen_table_lt (m : Machine) (hc : CountOk m)
    (hg : ∀ d ∈ tableOf m, DescOk m.ps.props.maxSeg d) : totalLen (tableOf m) ≤ 2 ^ 32 := by
  have hle := totalLen_le m.ps.props.maxSeg (tableOf m) hg
  have hs := m.ps.props.seg_max
  have hd := m.ps.props.desc_max
  rw [tableOf_length] at hle
  calc totalLen (tableOf m) ≤ m.ps.regs.descCount.toNat * m.ps.props.maxSeg.toNat := hle
    _ ≤ 4096 * 1048576 := Nat.mul_le_mul (hc.2.trans hd) hs
    _ = 2 ^ 32 := by norm_num

theorem rangeOk_iff (m : Machine) (hc : CountOk m)
    (hg : ∀ d ∈ tableOf m, DescOk m.ps.props.maxSeg d) :
    ¬ (m.ps.regs.devOffset.setWidth 64 > BitVec.ofNat 64 lddMemSize ∨
      BitVec.ofNat 64 (totalLen (tableOf m)) >
        BitVec.ofNat 64 lddMemSize - m.ps.regs.devOffset.setWidth 64) ↔ RangeOk m := by
  have ht := totalLen_table_lt m hc hg
  have ho := m.ps.regs.devOffset.isLt
  have hw : (m.ps.regs.devOffset.setWidth 64).toNat = m.ps.regs.devOffset.toNat := by
    rw [BitVec.toNat_setWidth]
    omega
  unfold RangeOk
  rw [gt_iff_lt, gt_iff_lt, BitVec.lt_def, BitVec.lt_def, BitVec.toNat_sub, BitVec.toNat_ofNat,
    BitVec.toNat_ofNat, hw]
  simp only [lddMemSize]
  omega

theorem tableTried_of_ok (m : Machine) (ht : TableOk m) :
    tableTried m = { m with trace := m.trace ++ [tableAccess m] } := by
  unfold tableTried
  rw [if_pos ht.1]

theorem tableTried_ps (m : Machine) : (tableTried m).ps = m.ps := by
  unfold tableTried
  split <;> rfl

theorem tableTried_guest (m : Machine) : (tableTried m).guest = m.guest := by
  unfold tableTried
  split <;> rfl

private theorem transferCopy_outcome (m : Machine) (master : Master m) (count : CountOk m)
    (read : TableOk m) (good : ∀ d ∈ tableOf m, DescOk m.ps.props.maxSeg d) (range : RangeOk m) :
    Outcome m (transferCopy (tableOf m) (tableTried m)).1
      (transferCopy (tableOf m) (tableTried m)).2 := by
  unfold transferCopy
  simp only [tableTried_ps]
  rcases copySegs_cases (toGuest m) (tableOf m) 0 m.ps.regs.devOffset (tableTried m) range with
    ⟨hall, hrun⟩ | ⟨pre, d, post, hsplit, hall, hbad, hrun⟩
  · have hlen : (m.ps.regs.devOffset + BitVec.ofNat 32 (totalLen (tableOf m)) -
        m.ps.regs.devOffset).toNat = totalLen (tableOf m) := by
      have hr := range
      unfold RangeOk lddMemSize at hr
      rw [BitVec.add_comm, BitVec.add_sub_cancel, BitVec.toNat_ofNat]
      omega
    rw [toGuest] at hrun
    rw [hrun]
    simp only [hlen]
    exact .done master count read good range hall
  · rw [toGuest] at hrun
    rw [hrun]
    have hi : (0 : BitVec 32) + BitVec.ofNat 32 pre.length = BitVec.ofNat 32 pre.length :=
      BitVec.zero_add _
    rw [hi]
    exact .copyFault master count read good range pre d post hsplit hall hbad

private theorem transferCheck_outcome (m : Machine) (master : Master m) (count : CountOk m)
    (read : TableOk m) :
    Outcome m (transferCheck (tableOf m) (tableTried m)).1
      (transferCheck (tableOf m) (tableTried m)).2 := by
  unfold transferCheck
  simp only [tableTried_ps]
  rcases checkDescs_cases m.ps.props.maxSeg (tableOf m) 0 0 with
    ⟨good, hrun⟩ | ⟨pre, d, post, hsplit, hall, hbad, hrun⟩
  · have hsum : (0 : BitVec 64) + BitVec.ofNat 64 (totalLen (tableOf m)) =
        BitVec.ofNat 64 (totalLen (tableOf m)) := BitVec.zero_add _
    rw [hrun, hsum]
    by_cases range : RangeOk m
    · simp only [if_neg ((rangeOk_iff m count good).mpr range)]
      exact transferCopy_outcome m master count read good range
    · simp only [if_pos (not_not.mp (mt (rangeOk_iff m count good).mp range))]
      exact .outOfRange master count read good range
  · have hi : (0 : BitVec 32) + BitVec.ofNat 32 pre.length = BitVec.ofNat 32 pre.length :=
      BitVec.zero_add _
    rw [hrun, hi]
    exact .badDesc master count read pre d post hsplit hall hbad

/-- Whatever the registers, the table and the bus, a transfer ends in one of the seven ways. -/
theorem transfer_outcome (m : Machine) :
    Outcome m (lddPcieTransfer m).1 (lddPcieTransfer m).2 := by
  by_cases hm : m.ps.pdev.command &&& pciCommandMaster = 0
  · have he : lddPcieTransfer m = (lddErrNoMaster, m) := if_pos hm
    rw [he]
    exact .noMaster (not_not.mpr hm)
  by_cases hc : CountOk m
  swap
  · have he : lddPcieTransfer m = (lddErrBadCount, m) := by
      rw [lddPcieTransfer, if_neg hm, if_pos (not_not.mp (mt (countOk_iff m).mp hc))]
    rw [he]
    exact .badCount hm hc
  have hallow : lddPcieDmaOk m.ps m.ps.regs.descAddr
      (m.ps.regs.descCount.setWidth 64 * BitVec.ofNat 64 descSize) = tableAllowed m := rfl
  cases ha : tableAllowed m with
  | false =>
    have he : lddPcieTransfer m = (lddErrDmaFault, tableTried m) := by
      rw [lddPcieTransfer, if_neg hm, if_neg ((countOk_iff m).mpr hc), if_pos (hallow.trans ha),
        tableTried, if_neg (by simp [ha])]
    rw [he]
    exact .tableFault hm hc (fun h => Bool.false_ne_true (ha.symm.trans h.1))
  | true =>
    have htried : (pciDmaRead m m.ps.regs.descAddr
        (List.replicate (m.ps.regs.descCount.toNat * descSize) 0)).2.2 = tableTried m := by
      simp [tableTried, ha, pciDmaRead, tableAccess, tableLen]
    have he : lddPcieTransfer m =
        (if (m.bus.read m.guest m.ps.regs.descAddr (List.replicate (tableLen m) 0)).1 ≠ .ok
          then (lddErrDmaFault, tableTried m)
          else transferCheck (descTable (m.bus.read m.guest m.ps.regs.descAddr
            (List.replicate (tableLen m) 0)).2 m.ps.regs.descCount.toNat) (tableTried m)) := by
      rw [← htried, lddPcieTransfer, if_neg hm, if_neg ((countOk_iff m).mpr hc),
        if_neg (ne_of_eq_of_ne (hallow.trans ha) Bool.false_ne_true.symm)]
      rfl
    by_cases hb : (m.bus.read m.guest m.ps.regs.descAddr (List.replicate (tableLen m) 0)).1 = .ok
    · have hbytes := m.bus.read_ok _ _ _ hb
      rw [List.length_replicate] at hbytes
      rw [he, if_neg (not_not.mpr hb), hbytes]
      exact transferCheck_outcome m hm hc ⟨ha, hb⟩
    · rw [he, if_pos hb]
      exact .tableFault hm hc (fun h => hb h.2)

/-- A transfer touches the two memories, the trace, the dirty log, ERR_DESC and
XFER_BYTES. Everything else of the machine stays as it was. -/
structure OnlyMoves (m m' : Machine) : Prop where
  bus : m'.bus = m.bus
  pdev : m'.ps.pdev = m.ps.pdev
  timer : m'.ps.timer = m.ps.timer
  props : m'.ps.props = m.ps.props
  regs : m'.ps.regs = { m.ps.regs with
    errDesc := m'.ps.regs.errDesc, xferBytes := m'.ps.regs.xferBytes }

theorem OnlyMoves.refl (m : Machine) : OnlyMoves m m := ⟨rfl, rfl, rfl, rfl, rfl⟩

theorem OnlyMoves.trans {m m' m'' : Machine} (h : OnlyMoves m m') (h' : OnlyMoves m' m'') :
    OnlyMoves m m'' where
  bus := h'.bus.trans h.bus
  pdev := h'.pdev.trans h.pdev
  timer := h'.timer.trans h.timer
  props := h'.props.trans h.props
  regs := by rw [h'.regs, h.regs]

private theorem onlyMoves_setErrDesc (m : Machine) (i : BitVec 32) :
    OnlyMoves m (setErrDesc m i) := ⟨rfl, rfl, rfl, rfl, rfl⟩

private theorem onlyMoves_tableTried (m : Machine) : OnlyMoves m (tableTried m) := by
  unfold tableTried
  split <;> exact ⟨rfl, rfl, rfl, rfl, rfl⟩

private theorem onlyMoves_copySeg (dir : Bool) (d : LDDPCIEDesc) (off : BitVec 32) (m : Machine) :
    OnlyMoves m (copySeg dir d off m).2 := by
  unfold copySeg
  split_ifs <;> exact ⟨rfl, rfl, rfl, rfl, rfl⟩

theorem onlyMoves_segCopied (dir : Bool) (off : Nat) (d : LDDPCIEDesc) (m : Machine) :
    OnlyMoves m (segCopied dir off d m) := by
  cases dir <;> exact ⟨rfl, rfl, rfl, rfl, rfl⟩

theorem onlyMoves_segsCopied (dir : Bool) (off : Nat) (ds : List LDDPCIEDesc) (m : Machine) :
    OnlyMoves m (segsCopied dir off ds m) := by
  induction ds generalizing off m with
  | nil => exact .refl m
  | cons d ds ih => exact (onlyMoves_segCopied dir off d m).trans (ih _ _)

theorem Outcome.onlyMoves {m m' : Machine} {code : BitVec 32} (h : Outcome m code m') :
    OnlyMoves m m' := by
  have ht := onlyMoves_tableTried m
  cases h with
  | noMaster => exact .refl m
  | badCount => exact .refl m
  | tableFault => exact ht
  | badDesc => exact ht.trans (onlyMoves_setErrDesc _ _)
  | outOfRange => exact ht
  | copyFault =>
    exact ((ht.trans (onlyMoves_segsCopied _ _ _ _)).trans (onlyMoves_copySeg _ _ _ _)).trans
      (onlyMoves_setErrDesc _ _)
  | done => exact (ht.trans (onlyMoves_segsCopied _ _ _ _)).trans ⟨rfl, rfl, rfl, rfl, rfl⟩

theorem Outcome.of_zero {m m' : Machine} {code : BitVec 32} (h : Outcome m code m')
    (hz : code = 0) : RangeOk m ∧ m' = memoryRegionSetDirty
      (segsCopied (toGuest m) m.ps.regs.devOffset.toNat (tableOf m) (tableTried m))
      m.ps.regs.devOffset.toNat (totalLen (tableOf m)) := by
  cases h with
  | done master count read good range copied => exact ⟨range, rfl⟩
  | noMaster | badCount | tableFault | badDesc | outOfRange | copyFault =>
    exact absurd hz (by decide)

/-- ERR_CODE is 0, or one of the five codes of the specification. -/
theorem Outcome.code_le {m m' : Machine} {code : BitVec 32} (h : Outcome m code m') :
    code.toNat ≤ 5 := by
  cases h <;> decide

/-- With a good count, good descriptors and a range that fits, only the bus can
make a transfer fail. -/
theorem Outcome.code_of_checks {m m' : Machine} {code : BitVec 32} (h : Outcome m code m')
    (count : CountOk m) (good : ∀ d ∈ tableOf m, DescOk m.ps.props.maxSeg d) (range : RangeOk m) :
    code = 0 ∨ (code = lddErrNoMaster ∧ ¬ Master m) ∨ code = lddErrDmaFault := by
  cases h with
  | noMaster master => exact .inr (.inl ⟨rfl, master⟩)
  | badCount _ hc => exact absurd count hc
  | tableFault => exact .inr (.inr rfl)
  | badDesc _ _ _ pre d post split _ bad =>
    exact absurd (good d (by rw [split]; simp)) bad
  | outOfRange _ _ _ _ hr => exact absurd range hr
  | copyFault => exact .inr (.inr rfl)
  | done => exact .inl rfl

end LinuxDeviceDriver.Qemu.Pcie.TransferOutcome
