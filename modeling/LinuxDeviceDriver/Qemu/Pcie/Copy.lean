/- source: tools/qemu/hw/ldd/pcie.c, lines 162 to 262
   digest: A transfer that succeeds is one flat copy; one that fails says how far it came. -/

import LinuxDeviceDriver.Qemu.Pcie.Registers

set_option autoImplicit false

namespace LinuxDeviceDriver.Qemu.Pcie.Copy

open Lib.LittleEndian (Byte)
open Lib.ScatterGather
open State Transfer TransferOutcome Registers

/-- The guest addresses of one segment. -/
def segRange (d : LDDPCIEDesc) : List (BitVec 64) := dmaRange d.addr d.len.toNat

/-- The guest addresses of the segments, one after the other in table order. -/
def segsRange (ds : List LDDPCIEDesc) : List (BitVec 64) := ds.flatMap segRange

@[simp] theorem segsRange_cons (d : LDDPCIEDesc) (ds : List LDDPCIEDesc) :
    segsRange (d :: ds) = segRange d ++ segsRange ds := rfl

@[simp] theorem segRange_length (d : LDDPCIEDesc) : (segRange d).length = d.len.toNat := by
  simp [segRange]

@[simp] theorem segsRange_length (ds : List LDDPCIEDesc) :
    (segsRange ds).length = totalLen ds := by
  induction ds with
  | nil => rfl
  | cons d ds ih => simp [ih]

/-- The concatenation of the bytes of all the segments. -/
def gathered (guest : Memory) (ds : List LDDPCIEDesc) : List Byte := (segsRange ds).map guest

theorem gathered_cons (guest : Memory) (d : LDDPCIEDesc) (ds : List LDDPCIEDesc) :
    gathered guest (d :: ds) = (segRange d).map guest ++ gathered guest ds := by
  simp [gathered]

@[simp] theorem sentBytes_length (m : Machine) (off len : Nat) :
    (sentBytes m off len).length = len := by
  simp [sentBytes]

theorem sentBytes_append (m : Machine) (off a b : Nat) :
    sentBytes m off (a + b) = sentBytes m off a ++ sentBytes m (off + a) b := by
  rw [sentBytes, sentBytes, sentBytes, ← List.map_append, List.range'_append_1]

/-- Guest to device: the segments land behind one another from the offset on. -/
theorem segsCopied_fetch (off : Nat) (ds : List LDDPCIEDesc) (m : Machine) :
    (segsCopied false off ds m).ps.bar2.ram =
      store m.ps.bar2.ram (List.range' off (totalLen ds)) (gathered m.guest ds) ∧
    (segsCopied false off ds m).guest = m.guest := by
  induction ds generalizing off m with
  | nil => exact ⟨rfl, rfl⟩
  | cons d ds ih =>
    obtain ⟨hram, hguest⟩ := ih (off + d.len.toNat) (segCopied false off d m)
    have hg : (segCopied false off d m).guest = m.guest := rfl
    have hr : (segCopied false off d m).ps.bar2.ram =
        store m.ps.bar2.ram (List.range' off d.len.toNat) ((segRange d).map m.guest) := rfl
    refine ⟨?_, hguest.trans hg⟩
    rw [segsCopied, hram, hg, hr, totalLen_cons, ← List.range'_append_1, gathered_cons]
    exact (store_append _ _ _ _ _ (by simp)).symm

/-- Device to guest: the segments take their bytes one after the other. -/
theorem segsCopied_send (off : Nat) (ds : List LDDPCIEDesc) (m : Machine) :
    (segsCopied true off ds m).guest =
      store m.guest (segsRange ds) (sentBytes m off (totalLen ds)) ∧
    (segsCopied true off ds m).ps.bar2.ram = m.ps.bar2.ram := by
  induction ds generalizing off m with
  | nil => exact ⟨rfl, rfl⟩
  | cons d ds ih =>
    obtain ⟨hguest, hram⟩ := ih (off + d.len.toNat) (segCopied true off d m)
    have hr : (segCopied true off d m).ps.bar2.ram = m.ps.bar2.ram := rfl
    have hg : (segCopied true off d m).guest =
        store m.guest (segRange d) (sentBytes m off d.len.toNat) := rfl
    have hs : sentBytes (segCopied true off d m) (off + d.len.toNat) (totalLen ds) =
        sentBytes m (off + d.len.toNat) (totalLen ds) := rfl
    refine ⟨?_, hram.trans hr⟩
    rw [segsCopied, hguest, hg, hs, totalLen_cons, sentBytes_append, segsRange_cons]
    exact (store_append _ _ _ _ _ (by simp)).symm

theorem segsCopied_xferBytes (dir : Bool) (off : Nat) (ds : List LDDPCIEDesc) (m : Machine) :
    (segsCopied dir off ds m).ps.regs.xferBytes =
      m.ps.regs.xferBytes + BitVec.ofNat 32 (totalLen ds) := by
  induction ds generalizing off m with
  | nil => simp [segsCopied]
  | cons d ds ih =>
    have hx : (segCopied dir off d m).ps.regs.xferBytes = m.ps.regs.xferBytes + d.len := by
      cases dir <;> rfl
    rw [segsCopied, ih, hx, totalLen_cons, BitVec.ofNat_add, BitVec.ofNat_toNat,
      BitVec.setWidth_eq, BitVec.add_assoc]


theorem segsCopied_trace (dir : Bool) (off : Nat) (ds : List LDDPCIEDesc) (m : Machine) :
    (segsCopied dir off ds m).trace = m.trace ++ ds.map (segAccess dir) := by
  induction ds generalizing off m with
  | nil => simp [segsCopied]
  | cons d ds ih =>
    have ht : (segCopied dir off d m).trace = m.trace ++ [segAccess dir d] := by
      cases dir <;> rfl
    rw [segsCopied, ih, ht]
    simp

/-- No two segments share a guest address. -/
def SegsDisjoint (ds : List LDDPCIEDesc) : Prop :=
  ds.Pairwise (fun d e => List.Disjoint (segRange d) (segRange e))

theorem dmaRange_nodup (addr : BitVec 64) (len : Nat) (hl : len ≤ 2 ^ 64) :
    (dmaRange addr len).Nodup := by
  refine List.Nodup.map_on ?_ List.nodup_range
  intro i hi j hj h
  have hij := congrArg BitVec.toNat (BitVec.add_right_inj addr |>.mp h)
  rw [BitVec.toNat_ofNat, BitVec.toNat_ofNat] at hij
  have hi := List.mem_range.mp hi
  have hj := List.mem_range.mp hj
  rwa [Nat.mod_eq_of_lt (by omega), Nat.mod_eq_of_lt (by omega)] at hij

theorem segRange_nodup (d : LDDPCIEDesc) : (segRange d).Nodup := by
  have hl := d.len.isLt
  exact dmaRange_nodup d.addr d.len.toNat (by omega)

theorem segsRange_nodup (ds : List LDDPCIEDesc) (hd : SegsDisjoint ds) :
    (segsRange ds).Nodup :=
  List.nodup_flatMap.mpr ⟨fun d _ => segRange_nodup d, hd⟩

/-- Reading one segment back after all of them were stored. -/
theorem map_store_segs (guest : Memory) (pre post : List LDDPCIEDesc) (d : LDDPCIEDesc)
    (m : Machine) (base : Nat) (hd : SegsDisjoint (pre ++ d :: post)) :
    (segRange d).map (store guest (segsRange (pre ++ d :: post))
        (sentBytes m base (totalLen (pre ++ d :: post)))) =
      sentBytes m (base + totalLen pre) d.len.toNat := by
  obtain ⟨-, hpost, hcross⟩ := List.pairwise_append.mp hd
  have hdp := (List.pairwise_cons.mp hpost).1
  have hsplit : totalLen (pre ++ d :: post) = totalLen pre + (d.len.toNat + totalLen post) := by
    simp [totalLen]
  have hrange : segsRange (pre ++ d :: post) = segsRange pre ++ (segRange d ++ segsRange post) := by
    simp [segsRange]
  have hdisj : List.Disjoint (segRange d) (segsRange post) := by
    intro x hx hp
    obtain ⟨e, he, hxe⟩ := List.mem_flatMap.mp hp
    exact hdp e he hx hxe
  rw [hsplit, hrange, sentBytes_append, sentBytes_append,
    store_append _ _ _ _ _ (by simp), store_append _ _ _ _ _ (by simp),
    map_store_disjoint _ _ _ _ hdisj]
  exact map_store _ _ _ (segRange_nodup d) (by simp)

/-- A successful transfer from the guest is one store into the on-board memory. -/
theorem transfer_fetched (m : Machine) (hret : (lddPcieTransfer (startRegs m)).1 = 0)
    (hdir : toGuest m = false) :
    let out := (lddPcieTransfer (startRegs m)).2
    out.ps.bar2.ram = store m.ps.bar2.ram
      (List.range' m.ps.regs.devOffset.toNat (totalLen (tableOf m)))
      (gathered m.guest (tableOf m)) ∧
    out.guest = m.guest := by
  intro out
  have hout : out = _ := ((transfer_outcome (startRegs m)).of_zero hret).2
  have hdir' : toGuest (startRegs m) = false := hdir
  obtain ⟨hram, hguest⟩ := segsCopied_fetch m.ps.regs.devOffset.toNat (tableOf m)
    (tableTried (startRegs m))
  rw [tableTried_ps, tableTried_guest] at hram
  rw [tableTried_guest] at hguest
  rw [hout, hdir']
  exact ⟨hram, hguest⟩

/-- A successful transfer to the guest is one store into the segments. -/
theorem transfer_sent (m : Machine) (hret : (lddPcieTransfer (startRegs m)).1 = 0)
    (hdir : toGuest m = true) :
    let out := (lddPcieTransfer (startRegs m)).2
    out.guest = store m.guest (segsRange (tableOf m))
      (sentBytes m m.ps.regs.devOffset.toNat (totalLen (tableOf m))) ∧
    out.ps.bar2.ram = m.ps.bar2.ram := by
  intro out
  have hout : out = _ := ((transfer_outcome (startRegs m)).of_zero hret).2
  have hdir' : toGuest (startRegs m) = true := hdir
  obtain ⟨hguest, hram⟩ := segsCopied_send m.ps.regs.devOffset.toNat (tableOf m)
    (tableTried (startRegs m))
  rw [tableTried_guest, sentBytes, tableTried_ps] at hguest
  rw [tableTried_ps] at hram
  rw [hout, hdir']
  exact ⟨hguest, hram⟩

/-- With nothing left to fault, a transfer is the reference scatter-gather copy:
one flat copy between the on-board range at DEV_OFFSET and the segments. -/
theorem transfer_eq_reference (m : Machine) (hret : (lddPcieTransfer (startRegs m)).1 = 0)
    (hd : SegsDisjoint (tableOf m)) :
    let out := (lddPcieTransfer (startRegs m)).2
    let base := m.ps.regs.devOffset.toNat
    let total := totalLen (tableOf m)
    (toGuest m = false →
      (List.range' base total).map out.ps.bar2.ram = gathered m.guest (tableOf m) ∧
      (∀ x, x < base ∨ base + total ≤ x → out.ps.bar2.ram x = m.ps.bar2.ram x) ∧
      out.guest = m.guest) ∧
    (toGuest m = true →
      out.ps.bar2.ram = m.ps.bar2.ram ∧
      (∀ pre d post, tableOf m = pre ++ d :: post →
        (segRange d).map out.guest = (List.range' (base + totalLen pre) d.len.toNat).map
          (fun i => m.ps.bar2.ram i ^^^ m.ps.regs.xor.setWidth 8)) ∧
      (∀ x, (∀ d ∈ tableOf m, x ∉ segRange d) → out.guest x = m.guest x)) ∧
    out.ps.regs.xferBytes.toNat = total := by
  intro out base total
  refine ⟨?_, ?_, ?_⟩
  · intro hdir
    obtain ⟨hr, hg⟩ := transfer_fetched m hret hdir
    refine ⟨?_, ?_, hg⟩
    · rw [hr]
      exact map_store _ _ _ List.nodup_range' (by simp [gathered])
    · intro x hx
      rw [hr]
      refine store_frame _ _ _ ?_
      intro hmem
      obtain ⟨h1, h2⟩ := List.mem_range'_1.mp hmem
      omega
  · intro hdir
    obtain ⟨hg, hr⟩ := transfer_sent m hret hdir
    refine ⟨hr, ?_, ?_⟩
    · intro pre d post hsplit
      have hread := map_store_segs m.guest pre post d m base (hsplit ▸ hd)
      rw [← hsplit] at hread
      rw [hg]
      exact hread
    · intro x hx
      rw [hg]
      refine store_frame _ _ _ ?_
      intro hmem
      obtain ⟨d, hdm, hxd⟩ := List.mem_flatMap.mp hmem
      exact hx d hdm hxd
  · obtain ⟨hrange, hout⟩ := (transfer_outcome (startRegs m)).of_zero hret
    have hfit : base + total ≤ lddMemSize := hrange
    have hz : (0 : BitVec 32) + BitVec.ofNat 32 total = BitVec.ofNat 32 total := BitVec.zero_add _
    have hxfer : out.ps.regs.xferBytes = 0 + BitVec.ofNat 32 total := by
      show (lddPcieTransfer (startRegs m)).2.ps.regs.xferBytes = _
      rw [hout]
      refine (segsCopied_xferBytes _ _ _ _).trans ?_
      rw [tableTried_ps]
      rfl
    rw [hxfer, hz, BitVec.toNat_ofNat]
    unfold lddMemSize at hfit
    omega

/-- A device programmed for a table at 0x1000, over flat memory. -/
def sample (props : Realized) (regs : Regs) (ds : List LDDPCIEDesc) : Machine :=
  let m := powerOn pciCommandMaster false false (BitVec.ofNat 8) props DmaBus.flat
    (store (fun a => a.setWidth 8) (dmaRange 0x1000 (ds.length * descSize)) (tableBytes ds))
  setRegs m { regs with descAddr := 0x1000, descCount := BitVec.ofNat 32 ds.length }

theorem transfer_eq_reference_two_segments :
    let m := sample defaultProps { devOffset := 8, dmaCtrl := 1, xor := 0xff }
      [⟨0x2000, 2, 0⟩, ⟨0x3000, 3, 0⟩]
    let out := (lddPcieTransfer (startRegs m)).2
    (segRange ⟨0x3000, 3, 0⟩).map out.guest = [0xf5, 0xf4, 0xf3] ∧
      out.ps.regs.xferBytes.toNat = 5 := by
  intro m out
  have htable : tableOf m = [⟨0x2000, 2, 0⟩, ⟨0x3000, 3, 0⟩] := by decide +kernel
  have hdisj : SegsDisjoint (tableOf m) := by
    rw [htable]
    refine List.pairwise_pair.mpr ?_
    intro x hx hy
    have h1 := (mem_dmaRange_iff (by decide)).mp hx
    have h2 := (mem_dmaRange_iff (by decide)).mp hy
    simp at h1 h2
    omega
  obtain ⟨-, hsend, hx⟩ := transfer_eq_reference m (by decide +kernel) hdisj
  have hread := (hsend (by decide +kernel)).2.1 [⟨0x2000, 2, 0⟩] ⟨0x3000, 3, 0⟩ [] htable
  rw [htable] at hx
  refine ⟨hread.trans ?_, hx⟩
  decide +kernel

/-- A failing segment changes nothing outside its own range, and is the last
access of the transfer; an address out of reach is not accessed at all. -/
theorem copySeg_frame (dir : Bool) (d : LDDPCIEDesc) (off : BitVec 32) (m : Machine) :
    (∀ x, x ∉ List.range' off.toNat d.len.toNat ∨ dir = true →
      (copySeg dir d off m).2.ps.bar2.ram x = m.ps.bar2.ram x) ∧
    (∀ x, x ∉ segRange d ∨ dir = false → (copySeg dir d off m).2.guest x = m.guest x) ∧
    (copySeg dir d off m).2.trace = m.trace ++
      (if lddPcieDmaOk m.ps d.addr (d.len.setWidth 64) = true then [segAccess dir d] else []) := by
  cases hr : lddPcieDmaOk m.ps d.addr (d.len.setWidth 64) with
  | false => simp [copySeg_refused dir d off m hr]
  | true =>
    cases dir with
    | false =>
      rw [copySeg_fetch d off m hr]
      refine ⟨?_, fun x _ => rfl, by simp [setRam]⟩
      rintro x (hx | hx)
      · exact store_frame _ _ _ hx
      · contradiction
    | true =>
      have hw : ∃ bs : List Byte, bs.length = d.len.toNat ∧
          copySeg true d off m = pciDmaWrite m d.addr bs := by
        unfold copySeg
        rw [if_neg (by simp [hr])]
        split_ifs
        · exact ⟨_, by simp, rfl⟩
        · exact ⟨_, by simp, rfl⟩
        · contradiction
      obtain ⟨bs, hlen, hw⟩ := hw
      rw [hw]
      refine ⟨fun x _ => rfl, ?_, by simp [pciDmaWrite, segAccess, hlen]⟩
      rintro x (hx | hx)
      · refine m.bus.write_frame _ _ _ x ?_
        rw [hlen]
        exact hx
      · contradiction

theorem copySeg_regs (dir : Bool) (d : LDDPCIEDesc) (off : BitVec 32) (m : Machine) :
    (copySeg dir d off m).2.ps.regs = m.ps.regs := by
  unfold copySeg
  split_ifs <;> rfl

/-- The code of the first check that fails, in the order master, count, table
read, descriptors, range, copy; 0 when none does. -/
noncomputable def firstFailing (m : Machine) : BitVec 32 := by
  classical
  exact
    if ¬ Master m then lddErrNoMaster
    else if ¬ CountOk m then lddErrBadCount
    else if ¬ TableOk m then lddErrDmaFault
    else if ∃ d ∈ tableOf m, ¬ DescOk m.ps.props.maxSeg d then lddErrBadDesc
    else if ¬ RangeOk m then lddErrOutOfRange
    else if ¬ SegsOk (toGuest m) m.ps.regs.devOffset.toNat (tableOf m) (tableTried m)
      then lddErrDmaFault
    else 0

theorem segsOk_append {dir : Bool} {off : Nat} {xs ys : List LDDPCIEDesc} {m : Machine} :
    SegsOk dir off (xs ++ ys) m ↔
      SegsOk dir off xs m ∧ SegsOk dir (off + totalLen xs) ys (segsCopied dir off xs m) := by
  induction xs generalizing off m with
  | nil => exact ⟨fun h => ⟨trivial, h⟩, fun h => h.2⟩
  | cons x xs ih =>
    have ih := @ih (off + x.len.toNat) (segCopied dir off x m)
    rw [Nat.add_assoc, ← totalLen_cons] at ih
    exact (and_congr_right fun _ => ih).trans and_assoc.symm

theorem outcome_code_eq {m m' : Machine} {code : BitVec 32} (h : Outcome m code m') :
    code = firstFailing m := by
  unfold firstFailing
  cases h with
  | noMaster master => rw [if_pos master]
  | badCount master count => rw [if_neg (not_not.mpr master), if_pos count]
  | tableFault master count read =>
    rw [if_neg (not_not.mpr master), if_neg (not_not.mpr count), if_pos read]
  | badDesc master count read pre d post split good bad =>
    have hb : ∃ d ∈ tableOf m, ¬ DescOk m.ps.props.maxSeg d :=
      ⟨d, by rw [split]; simp, bad⟩
    rw [if_neg (not_not.mpr master), if_neg (not_not.mpr count), if_neg (not_not.mpr read),
      if_pos hb]
  | outOfRange master count read good range =>
    have hb : ¬ ∃ d ∈ tableOf m, ¬ DescOk m.ps.props.maxSeg d :=
      fun ⟨d, hd, hn⟩ => hn (good d hd)
    rw [if_neg (not_not.mpr master), if_neg (not_not.mpr count), if_neg (not_not.mpr read),
      if_neg hb, if_pos range]
  | copyFault master count read good range pre d post split copied fault =>
    have hb : ¬ ∃ d ∈ tableOf m, ¬ DescOk m.ps.props.maxSeg d :=
      fun ⟨d, hd, hn⟩ => hn (good d hd)
    have hc : ¬ SegsOk (toGuest m) m.ps.regs.devOffset.toNat (tableOf m) (tableTried m) := by
      rw [split]
      exact fun h => fault (segsOk_append.mp h).2.1
    rw [if_neg (not_not.mpr master), if_neg (not_not.mpr count), if_neg (not_not.mpr read),
      if_neg hb, if_neg (not_not.mpr range), if_pos hc]
  | done master count read good range copied =>
    have hb : ¬ ∃ d ∈ tableOf m, ¬ DescOk m.ps.props.maxSeg d :=
      fun ⟨d, hd, hn⟩ => hn (good d hd)
    rw [if_neg (not_not.mpr master), if_neg (not_not.mpr count), if_neg (not_not.mpr read),
      if_neg hb, if_neg (not_not.mpr range), if_neg (not_not.mpr copied)]

/-- Whether a segment is within reach does not change while segments are copied. -/
theorem dmaOk_segsCopied (m : Machine) (dir : Bool) (off : Nat) (ds : List LDDPCIEDesc)
    (addr len : BitVec 64) :
    lddPcieDmaOk (segsCopied dir off ds (tableTried m)).ps addr len = lddPcieDmaOk m.ps addr len := by
  rw [lddPcieDmaOk, (onlyMoves_segsCopied dir off ds (tableTried m)).props, tableTried_ps]
  rfl

theorem segFaulted_trace (m : Machine) (pre : List LDDPCIEDesc) (d : LDDPCIEDesc)
    (read : TableOk m) :
    (segFaulted (toGuest m) m.ps.regs.devOffset pre d (tableTried m)).trace =
      m.trace ++ (tableAccess m :: pre.map (segAccess (toGuest m)) ++
        (if lddPcieDmaOk m.ps d.addr (d.len.setWidth 64) = true
          then [segAccess (toGuest m) d] else [])) := by
  obtain ⟨-, -, htrace⟩ := copySeg_frame (toGuest m) d
    (m.ps.regs.devOffset + BitVec.ofNat 32 (totalLen pre))
    (segsCopied (toGuest m) m.ps.regs.devOffset.toNat pre (tableTried m))
  refine htrace.trans ?_
  rw [dmaOk_segsCopied, segsCopied_trace, tableTried_of_ok m read]
  simp

/-- ERR_DESC does not wrap: it is an index into the table. -/
theorem index_toNat (m : Machine) (pre : List LDDPCIEDesc) (d : LDDPCIEDesc) (post : List LDDPCIEDesc)
    (split : tableOf m = pre ++ d :: post) : (BitVec.ofNat 32 pre.length).toNat = pre.length := by
  have ht := tableOf_length m
  have hm := m.ps.regs.descCount.isLt
  rw [split, List.length_append, List.length_cons] at ht
  rw [BitVec.toNat_ofNat, Nat.mod_eq_of_lt (by omega)]

theorem segFaulted_errDesc (m : Machine) (pre : List LDDPCIEDesc) (d : LDDPCIEDesc)
    (post : List LDDPCIEDesc) (split : tableOf m = pre ++ d :: post) :
    (segFaulted (toGuest m) m.ps.regs.devOffset pre d (tableTried m)).ps.regs.errDesc.toNat =
      pre.length :=
  index_toNat m pre d post split

/-- How far a transfer came that faulted while copying, at segment d. -/
structure FaultedAt (m out : Machine) (pre : List LDDPCIEDesc) (d : LDDPCIEDesc)
    (post : List LDDPCIEDesc) : Prop where
  split : tableOf m = pre ++ d :: post
  errDesc : out.ps.regs.errDesc.toNat = pre.length
  xferBytes : out.ps.regs.xferBytes.toNat = totalLen pre
  /-- Guest to device: the bytes before the segment, and nothing past it. -/
  fetched : toGuest m = false → out.guest = m.guest ∧
    (List.range' m.ps.regs.devOffset.toNat (totalLen pre)).map out.ps.bar2.ram =
      gathered m.guest pre ∧
    ∀ x, x < m.ps.regs.devOffset.toNat ∨
      m.ps.regs.devOffset.toNat + totalLen pre + d.len.toNat ≤ x →
        out.ps.bar2.ram x = m.ps.bar2.ram x
  /-- Device to guest: outside the segment, exactly the segments before it. -/
  sent : toGuest m = true → out.ps.bar2.ram = m.ps.bar2.ram ∧
    ∀ x, x ∉ segRange d → out.guest x = store m.guest (segsRange pre)
      (sentBytes m m.ps.regs.devOffset.toNat (totalLen pre)) x
  /-- The accesses: the table, the segments before, and the one that faulted
  unless it was refused. None of a segment after it. -/
  trace : out.trace = m.trace ++ (tableAccess m :: pre.map (segAccess (toGuest m)) ++
    (if lddPcieDmaOk m.ps d.addr (d.len.setWidth 64) = true
      then [segAccess (toGuest m) d] else []))

section Faulted

variable (m : Machine) (pre : List LDDPCIEDesc) (d : LDDPCIEDesc) (post : List LDDPCIEDesc)

private theorem faulted_offset (range : RangeOk m) (split : tableOf m = pre ++ d :: post) :
    totalLen pre < 2 ^ 32 ∧ (m.ps.regs.devOffset + BitVec.ofNat 32 (totalLen pre)).toNat =
      m.ps.regs.devOffset.toNat + totalLen pre := by
  have hsum : m.ps.regs.devOffset.toNat + (totalLen pre + (d.len.toNat + totalLen post)) ≤
      lddMemSize := by
    have hr := range
    unfold RangeOk at hr
    rw [split] at hr
    simpa [totalLen] using hr
  unfold lddMemSize at hsum
  rw [BitVec.toNat_add, BitVec.toNat_ofNat]
  omega

private theorem faulted_fetched (range : RangeOk m) (split : tableOf m = pre ++ d :: post)
    (hdir : toGuest m = false) :
    let out := segFaulted (toGuest m) m.ps.regs.devOffset pre d (tableTried (startRegs m))
    out.guest = m.guest ∧
    (List.range' m.ps.regs.devOffset.toNat (totalLen pre)).map out.ps.bar2.ram =
      gathered m.guest pre ∧
    ∀ x, x < m.ps.regs.devOffset.toNat ∨
      m.ps.regs.devOffset.toNat + totalLen pre + d.len.toNat ≤ x →
        out.ps.bar2.ram x = m.ps.bar2.ram x := by
  intro out
  obtain ⟨hram, hguest, -⟩ := copySeg_frame (toGuest m) d
    (m.ps.regs.devOffset + BitVec.ofNat 32 (totalLen pre))
    (segsCopied (toGuest m) m.ps.regs.devOffset.toNat pre (tableTried (startRegs m)))
  obtain ⟨hr, hg⟩ := segsCopied_fetch m.ps.regs.devOffset.toNat pre (tableTried (startRegs m))
  rw [tableTried_ps, tableTried_guest] at hr
  rw [tableTried_guest] at hg
  rw [(faulted_offset m pre d post range split).2, hdir, hr] at hram
  rw [hdir] at hguest
  have hout : ∀ x, x ∉ List.range' (m.ps.regs.devOffset.toNat + totalLen pre) d.len.toNat →
      out.ps.bar2.ram x = store m.ps.bar2.ram
        (List.range' m.ps.regs.devOffset.toNat (totalLen pre)) (gathered m.guest pre) x := by
    intro x hx
    have h := hram x (.inl hx)
    rw [← hdir] at h
    exact h
  refine ⟨?_, ?_, ?_⟩
  · funext x
    have h := (hguest x (.inr rfl)).trans (congrFun hg x)
    rw [← hdir] at h
    exact h
  · have hin : ∀ x ∈ List.range' m.ps.regs.devOffset.toNat (totalLen pre),
        out.ps.bar2.ram x = store m.ps.bar2.ram
          (List.range' m.ps.regs.devOffset.toNat (totalLen pre)) (gathered m.guest pre) x := by
      intro x hx
      apply hout
      intro hmem
      have h1 := List.mem_range'_1.mp hx
      have h2 := List.mem_range'_1.mp hmem
      omega
    rw [List.map_congr_left hin]
    exact map_store _ _ _ List.nodup_range' (by simp [gathered])
  · intro x hx
    refine (hout x ?_).trans (store_frame _ _ _ ?_)
    · intro hmem
      have h := List.mem_range'_1.mp hmem
      omega
    · intro hmem
      have h := List.mem_range'_1.mp hmem
      omega

private theorem faulted_sent (hdir : toGuest m = true) :
    let out := segFaulted (toGuest m) m.ps.regs.devOffset pre d (tableTried (startRegs m))
    out.ps.bar2.ram = m.ps.bar2.ram ∧
    ∀ x, x ∉ segRange d → out.guest x = store m.guest (segsRange pre)
      (sentBytes m m.ps.regs.devOffset.toNat (totalLen pre)) x := by
  rw [hdir]
  obtain ⟨hram, hguest, -⟩ := copySeg_frame true d
    (m.ps.regs.devOffset + BitVec.ofNat 32 (totalLen pre))
    (segsCopied true m.ps.regs.devOffset.toNat pre (tableTried (startRegs m)))
  obtain ⟨hg, hr⟩ := segsCopied_send m.ps.regs.devOffset.toNat pre (tableTried (startRegs m))
  rw [tableTried_guest, sentBytes, tableTried_ps] at hg
  rw [tableTried_ps] at hr
  refine ⟨?_, ?_⟩
  · funext x
    exact (hram x (.inr rfl)).trans (congrFun hr x)
  · intro x hx
    exact (hguest x (.inl hx)).trans (congrFun hg x)

private theorem faultedAt_segFaulted (read : TableOk m) (range : RangeOk m)
    (split : tableOf m = pre ++ d :: post) :
    FaultedAt m (segFaulted (toGuest m) m.ps.regs.devOffset pre d (tableTried (startRegs m)))
      pre d post := by
  refine ⟨split, segFaulted_errDesc (startRegs m) pre d post split, ?_,
    faulted_fetched m pre d post range split, faulted_sent m pre d,
    segFaulted_trace (startRegs m) pre d read⟩
  · change (copySeg _ _ _ _).2.ps.regs.xferBytes.toNat = totalLen pre
    have hz : (0 : BitVec 32) + BitVec.ofNat 32 (totalLen pre) =
        BitVec.ofNat 32 (totalLen pre) := BitVec.zero_add _
    have hx : (tableTried (startRegs m)).ps.regs.xferBytes = 0 := by rw [tableTried_ps]; rfl
    rw [copySeg_regs, segsCopied_xferBytes, hx, hz, BitVec.toNat_ofNat,
      Nat.mod_eq_of_lt (faulted_offset m pre d post range split).1]

end Faulted

/-- With disjoint segments, every segment before the faulting one reads back
what was sent, and no later one has changed. -/
theorem FaultedAt.settled {m out : Machine} {pre post : List LDDPCIEDesc} {d : LDDPCIEDesc}
    (h : FaultedAt m out pre d post) (hd : SegsDisjoint (tableOf m)) (hdir : toGuest m = true) :
    (∀ before e after, pre = before ++ e :: after → (segRange e).map out.guest =
      sentBytes m (m.ps.regs.devOffset.toNat + totalLen before) e.len.toNat) ∧
    ∀ e ∈ post, ∀ x ∈ segRange e, out.guest x = m.guest x := by
  obtain ⟨-, hsent⟩ := h.sent hdir
  rw [h.split] at hd
  obtain ⟨hpre, hpost, hcross⟩ := List.pairwise_append.mp hd
  have hdp := (List.pairwise_cons.mp hpost).1
  constructor
  · intro before e after he
    have hmem : e ∈ pre := by rw [he]; simp
    have hout : ∀ x ∈ segRange e, out.guest x = store m.guest (segsRange pre)
        (sentBytes m m.ps.regs.devOffset.toNat (totalLen pre)) x :=
      fun x hx => hsent x (hcross e hmem d (by simp) hx)
    rw [List.map_congr_left hout, he]
    exact map_store_segs m.guest before after e m _ (he ▸ hpre)
  · intro e he x hx
    refine (hsent x fun hxd => hdp e he hxd hx).trans (store_frame _ _ _ ?_)
    intro hmem
    obtain ⟨f, hf, hxf⟩ := List.mem_flatMap.mp hmem
    exact hcross f hf e (List.mem_cons_of_mem d he) hxf hx

/-- Neither memory has changed, and no byte counts as transferred. -/
structure NothingMoved (m out : Machine) : Prop where
  ram : out.ps.bar2.ram = m.ps.bar2.ram
  guest : out.guest = m.guest
  xferBytes : out.ps.regs.xferBytes = 0

private theorem nothingMoved_tableTried (m : Machine) :
    NothingMoved m (tableTried (startRegs m)) := by
  refine ⟨?_, tableTried_guest _, ?_⟩
  · rw [tableTried_ps]; rfl
  · rw [tableTried_ps]; rfl

/-- What each failing check leaves behind it. -/
structure FailureReport (m : Machine) (code : BitVec 32) (out : Machine) : Prop where
  early : code = lddErrNoMaster ∨ code = lddErrBadCount ∨ code = lddErrBadDesc ∨
    code = lddErrOutOfRange → NothingMoved m out
  badDesc : code = lddErrBadDesc → ∃ pre d post, tableOf m = pre ++ d :: post ∧
    out.ps.regs.errDesc.toNat = pre.length ∧ ¬ DescOk m.ps.props.maxSeg d ∧
    ∀ e ∈ pre, DescOk m.ps.props.maxSeg e
  tableFault : code = lddErrDmaFault → ¬ TableOk m →
    NothingMoved m out ∧ out.ps.regs.errDesc = 0
  copyFault : code = lddErrDmaFault → TableOk m → ∃ pre d post, FaultedAt m out pre d post

theorem outcome_report {m out : Machine} {code : BitVec 32}
    (h : Outcome (startRegs m) code out) : FailureReport m code out := by
  have hnot : ∀ {a b : BitVec 32} {P : Prop}, a ≠ b → a = b → P :=
    fun hne heq => absurd heq hne
  cases h with
  | noMaster master | badCount master count =>
    exact ⟨fun _ => ⟨rfl, rfl, rfl⟩, hnot (by decide), hnot (by decide),
      hnot (by decide)⟩
  | tableFault master count read =>
    refine ⟨fun _ => nothingMoved_tableTried m, hnot (by decide), fun _ _ => ?_,
      fun _ hok => absurd hok read⟩
    refine ⟨nothingMoved_tableTried m, ?_⟩
    rw [tableTried_ps]
    rfl
  | badDesc master count read pre d post split good bad =>
    obtain ⟨hram, hguest, hxfer⟩ := nothingMoved_tableTried m
    refine ⟨fun _ => ⟨hram, hguest, hxfer⟩, fun _ => ⟨pre, d, post, split, ?_, bad, good⟩,
      hnot (by decide), hnot (by decide)⟩
    exact index_toNat (startRegs m) pre d post split
  | outOfRange master count read good range =>
    exact ⟨fun _ => nothingMoved_tableTried m, hnot (by decide), hnot (by decide),
      hnot (by decide)⟩
  | copyFault master count read good range pre d post split copied fault =>
    refine ⟨?_, hnot (by decide), fun _ hno => absurd read hno,
      fun _ _ => ⟨pre, d, post, faultedAt_segFaulted m pre d post read range split⟩⟩
    intro h
    exact absurd h (by decide)
  | done master count read good range copied =>
    refine ⟨?_, hnot (by decide), hnot (by decide), hnot (by decide)⟩
    intro h
    exact absurd h (by decide)

/-- A transfer that fails reports exactly what happened: the code is that of the
first failing check, and ERR_DESC, XFER_BYTES and both memories agree with it. -/
theorem failed_transfer_report (m : Machine) :
    let r := lddPcieTransfer (startRegs m)
    r.1 = firstFailing (startRegs m) ∧ FailureReport m r.1 r.2 ∧
    ∀ pre d post, FaultedAt m r.2 pre d post → SegsDisjoint (tableOf m) → toGuest m = true →
      (∀ before e after, pre = before ++ e :: after → (segRange e).map r.2.guest =
        sentBytes m (m.ps.regs.devOffset.toNat + totalLen before) e.len.toNat) ∧
      ∀ e ∈ post, ∀ x ∈ segRange e, r.2.guest x = m.guest x := by
  intro r
  have h : Outcome (startRegs m) r.1 r.2 := transfer_outcome (startRegs m)
  exact ⟨outcome_code_eq h, outcome_report h, fun pre d post hf hd hdir => hf.settled hd hdir⟩

end LinuxDeviceDriver.Qemu.Pcie.Copy
