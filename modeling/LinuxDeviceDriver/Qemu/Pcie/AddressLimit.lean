/- source: tools/qemu/hw/ldd/pcie.c, lines 151 to 155 and 180 to 235
   digest: Which DMA accesses a transfer issues, and when the 4 GiB check holds them back. -/

import LinuxDeviceDriver.Qemu.Pcie.Copy

set_option autoImplicit false

namespace LinuxDeviceDriver.Qemu.Pcie.AddressLimit

open Lib.ScatterGather
open State Transfer TransferOutcome Registers Copy

/-- The range [addr, addr + len), over the integers, lies in [0, 4 GiB). -/
def Below4G (addr : BitVec 64) (len : Nat) : Prop := addr.toNat + len ≤ 2 ^ 32

/-- The range ends at the top of the 64-bit address space or past it. -/
def Wraps (addr : BitVec 64) (len : Nat) : Prop := 2 ^ 64 ≤ addr.toNat + len

/-- The check lets a range through when it is below 4 GiB, or when the sum wraps. -/
theorem dmaOk_iff (ps : LDDPCIEState) (addr len : BitVec 64) (hp : ps.props.dma64 = false)
    (hl : len.toNat ≤ 2 ^ 32) :
    lddPcieDmaOk ps addr len = true ↔ Below4G addr len.toNat ∨ Wraps addr len.toNat := by
  have ha := addr.isLt
  unfold lddPcieDmaOk Below4G Wraps
  rw [hp, Bool.false_or, decide_eq_true_iff, BitVec.le_def, BitVec.toNat_add]
  change (addr.toNat + len.toNat) % 2 ^ 64 ≤ 2 ^ 32 ↔ _
  by_cases hw : addr.toNat + len.toNat < 2 ^ 64
  · rw [Nat.mod_eq_of_lt hw]
    omega
  · have hm : (addr.toNat + len.toNat) % 2 ^ 64 = addr.toNat + len.toNat - 2 ^ 64 := by
      rw [Nat.mod_eq_sub_mod (by omega), Nat.mod_eq_of_lt (by omega)]
    rw [hm]
    omega

/-- A range with a byte in it that wraps reaches past 4 GiB. -/
theorem exists_high_of_wraps {addr : BitVec 64} {len : Nat} (hw : Wraps addr len)
    (hpos : 1 ≤ len) (hl : len ≤ 2 ^ 32) : ∃ x ∈ dmaRange addr len, 2 ^ 32 ≤ x.toNat := by
  unfold Wraps at hw
  refine ⟨addr, ?_, by omega⟩
  refine List.mem_map.mpr ⟨0, List.mem_range.mpr hpos, ?_⟩
  exact BitVec.add_zero addr

theorem lt_of_below4G {addr x : BitVec 64} {len : Nat} (hb : Below4G addr len)
    (hx : x ∈ dmaRange addr len) : x.toNat < 2 ^ 32 := by
  unfold Below4G at hb
  have h := (mem_dmaRange_iff (by omega)).mp hx
  omega

/-- The copy loop comes to segment d: every check has passed and every segment
before it has been copied. -/
structure Reached (m : Machine) (pre : List LDDPCIEDesc) (d : LDDPCIEDesc)
    (post : List LDDPCIEDesc) : Prop where
  master : Master m
  count : CountOk m
  read : TableOk m
  good : ∀ e ∈ tableOf m, DescOk m.ps.props.maxSeg e
  range : RangeOk m
  split : tableOf m = pre ++ d :: post
  copied : SegsOk (toGuest m) m.ps.regs.devOffset.toNat pre (tableTried m)

theorem tableLen_bounds (m : Machine) (hc : CountOk m) :
    1 ≤ tableLen m ∧ tableLen m ≤ 2 ^ 32 := by
  obtain ⟨hlo, hhi⟩ := hc
  have hmax := m.ps.props.desc_max
  unfold tableLen descSize
  omega

theorem tableAllowed_iff (m : Machine) (hp : m.ps.props.dma64 = false) (hc : CountOk m) :
    tableAllowed m = true ↔
      Below4G m.ps.regs.descAddr (tableLen m) ∨ Wraps m.ps.regs.descAddr (tableLen m) := by
  have hlen : (m.ps.regs.descCount.setWidth 64 * BitVec.ofNat 64 descSize).toNat = tableLen m := by
    have h16 : (BitVec.ofNat 64 descSize).toNat = descSize := rfl
    have hb := tableLen_bounds m hc
    unfold tableLen descSize at *
    rw [BitVec.toNat_mul, BitVec.toNat_setWidth, h16]
    omega
  have h := dmaOk_iff m.ps m.ps.regs.descAddr
    (m.ps.regs.descCount.setWidth 64 * BitVec.ofNat 64 descSize) hp
    (hlen ▸ (tableLen_bounds m hc).2)
  rw [hlen] at h
  exact h

theorem Reached.len {m : Machine} {pre post : List LDDPCIEDesc} {d : LDDPCIEDesc}
    (h : Reached m pre d post) : (d.len.setWidth 64).toNat = d.len.toNat ∧
      1 ≤ d.len.toNat ∧ d.len.toNat ≤ 2 ^ 32 := by
  obtain ⟨hlo, hhi, -⟩ := h.good d (by rw [h.split]; simp)
  have hlt := d.len.isLt
  rw [BitVec.toNat_setWidth]
  omega

/-- Two places in one table are the same, or one comes before the other. -/
private theorem split_cases {pre pre' post post' : List LDDPCIEDesc} {d d' : LDDPCIEDesc}
    (h : pre ++ d :: post = pre' ++ d' :: post') :
    (pre = pre' ∧ d = d') ∨ (∃ r, pre' = pre ++ d :: r) ∨ ∃ r, pre = pre' ++ d' :: r := by
  rcases List.append_eq_append_iff.mp h with ⟨r, hr, hd⟩ | ⟨r, hr, hd⟩
  · cases r with
    | nil =>
      obtain ⟨hd, -⟩ := List.cons.inj hd
      exact .inl ⟨by simpa using hr.symm, hd⟩
    | cons e r =>
      obtain ⟨he, -⟩ := List.cons.inj hd
      exact .inr (.inl ⟨r, by rw [hr, he]⟩)
  · cases r with
    | nil =>
      obtain ⟨hd, -⟩ := List.cons.inj hd
      exact .inl ⟨by simpa using hr, hd.symm⟩
    | cons e r =>
      obtain ⟨he, -⟩ := List.cons.inj hd
      exact .inr (.inr ⟨r, by rw [hr, he]⟩)

/-- The accesses a transfer issues: the table when it is within reach, and each
segment the copy loop comes to that is. The first one out of reach ends it. -/
structure AccessReport (m : Machine) (code : BitVec 32) (out : Machine) (new : List DmaAccess) :
    Prop where
  only : ∀ a ∈ new, (a = tableAccess m ∧ Master m ∧ CountOk m ∧ tableAllowed m = true) ∨
    ∃ pre d post, Reached m pre d post ∧
      lddPcieDmaOk m.ps d.addr (d.len.setWidth 64) = true ∧ a = segAccess (toGuest m) d
  table : Master m → CountOk m → tableAllowed m = true → tableAccess m ∈ new
  noTable : Master m → CountOk m → tableAllowed m = false → code = lddErrDmaFault ∧ new = []
  seg : ∀ pre d post, Reached m pre d post →
    lddPcieDmaOk m.ps d.addr (d.len.setWidth 64) = true → segAccess (toGuest m) d ∈ new
  noSeg : ∀ pre d post, Reached m pre d post →
    lddPcieDmaOk m.ps d.addr (d.len.setWidth 64) = false →
      code = lddErrDmaFault ∧ out.ps.regs.errDesc.toNat = pre.length ∧
        new = tableAccess m :: pre.map (segAccess (toGuest m))

/-- The segments that were copied were reached and within reach. -/
private theorem reached_of_copied {m : Machine} (master : Master m) (count : CountOk m)
    (read : TableOk m) (good : ∀ d ∈ tableOf m, DescOk m.ps.props.maxSeg d) (range : RangeOk m)
    (done rest : List LDDPCIEDesc) (split : tableOf m = done ++ rest)
    (copied : SegsOk (toGuest m) m.ps.regs.devOffset.toNat done (tableTried m))
    (d : LDDPCIEDesc) (hd : d ∈ done) : ∃ pre post, Reached m pre d post ∧
      lddPcieDmaOk m.ps d.addr (d.len.setWidth 64) = true := by
  obtain ⟨pre, post, rfl⟩ := List.append_of_mem hd
  obtain ⟨hpre, hseg, -⟩ := segsOk_append.mp copied
  refine ⟨pre, post ++ rest, ⟨master, count, read, good, range, ?_, hpre⟩, ?_⟩
  · rw [split, List.append_assoc, List.cons_append]
  · have hok := hseg.1
    rwa [dmaOk_segsCopied] at hok

private theorem not_copied {m : Machine} {pre : List LDDPCIEDesc} {d : LDDPCIEDesc}
    (hno : lddPcieDmaOk m.ps d.addr (d.len.setWidth 64) = false) (rest : List LDDPCIEDesc) :
    ¬ SegsOk (toGuest m) m.ps.regs.devOffset.toNat (pre ++ d :: rest) (tableTried m) := by
  intro h
  have hok := (segsOk_append.mp h).2.1.1
  rw [dmaOk_segsCopied, hno] at hok
  contradiction

/-- The access that reads the table, if it is issued. -/
def tableNew (m : Machine) : List DmaAccess :=
  if tableAllowed m = true then [tableAccess m] else []

theorem tableTried_trace (m : Machine) : (tableTried m).trace = m.trace ++ tableNew m := by
  unfold tableTried tableNew
  split
  · rfl
  · exact (List.append_nil _).symm

private theorem report_none {m out : Machine} {code : BitVec 32}
    (hstop : Master m → ¬ CountOk m) : AccessReport m code out [] where
  only _ ha := absurd ha List.not_mem_nil
  table master count := absurd count (hstop master)
  noTable master count := absurd count (hstop master)
  seg _ _ _ hr := absurd hr.count (hstop hr.master)
  noSeg _ _ _ hr := absurd hr.count (hstop hr.master)

/-- A transfer that ends after the table and before the first segment. -/
private theorem report_table {m out : Machine} {code : BitVec 32} (master : Master m) (count : CountOk m)
    (hstop : ∀ pre d post, ¬ Reached m pre d post)
    (hfault : tableAllowed m = false → code = lddErrDmaFault) :
    AccessReport m code out (tableNew m) where
  only a ha := by
    unfold tableNew at ha
    split at ha
    · next hyes => exact .inl ⟨List.mem_singleton.mp ha, master, count, hyes⟩
    · exact absurd ha List.not_mem_nil
  table _ _ hyes := by
    rw [tableNew, if_pos hyes]
    exact List.mem_singleton.mpr rfl
  noTable _ _ hno := by
    refine ⟨hfault hno, ?_⟩
    rw [tableNew, if_neg (by simp [hno])]
  seg pre d post hr := absurd hr (hstop pre d post)
  noSeg pre d post hr := absurd hr (hstop pre d post)

private theorem tableNew_of_ok {m : Machine} (read : TableOk m) : tableNew m = [tableAccess m] := by
  rw [tableNew, if_pos read.1]

private theorem report_copyFault {m : Machine} (master : Master m) (count : CountOk m)
    (read : TableOk m) (good : ∀ d ∈ tableOf m, DescOk m.ps.props.maxSeg d) (range : RangeOk m)
    (pre : List LDDPCIEDesc) (d : LDDPCIEDesc) (post : List LDDPCIEDesc)
    (split : tableOf m = pre ++ d :: post)
    (copied : SegsOk (toGuest m) m.ps.regs.devOffset.toNat pre (tableTried m))
    (fault : ¬ SegOk (toGuest m) (m.ps.regs.devOffset.toNat + totalLen pre) d
      (segsCopied (toGuest m) m.ps.regs.devOffset.toNat pre (tableTried m)))
    (out : Machine) (herr : out.ps.regs.errDesc.toNat = pre.length) :
    AccessReport m lddErrDmaFault out (tableAccess m :: pre.map (segAccess (toGuest m)) ++
      (if lddPcieDmaOk m.ps d.addr (d.len.setWidth 64) = true
        then [segAccess (toGuest m) d] else [])) := by
  have hhere : Reached m pre d post := ⟨master, count, read, good, range, split, copied⟩
  -- a segment the loop comes to is the faulting one or one of those before it
  have hplace : ∀ pre' d' post', Reached m pre' d' post' →
      (pre' = pre ∧ d' = d) ∨ ∃ r, pre = pre' ++ d' :: r := by
    intro pre' d' post' hr
    rcases split_cases (hr.split.symm.trans split) with h | h | ⟨r, h⟩
    · exact .inl h
    · exact .inr h
    · have hc := hr.copied
      rw [h] at hc
      exact absurd (segsOk_append.mp hc).2.1 fault
  refine ⟨?_, ?_, ?_, ?_, ?_⟩
  · intro a ha
    rcases List.mem_append.mp ha with ha | ha
    · rcases List.mem_cons.mp ha with rfl | ha
      · exact .inl ⟨rfl, master, count, read.1⟩
      · obtain ⟨e, he, rfl⟩ := List.mem_map.mp ha
        obtain ⟨p, q, hr, hok⟩ := reached_of_copied master count read good range pre (d :: post)
          split copied e he
        exact .inr ⟨p, e, q, hr, hok, rfl⟩
    · split_ifs at ha with hok
      · exact .inr ⟨pre, d, post, hhere, hok, List.mem_singleton.mp ha⟩
      · exact absurd ha List.not_mem_nil
  · intro _ _ _
    exact List.mem_append_left _ List.mem_cons_self
  · intro _ _ hno
    rw [read.1] at hno
    contradiction
  · intro pre' d' post' hr hok
    rcases hplace pre' d' post' hr with ⟨rfl, rfl⟩ | ⟨r, rfl⟩
    · rw [if_pos hok]
      exact List.mem_append_right _ (List.mem_singleton.mpr rfl)
    · refine List.mem_append_left _ (List.mem_cons_of_mem _ (List.mem_map.mpr ⟨d', ?_, rfl⟩))
      simp
  · intro pre' d' post' hr hno
    rcases hplace pre' d' post' hr with ⟨rfl, rfl⟩ | ⟨r, rfl⟩
    · rw [if_neg (by simp [hno])]
      exact ⟨rfl, herr, List.append_nil _⟩
    · exact absurd copied (not_copied hno r)

private theorem report_done {m : Machine} (master : Master m) (count : CountOk m)
    (read : TableOk m) (good : ∀ d ∈ tableOf m, DescOk m.ps.props.maxSeg d) (range : RangeOk m)
    (copied : SegsOk (toGuest m) m.ps.regs.devOffset.toNat (tableOf m) (tableTried m))
    (out : Machine) :
    AccessReport m 0 out (tableAccess m :: (tableOf m).map (segAccess (toGuest m))) := by
  refine ⟨?_, ?_, ?_, ?_, ?_⟩
  · intro a ha
    rcases List.mem_cons.mp ha with rfl | ha
    · exact .inl ⟨rfl, master, count, read.1⟩
    · obtain ⟨e, he, rfl⟩ := List.mem_map.mp ha
      obtain ⟨p, q, hr, hok⟩ := reached_of_copied master count read good range (tableOf m) []
        (List.append_nil _).symm copied e he
      exact .inr ⟨p, e, q, hr, hok, rfl⟩
  · intro _ _ _
    exact List.mem_cons_self
  · intro _ _ hno
    rw [read.1] at hno
    contradiction
  · intro pre d post hr _
    refine List.mem_cons_of_mem _ (List.mem_map.mpr ⟨d, ?_, rfl⟩)
    rw [hr.split]
    simp
  · intro pre d post hr hno
    have hc := copied
    rw [hr.split] at hc
    exact absurd hc (not_copied hno post)

theorem outcome_accesses {m out : Machine} {code : BitVec 32} (h : Outcome m code out) :
    ∃ new, out.trace = m.trace ++ new ∧ AccessReport m code out new := by
  cases h with
  | noMaster master =>
    exact ⟨[], (List.append_nil _).symm, report_none fun h => absurd h master⟩
  | badCount master count =>
    exact ⟨[], (List.append_nil _).symm, report_none fun _ => count⟩
  | tableFault master count read =>
    exact ⟨tableNew m, tableTried_trace m,
      report_table master count (fun _ _ _ hr => read hr.read) fun _ => rfl⟩
  | badDesc master count read pre d post split good bad =>
    refine ⟨tableNew m, tableTried_trace m, report_table master count ?_ ?_⟩
    · intro _ _ _ hr
      exact bad (hr.good d (by rw [split]; simp))
    · intro hno
      rw [read.1] at hno
      contradiction
  | outOfRange master count read good range =>
    refine ⟨tableNew m, tableTried_trace m, report_table master count ?_ ?_⟩
    · intro _ _ _ hr
      exact range hr.range
    · intro hno
      rw [read.1] at hno
      contradiction
  | copyFault master count read good range pre d post split copied fault =>
    refine ⟨_, segFaulted_trace m pre d read, report_copyFault master count read good range
      pre d post split copied fault _ (segFaulted_errDesc m pre d post split)⟩
  | done master count read good range copied =>
    refine ⟨_, ?_, report_done master count read good range copied _⟩
    refine (segsCopied_trace _ _ _ _).trans ?_
    rw [tableTried_trace, tableNew_of_ok read, List.append_assoc, List.singleton_append]

/-- The accesses one run of ldd_pcie_transfer issues. -/
def issued (m : Machine) : List DmaAccess := (lddPcieTransfer m).2.trace.drop m.trace.length

theorem transfer_accesses (m : Machine) :
    AccessReport m (lddPcieTransfer m).1 (lddPcieTransfer m).2 (issued m) := by
  obtain ⟨new, htrace, hreport⟩ := outcome_accesses (transfer_outcome m)
  have hnew : issued m = new := by
    rw [issued, htrace, List.drop_left]
  rw [hnew]
  exact hreport

/-- The engine stays below 4 GiB: no access touches an address at or above it,
and the first range that is not below it ends the transfer with DMA_FAULT. -/
structure StaysBelow4G (m : Machine) : Prop where
  low : ∀ a ∈ issued m, ∀ x ∈ dmaRange a.addr a.len, x.toNat < 2 ^ 32
  table : Master m → CountOk m → ¬ Below4G m.ps.regs.descAddr (tableLen m) →
    (lddPcieTransfer m).1 = lddErrDmaFault ∧ issued m = []
  segment : ∀ pre d post, Reached m pre d post → ¬ Below4G d.addr d.len.toNat →
    (lddPcieTransfer m).1 = lddErrDmaFault ∧
      (lddPcieTransfer m).2.ps.regs.errDesc.toNat = pre.length ∧
      issued m = tableAccess m :: pre.map (segAccess (toGuest m))

/-- A device that reaches 32 address bits only. -/
def lowProps : Realized := { defaultProps with dma64 := false }

/-- A segment over the top of the address space: 16 bytes at 2^64 - 8. -/
def wrappingDesc : LDDPCIEDesc := ⟨0xfffffffffffffff8, 16, 0⟩

/-- The wrapping segment is accepted and copied, DMA above 4 GiB included. -/
theorem wrapped_segment_copied :
    let m := sample lowProps {} [wrappingDesc]
    m.ps.props.dma64 = false ∧ (lddPcieTransfer m).1 = 0 ∧
      segAccess false wrappingDesc ∈ issued m ∧ ¬ StaysBelow4G m := by
  intro m
  have hmem : segAccess false wrappingDesc ∈ issued m := by decide +kernel
  refine ⟨rfl, by decide +kernel, hmem, fun h => ?_⟩
  have hlow := h.low _ hmem wrappingDesc.addr (by decide +kernel)
  exact absurd hlow (by decide)

/-- No range the transfer comes to ends at 2^64 or past it. -/
structure NoWrap (m : Machine) : Prop where
  table : Master m → CountOk m → ¬ Wraps m.ps.regs.descAddr (tableLen m)
  segment : ∀ pre d post, Reached m pre d post → ¬ Wraps d.addr d.len.toNat

theorem staysBelow4G_of_noWrap (m : Machine) (hp : m.ps.props.dma64 = false) (h : NoWrap m) :
    StaysBelow4G m := by
  have hreport := transfer_accesses m
  have hseg : ∀ pre d post, Reached m pre d post →
      (lddPcieDmaOk m.ps d.addr (d.len.setWidth 64) = true ↔ Below4G d.addr d.len.toNat) := by
    intro pre d post hr
    obtain ⟨hw, -, hl⟩ := hr.len
    rw [dmaOk_iff m.ps d.addr _ hp (hw ▸ hl), hw]
    exact or_iff_left (h.segment pre d post hr)
  refine ⟨?_, ?_, ?_⟩
  · intro a ha x hx
    rcases hreport.only a ha with ⟨rfl, master, count, hok⟩ | ⟨pre, d, post, hr, hok, rfl⟩
    · have hb := (tableAllowed_iff m hp count).mp hok
      exact lt_of_below4G (hb.resolve_right (h.table master count)) hx
    · exact lt_of_below4G ((hseg pre d post hr).mp hok) hx
  · intro master count hn
    refine hreport.noTable master count ?_
    have hno := mt (tableAllowed_iff m hp count).mp (not_or.mpr ⟨hn, h.table master count⟩)
    simpa using hno
  · intro pre d post hr hn
    refine hreport.noSeg pre d post hr ?_
    simpa using mt (hseg pre d post hr).mp hn

theorem noWrap_of_staysBelow4G (m : Machine) (hp : m.ps.props.dma64 = false)
    (h : StaysBelow4G m) : NoWrap m := by
  have hreport := transfer_accesses m
  refine ⟨?_, ?_⟩
  · intro master count hw
    obtain ⟨hpos, hl⟩ := tableLen_bounds m count
    obtain ⟨x, hx, hhigh⟩ := exists_high_of_wraps hw hpos hl
    have hok := (tableAllowed_iff m hp count).mpr (.inr hw)
    have hlow := h.low _ (hreport.table master count hok) x hx
    omega
  · intro pre d post hr hw
    obtain ⟨hwidth, hpos, hl⟩ := hr.len
    obtain ⟨x, hx, hhigh⟩ := exists_high_of_wraps hw hpos hl
    have hok : lddPcieDmaOk m.ps d.addr (d.len.setWidth 64) = true := by
      rw [dmaOk_iff m.ps d.addr _ hp (hwidth ▸ hl), hwidth]
      exact .inr hw
    have hlow := h.low _ (hreport.seg pre d post hr hok) x hx
    omega

/-- Without dma64 the engine stays below 4 GiB exactly when no range it comes to
wraps: the sum in the check is kept in 64 bits, so such a range passes it. -/
theorem staysBelow4G_iff_noWrap (m : Machine) (hp : m.ps.props.dma64 = false) :
    StaysBelow4G m ↔ NoWrap m :=
  ⟨noWrap_of_staysBelow4G m hp, staysBelow4G_of_noWrap m hp⟩

theorem staysBelow4G_one_segment : StaysBelow4G (sample lowProps {} [⟨0xfffffff0, 16, 0⟩]) := by
  refine (staysBelow4G_iff_noWrap _ rfl).mpr ⟨fun _ _ => ?_, fun pre d post hr => ?_⟩
  · unfold Wraps
    decide
  · have htable : tableOf (sample lowProps {} [⟨0xfffffff0, 16, 0⟩]) = [⟨0xfffffff0, 16, 0⟩] := by
      decide +kernel
    have hd : d ∈ [(⟨0xfffffff0, 16, 0⟩ : LDDPCIEDesc)] := by
      rw [← htable, hr.split]
      simp
    rw [List.mem_singleton.mp hd]
    unfold Wraps
    decide

end LinuxDeviceDriver.Qemu.Pcie.AddressLimit
