/- source: examples/28_dma_sg/main.c, lines 36 to 161, 202 to 244 and 314 to 447
   digest: The scatter-gather driver: probe, one call, and what a call can end in. -/

import LinuxDeviceDriver.Drivers.DmaProbe

set_option autoImplicit false

namespace LinuxDeviceDriver.Drivers.DmaSg

open Lib.LittleEndian
open Lib.ScatterGather
open Qemu.Pcie
open State Transfer TransferOutcome Registers Copy CharFile DmaHost DescTable DmaProbe

def pageSize (pageShift : Nat) : Nat := 2 ^ pageShift

def offsetInPage (pageShift addr : Nat) : Nat := addr % pageSize pageShift

def divRoundUp (n d : Nat) : Nat := (n + d - 1) / d

/-- A mapped entry of the scatterlist: sg_dma_address() and sg_dma_len(). -/
structure DmaSeg where
  addr : BitVec 64
  len : BitVec 32
  deriving DecidableEq, Repr

/-- The kernel's memory services, with what the driver relies on. The builder
gives at most one segment a page, none larger than the limit, for a limit of a
page at least; mapping may join segments, up to the limit again. -/
structure PageServices (pageShift : Nat) where
  pinUserPagesFast : Nat → Int
  sgAllocTable : (npages offset count maxSeg : Nat) → Except Int (List Nat)
  sgAlloc_ok : ∀ npages offset count maxSeg lens, 1 ≤ count →
    offset + count ≤ npages * pageSize pageShift → pageSize pageShift ≤ maxSeg →
    sgAllocTable npages offset count maxSeg = .ok lens →
      lens.length ≤ npages ∧ (∀ l ∈ lens, 1 ≤ l ∧ l ≤ maxSeg) ∧ lens.sum = count
  sgAlloc_err : ∀ npages offset count maxSeg e,
    sgAllocTable npages offset count maxSeg = .error e → e < 0
  dmaMapSgtable : (maxSeg : Nat) → List Nat → Except Int (List DmaSeg)
  dmaMap_ok : ∀ maxSeg lens segs, (∀ l ∈ lens, 1 ≤ l ∧ l ≤ maxSeg) →
    dmaMapSgtable maxSeg lens = .ok segs → segs.length ≤ lens.length ∧
      (∀ sg ∈ segs, 1 ≤ sg.len.toNat ∧ sg.len.toNat ≤ maxSeg) ∧
      (segs.map fun sg => sg.len.toNat).sum = lens.sum
  dmaMap_err : ∀ maxSeg lens e, dmaMapSgtable maxSeg lens = .error e → e < 0

/-- What the rest of the kernel does during one call: a signal while it waits
for the lock, the bus and the memory behind it once the pages are mapped, the
module parameter, and how the wait for the device ends. -/
structure SgKernel (pageShift : Nat) extends PageServices pageShift where
  interrupted : Bool
  bus : DmaBus
  guest : Memory
  xor : BitVec 32
  wait : Wait

structure DmaSgDev where
  maxDesc : BitVec 32
  /-- The table: max_desc descriptors. -/
  desc : CoherentTable
  intStatus : BitVec 32 := 0
  /-- dma_get_max_seg_size(), as probe set it. -/
  maxSegSize : BitVec 32
  lastPages : Nat := 0
  lastSegs : Nat := 0
  lastDescs : Nat := 0
  removed : Bool := false

structure XferResult where
  ret : Int
  machine : Machine
  dsg : DmaSgDev
  /-- The bytes of the user's buffer that were replaced, from its start. -/
  data : List Byte := []
  /-- The errno of a kernel service that failed before any transfer. -/
  refused : Option Int := none
  /-- The device as START found it, and the ERR_CODE of the transfer. -/
  launch : Option (Machine × BitVec 32) := none
  /-- The pages were marked dirty when they were unpinned. -/
  dirty : Bool := false

def dmaSgRun (dsg : DmaSgDev) (m : Machine) (nents pos : Nat) (dir : DmaDataDirection)
    (xor : BitVec 32) (wait : Wait) : RunResult :=
  runTransfer m dsg.intStatus dsg.desc.bus nents pos dir xor wait

section Model

variable {pageShift : Nat} (k : SgKernel pageShift)

/-- The descriptors, one for each mapped segment. -/
def descsOf (segs : List DmaSeg) : List LDDPCIEDesc := segs.map fun sg => ⟨sg.addr, sg.len, 0⟩

/-- dma_sg_xfer once the pages are mapped, lines 136 to 160. None where an index
leaves dsg->desc. -/
def dmaSgMove (m : Machine) (dsg : DmaSgDev) (npages origNents count pos : Nat)
    (segs : List DmaSeg) (dir : DmaDataDirection) : Option XferResult :=
  (storeDescs dsg.desc dsg.maxDesc.toNat k.guest 0 (descsOf segs)).map fun guest =>
    let dsg := { dsg with lastPages := npages, lastSegs := origNents, lastDescs := segs.length }
    let r := dmaSgRun dsg { m with bus := k.bus, guest := guest } segs.length pos dir k.xor k.wait
    { ret := if r.ret ≠ 0 then r.ret else count
      machine := r.machine
      dsg := { dsg with intStatus := r.intStatus }
      data := if dir = .fromDevice then (segsRange (descsOf segs)).map r.machine.guest else []
      launch := some (r.launch, r.code)
      dirty := decide (dir = .fromDevice ∧ r.ret = 0) }

/-- Pinning may find the start of the buffer only: the pages and bytes to move. -/
def shortened (pageShift offset npages count : Nat) (pinned : Int) : Nat × Nat :=
  if pinned < npages then (pinned.toNat, pinned.toNat * pageSize pageShift - offset)
  else (npages, count)

/-- None where an index leaves dsg->pages or dsg->desc. -/
def dmaSgXfer (m : Machine) (dsg : DmaSgDev) (ubuf count pos : Nat) (dir : DmaDataDirection) :
    Option XferResult :=
  let offset := offsetInPage pageShift ubuf
  let npages := divRoundUp (offset + count) (pageSize pageShift)
  -- pin_user_pages_fast() may fill as many entries of dsg->pages as it is asked for
  if dsg.maxDesc.toNat < npages then none
  else
    let pinned := k.pinUserPagesFast npages
    if pinned ≤ 0 then
      let e := if pinned ≠ 0 then pinned else -efault
      some { ret := e, machine := m, dsg := dsg, refused := some e }
    else
      let short := shortened pageShift offset npages count pinned
      match k.sgAllocTable short.1 offset short.2 dsg.maxSegSize.toNat with
      | .error e => some { ret := e, machine := m, dsg := dsg, refused := some e }
      | .ok lens =>
        match k.dmaMapSgtable dsg.maxSegSize.toNat lens with
        | .error e => some { ret := e, machine := m, dsg := dsg, refused := some e }
        | .ok segs => dmaSgMove k m dsg short.1 lens.length short.2 pos segs dir

end Model

/-- The system the calls work on: the device, the driver's structure, and the
position of each open file. -/
structure Sys where
  machine : Machine
  dsg : DmaSgDev
  pos : Nat → Nat

/-- How much of the request one call takes on. -/
def roomFor (pageShift : Nat) (dsg : DmaSgDev) (ubuf size pos : Nat) : Nat :=
  min size (min (lddMemSize - pos)
    (dsg.maxDesc.toNat * pageSize pageShift - offsetInPage pageShift ubuf))

def dmaSgRw {pageShift : Nat} (s : Sys) (k : SgKernel pageShift) (c : Call) :
    Option (Sys × CallResult) :=
  let dir := dirOf c.op
  let pos := s.pos c.file
  if lddMemSize ≤ pos then some (s, c.answer (if dir = .toDevice then -enospc else 0) none)
  else
    let count := roomFor pageShift s.dsg c.ubuf c.op.size pos
    if count = 0 then some (s, c.answer 0 none)
    else if k.interrupted = true then some (s, c.answer (-erestartsys) (some (-erestartsys)))
    else if s.dsg.removed = true then some (s, c.answer (-enodev) (some (-enodev)))
    else
      (dmaSgXfer k s.machine s.dsg c.ubuf count pos dir).map fun r =>
        ({ machine := r.machine
           dsg := r.dsg
           pos := if (0 : Int) < r.ret then Function.update s.pos c.file (pos + r.ret.toNat) else s.pos },
         { log := ⟨c.file, c.op, r.refused, r.ret, r.data⟩, launch := r.launch })

/-- The device and the driver's structure, or the error that probe returns. -/
def dmaSgProbe (pageShift : Nat) (pk : ProbeKernel) (m : Machine) : Machine × Except Int DmaSgDev :=
  let maxSeg := ioread32 m .maxSeg
  let maxDesc := ioread32 m .maxDesc
  if pk.pciEnableDevice ≠ 0 then (m, .error pk.pciEnableDevice)
  else if pk.pciRequestRegions ≠ 0 then (m, .error pk.pciRequestRegions)
  else if pk.pciIomap = false then (m, .error (-enomem))
  else if ioread32 m .id ≠ lddId then (m, .error (-enodev))
  -- sg_alloc_table_from_pages_segment() refuses a limit below a page
  else if maxSeg.toNat < pageSize pageShift then (m, .error (-enodev))
  else
    let master := pciSetMaster m
    let err := pk.dmaSetMaskAndCoherent (anySet (ioread32 m .caps) lddCapsDma64)
    if err ≠ 0 then (pciClearMaster master, .error err)
    else
      match pk.dmaAllocCoherent (maxDesc.toNat * descSize) with
      | none => (pciClearMaster master, .error (-enomem))
      | some desc =>
        if pk.kmalloc maxDesc.toNat = false then (pciClearMaster master, .error (-enomem))
        else
          let r := probeIrqs pk master
          if r.2 ≠ 0 then (pciClearMaster r.1, .error r.2)
          else (r.1, .ok { maxDesc := maxDesc, desc := desc, maxSegSize := maxSeg })

/-! ## What a call can end in -/

/-- The driver and the device agree on the limits, and no transfer is on. -/
structure Ready (pageShift : Nat) (m : Machine) (dsg : DmaSgDev) : Prop where
  idle : Idle m.ps
  master : Master m
  maxDesc : dsg.maxDesc = m.ps.props.maxDesc
  maxSeg : dsg.maxSegSize = m.ps.props.maxSeg
  page : pageSize pageShift ≤ m.ps.props.maxSeg.toNat

/-- A successful probe of a device at rest: the driver has the device's limits. -/
theorem dmaSgProbe_ready {pageShift : Nat} {pk : ProbeKernel} {m m' : Machine} {dsg : DmaSgDev}
    (h : dmaSgProbe pageShift pk m = (m', .ok dsg)) (hb : busy m.ps = false)
    (ht : m.ps.timer = false) : Ready pageShift m' dsg ∧ dsg.removed = false ∧ m'.ps.bar2.ram = m.ps.bar2.ram := by
  unfold dmaSgProbe at h
  obtain ⟨-, h⟩ := of_ite_error h
  obtain ⟨-, h⟩ := of_ite_error h
  obtain ⟨-, h⟩ := of_ite_error h
  obtain ⟨-, h⟩ := of_ite_error h
  obtain ⟨hpage, h⟩ := of_ite_error h
  obtain ⟨-, h⟩ := of_ite_error h
  cases hc : pk.dmaAllocCoherent ((ioread32 m .maxDesc).toNat * descSize) with
  | none =>
    rw [hc] at h
    exact nomatch (Prod.ext_iff.mp h).2
  | some desc =>
    rw [hc] at h
    obtain ⟨-, h⟩ := of_ite_error h
    obtain ⟨herr, h⟩ := of_ite_error h
    obtain ⟨hm, hd⟩ := Prod.ext_iff.mp h
    have hz : probeIrqs pk (pciSetMaster m) = (m', 0) := Prod.ext hm (not_not.mp herr)
    obtain ⟨msi, -, rfl⟩ := probeIrqs_ok hz
    obtain rfl := Except.ok.inj hd
    refine ⟨⟨enabled_idle _ msi hb ht, ?_, rfl, rfl, not_lt.mp hpage⟩, rfl, rfl⟩
    show (enabled (pciSetMaster m) msi).ps.pdev.command &&& pciCommandMaster ≠ 0
    rw [enabled_command]
    exact master_pciSetMaster m

section Outcome

variable {pageShift : Nat} (k : SgKernel pageShift) (m : Machine) (dsg : DmaSgDev)

/-- The device as dma_sg_run finds it: the table is written, the pages mapped. -/
def mapped (segs : List DmaSeg) : Machine :=
  { m with bus := k.bus, guest := withTable k.guest dsg.desc (descsOf segs) }

/-- The device right after START. -/
def started (segs : List DmaSeg) (pos : Nat) (dir : DmaDataDirection) : Machine :=
  lddPcieStart (launched (mapped k m dsg segs) dsg.desc.bus segs.length pos dir k.xor)

/-- A transfer was run: what the call returns and leaves behind. -/
structure Moved (count pos : Nat) (segs : List DmaSeg) (dir : DmaDataDirection) (r : XferResult) :
    Prop where
  good : GoodTable m.ps (descsOf segs) pos
  total : totalLen (descsOf segs) = count
  ready : Ready pageShift r.machine r.dsg
  bar2 : r.machine.ps.bar2 = (started k m dsg segs pos dir).ps.bar2
  data : r.data = if dir = .fromDevice
    then (segsRange (descsOf segs)).map (started k m dsg segs pos dir).guest else []
  refused : r.refused = none
  launch : r.launch = some (withProgram (mapped k m dsg segs) dsg.desc.bus segs.length pos dir k.xor,
    (started k m dsg segs pos dir).ps.regs.result)
  ret : r.ret = if runRet k.wait (started k m dsg segs pos dir).ps.regs.result ≠ 0
    then runRet k.wait (started k m dsg segs pos dir).ps.regs.result else count

private theorem finished_ready {m m' started : Machine} {dsg : DmaSgDev} {r : RunResult}
    (hready : Ready pageShift m dsg) (h : Finished m' started r) (hps : m'.ps = m.ps)
    {dsg' : DmaSgDev} (hd : dsg'.maxDesc = dsg.maxDesc) (hs : dsg'.maxSegSize = dsg.maxSegSize) :
    Ready pageShift r.machine dsg' := by
  have hprops := h.props
  have hcommand := h.command
  rw [hps] at hprops hcommand
  refine ⟨h.idle, ?_, ?_, ?_, ?_⟩
  · show r.machine.ps.pdev.command &&& pciCommandMaster ≠ 0
    rw [hcommand]
    exact hready.master
  · rw [hd, hprops]
    exact hready.maxDesc
  · rw [hs, hprops]
    exact hready.maxSeg
  · rw [hprops]
    exact hready.page

@[simp] theorem descsOf_length (segs : List DmaSeg) : (descsOf segs).length = segs.length := by
  simp [descsOf]

theorem dmaSgMove_moved (hready : Ready pageShift m dsg) (npages origNents count pos : Nat)
    (segs : List DmaSeg) (dir : DmaDataDirection) (hgood : GoodTable m.ps (descsOf segs) pos)
    (htotal : totalLen (descsOf segs) = count) :
    ∃ r, dmaSgMove k m dsg npages origNents count pos segs dir = some r ∧
      Moved k m dsg count pos segs dir r := by
  have hstore : storeDescs dsg.desc dsg.maxDesc.toNat k.guest 0 (descsOf segs) =
      some (withTable k.guest dsg.desc (descsOf segs)) := by
    apply storeDescs_eq
    rw [hready.maxDesc]
    exact hgood.count
  have hidle : Idle (mapped k m dsg segs).ps := hready.idle
  let r := runTransfer (mapped k m dsg segs) dsg.intStatus dsg.desc.bus segs.length pos dir
    k.xor k.wait
  obtain ⟨hfin, hlaunch, hcode, hret⟩ :
      Finished (mapped k m dsg segs) (started k m dsg segs pos dir) r ∧ _ :=
    runTransfer_spec (mapped k m dsg segs) dsg.intStatus dsg.desc.bus segs.length pos dir k.xor
      k.wait hidle dsg.desc.aligned
  have hmove : dmaSgMove k m dsg npages origNents count pos segs dir = some
      { ret := if r.ret ≠ 0 then r.ret else count
        machine := r.machine
        dsg := { dsg with lastPages := npages, lastSegs := origNents, lastDescs := segs.length,
                          intStatus := r.intStatus }
        data := if dir = .fromDevice then (segsRange (descsOf segs)).map r.machine.guest else []
        launch := some (r.launch, r.code)
        dirty := decide (dir = .fromDevice ∧ r.ret = 0) } := by
    rw [dmaSgMove, hstore]
    rfl
  refine ⟨_, hmove, hgood, htotal, ?_, hfin.bar2, ?_, rfl, ?_, ?_⟩
  · exact finished_ready hready hfin rfl rfl rfl
  · rw [hfin.guest]
  · rw [hlaunch, hcode]
    rfl
  · rw [hret, hcode]
    rfl

/-- A page and more: the arithmetic of pages and offsets that pinning needs. -/
private theorem shortened_spec {offset npages count : Nat} {pinned : Int}
    (hoff : offset < pageSize pageShift) (hcount : 1 ≤ count)
    (hn : npages = divRoundUp (offset + count) (pageSize pageShift)) (hp : 0 < pinned) :
    let short := shortened pageShift offset npages count pinned
    1 ≤ short.2 ∧ short.2 ≤ count ∧ short.1 ≤ npages ∧
      offset + short.2 ≤ short.1 * pageSize pageShift := by
  have hpage : 1 ≤ pageSize pageShift := Nat.one_le_two_pow
  have hceil : offset + count ≤ npages * pageSize pageShift := by
    have h := Nat.div_add_mod (offset + count + pageSize pageShift - 1) (pageSize pageShift)
    have hr := Nat.mod_lt (offset + count + pageSize pageShift - 1) hpage
    have hm : npages * pageSize pageShift = pageSize pageShift *
        ((offset + count + pageSize pageShift - 1) / pageSize pageShift) := by
      rw [hn, divRoundUp, Nat.mul_comm]
    omega
  have hfloor : npages * pageSize pageShift ≤ offset + count + pageSize pageShift - 1 := by
    rw [hn, divRoundUp]
    exact Nat.div_mul_le_self _ _
  intro short
  by_cases hlt : pinned < npages
  · have hshort : short = (pinned.toNat, pinned.toNat * pageSize pageShift - offset) := if_pos hlt
    -- at least one page, and at least one page fewer than asked for
    have hfirst : pageSize pageShift ≤ pinned.toNat * pageSize pageShift :=
      Nat.le_mul_of_pos_left _ (by omega)
    have hlast : (pinned.toNat + 1) * pageSize pageShift ≤ npages * pageSize pageShift :=
      Nat.mul_le_mul_right _ (by omega)
    rw [Nat.succ_mul] at hlast
    rw [hshort]
    refine ⟨?_, ?_, ?_, ?_⟩ <;> simp only <;> omega
  · have hshort : short = (npages, count) := if_neg hlt
    rw [hshort]
    exact ⟨hcount, le_refl _, le_refl _, hceil⟩

private theorem goodTable_of_segs {count pos : Nat} {segs : List DmaSeg}
    (hready : Ready pageShift m dsg) (hlen : segs.length ≤ dsg.maxDesc.toNat)
    (hseg : ∀ sg ∈ segs, 1 ≤ sg.len.toNat ∧ sg.len.toNat ≤ dsg.maxSegSize.toNat)
    (hsum : (segs.map fun sg => sg.len.toNat).sum = count) (hcount : 1 ≤ count)
    (hfit : pos + count ≤ lddMemSize) :
    GoodTable m.ps (descsOf segs) pos ∧ totalLen (descsOf segs) = count := by
  have htotal : totalLen (descsOf segs) = count := by
    rw [← hsum, totalLen, descsOf, List.map_map]
    rfl
  refine ⟨⟨?_, ?_, ?_, ?_⟩, htotal⟩
  · rw [descsOf_length]
    cases segs with
    | nil =>
      rw [List.map_nil, List.sum_nil] at hsum
      omega
    | cons sg segs => exact Nat.succ_le_succ (Nat.zero_le _)
  · rw [descsOf_length, ← hready.maxDesc]
    exact hlen
  · intro d hd
    obtain ⟨sg, hsg, rfl⟩ := List.mem_map.mp hd
    obtain ⟨hlo, hhi⟩ := hseg sg hsg
    rw [hready.maxSeg] at hhi
    exact ⟨hlo, hhi, rfl⟩
  · rw [htotal]
    exact hfit

/-- dma_sg_xfer never leaves its arrays. A kernel service refuses the call and
nothing has changed, or a transfer with a good table is run over the pages that
were pinned. -/
theorem dmaSgXfer_moves (hready : Ready pageShift m dsg) (ubuf count pos : Nat)
    (dir : DmaDataDirection) (hcount : 1 ≤ count) (hfit : pos + count ≤ lddMemSize)
    (hroom : offsetInPage pageShift ubuf + count ≤ dsg.maxDesc.toNat * pageSize pageShift) :
    ∃ r, dmaSgXfer k m dsg ubuf count pos dir = some r ∧
      ((∃ e, e < 0 ∧ r = { ret := e, machine := m, dsg := dsg, refused := some e }) ∨
        ∃ npages moved lens segs, 1 ≤ moved ∧ moved ≤ count ∧
          offsetInPage pageShift ubuf + moved ≤ npages * pageSize pageShift ∧
          k.dmaMapSgtable dsg.maxSegSize.toNat lens = .ok segs ∧
          dmaSgMove k m dsg npages lens.length moved pos segs dir = some r ∧
          Moved k m dsg moved pos segs dir r) := by
  have hpage : 1 ≤ pageSize pageShift := Nat.one_le_two_pow
  have hoff : offsetInPage pageShift ubuf < pageSize pageShift := Nat.mod_lt _ hpage
  have hpages : ¬ dsg.maxDesc.toNat <
      divRoundUp (offsetInPage pageShift ubuf + count) (pageSize pageShift) := by
    rw [Nat.not_lt, divRoundUp, ← Nat.lt_succ_iff, Nat.div_lt_iff_lt_mul hpage, Nat.succ_mul]
    omega
  unfold dmaSgXfer
  simp only [if_neg hpages]
  by_cases hp : k.pinUserPagesFast
      (divRoundUp (offsetInPage pageShift ubuf + count) (pageSize pageShift)) ≤ 0
  · rw [if_pos hp]
    refine ⟨_, rfl, .inl ⟨_, ?_, rfl⟩⟩
    split
    · omega
    · decide
  rw [if_neg hp]
  obtain ⟨hlo, hhi, hle, hfits⟩ := shortened_spec hoff hcount rfl (not_le.mp hp)
  generalize hshort : shortened pageShift _ _ _ _ = short at hlo hhi hle hfits ⊢
  cases halloc : k.sgAllocTable short.1 (offsetInPage pageShift ubuf) short.2
      dsg.maxSegSize.toNat with
  | error e => exact ⟨_, rfl, .inl ⟨e, k.sgAlloc_err _ _ _ _ e halloc, rfl⟩⟩
  | ok lens =>
    obtain ⟨hlens, hsegs, hsum⟩ := k.sgAlloc_ok _ _ _ _ lens hlo hfits
      (by rw [hready.maxSeg]; exact hready.page) halloc
    have hfit' : pos + short.2 ≤ lddMemSize := by omega
    dsimp only
    cases hmap : k.dmaMapSgtable dsg.maxSegSize.toNat lens with
    | error e => exact ⟨_, rfl, .inl ⟨e, k.dmaMap_err _ _ e hmap, rfl⟩⟩
    | ok segs =>
      obtain ⟨hnents, hseg, htotal⟩ := k.dmaMap_ok _ lens segs hsegs hmap
      obtain ⟨hgood, hlen⟩ := goodTable_of_segs m dsg hready (by omega) hseg (htotal.trans hsum)
        hlo hfit'
      obtain ⟨r, hr, hmoved⟩ := dmaSgMove_moved k m dsg hready short.1 lens.length short.2 pos segs
        dir hgood hlen
      exact ⟨r, hr, .inr ⟨short.1, short.2, lens, segs, hlo, hhi, hfits, hmap, hr, hmoved⟩⟩

end Outcome

/-- What one call can do. -/
inductive CallOutcome {pageShift : Nat} (s : Sys) (k : SgKernel pageShift) (c : Call) :
    Sys → CallResult → Prop
  | atEnd (hp : lddMemSize ≤ s.pos c.file) :
      CallOutcome s k c s (c.answer (if dirOf c.op = .toDevice then -enospc else 0) none)
  | nothing (hp : s.pos c.file < lddMemSize) (hn : c.op.size = 0) :
      CallOutcome s k c s (c.answer 0 none)
  | refused (e : Int) (he : e < 0) (hp : s.pos c.file < lddMemSize) (hn : 0 < c.op.size) :
      CallOutcome s k c s (c.answer e (some e))
  | moved (n : Nat) (segs : List DmaSeg) (r : XferResult) (hp : s.pos c.file < lddMemSize)
      (hlo : 1 ≤ n) (hhi : n ≤ c.op.size) (hend : s.pos c.file + n ≤ lddMemSize)
      (source : ∃ maxSeg lens, k.dmaMapSgtable maxSeg lens = .ok segs)
      (hr : Moved k s.machine s.dsg n (s.pos c.file) segs (dirOf c.op) r) :
      CallOutcome s k c
        { machine := r.machine
          dsg := r.dsg
          pos := if (0 : Int) < r.ret
            then Function.update s.pos c.file (s.pos c.file + r.ret.toNat) else s.pos }
        { log := ⟨c.file, c.op, r.refused, r.ret, r.data⟩, launch := r.launch }

theorem roomFor_spec {pageShift : Nat} {m : Machine} {dsg : DmaSgDev}
    (hready : Ready pageShift m dsg) (ubuf size pos : Nat) (hp : pos < lddMemSize) :
    let count := roomFor pageShift dsg ubuf size pos
    count ≤ size ∧ pos + count ≤ lddMemSize ∧ (count = 0 ↔ size = 0) ∧
      offsetInPage pageShift ubuf + count ≤ dsg.maxDesc.toNat * pageSize pageShift := by
  have hpage : 1 ≤ pageSize pageShift := Nat.one_le_two_pow
  have hoff : offsetInPage pageShift ubuf < pageSize pageShift := Nat.mod_lt _ hpage
  have hdesc : pageSize pageShift ≤ dsg.maxDesc.toNat * pageSize pageShift := by
    apply Nat.le_mul_of_pos_left
    rw [hready.maxDesc]
    exact m.ps.props.desc_min
  intro count
  have hcount : count = min size (min (lddMemSize - pos)
    (dsg.maxDesc.toNat * pageSize pageShift - offsetInPage pageShift ubuf)) := rfl
  omega

theorem dmaSgRw_outcome {pageShift : Nat} (s : Sys) (k : SgKernel pageShift) (c : Call)
    (hready : Ready pageShift s.machine s.dsg) :
    ∃ s' r, dmaSgRw s k c = some (s', r) ∧ CallOutcome s k c s' r := by
  unfold dmaSgRw
  by_cases hp : lddMemSize ≤ s.pos c.file
  · simp only [if_pos hp]
    exact ⟨_, _, rfl, .atEnd hp⟩
  have hp' := not_le.mp hp
  obtain ⟨hsize, hend, hzero, hroom⟩ := roomFor_spec hready c.ubuf c.op.size (s.pos c.file) hp'
  simp only [if_neg hp]
  by_cases hc : roomFor pageShift s.dsg c.ubuf c.op.size (s.pos c.file) = 0
  · rw [if_pos hc]
    exact ⟨_, _, rfl, .nothing hp' (hzero.mp hc)⟩
  have hpos : 0 < c.op.size := Nat.pos_of_ne_zero (mt hzero.mpr hc)
  rw [if_neg hc]
  split
  · exact ⟨_, _, rfl, .refused _ (by decide) hp' hpos⟩
  split
  · exact ⟨_, _, rfl, .refused _ (by decide) hp' hpos⟩
  obtain ⟨r, hr, ⟨e, he, rfl⟩ | ⟨npages, n, lens, segs, hlo, hhi, -, hmap, -, hmoved⟩⟩ :=
    dmaSgXfer_moves k s.machine s.dsg hready c.ubuf _ (s.pos c.file) (dirOf c.op)
      (Nat.pos_of_ne_zero hc) hend hroom
  · rw [hr]
    refine ⟨s, c.answer e (some e), ?_, .refused e he hp' hpos⟩
    simp only [Option.map_some, if_neg (not_lt.mpr he.le)]
    rfl
  · rw [hr]
    exact ⟨_, _, rfl, .moved n segs r hp' hlo (hhi.trans hsize) (by omega) ⟨_, lens, hmap⟩ hmoved⟩

private theorem enomem_neg : -enomem < 0 := by decide

/-- Pages that follow one another: one segment, at the page after the table. -/
def contiguous : PageServices 12 where
  pinUserPagesFast npages := npages
  sgAllocTable npages _ count maxSeg :=
    if 1 ≤ npages ∧ count ≤ maxSeg then .ok [count] else .error (-enomem)
  sgAlloc_ok npages offset count maxSeg lens hc hfit hm h := by
    split_ifs at h with hok
    · obtain rfl := Except.ok.inj h
      refine ⟨hok.1, fun l hl => ?_, List.sum_singleton⟩
      obtain rfl := List.mem_singleton.mp hl
      exact ⟨hc, hok.2⟩
  sgAlloc_err npages offset count maxSeg e h := by
    split_ifs at h
    obtain rfl := Except.error.inj h
    exact enomem_neg
  dmaMapSgtable maxSeg lens :=
    if maxSeg < 2 ^ 32 ∧ lens.length = 1
      then .ok (lens.map fun l => ⟨0x2000, BitVec.ofNat 32 l⟩) else .error (-enomem)
  dmaMap_ok maxSeg lens segs hl h := by
    split_ifs at h with hok
    · obtain rfl := Except.ok.inj h
      obtain ⟨l, rfl⟩ := List.length_eq_one_iff.mp hok.2
      have hb := hl l (List.mem_singleton.mpr rfl)
      have hw : (BitVec.ofNat 32 l).toNat = l := by
        rw [BitVec.toNat_ofNat]
        omega
      refine ⟨le_refl 1, fun sg hsg => ?_, ?_⟩
      · obtain rfl := List.mem_singleton.mp hsg
        show 1 ≤ (BitVec.ofNat 32 l).toNat ∧ (BitVec.ofNat 32 l).toNat ≤ maxSeg
        rwa [hw]
      · exact congrArg (fun n => [n].sum) hw
  dmaMap_err maxSeg lens e h := by
    split_ifs at h
    obtain rfl := Except.error.inj h
    exact enomem_neg

/-- A call that nothing disturbs, over flat memory. -/
def undisturbed (guest : Memory) : SgKernel 12 :=
  { contiguous with
    interrupted := false, bus := DmaBus.flat, guest := guest, xor := 0, wait := .completed }

/-- What a probe in a willing kernel makes of a fresh device. -/
def probedDev : DmaSgDev := { maxDesc := 256, desc := firstTable, maxSegSize := 65536 }

end LinuxDeviceDriver.Drivers.DmaSg
