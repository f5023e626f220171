/- source: examples/27_dma/main.c, lines 40 to 217 and 255 to 390
   digest: The single-segment driver: probe, one call, and what a call can end in. -/

import LinuxDeviceDriver.Drivers.DmaProbe

set_option autoImplicit false

namespace LinuxDeviceDriver.Drivers.Dma

open Lib.LittleEndian
open Lib.ScatterGather
open Qemu.Pcie
open State Transfer TransferOutcome Registers Copy CharFile DmaHost DescTable DmaProbe

/-- DMA_CHUNK: the largest transfer; MAX_SEG may lower it. -/
def dmaChunk : Nat := 65536

/-- What the kernel does during one call: a signal while it waits for the lock,
whether the user copy succeeds and what a failing one leaves in the buffer, the
mapping of the buffer, the bus and the memory behind it once it is mapped, the
module parameter, and how the wait for the device ends. -/
structure DmaKernel where
  interrupted : Bool
  userCopy : Bool
  spoilt : List Byte
  dmaMapSingle : Option (BitVec 64)
  bus : DmaBus
  guest : Memory
  xor : BitVec 32
  wait : Wait

structure DmaDev where
  /-- The table: one descriptor. -/
  desc : CoherentTable
  buf : List Byte
  chunk : Nat
  intStatus : BitVec 32 := 0
  removed : Bool := false

structure XferResult where
  ret : Int
  machine : Machine
  dma : DmaDev
  refused : Option Int := none
  launch : Option (Machine × BitVec 32) := none

/-- The one descriptor, of len bytes at the bus address of the buffer. -/
def descOf (bus : BitVec 64) (len : Nat) : LDDPCIEDesc := ⟨bus, BitVec.ofNat 32 len, 0⟩

def dmaXfer (k : DmaKernel) (m : Machine) (dma : DmaDev) (pos len : Nat)
    (dir : DmaDataDirection) : XferResult :=
  match k.dmaMapSingle with
  | none => { ret := -enomem, machine := m, dma := dma, refused := some (-enomem) }
  | some bus =>
    let d := descOf bus len
    let r := runTransfer { m with bus := k.bus, guest := storeDesc k.guest dma.desc 0 d }
      dma.intStatus dma.desc.bus 1 pos dir k.xor k.wait
    -- unmapped: the buffer is the CPU's again
    let buf := if dir = .fromDevice then (segRange d).map r.machine.guest ++ dma.buf.drop len
      else dma.buf
    { ret := r.ret
      machine := r.machine
      dma := { dma with intStatus := r.intStatus, buf := buf }
      launch := some (r.launch, r.code) }

/-- The device, the driver's structure, and the position of each open file. -/
structure Sys where
  machine : Machine
  dma : DmaDev
  pos : Nat → Nat

/-- The end of a call that has run dma_xfer. -/
def Sys.finish (s : Sys) (c : Call) (x : XferResult) (ret : Int) (data : List Byte) (moved : Nat) :
    Sys × CallResult :=
  ({ machine := x.machine, dma := x.dma
     pos := Function.update s.pos c.file (s.pos c.file + moved) },
   { log := ⟨c.file, c.op, x.refused, ret, data⟩, launch := x.launch })

/-- How much of the request one call takes on. -/
def countFor (dma : DmaDev) (size pos : Nat) : Nat := min size (min (lddMemSize - pos) dma.chunk)

/-- The end of dma_read, lines 169 to 178, and of dma_write, lines 209 to 213. -/
def endRw (s : Sys) (k : DmaKernel) (c : Call) (count : Nat) (x : XferResult) : Sys × CallResult :=
  if x.ret ≠ 0 then s.finish c x x.ret [] 0
  else if dirOf c.op = .fromDevice then
    if k.userCopy = false then s.finish c x (-efault) [] 0
    else s.finish c x count (x.dma.buf.take count) count
  else s.finish c x count [] count

def dmaRead (s : Sys) (k : DmaKernel) (c : Call) (n : Nat) : Sys × CallResult :=
  let pos := s.pos c.file
  if lddMemSize ≤ pos then (s, c.answer 0 none)
  else
    let count := countFor s.dma n pos
    if count = 0 then (s, c.answer 0 none)
    else if k.interrupted = true then (s, c.answer (-erestartsys) (some (-erestartsys)))
    else if s.dma.removed = true then (s, c.answer (-enodev) (some (-enodev)))
    else
      endRw s k c count (dmaXfer k s.machine s.dma pos count .fromDevice)

def dmaWrite (s : Sys) (k : DmaKernel) (c : Call) (data : List Byte) : Sys × CallResult :=
  let pos := s.pos c.file
  if lddMemSize ≤ pos then (s, c.answer (-enospc) none)
  else
    let count := countFor s.dma data.length pos
    if count = 0 then (s, c.answer 0 none)
    else if k.interrupted = true then (s, c.answer (-erestartsys) (some (-erestartsys)))
    else if s.dma.removed = true then (s, c.answer (-enodev) (some (-enodev)))
    else if k.userCopy = false then
      ({ s with dma := { s.dma with buf := k.spoilt } }, c.answer (-efault) none)
    else
      let filled := { s.dma with buf := data.take count ++ s.dma.buf.drop count }
      endRw s k c count (dmaXfer k s.machine filled pos count .toDevice)

def dmaRw (s : Sys) (k : DmaKernel) (c : Call) : Sys × CallResult :=
  match c.op with
  | .read n => dmaRead s k c n
  | .write data => dmaWrite s k c data

/-- The device and the driver's structure, or the error that probe returns. The
new buffer holds whatever kmalloc() found there. -/
def dmaProbe (pk : ProbeKernel) (old : List Byte) (m : Machine) : Machine × Except Int DmaDev :=
  let chunk := min dmaChunk (ioread32 m .maxSeg).toNat
  if pk.pciEnableDevice ≠ 0 then (m, .error pk.pciEnableDevice)
  else if pk.pciRequestRegions ≠ 0 then (m, .error pk.pciRequestRegions)
  else if pk.pciIomap = false then (m, .error (-enomem))
  else if ioread32 m .id ≠ lddId then (m, .error (-enodev))
  else
    let master := pciSetMaster m
    let err := pk.dmaSetMaskAndCoherent (anySet (ioread32 m .caps) lddCapsDma64)
    if err ≠ 0 then (pciClearMaster master, .error err)
    else
      match pk.dmaAllocCoherent descSize with
      | none => (pciClearMaster master, .error (-enomem))
      | some desc =>
        if pk.kmalloc chunk = false then (pciClearMaster master, .error (-enomem))
        else
          let r := probeIrqs pk master
          if r.2 ≠ 0 then (pciClearMaster r.1, .error r.2)
          else (r.1, .ok { desc := desc, buf := old, chunk := chunk })

/-! ## What a call can end in -/

/-- The buffer fits one segment of the device, and no transfer is on. -/
structure Ready (m : Machine) (dma : DmaDev) : Prop where
  idle : Idle m.ps
  master : Master m
  chunk : dma.chunk = min dmaChunk m.ps.props.maxSeg.toNat

/-- A successful probe of a device at rest: the buffer is as large as it may be. -/
theorem dmaProbe_ready {pk : ProbeKernel} {old : List Byte} {m m' : Machine} {dma : DmaDev}
    (h : dmaProbe pk old m = (m', .ok dma)) (hb : busy m.ps = false) (ht : m.ps.timer = false) :
    Ready m' dma ∧ dma.removed = false ∧ m'.ps.bar2.ram = m.ps.bar2.ram := by
  unfold dmaProbe at h
  obtain ⟨-, h⟩ := of_ite_error h
  obtain ⟨-, h⟩ := of_ite_error h
  obtain ⟨-, h⟩ := of_ite_error h
  obtain ⟨-, h⟩ := of_ite_error h
  obtain ⟨-, h⟩ := of_ite_error h
  cases hc : pk.dmaAllocCoherent descSize with
  | none =>
    rw [hc] at h
    exact nomatch (Prod.ext_iff.mp h).2
  | some desc =>
    rw [hc] at h
    obtain ⟨-, h⟩ := of_ite_error h
    obtain ⟨herr, h⟩ := of_ite_error h
    obtain ⟨hm, hd⟩ := Prod.ext_iff.mp h
    have hz : probeIrqs pk (pciSetMaster m) = (m', 0) := Prod.ext hm (not_not.mp herr)
    obtain ⟨msi, -, rfl⟩ := probeIrqs_ok hz
    obtain rfl := Except.ok.inj hd
    refine ⟨⟨enabled_idle _ msi hb ht, ?_, rfl⟩, rfl, rfl⟩
    show (enabled (pciSetMaster m) msi).ps.pdev.command &&& pciCommandMaster ≠ 0
    rw [enabled_command]
    exact master_pciSetMaster m

section Outcome

variable (k : DmaKernel) (m : Machine) (dma : DmaDev)

/-- The device as START finds it: the descriptor is written, the buffer mapped. -/
def mapped (bus : BitVec 64) (len : Nat) : Machine :=
  { m with bus := k.bus, guest := withTable k.guest dma.desc [descOf bus len] }

/-- The device right after START. -/
def started (bus : BitVec 64) (len pos : Nat) (dir : DmaDataDirection) : Machine :=
  lddPcieStart (launched (mapped k m dma bus len) dma.desc.bus 1 pos dir k.xor)

/-- A transfer was run: what dma_xfer returns and leaves behind. -/
structure Moved (len pos : Nat) (bus : BitVec 64) (dir : DmaDataDirection) (x : XferResult) :
    Prop where
  good : GoodTable m.ps [descOf bus len] pos
  total : totalLen [descOf bus len] = len
  ready : Ready x.machine x.dma
  bar2 : x.machine.ps.bar2 = (started k m dma bus len pos dir).ps.bar2
  buf : dir = .fromDevice → x.dma.buf.take len =
    (segRange (descOf bus len)).map (started k m dma bus len pos dir).guest
  refused : x.refused = none
  launch : x.launch = some (withProgram (mapped k m dma bus len) dma.desc.bus 1 pos dir k.xor,
    (started k m dma bus len pos dir).ps.regs.result)
  ret : x.ret = runRet k.wait (started k m dma bus len pos dir).ps.regs.result

theorem descOf_len {bus : BitVec 64} {len : Nat} (hready : Ready m dma) (hlen : len ≤ dma.chunk) :
    (descOf bus len).len.toNat = len := by
  have hc := hready.chunk
  unfold dmaChunk at hc
  show (BitVec.ofNat 32 len).toNat = len
  rw [BitVec.toNat_ofNat]
  omega

private theorem goodTable_of_len (bus : BitVec 64) {len pos : Nat} (hready : Ready m dma)
    (hpos : 1 ≤ len) (hlen : len ≤ dma.chunk) (hfit : pos + len ≤ lddMemSize) :
    GoodTable m.ps [descOf bus len] pos ∧ totalLen [descOf bus len] = len := by
  have hd : (descOf bus len).len.toNat = len := descOf_len m dma hready hlen
  have hc := hready.chunk
  have htotal : totalLen [descOf bus len] = len := by
    rw [totalLen_cons, hd, totalLen_nil, Nat.add_zero]
  refine ⟨⟨le_refl 1, m.ps.props.desc_min, ?_, ?_⟩, htotal⟩
  · intro d hmem
    rw [List.mem_singleton.mp hmem]
    refine ⟨?_, ?_, rfl⟩
    · rw [hd]
      exact hpos
    · rw [hd]
      omega
  · rw [htotal]
    exact hfit

theorem storeDesc_zero (guest : Memory) (desc : CoherentTable) (d : LDDPCIEDesc) :
    storeDesc guest desc 0 d = withTable guest desc [d] := by
  have h := storeDescs_eq desc 1 guest [d] (le_refl 1)
  exact Option.some.inj h

theorem dmaXfer_outcome (hready : Ready m dma) (pos len : Nat) (dir : DmaDataDirection)
    (hpos : 1 ≤ len) (hlen : len ≤ dma.chunk) (hfit : pos + len ≤ lddMemSize) :
    (dmaXfer k m dma pos len dir =
      { ret := -enomem, machine := m, dma := dma, refused := some (-enomem) }) ∨
    ∃ bus, k.dmaMapSingle = some bus ∧
      Moved k m dma len pos bus dir (dmaXfer k m dma pos len dir) := by
  cases hmap : k.dmaMapSingle with
  | none =>
    left
    rw [dmaXfer, hmap]
  | some bus =>
    right
    obtain ⟨hgood, htotal⟩ := goodTable_of_len m dma bus hready hpos hlen hfit
    have hidle : Idle (mapped k m dma bus len).ps := hready.idle
    let r := runTransfer (mapped k m dma bus len) dma.intStatus dma.desc.bus 1 pos dir k.xor k.wait
    obtain ⟨hfin, hlaunch, hcode, hret⟩ :
        Finished (mapped k m dma bus len) (started k m dma bus len pos dir) r ∧ _ :=
      runTransfer_spec (mapped k m dma bus len) dma.intStatus dma.desc.bus 1 pos dir k.xor k.wait
        hidle dma.desc.aligned
    have hx : dmaXfer k m dma pos len dir =
        { ret := r.ret
          machine := r.machine
          dma := { dma with
            intStatus := r.intStatus
            buf := if dir = .fromDevice
              then (segRange (descOf bus len)).map r.machine.guest ++ dma.buf.drop len
              else dma.buf }
          launch := some (r.launch, r.code) } := by
      simp only [dmaXfer, hmap, storeDesc_zero]
      rfl
    rw [hx]
    refine ⟨bus, rfl, hgood, htotal, ⟨hfin.idle, ?_, ?_⟩, hfin.bar2, ?_, rfl, ?_, ?_⟩
    · show r.machine.ps.pdev.command &&& pciCommandMaster ≠ 0
      rw [hfin.command]
      exact hready.master
    · show dma.chunk = min dmaChunk r.machine.ps.props.maxSeg.toNat
      rw [hfin.props]
      exact hready.chunk
    · intro hdir
      have hl : ((segRange (descOf bus len)).map r.machine.guest).length = len := by
        rw [List.length_map, segRange_length, descOf_len m dma hready hlen]
      show List.take len (if dir = .fromDevice then _ else _) = _
      rw [if_pos hdir, List.take_left' hl, hfin.guest]
    · rw [hlaunch, hcode]
      rfl
    · rw [hret, hcode]
      rfl

end Outcome

/-- What one call can do. -/
inductive CallOutcome (s : Sys) (k : DmaKernel) (c : Call) : Sys × CallResult → Prop
  | atEnd (hp : lddMemSize ≤ s.pos c.file) :
      CallOutcome s k c (s, c.answer (if dirOf c.op = .toDevice then -enospc else 0) none)
  | nothing (hp : s.pos c.file < lddMemSize) (hn : c.op.size = 0) :
      CallOutcome s k c (s, c.answer 0 none)
  | refused (e : Int) (he : e < 0) (hp : s.pos c.file < lddMemSize) (hn : 0 < c.op.size)
      (buf : List Byte) :
      CallOutcome s k c ({ s with dma := { s.dma with buf := buf } }, c.answer e (some e))
  | unfilled (hcopy : k.userCopy = false) (hp : s.pos c.file < lddMemSize) :
      CallOutcome s k c ({ s with dma := { s.dma with buf := k.spoilt } }, c.answer (-efault) none)
  | moved (n : Nat) (bus : BitVec 64) (buf : List Byte) (x : XferResult)
      (hp : s.pos c.file < lddMemSize) (hlo : 1 ≤ n) (hhi : n ≤ c.op.size)
      (hend : s.pos c.file + n ≤ lddMemSize) (hn : n = countFor s.dma c.op.size (s.pos c.file))
      (source : k.dmaMapSingle = some bus)
      (hx : Moved k s.machine { s.dma with buf := buf } n (s.pos c.file) bus (dirOf c.op) x) :
      CallOutcome s k c (endRw s k c n x)

theorem countFor_spec {m : Machine} {dma : DmaDev} (hready : Ready m dma) (size pos : Nat)
    (hp : pos < lddMemSize) :
    let count := countFor dma size pos
    count ≤ size ∧ pos + count ≤ lddMemSize ∧ (count = 0 ↔ size = 0) ∧ count ≤ dma.chunk := by
  have hc := hready.chunk
  have hmin := m.ps.props.seg_min
  intro count
  have hcount : count = min size (min (lddMemSize - pos) dma.chunk) := rfl
  unfold dmaChunk at hc
  omega

/-- A failed mapping leaves everything but the contents of the buffer alone. -/
private theorem endRw_refused (s : Sys) (k : DmaKernel) (c : Call) (n : Nat) (buf : List Byte)
    (e : Int) (he : e < 0) :
    endRw s k c n { ret := e, machine := s.machine, dma := { s.dma with buf := buf }
                    refused := some e } =
      ({ s with dma := { s.dma with buf := buf } }, c.answer e (some e)) := by
  rw [endRw, if_pos (ne_of_lt he)]
  simp only [Sys.finish, Nat.add_zero, Function.update_eq_self]
  rfl

/-- Once the buffer is ready: a call is refused, or runs one good transfer. -/
private theorem xfer_outcome (s : Sys) (k : DmaKernel) (c : Call) (hready : Ready s.machine s.dma)
    (buf : List Byte) (hp : s.pos c.file < lddMemSize) (hn : 0 < c.op.size)
    (hc : 0 < countFor s.dma c.op.size (s.pos c.file)) :
    CallOutcome s k c (endRw s k c (countFor s.dma c.op.size (s.pos c.file))
      (dmaXfer k s.machine { s.dma with buf := buf } (s.pos c.file)
        (countFor s.dma c.op.size (s.pos c.file)) (dirOf c.op))) := by
  obtain ⟨hsize, hend, -, hchunk⟩ := countFor_spec hready c.op.size (s.pos c.file) hp
  have hfilled : Ready s.machine { s.dma with buf := buf } :=
    ⟨hready.idle, hready.master, hready.chunk⟩
  rcases dmaXfer_outcome k s.machine { s.dma with buf := buf } hfilled (s.pos c.file) _ (dirOf c.op)
    hc hchunk hend with hx | ⟨bus, source, hx⟩
  · rw [hx, endRw_refused s k c _ buf (-enomem) (by decide)]
    exact .refused _ (by decide) hp hn buf
  · exact .moved _ bus buf _ hp hc hsize hend rfl source hx

private theorem front_outcome (s : Sys) (k : DmaKernel) (c : Call)
    (hready : Ready s.machine s.dma) (body : Sys × CallResult)
    (hbody : s.pos c.file < lddMemSize → 0 < c.op.size →
      0 < countFor s.dma c.op.size (s.pos c.file) → CallOutcome s k c body) :
    CallOutcome s k c
      (if lddMemSize ≤ s.pos c.file then
        (s, c.answer (if dirOf c.op = .toDevice then -enospc else 0) none)
      else if countFor s.dma c.op.size (s.pos c.file) = 0 then (s, c.answer 0 none)
      else if k.interrupted = true then (s, c.answer (-erestartsys) (some (-erestartsys)))
      else if s.dma.removed = true then (s, c.answer (-enodev) (some (-enodev)))
      else body) := by
  by_cases hp : lddMemSize ≤ s.pos c.file
  · rw [if_pos hp]
    exact .atEnd hp
  have hp' := not_le.mp hp
  obtain ⟨-, -, hzero, -⟩ := countFor_spec hready c.op.size (s.pos c.file) hp'
  rw [if_neg hp]
  by_cases hc : countFor s.dma c.op.size (s.pos c.file) = 0
  · rw [if_pos hc]
    exact .nothing hp' (hzero.mp hc)
  have hpos : 0 < c.op.size := Nat.pos_of_ne_zero (mt hzero.mpr hc)
  rw [if_neg hc]
  split
  · exact .refused _ (by decide) hp' hpos s.dma.buf
  split
  · exact .refused _ (by decide) hp' hpos s.dma.buf
  exact hbody hp' hpos (Nat.pos_of_ne_zero hc)

private theorem dmaRead_outcome (s : Sys) (k : DmaKernel) (f ubuf n : Nat)
    (hready : Ready s.machine s.dma) :
    CallOutcome s k ⟨f, ubuf, .read n⟩ (dmaRead s k ⟨f, ubuf, .read n⟩ n) := by
  refine front_outcome s k ⟨f, ubuf, .read n⟩ hready _ ?_
  intro hp hn hc
  exact xfer_outcome s k ⟨f, ubuf, .read n⟩ hready s.dma.buf hp hn hc

private theorem dmaWrite_outcome (s : Sys) (k : DmaKernel) (f ubuf : Nat) (data : List Byte)
    (hready : Ready s.machine s.dma) :
    CallOutcome s k ⟨f, ubuf, .write data⟩ (dmaWrite s k ⟨f, ubuf, .write data⟩ data) := by
  refine front_outcome s k ⟨f, ubuf, .write data⟩ hready _ ?_
  intro hp hn hc
  split
  · next hcopy => exact .unfilled hcopy hp
  · exact xfer_outcome s k ⟨f, ubuf, .write data⟩ hready _ hp hn hc

/-- A call is refused and leaves the device alone, or runs one good transfer. -/
theorem dmaRw_outcome (s : Sys) (k : DmaKernel) (c : Call) (hready : Ready s.machine s.dma) :
    CallOutcome s k c (dmaRw s k c) := by
  obtain ⟨f, ubuf, op⟩ := c
  cases op with
  | read n => exact dmaRead_outcome s k f ubuf n hready
  | write data => exact dmaWrite_outcome s k f ubuf data hready

end LinuxDeviceDriver.Drivers.Dma
