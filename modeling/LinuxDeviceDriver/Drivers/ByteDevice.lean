/- source: examples/28_dma_sg/main.c, lines 98 to 229; examples/27_dma/main.c, lines 40 to 217;
     tools/qemu/hw/ldd/pcie.c, lines 162 to 241
   digest: /dev/dma and /dev/dma_sg are arrays of bytes: both drivers refine one. -/

import LinuxDeviceDriver.Drivers.LaunchSafety

set_option autoImplicit false

namespace LinuxDeviceDriver.Drivers.ByteDevice

open Lib.LittleEndian (Byte)
open Lib.ScatterGather
open Lib.Transition
open Qemu.Pcie
open State Transfer TransferOutcome Registers Copy CharFile DmaHost DescTable DmaProbe LaunchSafety

/-- What a successful transfer of n bytes does to the array. -/
theorem array_moved {a a' : FileView} {c : Call} {n : Nat} {data : List Byte}
    (hp : a.pos c.file < lddMemSize) (hlo : 1 ≤ n) (hhi : n ≤ c.op.size)
    (hend : a.pos c.file + n ≤ lddMemSize)
    (hpos : a'.pos = Function.update a.pos c.file (a.pos c.file + n))
    (hread : dirOf c.op = .fromDevice → a'.bytes = a.bytes ∧
      data = (List.range' (a.pos c.file) n).map a.bytes)
    (hwrite : ∀ w, c.op = .write w → data = [] ∧
      a'.bytes = store a.bytes (List.range' (a.pos c.file) n) (w.take n)) :
    ArrayStep lddMemSize a (.call ⟨c.file, c.op, none, n, data⟩) a' := by
  obtain ⟨f, ubuf, op⟩ := c
  obtain ⟨bytes, pos⟩ := a'
  cases op with
  | read cnt =>
    obtain ⟨hb, hd⟩ := hread rfl
    obtain rfl : bytes = a.bytes := hb
    obtain rfl : pos = Function.update a.pos f (a.pos f + n) := hpos
    rw [hd]
    exact .read f cnt n hp hlo hhi hend
  | write w =>
    obtain ⟨hd, hb⟩ := hwrite w rfl
    obtain rfl : bytes = _ := hb
    obtain rfl : pos = Function.update a.pos f (a.pos f + n) := hpos
    rw [hd]
    exact .write f w n hp hlo hhi hend

theorem array_atEnd {a : FileView} {c : Call} (hp : lddMemSize ≤ a.pos c.file) :
    ArrayStep lddMemSize a
      (.call ⟨c.file, c.op, none, if dirOf c.op = .toDevice then -enospc else 0, []⟩) a := by
  obtain ⟨f, ubuf, op⟩ := c
  cases op with
  | read cnt => exact .readEnd f cnt hp
  | write w => exact .writeEnd f w hp

/-! ## dma_sg -/

def sgView (s : DmaSg.Sys) : FileView := ⟨s.machine.ps.bar2.ram, s.pos⟩

/-- Where a mapping of the user's pages lies on the bus: apart from the table
and, for a write, with the user's bytes in it, in order. -/
def SgPlaced {pageShift : Nat} (s : DmaSg.Sys) (k : DmaSg.SgKernel pageShift) (c : Call) : Prop :=
  ∀ maxSeg lens segs, k.dmaMapSgtable maxSeg lens = .ok segs →
    totalLen (DmaSg.descsOf segs) ≤ c.op.size → Apart s.dsg.desc (DmaSg.descsOf segs) ∧
    ∀ w, c.op = .write w → (segsRange (DmaSg.descsOf segs)).map k.guest =
      w.take (totalLen (DmaSg.descsOf segs))

/-- A call with xor 0, no DMA fault and no timeout. -/
def SgSmooth {pageShift : Nat} (s : DmaSg.Sys) : SgEvent pageShift → Prop
  | .call k c r => k.xor = 0 ∧ k.wait = .completed ∧
      (∀ m code, r.launch = some (m, code) → code ≠ lddErrDmaFault) ∧ SgPlaced s k c
  | .seek _ _ => True

def SgSmoothStep {pageShift : Nat} (s : DmaSg.Sys) (l : SgEvent pageShift) (s' : DmaSg.Sys) : Prop :=
  SgStep s l s' ∧ SgSmooth s l

def sgObserve {pageShift : Nat} : SgEvent pageShift → FileEvent
  | .call _ _ r => .call r.log
  | .seek f p => .seek f p

section ScatterGather

variable {pageShift : Nat} {s : DmaSg.Sys} {k : DmaSg.SgKernel pageShift} {c : Call} {n : Nat}
  {segs : List DmaSg.DmaSeg} {r : DmaSg.XferResult}

private theorem sg_started_eq (k : DmaSg.SgKernel pageShift) (m : Machine) (dsg : DmaSg.DmaSgDev)
    (segs : List DmaSg.DmaSeg) (pos : Nat) (dir : DmaDataDirection) :
    DmaSg.started k m dsg segs pos dir = lddPcieStart (launched (DmaSg.mapped k m dsg segs)
      dsg.desc.bus (DmaSg.descsOf segs).length pos dir k.xor) := by
  rw [DmaSg.descsOf_length]
  rfl

/-- Without a DMA fault the transfer succeeds, and the call returns its length. -/
private theorem sg_moved_ret (hready : SgReady pageShift s)
    (hr : DmaSg.Moved k s.machine s.dsg n (s.pos c.file) segs (dirOf c.op) r)
    (hwait : k.wait = .completed)
    (hfault : ∀ m code, r.launch = some (m, code) → code ≠ lddErrDmaFault) :
    (DmaSg.started k s.machine s.dsg segs (s.pos c.file) (dirOf c.op)).ps.regs.result = 0 ∧
      r.ret = n := by
  have hcode : (DmaSg.started k s.machine s.dsg segs (s.pos c.file) (dirOf c.op)).ps.regs.result =
      0 := by
    have h := launched_code (DmaSg.mapped k s.machine s.dsg segs) k.guest s.dsg.desc
      (DmaSg.descsOf segs) (s.pos c.file) (dirOf c.op) k.xor rfl hr.good
    rw [← sg_started_eq] at h
    rcases h with h | ⟨-, hmaster⟩ | h
    · exact h
    · exact absurd hready.master hmaster
    · exact absurd h (hfault _ _ hr.launch)
  refine ⟨hcode, ?_⟩
  rw [hr.ret, hcode, hwait]
  rfl

private theorem sg_call_array (hready : SgReady pageShift s) {s' : DmaSg.Sys} {r : CallResult}
    (h : DmaSg.CallOutcome s k c s' r) (hsmooth : SgSmooth s (.call k c r)) :
    ArrayStep lddMemSize (sgView s) (.call r.log) (sgView s') := by
  obtain ⟨hxor, hwait, hfault, hplaced⟩ := hsmooth
  cases h with
  | atEnd hp => exact array_atEnd hp
  | nothing hp hn => exact .nothing _ _ hp hn
  | refused e he hp hn => exact .refused _ _ e he hp hn
  | moved n segs r hp hlo hhi hend source hr =>
    obtain ⟨maxSeg, lens, hmap⟩ := source
    obtain ⟨hapart, hdata⟩ := hplaced maxSeg lens segs hmap (hr.total.trans_le hhi)
    obtain ⟨hcode, hret⟩ := sg_moved_ret hready hr hwait hfault
    rw [hr.refused, hret]
    refine array_moved hp hlo hhi hend ?_ ?_ ?_
    · show (if (0 : Int) < n then _ else _) = _
      rw [if_pos (by omega), Int.toNat_natCast]
      rfl
    · intro hdir
      rw [hdir] at hr hcode
      rw [sg_started_eq, hxor] at hcode
      obtain ⟨hram, hbytes⟩ := launched_fromDevice (DmaSg.mapped k s.machine s.dsg segs) k.guest
        s.dsg.desc (DmaSg.descsOf segs) (s.pos c.file) rfl hr.good hapart hcode
      refine ⟨?_, ?_⟩
      · show r.machine.ps.bar2.ram = s.machine.ps.bar2.ram
        rw [hr.bar2, sg_started_eq, hxor]
        exact hram
      · rw [hr.data, if_pos rfl, sg_started_eq, hxor, hbytes, hr.total]
        rfl
    · intro w hop
      have hdir : dirOf c.op = .toDevice := by rw [hop]; rfl
      rw [hdir] at hr hcode
      rw [sg_started_eq] at hcode
      have hram := launched_toDevice (DmaSg.mapped k s.machine s.dsg segs) k.guest s.dsg.desc
        (DmaSg.descsOf segs) (s.pos c.file) k.xor rfl hr.good hapart hcode
      refine ⟨?_, ?_⟩
      · rw [hr.data, if_neg (by decide)]
      · show r.machine.ps.bar2.ram = _
        rw [hr.bar2, sg_started_eq, hram, hdata w hop, hr.total]
        rfl

end ScatterGather

theorem sg_array_step {pageShift : Nat} (s : DmaSg.Sys) (l : SgEvent pageShift) (s' : DmaSg.Sys)
    (hready : SgReady pageShift s) (h : SgSmoothStep s l s') :
    ArrayStep lddMemSize (sgView s) (sgObserve l) (sgView s') := by
  obtain ⟨hstep, hsmooth⟩ := h
  cases l with
  | call k c r => exact sg_call_array hready (sg_call_outcome hready hstep) hsmooth
  | seek f p =>
    have hs : s' = { s with pos := Function.update s.pos f p } := hstep
    rw [hs]
    exact .seek f p

theorem sg_smooth_ready {pageShift : Nat} (s : DmaSg.Sys) (l : SgEvent pageShift) (s' : DmaSg.Sys)
    (hready : SgReady pageShift s) (h : SgSmoothStep s l s') : SgReady pageShift s' :=
  sg_ready_step s l s' hready h.1

/-! ## dma -/

def dmaView (s : Dma.Sys) : FileView := ⟨s.machine.ps.bar2.ram, s.pos⟩

/-- Where a mapping of the driver's buffer lies on the bus: apart from the
descriptor and, for a write, with the bytes that were copied into the buffer. -/
def DmaPlaced (s : Dma.Sys) (k : Dma.DmaKernel) (c : Call) : Prop :=
  let n := Dma.countFor s.dma c.op.size (s.pos c.file)
  ∀ bus, k.dmaMapSingle = some bus → Apart s.dma.desc [Dma.descOf bus n] ∧
    ∀ w, c.op = .write w → (segsRange [Dma.descOf bus n]).map k.guest = w.take n

/-- A call with xor 0, no DMA fault, no timeout and no failing user copy. -/
def DmaSmooth (s : Dma.Sys) : DmaEvent → Prop
  | .call k c r => k.xor = 0 ∧ k.wait = .completed ∧ k.userCopy = true ∧
      (∀ m code, r.launch = some (m, code) → code ≠ lddErrDmaFault) ∧ DmaPlaced s k c
  | .seek _ _ => True

def DmaSmoothStep (s : Dma.Sys) (l : DmaEvent) (s' : Dma.Sys) : Prop := DmaStep s l s' ∧ DmaSmooth s l

def dmaObserve : DmaEvent → FileEvent
  | .call _ _ r => .call r.log
  | .seek f p => .seek f p

section Single

variable {s : Dma.Sys} {k : Dma.DmaKernel} {c : Call} {n : Nat} {bus : BitVec 64}
  {buf : List Byte} {x : Dma.XferResult}

private theorem dma_moved_code (hready : DmaReady s)
    (hx : Dma.Moved k s.machine { s.dma with buf := buf } n (s.pos c.file) bus (dirOf c.op) x)
    (hfault : ∀ m code, x.launch = some (m, code) → code ≠ lddErrDmaFault) :
    (Dma.started k s.machine s.dma bus n (s.pos c.file) (dirOf c.op)).ps.regs.result = 0 := by
  rcases launched_code (Dma.mapped k s.machine s.dma bus n) k.guest s.dma.desc [Dma.descOf bus n]
    (s.pos c.file) (dirOf c.op) k.xor rfl hx.good with h | ⟨-, hmaster⟩ | h
  · exact h
  · exact absurd hready.master hmaster
  · exact absurd h (hfault _ _ hx.launch)

/-- A transfer that succeeds, and the copies around it, are one step of the array. -/
private theorem dma_moved_array (hready : DmaReady s) (hxor : k.xor = 0)
    (hwait : k.wait = .completed) (hcopy : k.userCopy = true) (hp : s.pos c.file < lddMemSize)
    (hlo : 1 ≤ n) (hhi : n ≤ c.op.size) (hend : s.pos c.file + n ≤ lddMemSize)
    (hx : Dma.Moved k s.machine { s.dma with buf := buf } n (s.pos c.file) bus (dirOf c.op) x)
    (hfault : ∀ m code, x.launch = some (m, code) → code ≠ lddErrDmaFault)
    (hapart : Apart s.dma.desc [Dma.descOf bus n])
    (hdata : ∀ w, c.op = .write w → (segsRange [Dma.descOf bus n]).map k.guest = w.take n) :
    ArrayStep lddMemSize (dmaView s) (.call (Dma.endRw s k c n x).2.log)
      (dmaView (Dma.endRw s k c n x).1) := by
  have hcode := dma_moved_code hready hx hfault
  have hret : x.ret = 0 := by
    rw [hx.ret, hwait]
    show runRet .completed
      (Dma.started k s.machine s.dma bus n (s.pos c.file) (dirOf c.op)).ps.regs.result = 0
    rw [hcode]
    rfl
  have hresult : Dma.endRw s k c n x = s.finish c x n
      (if dirOf c.op = .fromDevice then x.dma.buf.take n else []) n := by
    rw [Dma.endRw, if_neg (not_not.mpr hret), if_neg (show ¬ k.userCopy = false by simp [hcopy])]
    split <;> rfl
  rw [hresult]
  show ArrayStep _ _ (.call ⟨c.file, c.op, x.refused, n, _⟩) _
  rw [hx.refused]
  refine array_moved hp hlo hhi hend rfl ?_ ?_
  · intro hdir
    rw [hdir] at hx hcode
    rw [if_pos hdir]
    rw [Dma.started, hxor] at hcode
    obtain ⟨hram, hbytes⟩ := launched_fromDevice (Dma.mapped k s.machine s.dma bus n) k.guest
      s.dma.desc [Dma.descOf bus n] (s.pos c.file) rfl hx.good hapart hcode
    refine ⟨?_, ?_⟩
    · show x.machine.ps.bar2.ram = s.machine.ps.bar2.ram
      rw [hx.bar2, Dma.started, hxor]
      exact hram
    · rw [hx.buf rfl, Dma.started, hxor]
      rw [hx.total, show segsRange [Dma.descOf bus n] = segRange (Dma.descOf bus n) from
        List.append_nil _] at hbytes
      exact hbytes
  · intro w hop
    have hdir : dirOf c.op = .toDevice := by rw [hop]; rfl
    rw [hdir] at hx hcode
    have hram := launched_toDevice (Dma.mapped k s.machine s.dma bus n) k.guest s.dma.desc
      [Dma.descOf bus n] (s.pos c.file) k.xor rfl hx.good hapart hcode
    rw [hx.total, hdata w hop] at hram
    refine ⟨?_, ?_⟩
    · rw [hdir, if_neg (by decide)]
    · show x.machine.ps.bar2.ram = _
      rw [hx.bar2]
      exact hram

private theorem dma_call_array (hready : DmaReady s) {p : Dma.Sys × CallResult}
    (h : Dma.CallOutcome s k c p) (hsmooth : DmaSmooth s (.call k c p.2)) :
    ArrayStep lddMemSize (dmaView s) (.call p.2.log) (dmaView p.1) := by
  obtain ⟨hxor, hwait, hcopy, hfault, hplaced⟩ := hsmooth
  cases h with
  | atEnd hp => exact array_atEnd hp
  | nothing hp hn => exact .nothing _ _ hp hn
  | refused e he hp hn buf => exact .refused _ _ e he hp hn
  | unfilled hno hp =>
    rw [hcopy] at hno
    contradiction
  | moved n bus buf x hp hlo hhi hend hn source hx =>
    subst hn
    obtain ⟨hapart, hdata⟩ := hplaced bus source
    rw [(endRw_fields s k c _ x).2.2] at hfault
    exact dma_moved_array hready hxor hwait hcopy hp hlo hhi hend hx hfault hapart hdata

end Single

theorem dma_array_step (s : Dma.Sys) (l : DmaEvent) (s' : Dma.Sys) (hready : DmaReady s)
    (h : DmaSmoothStep s l s') : ArrayStep lddMemSize (dmaView s) (dmaObserve l) (dmaView s') := by
  obtain ⟨hstep, hsmooth⟩ := h
  cases l with
  | call k c r =>
    have hcall : Dma.dmaRw s k c = (s', r) := hstep
    have harray := dma_call_array hready (Dma.dmaRw_outcome s k c hready)
    rw [hcall] at harray
    exact harray hsmooth
  | seek f p =>
    have hs : s' = { s with pos := Function.update s.pos f p } := hstep
    rw [hs]
    exact .seek f p

theorem dma_smooth_ready (s : Dma.Sys) (l : DmaEvent) (s' : Dma.Sys) (hready : DmaReady s)
    (h : DmaSmoothStep s l s') : DmaReady s' :=
  dma_ready_step s l s' hready h.1

/-- The user's three bytes, in one segment behind the table. -/
private theorem sevens_placed (s : DmaSg.Sys) (hs : s.dsg.desc.bus = 0x1000) (file ubuf : Nat) :
    SgPlaced s (DmaSg.undisturbed fun _ => 7) ⟨file, ubuf, .write [7, 7, 7]⟩ := by
  intro maxSeg lens segs hmap hlen
  have hmap : DmaSg.contiguous.dmaMapSgtable maxSeg lens = .ok segs := hmap
  simp only [DmaSg.contiguous] at hmap
  split_ifs at hmap with hok
  obtain ⟨l, rfl⟩ := List.length_eq_one_iff.mp hok.2
  obtain rfl := Except.ok.inj hmap
  have hn : totalLen (DmaSg.descsOf ([l].map fun l => ⟨0x2000, BitVec.ofNat 32 l⟩)) ≤ 3 := hlen
  refine ⟨⟨List.pairwise_singleton _ _, ?_⟩, ?_⟩
  · intro d hd x hx ht
    obtain rfl := List.mem_singleton.mp hd
    have ht : x ∈ dmaRange 0x1000 descSize := hs ▸ ht
    have hfit : (0x2000 : BitVec 64).toNat + (BitVec.ofNat 32 l).toNat ≤ 2 ^ 64 :=
      (Nat.add_le_add_left hn _).trans (by decide)
    have hx : (0x2000 : BitVec 64).toNat ≤ x.toNat := ((mem_dmaRange_iff hfit).mp hx).1
    have ht := ((mem_dmaRange_iff (by decide)).mp ht).2
    exact absurd (hx.trans_lt ht) (by decide)
  · intro w hw
    obtain rfl := FileOp.write.inj hw
    have hrange : segsRange (DmaSg.descsOf ([l].map fun l => ⟨0x2000, BitVec.ofNat 32 l⟩)) =
        dmaRange 0x2000 (BitVec.ofNat 32 l).toNat := List.append_nil _
    rw [hrange, show [7, 7, 7] = List.replicate 3 (7 : Byte) from rfl, List.take_replicate,
      Nat.min_eq_left hn]
    exact List.map_const'.trans (congrArg (fun n => List.replicate n 7) (dmaRange_length _ _))

end LinuxDeviceDriver.Drivers.ByteDevice
