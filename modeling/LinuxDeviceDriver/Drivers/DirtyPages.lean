/- source: examples/28_dma_sg/main.c, lines 71 to 80 and 129 to 161;
     tools/qemu/hw/ldd/pcie.c, lines 205 to 235
   digest: Which of the pinned pages a read call of dma_sg marks dirty, and which it should. -/

import LinuxDeviceDriver.Drivers.LaunchSafety

set_option autoImplicit false

namespace LinuxDeviceDriver.Drivers.DirtyPages

open Lib.LittleEndian
open Lib.ScatterGather
open Lib.Transition
open Qemu.Pcie
open State Transfer TransferOutcome Registers Copy CharFile DmaHost DescTable DmaProbe
open DmaSg LaunchSafety

/-! ## The pages of a call -/

/-- The dma_sg_xfer of a call, where the call gets that far. -/
def callXfer {pageShift : Nat} (s : Sys) (k : SgKernel pageShift) (c : Call) : Option XferResult :=
  dmaSgXfer k s.machine s.dsg c.ubuf (roomFor pageShift s.dsg c.ubuf c.op.size (s.pos c.file))
    (s.pos c.file) (dirOf c.op)

/-- The entry of dsg->pages that holds byte n of the user's buffer. -/
def pageOf (pageShift ubuf n : Nat) : Nat :=
  (offsetInPage pageShift ubuf + n) / pageSize pageShift

/-- The device wrote to x: one of the accesses it issued in between covers it. -/
def Wrote (before after : Machine) (x : BitVec 64) : Prop :=
  ∃ a ∈ after.trace.drop before.trace.length, a.isWrite = true ∧ x ∈ dmaRange a.addr a.len

/-- The device wrote at least one byte of page p during a call. Byte n of the
buffer is byte n of the segments in the table that START found. -/
def PageWritten (pageShift ubuf : Nat) (before after : Machine)
    (launch : Option (Machine × BitVec 32)) (p : Nat) : Prop :=
  ∃ l code n x, launch = some (l, code) ∧ (segsRange (tableOf l))[n]? = some x ∧
    pageOf pageShift ubuf n = p ∧ Wrote before after x

/-- unpin_user_pages_dirty_lock() marks all the pages it is given, or none. -/
def PageMarked (r : XferResult) (p : Nat) : Prop := r.dirty = true ∧ p < r.dsg.lastPages

/-! ## What is marked -/

theorem runRet_nonneg_iff (wait : Wait) (code : BitVec 32) :
    0 ≤ runRet wait code ↔ runRet wait code = 0 := by
  cases wait with
  | completed =>
    show (0 ≤ if code = 0 then 0 else -eio) ↔ (if code = 0 then 0 else -eio) = 0
    split
    · decide
    · decide
  | timedOut =>
    show 0 ≤ -etimedout ↔ -etimedout = 0
    decide

section Move

variable {pageShift : Nat} (k : SgKernel pageShift) (m : Machine) (dsg : DmaSgDev)

/-- The pages of a transfer are marked exactly when it was a read and is
reported as a success. -/
theorem dmaSgMove_dirty_iff {npages origNents count pos : Nat} {segs : List DmaSeg}
    {dir : DmaDataDirection} {r : XferResult} (hready : Ready pageShift m dsg)
    (h : dmaSgMove k m dsg npages origNents count pos segs dir = some r) :
    r.dsg.lastPages = npages ∧ (r.dirty = true ↔ dir = .fromDevice ∧ 0 ≤ r.ret) := by
  obtain ⟨guest, -, rfl⟩ := Option.map_eq_some_iff.mp h
  refine ⟨rfl, ?_⟩
  let q := runTransfer { m with bus := k.bus, guest := guest } dsg.intStatus dsg.desc.bus
    segs.length pos dir k.xor k.wait
  have hq : q.ret = runRet k.wait q.code :=
    (runTransfer_spec { m with bus := k.bus, guest := guest } dsg.intStatus dsg.desc.bus
      segs.length pos dir k.xor k.wait hready.idle dsg.desc.aligned).2.2.2
  show decide (dir = .fromDevice ∧ q.ret = 0) = true ↔
    dir = .fromDevice ∧ 0 ≤ if q.ret ≠ 0 then q.ret else (count : Int)
  rw [decide_eq_true_iff, hq]
  refine and_congr_right fun _ => ?_
  by_cases hz : runRet k.wait q.code = 0
  · rw [if_neg (not_not.mpr hz)]
    exact ⟨fun _ => Int.natCast_nonneg count, fun _ => hz⟩
  · rw [if_pos hz]
    exact (runRet_nonneg_iff _ _).symm

/-- What START found in the table is what the call wrote there. -/
theorem tableOf_launch {count pos : Nat} {segs : List DmaSeg} {dir : DmaDataDirection}
    {r : XferResult} (h : Moved k m dsg count pos segs dir r) {l : Machine} {code : BitVec 32}
    (hl : r.launch = some (l, code)) : tableOf l = descsOf segs := by
  obtain ⟨rfl, -⟩ := Prod.ext_iff.mp (Option.some.inj (h.launch.symm.trans hl))
  have htable := (launched_checks (mapped k m dsg segs) k.guest dsg.desc (descsOf segs) pos dir
    k.xor rfl h.good).1
  rw [descsOf_length] at htable
  exact htable

end Move

/-- A branch that answers without a transfer was not taken. -/
private theorem not_answered {t s' : Sys} {a res : CallResult} {l : Machine × BitVec 32}
    {P : Prop} [Decidable P] {rest : Option (Sys × CallResult)} (ha : a.launch = none)
    (hl : res.launch = some l) (h : (if P then some (t, a) else rest) = some (s', res)) :
    ¬ P ∧ rest = some (s', res) := by
  by_cases hp : P
  · rw [if_pos hp] at h
    obtain ⟨-, rfl⟩ := Prod.mk.inj (Option.some.inj h)
    rw [ha] at hl
    cases hl
  · rw [if_neg hp] at h
    exact ⟨hp, h⟩

/-- A call that ran a transfer got it from dma_sg_xfer. -/
theorem dmaSgRw_launch {pageShift : Nat} {s s' : Sys} {k : SgKernel pageShift} {c : Call}
    {res : CallResult} {l : Machine × BitVec 32} (h : dmaSgRw s k c = some (s', res))
    (hl : res.launch = some l) :
    s.pos c.file < lddMemSize ∧ roomFor pageShift s.dsg c.ubuf c.op.size (s.pos c.file) ≠ 0 ∧
      ∃ r, callXfer s k c = some r ∧ r.launch = some l ∧ r.ret = res.log.ret := by
  unfold dmaSgRw at h
  obtain ⟨hp, h⟩ := not_answered rfl hl h
  obtain ⟨hc, h⟩ := not_answered rfl hl h
  obtain ⟨-, h⟩ := not_answered rfl hl h
  obtain ⟨-, h⟩ := not_answered rfl hl h
  obtain ⟨r, hr, hres⟩ := Option.map_eq_some_iff.mp h
  obtain ⟨-, rfl⟩ := Prod.mk.inj hres
  exact ⟨not_le.mp hp, hc, r, hr, hl, rfl⟩

/-- A read call that ran a transfer: its pages are marked exactly when the call
succeeds, and they hold every byte of the segments. -/
theorem read_unpins {pageShift : Nat} {s s' : Sys} {k : SgKernel pageShift} {c : Call} {size : Nat}
    {res : CallResult} {l : Machine} {code : BitVec 32} (hready : Ready pageShift s.machine s.dsg)
    (hc : c.op = .read size) (h : dmaSgRw s k c = some (s', res))
    (hl : res.launch = some (l, code)) :
    ∃ r, callXfer s k c = some r ∧ (r.dirty = true ↔ 0 ≤ res.log.ret) ∧
      offsetInPage pageShift c.ubuf + totalLen (tableOf l) ≤
        r.dsg.lastPages * pageSize pageShift := by
  obtain ⟨hp, hcount, r, hr, hlaunch, hret⟩ := dmaSgRw_launch h hl
  obtain ⟨-, hend, -, hroom⟩ := roomFor_spec hready c.ubuf c.op.size (s.pos c.file) hp
  obtain ⟨r', hr', ⟨e, -, he⟩ | ⟨npages, n, lens, segs, -, -, hfits, -, hmove, hmoved⟩⟩ :=
    dmaSgXfer_moves k s.machine s.dsg hready c.ubuf _ (s.pos c.file) (dirOf c.op)
      (Nat.pos_of_ne_zero hcount) hend hroom
  all_goals obtain rfl := Option.some.inj (hr'.symm.trans hr)
  · rw [he] at hlaunch
    cases hlaunch
  · obtain ⟨hpages, hdirty⟩ := dmaSgMove_dirty_iff k s.machine s.dsg hready hmove
    refine ⟨r', hr, ?_, ?_⟩
    · rw [hdirty, hret, hc]
      exact and_iff_right rfl
    · rw [tableOf_launch k s.machine s.dsg hmoved hlaunch, hmoved.total, hpages]
      exact hfits

private theorem enomem_negative : -enomem < 0 := by decide

/-- The two pages lie apart from each other, so that each has a segment. -/
def straddling : PageServices 12 where
  pinUserPagesFast npages := npages
  sgAllocTable npages _ count _ :=
    if npages = 2 ∧ count = 2 then .ok [1, 1] else .error (-enomem)
  sgAlloc_ok npages offset count maxSeg lens hc hfit hm h := by
    split_ifs at h with hok
    obtain ⟨rfl, rfl⟩ := hok
    obtain rfl := Except.ok.inj h
    have hone : 1 ≤ maxSeg := Nat.one_le_two_pow.trans hm
    refine ⟨le_refl 2, fun l hl => ?_, rfl⟩
    obtain rfl : l = 1 := by simpa using hl
    exact ⟨le_refl 1, hone⟩
  sgAlloc_err npages offset count maxSeg e h := by
    split_ifs at h
    obtain rfl := Except.error.inj h
    exact enomem_negative
  dmaMapSgtable _ lens := if lens = [1, 1] then .ok [⟨0x2fff, 1⟩, ⟨0x5000, 1⟩] else .error (-enomem)
  dmaMap_ok maxSeg lens segs hl h := by
    split_ifs at h with hok
    subst hok
    obtain rfl := Except.ok.inj h
    have hone : 1 ≤ maxSeg := (hl 1 (List.mem_cons_self ..)).2
    refine ⟨le_refl 2, fun sg hsg => ?_, rfl⟩
    rcases List.mem_pair.mp hsg with rfl | rfl
    · exact ⟨le_refl 1, hone⟩
    · exact ⟨le_refl 1, hone⟩
  dmaMap_err maxSeg lens e h := by
    split_ifs at h
    obtain rfl := Except.error.inj h
    exact enomem_negative

/-- Flat memory in which no write reaches the address a. -/
def failsAt (a : BitVec 64) : DmaBus where
  read := DmaBus.flat.read
  write g b bs := if b = a then (.decodeError, g) else DmaBus.flat.write g b bs
  read_length := DmaBus.flat.read_length
  read_ok := DmaBus.flat.read_ok
  write_ok g b bs h := by
    split_ifs at h ⊢
    exact DmaBus.flat.write_ok g b bs h
  write_frame g b bs x hx := by
    split_ifs
    · rfl
    · exact DmaBus.flat.write_frame g b bs x hx

/-- A read of the two bytes, over a given bus. -/
def twoPages (bus : DmaBus) : SgKernel 12 :=
  { straddling with
    interrupted := false, bus := bus, guest := fun _ => 7, xor := 0, wait := .completed }

/-- The system after a probe, and the read. -/
def probedSys : Sys := ⟨(dmaSgProbe 12 willing fresh).1, probedDev, fun _ => 5⟩

def readTwo : Call := ⟨0, 4095, .read 2⟩

/-- What a call shows: what it returns, where the bytes of the buffer were, and
the accesses that the device issued. -/
def shown (p : Sys × CallResult) : Int × Option (List (BitVec 64)) × List DmaAccess :=
  (p.2.log.ret, p.2.launch.map fun l => segsRange (tableOf l.1), p.1.machine.trace)

private theorem pageWritten_of_shown {s' : Sys} {res : CallResult} {ret : Int}
    {xs : List (BitVec 64)} {as : List DmaAccess} (h : shown (s', res) = (ret, some xs, as))
    {n : Nat} {x : BitVec 64} (hx : xs[n]? = some x)
    (ha : ∃ a ∈ as, a.isWrite = true ∧ x ∈ dmaRange a.addr a.len) :
    PageWritten 12 4095 probedSys.machine s'.machine res.launch (pageOf 12 4095 n) := by
  obtain ⟨-, h⟩ := Prod.mk.inj h
  obtain ⟨hxs, ht⟩ := Prod.mk.inj h
  obtain ⟨l, hl, rfl⟩ := Option.map_eq_some_iff.mp hxs
  refine ⟨l.1, l.2, n, x, hl, hx, rfl, ?_⟩
  have ht : s'.machine.trace = as := ht
  rw [Wrote, ht]
  exact ha

end LinuxDeviceDriver.Drivers.DirtyPages
