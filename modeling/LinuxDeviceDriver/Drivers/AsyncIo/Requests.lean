/- source: examples/25_async_io/main.c, lines 25 to 146; test/aio_test.c, lines 119 to 154
   digest: What reads take from the ring is what writes have put there, in mutex order, and every
     request reports what it moved exactly once, at once or later. -/

import LinuxDeviceDriver.Drivers.AsyncIo.Model
import LinuxDeviceDriver.Lib.Calls
import LinuxDeviceDriver.Lib.Mutex
import LinuxDeviceDriver.Lib.Ring

set_option autoImplicit false

namespace LinuxDeviceDriver.Drivers.AsyncIo.Requests

open Lib.Blocks (patch slice slice_length slice_patch)
open Lib.Calls (Ledger entriesOf entriesOf_other entriesOf_own)
open Lib.LittleEndian (Byte)
open Lib.Mutex (Locked)
open Lib.Ring (window window_patch window_pop window_push)
open Lib.Threads (Pool)
open Lib.Transition (Steps exec exec_steps)
open CharFile (FileOp efault eiocbqueued enospc erestartsys)
open Model hiding exec

variable {pageShift : Fin 31}

/-! ## Ints and sizes -/

section Arithmetic

variable {cur : BitVec 32} {done : Nat}

theorem pageSize_pos (pageShift : Fin 31) : 0 < pageSize pageShift := Nat.two_pow_pos _

theorem pageSize_lt (pageShift : Fin 31) : pageSize pageShift < 2 ^ 31 :=
  Nat.pow_lt_pow_right (by decide) pageShift.isLt

theorem buffSize_toNat (pageShift : Fin 31) : (buffSize pageShift).toNat = pageSize pageShift := by
  have hlt := pageSize_lt pageShift
  rw [buffSize, BitVec.toNat_ofNat]
  omega

theorem sizeT_toNat {x : BitVec 32} (h : x.toNat < 2 ^ 31) : (sizeT x).toNat = x.toNat := by
  have hmsb : x.msb = false := by
    rw [BitVec.msb_eq_decide]
    exact decide_eq_false (by omega)
  rw [sizeT, BitVec.signExtend_eq_setWidth_of_msb_false hmsb, BitVec.toNat_setWidth]
  omega

theorem toInt_toNat {x : BitVec 64} (h : x.toNat < 2 ^ 31) : (Model.toInt x).toNat = x.toNat := by
  rw [Model.toInt, BitVec.truncate_eq_setWidth, BitVec.toNat_setWidth]
  omega

theorem room_toNat (h : cur.toNat ≤ pageSize pageShift) :
    (sizeT (buffSize pageShift - cur)).toNat = pageSize pageShift - cur.toNat := by
  have hlt := pageSize_lt pageShift
  have hle : cur ≤ buffSize pageShift := by
    rw [BitVec.le_def, buffSize_toNat]
    exact h
  have hsub : (buffSize pageShift - cur).toNat = pageSize pageShift - cur.toNat := by
    rw [BitVec.toNat_sub_of_le hle, buffSize_toNat]
  rw [sizeT_toNat (by omega), hsub]

theorem wrap_toNat (hcur : cur.toNat < pageSize pageShift) (hdone : done ≤ pageSize pageShift) :
    (AsyncIoDev.wrap pageShift cur done).toNat = (cur.toNat + done) % pageSize pageShift := by
  have hlt := pageSize_lt pageShift
  have hmod := Nat.mod_lt (cur.toNat + done) (pageSize_pos pageShift)
  have hvalue : ((sizeT cur + BitVec.ofNat 64 done) % sizeT (buffSize pageShift)).toNat =
      (cur.toNat + done) % pageSize pageShift := by
    rw [BitVec.toNat_umod, sizeT_toNat (x := buffSize pageShift) (by rw [buffSize_toNat]; omega),
      buffSize_toNat, BitVec.toNat_add, sizeT_toNat (by omega), BitVec.toNat_ofNat]
    congr 1
    omega
  rw [AsyncIoDev.wrap, toInt_toNat (by omega), hvalue]

end Arithmetic

/-! ## The ring -/

/-- What the ring holds. -/
def content (d : AsyncIoDev pageShift) : List Byte := window d.buff d.readCur.toNat d.len.toNat

/-- The cursors, and the stream that has gone through the ring. -/
structure Flow (d : AsyncIoDev pageShift) : Prop where
  len_le : d.len.toNat ≤ pageSize pageShift
  readCur_lt : d.readCur.toNat < pageSize pageShift
  writeCur_eq : d.writeCur.toNat = (d.readCur.toNat + d.len.toNat) % pageSize pageShift
  stream : d.took.flatMap Prod.snd ++ content d = d.put.flatMap Prod.snd

/-- What the holder of the mutex knows before it moves a cursor. -/
def Holds (d : AsyncIoDev pageShift) : Act → Prop
  | .advance k data =>
    match k.iter with
    | .read _ =>
      d.readCur.toNat + data.length ≤ pageSize pageShift ∧ data.length ≤ d.len.toNat ∧
        slice d.buff d.readCur.toNat data.length = data
    | .write _ =>
      d.writeCur.toNat + data.length ≤ pageSize pageShift ∧
        d.len.toNat + data.length ≤ pageSize pageShift ∧
        slice d.buff d.writeCur.toNat data.length = data
  | _ => True

namespace Flow

variable {d d' : AsyncIoDev pageShift} {k : Kiocb} {data : List Byte}

theorem writeCur_lt (h : Flow d) : d.writeCur.toNat < pageSize pageShift := by
  rw [h.writeCur_eq]
  exact Nat.mod_lt _ (pageSize_pos pageShift)

theorem readWant_le (h : Flow d) (count : Nat) :
    d.readCur.toNat + d.readWant count ≤ pageSize pageShift ∧ d.readWant count ≤ d.len.toNat := by
  have hlt := pageSize_lt pageShift
  have hcur := h.readCur_lt
  have hlen := h.len_le
  rw [AsyncIoDev.readWant, room_toNat (by omega), sizeT_toNat (by omega)]
  omega

theorem writeWant_le (h : Flow d) (count : Nat) :
    d.writeCur.toNat + d.writeWant count ≤ pageSize pageShift ∧
      d.len.toNat + d.writeWant count ≤ pageSize pageShift := by
  have hcur := h.writeCur_lt
  have hlen := h.len_le
  rw [AsyncIoDev.writeWant, room_toNat (by omega), room_toNat hlen]
  omega

theorem consume (h : Flow d) (hend : d.readCur.toNat + data.length ≤ pageSize pageShift)
    (hlen : data.length ≤ d.len.toNat) (hdata : slice d.buff d.readCur.toNat data.length = data) :
    Flow (d.consume k data) := by
  have hle := h.len_le
  have hlt := pageSize_lt pageShift
  have hcur := wrap_toNat h.readCur_lt (show data.length ≤ pageSize pageShift by omega)
  have hleft : (d.consume k data).len.toNat = d.len.toNat - data.length := by
    have hsub : (sizeT d.len - BitVec.ofNat 64 data.length).toNat = d.len.toNat - data.length := by
      have hsize := sizeT_toNat (show d.len.toNat < 2 ^ 31 by omega)
      have hofNat : (BitVec.ofNat 64 data.length).toNat = data.length := by
        rw [BitVec.toNat_ofNat]
        omega
      rw [BitVec.toNat_sub_of_le, hsize, hofNat]
      rw [BitVec.le_def, hsize, hofNat]
      exact hlen
    rw [AsyncIoDev.consume, toInt_toNat (by omega), hsub]
  refine ⟨by omega, ?_, ?_, ?_⟩
  · show (AsyncIoDev.wrap pageShift d.readCur data.length).toNat < _
    rw [hcur]
    exact Nat.mod_lt _ (pageSize_pos pageShift)
  · show d.writeCur.toNat = ((AsyncIoDev.wrap pageShift d.readCur data.length).toNat + _) % _
    rw [hleft, hcur, Nat.mod_add_mod, h.writeCur_eq]
    congr 1
    omega
  · show (d.took ++ [(k.id, data)]).flatMap Prod.snd ++
      window d.buff (AsyncIoDev.wrap pageShift d.readCur data.length).toNat _ = _
    have hpop : window d.buff d.readCur.toNat d.len.toNat = _ := window_pop hend hlen hle
    rw [hdata] at hpop
    rw [hleft, hcur, List.flatMap_append, List.flatMap_singleton, List.append_assoc, ← hpop]
    exact h.stream

theorem supply (h : Flow d) (hend : d.writeCur.toNat + data.length ≤ pageSize pageShift)
    (hlen : d.len.toNat + data.length ≤ pageSize pageShift)
    (hdata : slice d.buff d.writeCur.toNat data.length = data) : Flow (d.supply k data) := by
  have hlt := pageSize_lt pageShift
  have hcur := wrap_toNat h.writeCur_lt (show data.length ≤ pageSize pageShift by omega)
  have hmore : (d.supply k data).len.toNat = d.len.toNat + data.length := by
    have hadd : (sizeT d.len + BitVec.ofNat 64 data.length).toNat =
        d.len.toNat + data.length := by
      rw [BitVec.toNat_add, sizeT_toNat (by omega), BitVec.toNat_ofNat]
      omega
    rw [AsyncIoDev.supply, toInt_toNat (by omega), hadd]
  refine ⟨by omega, h.readCur_lt, ?_, ?_⟩
  · show (AsyncIoDev.wrap pageShift d.writeCur data.length).toNat = (d.readCur.toNat + _) % _
    rw [hmore, hcur, h.writeCur_eq, Nat.mod_add_mod, Nat.add_assoc]
  · show d.took.flatMap Prod.snd ++ window d.buff d.readCur.toNat _ =
      (d.put ++ [(k.id, data)]).flatMap Prod.snd
    rw [h.writeCur_eq] at hend hdata
    rw [hmore, window_push h.readCur_lt hlen hend, hdata, List.flatMap_append,
      List.flatMap_singleton, ← List.append_assoc]
    congr 1
    exact h.stream

/-- Copying into the free part of the array leaves the ring alone. -/
theorem fill (h : Flow d) (hlen : d.len.toNat + data.length ≤ pageSize pageShift) :
    Flow { d with buff := patch d.buff d.writeCur.toNat data } where
  len_le := h.len_le
  readCur_lt := h.readCur_lt
  writeCur_eq := h.writeCur_eq
  stream := by
    show _ ++ window (patch d.buff d.writeCur.toNat data) d.readCur.toNat d.len.toNat = _
    rw [h.writeCur_eq, window_patch h.readCur_lt hlen]
    exact h.stream

theorem frame (h : Flow d) (hlen : d'.len = d.len) (hread : d'.readCur = d.readCur)
    (hwrite : d'.writeCur = d.writeCur) (hbuff : d'.buff = d.buff) (htook : d'.took = d.took)
    (hput : d'.put = d.put) : Flow d' := by
  obtain ⟨hle, hlt, heq, hstream⟩ := h
  refine ⟨?_, ?_, ?_, ?_⟩
  · rwa [hlen]
  · rwa [hread]
  · rwa [hwrite, hread, hlen]
  · rwa [content, htook, hput, hbuff, hread, hlen]

end Flow

/-- The ring is in order at every step, and the mutex is held by one request. -/
structure Data (d : AsyncIoDev pageShift) (m : Multiset Act) : Prop where
  flow : Flow d
  mutex : Locked Act.inside AsyncIoDev.mutex (fun _ => True) Holds d m

namespace Data

variable {d d' : AsyncIoDev pageShift} {m rest : Multiset Act} {a : Act} {k : Kiocb}
variable {pushed : List Act}

theorem start (h : Data d m) (k : Kiocb) :
    Data { d with calls := d.calls + 1 } (([.lock k] : List Act) + m) where
  flow := h.flow.frame rfl rfl rfl rfl rfl rfl
  mutex := h.mutex.add rfl rfl (fun _ => trivial) fun _ _ _ hb => hb

theorem copied (h : Data d (.copy k ::ₘ rest)) (o : Choice) :
    Data (copyStep o d k).1 (([(copyStep o d k).2] : List Act) + rest) := by
  have hheld : d.mutex = true := h.mutex.locked_of_inside (Multiset.mem_cons_self _ _) rfl
  -- whatever the copy does, the request goes on with the mutex
  have hgoes : ∀ (d' : AsyncIoDev pageShift) (b : Act), Flow d' → d'.mutex = true →
      b.inside = true → Holds d' b → Data d' (([b] : List Act) + rest) :=
    fun d' b hflow hlocked hb hholds =>
      ⟨hflow, h.mutex.alone (.inl rfl) (Locked.taken hlocked hb hholds)⟩
  have hcopied : ∀ want, o.copied want ≤ want := by
    intro want
    cases o with
    | reachable n => exact Nat.min_le_right n want
    | go | signal | noMemory => exact Nat.le_refl want
  unfold copyStep
  split
  · next count hiter =>
    obtain ⟨hend, hlen⟩ := h.flow.readWant_le count
    have hle := hcopied (d.readWant count)
    dsimp only
    split
    · exact hgoes d _ h.flow hheld rfl trivial
    · refine hgoes d _ h.flow hheld rfl ?_
      have hlength : (slice d.buff d.readCur.toNat (o.copied (d.readWant count))).length = _ :=
        slice_length (by omega)
      rw [Holds, hiter]
      dsimp only
      rw [hlength]
      exact ⟨by omega, by omega, rfl⟩
  · next data hiter =>
    split
    · exact hgoes d _ h.flow hheld rfl trivial
    · obtain ⟨hend, hlen⟩ := h.flow.writeWant_le data.length
      have hle := hcopied (d.writeWant data.length)
      have hlength : (data.take (o.copied (d.writeWant data.length))).length ≤
          o.copied (d.writeWant data.length) := List.length_take_le _ _
      have hfree : d.len.toNat + (data.take (o.copied (d.writeWant data.length))).length ≤
          pageSize pageShift := by omega
      have hflow := h.flow.fill hfree
      dsimp only
      split
      · exact hgoes _ _ hflow hheld rfl trivial
      · refine hgoes _ _ hflow hheld rfl ?_
        rw [Holds, hiter]
        dsimp only
        exact ⟨by omega, by omega, slice_patch (by omega)⟩

theorem advanced {data : List Byte} (h : Data d (.advance k data ::ₘ rest)) :
    Data (advanceStep d k data) (([.unlock k data.length] : List Act) + rest) := by
  have hheld : d.mutex = true := h.mutex.locked_of_inside (Multiset.mem_cons_self _ _) rfl
  have hholds : Holds d (.advance k data) := h.mutex.held _ (Multiset.mem_cons_self _ _) rfl
  rw [Holds] at hholds
  refine ⟨?_, h.mutex.alone (.inl rfl) (Locked.taken ?_ rfl trivial)⟩
  · unfold advanceStep
    split
    · next hiter =>
      rw [hiter] at hholds
      exact h.flow.consume hholds.1 hholds.2.1 hholds.2.2
    · next hiter =>
      rw [hiter] at hholds
      exact h.flow.supply hholds.1 hholds.2.1 hholds.2.2
  · unfold advanceStep
    split <;> exact hheld

theorem step (h : Data d (a ::ₘ rest)) (hd : Does d a d' pushed) :
    Data d' ((pushed : Multiset Act) + rest) := by
  have hflow := h.flow
  cases hd with
  | interrupted k =>
    exact ⟨hflow, h.mutex.frame rfl rfl rfl (fun _ => trivial) fun _ _ hb => hb⟩
  | locked k hfree =>
    exact ⟨hflow.frame rfl rfl rfl rfl rfl rfl,
      h.mutex.alone (.inr hfree) (Locked.taken rfl rfl trivial)⟩
  | copied o k => exact h.copied o
  | advanced k data => exact h.advanced
  | unlocked k ret =>
    exact ⟨hflow.frame rfl rfl rfl rfl rfl rfl,
      h.mutex.alone (.inl rfl) (Locked.given_back rfl rfl trivial)⟩
  | returns k ret | queued k ret hret | completes k result =>
    exact ⟨hflow.frame rfl rfl rfl rfl rfl rfl,
      h.mutex.frame rfl rfl rfl (fun _ => trivial) fun _ _ hb => hb⟩

end Data

/-! ## The requests -/

/-- What a request has moved, and what has been reported of it. -/
def entries (d : AsyncIoDev pageShift) (id : Nat) : List (List Byte) × List Report :=
  (entriesOf d.took id ++ entriesOf d.put id, entriesOf d.log id)

/-- The result is an error and nothing was moved, or the number of bytes moved. -/
def Fits (result : Int) (moved : List (List Byte)) : Prop :=
  (result ∈ [-erestartsys, -efault, -enospc] ∧ moved = []) ∨
    ∃ data, moved = [data] ∧ result = data.length

/-- What has been reported of a request in progress. -/
def promised : Act → List Report
  | .complete _ _ => [.returned (-eiocbqueued)]
  | _ => []

/-- A request in progress. -/
def Suits (a : Act) (e : List (List Byte) × List Report) : Prop :=
  (match a.outcome with
    | none => e.1 = []
    | some result => Fits result e.1) ∧ e.2 = promised a

/-- The result was returned, or after -EIOCBQUEUED it was given to ki_complete. -/
def Told (result : Int) (e : List (List Byte) × List Report) : Prop :=
  Fits result e.1 ∧
    (e.2 = [.returned result] ∨ e.2 = [.returned (-eiocbqueued), .completed result])

/-- The result that a report brings, unless it only promises one. -/
def resultOf : Report → Option Int
  | .returned value => if value = -eiocbqueued then none else some value
  | .completed result => some result

def results (log : List (Nat × Report)) : List (Nat × Int) :=
  log.filterMap fun e => (resultOf e.2).map (e.1, ·)

abbrev Accounts (d : AsyncIoDev pageShift) (m : Multiset Act) : Prop :=
  Ledger (fun a : Act => a.kiocb.id) ([], []) Suits Told d.calls (entries d) (results d.log) m

section Entries

variable {d : AsyncIoDev pageShift} {k : Kiocb} {id : Nat} {r : Report} {data : List Byte}

theorem ne_eiocbqueued {result : Int} {moved : List (List Byte)} (h : Fits result moved) :
    result ≠ -eiocbqueued := by
  have hqueued : eiocbqueued = 529 := rfl
  rcases h with ⟨hmem, -⟩ | ⟨data, -, rfl⟩
  · intro heq
    rw [heq] at hmem
    exact absurd hmem (by decide)
  · omega

theorem results_promise (log : List (Nat × Report)) (id : Nat) :
    results (log ++ [(id, .returned (-eiocbqueued))]) = results log := by
  rw [results, List.filterMap_append]
  exact List.append_nil _

theorem results_append {log : List (Nat × Report)} {result : Int} (h : resultOf r = some result) :
    results (log ++ [(id, r)]) = results log ++ [(id, result)] := by
  rw [results, List.filterMap_append]
  simp [results, h]

theorem entries_report_other (h : id ≠ k.id) : entries (d.report k r) id = entries d id := by
  rw [entries, entries, AsyncIoDev.report, entriesOf_other h]

theorem entries_report_own :
    entries (d.report k r) k.id = ((entries d k.id).1, (entries d k.id).2 ++ [r]) := by
  rw [entries, entries, AsyncIoDev.report, entriesOf_own]

theorem entries_advance_other (h : id ≠ k.id) :
    entries (advanceStep d k data) id = entries d id := by
  unfold advanceStep
  split
  · rw [entries, entries, AsyncIoDev.consume, entriesOf_other h]
  · rw [entries, entries, AsyncIoDev.supply, entriesOf_other h]

theorem entries_advance_own (h : (entries d k.id).1 = []) :
    entries (advanceStep d k data) k.id = ([data], (entries d k.id).2) := by
  obtain ⟨htook, hput⟩ := List.append_eq_nil_iff.mp h
  unfold advanceStep
  split
  · rw [entries, entries, AsyncIoDev.consume, entriesOf_own, htook, hput]
    rfl
  · rw [entries, entries, AsyncIoDev.supply, entriesOf_own, htook, hput]
    rfl

theorem advanceStep_fields : (advanceStep d k data).calls = d.calls ∧
    (advanceStep d k data).log = d.log := by
  unfold advanceStep
  split <;> exact ⟨rfl, rfl⟩

end Entries

namespace Accounts

variable {d d' : AsyncIoDev pageShift} {rest : Multiset Act} {a b : Act} {k : Kiocb}
variable {pushed : List Act}

theorem moved_none (h : Accounts d (a ::ₘ rest)) (ha : a.outcome = none) :
    (entries d a.kiocb.id).1 = [] := by
  have hsuits := (h.current a (Multiset.mem_cons_self a rest)).1
  rw [ha] at hsuits
  exact hsuits

theorem moved_fits (h : Accounts d (a ::ₘ rest)) {result : Int} (ha : a.outcome = some result) :
    Fits result (entries d a.kiocb.id).1 := by
  have hsuits := (h.current a (Multiset.mem_cons_self a rest)).1
  rw [ha] at hsuits
  exact hsuits

theorem reported (h : Accounts d (a ::ₘ rest)) : (entries d a.kiocb.id).2 = promised a :=
  (h.current a (Multiset.mem_cons_self a rest)).2

/-- A step inside async_io_do_read or async_io_do_write that moves nothing. -/
theorem goes (h : Accounts d (a ::ₘ rest)) (hd : entries d' = entries d ∧ d'.calls = d.calls ∧
      d'.log = d.log) (hb : b.kiocb.id = a.kiocb.id) (ha : promised a = promised b)
    (hsuits : match b.outcome with
      | none => (entries d a.kiocb.id).1 = []
      | some result => Fits result (entries d a.kiocb.id).1) :
    Accounts d' (([b] : List Act) + rest) := by
  obtain ⟨hentries, hcalls, hlog⟩ := hd
  rw [Accounts, hentries, hcalls, hlog]
  exact h.next hb (fun _ _ => rfl) ⟨hsuits, h.reported.trans ha⟩

theorem copied (h : Accounts d (.copy k ::ₘ rest)) (o : Choice) :
    Accounts (copyStep o d k).1 (([(copyStep o d k).2] : List Act) + rest) := by
  have hnone := h.moved_none rfl
  have hfails : ∀ e ∈ [-erestartsys, -efault, -enospc], Fits e (entries d k.id).1 :=
    fun e he => .inl ⟨he, hnone⟩
  unfold copyStep
  split
  · dsimp only
    split
    · exact h.goes ⟨rfl, rfl, rfl⟩ rfl rfl (hfails _ (by simp))
    · exact h.goes ⟨rfl, rfl, rfl⟩ rfl rfl hnone
  · split
    · exact h.goes ⟨rfl, rfl, rfl⟩ rfl rfl (hfails _ (by simp))
    · dsimp only
      split
      · exact h.goes ⟨rfl, rfl, rfl⟩ rfl rfl (hfails _ (by simp))
      · exact h.goes ⟨rfl, rfl, rfl⟩ rfl rfl hnone

theorem advanced {data : List Byte} (h : Accounts d (.advance k data ::ₘ rest)) :
    Accounts (advanceStep d k data) (([.unlock k data.length] : List Act) + rest) := by
  obtain ⟨hcalls, hlog⟩ := @advanceStep_fields _ d k data
  have hown := @entries_advance_own _ d k data (h.moved_none rfl)
  rw [Accounts, hcalls, hlog]
  refine h.next rfl (fun id hid => entries_advance_other hid) ?_
  show Suits (.unlock k data.length) (entries (advanceStep d k data) k.id)
  rw [hown]
  exact ⟨.inr ⟨data, rfl, rfl⟩, h.reported⟩

theorem tells {r : Report} {result : Int} (h : Accounts d (a ::ₘ rest))
    (ha : a.outcome = some result) (hr : resultOf r = some result)
    (htold : promised a ++ [r] = [.returned result] ∨
      promised a ++ [r] = [.returned (-eiocbqueued), .completed result]) :
    Accounts (d.report a.kiocb r) (([] : List Act) + rest) := by
  have hlog : results (d.report a.kiocb r).log = results d.log ++ [(a.kiocb.id, result)] :=
    results_append hr
  rw [Accounts, hlog]
  refine h.report (fun id hid => entries_report_other hid) ?_
  rw [entries_report_own, h.reported]
  exact ⟨h.moved_fits ha, htold⟩

theorem step (h : Accounts d (a ::ₘ rest)) (hd : Does d a d' pushed) :
    Accounts d' ((pushed : Multiset Act) + rest) := by
  cases hd with
  | interrupted k =>
    exact h.goes ⟨rfl, rfl, rfl⟩ rfl rfl (.inl ⟨by simp, h.moved_none rfl⟩)
  | locked k hfree => exact h.goes ⟨rfl, rfl, rfl⟩ rfl rfl (h.moved_none rfl)
  | copied o k => exact h.copied o
  | advanced k data => exact h.advanced
  | unlocked k ret => exact h.goes ⟨rfl, rfl, rfl⟩ rfl rfl (h.moved_fits rfl)
  | returns k ret =>
    have hfits := h.moved_fits rfl
    exact h.tells rfl (if_neg (ne_eiocbqueued hfits)) (.inl rfl)
  | queued k ret hret =>
    have hlog : results (d.report k (.returned (-eiocbqueued))).log = results d.log :=
      results_promise _ _
    rw [Accounts, hlog]
    refine h.next rfl (fun id hid => entries_report_other hid) ?_
    show Suits (.complete k ret) (entries (d.report k _) k.id)
    rw [entries_report_own]
    exact ⟨h.moved_fits rfl, congrArg (· ++ [Report.returned (-eiocbqueued)]) h.reported⟩
  | completes k result => exact h.tells rfl rfl (.inr rfl)

end Accounts

/-! ## Progress -/

/-- How many steps a request has to go, at most. -/
def left : Act → Nat
  | .lock _ => 6
  | .copy _ => 5
  | .advance _ _ => 4
  | .unlock _ _ => 3
  | .done _ _ => 2
  | .complete _ _ => 1

/-- A step that is not of a new request. -/
def isStep : AsyncIoEvent → Bool
  | .step _ _ => true
  | .start _ _ => false

section Progress

variable {d d' : AsyncIoDev pageShift} {a : Act} {pushed : List Act}
variable {s s' : AsyncIoSystem pageShift} {es : List AsyncIoEvent}

theorem does_length (h : Does d a d' pushed) : pushed.length ≤ 1 := by
  cases h <;> simp

theorem copyStep_left (o : Choice) (d : AsyncIoDev pageShift) (k : Kiocb) :
    left (copyStep o d k).2 ≤ 4 := by
  unfold copyStep
  split
  · dsimp only
    split <;> simp [left]
  · split
    · simp [left]
    · dsimp only
      split <;> simp [left]

theorem does_left (h : Does d a d' pushed) :
    ((pushed : Multiset Act).map left).sum + 1 ≤ left a := by
  cases h with
  | copied o k =>
    rw [Multiset.coe_singleton, Multiset.map_singleton, Multiset.sum_singleton]
    exact Nat.succ_le_succ (copyStep_left o d k)
  | interrupted k | locked k hfree | advanced k data | unlocked k ret | returns k ret
  | queued k ret hret | completes k result => simp [left]

theorem does_calls (h : Does d a d' pushed) : d'.calls = d.calls := by
  cases h with
  | copied o k =>
    unfold copyStep
    split
    · rfl
    · split <;> rfl
  | advanced k data => exact advanceStep_fields.1
  | _ => rfl

/-- The steps made so far and those still to come are paid for by the requests made. -/
theorem steps_bound (h : Steps (fun s e s' => asyncIoStep s e = some s') s es s') :
    es.countP isStep + (s'.pending.map left).sum + 6 * s.core.calls ≤
      (s.pending.map left).sum + 6 * s'.core.calls := by
  induction h with
  | nil s => simp
  | @cons s t s' e es hstep _ ih =>
    rw [List.countP_cons]
    cases e with
    | start isSync iter =>
      obtain rfl := Option.some.inj hstep
      rw [Pool.spawn_pending, Multiset.map_add, Multiset.sum_add, Multiset.coe_singleton,
        Multiset.map_singleton, Multiset.sum_singleton] at ih
      simp only [Pool.spawn, left, isStep, Bool.false_eq_true, if_false] at ih ⊢
      omega
    | step i o =>
      have hrun : s.run Model.exec i o = some t := hstep
      obtain ⟨a, rest, pushed, hs, he, ht, -⟩ := Pool.run_pending hrun
      have hdoes := exec_does he
      have hleft := does_left hdoes
      rw [ht, does_calls hdoes, Multiset.map_add, Multiset.sum_add] at ih
      rw [hs, Multiset.map_cons, Multiset.sum_cons]
      simp only [isStep, if_true]
      omega

theorem lone_steps (h : Steps (fun s e s' => asyncIoStep s e = some s') s es s') (hs : s.Lone) :
    s'.Lone := by
  refine h.invariant ?_ hs
  intro s e t hs hstep
  cases e with
  | start isSync iter =>
    obtain rfl := Option.some.inj hstep
    exact hs.spawn _ (Nat.le_refl 1)
  | step i o =>
    have hrun : s.run Model.exec i o = some t := hstep
    refine hs.run ?_ hrun
    intro c a c' pushed he
    exact does_length (exec_does he)

/-- While a request is in progress, one can go on: the holder of the mutex, or any. -/
theorem goes_on (hlone : s.Lone) (hdata : Data s.core s.pending) (ha : a ∈ s.pending) :
    ∃ i t, asyncIoStep s (.step i .go) = some t := by
  obtain ⟨b, hb, r, hr⟩ : ∃ b ∈ s.pending, ∃ r, Model.exec .go s.core b = some r := by
    cases hlocked : s.core.mutex with
    | true =>
      have hcount := hdata.mutex.excl
      rw [hlocked, Bool.toNat_true] at hcount
      obtain ⟨b, hb, hinside⟩ := Lib.Threads.cnt_pos.mp (by rw [hcount]; exact Nat.one_pos)
      refine ⟨b, hb, ?_⟩
      cases b with
      | copy k => exact ⟨_, rfl⟩
      | advance k data => exact ⟨_, rfl⟩
      | unlock k ret => exact ⟨_, rfl⟩
      | lock k => cases hinside
      | done k ret => cases hinside
      | complete k result => cases hinside
    | false =>
      refine ⟨a, ha, ?_⟩
      cases a with
      | lock k => exact ⟨(s.core.mutexLock, [.copy k]), by simp [Model.exec, hlocked]⟩
      | copy k | advance k data | unlock k ret | done k ret | complete k result => exact ⟨_, rfl⟩
  obtain ⟨i, hi⟩ := hlone.next hb
  obtain ⟨t, ht⟩ := Pool.run_of_next hi hr
  exact ⟨i, t, ht⟩

end Progress

/-! ## Every run -/

structure Inv (d : AsyncIoDev pageShift) (m : Multiset Act) : Prop where
  data : Data d m
  accounts : Accounts d m

theorem inv_steps {es : List AsyncIoEvent} {s : AsyncIoSystem pageShift}
    (h : Steps (fun s e s' => asyncIoStep s e = some s') ⟨{}, []⟩ es s) :
    Inv s.core s.pending := by
  refine run_inv ?_ ?_ h ?_
  · intro d m k hk hinv
    exact ⟨hinv.data.start k, hinv.accounts.start hk ⟨rfl, rfl⟩⟩
  · intro d a rest d' pushed hinv hdoes
    exact ⟨hinv.data.step hdoes, hinv.accounts.step hdoes⟩
  · refine ⟨⟨⟨Nat.zero_le _, pageSize_pos _, ?_, ?_⟩, ⟨rfl, fun _ => trivial, ?_⟩⟩, Ledger.none⟩
    · exact (Nat.zero_mod _).symm
    · exact Lib.Ring.window_zero _ _
    · intro a ha
      exact absurd ha (Multiset.notMem_zero a)

/-- Over every interleaving of requests of both kinds: the ints are in order; what reads took,
followed by what the ring holds, is what writes put; each request is in progress, with at most the
promise of a result reported, or has reported its result once and moved as many bytes; and every
request gets there, as each makes at most six steps and while one is in progress some step can be
made. -/
theorem requests_reported_once (es : List AsyncIoEvent) (s : AsyncIoSystem pageShift)
    (h : Steps (fun s e s' => asyncIoStep s e = some s') ⟨{}, []⟩ es s) :
    (0 ≤ s.core.len.toInt ∧ s.core.len.toInt ≤ pageSize pageShift) ∧
    (0 ≤ s.core.readCur.toInt ∧ s.core.readCur.toInt < pageSize pageShift) ∧
    (0 ≤ s.core.writeCur.toInt ∧ s.core.writeCur.toInt < pageSize pageShift) ∧
    s.core.writeCur.toInt = (s.core.readCur.toInt + s.core.len.toInt) % pageSize pageShift ∧
    s.core.took.flatMap Prod.snd ++ content s.core = s.core.put.flatMap Prod.snd ∧
    (∀ id < s.core.calls,
      (∃ a ∈ s.pending, a.kiocb.id = id ∧ entriesOf s.core.log id = promised a) ∨
      ∃ result, Fits result (entriesOf s.core.took id ++ entriesOf s.core.put id) ∧
        (entriesOf s.core.log id = [.returned result] ∧ result ≠ -eiocbqueued ∨
          entriesOf s.core.log id = [.returned (-eiocbqueued), .completed result])) ∧
    es.countP isStep ≤ 6 * s.core.calls ∧
    (s.pending = 0 ∨ ∃ i t, asyncIoStep s (.step i .go) = some t) := by
  have hinv := inv_steps h
  have hflow := hinv.data.flow
  have hsize := pageSize_lt pageShift
  have hwrite := hflow.writeCur_lt
  have hlen := hflow.len_le
  have hread := hflow.readCur_lt
  have hint : ∀ x : BitVec 32, x.toNat ≤ pageSize pageShift → x.toInt = x.toNat := by
    intro x hx
    exact BitVec.toInt_eq_toNat_of_lt (by omega)
  rw [hint s.core.len hlen, hint s.core.readCur hread.le, hint s.core.writeCur hwrite.le]
  refine ⟨by omega, by omega, by omega, ?_, hflow.stream, ?_, ?_, ?_⟩
  · rw [hflow.writeCur_eq]
    exact_mod_cast rfl
  · intro id hid
    rcases hinv.accounts.cases hid with ⟨a, ha, hnumber, -, hlog⟩ | ⟨result, -, hfits, hlog⟩
    · exact .inl ⟨a, ha, hnumber, hlog⟩
    · refine .inr ⟨result, hfits, ?_⟩
      rcases hlog with hlog | hlog
      · exact .inl ⟨hlog, ne_eiocbqueued hfits⟩
      · exact .inr hlog
  · have hbound := steps_bound h
    have hstart : (({ core := {}, threads := [] } : AsyncIoSystem pageShift).pending.map left).sum =
        0 := rfl
    have hcalls : ({} : AsyncIoDev pageShift).calls = 0 := rfl
    rw [hstart] at hbound
    dsimp only at hbound
    omega
  · rcases Multiset.empty_or_exists_mem s.pending with hnone | ⟨a, ha⟩
    · exact .inl hnone
    · refine .inr (goes_on (lone_steps h ?_) hinv.data ha)
      intro t ht
      exact absurd ht List.not_mem_nil

/-- An asynchronous write of three bytes and a synchronous read of two, on a ring of four bytes; the
write is completed after the read has returned. -/
def overtaken : List AsyncIoEvent :=
  .start false (.write [1#8, 2#8, 3#8]) :: List.replicate 5 (AsyncIoEvent.step 0 .go) ++
    .start true (.read 2) :: List.replicate 5 (AsyncIoEvent.step 1 .go) ++
    [AsyncIoEvent.step 0 .go]

theorem requests_reported_once_overtaken :
    ∃ s : AsyncIoSystem 2, exec asyncIoStep ⟨{}, []⟩ overtaken = some s ∧
      s.core.log = [(0, .returned (-eiocbqueued)), (1, .returned 2), (0, .completed 3)] ∧
      s.core.took.flatMap Prod.snd ++ content s.core = s.core.put.flatMap Prod.snd := by
  obtain ⟨s, hrun, hlog⟩ : ∃ s : AsyncIoSystem 2, exec asyncIoStep ⟨{}, []⟩ overtaken = some s ∧
      s.core.log = [(0, .returned (-eiocbqueued)), (1, .returned 2), (0, .completed 3)] :=
    ⟨_, rfl, by decide⟩
  have hall := requests_reported_once overtaken s (exec_steps hrun)
  exact ⟨s, hrun, hlog, hall.2.2.2.2.1⟩

end LinuxDeviceDriver.Drivers.AsyncIo.Requests
