/- source: examples/25_async_io/main.c, lines 25 to 146; main.h, lines 8 to 21
   digest: A ring buffer behind read_iter and write_iter: any number of requests, synchronous or
     not, one step at a time, with partial user copies and completions that come later. -/

import LinuxDeviceDriver.Drivers.CharFile
import LinuxDeviceDriver.Lib.Blocks
import LinuxDeviceDriver.Lib.Threads
import LinuxDeviceDriver.Lib.Transition

set_option autoImplicit false

namespace LinuxDeviceDriver.Drivers.AsyncIo.Model

open Lib.Blocks (patch slice)
open Lib.LittleEndian (Byte)
open Lib.Threads (Pool Thread)
open Lib.Transition (Steps)
open CharFile (FileOp efault eiocbqueued enospc erestartsys)

/-- The architecture chooses PAGE_SIZE; it fits an int. -/
def pageSize (pageShift : Fin 31) : Nat := 2 ^ pageShift.val

def buffSize (pageShift : Fin 31) : BitVec 32 := BitVec.ofNat 32 (pageSize pageShift)

/-- An int that is converted to size_t. -/
def sizeT (x : BitVec 32) : BitVec 64 := x.signExtend 64

/-- A size_t that is stored in an int. -/
def toInt (x : BitVec 64) : BitVec 32 := x.truncate 32

/-- A request, with the user's iov_iter. One that is not synchronous has ki_complete set. -/
structure Kiocb where
  id : Nat
  isSync : Bool
  iter : FileOp

/-- A value that the submitter gets: what read_iter or write_iter returned, or what ki_complete was
called with. -/
inductive Report
  | returned (value : Int)
  | completed (result : Int)
  deriving DecidableEq, Repr

variable {pageShift : Fin 31}

/-- The device, and what the requests have done so far: what reads took and writes put, in the
order in which they held the mutex, and what was reported. -/
structure AsyncIoDev (pageShift : Fin 31) where
  mutex : Bool := false
  len : BitVec 32 := 0
  readCur : BitVec 32 := 0
  writeCur : BitVec 32 := 0
  buff : Vector Byte (pageSize pageShift) := Vector.replicate _ 0
  calls : Nat := 0
  took : List (Nat × List Byte) := []
  put : List (Nat × List Byte) := []
  log : List (Nat × Report) := []

namespace AsyncIoDev

def mutexLock (d : AsyncIoDev pageShift) : AsyncIoDev pageShift := { d with mutex := true }

def mutexUnlock (d : AsyncIoDev pageShift) : AsyncIoDev pageShift := { d with mutex := false }

def report (d : AsyncIoDev pageShift) (k : Kiocb) (r : Report) : AsyncIoDev pageShift :=
  { d with log := d.log ++ [(k.id, r)] }

/-- How much a read wants to copy. -/
def readWant (d : AsyncIoDev pageShift) (count : Nat) : Nat :=
  min (min (sizeT (buffSize pageShift - d.readCur)).toNat (sizeT d.len).toNat) count

/-- How much a write wants to copy. -/
def writeWant (d : AsyncIoDev pageShift) (count : Nat) : Nat :=
  min (min (sizeT (buffSize pageShift - d.writeCur)).toNat
    (sizeT (buffSize pageShift - d.len)).toNat) count

/-- A cursor that has moved on. -/
def wrap (pageShift : Fin 31) (cur : BitVec 32) (done : Nat) : BitVec 32 :=
  toInt ((sizeT cur + BitVec.ofNat 64 done) % sizeT (buffSize pageShift))

/-- The end of a read that has copied its bytes. -/
def consume (d : AsyncIoDev pageShift) (k : Kiocb) (data : List Byte) : AsyncIoDev pageShift :=
  { d with
    readCur := wrap pageShift d.readCur data.length
    len := toInt (sizeT d.len - BitVec.ofNat 64 data.length)
    took := d.took ++ [(k.id, data)] }

/-- The end of a write that has copied its bytes. -/
def supply (d : AsyncIoDev pageShift) (k : Kiocb) (data : List Byte) : AsyncIoDev pageShift :=
  { d with
    writeCur := wrap pageShift d.writeCur data.length
    len := toInt (sizeT d.len + BitVec.ofNat 64 data.length)
    put := d.put ++ [(k.id, data)] }

end AsyncIoDev

/-- What a request does next. From copy to unlock it holds the mutex; what async_io_defer has
queued is the completion. -/
inductive Act
  | lock (k : Kiocb)
  | copy (k : Kiocb)
  | advance (k : Kiocb) (data : List Byte)
  | unlock (k : Kiocb) (ret : Int)
  | done (k : Kiocb) (ret : Int)
  | complete (k : Kiocb) (result : Int)

def Act.kiocb : Act → Kiocb
  | .lock k | .copy k | .advance k _ | .unlock k _ | .done k _ | .complete k _ => k

/-- How a step can go: as usual, or a signal is pending, or only so many bytes of the user's
memory can be reached, or kmalloc fails. -/
inductive Choice
  | go
  | signal
  | reachable (n : Nat)
  | noMemory
  deriving DecidableEq, Repr

/-- How many of the bytes copy_to_iter or copy_from_iter copies. -/
def Choice.copied : Choice → Nat → Nat
  | .reachable n, want => min n want
  | _, want => want

/-- What async_io_do_read and async_io_do_write do up to the test of done. -/
def copyStep (o : Choice) (d : AsyncIoDev pageShift) (k : Kiocb) : AsyncIoDev pageShift × Act :=
  match k.iter with
  | .read count =>
    let want := d.readWant count
    let done := o.copied want
    (d, if want ≠ 0 ∧ done = 0 then .unlock k (-efault)
      else .advance k (slice d.buff d.readCur.toNat done))
  | .write data =>
    if d.len = buffSize pageShift then (d, .unlock k (-enospc))
    else
      let want := d.writeWant data.length
      let done := o.copied want
      ({ d with buff := patch d.buff d.writeCur.toNat (data.take done) },
        if want ≠ 0 ∧ done = 0 then .unlock k (-efault) else .advance k (data.take done))

/-- What they do then. -/
def advanceStep (d : AsyncIoDev pageShift) (k : Kiocb) (data : List Byte) : AsyncIoDev pageShift :=
  match k.iter with
  | .read _ => d.consume k data
  | .write _ => d.supply k data

/-- What async_io_read_iter and async_io_write_iter do with the result, async_io_defer
included. -/
def asyncIoDefer (o : Choice) (d : AsyncIoDev pageShift) (k : Kiocb) (ret : Int) :
    AsyncIoDev pageShift × List Act :=
  if k.isSync ∨ ret < 0 then (d.report k (.returned ret), [])
  else if o = .noMemory then (d.report k (.returned ret), [])
  else (d.report k (.returned (-eiocbqueued)), [.complete k ret])

/-- One step of a request. -/
def exec (o : Choice) (d : AsyncIoDev pageShift) : Act → Option (AsyncIoDev pageShift × List Act)
  | .lock k =>
    if o = .signal then some (d, [.done k (-erestartsys)])
    else if d.mutex then none
    else some (d.mutexLock, [.copy k])
  | .copy k => some ((copyStep o d k).1, [(copyStep o d k).2])
  | .advance k data => some (advanceStep d k data, [.unlock k data.length])
  | .unlock k ret => some (d.mutexUnlock, [.done k ret])
  | .done k ret => some (asyncIoDefer o d k ret)
  | .complete k result => some (d.report k (.completed result), [])

/-! ## Runs -/

abbrev AsyncIoSystem (pageShift : Fin 31) := Pool (AsyncIoDev pageShift) Kiocb Act

inductive AsyncIoEvent
  | start (isSync : Bool) (iter : FileOp)
  | step (thread : Nat) (o : Choice)

/-- A request is made, or some request takes its next step. -/
def asyncIoStep (s : AsyncIoSystem pageShift) : AsyncIoEvent → Option (AsyncIoSystem pageShift)
  | .start isSync iter =>
    let k : Kiocb := ⟨s.core.calls, isSync, iter⟩
    some (s.spawn { s.core with calls := s.core.calls + 1 } ⟨k, [.lock k]⟩)
  | .step i o => s.run exec i o

/-! ## What a step can do -/

/-- The mutex is held. -/
def Act.inside : Act → Bool
  | .copy _ | .advance _ _ | .unlock _ _ => true
  | _ => false

/-- The result that a request will report. -/
def Act.outcome : Act → Option Int
  | .unlock _ ret | .done _ ret | .complete _ ret => some ret
  | _ => none

inductive Does (d : AsyncIoDev pageShift) : Act → AsyncIoDev pageShift → List Act → Prop
  | interrupted (k : Kiocb) : Does d (.lock k) d [.done k (-erestartsys)]
  | locked (k : Kiocb) (h : d.mutex = false) : Does d (.lock k) d.mutexLock [.copy k]
  | copied (o : Choice) (k : Kiocb) :
      Does d (.copy k) (copyStep o d k).1 [(copyStep o d k).2]
  | advanced (k : Kiocb) (data : List Byte) :
      Does d (.advance k data) (advanceStep d k data) [.unlock k data.length]
  | unlocked (k : Kiocb) (ret : Int) : Does d (.unlock k ret) d.mutexUnlock [.done k ret]
  | returns (k : Kiocb) (ret : Int) :
      Does d (.done k ret) (d.report k (.returned ret)) []
  | queued (k : Kiocb) (ret : Int) (h : 0 ≤ ret) :
      Does d (.done k ret) (d.report k (.returned (-eiocbqueued))) [.complete k ret]
  | completes (k : Kiocb) (result : Int) :
      Does d (.complete k result) (d.report k (.completed result)) []

theorem exec_does {o : Choice} {d d' : AsyncIoDev pageShift} {a : Act} {pushed : List Act}
    (h : exec o d a = some (d', pushed)) : Does d a d' pushed := by
  cases a with
  | lock k =>
    simp only [exec] at h
    split at h
    · obtain ⟨rfl, rfl⟩ := Prod.mk.inj (Option.some.inj h)
      exact .interrupted k
    · split at h
      · cases h
      · next hfree =>
        obtain ⟨rfl, rfl⟩ := Prod.mk.inj (Option.some.inj h)
        exact .locked k (by simpa using hfree)
  | copy k =>
    obtain ⟨rfl, rfl⟩ := Prod.mk.inj (Option.some.inj h)
    exact .copied o k
  | advance k data =>
    obtain ⟨rfl, rfl⟩ := Prod.mk.inj (Option.some.inj h)
    exact .advanced k data
  | unlock k ret =>
    obtain ⟨rfl, rfl⟩ := Prod.mk.inj (Option.some.inj h)
    exact .unlocked k ret
  | done k ret =>
    simp only [exec, asyncIoDefer] at h
    split at h
    · obtain ⟨rfl, rfl⟩ := Prod.mk.inj (Option.some.inj h)
      exact .returns k ret
    · next hasync =>
      have hret : 0 ≤ ret := by
        rw [not_or] at hasync
        omega
      split at h
      · obtain ⟨rfl, rfl⟩ := Prod.mk.inj (Option.some.inj h)
        exact .returns k ret
      · obtain ⟨rfl, rfl⟩ := Prod.mk.inj (Option.some.inj h)
        exact .queued k ret hret
  | complete k result =>
    obtain ⟨rfl, rfl⟩ := Prod.mk.inj (Option.some.inj h)
    exact .completes k result

/-- What each step and each new request keep, every run keeps. -/
theorem run_inv {Inv : AsyncIoDev pageShift → Multiset Act → Prop}
    (hstart : ∀ d m (k : Kiocb), k.id = d.calls → Inv d m →
      Inv { d with calls := d.calls + 1 } (([.lock k] : List Act) + m))
    (hdoes : ∀ d a rest d' pushed, Inv d (a ::ₘ rest) → Does d a d' pushed →
      Inv d' ((pushed : Multiset Act) + rest))
    {s s' : AsyncIoSystem pageShift} {es : List AsyncIoEvent}
    (h : Steps (fun s e s' => asyncIoStep s e = some s') s es s')
    (hs : Inv s.core s.pending) : Inv s'.core s'.pending := by
  induction h with
  | nil s => exact hs
  | @cons s t s' e es hstep _ ih =>
    apply ih
    cases e with
    | start isSync iter =>
      obtain rfl := Option.some.inj hstep
      rw [Pool.spawn_pending]
      exact hstart _ _ _ rfl hs
    | step i o =>
      have hrun : s.run exec i o = some t := hstep
      refine Pool.run_invariant ?_ hrun hs
      intro o d a rest d' pushed hi he
      exact hdoes d a rest d' pushed hi (exec_does he)

end LinuxDeviceDriver.Drivers.AsyncIo.Model
