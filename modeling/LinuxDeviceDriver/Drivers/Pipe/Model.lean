/- source: examples/08_pipe_simple_sleep/fops.c, lines 31 to 146;
     examples/09_pipe_advanced_sleep/fops.c, lines 32 to 174; main.h of both, lines 10 to 22
   digest: The two pipe drivers: any number of readers and writers, one step at a time, with the
     mutex, the wait queues, signals and user copies that fail. -/

import LinuxDeviceDriver.Drivers.CharFile
import LinuxDeviceDriver.Lib.Blocks
import LinuxDeviceDriver.Lib.Threads
import LinuxDeviceDriver.Lib.Transition

set_option autoImplicit false

namespace LinuxDeviceDriver.Drivers.Pipe.Model

open Lib.Blocks (patch slice)
open Lib.LittleEndian (Byte)
open Lib.Threads (Pool Thread)
open Lib.Transition (Steps)
open CharFile (eagain efault erestartsys)

def buffSize : Nat := 1 <<< 3

/-- How a driver puts a process to sleep: by wait_event_interruptible, or step by step. -/
inductive Driver
  | pipeSimpleSleep
  | pipeAdvancedSleep
  deriving DecidableEq, Repr

/-- The two wait queues, by who waits there. -/
inductive Side
  | rd
  | wr
  deriving DecidableEq, Repr

def Side.other : Side → Side
  | .rd => .wr
  | .wr => .rd

inductive Request
  | read (count : Nat)
  | write (buff : List Byte)
  deriving DecidableEq, Repr

/-- A call in progress. Its number is also that of the process. -/
structure Call where
  id : Nat
  nonblock : Bool
  request : Request
  deriving DecidableEq, Repr

def Call.side (c : Call) : Side :=
  match c.request with
  | .read _ => .rd
  | .write _ => .wr

/-- The device, the processes that are not runnable, and what the calls have done so far: what
reads took and writes put, in the order in which they held the mutex, and what was returned. -/
structure PipeDev where
  mutex : Bool := false
  queue : Side → List Nat := fun _ => []
  buffLen : Nat := 0
  rdPos : Nat := 0
  buff : Vector Byte buffSize := Vector.replicate buffSize 0
  interruptible : List Nat := []
  calls : Nat := 0
  took : List (Nat × List Byte) := []
  put : List (Nat × List Byte) := []
  returned : List (Nat × Int) := []

namespace PipeDev

/-- What the processes of a queue wait for. -/
def ready (d : PipeDev) : Side → Bool
  | .rd => decide (d.buffLen ≠ 0)
  | .wr => decide (d.buffLen = 0)

def ret (d : PipeDev) (c : Call) (value : Int) : PipeDev :=
  { d with returned := d.returned ++ [(c.id, value)] }

def mutexLock (d : PipeDev) : PipeDev := { d with mutex := true }

def mutexUnlock (d : PipeDev) : PipeDev := { d with mutex := false }

/-- The process joins its queue and is no longer runnable. -/
def prepareToWait (d : PipeDev) (c : Call) : PipeDev :=
  { d with
    queue := Function.update d.queue c.side (c.id :: d.queue c.side)
    interruptible := c.id :: d.interruptible }

def finishWait (d : PipeDev) (c : Call) : PipeDev :=
  { d with
    queue := Function.update d.queue c.side ((d.queue c.side).filter (· ≠ c.id))
    interruptible := d.interruptible.filter (· ≠ c.id) }

/-- All processes of the queue become runnable and leave it. -/
def wakeUp (d : PipeDev) (side : Side) : PipeDev :=
  { d with
    queue := Function.update d.queue side []
    interruptible := d.interruptible.filter (· ∉ d.queue side) }

/-- The end of a read that has copied its bytes: rd_pos and buff_len move together, under the
mutex. -/
def consume (d : PipeDev) (c : Call) (data : List Byte) : PipeDev :=
  let d := { d with took := d.took ++ [(c.id, data)] }
  if d.rdPos + data.length ≥ d.buffLen then { d with buffLen := 0, rdPos := 0 }
  else { d with rdPos := d.rdPos + data.length }

/-- The end of a write that has copied its bytes. -/
def supply (d : PipeDev) (c : Call) (data : List Byte) : PipeDev :=
  let d := { d with put := d.put ++ [(c.id, data)] }
  if 0 < data.length then { d with buffLen := data.length, rdPos := 0 } else d

end PipeDev

/-- What a call does next. From check to unlock it holds the mutex. -/
inductive Act
  | lock (c : Call)
  | check (c : Call)
  | unlockWait (c : Call)
  | waitEvent (c : Call)
  | prepare (c : Call)
  | test (c : Call)
  | schedule (c : Call)
  | finish (c : Call)
  | signalPending (c : Call)
  | copy (c : Call)
  | commit (c : Call) (data : List Byte)
  | wake (c : Call) (count : Nat)
  | unlock (c : Call) (value : Int)
  deriving DecidableEq, Repr

def Act.call : Act → Call
  | .lock c | .check c | .unlockWait c | .waitEvent c | .prepare c | .test c | .schedule c
  | .finish c | .signalPending c | .copy c | .commit c _ | .wake c _ | .unlock c _ => c

/-- How a step can go: as usual, or a signal is pending, or only so many bytes of the user's
buffer can be reached. -/
inductive Choice
  | go
  | signal
  | reachable (n : Nat)
  deriving DecidableEq, Repr

/-- How many of the bytes a user copy leaves uncopied. -/
def Choice.uncopied : Choice → Nat → Nat
  | .reachable n, count => count - n
  | _, _ => 0

/-- copy_to_user and copy_from_user, with the counts that the calls ask for. What cannot be
fetched from the user is filled with zeros. -/
def userCopy (o : Choice) (d : PipeDev) (c : Call) : PipeDev × Act :=
  match c.request with
  | .read count =>
    let count := min count (d.buffLen - d.rdPos)
    if o.uncopied count ≠ 0 then (d, .unlock c (-efault))
    else (d, .commit c (slice d.buff d.rdPos count))
  | .write buff =>
    let count := min buff.length buffSize
    let left := o.uncopied count
    let got := buff.take (count - left) ++ List.replicate left 0
    let d := { d with buff := patch d.buff 0 got }
    if left ≠ 0 then (d, .unlock c (-efault)) else (d, .commit c got)

/-- The store to buff_len; if there is one, the other side is woken up next. -/
def commitStep (d : PipeDev) (c : Call) (data : List Byte) : PipeDev × Act :=
  match c.request with
  | .read _ =>
    (d.consume c data,
      if d.rdPos + data.length ≥ d.buffLen then .wake c data.length else .unlock c data.length)
  | .write _ =>
    (d.supply c data, if 0 < data.length then .wake c data.length else .unlock c data.length)

/-- One step of a call. In schedule a process goes on when it is runnable or has a signal. -/
def exec (driver : Driver) (o : Choice) (d : PipeDev) : Act → Option (PipeDev × List Act)
  | .lock c =>
    if o = .signal then some (d.ret c (-erestartsys), [])
    else if d.mutex then none
    else some (d.mutexLock, [.check c])
  | .check c => some (d, [if d.ready c.side then .copy c else .unlockWait c])
  | .unlockWait c =>
    if c.nonblock then some (d.mutexUnlock.ret c (-eagain), [])
    else
      some (d.mutexUnlock,
        [match driver with
          | .pipeSimpleSleep => .waitEvent c
          | .pipeAdvancedSleep => .prepare c])
  | .waitEvent c =>
    if d.ready c.side then some (d, [.lock c])
    else if o = .signal then some (d.ret c (-erestartsys), [])
    else none
  | .prepare c => some (d.prepareToWait c, [.test c])
  | .test c => some (d, [if d.ready c.side then .finish c else .schedule c])
  | .schedule c =>
    if c.id ∈ d.interruptible ∧ o ≠ .signal then none else some (d, [.finish c])
  | .finish c => some (d.finishWait c, [.signalPending c])
  | .signalPending c =>
    if o = .signal then some (d.ret c (-erestartsys), []) else some (d, [.lock c])
  | .copy c => some ((userCopy o d c).1, [(userCopy o d c).2])
  | .commit c data => some ((commitStep d c data).1, [(commitStep d c data).2])
  | .wake c count => some (d.wakeUp c.side.other, [.unlock c count])
  | .unlock c value => some (d.mutexUnlock.ret c value, [])

/-! ## Runs -/

abbrev PipeSystem := Pool PipeDev Call Act

inductive PipeEvent
  | start (nonblock : Bool) (request : Request)
  | step (thread : Nat) (o : Choice)
  deriving DecidableEq, Repr

/-- A call is made, or some call takes its next step. -/
def pipeStep (driver : Driver) (s : PipeSystem) : PipeEvent → Option PipeSystem
  | .start nonblock request =>
    let c : Call := ⟨s.core.calls, nonblock, request⟩
    some (s.spawn { s.core with calls := s.core.calls + 1 } ⟨c, [.lock c]⟩)
  | .step i o => s.run (exec driver) i o

/-! ## What a step can do -/

/-- The mutex is held. -/
def Act.inside : Act → Bool
  | .check _ | .unlockWait _ | .copy _ | .commit _ _ | .wake _ _ | .unlock _ _ => true
  | _ => false

/-- What a call that is about to return will return. -/
def Act.outcome : Act → Option Int
  | .wake _ count => some count
  | .unlock _ value => some value
  | _ => none

/-- The steps, of either driver. -/
inductive Does (d : PipeDev) : Act → PipeDev → List Act → Prop
  | interrupted (a : Act) (c : Call)
      (ha : a = .lock c ∨ a = .waitEvent c ∨ a = .signalPending c) :
      Does d a (d.ret c (-erestartsys)) []
  | wouldBlock (c : Call) : Does d (.unlockWait c) (d.mutexUnlock.ret c (-eagain)) []
  | returns (c : Call) (value : Int) : Does d (.unlock c value) (d.mutexUnlock.ret c value) []
  | locked (c : Call) (h : d.mutex = false) : Does d (.lock c) d.mutexLock [.check c]
  | found (c : Call) (h : d.ready c.side = true) : Does d (.check c) d [.copy c]
  | missed (c : Call) : Does d (.check c) d [.unlockWait c]
  | leaves (c : Call) (b : Act) (hb : b = .waitEvent c ∨ b = .prepare c) :
      Does d (.unlockWait c) d.mutexUnlock [b]
  | happened (c : Call) : Does d (.waitEvent c) d [.lock c]
  | prepared (c : Call) : Does d (.prepare c) (d.prepareToWait c) [.test c]
  | stays (c : Call) : Does d (.test c) d [.finish c]
  | sleeps (c : Call) (h : d.ready c.side = false) : Does d (.test c) d [.schedule c]
  | resumes (c : Call) : Does d (.schedule c) d [.finish c]
  | finished (c : Call) : Does d (.finish c) (d.finishWait c) [.signalPending c]
  | retries (c : Call) : Does d (.signalPending c) d [.lock c]
  | copied (o : Choice) (c : Call) :
      Does d (.copy c) (userCopy o d c).1 [(userCopy o d c).2]
  | committed (c : Call) (data : List Byte) :
      Does d (.commit c data) (commitStep d c data).1 [(commitStep d c data).2]
  | woke (c : Call) (count : Nat) :
      Does d (.wake c count) (d.wakeUp c.side.other) [.unlock c count]

theorem exec_does {driver : Driver} {o : Choice} {d d' : PipeDev} {a : Act} {pushed : List Act}
    (h : exec driver o d a = some (d', pushed)) : Does d a d' pushed := by
  cases a with
  | lock c =>
    simp only [exec] at h
    split at h
    · obtain ⟨rfl, rfl⟩ := Prod.mk.inj (Option.some.inj h)
      exact .interrupted _ c (.inl rfl)
    · split at h
      · cases h
      · next hfree =>
        obtain ⟨rfl, rfl⟩ := Prod.mk.inj (Option.some.inj h)
        exact .locked c (by simpa using hfree)
  | check c =>
    obtain ⟨rfl, rfl⟩ := Prod.mk.inj (Option.some.inj h)
    split
    · next hready => exact .found c hready
    · exact .missed c
  | unlockWait c =>
    simp only [exec] at h
    split at h
    · obtain ⟨rfl, rfl⟩ := Prod.mk.inj (Option.some.inj h)
      exact .wouldBlock c
    · obtain ⟨rfl, rfl⟩ := Prod.mk.inj (Option.some.inj h)
      refine .leaves c _ ?_
      cases driver with
      | pipeSimpleSleep => exact .inl rfl
      | pipeAdvancedSleep => exact .inr rfl
  | waitEvent c =>
    simp only [exec] at h
    split at h
    · obtain ⟨rfl, rfl⟩ := Prod.mk.inj (Option.some.inj h)
      exact .happened c
    · split at h
      · obtain ⟨rfl, rfl⟩ := Prod.mk.inj (Option.some.inj h)
        exact .interrupted _ c (.inr (.inl rfl))
      · cases h
  | prepare c =>
    obtain ⟨rfl, rfl⟩ := Prod.mk.inj (Option.some.inj h)
    exact .prepared c
  | test c =>
    obtain ⟨rfl, rfl⟩ := Prod.mk.inj (Option.some.inj h)
    split
    · exact .stays c
    · next hready => exact .sleeps c (by simpa using hready)
  | schedule c =>
    simp only [exec] at h
    split at h
    · cases h
    · obtain ⟨rfl, rfl⟩ := Prod.mk.inj (Option.some.inj h)
      exact .resumes c
  | finish c =>
    obtain ⟨rfl, rfl⟩ := Prod.mk.inj (Option.some.inj h)
    exact .finished c
  | signalPending c =>
    simp only [exec] at h
    split at h
    · obtain ⟨rfl, rfl⟩ := Prod.mk.inj (Option.some.inj h)
      exact .interrupted _ c (.inr (.inr rfl))
    · obtain ⟨rfl, rfl⟩ := Prod.mk.inj (Option.some.inj h)
      exact .retries c
  | copy c =>
    obtain ⟨rfl, rfl⟩ := Prod.mk.inj (Option.some.inj h)
    exact .copied o c
  | commit c data =>
    obtain ⟨rfl, rfl⟩ := Prod.mk.inj (Option.some.inj h)
    exact .committed c data
  | wake c count =>
    obtain ⟨rfl, rfl⟩ := Prod.mk.inj (Option.some.inj h)
    exact .woke c count
  | unlock c value =>
    obtain ⟨rfl, rfl⟩ := Prod.mk.inj (Option.some.inj h)
    exact .returns c value

/-- What each step and each new call keep, every run keeps. -/
theorem run_inv {driver : Driver} {Inv : PipeDev → Multiset Act → Prop}
    (hstart : ∀ d m (c : Call), c.id = d.calls → Inv d m →
      Inv { d with calls := d.calls + 1 } (([.lock c] : List Act) + m))
    (hdoes : ∀ d a rest d' pushed, Inv d (a ::ₘ rest) → Does d a d' pushed →
      Inv d' ((pushed : Multiset Act) + rest))
    {s s' : PipeSystem} {es : List PipeEvent}
    (h : Steps (fun s e s' => pipeStep driver s e = some s') s es s')
    (hs : Inv s.core s.pending) : Inv s'.core s'.pending := by
  induction h with
  | nil s => exact hs
  | @cons s t s' e es hstep _ ih =>
    apply ih
    cases e with
    | start nonblock request =>
      obtain rfl := Option.some.inj hstep
      rw [Pool.spawn_pending]
      exact hstart _ _ _ rfl hs
    | step i o =>
      have hrun : s.run (exec driver) i o = some t := hstep
      refine Pool.run_invariant ?_ hrun hs
      intro o d a rest d' pushed hi he
      exact hdoes d a rest d' pushed hi (exec_does he)

end LinuxDeviceDriver.Drivers.Pipe.Model
