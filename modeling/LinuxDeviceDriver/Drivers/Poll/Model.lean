/- source: examples/10_poll/fops.c, lines 28 to 132; main.c, lines 29 to 64; main.h, lines 11 to 30
   digest: The poll device: readers and writers that take the flags the timer sets, polls that only
     look at them, and the timer, one step at a time. -/

import LinuxDeviceDriver.Drivers.Message
import LinuxDeviceDriver.Lib.Settings
import LinuxDeviceDriver.Lib.Threads
import LinuxDeviceDriver.Lib.Transition

set_option autoImplicit false

namespace LinuxDeviceDriver.Drivers.Poll.Model

open Lib.Settings (Latch)
open Lib.Blocks (patch)
open Lib.LittleEndian (Byte)
open Lib.Threads (Pool Thread)
open CharFile (eagain erestartsys)
open Message UserCopy

variable {pageShift : Fin 19}

/-- The two flags, by who takes them. -/
inductive Side
  | rd
  | wr
  deriving DecidableEq, Repr

inductive Request
  | read (count : Nat)
  | write (buff : List Byte)
  deriving DecidableEq, Repr

/-- A call of poll_read or poll_write. -/
structure Call where
  id : Nat
  nonblock : Bool
  request : Request
  deriving DecidableEq, Repr

/-- The flag that the call is after: can_rd or can_wr. -/
def Call.side (c : Call) : Side :=
  match c.request with
  | .read _ => .rd
  | .write _ => .wr

/-- What a call has come to: a value with the bytes read, or the bits that poll_poll reports. -/
inductive Answer
  | value (value : Int) (data : List Byte)
  | mask (rd wr : Bool)
  deriving DecidableEq, Repr

/-- What a running timer_fn does next. -/
inductive TimerStep
  | setRd
  | setWr
  deriving DecidableEq, Repr

/-- The device, the place of the timer, the number of calls made and what they have returned. -/
structure PollDev (pageShift : Fin 19) where
  mutex : Bool := false
  timerCounter : BitVec 64 := 0
  timerFn : Option TimerStep := none
  can : Side → Latch Call := fun _ => {}
  message : MessageBuffer pageShift
  calls : Nat := 0
  returned : List (Nat × Answer) := []

namespace PollDev

def ret (d : PollDev pageShift) (id : Nat) (answer : Answer) : PollDev pageShift :=
  { d with returned := d.returned ++ [(id, answer)] }

def mutexLock (d : PollDev pageShift) : PollDev pageShift := { d with mutex := true }

def mutexUnlock (d : PollDev pageShift) : PollDev pageShift := { d with mutex := false }

/-- atomic_set, by the timer. -/
def setFlag (d : PollDev pageShift) (side : Side) : PollDev pageShift :=
  { d with can := Function.update d.can side (d.can side).set }

/-- The atomic_xchg that finds the flag set. -/
def takeFlag (d : PollDev pageShift) (c : Call) : PollDev pageShift :=
  { d with can := Function.update d.can c.side ((d.can c.side).take c) }

theorem takeFlag_own (d : PollDev pageShift) (c : Call) :
    (d.takeFlag c).can c.side = (d.can c.side).take c :=
  Function.update_self _ _ _

theorem takeFlag_other (d : PollDev pageShift) {c : Call} {side : Side} (h : side ≠ c.side) :
    (d.takeFlag c).can side = d.can side :=
  Function.update_of_ne h _ _

end PollDev

/-- What a call does next. From copy to unlock it holds the mutex. -/
inductive Act
  | takeFlag (c : Call)
  | waitEvent (c : Call)
  | lock (c : Call)
  | copy (c : Call)
  | unlock (c : Call) (value : Int) (data : List Byte)
  | pollRd (id : Nat)
  | pollWr (id : Nat) (rd : Bool)
  deriving DecidableEq, Repr

def Act.id : Act → Nat
  | .takeFlag c | .waitEvent c | .lock c | .copy c | .unlock c _ _ => c.id
  | .pollRd id | .pollWr id _ => id

/-- How a step can go: as usual, or a signal is pending, or only so many bytes of the user's
buffer can be reached. -/
inductive Choice
  | go
  | signal
  | reachable (n : Nat)
  deriving DecidableEq, Repr

def Choice.conditions : Choice → Conditions
  | .reachable n => { reachable := some n }
  | _ => {}

/-- The copy, and the store to buf_len: what they leave, and what the call will return. -/
def userCopy (o : Choice) (d : PollDev pageShift) (c : Call) :
    PollDev pageShift × Int × List Byte :=
  match c.request with
  | .read count => (d, d.message.fetch count o.conditions)
  | .write buff =>
    ({ d with message := (d.message.store buff o.conditions).1 },
      (d.message.store buff o.conditions).2, [])

/-- One step of a call. -/
def exec (o : Choice) (d : PollDev pageShift) : Act → Option (PollDev pageShift × List Act)
  | .takeFlag c =>
    if (d.can c.side).up then some (d.takeFlag c, [.lock c])
    else if c.nonblock then some (d.ret c.id (.value (-eagain) []), [])
    else some (d, [.waitEvent c])
  | .waitEvent c =>
    if (d.can c.side).up then some (d, [.takeFlag c])
    else if o = .signal then some (d.ret c.id (.value (-erestartsys) []), [])
    else none
  | .lock c =>
    if o = .signal then some (d.ret c.id (.value (-erestartsys) []), [])
    else if d.mutex then none
    else some (d.mutexLock, [.copy c])
  | .copy c => some ((userCopy o d c).1, [.unlock c (userCopy o d c).2.1 (userCopy o d c).2.2])
  | .unlock c value data => some (d.mutexUnlock.ret c.id (.value value data), [])
  | .pollRd id => some (d, [.pollWr id (d.can .rd).up])
  | .pollWr id rd => some (d.ret id (.mask rd (d.can .wr).up), [])

/-- One step of the timer. A timer_fn does not begin before the last one has ended. -/
def timerStep (d : PollDev pageShift) : PollDev pageShift :=
  match d.timerFn with
  | none => { d with timerCounter := d.timerCounter + 1, timerFn := some .setRd }
  | some .setRd => { d.setFlag .rd with timerFn := some .setWr }
  | some .setWr =>
    { (if d.timerCounter % 2 ≠ 0 then d.setFlag .wr else d) with timerFn := none }

/-! ## Runs -/

/-- A call in progress, or a poll with its number. -/
abbrev PollSystem (pageShift : Fin 19) := Pool (PollDev pageShift) Nat Act

inductive PollEvent
  | start (nonblock : Bool) (request : Request)
  | poll
  | timer
  | step (thread : Nat) (o : Choice)
  deriving DecidableEq, Repr

/-- A call is made, the timer goes on, or some call takes its next step. -/
def pollStep (s : PollSystem pageShift) : PollEvent → Option (PollSystem pageShift)
  | .start nonblock request =>
    some (s.spawn { s.core with calls := s.core.calls + 1 }
      ⟨s.core.calls, [.takeFlag ⟨s.core.calls, nonblock, request⟩]⟩)
  | .poll =>
    some (s.spawn { s.core with calls := s.core.calls + 1 } ⟨s.core.calls, [.pollRd s.core.calls]⟩)
  | .timer => some { s with core := timerStep s.core }
  | .step i o => s.run exec i o

/-- The device with some message, and no call made. -/
def start (message : MessageBuffer pageShift) : PollSystem pageShift := { core := { message } }

/-- DFT_MSG, "Hello World!". -/
def dftMsg : List Byte :=
  [0x48, 0x65, 0x6c, 0x6c, 0x6f, 0x20, 0x57, 0x6f, 0x72, 0x6c, 0x64, 0x21]

theorem dftMsg_fits : (12 : BitVec 64).toNat ≤ buffSize pageShift :=
  le_trans (by decide) (le_buffSize pageShift)

/-- The device as init_dev leaves it, in memory that held anything before. -/
def initDev (buff : Vector Byte (buffSize pageShift)) : PollSystem pageShift :=
  start ⟨12, patch buff 0 dftMsg, dftMsg_fits⟩

/-! ## What a step can do -/

/-- The steps of a call. -/
inductive Does (d : PollDev pageShift) :
    Choice → Act → PollDev pageShift → List Act → Prop
  | took (o : Choice) (c : Call) (h : (d.can c.side).up = true) :
      Does d o (.takeFlag c) (d.takeFlag c) [.lock c]
  | wouldBlock (o : Choice) (c : Call) :
      Does d o (.takeFlag c) (d.ret c.id (.value (-eagain) [])) []
  | missed (o : Choice) (c : Call) : Does d o (.takeFlag c) d [.waitEvent c]
  | happened (o : Choice) (c : Call) : Does d o (.waitEvent c) d [.takeFlag c]
  | gaveUp (c : Call) : Does d .signal (.waitEvent c) (d.ret c.id (.value (-erestartsys) [])) []
  | interrupted (c : Call) : Does d .signal (.lock c) (d.ret c.id (.value (-erestartsys) [])) []
  | locked (o : Choice) (c : Call) : Does d o (.lock c) d.mutexLock [.copy c]
  | copied (o : Choice) (c : Call) :
      Does d o (.copy c) (userCopy o d c).1 [.unlock c (userCopy o d c).2.1 (userCopy o d c).2.2]
  | returns (o : Choice) (c : Call) (value : Int) (data : List Byte) :
      Does d o (.unlock c value data) (d.mutexUnlock.ret c.id (.value value data)) []
  | polledRd (o : Choice) (id : Nat) : Does d o (.pollRd id) d [.pollWr id (d.can .rd).up]
  | polledWr (o : Choice) (id : Nat) (rd : Bool) :
      Does d o (.pollWr id rd) (d.ret id (.mask rd (d.can .wr).up)) []

theorem exec_does {o : Choice} {d d' : PollDev pageShift} {a : Act} {pushed : List Act}
    (h : exec o d a = some (d', pushed)) : Does d o a d' pushed := by
  cases a with
  | takeFlag c =>
    simp only [exec] at h
    split at h
    · next hup =>
      obtain ⟨rfl, rfl⟩ := Prod.mk.inj (Option.some.inj h)
      exact .took o c hup
    · split at h
      · obtain ⟨rfl, rfl⟩ := Prod.mk.inj (Option.some.inj h)
        exact .wouldBlock o c
      · obtain ⟨rfl, rfl⟩ := Prod.mk.inj (Option.some.inj h)
        exact .missed o c
  | waitEvent c =>
    simp only [exec] at h
    split at h
    · obtain ⟨rfl, rfl⟩ := Prod.mk.inj (Option.some.inj h)
      exact .happened o c
    · split at h
      · next ho =>
        subst ho
        obtain ⟨rfl, rfl⟩ := Prod.mk.inj (Option.some.inj h)
        exact .gaveUp c
      · cases h
  | lock c =>
    simp only [exec] at h
    split at h
    · next ho =>
      subst ho
      obtain ⟨rfl, rfl⟩ := Prod.mk.inj (Option.some.inj h)
      exact .interrupted c
    · split at h
      · cases h
      · obtain ⟨rfl, rfl⟩ := Prod.mk.inj (Option.some.inj h)
        exact .locked o c
  | copy c =>
    obtain ⟨rfl, rfl⟩ := Prod.mk.inj (Option.some.inj h)
    exact .copied o c
  | unlock c value data =>
    obtain ⟨rfl, rfl⟩ := Prod.mk.inj (Option.some.inj h)
    exact .returns o c value data
  | pollRd id =>
    obtain ⟨rfl, rfl⟩ := Prod.mk.inj (Option.some.inj h)
    exact .polledRd o id
  | pollWr id rd =>
    obtain ⟨rfl, rfl⟩ := Prod.mk.inj (Option.some.inj h)
    exact .polledWr o id rd

end LinuxDeviceDriver.Drivers.Poll.Model
