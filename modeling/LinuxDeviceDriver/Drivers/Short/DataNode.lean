/- source: examples/15_short_ioport/main.c, lines 40 to 122; examples/16_short_port_remap/main.c,
     lines 42 to 124; examples/17_short_mmio/main.c, lines 71 to 150
   digest: The data node of the short drivers: any number of readers and writers, one register
     access at a time, with a host that sends bytes to the device. -/

import LinuxDeviceDriver.Drivers.CharFile
import LinuxDeviceDriver.Drivers.Short.Registers
import LinuxDeviceDriver.Lib.Threads

set_option autoImplicit false

namespace LinuxDeviceDriver.Drivers.Short.DataNode

open Lib.Bits (isSet)
open Lib.LittleEndian (Byte)
open Lib.Threads (Pool Thread)
open Qemu.Io.Device
open CharFile (eagain efault erestartsys)
open Registers

/-- The size of the buffer that a read call has on its stack. -/
def kbufSize : Nat := 64

def shortMaxWrite : Nat := 256

/-- A call of data_read: its number, what it asks for and O_NONBLOCK. -/
structure Reader where
  id : Nat
  count : Nat
  nonblock : Bool
  deriving DecidableEq, Repr

/-- Where a call is, with its locals: the register access, the lock operation or the check
that comes next. A reader that has the lock carries the number of its turn. -/
inductive Act
  | lock (r : Reader)
  | status (r : Reader) (turn : Nat) (kbuf : List Byte)
  | data (r : Reader) (turn : Nat) (kbuf : List Byte)
  | ack (r : Reader) (turn : Nat) (kbuf : List Byte)
  | unlock (r : Reader) (turn : Nat) (kbuf : List Byte)
  | poll (r : Reader)
  | signalPending (r : Reader)
  | copyToUser (r : Reader) (turn : Nat) (kbuf : List Byte)
  | memdupUser (id : Nat) (buf : List Byte)
  | lockWrite (id : Nat) (kbuf : List Byte)
  | leds (id count : Nat) (kbuf : List Byte)
  deriving DecidableEq, Repr

/-- How an action can go: as usual, or a signal is pending, the poll gives up, the host gets
its next byte in during the acknowledgement, the copy to the user fails, or the copy from
the user is refused. -/
inductive Choice
  | go
  | signal
  | timeout
  | offer
  | fault
  | refuse (err : Nat)
  deriving DecidableEq, Repr

/-- One turn of a reader with the lock: the call, what it took from the device, and what it
has returned to its caller of that. -/
structure Turn where
  call : Nat
  took : List Byte := []
  ret : Option (List Byte) := none
  deriving DecidableEq, Repr

/-- The device, short_lock, all that the host has sent, the turns in the order in which the
lock was taken, the number of calls made and the values they returned. -/
structure Core where
  dev : LDDIOState := {}
  locked : Bool := false
  sent : List Byte := []
  turns : List Turn := []
  calls : Nat := 0
  results : List (Nat × Int) := []
  deriving DecidableEq

/-- What the host has sent and the device has not let in. -/
def Core.waiting (c : Core) : List Byte := c.sent.drop (received c.dev.trace).length

def Core.finish (c : Core) (id : Nat) (value : Int) : Core :=
  { c with results := c.results ++ [(id, value)] }

def Core.take (c : Core) (turn : Nat) (kbuf : List Byte) : Core :=
  { c with turns := c.turns.modify turn fun t => { t with took := kbuf } }

def Core.deliver (c : Core) (turn : Nat) (kbuf : List Byte) : Core :=
  { c with turns := c.turns.modify turn fun t => { t with ret := some kbuf } }

/-- What a reader does once it has given the lock back. -/
def afterTake (c : Core) (r : Reader) (turn : Nat) (kbuf : List Byte) : Core × List Act :=
  if kbuf ≠ [] then (c, [.copyToUser r turn kbuf])
  else if r.nonblock then (c.finish r.id (-eagain), [])
  else (c, [.poll r])

/-- One action of data_take, data_read or data_write, and what its call does next. -/
def exec (o : Choice) (c : Core) (a : Act) : Option (Core × List Act) :=
  match a, o with
  | .lock r, .go =>
    if c.locked then none
    else some ({ c with locked := true, turns := c.turns ++ [{ call := r.id }] },
      [.status r c.turns.length []])
  | .lock r, .signal => some (c.finish r.id (-erestartsys), [])
  | .status r turn kbuf, .go =>
    if kbuf.length < r.count && isSet (ioread8 c.dev lddIoStatus) lddIoStatusRxReady then
      some (c, [.data r turn kbuf])
    else some (c, [.unlock r turn kbuf])
  | .data r turn kbuf, .go => some (c, [.ack r turn (kbuf ++ [ioread8 c.dev lddIoData])])
  | .ack r turn kbuf, .go =>
    some ({ c with dev := iowrite8 c.dev lddIoStatusRxReady lddIoStatus [] }, [.status r turn kbuf])
  | .ack r turn kbuf, .offer =>
    some ({ c with dev := iowrite8 c.dev lddIoStatusRxReady lddIoStatus c.waiting },
      [.status r turn kbuf])
  | .unlock r turn kbuf, .go => some (afterTake { c.take turn kbuf with locked := false } r turn kbuf)
  -- readx_poll_timeout reads STATUS until RX_READY is set or the time is up
  | .poll r, .go =>
    if isSet (ioread8 c.dev lddIoStatus) lddIoStatusRxReady then some (c, [.signalPending r])
    else some (c, [.poll r])
  | .poll r, .timeout => some (c, [.signalPending r])
  | .signalPending r, .go => some (c, [.lock r])
  | .signalPending r, .signal => some (c.finish r.id (-erestartsys), [])
  | .copyToUser r turn kbuf, .go => some ((c.deliver turn kbuf).finish r.id kbuf.length, [])
  | .copyToUser r _ _, .fault => some (c.finish r.id (-efault), [])
  | .memdupUser id buf, .go => some (c, [.lockWrite id (buf.take shortMaxWrite)])
  | .memdupUser id _, .refuse err => some (c.finish id (-err), [])
  | .lockWrite id kbuf, .go =>
    if c.locked then none else some ({ c with locked := true }, [.leds id kbuf.length kbuf])
  | .lockWrite id _, .signal => some (c.finish id (-erestartsys), [])
  | .leds id count (byte :: rest), .go =>
    some ({ c with dev := iowrite8 c.dev byte lddIoData [] }, [.leds id count rest])
  | .leds id count [], .go => some ({ c with locked := false }.finish id count, [])
  | _, _ => none

/-! ## The system -/

inductive Call
  | dataRead (count : Nat) (nonblock : Bool)
  | dataWrite (buf : List Byte)
  deriving DecidableEq, Repr

/-- The actions of a call that has just been made. -/
def dataRead (id count : Nat) (nonblock : Bool) : List Act :=
  if count = 0 then [] else [.lock ⟨id, min count kbufSize, nonblock⟩]

abbrev Sys := Pool Core Call Act

/-- A call is made, the host sends a byte, the keyboard delivers the next one, or a call does
its next action. -/
inductive Event
  | dataRead (count : Nat) (nonblock : Bool)
  | dataWrite (buf : List Byte)
  | send (byte : Byte)
  | receive
  | run (i : Nat) (o : Choice)
  deriving DecidableEq, Repr

/-- The host's next byte goes in where there is room. -/
def receiveNext (c : Core) : Option Core :=
  match c.waiting with
  | byte :: _ =>
    if lddIoKeyboardCanReceive c.dev = 1 then
      some { c with dev := lddIoKeyboardReceive c.dev byte }
    else none
  | [] => none

def step (s : Sys) : Event → Option Sys
  | .dataRead count nonblock =>
    let c := { s.core with calls := s.core.calls + 1 }
    some (s.spawn (if count = 0 then c.finish s.core.calls 0 else c)
      ⟨.dataRead count nonblock, dataRead s.core.calls count nonblock⟩)
  | .dataWrite buf =>
    some (s.spawn { s.core with calls := s.core.calls + 1 }
      ⟨.dataWrite buf, [.memdupUser s.core.calls buf]⟩)
  | .send byte => some { s with core := { s.core with sent := s.core.sent ++ [byte] } }
  | .receive => (receiveNext s.core).map fun c => { s with core := c }
  | .run i o => s.run exec i o

/-- A device that has just been reset, with no call made. -/
def start (dev : LDDIOState) : Sys := { core := { dev := lddIoResetEnter dev } }

/-! ## What an action can do -/

/-- The actions of a call that holds short_lock. -/
def inside : Act → Bool
  | .status _ _ _ | .data _ _ _ | .ack _ _ _ | .unlock _ _ _ | .leds _ _ _ => true
  | .lock _ | .poll _ | .signalPending _ | .copyToUser _ _ _ | .memdupUser _ _
  | .lockWrite _ _ => false

/-- The turn whose bytes an action copies to the user. -/
def copyOf : Act → Option Nat
  | .copyToUser _ turn _ => some turn
  | _ => none

/-- The actions, one case for each thing that can happen. -/
inductive Does (c : Core) : Choice → Act → Core → List Act → Prop
  | lock (r : Reader) (hfree : c.locked = false) :
      Does c .go (.lock r) { c with locked := true, turns := c.turns ++ [{ call := r.id }] }
        [.status r c.turns.length []]
  | take (r : Reader) (turn : Nat) (kbuf : List Byte) (hcount : kbuf.length < r.count)
      (hready : c.dev.rxReady = true) :
      Does c .go (.status r turn kbuf) c [.data r turn kbuf]
  | full (r : Reader) (turn : Nat) (kbuf : List Byte) :
      Does c .go (.status r turn kbuf) c [.unlock r turn kbuf]
  | data (r : Reader) (turn : Nat) (kbuf : List Byte) :
      Does c .go (.data r turn kbuf) c [.ack r turn (kbuf ++ [c.dev.dataIn])]
  | ack (o : Choice) (r : Reader) (turn : Nat) (kbuf host : List Byte)
      (hhost : host = [] ∨ host = c.waiting) :
      Does c o (.ack r turn kbuf)
        { c with dev := iowrite8 c.dev lddIoStatusRxReady lddIoStatus host } [.status r turn kbuf]
  | unlock (r : Reader) (turn : Nat) (kbuf : List Byte) (hn : kbuf ≠ []) :
      Does c .go (.unlock r turn kbuf) { c.take turn kbuf with locked := false }
        [.copyToUser r turn kbuf]
  | unlockAgain (r : Reader) (turn : Nat) :
      Does c .go (.unlock r turn [])
        ({ c.take turn [] with locked := false }.finish r.id (-eagain)) []
  | unlockPoll (r : Reader) (turn : Nat) :
      Does c .go (.unlock r turn []) { c.take turn [] with locked := false } [.poll r]
  | goOn (o : Choice) (a b : Act) (ha : inside a = false) (hcopy : copyOf a = none)
      (hb : inside b = false) (hcopy' : copyOf b = none) : Does c o a c [b]
  | copy (r : Reader) (turn : Nat) (kbuf : List Byte) :
      Does c .go (.copyToUser r turn kbuf) ((c.deliver turn kbuf).finish r.id kbuf.length) []
  | fault (r : Reader) (turn : Nat) (kbuf : List Byte) :
      Does c .fault (.copyToUser r turn kbuf) (c.finish r.id (-efault)) []
  | fail (o : Choice) (a : Act) (id : Nat) (value : Int) (ha : inside a = false)
      (hcopy : copyOf a = none) : Does c o a (c.finish id value) []
  | lockWrite (id : Nat) (kbuf : List Byte) (hfree : c.locked = false) :
      Does c .go (.lockWrite id kbuf) { c with locked := true } [.leds id kbuf.length kbuf]
  | led (id count : Nat) (byte : Byte) (rest : List Byte) :
      Does c .go (.leds id count (byte :: rest))
        { c with dev := iowrite8 c.dev byte lddIoData [] } [.leds id count rest]
  | unlockWrite (id count : Nat) :
      Does c .go (.leds id count []) ({ c with locked := false }.finish id count) []

theorem exec_does {o : Choice} {c c' : Core} {a : Act} {pushed : List Act}
    (h : exec o c a = some (c', pushed)) : Does c o a c' pushed := by
  unfold exec at h
  split at h
  case h_1 r =>
    split at h
    · cases h
    · next hfree =>
      cases h
      exact .lock r (Bool.eq_false_iff.mpr hfree)
  case h_3 r turn kbuf =>
    split at h
    · next htake =>
      cases h
      rw [ioread8_status, Bool.and_eq_true, decide_eq_true_eq] at htake
      exact .take r turn kbuf htake.1 htake.2
    · cases h
      exact .full r turn kbuf
  case h_4 r turn kbuf =>
    rw [ioread8_data] at h
    cases h
    exact .data r turn kbuf
  case h_5 r turn kbuf =>
    cases h
    exact .ack _ r turn kbuf _ (.inl rfl)
  case h_6 r turn kbuf =>
    cases h
    exact .ack _ r turn kbuf _ (.inr rfl)
  case h_7 r turn kbuf =>
    unfold afterTake at h
    split at h
    · next hn =>
      cases h
      exact .unlock r turn kbuf hn
    · next hn =>
      obtain rfl : kbuf = [] := not_not.mp hn
      split at h <;> cases h
      · exact .unlockAgain r turn
      · exact .unlockPoll r turn
  case h_8 r =>
    split at h <;> cases h
    · exact .goOn _ _ _ rfl rfl rfl rfl
    · exact .goOn _ _ _ rfl rfl rfl rfl
  case h_12 r turn kbuf =>
    cases h
    exact .copy r turn kbuf
  case h_13 r turn kbuf =>
    cases h
    exact .fault r turn kbuf
  case h_16 id kbuf =>
    split at h
    · cases h
    · next hfree =>
      cases h
      exact .lockWrite id kbuf (Bool.eq_false_iff.mpr hfree)
  case h_18 id count byte rest =>
    cases h
    exact .led id count byte rest
  case h_19 id count =>
    cases h
    exact .unlockWrite id count
  case h_20 => cases h
  all_goals
    cases h
    first
    | exact .goOn _ _ _ rfl rfl rfl rfl
    | exact .fail _ _ _ _ rfl rfl

end LinuxDeviceDriver.Drivers.Short.DataNode
