/- source: examples/21_usb_skel/main.c, lines 25 to 278 and 372 to 396; examples/21_usb_skel/main.h
   digest: The driver usb_skel step by step: opens, closes, reads, writes and polls of any number of
     files, the completion handler of the tick URB, and one disconnect. -/

import Mathlib.Logic.Function.Basic
import LinuxDeviceDriver.Drivers.CharFile
import LinuxDeviceDriver.Lib.RefCount
import LinuxDeviceDriver.Lib.Resubmission
import LinuxDeviceDriver.Lib.Threads

set_option autoImplicit false

namespace LinuxDeviceDriver.Drivers.UsbSkel.Model

open Lib.LittleEndian (Byte)
open Lib.RefCount (Object)
open Lib.Resubmission (Request)
open Lib.Threads (Pool Thread)
open CharFile

def lddUsbTickLen : Nat := 8

def epollIn : Int := 0x41
def epollHup : Int := 0x18

/-- The steps of skel_disconnect. -/
inductive Unplug
  | usbDeregisterDev
  | mutexLock
  | setDisconnected
  | mutexUnlock
  | usbKillUrb
  | killWait
  | wakeUp
  | clearIntfdata
  | krefPut
  deriving DecidableEq, Repr

def skelDisconnect : List Unplug :=
  [.usbDeregisterDev, .mutexLock, .setDisconnected, .mutexUnlock, .usbKillUrb, .killWait, .wakeUp,
    .clearIntfdata, .krefPut]

/-- What decides how long the structure and the tick URB live. The references of dev are those of
its kref; opening counts the opens that the USB core has in progress. Then, for the record: what
disconnect has done, how many files were open when it set disconnected, and whether the URB was
lost outside a kill, because it was not resubmitted. -/
structure Skel where
  dev : Object := { refs := 1 }
  ioMutex : Bool := false
  disconnected : Bool := false
  openCount : Int := 0
  tickUrb : Request := {}
  registered : Bool := true
  intfdata : Bool := true
  opening : Nat := 0
  files : List Nat := []
  unplugging : Bool := false
  done : List Unplug := []
  openAtDisconnect : Int := 0
  lost : Bool := false

/-- With the data: the ticks counted, and for each file those it has seen; the buffer for what is
read; the intervals submitted; what every call returned. -/
structure Core extends Skel where
  ticks : BitVec 32 := 0
  bulkInSize : Nat
  bulkInBuffer : List Byte
  seen : Nat → BitVec 32 := fun _ => 0
  writes : List (BitVec 32) := []
  opened : Nat := 0
  calls : Nat := 0
  returned : List (Nat × Int) := []

structure Read where
  id : Nat
  file : Nat
  nonblock : Bool
  count : BitVec 64

/-- What is written is a number, or is refused by kstrtouint_from_user. -/
structure Write where
  id : Nat
  file : Nat
  count : Nat
  parsed : Except Int (BitVec 32)

/-- What a call, or the completion of the URB, does next. -/
inductive Act
  | openFind (id file : Nat)
  | openLock (id file : Nat)
  | openCheck (id file : Nat)
  | openSubmit (id file : Nat)
  | openUncount (id file : Nat) (err : Int)
  | openUnlock (id file : Nat) (err : Int)
  | openGet (id file : Nat)
  | openSeen (id file : Nat)
  | closeLock (id : Nat)
  | closeCount (id : Nat)
  | closeKill (id : Nat)
  | closeWait (id : Nat)
  | closeUnlock (id : Nat)
  | closePut (id : Nat)
  | readWait (r : Read)
  | readTicks (r : Read)
  | readLock (r : Read) (ticks : BitVec 32)
  | readCheck (r : Read) (ticks : BitVec 32)
  | readBulk (r : Read) (ticks : BitVec 32)
  | readLine (r : Read) (ticks : BitVec 32) (actual : Nat)
  | readCopy (r : Read) (ticks : BitVec 32) (len : BitVec 64)
  | readUnlock (r : Read) (err : Int)
  | writeParse (w : Write)
  | writeFill (w : Write) (interval : BitVec 32)
  | writeLock (w : Write) (interval : BitVec 32)
  | writeCheck (w : Write) (interval : BitVec 32)
  | writeSubmit (w : Write) (interval : BitVec 32)
  | writeUnlock (w : Write) (err : Int)
  | pollTicks (id file : Nat)
  | pollGone (id file : Nat) (mask : Int)
  | tickComplete (status : Int) (actualLength : Nat) (word : BitVec 32)
  | tickResubmit
  | tickReport
  | giveBack
  | unplug (id : Nat) (todo : List Unplug)

/-- How a step can go: as usual, or a signal is pending, or a kernel service fails, or the device
sends these bytes. -/
inductive Choice
  | go
  | signal
  | fails (err : Int)
  | bulk (data : List Byte)

def failure (err : Int) : Int := if err < 0 then err else -eio

def usbSubmitUrb (o : Choice) (urb : Request) : Request × Int :=
  if urb.active then (urb, -ebusy)
  else if 0 < urb.rejects then (urb, -eperm)
  else
    match o with
    | .fails err => (urb, failure err)
    | _ => (urb.submit, 0)

/-- usb_kill_urb() or the loss of the device. -/
def unlinked (status : Int) : Bool :=
  status == -econnreset || status == -enoent || status == -eshutdown

def strnlen (buf : List Byte) (n : Nat) : Nat := ((buf.take n).takeWhile (· ≠ 0)).length

/-- Where skel_read puts its newline. -/
def newlineAt (size : Nat) (len : BitVec 64) : BitVec 64 :=
  if len = BitVec.ofNat 64 size then len - 1 else len

namespace Core

def ret (c : Core) (id : Nat) (value : Int) : Core :=
  { c with returned := c.returned ++ [(id, value)] }

/-- skel_open returns to the USB core. -/
def openReturns (c : Core) (id : Nat) (value : Int) : Core :=
  { c with opening := c.opening - 1 }.ret id value

def lock (c : Core) (b : Act) : Option (Core × List Act) :=
  if c.ioMutex then none else some ({ c with ioMutex := true }, [b])

def unlock (c : Core) : Core := { c with ioMutex := false }

/-- The newline goes into the buffer; what is to be copied ends after it, or earlier. -/
def line (c : Core) (r : Read) (actual : Nat) : Core × BitVec 64 :=
  let nl := newlineAt c.bulkInSize (BitVec.ofNat 64 (strnlen c.bulkInBuffer actual))
  ({ c with bulkInBuffer := c.bulkInBuffer.set nl.toNat 10 },
    if nl + 1 ≤ r.count then nl + 1 else r.count)

end Core

def unplugStep (k : Skel) : Unplug → Option Skel
  -- waits for the opens that are in progress
  | .usbDeregisterDev => if k.opening = 0 then some { k with registered := false } else none
  | .mutexLock => if k.ioMutex then none else some { k with ioMutex := true }
  | .setDisconnected => some { k with disconnected := true, openAtDisconnect := k.openCount }
  | .mutexUnlock => some { k with ioMutex := false }
  | .usbKillUrb => some { k with tickUrb := k.tickUrb.kill }
  | .killWait => if k.tickUrb.uses = 0 then some { k with tickUrb := k.tickUrb.killed } else none
  | .wakeUp => some k
  | .clearIntfdata => some { k with intfdata := false }
  | .krefPut => some { k with dev := k.dev.put }

/-- One step, apart from the access to the structure. -/
def act (o : Choice) (c : Core) : Act → Option (Core × List Act)
  | .openFind id file =>
    if c.intfdata then
      match o with
      -- no interface with this minor, or no memory for the file
      | .fails err => some (c.openReturns id (if err = -enodev then -enodev else -enomem), [])
      | _ => some (c, [.openLock id file])
    else some (c.openReturns id (-enodev), [])
  | .openLock id file => c.lock (.openCheck id file)
  | .openCheck id file =>
    if c.disconnected then some (c, [.openUnlock id file (-enodev)])
    else
      some ({ c with openCount := c.openCount + 1 },
        [if c.openCount = 0 then .openSubmit id file else .openUnlock id file 0])
  | .openSubmit id file =>
    let r := usbSubmitUrb o c.tickUrb
    some ({ c with tickUrb := r.1 },
      [if r.2 ≠ 0 then .openUncount id file r.2 else .openUnlock id file 0])
  | .openUncount id file err =>
    some ({ c with openCount := c.openCount - 1 }, [.openUnlock id file err])
  | .openUnlock id file err =>
    if err ≠ 0 then some (c.unlock.openReturns id err, []) else some (c.unlock, [.openGet id file])
  | .openGet id file => some ({ c with dev := c.dev.get }, [.openSeen id file])
  | .openSeen id file =>
    some ({ c with
      files := file :: c.files
      seen := Function.update c.seen file c.ticks }.openReturns id 0, [])
  | .closeLock id => c.lock (.closeCount id)
  | .closeCount id =>
    some ({ c with openCount := c.openCount - 1 },
      [if c.openCount - 1 = 0 ∧ c.disconnected = false then .closeKill id else .closeUnlock id])
  | .closeKill id => some ({ c with tickUrb := c.tickUrb.kill }, [.closeWait id])
  | .closeWait id =>
    if c.tickUrb.uses = 0 then some ({ c with tickUrb := c.tickUrb.killed }, [.closeUnlock id])
    else none
  | .closeUnlock id => some (c.unlock, [.closePut id])
  | .closePut id => some ({ c with dev := c.dev.put }.ret id 0, [])
  | .readWait r =>
    if r.nonblock then
      if c.ticks = c.seen r.file then some (c.ret r.id (-eagain), []) else some (c, [.readTicks r])
    else if c.ticks ≠ c.seen r.file ∨ c.disconnected = true then some (c, [.readTicks r])
    else
      match o with
      | .signal => some (c.ret r.id (-erestartsys), [])
      | _ => none
  | .readTicks r => some (c, [.readLock r c.ticks])
  | .readLock r ticks =>
    match o with
    | .signal => some (c.ret r.id (-erestartsys), [])
    | _ => c.lock (.readCheck r ticks)
  | .readCheck r ticks =>
    some (c, [if c.disconnected then .readUnlock r (-enodev) else .readBulk r ticks])
  | .readBulk r ticks =>
    match o with
    | .fails err => some (c, [.readUnlock r (failure err)])
    | .bulk data =>
      if data.length ≤ c.bulkInSize then
        some ({ c with bulkInBuffer := data ++ c.bulkInBuffer.drop data.length },
          [.readLine r ticks data.length])
      else none
    | _ => none
  | .readLine r ticks actual => some ((c.line r actual).1, [.readCopy r ticks (c.line r actual).2])
  | .readCopy r ticks len =>
    match o with
    | .fails _ => some (c, [.readUnlock r (-efault)])
    | _ =>
      some ({ c with seen := Function.update c.seen r.file ticks },
        [.readUnlock r (len.truncate 32).toInt])
  | .readUnlock r err => some (c.unlock.ret r.id err, [])
  | .writeParse w =>
    match w.parsed, o with
    | .error err, _ => some (c.ret w.id (failure err), [])
    | .ok _, .fails _ => some (c.ret w.id (-enomem), [])
    | .ok interval, _ => some (c, [.writeFill w interval])
  | .writeFill w interval => some (c, [.writeLock w interval])
  | .writeLock w interval => c.lock (.writeCheck w interval)
  | .writeCheck w interval =>
    some (c, [if c.disconnected then .writeUnlock w (-enodev) else .writeSubmit w interval])
  | .writeSubmit w interval =>
    match o with
    | .fails err => some (c, [.writeUnlock w (failure err)])
    | _ => some ({ c with writes := c.writes ++ [interval] }, [.writeUnlock w 0])
  | .writeUnlock w err => some (c.unlock.ret w.id (if err ≠ 0 then err else w.count), [])
  | .pollTicks id file =>
    some (c, [.pollGone id file (if c.ticks ≠ c.seen file then epollIn else 0)])
  | .pollGone id _ mask => some (c.ret id (mask + if c.disconnected then epollHup else 0), [])
  | .tickComplete status actualLength word =>
    if status = 0 then
      some (if actualLength = lddUsbTickLen ∧ word = 1 then { c with ticks := c.ticks + 1 } else c,
        [.tickResubmit])
    else some (c, [if unlinked status then .giveBack else .tickResubmit])
  | .tickResubmit =>
    let r := usbSubmitUrb o c.tickUrb
    some ({ c with
      tickUrb := r.1
      lost := c.lost || decide (r.2 ≠ 0 ∧ c.tickUrb.rejects = 0) },
      [if r.2 ≠ 0 ∧ r.2 ≠ -eperm then .tickReport else .giveBack])
  | .tickReport => some (c, [.giveBack])
  | .giveBack => some ({ c with tickUrb := c.tickUrb.giveBack }, [])
  | .unplug id (x :: todo) =>
    (unplugStep c.toSkel x).map fun k =>
      let c' := { c with toSkel := { k with done := k.done ++ [x] } }
      if todo.isEmpty then (c'.ret id 0, []) else (c', [.unplug id todo])
  | .unplug _ [] => none

/-- The step uses the structure. The handler of an URB that was unlinked does not, nor does what
needs only the interface, the URB or the file. -/
def Act.touches : Act → Bool
  | .openFind _ _ | .writeParse _ | .tickResubmit | .giveBack => false
  | .tickComplete status _ _ => !unlinked status
  | .unplug _ (.usbDeregisterDev :: _) | .unplug _ (.clearIntfdata :: _) => false
  | _ => true

/-- One step. -/
def exec (o : Choice) (c : Core) (a : Act) : Option (Core × List Act) :=
  act o (if a.touches then { c with dev := c.dev.use } else c) a

/-! ## Runs -/

abbrev System := Pool Core Unit Act

inductive Event
  | openFile
  | close (file : Nat)
  | read (file : Nat) (nonblock : Bool) (count : BitVec 64)
  | write (file count : Nat) (parsed : Except Int (BitVec 32))
  | poll (file : Nat)
  | disconnect
  | complete (status : Int) (actualLength : Nat) (word : BitVec 32)
  | step (thread : Nat) (o : Choice)

/-- The file that a read, write or poll is made on. -/
def Act.file : Act → Option Nat
  | .readWait r | .readTicks r | .readLock r _ | .readCheck r _ | .readBulk r _ | .readLine r _ _
  | .readCopy r _ _ | .readUnlock r _ => some r.file
  | .writeParse w | .writeFill w _ | .writeLock w _ | .writeCheck w _ | .writeSubmit w _
  | .writeUnlock w _ => some w.file
  | .pollTicks _ file | .pollGone _ file _ => some file
  | _ => none

def System.start (s : System) (c : Core) (a : Act) : System :=
  s.spawn { c with calls := s.core.calls + 1 } ⟨(), [a]⟩

/-- No call on the file is in progress. -/
def System.unused (s : System) (file : Nat) : Bool :=
  s.threads.all fun t => t.todo.all fun a => a.file.all fun f => f != file

/-- A call on an open file. -/
def System.call (s : System) (file : Nat) (a : Act) : Option System :=
  if file ∈ s.core.files then some (s.start s.core a) else none

/-- A file is opened while the minor is registered, and closed by its last user; calls are made on
open files; the device is disconnected once; the active URB completes with any status; or some
thread goes on. -/
def next (s : System) : Event → Option System
  | .openFile =>
    if s.core.registered then
      some (s.start { s.core with opened := s.core.opened + 1, opening := s.core.opening + 1 }
        (.openFind s.core.calls s.core.opened))
    else none
  | .close file =>
    if file ∈ s.core.files ∧ s.unused file = true then
      some (s.start { s.core with files := s.core.files.erase file } (.closeLock s.core.calls))
    else none
  | .read file nonblock count => s.call file (.readWait ⟨s.core.calls, file, nonblock, count⟩)
  | .write file count parsed => s.call file (.writeParse ⟨s.core.calls, file, count, parsed⟩)
  | .poll file => s.call file (.pollTicks s.core.calls file)
  | .disconnect =>
    if s.core.unplugging then none
    else some (s.start { s.core with unplugging := true } (.unplug s.core.calls skelDisconnect))
  | .complete status actualLength word =>
    if s.core.tickUrb.active then
      some (s.spawn { s.core with
        tickUrb := s.core.tickUrb.complete
        lost := s.core.lost || (unlinked status && s.core.tickUrb.rejects == 0) }
        ⟨(), [.tickComplete status actualLength word]⟩)
    else none
  | .step i o => s.run exec i o

/-! ## What a step can do -/

/-- The mutex is held. -/
def Act.inside : Act → Bool
  | .openCheck _ _ | .openSubmit _ _ | .openUncount _ _ _ | .openUnlock _ _ _ => true
  | .closeCount _ | .closeKill _ | .closeWait _ | .closeUnlock _ => true
  | .readCheck _ _ | .readBulk _ _ | .readLine _ _ _ | .readCopy _ _ _ | .readUnlock _ _ => true
  | .writeCheck _ _ | .writeSubmit _ _ | .writeUnlock _ _ => true
  | .unplug _ (.setDisconnected :: _) | .unplug _ (.mutexUnlock :: _) => true
  | _ => false

/-- The steps as they matter to the lifetimes; those of a read, write or poll are one of four
kinds. -/
inductive Does (k : Skel) : Act → Skel → List Act → Prop
  | works (a b : Act) (file : Nat) (ha : a.file = some file) (hb : b.file = some file)
      (hin : b.inside = a.inside) : Does k a k [b]
  | returns (a : Act) (file : Nat) (ha : a.file = some file) (hin : a.inside = false) :
      Does k a k []
  | takes (a b : Act) (file : Nat) (ha : a.file = some file) (hb : b.file = some file)
      (hin : a.inside = false ∧ b.inside = true) (hfree : k.ioMutex = false) :
      Does k a { k with ioMutex := true } [b]
  | gives (a : Act) (file : Nat) (ha : a.file = some file) (hin : a.inside = true) :
      Does k a { k with ioMutex := false } []
  | openFails (id file : Nat) : Does k (.openFind id file) { k with opening := k.opening - 1 } []
  | openFinds (id file : Nat) : Does k (.openFind id file) k [.openLock id file]
  | openLocks (id file : Nat) (hfree : k.ioMutex = false) :
      Does k (.openLock id file) { k with ioMutex := true } [.openCheck id file]
  | openRefused (id file : Nat) : Does k (.openCheck id file) k [.openUnlock id file (-enodev)]
  | openFirst (id file : Nat) (hcount : k.openCount = 0) :
      Does k (.openCheck id file) { k with openCount := k.openCount + 1 } [.openSubmit id file]
  | openMore (id file : Nat) (hcount : k.openCount ≠ 0) :
      Does k (.openCheck id file) { k with openCount := k.openCount + 1 } [.openUnlock id file 0]
  | openSubmits (id file : Nat) :
      Does k (.openSubmit id file) { k with tickUrb := k.tickUrb.submit } [.openUnlock id file 0]
  | openStuck (id file : Nat) (err : Int) (herr : err ≠ 0) :
      Does k (.openSubmit id file) k [.openUncount id file err]
  | openUncounts (id file : Nat) (err : Int) :
      Does k (.openUncount id file err) { k with openCount := k.openCount - 1 }
        [.openUnlock id file err]
  | openGivesUp (id file : Nat) (err : Int) (herr : err ≠ 0) :
      Does k (.openUnlock id file err) { k with ioMutex := false, opening := k.opening - 1 } []
  | openPasses (id file : Nat) :
      Does k (.openUnlock id file 0) { k with ioMutex := false } [.openGet id file]
  | openGets (id file : Nat) :
      Does k (.openGet id file) { k with dev := k.dev.get } [.openSeen id file]
  | opened (id file : Nat) :
      Does k (.openSeen id file) { k with files := file :: k.files, opening := k.opening - 1 } []
  | closeLocks (id : Nat) (hfree : k.ioMutex = false) :
      Does k (.closeLock id) { k with ioMutex := true } [.closeCount id]
  | closeLast (id : Nat) (hcount : k.openCount - 1 = 0) (hthere : k.disconnected = false) :
      Does k (.closeCount id) { k with openCount := k.openCount - 1 } [.closeKill id]
  | closeMore (id : Nat) (hmore : ¬(k.openCount - 1 = 0 ∧ k.disconnected = false)) :
      Does k (.closeCount id) { k with openCount := k.openCount - 1 } [.closeUnlock id]
  | closeKills (id : Nat) :
      Does k (.closeKill id) { k with tickUrb := k.tickUrb.kill } [.closeWait id]
  | closeKilled (id : Nat) (hwaited : k.tickUrb.uses = 0) :
      Does k (.closeWait id) { k with tickUrb := k.tickUrb.killed } [.closeUnlock id]
  | closeUnlocks (id : Nat) :
      Does k (.closeUnlock id) { k with ioMutex := false } [.closePut id]
  | closed (id : Nat) : Does k (.closePut id) { k with dev := k.dev.put } []
  | tickGoes (status : Int) (actualLength : Nat) (word : BitVec 32)
      (hstatus : unlinked status = false) :
      Does k (.tickComplete status actualLength word) k [.tickResubmit]
  | tickEnds (status : Int) (actualLength : Nat) (word : BitVec 32)
      (hstatus : unlinked status = true) :
      Does k (.tickComplete status actualLength word) k [.giveBack]
  | tickSubmits (hidle : k.tickUrb.active = false) :
      Does k .tickResubmit { k with tickUrb := k.tickUrb.submit } [.giveBack]
  | tickFails (b : Act) (hb : b = .tickReport ∨ b = .giveBack) :
      Does k .tickResubmit { k with lost := k.lost || decide (k.tickUrb.rejects = 0) } [b]
  | tickReports : Does k .tickReport k [.giveBack]
  | givesBack : Does k .giveBack { k with tickUrb := k.tickUrb.giveBack } []
  | unplugs (id : Nat) (x : Unplug) (todo : List Unplug) (k' : Skel) (pushed : List Act)
      (h : unplugStep k x = some k')
      (hpushed : pushed = [.unplug id todo] ∨ (pushed = [] ∧ todo = [])) :
      Does k (.unplug id (x :: todo)) { k' with done := k'.done ++ [x] } pushed

section Inversion

variable {o : Choice} {c c' : Core} {pushed : List Act}

theorem usbSubmitUrb_cases (o : Choice) (urb : Request) :
    (urb.active = false ∧ usbSubmitUrb o urb = (urb.submit, 0)) ∨
      ((usbSubmitUrb o urb).1 = urb ∧ (usbSubmitUrb o urb).2 ≠ 0) := by
  have hbusy : -ebusy ≠ 0 := by decide
  have hperm : -eperm ≠ 0 := by decide
  unfold usbSubmitUrb
  split
  · exact .inr ⟨rfl, hbusy⟩
  · next hactive =>
    split
    · exact .inr ⟨rfl, hperm⟩
    · split
      · refine .inr ⟨rfl, ?_⟩
        dsimp only [failure]
        split
        · omega
        · decide
      · exact .inl ⟨by simpa using hactive, rfl⟩

theorem lock_does {b : Act} (h : c.lock b = some (c', pushed)) :
    c.ioMutex = false ∧ c' = { c with ioMutex := true } ∧ pushed = [b] := by
  obtain ⟨hfree, heq⟩ := Option.ite_none_left_eq_some.mp h
  obtain ⟨rfl, rfl⟩ := Prod.mk.inj (Option.some.inj heq)
  exact ⟨by simpa using hfree, rfl, rfl⟩

theorem open_does {id file : Nat} (h : act o c (.openFind id file) = some (c', pushed)) :
    Does c.toSkel (.openFind id file) c'.toSkel pushed := by
  unfold act at h
  dsimp only at h
  split at h
  · split at h
    · obtain ⟨rfl, rfl⟩ := Prod.mk.inj (Option.some.inj h)
      exact .openFails id file
    · obtain ⟨rfl, rfl⟩ := Prod.mk.inj (Option.some.inj h)
      exact .openFinds id file
  · obtain ⟨rfl, rfl⟩ := Prod.mk.inj (Option.some.inj h)
    exact .openFails id file

theorem check_does {id file : Nat} (h : act o c (.openCheck id file) = some (c', pushed)) :
    Does c.toSkel (.openCheck id file) c'.toSkel pushed := by
  unfold act at h
  dsimp only at h
  split at h
  · obtain ⟨rfl, rfl⟩ := Prod.mk.inj (Option.some.inj h)
    exact .openRefused id file
  · obtain ⟨rfl, rfl⟩ := Prod.mk.inj (Option.some.inj h)
    split
    · next hcount => exact .openFirst id file hcount
    · next hcount => exact .openMore id file hcount

theorem submit_does {id file : Nat} (h : act o c (.openSubmit id file) = some (c', pushed)) :
    Does c.toSkel (.openSubmit id file) c'.toSkel pushed := by
  obtain ⟨rfl, rfl⟩ := Prod.mk.inj (Option.some.inj h)
  rcases usbSubmitUrb_cases o c.tickUrb with ⟨-, hsubmit⟩ | ⟨hsame, herr⟩
  · rw [hsubmit, if_neg (fun hne => hne rfl)]
    exact .openSubmits id file
  · rw [hsame, if_pos herr]
    exact .openStuck id file _ herr

theorem unlock_does {id file : Nat} {err : Int}
    (h : act o c (.openUnlock id file err) = some (c', pushed)) :
    Does c.toSkel (.openUnlock id file err) c'.toSkel pushed := by
  unfold act at h
  dsimp only at h
  split at h
  · next herr =>
    obtain ⟨rfl, rfl⟩ := Prod.mk.inj (Option.some.inj h)
    exact .openGivesUp id file err herr
  · next herr =>
    obtain rfl : err = 0 := by simpa using herr
    obtain ⟨rfl, rfl⟩ := Prod.mk.inj (Option.some.inj h)
    exact .openPasses id file

theorem count_does {id : Nat} (h : act o c (.closeCount id) = some (c', pushed)) :
    Does c.toSkel (.closeCount id) c'.toSkel pushed := by
  obtain ⟨rfl, rfl⟩ := Prod.mk.inj (Option.some.inj h)
  split
  · next hlast => exact .closeLast id hlast.1 hlast.2
  · next hmore => exact .closeMore id hmore

theorem wait_does {r : Read} (h : act o c (.readWait r) = some (c', pushed)) :
    Does c.toSkel (.readWait r) c'.toSkel pushed := by
  unfold act at h
  dsimp only at h
  split at h
  · split at h
    · obtain ⟨rfl, rfl⟩ := Prod.mk.inj (Option.some.inj h)
      exact .returns _ r.file rfl rfl
    · obtain ⟨rfl, rfl⟩ := Prod.mk.inj (Option.some.inj h)
      exact .works _ _ r.file rfl rfl rfl
  · split at h
    · obtain ⟨rfl, rfl⟩ := Prod.mk.inj (Option.some.inj h)
      exact .works _ _ r.file rfl rfl rfl
    · split at h
      · obtain ⟨rfl, rfl⟩ := Prod.mk.inj (Option.some.inj h)
        exact .returns _ r.file rfl rfl
      · cases h

theorem readLock_does {r : Read} {ticks : BitVec 32}
    (h : act o c (.readLock r ticks) = some (c', pushed)) :
    Does c.toSkel (.readLock r ticks) c'.toSkel pushed := by
  unfold act at h
  dsimp only at h
  split at h
  · obtain ⟨rfl, rfl⟩ := Prod.mk.inj (Option.some.inj h)
    exact .returns _ r.file rfl rfl
  · obtain ⟨hfree, rfl, rfl⟩ := lock_does h
    exact .takes _ _ r.file rfl rfl ⟨rfl, rfl⟩ hfree

theorem bulk_does {r : Read} {ticks : BitVec 32}
    (h : act o c (.readBulk r ticks) = some (c', pushed)) :
    Does c.toSkel (.readBulk r ticks) c'.toSkel pushed := by
  unfold act at h
  dsimp only at h
  split at h
  · obtain ⟨rfl, rfl⟩ := Prod.mk.inj (Option.some.inj h)
    exact .works _ _ r.file rfl rfl rfl
  · obtain ⟨-, heq⟩ := Option.ite_none_right_eq_some.mp h
    obtain ⟨rfl, rfl⟩ := Prod.mk.inj (Option.some.inj heq)
    exact .works _ _ r.file rfl rfl rfl
  · cases h

theorem copy_does {r : Read} {ticks : BitVec 32} {len : BitVec 64}
    (h : act o c (.readCopy r ticks len) = some (c', pushed)) :
    Does c.toSkel (.readCopy r ticks len) c'.toSkel pushed := by
  unfold act at h
  dsimp only at h
  split at h <;>
  · obtain ⟨rfl, rfl⟩ := Prod.mk.inj (Option.some.inj h)
    exact .works _ _ r.file rfl rfl rfl

theorem parse_does {w : Write} (h : act o c (.writeParse w) = some (c', pushed)) :
    Does c.toSkel (.writeParse w) c'.toSkel pushed := by
  unfold act at h
  dsimp only at h
  split at h
  · obtain ⟨rfl, rfl⟩ := Prod.mk.inj (Option.some.inj h)
    exact .returns _ w.file rfl rfl
  · obtain ⟨rfl, rfl⟩ := Prod.mk.inj (Option.some.inj h)
    exact .returns _ w.file rfl rfl
  · obtain ⟨rfl, rfl⟩ := Prod.mk.inj (Option.some.inj h)
    exact .works _ _ w.file rfl rfl rfl

theorem write_does {w : Write} {interval : BitVec 32}
    (h : act o c (.writeSubmit w interval) = some (c', pushed)) :
    Does c.toSkel (.writeSubmit w interval) c'.toSkel pushed := by
  unfold act at h
  dsimp only at h
  split at h <;>
  · obtain ⟨rfl, rfl⟩ := Prod.mk.inj (Option.some.inj h)
    exact .works _ _ w.file rfl rfl rfl

theorem complete_does {status : Int} {actualLength : Nat} {word : BitVec 32}
    (h : act o c (.tickComplete status actualLength word) = some (c', pushed)) :
    Does c.toSkel (.tickComplete status actualLength word) c'.toSkel pushed := by
  unfold act at h
  dsimp only at h
  split at h
  · next hstatus =>
    subst hstatus
    obtain ⟨rfl, rfl⟩ := Prod.mk.inj (Option.some.inj h)
    split
    · exact .tickGoes 0 actualLength word rfl
    · exact .tickGoes 0 actualLength word rfl
  · obtain ⟨rfl, rfl⟩ := Prod.mk.inj (Option.some.inj h)
    cases hstatus : unlinked status with
    | true => exact .tickEnds status actualLength word hstatus
    | false => exact .tickGoes status actualLength word hstatus

theorem resubmit_does (h : act o c .tickResubmit = some (c', pushed)) :
    Does c.toSkel .tickResubmit c'.toSkel pushed := by
  obtain ⟨rfl, rfl⟩ := Prod.mk.inj (Option.some.inj h)
  rcases usbSubmitUrb_cases o c.tickUrb with ⟨hidle, hsubmit⟩ | ⟨hsame, herr⟩
  · rw [hsubmit]
    have hkept : (c.lost || decide ((0 : Int) ≠ 0 ∧ c.tickUrb.rejects = 0)) = c.lost := by simp
    dsimp only
    rw [hkept, if_neg (fun hne => hne.1 rfl)]
    exact .tickSubmits hidle
  · have hlost : decide ((usbSubmitUrb o c.tickUrb).2 ≠ 0 ∧ c.tickUrb.rejects = 0) =
        decide (c.tickUrb.rejects = 0) := by
      rw [decide_eq_decide]
      exact and_iff_right herr
    rw [hsame, hlost]
    split
    · exact .tickFails _ (.inl rfl)
    · exact .tickFails _ (.inr rfl)

theorem unplug_does {id : Nat} {todo : List Unplug}
    (h : act o c (.unplug id todo) = some (c', pushed)) :
    Does c.toSkel (.unplug id todo) c'.toSkel pushed := by
  cases todo with
  | nil => cases h
  | cons x todo =>
    obtain ⟨k, hstep, heq⟩ := Option.map_eq_some_iff.mp h
    cases todo with
    | nil =>
      obtain ⟨rfl, rfl⟩ := Prod.mk.inj heq
      exact .unplugs id x [] k [] hstep (.inr ⟨rfl, rfl⟩)
    | cons y todo =>
      obtain ⟨rfl, rfl⟩ := Prod.mk.inj heq
      exact .unplugs id x (y :: todo) k _ hstep (.inl rfl)

theorem act_does {a : Act} (h : act o c a = some (c', pushed)) :
    Does c.toSkel a c'.toSkel pushed := by
  cases a with
  | openFind id file => exact open_does h
  | openLock id file =>
    obtain ⟨hfree, rfl, rfl⟩ := lock_does h
    exact .openLocks id file hfree
  | openCheck id file => exact check_does h
  | openSubmit id file => exact submit_does h
  | openUncount id file err =>
    obtain ⟨rfl, rfl⟩ := Prod.mk.inj (Option.some.inj h)
    exact .openUncounts id file err
  | openUnlock id file err => exact unlock_does h
  | openGet id file =>
    obtain ⟨rfl, rfl⟩ := Prod.mk.inj (Option.some.inj h)
    exact .openGets id file
  | openSeen id file =>
    obtain ⟨rfl, rfl⟩ := Prod.mk.inj (Option.some.inj h)
    exact .opened id file
  | closeLock id =>
    obtain ⟨hfree, rfl, rfl⟩ := lock_does h
    exact .closeLocks id hfree
  | closeCount id => exact count_does h
  | closeKill id =>
    obtain ⟨rfl, rfl⟩ := Prod.mk.inj (Option.some.inj h)
    exact .closeKills id
  | closeWait id =>
    obtain ⟨hwaited, heq⟩ := Option.ite_none_right_eq_some.mp h
    obtain ⟨rfl, rfl⟩ := Prod.mk.inj (Option.some.inj heq)
    exact .closeKilled id hwaited
  | closeUnlock id =>
    obtain ⟨rfl, rfl⟩ := Prod.mk.inj (Option.some.inj h)
    exact .closeUnlocks id
  | closePut id =>
    obtain ⟨rfl, rfl⟩ := Prod.mk.inj (Option.some.inj h)
    exact .closed id
  | readWait r => exact wait_does h
  | readTicks r | readLine r ticks actual =>
    obtain ⟨rfl, rfl⟩ := Prod.mk.inj (Option.some.inj h)
    exact .works _ _ r.file rfl rfl rfl
  | readLock r ticks => exact readLock_does h
  | readCheck r ticks =>
    obtain ⟨rfl, rfl⟩ := Prod.mk.inj (Option.some.inj h)
    split <;> exact .works _ _ r.file rfl rfl rfl
  | readBulk r ticks => exact bulk_does h
  | readCopy r ticks len => exact copy_does h
  | readUnlock r err =>
    obtain ⟨rfl, rfl⟩ := Prod.mk.inj (Option.some.inj h)
    exact .gives _ r.file rfl rfl
  | writeParse w => exact parse_does h
  | writeFill w interval =>
    obtain ⟨rfl, rfl⟩ := Prod.mk.inj (Option.some.inj h)
    exact .works _ _ w.file rfl rfl rfl
  | writeLock w interval =>
    obtain ⟨hfree, rfl, rfl⟩ := lock_does h
    exact .takes _ _ w.file rfl rfl ⟨rfl, rfl⟩ hfree
  | writeCheck w interval =>
    obtain ⟨rfl, rfl⟩ := Prod.mk.inj (Option.some.inj h)
    split <;> exact .works _ _ w.file rfl rfl rfl
  | writeSubmit w interval => exact write_does h
  | writeUnlock w err =>
    obtain ⟨rfl, rfl⟩ := Prod.mk.inj (Option.some.inj h)
    exact .gives _ w.file rfl rfl
  | pollTicks id file =>
    obtain ⟨rfl, rfl⟩ := Prod.mk.inj (Option.some.inj h)
    exact .works _ _ file rfl rfl rfl
  | pollGone id file mask =>
    obtain ⟨rfl, rfl⟩ := Prod.mk.inj (Option.some.inj h)
    exact .returns _ file rfl rfl
  | tickComplete status actualLength word => exact complete_does h
  | tickResubmit => exact resubmit_does h
  | tickReport =>
    obtain ⟨rfl, rfl⟩ := Prod.mk.inj (Option.some.inj h)
    exact .tickReports
  | giveBack =>
    obtain ⟨rfl, rfl⟩ := Prod.mk.inj (Option.some.inj h)
    exact .givesBack
  | unplug id todo => exact unplug_does h

end Inversion

end LinuxDeviceDriver.Drivers.UsbSkel.Model
