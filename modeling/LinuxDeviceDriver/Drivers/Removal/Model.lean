/- source: examples/28_dma_sg/main.c, lines 36 to 229, 280 to 291 and 436 to 461;
     examples/27_dma/main.c, lines 40 to 217, 242 to 245 and 383 to 409
   digest: The two DMA drivers with files that outlive the device: opens, closes, reads and writes
     step by step, the interrupt handler, and one removal. -/

import LinuxDeviceDriver.Drivers.CompletionProtocol
import LinuxDeviceDriver.Lib.RefCount
import LinuxDeviceDriver.Lib.Threads

set_option autoImplicit false

namespace LinuxDeviceDriver.Drivers.Removal.Model

open Lib.RefCount (Object)
open Lib.Threads (Pool Thread)
open Lib.Transition (Steps)
open Qemu.Pcie
open State Copy Registers CharFile DmaHost
open CompletionProtocol (DriverPc HandlerPc Program Sys)

inductive Driver
  | dma
  | dmaSg
  deriving DecidableEq, Repr

/-- The registers that the message about a failed transfer reads. -/
def Driver.reports : Driver → List Reg
  | .dma => [.status]
  | .dmaSg => [.status, .errDesc]

/-- What probe has acquired and remove releases. The buffer is that of dma; the pages array of
dma_sg goes with the structure. -/
inductive Resource
  | irq
  | vectors
  | buf
  | desc
  | master
  | regs
  | regions
  | enabled
  deriving DecidableEq, Repr

/-- The steps of dma_remove and dma_sg_remove. -/
inductive Teardown
  | cdevDeviceDel
  | mutexLock
  | setRemoved
  | mutexUnlock
  | maskInterrupts
  | freeIrq
  | pciFreeIrqVectors
  | kfreeBuf
  | dmaFreeCoherent
  | pciClearMaster
  | pciIounmap
  | pciReleaseRegions
  | pciDisableDevice
  | putDevice
  deriving DecidableEq, Repr

def Driver.removal : Driver → List Teardown
  | .dma =>
    [.cdevDeviceDel, .mutexLock, .setRemoved, .mutexUnlock, .maskInterrupts, .freeIrq,
      .pciFreeIrqVectors, .kfreeBuf, .dmaFreeCoherent, .pciClearMaster, .pciIounmap,
      .pciReleaseRegions, .pciDisableDevice, .putDevice]
  | .dmaSg =>
    [.cdevDeviceDel, .mutexLock, .setRemoved, .mutexUnlock, .maskInterrupts, .freeIrq,
      .pciFreeIrqVectors, .dmaFreeCoherent, .pciClearMaster, .pciIounmap, .pciReleaseRegions,
      .pciDisableDevice, .putDevice]

/-- What a step of the removal releases. -/
def Teardown.frees : Teardown → Option Resource
  | .freeIrq => some .irq
  | .pciFreeIrqVectors => some .vectors
  | .kfreeBuf => some .buf
  | .dmaFreeCoherent => some .desc
  | .pciClearMaster => some .master
  | .pciIounmap => some .regs
  | .pciReleaseRegions => some .regions
  | .pciDisableDevice => some .enabled
  | _ => none

/-- What a step of the removal uses. -/
def Teardown.uses : Teardown → List Resource
  | .maskInterrupts => [.regs]
  | x => x.frees.toList

/-- A read or write call. -/
structure Rw where
  id : Nat
  file : Nat
  ubuf : Nat
  count : Nat
  dir : DmaDataDirection

/-- The device with its handler and the transfer in progress; the structure, whose references are
those of dev; the cdev, with its own references; the open files and their positions. Then, for the
record: what remove has done and released, what was used after that, which calls took the lock
when removed was set, and what every call returned. -/
structure Core where
  sys : Sys
  /-- How much a call with its buffer at this address takes on, by chunk or max_desc. -/
  room : Nat → Nat
  dev : Object := { refs := 2 }
  cdev : Nat := 1
  node : Bool := true
  lock : Bool := false
  removed : Bool := false
  pos : Nat → Nat := fun _ => 0
  opened : Nat := 0
  files : List Nat := []
  removing : Bool := false
  done : List Teardown := []
  released : List Resource := []
  faults : List Resource := []
  calls : Nat := 0
  late : List Nat := []
  returned : List (Nat × Int) := []

namespace Core

/-- An access to the structure, and to resources. -/
def touch (c : Core) (rs : List Resource) : Core :=
  { c with dev := c.dev.use, faults := c.faults ++ rs.filter (· ∈ c.released) }

/-- A resource is released. -/
def free (c : Core) (x : Resource) : Core := { c.touch [x] with released := x :: c.released }

def ret (c : Core) (id : Nat) (value : Int) : Core :=
  { c with returned := c.returned ++ [(id, value)] }

/-- The last reference to the cdev drops the one that the cdev has to the structure. -/
def cdevPut (c : Core) : Core :=
  { c with
    cdev := c.cdev - 1
    dev := if c.cdev = 1 then c.dev.put else c.dev }

end Core

/-- What a call does next. From check to unlock it holds the lock. -/
inductive Act
  | openFile (id file : Nat)
  | openDone (id file : Nat)
  | releaseFile (id : Nat)
  | enter (r : Rw)
  | lock (r : Rw) (count : Nat)
  | check (r : Rw) (count : Nat)
  | fetch (r : Rw) (count : Nat)
  | map (r : Rw) (count : Nat)
  | describe (r : Rw) (count : Nat)
  | transfer (r : Rw) (count : Nat)
  | unmap (r : Rw) (count : Nat) (err : Int)
  | deliver (r : Rw) (count : Nat)
  | advance (r : Rw) (ret : Int)
  | unlock (r : Rw) (ret : Int)
  | remove (id : Nat) (todo : List Teardown)

def Act.rw : Act → Option Rw
  | .enter r | .lock r _ | .check r _ | .fetch r _ | .map r _ | .describe r _ | .transfer r _
  | .unmap r _ _ | .deliver r _ | .advance r _ | .unlock r _ => some r
  | _ => none

def Act.id : Act → Nat
  | .enter r | .lock r _ | .check r _ | .fetch r _ | .map r _ | .describe r _ | .transfer r _
  | .unmap r _ _ | .deliver r _ | .advance r _ | .unlock r _ => r.id
  | .openFile id _ | .openDone id _ | .releaseFile id | .remove id _ => id

/-- How a step can go: as usual, or a signal is pending, or a kernel service fails, or only the
first bytes of the user's buffer can be pinned; the transfer that is to be run; a wait that runs
out. -/
inductive Choice
  | go
  | signal
  | fails (err : Int)
  | partly (n : Nat)
  | run (p : Program)
  | timeout

/-- What a failing service returned. Pinning no page is -EFAULT. -/
def errorOf (err : Int) : Int := if err < 0 then err else -efault

/-- The user's data before the transfer: dma copies what is written into its buffer, dma_sg pins
the pages. -/
def fetch (driver : Driver) (o : Choice) (r : Rw) (count : Nat) : List Resource × Act :=
  match driver, r.dir, o with
  | .dma, .fromDevice, _ => ([], .map r count)
  | .dma, .toDevice, .fails _ => ([.buf], .advance r (-efault))
  | .dma, .toDevice, _ => ([.buf], .map r count)
  | .dmaSg, _, .fails err => ([], .advance r (errorOf err))
  | .dmaSg, _, .partly n => ([], .map r (if 0 < n ∧ n ≤ count then n else count))
  | .dmaSg, _, _ => ([], .map r count)

/-- dma_map_single, or the scatterlist and dma_map_sgtable; dma_sg unpins the pages again where
one of these fails. -/
def mapUser (driver : Driver) (o : Choice) (r : Rw) (count : Nat) : List Resource × Act :=
  match driver, o with
  | .dma, .fails _ => ([.buf], .advance r (-enomem))
  | .dma, _ => ([.buf], .describe r count)
  | .dmaSg, .fails err => ([], .advance r (errorOf err))
  | .dmaSg, _ => ([], .describe r count)

/-- Unmapped and unpinned, the data is the user's again; dma has yet to copy what it read. -/
def unmapUser (driver : Driver) (r : Rw) (count : Nat) (err : Int) : List Resource × Act :=
  match driver, r.dir with
  | .dma, .fromDevice => ([.buf], if err ≠ 0 then .advance r err else .deliver r count)
  | .dma, .toDevice => ([.buf], .advance r (if err ≠ 0 then err else count))
  | .dmaSg, _ => ([], .advance r (if err ≠ 0 then err else count))

def deliver (o : Choice) (r : Rw) (count : Nat) : List Resource × Act :=
  match o with
  | .fails _ => ([.buf], .advance r (-efault))
  | _ => ([.buf], .advance r count)

/-- What the next step of dma_sg_run, or of dma_xfer, uses. From START on the device reads the
descriptors as bus master. -/
def transferUses : DriverPc → List Resource
  | .program (_ :: _) _ | .reset _ | .unmask _ | .report (_ :: _) _ => [.regs]
  | .start _ => [.regs, .desc, .master]
  | .synchronize _ => [.irq]
  | _ => []

def handlerUses : HandlerPc → List Resource
  | .entered | .clear _ => [.regs]
  | _ => []

def removalStep (c : Core) : Teardown → Option Core
  | .cdevDeviceDel => some { c.touch [] with node := false }.cdevPut
  | .mutexLock => if c.lock then none else some { c.touch [] with lock := true }
  | .setRemoved => some { c.touch [] with removed := true }
  | .mutexUnlock => some { c.touch [] with lock := false }
  | .maskInterrupts => some { c.touch [.regs] with sys := c.sys.iowrite32 .intMask 0 }
  -- free_irq waits for a handler that is running
  | .freeIrq => if c.sys.handler = .idle then some (c.free .irq) else none
  | .pciFreeIrqVectors => some (c.free .vectors)
  | .kfreeBuf => some (c.free .buf)
  | .dmaFreeCoherent => some (c.free .desc)
  | .pciClearMaster =>
    some { c.free .master with
      sys := { c.sys with machine := DmaProbe.pciClearMaster c.sys.machine } }
  | .pciIounmap => some (c.free .regs)
  | .pciReleaseRegions => some (c.free .regions)
  | .pciDisableDevice => some (c.free .enabled)
  | .putDevice => some { c with dev := c.dev.put }

/-- A step of dma_sg_run: the driver goes on, or its wait runs out. -/
def transferStep (driver : Driver) (o : Choice) (sys : Sys) : Option Sys :=
  CompletionProtocol.next driver.reports sys
    (match o with
      | .timeout => .timeout
      | _ => .driver)

/-- How much a call is to move. -/
def Core.countFor (c : Core) (r : Rw) : Nat :=
  min r.count (min (lddMemSize - c.pos r.file) (c.room r.ubuf))

/-- One step of a call. -/
def exec (driver : Driver) (o : Choice) (c : Core) : Act → Option (Core × List Act)
  | .openFile id file => some ({ c with dev := c.dev.get }, [.openDone id file])
  -- open has returned; the reference that looking up the cdev took is dropped
  | .openDone id file => some ({ c.cdevPut with files := file :: c.files }.ret id 0, [])
  | .releaseFile id => some ({ c with dev := c.dev.put }.ret id 0, [])
  | .enter r =>
    if lddMemSize ≤ c.pos r.file then
      some ((c.touch []).ret r.id (if r.dir = .toDevice then -enospc else 0), [])
    else if c.countFor r = 0 then some ((c.touch []).ret r.id 0, [])
    else some (c.touch [], [.lock r (c.countFor r)])
  | .lock r count =>
    match o with
    | .signal => some ((c.touch []).ret r.id (-erestartsys), [])
    | _ =>
      if c.lock then none
      else
        some ({ c.touch [] with
          lock := true
          late := if c.removed then r.id :: c.late else c.late }, [.check r count])
  | .check r count =>
    some (c.touch [], [if c.removed then .advance r (-enodev) else .fetch r count])
  | .fetch r count => some (c.touch (fetch driver o r count).1, [(fetch driver o r count).2])
  | .map r count => some (c.touch (mapUser driver o r count).1, [(mapUser driver o r count).2])
  | .describe r count =>
    match o with
    | .run p =>
      (CompletionProtocol.next driver.reports c.sys (.call p)).map fun sys =>
        ({ c.touch [.desc] with sys }, [.transfer r count])
    | _ => none
  | .transfer r count =>
    match c.sys.driver with
    | .returning err _ =>
      some ({ c.touch [] with sys := { c.sys with driver := .idle } }, [.unmap r count err])
    | pc =>
      (transferStep driver o c.sys).map fun sys =>
        ({ c.touch (transferUses pc) with sys }, [.transfer r count])
  | .unmap r count err =>
    some (c.touch (unmapUser driver r count err).1, [(unmapUser driver r count err).2])
  | .deliver r count => some (c.touch (deliver o r count).1, [(deliver o r count).2])
  | .advance r ret =>
    some ({ c.touch [] with
      pos := if 0 < ret then Function.update c.pos r.file (c.pos r.file + ret.toNat) else c.pos },
      [.unlock r ret])
  | .unlock r ret => some ({ c.touch [] with lock := false }.ret r.id ret, [])
  | .remove id (x :: todo) =>
    (removalStep c x).map fun c' =>
      if todo.isEmpty then ({ c' with done := c.done ++ [x] }.ret id 0, [])
      else ({ c' with done := c.done ++ [x] }, [.remove id todo])
  | .remove _ [] => none

/-! ## Runs -/

abbrev System := Pool Core Unit Act

inductive Event
  | openFile
  | close (file : Nat)
  | rw (file ubuf count : Nat) (dir : DmaDataDirection)
  | remove
  | step (thread : Nat) (o : Choice)
  | interrupt
  | handler
  | expire
  | env (bus : DmaBus) (guest : Memory)

def System.start (s : System) (c : Core) (a : Act) : System :=
  s.spawn { c with calls := s.core.calls + 1 } ⟨(), [a]⟩

/-- No read or write of the file is in progress. -/
def System.unused (s : System) (file : Nat) : Bool :=
  s.threads.all fun t => t.todo.all fun a => a.rw.all fun r => r.file != file

/-- A file is opened while there is a node, and the cdev keeps its reference while an open is in
progress; the last user of a file closes it; a call is made on an open file; the device is removed;
some call goes on. Beside them the handler is entered, while it is requested, and goes on, the
device's timer expires, and memory and bus change. -/
def next (driver : Driver) (s : System) : Event → Option System
  | .openFile =>
    if s.core.node then
      some (s.start { s.core with
        opened := s.core.opened + 1
        cdev := s.core.cdev + 1
        dev := s.core.dev.use } (.openFile s.core.calls s.core.opened))
    else none
  | .close file =>
    if file ∈ s.core.files ∧ s.unused file = true then
      some (s.start { s.core with files := s.core.files.erase file } (.releaseFile s.core.calls))
    else none
  | .rw file ubuf count dir =>
    if file ∈ s.core.files then
      some (s.start s.core (.enter ⟨s.core.calls, file, ubuf, count, dir⟩))
    else none
  | .remove =>
    if s.core.removing then none
    else some (s.start { s.core with removing := true } (.remove s.core.calls driver.removal))
  | .step i o => s.run (exec driver) i o
  | .interrupt =>
    if .irq ∈ s.core.released then none
    else
      (CompletionProtocol.next driver.reports s.core.sys .interrupt).map fun sys =>
        { s with core := { s.core with sys } }
  | .handler =>
    (CompletionProtocol.next driver.reports s.core.sys .handler).map fun sys =>
      { s with core := { s.core.touch (handlerUses s.core.sys.handler) with sys } }
  | .expire => some { s with core := { s.core with sys := s.core.sys.device .expire } }
  | .env bus guest =>
    some { s with core := { s.core with sys := s.core.sys.device (.env bus guest) } }

/-! ## What a step can do -/

/-- The call has found that the device is there, and has no transfer running. -/
def Act.works : Act → Bool
  | .fetch _ _ | .map _ _ | .describe _ _ | .unmap _ _ _ | .deliver _ _ => true
  | _ => false

/-- The lock is held. -/
def Act.inside : Act → Bool
  | .check _ _ | .fetch _ _ | .map _ _ | .describe _ _ | .transfer _ _ | .unmap _ _ _
  | .deliver _ _ | .advance _ _ | .unlock _ _ => true
  | .remove _ (.setRemoved :: _) | .remove _ (.mutexUnlock :: _) => true
  | _ => false

inductive Does (driver : Driver) (c : Core) : Act → Core → List Act → Prop
  | opens (id file : Nat) :
      Does driver c (.openFile id file) { c with dev := c.dev.get } [.openDone id file]
  | opened (id file : Nat) :
      Does driver c (.openDone id file) ({ c.cdevPut with files := file :: c.files }.ret id 0) []
  | closed (id : Nat) : Does driver c (.releaseFile id) ({ c with dev := c.dev.put }.ret id 0) []
  | returns (a : Act) (r : Rw) (value : Int) (ha : a = .enter r ∨ ∃ count, a = .lock r count) :
      Does driver c a ((c.touch []).ret r.id value) []
  | enters (r : Rw) (count : Nat) : Does driver c (.enter r) (c.touch []) [.lock r count]
  | locks (r : Rw) (count : Nat) (hfree : c.lock = false) :
      Does driver c (.lock r count) { c.touch [] with
        lock := true
        late := if c.removed then r.id :: c.late else c.late } [.check r count]
  | refused (r : Rw) (count : Nat) :
      Does driver c (.check r count) (c.touch []) [.advance r (-enodev)]
  | admitted (r : Rw) (count : Nat) (h : c.removed = false) :
      Does driver c (.check r count) (c.touch []) [.fetch r count]
  | works (a b : Act) (r : Rw) (rs : List Resource) (ha : a.works = true) (hr : a.rw = some r)
      (hb : b.rw = some r) (hnext : b.works = true ∨ ∃ ret, b = .advance r ret) :
      Does driver c a (c.touch rs) [b]
  | launches (r : Rw) (count : Nat) (p : Program) (sys : Sys)
      (h : CompletionProtocol.next driver.reports c.sys (.call p) = some sys) :
      Does driver c (.describe r count) { c.touch [.desc] with sys } [.transfer r count]
  | transfers (r : Rw) (count : Nat) (o : Choice) (sys : Sys)
      (h : transferStep driver o c.sys = some sys) :
      Does driver c (.transfer r count) { c.touch (transferUses c.sys.driver) with sys }
        [.transfer r count]
  | transferred (r : Rw) (count : Nat) (err : Int) (own : Nat)
      (h : c.sys.driver = .returning err own) :
      Does driver c (.transfer r count)
        { c.touch [] with sys := { c.sys with driver := .idle } } [.unmap r count err]
  | advances (r : Rw) (ret : Int) (pos : Nat → Nat) (h : ret ≤ 0 → pos = c.pos) :
      Does driver c (.advance r ret) { c.touch [] with pos } [.unlock r ret]
  | unlocks (r : Rw) (ret : Int) :
      Does driver c (.unlock r ret) ({ c.touch [] with lock := false }.ret r.id ret) []
  | removes (id : Nat) (x : Teardown) (todo : List Teardown) (c' : Core)
      (h : removalStep c x = some c') (hmore : todo ≠ []) :
      Does driver c (.remove id (x :: todo)) { c' with done := c.done ++ [x] } [.remove id todo]
  | removed (id : Nat) (x : Teardown) (c' : Core) (h : removalStep c x = some c') :
      Does driver c (.remove id [x]) ({ c' with done := c.done ++ [x] }.ret id 0) []

section Inversion

variable {driver : Driver} {o : Choice} {c c' : Core} {r : Rw} {count : Nat} {pushed : List Act}

theorem fetch_next (driver : Driver) (o : Choice) (r : Rw) (count : Nat) :
    (fetch driver o r count).2.rw = some r ∧
      ((fetch driver o r count).2.works = true ∨ ∃ ret, (fetch driver o r count).2 = .advance r ret) := by
  unfold fetch
  split <;> first | exact ⟨rfl, .inl rfl⟩ | exact ⟨rfl, .inr ⟨_, rfl⟩⟩

theorem mapUser_next (driver : Driver) (o : Choice) (r : Rw) (count : Nat) :
    (mapUser driver o r count).2.rw = some r ∧
      ((mapUser driver o r count).2.works = true ∨
        ∃ ret, (mapUser driver o r count).2 = .advance r ret) := by
  unfold mapUser
  split <;> first | exact ⟨rfl, .inl rfl⟩ | exact ⟨rfl, .inr ⟨_, rfl⟩⟩

theorem unmapUser_next (driver : Driver) (r : Rw) (count : Nat) (err : Int) :
    (unmapUser driver r count err).2.rw = some r ∧
      ((unmapUser driver r count err).2.works = true ∨
        ∃ ret, (unmapUser driver r count err).2 = .advance r ret) := by
  unfold unmapUser
  split
  · dsimp only
    split
    · exact ⟨rfl, .inr ⟨_, rfl⟩⟩
    · exact ⟨rfl, .inl rfl⟩
  · exact ⟨rfl, .inr ⟨_, rfl⟩⟩
  · exact ⟨rfl, .inr ⟨_, rfl⟩⟩

theorem deliver_next (o : Choice) (r : Rw) (count : Nat) :
    ∃ ret, (deliver o r count).2 = .advance r ret := by
  unfold deliver
  split <;> exact ⟨_, rfl⟩

theorem enter_does (h : exec driver o c (.enter r) = some (c', pushed)) :
    Does driver c (.enter r) c' pushed := by
  simp only [exec] at h
  split at h
  · obtain ⟨rfl, rfl⟩ := Prod.mk.inj (Option.some.inj h)
    exact .returns _ r _ (.inl rfl)
  · split at h
    · obtain ⟨rfl, rfl⟩ := Prod.mk.inj (Option.some.inj h)
      exact .returns _ r _ (.inl rfl)
    · obtain ⟨rfl, rfl⟩ := Prod.mk.inj (Option.some.inj h)
      exact .enters r _

theorem lock_does (h : exec driver o c (.lock r count) = some (c', pushed)) :
    Does driver c (.lock r count) c' pushed := by
  have htaken : (if c.lock then none else
      some ({ c.touch [] with
        lock := true
        late := if c.removed then r.id :: c.late else c.late }, [Act.check r count])) =
        some (c', pushed) → Does driver c (.lock r count) c' pushed := by
    intro h
    split at h
    · cases h
    · next hfree =>
      obtain ⟨rfl, rfl⟩ := Prod.mk.inj (Option.some.inj h)
      exact .locks r count (by simpa using hfree)
  cases o with
  | signal =>
    obtain ⟨rfl, rfl⟩ := Prod.mk.inj (Option.some.inj h)
    exact .returns _ r _ (.inr ⟨count, rfl⟩)
  | go | fails err | partly n | run p | timeout => exact htaken h

theorem transfer_does (h : exec driver o c (.transfer r count) = some (c', pushed)) :
    Does driver c (.transfer r count) c' pushed := by
  simp only [exec] at h
  split at h
  · next err own hpc =>
    obtain ⟨rfl, rfl⟩ := Prod.mk.inj (Option.some.inj h)
    exact .transferred r count err own hpc
  · obtain ⟨sys, hsys, heq⟩ := Option.map_eq_some_iff.mp h
    obtain ⟨rfl, rfl⟩ := Prod.mk.inj heq
    exact .transfers r count o sys hsys

theorem remove_does {id : Nat} {todo : List Teardown}
    (h : exec driver o c (.remove id todo) = some (c', pushed)) :
    Does driver c (.remove id todo) c' pushed := by
  cases todo with
  | nil => cases h
  | cons x todo =>
    obtain ⟨c₁, hstep, heq⟩ := Option.map_eq_some_iff.mp h
    cases todo with
    | nil =>
      obtain ⟨rfl, rfl⟩ := Prod.mk.inj heq
      exact .removed id x c₁ hstep
    | cons y todo =>
      obtain ⟨rfl, rfl⟩ := Prod.mk.inj heq
      exact .removes id x (y :: todo) c₁ hstep (List.cons_ne_nil y todo)

theorem exec_does {a : Act} (h : exec driver o c a = some (c', pushed)) :
    Does driver c a c' pushed := by
  cases a with
  | openFile id file =>
    obtain ⟨rfl, rfl⟩ := Prod.mk.inj (Option.some.inj h)
    exact .opens id file
  | openDone id file =>
    obtain ⟨rfl, rfl⟩ := Prod.mk.inj (Option.some.inj h)
    exact .opened id file
  | releaseFile id =>
    obtain ⟨rfl, rfl⟩ := Prod.mk.inj (Option.some.inj h)
    exact .closed id
  | enter r => exact enter_does h
  | lock r count => exact lock_does h
  | check r count =>
    obtain ⟨rfl, rfl⟩ := Prod.mk.inj (Option.some.inj h)
    cases hremoved : c.removed with
    | true => exact .refused r count
    | false => exact .admitted r count hremoved
  | fetch r count =>
    obtain ⟨rfl, rfl⟩ := Prod.mk.inj (Option.some.inj h)
    obtain ⟨hrw, hnext⟩ := fetch_next driver o r count
    exact .works _ _ r _ rfl rfl hrw hnext
  | map r count =>
    obtain ⟨rfl, rfl⟩ := Prod.mk.inj (Option.some.inj h)
    obtain ⟨hrw, hnext⟩ := mapUser_next driver o r count
    exact .works _ _ r _ rfl rfl hrw hnext
  | describe r count =>
    cases o with
    | run p =>
      obtain ⟨sys, hsys, heq⟩ := Option.map_eq_some_iff.mp h
      obtain ⟨rfl, rfl⟩ := Prod.mk.inj heq
      exact .launches r count p sys hsys
    | go | signal | timeout => cases h
    | fails err => cases h
    | partly n => cases h
  | transfer r count => exact transfer_does h
  | unmap r count err =>
    obtain ⟨rfl, rfl⟩ := Prod.mk.inj (Option.some.inj h)
    obtain ⟨hrw, hnext⟩ := unmapUser_next driver r count err
    exact .works _ _ r _ rfl rfl hrw hnext
  | deliver r count =>
    obtain ⟨rfl, rfl⟩ := Prod.mk.inj (Option.some.inj h)
    obtain ⟨ret, hnext⟩ := deliver_next o r count
    exact .works _ _ r _ rfl rfl (by rw [hnext]; rfl) (.inr ⟨ret, hnext⟩)
  | advance r ret =>
    obtain ⟨rfl, rfl⟩ := Prod.mk.inj (Option.some.inj h)
    exact .advances r ret _ fun hle => if_neg (by omega)
  | unlock r ret =>
    obtain ⟨rfl, rfl⟩ := Prod.mk.inj (Option.some.inj h)
    exact .unlocks r ret
  | remove id todo => exact remove_does h

end Inversion

end LinuxDeviceDriver.Drivers.Removal.Model
