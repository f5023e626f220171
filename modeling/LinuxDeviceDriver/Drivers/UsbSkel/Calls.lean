/- source: examples/21_usb_skel/main.c, lines 39 to 278 and 372 to 396
   digest: Which call an action belongs to, and what a step does to the ticks, to what the files
     have seen of them, to the buffer of the reads, and to the record of the calls. -/

import LinuxDeviceDriver.Drivers.UsbSkel.Lifetime
import LinuxDeviceDriver.Lib.Calls

set_option autoImplicit false

namespace LinuxDeviceDriver.Drivers.UsbSkel.Calls

open Lib.Calls (Accounted)
open Lib.LittleEndian (Byte)
open Lib.Threads
open Lib.Transition (Steps)
open CharFile
open Model
open Lifetime (probed)

/-! ## Whose action it is -/

/-- The read that the action is part of. -/
def reading : Act → Option Read
  | .readWait r | .readTicks r | .readLock r _ | .readCheck r _ | .readBulk r _ | .readLine r _ _
  | .readCopy r _ _ | .readUnlock r _ => some r
  | _ => none

/-- The file that the action is about to open. -/
def opens : Act → Option Nat
  | .openFind _ file | .openLock _ file | .openCheck _ file | .openSubmit _ file
  | .openUncount _ file _ | .openUnlock _ file _ | .openGet _ file | .openSeen _ file => some file
  | _ => none

/-- The number of the call. The handler of the tick URB is nobody's call. -/
def caller : Act → Option Nat
  | .openFind id _ | .openLock id _ | .openCheck id _ | .openSubmit id _ | .openUncount id _ _
  | .openUnlock id _ _ | .openGet id _ | .openSeen id _ => some id
  | .closeLock id | .closeCount id | .closeKill id | .closeWait id | .closeUnlock id
  | .closePut id => some id
  | .readWait r | .readTicks r | .readLock r _ | .readCheck r _ | .readBulk r _ | .readLine r _ _
  | .readCopy r _ _ | .readUnlock r _ => some r.id
  | .writeParse w | .writeFill w _ | .writeLock w _ | .writeCheck w _ | .writeSubmit w _
  | .writeUnlock w _ => some w.id
  | .pollTicks id _ | .pollGone id _ _ => some id
  | .tickComplete _ _ _ | .tickResubmit | .tickReport | .giveBack => none
  | .unplug id _ => some id

theorem caller_of_reading {a : Act} {r : Read} (h : reading a = some r) : caller a = some r.id := by
  cases a <;> cases h <;> rfl

theorem file_of_reading {a : Act} {r : Read} (h : reading a = some r) : a.file = some r.file := by
  cases a <;> cases h <;> rfl

/-- A kernel service fails. -/
def refused : Choice → Bool
  | .fails _ => true
  | _ => false

/-- What an event makes a thread do. -/
def deed (s : System) : Event → Option Act
  | .step i _ => s.next i
  | _ => none

abbrev Label := Event × Option Act

/-! ## The record of the calls -/

/-- What a step does to the record of the calls and to the open files: the call goes on, or
returns, or it was the handler of the URB that ended. -/
inductive Records (c : Core) (a : Act) : Core → List Act → Prop
  | goesOn (c' : Core) (b : Act) (hcaller : caller b = caller a) (hopens : opens b = opens a)
      (hcounts : c'.calls = c.calls ∧ c'.opened = c.opened) (hreturned : c'.returned = c.returned)
      (hfiles : c'.files = c.files) : Records c a c' [b]
  | returns (c' : Core) (id : Nat) (value : Int) (hcaller : caller a = some id)
      (hcounts : c'.calls = c.calls ∧ c'.opened = c.opened)
      (hreturned : c'.returned = c.returned ++ [(id, value)])
      (hfiles : c'.files = c.files ∨ ∃ file, a = .openSeen id file ∧ c'.files = file :: c.files) :
      Records c a c' []
  | ends (c' : Core) (hcaller : caller a = none) (hopens : opens a = none)
      (hcounts : c'.calls = c.calls ∧ c'.opened = c.opened) (hreturned : c'.returned = c.returned)
      (hfiles : c'.files = c.files) : Records c a c' []

section Records

variable {o : Choice} {c c' : Core} {pushed : List Act}

private theorem Records.plain {a b : Act} {d : Core} (h : some (d, [b]) = some (c', pushed))
    (hcaller : caller b = caller a) (hopens : opens b = opens a)
    (hsame : d.calls = c.calls ∧ d.opened = c.opened ∧ d.returned = c.returned ∧
      d.files = c.files) : Records c a c' pushed := by
  obtain ⟨rfl, rfl⟩ := Prod.mk.inj (Option.some.inj h)
  exact .goesOn _ b hcaller hopens ⟨hsame.1, hsame.2.1⟩ hsame.2.2.1 hsame.2.2.2

private theorem Records.value {a : Act} {id : Nat} {value : Int} {d : Core}
    (h : some (d.ret id value, []) = some (c', pushed)) (hcaller : caller a = some id)
    (hsame : d.calls = c.calls ∧ d.opened = c.opened ∧ d.returned = c.returned ∧
      d.files = c.files) : Records c a c' pushed := by
  obtain ⟨rfl, rfl⟩ := Prod.mk.inj (Option.some.inj h)
  refine .returns _ id value hcaller ⟨hsame.1, hsame.2.1⟩ ?_ (.inl hsame.2.2.2)
  show d.returned ++ _ = _
  rw [hsame.2.2.1]

private theorem Records.locks {a b : Act} (h : c.lock b = some (c', pushed))
    (hcaller : caller b = caller a) (hopens : opens b = opens a) : Records c a c' pushed := by
  obtain ⟨-, rfl, rfl⟩ := lock_does h
  exact .goesOn _ b hcaller hopens ⟨rfl, rfl⟩ rfl rfl

/-- No step of the disconnect opens or closes a file, or takes the mark back. -/
theorem unplugStep_keeps {k k' : Skel} {x : Unplug} (h : unplugStep k x = some k') :
    k'.files = k.files ∧ (k.disconnected = true → k'.disconnected = true) := by
  cases x with
  | usbDeregisterDev | killWait =>
    obtain ⟨-, heq⟩ := Option.ite_none_right_eq_some.mp h
    obtain rfl := Option.some.inj heq
    exact ⟨rfl, fun hgone => hgone⟩
  | mutexLock =>
    obtain ⟨-, heq⟩ := Option.ite_none_left_eq_some.mp h
    obtain rfl := Option.some.inj heq
    exact ⟨rfl, fun hgone => hgone⟩
  | setDisconnected =>
    obtain rfl := Option.some.inj h
    exact ⟨rfl, fun _ => rfl⟩
  | mutexUnlock | usbKillUrb | wakeUp | clearIntfdata | krefPut =>
    obtain rfl := Option.some.inj h
    exact ⟨rfl, fun hgone => hgone⟩

private theorem unplug_records {id : Nat} {todo : List Unplug}
    (h : act o c (.unplug id todo) = some (c', pushed)) :
    Records c (.unplug id todo) c' pushed := by
  cases todo with
  | nil => cases h
  | cons x todo =>
    obtain ⟨k, hstep, heq⟩ := Option.map_eq_some_iff.mp h
    have hfiles := (unplugStep_keeps hstep).1
    cases todo with
    | nil => exact .value (congrArg some heq) rfl ⟨rfl, rfl, rfl, hfiles⟩
    | cons y todo => exact .plain (congrArg some heq) rfl rfl ⟨rfl, rfl, rfl, hfiles⟩

theorem act_records {a : Act} (h : act o c a = some (c', pushed)) : Records c a c' pushed := by
  cases a with
  | openFind id file =>
    unfold act at h
    dsimp only at h
    split at h
    · split at h
      · exact .value h rfl ⟨rfl, rfl, rfl, rfl⟩
      · exact .plain h rfl rfl ⟨rfl, rfl, rfl, rfl⟩
    · exact .value h rfl ⟨rfl, rfl, rfl, rfl⟩
  | openLock id file | closeLock id | writeLock w interval => exact .locks h rfl rfl
  | openCheck id file =>
    unfold act at h
    dsimp only at h
    split at h
    · exact .plain h rfl rfl ⟨rfl, rfl, rfl, rfl⟩
    · refine .plain h ?_ ?_ ⟨rfl, rfl, rfl, rfl⟩ <;> split <;> rfl
  | openSubmit id file | closeCount id | readCheck r ticks | writeCheck w interval
  | tickResubmit =>
    refine .plain h ?_ ?_ ⟨rfl, rfl, rfl, rfl⟩ <;> split <;> rfl
  | openUncount id file err | openGet id file | closeKill id | closeUnlock id | readTicks r
  | readLine r ticks actual | writeFill w interval | pollTicks id file | tickReport =>
    exact .plain h rfl rfl ⟨rfl, rfl, rfl, rfl⟩
  | openUnlock id file err =>
    unfold act at h
    dsimp only at h
    split at h
    · exact .value h rfl ⟨rfl, rfl, rfl, rfl⟩
    · exact .plain h rfl rfl ⟨rfl, rfl, rfl, rfl⟩
  | openSeen id file =>
    obtain ⟨rfl, rfl⟩ := Prod.mk.inj (Option.some.inj h)
    exact .returns _ id 0 rfl ⟨rfl, rfl⟩ rfl (.inr ⟨file, rfl, rfl⟩)
  | closeWait id =>
    obtain ⟨-, heq⟩ := Option.ite_none_right_eq_some.mp h
    exact .plain heq rfl rfl ⟨rfl, rfl, rfl, rfl⟩
  | closePut id | readUnlock r err | writeUnlock w err | pollGone id file mask =>
    exact .value h rfl ⟨rfl, rfl, rfl, rfl⟩
  | readWait r =>
    unfold act at h
    dsimp only at h
    split at h
    · split at h
      · exact .value h rfl ⟨rfl, rfl, rfl, rfl⟩
      · exact .plain h rfl rfl ⟨rfl, rfl, rfl, rfl⟩
    · split at h
      · exact .plain h rfl rfl ⟨rfl, rfl, rfl, rfl⟩
      · split at h
        · exact .value h rfl ⟨rfl, rfl, rfl, rfl⟩
        · cases h
  | readLock r ticks =>
    unfold act at h
    dsimp only at h
    split at h
    · exact .value h rfl ⟨rfl, rfl, rfl, rfl⟩
    · exact .locks h rfl rfl
  | readBulk r ticks =>
    unfold act at h
    dsimp only at h
    split at h
    · exact .plain h rfl rfl ⟨rfl, rfl, rfl, rfl⟩
    · obtain ⟨-, heq⟩ := Option.ite_none_right_eq_some.mp h
      exact .plain heq rfl rfl ⟨rfl, rfl, rfl, rfl⟩
    · cases h
  | readCopy r ticks len | writeSubmit w interval =>
    unfold act at h
    dsimp only at h
    split at h
    · exact .plain h rfl rfl ⟨rfl, rfl, rfl, rfl⟩
    · exact .plain h rfl rfl ⟨rfl, rfl, rfl, rfl⟩
  | writeParse w =>
    unfold act at h
    dsimp only at h
    split at h
    · exact .value h rfl ⟨rfl, rfl, rfl, rfl⟩
    · exact .value h rfl ⟨rfl, rfl, rfl, rfl⟩
    · exact .plain h rfl rfl ⟨rfl, rfl, rfl, rfl⟩
  | tickComplete status actualLength word =>
    unfold act at h
    dsimp only at h
    split at h
    · refine .plain h rfl rfl ?_
      split <;> exact ⟨rfl, rfl, rfl, rfl⟩
    · refine .plain h ?_ ?_ ⟨rfl, rfl, rfl, rfl⟩ <;> split <;> rfl
  | giveBack =>
    obtain ⟨rfl, rfl⟩ := Prod.mk.inj (Option.some.inj h)
    exact .ends _ rfl rfl ⟨rfl, rfl⟩ rfl rfl
  | unplug id todo => exact unplug_records h

theorem Records.calls {a : Act} (h : Records c a c' pushed) : c'.calls = c.calls := by
  cases h with
  | goesOn b hcaller hopens hcounts => exact hcounts.1
  | returns id value hcaller hcounts => exact hcounts.1
  | ends hcaller hopens hcounts => exact hcounts.1

theorem Records.files {a : Act} (h : Records c a c' pushed) :
    c'.files = c.files ∨ ∃ id file, a = .openSeen id file ∧ c'.files = file :: c.files := by
  cases h with
  | goesOn b hcaller hopens hcounts hreturned hfiles => exact .inl hfiles
  | returns id value hcaller hcounts hreturned hfiles =>
    rcases hfiles with hsame | ⟨file, ha, hnew⟩
    · exact .inl hsame
    · exact .inr ⟨id, file, ha, hnew⟩
  | ends hcaller hopens hcounts hreturned hfiles => exact .inl hfiles

theorem Records.length {a : Act} (h : Records c a c' pushed) : pushed.length ≤ 1 := by
  cases h with
  | goesOn => exact Nat.le_refl 1
  | returns | ends => exact Nat.zero_le 1

/-- What a step is to the calls that it is not part of. -/
theorem Records.others {a : Act} {n : Nat} (h : Records c a c' pushed) (ha : caller a ≠ some n) :
    (∀ b ∈ pushed, caller b ≠ some n) ∧ ∀ v, (n, v) ∈ c'.returned ↔ (n, v) ∈ c.returned := by
  cases h with
  | goesOn b hcaller hopens hcounts hreturned hfiles =>
    refine ⟨?_, fun v => by rw [hreturned]⟩
    intro x hx
    obtain rfl := List.mem_singleton.mp hx
    rw [hcaller]
    exact ha
  | returns id value hcaller hcounts hreturned hfiles =>
    refine ⟨fun x hx => absurd hx List.not_mem_nil, fun v => ?_⟩
    rw [hreturned, List.mem_append, List.mem_singleton]
    constructor
    · rintro (hold | hnew)
      · exact hold
      · obtain ⟨rfl, -⟩ := Prod.mk.inj hnew
        exact absurd hcaller ha
    · exact fun hold => .inl hold
  | ends hcaller hopens hcounts hreturned hfiles =>
    exact ⟨fun x hx => absurd hx List.not_mem_nil, fun v => by rw [hreturned]⟩

end Records

/-! ## The data of the reads -/

structure Data where
  ticks : BitVec 32
  seen : Nat → BitVec 32
  bulkInSize : Nat
  bulkInBuffer : List Byte
  disconnected : Bool

def data (c : Core) : Data :=
  ⟨c.ticks, c.seen, c.bulkInSize, c.bulkInBuffer, c.disconnected⟩

/-- Where the newline goes. -/
def Data.newline (d : Data) (actual : Nat) : BitVec 64 :=
  newlineAt d.bulkInSize (BitVec.ofNat 64 (strnlen d.bulkInBuffer actual))

/-- The report of a tick. -/
def isTick (status : Int) (actualLength : Nat) (word : BitVec 32) : Bool :=
  decide (status = 0 ∧ actualLength = lddUsbTickLen ∧ word = 1)

/-- What has nothing to do with the data of the reads. -/
def quiet : Act → Bool
  | .openSeen _ _ | .unplug _ _ => false
  | .tickComplete status actualLength word => !isTick status actualLength word
  | a => (reading a).isNone

/-- Where a read may return. -/
def leaving : Act → Option Read
  | .readWait r | .readLock r _ | .readUnlock r _ => some r
  | _ => none

/-- What a step does to the data of the reads, and how a read goes on. -/
inductive Moves (d : Data) (o : Choice) : Act → Data → List Act → Prop
  | aside (a : Act) (pushed : List Act) (ha : quiet a = true)
      (hpushed : ∀ b ∈ pushed, reading b = none) : Moves d o a d pushed
  | tick (status : Int) (actualLength : Nat) (word : BitVec 32)
      (htick : isTick status actualLength word = true) :
      Moves d o (.tickComplete status actualLength word) { d with ticks := d.ticks + 1 }
        [.tickResubmit]
  | openSees (id file : Nat) :
      Moves d o (.openSeen id file) { d with seen := Function.update d.seen file d.ticks } []
  | unplugs (id : Nat) (todo : List Unplug) (gone : Bool) (pushed : List Act)
      (hgone : d.disconnected = true → gone = true) (hpushed : ∀ b ∈ pushed, reading b = none) :
      Moves d o (.unplug id todo) { d with disconnected := gone } pushed
  | leaves (a : Act) (r : Read) (ha : leaving a = some r) : Moves d o a d []
  | passes (r : Read) (htest : d.ticks ≠ d.seen r.file ∨ d.disconnected = true) :
      Moves d o (.readWait r) d [.readTicks r]
  | samples (r : Read) : Moves d o (.readTicks r) d [.readLock r d.ticks]
  | locks (r : Read) (ticks : BitVec 32) : Moves d o (.readLock r ticks) d [.readCheck r ticks]
  | refuses (r : Read) (ticks : BitVec 32) :
      Moves d o (.readCheck r ticks) d [.readUnlock r (-enodev)]
  | allows (r : Read) (ticks : BitVec 32) (hthere : d.disconnected = false) :
      Moves d o (.readCheck r ticks) d [.readBulk r ticks]
  | bulkFails (r : Read) (ticks : BitVec 32) (err : Int) (herr : err < 0) :
      Moves d o (.readBulk r ticks) d [.readUnlock r err]
  | receives (r : Read) (ticks : BitVec 32) (bytes : List Byte) (ho : o = .bulk bytes)
      (hlen : bytes.length ≤ d.bulkInSize) :
      Moves d o (.readBulk r ticks)
        { d with bulkInBuffer := bytes ++ d.bulkInBuffer.drop bytes.length }
        [.readLine r ticks bytes.length]
  | puts (r : Read) (ticks : BitVec 32) (actual : Nat) :
      Moves d o (.readLine r ticks actual)
        { d with bulkInBuffer := d.bulkInBuffer.set (d.newline actual).toNat 10 }
        [.readCopy r ticks
          (if d.newline actual + 1 ≤ r.count then d.newline actual + 1 else r.count)]
  | copyFails (r : Read) (ticks : BitVec 32) (len : BitVec 64) (ho : refused o = true) :
      Moves d o (.readCopy r ticks len) d [.readUnlock r (-efault)]
  | copies (r : Read) (ticks : BitVec 32) (len : BitVec 64) (ho : refused o = false) :
      Moves d o (.readCopy r ticks len) { d with seen := Function.update d.seen r.file ticks }
        [.readUnlock r (len.truncate 32).toInt]

section Moves

variable {o : Choice} {c c' : Core} {pushed : List Act}

/-- A step that goes on with one of two actions, or the same one, and leaves the data. -/
private theorem Moves.plain {a b : Act} {e : Core} (h : some (e, [b]) = some (c', pushed))
    (ha : quiet a = true) (hdata : data e = data c) (hb : reading b = none) :
    Moves (data c) o a (data c') pushed := by
  obtain ⟨rfl, rfl⟩ := Prod.mk.inj (Option.some.inj h)
  rw [hdata]
  refine .aside a [b] ha ?_
  intro x hx
  obtain rfl := List.mem_singleton.mp hx
  exact hb

private theorem Moves.value {a : Act} {e : Core} (h : some (e, []) = some (c', pushed))
    (ha : quiet a = true) (hdata : data e = data c) : Moves (data c) o a (data c') pushed := by
  obtain ⟨rfl, rfl⟩ := Prod.mk.inj (Option.some.inj h)
  rw [hdata]
  refine .aside a [] ha ?_
  intro x hx
  cases hx

private theorem Moves.lock {a b : Act} (h : c.lock b = some (c', pushed)) (ha : quiet a = true)
    (hb : reading b = none) : Moves (data c) o a (data c') pushed := by
  obtain ⟨-, rfl, rfl⟩ := lock_does h
  exact .plain (e := { c with ioMutex := true }) rfl ha rfl hb

private theorem wait_moves {r : Read} (h : act o c (.readWait r) = some (c', pushed)) :
    Moves (data c) o (.readWait r) (data c') pushed := by
  unfold act at h
  dsimp only at h
  split at h
  · split at h
    · obtain ⟨rfl, rfl⟩ := Prod.mk.inj (Option.some.inj h)
      exact .leaves _ r rfl
    · next hticks =>
      obtain ⟨rfl, rfl⟩ := Prod.mk.inj (Option.some.inj h)
      exact .passes r (.inl hticks)
  · split at h
    · next htest =>
      obtain ⟨rfl, rfl⟩ := Prod.mk.inj (Option.some.inj h)
      exact .passes r htest
    · split at h
      · obtain ⟨rfl, rfl⟩ := Prod.mk.inj (Option.some.inj h)
        exact .leaves _ r rfl
      · cases h

theorem failure_neg (err : Int) : Model.failure err < 0 := by
  unfold Model.failure
  split
  · assumption
  · decide

private theorem bulk_moves {r : Read} {ticks : BitVec 32}
    (h : act o c (.readBulk r ticks) = some (c', pushed)) :
    Moves (data c) o (.readBulk r ticks) (data c') pushed := by
  unfold act at h
  dsimp only at h
  split at h
  · obtain ⟨rfl, rfl⟩ := Prod.mk.inj (Option.some.inj h)
    exact .bulkFails r ticks _ (failure_neg _)
  · next bytes =>
    obtain ⟨hlen, heq⟩ := Option.ite_none_right_eq_some.mp h
    obtain ⟨rfl, rfl⟩ := Prod.mk.inj (Option.some.inj heq)
    exact .receives r ticks bytes rfl hlen
  · cases h

private theorem copy_moves {r : Read} {ticks : BitVec 32} {len : BitVec 64}
    (h : act o c (.readCopy r ticks len) = some (c', pushed)) :
    Moves (data c) o (.readCopy r ticks len) (data c') pushed := by
  unfold act at h
  dsimp only at h
  split at h
  · obtain ⟨rfl, rfl⟩ := Prod.mk.inj (Option.some.inj h)
    exact .copyFails r ticks len rfl
  · next ho =>
    obtain ⟨rfl, rfl⟩ := Prod.mk.inj (Option.some.inj h)
    refine .copies r ticks len ?_
    cases o with
    | fails err => exact absurd rfl (ho err)
    | _ => rfl

private theorem tick_moves {status : Int} {actualLength : Nat} {word : BitVec 32}
    (h : act o c (.tickComplete status actualLength word) = some (c', pushed)) :
    Moves (data c) o (.tickComplete status actualLength word) (data c') pushed := by
  unfold act at h
  dsimp only at h
  split at h
  · next hstatus =>
    by_cases htick : actualLength = lddUsbTickLen ∧ word = 1
    · rw [if_pos htick] at h
      obtain ⟨rfl, rfl⟩ := Prod.mk.inj (Option.some.inj h)
      exact .tick status actualLength word (decide_eq_true ⟨hstatus, htick⟩)
    · rw [if_neg htick] at h
      refine .plain h ?_ rfl rfl
      rw [quiet, isTick, decide_eq_false fun hall => htick hall.2]
      rfl
  · next hstatus =>
    refine .plain h ?_ rfl ?_
    · rw [quiet, isTick, decide_eq_false fun hall => hstatus hall.1]
      rfl
    · split <;> rfl

private theorem unplug_moves {id : Nat} {todo : List Unplug}
    (h : act o c (.unplug id todo) = some (c', pushed)) :
    Moves (data c) o (.unplug id todo) (data c') pushed := by
  cases todo with
  | nil => cases h
  | cons x todo =>
    obtain ⟨k, hstep, heq⟩ := Option.map_eq_some_iff.mp h
    have hgone := (unplugStep_keeps hstep).2
    cases todo with
    | nil =>
      obtain ⟨rfl, rfl⟩ := Prod.mk.inj heq
      exact .unplugs id [x] k.disconnected [] hgone fun b hb => by cases hb
    | cons y todo =>
      obtain ⟨rfl, rfl⟩ := Prod.mk.inj heq
      refine .unplugs id _ k.disconnected _ hgone ?_
      intro b hb
      obtain rfl := List.mem_singleton.mp hb
      rfl

theorem act_moves {a : Act} (h : act o c a = some (c', pushed)) :
    Moves (data c) o a (data c') pushed := by
  cases a with
  | openFind id file =>
    unfold act at h
    dsimp only at h
    split at h
    · split at h
      · exact .value h rfl rfl
      · exact .plain h rfl rfl rfl
    · exact .value h rfl rfl
  | openLock id file | closeLock id | writeLock w interval => exact .lock h rfl rfl
  | openCheck id file =>
    unfold act at h
    dsimp only at h
    split at h
    · exact .plain h rfl rfl rfl
    · refine .plain h rfl rfl ?_
      split <;> rfl
  | openSubmit id file | closeCount id | writeCheck w interval | tickResubmit =>
    refine .plain h rfl rfl ?_
    split <;> rfl
  | openUncount id file err | openGet id file | closeKill id | closeUnlock id
  | writeFill w interval | pollTicks id file | tickReport => exact .plain h rfl rfl rfl
  | openUnlock id file err =>
    unfold act at h
    dsimp only at h
    split at h
    · exact .value h rfl rfl
    · exact .plain h rfl rfl rfl
  | openSeen id file =>
    obtain ⟨rfl, rfl⟩ := Prod.mk.inj (Option.some.inj h)
    exact .openSees id file
  | closeWait id =>
    obtain ⟨-, heq⟩ := Option.ite_none_right_eq_some.mp h
    exact .plain heq rfl rfl rfl
  | closePut id | writeUnlock w err | pollGone id file mask | giveBack => exact .value h rfl rfl
  | readWait r => exact wait_moves h
  | readTicks r =>
    obtain ⟨rfl, rfl⟩ := Prod.mk.inj (Option.some.inj h)
    exact .samples r
  | readLock r ticks =>
    unfold act at h
    dsimp only at h
    split at h
    · obtain ⟨rfl, rfl⟩ := Prod.mk.inj (Option.some.inj h)
      exact .leaves _ r rfl
    · obtain ⟨-, rfl, rfl⟩ := lock_does h
      exact .locks r ticks
  | readCheck r ticks =>
    obtain ⟨rfl, rfl⟩ := Prod.mk.inj (Option.some.inj h)
    cases hgone : c.disconnected with
    | true => exact .refuses r ticks
    | false => exact .allows r ticks hgone
  | readBulk r ticks => exact bulk_moves h
  | readLine r ticks actual =>
    obtain ⟨rfl, rfl⟩ := Prod.mk.inj (Option.some.inj h)
    exact .puts r ticks actual
  | readCopy r ticks len => exact copy_moves h
  | readUnlock r err =>
    obtain ⟨rfl, rfl⟩ := Prod.mk.inj (Option.some.inj h)
    exact .leaves _ r rfl
  | writeParse w =>
    unfold act at h
    dsimp only at h
    split at h
    · exact .value h rfl rfl
    · exact .value h rfl rfl
    · exact .plain h rfl rfl rfl
  | writeSubmit w interval =>
    unfold act at h
    dsimp only at h
    split at h
    · exact .plain h rfl rfl rfl
    · exact .plain h rfl rfl rfl
  | tickComplete status actualLength word => exact tick_moves h
  | unplug id todo => exact unplug_moves h

end Moves

/-! ## Steps of the system -/

section Exec

variable {o : Choice} {c c' : Core} {a : Act} {pushed : List Act}

theorem exec_moves (h : Model.exec o c a = some (c', pushed)) :
    Moves (data c) o a (data c') pushed := by
  rw [Model.exec] at h
  split at h
  · exact act_moves (c := { c with dev := c.dev.use }) h
  · exact act_moves h

theorem exec_records (h : Model.exec o c a = some (c', pushed)) : Records c a c' pushed := by
  rw [Model.exec] at h
  split at h
  · -- the access to the structure is not recorded
    cases act_records h with
    | goesOn b hcaller hopens hcounts hreturned hfiles =>
      exact .goesOn _ b hcaller hopens hcounts hreturned hfiles
    | returns id value hcaller hcounts hreturned hfiles =>
      exact .returns _ id value hcaller hcounts hreturned hfiles
    | ends hcaller hopens hcounts hreturned hfiles =>
      exact .ends _ hcaller hopens hcounts hreturned hfiles
  · exact act_records h

end Exec

/-- What an event adds to the record when it starts a call, or the handler of the URB. -/
structure Begins (c : Core) (e : Event) (b : Act) (c' : Core) : Prop where
  data : data c' = data c
  returned : c'.returned = c.returned
  calls : (caller b = some c.calls ∧ c'.calls = c.calls + 1) ∨
    (caller b = none ∧ c'.calls = c.calls)
  files : (opens b = some c.opened ∧ c'.opened = c.opened + 1 ∧ c'.files = c.files) ∨
    (opens b = none ∧ c'.opened = c.opened ∧ c'.files.Sublist c.files)
  reading : ∀ r, reading b = some r → b = .readWait r ∧ ∃ count, e = .read r.file r.nonblock count

/-- An event starts something, or a thread goes on. -/
inductive Happens (s : System) (e : Event) (t : System) : Prop
  | begins (b : Act) (hdeed : deed s e = none)
      (hpending : t.pending = (([b] : List Act) : Multiset Act) + s.pending)
      (hbegins : Begins s.core e b t.core) : Happens s e t
  | goes (i : Nat) (o : Choice) (a : Act) (rest : Multiset Act) (pushed : List Act)
      (he : e = .step i o) (hdeed : deed s e = some a) (hbefore : s.pending = a ::ₘ rest)
      (hexec : Model.exec o s.core a = some (t.core, pushed))
      (hafter : t.pending = (pushed : Multiset Act) + rest) : Happens s e t

section Next

variable {s t : System} {e : Event}

private theorem happens_call {file : Nat} {b : Act} (hdeed : deed s e = none)
    (h : s.call file b = some t) (hcaller : caller b = some s.core.calls) (hopens : opens b = none)
    (hreading : ∀ r, reading b = some r → b = .readWait r ∧
      ∃ count, e = .read r.file r.nonblock count) : Happens s e t := by
  obtain ⟨-, heq⟩ := Option.ite_none_right_eq_some.mp h
  obtain rfl := Option.some.inj heq
  refine .begins b hdeed ?_ ⟨rfl, rfl, .inl ⟨hcaller, rfl⟩, .inr ⟨hopens, rfl, .refl _⟩, hreading⟩
  rw [System.start, Pool.spawn_pending]

theorem next_happens (h : next s e = some t) : Happens s e t := by
  cases e with
  | openFile =>
    obtain ⟨-, heq⟩ := Option.ite_none_right_eq_some.mp h
    obtain rfl := Option.some.inj heq
    refine .begins (.openFind s.core.calls s.core.opened) rfl ?_ ⟨rfl, rfl, .inl ⟨rfl, rfl⟩,
      .inl ⟨rfl, rfl, rfl⟩, fun r hr => by cases hr⟩
    rw [System.start, Pool.spawn_pending]
  | close file =>
    obtain ⟨-, heq⟩ := Option.ite_none_right_eq_some.mp h
    obtain rfl := Option.some.inj heq
    refine .begins (.closeLock s.core.calls) rfl ?_ ⟨rfl, rfl, .inl ⟨rfl, rfl⟩,
      .inr ⟨rfl, rfl, List.erase_sublist⟩, fun r hr => by cases hr⟩
    rw [System.start, Pool.spawn_pending]
  | read file nonblock count =>
    refine happens_call rfl h rfl rfl ?_
    intro r hr
    obtain rfl := Option.some.inj hr
    exact ⟨rfl, count, rfl⟩
  | write file count parsed | poll file => exact happens_call rfl h rfl rfl fun r hr => by cases hr
  | disconnect =>
    obtain ⟨-, heq⟩ := Option.ite_none_left_eq_some.mp h
    obtain rfl := Option.some.inj heq
    refine .begins (.unplug s.core.calls skelDisconnect) rfl ?_ ⟨rfl, rfl, .inl ⟨rfl, rfl⟩,
      .inr ⟨rfl, rfl, .refl _⟩, fun r hr => by cases hr⟩
    rw [System.start, Pool.spawn_pending]
  | complete status actualLength word =>
    obtain ⟨-, heq⟩ := Option.ite_none_right_eq_some.mp h
    obtain rfl := Option.some.inj heq
    refine .begins (.tickComplete status actualLength word) rfl ?_ ⟨rfl, rfl, .inr ⟨rfl, rfl⟩,
      .inr ⟨rfl, rfl, .refl _⟩, fun r hr => by cases hr⟩
    rw [Pool.spawn_pending]
  | step i o =>
    have hrun : s.run Model.exec i o = some t := h
    obtain ⟨a, rest, pushed, hbefore, hexec, hafter, hnext⟩ := Pool.run_pending hrun
    exact .goes i o a rest pushed rfl hnext hbefore hexec hafter

end Next

/-! ## Every call and every file has a number of its own -/

/-- Of the calls made so far each has one action to come or has returned; of the files opened so
far each is at most once in the making or open. -/
structure Numbered (c : Core) (m : Multiset Act) : Prop where
  calls : Accounted (fun id : Nat => id) c.calls (c.returned.map Prod.fst) (collect caller m)
  files : ∀ file, cnt (fun a => opens a == some file) m + c.files.count file ≤
    (decide (file < c.opened)).toNat

namespace Numbered

variable {c c' : Core} {m rest : Multiset Act} {a b : Act} {pushed : List Act} {id file : Nat}

theorem caller_lt (h : Numbered c m) (ha : a ∈ m) (hid : caller a = some id) : id < c.calls :=
  h.calls.lt_calls (mem_collect.mpr ⟨a, ha, hid⟩)

theorem returned_lt (h : Numbered c m) {v : Int} (hv : (id, v) ∈ c.returned) : id < c.calls := by
  by_contra hge
  have hsum := h.calls id
  have hpos : 0 < (c.returned.map Prod.fst).count id :=
    List.count_pos_iff.mpr (List.mem_map.mpr ⟨_, hv, rfl⟩)
  rw [decide_eq_false hge, Bool.toNat_false] at hsum
  omega

theorem caller_ne (h : Numbered c (a ::ₘ rest)) (ha : caller a = some id) (hb : b ∈ rest) :
    caller b ≠ some id := by
  intro heq
  have hcalls := h.calls
  rw [collect_cons, ha] at hcalls
  exact hcalls.ne_of_mem (mem_collect.mpr ⟨b, hb, heq⟩) rfl

/-- A file in the making is not open yet, and nobody else is about to open it. -/
theorem opens_fresh (h : Numbered c (a ::ₘ rest)) (ha : opens a = some file) :
    file ∉ c.files := by
  intro hmem
  have hle := h.files file
  have hone := Bool.toNat_le (decide (file < c.opened))
  have hpos := List.count_pos_iff.mpr hmem
  rw [cnt_cons, ha, beq_self_eq_true, Bool.toNat_true] at hle
  omega

private theorem opens_cnt (hb : opens b = opens a) :
    cnt (fun x => opens x == some file) ((([b] : List Act) : Multiset Act) + rest) =
      cnt (fun x => opens x == some file) (a ::ₘ rest) := by
  rw [cnt_add, cnt_coe_cons, cnt_coe_nil, cnt_cons, hb, Nat.add_zero]

theorem records (h : Numbered c (a ::ₘ rest)) (hr : Records c a c' pushed) :
    Numbered c' ((pushed : Multiset Act) + rest) := by
  obtain ⟨hcalls, hfiles⟩ := h
  rw [collect_cons] at hcalls
  cases hr with
  | goesOn b hcaller hopens hcounts hreturned hkept =>
    refine ⟨?_, ?_⟩
    · rw [hcounts.1, hreturned, collect_add, collect_coe_cons, hcaller, collect_coe_nil, add_zero]
      exact hcalls
    · intro file
      rw [opens_cnt hopens, hkept, hcounts.2]
      exact hfiles file
  | returns id value hcaller hcounts hreturned hkept =>
    refine ⟨?_, ?_⟩
    · rw [hcounts.1, hreturned, List.map_append, collect_add]
      rw [hcaller] at hcalls
      exact hcalls.finish
    · intro file
      have hle := hfiles file
      rw [cnt_cons] at hle
      rw [cnt_add, cnt_coe_nil, hcounts.2]
      rcases hkept with hkept | ⟨new, rfl, hkept⟩
      · rw [hkept]
        omega
      · rw [opens] at hle
        rw [hkept, List.count_cons]
        by_cases heq : new = file
        · rw [heq, beq_self_eq_true, Bool.toNat_true] at hle
          rw [heq, beq_self_eq_true, if_pos rfl]
          omega
        · have hne : (new == file) = false := by simpa using heq
          rw [hne, if_neg Bool.false_ne_true]
          omega
  | ends hcaller hopens hcounts hreturned hkept =>
    refine ⟨?_, ?_⟩
    · rw [hcounts.1, hreturned, collect_add, collect_coe_nil, zero_add]
      rw [hcaller] at hcalls
      exact (zero_add (collect caller rest)) ▸ hcalls
    · intro file
      have hle := hfiles file
      rw [cnt_cons] at hle
      rw [cnt_add, cnt_coe_nil, hkept, hcounts.2]
      omega

theorem begins {e : Event} (h : Numbered c m) (hb : Begins c e b c') :
    Numbered c' ((([b] : List Act) : Multiset Act) + m) := by
  obtain ⟨hcalls, hfiles⟩ := h
  refine ⟨?_, ?_⟩
  · rw [hb.returned, collect_add, collect_coe_cons, collect_coe_nil, add_zero]
    rcases hb.calls with ⟨hcaller, hcount⟩ | ⟨hcaller, hcount⟩
    · rw [hcaller, hcount]
      exact hcalls.start rfl
    · rw [hcaller, hcount]
      exact (zero_add (collect caller m)).symm ▸ hcalls
  · intro file
    have hle := hfiles file
    rw [cnt_add, cnt_coe_cons, cnt_coe_nil]
    rcases hb.files with ⟨hopens, hopened, hkept⟩ | ⟨hopens, hopened, hkept⟩
    · rw [hopens, hopened, hkept]
      by_cases heq : c.opened = file
      · rw [heq, decide_eq_false (Nat.lt_irrefl file), Bool.toNat_false] at hle
        rw [heq, beq_self_eq_true, decide_eq_true (Nat.lt_succ_self file), Bool.toNat_true]
        omega
      · have hne : (some c.opened == some file) = false := by simpa using heq
        have hlt : decide (file < c.opened + 1) = decide (file < c.opened) := by
          rw [decide_eq_decide]
          omega
        rw [hne, hlt, Bool.toNat_false]
        omega
    · have hfewer := hkept.count_le file
      rw [hopens, hopened, show (none == some file) = false from rfl, Bool.toNat_false]
      omega

theorem next {s t : System} {e : Event} (h : Numbered s.core s.pending)
    (hn : Model.next s e = some t) : Numbered t.core t.pending := by
  cases next_happens hn with
  | begins b hdeed hpending hbegins =>
    rw [hpending]
    exact h.begins hbegins
  | goes i o a rest pushed he hdeed hbefore hexec hafter =>
    rw [hbefore] at h
    rw [hafter]
    exact h.records (exec_records hexec)

theorem probed (bulkInSize : Nat) (bulkInBuffer : List Byte) :
    Numbered (probed bulkInSize bulkInBuffer).core (Lifetime.probed bulkInSize bulkInBuffer).pending
    where
  calls := Accounted.none _
  files _ := Nat.zero_le _

theorem steps {s t : System} {es : List Event}
    (h : Steps (fun s e t => Model.next s e = some t) s es t) (hs : Numbered s.core s.pending) :
    Numbered t.core t.pending := by
  induction h with
  | nil => exact hs
  | cons hstep _ ih => exact ih (hs.next hstep)

end Numbered

end LinuxDeviceDriver.Drivers.UsbSkel.Calls
