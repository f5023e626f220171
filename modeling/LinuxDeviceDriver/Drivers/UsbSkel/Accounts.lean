/- source: examples/21_usb_skel/main.c, lines 77 to 138 and 372 to 396
   digest: What counts the opens, the files and the uses of the tick URB, and how far the disconnect
     has got. -/

import LinuxDeviceDriver.Drivers.UsbSkel.Model
import LinuxDeviceDriver.Lib.Script

set_option autoImplicit false

namespace LinuxDeviceDriver.Drivers.UsbSkel.Accounts

open Lib.RefCount (Held)
open Lib.Resubmission (InFlight)
open Lib.Script (Followed of_prefix of_split)
open Lib.Threads
open Model

/-! ## Kinds of steps -/

def opening : Act → Bool
  | .openFind _ _ | .openLock _ _ | .openCheck _ _ | .openSubmit _ _ | .openUncount _ _ _
  | .openUnlock _ _ _ | .openGet _ _ | .openSeen _ _ => true
  | _ => false

/-- The call has the reference of its file. -/
def holding : Act → Bool
  | .openSeen _ _ | .closeLock _ | .closeCount _ | .closeKill _ | .closeWait _ | .closeUnlock _
  | .closePut _ => true
  | _ => false

/-- The call is counted in open_count, for a file that is not among the open ones. -/
def counted : Act → Bool
  | .openSubmit _ _ | .openUncount _ _ _ | .openGet _ _ | .openSeen _ _ => true
  | .openUnlock _ _ err => decide (err = 0)
  | .closeLock _ | .closeCount _ => true
  | _ => false

def handling : Act → Bool
  | .tickComplete _ _ _ | .tickResubmit | .tickReport | .giveBack => true
  | _ => false

/-- The handler is to submit the URB again. -/
def resubmits : Act → Bool
  | .tickComplete status _ _ => !unlinked status
  | .tickResubmit => true
  | _ => false

def left : Act → Option (List Unplug)
  | .unplug _ todo => some todo
  | _ => none

/-- What is counted of a step, apart from open_count. -/
def kind (a : Act) : Bool × Bool × Bool × Bool × Option (List Unplug) × Option Nat :=
  (opening a, holding a, handling a, resubmits a, left a, a.file)

theorem file_kind {a : Act} {file : Nat} (h : a.file = some file) :
    opening a = false ∧ holding a = false ∧ counted a = false ∧ handling a = false ∧
      resubmits a = false ∧ left a = none := by
  cases a <;> cases h <;> exact ⟨rfl, rfl, rfl, rfl, rfl, rfl⟩

theorem handling_kind {a : Act} (h : handling a = true) :
    opening a = false ∧ holding a = false ∧ counted a = false ∧ a.inside = false ∧
      left a = none ∧ a.file = none := by
  cases a <;> cases h <;> exact ⟨rfl, rfl, rfl, rfl, rfl, rfl⟩

theorem kinds (a : Act) : opening a = true ∨ holding a = true ∨ handling a = true ∨
    (∃ file, a.file = some file) ∨ ∃ id todo, a = .unplug id todo := by
  cases a <;> simp [opening, holding, handling, Act.file]

/-! ## The order of the disconnect -/

def Orderly (done : List Unplug) : Prop :=
  (.setDisconnected ∈ done → .usbDeregisterDev ∈ done) ∧
    (.usbKillUrb ∈ done → .setDisconnected ∈ done) ∧
    (.killWait ∈ done → .usbKillUrb ∈ done) ∧
    (.krefPut ∈ done → .killWait ∈ done ∧ done = skelDisconnect)

instance (done : List Unplug) : Decidable (Orderly done) :=
  inferInstanceAs (Decidable (_ ∧ _ ∧ _ ∧ _))

theorem orderly {done : List Unplug} (h : done <+: skelDisconnect) : Orderly done :=
  of_prefix h (by decide)

/-- The step that comes next is not made twice; what it holds of the mutex; and how far the
disconnect has got. -/
def Due (done : List Unplug) (x : Unplug) (todo : List Unplug) : Prop :=
  .krefPut ∉ done ∧
    Act.inside (.unplug 0 (x :: todo)) = decide (x = .setDisconnected ∨ x = .mutexUnlock) ∧
    Act.inside (.unplug 0 todo) = decide (x = .mutexLock ∨ x = .setDisconnected) ∧
    (x = .setDisconnected → .setDisconnected ∉ done) ∧
    (x ∈ [.usbKillUrb, .killWait, .wakeUp, .clearIntfdata, .krefPut] →
      .setDisconnected ∈ done ∧ .usbKillUrb ∈ done ++ [x]) ∧
    (.usbKillUrb ∈ done → .killWait ∉ done → x = .killWait)

instance (done : List Unplug) (x : Unplug) (todo : List Unplug) : Decidable (Due done x todo) :=
  inferInstanceAs (Decidable (_ ∧ _ ∧ _ ∧ _ ∧ _ ∧ _))

theorem due {done todo : List Unplug} {x : Unplug} (h : done ++ x :: todo = skelDisconnect) :
    Due done x todo :=
  of_split h (by decide)

theorem inside_unplug (id : Nat) (todo : List Unplug) :
    Act.inside (.unplug id todo) = Act.inside (.unplug 0 todo) := by
  cases todo with
  | nil => rfl
  | cons x todo => cases x <;> rfl

/-! ## What is counted -/

/-- The references of disconnect and of the open files. -/
def base (k : Skel) : Nat := (decide (.krefPut ∉ k.done)).toNat + k.files.length

def holders (k : Skel) (m : Multiset Act) : Nat := base k + cnt holding m

structure Counts (k : Skel) (m : Multiset Act) : Prop where
  opens : k.opening = cnt opening m
  count : k.openCount = (k.files.length + cnt counted m : Nat)
  flight : InFlight k.tickUrb (cnt handling m)
  alive : Held k.dev (holders k m)

structure Stage (k : Skel) (m : Multiset Act) : Prop where
  files : ∀ a ∈ m, ∀ file, a.file = some file → file ∈ k.files
  registered : k.registered = decide (.usbDeregisterDev ∉ k.done)
  disconnected : k.disconnected = decide (.setDisconnected ∈ k.done)
  follows : Followed left skelDisconnect k.done k.unplugging m
  noOpens : .usbDeregisterDev ∈ k.done → k.opening = 0
  dead : .killWait ∈ k.done → k.tickUrb.uses = 0

namespace Counts

variable {k k' : Skel} {m rest : Multiset Act} {a : Act} {pushed : List Act}

theorem step (h : Counts k (a ::ₘ rest))
    (hopening : k'.opening + (opening a).toNat = k.opening + cnt opening (pushed : Multiset Act))
    (hcount : k'.openCount + (counted a).toNat + k.files.length =
      k.openCount + cnt counted (pushed : Multiset Act) + k'.files.length)
    (hflight : ∀ n, InFlight k.tickUrb ((handling a).toNat + n) →
      InFlight k'.tickUrb (cnt handling (pushed : Multiset Act) + n))
    (halive : ∀ n, 0 < base k + ((holding a).toNat + n) →
      Held k.dev (base k + ((holding a).toNat + n)) →
      Held k'.dev (base k' + (cnt holding (pushed : Multiset Act) + n)))
    (hpos : 0 < holders k (a ::ₘ rest)) :
    Counts k' ((pushed : Multiset Act) + rest) := by
  obtain ⟨ho, hc, hf, ha⟩ := h
  unfold holders at ha hpos
  rw [cnt_cons] at ho hc hf ha hpos
  refine ⟨?_, ?_, ?_, ?_⟩
  · rw [cnt_add]
    omega
  · rw [cnt_add]
    push_cast at hc ⊢
    omega
  · rw [cnt_add]
    exact hflight _ hf
  · unfold holders
    rw [cnt_add]
    exact halive _ hpos ha

theorem add (h : Counts k m) {b : Act} (hopening : k'.opening = k.opening + (opening b).toNat)
    (hcount : k'.openCount + k.files.length = k.openCount + (counted b).toNat + k'.files.length)
    (hflight : ∀ n, InFlight k.tickUrb n → InFlight k'.tickUrb ((handling b).toNat + n))
    (halive : ∀ n, Held k.dev (base k + n) → Held k'.dev (base k' + ((holding b).toNat + n))) :
    Counts k' (([b] : List Act) + m) := by
  obtain ⟨ho, hc, hf, ha⟩ := h
  refine ⟨?_, ?_, ?_, ?_⟩
  · rw [cnt_add, cnt_coe_cons, cnt_coe_nil]
    omega
  · rw [cnt_add, cnt_coe_cons, cnt_coe_nil]
    push_cast at hc ⊢
    omega
  · rw [cnt_add, cnt_coe_cons, cnt_coe_nil]
    exact hflight _ hf
  · unfold holders
    rw [cnt_add, cnt_coe_cons, cnt_coe_nil]
    exact halive _ ha

theorem nonneg (h : Counts k m) : 0 ≤ k.openCount := by
  rw [h.count]
  exact Int.natCast_nonneg _

end Counts

namespace Stage

variable {k k' : Skel} {m rest : Multiset Act} {a : Act} {pushed : List Act}

/-- What is no step of the disconnect leaves it where it is. -/
theorem step (h : Stage k (a ::ₘ rest)) (ha : left a = none)
    (hsame : k'.registered = k.registered ∧ k'.disconnected = k.disconnected ∧
      k'.unplugging = k.unplugging ∧ k'.done = k.done)
    (hpushed : ∀ b ∈ pushed, left b = none ∧ (b.file = none ∨ b.file = a.file))
    (hfiles : ∀ file ∈ k.files, file ∈ k'.files) (hopening : k'.opening ≤ k.opening)
    (hdead : .killWait ∉ k.done ∨ k'.tickUrb.uses ≤ k.tickUrb.uses) :
    Stage k' ((pushed : Multiset Act) + rest) := by
  obtain ⟨hregistered, hdisconnected, hunplugging, hdone⟩ := hsame
  refine ⟨?_, ?_, ?_, ?_, ?_, ?_⟩
  · intro b hb file hfile
    apply hfiles
    rcases Multiset.mem_add.mp hb with hb | hb
    · rcases (hpushed b (Multiset.mem_coe.mp hb)).2 with hnone | hsame
      · rw [hnone] at hfile
        cases hfile
      · exact h.files a (Multiset.mem_cons_self a rest) file (hsame ▸ hfile)
    · exact h.files b (Multiset.mem_cons_of_mem hb) file hfile
  · rw [hregistered, hdone]
    exact h.registered
  · rw [hdisconnected, hdone]
    exact h.disconnected
  · rw [hdone, hunplugging]
    exact h.follows.other ha fun b hb => (hpushed b hb).1
  · rw [hdone]
    intro hgone
    have hzero := h.noOpens hgone
    omega
  · rw [hdone]
    intro hkilled
    have hzero := h.dead hkilled
    rcases hdead with hnot | hle
    · exact absurd hkilled hnot
    · omega

theorem add (h : Stage k m) {b : Act}
    (hsame : k'.registered = k.registered ∧ k'.disconnected = k.disconnected ∧ k'.done = k.done)
    (hfollows : Followed left skelDisconnect k.done k'.unplugging (([b] : List Act) + m))
    (hb : ∀ file, b.file = some file → file ∈ k'.files)
    (hfiles : ∀ a ∈ m, ∀ file, a.file = some file → file ∈ k'.files)
    (hopening : .usbDeregisterDev ∈ k.done → k'.opening = 0)
    (hdead : k'.tickUrb.uses = k.tickUrb.uses) : Stage k' (([b] : List Act) + m) := by
  obtain ⟨hregistered, hdisconnected, hdone⟩ := hsame
  refine ⟨?_, ?_, ?_, ?_, ?_, ?_⟩
  · intro a ha file hfile
    rcases Multiset.mem_add.mp ha with ha | ha
    · obtain rfl := List.mem_singleton.mp (Multiset.mem_coe.mp ha)
      exact hb file hfile
    · exact hfiles a ha file hfile
  · rw [hregistered, hdone]
    exact h.registered
  · rw [hdisconnected, hdone]
    exact h.disconnected
  · rw [hdone]
    exact hfollows
  · rw [hdone]
    exact hopening
  · rw [hdone, hdead]
    exact h.dead

end Stage

end LinuxDeviceDriver.Drivers.UsbSkel.Accounts
