/- source: examples/21_usb_skel/main.c, lines 25 to 138 and 372 to 396
   digest: What the holder of io_mutex knows about the tick URB, and that every step of the driver
     keeps it. -/

import LinuxDeviceDriver.Drivers.UsbSkel.Accounts
import LinuxDeviceDriver.Lib.Mutex

set_option autoImplicit false

namespace LinuxDeviceDriver.Drivers.UsbSkel.Polling

open Lib.Mutex (Locked)
open Lib.RefCount (Held Object)
open Lib.Resubmission (InFlight Request)
open Lib.Threads
open CharFile
open Model
open Accounts

/-! ## The mutex and the URB -/

/-- How often the URB is with the device or about to be: it is active, or its handler is to submit
it again. -/
def polling (k : Skel) (m : Multiset Act) : Nat := k.tickUrb.active.toNat + cnt resubmits m

/-- By how many files polling is wanted. What disconnect finds when it sets disconnected stays. -/
def wanted (k : Skel) : Int := if k.disconnected then k.openAtDisconnect else k.openCount

/-- No kill is in progress; the URB is not in use as long as it is not wanted, and is polling while
it is, unless it was lost. -/
def Settled (x : Skel × Nat) : Prop :=
  x.1.tickUrb.rejects = 0 ∧ (wanted x.1 ≤ 0 → x.1.tickUrb.uses = 0) ∧
    (x.1.lost = false → 0 < wanted x.1 → x.2 = 1)

/-- What is true while the mutex is free, until disconnect begins to kill the URB. -/
def Free (x : Skel × Nat) : Prop := .usbKillUrb ∉ x.1.done → Settled x

/-- What the holder of the mutex knows. -/
def Holds (x : Skel × Nat) : Act → Prop
  | .openSubmit _ _ =>
    x.1.tickUrb.rejects = 0 ∧ x.1.openCount = 1 ∧ x.1.tickUrb.uses = 0 ∧ x.1.disconnected = false
  | .openUncount _ _ err =>
    err ≠ 0 ∧ x.1.tickUrb.rejects = 0 ∧ x.1.openCount = 1 ∧ x.1.tickUrb.uses = 0 ∧
      x.1.disconnected = false
  | .closeKill _ =>
    x.1.tickUrb.rejects = 0 ∧ x.1.openCount = 0 ∧ x.1.disconnected = false
  | .closeWait _ =>
    x.1.tickUrb.rejects = 1 ∧ x.1.openCount = 0 ∧ x.1.disconnected = false
  | _ => Free x

abbrev Lock (k : Skel) (m : Multiset Act) : Prop :=
  Locked Act.inside (fun x : Skel × Nat => x.1.ioMutex) Free Holds (k, polling k m) m

structure Inv (k : Skel) (m : Multiset Act) : Prop where
  counts : Counts k m
  stage : Stage k m
  lock : Lock k m

section Knowledge

variable {k k' : Skel} {n n' : Nat} {a b : Act}

theorem wanted_there (h : k.disconnected = false) : wanted k = k.openCount := by
  rw [wanted, h]
  rfl

theorem Free.background {urb : Request} {lost : Bool} (h : Free (k, n))
    (hused : 0 < k.tickUrb.uses) (hrejects : urb.rejects = k.tickUrb.rejects)
    (hpolling : lost = false → k.tickUrb.rejects = 0 → k.lost = false ∧ n' = n) :
    Free ({ k with tickUrb := urb, lost }, n') := by
  intro hbefore
  obtain ⟨hnone, hidle, hpolls⟩ := h hbefore
  have hwanted : 0 < wanted k := by
    by_contra hnot
    have hzero : k.tickUrb.uses = 0 := hidle (not_lt.mp hnot)
    omega
  refine ⟨hrejects.trans hnone, ?_, ?_⟩
  · intro hle
    exact absurd hwanted (not_lt.mpr hle)
  · intro hlost _
    obtain ⟨hkept, heq⟩ := hpolling hlost hnone
    exact heq.trans (hpolls hkept hwanted)

theorem Holds.background {urb : Request} {lost : Bool} (h : Holds (k, n) b)
    (hused : 0 < k.tickUrb.uses) (hrejects : urb.rejects = k.tickUrb.rejects)
    (hpolling : lost = false → k.tickUrb.rejects = 0 → k.lost = false ∧ n' = n) :
    Holds ({ k with tickUrb := urb, lost }, n') b := by
  have hfree : Free (k, n) → Free ({ k with tickUrb := urb, lost }, n') :=
    fun hf => hf.background hused hrejects hpolling
  cases b with
  | openSubmit id file =>
    have hzero : k.tickUrb.uses = 0 := h.2.2.1
    omega
  | openUncount id file err =>
    have hzero : k.tickUrb.uses = 0 := h.2.2.2.1
    omega
  | closeKill id => exact ⟨hrejects.trans h.1, h.2⟩
  | closeWait id => exact ⟨hrejects.trans h.1, h.2⟩
  | _ => exact hfree h

theorem polling_eq {rest : Multiset Act} {pushed : List Act}
    (h : k'.tickUrb.active.toNat + cnt resubmits (pushed : Multiset Act) =
      k.tickUrb.active.toNat + (resubmits a).toNat) :
    polling k' ((pushed : Multiset Act) + rest) = polling k (a ::ₘ rest) := by
  unfold polling
  rw [cnt_add, cnt_cons]
  omega

end Knowledge

section Lock

variable {k k' : Skel} {rest : Multiset Act} {a b : Act} {pushed : List Act}

theorem Lock.moves (h : Lock k (a ::ₘ rest)) (ha : a.inside = true ∨ k.ioMutex = false)
    (hb : b.inside = true) (hlock : k'.ioMutex = true)
    (hholds : Holds (k', polling k' (([b] : List Act) + rest)) b) :
    Lock k' (([b] : List Act) + rest) :=
  Locked.alone h ha (Locked.taken hlock hb hholds)

theorem Lock.leaves (h : Lock k (a ::ₘ rest)) (ha : a.inside = true)
    (hpushed : cnt Act.inside (pushed : Multiset Act) = 0) (hlock : k'.ioMutex = false)
    (hfree : Free (k', polling k' ((pushed : Multiset Act) + rest))) :
    Lock k' ((pushed : Multiset Act) + rest) :=
  Locked.alone h (.inl ha) (Locked.given_back hlock hpushed hfree)

/-- A step that has nothing to do with the mutex or the URB. -/
theorem Lock.aside (h : Lock k (a ::ₘ rest)) (ha : a.inside = false)
    (hpushed : cnt Act.inside (pushed : Multiset Act) = 0)
    (hpolling : cnt resubmits (pushed : Multiset Act) = (resubmits a).toNat)
    (dev : Object) (opening : Nat) (files : List Nat) :
    Lock { k with dev, opening, files } ((pushed : Multiset Act) + rest) := by
  have heq : polling { k with dev, opening, files } ((pushed : Multiset Act) + rest) =
      polling k (a ::ₘ rest) := polling_eq (by rw [hpolling])
  rw [Lock, heq]
  exact Locked.frame h ha hpushed rfl (fun hfree => hfree) fun b _ hholds => by
    cases b <;> exact hholds

theorem Lock.background (h : Lock k (a ::ₘ rest)) (ha : a.inside = false)
    (hpushed : cnt Act.inside (pushed : Multiset Act) = 0) (hused : 0 < k.tickUrb.uses)
    {urb : Request} {lost : Bool} (hrejects : urb.rejects = k.tickUrb.rejects)
    (hpolling : lost = false → k.tickUrb.rejects = 0 → k.lost = false ∧
      urb.active.toNat + cnt resubmits (pushed : Multiset Act) =
        k.tickUrb.active.toNat + (resubmits a).toNat) :
    Lock { k with tickUrb := urb, lost } ((pushed : Multiset Act) + rest) := by
  have hkept : lost = false → k.tickUrb.rejects = 0 → k.lost = false ∧
      polling { k with tickUrb := urb, lost } ((pushed : Multiset Act) + rest) =
        polling k (a ::ₘ rest) := by
    intro hlost hnone
    obtain ⟨hk, heq⟩ := hpolling hlost hnone
    exact ⟨hk, polling_eq heq⟩
  refine Locked.frame h ha hpushed rfl ?_ ?_
  · exact fun hfree => hfree.background hused hrejects hkept
  · exact fun b _ hholds => hholds.background hused hrejects hkept

/-- From the kill of the disconnect on, nothing is left to know. -/
theorem Lock.late (h : Lock k (a ::ₘ rest)) (ha : a.inside = false)
    (hpushed : cnt Act.inside (pushed : Multiset Act) = 0) (hlock : k'.ioMutex = k.ioMutex)
    (hgone : k.disconnected = true) (hkill : .usbKillUrb ∈ k'.done) :
    Lock k' ((pushed : Multiset Act) + rest) := by
  have hfree : Free (k', polling k' ((pushed : Multiset Act) + rest)) := fun hnot => absurd hkill hnot
  apply Locked.frame h ha hpushed hlock (fun _ => hfree)
  intro b _ hholds
  have hthere : ¬ k.disconnected = false := by
    rw [hgone]
    decide
  cases b with
  | openSubmit id file => exact absurd hholds.2.2.2 hthere
  | openUncount id file err => exact absurd hholds.2.2.2.2 hthere
  | closeKill id => exact absurd hholds.2.2 hthere
  | closeWait id => exact absurd hholds.2.2 hthere
  | _ => exact hfree

end Lock

/-! ## One step -/

/-- What a step of the disconnect leaves alone, and what it waits for. -/
structure Unplugged (k : Skel) (x : Unplug) (k' : Skel) : Prop where
  same : k'.done = k.done ∧ k'.unplugging = k.unplugging ∧ k'.files = k.files ∧
    k'.opening = k.opening ∧ k'.openCount = k.openCount
  urb : k'.tickUrb.uses = k.tickUrb.uses ∧ k'.tickUrb.active = k.tickUrb.active
  registered : k'.registered = (k.registered && decide (x ≠ .usbDeregisterDev))
  disconnected : k'.disconnected = (k.disconnected || decide (x = .setDisconnected))
  dev : k'.dev = if x = .krefPut then k.dev.put else k.dev
  waits : (x = .usbDeregisterDev → k.opening = 0) ∧ (x = .killWait → k.tickUrb.uses = 0)

theorem unplugStep_spec {k k' : Skel} {x : Unplug} (h : unplugStep k x = some k') :
    Unplugged k x k' := by
  cases x with
  | usbDeregisterDev =>
    obtain ⟨hopening, heq⟩ := Option.ite_none_right_eq_some.mp h
    obtain rfl := Option.some.inj heq
    exact ⟨⟨rfl, rfl, rfl, rfl, rfl⟩, ⟨rfl, rfl⟩, by simp, by simp, rfl, fun _ => hopening, nofun⟩
  | mutexLock =>
    obtain ⟨-, heq⟩ := Option.ite_none_left_eq_some.mp h
    obtain rfl := Option.some.inj heq
    exact ⟨⟨rfl, rfl, rfl, rfl, rfl⟩, ⟨rfl, rfl⟩, by simp, by simp, rfl, by simp⟩
  | killWait =>
    obtain ⟨hwaited, heq⟩ := Option.ite_none_right_eq_some.mp h
    obtain rfl := Option.some.inj heq
    exact ⟨⟨rfl, rfl, rfl, rfl, rfl⟩, ⟨rfl, rfl⟩, by simp, by simp, rfl, nofun, fun _ => hwaited⟩
  | setDisconnected | mutexUnlock | usbKillUrb | wakeUp | clearIntfdata | krefPut =>
    obtain rfl := Option.some.inj h
    exact ⟨⟨rfl, rfl, rfl, rfl, rfl⟩, ⟨rfl, rfl⟩, by simp, by simp, rfl, by simp⟩

namespace Inv

variable {k k' : Skel} {m rest : Multiset Act} {a b : Act} {pushed : List Act} {id file : Nat}

theorem disconnect_put (h : Inv k m)
    (hnot : .usbDeregisterDev ∉ k.done ∨ .killWait ∉ k.done) : .krefPut ∉ k.done := by
  intro hput
  obtain ⟨hset, hkill, hwait, hlast⟩ := orderly h.stage.follows.inOrder
  have hwaited := (hlast hput).1
  rcases hnot with hnot | hnot
  · exact hnot (hset (hkill (hwait hwaited)))
  · exact hnot hwaited

theorem registered_of_opening (h : Inv k m) (ha : a ∈ m) (hopening : opening a = true) :
    .usbDeregisterDev ∉ k.done := by
  intro hgone
  have hpos := cnt_pos_of_mem ha hopening
  rw [← h.counts.opens, h.stage.noOpens hgone] at hpos
  exact absurd hpos (Nat.lt_irrefl 0)

theorem used_of_handling (h : Inv k m) (ha : a ∈ m) (hhandling : handling a = true) :
    0 < k.tickUrb.uses :=
  h.counts.flight.used (.inl (cnt_pos_of_mem ha hhandling))

theorem unkilled_of_used (h : Inv k m) (hused : 0 < k.tickUrb.uses) : .killWait ∉ k.done := by
  intro hkilled
  rw [h.stage.dead hkilled] at hused
  exact absurd hused (Nat.lt_irrefl 0)

theorem alive (h : Inv k m) (ha : a ∈ m) (hleft : left a ≠ some []) : 0 < holders k m := by
  have hbase : .krefPut ∉ k.done → 0 < holders k m := by
    intro hnot
    unfold holders base
    rw [decide_eq_true hnot, Bool.toNat_true]
    omega
  rcases kinds a with hopening | hholding | hhandling | ⟨file, hfile⟩ | ⟨id, todo, rfl⟩
  · exact hbase (h.disconnect_put (.inl (h.registered_of_opening ha hopening)))
  · have hpos := cnt_pos_of_mem ha hholding
    unfold holders
    omega
  · exact hbase (h.disconnect_put (.inr (h.unkilled_of_used (h.used_of_handling ha hhandling))))
  · have hpos := List.length_pos_of_mem (h.stage.files a ha file hfile)
    unfold holders base
    omega
  · cases todo with
    | nil => exact absurd rfl hleft
    | cons x todo => exact hbase (due (h.stage.follows.todo _ ha _ rfl)).1

theorem goes (h : Inv k (a ::ₘ rest)) (b : Act) (openCount : Int) (ioMutex : Bool)
    (tickUrb : Request) (hkind : kind b = kind a) (hleft : left a = none)
    (hcount : openCount + (counted a).toNat = k.openCount + (counted b).toNat)
    (hurb : tickUrb.uses = k.tickUrb.uses ∧ tickUrb.active = k.tickUrb.active)
    (hlock : Lock { k with openCount, ioMutex, tickUrb } (([b] : List Act) + rest)) :
    Inv { k with openCount, ioMutex, tickUrb } (([b] : List Act) + rest) := by
  simp only [kind, Prod.mk.injEq] at hkind
  obtain ⟨hopening, hholding, hhandling, -, hleft', hfile⟩ := hkind
  have hpos := h.alive (Multiset.mem_cons_self a rest) (by rw [hleft]; exact nofun)
  refine ⟨h.counts.step ?_ ?_ ?_ ?_ hpos, h.stage.step hleft ⟨rfl, rfl, rfl, rfl⟩ ?_ ?_ ?_ ?_,
    hlock⟩
  · rw [cnt_coe_cons, cnt_coe_nil, hopening]
    rfl
  · rw [cnt_coe_cons, cnt_coe_nil]
    dsimp only
    omega
  · intro n hn
    rw [cnt_coe_cons, cnt_coe_nil, hhandling]
    unfold InFlight at hn ⊢
    dsimp only
    rw [hurb.1, hurb.2]
    exact hn
  · intro n _ hn
    rw [cnt_coe_cons, cnt_coe_nil, hholding]
    exact hn
  · intro b' hb
    obtain rfl := List.mem_singleton.mp hb
    exact ⟨hleft'.trans hleft, .inr hfile⟩
  · exact fun _ hf => hf
  · exact Nat.le_refl _
  · exact .inr hurb.1.le

theorem ends (h : Inv k (a ::ₘ rest))
    (hkind : holding a = false ∧ handling a = false ∧ counted a = false ∧ left a = none)
    (ioMutex : Bool) (opening : Nat) (hopening : opening + (Accounts.opening a).toNat = k.opening)
    (hlock : Lock { k with ioMutex, opening } (([] : List Act) + rest)) :
    Inv { k with ioMutex, opening } (([] : List Act) + rest) := by
  obtain ⟨hholding, hhandling, hcounted, hleft⟩ := hkind
  have hpos := h.alive (Multiset.mem_cons_self a rest) (by rw [hleft]; exact nofun)
  refine ⟨h.counts.step ?_ ?_ ?_ ?_ hpos, h.stage.step hleft ⟨rfl, rfl, rfl, rfl⟩ ?_ ?_ ?_ ?_,
    hlock⟩
  · exact hopening
  · rw [hcounted]
    rfl
  · intro n hn
    rw [hhandling] at hn
    exact hn
  · intro n _ hn
    rw [hholding] at hn
    exact hn
  · exact fun b hb => absurd hb List.not_mem_nil
  · exact fun _ hf => hf
  · show opening ≤ k.opening
    omega
  · exact .inr (Nat.le_refl _)

theorem kind_user (ha : a.file = some file) (hb : b.file = some file) : kind b = kind a := by
  obtain ⟨ho, hh, -, hd, hr, hl⟩ := file_kind ha
  obtain ⟨ho', hh', -, hd', hr', hl'⟩ := file_kind hb
  rw [kind, kind, ho, hh, hd, hr, hl, ha, ho', hh', hd', hr', hl', hb]

theorem holds_user {x : Skel × Nat} (hb : b.file = some file) (h : Free x) : Holds x b := by
  cases b <;> cases hb <;> exact h

theorem knows_user {x : Skel × Nat} (ha : a.file = some file) (h : Holds x a) : Free x := by
  cases a <;> cases ha <;> exact h

/-- The count of opens in progress, when one of them returns. -/
theorem opening_returns (h : Inv k (a ::ₘ rest)) (ha : opening a = true) :
    k.opening - 1 + (opening a).toNat = k.opening := by
  have hpos := h.counts.opens
  rw [cnt_cons] at hpos
  rw [ha, Bool.toNat_true] at hpos ⊢
  omega

theorem holder (h : Inv k (a ::ₘ rest)) (ha : a.inside = true) :
    k.ioMutex = true ∧ Holds (k, polling k (a ::ₘ rest)) a :=
  ⟨h.lock.locked_of_inside (Multiset.mem_cons_self a rest) ha,
    h.lock.held a (Multiset.mem_cons_self a rest) ha⟩

/-- Before disconnect, what is settled is settled by open_count. -/
theorem settled (h : Inv k m) {n : Nat} (hthere : k.disconnected = false) (hfree : Free (k, n)) :
    k.tickUrb.rejects = 0 ∧ (k.openCount ≤ 0 → k.tickUrb.uses = 0) ∧
      (k.lost = false → 0 < k.openCount → n = 1) := by
  have hnot : .usbKillUrb ∉ k.done := by
    intro hkill
    have hgone := h.stage.disconnected
    rw [decide_eq_true ((orderly h.stage.follows.inOrder).2.1 hkill), hthere] at hgone
    cases hgone
  have hsettled := hfree hnot
  rw [Settled, wanted_there hthere] at hsettled
  exact hsettled

theorem there_of_opening (h : Inv k m) (ha : a ∈ m) (hopening : opening a = true) :
    k.disconnected = false := by
  rw [h.stage.disconnected, decide_eq_false_iff_not]
  intro hgone
  exact h.registered_of_opening ha hopening ((orderly h.stage.follows.inOrder).1 hgone)

/-- To settle by open_count is enough before disconnect. -/
theorem free_there {n : Nat} (hthere : k.disconnected = false) (hrejects : k.tickUrb.rejects = 0)
    (hidle : k.openCount ≤ 0 → k.tickUrb.uses = 0)
    (hpolls : k.lost = false → 0 < k.openCount → n = 1) : Free (k, n) := by
  intro _
  rw [Settled, wanted_there hthere]
  exact ⟨hrejects, hidle, hpolls⟩

theorem free_gone {n : Nat} (hgone : k.disconnected = true) (hfree : Free (k, n))
    (openCount : Int) : Free ({ k with openCount }, n) := by
  have hwanted : wanted { k with openCount } = wanted k := by
    unfold wanted
    dsimp only
    rw [hgone]
    rfl
  intro hnot
  obtain ⟨hrejects, hidle, hpolls⟩ := hfree hnot
  refine ⟨hrejects, ?_, ?_⟩
  · intro hle
    exact hidle (hwanted ▸ hle)
  · intro hlost hpos
    exact hpolls hlost (hwanted ▸ hpos)

/-! ### Open -/

theorem openFirst (h : Inv k (.openCheck id file ::ₘ rest)) (hcount : k.openCount = 0) :
    Inv { k with openCount := k.openCount + 1 } (([.openSubmit id file] : List Act) + rest) := by
  have hself := Multiset.mem_cons_self (Act.openCheck id file) rest
  obtain ⟨hlock, hholds⟩ := h.holder rfl
  have hthere := h.there_of_opening hself rfl
  obtain ⟨hrejects, hidle, -⟩ := h.settled hthere hholds
  refine h.goes _ _ _ k.tickUrb rfl rfl ?_ ⟨rfl, rfl⟩ (h.lock.moves (.inl rfl) rfl hlock ?_)
  · show k.openCount + 1 + (0 : Nat) = k.openCount + (1 : Nat)
    omega
  refine ⟨hrejects, ?_, hidle hcount.le, hthere⟩
  show k.openCount + 1 = 1
  omega

theorem openMore (h : Inv k (.openCheck id file ::ₘ rest)) (hcount : k.openCount ≠ 0) :
    Inv { k with openCount := k.openCount + 1 } (([.openUnlock id file 0] : List Act) + rest) := by
  have hself := Multiset.mem_cons_self (Act.openCheck id file) rest
  have hnonneg := h.counts.nonneg
  obtain ⟨hlock, hholds⟩ := h.holder rfl
  have hthere := h.there_of_opening hself rfl
  obtain ⟨hrejects, -, hpolls⟩ := h.settled hthere hholds
  refine h.goes _ _ _ k.tickUrb rfl rfl ?_ ⟨rfl, rfl⟩ (h.lock.moves (.inl rfl) rfl hlock ?_)
  · show k.openCount + 1 + (0 : Nat) = k.openCount + (1 : Nat)
    omega
  refine free_there hthere hrejects ?_ ?_
  · intro hle
    have hle' : k.openCount + 1 ≤ 0 := hle
    omega
  · intro hlost _
    rw [polling_eq (k := k) (a := .openCheck id file) rfl]
    exact hpolls hlost (by omega)

theorem openUncounts {err : Int} (h : Inv k (.openUncount id file err ::ₘ rest)) :
    Inv { k with openCount := k.openCount - 1 } (([.openUnlock id file err] : List Act) + rest) := by
  obtain ⟨hlock, herr, hrejects, hcount, huses, hthere⟩ := h.holder rfl
  have hcount' : k.openCount = 1 := hcount
  have hnone : counted (.openUnlock id file err) = false := decide_eq_false herr
  refine h.goes _ _ _ k.tickUrb rfl rfl ?_ ⟨rfl, rfl⟩ (h.lock.moves (.inl rfl) rfl hlock ?_)
  · rw [hnone]
    show k.openCount - 1 + 1 = k.openCount + 0
    omega
  · refine free_there hthere hrejects (fun _ => huses) ?_
    intro _ hpos
    have hpos' : 0 < k.openCount - 1 := hpos
    omega

theorem openSubmits (h : Inv k (.openSubmit id file ::ₘ rest)) :
    Inv { k with tickUrb := k.tickUrb.submit }
      (([.openUnlock id file 0] : List Act) + rest) := by
  have hself := Multiset.mem_cons_self (Act.openSubmit id file) rest
  obtain ⟨hlock, hrejects, hcount, huses, hthere⟩ := h.holder rfl
  have hcount' : k.openCount = 1 := hcount
  obtain ⟨hidle, hnone⟩ := h.counts.flight.unused huses
  have hunkilled : .killWait ∉ k.done := by
    intro hkilled
    obtain ⟨hset, hkill, hwait, -⟩ := orderly h.stage.follows.inOrder
    exact h.registered_of_opening hself rfl (hset (hkill (hwait hkilled)))
  have hpos := h.alive hself nofun
  refine ⟨h.counts.step rfl rfl (fun n hn => hn.submit hidle) (fun n _ hn => hn) hpos,
    h.stage.step rfl ⟨rfl, rfl, rfl, rfl⟩ ?_ (fun _ hf => hf) (Nat.le_refl _) (.inl hunkilled),
    h.lock.moves (.inl rfl) rfl hlock ?_⟩
  · intro b hb
    obtain rfl := List.mem_singleton.mp hb
    exact ⟨rfl, .inl rfl⟩
  · refine free_there hthere hrejects ?_ ?_
    · intro hle
      have hle' : k.openCount ≤ 0 := hle
      omega
    · intro _ _
      have hresubmits : cnt resubmits rest = 0 := by
        rw [cnt_eq_zero]
        intro b hb
        have hhandling := cnt_eq_zero.mp hnone b (Multiset.mem_cons_of_mem hb)
        cases b <;> first | rfl | cases hhandling
      show 1 + cnt resubmits (([.openUnlock id file 0] : List Act) + rest) = 1
      rw [cnt_add, hresubmits]
      rfl

theorem openGets (h : Inv k (.openGet id file ::ₘ rest)) :
    Inv { k with dev := k.dev.get } (([.openSeen id file] : List Act) + rest) := by
  have hpos := h.alive (Multiset.mem_cons_self _ rest) nofun
  refine ⟨h.counts.step rfl rfl (fun n hn => hn) ?_ hpos, h.stage.step rfl ⟨rfl, rfl, rfl, rfl⟩ ?_
    (fun _ hf => hf) (Nat.le_refl _) (.inr (Nat.le_refl _)), h.lock.aside rfl rfl rfl _ _ _⟩
  · intro n hpos hn
    have heq : base k + (1 + n) = base k + (0 + n) + 1 := by omega
    show Held k.dev.get (base k + (1 + n))
    rw [heq]
    exact hn.get hpos
  · intro b hb
    obtain rfl := List.mem_singleton.mp hb
    exact ⟨rfl, .inl rfl⟩

theorem opened (h : Inv k (.openSeen id file ::ₘ rest)) :
    Inv { k with files := file :: k.files, opening := k.opening - 1 }
      (([] : List Act) + rest) := by
  have hopening := h.opening_returns rfl
  have hpos := h.alive (Multiset.mem_cons_self _ rest) nofun
  refine ⟨h.counts.step hopening ?_ (fun n hn => hn) ?_ hpos, h.stage.step rfl ⟨rfl, rfl, rfl, rfl⟩ ?_ ?_ ?_
    (.inr (Nat.le_refl _)), h.lock.aside rfl rfl rfl _ _ _⟩
  · show k.openCount + (1 : Nat) + k.files.length = k.openCount + (0 : Nat) + (k.files.length + 1 : Nat)
    omega
  · intro n _ hn
    have heq : base { k with files := file :: k.files, opening := k.opening - 1 } + (0 + n) =
        base k + (1 + n) := by
      unfold base
      dsimp only
      rw [List.length_cons]
      omega
    rw [show cnt holding (([] : List Act) : Multiset Act) = 0 from rfl, heq]
    exact hn
  · exact fun b hb => absurd hb List.not_mem_nil
  · exact fun f hf => List.mem_cons_of_mem file hf
  · exact Nat.sub_le k.opening 1

/-! ### Close -/

theorem closeLast (h : Inv k (.closeCount id ::ₘ rest)) (hcount : k.openCount - 1 = 0)
    (hthere : k.disconnected = false) :
    Inv { k with openCount := k.openCount - 1 } (([.closeKill id] : List Act) + rest) := by
  obtain ⟨hlock, hholds⟩ := h.holder rfl
  obtain ⟨hrejects, -, -⟩ := h.settled hthere hholds
  refine h.goes _ _ _ k.tickUrb rfl rfl ?_ ⟨rfl, rfl⟩ (h.lock.moves (.inl rfl) rfl hlock ?_)
  · show k.openCount - 1 + (1 : Nat) = k.openCount + (0 : Nat)
    omega
  · exact ⟨hrejects, hcount, hthere⟩

/-- Other files are open, or the device is gone and disconnect will stop the polling. -/
theorem closeMore (h : Inv k (.closeCount id ::ₘ rest))
    (hmore : ¬(k.openCount - 1 = 0 ∧ k.disconnected = false)) :
    Inv { k with openCount := k.openCount - 1 } (([.closeUnlock id] : List Act) + rest) := by
  obtain ⟨hlock, hholds⟩ := h.holder rfl
  have hfree : Free (k, polling k (.closeCount id ::ₘ rest)) := hholds
  refine h.goes _ _ _ k.tickUrb rfl rfl ?_ ⟨rfl, rfl⟩ (h.lock.moves (.inl rfl) rfl hlock ?_)
  · show k.openCount - 1 + (1 : Nat) = k.openCount + (0 : Nat)
    omega
  have heq : polling { k with openCount := k.openCount - 1 }
      (([.closeUnlock id] : List Act) + rest) = polling k (.closeCount id ::ₘ rest) :=
    polling_eq rfl
  show Free ({ k with openCount := k.openCount - 1 }, _)
  rw [heq]
  rcases Bool.eq_false_or_eq_true k.disconnected with hgone | hthere
  · exact free_gone hgone hfree _
  · have hpos : 0 < k.openCount := by
      have hcount := h.counts.count
      rw [cnt_cons] at hcount
      have hself : (counted (.closeCount id)).toNat = 1 := rfl
      omega
    have hne : k.openCount - 1 ≠ 0 := fun hzero => hmore ⟨hzero, hthere⟩
    obtain ⟨hrejects, -, hpolls⟩ := h.settled hthere hfree
    refine free_there hthere hrejects ?_ (fun hlost _ => hpolls hlost hpos)
    intro hle
    have hle' : k.openCount - 1 ≤ 0 := hle
    omega

theorem closeKills (h : Inv k (.closeKill id ::ₘ rest)) :
    Inv { k with tickUrb := k.tickUrb.kill } (([.closeWait id] : List Act) + rest) := by
  obtain ⟨hlock, hrejects, hknown⟩ := h.holder rfl
  refine h.goes _ k.openCount k.ioMutex _ rfl rfl rfl ⟨rfl, rfl⟩
    (h.lock.moves (.inl rfl) rfl hlock ⟨?_, hknown⟩)
  have hnone : k.tickUrb.rejects = 0 := hrejects
  show k.tickUrb.rejects + 1 = 1
  omega

theorem closeKilled (h : Inv k (.closeWait id ::ₘ rest)) (hwaited : k.tickUrb.uses = 0) :
    Inv { k with tickUrb := k.tickUrb.killed } (([.closeUnlock id] : List Act) + rest) := by
  obtain ⟨hlock, hrejects, hcount, hthere⟩ := h.holder rfl
  have hone : k.tickUrb.rejects = 1 := hrejects
  have hzero : k.openCount = 0 := hcount
  refine h.goes _ k.openCount k.ioMutex _ rfl rfl rfl ⟨rfl, rfl⟩
    (h.lock.moves (.inl rfl) rfl hlock (free_there hthere ?_ (fun _ => hwaited) ?_))
  · show k.tickUrb.rejects - 1 = 0
    omega
  · intro _ hpos
    have hpos' : 0 < k.openCount := hpos
    omega

theorem closed (h : Inv k (.closePut id ::ₘ rest)) :
    Inv { k with dev := k.dev.put } (([] : List Act) + rest) := by
  have hpos := h.alive (Multiset.mem_cons_self _ rest) nofun
  refine ⟨h.counts.step rfl rfl (fun n hn => hn) ?_ hpos, h.stage.step rfl ⟨rfl, rfl, rfl, rfl⟩ ?_
    (fun _ hf => hf) (Nat.le_refl _) (.inr (Nat.le_refl _)), h.lock.aside rfl rfl rfl _ _ _⟩
  · intro n _ hn
    have heq : base k + (1 + n) = base k + (0 + n) + 1 := by omega
    have hlast : Held k.dev (base k + (1 + n)) := hn
    rw [heq] at hlast
    exact hlast.put
  · exact fun b hb => absurd hb List.not_mem_nil

/-! ### The handler -/

theorem tick (h : Inv k (a ::ₘ rest)) (ha : handling a = true) (hleft : ∀ b ∈ pushed, handling b = true)
    {urb : Request} {lost : Bool} (hrejects : urb.rejects = k.tickUrb.rejects)
    (hflight : ∀ n, InFlight k.tickUrb (1 + n) →
      InFlight urb (cnt handling (pushed : Multiset Act) + n))
    (hpolling : lost = false → k.tickUrb.rejects = 0 → k.lost = false ∧
      urb.active.toNat + cnt resubmits (pushed : Multiset Act) =
        k.tickUrb.active.toNat + (resubmits a).toNat) :
    Inv { k with tickUrb := urb, lost } ((pushed : Multiset Act) + rest) := by
  have hself := Multiset.mem_cons_self a rest
  have hused := h.used_of_handling hself ha
  have hzero : ∀ p : Act → Bool, (∀ b, handling b = true → p b = false) →
      cnt p (pushed : Multiset Act) = 0 := by
    intro p hp
    rw [cnt_eq_zero]
    exact fun b hb => hp b (hleft b (Multiset.mem_coe.mp hb))
  obtain ⟨ho, hh, hc, hi, hl, -⟩ := handling_kind ha
  have hpos := h.alive hself (by rw [hl]; exact nofun)
  refine ⟨h.counts.step ?_ ?_ ?_ ?_ hpos, h.stage.step hl ⟨rfl, rfl, rfl, rfl⟩ ?_ (fun _ hf => hf)
    (Nat.le_refl _) (.inl (h.unkilled_of_used hused)),
    h.lock.background hi (hzero _ fun b hb => (handling_kind hb).2.2.2.1) hused hrejects hpolling⟩
  · rw [hzero opening fun b hb => (handling_kind hb).1, ho]
    rfl
  · rw [hzero counted fun b hb => (handling_kind hb).2.2.1, hc]
    rfl
  · intro n hn
    rw [ha] at hn
    exact hflight n hn
  · intro n _ hn
    rw [hzero holding fun b hb => (handling_kind hb).2.1]
    rw [hh] at hn
    exact hn
  · intro b hb
    obtain ⟨-, -, -, -, hnone, hfile⟩ := handling_kind (hleft b hb)
    exact ⟨hnone, .inl hfile⟩

/-! ### Disconnect -/

section Disconnect

variable {x : Unplug} {todo : List Unplug}

theorem counts_unplug (h : Inv k (.unplug id (x :: todo) ::ₘ rest)) (hx : Unplugged k x k')
    (hpushed : pushed = [.unplug id todo] ∨ (pushed = [] ∧ todo = [])) :
    Counts { k' with done := k'.done ++ [x] } ((pushed : Multiset Act) + rest) := by
  have hself := Multiset.mem_cons_self (Act.unplug id (x :: todo)) rest
  obtain ⟨hdone, -, hfiles, hopening, hcount⟩ := hx.same
  obtain ⟨hput, -⟩ := due (h.stage.follows.todo _ hself _ rfl)
  have hzero : cnt opening (pushed : Multiset Act) = 0 ∧ cnt counted (pushed : Multiset Act) = 0 ∧
      cnt handling (pushed : Multiset Act) = 0 ∧ cnt holding (pushed : Multiset Act) = 0 := by
    rcases hpushed with rfl | ⟨rfl, -⟩ <;> exact ⟨rfl, rfl, rfl, rfl⟩
  obtain ⟨ho, hc, hh, hd⟩ := hzero
  refine h.counts.step ?_ ?_ ?_ ?_ (h.alive hself nofun)
  · rw [ho]
    exact hopening
  · rw [hc]
    dsimp only
    rw [hcount, hfiles]
    rfl
  · intro n hn
    rw [hh]
    unfold InFlight at hn ⊢
    dsimp only
    rw [hx.urb.1, hx.urb.2]
    exact hn
  · intro n _ hn
    rw [hd]
    unfold base at hn ⊢
    dsimp only
    rw [hdone, hfiles, hx.dev]
    rw [decide_eq_true hput, Bool.toNat_true] at hn
    by_cases hlast : x = .krefPut
    · subst hlast
      rw [if_pos rfl, decide_eq_false (by simp), Bool.toNat_false]
      have heq : 1 + k.files.length + (0 + n) = 0 + k.files.length + (0 + n) + 1 := by omega
      have hheld : Held k.dev (1 + k.files.length + (0 + n)) := hn
      rw [heq] at hheld
      exact hheld.put
    · have hnot : .krefPut ∉ k.done ++ [x] := by
        rw [List.mem_append, List.mem_singleton, not_or]
        exact ⟨hput, fun heq => hlast heq.symm⟩
      rw [if_neg hlast, decide_eq_true hnot, Bool.toNat_true]
      exact hn

theorem stage_unplug (h : Inv k (.unplug id (x :: todo) ::ₘ rest)) (hx : Unplugged k x k')
    (hpushed : pushed = [.unplug id todo] ∨ (pushed = [] ∧ todo = [])) :
    Stage { k' with done := k'.done ++ [x] } ((pushed : Multiset Act) + rest) := by
  obtain ⟨hdone, hunplugging, hfiles, hopening, -⟩ := hx.same
  have hself := Multiset.mem_cons_self (Act.unplug id (x :: todo)) rest
  refine ⟨?_, ?_, ?_, ?_, ?_, ?_⟩
  · intro b hb file hfile
    show file ∈ k'.files
    rw [hfiles]
    rcases Multiset.mem_add.mp hb with hb | hb
    · rcases hpushed with rfl | ⟨rfl, -⟩
      · obtain rfl := List.mem_singleton.mp (Multiset.mem_coe.mp hb)
        cases hfile
      · cases hb
    · exact h.stage.files b (Multiset.mem_cons_of_mem hb) file hfile
  · dsimp only
    rw [hx.registered, h.stage.registered, hdone]
    by_cases heq : x = .usbDeregisterDev
    · simp [heq]
    · simp [heq, Ne.symm heq]
  · dsimp only
    rw [hx.disconnected, h.stage.disconnected, hdone]
    by_cases heq : x = .setDisconnected
    · simp [heq]
    · simp [heq, Ne.symm heq]
  · dsimp only
    rw [hdone, hunplugging]
    exact h.stage.follows.advance rfl rfl hpushed
  · dsimp only
    rw [hdone, hopening]
    intro hgone
    rcases List.mem_append.mp hgone with hgone | hgone
    · exact h.stage.noOpens hgone
    · exact hx.waits.1 (List.mem_singleton.mp hgone).symm
  · dsimp only
    rw [hdone, hx.urb.1]
    intro hkilled
    rcases List.mem_append.mp hkilled with hkilled | hkilled
    · exact h.stage.dead hkilled
    · exact hx.waits.2 (List.mem_singleton.mp hkilled).symm

theorem polling_unplug (hx : Unplugged k x k')
    (hpushed : pushed = [.unplug id todo] ∨ (pushed = [] ∧ todo = [])) :
    polling { k' with done := k'.done ++ [x] } ((pushed : Multiset Act) + rest) =
      polling k (.unplug id (x :: todo) ::ₘ rest) := by
  apply polling_eq
  dsimp only
  rw [hx.urb.2]
  rcases hpushed with rfl | ⟨rfl, -⟩ <;> rfl

theorem free_append {n : Nat} (hfree : Free (k, n)) (x : Unplug) :
    Free ({ k with done := k.done ++ [x] }, n) :=
  fun hnot => hfree fun hkill => hnot (List.mem_append_left [x] hkill)

theorem free_setDisconnected {n : Nat} (hthere : k.disconnected = false) (hfree : Free (k, n)) :
    Free ({ k with disconnected := true, openAtDisconnect := k.openCount }, n) := by
  intro hnot
  have hsettled := hfree hnot
  rw [Settled, wanted_there hthere] at hsettled
  exact hsettled

theorem lock_unplug (h : Inv k (.unplug id (x :: todo) ::ₘ rest)) (hstep : unplugStep k x = some k')
    (hpushed : pushed = [.unplug id todo] ∨ (pushed = [] ∧ todo = [])) :
    Lock { k' with done := k'.done ++ [x] } ((pushed : Multiset Act) + rest) := by
  have hx := unplugStep_spec hstep
  have hself := Multiset.mem_cons_self (Act.unplug id (x :: todo)) rest
  obtain ⟨-, hin, hthen, hset, hlate, -⟩ := due (h.stage.follows.todo _ hself _ rfl)
  rw [← inside_unplug id] at hin hthen
  have hpolling : polling { k' with done := k'.done ++ [x] } ((pushed : Multiset Act) + rest) =
      polling k (.unplug id (x :: todo) ::ₘ rest) := polling_unplug hx hpushed
  -- the acts that come next are outside the mutex, except for the two in the middle
  have houtside : Act.inside (.unplug id todo) = false → cnt Act.inside (pushed : Multiset Act) = 0 := by
    intro hnot
    rcases hpushed with rfl | ⟨rfl, -⟩
    · rw [cnt_coe_cons, cnt_coe_nil, hnot]
      rfl
    · rfl
  have hgoes : Act.inside (.unplug id todo) = true → pushed = [.unplug id todo] := by
    intro hyes
    rcases hpushed with rfl | ⟨-, rfl⟩
    · rfl
    · cases hyes
  have hends : x ∈ [.usbKillUrb, .killWait, .wakeUp, .clearIntfdata, .krefPut] →
      Act.inside (.unplug id (x :: todo)) = false → Act.inside (.unplug id todo) = false →
      k'.ioMutex = k.ioMutex →
      Lock { k' with done := k'.done ++ [x] } ((pushed : Multiset Act) + rest) := by
    intro hmem hout hout' hlock
    obtain ⟨hgone, hkill⟩ := hlate hmem
    refine h.lock.late hout (houtside hout') hlock ?_ ?_
    · rw [h.stage.disconnected]
      exact decide_eq_true hgone
    · show .usbKillUrb ∈ k'.done ++ [x]
      rw [hx.same.1]
      exact hkill
  cases x with
  | usbDeregisterDev =>
    obtain ⟨-, heq⟩ := Option.ite_none_right_eq_some.mp hstep
    obtain rfl := Option.some.inj heq
    rw [Lock, hpolling]
    refine Locked.frame h.lock hin (houtside hthen) rfl (fun hfree => free_append hfree _) ?_
    intro b _ hholds
    cases b <;> first | exact hholds | exact free_append hholds _
  | mutexLock =>
    obtain ⟨hfree, heq⟩ := Option.ite_none_left_eq_some.mp hstep
    obtain rfl := Option.some.inj heq
    obtain rfl := hgoes hthen
    have hopen : k.ioMutex = false := by simpa using hfree
    refine h.lock.moves (.inr hopen) hthen rfl ?_
    rw [hpolling]
    exact free_append (h.lock.free hopen) _
  | setDisconnected =>
    obtain rfl := Option.some.inj hstep
    obtain rfl := hgoes hthen
    obtain ⟨hlock, hholds⟩ := h.holder hin
    have hthere : k.disconnected = false := by
      rw [h.stage.disconnected]
      exact decide_eq_false (hset rfl)
    refine h.lock.moves (.inl hin) hthen hlock ?_
    rw [hpolling]
    exact free_append (free_setDisconnected hthere hholds) _
  | mutexUnlock =>
    obtain rfl := Option.some.inj hstep
    obtain ⟨-, hholds⟩ := h.holder hin
    refine h.lock.leaves hin (houtside hthen) rfl ?_
    rw [hpolling]
    exact free_append hholds _
  | killWait =>
    obtain ⟨-, heq⟩ := Option.ite_none_right_eq_some.mp hstep
    obtain rfl := Option.some.inj heq
    exact hends (by decide) hin hthen rfl
  | usbKillUrb | wakeUp | clearIntfdata | krefPut =>
    obtain rfl := Option.some.inj hstep
    exact hends (by decide) hin hthen rfl

theorem unplugs (h : Inv k (.unplug id (x :: todo) ::ₘ rest)) (hstep : unplugStep k x = some k')
    (hpushed : pushed = [.unplug id todo] ∨ (pushed = [] ∧ todo = [])) :
    Inv { k' with done := k'.done ++ [x] } ((pushed : Multiset Act) + rest) :=
  ⟨h.counts_unplug (unplugStep_spec hstep) hpushed, h.stage_unplug (unplugStep_spec hstep) hpushed,
    h.lock_unplug hstep hpushed⟩

end Disconnect

/-! ### All steps -/

section Moves

theorem polling_same (hkind : kind b = kind a) (ioMutex : Bool) :
    polling { k with ioMutex } (([b] : List Act) + rest) = polling k (a ::ₘ rest) := by
  simp only [kind, Prod.mk.injEq] at hkind
  apply polling_eq
  rw [cnt_coe_cons, cnt_coe_nil, hkind.2.2.2.1]
  rfl

variable (h : Inv k (a ::ₘ rest)) (hkind : kind b = kind a) (hleft : left a = none)
variable (hcounted : counted b = counted a)

include h hkind hleft hcounted

theorem goes_same {ioMutex : Bool}
    (hlock : Lock { k with ioMutex } (([b] : List Act) + rest)) :
    Inv { k with ioMutex } (([b] : List Act) + rest) :=
  h.goes b k.openCount ioMutex k.tickUrb hkind hleft (by rw [hcounted]) ⟨rfl, rfl⟩ hlock

theorem goes_outside (ha : a.inside = false) (hb : b.inside = false) :
    Inv k (([b] : List Act) + rest) := by
  have hresubmits : resubmits b = resubmits a := by
    simp only [kind, Prod.mk.injEq] at hkind
    exact hkind.2.2.2.1
  refine h.goes_same hkind hleft hcounted (h.lock.aside ha ?_ ?_ _ _ _)
  · rw [cnt_coe_cons, cnt_coe_nil, hb]
    rfl
  · rw [cnt_coe_cons, cnt_coe_nil, hresubmits]
    rfl

theorem goes_inside (ha : a.inside = true) (hb : b.inside = true)
    (hknows : ∀ x, Holds x a → Holds x b) : Inv k (([b] : List Act) + rest) := by
  obtain ⟨hlock, hholds⟩ := h.holder ha
  refine h.goes_same hkind hleft hcounted (h.lock.moves (.inl ha) hb hlock ?_)
  rw [polling_same hkind k.ioMutex]
  exact hknows _ hholds

theorem locks (hfree : k.ioMutex = false) (hb : b.inside = true)
    (hknows : ∀ x, Free x → Holds x b) :
    Inv { k with ioMutex := true } (([b] : List Act) + rest) := by
  refine h.goes_same hkind hleft hcounted (h.lock.moves (.inr hfree) hb rfl ?_)
  rw [polling_same hkind true]
  apply hknows
  exact h.lock.free hfree

theorem unlocks (ha : a.inside = true) (hb : b.inside = false)
    (hknows : ∀ x, Holds x a → Free x) :
    Inv { k with ioMutex := false } (([b] : List Act) + rest) := by
  obtain ⟨-, hholds⟩ := h.holder ha
  refine h.goes_same hkind hleft hcounted (h.lock.leaves ha ?_ rfl ?_)
  · rw [cnt_coe_cons, cnt_coe_nil, hb]
    rfl
  · rw [polling_same hkind false]
    exact hknows _ hholds

end Moves

theorem leaves (h : Inv k (a ::ₘ rest)) (ha : a.inside = true)
    (hkind : holding a = false ∧ handling a = false ∧ counted a = false ∧ left a = none)
    (hresubmits : resubmits a = false) (hknows : ∀ x, Holds x a → Free x) {opening : Nat}
    (hopening : opening + (Accounts.opening a).toNat = k.opening) :
    Inv { k with ioMutex := false, opening } (([] : List Act) + rest) := by
  obtain ⟨-, hholds⟩ := h.holder ha
  refine h.ends hkind false opening hopening (h.lock.leaves ha rfl rfl ?_)
  have heq : polling { k with ioMutex := false, opening } (([] : List Act) + rest) =
      polling k (a ::ₘ rest) := by
    apply polling_eq
    rw [hresubmits]
    rfl
  rw [heq]
  exact hknows _ hholds

theorem step (h : Inv k (a ::ₘ rest)) (hd : Does k a k' pushed) :
    Inv k' ((pushed : Multiset Act) + rest) := by
  cases hd with
  | works _ b file ha hb hin =>
    have hkind := kind_user ha hb
    obtain ⟨-, -, hcounted, -, -, hleft⟩ := file_kind ha
    have hsame : counted b = counted a := (file_kind hb).2.2.1.trans hcounted.symm
    cases hinside : a.inside with
    | false => exact h.goes_outside hkind hleft hsame hinside (hin.trans hinside)
    | true =>
      refine h.goes_inside hkind hleft hsame hinside (hin.trans hinside) ?_
      exact fun x hholds => holds_user hb (knows_user ha hholds)
  | returns _ file ha hin =>
    obtain ⟨hopening, hholding, hcounted, hhandling, hresubmits, hleft⟩ := file_kind ha
    refine h.ends ⟨hholding, hhandling, hcounted, hleft⟩ k.ioMutex k.opening ?_
      (h.lock.aside hin rfl ?_ _ _ _)
    · rw [hopening]
      rfl
    · rw [hresubmits]
      rfl
  | takes _ b file ha hb hin hfree =>
    obtain ⟨-, -, hcounted, -, -, hleft⟩ := file_kind ha
    have hsame : counted b = counted a := (file_kind hb).2.2.1.trans hcounted.symm
    exact h.locks (kind_user ha hb) hleft hsame hfree hin.2 fun x hx => holds_user hb hx
  | gives _ file ha hin =>
    obtain ⟨hopening, hholding, hcounted, hhandling, hresubmits, hleft⟩ := file_kind ha
    refine h.leaves hin ⟨hholding, hhandling, hcounted, hleft⟩ hresubmits
      (fun x hholds => knows_user ha hholds) ?_
    rw [hopening]
    rfl
  | openFails id file =>
    exact h.ends ⟨rfl, rfl, rfl, rfl⟩ k.ioMutex _ (h.opening_returns rfl)
      (h.lock.aside rfl rfl rfl _ _ _)
  | openFinds id file => exact h.goes_outside rfl rfl rfl rfl rfl
  | openLocks id file hfree | closeLocks id hfree =>
    exact h.locks rfl rfl rfl hfree rfl fun _ hx => hx
  | openRefused id file => exact h.goes_inside rfl rfl rfl rfl rfl fun _ hx => hx
  | openFirst id file hcount => exact h.openFirst hcount
  | openMore id file hcount => exact h.openMore hcount
  | openSubmits id file => exact h.openSubmits
  | openStuck id file err herr => exact h.goes_inside rfl rfl rfl rfl rfl fun _ hx => ⟨herr, hx⟩
  | openUncounts id file err => exact h.openUncounts
  | openGivesUp id file err herr =>
    exact h.leaves rfl ⟨rfl, rfl, decide_eq_false herr, rfl⟩ rfl (fun _ hx => hx)
      (h.opening_returns rfl)
  | openPasses id file | closeUnlocks id => exact h.unlocks rfl rfl rfl rfl rfl fun _ hx => hx
  | openGets id file => exact h.openGets
  | opened id file => exact h.opened
  | closeLast id hcount hthere => exact h.closeLast hcount hthere
  | closeMore id hmore => exact h.closeMore hmore
  | closeKills id => exact h.closeKills
  | closeKilled id hwaited => exact h.closeKilled hwaited
  | closed id => exact h.closed
  | tickGoes status actualLength word hstatus =>
    refine h.tick rfl (by simp [handling]) rfl (fun n hn => hn) ?_
    intro hlost _
    refine ⟨hlost, ?_⟩
    show _ + 1 = _ + (!unlinked status).toNat
    rw [hstatus]
    rfl
  | tickEnds status actualLength word hstatus =>
    refine h.tick rfl (by simp [handling]) rfl (fun n hn => hn) ?_
    intro hlost _
    refine ⟨hlost, ?_⟩
    show _ + 0 = _ + (!unlinked status).toNat
    rw [hstatus]
    rfl
  | tickSubmits hidle =>
    refine h.tick rfl (by simp [handling]) rfl (fun n hn => hn.submit hidle) ?_
    intro hlost _
    refine ⟨hlost, ?_⟩
    rw [hidle]
    rfl
  | tickFails b hb =>
    have hhandling : handling b = true := by rcases hb with rfl | rfl <;> rfl
    refine h.tick rfl ?_ rfl ?_ ?_
    · intro b' hb'
      rw [List.mem_singleton.mp hb']
      exact hhandling
    · intro n hn
      rw [cnt_coe_cons, cnt_coe_nil, hhandling]
      exact hn
    · intro hlost hnone
      rw [hnone] at hlost
      simp at hlost
  | tickReports =>
    exact h.tick rfl (by simp [handling]) rfl (fun n hn => hn) fun hlost _ => ⟨hlost, rfl⟩
  | givesBack =>
    refine h.tick rfl (by simp) rfl ?_ fun hlost _ => ⟨hlost, rfl⟩
    intro n hn
    rw [Nat.add_comm] at hn
    show InFlight k.tickUrb.giveBack (0 + n)
    rw [Nat.zero_add]
    exact hn.giveBack
  | unplugs id x todo k' pushed hstep hpushed => exact h.unplugs hstep hpushed

/-! ### New threads -/

theorem lock_add (h : Inv k m) (hb : b.inside = false ∧ resubmits b = false) (opening : Nat)
    (files : List Nat) (unplugging : Bool) :
    Lock { k with opening, files, unplugging } (([b] : List Act) + m) := by
  have heq : polling { k with opening, files, unplugging } (([b] : List Act) + m) =
      polling k m := by
    unfold polling
    rw [cnt_add, cnt_coe_cons, cnt_coe_nil, hb.2, Bool.toNat_false, Nat.add_zero, Nat.zero_add]
  have hnone : cnt Act.inside (([b] : List Act) : Multiset Act) = 0 := by
    rw [cnt_coe_cons, cnt_coe_nil, hb.1]
    rfl
  rw [Lock, heq]
  exact Locked.add h.lock hnone rfl (fun hfree => hfree) fun b _ _ hholds => by
    cases b <;> exact hholds

theorem uncounted (hb : counted b = false) :
    k.openCount + (k.files.length : Int) = k.openCount + (counted b).toNat + k.files.length := by
  rw [hb, Bool.toNat_false, Int.natCast_zero, Int.add_zero]

theorem zero_handlers (urb : Request) (n : Nat) (h : InFlight urb n) : InFlight urb (0 + n) := by
  rwa [Nat.zero_add]

theorem zero_holders (k : Skel) (n : Nat) (h : Held k.dev (base k + n)) :
    Held k.dev (base k + (0 + n)) := by
  rwa [Nat.zero_add]

theorem start_open (h : Inv k m) (hregistered : k.registered = true) :
    Inv { k with opening := k.opening + 1 } (([.openFind id file] : List Act) + m) := by
  refine ⟨h.counts.add rfl (uncounted rfl) (zero_handlers k.tickUrb) (zero_holders k),
    h.stage.add ⟨rfl, rfl, rfl⟩ (h.stage.follows.add ?_) nofun h.stage.files ?_ rfl,
    h.lock_add ⟨rfl, rfl⟩ _ _ _⟩
  · intro b hb
    rw [List.mem_singleton.mp hb]
    rfl
  · intro hgone
    rw [h.stage.registered, decide_eq_true_eq] at hregistered
    exact absurd hgone hregistered

theorem start_call (h : Inv k m) (hb : b.file = some file) (hout : b.inside = false)
    (hfile : file ∈ k.files) : Inv k (([b] : List Act) + m) := by
  obtain ⟨hopening, hholding, hcounted, hhandling, hresubmits, hleft⟩ := file_kind hb
  refine ⟨h.counts.add ?_ (uncounted hcounted) ?_ ?_, h.stage.add ⟨rfl, rfl, rfl⟩
    (h.stage.follows.add ?_) ?_ h.stage.files h.stage.noOpens rfl,
    h.lock_add ⟨hout, hresubmits⟩ _ _ _⟩
  · rw [hopening]
    rfl
  · intro n hn
    rw [hhandling, Bool.toNat_false, Nat.zero_add]
    exact hn
  · intro n hn
    rw [hholding, Bool.toNat_false, Nat.zero_add]
    exact hn
  · intro b' hb'
    rw [List.mem_singleton.mp hb']
    exact hleft
  · intro f hf
    rw [hb] at hf
    obtain rfl := Option.some.inj hf
    exact hfile

theorem start_close (h : Inv k m) (hfile : file ∈ k.files)
    (hunused : ∀ a ∈ m, ∀ f, a.file = some f → f ≠ file) :
    Inv { k with files := k.files.erase file } (([.closeLock id] : List Act) + m) := by
  have hlength := List.length_erase_of_mem hfile
  have hpos := List.length_pos_of_mem hfile
  refine ⟨h.counts.add rfl ?_ (zero_handlers k.tickUrb) ?_, h.stage.add ⟨rfl, rfl, rfl⟩
    (h.stage.follows.add ?_) nofun ?_ h.stage.noOpens rfl, h.lock_add ⟨rfl, rfl⟩ _ _ _⟩
  · show k.openCount + k.files.length = k.openCount + (1 : Nat) + ((k.files.erase file).length : Nat)
    omega
  · intro n hn
    have heq : base { k with files := k.files.erase file } + (1 + n) = base k + n := by
      unfold base
      dsimp only
      omega
    show Held k.dev (base { k with files := k.files.erase file } + (1 + n))
    rwa [heq]
  · intro b hb
    rw [List.mem_singleton.mp hb]
    rfl
  · intro a ha f hf
    exact (List.mem_erase_of_ne (hunused a ha f hf)).mpr (h.stage.files a ha f hf)

theorem start_disconnect (h : Inv k m) (hbefore : k.unplugging = false) :
    Inv { k with unplugging := true } (([.unplug id skelDisconnect] : List Act) + m) := by
  have hfollows := h.stage.follows
  rw [hbefore] at hfollows
  exact ⟨h.counts.add rfl (uncounted rfl) (zero_handlers k.tickUrb) (zero_holders k),
    h.stage.add ⟨rfl, rfl, rfl⟩ (hfollows.start rfl) nofun h.stage.files h.stage.noOpens rfl,
    h.lock_add ⟨rfl, rfl⟩ _ _ _⟩

theorem start_complete (h : Inv k m) (hactive : k.tickUrb.active = true) (status : Int)
    (actualLength : Nat) (word : BitVec 32) :
    Inv { k with
      tickUrb := k.tickUrb.complete
      lost := k.lost || (unlinked status && k.tickUrb.rejects == 0) }
      (([.tickComplete status actualLength word] : List Act) + m) := by
  have hused := h.counts.flight.used (.inr hactive)
  refine ⟨h.counts.add rfl (uncounted rfl) ?_ (zero_holders k), h.stage.add ⟨rfl, rfl, rfl⟩
    (h.stage.follows.add ?_) nofun h.stage.files h.stage.noOpens rfl, ?_⟩
  · intro n hn
    rw [Nat.add_comm]
    exact hn.complete hactive
  · intro b hb
    rw [List.mem_singleton.mp hb]
    rfl
  · -- a handler that is to submit the URB again stands for the URB that was active
    have hpolling : (k.lost || (unlinked status && k.tickUrb.rejects == 0)) = false →
        k.tickUrb.rejects = 0 → k.lost = false ∧
        polling { k with
          tickUrb := k.tickUrb.complete
          lost := k.lost || (unlinked status && k.tickUrb.rejects == 0) }
          (([.tickComplete status actualLength word] : List Act) + m) = polling k m := by
      intro hlost hnone
      rw [hnone, Bool.or_eq_false_iff, Bool.and_eq_false_iff] at hlost
      refine ⟨hlost.1, ?_⟩
      have hlinked : unlinked status = false := hlost.2.resolve_right (by decide)
      unfold polling
      rw [cnt_add, cnt_coe_cons, cnt_coe_nil, hactive]
      show 0 + ((!unlinked status).toNat + 0 + cnt resubmits m) = 1 + cnt resubmits m
      rw [hlinked]
      show 0 + (1 + 0 + cnt resubmits m) = 1 + cnt resubmits m
      omega
    refine Locked.add h.lock rfl rfl ?_ ?_
    · exact fun hfree => hfree.background hused rfl hpolling
    · exact fun b _ _ hholds => hholds.background hused rfl hpolling

end Inv

end LinuxDeviceDriver.Drivers.UsbSkel.Polling
