/- source: examples/28_dma_sg/main.c, lines 184 to 229, 280 to 291 and 436 to 461;
     examples/27_dma/main.c, lines 127 to 217, 242 to 245 and 383 to 409
   digest: Nothing is used after the removal has released it, calls that come later fail, and the
     structure goes once, with the removal and the last file. -/

import LinuxDeviceDriver.Drivers.Removal.References
import LinuxDeviceDriver.Lib.Calls
import LinuxDeviceDriver.Lib.Mutex

set_option autoImplicit false

namespace LinuxDeviceDriver.Drivers.Removal.Lifetime

open Lib.Calls (Ledger)
open Lib.Mutex (Locked)
open Lib.RefCount (Held)
open Lib.Script (Followed)
open Lib.Threads
open Lib.Transition (Steps exec exec_steps)
open Qemu.Pcie
open State Transfer Registers CharFile DmaHost DmaProbe
open CompletionProtocol (Sys)
open Model hiding exec
open References

/-! ## The lock, the transfer and the calls -/

def transfers : Act → Bool
  | .transfer _ _ => true
  | _ => false

/-- What the holder of the lock knows: whether a transfer is running, and from the check of removed
to the end of its transfer that the device is there. -/
def Holds (c : Core) (a : Act) : Prop :=
  (transfers a = false → c.sys.driver = .idle) ∧
    (a.works = true ∨ transfers a = true → c.removed = false)

/-- What a call that took the lock too late can still have to do. -/
def refused : Act → Bool
  | .check _ _ => true
  | .advance _ ret | .unlock _ ret => decide (ret = -enodev)
  | _ => false

theorem works_kind {a : Act} (h : a.works = true) :
    a.inside = true ∧ transfers a = false ∧ refused a = false := by
  cases a <;> cases h <;> exact ⟨rfl, rfl, rfl⟩

/-- The calls, with whether each took the lock too late. -/
abbrev Calls (c : Core) (m : Multiset Act) : Prop :=
  Ledger Act.id false (fun a late => late = true → refused a = true)
    (fun (ret : Int) late => late = true → ret = -enodev) c.calls (fun id => decide (id ∈ c.late))
    c.returned m

structure Work (c : Core) (m : Multiset Act) : Prop where
  protocol : CompletionProtocol.Inv c.sys
  mutex : Locked Act.inside Core.lock (fun c => c.sys.driver = .idle) Holds c m
  calls : Calls c m
  late : c.late ≠ [] → c.removed = true

section Protocol

open CompletionProtocol (Event driverStep handlerStep)

variable {reports : List Reg} {s s' : Sys}

theorem driverStep_handler (h : driverStep reports s = some s') : s'.handler = s.handler := by
  unfold driverStep at h
  split at h
  · cases h
  · obtain rfl := Option.some.inj h
    rfl
  · obtain rfl := Option.some.inj h
    rfl
  · obtain rfl := Option.some.inj h
    rfl
  · obtain ⟨-, h⟩ := Option.ite_none_left_eq_some.mp h
    obtain rfl := Option.some.inj h
    rfl
  · obtain rfl := Option.some.inj h
    rfl
  · obtain ⟨-, h⟩ := Option.ite_none_right_eq_some.mp h
    obtain rfl := Option.some.inj h
    rfl
  · obtain rfl := Option.some.inj h
    rfl
  · split at h
    · obtain rfl := Option.some.inj h
      rfl
    · obtain rfl := Option.some.inj h
      rfl
  · obtain rfl := Option.some.inj h
    rfl
  · obtain rfl := Option.some.inj h
    rfl
  · obtain rfl := Option.some.inj h
    rfl

theorem transferStep_handler {driver : Driver} {o : Choice}
    (h : transferStep driver o s = some s') : s'.handler = s.handler := by
  cases o with
  | timeout =>
    have htimeout : CompletionProtocol.next driver.reports s .timeout = some s' := h
    unfold CompletionProtocol.next at htimeout
    dsimp only at htimeout
    split at htimeout
    · obtain ⟨-, heq⟩ := Option.ite_none_right_eq_some.mp htimeout
      obtain rfl := Option.some.inj heq
      rfl
    · cases htimeout
  | go | signal | fails err | partly n | run p => exact driverStep_handler h

theorem handlerStep_driver (h : handlerStep s = some s') : s'.driver = s.driver := by
  unfold handlerStep at h
  split at h
  · cases h
  · dsimp only at h
    split at h
    · obtain rfl := Option.some.inj h
      rfl
    · obtain rfl := Option.some.inj h
      rfl
  · obtain rfl := Option.some.inj h
    rfl
  · obtain rfl := Option.some.inj h
    rfl
  · obtain rfl := Option.some.inj h
    rfl

theorem transferStep_inv {driver : Driver} {o : Choice} (h : transferStep driver o s = some s')
    (hs : CompletionProtocol.Inv s) : CompletionProtocol.Inv s' :=
  CompletionProtocol.inv_step driver.reports s _ s' hs h

end Protocol

namespace Work

variable {c c' : Core} {m rest : Multiset Act} {a b : Act} {pushed : List Act}

theorem idle (h : Work c m) (hremoved : c.removed = true) : c.sys.driver = .idle := by
  cases hlock : c.lock with
  | false => exact h.mutex.free hlock
  | true =>
    have hexcl := h.mutex.excl
    rw [hlock, Bool.toNat_true] at hexcl
    obtain ⟨a, ha, hin⟩ := cnt_pos.mp (by rw [hexcl]; exact Nat.one_pos)
    obtain ⟨hidle, hthere⟩ := h.mutex.held a ha hin
    cases htransfer : transfers a with
    | false => exact hidle htransfer
    | true =>
      rw [hthere (.inr htransfer)] at hremoved
      cases hremoved

theorem calls_next (h : Work c (a ::ₘ rest)) (hid : b.id = a.id)
    (hrefused : refused a = true → refused b = true)
    (hsame : c'.calls = c.calls ∧ c'.late = c.late ∧ c'.returned = c.returned) :
    Calls c' (([b] : List Act) + rest) := by
  obtain ⟨hcalls, hlate, hreturned⟩ := hsame
  rw [Calls, hcalls, hlate, hreturned]
  refine h.calls.next hid (fun _ _ => rfl) ?_
  intro hl
  exact hrefused (h.calls.current a (Multiset.mem_cons_self a rest) hl)

theorem calls_report (h : Work c (a ::ₘ rest)) (value : Int)
    (hrefused : refused a = true → value = -enodev)
    (hsame : c'.calls = c.calls ∧ c'.late = c.late ∧ c'.returned = c.returned ++ [(a.id, value)]) :
    Calls c' (([] : List Act) + rest) := by
  obtain ⟨hcalls, hlate, hreturned⟩ := hsame
  rw [Calls, hcalls, hlate, hreturned]
  refine h.calls.report (fun _ _ => rfl) ?_
  intro hl
  exact hrefused (h.calls.current a (Multiset.mem_cons_self a rest) hl)

theorem outside (h : Work c (a ::ₘ rest)) (ha : a.inside = false)
    (hpushed : cnt Act.inside (pushed : Multiset Act) = 0)
    (hsame : c'.sys.driver = c.sys.driver ∧ c'.lock = c.lock ∧ c'.removed = c.removed ∧
      c'.late = c.late)
    (hprotocol : CompletionProtocol.Inv c'.sys)
    (hcalls : Calls c' ((pushed : Multiset Act) + rest)) :
    Work c' ((pushed : Multiset Act) + rest) := by
  obtain ⟨hdriver, hlock, hremoved, hlate⟩ := hsame
  refine ⟨hprotocol, h.mutex.frame ha hpushed hlock ?_ ?_, hcalls, ?_⟩
  · intro hfree
    rw [hdriver]
    exact hfree
  · intro b _ hb
    rw [Holds, hdriver, hremoved]
    exact hb
  · rw [hlate, hremoved]
    exact h.late

/-- The holder of the lock goes on, or somebody becomes it. -/
theorem holder (h : Work c (a ::ₘ rest)) (ha : a.inside = true ∨ c.lock = false)
    (hb : b.inside = true) (hlock : c'.lock = true) (hholds : Holds c' b)
    (hprotocol : CompletionProtocol.Inv c'.sys) (hcalls : Calls c' (([b] : List Act) + rest))
    (hlate : c'.late ≠ [] → c'.removed = true) : Work c' (([b] : List Act) + rest) :=
  ⟨hprotocol, h.mutex.alone ha (Locked.taken hlock hb hholds), hcalls, hlate⟩

theorem held (h : Work c (a ::ₘ rest)) (ha : a.inside = true) : c.lock = true ∧ Holds c a :=
  ⟨h.mutex.locked_of_inside (Multiset.mem_cons_self a rest) ha,
    h.mutex.held a (Multiset.mem_cons_self a rest) ha⟩

theorem locks {r : Rw} {count : Nat} (h : Work c (.lock r count ::ₘ rest)) (hfree : c.lock = false) :
    Work { c with lock := true, late := if c.removed then r.id :: c.late else c.late }
      (([.check r count] : List Act) + rest) := by
  have hidle : c.sys.driver = .idle := h.mutex.free hfree
  refine h.holder (.inr hfree) rfl rfl ⟨fun _ => hidle, ?_⟩ h.protocol ?_ ?_
  · rintro (hworks | htransfer)
    · cases hworks
    · cases htransfer
  · refine h.calls.next rfl ?_ fun _ => rfl
    intro id hid
    have hne : id ≠ r.id := hid
    dsimp only
    split
    · rw [decide_eq_decide, List.mem_cons]
      exact ⟨fun hmem => hmem.resolve_left hne, .inr⟩
    · rfl
  · dsimp only
    split
    · next hremoved => exact fun _ => hremoved
    · exact h.late

theorem on_time (h : Work c m) (hremoved : c.removed = false) : c.late = [] := by
  by_contra hlate
  rw [h.late hlate] at hremoved
  cases hremoved

end Work

structure Inv (driver : Driver) (c : Core) (m : Multiset Act) : Prop where
  life : Life driver c m
  work : Work c m

namespace Inv

variable {driver : Driver} {c c' : Core} {m rest : Multiset Act} {a b : Act} {r : Rw}
variable {pushed : List Act}

/-- The holder of the lock does something that leaves the transfer alone. -/
theorem holds (h : Inv driver c (a ::ₘ rest)) (ha : a.rw = some r) (hin : a.inside = true)
    (htransfer : transfers a = false) (hb : b.rw = some r) (hbin : b.inside = true)
    (hthere : b.works = true ∨ transfers b = true → c.removed = false)
    (hrefused : refused a = true → refused b = true) (pos : Nat → Nat) :
    Inv driver { c with pos } (([b] : List Act) + rest) := by
  obtain ⟨hlock, hidle, -⟩ := h.work.held hin
  have hid : b.id = a.id := by rw [(rw_kind ha).2.2.2, (rw_kind hb).2.2.2]
  refine ⟨h.life.frame ha ?_ c.sys c.lock pos c.late c.returned rfl, ?_⟩
  · intro x hx
    obtain rfl := List.mem_singleton.mp hx
    exact hb
  · exact h.work.holder (.inl hin) hbin hlock ⟨fun _ => hidle htransfer, hthere⟩ h.work.protocol
      (h.work.calls_next hid hrefused ⟨rfl, rfl, rfl⟩) h.work.late

theorem moves (h : Inv driver c (a ::ₘ rest)) (ha : a.rw = some r) (hin : a.inside = true)
    (hthere : c.removed = false) (hb : b.rw = some r) (hbin : b.inside = true)
    (hnew : refused a = false) {sys : Sys} (hsys : CompletionProtocol.Inv sys)
    (hidle : transfers b = false → sys.driver = .idle) (hhandler : sys.handler = c.sys.handler) :
    Inv driver { c with sys } (([b] : List Act) + rest) := by
  obtain ⟨hlock, -⟩ := h.work.held hin
  have hid : b.id = a.id := by rw [(rw_kind ha).2.2.2, (rw_kind hb).2.2.2]
  refine ⟨h.life.frame ha ?_ sys c.lock c.pos c.late c.returned hhandler, ?_⟩
  · intro x hx
    obtain rfl := List.mem_singleton.mp hx
    exact hb
  · refine h.work.holder (.inl hin) hbin hlock ⟨hidle, fun _ => hthere⟩ hsys
      (h.work.calls_next hid ?_ ⟨rfl, rfl, rfl⟩) h.work.late
    intro hrefused
    rw [hnew] at hrefused
    cases hrefused

/-- A call that does not have the lock goes on, or returns. -/
theorem waits (h : Inv driver c (a ::ₘ rest)) (ha : a.rw = some r) (hin : a.inside = false)
    (hb : b.rw = some r) (hbin : b.inside = false) (hnew : refused a = false) :
    Inv driver c (([b] : List Act) + rest) := by
  have hid : b.id = a.id := by rw [(rw_kind ha).2.2.2, (rw_kind hb).2.2.2]
  refine ⟨h.life.frame ha ?_ c.sys c.lock c.pos c.late c.returned rfl, ?_⟩
  · intro x hx
    obtain rfl := List.mem_singleton.mp hx
    exact hb
  · refine h.work.outside hin ?_ ⟨rfl, rfl, rfl, rfl⟩ h.work.protocol
      (h.work.calls_next hid ?_ ⟨rfl, rfl, rfl⟩)
    · rw [cnt_coe_cons, hbin]
      rfl
    · intro hrefused
      rw [hnew] at hrefused
      cases hrefused

theorem returns (h : Inv driver c (a ::ₘ rest)) (ha : a.rw = some r) (hin : a.inside = false)
    (hnew : refused a = false) (value : Int) :
    Inv driver (c.ret r.id value) (([] : List Act) + rest) := by
  refine ⟨h.life.frame ha ?_ c.sys c.lock c.pos c.late _ rfl, ?_⟩
  · intro x hx
    cases hx
  · refine h.work.outside hin rfl ⟨rfl, rfl, rfl, rfl⟩ h.work.protocol
      (h.work.calls_report value ?_ ⟨rfl, rfl, ?_⟩)
    · intro hrefused
      rw [hnew] at hrefused
      cases hrefused
    · rw [(rw_kind ha).2.2.2]
      rfl

theorem unlocks {ret : Int} (h : Inv driver c (.unlock r ret ::ₘ rest)) :
    Inv driver ({ c with lock := false }.ret r.id ret) (([] : List Act) + rest) := by
  obtain ⟨-, hidle, -⟩ := h.work.held rfl
  refine ⟨h.life.frame rfl ?_ c.sys false c.pos c.late _ rfl, ?_⟩
  · intro x hx
    cases hx
  · refine ⟨h.work.protocol, h.work.mutex.alone (.inl rfl) (Locked.given_back rfl rfl (hidle rfl)),
      h.work.calls_report ret ?_ ⟨rfl, rfl, rfl⟩, h.work.late⟩
    exact fun hrefused => of_decide_eq_true hrefused

/-! The steps of the removal -/

section Removal

variable {id : Nat} {x : Teardown} {todo : List Teardown}

/-- A step of the removal outside the lock, that is neither the first nor the last. -/
theorem removal_outside (h : Inv driver c (.remove id (x :: todo) ::ₘ rest))
    (hx : x ≠ .putDevice ∧ x ≠ .cdevDeviceDel ∧ x ≠ .mutexLock ∧ x ≠ .setRemoved ∧
      x ≠ .mutexUnlock)
    (hdone : c'.done = c.done ++ [x])
    (hreleased : c'.released = x.frees.toList ++ c.released)
    (hsame : c'.dev = c.dev ∧ c'.cdev = c.cdev ∧ c'.files = c.files ∧ c'.node = c.node ∧
      c'.removed = c.removed ∧ c'.removing = c.removing ∧ c'.faults = c.faults ∧
      c'.lock = c.lock ∧ c'.late = c.late)
    (hsys : CompletionProtocol.Inv c'.sys ∧ c'.sys.driver = c.sys.driver ∧
      c'.sys.handler = c.sys.handler)
    (hquiet : x = .freeIrq → c.sys.handler = .idle)
    (hpushed : pushed = [.remove id todo] ∨ (pushed = [] ∧ todo = []))
    (hcalls : Calls c' ((pushed : Multiset Act) + rest)) :
    Inv driver c' ((pushed : Multiset Act) + rest) := by
  obtain ⟨hput, hdel, hlocks, hset, hunlocks⟩ := hx
  obtain ⟨hdev, hcdev, hfiles, hnode, hremoved, hremoving, hfaults, hlock, hlate⟩ := hsame
  obtain ⟨-, -, -, hinside, -⟩ := due (h.life.stage.follows.todo _ (Multiset.mem_cons_self _ _) _ rfl)
  have hnone : cnt Act.inside (pushed : Multiset Act) = 0 := by
    rcases hpushed with rfl | ⟨rfl, -⟩
    · rw [cnt_coe_cons, inside_remove, hinside]
      simp [hlocks, hset]
    · rfl
  have houtside : Act.inside (.remove id (x :: todo)) = false := by
    cases x with
    | setRemoved => exact absurd rfl hset
    | mutexUnlock => exact absurd rfl hunlocks
    | _ => rfl
  refine ⟨⟨h.life.refs_removal hput hdel hdone ⟨hdev, hcdev, hfiles⟩ hpushed,
    h.life.stage.advance hdone ?_ ?_ hreleased ⟨hremoving, hfaults, hfiles, hsys.2.2⟩ hquiet
      hpushed⟩, h.work.outside houtside hnone ⟨hsys.2.1, hlock, hremoved, hlate⟩ hsys.1 hcalls⟩
  · rw [hnode, decide_eq_true hdel, Bool.and_true]
  · rw [hremoved, decide_eq_false hset, Bool.or_false]

/-- A step of the removal that takes the lock, is made under it, or gives it back. -/
theorem removal_locked (h : Inv driver c (.remove id (x :: todo) ::ₘ rest))
    (hx : x = .mutexLock ∧ c.lock = false ∨ x = .setRemoved ∨ x = .mutexUnlock)
    (hdone : c'.done = c.done ++ [x])
    (hlock : c'.lock = decide (x = .mutexLock ∨ x = .setRemoved))
    (hremoved : c'.removed = (c.removed || decide (x = .setRemoved)))
    (hsame : c'.dev = c.dev ∧ c'.cdev = c.cdev ∧ c'.files = c.files ∧ c'.node = c.node ∧
      c'.removing = c.removing ∧ c'.faults = c.faults ∧ c'.released = c.released ∧
      c'.late = c.late ∧ c'.sys = c.sys)
    (hpushed : pushed = [.remove id todo] ∨ (pushed = [] ∧ todo = []))
    (hcalls : Calls c' ((pushed : Multiset Act) + rest)) :
    Inv driver c' ((pushed : Multiset Act) + rest) := by
  obtain ⟨hdev, hcdev, hfiles, hnode, hremoving, hfaults, hreleased, hlate, hsys⟩ := hsame
  obtain ⟨-, -, -, hinside, -⟩ := due (h.life.stage.follows.todo _ (Multiset.mem_cons_self _ _) _ rfl)
  have hkind : x ≠ .putDevice ∧ x ≠ .cdevDeviceDel ∧ x ≠ .freeIrq ∧ x.frees = none := by
    rcases hx with ⟨rfl, -⟩ | rfl | rfl <;> simp [Teardown.frees]
  obtain ⟨hput, hdel, hirq, hfrees⟩ := hkind
  -- who may take the step, and that no transfer is running then
  have hwho : (Act.inside (.remove id (x :: todo)) = true ∨ c.lock = false) ∧
      c.sys.driver = .idle := by
    rcases hx with ⟨rfl, hfree⟩ | rfl | rfl
    · exact ⟨.inr hfree, h.work.mutex.free hfree⟩
    · exact ⟨.inl rfl, (h.work.held rfl).2.1 rfl⟩
    · exact ⟨.inl rfl, (h.work.held rfl).2.1 rfl⟩
  have hidle : c'.sys.driver = .idle := by
    rw [hsys]
    exact hwho.2
  have hin : cnt Act.inside (pushed : Multiset Act) = c'.lock.toNat := by
    rw [hlock, ← hinside]
    rcases hpushed with rfl | ⟨rfl, rfl⟩
    · rw [cnt_coe_cons, inside_remove]
      rfl
    · rfl
  have hmutex : Locked Act.inside Core.lock (fun c => c.sys.driver = .idle) Holds c'
      (pushed : Multiset Act) := by
    refine ⟨hin, fun _ => hidle, ?_⟩
    intro b hb _
    rcases hpushed with rfl | ⟨rfl, -⟩
    · obtain rfl := List.mem_singleton.mp (Multiset.mem_coe.mp hb)
      refine ⟨fun _ => hidle, ?_⟩
      rintro (hworks | htransfer)
      · cases hworks
      · cases htransfer
    · cases hb
  refine ⟨⟨h.life.refs_removal hput hdel hdone ⟨hdev, hcdev, hfiles⟩ hpushed,
    h.life.stage.advance hdone ?_ hremoved ?_ ⟨hremoving, hfaults, hfiles, ?_⟩
      (fun heq => absurd heq hirq) hpushed⟩,
    ?_, h.work.mutex.alone hwho.1 hmutex, hcalls, ?_⟩
  · rw [hnode, decide_eq_true hdel, Bool.and_true]
  · rw [hreleased, hfrees]
    rfl
  · rw [hsys]
  · rw [hsys]
    exact h.work.protocol
  · intro hsome
    rw [hlate] at hsome
    rw [hremoved, h.work.late hsome, Bool.true_or]

theorem removal_quiet (h : Inv driver c (.remove id (x :: todo) ::ₘ rest)) (hx : x.uses ≠ []) :
    CompletionProtocol.Quiet c.sys ∧ c.sys.driver = .idle := by
  have hdue := due (h.life.stage.follows.todo _ (Multiset.mem_cons_self _ _) _ rfl)
  have hremoved : c.removed = true := by
    rw [h.life.stage.removed]
    exact decide_eq_true (hdue.2.2.2.2 hx)
  have hidle := h.work.idle hremoved
  have hprotocol := h.work.protocol
  rw [CompletionProtocol.Inv, hidle] at hprotocol
  exact ⟨hprotocol, hidle⟩

/-- The first step and the last, which also concern the references. -/
theorem removal_ends (h : Inv driver c (.remove id (x :: todo) ::ₘ rest))
    (hx : x = .cdevDeviceDel ∨ x = .putDevice) (hdone : c'.done = c.done ++ [x])
    (hrefs : Refs c' ((pushed : Multiset Act) + rest))
    (hnode : c'.node = (c.node && decide (x ≠ .cdevDeviceDel)))
    (hsame : c'.files = c.files ∧ c'.removed = c.removed ∧ c'.removing = c.removing ∧
      c'.faults = c.faults ∧ c'.released = c.released ∧ c'.lock = c.lock ∧ c'.late = c.late ∧
      c'.sys = c.sys)
    (hpushed : pushed = [.remove id todo] ∨ (pushed = [] ∧ todo = []))
    (hcalls : Calls c' ((pushed : Multiset Act) + rest)) :
    Inv driver c' ((pushed : Multiset Act) + rest) := by
  obtain ⟨hfiles, hremoved, hremoving, hfaults, hreleased, hlock, hlate, hsys⟩ := hsame
  obtain ⟨-, -, -, hinside, -⟩ := due (h.life.stage.follows.todo _ (Multiset.mem_cons_self _ _) _ rfl)
  have hkind : x ≠ .mutexLock ∧ x ≠ .setRemoved ∧ x ≠ .freeIrq ∧ x.frees = none ∧
      Act.inside (.remove id (x :: todo)) = false := by
    rcases hx with rfl | rfl <;> exact ⟨by decide, by decide, by decide, rfl, rfl⟩
  obtain ⟨hlocks, hset, hirq, hfrees, houtside⟩ := hkind
  have hnone : cnt Act.inside (pushed : Multiset Act) = 0 := by
    rcases hpushed with rfl | ⟨rfl, -⟩
    · rw [cnt_coe_cons, inside_remove, hinside]
      simp [hlocks, hset]
    · rfl
  refine ⟨⟨hrefs, h.life.stage.advance hdone hnode ?_ ?_ ⟨hremoving, hfaults, hfiles, ?_⟩
    (fun heq => absurd heq hirq) hpushed⟩, h.work.outside houtside hnone ⟨?_, hlock, hremoved, hlate⟩
      ?_ hcalls⟩
  · rw [hremoved, decide_eq_false hset, Bool.or_false]
  · rw [hreleased, hfrees]
    rfl
  · rw [hsys]
  · rw [hsys]
  · rw [hsys]
    exact h.work.protocol

theorem removal_free (h : Inv driver c (.remove id (x :: todo) ::ₘ rest)) {y : Resource}
    (hy : x.frees = some y) (hquiet : x = .freeIrq → c.sys.handler = .idle) {sys : Sys}
    (hsys : CompletionProtocol.Inv sys ∧ sys.driver = c.sys.driver ∧
      sys.handler = c.sys.handler) {returned : List (Nat × Int)}
    (hpushed : pushed = [.remove id todo] ∨ (pushed = [] ∧ todo = []))
    (hcalls : Calls { c with returned } ((pushed : Multiset Act) + rest)) :
    Inv driver { c.free y with sys, done := c.done ++ [x], returned }
      ((pushed : Multiset Act) + rest) := by
  have huses : x.uses = [y] := by
    cases x <;> cases hy <;> rfl
  have htouch : c.touch [y] = c := by
    apply h.life.touch_removal
    intro z hz
    rw [huses]
    exact hz
  rw [Core.free, htouch]
  refine h.removal_outside ?_ rfl ?_ ⟨rfl, rfl, rfl, rfl, rfl, rfl, rfl, rfl, rfl⟩ hsys hquiet
    hpushed hcalls
  · cases x with
    | cdevDeviceDel | mutexLock | setRemoved | mutexUnlock | putDevice => cases hy
    | _ => decide
  · rw [hy]
    rfl

theorem removalStep_returned {c₁ : Core} (h : removalStep c x = some c₁) :
    c₁.returned = c.returned := by
  cases x with
  | mutexLock =>
    obtain ⟨-, heq⟩ := Option.ite_none_left_eq_some.mp h
    obtain rfl := Option.some.inj heq
    rfl
  | freeIrq =>
    obtain ⟨-, heq⟩ := Option.ite_none_right_eq_some.mp h
    obtain rfl := Option.some.inj heq
    rfl
  | _ =>
    obtain rfl := Option.some.inj h
    rfl

theorem removal_step (h : Inv driver c (.remove id (x :: todo) ::ₘ rest)) {c₁ : Core}
    (hstep : removalStep c x = some c₁) (returned : List (Nat × Int))
    (hpushed : pushed = [.remove id todo] ∨ (pushed = [] ∧ todo = []))
    (hcalls : Calls { c with returned } ((pushed : Multiset Act) + rest)) :
    Inv driver { c₁ with done := c.done ++ [x], returned } ((pushed : Multiset Act) + rest) := by
  have hsame : CompletionProtocol.Inv c.sys ∧ c.sys.driver = c.sys.driver ∧
      c.sys.handler = c.sys.handler := ⟨h.work.protocol, rfl, rfl⟩
  have htouch : c.touch [] = c :=
    h.life.touch_removal fun y hy => absurd hy List.not_mem_nil
  cases x with
  | cdevDeviceDel =>
    obtain rfl := Option.some.inj hstep
    rw [htouch]
    refine h.removal_ends (.inl rfl) rfl ?_ ?_ ⟨rfl, rfl, rfl, rfl, rfl, rfl, rfl, rfl⟩ hpushed
      hcalls
    · exact h.life.refs_first rfl ⟨rfl, rfl, rfl⟩ hpushed
    · exact (Bool.and_false _).symm
  | mutexLock =>
    obtain ⟨hfree, heq⟩ := Option.ite_none_left_eq_some.mp hstep
    obtain rfl := Option.some.inj heq
    rw [htouch]
    exact h.removal_locked (.inl ⟨rfl, by simpa using hfree⟩) rfl rfl (Bool.or_false _).symm
      ⟨rfl, rfl, rfl, rfl, rfl, rfl, rfl, rfl, rfl⟩ hpushed hcalls
  | setRemoved =>
    obtain rfl := Option.some.inj hstep
    rw [htouch]
    obtain ⟨hlock, -⟩ := h.work.held rfl
    exact h.removal_locked (.inr (.inl rfl)) rfl hlock (Bool.or_true _).symm
      ⟨rfl, rfl, rfl, rfl, rfl, rfl, rfl, rfl, rfl⟩ hpushed hcalls
  | mutexUnlock =>
    obtain rfl := Option.some.inj hstep
    rw [htouch]
    exact h.removal_locked (.inr (.inr rfl)) rfl rfl (Bool.or_false _).symm
      ⟨rfl, rfl, rfl, rfl, rfl, rfl, rfl, rfl, rfl⟩ hpushed hcalls
  | maskInterrupts =>
    obtain rfl := Option.some.inj hstep
    have htouch : c.touch [.regs] = c := h.life.touch_removal fun y hy => hy
    obtain ⟨hquiet, hidle⟩ := h.removal_quiet (by decide)
    have hmask : CompletionProtocol.Passive .intMask := by simp [CompletionProtocol.Passive]
    have hprotocol : CompletionProtocol.Inv (c.sys.iowrite32 .intMask 0) := by
      have hpc : (c.sys.iowrite32 .intMask 0).driver = .idle := hidle
      rw [CompletionProtocol.Inv, hpc]
      exact ⟨CompletionProtocol.passive_idle hmask 0 hquiet.idle, hquiet.unheld⟩
    rw [htouch]
    refine h.removal_outside ⟨by decide, by decide, by decide, by decide, by decide⟩ rfl rfl
      ⟨rfl, rfl, rfl, rfl, rfl, rfl, rfl, rfl, rfl⟩ ⟨hprotocol, rfl, rfl⟩ ?_ hpushed hcalls
    intro heq
    cases heq
  | freeIrq =>
    obtain ⟨hquiet, heq⟩ := Option.ite_none_right_eq_some.mp hstep
    obtain rfl := Option.some.inj heq
    exact h.removal_free rfl (fun _ => hquiet) hsame hpushed hcalls
  | pciFreeIrqVectors | kfreeBuf | dmaFreeCoherent | pciIounmap | pciReleaseRegions
  | pciDisableDevice =>
    obtain rfl := Option.some.inj hstep
    exact h.removal_free rfl (fun heq => absurd heq (by decide)) hsame hpushed hcalls
  | pciClearMaster =>
    obtain rfl := Option.some.inj hstep
    obtain ⟨hquiet, hidle⟩ := h.removal_quiet (by decide)
    have hcleared : CompletionProtocol.Inv
        { c.sys with machine := DmaProbe.pciClearMaster c.sys.machine } := by
      rw [CompletionProtocol.Inv, hidle]
      exact ⟨⟨hquiet.idle.notBusy, hquiet.idle.disarmed, hquiet.idle.clear⟩, hquiet.unheld⟩
    exact h.removal_free rfl (fun heq => absurd heq (by decide)) ⟨hcleared, rfl, rfl⟩ hpushed hcalls
  | putDevice =>
    obtain rfl := Option.some.inj hstep
    refine h.removal_ends (.inr rfl) rfl ?_ ?_ ⟨rfl, rfl, rfl, rfl, rfl, rfl, rfl, rfl⟩ hpushed
      hcalls
    · exact h.life.refs_last rfl ⟨rfl, rfl, rfl⟩ hpushed
    · exact (Bool.and_true _).symm

end Removal

theorem step (h : Inv driver c (a ::ₘ rest)) (hd : Does driver c a c' pushed) :
    Inv driver c' ((pushed : Multiset Act) + rest) := by
  cases hd with
  | opens id file =>
    exact ⟨h.life.opens, h.work.outside rfl rfl ⟨rfl, rfl, rfl, rfl⟩ h.work.protocol
      (h.work.calls_next rfl (fun hrefused => hrefused) ⟨rfl, rfl, rfl⟩)⟩
  | opened id file =>
    refine ⟨h.life.opened, h.work.outside rfl rfl ⟨rfl, rfl, rfl, rfl⟩ h.work.protocol
      (h.work.calls_report 0 ?_ ⟨rfl, rfl, rfl⟩)⟩
    intro hrefused
    cases hrefused
  | closed id =>
    refine ⟨h.life.closed, h.work.outside rfl rfl ⟨rfl, rfl, rfl, rfl⟩ h.work.protocol
      (h.work.calls_report 0 ?_ ⟨rfl, rfl, rfl⟩)⟩
    intro hrefused
    cases hrefused
  | returns a r value ha =>
    have hkind : a.rw = some r ∧ a.inside = false ∧ refused a = false := by
      rcases ha with rfl | ⟨count, rfl⟩ <;> exact ⟨rfl, rfl, rfl⟩
    rw [h.life.touch_rw hkind.1 (.inl rfl)]
    exact h.returns hkind.1 hkind.2.1 hkind.2.2 value
  | enters r count =>
    rw [h.life.touch_rw rfl (.inl rfl)]
    exact h.waits rfl rfl rfl rfl rfl
  | locks r count hfree =>
    rw [h.life.touch_rw rfl (.inl rfl)]
    refine ⟨h.life.frame rfl ?_ c.sys true c.pos _ c.returned rfl, h.work.locks hfree⟩
    intro b hb
    obtain rfl := List.mem_singleton.mp hb
    rfl
  | refused r count =>
    rw [h.life.touch_rw rfl (.inl rfl)]
    refine h.holds rfl rfl rfl rfl rfl ?_ (fun _ => rfl) c.pos
    rintro (hworks | htransfer)
    · cases hworks
    · cases htransfer
  | admitted r count hthere =>
    rw [h.life.touch_rw rfl (.inl rfl)]
    -- the call is not late, as removed is not set
    have hlate : c.late = [] := h.work.on_time hthere
    obtain ⟨hlock, hidle, -⟩ := h.work.held rfl
    refine ⟨h.life.frame rfl ?_ c.sys c.lock c.pos c.late c.returned rfl,
      h.work.holder (.inl rfl) rfl hlock ⟨fun _ => hidle rfl, fun _ => hthere⟩ h.work.protocol ?_
        h.work.late⟩
    · intro b hb
      obtain rfl := List.mem_singleton.mp hb
      rfl
    · refine h.work.calls.next rfl (fun _ _ => rfl) ?_
      rw [hlate]
      intro hl
      cases of_decide_eq_true hl
  | works a b r rs ha hr hb hnext =>
    have hin := works_kind ha
    have hthere : c.removed = false := (h.work.held hin.1).2.2 (.inl ha)
    have hbin : b.inside = true := by
      rcases hnext with hworks | ⟨ret, rfl⟩
      · exact (works_kind hworks).1
      · rfl
    rw [h.life.touch_rw hr (.inr hthere)]
    refine h.holds hr hin.1 hin.2.1 hb hbin (fun _ => hthere) ?_ c.pos
    rw [hin.2.2]
    intro hrefused
    cases hrefused
  | launches r count p sys hcall =>
    have hthere : c.removed = false := (h.work.held rfl).2.2 (.inl rfl)
    rw [h.life.touch_rw rfl (.inr hthere)]
    refine h.moves rfl rfl hthere rfl rfl rfl
      (CompletionProtocol.inv_step driver.reports _ _ _ h.work.protocol hcall) ?_ ?_
    · intro htransfer
      cases htransfer
    · obtain ⟨-, heq⟩ := Option.ite_none_right_eq_some.mp hcall
      obtain rfl := Option.some.inj heq
      rfl
  | transfers r count o sys hstep =>
    have hthere : c.removed = false := (h.work.held rfl).2.2 (.inr rfl)
    rw [h.life.touch_rw rfl (.inr hthere)]
    refine h.moves rfl rfl hthere rfl rfl rfl (transferStep_inv hstep h.work.protocol) ?_
      (transferStep_handler hstep)
    intro htransfer
    cases htransfer
  | transferred r count err own hpc =>
    have hthere : c.removed = false := (h.work.held rfl).2.2 (.inr rfl)
    rw [h.life.touch_rw rfl (.inl rfl)]
    have hreturn : CompletionProtocol.next driver.reports c.sys .driver =
        some { c.sys with driver := .idle } := by
      show CompletionProtocol.driverStep driver.reports c.sys = _
      rw [CompletionProtocol.driverStep, hpc]
    exact h.moves rfl rfl hthere rfl rfl rfl
      (CompletionProtocol.inv_step driver.reports _ _ _ h.work.protocol hreturn) (fun _ => rfl) rfl
  | advances r ret pos hpos =>
    rw [h.life.touch_rw rfl (.inl rfl)]
    have hnothing : Act.works (.unlock r ret) = true ∨ transfers (.unlock r ret) = true →
        c.removed = false := by
      rintro (hworks | htransfer)
      · cases hworks
      · cases htransfer
    exact h.holds rfl rfl rfl rfl rfl hnothing (fun hrefused => hrefused) pos
  | unlocks r ret =>
    rw [h.life.touch_rw rfl (.inl rfl)]
    exact h.unlocks
  | removes id x todo c₁ hstep hmore =>
    have hsame : c₁.returned = c.returned := removalStep_returned hstep
    have hinv := h.removal_step hstep c.returned (.inl rfl)
      (h.work.calls_next rfl (fun hrefused => hrefused) ⟨rfl, rfl, rfl⟩)
    rw [← hsame] at hinv
    exact hinv
  | removed id x c₁ hstep =>
    have hsame : c₁.returned = c.returned := removalStep_returned hstep
    have hinv := h.removal_step hstep (c.returned ++ [(id, 0)]) (.inr ⟨rfl, rfl⟩)
      (h.work.calls_report 0 (fun hrefused => by cases hrefused) ⟨rfl, rfl, rfl⟩)
    rw [← hsame] at hinv
    exact hinv

/-! What happens beside the calls -/

theorem work_start (h : Work c m) {b : Act} (hid : b.id = c.calls) (hb : b.inside = false)
    (hsame : c'.sys = c.sys ∧ c'.lock = c.lock ∧ c'.removed = c.removed ∧ c'.late = c.late ∧
      c'.returned = c.returned) (hcalls : c'.calls = c.calls + 1) :
    Work c' (([b] : List Act) + m) := by
  obtain ⟨hsys, hlock, hremoved, hlate, hreturned⟩ := hsame
  refine ⟨?_, h.mutex.add ?_ hlock ?_ ?_, ?_, ?_⟩
  · rw [hsys]
    exact h.protocol
  · rw [cnt_coe_cons, hb]
    rfl
  · intro hfree
    rw [hsys]
    exact hfree
  · intro x _ _ hx
    rw [Holds, hsys, hremoved]
    exact hx
  · rw [Calls, hcalls, hlate, hreturned]
    exact h.calls.start hid fun hl => by cases hl
  · rw [hlate, hremoved]
    exact h.late

theorem stage_start (h : Stage driver c m) {b : Act} (hb : left b = none)
    (hsame : c'.done = c.done ∧ c'.node = c.node ∧ c'.removed = c.removed ∧
      c'.released = c.released ∧ c'.removing = c.removing ∧ c'.faults = c.faults ∧
      (c'.sys.handler = c.sys.handler ∨ .freeIrq ∉ c.done))
    (hfile : ∀ r, b.rw = some r → r.file ∈ c'.files)
    (hfiles : ∀ a ∈ m, ∀ r, a.rw = some r → r.file ∈ c'.files) :
    Stage driver c' (([b] : List Act) + m) := by
  refine h.mono hsame ?_ (h.follows.add ?_)
  · intro a ha r hr
    rcases Multiset.mem_add.mp ha with ha | ha
    · obtain rfl := List.mem_singleton.mp (Multiset.mem_coe.mp ha)
      exact hfile r hr
    · exact hfiles a ha r hr
  · intro b' hb'
    rw [List.mem_singleton.mp hb']
    exact hb

theorem refs_start (h : Refs c m) {b : Act} (hb : holding b = false ∧ opening b = false)
    (hsame : c'.dev = c.dev ∧ c'.cdev = c.cdev ∧ c'.files = c.files ∧ c'.done = c.done) :
    Refs c' (([b] : List Act) + m) := by
  obtain ⟨hdev, hcdev, hfiles, hdone⟩ := hsame
  have hcnt : ∀ p : Act → Bool, p b = false → cnt p (([b] : List Act) + m) = cnt p m := by
    intro p hp
    rw [cnt_add, cnt_coe_cons, cnt_coe_nil, hp, Bool.toNat_false, Nat.zero_add]
  refine ⟨?_, ?_⟩
  · unfold holders
    rw [hcnt holding hb.1, hdev, hcdev, hfiles, hdone]
    exact h.alive
  · rw [hcnt opening hb.2, hcdev, hdone]
    exact h.cdev

theorem start_open (h : Inv driver c m) (hnode : c.node = true) :
    Inv driver { c with
        opened := c.opened + 1
        cdev := c.cdev + 1
        dev := c.dev.use
        calls := c.calls + 1 }
      (([.openFile c.calls c.opened] : List Act) + m) := by
  have hdone : .cdevDeviceDel ∉ c.done := by
    rw [h.life.stage.node] at hnode
    exact of_decide_eq_true hnode
  have hcdev := h.life.refs.cdev
  rw [decide_eq_true hdone, Bool.toNat_true] at hcdev
  have hpos : 0 < c.cdev := by omega
  have halive := h.life.refs.alive
  have huse : c.dev.use = c.dev := by
    apply halive.use
    unfold holders
    rw [decide_eq_true hpos, Bool.toNat_true]
    omega
  refine ⟨⟨⟨?_, ?_⟩, stage_start h.life.stage rfl ⟨rfl, rfl, rfl, rfl, rfl, rfl, .inl rfl⟩ nofun
    h.life.stage.files⟩,
    work_start h.work rfl rfl ⟨rfl, rfl, rfl, rfl, rfl⟩ rfl⟩
  · have hholders : holders { c with
          opened := c.opened + 1
          cdev := c.cdev + 1
          dev := c.dev.use
          calls := c.calls + 1 } (([.openFile c.calls c.opened] : List Act) + m) =
        holders c m := by
      unfold holders
      rw [cnt_add, cnt_coe_cons, cnt_coe_nil]
      dsimp only [holding, Bool.toNat_false]
      rw [decide_eq_true hpos, decide_eq_true (Nat.succ_pos c.cdev), Nat.zero_add]
    rw [hholders]
    show Held c.dev.use _
    rw [huse]
    exact halive
  · rw [cnt_add, cnt_coe_cons, cnt_coe_nil]
    show c.cdev + 1 = (decide (.cdevDeviceDel ∉ c.done)).toNat + (1 + 0 + cnt opening m)
    rw [decide_eq_true hdone, Bool.toNat_true]
    omega

theorem start_close (h : Inv driver c m) {file : Nat} (hfile : file ∈ c.files)
    (hunused : ∀ a ∈ m, ∀ r, a.rw = some r → r.file ≠ file) :
    Inv driver { c with files := c.files.erase file, calls := c.calls + 1 }
      (([.releaseFile c.calls] : List Act) + m) := by
  refine ⟨⟨⟨?_, ?_⟩, stage_start h.life.stage rfl ⟨rfl, rfl, rfl, rfl, rfl, rfl, .inl rfl⟩ nofun ?_⟩,
    work_start h.work rfl rfl ⟨rfl, rfl, rfl, rfl, rfl⟩ rfl⟩
  · have hholders : holders { c with files := c.files.erase file, calls := c.calls + 1 }
        (([.releaseFile c.calls] : List Act) + m) = holders c m := by
      have hlen := List.length_erase_of_mem hfile
      have hpos := List.length_pos_of_mem hfile
      unfold holders
      rw [cnt_add, cnt_coe_cons, cnt_coe_nil]
      dsimp only [holding, Bool.toNat_true]
      omega
    rw [hholders]
    exact h.life.refs.alive
  · rw [cnt_add, cnt_coe_cons, cnt_coe_nil]
    show c.cdev = _ + (0 + 0 + cnt opening m)
    rw [Nat.zero_add]
    exact h.life.refs.cdev
  · intro a ha r hr
    exact (List.mem_erase_of_ne (hunused a ha r hr)).mpr (h.life.stage.files a ha r hr)

theorem start_rw (h : Inv driver c m) (hr : r.id = c.calls) (hfile : r.file ∈ c.files) :
    Inv driver { c with calls := c.calls + 1 } (([.enter r] : List Act) + m) := by
  refine ⟨⟨refs_start h.life.refs ⟨rfl, rfl⟩ ⟨rfl, rfl, rfl, rfl⟩, stage_start h.life.stage rfl
    ⟨rfl, rfl, rfl, rfl, rfl, rfl, .inl rfl⟩ ?_ h.life.stage.files⟩,
    work_start h.work hr rfl ⟨rfl, rfl, rfl, rfl, rfl⟩ rfl⟩
  intro r' hr'
  obtain rfl := Option.some.inj hr'
  exact hfile

theorem start_remove (h : Inv driver c m) (hbefore : c.removing = false) :
    Inv driver { c with removing := true, calls := c.calls + 1 }
      (([.remove c.calls driver.removal] : List Act) + m) := by
  have hstage := h.life.stage
  have hfollows := hstage.follows
  rw [hbefore] at hfollows
  have houtside : Act.inside (.remove c.calls driver.removal) = false := by
    cases driver <;> rfl
  refine ⟨⟨refs_start h.life.refs ⟨rfl, rfl⟩ ⟨rfl, rfl, rfl, rfl⟩, ⟨?_, hstage.node, hstage.removed,
    hstage.released, hfollows.start rfl, hstage.quiet, hstage.clean⟩⟩,
    work_start h.work rfl houtside ⟨rfl, rfl, rfl, rfl, rfl⟩ rfl⟩
  intro a ha r hr
  rcases Multiset.mem_add.mp ha with ha | ha
  · obtain rfl := List.mem_singleton.mp (Multiset.mem_coe.mp ha)
    cases hr
  · exact hstage.files a ha r hr

theorem background (h : Inv driver c m) {sys : Sys} (hsys : CompletionProtocol.Inv sys)
    (hdriver : sys.driver = c.sys.driver)
    (hhandler : sys.handler = c.sys.handler ∨ .freeIrq ∉ c.done) :
    Inv driver { c with sys } m := by
  refine ⟨⟨⟨h.life.refs.alive, h.life.refs.cdev⟩, h.life.stage.mono
    ⟨rfl, rfl, rfl, rfl, rfl, rfl, hhandler⟩ h.life.stage.files h.life.stage.follows⟩,
    hsys, ⟨h.work.mutex.excl, ?_, ?_⟩, h.work.calls, h.work.late⟩
  · intro hfree
    show sys.driver = .idle
    rw [hdriver]
    exact h.work.mutex.free hfree
  · intro a ha hin
    have hheld := h.work.mutex.held a ha hin
    rw [Holds] at hheld ⊢
    dsimp only
    rw [hdriver]
    exact hheld

/-- A handler that is running finds the registers mapped and the structure there. -/
theorem touch_handler (h : Inv driver c m) (hrunning : c.sys.handler ≠ .idle)
    {rs : List Resource} (hrs : ∀ x ∈ rs, x = .regs) : c.touch rs = c := by
  have hirq : .freeIrq ∉ c.done := fun hfreed => hrunning (h.life.stage.quiet hfreed)
  obtain ⟨hregs, hput⟩ := (orderly h.life.stage.follows.inOrder).2.1 hirq
  apply h.life.touch_eq
  · unfold holders
    rw [decide_eq_true hput, Bool.toNat_true]
    omega
  · intro x hx
    rw [h.life.stage.released, hrs x hx]
    exact hregs

theorem handler (h : Inv driver c m) {sys : Sys}
    (hstep : CompletionProtocol.next driver.reports c.sys .handler = some sys) :
    Inv driver { c.touch (handlerUses c.sys.handler) with sys } m := by
  have hrunning : c.sys.handler ≠ .idle := by
    intro hidle
    have hhandler : CompletionProtocol.handlerStep c.sys = some sys := hstep
    rw [CompletionProtocol.handlerStep, hidle] at hhandler
    cases hhandler
  have huses : ∀ x ∈ handlerUses c.sys.handler, x = .regs := by
    intro x hx
    cases hpc : c.sys.handler with
    | idle => exact absurd hpc hrunning
    | entered | clear =>
      rw [hpc] at hx
      exact List.mem_singleton.mp hx
    | publish | complete =>
      rw [hpc] at hx
      cases hx
  rw [h.touch_handler hrunning huses]
  refine h.background (CompletionProtocol.inv_step _ _ _ _ h.work.protocol hstep)
    (handlerStep_driver hstep) (.inr ?_)
  exact fun hfreed => hrunning (h.life.stage.quiet hfreed)

end Inv

/-! ## Every run -/

theorem unused_spec {s : System} {file : Nat} (h : s.unused file = true) :
    ∀ a ∈ s.pending, ∀ r, a.rw = some r → r.file ≠ file := by
  intro a ha r hr
  obtain ⟨t, ht, ha⟩ := Pool.mem_pending.mp ha
  have hthread := List.all_eq_true.mp h t ht
  have hact := List.all_eq_true.mp hthread a ha
  rw [hr] at hact
  simpa using hact

theorem inv_next {driver : Driver} {s t : System} {e : Event} (hs : Inv driver s.core s.pending)
    (h : next driver s e = some t) : Inv driver t.core t.pending := by
  cases e with
  | openFile =>
    obtain ⟨hnode, heq⟩ := Option.ite_none_right_eq_some.mp h
    obtain rfl := Option.some.inj heq
    rw [System.start, Pool.spawn_pending]
    exact hs.start_open hnode
  | close file =>
    obtain ⟨⟨hfile, hunused⟩, heq⟩ := Option.ite_none_right_eq_some.mp h
    obtain rfl := Option.some.inj heq
    rw [System.start, Pool.spawn_pending]
    exact hs.start_close hfile (unused_spec hunused)
  | rw file ubuf count dir =>
    obtain ⟨hfile, heq⟩ := Option.ite_none_right_eq_some.mp h
    obtain rfl := Option.some.inj heq
    rw [System.start, Pool.spawn_pending]
    exact hs.start_rw rfl hfile
  | remove =>
    obtain ⟨hbefore, heq⟩ := Option.ite_none_left_eq_some.mp h
    obtain rfl := Option.some.inj heq
    rw [System.start, Pool.spawn_pending]
    exact hs.start_remove (by simpa using hbefore)
  | step i o =>
    have hrun : s.run (Model.exec driver) i o = some t := h
    refine Pool.run_invariant ?_ hrun hs
    intro o c a rest c' pushed hi he
    exact hi.step (exec_does he)
  | interrupt =>
    obtain ⟨hirq, heq⟩ := Option.ite_none_left_eq_some.mp h
    obtain ⟨sys, hsys, rfl⟩ := Option.map_eq_some_iff.mp heq
    have hpc : sys.driver = s.core.sys.driver := by
      obtain ⟨-, heq⟩ := Option.ite_none_right_eq_some.mp hsys
      obtain rfl := Option.some.inj heq
      rfl
    refine hs.background (CompletionProtocol.inv_step _ _ _ _ hs.work.protocol hsys) hpc (.inr ?_)
    intro hfreed
    rw [hs.life.stage.released] at hirq
    exact hirq (List.mem_filterMap.mpr ⟨.freeIrq, hfreed, rfl⟩)
  | handler =>
    obtain ⟨sys, hsys, rfl⟩ := Option.map_eq_some_iff.mp h
    exact hs.handler hsys
  | expire =>
    obtain rfl := Option.some.inj h
    exact hs.background (CompletionProtocol.inv_step driver.reports _ .expire _ hs.work.protocol rfl)
      rfl (.inl rfl)
  | env bus guest =>
    obtain rfl := Option.some.inj h
    exact hs.background
      (CompletionProtocol.inv_step driver.reports _ (.env bus guest) _ hs.work.protocol rfl) rfl
      (.inl rfl)

/-- A probed device, with no file open. -/
def probed (m : Machine) (room : Nat → Nat) : System := ⟨{ sys := { machine := m }, room }, []⟩

theorem inv_probed (driver : Driver) {m : Machine} (room : Nat → Nat) (hidle : Idle m.ps) :
    Inv driver (probed m room).core (probed m room).pending := by
  refine ⟨⟨⟨⟨rfl, rfl, rfl⟩, rfl⟩, ⟨?_, rfl, rfl, ?_, Followed.none _ _, ?_, rfl⟩⟩,
    ⟨⟨hidle, trivial⟩, ⟨rfl, fun _ => rfl, ?_⟩, Ledger.none, ?_⟩⟩
  · intro a ha
    exact absurd ha (Multiset.notMem_zero a)
  · exact fun x => Iff.rfl
  · exact fun _ => rfl
  · intro a ha
    exact absurd ha (Multiset.notMem_zero a)
  · exact fun hne => absurd rfl hne

theorem inv_steps {driver : Driver} {s t : System} {es : List Event}
    (h : Steps (fun s e t => next driver s e = some t) s es t)
    (hs : Inv driver s.core s.pending) : Inv driver t.core t.pending := by
  induction h with
  | nil => exact hs
  | cons hstep _ ih => exact ih (inv_next hs hstep)

/-! ## What a removal leaves behind -/

/-- How many steps a refused call has before it. -/
def togo : Act → Nat
  | .check _ _ => 3
  | .advance _ _ => 2
  | .unlock _ _ => 1
  | _ => 0

/-- However the next step of the call goes, device and file positions stay, and the call returns
-ENODEV or is a step nearer to that. -/
def Refuses (driver : Driver) (c : Core) (a : Act) : Prop :=
  ∀ o, ∃ c' pushed, Model.exec driver o c a = some (c', pushed) ∧ c'.sys = c.sys ∧ c'.pos = c.pos ∧
    ((pushed = [] ∧ c'.returned = c.returned ++ [(a.id, -enodev)]) ∨
      ∃ b, pushed = [b] ∧ b.id = a.id ∧ togo b < togo a)

theorem refuses (driver : Driver) {c : Core} {a : Act} (h : refused a = true)
    (hremoved : c.removed = true) : Refuses driver c a := by
  intro o
  cases a with
  | check r count =>
    refine ⟨c.touch [], [.advance r (-enodev)], ?_, rfl, rfl, .inr ⟨_, rfl, rfl, Nat.lt_succ_self 2⟩⟩
    rw [Model.exec, if_pos hremoved]
  | advance r ret =>
    obtain rfl : ret = -enodev := of_decide_eq_true h
    refine ⟨c.touch [], [.unlock r (-enodev)], ?_, rfl, rfl, .inr ⟨_, rfl, rfl, Nat.lt_succ_self 1⟩⟩
    have hstays : ¬ 0 < -enodev := by decide
    rw [Model.exec, if_neg hstays]
    rfl
  | unlock r ret =>
    obtain rfl : ret = -enodev := of_decide_eq_true h
    exact ⟨_, _, rfl, rfl, rfl, .inl ⟨rfl, rfl⟩⟩
  | openFile | openDone | releaseFile | enter | lock | fetch | map | describe | transfer | unmap
  | deliver | remove => cases h

/-- The removal has finished, every file is closed, and no open or close is in progress. -/
def Abandoned (driver : Driver) (s : System) : Prop :=
  s.core.done = driver.removal ∧ s.core.files = [] ∧
    ∀ a ∈ s.pending, opening a = false ∧ holding a = false

theorem holders_eq_zero {driver : Driver} {s : System} (h : Inv driver s.core s.pending) :
    holders s.core s.pending = 0 ↔ Abandoned driver s := by
  have hcdev := h.life.refs.cdev
  constructor
  · intro hzero
    unfold holders at hzero
    have hput : (decide (.putDevice ∉ s.core.done)).toNat = 0 := by omega
    have hreferred : (decide (0 < s.core.cdev)).toNat = 0 := by omega
    rw [Bool.toNat_eq_zero, decide_eq_false_iff_not] at hput hreferred
    have hopening : cnt opening s.pending = 0 := by omega
    have hholding : cnt holding s.pending = 0 := by omega
    refine ⟨(orderly h.life.stage.follows.inOrder).2.2 (not_not.mp hput), ?_, ?_⟩
    · exact List.length_eq_zero_iff.mp (by omega)
    · exact fun a ha => ⟨cnt_eq_zero.mp hopening a ha, cnt_eq_zero.mp hholding a ha⟩
  · rintro ⟨hdone, hfiles, hnone⟩
    have hopening : cnt opening s.pending = 0 := cnt_eq_zero.mpr fun a ha => (hnone a ha).1
    have hholding : cnt holding s.pending = 0 := cnt_eq_zero.mpr fun a ha => (hnone a ha).2
    have hlast : .putDevice ∈ driver.removal ∧ .cdevDeviceDel ∈ driver.removal := by
      cases driver <;> decide
    rw [hdone, decide_eq_false (not_not.mpr hlast.2), hopening] at hcdev
    unfold holders
    rw [hdone, decide_eq_false (not_not.mpr hlast.1), hcdev, hfiles, hholding]
    rfl

/-- Opens, closes, reads and writes on any number of files and one removal, interleaved in any
way: nothing that is released is used, by the calls, the handler or the device; a call that takes
the lock too late is refused; and the structure is freed once the device is abandoned. -/
theorem removal_safe (driver : Driver) (m : Machine) (room : Nat → Nat) (es : List Event)
    (s : System) (hidle : Idle m.ps)
    (h : Steps (fun s e t => next driver s e = some t) (probed m room) es s) :
    s.core.faults = [] ∧ s.core.dev.faults = 0 ∧
      (s.core.released ≠ [] → busy s.core.sys.machine.ps = false ∧
        s.core.sys.machine.ps.timer = false) ∧
      (∀ id ∈ s.core.late,
        (∀ ret, (id, ret) ∈ s.core.returned → ret = -enodev) ∧
        (∀ a ∈ s.pending, a.id = id → Refuses driver s.core a) ∧
        ((∃ a ∈ s.pending, a.id = id) ∨ (id, -enodev) ∈ s.core.returned)) ∧
      (Abandoned driver s → s.core.dev.frees = 1) ∧
      (¬ Abandoned driver s → s.core.dev.frees = 0) := by
  have hinv := inv_steps h (inv_probed driver room hidle)
  have hfrees := hinv.life.refs.alive.frees
  refine ⟨hinv.life.stage.clean, hinv.life.refs.alive.faults, ?_, ?_, ?_, ?_⟩
  · intro hreleased
    have hremoved : s.core.removed = true := by
      cases hremoved : s.core.removed with
      | true => rfl
      | false => exact absurd (hinv.life.stage.released_nil hremoved) hreleased
    have hprotocol := hinv.work.protocol
    rw [CompletionProtocol.Inv, hinv.work.idle hremoved] at hprotocol
    exact ⟨hprotocol.idle.notBusy, hprotocol.idle.disarmed⟩
  · intro id hid
    have hremoved := hinv.work.late (List.ne_nil_of_mem hid)
    have hlate : decide (id ∈ s.core.late) = true := decide_eq_true hid
    have hcalled : id < s.core.calls := by
      by_contra hnot
      rw [hinv.work.calls.early id (Nat.le_of_not_lt hnot)] at hlate
      cases hlate
    refine ⟨?_, ?_, ?_⟩
    · intro ret hret
      exact hinv.work.calls.closed (id, ret) hret hlate
    · rintro a ha rfl
      exact refuses driver (hinv.work.calls.current a ha hlate) hremoved
    · rcases hinv.work.calls.cases hcalled with ⟨a, ha, hnumber, -⟩ | ⟨ret, hret, hvalue⟩
      · exact .inl ⟨a, ha, hnumber⟩
      · rw [hvalue hlate] at hret
        exact .inr hret
  · intro habandoned
    rw [hfrees, (holders_eq_zero hinv).mpr habandoned]
    rfl
  · intro hnot
    rw [hfrees, decide_eq_false fun hzero => hnot ((holders_eq_zero hinv).mp hzero)]
    rfl

/-- A file is opened, and a read of it has begun when the device is removed; the read takes the
lock after that, and the file is closed. -/
def removedWhileOpen : List Event :=
  [Event.openFile, .step 0 .go, .step 0 .go, .rw 0 0x2000 4 .fromDevice, .step 1 .go, .remove] ++
    List.replicate 13 (Event.step 2 .go) ++ List.replicate 4 (Event.step 1 .go) ++
    [Event.close 0, .step 3 .go]

theorem removal_safe_while_open :
    ∃ s, Steps (fun s e t => next .dmaSg s e = some t)
        (probed (DmaSg.dmaSgProbe 12 willing fresh).1 fun _ => 256) removedWhileOpen s ∧
      s.core.late = [1] ∧ s.core.returned = [(0, 0), (2, 0), (1, -enodev), (3, 0)] ∧
      s.core.faults = [] ∧ s.core.dev.frees = 1 := by
  have hexec : (exec (next .dmaSg)
      (probed (DmaSg.dmaSgProbe 12 willing fresh).1 fun _ => 256) removedWhileOpen).map
        (fun s => (s.core.late, s.core.returned, s.core.done, s.core.files,
          s.threads.all fun t => t.todo.isEmpty)) =
      some ([1], [(0, 0), (2, 0), (1, -enodev), (3, 0)], Driver.dmaSg.removal, [], true) := by
    decide +kernel
  obtain ⟨s, hs, heq⟩ := Option.map_eq_some_iff.mp hexec
  obtain ⟨hlate, hreturned, hdone, hfiles, hthreads⟩ := by simpa only [Prod.mk.injEq] using heq
  have habandoned : Abandoned .dmaSg s := by
    refine ⟨hdone, hfiles, ?_⟩
    intro a ha
    obtain ⟨t, ht, ha⟩ := Pool.mem_pending.mp ha
    rw [List.isEmpty_iff.mp (List.all_eq_true.mp hthreads t ht)] at ha
    cases ha
  have hprobe : DmaSg.dmaSgProbe 12 willing fresh = (_, .ok DmaSg.probedDev) := rfl
  have hidle := (DmaSg.dmaSgProbe_ready hprobe rfl rfl).1.idle
  have hsafe := removal_safe .dmaSg _ _ removedWhileOpen s hidle (exec_steps hs)
  exact ⟨s, exec_steps hs, hlate, hreturned, hsafe.1, hsafe.2.2.2.2.1 habandoned⟩

end LinuxDeviceDriver.Drivers.Removal.Lifetime
