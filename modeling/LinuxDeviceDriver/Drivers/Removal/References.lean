/- source: examples/28_dma_sg/main.c, lines 184 to 200, 280 to 291 and 436 to 461;
     examples/27_dma/main.c, lines 132 to 148, 242 to 245 and 383 to 409
   digest: The order in which the removal releases what probe acquired, and who has a reference to
     the structure meanwhile. -/

import LinuxDeviceDriver.Drivers.Removal.Model
import LinuxDeviceDriver.Lib.Script

set_option autoImplicit false

namespace LinuxDeviceDriver.Drivers.Removal.References

open Lib.RefCount (Held)
open Lib.Script (Followed of_prefix of_split)
open Lib.Threads
open CompletionProtocol (Sys)
open Model hiding exec

/-! ## The order of the removal -/

def freed (done : List Teardown) : List Resource := done.filterMap Teardown.frees

/-- Nothing is released before removed is set; the registers and the structure outlast the
interrupt; and put_device comes last. -/
def Orderly (driver : Driver) (done : List Teardown) : Prop :=
  (.setRemoved ∉ done → freed done = []) ∧
    (.freeIrq ∉ done → .regs ∉ freed done ∧ .putDevice ∉ done) ∧
    (.putDevice ∈ done → done = driver.removal)

instance (driver : Driver) (done : List Teardown) : Decidable (Orderly driver done) :=
  inferInstanceAs (Decidable (_ ∧ _ ∧ _))

theorem orderly {driver : Driver} {done : List Teardown} (h : done <+: driver.removal) :
    Orderly driver done :=
  of_prefix h (by cases driver <;> decide)

/-- The step that comes next uses nothing that is released, and is not made twice; what it holds
of the lock; and from the masking of the interrupts on removed is set. -/
def Due (done : List Teardown) (x : Teardown) (todo : List Teardown) : Prop :=
  (∀ y ∈ x.uses, y ∉ freed done) ∧ .putDevice ∉ done ∧ x ∉ done ∧
    Act.inside (.remove 0 todo) = decide (x = .mutexLock ∨ x = .setRemoved) ∧
    (x.uses ≠ [] → .setRemoved ∈ done)

instance (done : List Teardown) (x : Teardown) (todo : List Teardown) :
    Decidable (Due done x todo) :=
  inferInstanceAs (Decidable (_ ∧ _ ∧ _ ∧ _ ∧ _))

theorem due {driver : Driver} {done todo : List Teardown} {x : Teardown}
    (h : done ++ x :: todo = driver.removal) : Due done x todo :=
  of_split h (by cases driver <;> decide)

theorem inside_remove (id : Nat) (todo : List Teardown) :
    Act.inside (.remove id todo) = Act.inside (.remove 0 todo) := by
  cases todo with
  | nil => rfl
  | cons x todo => cases x <;> rfl

/-! ## References and resources -/

/-- An open is in progress. -/
def opening : Act → Bool
  | .openFile _ _ | .openDone _ _ => true
  | _ => false

/-- The call has the reference of its file. -/
def holding : Act → Bool
  | .openDone _ _ | .releaseFile _ => true
  | _ => false

/-- What is left of the removal. -/
def left : Act → Option (List Teardown)
  | .remove _ todo => some todo
  | _ => none

/-- Who has a reference to the structure: the removal, until its last step; the cdev, as long as it
is referred to; and every file. -/
def holders (c : Core) (m : Multiset Act) : Nat :=
  (decide (.putDevice ∉ c.done)).toNat + (decide (0 < c.cdev)).toNat + c.files.length +
    cnt holding m

structure Refs (c : Core) (m : Multiset Act) : Prop where
  alive : Held c.dev (holders c m)
  cdev : c.cdev = (decide (.cdevDeviceDel ∉ c.done)).toNat + cnt opening m

/-- How far the removal has got, and that nothing was used after its release. -/
structure Stage (driver : Driver) (c : Core) (m : Multiset Act) : Prop where
  files : ∀ a ∈ m, ∀ r, a.rw = some r → r.file ∈ c.files
  node : c.node = decide (.cdevDeviceDel ∉ c.done)
  removed : c.removed = decide (.setRemoved ∈ c.done)
  released : ∀ x, x ∈ c.released ↔ x ∈ freed c.done
  follows : Followed left driver.removal c.done c.removing m
  quiet : .freeIrq ∈ c.done → c.sys.handler = .idle
  clean : c.faults = []

structure Life (driver : Driver) (c : Core) (m : Multiset Act) : Prop where
  refs : Refs c m
  stage : Stage driver c m

section Kinds

variable {a : Act} {r : Rw}

theorem rw_kind (h : a.rw = some r) :
    opening a = false ∧ holding a = false ∧ left a = none ∧ a.id = r.id := by
  cases a with
  | openFile | openDone | releaseFile | remove => cases h
  | enter | lock | check | fetch | map | describe | transfer | unmap | deliver | advance | unlock =>
    obtain rfl := Option.some.inj h
    exact ⟨rfl, rfl, rfl, rfl⟩

theorem cnt_rw {p : Act → Bool} {l : List Act} (hp : ∀ b, b.rw = some r → p b = false)
    (hl : ∀ b ∈ l, b.rw = some r) : cnt p (l : Multiset Act) = 0 := by
  rw [cnt_eq_zero]
  intro b hb
  exact hp b (hl b (Multiset.mem_coe.mp hb))

end Kinds

namespace Stage

variable {driver : Driver} {c c' : Core} {m m' rest : Multiset Act} {id : Nat} {x : Teardown}
variable {todo : List Teardown} {pushed : List Act}

theorem released_nil (h : Stage driver c m) (hremoved : c.removed = false) : c.released = [] := by
  rw [h.removed, decide_eq_false_iff_not] at hremoved
  rw [List.eq_nil_iff_forall_not_mem]
  intro x hx
  rw [h.released, (orderly h.follows.inOrder).1 hremoved] at hx
  exact absurd hx List.not_mem_nil

theorem mono (h : Stage driver c m)
    (hsame : c'.done = c.done ∧ c'.node = c.node ∧ c'.removed = c.removed ∧
      c'.released = c.released ∧ c'.removing = c.removing ∧ c'.faults = c.faults ∧
      (c'.sys.handler = c.sys.handler ∨ .freeIrq ∉ c.done))
    (hfiles : ∀ a ∈ m', ∀ r, a.rw = some r → r.file ∈ c'.files)
    (hfollows : Followed left driver.removal c.done c.removing m') : Stage driver c' m' := by
  obtain ⟨hdone, hnode, hremoved, hreleased, hremoving, hfaults, hhandler⟩ := hsame
  refine ⟨hfiles, ?_, ?_, ?_, ?_, ?_, ?_⟩
  · rw [hnode, hdone]
    exact h.node
  · rw [hremoved, hdone]
    exact h.removed
  · rw [hreleased, hdone]
    exact h.released
  · rw [hdone, hremoving]
    exact hfollows
  · rw [hdone]
    intro hfreed
    rcases hhandler with hhandler | hnot
    · rw [hhandler]
      exact h.quiet hfreed
    · exact absurd hfreed hnot
  · rw [hfaults]
    exact h.clean

theorem advance (h : Stage driver c (.remove id (x :: todo) ::ₘ rest))
    (hdone : c'.done = c.done ++ [x]) (hnode : c'.node = (c.node && decide (x ≠ .cdevDeviceDel)))
    (hremoved : c'.removed = (c.removed || decide (x = .setRemoved)))
    (hreleased : c'.released = x.frees.toList ++ c.released)
    (hsame : c'.removing = c.removing ∧ c'.faults = c.faults ∧ c'.files = c.files ∧
      c'.sys.handler = c.sys.handler)
    (hquiet : x = .freeIrq → c.sys.handler = .idle)
    (hpushed : pushed = [.remove id todo] ∨ (pushed = [] ∧ todo = [])) :
    Stage driver c' ((pushed : Multiset Act) + rest) := by
  obtain ⟨hremoving, hfaults, hfiles, hhandler⟩ := hsame
  refine ⟨?_, ?_, ?_, ?_, ?_, ?_, ?_⟩
  · intro a ha r hr
    rw [hfiles]
    rcases Multiset.mem_add.mp ha with ha | ha
    · rcases hpushed with rfl | ⟨rfl, -⟩
      · obtain rfl := List.mem_singleton.mp (Multiset.mem_coe.mp ha)
        cases hr
      · cases ha
    · exact h.files a (Multiset.mem_cons_of_mem ha) r hr
  · rw [hnode, hdone, h.node]
    by_cases hx : x = .cdevDeviceDel
    · simp [hx]
    · simp [hx, Ne.symm hx]
  · rw [hremoved, hdone, h.removed]
    by_cases hx : x = .setRemoved
    · simp [hx]
    · simp [hx, Ne.symm hx]
  · intro y
    have hold := h.released y
    rw [hreleased, hdone, freed, List.filterMap_append, List.mem_append, List.mem_append, hold,
      freed]
    cases hx : x.frees with
    | none => simp [hx]
    | some z => simp [hx, or_comm]
  · rw [hdone, hremoving]
    exact h.follows.advance rfl rfl hpushed
  · rw [hdone, hhandler]
    intro hfreed
    rcases List.mem_append.mp hfreed with hfreed | hfreed
    · exact h.quiet hfreed
    · exact hquiet (List.mem_singleton.mp hfreed).symm
  · rw [hfaults]
    exact h.clean

end Stage

namespace Life

variable {driver : Driver} {c : Core} {m rest : Multiset Act} {a : Act} {r : Rw}
variable {pushed : List Act} {rs : List Resource}

/-- What a holder of the structure may use does not show. -/
theorem touch_eq (h : Life driver c m) (hpos : 0 < holders c m) (hrs : ∀ x ∈ rs, x ∉ c.released) :
    c.touch rs = c := by
  have hnone : rs.filter (· ∈ c.released) = [] := by
    rw [List.filter_eq_nil_iff]
    intro x hx
    simpa using hrs x hx
  rw [Core.touch, h.refs.alive.use hpos, hnone, List.append_nil]

/-- A read or write uses the structure; it uses the device only before removed is set. -/
theorem touch_rw (h : Life driver c (a ::ₘ rest)) (ha : a.rw = some r)
    (hrs : rs = [] ∨ c.removed = false) : c.touch rs = c := by
  have hpos : 0 < holders c (a ::ₘ rest) := by
    have hmem := h.stage.files a (Multiset.mem_cons_self a rest) r ha
    have hlen := List.length_pos_of_mem hmem
    unfold holders
    omega
  refine h.touch_eq hpos ?_
  intro x hx
  rcases hrs with rfl | hremoved
  · exact absurd hx List.not_mem_nil
  · rw [h.stage.released_nil hremoved]
    exact List.not_mem_nil

theorem touch_removal {id : Nat} {x : Teardown} {todo : List Teardown}
    (h : Life driver c (.remove id (x :: todo) ::ₘ rest)) (hrs : ∀ y ∈ rs, y ∈ x.uses) :
    c.touch rs = c := by
  have hdue := due (h.stage.follows.todo _ (Multiset.mem_cons_self _ _) _ rfl)
  have hpos : 0 < holders c (.remove id (x :: todo) ::ₘ rest) := by
    unfold holders
    rw [decide_eq_true hdue.2.1, Bool.toNat_true]
    omega
  refine h.touch_eq hpos ?_
  intro y hy
  rw [h.stage.released]
  exact hdue.1 y (hrs y hy)

theorem frame (h : Life driver c (a ::ₘ rest)) (ha : a.rw = some r)
    (hpushed : ∀ b ∈ pushed, b.rw = some r) (sys : Sys) (lock : Bool) (pos : Nat → Nat)
    (late : List Nat) (returned : List (Nat × Int)) (hsys : sys.handler = c.sys.handler) :
    Life driver { c with sys, lock, pos, late, returned } ((pushed : Multiset Act) + rest) := by
  obtain ⟨hopen, hhold, hleft, -⟩ := rw_kind ha
  have hself := Multiset.mem_cons_self a rest
  refine ⟨⟨?_, ?_⟩, h.stage.mono ⟨rfl, rfl, rfl, rfl, rfl, rfl, .inl hsys⟩ ?_
    (h.stage.follows.other hleft fun b hb => (rw_kind (hpushed b hb)).2.2.1)⟩
  · have halive := h.refs.alive
    unfold holders at halive ⊢
    rw [cnt_cons, hhold, Bool.toNat_false, Nat.zero_add] at halive
    rw [cnt_add, cnt_rw (fun b hb => (rw_kind hb).2.1) hpushed, Nat.zero_add]
    exact halive
  · have hcdev := h.refs.cdev
    rw [cnt_cons, hopen, Bool.toNat_false, Nat.zero_add] at hcdev
    rw [cnt_add, cnt_rw (fun b hb => (rw_kind hb).1) hpushed, Nat.zero_add]
    exact hcdev
  · intro b hb r' hr'
    rcases Multiset.mem_add.mp hb with hb | hb
    · have hrw := hpushed b (Multiset.mem_coe.mp hb)
      rw [hrw] at hr'
      obtain rfl := Option.some.inj hr'
      exact h.stage.files a hself _ ha
    · exact h.stage.files b (Multiset.mem_cons_of_mem hb) r' hr'

/-- The other calls on files, each of which has one step to go or two. -/
theorem fileStep (h : Life driver c (a ::ₘ rest)) {c' : Core} (ha : left a = none)
    (hpushed : ∀ b ∈ pushed, b.rw = none ∧ left b = none)
    (hsame : c'.done = c.done ∧ c'.node = c.node ∧ c'.removed = c.removed ∧
      c'.released = c.released ∧ c'.removing = c.removing ∧ c'.faults = c.faults ∧
      (c'.sys.handler = c.sys.handler ∨ .freeIrq ∉ c.done))
    (hfiles : ∀ file ∈ c.files, file ∈ c'.files) :
    Stage driver c' ((pushed : Multiset Act) + rest) := by
  refine h.stage.mono hsame ?_ (h.stage.follows.other ha fun b hb => (hpushed b hb).2)
  intro b hb r hr
  rcases Multiset.mem_add.mp hb with hb | hb
  · rw [(hpushed b (Multiset.mem_coe.mp hb)).1] at hr
    cases hr
  · exact hfiles _ (h.stage.files b (Multiset.mem_cons_of_mem hb) r hr)

/-- dma_sg_open: the file gets its reference while the cdev has one. -/
theorem opens {id file : Nat} (h : Life driver c (.openFile id file ::ₘ rest)) :
    Life driver { c with dev := c.dev.get } (([.openDone id file] : List Act) + rest) := by
  have hcdev := h.refs.cdev
  rw [cnt_cons] at hcdev
  have hopening : (opening (.openFile id file)).toNat = 1 := rfl
  have hpos : 0 < c.cdev := by omega
  refine ⟨⟨?_, ?_⟩, h.fileStep rfl ?_ ⟨rfl, rfl, rfl, rfl, rfl, rfl, .inl rfl⟩ fun _ hf => hf⟩
  · have halive := h.refs.alive
    have hholders : holders { c with dev := c.dev.get } (([.openDone id file] : List Act) + rest) =
        holders c (.openFile id file ::ₘ rest) + 1 := by
      unfold holders
      rw [cnt_add, cnt_cons, cnt_coe_cons, cnt_coe_nil]
      dsimp only [holding, Bool.toNat_true, Bool.toNat_false]
      omega
    rw [hholders]
    apply halive.get
    unfold holders
    rw [decide_eq_true hpos, Bool.toNat_true]
    omega
  · rw [cnt_add, cnt_coe_cons, cnt_coe_nil]
    exact hcdev
  · intro b hb
    obtain rfl := List.mem_singleton.mp hb
    exact ⟨rfl, rfl⟩

theorem cdevPut_held {k n : Nat} (hheld : Held c.dev (k + (decide (0 < c.cdev)).toNat + n))
    (hpos : 0 < c.cdev) : Held c.cdevPut.dev (k + (decide (0 < c.cdevPut.cdev)).toNat + n) := by
  rw [decide_eq_true hpos, Bool.toNat_true] at hheld
  by_cases hone : c.cdev = 1
  · have hdev : c.cdevPut.dev = c.dev.put := if_pos hone
    have hcdev : ¬0 < c.cdevPut.cdev := by
      show ¬0 < c.cdev - 1
      omega
    rw [hdev, decide_eq_false hcdev, Bool.toNat_false]
    apply Held.put
    have heq : k + 0 + n + 1 = k + 1 + n := by omega
    rw [heq]
    exact hheld
  · have hdev : c.cdevPut.dev = c.dev := if_neg hone
    have hcdev : 0 < c.cdevPut.cdev := by
      show 0 < c.cdev - 1
      omega
    rw [hdev, decide_eq_true hcdev, Bool.toNat_true]
    exact hheld

/-- The open is over: the reference that looking up the cdev took is dropped. -/
theorem opened {id file : Nat} (h : Life driver c (.openDone id file ::ₘ rest)) :
    Life driver ({ c.cdevPut with files := file :: c.files }.ret id 0)
      (([] : List Act) + rest) := by
  have hcdev := h.refs.cdev
  rw [cnt_cons] at hcdev
  have hopening : (opening (.openDone id file)).toNat = 1 := rfl
  have hpos : 0 < c.cdev := by omega
  refine ⟨⟨?_, ?_⟩, h.fileStep rfl ?_ ⟨rfl, rfl, rfl, rfl, rfl, rfl, .inl rfl⟩ ?_⟩
  · have halive := h.refs.alive
    unfold holders at halive ⊢
    rw [cnt_cons, Nat.add_assoc] at halive
    have hput := cdevPut_held halive hpos
    rw [cnt_add, cnt_coe_nil]
    show Held c.cdevPut.dev (_ + (decide (0 < c.cdevPut.cdev)).toNat + (file :: c.files).length + _)
    rw [List.length_cons, Nat.add_assoc]
    have heq : c.files.length + 1 + (0 + cnt holding rest) =
        c.files.length + ((holding (.openDone id file)).toNat + cnt holding rest) := by
      dsimp only [holding, Bool.toNat_true]
      omega
    rw [heq]
    exact hput
  · rw [Multiset.coe_nil, zero_add]
    show c.cdev - 1 = (decide (.cdevDeviceDel ∉ c.done)).toNat + cnt opening rest
    omega
  · intro b hb
    cases hb
  · exact fun f hf => List.mem_cons_of_mem file hf

theorem closed {id : Nat} (h : Life driver c (.releaseFile id ::ₘ rest)) :
    Life driver ({ c with dev := c.dev.put }.ret id 0) (([] : List Act) + rest) := by
  refine ⟨⟨?_, ?_⟩, h.fileStep rfl ?_ ⟨rfl, rfl, rfl, rfl, rfl, rfl, .inl rfl⟩ fun _ hf => hf⟩
  · have halive := h.refs.alive
    have hholders : holders c (.releaseFile id ::ₘ rest) = holders c rest + 1 := by
      have hone : (holding (.releaseFile id)).toNat = 1 := rfl
      unfold holders
      rw [cnt_cons]
      omega
    rw [hholders] at halive
    rw [Multiset.coe_nil, zero_add]
    exact halive.put
  · have hcdev := h.refs.cdev
    rw [cnt_cons] at hcdev
    rw [cnt_add, cnt_coe_nil]
    exact hcdev
  · intro b hb
    cases hb

/-- A step of the removal is the only one it adds to those that are done. -/
theorem notMem_done {x y : Teardown} {c' : Core} (hdone : c'.done = c.done ++ [x]) (hne : y ≠ x) :
    decide (y ∉ c'.done) = decide (y ∉ c.done) := by
  rw [hdone, decide_eq_decide, List.mem_append, List.mem_singleton, not_or]
  exact ⟨fun hnot => hnot.1, fun hnot => ⟨hnot, hne⟩⟩

theorem mem_done {x : Teardown} {c' : Core} (hdone : c'.done = c.done ++ [x]) :
    decide (x ∉ c'.done) = false := by
  rw [hdone]
  simp

theorem removal_unheld {id : Nat} {todo : List Teardown}
    (hpushed : pushed = [.remove id todo] ∨ (pushed = [] ∧ todo = [])) :
    cnt holding (pushed : Multiset Act) = 0 ∧ cnt opening (pushed : Multiset Act) = 0 := by
  rcases hpushed with rfl | ⟨rfl, -⟩ <;> exact ⟨rfl, rfl⟩

/-- The references to the cdev after any step but the first. -/
theorem refs_cdev {id : Nat} {x : Teardown} {todo : List Teardown} {c' : Core}
    (h : Life driver c (.remove id (x :: todo) ::ₘ rest)) (hx : x ≠ .cdevDeviceDel)
    (hdone : c'.done = c.done ++ [x]) (hcdev : c'.cdev = c.cdev)
    (hpushed : pushed = [.remove id todo] ∨ (pushed = [] ∧ todo = [])) :
    c'.cdev = (decide (.cdevDeviceDel ∉ c'.done)).toNat +
      cnt opening ((pushed : Multiset Act) + rest) := by
  have hold := h.refs.cdev
  rw [cnt_cons] at hold
  rw [notMem_done hdone hx.symm, hcdev, cnt_add, (removal_unheld hpushed).2]
  exact hold

/-- The references while the removal goes on, but for its first and its last step. -/
theorem refs_removal {id : Nat} {x : Teardown} {todo : List Teardown} {c' : Core}
    (h : Life driver c (.remove id (x :: todo) ::ₘ rest)) (hx : x ≠ .putDevice)
    (hx' : x ≠ .cdevDeviceDel) (hdone : c'.done = c.done ++ [x])
    (hsame : c'.dev = c.dev ∧ c'.cdev = c.cdev ∧ c'.files = c.files)
    (hpushed : pushed = [.remove id todo] ∨ (pushed = [] ∧ todo = [])) :
    Refs c' ((pushed : Multiset Act) + rest) := by
  obtain ⟨hdev, hcdev, hfiles⟩ := hsame
  refine ⟨?_, refs_cdev h hx' hdone hcdev hpushed⟩
  have halive := h.refs.alive
  unfold holders at halive ⊢
  rw [cnt_cons] at halive
  rw [notMem_done hdone hx.symm, hdev, hcdev, hfiles, cnt_add, (removal_unheld hpushed).1]
  exact halive

theorem refs_first {id : Nat} {todo : List Teardown} {c' : Core}
    (h : Life driver c (.remove id (.cdevDeviceDel :: todo) ::ₘ rest))
    (hdone : c'.done = c.done ++ [.cdevDeviceDel])
    (hsame : c'.dev = c.cdevPut.dev ∧ c'.cdev = c.cdevPut.cdev ∧ c'.files = c.files)
    (hpushed : pushed = [.remove id todo] ∨ (pushed = [] ∧ todo = [])) :
    Refs c' ((pushed : Multiset Act) + rest) := by
  obtain ⟨hdev, hcdev, hfiles⟩ := hsame
  obtain ⟨hunheld, hunopened⟩ := removal_unheld hpushed
  have hdue := due (h.stage.follows.todo _ (Multiset.mem_cons_self _ _) _ rfl)
  have hold := h.refs.cdev
  rw [cnt_cons, decide_eq_true hdue.2.2.1, Bool.toNat_true] at hold
  have hpos : 0 < c.cdev := by omega
  refine ⟨?_, ?_⟩
  · have halive := h.refs.alive
    unfold holders at halive ⊢
    rw [cnt_cons, Nat.add_assoc] at halive
    rw [notMem_done hdone (by decide), hdev, hcdev, hfiles, cnt_add, hunheld, Nat.add_assoc]
    exact cdevPut_held halive hpos
  · rw [mem_done hdone, hcdev, cnt_add, hunopened]
    show c.cdev - 1 = _
    have hzero : (opening (.remove id (.cdevDeviceDel :: todo))).toNat = 0 := rfl
    rw [Bool.toNat_false]
    omega

theorem refs_last {id : Nat} {todo : List Teardown} {c' : Core}
    (h : Life driver c (.remove id (.putDevice :: todo) ::ₘ rest))
    (hdone : c'.done = c.done ++ [.putDevice])
    (hsame : c'.dev = c.dev.put ∧ c'.cdev = c.cdev ∧ c'.files = c.files)
    (hpushed : pushed = [.remove id todo] ∨ (pushed = [] ∧ todo = [])) :
    Refs c' ((pushed : Multiset Act) + rest) := by
  obtain ⟨hdev, hcdev, hfiles⟩ := hsame
  refine ⟨?_, refs_cdev h (by decide) hdone hcdev hpushed⟩
  have hdue := due (h.stage.follows.todo _ (Multiset.mem_cons_self _ _) _ rfl)
  have halive := h.refs.alive
  unfold holders at halive ⊢
  rw [cnt_cons, decide_eq_true hdue.2.1, Bool.toNat_true] at halive
  rw [mem_done hdone, hdev, hcdev, hfiles, cnt_add, (removal_unheld hpushed).1, Bool.toNat_false]
  apply Held.put
  have hzero : (holding (.remove id (.putDevice :: todo))).toNat = 0 := rfl
  have heq : 0 + (decide (0 < c.cdev)).toNat + c.files.length + (0 + cnt holding rest) + 1 =
      1 + (decide (0 < c.cdev)).toNat + c.files.length +
        ((holding (.remove id (.putDevice :: todo))).toNat + cnt holding rest) := by omega
  rw [heq]
  exact halive

end Life

end LinuxDeviceDriver.Drivers.Removal.References
