/- source: examples/21_usb_skel/main.c, lines 25 to 138 and 372 to 396
   digest: The structure is freed once, after the disconnect and the last close, and not used after
     that; and when the tick URB is active. -/

import LinuxDeviceDriver.Drivers.UsbSkel.Polling
import LinuxDeviceDriver.Lib.Transition

set_option autoImplicit false

namespace LinuxDeviceDriver.Drivers.UsbSkel.Lifetime

open Lib.LittleEndian (Byte)
open Lib.Script (Followed)
open Lib.Threads
open Lib.Transition (Steps exec exec_steps)
open CharFile
open Model hiding exec
open Accounts Polling

/-! ## Every run -/

theorem exec_does {o : Choice} {c c' : Core} {m : Multiset Act} {a : Act} {pushed : List Act}
    (h : Inv c.toSkel m) (ha : a ∈ m) (he : Model.exec o c a = some (c', pushed)) :
    Does c.toSkel a c'.toSkel pushed := by
  by_cases hleft : left a = some []
  · cases a with
    | unplug id todo =>
      obtain rfl := Option.some.inj hleft
      cases he
    | _ => cases hleft
  · have huse : ({ c with dev := c.dev.use } : Core) = c := by
      rw [h.counts.alive.use (h.alive ha hleft)]
    rw [Model.exec, huse, ite_self] at he
    exact act_does he

theorem unused_spec {s : System} {file : Nat} (h : s.unused file = true) :
    ∀ a ∈ s.pending, ∀ f, a.file = some f → f ≠ file := by
  intro a ha f hf
  obtain ⟨t, ht, ha⟩ := Pool.mem_pending.mp ha
  have hact := List.all_eq_true.mp (List.all_eq_true.mp h t ht) a ha
  rw [hf] at hact
  simpa using hact

theorem inv_call {s t : System} {file : Nat} {a : Act} (hs : Inv s.core.toSkel s.pending)
    (ha : a.file = some file) (hout : a.inside = false) (h : s.call file a = some t) :
    Inv t.core.toSkel t.pending := by
  obtain ⟨hfile, heq⟩ := Option.ite_none_right_eq_some.mp h
  obtain rfl := Option.some.inj heq
  rw [System.start, Pool.spawn_pending]
  exact hs.start_call ha hout hfile

theorem inv_next {s t : System} {e : Event} (hs : Inv s.core.toSkel s.pending)
    (h : next s e = some t) : Inv t.core.toSkel t.pending := by
  cases e with
  | openFile =>
    obtain ⟨hregistered, heq⟩ := Option.ite_none_right_eq_some.mp h
    obtain rfl := Option.some.inj heq
    rw [System.start, Pool.spawn_pending]
    exact hs.start_open hregistered
  | close file =>
    obtain ⟨⟨hfile, hunused⟩, heq⟩ := Option.ite_none_right_eq_some.mp h
    obtain rfl := Option.some.inj heq
    rw [System.start, Pool.spawn_pending]
    exact hs.start_close hfile (unused_spec hunused)
  | read file nonblock count | write file count parsed | poll file => exact inv_call hs rfl rfl h
  | disconnect =>
    obtain ⟨hbefore, heq⟩ := Option.ite_none_left_eq_some.mp h
    obtain rfl := Option.some.inj heq
    rw [System.start, Pool.spawn_pending]
    exact hs.start_disconnect (by simpa using hbefore)
  | complete status actualLength word =>
    obtain ⟨hactive, heq⟩ := Option.ite_none_right_eq_some.mp h
    obtain rfl := Option.some.inj heq
    rw [Pool.spawn_pending]
    exact hs.start_complete hactive status actualLength word
  | step i o =>
    have hrun : s.run Model.exec i o = some t := h
    obtain ⟨a, rest, pushed, hpending, he, hpending', -⟩ := Pool.run_pending hrun
    rw [hpending] at hs
    rw [hpending']
    exact hs.step (exec_does hs (Multiset.mem_cons_self a rest) he)

/-- A probed device, with no file open. -/
def probed (bulkInSize : Nat) (bulkInBuffer : List Byte) : System :=
  ⟨{ bulkInSize, bulkInBuffer }, []⟩

theorem inv_probed (bulkInSize : Nat) (bulkInBuffer : List Byte) :
    Inv (probed bulkInSize bulkInBuffer).core.toSkel (probed bulkInSize bulkInBuffer).pending := by
  refine ⟨⟨rfl, rfl, rfl, ⟨rfl, rfl, rfl⟩⟩, ⟨?_, rfl, rfl, Followed.none _ _, ?_, ?_⟩, ⟨rfl, ?_, ?_⟩⟩
  · intro a ha
    exact absurd ha (Multiset.notMem_zero a)
  · exact fun hdone => absurd hdone List.not_mem_nil
  · exact fun hdone => absurd hdone List.not_mem_nil
  · intro _ _
    refine ⟨rfl, fun _ => rfl, ?_⟩
    intro _ hwanted
    exact absurd hwanted (Int.lt_irrefl 0)
  · intro a ha
    exact absurd ha (Multiset.notMem_zero a)

theorem inv_steps {s t : System} {es : List Event} (h : Steps (fun s e t => next s e = some t) s es t)
    (hs : Inv s.core.toSkel s.pending) : Inv t.core.toSkel t.pending := by
  induction h with
  | nil => exact hs
  | cons hstep _ ih => exact ih (inv_next hs hstep)

/-! ## What the driver guarantees -/

/-- Disconnect has dropped its reference, and every file is closed. -/
def Abandoned (s : System) : Prop :=
  .krefPut ∈ s.core.done ∧ s.core.files = [] ∧ ∀ a ∈ s.pending, holding a = false

/-- The file of the call is opened and not yet released, beside the open ones: its open has left
the mutex, or its close has not taken it. -/
def unreleased : Act → Bool
  | .openGet _ _ | .openSeen _ _ | .closeLock _ => true
  | _ => false

/-- In usb_kill_urb. -/
def killing : Act → Bool
  | .closeWait _ | .unplug _ (.killWait :: _) => true
  | _ => false

theorem holders_eq_zero (s : System) : holders s.core.toSkel s.pending = 0 ↔ Abandoned s := by
  unfold holders base Abandoned
  constructor
  · intro hzero
    have hput : (decide (.krefPut ∉ s.core.done)).toNat = 0 := by omega
    rw [Bool.toNat_eq_zero, decide_eq_false_iff_not, not_not] at hput
    exact ⟨hput, List.length_eq_zero_iff.mp (by omega), cnt_eq_zero.mp (by omega)⟩
  · rintro ⟨hput, hfiles, hnone⟩
    rw [decide_eq_false (not_not.mpr hput), hfiles, cnt_eq_zero.mpr hnone]
    rfl

section Guarantees

variable {k : Skel} {m : Multiset Act}

/-- Outside the mutex an open or close is counted as long as its file is not released. -/
theorem unreleased_eq (h : Inv k m) (hfree : k.ioMutex = false) :
    k.openCount = (k.files.length + cnt unreleased m : Nat) := by
  have hexcl := h.lock.excl
  rw [hfree, Bool.toNat_false, cnt_eq_zero] at hexcl
  have hsame : cnt counted m = cnt unreleased m := by
    unfold cnt
    refine Multiset.countP_congr rfl ?_
    intro a ha
    have hout := hexcl a ha
    cases a <;> first | rfl | cases hout
  rw [← hsame]
  exact h.counts.count

/-- A disconnect that has begun to kill the URB is still at it, or done. -/
theorem kill_pending (h : Inv k m) (hkill : .usbKillUrb ∈ k.done) (hnot : .killWait ∉ k.done) :
    ∃ a ∈ m, killing a = true := by
  have hstarted : k.unplugging = true := by
    by_contra hno
    rw [h.stage.follows.before (by simpa using hno)] at hkill
    cases hkill
  have hne : k.done ≠ skelDisconnect := by
    intro heq
    rw [heq] at hnot
    exact hnot (by decide)
  obtain ⟨a, ha, t, ht⟩ := h.stage.follows.unfinished hstarted hne
  have hsplit := h.stage.follows.todo a ha t ht
  cases t with
  | nil => exact absurd ((List.append_nil _).symm.trans hsplit) hne
  | cons x todo =>
    obtain ⟨-, -, -, -, -, hnext⟩ := due hsplit
    obtain rfl := hnext hkill hnot
    refine ⟨a, ha, ?_⟩
    cases a with
    | unplug id todo' =>
      obtain rfl := Option.some.inj ht
      rfl
    | _ => cases ht

/-- With no handler running, polling means that the URB is active. -/
theorem polling_active (hnone : ∀ a ∈ m, handling a = false) : polling k m = k.tickUrb.active.toNat := by
  have hzero : cnt resubmits m = 0 := by
    rw [cnt_eq_zero]
    intro a ha
    have hquiet := hnone a ha
    cases a <;> first | rfl | cases hquiet
  rw [polling, hzero, Nat.add_zero]

theorem active_iff (h : Inv k m) (hlost : k.lost = false) (hfree : k.ioMutex = false)
    (hnone : ∀ a ∈ m, handling a = false) (hkill : .usbKillUrb ∉ k.done) :
    k.tickUrb.active = true ↔ 0 < wanted k := by
  obtain ⟨-, hidle, hpolls⟩ := h.lock.free hfree hkill
  constructor
  · intro hactive
    by_contra hnot
    have hunused : k.tickUrb.uses = 0 := hidle (not_lt.mp hnot)
    rw [(h.counts.flight.unused hunused).1] at hactive
    cases hactive
  · intro hwanted
    have hone : polling k m = 1 := hpolls hlost hwanted
    rw [polling_active hnone] at hone
    cases hactive : k.tickUrb.active with
    | true => rfl
    | false =>
      rw [hactive] at hone
      cases hone

end Guarantees

/-- Opens, closes, reads, writes, polls, completions with any status and one disconnect,
interleaved in any way. -/
theorem skel_lifetime (bulkInSize : Nat) (bulkInBuffer : List Byte) (es : List Event) (s : System)
    (h : Steps (fun s e t => next s e = some t) (probed bulkInSize bulkInBuffer) es s) :
    s.core.dev.faults = 0 ∧ (Abandoned s → s.core.dev.frees = 1) ∧
      (¬ Abandoned s → s.core.dev.frees = 0) ∧
      (0 < s.core.dev.frees → s.core.tickUrb.active = false) ∧ 0 ≤ s.core.openCount ∧
      (s.core.ioMutex = false →
        s.core.openCount = (s.core.files.length + cnt unreleased s.pending : Nat)) ∧
      (s.core.lost = false → s.core.ioMutex = false →
        (∀ a ∈ s.pending, handling a = false ∧ killing a = false) →
        (s.core.disconnected = false → (s.core.tickUrb.active = true ↔ 0 < s.core.openCount)) ∧
        (s.core.disconnected = true → (s.core.tickUrb.active = true ↔
          0 < s.core.openAtDisconnect ∧ .killWait ∉ s.core.done))) := by
  have hinv := inv_steps h (inv_probed bulkInSize bulkInBuffer)
  have hfrees := hinv.counts.alive.frees
  obtain ⟨hset, hkill, hwait, hput⟩ := orderly hinv.stage.follows.inOrder
  refine ⟨hinv.counts.alive.faults, ?_, ?_, ?_, hinv.counts.nonneg, unreleased_eq hinv, ?_⟩
  · intro habandoned
    rw [hfrees, (holders_eq_zero s).mpr habandoned]
    rfl
  · intro hnot
    rw [hfrees, decide_eq_false fun hzero => hnot ((holders_eq_zero s).mp hzero)]
    rfl
  · intro hfreed
    have hzero : holders s.core.toSkel s.pending = 0 := by
      by_contra hne
      rw [hfrees, decide_eq_false hne] at hfreed
      exact absurd hfreed (Nat.lt_irrefl 0)
    have hkilled := (hput ((holders_eq_zero s).mp hzero).1).1
    exact (hinv.counts.flight.unused (hinv.stage.dead hkilled)).1
  · intro hlost hfree hquiet
    have hnone : ∀ a ∈ s.pending, handling a = false := fun a ha => (hquiet a ha).1
    refine ⟨?_, ?_⟩
    · intro hthere
      have hnot : .usbKillUrb ∉ s.core.done := by
        intro hbegun
        have hgone := hinv.stage.disconnected
        rw [hthere, decide_eq_true (hkill hbegun)] at hgone
        cases hgone
      rw [← wanted_there hthere]
      exact active_iff hinv hlost hfree hnone hnot
    · intro hgone
      have hwanted : wanted s.core.toSkel = s.core.openAtDisconnect := by
        rw [wanted, hgone]
        rfl
      by_cases hkilled : .killWait ∈ s.core.done
      · rw [(hinv.counts.flight.unused (hinv.stage.dead hkilled)).1]
        simp [hkilled]
      · have hnot : .usbKillUrb ∉ s.core.done := by
          intro hbegun
          obtain ⟨a, ha, hkilling⟩ := kill_pending hinv hbegun hkilled
          rw [(hquiet a ha).2] at hkilling
          cases hkilling
        rw [← hwanted, active_iff hinv hlost hfree hnone hnot]
        simp [hkilled]

/-- A file is opened; disconnect has set disconnected and is about to kill the URB when the file is
closed. -/
def closedWhileUnplugging : List Event :=
  [Event.openFile] ++ List.replicate 7 (Event.step 0 .go) ++ [Event.disconnect] ++
    List.replicate 4 (Event.step 1 .go) ++ [Event.close 0] ++ List.replicate 4 (Event.step 2 .go)

/-- The last close leaves the URB to a disconnect that has not killed it yet: nobody has the device
open, and it is polled. -/
theorem active_after_last_close :
    ∃ s, Steps (fun s e t => next s e = some t) (probed 64 []) closedWhileUnplugging s ∧
      s.core.lost = false ∧ s.core.ioMutex = false ∧
      (∀ a ∈ s.pending, handling a = false ∧ killing a = false) ∧
      ¬ (s.core.tickUrb.active = true ↔ 0 < s.core.openCount ∧ .killWait ∉ s.core.done) := by
  have hexec : (exec next (probed 64 []) closedWhileUnplugging).map
      (fun s => (s.core.lost, s.core.ioMutex, s.core.tickUrb.active, s.core.openCount,
        s.threads.all fun t => t.todo.all fun a => !handling a && !killing a)) =
      some (false, false, true, 0, true) := by decide +kernel
  obtain ⟨s, hs, heq⟩ := Option.map_eq_some_iff.mp hexec
  obtain ⟨hlost, hfree, hactive, hcount, hthreads⟩ := by simpa only [Prod.mk.injEq] using heq
  refine ⟨s, exec_steps hs, hlost, hfree, ?_, ?_⟩
  · intro a ha
    obtain ⟨t, ht, ha⟩ := Pool.mem_pending.mp ha
    have hquiet := List.all_eq_true.mp (List.all_eq_true.mp hthreads t ht) a ha
    simpa using hquiet
  · intro hiff
    have hpos := (hiff.mp hactive).1
    rw [hcount] at hpos
    exact absurd hpos (Int.lt_irrefl 0)

/-- Disconnect goes on: the URB is given back with -ENOENT, and the structure is freed. -/
def unplugged : List Event :=
  closedWhileUnplugging ++ [Event.step 1 .go, .complete (-enoent) 0 0, .step 3 .go, .step 3 .go] ++
    List.replicate 4 (Event.step 1 .go)

theorem skel_lifetime_unplugged :
    ∃ s, Steps (fun s e t => next s e = some t) (probed 64 []) unplugged s ∧
      s.core.done = skelDisconnect ∧ s.core.dev.frees = 1 ∧ s.core.tickUrb.active = false := by
  have hexec : (exec next (probed 64 []) unplugged).map
      (fun s => (s.core.done, s.core.files, s.threads.all fun t => t.todo.isEmpty)) =
      some (skelDisconnect, [], true) := by decide +kernel
  obtain ⟨s, hs, heq⟩ := Option.map_eq_some_iff.mp hexec
  obtain ⟨hdone, hfiles, hthreads⟩ := by simpa only [Prod.mk.injEq] using heq
  have habandoned : Abandoned s := by
    refine ⟨?_, hfiles, ?_⟩
    · rw [hdone]
      decide
    · intro a ha
      obtain ⟨t, ht, ha⟩ := Pool.mem_pending.mp ha
      rw [List.isEmpty_iff.mp (List.all_eq_true.mp hthreads t ht)] at ha
      cases ha
  obtain ⟨-, hfreed, -, hidle, -⟩ := skel_lifetime 64 [] unplugged s (exec_steps hs)
  have hone := hfreed habandoned
  exact ⟨s, exec_steps hs, hdone, hone, hidle (by rw [hone]; exact Nat.one_pos)⟩

end LinuxDeviceDriver.Drivers.UsbSkel.Lifetime
