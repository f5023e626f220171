/- source: examples/21_usb_skel/main.c, lines 39 to 75 and 140 to 194
   digest: Which ticks the successful reads of a file consume, and that each of them consumes one
     of its own, as long as one read of the file at a time gets past its test. -/

import LinuxDeviceDriver.Drivers.UsbSkel.Calls
import LinuxDeviceDriver.Lib.Stamps

set_option autoImplicit false

namespace LinuxDeviceDriver.Drivers.UsbSkel.Consumption

open Lib.LittleEndian (Byte)
open Lib.Stamps (Stamped latest latest_append latest_nil)
open Lib.Threads
open Lib.Transition
  (Steps Guarded annotate Annotated exec exec_steps exec_guarded_steps)
open CharFile
open Model hiding exec
open Polling (Inv)
open Lifetime (inv_next inv_probed probed)
open Calls

/-! ## What is counted in a run -/

/-- The ticks in all, without the wrap of the source's counter; their number when a file was opened,
and when a read took its sample; for each file the samples that its reads wrote to seen, in order,
and how many reads returned a length. -/
structure Tally where
  total : Nat := 0
  openedAt : Nat → Nat := fun _ => 0
  sampled : Nat → Nat := fun _ => 0
  consumed : Nat → List Nat := fun _ => []
  succeeded : Nat → Nat := fun _ => 0

namespace Tally

variable (g : Tally)

def tick : Tally := { g with total := g.total + 1 }

/-- A file is opened, and nothing was read from it. -/
def opens (file : Nat) : Tally :=
  { g with
    openedAt := Function.update g.openedAt file g.total
    consumed := Function.update g.consumed file []
    succeeded := Function.update g.succeeded file 0 }

def sample (r : Read) : Tally := { g with sampled := Function.update g.sampled r.id g.total }

def consume (r : Read) : Tally :=
  { g with consumed := Function.update g.consumed r.file (g.consumed r.file ++ [g.sampled r.id]) }

def succeed (r : Read) : Tally :=
  { g with succeeded := Function.update g.succeeded r.file (g.succeeded r.file + 1) }

/-- What the action of a step adds. -/
def note : Label → Tally
  | (_, some (.tickComplete status actualLength word)) =>
    if isTick status actualLength word then g.tick else g
  | (_, some (.openSeen _ file)) => g.opens file
  | (_, some (.readTicks r)) => g.sample r
  | (.step _ o, some (.readCopy r _ _)) => if refused o then g else g.consume r
  | (_, some (.readUnlock r err)) => if 0 ≤ err then g.succeed r else g
  | _ => g

/-- What seen stands for. -/
def seen (file : Nat) : Nat := latest (g.openedAt file) (g.consumed file)

variable {g} {r : Read} {file new : Nat}

theorem opens_openedAt : (g.opens new).openedAt new = g.total := Function.update_self ..

theorem opens_consumed : (g.opens new).consumed new = [] := Function.update_self ..

theorem opens_succeeded : (g.opens new).succeeded new = 0 := Function.update_self ..

theorem opens_other (h : file ≠ new) :
    (g.opens new).openedAt file = g.openedAt file ∧
      (g.opens new).consumed file = g.consumed file ∧
      (g.opens new).succeeded file = g.succeeded file :=
  ⟨Function.update_of_ne h .., Function.update_of_ne h .., Function.update_of_ne h ..⟩

theorem opens_seen : (g.opens new).seen new = g.total := by
  rw [seen, opens_openedAt, opens_consumed, latest_nil]

theorem opens_seen_other (h : file ≠ new) : (g.opens new).seen file = g.seen file := by
  rw [seen, (opens_other h).1, (opens_other h).2.1]
  rfl

theorem sample_sampled : (g.sample r).sampled r.id = g.total := Function.update_self ..

theorem consume_consumed : (g.consume r).consumed r.file = g.consumed r.file ++ [g.sampled r.id] :=
  Function.update_self ..

theorem consume_other (h : file ≠ r.file) : (g.consume r).consumed file = g.consumed file :=
  Function.update_of_ne h ..

theorem consume_seen : (g.consume r).seen r.file = g.sampled r.id := by
  rw [seen, consume_consumed, latest_append]

theorem consume_seen_other (h : file ≠ r.file) : (g.consume r).seen file = g.seen file := by
  rw [seen, consume_other h]
  rfl

theorem succeed_succeeded : (g.succeed r).succeeded r.file = g.succeeded r.file + 1 :=
  Function.update_self ..

theorem succeed_other (h : file ≠ r.file) : (g.succeed r).succeeded file = g.succeeded file :=
  Function.update_of_ne h ..

end Tally

def tally (past : List Label) : Tally := past.foldl Tally.note {}

theorem tally_append (past : List Label) (l : Label) :
    tally (past ++ [l]) = (tally past).note l := by
  rw [tally, List.foldl_append]
  rfl

/-- The read that is past its test, and has not written to seen yet. -/
def taking : Act → Option Read
  | .readTicks r | .readLock r _ | .readCheck r _ | .readBulk r _ | .readLine r _ _
  | .readCopy r _ _ => some r
  | _ => none

/-- No read passes its test while another read of the file is past its own and has not written to
seen. Any number of them may wait. -/
def alone (s : System) : Event → Bool
  | .step i _ =>
    match s.next i with
    | some (.readWait r) =>
      (s.core.ticks == s.core.seen r.file && !s.core.disconnected) ||
        s.threads.all fun t => t.todo.all fun a => (taking a).all fun r' => r'.file != r.file
    | _ => true
  | _ => true

/-! ## The invariant -/

/-- What a read has sampled is new to its file. -/
def Fresh (g : Tally) (r : Read) (ticks : BitVec 32) : Prop :=
  ticks = BitVec.ofNat 32 (g.sampled r.id) ∧ g.seen r.file < g.sampled r.id ∧
    g.sampled r.id ≤ g.total

/-- What a read knows before each step. A read that was let through because the device is gone
knows nothing, and is refused when it has the mutex. -/
def Knows (g : Tally) (gone : Bool) : Act → Prop
  | .readTicks r => g.seen r.file < g.total ∨ gone = true
  | .readLock r ticks | .readCheck r ticks => Fresh g r ticks ∨ gone = true
  | .readBulk r ticks | .readLine r ticks _ | .readCopy r ticks _ => Fresh g r ticks
  | _ => True

def takesFrom (file : Nat) (a : Act) : Bool := (taking a).any fun r => r.file == file

/-- A read of the file that is about to return a length. -/
def succeeding (file : Nat) : Act → Bool
  | .readUnlock r err => r.file == file && decide (0 ≤ err)
  | _ => false

structure Consumes (g : Tally) (d : Data) (files : List Nat) (m : Multiset Act) : Prop where
  ticks : d.ticks = BitVec.ofNat 32 g.total
  seen : ∀ file ∈ files, d.seen file = BitVec.ofNat 32 (g.seen file)
  stamped : ∀ file ∈ files, Stamped (g.openedAt file) (g.consumed file) g.total
  counted : ∀ file ∈ files,
    g.succeeded file + cnt (succeeding file) m ≤ (g.consumed file).length
  knows : ∀ a ∈ m, Knows g d.disconnected a
  single : ∀ file, cnt (takesFrom file) m ≤ 1

section Acts

variable {g g' : Tally} {gone gone' : Bool} {a : Act} {r : Read} {file : Nat}

theorem knows_of_not_reading (h : reading a = none) : Knows g gone a := by
  cases a with
  | readTicks | readLock | readCheck | readBulk | readLine | readCopy => cases h
  | _ => trivial

theorem reading_of_taking (h : taking a = some r) : reading a = some r := by
  cases a with
  | readTicks | readLock | readCheck | readBulk | readLine | readCopy => exact h
  | _ => cases h

theorem not_taking_of_not_reading (h : reading a = none) : taking a = none := by
  cases ht : taking a with
  | none => rfl
  | some r =>
    rw [reading_of_taking ht] at h
    cases h

theorem takesFrom_iff : takesFrom file a = true ↔ ∃ r, taking a = some r ∧ r.file = file := by
  unfold takesFrom
  rw [Option.any_eq_true]
  simp only [beq_iff_eq]

theorem succeeding_of_not_reading (h : reading a = none) : succeeding file a = false := by
  cases a with
  | readUnlock => cases h
  | _ => rfl

/-- What a read knows is about its file and its own sample. -/
theorem Knows.transfer (h : Knows g gone a) (hgone : gone = true → gone' = true)
    (htotal : g.total ≤ g'.total)
    (hseen : ∀ r, taking a = some r → g'.seen r.file = g.seen r.file)
    (hsampled : ∀ r, taking a = some r → g'.sampled r.id = g.sampled r.id) :
    Knows g' gone' a := by
  have hfresh : ∀ r ticks, taking a = some r → Fresh g r ticks → Fresh g' r ticks := by
    intro r ticks hr hfresh
    unfold Fresh at hfresh ⊢
    rw [hseen r hr, hsampled r hr]
    exact ⟨hfresh.1, hfresh.2.1, hfresh.2.2.trans htotal⟩
  cases a with
  | readTicks r =>
    rcases h with hlt | h
    · refine .inl ?_
      rw [hseen r rfl]
      exact hlt.trans_le htotal
    · exact .inr (hgone h)
  | readLock r ticks | readCheck r ticks =>
    rcases h with h | h
    · exact .inl (hfresh r ticks rfl h)
    · exact .inr (hgone h)
  | readBulk r ticks | readLine r ticks _ | readCopy r ticks _ => exact hfresh r ticks rfl h
  | _ => trivial

end Acts

section Note

variable {g : Tally} {e : Event} {a : Act}

theorem note_none (g : Tally) (e : Event) : g.note (e, none) = g := rfl

theorem note_quiet (h : quiet a = true) : g.note (e, some a) = g := by
  cases a with
  | openSeen | unplug | readWait | readTicks | readLock | readCheck | readBulk | readLine | readCopy
  | readUnlock => cases h
  | tickComplete status actualLength word =>
    have hnot : isTick status actualLength word = false := by simpa [quiet] using h
    show (if isTick status actualLength word = true then _ else g) = g
    rw [hnot]
    rfl
  | _ => rfl

end Note

section Counts

variable {a b : Act} {pushed : List Act}

theorem takes_le_of_same (h : taking b = taking a) (file : Nat) :
    cnt (takesFrom file) (([b] : List Act) : Multiset Act) ≤ (takesFrom file a).toNat := by
  rw [cnt_coe_cons, cnt_coe_nil, takesFrom, takesFrom, h, Nat.add_zero]

theorem takes_le_of_none (h : ∀ b ∈ pushed, taking b = none) (file : Nat) :
    cnt (takesFrom file) (pushed : Multiset Act) ≤ (takesFrom file a).toNat := by
  have hzero : cnt (takesFrom file) (pushed : Multiset Act) = 0 := by
    rw [cnt_eq_zero]
    intro b hb
    rw [takesFrom, h b (Multiset.mem_coe.mp hb), Option.any_none]
  omega

theorem takes_le_of_not_reading (h : ∀ b ∈ pushed, reading b = none) (file : Nat) :
    cnt (takesFrom file) (pushed : Multiset Act) ≤ (takesFrom file a).toNat :=
  takes_le_of_none (fun b hb => not_taking_of_not_reading (h b hb)) file

theorem succeeding_of_none (h : ∀ b ∈ pushed, reading b = none) (file : Nat) :
    cnt (succeeding file) (pushed : Multiset Act) = 0 :=
  cnt_eq_zero.mpr fun b hb => succeeding_of_not_reading (h b (Multiset.mem_coe.mp hb))

theorem succeeding_single (hb : ∀ file, succeeding file b = false) (file : Nat) :
    cnt (succeeding file) (([b] : List Act) : Multiset Act) = 0 := by
  rw [cnt_coe_cons, cnt_coe_nil, hb file]
  rfl

theorem succeeding_neg {r : Read} {err : Int} (h : err < 0) (file : Nat) :
    succeeding file (.readUnlock r err) = false := by
  rw [succeeding, decide_eq_false (not_le.mpr h), Bool.and_false]

end Counts

namespace Consumes

variable {g g' : Tally} {d d' : Data} {files files' : List Nat} {m rest : Multiset Act}
variable {a b : Act} {pushed : List Act}

/-- One read at a time stays so if a step lets no other pass. -/
private theorem single_step (h : Consumes g d files (a ::ₘ rest))
    (htakes : ∀ file, cnt (takesFrom file) (pushed : Multiset Act) ≤ (takesFrom file a).toNat)
    (file : Nat) : cnt (takesFrom file) ((pushed : Multiset Act) + rest) ≤ 1 := by
  have hsingle := h.single file
  have hle := htakes file
  rw [cnt_cons] at hsingle
  rw [cnt_add]
  omega

private theorem knows_step (hrest : ∀ b ∈ rest, Knows g' d'.disconnected b)
    (hpushed : ∀ b ∈ pushed, Knows g' d'.disconnected b) :
    ∀ b ∈ (pushed : Multiset Act) + rest, Knows g' d'.disconnected b := by
  intro b hb
  rcases Multiset.mem_add.mp hb with hb | hb
  · exact hpushed b (Multiset.mem_coe.mp hb)
  · exact hrest b hb

theorem keep (h : Consumes g d files (a ::ₘ rest)) (hticks : d'.ticks = d.ticks)
    (hseen : d'.seen = d.seen) (hgone : d.disconnected = true → d'.disconnected = true)
    (hpushed : ∀ b ∈ pushed, Knows g d'.disconnected b)
    (hsingle : ∀ file, cnt (takesFrom file) ((pushed : Multiset Act) + rest) ≤ 1)
    (hnone : ∀ file, cnt (succeeding file) (pushed : Multiset Act) = 0) :
    Consumes g d' files ((pushed : Multiset Act) + rest) := by
  refine ⟨?_, ?_, h.stamped, ?_, ?_, hsingle⟩
  · rw [hticks]
    exact h.ticks
  · rw [hseen]
    exact h.seen
  · intro file hfile
    have hcounted := h.counted file hfile
    rw [cnt_cons] at hcounted
    rw [cnt_add, hnone]
    omega
  · refine knows_step ?_ hpushed
    intro b hb
    exact (h.knows b (Multiset.mem_cons_of_mem hb)).transfer hgone (Nat.le_refl _)
      (fun _ _ => rfl) fun _ _ => rfl

/-- A read past its test makes a step that counts nothing, and goes on. -/
theorem goesOn (h : Consumes g d files (a ::ₘ rest)) (hticks : d'.ticks = d.ticks)
    (hseen : d'.seen = d.seen) (hgone : d'.disconnected = d.disconnected)
    (hb : Knows g d'.disconnected b) (hsame : taking b = taking a)
    (hnot : ∀ file, succeeding file b = false) :
    Consumes g d' files ((([b] : List Act) : Multiset Act) + rest) := by
  exact h.keep hticks hseen hgone.trans (List.forall_mem_singleton.mpr hb)
    (h.single_step (takes_le_of_same hsame)) (succeeding_single hnot)

theorem fails {r : Read} {err : Int} (h : Consumes g d files (a ::ₘ rest)) (herr : err < 0) :
    Consumes g d files ((([.readUnlock r err] : List Act) : Multiset Act) + rest) := by
  exact h.keep rfl rfl id (List.forall_mem_singleton.mpr trivial)
    (h.single_step (takes_le_of_none (List.forall_mem_singleton.mpr rfl)))
    (succeeding_single (succeeding_neg herr))

theorem tick (h : Consumes g d files (a ::ₘ rest)) (hpushed : ∀ b ∈ pushed, reading b = none) :
    Consumes g.tick { d with ticks := d.ticks + 1 } files ((pushed : Multiset Act) + rest) := by
  refine ⟨?_, h.seen, ?_, ?_, ?_, h.single_step (takes_le_of_not_reading hpushed)⟩
  · have hsum : BitVec.ofNat 32 (g.total + 1) = BitVec.ofNat 32 g.total + 1 := BitVec.ofNat_add ..
    show d.ticks + 1 = BitVec.ofNat 32 (g.total + 1)
    rw [h.ticks, hsum]
  · intro file hfile
    exact (h.stamped file hfile).later (Nat.le_succ _)
  · intro file hfile
    have hcounted := h.counted file hfile
    rw [cnt_cons] at hcounted
    rw [cnt_add, succeeding_of_none hpushed, Nat.zero_add]
    exact (Nat.add_le_add_left (Nat.le_add_left ..) _).trans hcounted
  · refine knows_step ?_ fun b hb => knows_of_not_reading (hpushed b hb)
    intro b hb
    exact (h.knows b (Multiset.mem_cons_of_mem hb)).transfer id (Nat.le_succ _)
      (fun _ _ => rfl) fun _ _ => rfl

theorem sample {r : Read} (h : Consumes g d files (.readTicks r ::ₘ rest))
    (hother : ∀ b ∈ rest, ∀ r', taking b = some r' → r'.id ≠ r.id) :
    Consumes (g.sample r) d files
      ((([.readLock r d.ticks] : List Act) : Multiset Act) + rest) := by
  refine ⟨h.ticks, h.seen, h.stamped, ?_, ?_, h.single_step (takes_le_of_same rfl)⟩
  · intro file hfile
    have hcounted := h.counted file hfile
    rw [cnt_cons] at hcounted
    rw [cnt_add, succeeding_single fun _ => rfl, Nat.zero_add]
    exact (Nat.add_le_add_left (Nat.le_add_left ..) _).trans hcounted
  · refine knows_step ?_ ?_
    · intro b hb
      refine (h.knows b (Multiset.mem_cons_of_mem hb)).transfer id (Nat.le_refl _)
        (fun _ _ => rfl) ?_
      intro r' hr'
      exact Function.update_of_ne (hother b hb r' hr') _ _
    · intro b hb
      obtain rfl := List.mem_singleton.mp hb
      rcases h.knows _ (Multiset.mem_cons_self _ rest) with hlt | hgone
      · refine .inl ?_
        unfold Fresh
        rw [Tally.sample_sampled]
        exact ⟨h.ticks, hlt, Nat.le_refl _⟩
      · exact .inr hgone

/-- A read that has copied its line writes its sample to seen. -/
theorem consume {r : Read} {ticks : BitVec 32} {len : BitVec 64} {err : Int}
    (h : Consumes g d files (.readCopy r ticks len ::ₘ rest)) :
    Consumes (g.consume r) { d with seen := Function.update d.seen r.file ticks } files
      ((([.readUnlock r err] : List Act) : Multiset Act) + rest) := by
  obtain ⟨hsample, hnew, hpast⟩ : Fresh g r ticks := h.knows _ (Multiset.mem_cons_self _ rest)
  -- nobody else is past their test
  have hothers : ∀ b ∈ rest, ∀ r', taking b = some r' → r'.file ≠ r.file := by
    intro b hb r' hr' heq
    have hsingle := h.single r.file
    have hpos : 0 < cnt (takesFrom r.file) rest :=
      cnt_pos_of_mem hb (takesFrom_iff.mpr ⟨r', hr', heq⟩)
    rw [cnt_cons, takesFrom_iff.mpr ⟨r, rfl, rfl⟩, Bool.toNat_true] at hsingle
    omega
  refine ⟨h.ticks, ?_, ?_, ?_, ?_, h.single_step (takes_le_of_none ?_)⟩
  · intro file hfile
    show Function.update d.seen r.file ticks file = BitVec.ofNat 32 ((g.consume r).seen file)
    by_cases heq : file = r.file
    · rw [heq, Function.update_self, Tally.consume_seen]
      exact hsample
    · rw [Function.update_of_ne heq, Tally.consume_seen_other heq]
      exact h.seen file hfile
  · intro file hfile
    show Stamped (g.openedAt file) ((g.consume r).consumed file) g.total
    by_cases heq : file = r.file
    · subst heq
      rw [Tally.consume_consumed]
      exact (h.stamped _ hfile).take hnew hpast
    · rw [Tally.consume_other heq]
      exact h.stamped file hfile
  · intro file hfile
    have hcounted := h.counted file hfile
    rw [cnt_cons] at hcounted
    rw [cnt_add, cnt_coe_cons, cnt_coe_nil]
    show g.succeeded file + _ ≤ ((g.consume r).consumed file).length
    by_cases heq : file = r.file
    · subst heq
      have hle := Bool.toNat_le (succeeding r.file (.readUnlock r err))
      rw [Tally.consume_consumed, List.length_append, List.length_singleton]
      omega
    · have hnot : succeeding file (.readUnlock r err) = false := by
        rw [succeeding, show (r.file == file) = false by simpa using Ne.symm heq, Bool.false_and]
      rw [Tally.consume_other heq, hnot, Bool.toNat_false]
      omega
  · refine knows_step ?_ ?_
    · intro b hb
      exact (h.knows b (Multiset.mem_cons_of_mem hb)).transfer id (Nat.le_refl _)
        (fun r' hr' => Tally.consume_seen_other (hothers b hb r' hr')) fun _ _ => rfl
    · exact List.forall_mem_singleton.mpr trivial
  · exact List.forall_mem_singleton.mpr rfl

theorem succeed {r : Read} {err : Int} (h : Consumes g d files (.readUnlock r err ::ₘ rest))
    (herr : 0 ≤ err) :
    Consumes (g.succeed r) d files ((([] : List Act) : Multiset Act) + rest) := by
  refine ⟨h.ticks, h.seen, h.stamped, ?_, ?_, h.single_step fun _ => Nat.zero_le _⟩
  · intro file hfile
    have hcounted := h.counted file hfile
    rw [cnt_cons] at hcounted
    rw [cnt_add, cnt_coe_nil]
    show _ ≤ (g.consumed file).length
    by_cases heq : file = r.file
    · subst heq
      have hone : succeeding r.file (.readUnlock r err) = true := by
        rw [succeeding, beq_self_eq_true, decide_eq_true herr, Bool.and_self]
      rw [hone, Bool.toNat_true] at hcounted
      rw [Tally.succeed_succeeded]
      omega
    · rw [Tally.succeed_other heq]
      omega
  · refine knows_step ?_ fun b hb => absurd hb List.not_mem_nil
    intro b hb
    exact (h.knows b (Multiset.mem_cons_of_mem hb)).transfer id (Nat.le_refl _)
      (fun _ _ => rfl) fun _ _ => rfl

/-- A file is opened: nobody reads it yet, and it has seen the ticks so far. -/
theorem opened {new : Nat} (h : Consumes g d files (a ::ₘ rest))
    (hnew : ∀ b ∈ rest, ∀ r, reading b = some r → r.file ≠ new)
    (hfiles : ∀ file ∈ files', file ∈ files ∨ file = new) :
    Consumes (g.opens new) { d with seen := Function.update d.seen new d.ticks } files'
      ((([] : List Act) : Multiset Act) + rest) := by
  refine ⟨h.ticks, ?_, ?_, ?_, ?_, h.single_step fun _ => Nat.zero_le _⟩
  · intro file hfile
    show Function.update d.seen new d.ticks file = BitVec.ofNat 32 ((g.opens new).seen file)
    by_cases heq : file = new
    · rw [heq, Function.update_self, Tally.opens_seen]
      exact h.ticks
    · rw [Function.update_of_ne heq, Tally.opens_seen_other heq]
      exact h.seen file ((hfiles file hfile).resolve_right heq)
  · intro file hfile
    show Stamped ((g.opens new).openedAt file) ((g.opens new).consumed file) g.total
    by_cases heq : file = new
    · rw [heq, Tally.opens_openedAt, Tally.opens_consumed]
      exact .begin g.total
    · obtain ⟨hopened, hconsumed, -⟩ := Tally.opens_other (g := g) heq
      rw [hopened, hconsumed]
      exact h.stamped file ((hfiles file hfile).resolve_right heq)
  · intro file hfile
    rw [cnt_add, cnt_coe_nil, Nat.zero_add]
    by_cases heq : file = new
    · have hnone : cnt (succeeding new) rest = 0 := by
        rw [cnt_eq_zero]
        intro b hb
        cases b with
        | readUnlock r err =>
          have hne := hnew _ hb r rfl
          rw [succeeding, show (r.file == new) = false by simpa using hne, Bool.false_and]
        | _ => rfl
      rw [heq, Tally.opens_succeeded, hnone]
      exact Nat.zero_le _
    · have hcounted := h.counted file ((hfiles file hfile).resolve_right heq)
      obtain ⟨-, hconsumed, hsucceeded⟩ := Tally.opens_other (g := g) heq
      rw [cnt_cons] at hcounted
      rw [hconsumed, hsucceeded]
      omega
  · refine knows_step ?_ fun b hb => absurd hb List.not_mem_nil
    intro b hb
    exact (h.knows b (Multiset.mem_cons_of_mem hb)).transfer id (Nat.le_refl _)
      (fun r hr => Tally.opens_seen_other (hnew b hb r (reading_of_taking hr))) fun _ _ => rfl

/-- A test that finds the counter different from seen finds a tick. -/
private theorem seen_lt (h : Consumes g d files m) {file : Nat} (hfile : file ∈ files)
    (hne : d.ticks ≠ d.seen file) : g.seen file < g.total := by
  have hle : g.seen file ≤ g.total := (h.stamped file hfile).past
  rcases Nat.lt_or_ge (g.seen file) g.total with hlt | hge
  · exact hlt
  · refine absurd ?_ hne
    rw [h.ticks, h.seen file hfile, Nat.le_antisymm hle hge]

theorem passes {r : Read} (h : Consumes g d files (.readWait r ::ₘ rest)) (hfile : r.file ∈ files)
    (htest : d.ticks ≠ d.seen r.file ∨ d.disconnected = true)
    (halone : cnt (takesFrom r.file) rest = 0) :
    Consumes g d files ((([.readTicks r] : List Act) : Multiset Act) + rest) := by
  refine h.keep rfl rfl id ?_ ?_ (succeeding_single fun _ => rfl)
  · intro b hb
    obtain rfl := List.mem_singleton.mp hb
    rcases htest with hne | hgone
    · exact .inl (h.seen_lt hfile hne)
    · exact .inr hgone
  · intro file
    rw [cnt_add, cnt_coe_cons, cnt_coe_nil]
    by_cases heq : file = r.file
    · have hone := Bool.toNat_le (takesFrom r.file (.readTicks r))
      rw [heq, halone]
      omega
    · have hnot : takesFrom file (.readTicks r) = false := by
        rw [Bool.eq_false_iff, ne_eq, takesFrom_iff]
        rintro ⟨r', hr', rfl⟩
        obtain rfl := Option.some.inj hr'
        exact heq rfl
      have hsingle := h.single file
      rw [cnt_cons] at hsingle
      rw [hnot, Bool.toNat_false]
      omega

theorem moves_open {i id new : Nat} {o : Choice}
    (h : Consumes g d files (.openSeen id new ::ₘ rest))
    (hm : Moves d o (.openSeen id new) d' pushed) (hnew : new ∉ files)
    (hopen : ∀ b ∈ rest, ∀ r, reading b = some r → r.file ∈ files)
    (hfiles : ∀ file ∈ files', file ∈ files ∨ file = new) :
    Consumes (g.note (.step i o, some (.openSeen id new))) d' files'
      ((pushed : Multiset Act) + rest) := by
  cases hm with
  | openSees =>
    refine h.opened ?_ hfiles
    intro b hb r hr heq
    exact hnew (heq ▸ hopen b hb r hr)
  | aside _ _ ha => cases ha
  | leaves _ r ha => cases ha

theorem moves {i : Nat} {o : Choice} (h : Consumes g d files (a ::ₘ rest))
    (hm : Moves d o a d' pushed) (ha : ∀ id file, a ≠ .openSeen id file)
    (hopen : ∀ r, reading a = some r → r.file ∈ files)
    (hids : ∀ r, reading a = some r → ∀ b ∈ rest, ∀ r', reading b = some r' → r'.id ≠ r.id)
    (halone : ∀ r, a = .readWait r → d.ticks ≠ d.seen r.file ∨ d.disconnected = true →
      cnt (takesFrom r.file) rest = 0) :
    Consumes (g.note (.step i o, some a)) d' files ((pushed : Multiset Act) + rest) := by
  have hknown := h.knows a (Multiset.mem_cons_self a rest)
  cases hm with
  | openSees id file => exact absurd rfl (ha id file)
  | aside _ _ hquiet hpushed =>
    rw [note_quiet hquiet]
    exact h.keep rfl rfl id (fun b hb => knows_of_not_reading (hpushed b hb))
      (h.single_step (takes_le_of_not_reading hpushed)) (succeeding_of_none hpushed)
  | tick status actualLength word htick =>
    have hnote : g.note (.step i o, some (.tickComplete status actualLength word)) = g.tick :=
      if_pos htick
    rw [hnote]
    exact h.tick (List.forall_mem_singleton.mpr rfl)
  | unplugs id todo gone _ hgone hpushed =>
    exact h.keep rfl rfl hgone (fun b hb => knows_of_not_reading (hpushed b hb))
      (h.single_step (takes_le_of_not_reading hpushed)) (succeeding_of_none hpushed)
  | leaves _ r hleaving =>
    have hkeep : Consumes g d files ((([] : List Act) : Multiset Act) + rest) :=
      h.keep rfl rfl id (fun b hb => absurd hb List.not_mem_nil)
        (h.single_step fun _ => Nat.zero_le _) fun _ => rfl
    cases a with
    | readUnlock r err =>
      by_cases herr : 0 ≤ err
      · have hnote : g.note (.step i o, some (.readUnlock r err)) = g.succeed r := if_pos herr
        rw [hnote]
        exact h.succeed herr
      · have hnote : g.note (.step i o, some (.readUnlock r err)) = g := if_neg herr
        rw [hnote]
        exact hkeep
    | readWait r => exact hkeep
    | readLock r ticks => exact hkeep
    | _ => cases hleaving
  | passes r htest => exact h.passes (hopen r rfl) htest (halone r rfl htest)
  | samples r => exact h.sample fun b hb r' hr' => hids r rfl b hb r' (reading_of_taking hr')
  | locks r ticks | receives r ticks bytes ho hlen | puts r ticks actual =>
    exact h.goesOn rfl rfl rfl hknown rfl fun _ => rfl
  | refuses r ticks => exact h.fails (by decide)
  | allows r ticks hthere =>
    -- a read that was let through because the device is gone does not come here
    have hfresh : Fresh g r ticks := by
      rcases hknown with hfresh | hgone
      · exact hfresh
      · rw [hthere] at hgone
        cases hgone
    exact h.goesOn rfl rfl rfl hfresh rfl fun _ => rfl
  | bulkFails r ticks err herr => exact h.fails herr
  | copyFails r ticks len ho =>
    have hnote : g.note (.step i o, some (.readCopy r ticks len)) = g := if_pos ho
    rw [hnote]
    exact h.fails (by decide)
  | copies r ticks len ho =>
    have hnote : g.note (.step i o, some (.readCopy r ticks len)) = g.consume r :=
      if_neg (by rw [ho]; decide)
    rw [hnote]
    exact h.consume

theorem begins {c c' : Core} {e : Event} (h : Consumes g (data c) c.files m)
    (hb : Begins c e b c') :
    Consumes (g.note (e, none)) (data c') c'.files
      ((([b] : List Act) : Multiset Act) + m) := by
  have hfiles : ∀ file ∈ c'.files, file ∈ c.files := by
    intro file hfile
    rcases hb.files with ⟨-, -, hsame⟩ | ⟨-, -, hsub⟩
    · exact hsame ▸ hfile
    · exact hsub.subset hfile
  have hstart : Knows g (data c).disconnected b ∧ (∀ file, succeeding file b = false) ∧
      taking b = none := by
    cases hr : reading b with
    | none =>
      exact ⟨knows_of_not_reading hr, fun _ => succeeding_of_not_reading hr,
        not_taking_of_not_reading hr⟩
    | some r =>
      rw [(hb.reading r hr).1]
      exact ⟨trivial, fun _ => rfl, rfl⟩
  rw [note_none, hb.data]
  refine ⟨h.ticks, fun file hfile => h.seen file (hfiles file hfile),
    fun file hfile => h.stamped file (hfiles file hfile), ?_, ?_, ?_⟩
  · intro file hfile
    rw [cnt_add, succeeding_single hstart.2.1, Nat.zero_add]
    exact h.counted file (hfiles file hfile)
  · intro x hx
    rcases Multiset.mem_add.mp hx with hx | hx
    · obtain rfl := List.mem_singleton.mp (Multiset.mem_coe.mp hx)
      exact hstart.1
    · exact h.knows x hx
  · intro file
    rw [cnt_add, cnt_coe_cons, cnt_coe_nil, takesFrom, hstart.2.2, Option.any_none,
      Bool.toNat_false, Nat.zero_add]
    exact h.single file

end Consumes

/-! ## In every run -/

structure Reads (past : List Label) (s : System) : Prop where
  inv : Inv s.core.toSkel s.pending
  numbered : Numbered s.core s.pending
  consumes : Consumes (tally past) (data s.core) s.core.files s.pending

theorem alone_spec {s : System} {i : Nat} {o : Choice} (h : alone s (.step i o) = true) {r : Read}
    (hr : s.next i = some (.readWait r))
    (htest : s.core.ticks ≠ s.core.seen r.file ∨ s.core.disconnected = true) :
    cnt (takesFrom r.file) s.pending = 0 := by
  rw [cnt_eq_zero]
  intro a ha
  obtain ⟨t, ht, ha⟩ := Pool.mem_pending.mp ha
  simp only [alone, hr, Bool.or_eq_true, Bool.and_eq_true, beq_iff_eq, Bool.not_eq_true'] at h
  rcases h with ⟨hsame, hthere⟩ | h
  · rcases htest with hne | hgone
    · exact absurd hsame hne
    · rw [hthere] at hgone
      cases hgone
  · have hact := List.all_eq_true.mp (List.all_eq_true.mp h t ht) a ha
    rw [Bool.eq_false_iff, ne_eq, takesFrom_iff]
    rintro ⟨r', hr', heq⟩
    rw [hr', Option.all_some, heq, bne_self_eq_false] at hact
    cases hact

theorem reads_next {past : List Label} {s t : System} {e : Event} (h : Reads past s)
    (halone : alone s e = true) (hn : next s e = some t) : Reads (past ++ [(e, deed s e)]) t := by
  obtain ⟨hinv, hnumbered, hconsumes⟩ := h
  refine ⟨inv_next hinv hn, hnumbered.next hn, ?_⟩
  rw [tally_append]
  cases next_happens hn with
  | begins b hdeed hpending hbegins =>
    rw [hdeed, hpending]
    exact hconsumes.begins hbegins
  | goes i o a rest pushed he hdeed hbefore hexec hafter =>
    subst he
    have hnobody : ∀ r, a = .readWait r →
        s.core.ticks ≠ s.core.seen r.file ∨ s.core.disconnected = true →
        cnt (takesFrom r.file) rest = 0 := by
      rintro r rfl htest
      have hpending := alone_spec halone hdeed htest
      rw [hbefore, cnt_cons] at hpending
      omega
    rw [hbefore] at hinv hnumbered hconsumes
    rw [hdeed, hafter]
    have hopen : ∀ b ∈ a ::ₘ rest, ∀ r, reading b = some r → r.file ∈ s.core.files := by
      intro b hb r hr
      exact hinv.stage.files b hb r.file (file_of_reading hr)
    have hfiles := (exec_records hexec).files
    by_cases ha : ∃ id new, a = .openSeen id new
    · obtain ⟨id, new, rfl⟩ := ha
      refine hconsumes.moves_open (exec_moves hexec) (hnumbered.opens_fresh rfl)
        (fun b hb => hopen b (Multiset.mem_cons_of_mem hb)) ?_
      intro file hfile
      rcases hfiles with hsame | ⟨_, _, heq, hnew⟩
      · exact .inl (hsame ▸ hfile)
      · obtain ⟨rfl, rfl⟩ := Act.openSeen.inj heq
        rw [hnew] at hfile
        exact (List.mem_cons.mp hfile).symm
    · have hsame : t.core.files = s.core.files :=
        hfiles.resolve_right fun ⟨id, new, heq, _⟩ => ha ⟨id, new, heq⟩
      rw [hsame]
      refine hconsumes.moves (exec_moves hexec) (fun id new heq => ha ⟨id, new, heq⟩)
        (hopen a (Multiset.mem_cons_self a rest)) ?_ hnobody
      intro r hr b hb r' hr' heq
      refine hnumbered.caller_ne (caller_of_reading hr) hb ?_
      rw [caller_of_reading hr', heq]

theorem reads_probed (bulkInSize : Nat) (bulkInBuffer : List Byte) :
    Reads [] (probed bulkInSize bulkInBuffer) := by
  refine ⟨inv_probed bulkInSize bulkInBuffer, Numbered.probed bulkInSize bulkInBuffer, ?_⟩
  refine ⟨rfl, ?_, ?_, ?_, ?_, fun _ => Nat.zero_le 1⟩
  · exact fun file hfile => absurd hfile List.not_mem_nil
  · exact fun file hfile => absurd hfile List.not_mem_nil
  · exact fun file hfile => absurd hfile List.not_mem_nil
  · exact fun a ha => absurd ha (Multiset.notMem_zero a)

/-- As long as no read passes its test while another read of the file is past its own: what the
successful reads of a file write to seen are counts of ticks that grow from one to the next, since
the file was opened, so each of them consumes a tick that none before it did; and there are no more
of them than ticks. -/
theorem reads_consume_ticks (bulkInSize : Nat) (bulkInBuffer : List Byte) (es : List Event)
    (s : System) (h : Steps (Guarded (fun s e => alone s e = true) fun s e t => next s e = some t)
      (probed bulkInSize bulkInBuffer) es s) (file : Nat) (hfile : file ∈ s.core.files) :
    let g := tally (annotate next deed (probed bulkInSize bulkInBuffer) es)
    s.core.ticks = BitVec.ofNat 32 g.total ∧ s.core.seen file = BitVec.ofNat 32 (g.seen file) ∧
      (g.openedAt file :: g.consumed file).Pairwise (· < ·) ∧ g.seen file ≤ g.total ∧
      g.succeeded file ≤ (g.consumed file).length ∧
      g.succeeded file + g.openedAt file ≤ g.total := by
  intro g
  have hrun : Steps (Annotated deed (Guarded (fun s e => alone s e = true)
      fun s e t => next s e = some t)) (probed bulkInSize bulkInBuffer)
      (annotate next deed (probed bulkInSize bulkInBuffer) es) s :=
    h.annotated fun _ _ _ hstep => hstep.2
  have hreads : Reads ([] ++ annotate next deed (probed bulkInSize bulkInBuffer) es) s := by
    refine hrun.history (I := Reads) ?_ (reads_probed bulkInSize bulkInBuffer)
    intro past s l t hs hstep
    obtain ⟨e, a⟩ := l
    have ha : a = deed s e := hstep.2
    rw [ha]
    exact reads_next hs hstep.1.1 hstep.1.2
  obtain ⟨hticks, hseen, hstamped, hcounted, -, -⟩ := hreads.consumes
  have hfresh := hstamped file hfile
  have hlength := hfresh.length_le
  have hsucceeded : g.succeeded file ≤ (g.consumed file).length :=
    (Nat.le_add_right _ _).trans (hcounted file hfile)
  refine ⟨hticks, hseen file hfile, hfresh.increasing, hfresh.past, hsucceeded, ?_⟩
  exact (Nat.add_le_add_right hsucceeded _).trans hlength

/-- The first file is opened. -/
def opensFile : List Event := [Event.openFile] ++ List.replicate 7 (Event.step 0 .go)

/-- The device reports a tick, in a thread of its own. -/
def ticks (i : Nat) : List Event := [Event.complete 0 8 1] ++ List.replicate 3 (Event.step i .go)

/-- A read passes its test and takes its sample. -/
def passesTest (i : Nat) : List Event := [.step i .go, .step i .go]

/-- A read of the file begins, and takes its sample. -/
def readBegins (i : Nat) : List Event := .read 0 false 100 :: passesTest i

/-- It takes the mutex, gets one byte from the device and returns. -/
def readEnds (i : Nat) : List Event :=
  [Event.step i .go, .step i .go, .step i (.bulk [0x31])] ++ List.replicate 3 (Event.step i .go)

abbrev emptyBuffer : System := probed 4 [0, 0, 0, 0]

/-- Two threads wait for a tick of the file. One of them gets the first tick, and the other one the
second. -/
def takeTurns : List Event :=
  opensFile ++ [.read 0 false 100, .read 0 false 100] ++ ticks 3 ++ passesTest 1 ++ readEnds 1 ++
    ticks 4 ++ passesTest 2 ++ readEnds 2

theorem reads_consume_ticks_in_turn :
    ∃ s, Steps (Guarded (fun s e => alone s e = true) fun s e t => next s e = some t) emptyBuffer
        takeTurns s ∧ s.core.returned = [(0, 0), (1, 2), (2, 2)] ∧
      (tally (annotate next deed emptyBuffer takeTurns)).succeeded 0 = 2 ∧
      2 ≤ (tally (annotate next deed emptyBuffer takeTurns)).total := by
  have hexec : (exec (fun s e => if alone s e = true then next s e else none) emptyBuffer
      takeTurns).map (fun s => (s.core.files, s.core.returned)) =
      some ([0], [(0, 0), (1, 2), (2, 2)]) := by decide +kernel
  obtain ⟨s, hs, heq⟩ := Option.map_eq_some_iff.mp hexec
  obtain ⟨hfiles, hreturned⟩ := Prod.mk.inj heq
  have hsucceeded : (tally (annotate next deed emptyBuffer takeTurns)).succeeded 0 = 2 := by
    decide +kernel
  refine ⟨s, exec_guarded_steps hs, hreturned, hsucceeded, ?_⟩
  have hfile : (0 : Nat) ∈ s.core.files := by
    rw [hfiles]
    exact List.mem_singleton.mpr rfl
  have hticks := reads_consume_ticks 4 [0, 0, 0, 0] takeTurns s (exec_guarded_steps hs) 0 hfile
  dsimp only at hticks
  generalize tally (annotate next deed emptyBuffer takeTurns) = g at hsucceeded hticks ⊢
  have hle := hticks.2.2.2.2.2
  omega

/-- Two threads read the same file. The one that took its sample after the first tick comes to its
end after the one that took it after the second: seen goes back, and a third read finds a tick that
was read before. -/
def overtaken : List Event :=
  opensFile ++ ticks 1 ++ readBegins 2 ++ ticks 3 ++ readBegins 4 ++ readEnds 4 ++ readEnds 2 ++
    readBegins 5 ++ readEnds 5

theorem seen_moves_backwards :
    ∃ s, Steps (fun s e t => next s e = some t) emptyBuffer overtaken s ∧
      (0 : Nat) ∈ s.core.files ∧ s.core.returned = [(0, 0), (2, 2), (1, 2), (3, 2)] ∧
      let g := tally (annotate next deed emptyBuffer overtaken)
      g.consumed 0 = [2, 1, 2] ∧ ¬ (g.openedAt 0 :: g.consumed 0).Pairwise (· < ·) ∧
      ¬ g.succeeded 0 + g.openedAt 0 ≤ g.total := by
  have hexec : (exec next emptyBuffer overtaken).map (fun s => (s.core.files, s.core.returned)) =
      some ([0], [(0, 0), (2, 2), (1, 2), (3, 2)]) := by decide +kernel
  obtain ⟨s, hs, heq⟩ := Option.map_eq_some_iff.mp hexec
  obtain ⟨hfiles, hreturned⟩ := Prod.mk.inj heq
  have hconsumed : (tally (annotate next deed emptyBuffer overtaken)).consumed 0 = [2, 1, 2] := by
    decide +kernel
  have hcounts : (tally (annotate next deed emptyBuffer overtaken)).total = 2 ∧
      (tally (annotate next deed emptyBuffer overtaken)).openedAt 0 = 0 ∧
      (tally (annotate next deed emptyBuffer overtaken)).succeeded 0 = 3 := by decide +kernel
  obtain ⟨htotal, hopened, hsucceeded⟩ := hcounts
  refine ⟨s, exec_steps hs, ?_, hreturned, hconsumed, ?_, ?_⟩
  · rw [hfiles]
    exact List.mem_singleton.mpr rfl
  · rw [hopened, hconsumed]
    decide
  · rw [hopened, hsucceeded, htotal]
    decide

end LinuxDeviceDriver.Drivers.UsbSkel.Consumption
