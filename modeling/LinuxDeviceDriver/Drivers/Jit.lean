/- source: examples/13_jit/fops.c, lines 105 to 272
   digest: A read whose lines a timer or a BH work item appends to a buffer of its own. -/

import LinuxDeviceDriver.Drivers.Jiq

set_option autoImplicit false

namespace LinuxDeviceDriver.Drivers.Jit

open Lib.DeferredWork
open Lib.Transition (Steps exec exec_steps)
open Jiq (Buf Line blank bufLen scnprintf)

def asyncLoops : Nat := 5

def header : List Char := "     time  delta  softirq     pid  cpu  command\n".toList

/-- The lines are not in the source. -/
structure JitData where
  buf : Buf
  loops : Nat
  lines : List Line

def jitRecord (d : JitData) (l : Line) : JitData :=
  { d with buf := scnprintf d.buf l.1, lines := d.lines ++ [l] }

def jitDataAlloc (l : Line) : JitData :=
  jitRecord ⟨scnprintf Jiq.jiqReset.buf header, asyncLoops, []⟩ l

/-- `jit_timer_fn` and `jit_bh_fn`, which differ in how they queue themselves. -/
def job : Job JitData Line where
  record := jitRecord
  again d := 1 < d.loops
  next d := { d with loops := d.loops - 1 }
  last d := { d with loops := 0 }
  finish d := d
  done d := d.loops = 0
  cancelFirst := false

/-- A step of the handler with the line that it records, or of the reader. -/
inductive Event
  | handler (l : Line) | reader (signal : Bool)

def step (s : JitData × Work × Side JitData) : Event → Option (JitData × Work × Side JitData)
  | .handler l => (handler job s.1 s.2.1 l).map fun n => (n.1, n.2, s.2.2)
  | .reader signal => (reader job s.1 s.2.1 s.2.2 signal).map fun n => (s.1, n)

/-- The buffer has been cut nowhere. -/
def Whole (d : JitData) : Prop := d.buf.1 = header ++ d.lines.flatMap Subtype.val

theorem lines_length (ls : List Line) : (ls.flatMap Subtype.val).length ≤ 99 * ls.length := by
  induction ls with
  | nil => exact Nat.le_refl 0
  | cons l ls ih =>
    rw [List.flatMap_cons, List.length_append, List.length_cons]
    have hl := l.2
    omega

theorem Whole.record {d : JitData} (h : Whole d) (hn : d.lines.length ≤ 6) (l : Line) :
    Whole (jitRecord d l) := by
  have hlen := lines_length d.lines
  have hl := l.2
  have hheader : header.length = 48 := rfl
  unfold Whole jitRecord scnprintf
  dsimp only
  rw [h, List.flatMap_append, List.flatMap_singleton, ← List.append_assoc, List.take_of_length_le]
  rw [List.length_append, hheader]
  unfold bufLen
  omega

/-- Each round leaves one more line and one less to come. -/
theorem rounds_whole {l : Line} {d : JitData} (h : Rounds job (jitDataAlloc l) d) :
    Whole d ∧ 0 < d.loops ∧ d.loops + d.lines.length = 6 := by
  induction h with
  | nil =>
    have hempty : Whole ⟨scnprintf Jiq.jiqReset.buf header, asyncLoops, []⟩ := rfl
    exact ⟨hempty.record (Nat.zero_le 6) l, Nat.succ_pos 4, rfl⟩
  | @snoc d l _ hagain ih =>
    obtain ⟨hw, hpos, hsum⟩ := ih
    have hmore : 1 < d.loops := of_decide_eq_true hagain
    have hlen : (d.lines ++ [l]).length = d.lines.length + 1 := List.length_append
    refine ⟨hw.record (by omega) l, ?_, ?_⟩
    · show 0 < d.loops - 1
      omega
    · show d.loops - 1 + (d.lines ++ [l]).length = 6
      omega

theorem result_whole {l : Line} {d : JitData} (h : Result job (jitDataAlloc l) d) :
    Whole d ∧ d.lines.length = 6 := by
  refine h.rule (P := fun d => Whole d ∧ d.lines.length = 6) (fun d l hr hagain => ?_) ?_
  case refine_2 => exact fun _ hd => hd
  obtain ⟨hw, hpos, hsum⟩ := rounds_whole hr
  have hone : ¬1 < d.loops := of_decide_eq_false hagain
  have hlen : (d.lines ++ [l]).length = d.lines.length + 1 := List.length_append
  exact ⟨hw.record (by omega) l, hlen.trans (by omega)⟩

theorem job_lawful : Lawful job := by
  refine ⟨fun d h _ => ?_, fun _ _ => rfl, fun _ _ => rfl⟩
  have hmore : 1 < d.loops := of_decide_eq_true h
  exact decide_eq_false (by show ¬d.loops - 1 = 0; omega)

/-- A read that shows its buffer shows the header and six whole lines. When the reader has come to
free the buffer, the handler neither runs nor is to run. -/
theorem jit_read {l : Line} {es : List Event} {d : JitData} {w : Work} {r : Side JitData}
    (h : Steps (fun s e s' => step s e = some s') (jitDataAlloc l, {}, {}) es (d, w, r)) :
    (∀ t, r.shown = some t → Whole t ∧ t.lines.length = 6) ∧ (r.phase = .gone → w = {}) := by
  have hstep : ∀ s e s', Inv job (jitDataAlloc l) s.1 s.2.1 s.2.2 → step s e = some s' →
      Inv job (jitDataAlloc l) s'.1 s'.2.1 s'.2.2 := by
    intro s e s' hs hstep
    cases e with
    | handler l =>
      obtain ⟨n, hn, rfl⟩ := Option.map_eq_some_iff.mp hstep
      exact hs.handler job_lawful hn
    | reader signal =>
      obtain ⟨n, hn, rfl⟩ := Option.map_eq_some_iff.mp hstep
      exact hs.reader hn
  have hinv := h.invariant hstep ⟨⟨rfl, rfl, rfl, rfl⟩, nofun⟩
  refine ⟨fun t ht => result_whole (hinv.shown t ht), fun hp => ?_⟩
  have hgone := hinv.here
  rwa [hp] at hgone

/-- A read up to its end, without a signal. -/
def wholeRead : List Event :=
  .reader false :: List.replicate 21 (.handler blank) ++ List.replicate 4 (.reader false)

theorem jit_read_gone :
    (exec step (jitDataAlloc blank, {}, {}) wholeRead).any (·.2.2.shown.isSome) = true ∧
      ∀ s, exec step (jitDataAlloc blank, {}, {}) wholeRead = some s →
        s.2.2.phase = .gone → s.2.1 = {} :=
  ⟨by decide, fun _ hs => (jit_read (exec_steps hs)).2⟩

end LinuxDeviceDriver.Drivers.Jit
