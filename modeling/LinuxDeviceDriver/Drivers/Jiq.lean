/- source: examples/14_jiq/main.c
   digest: The four files that let deferred work fill one buffer, one reader at a time. -/

import LinuxDeviceDriver.Lib.DeferredWork
import LinuxDeviceDriver.Lib.Transition

set_option autoImplicit false

namespace LinuxDeviceDriver.Drivers.Jiq

open Lib.DeferredWork
open Lib.Transition (Steps exec exec_steps)

def bufLen : Nat := 4096

def lineMaxLen : Nat := 80

def header : List Char := "    time  delta preempt   pid cpu command\n".toList

/-- What the format of a line gives: two longs, three ints and a command name at most. -/
abbrev Line := { text : List Char // text.length ≤ 99 }

inductive File
  | wq | wqDelayed | timer | bh
  deriving DecidableEq

/-- The first `len` characters of the buffer. One more is the terminating zero. -/
abbrev Buf := { text : List Char // text.length < bufLen }

theorem room_left (b : Buf) (text : List Char) :
    (b.1 ++ text.take (bufLen - b.1.length - 1)).length < bufLen := by
  have hb := b.2
  rw [List.length_append, List.length_take]
  omega

def scnprintf (b : Buf) (text : List Char) : Buf := ⟨_, room_left b text⟩

/-- The lines in the buffer, with the files whose reads printed them, are not in the source. -/
structure Dev where
  done : Bool
  buf : Buf
  lines : List (File × Line)

def jiqDone (d : Dev) : Dev := { d with done := true }

def full (d : Dev) : Bool := bufLen - d.buf.1.length < lineMaxLen

/-- `jiq_print` up to its test. -/
def record (f : File) (d : Dev) (l : Line) : Dev :=
  { d with
    buf := scnprintf (if d.buf.1.length = 0 then scnprintf d.buf header else d.buf) l.1
    lines := d.lines ++ [(f, l)] }

/-- The test of `jiq_print`, with its call of `jiq_done`. -/
def test (d : Dev) : Dev := { d with done := full d || d.done }

def jiqReset : Dev := ⟨false, ⟨[], Nat.zero_lt_succ 4095⟩, []⟩

def requeueing (f : File) (cancelFirst : Bool) : Job Dev Line where
  record := record f
  again d := !full d
  next d := d
  last := test
  finish d := d
  done := Dev.done
  cancelFirst := cancelFirst

/-- The handlers with their readers. The timer runs once, after a line of its reader's. -/
def job : File → Job Dev Line
  | .wq => requeueing .wq true
  | .wqDelayed => requeueing .wqDelayed false
  | .bh => requeueing .bh false
  | .timer => { requeueing .timer false with again := fun _ => false, finish := jiqDone }

def start (f : File) (l : Line) : Dev :=
  if f = .timer then test (record f jiqReset l) else jiqReset

/-- The holder of the lock has a side once it has called `jiq_reset`. -/
structure State where
  dev : Dev := jiqReset
  works : File → Work := fun _ => {}
  holder : Option (File × Option (Side Dev)) := none
  output : List (File × Dev) := []

inductive Event
  | lock (f : File) | reset (l : Line) | reader (signal : Bool) | unlock
  | work (f : File) (l : Line)

def step (s : State) : Event → Option State
  | .lock f => if s.holder.isNone then some { s with holder := some (f, none) } else none
  | .reset l =>
    match s.holder with
    | some (f, none) => some { s with dev := start f l, holder := some (f, some {}) }
    | _ => none
  | .reader signal =>
    match s.holder with
    | some (f, some r) =>
      (reader (job f) s.dev (s.works f) r signal).map fun n =>
        { s with works := Function.update s.works f n.1, holder := some (f, some n.2) }
    | _ => none
  | .work f l =>
    (handler (job f) s.dev (s.works f) l).map fun n =>
      { s with dev := n.1, works := Function.update s.works f n.2 }
  | .unlock =>
    match s.holder with
    | some (f, some r) =>
      if r.phase = .gone then
        some { s with holder := none, output := s.output ++ (r.shown.map (f, ·)).toList }
      else none
    | _ => none

/-! ## What the buffer holds -/

def render (ls : List (File × Line)) : List Char :=
  if ls = [] then [] else (header ++ ls.flatMap (·.2.1)).take (bufLen - 1)

/-- The buffer holds what one file printed. -/
def Printed (f : File) (d : Dev) : Prop := d.buf.1 = render d.lines ∧ ∀ l ∈ d.lines, l.1 = f

/-- What a file shows: the timer file two lines, the others as many as fit. -/
def Shown (f : File) (d : Dev) : Prop :=
  Printed f d ∧ d.lines ≠ [] ∧
    if f = .timer then d.lines.length = 2 else bufLen - d.buf.1.length < lineMaxLen

theorem header_length : header.length = 42 := rfl

theorem scnprintf_take {b : Buf} {all : List Char} (h : b.1 = all.take (bufLen - 1))
    (text : List Char) : (scnprintf b text).1 = (all ++ text).take (bufLen - 1) := by
  have hlen := congrArg List.length h
  rw [List.length_take] at hlen
  have hroom : text.take (bufLen - b.1.length - 1) = text.take (bufLen - 1 - all.length) := by
    congr 1
    omega
  rw [List.take_append, ← h, ← hroom]
  rfl

theorem Printed.record {f : File} {d : Dev} (h : Printed f d) (l : Line) :
    Printed f (record f d l) := by
  obtain ⟨htext, hown⟩ := h
  refine ⟨?_, fun p hp => ?_⟩
  · unfold render at htext
    unfold render Jiq.record
    dsimp only
    rw [if_neg (List.append_ne_nil_of_right_ne_nil _ (List.cons_ne_nil _ _)), List.flatMap_append,
      List.flatMap_singleton, ← List.append_assoc]
    split at htext
    case isTrue hnil =>
      have hzero : d.buf.1.length = 0 := congrArg List.length htext
      rw [if_pos hzero, hnil]
      exact scnprintf_take (scnprintf_take (htext.trans List.take_nil.symm) header) l.1
    case isFalse =>
      have hpos : d.buf.1.length ≠ 0 := by
        rw [htext, List.length_take, List.length_append, header_length]
        unfold bufLen
        omega
      rw [if_neg hpos]
      exact scnprintf_take htext l.1
  · rcases List.mem_append.mp hp with hp | hp
    · exact hown p hp
    · rw [List.mem_singleton.mp hp]

theorem job_eq (f : File) :
    (job f).record = record f ∧ (job f).last = test ∧ (job f).done = Dev.done := by
  cases f <;> exact ⟨rfl, rfl, rfl⟩

theorem last_full {f : File} (hf : f ≠ .timer) {d : Dev} (h : (job f).again d = false) :
    full d = true := by
  cases f <;> simp_all [job, requeueing]

theorem job_lawful (f : File) : Lawful (job f) := by
  refine ⟨?_, ?_, fun d h => ?_⟩
  · cases f <;> exact fun _ _ h => h
  · cases f <;> exact fun _ _ => rfl
  · by_cases hf : f = .timer
    · subst hf
      rfl
    · have hfull := last_full hf h
      cases f <;> simp_all [job, requeueing, test]

/-- One line does not fill the buffer, so the timer's reader does wait. -/
theorem start_done (f : File) (l : Line) : (start f l).done = false := by
  unfold start
  split
  case isFalse => rfl
  case isTrue =>
    have hl := l.2
    have hbuf : (record f jiqReset l).buf.1.length = 42 + min 4053 l.1.length := by
      simp [record, jiqReset, scnprintf, bufLen, header_length]
    have hroom : full (record f jiqReset l) = false := by
      rw [full, hbuf, decide_eq_false_iff_not]
      unfold bufLen lineMaxLen
      omega
    unfold test
    rw [hroom]
    rfl

theorem rounds_printed {f : File} {l : Line} {d : Dev} (h : Rounds (job f) (start f l) d) :
    Printed f d ∧ (f = .timer → d.lines.length = 1) := by
  have hempty : Printed f jiqReset := ⟨rfl, nofun⟩
  induction h with
  | nil =>
    unfold start
    split
    case isTrue => exact ⟨hempty.record l, fun _ => rfl⟩
    case isFalse hf => exact ⟨hempty, fun he => absurd he hf⟩
  | @snoc d l _ hagain ih =>
    cases f with
    | timer => cases hagain
    | wq | wqDelayed | bh => exact ⟨ih.1.record l, nofun⟩

theorem result_shown {f : File} {l : Line} {d : Dev} (h : Result (job f) (start f l) d) :
    Shown f d := by
  refine h.rule (fun d l hr hagain => ?_) fun d hd => by cases f <;> exact hd
  obtain ⟨hd, hone⟩ := rounds_printed hr
  rw [(job_eq f).1] at hagain ⊢
  rw [(job_eq f).2.1]
  refine ⟨hd.record l, List.append_ne_nil_of_right_ne_nil _ (List.cons_ne_nil _ _), ?_⟩
  split
  case isTrue hf => exact List.length_append.trans (congrArg (· + 1) (hone hf))
  case isFalse hf =>
    have hfull := last_full hf hagain
    exact of_decide_eq_true hfull

/-! ## Runs -/

/-- The work items of the files that nobody reads are idle. -/
structure Inv (s : State) : Prop where
  idle : ∀ f, (∀ r, s.holder ≠ some (f, some r)) → s.works f = {}
  read : ∀ f r, s.holder = some (f, some r) →
    ∃ l, Lib.DeferredWork.Inv (job f) (start f l) s.dev (s.works f) r
  output : ∀ o ∈ s.output, Shown o.1 o.2

/-- A step of the read that is going on, on either side. -/
theorem Inv.local {s : State} (h : Inv s) {f : File} {r r' : Side Dev} {d : Dev} {w : Work}
    (hf : s.holder = some (f, some r))
    (hi : ∀ l, Lib.DeferredWork.Inv (job f) (start f l) s.dev (s.works f) r →
      Lib.DeferredWork.Inv (job f) (start f l) d w r') :
    Inv { s with dev := d, works := Function.update s.works f w, holder := some (f, some r') } := by
  refine ⟨fun g hg => ?_, fun g q hq => ?_, h.output⟩
  · have hne : g ≠ f := fun he => hg r' (by rw [he])
    refine (Function.update_of_ne hne _ _).trans (h.idle g fun q hq => hne ?_)
    rw [hf] at hq
    cases hq
    rfl
  · cases hq
    obtain ⟨l, hl⟩ := h.read f r hf
    refine ⟨l, ?_⟩
    dsimp only
    rw [Function.update_self]
    exact hi l hl

theorem inv_step (s : State) (e : Event) (s' : State) (h : Inv s) (hs : step s e = some s') :
    Inv s' := by
  have ⟨hidle, hread, hout⟩ := h
  unfold step at hs
  cases e with
  | lock f =>
    obtain ⟨hn, hs⟩ := Option.ite_none_right_eq_some.mp hs
    cases hs
    have hnone := Option.isNone_iff_eq_none.mp hn
    exact ⟨fun g _ => hidle g (by simp [hnone]), nofun, hout⟩
  | reset l =>
    dsimp only at hs
    split at hs
    case h_1 f hf =>
      cases hs
      have hall : ∀ g, s.works g = {} := fun g => hidle g (by simp [hf])
      refine ⟨fun g _ => hall g, fun g r hr => ?_, hout⟩
      cases hr
      exact ⟨l, ⟨hall f, rfl, (congrFun (job_eq f).2.2 _).trans (start_done f l), rfl⟩, nofun⟩
    case h_2 => cases hs
  | reader signal =>
    dsimp only at hs
    split at hs
    case h_1 f r hf =>
      obtain ⟨⟨w, r'⟩, hr, rfl⟩ := Option.map_eq_some_iff.mp hs
      exact h.local hf fun l hi => hi.reader hr
    case h_2 => cases hs
  | work f l =>
    obtain ⟨⟨d, w⟩, hw, rfl⟩ := Option.map_eq_some_iff.mp hs
    -- Only the work item of the read that is going on has a handler to run.
    have hf : ∃ r, s.holder = some (f, some r) := by
      by_contra hnone
      rw [hidle f fun r hr => hnone ⟨r, hr⟩] at hw
      cases hw
    obtain ⟨r, hf⟩ := hf
    have hnext := h.local hf fun _ hi => hi.handler (job_lawful f) hw
    rwa [← hf] at hnext
  | unlock =>
    dsimp only at hs
    split at hs
    case h_1 f r hf =>
      obtain ⟨hp, hs⟩ := Option.ite_none_right_eq_some.mp hs
      cases hs
      obtain ⟨l, hi⟩ := hread f r hf
      have hgone := hi.here
      rw [hp] at hgone
      refine ⟨fun g _ => ?_, nofun, fun o ho => ?_⟩
      · by_cases hg : g = f
        · rw [hg]
          exact hgone
        · exact hidle g (by simp [hf, Ne.symm hg])
      · rcases List.mem_append.mp ho with ho | ho
        · exact hout o ho
        · obtain ⟨d, hd, rfl⟩ := Option.map_eq_some_iff.mp (Option.mem_toList.mp ho)
          exact result_shown (hi.shown d hd)
    case h_2 => cases hs

def Runs (es : List Event) (s : State) : Prop := Steps (fun s e s' => step s e = some s') {} es s

theorem inv_run {es : List Event} {s : State} (h : Runs es s) : Inv s :=
  h.invariant inv_step ⟨fun _ _ => rfl, nofun, nofun⟩

/-- Whatever the interleaving and the signals, a file shows what its own handler printed since
the reader reset the buffer, and all of that. -/
theorem every_output_complete {es : List Event} {s : State} (h : Runs es s) :
    ∀ o ∈ s.output, Shown o.1 o.2 :=
  (inv_run h).output

def blank : Line := ⟨[], Nat.zero_le _⟩

/-- A read of the timer file, in which the reader is done before the handler has returned. -/
def timerRead : List Event :=
  [.lock .timer, .reset blank, .reader false, .work .timer blank, .work .timer blank,
    .work .timer blank, .work .timer blank, .reader false, .reader false, .reader false,
    .work .timer blank, .reader false, .unlock]

theorem timer_output_complete :
    (exec step {} timerRead).any (·.output.length = 1) = true ∧
      ∀ s, exec step {} timerRead = some s → ∀ o ∈ s.output, Shown o.1 o.2 :=
  ⟨by decide, fun _ hs => every_output_complete (exec_steps hs)⟩

/-- Only the handler of the read that is going on uses the buffer, and not while its reader copies
it. A reader does not sleep for a handler that is not to come. -/
structure OneUser (s : State) : Prop where
  owner : ∀ f, s.works f ≠ {} → ∃ r, s.holder = some (f, some r)
  quiet : ∀ f r, s.holder = some (f, some r) → r.phase = .copy → (s.works f).pending = false ∧
    (s.works f).running ≠ some .record ∧ (s.works f).running ≠ some .test
  awake : ∀ f r, s.holder = some (f, some r) → r.phase = .wait → s.dev.done = false →
    (s.works f).pending = true ∨ (s.works f).running ≠ none

theorem buffer_has_one_user {es : List Event} {s : State} (h : Runs es s) : OneUser s := by
  have hinv := inv_run h
  refine ⟨fun f hf => ?_, fun f r hf hp => ?_, fun f r hf hp hd => ?_⟩
  · by_contra hnone
    exact hf (hinv.idle f fun r hr => hnone ⟨r, hr⟩)
  · obtain ⟨l, hi⟩ := hinv.read f r hf
    exact hi.quiet hp
  · obtain ⟨l, hi⟩ := hinv.read f r hf
    exact hi.awake hp ((congrFun (job_eq f).2.2 _).trans hd)

theorem timer_buffer_has_one_user :
    (exec step {} (timerRead.take 8)).any (·.dev.done) = true ∧
      ∀ s, exec step {} (timerRead.take 8) = some s → OneUser s :=
  ⟨by decide, fun _ hs => buffer_has_one_user (exec_steps hs)⟩

end LinuxDeviceDriver.Drivers.Jiq
