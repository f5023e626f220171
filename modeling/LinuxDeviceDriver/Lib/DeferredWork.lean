/- digest: A handler that queues itself again, and a reader that waits for its last round, copies
     what it left and cancels it. -/

import Mathlib.Data.List.Basic

set_option autoImplicit false

namespace LinuxDeviceDriver.Lib.DeferredWork

/-- What the two sides do with the data that they share. -/
structure Job (D L : Type) where
  record : D → L → D
  again : D → Bool
  next : D → D
  last : D → D
  finish : D → D
  done : D → Bool
  cancelFirst : Bool

/-- Where a handler that runs is. -/
inductive Stage
  | record | test | finish | leave
  deriving DecidableEq

/-- A work item or a timer. It is disabled while it is being cancelled. -/
structure Work where
  pending : Bool := false
  running : Option Stage := none
  disabled : Bool := false
  deriving DecidableEq

def Work.queue (w : Work) : Work := if w.disabled then w else { w with pending := true }

inductive Phase
  | queue | wait | copy | cancel | flush | gone
  deriving DecidableEq

structure Side (D : Type) where
  phase : Phase := .queue
  interrupted : Bool := false
  shown : Option D := none

variable {D L : Type}

/-- The next step of the handler, which starts when it is pending and does not run already. -/
def handler (j : Job D L) (d : D) (w : Work) (l : L) : Option (D × Work) :=
  match w.running with
  | none =>
    if w.pending then some (d, { w with pending := false, running := some .record }) else none
  | some .record => some (j.record d l, { w with running := some .test })
  | some .test =>
    if j.again d then some (j.next d, { w.queue with running := some .leave })
    else some (j.last d, { w with running := some .finish })
  | some .finish => some (j.finish d, { w with running := some .leave })
  | some .leave => some (d, { w with running := none })

/-- The next step of the reader. It sleeps until the work is done or a signal comes; a cancel
takes the item off its queue and waits for its handler. -/
def reader (j : Job D L) (d : D) (w : Work) (r : Side D) (signal : Bool) :
    Option (Work × Side D) :=
  match r.phase with
  | .queue => some (w.queue, { r with phase := .wait })
  | .wait =>
    if j.done d then some (w, { r with phase := if j.cancelFirst then .cancel else .copy })
    else if signal then some (w, { r with phase := .cancel, interrupted := true })
    else none
  | .copy =>
    some (w, { r with phase := if j.cancelFirst then .gone else .cancel, shown := some d })
  | .cancel => some ({ w with pending := false, disabled := true }, { r with phase := .flush })
  | .flush =>
    if w.running = none then
      some ({ w with disabled := false },
        { r with phase := if j.cancelFirst && !r.interrupted then .copy else .gone })
    else none
  | .gone => none

/-! ## The rounds as a loop -/

/-- Rounds one after another, each of which queued the next. -/
inductive Rounds (j : Job D L) (start : D) : D → Prop
  | nil : Rounds j start start
  | snoc {d : D} (l : L) (h : Rounds j start d) (hagain : j.again (j.record d l) = true) :
      Rounds j start (j.next (j.record d l))

/-- The data in the middle of a round. -/
def Within (j : Job D L) (start d : D) : Prop := ∃ d' l, Rounds j start d' ∧ d = j.record d' l

/-- The data of the last round, before and after the handler's last statement. -/
def Last (j : Job D L) (start d : D) : Prop :=
  ∃ d', Within j start d' ∧ j.again d' = false ∧ d = j.last d'

def Result (j : Job D L) (start d : D) : Prop :=
  Last j start d ∨ ∃ d', Last j start d' ∧ d = j.finish d'

structure Lawful (j : Job D L) : Prop where
  next_done : ∀ d, j.again d = true → j.done d = false → j.done (j.next d) = false
  record_done : ∀ d l, j.done (j.record d l) = j.done d
  finish_done : ∀ d, j.again d = false → j.done (j.finish (j.last d)) = true

/-! ## What holds at each point -/

/-- Until it is cancelled, the item is pending or its handler runs, or all is done. -/
def Busy (j : Job D L) (start d : D) (w : Work) : Prop :=
  w.disabled = false ∧
  match w.running, w.pending with
  | none, true | some .leave, true | some .record, false => j.done d = false ∧ Rounds j start d
  | some .test, false => j.done d = false ∧ Within j start d
  | some .finish, false => Last j start d
  | none, false | some .leave, false => j.done d = true ∧ Result j start d
  | _, _ => False

/-- Nothing more is to be recorded. -/
def Settled (j : Job D L) (start d : D) (w : Work) : Prop :=
  Result j start d ∧
    (w.running = some .finish ∧ Last j start d ∨ w.running = some .leave ∨ w.running = none)

def At (j : Job D L) (start d : D) (w : Work) (i : Bool) : Phase → Prop
  | .queue => w = {} ∧ d = start ∧ j.done d = false ∧ i = false
  | .wait => Busy j start d w ∧ i = false
  | .copy => if j.cancelFirst then w = {} ∧ Result j start d else Busy j start d w ∧ j.done d = true
  | .cancel => Busy j start d w ∧ (i = false → j.done d = true)
  | .flush => w.disabled = true ∧ w.pending = false ∧ (i = false → Settled j start d w)
  | .gone => w = {}

/-- The invariant of a read. -/
structure Inv (j : Job D L) (start d : D) (w : Work) (r : Side D) : Prop where
  here : At j start d w r.interrupted r.phase
  shown : ∀ t, r.shown = some t → Result j start t

section Steps

variable {j : Job D L} {start d d' : D} {w w' : Work} {r r' : Side D} {l : L}

/-- What the last round brings about and the last statement keeps is true of the result. -/
theorem Result.rule {P : D → Prop} (h : Result j start d)
    (hlast : ∀ d l, Rounds j start d → j.again (j.record d l) = false → P (j.last (j.record d l)))
    (hfinish : ∀ d, P d → P (j.finish d)) : P d := by
  have last : ∀ d, Last j start d → P d := by
    rintro _ ⟨_, ⟨d, l, hr, rfl⟩, hagain, rfl⟩
    exact hlast d l hr hagain
  rcases h with h | ⟨d, h, rfl⟩
  · exact last d h
  · exact hfinish d (last d h)

theorem Busy.settled (h : Busy j start d w) (hdone : j.done d = true) :
    w.pending = false ∧ Settled j start d w := by
  obtain ⟨p, s, e⟩ := w
  obtain ⟨-, h⟩ := h
  rcases p <;> rcases s with - | - | - | - | - <;> simp_all [Settled, Result]

theorem Busy.handler (hj : Lawful j) (h : Busy j start d w) (hs : handler j d w l = some (d', w')) :
    Busy j start d' w' ∧ (j.done d = true → j.done d' = true) := by
  obtain ⟨p, s, e⟩ := w
  obtain ⟨he, h⟩ := h
  obtain rfl : e = false := he
  -- In the cases that are left out the handler runs and is pending, which it is only on leaving.
  rcases s with - | - | - | - | - <;> rcases p <;> dsimp only at h
  · cases hs
  · cases hs
    exact ⟨⟨rfl, h⟩, id⟩
  · cases hs
    rw [← hj.record_done d l] at h ⊢
    exact ⟨⟨rfl, h.1, d, l, h.2, rfl⟩, id⟩
  · obtain ⟨hdone, e, l', hr, rfl⟩ := h
    unfold DeferredWork.handler at hs
    dsimp only at hs
    split at hs
    case isTrue ha =>
      cases hs
      exact ⟨⟨rfl, hj.next_done _ ha hdone, .snoc l' hr ha⟩, fun h => by simp [hdone] at h⟩
    case isFalse ha =>
      cases hs
      exact ⟨⟨rfl, _, ⟨e, l', hr, rfl⟩, by simpa using ha, rfl⟩, fun h => by simp [hdone] at h⟩
  · cases hs
    obtain ⟨e, hw, ha, rfl⟩ := h
    have hdone := hj.finish_done e ha
    exact ⟨⟨rfl, hdone, .inr ⟨_, ⟨e, hw, ha, rfl⟩, rfl⟩⟩, fun _ => hdone⟩
  · cases hs
    exact ⟨⟨rfl, h⟩, id⟩
  · cases hs
    exact ⟨⟨rfl, h⟩, id⟩

theorem Settled.handler (h : Settled j start d w) (hp : w.pending = false)
    (hs : handler j d w l = some (d', w')) : Settled j start d' w' := by
  obtain ⟨p, s, e⟩ := w
  obtain ⟨hr, ⟨hf, hl⟩ | hf | hf⟩ := h <;> obtain rfl : s = _ := hf
  · cases hs
    exact ⟨.inr ⟨d, hl, rfl⟩, .inr (.inl rfl)⟩
  · cases hs
    exact ⟨hr, .inr (.inr rfl)⟩
  · obtain rfl : p = false := hp
    cases hs

/-- The handler of an item that is being cancelled does not queue it again. -/
theorem handler_disabled (he : w.disabled = true) (hp : w.pending = false)
    (hs : handler j d w l = some (d', w')) : w'.disabled = true ∧ w'.pending = false := by
  unfold DeferredWork.handler Work.queue at hs
  rw [he] at hs
  grind

theorem Inv.handler (hj : Lawful j) (h : Inv j start d w r)
    (hs : handler j d w l = some (d', w')) : Inv j start d' w' r := by
  obtain ⟨p, i, t⟩ := r
  obtain ⟨hat, hshown⟩ := h
  refine ⟨?_, hshown⟩
  have idle : w ≠ {} := by
    rintro rfl
    cases hs
  cases p with
  | queue => exact absurd hat.1 idle
  | wait => exact ⟨(Busy.handler hj hat.1 hs).1, hat.2⟩
  | copy =>
    unfold At at hat ⊢
    by_cases hc : j.cancelFirst = true
    · rw [if_pos hc] at hat
      exact absurd hat.1 idle
    · rw [if_neg hc] at hat ⊢
      obtain ⟨hb, hd⟩ := Busy.handler hj hat.1 hs
      exact ⟨hb, hd hat.2⟩
  | cancel =>
    obtain ⟨hb, hd⟩ := Busy.handler hj hat.1 hs
    exact ⟨hb, fun hi => hd (hat.2 hi)⟩
  | flush =>
    obtain ⟨he, hp, hset⟩ := hat
    obtain ⟨he', hp'⟩ := handler_disabled he hp hs
    exact ⟨he', hp', fun hi => Settled.handler (hset hi) hp hs⟩
  | gone => exact absurd hat idle

theorem Inv.reader {signal : Bool} (h : Inv j start d w r)
    (hs : reader j d w r signal = some (w', r')) : Inv j start d w' r' := by
  obtain ⟨p, i, t⟩ := r
  obtain ⟨hat, hshown⟩ := h
  unfold DeferredWork.reader at hs
  cases p with
  | queue =>
    obtain ⟨rfl, rfl, hdone, rfl⟩ := hat
    cases hs
    exact ⟨⟨⟨rfl, hdone, .nil⟩, rfl⟩, hshown⟩
  | wait =>
    obtain ⟨hb, rfl⟩ := hat
    dsimp only at hs
    split at hs
    case isTrue hdone =>
      cases hs
      refine ⟨?_, hshown⟩
      cases hc : j.cancelFirst <;> simp [At, hc, hb, hdone]
    case isFalse =>
      split at hs
      · cases hs
        exact ⟨⟨hb, fun hi => Bool.noConfusion hi⟩, hshown⟩
      · cases hs
  | copy =>
    cases hs
    cases hc : j.cancelFirst <;> simp only [At, hc, if_true, Bool.false_eq_true, if_false] at hat
    · have hr := (hat.1.settled hat.2).2.1
      exact ⟨⟨hat.1, fun _ => hat.2⟩, fun _ ht => Option.some.inj ht ▸ hr⟩
    · exact ⟨hat.1, fun _ ht => Option.some.inj ht ▸ hat.2⟩
  | cancel =>
    cases hs
    exact ⟨⟨rfl, rfl, fun hi => (hat.1.settled (hat.2 hi)).2⟩, hshown⟩
  | flush =>
    obtain ⟨he, hp, hset⟩ := hat
    dsimp only at hs
    split at hs
    case isTrue hrun =>
      cases hs
      obtain ⟨p, s, e⟩ := w
      obtain ⟨rfl, rfl⟩ : p = false ∧ s = none := ⟨hp, hrun⟩
      refine ⟨?_, hshown⟩
      -- Only a read that was not interrupted goes on to copy what the last round left.
      cases i <;> cases hc : j.cancelFirst <;> simp [At, hc]
      exact (hset rfl).1
    case isFalse => cases hs
  | gone => cases hs

/-- Nothing is recorded, or to be recorded, while the reader copies. -/
theorem Inv.quiet (h : Inv j start d w r) (hp : r.phase = .copy) :
    w.pending = false ∧ w.running ≠ some .record ∧ w.running ≠ some .test := by
  have hat := h.here
  rw [hp] at hat
  cases hc : j.cancelFirst <;> simp only [At, hc, if_true, Bool.false_eq_true, if_false] at hat
  · obtain ⟨hpend, -, hrun⟩ := hat.1.settled hat.2
    refine ⟨hpend, ?_, ?_⟩ <;> intro h <;> simp [h] at hrun
  · obtain ⟨rfl, -⟩ := hat
    exact ⟨rfl, by decide, by decide⟩

/-- No reader is left asleep: what it waits for is pending, or its handler runs. -/
theorem Inv.awake (h : Inv j start d w r) (hp : r.phase = .wait) (hdone : j.done d = false) :
    w.pending = true ∨ w.running ≠ none := by
  have hat := h.here
  rw [hp] at hat
  obtain ⟨p, s, e⟩ := w
  obtain ⟨⟨-, hb⟩, -⟩ := hat
  cases p <;> cases s <;> simp_all

end Steps

end LinuxDeviceDriver.Lib.DeferredWork
