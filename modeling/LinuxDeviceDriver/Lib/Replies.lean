/- digest: Machines that answer each input: their replies over a run, and machines that answer
     alike. -/

import Mathlib.Data.List.Basic

set_option autoImplicit false

namespace LinuxDeviceDriver.Lib.Replies

universe u v w x

variable {S : Type u} {T : Type v} {E : Type w} {O : Type x}

/-- What a machine answers to one input after the other. -/
def replies (next : S → E → S × O) : S → List E → List O
  | _, [] => []
  | s, e :: es => (next s e).2 :: replies next (next s e).1 es

/-- The state that the inputs lead to. -/
def after (next : S → E → S × O) (s : S) (es : List E) : S :=
  es.foldl (fun s e => (next s e).1) s

/-- Every answer meets a condition. -/
def Answered (P : E → O → Prop) (next : S → E → S × O) : S → List E → Prop
  | _, [] => True
  | s, e :: es => P e (next s e).2 ∧ Answered P next (next s e).1 es

section Alike

variable {next : S → E → S × O} {next' : T → E → T × O} {R : S → T → Prop} {P : E → O → Prop}

/-- Two machines answer alike if related states answer alike and stay related, as long as their
answers meet a condition. -/
theorem replies_eq_of_answered
    (hstep : ∀ s t e, R s t → P e (next s e).2 → P e (next' t e).2 →
      R (next s e).1 (next' t e).1 ∧ (next s e).2 = (next' t e).2)
    {s : S} {t : T} (h : R s t) (es : List E) (hs : Answered P next s es)
    (ht : Answered P next' t es) :
    replies next s es = replies next' t es := by
  induction es generalizing s t with
  | nil => rfl
  | cons e es ih =>
    obtain ⟨hrel, hreply⟩ := hstep s t e h hs.1 ht.1
    rw [replies, replies, hreply, ih hrel hs.2 ht.2]

theorem replies_eq
    (hstep : ∀ s t e, R s t → R (next s e).1 (next' t e).1 ∧ (next s e).2 = (next' t e).2)
    {s : S} {t : T} (h : R s t) (es : List E) : replies next s es = replies next' t es := by
  induction es generalizing s t with
  | nil => rfl
  | cons e es ih =>
    obtain ⟨hrel, hreply⟩ := hstep s t e h
    rw [replies, replies, hreply, ih hrel]

theorem after_related (hstep : ∀ s t e, R s t → R (next s e).1 (next' t e).1) {s : S} {t : T}
    (h : R s t) (es : List E) : R (after next s es) (after next' t es) := by
  induction es generalizing s t with
  | nil => exact h
  | cons e es ih => exact ih (hstep s t e h)

end Alike

end LinuxDeviceDriver.Lib.Replies
