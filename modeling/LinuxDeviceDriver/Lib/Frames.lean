/- digest: A stream of bytes made of whole frames, each the rendering of a state of a growing
     history, of which a part has been sent. -/

import Mathlib.Data.List.Basic

set_option autoImplicit false

namespace LinuxDeviceDriver.Lib.Frames

universe u v

variable {S : Type u} {B : Type v}

/-- The frame that shows the state at a time. -/
def frameAt (render : S → List B) (hist : List S) (t : Nat) : List B :=
  (hist[t]?.map render).getD []

def frames (render : S → List B) (hist : List S) (times : List Nat) : List B :=
  times.flatMap (frameAt render hist)

/-- What is sent and what is still to be sent are a lead and then frames, each of a state no older
than that of the frame before it. -/
structure Sent (render : S → List B) (lead : List B) (hist : List S) (times : List Nat)
    (sent rest : List B) : Prop where
  ordered : times.Pairwise (· ≤ ·)
  known : ∀ t ∈ times, t < hist.length
  bytes : sent ++ rest = lead ++ frames render hist times

/-- The last frame shows this state. -/
def Shown (render : S → List B) (hist : List S) (times : List Nat) (s : S) : Prop :=
  ∃ t, times.getLast? = some t ∧ frameAt render hist t = render s

section History

variable {render : S → List B} {hist : List S} {times : List Nat} {s : S} {t : Nat}

theorem frameAt_append (s : S) (ht : t < hist.length) :
    frameAt render (hist ++ [s]) t = frameAt render hist t := by
  rw [frameAt, frameAt, List.getElem?_append_left ht]

theorem frameAt_last (h : hist.getLast? = some s) :
    frameAt render hist (hist.length - 1) = render s := by
  rw [frameAt, ← List.getLast?_eq_getElem?, h]
  rfl

theorem frames_append (s : S) (h : ∀ t ∈ times, t < hist.length) :
    frames render (hist ++ [s]) times = frames render hist times := by
  unfold frames
  induction times with
  | nil => rfl
  | cons t times ih =>
    rw [List.flatMap_cons, List.flatMap_cons, frameAt_append s (h t List.mem_cons_self),
      ih fun t' ht' => h t' (List.mem_cons_of_mem t ht')]

theorem length_pos_of_getLast? (h : hist.getLast? = some s) : 0 < hist.length := by
  rw [List.length_pos_iff]
  rintro rfl
  cases h

end History

namespace Sent

variable {render : S → List B} {lead : List B} {hist : List S} {times : List Nat}
variable {sent rest : List B} {s : S}

theorem first (render : S → List B) (lead : List B) (s : S) :
    Sent render lead [s] [0] [] (lead ++ render s) := by
  refine ⟨List.pairwise_singleton _ _, ?_, ?_⟩
  · intro t ht
    rw [List.mem_singleton.mp ht]
    exact Nat.one_pos
  · show lead ++ render s = lead ++ (render s ++ [])
    rw [List.append_nil]

theorem send (h : Sent render lead hist times sent rest) (n : Nat) :
    Sent render lead hist times (sent ++ rest.take n) (rest.drop n) := by
  refine ⟨h.ordered, h.known, ?_⟩
  rw [List.append_assoc, List.take_append_drop]
  exact h.bytes

theorem change (h : Sent render lead hist times sent rest) (s : S) :
    Sent render lead (hist ++ [s]) times sent rest := by
  refine ⟨h.ordered, ?_, ?_⟩
  · intro t ht
    have hlt := h.known t ht
    rw [List.length_append]
    omega
  · rw [frames_append s h.known]
    exact h.bytes

theorem build (h : Sent render lead hist times sent rest) (hlast : hist.getLast? = some s) :
    Sent render lead hist (times ++ [hist.length - 1]) sent (rest ++ render s) := by
  have hpos := length_pos_of_getLast? hlast
  refine ⟨?_, ?_, ?_⟩
  · rw [List.pairwise_append]
    refine ⟨h.ordered, List.pairwise_singleton _ _, ?_⟩
    intro t ht t' ht'
    have hlt := h.known t ht
    rw [List.mem_singleton.mp ht']
    omega
  · intro t ht
    rcases List.mem_append.mp ht with ht | ht
    · exact h.known t ht
    · rw [List.mem_singleton.mp ht]
      omega
  · have hframe : frames render hist [hist.length - 1] = render s := by
      show frameAt render hist (hist.length - 1) ++ [] = render s
      rw [List.append_nil, frameAt_last hlast]
    rw [← List.append_assoc, h.bytes, List.append_assoc, frames, frames, List.flatMap_append]
    exact congrArg (fun x => lead ++ (_ ++ x)) hframe.symm

theorem sent_isPrefix (h : Sent render lead hist times sent rest) :
    sent <+: lead ++ frames render hist times := ⟨rest, h.bytes⟩

end Sent

namespace Shown

variable {render : S → List B} {hist : List S} {times : List Nat} {s : S}

theorem first (render : S → List B) (s : S) : Shown render [s] [0] s := ⟨0, rfl, rfl⟩

theorem change (h : Shown render hist times s) (hknown : ∀ t ∈ times, t < hist.length) (s' : S) :
    Shown render (hist ++ [s']) times s := by
  obtain ⟨t, ht, heq⟩ := h
  exact ⟨t, ht, (frameAt_append s' (hknown t (List.mem_of_getLast? ht))).trans heq⟩

theorem build (hlast : hist.getLast? = some s) :
    Shown render hist (times ++ [hist.length - 1]) s :=
  ⟨_, List.getLast?_concat, frameAt_last hlast⟩

end Shown

end LinuxDeviceDriver.Lib.Frames
