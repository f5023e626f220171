/- digest: Things taken one after another and given back: each is held or was given back, once. -/

import Mathlib.Data.List.Basic

set_option autoImplicit false

namespace LinuxDeviceDriver.Lib.Custody

universe u

variable {P : Type u} {taken released held ps : List P} {p : P}

/-- Each thing taken is new, and is held or was given back, and that only once. -/
structure Balanced (taken released held : List P) : Prop where
  new : taken.Nodup
  whole : (released ++ held).Perm taken

namespace Balanced

theorem empty : Balanced ([] : List P) [] [] := ⟨.nil, .nil⟩

theorem take (h : Balanced taken released held) (hps : ps.Nodup) (hfresh : ∀ p ∈ ps, p ∉ taken) :
    Balanced (taken ++ ps) released (held ++ ps) := by
  refine ⟨List.nodup_append.mpr ⟨h.new, hps, ?_⟩, ?_⟩
  · rintro p hp q hq rfl
    exact hfresh p hq hp
  · rw [← List.append_assoc]
    exact h.whole.append_right ps

theorem release (h : Balanced taken released (held ++ ps)) :
    Balanced taken (released ++ ps) held := by
  refine ⟨h.new, List.Perm.trans ?_ h.whole⟩
  rw [List.append_assoc]
  exact List.perm_append_comm.append_left released

theorem nodup (h : Balanced taken released held) : (released ++ held).Nodup :=
  h.whole.nodup_iff.mpr h.new

/-- What is held is what was taken and not given back. -/
theorem mem_held_iff (h : Balanced taken released held) :
    p ∈ held ↔ p ∈ taken ∧ p ∉ released := by
  rw [← h.whole.mem_iff, List.mem_append]
  constructor
  · intro hp
    exact ⟨.inr hp, fun hr => (List.nodup_append.mp h.nodup).2.2 p hr p hp rfl⟩
  · rintro ⟨hr | hp, hnot⟩
    · exact absurd hr hnot
    · exact hp

end Balanced

end LinuxDeviceDriver.Lib.Custody
