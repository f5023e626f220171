/- digest: A flag that is set again and again and that whoever finds it set takes down: each
     setting is taken at most once. -/

import Mathlib.Data.List.Nodup

set_option autoImplicit false

namespace LinuxDeviceDriver.Lib.Settings

universe u

variable {W : Type u}

/-- The flag, how often it has been set, and who has taken which setting. -/
structure Latch (W : Type u) where
  up : Bool := false
  settings : Nat := 0
  taken : List (W × Nat) := []
  deriving DecidableEq, Repr

namespace Latch

def set (l : Latch W) : Latch W := { l with up := true, settings := l.settings + 1 }

/-- Somebody takes the latest setting. -/
def take (l : Latch W) (who : W) : Latch W :=
  { l with up := false, taken := l.taken ++ [(who, l.settings)] }

/-- Each setting was taken at most once, after it was made; and the flag is up exactly as long as
the latest one has not been taken. -/
structure Sound (l : Latch W) : Prop where
  once : (l.taken.map Prod.snd).Nodup
  made : ∀ t ∈ l.taken, 0 < t.2 ∧ t.2 ≤ l.settings
  up_iff : l.up = true ↔ 0 < l.settings ∧ l.settings ∉ l.taken.map Prod.snd

variable {l : Latch W}

theorem Sound.never : Sound ({} : Latch W) where
  once := List.nodup_nil
  made _ ht := absurd ht List.not_mem_nil
  up_iff := by
    constructor
    · intro h
      cases h
    · rintro ⟨h, -⟩
      exact absurd h (Nat.lt_irrefl 0)

theorem Sound.set (h : Sound l) : Sound l.set where
  once := h.once
  made t ht := by
    obtain ⟨hpos, hle⟩ := h.made t ht
    exact ⟨hpos, Nat.le_succ_of_le hle⟩
  up_iff := by
    refine ⟨fun _ => ⟨Nat.succ_pos _, ?_⟩, fun _ => rfl⟩
    intro hmem
    obtain ⟨t, ht, heq⟩ := List.mem_map.mp hmem
    have hle := (h.made t ht).2
    have hnew : t.2 = l.settings + 1 := heq
    omega

theorem Sound.take (h : Sound l) (hup : l.up = true) (who : W) : Sound (l.take who) := by
  obtain ⟨hpos, hfree⟩ := h.up_iff.mp hup
  refine ⟨?_, ?_, ?_⟩
  · show ((l.taken ++ [(who, l.settings)]).map Prod.snd).Nodup
    rw [List.map_append, List.nodup_append]
    refine ⟨h.once, List.nodup_singleton _, ?_⟩
    intro a ha b hb
    rw [List.mem_singleton.mp hb]
    rintro rfl
    exact hfree ha
  · intro t ht
    rcases List.mem_append.mp ht with ht | ht
    · exact h.made t ht
    · obtain rfl := List.mem_singleton.mp ht
      exact ⟨hpos, Nat.le_refl _⟩
  · constructor
    · intro hdown
      cases hdown
    · rintro ⟨-, hnot⟩
      refine absurd ?_ hnot
      exact List.mem_map.mpr ⟨(who, l.settings), List.mem_append_right _ List.mem_cons_self, rfl⟩

end Latch

end LinuxDeviceDriver.Lib.Settings
