/- digest: A ring in an array: what it holds, and what taking from its front and putting behind
     its end do when neither goes past the end of the array. -/

import LinuxDeviceDriver.Lib.Blocks

set_option autoImplicit false

namespace LinuxDeviceDriver.Lib.Ring

open Blocks

universe u

variable {B : Type u} {n : Nat}

/-- So many values from a position on, going on at the beginning of the array. -/
def window (buff : Vector B n) (start len : Nat) : List B :=
  slice buff start (min len (n - start)) ++ slice buff 0 (len - (n - start))

variable {buff : Vector B n} {start len m : Nat}

@[simp] theorem window_zero (buff : Vector B n) (start : Nat) : window buff start 0 = [] := by
  rw [window, Nat.zero_min, Nat.zero_sub, slice_zero, slice_zero, List.append_nil]

theorem window_straight (h : start + len ≤ n) : window buff start len = slice buff start len := by
  have hmin : min len (n - start) = len := by omega
  have hrest : len - (n - start) = 0 := by omega
  rw [window, hmin, hrest, slice_zero, List.append_nil]

theorem window_wrapped (hstart : start ≤ n) (h : n ≤ start + len) :
    window buff start len = slice buff start (n - start) ++ slice buff 0 (start + len - n) := by
  have hmin : min len (n - start) = n - start := by omega
  have hrest : len - (n - start) = start + len - n := by omega
  rw [window, hmin, hrest]

theorem window_pop (hstart : start + m ≤ n) (hlen : m ≤ len) (hfit : len ≤ n) :
    window buff start len = slice buff start m ++ window buff ((start + m) % n) (len - m) := by
  rcases Nat.lt_or_eq_of_le hstart with hlt | heq
  · have hmin : min len (n - start) = m + min (len - m) (n - (start + m)) := by omega
    have hrest : len - m - (n - (start + m)) = len - (n - start) := by omega
    rw [Nat.mod_eq_of_lt hlt, window, window, hmin, hrest, slice_append, List.append_assoc]
  · have hm : n - start = m := by omega
    have hback : start + len - n = len - m := by omega
    have hfront : window buff start len = slice buff start m ++ slice buff 0 (len - m) := by
      rw [window_wrapped (by omega) (by omega), hm, hback]
    have hfit : 0 + (len - m) ≤ n := by omega
    rw [heq, Nat.mod_self, window_straight hfit, hfront]

theorem end_straight (h : start + len < n) : (start + len) % n = start + len := Nat.mod_eq_of_lt h

theorem end_wrapped (hstart : start < n) (hfit : len ≤ n) (h : n ≤ start + len) :
    (start + len) % n = start + len - n := by
  rw [Nat.mod_eq_sub_mod h, Nat.mod_eq_of_lt (by omega)]

theorem window_push (hstart : start < n) (hfit : len + m ≤ n) (hend : (start + len) % n + m ≤ n) :
    window buff start (len + m) = window buff start len ++ slice buff ((start + len) % n) m := by
  rcases Nat.lt_or_ge (start + len) n with hlt | hge
  · rw [end_straight hlt] at hend ⊢
    rw [window_straight (by omega), window_straight (by omega), slice_append]
  · rw [end_wrapped hstart (by omega) hge]
    have hback : start + (len + m) - n = start + len - n + m := by omega
    rw [window_wrapped (by omega) (by omega), window_wrapped (by omega) hge, hback, slice_append,
      List.append_assoc, Nat.zero_add]

theorem window_patch {values : List B} (hstart : start < n) (hfit : len + values.length ≤ n) :
    window (patch buff ((start + len) % n) values) start len = window buff start len := by
  rcases Nat.lt_or_ge (start + len) n with hlt | hge
  · rw [end_straight hlt, window_straight (by omega), window_straight (by omega),
      slice_patch_disjoint (.inl (Nat.le_refl _))]
  · rw [end_wrapped hstart (by omega) hge, window_wrapped (by omega) hge,
      window_wrapped (by omega) hge, slice_patch_disjoint (.inr (by omega)),
      slice_patch_disjoint (.inl (by omega))]

end LinuxDeviceDriver.Lib.Ring
