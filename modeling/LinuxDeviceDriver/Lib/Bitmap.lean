/- digest: A bitmap in one word: the first zero bit, and what setting and clearing a bit do. -/

import Mathlib.Data.BitVec
import Mathlib.Data.List.Basic

set_option autoImplicit false

namespace LinuxDeviceDriver.Lib.Bitmap

variable {w : Nat}

/-- The first zero bit of the lowest size bits; size, if all of them are set. -/
def findFirstZeroBit (word : BitVec w) (size : Nat) : Nat :=
  ((List.range size).find? fun i => !word.getLsbD i).getD size

def setBit (word : BitVec w) (bit : Nat) : BitVec w := word ||| (1#w <<< bit)

def clearBit (word : BitVec w) (bit : Nat) : BitVec w := word &&& ~~~(1#w <<< bit)

/-- All of the lowest size bits are set. -/
def Full (word : BitVec w) (size : Nat) : Prop := ∀ i < size, word.getLsbD i = true

section Search

variable {word : BitVec w} {size : Nat}

theorem findFirstZeroBit_full (h : size ≤ findFirstZeroBit word size) : Full word size := by
  intro i hi
  unfold findFirstZeroBit at h
  cases hfind : (List.range size).find? fun i => !word.getLsbD i with
  | none =>
    have hset := List.find?_eq_none.mp hfind i (List.mem_range.mpr hi)
    simpa using hset
  | some bit =>
    have hlt := List.mem_range.mp (List.mem_of_find?_eq_some hfind)
    rw [hfind, Option.getD_some] at h
    omega

end Search

section Change

variable {bit i : Nat}

theorem getLsbD_one_shiftLeft (hbit : bit < w) : (1#w <<< bit).getLsbD i = decide (i = bit) := by
  rw [BitVec.getLsbD_shiftLeft, BitVec.getLsbD_one]
  by_cases heq : i = bit
  · subst heq
    have hw : 0 < w := by omega
    simp [hbit, hw]
  · rcases Nat.lt_or_gt_of_ne heq with hlt | hgt
    · simp [heq, hlt]
    · have hsub : i - bit ≠ 0 := by omega
      simp [heq, hsub]

theorem getLsbD_setBit (word : BitVec w) (hbit : bit < w) :
    (setBit word bit).getLsbD i = true ↔ word.getLsbD i = true ∨ i = bit := by
  rw [setBit, BitVec.getLsbD_or, getLsbD_one_shiftLeft hbit]
  simp

theorem getLsbD_clearBit (word : BitVec w) (hbit : bit < w) :
    (clearBit word bit).getLsbD i = true ↔ word.getLsbD i = true ∧ i ≠ bit := by
  rw [clearBit, BitVec.getLsbD_and, BitVec.getLsbD_not, getLsbD_one_shiftLeft hbit]
  by_cases hi : i < w
  · simp [hi]
  · simp [hi, BitVec.getLsbD_of_ge word i (Nat.le_of_not_lt hi)]

end Change

end LinuxDeviceDriver.Lib.Bitmap
