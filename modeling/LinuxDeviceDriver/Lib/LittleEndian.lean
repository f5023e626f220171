/- digest: Fixed-width little-endian numbers as byte lists, and their round trip. -/

import Mathlib.Tactic.Ring
import Mathlib.Algebra.Order.Ring.Nat

set_option autoImplicit false

namespace LinuxDeviceDriver.Lib.LittleEndian

abbrev Byte := BitVec 8

/-- The low k bytes of a number, least significant first. -/
def leBytes : Nat → Nat → List Byte
  | 0, _ => []
  | k + 1, n => BitVec.ofNat 8 n :: leBytes k (n / 256)

/-- The number a byte list stands for, least significant byte first. -/
def leNat : List Byte → Nat
  | [] => 0
  | b :: bs => b.toNat + 256 * leNat bs

@[simp] theorem leBytes_length (k n : Nat) : (leBytes k n).length = k := by
  induction k generalizing n with
  | zero => rfl
  | succ k ih => simp [leBytes, ih]

theorem leNat_leBytes (k n : Nat) : leNat (leBytes k n) = n % 256 ^ k := by
  induction k generalizing n with
  | zero => simp [leBytes, leNat, Nat.mod_one]
  | succ k ih =>
    have hb : (BitVec.ofNat 8 n).toNat = n % 256 := BitVec.toNat_ofNat n 8
    rw [leBytes, leNat, ih, hb, Nat.pow_succ, Nat.mul_comm (256 ^ k) 256, Nat.mod_mul]

/-- A value that fits its width survives the round trip through memory. -/
theorem ofNat_leNat_leBytes (w k : Nat) (hw : w = 8 * k) (v : BitVec w) :
    BitVec.ofNat w (leNat (leBytes k v.toNat)) = v := by
  have hp : (256 : Nat) ^ k = 2 ^ w := by rw [hw, Nat.pow_mul]
  rw [leNat_leBytes, hp, Nat.mod_eq_of_lt v.isLt, BitVec.ofNat_toNat, BitVec.setWidth_eq]

theorem leNat_lt (bs : List Byte) : leNat bs < 256 ^ bs.length := by
  induction bs with
  | nil => exact Nat.one_pos
  | cons b bs ih =>
    have hb := b.isLt
    rw [leNat, List.length_cons, Nat.pow_succ]
    omega

theorem leBytes_leNat (bs : List Byte) : leBytes bs.length (leNat bs) = bs := by
  induction bs with
  | nil => rfl
  | cons b bs ih =>
    have hb := b.isLt
    have hbyte : BitVec.ofNat 8 (b.toNat + 256 * leNat bs) = b := by
      apply BitVec.eq_of_toNat_eq
      rw [BitVec.toNat_ofNat]
      omega
    have hrest : (b.toNat + 256 * leNat bs) / 256 = leNat bs := by omega
    rw [List.length_cons, leNat, leBytes, hbyte, hrest, ih]

/-! ## Numbers in registers -/

section Registers

variable {w : Nat}

theorem leNat_lt_two_pow {bs : List Byte} (h : 8 * bs.length ≤ w) : leNat bs < 2 ^ w := by
  have hpow : (256 : Nat) ^ bs.length ≤ 2 ^ w := by
    rw [show (256 : Nat) = 2 ^ 8 from rfl, ← Nat.pow_mul]
    exact Nat.pow_le_pow_right (by decide) h
  exact (leNat_lt bs).trans_le hpow

theorem toNat_ofNat_leNat {bs : List Byte} (h : 8 * bs.length ≤ w) :
    (BitVec.ofNat w (leNat bs)).toNat = leNat bs := by
  rw [BitVec.toNat_ofNat, Nat.mod_eq_of_lt (leNat_lt_two_pow h)]

/-- Bytes that are shifted in, from the last one on, make up their number. -/
theorem foldr_shiftLeft {bs : List Byte} (h : 8 * bs.length ≤ w) :
    bs.foldr (fun b (v : BitVec w) => (v <<< 8) ||| b.setWidth w) 0 =
      BitVec.ofNat w (leNat bs) := by
  induction bs with
  | nil => rfl
  | cons b bs ih =>
    have hlt := leNat_lt_two_pow h
    rw [leNat] at hlt
    rw [List.length_cons] at h
    apply BitVec.eq_of_toNat_eq
    rw [List.foldr_cons, ih (by omega), BitVec.toNat_or, BitVec.toNat_shiftLeft,
      BitVec.toNat_setWidth, toNat_ofNat_leNat (by omega),
      toNat_ofNat_leNat (by rwa [List.length_cons]), Nat.shiftLeft_eq,
      Nat.mod_eq_of_lt (by omega), Nat.mod_eq_of_lt (by omega), leNat, Nat.mul_comm,
      ← Nat.two_pow_add_eq_or_of_lt b.isLt, Nat.add_comm]

theorem leBytes_eq_map (k n : Nat) :
    leBytes k n = (List.range k).map fun i => BitVec.ofNat 8 (n / 256 ^ i) := by
  induction k generalizing n with
  | zero => rfl
  | succ k ih =>
    rw [leBytes, ih, List.range_succ_eq_map, List.map_cons, List.map_map, Nat.pow_zero, Nat.div_one]
    congr 1
    apply List.map_congr_left
    intro i _
    rw [Function.comp, Nat.pow_succ', Nat.div_div_eq_div_mul]

theorem leBytes_toNat (k : Nat) (v : BitVec w) :
    leBytes k v.toNat = (List.range k).map fun i => (v >>> (8 * i)).setWidth 8 := by
  rw [leBytes_eq_map]
  apply List.map_congr_left
  intro i _
  apply BitVec.eq_of_toNat_eq
  rw [BitVec.toNat_ofNat, BitVec.toNat_setWidth, BitVec.toNat_ushiftRight,
    Nat.shiftRight_eq_div_pow, Nat.pow_mul]

end Registers

end LinuxDeviceDriver.Lib.LittleEndian
