/- digest: The one's complement checksum of the Internet headers, and that a header whose
     checksum field was filled in with it is valid. -/

import LinuxDeviceDriver.Lib.LittleEndian
import Mathlib.Data.List.Range
import Mathlib.Logic.Function.Basic

set_option autoImplicit false

namespace LinuxDeviceDriver.Lib.InetChecksum

open LittleEndian (Byte)

/-- The 16-bit words of the bytes, in network order; an odd last byte has a zero behind it. -/
def words : List Byte → List Nat
  | [] => []
  | [a] => [a.toNat * 256]
  | a :: b :: bs => (a.toNat * 256 + b.toNat) :: words bs

/-- Addition of 16-bit words with the carry added back in. -/
def onesAdd (a b : Nat) : Nat := if a + b < 65536 then a + b else a + b - 65535

def onesSum (ws : List Nat) : Nat := ws.foldr onesAdd 0

/-- The two bytes of the checksum, in network order. -/
def inetChecksum (bs : List Byte) : Byte × Byte :=
  let sum := 65535 - onesSum (words bs)
  (BitVec.ofNat 8 (sum / 256), BitVec.ofNat 8 sum)

/-- The sum over all words, the checksum's own among them, has every bit set. -/
def Valid (bs : List Byte) : Prop := onesSum (words bs) = 65535

instance (bs : List Byte) : Decidable (Valid bs) := inferInstanceAs (Decidable (_ = _))

/-! ## Sums -/

section Sums

variable {a b : Nat} {us vs : List Nat}

theorem onesAdd_mod (a b : Nat) : onesAdd a b % 65535 = (a + b) % 65535 := by
  unfold onesAdd
  split
  · rfl
  · omega

theorem onesAdd_le (ha : a ≤ 65535) (hb : b ≤ 65535) : onesAdd a b ≤ 65535 := by
  unfold onesAdd
  split <;> omega

theorem onesAdd_eq_zero : onesAdd a b = 0 ↔ a = 0 ∧ b = 0 := by
  unfold onesAdd
  split <;> omega

theorem onesSum_le (h : ∀ w ∈ us, w ≤ 65535) : onesSum us ≤ 65535 := by
  induction us with
  | nil => exact Nat.zero_le _
  | cons u us ih =>
    obtain ⟨hu, hus⟩ := List.forall_mem_cons.mp h
    exact onesAdd_le hu (ih hus)

theorem onesSum_insert_mod (us vs : List Nat) (w : Nat) :
    onesSum (us ++ w :: vs) % 65535 = (onesSum (us ++ 0 :: vs) + w) % 65535 := by
  induction us with
  | nil =>
    have hw := onesAdd_mod w (onesSum vs)
    have hzero := onesAdd_mod 0 (onesSum vs)
    change onesAdd w (onesSum vs) % 65535 = (onesAdd 0 (onesSum vs) + w) % 65535
    omega
  | cons u us ih =>
    have hw := onesAdd_mod u (onesSum (us ++ w :: vs))
    have hzero := onesAdd_mod u (onesSum (us ++ 0 :: vs))
    change onesAdd u (onesSum (us ++ w :: vs)) % 65535 =
      (onesAdd u (onesSum (us ++ 0 :: vs)) + w) % 65535
    omega

theorem onesSum_insert_eq_zero (us vs : List Nat) (w : Nat) :
    onesSum (us ++ w :: vs) = 0 ↔ w = 0 ∧ onesSum (us ++ 0 :: vs) = 0 := by
  induction us with
  | nil =>
    change onesAdd w (onesSum vs) = 0 ↔ w = 0 ∧ onesAdd 0 (onesSum vs) = 0
    rw [onesAdd_eq_zero, onesAdd_eq_zero]
    simp
  | cons u us ih =>
    change onesAdd u (onesSum (us ++ w :: vs)) = 0 ↔
      w = 0 ∧ onesAdd u (onesSum (us ++ 0 :: vs)) = 0
    rw [onesAdd_eq_zero, onesAdd_eq_zero, ih]
    constructor
    · rintro ⟨hu, hw, hrest⟩
      exact ⟨hw, hu, hrest⟩
    · rintro ⟨hw, hu, hrest⟩
      exact ⟨hu, hw, hrest⟩

/-- A word that was zero is replaced by the complement of the sum. -/
theorem onesSum_filled (hus : ∀ w ∈ us, w ≤ 65535) (hvs : ∀ w ∈ vs, w ≤ 65535) :
    onesSum (us ++ (65535 - onesSum (us ++ 0 :: vs)) :: vs) = 65535 := by
  have hbound : ∀ w ≤ 65535, onesSum (us ++ w :: vs) ≤ 65535 := by
    intro w hw
    apply onesSum_le
    intro x hx
    rcases List.mem_append.mp hx with hx | hx
    · exact hus x hx
    rcases List.mem_cons.mp hx with rfl | hx
    · exact hw
    · exact hvs x hx
  have hold := hbound 0 (Nat.zero_le _)
  have hnew := hbound (65535 - onesSum (us ++ 0 :: vs)) (Nat.sub_le _ _)
  have hmod := onesSum_insert_mod us vs (65535 - onesSum (us ++ 0 :: vs))
  have hzero := onesSum_insert_eq_zero us vs (65535 - onesSum (us ++ 0 :: vs))
  -- the new sum is a multiple of 65535 and not zero
  omega

end Sums

/-! ## Headers -/

section Words

variable {a b : Byte} {pre post : List Byte}

theorem words_le (bs : List Byte) : ∀ w ∈ words bs, w ≤ 65535 := by
  fun_induction words bs with
  | case1 => simp
  | case2 a =>
    have ha := a.isLt
    intro w hw
    rw [List.mem_singleton.mp hw]
    omega
  | case3 a b bs ih =>
    have ha := a.isLt
    have hb := b.isLt
    intro w hw
    rcases List.mem_cons.mp hw with rfl | hw
    · omega
    · exact ih w hw

theorem words_append (heven : pre.length % 2 = 0) :
    words (pre ++ a :: b :: post) = words pre ++ (a.toNat * 256 + b.toNat) :: words post := by
  fun_induction words pre with
  | case1 => rfl
  | case2 a => simp at heven
  | case3 c d pre ih =>
    have hrest : pre.length % 2 = 0 := by
      simp only [List.length_cons] at heven
      omega
    rw [List.cons_append, List.cons_append, words, ih hrest, List.cons_append]

theorem valid_filled (heven : pre.length % 2 = 0)
    (hfill : (a, b) = inetChecksum (pre ++ 0 :: 0 :: post)) : Valid (pre ++ a :: b :: post) := by
  have hsum : onesSum (words (pre ++ 0 :: 0 :: post)) ≤ 65535 := onesSum_le (words_le _)
  obtain ⟨rfl, rfl⟩ := Prod.mk.inj hfill
  have hword :
      (BitVec.ofNat 8 ((65535 - onesSum (words (pre ++ 0 :: 0 :: post))) / 256)).toNat * 256 +
        (BitVec.ofNat 8 (65535 - onesSum (words (pre ++ 0 :: 0 :: post)))).toNat =
      65535 - onesSum (words (pre ++ 0 :: 0 :: post)) := by
    rw [BitVec.toNat_ofNat, BitVec.toNat_ofNat]
    omega
  unfold Valid
  rw [words_append heven, hword, words_append heven]
  exact onesSum_filled (words_le pre) (words_le post)

end Words

private theorem map_range_field {k n : Nat} (hn : k + 2 ≤ n) (g : Nat → Byte) :
    (List.range n).map g = (List.range k).map g ++
      g k :: g (k + 1) :: (List.range' (k + 2) (n - (k + 2))).map g := by
  obtain ⟨m, rfl⟩ := Nat.exists_eq_add_of_le hn
  have hrange : List.range (k + 2 + m) = List.range k ++ List.range' k (m + 2) := by
    rw [List.range_eq_range', List.range_eq_range', show k + 2 + m = k + (m + 2) by omega,
      ← List.range'_append_1, Nat.zero_add]
  have hrest : k + 2 + m - (k + 2) = m := by omega
  rw [hrange, hrest, List.range'_succ, List.range'_succ, List.map_append, List.map_cons,
    List.map_cons]

/-- A header whose field at an even place k holds the checksum of the header with that field
zero. -/
theorem valid_of_checksum {g : Nat → Byte} {k n : Nat} (heven : k % 2 = 0) (hn : k + 2 ≤ n)
    (hfill : (g k, g (k + 1)) = inetChecksum ((List.range n).map
      (Function.update (Function.update g k 0) (k + 1) 0))) :
    Valid ((List.range n).map g) := by
  have hlow : (List.range k).map (Function.update (Function.update g k 0) (k + 1) 0) =
      (List.range k).map g := by
    apply List.map_congr_left
    intro i hi
    have hik := List.mem_range.mp hi
    rw [Function.update_of_ne (by omega), Function.update_of_ne (by omega)]
  have hhigh : (List.range' (k + 2) (n - (k + 2))).map
      (Function.update (Function.update g k 0) (k + 1) 0) =
      (List.range' (k + 2) (n - (k + 2))).map g := by
    apply List.map_congr_left
    intro i hi
    have hik := (List.mem_range'_1.mp hi).1
    rw [Function.update_of_ne (by omega), Function.update_of_ne (by omega)]
  rw [map_range_field hn, hlow, hhigh, Function.update_self,
    Function.update_of_ne (by omega), Function.update_self] at hfill
  rw [map_range_field hn]
  refine valid_filled ?_ hfill
  rw [List.length_map, List.length_range]
  exact heven

/-- The header of an echo request from 192.168.0.1 to 192.168.0.2. -/
example : inetChecksum [0x45, 0, 0, 0x54, 0, 0, 0x40, 0, 0x40, 1, 0, 0, 192, 168, 0, 1,
    192, 168, 0, 2] = (0xb9, 0x55) := by
  decide

end LinuxDeviceDriver.Lib.InetChecksum
