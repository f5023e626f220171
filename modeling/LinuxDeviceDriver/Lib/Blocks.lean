/- digest: A flat store kept in a list of blocks of one size, and what appending a block and
     writing to part of one do to it. -/

import LinuxDeviceDriver.Lib.Extents

set_option autoImplicit false

namespace LinuxDeviceDriver.Lib.Blocks

open Extents

universe u

variable {B : Type u} {n : Nat}

/-- The store that the blocks stand for; past the last block it has the default. -/
def view (dflt : B) (blocks : List (Vector B n)) (a : Nat) : B :=
  match blocks[a / n]? with
  | some block => block.getD (a % n) dflt
  | none => dflt

/-- A block with values written from an offset on. -/
def patch (block : Vector B n) (o : Nat) (values : List B) : Vector B n :=
  Vector.ofFn fun i =>
    if o ≤ i.val ∧ i.val < o + values.length then values.getD (i.val - o) block[i.val]
    else block[i.val]

/-- Part of a block. -/
def slice (block : Vector B n) (o m : Nat) : List B := (block.toList.drop o).take m

variable {dflt : B} {blocks : List (Vector B n)} {block : Vector B n} {a m i o : Nat}
variable {values : List B}

theorem view_block (h : blocks[a / n]? = some block) :
    view dflt blocks a = block.getD (a % n) dflt := by
  rw [view, h]

theorem view_past (h : blocks.length ≤ a / n) : view dflt blocks a = dflt := by
  rw [view, List.getElem?_eq_none h]

theorem patch_inside (hi : i < n) (hle : o ≤ i) (hlt : i < o + values.length) :
    (patch block o values).getD i dflt = values.getD (i - o) dflt := by
  have hval : i - o < values.length := by omega
  simp [patch, Vector.getD, hi, hle, hlt, hval]

theorem patch_outside (hi : i < n) (h : ¬(o ≤ i ∧ i < o + values.length)) :
    (patch block o values).getD i dflt = block.getD i dflt := by
  simp [patch, Vector.getD, hi, h]

theorem view_append_replicate (hn : 0 < n) :
    view dflt (blocks ++ [Vector.replicate n dflt]) = view dflt blocks := by
  funext a
  rcases Nat.lt_trichotomy (a / n) blocks.length with hlt | heq | hgt
  · rw [view, view, List.getElem?_append_left hlt]
  · have hlast : (blocks ++ [Vector.replicate n dflt])[a / n]? = some (Vector.replicate n dflt) := by
      rw [heq, List.getElem?_concat_length]
    rw [view_past heq.ge, view_block hlast]
    simp [Vector.getD, Nat.mod_lt a hn]
  · have hpast : (blocks ++ [Vector.replicate n dflt]).length ≤ a / n := by
      rw [List.length_append, List.length_singleton]
      exact hgt
    rw [view_past hpast, view_past hgt.le]

/-- The addresses of a range inside a block are those of the block with an offset in the
range. -/
theorem mem_range_iff (hn : 0 < n) (hfit : a % n + m ≤ n) (a' : Nat) :
    (a ≤ a' ∧ a' < a + m) ↔ a' / n = a / n ∧ a % n ≤ a' % n ∧ a' % n < a % n + m := by
  have ha := Nat.div_add_mod a n
  have ha' := Nat.div_add_mod a' n
  constructor
  · rintro ⟨hle, hlt⟩
    have hblock : a' / n = a / n := by
      refine Nat.le_antisymm ?_ (Nat.div_le_div_right hle)
      have hbound : a' < (a / n + 1) * n := by
        rw [Nat.add_mul, Nat.one_mul, Nat.mul_comm]
        omega
      exact Nat.lt_succ_iff.mp ((Nat.div_lt_iff_lt_mul hn).mpr hbound)
    rw [hblock] at ha'
    exact ⟨hblock, by omega, by omega⟩
  · rintro ⟨hblock, hle, hlt⟩
    rw [hblock] at ha'
    omega

theorem sub_eq_of_block {a' : Nat} (hblock : a' / n = a / n) : a' % n - a % n = a' - a := by
  have ha := Nat.div_add_mod a n
  have ha' := Nat.div_add_mod a' n
  rw [hblock] at ha'
  omega

/-- A write to part of a block is a write to the store. -/
theorem view_set_patch (hn : 0 < n) (h : blocks[a / n]? = some block)
    (hfit : a % n + values.length ≤ n) :
    view dflt (blocks.set (a / n) (patch block (a % n) values)) =
      (Write.mk a values).apply (view dflt blocks) := by
  funext a'
  have hlt : a / n < blocks.length := (List.getElem?_eq_some_iff.mp h).1
  have hrange := mem_range_iff hn hfit a'
  by_cases hblock : a' / n = a / n
  · have hnew : (blocks.set (a / n) (patch block (a % n) values))[a' / n]? =
        some (patch block (a % n) values) := by
      rw [hblock, List.getElem?_set_self hlt]
    rw [view_block hnew]
    cases hc : (Write.mk a values).covers a' with
    | true =>
      obtain ⟨-, hle, hlt⟩ := hrange.mp (of_decide_eq_true hc)
      rw [patch_inside (Nat.mod_lt a' hn) hle hlt, Write.apply_covers _ dflt hc,
        sub_eq_of_block hblock]
    | false =>
      have hout : ¬(a % n ≤ a' % n ∧ a' % n < a % n + values.length) :=
        fun hoff => of_decide_eq_false hc (hrange.mpr ⟨hblock, hoff⟩)
      rw [patch_outside (Nat.mod_lt a' hn) hout, Write.apply_frame _ hc,
        view_block (by rw [hblock, h])]
  · have hc : (Write.mk a values).covers a' = false :=
      decide_eq_false fun hin => hblock (hrange.mp hin).1
    rw [Write.apply_frame _ hc, view, view, List.getElem?_set_ne (Ne.symm hblock)]

theorem slice_length (hfit : o + m ≤ n) : (slice block o m).length = m := by
  rw [slice, List.length_take, List.length_drop, Vector.length_toList]
  omega

/-- What part of a block holds is what the store holds there. -/
theorem slice_eq (hn : 0 < n) (h : blocks[a / n]? = some block) (hfit : a % n + m ≤ n) :
    slice block (a % n) m = (extent a m).map (view dflt blocks) := by
  apply List.ext_getElem
  · rw [slice_length hfit, List.length_map, extent_length]
  · intro i hi _
    have him : i < m := slice_length hfit ▸ hi
    obtain ⟨hblock, hle, hlt⟩ :=
      (mem_range_iff hn hfit (a + i)).mp ⟨Nat.le_add_right a i, by omega⟩
    have hoff : (a + i) % n = a % n + i := by
      have hsub := sub_eq_of_block hblock
      omega
    have hin : a % n + i < n := by omega
    have hview : view dflt blocks (a + i) = block[a % n + i] := by
      rw [view_block (by rw [hblock, h]), hoff]
      simp [Vector.getD, hin]
    simp [slice, extent, hview]

/-! ## Slices -/

@[simp] theorem slice_zero (block : Vector B n) (o : Nat) : slice block o 0 = [] := List.take_zero

theorem slice_append (block : Vector B n) (o m k : Nat) :
    slice block o (m + k) = slice block o m ++ slice block (o + m) k := by
  rw [slice, slice, slice, List.take_add, List.drop_drop]

theorem slice_patch (hfit : o + values.length ≤ n) :
    slice (patch block o values) o values.length = values := by
  apply List.ext_getElem
  · exact slice_length hfit
  · intro i _ hi
    simp [slice, patch, hi]

theorem slice_patch_disjoint {o' : Nat} (h : o' + m ≤ o ∨ o + values.length ≤ o') :
    slice (patch block o values) o' m = slice block o' m := by
  apply List.ext_getElem
  · simp [slice]
  · intro i hi _
    have him : i < m := by
      have hlen := List.length_take_le m ((patch block o values).toList.drop o')
      exact Nat.lt_of_lt_of_le hi hlen
    have hout : ¬(o ≤ o' + i ∧ o' + i < o + values.length) := by omega
    simp [slice, patch, hout]

theorem slice_eq_map (hfit : o + m ≤ n) :
    slice block o m = (List.range m).map fun i => block.getD (o + i) dflt := by
  apply List.ext_getElem
  · rw [slice_length hfit, List.length_map, List.length_range]
  · intro i hi _
    have him : i < m := slice_length hfit ▸ hi
    have hin : o + i < n := by omega
    simp [slice, Vector.getD, hin]

/-! ## Writing piece by piece -/

@[simp] theorem patch_nil (block : Vector B n) (o : Nat) : patch block o [] = block := by
  apply Vector.ext
  intro i hi
  simp [patch]

theorem patch_append (block : Vector B n) (o : Nat) (values more : List B) :
    patch block o (values ++ more) = patch (patch block o values) (o + values.length) more := by
  apply Vector.ext
  intro i hi
  simp only [patch, Vector.getElem_ofFn, List.length_append]
  by_cases hfirst : o ≤ i ∧ i < o + values.length
  · have hnot : ¬(o + values.length ≤ i ∧ i < o + values.length + more.length) := by omega
    have hlt : i - o < values.length := by omega
    rw [if_pos (by omega), if_neg hnot, if_pos hfirst, List.getD_append _ _ _ _ hlt]
  · rw [if_neg hfirst]
    by_cases hsecond : o + values.length ≤ i ∧ i < o + values.length + more.length
    · have hoff : i - o - values.length = i - (o + values.length) := by omega
      rw [if_pos (by omega), if_pos hsecond, List.getD_append_right _ _ _ _ (by omega), hoff]
    · rw [if_neg (by omega), if_neg hsecond]

theorem patch_singleton (block : Vector B n) (o : Nat) (b : B) :
    patch block o [b] = block.setIfInBounds o b := by
  apply Vector.ext
  intro i hi
  simp only [patch, Vector.getElem_ofFn, List.length_singleton, Vector.getElem_setIfInBounds]
  by_cases h : o = i
  · subst h
    simp
  · rw [if_neg (by omega), if_neg h]

theorem foldl_setIfInBounds (block : Vector B n) (o : Nat) (f : Nat → B) (k : Nat) :
    (List.range k).foldl (fun b i => b.setIfInBounds (o + i) (f i)) block =
      patch block o ((List.range k).map f) := by
  induction k with
  | zero => exact (patch_nil block o).symm
  | succ k ih =>
    rw [List.range_succ, List.foldl_append, ih, List.map_append, patch_append, List.length_map,
      List.length_range]
    exact (patch_singleton _ _ _).symm

end LinuxDeviceDriver.Lib.Blocks
