/- source: examples/03_scull_basic/fops.c, lines 55 to 136; README.md, lines 3 to 7
   digest: Where scull's file ends: at the last byte written, if no write leaves a block behind it
     that is not full. -/

import LinuxDeviceDriver.Drivers.Scull.File

set_option autoImplicit false

namespace LinuxDeviceDriver.Drivers.Scull.FileSize

open Lib.Blocks
open Lib.Extents
open Lib.LittleEndian (Byte)
open Lib.Transition (Steps Guarded)
open Model File

variable {pageShift : Nat}

/-- The largest end position written. -/
def fileEnd : List (Write Byte) → Nat
  | [] => 0
  | w :: ws => max (w.offset + w.values.length) (fileEnd ws)

theorem fileEnd_append (ws : List (Write Byte)) (w : Write Byte) :
    fileEnd (ws ++ [w]) = max (fileEnd ws) (w.offset + w.values.length) := by
  induction ws with
  | nil => exact Nat.max_comm _ _
  | cons v ws ih => rw [List.cons_append, fileEnd, fileEnd, ih, Nat.max_assoc]

/-- A reader that goes on until a read returns 0, with any count at each position. -/
def readAll (dev : ScullDev pageShift) (counts : Nat → Nat) : Nat → Nat → Option (List Byte)
  | 0, _ => none
  | fuel + 1, pos =>
    match scullRead dev pos (counts pos) {} with
    | .ret value data pos' =>
      if value = 0 then some [] else (readAll dev counts fuel pos').map (data ++ ·)
    | _ => none

/-- A write goes to the block in which the file ends, or to an earlier one. -/
def Contiguous (r : ScullRun pageShift) (pos : Nat) : Prop :=
  pos / scullBlockSize pageShift ≤ fileEnd r.written / scullBlockSize pageShift

instance (r : ScullRun pageShift) (pos : Nat) : Decidable (Contiguous r pos) :=
  inferInstanceAs (Decidable (_ ≤ _))

/-- No write is empty, and none leaves a block out. -/
def NoGap (r : ScullRun pageShift) (e : ScullCall) : Prop :=
  Ordinary r e ∧
    match e with
    | .write pos buff _ => buff ≠ [] ∧ Contiguous r pos
    | _ => True

/-! ## The invariant -/

/-- Each block holds as much of the file as lies in it. -/
structure Sized (r : ScullRun pageShift) : Prop where
  inv : Inv r
  filled : ∀ (i : Nat) (b : ScullBlock pageShift), r.dev.blockList[i]? = some b →
    b.offset = min (scullBlockSize pageShift) (fileEnd r.written - i * scullBlockSize pageShift)
  covered : fileEnd r.written ≤ r.dev.blockList.length * scullBlockSize pageShift

namespace Sized

variable {r : ScullRun pageShift} {pos count : Nat} {buff : List Byte} {c : Conditions}

theorem empty : Sized ({} : ScullRun pageShift) where
  inv := Inv.empty
  filled := by simp
  covered := Nat.zero_le _

theorem extend (hr : Sized r) (n : Nat) (hsmall : (r.dev.extend n).blockList.length < 2 ^ 31) :
    Sized ⟨r.dev.extend n, r.written⟩ where
  inv := hr.inv.extend n hsmall
  filled := by
    intro i b hb
    have hcovered := hr.covered
    rcases Nat.lt_or_ge i r.dev.blockList.length with hlt | hge
    · rw [ScullDev.extend, List.getElem?_append_left hlt] at hb
      exact hr.filled i b hb
    · -- a new block is empty, and the file ends before it
      rw [ScullDev.extend, List.getElem?_append_right hge] at hb
      have hpast := Nat.mul_le_mul_right (scullBlockSize pageShift) hge
      rw [(List.mem_replicate.mp (List.mem_of_getElem? hb)).2]
      show 0 = min (scullBlockSize pageShift) (fileEnd r.written - i * scullBlockSize pageShift)
      omega
  covered := by
    refine hr.covered.trans (Nat.mul_le_mul_right _ ?_)
    rw [ScullDev.extend, List.length_append]
    exact Nat.le_add_right _ _

theorem stored (hr : Sized r) {pblock : ScullBlock pageShift}
    (hblock : r.dev.blockList[pos / scullBlockSize pageShift]? = some pblock)
    (hcontiguous : Contiguous r pos) :
    Sized ⟨{ r.dev with
        blockList := r.dev.blockList.set (pos / scullBlockSize pageShift)
          (writtenBlock pos buff pblock) },
      r.written ++ [⟨pos, buff.take (writeCount pageShift pos buff)⟩]⟩ := by
  have hend : fileEnd (r.written ++ [⟨pos, buff.take (writeCount pageShift pos buff)⟩]) =
      max (fileEnd r.written) (pos + writeCount pageShift pos buff) := by
    rw [fileEnd_append, List.length_take]
    congr 2
    unfold writeCount
    omega
  have hfits := writeCount_fits pageShift pos buff
  have hpos := Nat.div_add_mod pos (scullBlockSize pageShift)
  have hlt : pos / scullBlockSize pageShift < r.dev.blockList.length :=
    (List.getElem?_eq_some_iff.mp hblock).1
  have hlast : scullBlockSize pageShift * (pos / scullBlockSize pageShift) ≤ fileEnd r.written :=
    (Nat.mul_le_mul_left _ hcontiguous).trans (Nat.mul_div_le _ _)
  refine ⟨hr.inv.stored hblock, ?_, ?_⟩
  · intro i b hb
    dsimp only at hb ⊢
    rw [hend]
    rcases Nat.lt_trichotomy i (pos / scullBlockSize pageShift) with hi | rfl | hi
    · -- an earlier block was full already
      rw [List.getElem?_set_ne (by omega)] at hb
      have hfull := Nat.mul_le_mul_left (scullBlockSize pageShift) (Nat.succ_le_of_lt hi)
      rw [Nat.mul_succ] at hfull
      rw [hr.filled i b hb, Nat.mul_comm i]
      omega
    · rw [List.getElem?_set_self hlt] at hb
      obtain rfl := Option.some.inj hb
      rw [writtenBlock, hr.filled _ pblock hblock, Nat.mul_comm (pos / _)]
      dsimp only
      omega
    · -- a later one lies behind what was written
      rw [List.getElem?_set_ne (by omega)] at hb
      have hbehind := Nat.mul_le_mul_left (scullBlockSize pageShift) (Nat.succ_le_of_lt hi)
      rw [Nat.mul_succ] at hbehind
      rw [hr.filled i b hb, Nat.mul_comm i]
      omega
  · have hcovered := hr.covered
    have hin := Nat.mul_le_mul_left (scullBlockSize pageShift) (Nat.succ_le_of_lt hlt)
    rw [Nat.mul_succ] at hin
    rw [hend, List.length_set, Nat.mul_comm]
    rw [Nat.mul_comm] at hcovered
    omega

theorem step (hr : Sized r) {e : ScullCall} (h : NoGap r e) : Sized (scullNext r e) := by
  have hleaves := next_leaves hr.inv.counted h.1
  generalize scullNext r e = r' at hleaves ⊢
  cases hleaves with
  | same => exact hr
  | trimmed => exact Sized.empty
  | extended pos buff c n hsmall => exact hr.extend n hsmall
  | stored pos buff c n pblock hsmall hblock =>
    exact (hr.extend n hsmall).stored hblock h.2.2

/-- At the end of the file and behind it there is nothing to read. -/
theorem read_end (hr : Sized r) (hpos : fileEnd r.written ≤ pos) :
    scullRead r.dev pos count {} = .ret 0 [] pos := by
  unfold scullRead
  dsimp only
  rw [if_neg (by simp), scullGetBlock_eq]
  split
  · rfl
  · next pblock hblock =>
    have hdiv := Nat.div_add_mod pos (scullBlockSize pageShift)
    have hfilled := hr.filled _ pblock hblock
    rw [Nat.mul_comm] at hfilled
    rw [if_pos (by omega)]

/-- Before the end of the file there is something to read. -/
theorem read_before_end (hr : Sized r) (hpos : pos < fileEnd r.written) (hcount : 0 < count) :
    ∃ n, 0 < n ∧ n ≤ count ∧ pos + n ≤ fileEnd r.written ∧
      scullRead r.dev pos count {} =
        .ret n ((extent pos n).map (lastWritten 0 r.written)) (pos + n) := by
  have hn := scullBlockSize_pos pageShift
  have hdiv := Nat.div_add_mod pos (scullBlockSize pageShift)
  have hmod := Nat.mod_lt pos hn
  have hlt : pos / scullBlockSize pageShift < r.dev.blockList.length := by
    rw [Nat.div_lt_iff_lt_mul hn]
    exact hpos.trans_le hr.covered
  have hblock := List.getElem?_eq_getElem hlt
  have hfilled := hr.filled _ _ hblock
  rw [Nat.mul_comm] at hfilled
  refine ⟨min count ((r.dev.blockList[pos / scullBlockSize pageShift]).offset -
    pos % scullBlockSize pageShift), by omega, by omega, by omega, ?_⟩
  unfold scullRead
  dsimp only
  rw [if_neg (by simp), scullGetBlock_eq, hblock]
  dsimp only
  rw [if_neg (by omega), if_neg (by omega), if_neg (by simp [Conditions.uncopied]),
    slice_eq hn (content_block hblock) (by omega)]
  have hflat := hr.inv.flat
  rw [content] at hflat
  rw [hflat]
  rfl

/-- The reader gets the file from its position to the end. -/
theorem readAll_eq (hr : Sized r) {counts : Nat → Nat} (hcounts : ∀ p, 0 < counts p) (fuel : Nat)
    (pos : Nat) (hpos : pos ≤ fileEnd r.written) (hfuel : fileEnd r.written - pos < fuel) :
    readAll r.dev counts fuel pos =
      some ((extent pos (fileEnd r.written - pos)).map (lastWritten 0 r.written)) := by
  induction fuel generalizing pos with
  | zero => omega
  | succ fuel ih =>
    rcases Nat.lt_or_ge pos (fileEnd r.written) with hlt | hge
    · obtain ⟨n, hn, -, hle, hread⟩ := hr.read_before_end hlt (hcounts pos)
      have hsplit : fileEnd r.written - pos = n + (fileEnd r.written - (pos + n)) := by omega
      rw [readAll, hread]
      dsimp only
      rw [if_neg (by omega), ih (pos + n) hle (by omega), hsplit, extent_append, List.map_append]
      rfl
    · have hzero : fileEnd r.written - pos = 0 := by omega
      rw [readAll, hr.read_end hge, hzero]
      rfl

end Sized

/-- Blocks of four bytes, the first written out of order and the second from its second byte
on. -/
def scattered : List ScullCall :=
  [.write 1 [1#8, 2#8] { blocks := 1 }, .write 0 [9#8] {}, .write 3 [8#8] {},
    .write 5 [5#8] { blocks := 1 }]

end LinuxDeviceDriver.Drivers.Scull.FileSize
