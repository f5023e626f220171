/- source: examples/03_scull_basic/fops.c, lines 17 to 28 and 55 to 149
   digest: The blocks of scull are one flat file: a read returns what was last written, and no
     call leaves the blocks, until the block counter runs over. -/

import LinuxDeviceDriver.Drivers.Scull.Model

set_option autoImplicit false

namespace LinuxDeviceDriver.Drivers.Scull.File

open Lib.Blocks
open Lib.Extents
open Lib.LittleEndian (Byte)
open Lib.Transition (Steps Guarded exec exec_guarded_steps)
open CharFile (efault enomem erestartsys)
open Model

variable {pageShift : Nat}

/-- The bytes of the device, one after the other. -/
def content (dev : ScullDev pageShift) : Nat → Byte :=
  view 0 (dev.blockList.map ScullBlock.data)

/-- What the user sees of the device: the bytes of each position, as last written. -/
def fileContent (written : List (Write Byte)) : Nat → Byte := lastWritten 0 written

section Content

variable {dev : ScullDev pageShift} {pos : Nat} {buff : List Byte}

theorem content_extend (n : Nat) : content (dev.extend n) = content dev := by
  induction n with
  | zero => rw [extend_zero]
  | succ n ih =>
    have hlist : (dev.extend (n + 1)).blockList.map ScullBlock.data =
        (dev.extend n).blockList.map ScullBlock.data ++ [Vector.replicate _ 0] := by
      simp [ScullDev.extend, List.replicate_succ', ScullBlock.zeroed]
    rw [content, hlist, view_append_replicate (scullBlockSize_pos pageShift)]
    exact ih

theorem content_block {pblock : ScullBlock pageShift}
    (h : dev.blockList[pos / scullBlockSize pageShift]? = some pblock) :
    (dev.blockList.map ScullBlock.data)[pos / scullBlockSize pageShift]? = some pblock.data := by
  rw [List.getElem?_map, h]
  rfl

theorem content_written {pblock : ScullBlock pageShift}
    (h : dev.blockList[pos / scullBlockSize pageShift]? = some pblock) :
    content { dev with
        blockList := dev.blockList.set (pos / scullBlockSize pageShift)
          (writtenBlock pos buff pblock) } =
      (Write.mk pos (buff.take (writeCount pageShift pos buff))).apply (content dev) := by
  have hfit : pos % scullBlockSize pageShift +
      (buff.take (writeCount pageShift pos buff)).length ≤ scullBlockSize pageShift := by
    have hle := writeCount_fits pageShift pos buff
    rw [List.length_take]
    omega
  rw [content, List.map_set]
  exact view_set_patch (scullBlockSize_pos pageShift) (content_block h) hfit

end Content

/-! ## The invariant -/

structure Inv (r : ScullRun pageShift) : Prop where
  counted : Counted r.dev
  small : r.dev.blockList.length < 2 ^ 31
  filled : ∀ b ∈ r.dev.blockList, b.offset ≤ scullBlockSize pageShift
  flat : content r.dev = fileContent r.written

/-- The user's buffers can be reached, and the block counter has not run over. -/
def Ordinary (r : ScullRun pageShift) (e : ScullCall) : Prop :=
  e.conditions.reachable = none ∧ (scullNext r e).dev.blockList.length < 2 ^ 31

instance (r : ScullRun pageShift) (e : ScullCall) : Decidable (Ordinary r e) :=
  inferInstanceAs (Decidable (_ ∧ _))

theorem fileContent_append (written : List (Write Byte)) (w : Write Byte) :
    fileContent (written ++ [w]) = w.apply (fileContent written) := by
  funext a
  have hboth : (written ++ [w]).foldl Write.apply (fun _ => (0 : Byte)) =
      w.apply (written.foldl Write.apply fun _ => 0) := by
    rw [List.foldl_append]
    rfl
  have hold : written.foldl Write.apply (fun _ => (0 : Byte)) = fileContent written := by
    funext b
    exact foldl_apply 0 written b
  rw [fileContent, ← foldl_apply, hboth, hold]

theorem wrote_interrupted (pos : Nat) (buff : List Byte) :
    (Reply.ret (-erestartsys) [] pos).wrote pos buff = [] := rfl

theorem wrote_noMemory (pos : Nat) (buff : List Byte) :
    (Reply.ret (-enomem) [] pos).wrote pos buff = [] := rfl

theorem wrote_success (pos count : Nat) (buff : List Byte) :
    (Reply.ret count [] (pos + count)).wrote pos buff = [⟨pos, buff.take count⟩] := by
  simp [Reply.wrote]

/-- What an ordinary call leaves: a write may have got no further than adding blocks. -/
inductive Leaves (r : ScullRun pageShift) : ScullCall → ScullRun pageShift → Prop
  | same (e : ScullCall) : Leaves r e r
  | trimmed (c : Conditions) : Leaves r (.openFile true c) {}
  | extended (pos : Nat) (buff : List Byte) (c : Conditions) (n : Nat)
      (hsmall : (r.dev.extend n).blockList.length < 2 ^ 31) :
      Leaves r (.write pos buff c) ⟨r.dev.extend n, r.written⟩
  | stored (pos : Nat) (buff : List Byte) (c : Conditions) (n : Nat)
      (pblock : ScullBlock pageShift) (hsmall : (r.dev.extend n).blockList.length < 2 ^ 31)
      (hblock : (r.dev.extend n).blockList[pos / scullBlockSize pageShift]? = some pblock) :
      Leaves r (.write pos buff c)
        ⟨{ r.dev.extend n with
            blockList := (r.dev.extend n).blockList.set (pos / scullBlockSize pageShift)
              (writtenBlock pos buff pblock) },
          r.written ++ [⟨pos, buff.take (writeCount pageShift pos buff)⟩]⟩

theorem write_leaves {r : ScullRun pageShift} {pos : Nat} {buff : List Byte} {c : Conditions}
    (hcounted : Counted r.dev) (h : Ordinary r (.write pos buff c)) :
    Leaves r (.write pos buff c) (scullNext r (.write pos buff c)) := by
  have hcopy : c.reachable = none := h.1
  have hsmall : (scullWrite r.dev pos buff c).1.blockList.length < 2 ^ 31 := h.2
  have hwrote := scullWrite_wrote hcounted hcopy hsmall
  rw [scullNext]
  generalize scullWrite r.dev pos buff c = out at hwrote hsmall
  cases hwrote with
  | interrupted =>
    dsimp only
    rw [wrote_interrupted, List.append_nil]
    exact .same _
  | noMemory n =>
    dsimp only
    rw [wrote_noMemory, List.append_nil]
    exact .extended pos buff c n hsmall
  | done n pblock hblock =>
    dsimp only at hsmall ⊢
    rw [wrote_success]
    rw [List.length_set] at hsmall
    exact .stored pos buff c n pblock hsmall hblock

theorem next_leaves {r : ScullRun pageShift} {e : ScullCall} (hcounted : Counted r.dev)
    (h : Ordinary r e) : Leaves r e (scullNext r e) := by
  cases e with
  | openFile wronly c =>
    cases wronly with
    | false => exact .same _
    | true =>
      simp only [scullNext, scullOpen]
      cases c.signal with
      | true => exact .same _
      | false => exact .trimmed c
  | read pos count c => exact .same _
  | write pos buff c => exact write_leaves hcounted h

namespace Inv

variable {r r' : ScullRun pageShift} {pos : Nat} {buff : List Byte} {c : Conditions}

theorem empty : Inv ({} : ScullRun pageShift) where
  counted := rfl
  small := by simp
  filled := by simp
  flat := by
    funext a
    exact view_past (Nat.zero_le _)

/-- Zeroed blocks at the end of the list are nothing that was written. -/
theorem extend (hr : Inv r) (n : Nat) (hsmall : (r.dev.extend n).blockList.length < 2 ^ 31) :
    Inv ⟨r.dev.extend n, r.written⟩ where
  counted := hr.counted.extend n
  small := hsmall
  filled := by
    intro b hb
    rcases List.mem_append.mp hb with hb | hb
    · exact hr.filled b hb
    · rw [(List.mem_replicate.mp hb).2]
      exact Nat.zero_le _
  flat := (content_extend n).trans hr.flat

theorem stored (hr : Inv r) {pblock : ScullBlock pageShift}
    (hblock : r.dev.blockList[pos / scullBlockSize pageShift]? = some pblock) :
    Inv ⟨{ r.dev with
        blockList := r.dev.blockList.set (pos / scullBlockSize pageShift)
          (writtenBlock pos buff pblock) },
      r.written ++ [⟨pos, buff.take (writeCount pageShift pos buff)⟩]⟩ where
  counted := by
    rw [Counted, List.length_set]
    exact hr.counted
  small := by
    rw [List.length_set]
    exact hr.small
  filled := by
    intro b hb
    rcases List.mem_or_eq_of_mem_set hb with hb | rfl
    · exact hr.filled b hb
    · exact max_le (hr.filled pblock (List.mem_of_getElem? hblock))
        (writeCount_fits pageShift pos buff)
  flat := by
    rw [content_written hblock, hr.flat, fileContent_append]

theorem step (hr : Inv r) {e : ScullCall} (h : Ordinary r e) : Inv (scullNext r e) := by
  have hleaves := next_leaves hr.counted h
  generalize scullNext r e = r' at hleaves ⊢
  cases hleaves with
  | same => exact hr
  | trimmed => exact Inv.empty
  | extended pos buff c n hsmall => exact hr.extend n hsmall
  | stored pos buff c n pblock hsmall hblock => exact (hr.extend n hsmall).stored hblock

/-- A read stays inside the block, and returns what the file holds. -/
theorem read (hr : Inv r) (pos count : Nat) (c : Conditions) :
    ∃ value data pos', scullRead r.dev pos count c = .ret value data pos' ∧
      (0 ≤ value → value = data.length) ∧
      data = (extent pos data.length).map (fileContent r.written) := by
  unfold scullRead
  dsimp only
  split
  · exact ⟨_, [], pos, rfl, by decide, rfl⟩
  · rw [scullGetBlock_eq]
    split
    · exact ⟨0, [], pos, rfl, fun _ => rfl, rfl⟩
    · next pblock hblock =>
      split
      · exact ⟨0, [], pos, rfl, fun _ => rfl, rfl⟩
      · next hlt =>
        have hfilled := hr.filled pblock (List.mem_of_getElem? hblock)
        have hfit : pos % scullBlockSize pageShift +
            min count (pblock.offset - pos % scullBlockSize pageShift) ≤
              scullBlockSize pageShift := by omega
        rw [if_neg (by omega)]
        split
        · exact ⟨_, [], pos, rfl, by decide, rfl⟩
        · have hlen : (slice pblock.data _ _).length = _ := slice_length hfit
          refine ⟨_, _, _, rfl, fun _ => by rw [hlen], ?_⟩
          rw [hlen, slice_eq (scullBlockSize_pos pageShift) (content_block hblock) hfit, ← hr.flat]
          rfl

end Inv

/-- Blocks of four bytes: a write that is cut at the block's end, a failed allocation, and a
trim. -/
def sampleCalls : List ScullCall :=
  [.openFile true {}, .write 0 [7#8] { blocks := 1 }, .openFile true {},
    .write 6 [1#8, 2#8, 3#8] { blocks := 2 }, .write 16 [4#8] { blocks := 1 }]

/-- A position this far behind takes every block that can be had, up to 2^31. -/
theorem growBlocks_all {tblock : Nat} (htblock : 2 ^ 31 ≤ tblock) (blocks : Nat)
    (dev : ScullDev pageShift) (hcounted : Counted dev)
    (hblocks : dev.blockList.length + blocks ≤ 2 ^ 31) :
    growBlocks tblock blocks dev = (dev.extend blocks,
      !decide (tblock + 1 > ((dev.extend blocks).blockCounter.signExtend 64).toNat)) := by
  induction blocks generalizing dev with
  | zero => rw [growBlocks, extend_zero]
  | succ blocks ih =>
    have hmore : tblock + 1 > (dev.blockCounter.signExtend 64).toNat := by
      rw [hcounted.signExtend (by omega)]
      omega
    rw [growBlocks, if_pos hmore, ih, extend_succ]
    · show dev.blockCounter + 1 = _
      rw [hcounted, List.length_append, BitVec.ofNat_add]
      rfl
    · rw [List.length_append, List.length_singleton]
      omega

/-- As an unsigned long the counter after 2^31 blocks is larger than any block number. -/
theorem overrun_counter {n : Nat} (hn : n = 2 ^ 31) :
    ((({} : ScullDev pageShift).extend n).blockCounter.signExtend 64).toNat = 2 ^ 64 - 2 ^ 31 := by
  have hcounter : (({} : ScullDev pageShift).extend n).blockCounter = 0x80000000#32 := by
    show 0 + BitVec.ofNat 32 n = _
    rw [hn]
    decide
  rw [hcounter]
  decide

theorem scullWrite_overrun {tblock n : Nat} (hn : n = 2 ^ 31) (hle : n ≤ tblock)
    (hlt : tblock < 2 ^ 63) (buff : List Byte) :
    (scullWrite ({} : ScullDev pageShift) (tblock * scullBlockSize pageShift) buff
      { blocks := n }).2 = .nullPointer := by
  have hgrown : growBlocks tblock n ({} : ScullDev pageShift) = (ScullDev.extend {} n, true) := by
    rw [growBlocks_all (hn ▸ hle) n {} rfl (by simp [hn]), overrun_counter hn]
    rw [decide_eq_false (by omega)]
    rfl
  have hlookup : (ScullDev.extend ({} : ScullDev pageShift) n).blockList[tblock]? = none := by
    rw [List.getElem?_eq_none]
    simpa [ScullDev.extend] using hle
  unfold scullWrite
  dsimp only
  rw [Nat.mul_div_cancel _ (scullBlockSize_pos pageShift), hgrown, scullGetBlock_eq, hlookup]
  rfl

end LinuxDeviceDriver.Drivers.Scull.File
