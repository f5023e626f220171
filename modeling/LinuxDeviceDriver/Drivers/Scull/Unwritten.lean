/- source: examples/03_scull_basic/fops.c, lines 17 to 28 and 55 to 136
   digest: What a write that fails, or that writes nothing, leaves behind: blocks that nobody sees,
     unless it has also stored bytes or moved the fill level of a block. -/

import LinuxDeviceDriver.Drivers.Scull.Model
import LinuxDeviceDriver.Lib.Replies

set_option autoImplicit false

namespace LinuxDeviceDriver.Drivers.Scull.Unwritten

open Lib.Blocks (patch patch_nil slice slice_patch)
open Lib.LittleEndian (Byte)
open Lib.Replies
open CharFile (efault enomem erestartsys)
open Model

variable {pageShift : Nat}

/-! ## The block list, also when its counter has run over -/

/-- The counter counts the blocks, and once it is negative no block is added any more. -/
structure Numbered (dev : ScullDev pageShift) : Prop where
  counted : Counted dev
  limit : dev.blockList.length ≤ 2 ^ 31

/-- How many blocks a write to a block has to add. -/
def missing (dev : ScullDev pageShift) (tblock : Nat) : Nat :=
  min (tblock + 1) (2 ^ 31) - dev.blockList.length

/-- The block as a write finds it: one that it has to add is zeroed. -/
def blockAt (dev : ScullDev pageShift) (tblock : Nat) : ScullBlock pageShift :=
  (dev.blockList[tblock]?).getD .zeroed

section Grow

variable {dev : ScullDev pageShift} {tblock n m : Nat}

@[simp] theorem extend_length (dev : ScullDev pageShift) (n : Nat) :
    (dev.extend n).blockList.length = dev.blockList.length + n := by
  rw [ScullDev.extend, List.length_append, List.length_replicate]

theorem extend_extend (dev : ScullDev pageShift) (n m : Nat) :
    (dev.extend n).extend m = dev.extend (n + m) := by
  simp only [ScullDev.extend, List.append_assoc, List.replicate_append_replicate, BitVec.ofNat_add,
    BitVec.add_assoc]

theorem blockAt_extend (dev : ScullDev pageShift) (n tblock : Nat) :
    blockAt (dev.extend n) tblock = blockAt dev tblock := by
  unfold blockAt ScullDev.extend
  dsimp only
  rcases Nat.lt_or_ge tblock dev.blockList.length with hlt | hge
  · rw [List.getElem?_append_left hlt]
  · rw [List.getElem?_append_right hge, List.getElem?_eq_none hge, List.getElem?_replicate]
    split <;> rfl

theorem blockAt_of_lt (h : tblock < dev.blockList.length) :
    dev.blockList[tblock]? = some (blockAt dev tblock) := by
  rw [blockAt, List.getElem?_eq_getElem h, Option.getD_some]

theorem Numbered.extend (h : Numbered dev) (hle : dev.blockList.length + n ≤ 2 ^ 31) :
    Numbered (dev.extend n) :=
  ⟨h.counted.extend n, by rw [extend_length]; exact hle⟩

theorem Numbered.over (h : Numbered dev) (hfull : dev.blockList.length = 2 ^ 31) :
    (dev.blockCounter.signExtend 64).toNat = 2 ^ 64 - 2 ^ 31 := by
  rw [h.counted, hfull]
  decide

theorem Numbered.grows_iff (h : Numbered dev) (htblock : tblock < 2 ^ 63) :
    tblock + 1 > (dev.blockCounter.signExtend 64).toNat ↔ 0 < missing dev tblock := by
  have hlimit := h.limit
  unfold missing
  rcases Nat.lt_or_eq_of_le hlimit with hlt | heq
  · rw [h.counted.signExtend hlt]
    omega
  · rw [h.over heq]
    omega

/-- The loop adds the blocks that are missing, as far as memory goes. -/
theorem growBlocks_eq (h : Numbered dev) (htblock : tblock < 2 ^ 63) (blocks : Nat) :
    growBlocks tblock blocks dev =
      (dev.extend (min blocks (missing dev tblock)), decide (missing dev tblock ≤ blocks)) := by
  induction blocks generalizing dev with
  | zero =>
    rw [growBlocks, Nat.zero_min, extend_zero]
    congr 1
    rw [← decide_not]
    exact decide_eq_decide.mpr (by rw [h.grows_iff htblock]; omega)
  | succ blocks ih =>
    rw [growBlocks]
    split
    · next hgrow =>
      have hmissing := (h.grows_iff htblock).mp hgrow
      have hone : missing (dev.extend 1) tblock = missing dev tblock - 1 := by
        unfold missing
        rw [extend_length]
        omega
      have hnext : Numbered (dev.extend 1) := by
        apply h.extend
        unfold missing at hmissing
        omega
      have hsplit : 1 + min blocks (missing dev tblock - 1) =
          min (blocks + 1) (missing dev tblock) := by
        omega
      have hdecide : decide (missing dev tblock - 1 ≤ blocks) =
          decide (missing dev tblock ≤ blocks + 1) := decide_eq_decide.mpr (by omega)
      have hstep := ih hnext
      rw [hone, extend_extend, hsplit, hdecide] at hstep
      exact hstep
    · next henough =>
      have hnone : missing dev tblock = 0 := by
        rw [h.grows_iff htblock] at henough
        omega
      rw [hnone, Nat.min_zero, extend_zero, decide_eq_true (Nat.zero_le _)]

end Grow

/-! ## What a write can come to -/

/-- The device with another block in the place of one. -/
def put (dev : ScullDev pageShift) (tblock : Nat) (pblock : ScullBlock pageShift) :
    ScullDev pageShift :=
  { dev with blockList := dev.blockList.set tblock pblock }

/-- What copy_from_user stores in a block, whether or not it could fetch everything. -/
def stored (pageShift pos : Nat) (buff : List Byte) (c : Conditions) : List Byte :=
  let left := c.uncopied (writeCount pageShift pos buff)
  buff.take (writeCount pageShift pos buff - left) ++ List.replicate left 0

/-- The data of a block after that. -/
def copied (pos : Nat) (buff : List Byte) (c : Conditions) (pblock : ScullBlock pageShift) :
    ScullBlock pageShift :=
  { pblock with
    data := patch pblock.data (pos % scullBlockSize pageShift) (stored pageShift pos buff c) }

/-- The outcomes of a write, with what decides between them. -/
inductive Outcome (dev : ScullDev pageShift) (pos : Nat) (buff : List Byte) (c : Conditions) :
    ScullDev pageShift × Reply → Prop
  | interrupted (hsignal : c.signal = true) :
      Outcome dev pos buff c (dev, .ret (-erestartsys) [] pos)
  | noMemory (hblocks : c.blocks < missing dev (pos / scullBlockSize pageShift)) :
      Outcome dev pos buff c (dev.extend c.blocks, .ret (-enomem) [] pos)
  | nullPointer (hover : 2 ^ 31 ≤ pos / scullBlockSize pageShift) :
      Outcome dev pos buff c
        (dev.extend (missing dev (pos / scullBlockSize pageShift)), .nullPointer)
  | faulted (hcopy : c.uncopied (writeCount pageShift pos buff) ≠ 0) :
      Outcome dev pos buff c
        (put (dev.extend (missing dev (pos / scullBlockSize pageShift)))
            (pos / scullBlockSize pageShift)
            (copied pos buff c (blockAt dev (pos / scullBlockSize pageShift))),
          .ret (-efault) [] pos)
  | done (hcopy : c.uncopied (writeCount pageShift pos buff) = 0)
      (hblock : pos / scullBlockSize pageShift <
        dev.blockList.length + missing dev (pos / scullBlockSize pageShift)) :
      Outcome dev pos buff c
        (put (dev.extend (missing dev (pos / scullBlockSize pageShift)))
            (pos / scullBlockSize pageShift)
            (writtenBlock pos buff (blockAt dev (pos / scullBlockSize pageShift))),
          .ret (writeCount pageShift pos buff) [] (pos + writeCount pageShift pos buff))

section Write

variable {dev : ScullDev pageShift} {pos : Nat} {buff : List Byte} {c : Conditions}

theorem storeUser_faulted (hcopy : c.uncopied (writeCount pageShift pos buff) ≠ 0)
    (pblock : ScullBlock pageShift) :
    storeUser dev pos buff c pblock =
      (put dev (pos / scullBlockSize pageShift) (copied pos buff c pblock),
        .ret (-efault) [] pos) := by
  have hfits := writeCount_fits pageShift pos buff
  unfold storeUser
  dsimp only
  rw [← writeCount, if_neg (by omega), if_pos hcopy]
  rfl

theorem storeUser_done (hcopy : c.uncopied (writeCount pageShift pos buff) = 0)
    (pblock : ScullBlock pageShift) :
    storeUser dev pos buff c pblock =
      (put dev (pos / scullBlockSize pageShift) (writtenBlock pos buff pblock),
        .ret (writeCount pageShift pos buff) [] (pos + writeCount pageShift pos buff)) := by
  have hfits := writeCount_fits pageShift pos buff
  unfold storeUser
  dsimp only
  rw [← writeCount, if_neg (by omega), hcopy, if_neg (not_not.mpr rfl), Nat.sub_zero,
    List.replicate_zero, List.append_nil]
  rfl

theorem scullWrite_outcome (h : Numbered dev) (hpos : pos < 2 ^ 63) :
    Outcome dev pos buff c (scullWrite dev pos buff c) := by
  have htblock : pos / scullBlockSize pageShift < 2 ^ 63 :=
    Nat.lt_of_le_of_lt (Nat.div_le_self _ _) hpos
  unfold scullWrite
  dsimp only
  rw [growBlocks_eq h htblock]
  split
  · next hsignal => exact .interrupted hsignal
  · split
    · next hnone =>
      have hblocks : c.blocks < missing dev (pos / scullBlockSize pageShift) := by
        simpa using hnone
      rw [Nat.min_eq_left (Nat.le_of_lt hblocks)]
      exact .noMemory hblocks
    · next hall =>
      have hblocks : missing dev (pos / scullBlockSize pageShift) ≤ c.blocks := by
        simpa using hall
      rw [Nat.min_eq_right hblocks, scullGetBlock_eq]
      split
      · next hnone =>
        refine .nullPointer ?_
        rw [List.getElem?_eq_none_iff, extend_length] at hnone
        unfold missing at hnone
        omega
      · next pblock hsome =>
        have hlt := (List.getElem?_eq_some_iff.mp hsome).1
        rw [blockAt_of_lt hlt, blockAt_extend] at hsome
        obtain rfl := Option.some.inj hsome
        rw [extend_length] at hlt
        by_cases hcopy : c.uncopied (writeCount pageShift pos buff) = 0
        · rw [storeUser_done hcopy]
          exact .done hcopy hlt
        · rw [storeUser_faulted hcopy]
          exact .faulted hcopy

theorem Numbered.grown (h : Numbered dev) (tblock : Nat) :
    dev.blockList.length + missing dev tblock ≤ 2 ^ 31 := by
  have hlimit := h.limit
  unfold missing
  omega

theorem Numbered.put (h : Numbered dev) (tblock : Nat) (pblock : ScullBlock pageShift) :
    Numbered (put dev tblock pblock) := by
  have hlen : (Unwritten.put dev tblock pblock).blockList.length = dev.blockList.length :=
    List.length_set
  refine ⟨?_, ?_⟩
  · show dev.blockCounter = _
    rw [hlen]
    exact h.counted
  · rw [hlen]
    exact h.limit

end Write

/-! ## Devices that differ in blocks that nobody has written to -/

/-- The one device is the other with more zeroed blocks behind. -/
structure Extends (a b : ScullDev pageShift) : Prop where
  numbered : Numbered b
  extra : ∃ n, a = b.extend n ∧ b.blockList.length + n ≤ 2 ^ 31

section Alike

variable {dev a b : ScullDev pageShift} {pos count tblock : Nat} {buff : List Byte}
variable {c c' : Conditions}

/-- A block that is not there reads as one that has nothing in it. -/
theorem scullRead_blockAt (dev : ScullDev pageShift) (pos count : Nat) (c : Conditions) :
    scullRead dev pos count c =
      scullRead ⟨0, List.replicate (pos / scullBlockSize pageShift + 1)
        (blockAt dev (pos / scullBlockSize pageShift))⟩ pos count c := by
  unfold scullRead
  dsimp only
  rw [scullGetBlock_eq, scullGetBlock_eq, List.getElem?_replicate, if_pos (Nat.lt_succ_self _)]
  split
  · rfl
  · unfold blockAt
    cases dev.blockList[pos / scullBlockSize pageShift]? with
    | none =>
      rw [Option.getD_none]
      exact (if_pos (Nat.zero_le _)).symm
    | some pblock => rfl

theorem Extends.blockAt (h : Extends a b) (tblock : Nat) : blockAt a tblock = blockAt b tblock := by
  obtain ⟨n, rfl, -⟩ := h.extra
  exact blockAt_extend b n tblock

theorem Extends.left (h : Extends a b) : Numbered a := by
  obtain ⟨n, rfl, hn⟩ := h.extra
  exact h.numbered.extend hn

theorem Extends.read (h : Extends a b) : scullRead a pos count c = scullRead b pos count c := by
  rw [scullRead_blockAt a, scullRead_blockAt b, h.blockAt]

theorem put_extend (hlt : tblock < dev.blockList.length) (n : Nat) (pblock : ScullBlock pageShift) :
    put (dev.extend n) tblock pblock = (put dev tblock pblock).extend n := by
  unfold put ScullDev.extend
  dsimp only
  rw [List.set_append_left _ _ hlt]

theorem Extends.put (h : Extends a b) (pblock : ScullBlock pageShift)
    (hlt : tblock < b.blockList.length + missing b tblock) :
    Extends (put (a.extend (missing a tblock)) tblock pblock)
      (put (b.extend (missing b tblock)) tblock pblock) := by
  obtain ⟨n, rfl, hn⟩ := h.extra
  have hgrown := h.numbered.grown tblock
  refine ⟨(h.numbered.extend hgrown).put tblock pblock, n + missing (b.extend n) tblock -
    missing b tblock, ?_, ?_⟩
  · have hmore : missing b tblock ≤ n + missing (b.extend n) tblock := by
      unfold missing
      rw [extend_length]
      omega
    have hsum : n + missing (b.extend n) tblock =
        missing b tblock + (n + missing (b.extend n) tblock - missing b tblock) := by omega
    rw [← put_extend (by rw [extend_length]; exact hlt), extend_extend, extend_extend, ← hsum]
  · have hlen : (Unwritten.put (b.extend (missing b tblock)) tblock pblock).blockList.length =
        b.blockList.length + missing b tblock := by
      rw [Unwritten.put, List.length_set, extend_length]
    have hother := h.left.grown tblock
    rw [extend_length] at hother
    rw [hlen]
    omega

end Alike

/-! ## Runs -/

/-- Positions are a loff_t, and not negative. -/
def Positioned : ScullCall → Prop
  | .openFile _ _ => True
  | .read pos _ _ | .write pos _ _ => pos < 2 ^ 63

theorem Numbered.write {dev : ScullDev pageShift} {pos : Nat} {buff : List Byte} {c : Conditions}
    (h : Numbered dev) (hpos : pos < 2 ^ 63) : Numbered (scullWrite dev pos buff c).1 := by
  have hgrown := h.extend (h.grown (pos / scullBlockSize pageShift))
  have houtcome : Outcome dev pos buff c (scullWrite dev pos buff c) := scullWrite_outcome h hpos
  generalize scullWrite dev pos buff c = out at houtcome
  cases houtcome with
  | interrupted => exact h
  | noMemory hblocks =>
    have hle := h.grown (pos / scullBlockSize pageShift)
    exact h.extend (by omega)
  | nullPointer => exact hgrown
  | faulted => exact hgrown.put _ _
  | done => exact hgrown.put _ _

theorem Numbered.next {r : ScullRun pageShift} (h : Numbered r.dev) {e : ScullCall}
    (he : Positioned e) : Numbered (scullNext r e).dev := by
  have hempty : Numbered (⟨0, []⟩ : ScullDev pageShift) := ⟨rfl, Nat.zero_le _⟩
  cases e with
  | openFile wronly c =>
    show Numbered (scullOpen r.dev wronly c).1
    unfold scullOpen
    split
    · split
      · exact h
      · exact hempty
    · exact h
  | read pos count c => exact h
  | write pos buff c => exact h.write he

theorem Numbered.run (calls : List ScullCall) (hcalls : ∀ e ∈ calls, Positioned e)
    {r : ScullRun pageShift} (h : Numbered r.dev) : Numbered (calls.foldl scullNext r).dev := by
  induction calls generalizing r with
  | nil => exact h
  | cons e calls ih =>
    exact ih (fun e' he' => hcalls e' (List.mem_cons_of_mem e he'))
      (h.next (hcalls e List.mem_cons_self))

def Succeeded : Reply → Prop
  | .ret value _ _ => 0 ≤ value
  | .nullPointer | .outOfBounds => False

def Failed : Reply → Prop
  | .ret value _ _ => value < 0
  | .nullPointer | .outOfBounds => False

instance : DecidablePred Succeeded
  | .ret value _ _ => inferInstanceAs (Decidable (0 ≤ value))
  | .nullPointer | .outOfBounds => inferInstanceAs (Decidable False)

instance : DecidablePred Failed
  | .ret value _ _ => inferInstanceAs (Decidable (value < 0))
  | .nullPointer | .outOfBounds => inferInstanceAs (Decidable False)

/-- A call that comes later. What the kernel does in a write may not be the same after the earlier
call and without it, since that call may have used memory. -/
inductive Later
  | read (pos count : Nat) (c : Conditions)
  | write (pos : Nat) (buff : List Byte) (c without : Conditions)

/-- The later calls after the earlier one. -/
def laterAfter (dev : ScullDev pageShift) : Later → ScullDev pageShift × Reply
  | .read pos count c => (dev, scullRead dev pos count c)
  | .write pos buff c _ => scullWrite dev pos buff c

/-- The later calls without the earlier one. -/
def laterWithout (dev : ScullDev pageShift) : Later → ScullDev pageShift × Reply
  | .read pos count c => (dev, scullRead dev pos count c)
  | .write pos buff _ c => scullWrite dev pos buff c

/-- The writes among the later calls succeed. -/
def Expected : Later → Reply → Prop
  | .read _ _ _, _ => True
  | .write pos _ _ _, reply => pos < 2 ^ 63 ∧ Succeeded reply

section Later

variable {dev a b : ScullDev pageShift} {pos : Nat} {buff : List Byte} {c : Conditions}

theorem Outcome.succeeded {out : ScullDev pageShift × Reply} (h : Outcome dev pos buff c out)
    (hok : Succeeded out.2) :
    pos / scullBlockSize pageShift <
        dev.blockList.length + missing dev (pos / scullBlockSize pageShift) ∧
      out = (put (dev.extend (missing dev (pos / scullBlockSize pageShift)))
          (pos / scullBlockSize pageShift)
          (writtenBlock pos buff (blockAt dev (pos / scullBlockSize pageShift))),
        .ret (writeCount pageShift pos buff) [] (pos + writeCount pageShift pos buff)) := by
  cases h with
  | interrupted => exact absurd hok (show ¬ (0 : Int) ≤ -erestartsys by decide)
  | noMemory => exact absurd hok (show ¬ (0 : Int) ≤ -enomem by decide)
  | nullPointer => exact hok.elim
  | faulted => exact absurd hok (show ¬ (0 : Int) ≤ -efault by decide)
  | done _ hblock => exact ⟨hblock, rfl⟩

theorem Extends.later (h : Extends a b) (e : Later) (ha : Expected e (laterAfter a e).2)
    (hb : Expected e (laterWithout b e).2) :
    Extends (laterAfter a e).1 (laterWithout b e).1 ∧ (laterAfter a e).2 = (laterWithout b e).2 := by
  cases e with
  | read pos count c => exact ⟨h, h.read⟩
  | write pos buff c without =>
    obtain ⟨-, houta⟩ := (scullWrite_outcome h.left ha.1).succeeded ha.2
    obtain ⟨hblock, houtb⟩ := (scullWrite_outcome h.numbered hb.1).succeeded hb.2
    show Extends (scullWrite a pos buff c).1 (scullWrite b pos buff without).1 ∧
      (scullWrite a pos buff c).2 = (scullWrite b pos buff without).2
    rw [houta, houtb, h.blockAt]
    exact ⟨h.put _ hblock, rfl⟩

theorem Extends.replies (h : Extends a b) (es : List Later)
    (ha : Answered Expected laterAfter a es) (hb : Answered Expected laterWithout b es) :
    replies laterAfter a es = replies laterWithout b es :=
  replies_eq_of_answered (fun _ _ e hr ha hb => hr.later e ha hb) h es ha hb

end Later

/-! ## Writes that fail -/

/-- What a copy that fails stores in the block is what is there already. -/
def Harmless (dev : ScullDev pageShift) (pos : Nat) (buff : List Byte) (c : Conditions) : Prop :=
  c.uncopied (writeCount pageShift pos buff) ≠ 0 →
    copied pos buff c (blockAt dev (pos / scullBlockSize pageShift)) =
      blockAt dev (pos / scullBlockSize pageShift)

section Fail

variable {dev : ScullDev pageShift} {pos tblock : Nat} {buff : List Byte} {c : Conditions}

theorem Numbered.extends (h : Numbered dev) {n : Nat} (hn : dev.blockList.length + n ≤ 2 ^ 31) :
    Extends (dev.extend n) dev := ⟨h, n, rfl, hn⟩

theorem put_blockAt (dev : ScullDev pageShift) (tblock : Nat) :
    put dev tblock (blockAt dev tblock) = dev := by
  unfold put
  rcases Nat.lt_or_ge tblock dev.blockList.length with hlt | hge
  · have hblock : blockAt dev tblock = dev.blockList[tblock] := by
      rw [blockAt, List.getElem?_eq_getElem hlt, Option.getD_some]
    rw [hblock, List.set_getElem_self]
  · rw [List.set_eq_of_length_le hge]

theorem failed_extends (h : Numbered dev) (hpos : pos < 2 ^ 63)
    (hfail : Failed (scullWrite dev pos buff c).2) (hkept : Harmless dev pos buff c) :
    Extends (scullWrite dev pos buff c).1 dev := by
  have hgrown := h.grown (pos / scullBlockSize pageShift)
  have houtcome : Outcome dev pos buff c (scullWrite dev pos buff c) := scullWrite_outcome h hpos
  generalize scullWrite dev pos buff c = out at houtcome hfail
  cases houtcome with
  | interrupted =>
    have hsame := h.extends (n := 0) h.limit
    rwa [extend_zero] at hsame
  | noMemory hblocks => exact h.extends (by omega)
  | nullPointer => exact hfail.elim
  | faulted hcopy =>
    rw [hkept hcopy, ← blockAt_extend dev (missing dev (pos / scullBlockSize pageShift)), put_blockAt]
    exact h.extends hgrown
  | done =>
    have hneg : (writeCount pageShift pos buff : Int) < 0 := hfail
    omega

end Fail

/-- No signal, a block that is there or can be had, and a position that is not behind what the block
holds. -/
structure Within (dev : ScullDev pageShift) (pos : Nat) (c : Conditions) : Prop where
  signal : c.signal = false
  memory : missing dev (pos / scullBlockSize pageShift) ≤ c.blocks
  block : pos / scullBlockSize pageShift < 2 ^ 31
  filled : pos % scullBlockSize pageShift ≤ (blockAt dev (pos / scullBlockSize pageShift)).offset

section Nothing

variable {dev : ScullDev pageShift} {pos : Nat} {c : Conditions}

theorem writeCount_nil (pageShift pos : Nat) : writeCount pageShift pos [] = 0 := Nat.zero_min _

/-- A write of nothing inside what the block holds leaves the block as it is. -/
theorem writtenBlock_nil {pblock : ScullBlock pageShift}
    (h : pos % scullBlockSize pageShift ≤ pblock.offset) : writtenBlock pos [] pblock = pblock := by
  unfold writtenBlock
  rw [writeCount_nil, Nat.add_zero, Nat.max_eq_left h, List.take_zero, patch_nil]

theorem nothing_extends (h : Numbered dev) (hpos : pos < 2 ^ 63) (hin : Within dev pos c) :
    (scullWrite dev pos [] c).2 = .ret 0 [] pos ∧ Extends (scullWrite dev pos [] c).1 dev := by
  have hgrown := h.grown (pos / scullBlockSize pageShift)
  have houtcome : Outcome dev pos [] c (scullWrite dev pos [] c) := scullWrite_outcome h hpos
  generalize scullWrite dev pos [] c = out at houtcome
  cases houtcome with
  | interrupted hsignal =>
    rw [hin.signal] at hsignal
    cases hsignal
  | noMemory hblocks =>
    have hmemory := hin.memory
    omega
  | nullPointer hover =>
    have hblock := hin.block
    omega
  | faulted hcopy =>
    refine absurd ?_ hcopy
    rw [writeCount_nil]
    unfold Conditions.uncopied
    split
    · rfl
    · exact Nat.zero_sub _
  | done =>
    refine ⟨by rw [writeCount_nil]; rfl, ?_⟩
    dsimp only
    rw [writtenBlock_nil hin.filled,
      ← blockAt_extend dev (missing dev (pos / scullBlockSize pageShift)), put_blockAt]
    exact h.extends hgrown

end Nothing

end LinuxDeviceDriver.Drivers.Scull.Unwritten
