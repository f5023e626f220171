/- source: examples/03_scull_basic/fops.c, lines 17 to 149; main.h, lines 10 to 25
   digest: The scull device: a list of blocks that grows on demand, read and written at any
     position and cut back by an open for writing. -/

import LinuxDeviceDriver.Drivers.CharFile
import LinuxDeviceDriver.Lib.Blocks
import LinuxDeviceDriver.Lib.Transition

set_option autoImplicit false

namespace LinuxDeviceDriver.Drivers.Scull.Model

open Lib.Blocks (patch slice)
open Lib.Extents (Write)
open Lib.LittleEndian (Byte)
open CharFile (efault enomem erestartsys)

/-- SCULL_BLOCK_SIZE is PAGE_SIZE, which the architecture chooses. -/
def scullBlockSize (pageShift : Nat) : Nat := 2 ^ pageShift

theorem scullBlockSize_pos (pageShift : Nat) : 0 < scullBlockSize pageShift :=
  Nat.two_pow_pos pageShift

variable {pageShift : Nat}

structure ScullBlock (pageShift : Nat) where
  offset : Nat
  data : Vector Byte (scullBlockSize pageShift)
  deriving DecidableEq

/-- What kzalloc_obj gives. -/
def ScullBlock.zeroed : ScullBlock pageShift := ⟨0, Vector.replicate _ 0⟩

/-- The counter is an int. -/
structure ScullDev (pageShift : Nat) where
  blockCounter : BitVec 32 := 0
  blockList : List (ScullBlock pageShift) := []
  deriving DecidableEq

/-- The nr-th block, counting from 0. -/
def scullGetBlock : List (ScullBlock pageShift) → Nat → Option (ScullBlock pageShift)
  | [], _ => none
  | pblock :: rest, nr => if nr = 0 then some pblock else scullGetBlock rest (nr - 1)

/-- What the kernel does in a call: a signal arrives while the call waits for the mutex, so many
blocks can still be allocated, and only so many bytes of the user's buffer can be reached. -/
structure Conditions where
  signal : Bool := false
  blocks : Nat := 0
  reachable : Option Nat := none
  deriving DecidableEq, Repr

/-- How many of the bytes copy_to_user or copy_from_user leaves uncopied. -/
def Conditions.uncopied (c : Conditions) (count : Nat) : Nat :=
  match c.reachable with
  | none => 0
  | some n => count - n

/-- What a call comes to: a return value with the bytes read and the new position, or an access
through a NULL pointer or outside a block's data. -/
inductive Reply
  | ret (value : Int) (data : List Byte) (pos : Nat)
  | nullPointer
  | outOfBounds
  deriving DecidableEq, Repr

/-- The block list until block tblock exists; false if an allocation failed on the way. -/
def growBlocks (tblock : Nat) : Nat → ScullDev pageShift → ScullDev pageShift × Bool
  | 0, dev => (dev, !decide (tblock + 1 > (dev.blockCounter.signExtend 64).toNat))
  | blocks + 1, dev =>
    if tblock + 1 > (dev.blockCounter.signExtend 64).toNat then
      growBlocks tblock blocks
        ⟨dev.blockCounter + 1, dev.blockList ++ [ScullBlock.zeroed]⟩
    else (dev, true)

def scullRead (dev : ScullDev pageShift) (pos count : Nat) (c : Conditions) : Reply :=
  let tblock := pos / scullBlockSize pageShift
  let toffset := pos % scullBlockSize pageShift
  if c.signal then .ret (-erestartsys) [] pos
  else
    match scullGetBlock dev.blockList tblock with
    | none => .ret 0 [] pos
    | some pblock =>
      if toffset ≥ pblock.offset then .ret 0 [] pos
      else
        let count := min count (pblock.offset - toffset)
        if scullBlockSize pageShift < toffset + count then .outOfBounds
        else if c.uncopied count ≠ 0 then .ret (-efault) [] pos
        else .ret count (slice pblock.data toffset count) (pos + count)

/-- The copy into a block, and the end of a write. What copy_from_user cannot fetch it fills with
zeros. -/
def storeUser (dev : ScullDev pageShift) (pos : Nat) (buff : List Byte) (c : Conditions)
    (pblock : ScullBlock pageShift) : ScullDev pageShift × Reply :=
  let tblock := pos / scullBlockSize pageShift
  let toffset := pos % scullBlockSize pageShift
  let count := min buff.length (scullBlockSize pageShift - toffset)
  if scullBlockSize pageShift < toffset + count then (dev, .outOfBounds)
  else
    let left := c.uncopied count
    let got := buff.take (count - left) ++ List.replicate left 0
    let data := patch pblock.data toffset got
    if left ≠ 0 then
      ({ dev with blockList := dev.blockList.set tblock { pblock with data } },
        .ret (-efault) [] pos)
    else
      ({ dev with
          blockList := dev.blockList.set tblock ⟨max pblock.offset (toffset + count), data⟩ },
        .ret count [] (pos + count))

def scullWrite (dev : ScullDev pageShift) (pos : Nat) (buff : List Byte) (c : Conditions) :
    ScullDev pageShift × Reply :=
  let tblock := pos / scullBlockSize pageShift
  if c.signal then (dev, .ret (-erestartsys) [] pos)
  else
    let grown := growBlocks tblock c.blocks dev
    if !grown.2 then (grown.1, .ret (-enomem) [] pos)
    else
      match scullGetBlock grown.1.blockList tblock with
      | none => (grown.1, .nullPointer)
      | some pblock => storeUser grown.1 pos buff c pblock

def scullTrim (_ : ScullDev pageShift) : ScullDev pageShift := ⟨0, []⟩

/-- An open returns its error code; only one for writing touches the blocks. -/
def scullOpen (dev : ScullDev pageShift) (wronly : Bool) (c : Conditions) :
    ScullDev pageShift × Int :=
  if wronly then
    if c.signal then (dev, -erestartsys) else (scullTrim dev, 0)
  else (dev, 0)

/-! ## Runs -/

inductive ScullCall
  | openFile (wronly : Bool) (c : Conditions)
  | read (pos count : Nat) (c : Conditions)
  | write (pos : Nat) (buff : List Byte) (c : Conditions)
  deriving DecidableEq, Repr

def ScullCall.conditions : ScullCall → Conditions
  | .openFile _ c | .read _ _ c | .write _ _ c => c

/-- The device, and what has been written to it since it was last trimmed, oldest first. -/
structure ScullRun (pageShift : Nat) where
  dev : ScullDev pageShift := {}
  written : List (Write Byte) := []

/-- What a write that came to this reply has put where. -/
def Reply.wrote (pos : Nat) (buff : List Byte) : Reply → List (Write Byte)
  | .ret value _ _ => if 0 ≤ value then [⟨pos, buff.take value.toNat⟩] else []
  | _ => []

/-- The calls hold the mutex from end to end, so they come one after the other. -/
def scullNext (r : ScullRun pageShift) : ScullCall → ScullRun pageShift
  | .openFile wronly c =>
    let out := scullOpen r.dev wronly c
    ⟨out.1, if wronly && decide (out.2 = 0) then [] else r.written⟩
  | .read _ _ _ => r
  | .write pos buff c =>
    let out := scullWrite r.dev pos buff c
    ⟨out.1, r.written ++ out.2.wrote pos buff⟩

/-- What the call comes to. -/
def scullReply (r : ScullRun pageShift) : ScullCall → Reply
  | .openFile wronly c => .ret (scullOpen r.dev wronly c).2 [] 0
  | .read pos count c => scullRead r.dev pos count c
  | .write pos buff c => (scullWrite r.dev pos buff c).2

def scullStep (r : ScullRun pageShift) (e : ScullCall) (r' : ScullRun pageShift) : Prop :=
  scullNext r e = r'

/-! ## What the functions do -/

theorem scullGetBlock_eq (blocks : List (ScullBlock pageShift)) (nr : Nat) :
    scullGetBlock blocks nr = blocks[nr]? := by
  induction blocks generalizing nr with
  | nil => rfl
  | cons pblock rest ih =>
    cases nr with
    | zero => rfl
    | succ nr => exact ih nr

/-- The device with n more blocks. -/
def ScullDev.extend (dev : ScullDev pageShift) (n : Nat) : ScullDev pageShift :=
  ⟨dev.blockCounter + BitVec.ofNat 32 n, dev.blockList ++ List.replicate n ScullBlock.zeroed⟩

section Grow

variable {dev : ScullDev pageShift} {tblock blocks : Nat}

theorem extend_zero : dev.extend 0 = dev := by
  cases dev
  simp [ScullDev.extend]

theorem extend_succ (n : Nat) :
    ScullDev.extend ⟨dev.blockCounter + 1, dev.blockList ++ [ScullBlock.zeroed]⟩ n =
      dev.extend (n + 1) := by
  have hone : BitVec.ofNat 32 (n + 1) = 1 + BitVec.ofNat 32 n := by
    rw [Nat.add_comm, BitVec.ofNat_add]
    rfl
  simp only [ScullDev.extend, hone, List.replicate_succ, List.append_assoc, BitVec.add_assoc,
    List.singleton_append]

/-- The loop only adds blocks, and ends when the counter says that there are enough. -/
theorem growBlocks_extend (tblock blocks : Nat) (dev : ScullDev pageShift) :
    ∃ n ≤ blocks, (growBlocks tblock blocks dev).1 = dev.extend n ∧
      ((growBlocks tblock blocks dev).2 = true →
        tblock + 1 ≤ ((dev.extend n).blockCounter.signExtend 64).toNat) := by
  induction blocks generalizing dev with
  | zero =>
    refine ⟨0, Nat.le_refl 0, extend_zero.symm, ?_⟩
    intro hok
    rw [extend_zero]
    simpa [growBlocks] using hok
  | succ blocks ih =>
    rw [growBlocks]
    split
    · obtain ⟨n, hn, hdev, hend⟩ :=
        ih ⟨dev.blockCounter + 1, dev.blockList ++ [ScullBlock.zeroed]⟩
      rw [extend_succ] at hdev hend
      exact ⟨n + 1, by omega, hdev, hend⟩
    · next henough =>
      refine ⟨0, Nat.zero_le _, extend_zero.symm, ?_⟩
      intro _
      rw [extend_zero]
      omega

/-- The counter is the length of the list, as an int. -/
def Counted (dev : ScullDev pageShift) : Prop :=
  dev.blockCounter = BitVec.ofNat 32 dev.blockList.length

theorem Counted.extend (h : Counted dev) (n : Nat) : Counted (dev.extend n) := by
  show dev.blockCounter + BitVec.ofNat 32 n = _
  rw [h, ← BitVec.ofNat_add, ScullDev.extend, List.length_append, List.length_replicate]

theorem Counted.msb (h : Counted dev) (hsmall : dev.blockList.length < 2 ^ 31) :
    dev.blockCounter.msb = false := by
  rw [h, BitVec.msb_eq_decide, BitVec.toNat_ofNat, Nat.mod_eq_of_lt (by omega)]
  simpa using hsmall

theorem Counted.toNat (h : Counted dev) (hsmall : dev.blockList.length < 2 ^ 31) :
    dev.blockCounter.toNat = dev.blockList.length := by
  rw [h, BitVec.toNat_ofNat, Nat.mod_eq_of_lt (by omega)]

theorem Counted.signExtend (h : Counted dev) (hsmall : dev.blockList.length < 2 ^ 31) :
    (dev.blockCounter.signExtend 64).toNat = dev.blockList.length := by
  rw [BitVec.signExtend_eq_setWidth_of_msb_false (h.msb hsmall), BitVec.toNat_setWidth,
    h.toNat hsmall]
  omega

theorem Counted.toInt (h : Counted dev) (hsmall : dev.blockList.length < 2 ^ 31) :
    dev.blockCounter.toInt = dev.blockList.length := by
  rw [BitVec.toInt_eq_toNat_of_msb (h.msb hsmall), h.toNat hsmall]

end Grow

/-! ## What a write can do -/

section Wrote

variable {dev : ScullDev pageShift} {pos : Nat} {buff : List Byte} {c : Conditions}

/-- How many bytes a write moves: it never crosses a block boundary. -/
def writeCount (pageShift pos : Nat) (buff : List Byte) : Nat :=
  min buff.length (scullBlockSize pageShift - pos % scullBlockSize pageShift)

theorem writeCount_fits (pageShift pos : Nat) (buff : List Byte) :
    pos % scullBlockSize pageShift + writeCount pageShift pos buff ≤ scullBlockSize pageShift := by
  have hmod := Nat.mod_lt pos (scullBlockSize_pos pageShift)
  unfold writeCount
  omega

/-- The block after a write to it. -/
def writtenBlock (pos : Nat) (buff : List Byte) (pblock : ScullBlock pageShift) :
    ScullBlock pageShift :=
  ⟨max pblock.offset (pos % scullBlockSize pageShift + writeCount pageShift pos buff),
    patch pblock.data (pos % scullBlockSize pageShift)
      (buff.take (writeCount pageShift pos buff))⟩

/-- The outcomes of a write whose copy does not fail. -/
inductive Wrote (dev : ScullDev pageShift) (pos : Nat) (buff : List Byte) :
    ScullDev pageShift × Reply → Prop
  | interrupted : Wrote dev pos buff (dev, .ret (-erestartsys) [] pos)
  | noMemory (n : Nat) : Wrote dev pos buff (dev.extend n, .ret (-enomem) [] pos)
  | done (n : Nat) (pblock : ScullBlock pageShift)
      (hblock : (dev.extend n).blockList[pos / scullBlockSize pageShift]? = some pblock) :
      Wrote dev pos buff
        ({ dev.extend n with
            blockList := (dev.extend n).blockList.set (pos / scullBlockSize pageShift)
              (writtenBlock pos buff pblock) },
          .ret (writeCount pageShift pos buff) [] (pos + writeCount pageShift pos buff))

theorem storeUser_eq (hcopy : c.reachable = none) (pblock : ScullBlock pageShift) :
    storeUser dev pos buff c pblock =
      ({ dev with
          blockList := dev.blockList.set (pos / scullBlockSize pageShift)
            (writtenBlock pos buff pblock) },
        .ret (writeCount pageShift pos buff) [] (pos + writeCount pageShift pos buff)) := by
  have hfits : ¬ scullBlockSize pageShift <
      pos % scullBlockSize pageShift + writeCount pageShift pos buff := by
    have hle := writeCount_fits pageShift pos buff
    omega
  have hall : c.uncopied (writeCount pageShift pos buff) = 0 := by
    rw [Conditions.uncopied, hcopy]
  unfold storeUser
  dsimp only
  rw [← writeCount, if_neg hfits, hall, if_neg (by simp)]
  simp [writtenBlock]

/-- As long as the counter has not run over, a write finds the block it looks for. -/
theorem scullWrite_wrote (hcount : Counted dev) (hcopy : c.reachable = none)
    (hsmall : (scullWrite dev pos buff c).1.blockList.length < 2 ^ 31) :
    Wrote dev pos buff (scullWrite dev pos buff c) := by
  obtain ⟨n, -, hgrown, hend⟩ :=
    growBlocks_extend (pos / scullBlockSize pageShift) c.blocks dev
  unfold scullWrite at hsmall ⊢
  dsimp only at hsmall ⊢
  rw [hgrown] at hsmall ⊢
  split
  · exact .interrupted
  · next hsignal =>
    rw [if_neg hsignal] at hsmall
    split
    · exact .noMemory n
    · next hok =>
      rw [if_neg hok] at hsmall
      have hok : (growBlocks (pos / scullBlockSize pageShift) c.blocks dev).2 = true := by
        simpa using hok
      have hlength : (dev.extend n).blockList.length < 2 ^ 31 := by
        rw [scullGetBlock_eq] at hsmall
        split at hsmall
        · exact hsmall
        · rw [storeUser_eq hcopy] at hsmall
          simpa using hsmall
      have hlt : pos / scullBlockSize pageShift < (dev.extend n).blockList.length := by
        have hle := hend hok
        rwa [(hcount.extend n).signExtend hlength] at hle
      have hblock := List.getElem?_eq_getElem hlt
      rw [scullGetBlock_eq, hblock]
      dsimp only
      rw [storeUser_eq hcopy]
      exact .done n _ hblock

end Wrote

end LinuxDeviceDriver.Drivers.Scull.Model
