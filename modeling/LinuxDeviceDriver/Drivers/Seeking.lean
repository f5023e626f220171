/- source: examples/12_seeking/fops.c, lines 24 to 89; main.h, lines 10 to 17
   digest: The seeking device is an endless repetition of its table of 16 bytes: where seeks lead,
     and what reads return from there on. -/

import LinuxDeviceDriver.Drivers.CharFile
import LinuxDeviceDriver.Drivers.UserCopy
import LinuxDeviceDriver.Lib.Repetition

set_option autoImplicit false

namespace LinuxDeviceDriver.Drivers.Seeking

open Lib.Blocks (slice)
open Lib.LittleEndian (Byte)
open Lib.Repetition
open CharFile (efault einval erestartsys)
open UserCopy (Conditions)

/-- HEX_DICT, which m_init copies into the device's buff; nothing writes there later. -/
def hexDict : Vector Byte 16 :=
  #v[0x30, 0x31, 0x32, 0x33, 0x34, 0x35, 0x36, 0x37, 0x38, 0x39, 0x41, 0x42, 0x43, 0x44, 0x45, 0x46]

/-- HEX_DICT_LEN is a size_t. -/
def hexDictLen : BitVec 64 := 16

def seekSet : BitVec 32 := 0
def seekCur : BitVec 32 := 1
def seekEnd : BitVec 32 := 2

/-- What a call returns, with the bytes read and the position it leaves. -/
structure Reply where
  value : Int
  data : List Byte
  fPos : BitVec 64
  deriving DecidableEq, Repr

def seekingRead (fPos : BitVec 64) (count : Nat) (c : Conditions) : Reply :=
  if fPos.slt 0 then ⟨-einval, [], fPos⟩
  else
    -- a size_t: the table length makes the division an unsigned one
    let pos := fPos % hexDictLen
    if c.signal then ⟨-erestartsys, [], fPos⟩
    else
      let count := min count (hexDictLen - pos).toNat
      if c.uncopied count ≠ 0 then ⟨-efault, [], fPos⟩
      else
        ⟨count, slice hexDict pos.toNat count, (pos + BitVec.ofNat 64 count) % hexDictLen⟩

/-- The new position before it is checked; the sums wrap around. -/
def newpos (fPos off : BitVec 64) (whence : BitVec 32) : Option (BitVec 64) :=
  if whence = seekSet then some off
  else if whence = seekCur then some (fPos + off)
  else if whence = seekEnd then some (hexDictLen + off)
  else none

def seekingLlseek (fPos off : BitVec 64) (whence : BitVec 32) : Reply :=
  match newpos fPos off whence with
  | none => ⟨-einval, [], fPos⟩
  | some newpos =>
    if newpos.slt 0 then ⟨-einval, [], fPos⟩
    else ⟨(newpos % hexDictLen).toInt, [], newpos % hexDictLen⟩

/-- A read moves the position of the file, a pread brings its own. -/
inductive SeekingCall
  | llseek (off : BitVec 64) (whence : BitVec 32)
  | read (count : Nat) (c : Conditions)
  | pread (pos : BitVec 64) (count : Nat) (c : Conditions)
  deriving DecidableEq, Repr

def seekingReply (fPos : BitVec 64) : SeekingCall → Reply
  | .llseek off whence => seekingLlseek fPos off whence
  | .read count c => seekingRead fPos count c
  | .pread pos count c => seekingRead pos count c

def seekingNext (fPos : BitVec 64) : SeekingCall → BitVec 64
  | .pread _ _ _ => fPos
  | e => (seekingReply fPos e).fPos

/-- The bytes that the plain reads of a run return, one after the other. -/
def readData : BitVec 64 → List SeekingCall → List Byte
  | _, [] => []
  | fPos, .read count c :: rest =>
    (seekingRead fPos count c).data ++ readData (seekingRead fPos count c).fPos rest
  | fPos, e :: rest => readData (seekingNext fPos e) rest

/-! ## The endless table -/

/-- The target of a seek, as an integer. -/
def target (fPos off : BitVec 64) (whence : BitVec 32) : Option Int :=
  if whence = seekSet then some off.toInt
  else if whence = seekCur then some (fPos.toInt + off.toInt)
  else if whence = seekEnd then some (16 + off.toInt)
  else none

/-- The positions a seek can lead to. -/
def Reachable (t : Int) : Prop := 0 ≤ t ∧ t < 2 ^ 63

/-- A seek leads to its target modulo 16 if that is a position, and else changes nothing. -/
structure Seeks (fPos off : BitVec 64) (whence : BitVec 32) (r : Reply) : Prop where
  succeeds : 0 ≤ r.value ↔ ∃ t, target fPos off whence = some t ∧ Reachable t
  moves : ∀ t, target fPos off whence = some t → Reachable t →
    r.value = t % 16 ∧ r.fPos.toInt = t % 16
  fails : r.value < 0 → r.value = -einval ∧ r.fPos = fPos

/-- How many bytes a read at a position moves: it ends with the copy of the table it begins in. -/
def readCount (p : BitVec 64) (count : Nat) : Nat := min count (16 - p.toNat % 16)

/-- A read at a position returns what the endless table has there, or fails and changes nothing. -/
inductive Reads (p : BitVec 64) (count : Nat) (c : Conditions) : Reply → Prop
  | interrupted (h : c.signal = true) : Reads p count c ⟨-erestartsys, [], p⟩
  | faulted (h : c.uncopied (readCount p count) ≠ 0) : Reads p count c ⟨-efault, [], p⟩
  | done (next : BitVec 64) (hsignal : c.signal = false) (hcopy : c.uncopied (readCount p count) = 0)
      (hnext : next.toNat = (p.toNat + readCount p count) % 16) :
      Reads p count c
        ⟨readCount p count, repeated hexDict.toList p.toNat (readCount p count), next⟩

/-- The position of an open file. -/
def Inside (fPos : BitVec 64) : Prop := fPos.toNat < 16

section Registers

variable {x p : BitVec 64} {count : Nat}

theorem hexDictLen_toNat : hexDictLen.toNat = 16 := rfl

theorem mod_toNat (x : BitVec 64) : (x % hexDictLen).toNat = x.toNat % 16 := by
  rw [BitVec.toNat_umod, hexDictLen_toNat]

theorem mod_inside (x : BitVec 64) : Inside (x % hexDictLen) := by
  unfold Inside
  rw [mod_toNat]
  omega

theorem slt_zero_iff : x.slt 0 = false ↔ 0 ≤ x.toInt := by
  have hzero : (0 : BitVec 64).toInt = 0 := rfl
  rw [BitVec.slt_eq_decide, decide_eq_false_iff_not, hzero, Int.not_lt]

/-- A position that is not negative is the same number without a sign. -/
theorem toInt_of_nonneg (h : 0 ≤ x.toInt) : x.toInt = x.toNat := by
  have hlt : 2 * x.toNat < 2 ^ 64 := by
    rw [BitVec.toInt_eq_toNat_cond] at h
    split at h
    · assumption
    · have := x.isLt
      omega
  exact BitVec.toInt_eq_toNat_of_lt hlt

theorem Inside.toInt (h : Inside x) : x.toInt = x.toNat := by
  have hlt : x.toNat < 16 := h
  exact BitVec.toInt_eq_toNat_of_lt (by omega)

/-- A sum that wrapped around is negative, so that its sign tells whether it is a position. -/
theorem sign_of_sum {t : Int} (hx : x.toInt = t.bmod (2 ^ 64)) (hlow : -2 ^ 63 ≤ t)
    (hhigh : t < 2 ^ 63 + 16) :
    (x.slt 0 = false ↔ Reachable t) ∧ (Reachable t → x.toInt = t) := by
  have hexact : t < 2 ^ 63 → x.toInt = t := by
    intro hlt
    rw [hx, Int.bmod_eq_of_le_mul_two (by omega) (by omega)]
  have hwrapped : 2 ^ 63 ≤ t → x.toInt = t - 2 ^ 64 := by
    intro hle
    rw [hx, ← Int.sub_bmod_right, Int.bmod_eq_of_le_mul_two (by omega) (by omega)]
    omega
  refine ⟨?_, fun ht => hexact ht.2⟩
  rw [slt_zero_iff]
  unfold Reachable
  constructor <;> intro h <;> omega

end Registers

/-! ## Seeks -/

section Seek

variable {fPos off : BitVec 64} {whence : BitVec 32}

theorem newpos_target (hin : Inside fPos) (off : BitVec 64) (whence : BitVec 32) :
    newpos fPos off whence = none ∧ target fPos off whence = none ∨
    ∃ x t, newpos fPos off whence = some x ∧ target fPos off whence = some t ∧
      (x.slt 0 = false ↔ Reachable t) ∧ (Reachable t → x.toInt = t) := by
  have hlow := BitVec.le_toInt off
  have hhigh := BitVec.toInt_lt (x := off)
  have hpos : fPos.toInt = fPos.toNat := hin.toInt
  have hlt : fPos.toNat < 16 := hin
  unfold newpos target
  split_ifs with hset hcur hend
  · right
    refine ⟨off, off.toInt, rfl, rfl, sign_of_sum ?_ (by omega) (by omega)⟩
    rw [BitVec.toInt_bmod_cancel]
  · right
    refine ⟨fPos + off, fPos.toInt + off.toInt, rfl, rfl, sign_of_sum ?_ (by omega) (by omega)⟩
    exact BitVec.toInt_add fPos off
  · right
    refine ⟨hexDictLen + off, 16 + off.toInt, rfl, rfl, sign_of_sum ?_ (by omega) (by omega)⟩
    exact BitVec.toInt_add hexDictLen off
  · left
    exact ⟨rfl, rfl⟩

theorem llseek_seeks (hin : Inside fPos) : Seeks fPos off whence (seekingLlseek fPos off whence) := by
  have hnegative : ¬ (0 : Int) ≤ -einval := by decide
  unfold seekingLlseek
  rcases newpos_target hin off whence with
    ⟨hnone, htarget⟩ | ⟨x, t, hsome, htarget, hsign, hexact⟩
  · rw [hnone]
    refine ⟨⟨fun h => absurd h hnegative, ?_⟩, ?_, fun _ => ⟨rfl, rfl⟩⟩
    · rintro ⟨t, ht, -⟩
      rw [htarget] at ht
      cases ht
    · intro t ht
      rw [htarget] at ht
      cases ht
  · rw [hsome]
    dsimp only
    split
    · next hneg =>
      have hout : ¬ Reachable t := by
        intro ht
        rw [hsign.mpr ht] at hneg
        cases hneg
      refine ⟨⟨fun h => absurd h hnegative, ?_⟩, ?_, fun _ => ⟨rfl, rfl⟩⟩
      · rintro ⟨t', ht', hreach⟩
        obtain rfl : t = t' := Option.some.inj (htarget.symm.trans ht')
        exact absurd hreach hout
      · intro t' ht' hreach
        obtain rfl : t = t' := Option.some.inj (htarget.symm.trans ht')
        exact absurd hreach hout
    · next hnonneg =>
      have hreach : Reachable t := hsign.mp (by simpa using hnonneg)
      have hx : x.toNat = t := by
        rw [← toInt_of_nonneg (slt_zero_iff.mp (hsign.mpr hreach)), hexact hreach]
      have hvalue : (x % hexDictLen).toInt = t % 16 := by
        rw [(mod_inside x).toInt, mod_toNat, ← hx]
        omega
      refine ⟨⟨fun _ => ⟨t, htarget, hreach⟩, fun _ => ?_⟩, ?_, ?_⟩
      · show 0 ≤ (x % hexDictLen).toInt
        omega
      · intro t' ht' _
        obtain rfl : t = t' := Option.some.inj (htarget.symm.trans ht')
        exact ⟨hvalue, hvalue⟩
      · intro hfails
        have hnegative : (x % hexDictLen).toInt < 0 := hfails
        omega

theorem llseek_inside (hin : Inside fPos) : Inside (seekingLlseek fPos off whence).fPos := by
  unfold seekingLlseek
  split
  · exact hin
  · split
    · exact hin
    · exact mod_inside _

end Seek

/-! ## Reads -/

section Read

variable {fPos p : BitVec 64} {count : Nat} {c : Conditions}

theorem count_toNat (p : BitVec 64) (count : Nat) :
    min count (hexDictLen - p % hexDictLen).toNat = readCount p count := by
  have hlt := mod_inside p
  unfold Inside at hlt
  have hle : p % hexDictLen ≤ hexDictLen := by
    rw [BitVec.le_def, hexDictLen_toNat]
    omega
  rw [BitVec.toNat_sub_of_le hle, mod_toNat, hexDictLen_toNat, readCount]

theorem read_reads (hp : 0 ≤ p.toInt) (count : Nat) (c : Conditions) :
    Reads p count c (seekingRead p count c) := by
  have hcount : p.toNat % 16 + readCount p count ≤ 16 := by
    unfold readCount
    omega
  unfold seekingRead
  dsimp only
  rw [slt_zero_iff.mpr hp, if_neg Bool.false_ne_true, count_toNat, mod_toNat]
  split_ifs with hsignal hcopy
  · exact .interrupted hsignal
  · exact .faulted hcopy
  · have hdata : slice hexDict (p.toNat % 16) (readCount p count) =
        repeated hexDict.toList p.toNat (readCount p count) := by
      rw [slice, repeated_inside (by simpa using hcount), Vector.length_toList]
    rw [hdata]
    refine .done _ (by simpa using hsignal) (by simpa using hcopy) ?_
    rw [mod_toNat, BitVec.toNat_add, mod_toNat, BitVec.toNat_ofNat]
    omega

/-- The position that a read leaves is one of the open file's, unless the read failed. -/
theorem Reads.inside {r : Reply} (h : Reads p count c r) (hin : Inside p) : Inside r.fPos := by
  cases h with
  | interrupted => exact hin
  | faulted => exact hin
  | done next _ _ hnext =>
    show next.toNat < 16
    omega

/-- What a read returns is where the position was; what comes next is where it is. -/
theorem Reads.advances {r : Reply} (h : Reads p count c r) (m : Nat) :
    r.data ++ repeated hexDict.toList r.fPos.toNat m =
      repeated hexDict.toList p.toNat (r.data.length + m) := by
  cases h with
  | interrupted | faulted =>
    rw [List.nil_append, List.length_nil, Nat.zero_add]
  | done next _ _ hnext =>
    dsimp only
    have hmoved : repeated hexDict.toList next.toNat m =
        repeated hexDict.toList (p.toNat + readCount p count) m := by
      rw [hnext]
      exact repeated_mod hexDict.toList _ m
    rw [repeated_length (by decide), repeated_add, hmoved]

theorem Reads.nonneg {r : Reply} (h : Reads p count c r) (hp : 0 ≤ p.toInt) : 0 ≤ r.fPos.toInt := by
  cases h with
  | interrupted => exact hp
  | faulted => exact hp
  | done next _ _ hnext =>
    have hin : Inside next := by
      unfold Inside
      omega
    rw [hin.toInt]
    exact Int.natCast_nonneg _

end Read

/-! ## Runs -/

section Runs

variable {fPos p : BitVec 64}

theorem Inside.next (hin : Inside fPos) (e : SeekingCall) : Inside (seekingNext fPos e) := by
  cases e with
  | llseek off whence => exact llseek_inside hin
  | read count c =>
    have hpos : 0 ≤ fPos.toInt := by
      rw [hin.toInt]
      exact Int.natCast_nonneg _
    exact (read_reads hpos count c).inside hin
  | pread pos count c => exact hin

theorem Inside.run (ls : List SeekingCall) (hin : Inside fPos) :
    Inside (ls.foldl seekingNext fPos) := by
  induction ls generalizing fPos with
  | nil => exact hin
  | cons e ls ih => exact ih (hin.next e)

/-- Reads with no seek in between return one piece of the endless table. -/
theorem readData_repeated (more : List SeekingCall)
    (hreads : ∀ off whence, .llseek off whence ∉ more) (hp : 0 ≤ p.toInt) :
    readData p more = repeated hexDict.toList p.toNat (readData p more).length := by
  induction more generalizing p with
  | nil => rfl
  | cons e rest ih =>
    have hrest : ∀ off whence, .llseek off whence ∉ rest :=
      fun off whence hmem => hreads off whence (List.mem_cons_of_mem e hmem)
    cases e with
    | llseek off whence => exact absurd List.mem_cons_self (hreads off whence)
    | read count c =>
      have hread := read_reads hp count c
      rw [readData, List.length_append, ← hread.advances, ← ih hrest (hread.nonneg hp)]
    | pread pos count c => exact ih hrest hp

end Runs

/-- In every state that calls lead to, the position is one of the table, seeks go to their target
or nowhere, reads and preads return the endless table from their position on, and so do any reads
that follow each other. -/
theorem seeking_endless (ls : List SeekingCall) :
    let fPos := ls.foldl seekingNext 0
    (0 ≤ fPos.toInt ∧ fPos.toInt < 16) ∧
    (∀ off whence, Seeks fPos off whence (seekingReply fPos (.llseek off whence)) ∧
      seekingNext fPos (.llseek off whence) = (seekingReply fPos (.llseek off whence)).fPos) ∧
    (∀ count c, Reads fPos count c (seekingReply fPos (.read count c)) ∧
      seekingNext fPos (.read count c) = (seekingReply fPos (.read count c)).fPos) ∧
    (∀ p count c, 0 ≤ p.toInt → Reads p count c (seekingReply fPos (.pread p count c)) ∧
      seekingNext fPos (.pread p count c) = fPos) ∧
    (∀ p more, 0 ≤ p.toInt → (∀ off whence, .llseek off whence ∉ more) →
      readData p more = repeated hexDict.toList p.toNat (readData p more).length) := by
  intro fPos
  have hin : Inside fPos := Inside.run ls (show (0 : BitVec 64).toNat < 16 by decide)
  have hlt : fPos.toNat < 16 := hin
  have hint := hin.toInt
  refine ⟨⟨by omega, by omega⟩, ?_, ?_, ?_, ?_⟩
  · intro off whence
    exact ⟨llseek_seeks hin, rfl⟩
  · intro count c
    exact ⟨read_reads (by omega) count c, rfl⟩
  · intro p count c hp
    exact ⟨read_reads hp count c, rfl⟩
  · intro p more hp hreads
    exact readData_repeated more hreads hp

/-- A seek to 10, and two reads across the end of the table. -/
example : readData (seekingNext 0 (.llseek 10 seekSet)) [.read 10 {}, .read 3 {}] =
    [0x41, 0x42, 0x43, 0x44, 0x45, 0x46, 0x30, 0x31, 0x32] := by decide

end LinuxDeviceDriver.Drivers.Seeking
