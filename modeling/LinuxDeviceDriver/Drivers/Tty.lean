/- source: examples/31_tty/main.c, lines 33 to 41 and 97 to 142; main.h, lines 9 to 27
   digest: The lines that lddtty prints do not depend on how what is written is cut into calls, as
     long as the count of each call fits an int. -/

import LinuxDeviceDriver.Lib.LittleEndian
import Mathlib.Data.List.Basic

set_option autoImplicit false

namespace LinuxDeviceDriver.Drivers.Tty

open Lib.LittleEndian (Byte)

def lddLineLong : Nat := 80

/-- LDD_TTY_MAX_ROOM is PAGE_SIZE: 4096 bytes or a multiple of that by a power of two. -/
def lddTtyMaxRoom (pageShift : Fin 19) : Nat := 2 ^ (12 + pageShift.val)

variable {pageShift : Fin 19}

/-- A line: its number, the characters collected so far, and what it has printed with the number in
front, oldest first. -/
structure LddTtyDev (pageShift : Fin 19) where
  index : Nat
  bufferCurr : Nat
  buffer : Vector Byte (lddTtyMaxRoom pageShift)
  printed : List (Nat × List Byte) := []

/-- What the format %s prints. -/
def cString (bytes : List Byte) : List Byte := bytes.takeWhile (· ≠ 0)

def backslash : Byte := 0x5c
def cr : Byte := 0x0d
def lf : Byte := 0x0a

/-- A flush comes to nothing where it would write behind the buffer. -/
def lddTtyFlush (d : LddTtyDev pageShift) : Option (LddTtyDev pageShift) :=
  if d.bufferCurr > 0 then
    if h : d.bufferCurr < lddTtyMaxRoom pageShift then
      let buffer := d.buffer.set d.bufferCurr 0 h
      some { d with
        bufferCurr := 0, buffer, printed := d.printed ++ [(d.index, cString buffer.toList)] }
    else none
  else some d

/-- A character is added, again only inside the buffer. -/
def putChar (d : LddTtyDev pageShift) (ch : Byte) : Option (LddTtyDev pageShift) :=
  if h : d.bufferCurr < lddTtyMaxRoom pageShift then
    some { d with bufferCurr := d.bufferCurr + 1, buffer := d.buffer.set d.bufferCurr ch h }
  else none

/-- A line that is full is printed before anything is added to it. -/
def breakLong (d : LddTtyDev pageShift) : Option (LddTtyDev pageShift) :=
  if d.bufferCurr ≥ lddLineLong then (putChar d backslash).bind lddTtyFlush else some d

/-- The loop of ldd_tty_printk over the characters that the count leaves it. -/
def printkChars : List Byte → LddTtyDev pageShift → Option (LddTtyDev pageShift)
  | [], d => some d
  | ch :: rest, d =>
    (breakLong d).bind fun d =>
      if ch = cr then
        (lddTtyFlush d).bind fun d =>
          match rest with
          | [] => some d
          | next :: rest' => if next = lf then printkChars rest' d else printkChars (next :: rest') d
      else if ch = lf then (lddTtyFlush d).bind (printkChars rest)
      else (putChar d ch).bind (printkChars rest)

/-- The count is an int: from a negative one the loop does nothing. -/
def lddTtyPrintk (d : LddTtyDev pageShift) (buf : List Byte) (count : BitVec 32) :
    Option (LddTtyDev pageShift × BitVec 32) :=
  (printkChars (buf.take count.toInt.toNat) d).map fun d => (d, count)

/-- The size_t that ldd_tty_write is given becomes the int. -/
def lddTtyWrite (d : LddTtyDev pageShift) (buf : List Byte) :
    Option (LddTtyDev pageShift × Int) :=
  (lddTtyPrintk d buf ((BitVec.ofNat 64 buf.length).truncate 32)).map fun out => (out.1, out.2.toInt)

/-- One call after the other. -/
def writeAll (d : LddTtyDev pageShift) (calls : List (List Byte)) : Option (LddTtyDev pageShift) :=
  calls.foldlM (fun d buf => (lddTtyWrite d buf).map Prod.fst) d

/-! ## One character at a time -/

/-- What the loop does with a character if it does not look at the next one. -/
def lineStep (d : LddTtyDev pageShift) (ch : Byte) : Option (LddTtyDev pageShift) :=
  (breakLong d).bind fun d =>
    if ch = cr ∨ ch = lf then lddTtyFlush d else putChar d ch

section Fold

variable {d d' : LddTtyDev pageShift} {ch : Byte}

theorem flush_empties (h : lddTtyFlush d = some d') : d'.bufferCurr = 0 := by
  unfold lddTtyFlush at h
  split at h
  · split at h
    · cases h
      rfl
    · cases h
  · next hempty =>
    cases h
    omega

/-- A newline on an empty line does nothing, which is why it may be skipped after a return. -/
theorem lineStep_lf_empty (h : d.bufferCurr = 0) : lineStep d lf = some d := by
  have hshort : ¬ d.bufferCurr ≥ lddLineLong := by
    rw [h]
    decide
  have hempty : ¬ d.bufferCurr > 0 := by omega
  rw [lineStep, breakLong, if_neg hshort, Option.bind_some, if_pos (.inr rfl), lddTtyFlush,
    if_neg hempty]

theorem printkChars_cr (rest : List Byte) (d : LddTtyDev pageShift)
    (hrest : ∀ more d', more.length ≤ rest.length →
      printkChars more d' = more.foldlM lineStep (d' : LddTtyDev pageShift)) :
    printkChars (cr :: rest) d = (lineStep d cr).bind fun d => rest.foldlM lineStep d := by
  rw [printkChars, lineStep, Option.bind_assoc]
  congr 1
  funext d₁
  rw [if_pos rfl, if_pos (.inl rfl)]
  cases hflush : lddTtyFlush d₁ with
  | none => rfl
  | some d₂ =>
    have hempty := flush_empties hflush
    rw [Option.bind_some, Option.bind_some]
    match rest with
    | [] => rfl
    | next :: rest' =>
      dsimp only
      split
      · next hlf =>
        rw [hrest rest' d₂ (by simp), hlf, List.foldlM_cons, lineStep_lf_empty hempty]
        rfl
      · exact hrest (next :: rest') d₂ (Nat.le_refl _)

/-- The loop takes one character after the other, also where it looks ahead. -/
theorem printkChars_eq_foldlM (n : Nat) (cs : List Byte) (hn : cs.length ≤ n)
    (d : LddTtyDev pageShift) : printkChars cs d = cs.foldlM lineStep d := by
  induction n generalizing cs d with
  | zero =>
    obtain rfl : cs = [] := List.eq_nil_of_length_eq_zero (Nat.le_zero.mp hn)
    rfl
  | succ n ih =>
    match cs with
    | [] => rfl
    | ch :: rest =>
      rw [List.length_cons] at hn
      rw [List.foldlM_cons]
      by_cases hcr : ch = cr
      · subst hcr
        exact printkChars_cr rest d fun more d' hmore => ih more (by omega) d'
      · rw [printkChars, lineStep]
        show _ = Option.bind (Option.bind _ _) _
        rw [Option.bind_assoc]
        congr 1
        funext d₁
        have hrest : printkChars rest = fun d => rest.foldlM lineStep (d : LddTtyDev pageShift) :=
          funext fun d => ih rest (by omega) d
        rw [if_neg hcr, hrest]
        by_cases hlf : ch = lf
        · rw [if_pos hlf, if_pos (.inr hlf)]
        · rw [if_neg hlf, if_neg (by simp [hcr, hlf])]

end Fold

/-! ## The bounds of the buffer -/

/-- The characters of a line that is being collected. -/
def InLine (d : LddTtyDev pageShift) : Prop := d.bufferCurr ≤ lddLineLong

section Bounds

variable {d d' : LddTtyDev pageShift} {ch : Byte}

theorem room_le (pageShift : Fin 19) : 4096 ≤ lddTtyMaxRoom pageShift :=
  Nat.pow_le_pow_right (show 0 < 2 by decide) (Nat.le_add_right 12 pageShift.val)

/-- The backslash of a full line, and the NUL behind it, still fit. -/
theorem flush_some (h : d.bufferCurr ≤ lddLineLong + 1) :
    ∃ d', lddTtyFlush d = some d' ∧ d'.bufferCurr = 0 := by
  have hroom := room_le pageShift
  unfold lddLineLong at h
  unfold lddTtyFlush
  split
  · rw [dif_pos (by omega)]
    exact ⟨_, rfl, rfl⟩
  · exact ⟨d, rfl, by omega⟩

theorem putChar_some (h : InLine d) (ch : Byte) :
    ∃ d', putChar d ch = some d' ∧ d'.bufferCurr = d.bufferCurr + 1 := by
  have hroom := room_le pageShift
  unfold InLine lddLineLong at h
  unfold putChar
  rw [dif_pos (by omega)]
  exact ⟨_, rfl, rfl⟩

theorem breakLong_some (h : InLine d) :
    ∃ d', breakLong d = some d' ∧ d'.bufferCurr < lddLineLong := by
  unfold breakLong
  split
  · obtain ⟨d₁, hput, hcurr⟩ := putChar_some h backslash
    unfold InLine at h
    obtain ⟨d₂, hflush, hempty⟩ := flush_some (d := d₁) (by omega)
    refine ⟨d₂, ?_, ?_⟩
    · rw [hput, Option.bind_some, hflush]
    · rw [hempty]
      decide
  · exact ⟨d, rfl, by omega⟩

theorem lineStep_some (h : InLine d) (ch : Byte) : ∃ d', lineStep d ch = some d' ∧ InLine d' := by
  obtain ⟨d₁, hbreak, hshort⟩ := breakLong_some h
  unfold lineStep
  rw [hbreak, Option.bind_some]
  split
  · obtain ⟨d₂, hflush, hempty⟩ := flush_some (d := d₁) (by omega)
    refine ⟨d₂, hflush, ?_⟩
    unfold InLine
    omega
  · obtain ⟨d₂, hput, hcurr⟩ := putChar_some (d := d₁) (Nat.le_of_lt hshort) ch
    refine ⟨d₂, hput, ?_⟩
    unfold InLine
    omega

theorem foldlM_some (cs : List Byte) (h : InLine d) :
    ∃ d', cs.foldlM lineStep d = some d' ∧ InLine d' := by
  induction cs generalizing d with
  | nil => exact ⟨d, rfl, h⟩
  | cons ch cs ih =>
    obtain ⟨d₁, hstep, hin⟩ := lineStep_some h ch
    rw [List.foldlM_cons, hstep]
    exact ih hin

end Bounds

/-! ## Calls -/

def intMax : Nat := 2147483647

section Calls

variable {d : LddTtyDev pageShift} {buf : List Byte}

theorem count_toInt (h : buf.length ≤ intMax) :
    ((BitVec.ofNat 64 buf.length).truncate 32).toInt = buf.length := by
  unfold intMax at h
  have hnat : ((BitVec.ofNat 64 buf.length).truncate 32).toNat = buf.length := by
    rw [BitVec.truncate_eq_setWidth, BitVec.toNat_setWidth, BitVec.toNat_ofNat]
    omega
  rw [BitVec.toInt_eq_toNat_of_lt (by omega), hnat]

/-- A call whose count fits an int takes all its characters. -/
theorem write_eq_foldlM (d : LddTtyDev pageShift) (h : buf.length ≤ intMax) :
    lddTtyWrite d buf = (buf.foldlM lineStep d).map fun d => (d, (buf.length : Int)) := by
  rw [lddTtyWrite, lddTtyPrintk, Option.map_map, count_toInt h, Int.toNat_natCast, List.take_length,
    printkChars_eq_foldlM buf.length buf (Nat.le_refl _) d]
  congr 1
  funext d
  exact congrArg (Prod.mk d) (count_toInt h)

theorem writeAll_eq_foldlM (d : LddTtyDev pageShift) (calls : List (List Byte))
    (h : ∀ buf ∈ calls, buf.length ≤ intMax) :
    writeAll d calls = calls.flatten.foldlM lineStep d := by
  induction calls generalizing d with
  | nil => rfl
  | cons buf calls ih =>
    have hwrite : (lddTtyWrite d buf).map Prod.fst = buf.foldlM lineStep d := by
      rw [write_eq_foldlM d (h buf List.mem_cons_self), Option.map_map]
      exact congrFun Option.map_id _
    rw [writeAll, List.foldlM_cons, hwrite, List.flatten_cons, List.foldlM_append]
    congr 1
    funext d₁
    exact ih d₁ fun buf' hmem => h buf' (List.mem_cons_of_mem buf hmem)

end Calls

/-- A line with one character in it. -/
def begun : LddTtyDev 0 := ⟨0, 1, Vector.replicate _ 0x61, []⟩

theorem foldlM_lf_empty {d : LddTtyDev pageShift} (n : Nat) (h : d.bufferCurr = 0) :
    (List.replicate n lf).foldlM lineStep d = some d := by
  induction n with
  | zero => rfl
  | succ n ih =>
    rw [List.replicate_succ, List.foldlM_cons, lineStep_lf_empty h]
    exact ih

/-- The count of a call of INT_MAX + 1 characters is negative. -/
theorem write_negative (d : LddTtyDev pageShift) {buf : List Byte} (h : buf.length = intMax + 1) :
    lddTtyWrite d buf = some (d, -2147483648) := by
  have hcount : ((BitVec.ofNat 64 (intMax + 1)).truncate 32).toInt = -2147483648 := by decide
  rw [lddTtyWrite, lddTtyPrintk, h, hcount]
  rw [show ((-2147483648 : Int)).toNat = 0 from rfl, List.take_zero, printkChars, Option.map_some,
    Option.map_some, hcount]

theorem newlines_in_two_calls (d : LddTtyDev pageShift) {n : Nat} (hn : n ≤ intMax) :
    writeAll d [[lf], List.replicate n lf] = (lineStep d lf).bind fun d₁ =>
      (List.replicate n lf).foldlM lineStep d₁ := by
  rw [writeAll_eq_foldlM, List.flatten_cons, List.flatten_singleton, List.singleton_append,
    List.foldlM_cons]
  · rfl
  · intro buf hmem
    rcases List.mem_cons.mp hmem with rfl | hmem
    · decide
    · rw [List.mem_singleton.mp hmem, List.length_replicate]
      exact hn

end LinuxDeviceDriver.Drivers.Tty
