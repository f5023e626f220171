/- source: examples/31_tty/main.c, lines 33 to 41, 58 to 69 and 97 to 125
   digest: A line that is ended is printed in pieces of 80 characters, each but the last with a
     backslash behind it, unless a terminator comes just when the last piece is full. -/

import LinuxDeviceDriver.Drivers.Tty

set_option autoImplicit false

namespace LinuxDeviceDriver.Drivers.TtyLines

open Lib.LittleEndian (Byte)
open Drivers.Tty

variable {pageShift : Fin 19}

/-- The timer that the last close deletes puts characters into the other direction only. -/
def lddPortShutdown (d : LddTtyDev pageShift) : Option (LddTtyDev pageShift) := lddTtyFlush d

/-- How a line ends. -/
inductive Ending where
  | lf
  | cr
  | crlf
  | close
  deriving Repr, DecidableEq

/-- The characters that are written to end a line. -/
def Ending.bytes : Ending → List Byte
  | .lf => [Tty.lf]
  | .cr => [Tty.cr]
  | .crlf => [Tty.cr, Tty.lf]
  | .close => []

/-- The calls that write a line and its end, and the last close where that is the end. -/
def endLine (d : LddTtyDev pageShift) (calls : List (List Byte)) :
    Ending → Option (LddTtyDev pageShift)
  | .close => (writeAll d calls).bind lddPortShutdown
  | _ => writeAll d calls

/-! ## What the buffer holds -/

/-- The characters collected so far; none is a NUL, so that all are printed. -/
structure Holds (d : LddTtyDev pageShift) (held : List Byte) : Prop where
  curr : d.bufferCurr = held.length
  chars : d.buffer.toList.take held.length = held
  text : ∀ ch ∈ held, ch ≠ 0

theorem holds_nil {d : LddTtyDev pageShift} (h : d.bufferCurr = 0) : Holds d [] :=
  ⟨h, rfl, fun _ hmem => nomatch hmem⟩

section Steps

variable {d : LddTtyDev pageShift} {held : List Byte} {ch : Byte}

theorem toList_set (h : Holds d held) (hroom : d.bufferCurr < lddTtyMaxRoom pageShift) :
    (d.buffer.set d.bufferCurr ch hroom).toList =
      held ++ ch :: d.buffer.toList.drop (held.length + 1) := by
  have hlt : held.length < d.buffer.toList.length := by
    rw [Vector.length_toList, ← h.curr]
    exact hroom
  rw [Vector.toList_set, h.curr, List.set_eq_take_append_cons_drop, if_pos hlt, h.chars]

theorem putChar_holds (h : Holds d held) (hlen : held.length ≤ lddLineLong) (hch : ch ≠ 0) :
    ∃ d', putChar d ch = some d' ∧ Holds d' (held ++ [ch]) ∧ d'.index = d.index ∧
      d'.printed = d.printed := by
  have hpage := room_le pageShift
  have hroom : d.bufferCurr < lddTtyMaxRoom pageShift := by
    rw [h.curr]
    unfold lddLineLong at hlen
    omega
  rw [putChar, dif_pos hroom]
  refine ⟨_, rfl, ⟨?_, ?_, ?_⟩, rfl, rfl⟩
  · rw [List.length_append, ← h.curr]
    rfl
  · rw [toList_set h hroom, List.length_append, List.append_cons]
    exact List.take_left' (by rw [List.length_append])
  · intro c hmem
    rcases List.mem_append.mp hmem with hold | hnew
    · exact h.text c hold
    · rw [List.mem_singleton.mp hnew]
      exact hch

/-- What is printed ends at the NUL that the flush writes. -/
theorem cString_append (rest : List Byte) (h : ∀ c ∈ held, c ≠ 0) :
    cString (held ++ 0 :: rest) = held := by
  unfold cString
  rw [List.takeWhile_append_of_pos fun c hmem => decide_eq_true (h c hmem)]
  simp

theorem flush_holds (h : Holds d held) (hne : held ≠ []) (hlen : held.length ≤ lddLineLong + 1) :
    ∃ d', lddTtyFlush d = some d' ∧ Holds d' [] ∧ d'.index = d.index ∧
      d'.printed = d.printed ++ [(d.index, held)] := by
  have hpage := room_le pageShift
  have hpos : d.bufferCurr > 0 := by
    rw [h.curr]
    exact List.length_pos_iff.mpr hne
  have hroom : d.bufferCurr < lddTtyMaxRoom pageShift := by
    rw [h.curr]
    unfold lddLineLong at hlen
    omega
  rw [lddTtyFlush, if_pos hpos, dif_pos hroom]
  refine ⟨_, rfl, holds_nil rfl, rfl, ?_⟩
  rw [toList_set h hroom, cString_append _ h.text]

theorem breakLong_short (h : Holds d held) (hlen : held.length < lddLineLong) :
    breakLong d = some d := by
  rw [breakLong, if_neg (by rw [h.curr]; omega)]

theorem backslash_ne_zero : backslash ≠ 0 := by decide

/-- A full piece is printed with a backslash when the next character comes, whichever it is. -/
theorem breakLong_full (h : Holds d held) (hlen : held.length = lddLineLong) :
    ∃ d', breakLong d = some d' ∧ Holds d' [] ∧ d'.index = d.index ∧
      d'.printed = d.printed ++ [(d.index, held ++ [backslash])] := by
  obtain ⟨d₁, hput, hholds, hindex, hprinted⟩ := putChar_holds h hlen.le backslash_ne_zero
  have hlen₁ : (held ++ [backslash]).length ≤ lddLineLong + 1 := by
    rw [List.length_append, hlen]
    rfl
  obtain ⟨d₂, hflush, hholds₂, hindex₂, hprinted₂⟩ := flush_holds hholds (by simp) hlen₁
  refine ⟨d₂, ?_, hholds₂, hindex₂.trans hindex, ?_⟩
  · rw [breakLong, if_pos (by rw [h.curr, hlen]), hput, Option.bind_some, hflush]
  · rw [hprinted₂, hprinted, hindex]

end Steps

/-! ## The characters of a line -/

/-- A character that ends no line and no string. -/
def IsText (ch : Byte) : Prop := ch ≠ cr ∧ ch ≠ lf ∧ ch ≠ 0

/-- What a piece is printed as if the line goes on. -/
def continued (piece : List Byte) : List Byte := piece ++ [backslash]

section Line

variable {d : LddTtyDev pageShift} {held : List Byte} {ch : Byte}

theorem lineStep_text (hch : IsText ch) :
    lineStep d ch = (breakLong d).bind fun d => putChar d ch := by
  unfold lineStep
  congr 1
  funext d₁
  rw [if_neg]
  rintro (hcr | hlf)
  · exact hch.1 hcr
  · exact hch.2.1 hlf

theorem lineStep_text_short (h : Holds d held) (hlen : held.length < lddLineLong)
    (hch : IsText ch) :
    ∃ d', lineStep d ch = some d' ∧ Holds d' (held ++ [ch]) ∧ d'.index = d.index ∧
      d'.printed = d.printed := by
  rw [lineStep_text hch, breakLong_short h hlen, Option.bind_some]
  exact putChar_holds h hlen.le hch.2.2

theorem lineStep_text_full (h : Holds d held) (hlen : held.length = lddLineLong)
    (hch : IsText ch) :
    ∃ d', lineStep d ch = some d' ∧ Holds d' [ch] ∧ d'.index = d.index ∧
      d'.printed = d.printed ++ [(d.index, continued held)] := by
  obtain ⟨d₁, hbreak, hholds, hindex, hprinted⟩ := breakLong_full h hlen
  obtain ⟨d₂, hput, hholds₂, hindex₂, hprinted₂⟩ :=
    putChar_holds hholds (Nat.zero_le _) hch.2.2
  refine ⟨d₂, ?_, hholds₂, hindex₂.trans hindex, hprinted₂.trans hprinted⟩
  rw [lineStep_text hch, hbreak, Option.bind_some, hput]

/-- The text of a line, with the full pieces that have been printed and the last one, which is still
in the buffer. -/
structure Cut (line : List Byte) (full : List (List Byte)) (last : List Byte) : Prop where
  whole : full.flatten ++ last = line
  full : ∀ piece ∈ full, piece.length = lddLineLong
  last_le : last.length ≤ lddLineLong
  last_pos : line ≠ [] → last ≠ []

/-- The induction is over the characters to come; what the buffer holds before them is the
beginning of the first piece. -/
theorem collect (rest : List Byte) (hrest : ∀ ch ∈ rest, IsText ch) (h : Holds d held)
    (hlen : held.length ≤ lddLineLong) :
    ∃ d' full last, rest.foldlM lineStep d = some d' ∧ Holds d' last ∧ d'.index = d.index ∧
      d'.printed = d.printed ++ full.map (fun piece => (d.index, continued piece)) ∧
      Cut (held ++ rest) full last := by
  induction rest generalizing d held with
  | nil =>
    refine ⟨d, [], held, rfl, h, rfl, ?_, ?_, ?_, hlen, ?_⟩
    · rw [List.map_nil, List.append_nil]
    · rw [List.flatten_nil, List.nil_append, List.append_nil]
    · intro piece hmem
      cases hmem
    · rw [List.append_nil]
      exact id
  | cons ch rest ih =>
    have hch := hrest ch List.mem_cons_self
    have hmore : ∀ c ∈ rest, IsText c := fun c hmem => hrest c (List.mem_cons_of_mem ch hmem)
    rw [List.foldlM_cons]
    rcases Nat.lt_or_eq_of_le hlen with hshort | hfull
    · obtain ⟨d₁, hstep, hholds, hindex, hprinted⟩ := lineStep_text_short h hshort hch
      have hlen₁ : (held ++ [ch]).length ≤ lddLineLong := by
        rw [List.length_append]
        exact hshort
      obtain ⟨d', full, last, hfold, hlast, hindex', hprinted', hcut⟩ := ih hmore hholds hlen₁
      refine ⟨d', full, last, ?_, hlast, hindex'.trans hindex, ?_, ?_⟩
      · rw [hstep]
        exact hfold
      · rw [hprinted', hprinted, hindex]
      · rwa [List.append_assoc] at hcut
    · obtain ⟨d₁, hstep, hholds, hindex, hprinted⟩ := lineStep_text_full h hfull hch
      obtain ⟨d', full, last, hfold, hlast, hindex', hprinted', hcut⟩ :=
        ih hmore hholds (show 1 ≤ 80 by decide)
      refine ⟨d', held :: full, last, ?_, hlast, hindex'.trans hindex, ?_, ?_, ?_, hcut.last_le,
        fun _ => hcut.last_pos (by simp)⟩
      · rw [hstep]
        exact hfold
      · rw [hprinted', hprinted, hindex, List.map_cons, List.append_assoc]
        rfl
      · rw [List.flatten_cons, List.append_assoc, hcut.whole]
        rfl
      · intro piece hmem
        rcases List.mem_cons.mp hmem with rfl | hmem
        · exact hfull
        · exact hcut.full piece hmem

end Line

/-! ## The end of a line -/

section End

variable {d : LddTtyDev pageShift} {last : List Byte} {ch : Byte}

/-- A terminator prints what a line holds, with a backslash where that is a full piece. -/
theorem lineStep_end (h : Holds d last) (hne : last ≠ []) (hlen : last.length ≤ lddLineLong)
    (hch : ch = cr ∨ ch = lf) :
    ∃ d', lineStep d ch = some d' ∧ d'.bufferCurr = 0 ∧ d'.printed = d.printed ++
      [(d.index, if last.length = lddLineLong then continued last else last)] := by
  rcases Nat.lt_or_eq_of_le hlen with hshort | hfull
  · obtain ⟨d', hflush, hholds, -, hprinted⟩ := flush_holds h hne (Nat.le_succ_of_le hlen)
    refine ⟨d', ?_, hholds.curr, ?_⟩
    · rw [lineStep, breakLong_short h hshort, Option.bind_some, if_pos hch, hflush]
    · rw [hprinted, if_neg (Nat.ne_of_lt hshort)]
  · obtain ⟨d', hbreak, hholds, -, hprinted⟩ := breakLong_full h hfull
    have hempty : ¬ d'.bufferCurr > 0 := by
      rw [hholds.curr]
      exact Nat.lt_irrefl 0
    refine ⟨d', ?_, hholds.curr, ?_⟩
    · rw [lineStep, hbreak, Option.bind_some, if_pos hch, lddTtyFlush, if_neg hempty]
    · rw [hprinted, if_pos hfull]
      rfl

/-- What the last piece of a line is printed as. -/
def lastText (last : List Byte) (ending : Ending) : List Byte :=
  if last.length = lddLineLong ∧ ending ≠ .close then continued last else last

theorem foldlM_end (ending : Ending) (hend : ending ≠ .close) (h : Holds d last) (hne : last ≠ [])
    (hlen : last.length ≤ lddLineLong) :
    ∃ d', ending.bytes.foldlM lineStep d = some d' ∧ d'.bufferCurr = 0 ∧
      d'.printed = d.printed ++ [(d.index, lastText last ending)] := by
  have htext : lastText last ending =
      if last.length = lddLineLong then continued last else last := by
    simp only [lastText, hend, ne_eq, not_false_eq_true, and_true]
  rw [htext]
  cases ending with
  | lf =>
    obtain ⟨d', hstep, hresult⟩ := lineStep_end h hne hlen (.inr rfl)
    exact ⟨d', by rw [Ending.bytes, List.foldlM_cons, hstep]; rfl, hresult⟩
  | cr =>
    obtain ⟨d', hstep, hresult⟩ := lineStep_end h hne hlen (.inl rfl)
    exact ⟨d', by rw [Ending.bytes, List.foldlM_cons, hstep]; rfl, hresult⟩
  | crlf =>
    obtain ⟨d', hstep, hempty, hprinted⟩ := lineStep_end h hne hlen (.inl rfl)
    refine ⟨d', ?_, hempty, hprinted⟩
    rw [Ending.bytes, List.foldlM_cons, hstep]
    exact foldlM_lf_empty 1 hempty
  | close => exact absurd rfl hend

theorem shutdown_holds (h : Holds d last) (hne : last ≠ []) (hlen : last.length ≤ lddLineLong) :
    ∃ d', lddPortShutdown d = some d' ∧ d'.bufferCurr = 0 ∧
      d'.printed = d.printed ++ [(d.index, lastText last .close)] := by
  obtain ⟨d', hflush, hholds, -, hprinted⟩ := flush_holds h hne (Nat.le_succ_of_le hlen)
  refine ⟨d', hflush, hholds.curr, ?_⟩
  rw [hprinted, lastText, if_neg (fun hfull => hfull.2 rfl)]

end End

theorem endLine_eq (d : LddTtyDev pageShift) {line : List Byte} {ending : Ending}
    {calls : List (List Byte)} (hcalls : calls.flatten = line ++ ending.bytes)
    (hint : ∀ buf ∈ calls, buf.length ≤ intMax) :
    endLine d calls ending = (line.foldlM lineStep d).bind fun d₁ =>
      (ending.bytes.foldlM lineStep d₁).bind fun d₂ =>
        if ending = .close then lddPortShutdown d₂ else some d₂ := by
  have hall : writeAll d calls = (line.foldlM lineStep d).bind fun d₁ =>
      ending.bytes.foldlM lineStep d₁ := by
    rw [writeAll_eq_foldlM d calls hint, hcalls, List.foldlM_append]
    rfl
  cases ending with
  | close =>
    rw [endLine, hall, Option.bind_assoc]
    rfl
  | lf | cr | crlf =>
    rw [endLine, hall]
    · simp
    · intro h
      cases h

/-- Whatever ends a line, its full pieces are printed with a backslash, and the last one as
lastText says. -/
theorem endLine_prints (d : LddTtyDev pageShift) (hempty : d.bufferCurr = 0) {line : List Byte}
    (hline : line ≠ []) (htext : ∀ ch ∈ line, IsText ch) {ending : Ending}
    {calls : List (List Byte)} (hcalls : calls.flatten = line ++ ending.bytes)
    (hint : ∀ buf ∈ calls, buf.length ≤ intMax) :
    ∃ d' full last, endLine d calls ending = some d' ∧ d'.bufferCurr = 0 ∧ Cut line full last ∧
      d'.printed = d.printed ++
        (full.map continued ++ [lastText last ending]).map (Prod.mk d.index) := by
  obtain ⟨d₁, full, last, hfold, hholds, hindex, hprinted, hcut⟩ :=
    collect line htext (holds_nil hempty) (Nat.zero_le _)
  have hne := hcut.last_pos hline
  have hend : ∃ d', ((ending.bytes.foldlM lineStep d₁).bind fun d₂ =>
      if ending = .close then lddPortShutdown d₂ else some d₂) = some d' ∧ d'.bufferCurr = 0 ∧
      d'.printed = d₁.printed ++ [(d₁.index, lastText last ending)] := by
    by_cases hclose : ending = .close
    · subst hclose
      exact shutdown_holds hholds hne hcut.last_le
    · obtain ⟨d', hbytes, hresult⟩ := foldlM_end ending hclose hholds hne hcut.last_le
      refine ⟨d', ?_, hresult⟩
      rw [hbytes, Option.bind_some, if_neg hclose]
  obtain ⟨d', hlast, hempty', hprinted'⟩ := hend
  refine ⟨d', full, last, ?_, hempty', hcut, ?_⟩
  · rw [endLine_eq d hcalls hint, hfold, Option.bind_some, hlast]
  · rw [hprinted', hprinted, hindex, List.map_append, List.map_map, List.append_assoc]
    rfl

theorem flatten_length {full : List (List Byte)} (h : ∀ piece ∈ full, piece.length = lddLineLong) :
    full.flatten.length = full.length * lddLineLong := by
  induction full with
  | nil => rfl
  | cons piece full ih =>
    rw [List.flatten_cons, List.length_append, h piece List.mem_cons_self,
      ih fun p hmem => h p (List.mem_cons_of_mem piece hmem), List.length_cons, Nat.succ_mul,
      Nat.add_comm]

theorem Cut.length {line : List Byte} {full : List (List Byte)} {last : List Byte}
    (h : Cut line full last) : full.length * lddLineLong + last.length = line.length := by
  rw [← h.whole, List.length_append, flatten_length h.full]

/-- The number of pieces is the length of the line divided by 80, rounded up. -/
theorem Cut.count {line : List Byte} {full : List (List Byte)} {last : List Byte}
    (h : Cut line full last) (hline : line ≠ []) :
    full.length + 1 = (line.length + (lddLineLong - 1)) / lddLineLong := by
  have hlength := h.length
  have hle := h.last_le
  have hpos := List.length_pos_iff.mpr (h.last_pos hline)
  unfold lddLineLong at *
  omega

/-- The last piece is full only where the length of the line is a multiple of 80. -/
theorem Cut.last_lt {line : List Byte} {full : List (List Byte)} {last : List Byte}
    (h : Cut line full last) (hmod : line.length % lddLineLong ≠ 0) :
    last.length < lddLineLong := by
  have hlength := h.length
  have hle := h.last_le
  unfold lddLineLong at *
  omega

/-- Where a piece that is not followed by another is at most 80 characters long, a text of 81 is
never the last. -/
theorem continued_not_last {full : List (List Byte)} {last text : List Byte} {i : Nat}
    (hlast : last.length ≤ lddLineLong) (hi : (full.map continued ++ [last])[i]? = some text)
    (htext : text.length = lddLineLong + 1) : i + 1 < full.length + 1 := by
  have hlt : i < (full.map continued ++ [last]).length := (List.getElem?_eq_some_iff.mp hi).1
  rw [List.length_append, List.length_map, List.length_singleton] at hlt
  rcases Nat.lt_or_eq_of_le (Nat.lt_succ_iff.mp hlt) with hfull | heq
  · omega
  · rw [heq, List.getElem?_append_right (by rw [List.length_map]), List.length_map, Nat.sub_self]
      at hi
    obtain rfl : last = text := Option.some.inj hi
    omega

/-- A line on which nothing has been written. -/
def fresh (pageShift : Fin 19) : LddTtyDev pageShift := ⟨0, 0, Vector.replicate _ 0, []⟩

/-- The letter a, n times. -/
def letters (n : Nat) : List Byte := List.replicate n 0x61

theorem letters_text (n : Nat) : ∀ ch ∈ letters n, IsText ch := by
  intro ch hmem
  rw [List.eq_of_mem_replicate hmem]
  unfold IsText
  decide

/-- What is printed of a line of 80 characters that a terminator ends. -/
theorem eighty_letters {ending : Ending} (hend : ending ≠ .close) :
    ∃ d', endLine (fresh 0) [letters 80 ++ ending.bytes] ending = some d' ∧
      d'.printed = [(0, letters 80 ++ [backslash])] := by
  have hint : ∀ buf ∈ [letters 80 ++ ending.bytes], buf.length ≤ intMax := by
    intro buf hmem
    rw [List.mem_singleton.mp hmem]
    cases ending <;> decide
  obtain ⟨d', full, last, hrun, -, hcut, hprinted⟩ :=
    endLine_prints (fresh 0) rfl (by decide) (letters_text 80) (List.flatten_singleton) hint
  have hlength : full.length * lddLineLong + last.length = 80 :=
    hcut.length.trans List.length_replicate
  have hpos := List.length_pos_iff.mpr (hcut.last_pos (by decide))
  have hnone : full.length = 0 := by
    unfold lddLineLong at hlength
    omega
  obtain rfl : full = [] := List.eq_nil_of_length_eq_zero hnone
  obtain rfl : last = letters 80 := hcut.whole
  refine ⟨d', hrun, ?_⟩
  rw [hprinted, lastText, if_pos ⟨rfl, hend⟩]
  rfl

end LinuxDeviceDriver.Drivers.TtyLines
