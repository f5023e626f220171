/- source: examples/07_ioctl/fops.c, lines 19 to 144; main.h, lines 12 to 24; ioctl_cmd.h
   digest: The ioctl device, and that reading it gives its message as many times as it was told. -/

import LinuxDeviceDriver.Drivers.Message
import LinuxDeviceDriver.Lib.Repetition
import LinuxDeviceDriver.Lib.Replies

set_option autoImplicit false

namespace LinuxDeviceDriver.Drivers.Ioctl

open Lib.Blocks (patch slice)
open Lib.LittleEndian (Byte)
open Lib.Repetition
open Lib.Replies
open CharFile (efault einval eperm)
open Message UserCopy

def enotty : Int := 25

def intMax : Nat := 2147483647

/-- The count is an unsigned int, but never more than INT_MAX. -/
structure IoctlDev (pageShift : Fin 19) where
  message : MessageBuffer pageShift
  howmany : BitVec 32
  howmany_le : howmany.toNat ≤ intMax

variable {pageShift : Fin 19}

def defaultHowmany : BitVec 32 := 3

/-- DEFAULT_MESSAGE, "Hello ioctl()!" and a newline. -/
def defaultMessage : List Byte :=
  [0x48, 0x65, 0x6c, 0x6c, 0x6f, 0x20, 0x69, 0x6f, 0x63, 0x74, 0x6c, 0x28, 0x29, 0x21, 0x0a]

theorem defaultMessage_fits (pageShift : Fin 19) :
    (BitVec.ofNat 64 defaultMessage.length).toNat ≤ buffSize pageShift := by
  have hle := le_buffSize pageShift
  have hlen : (BitVec.ofNat 64 defaultMessage.length).toNat = 15 := rfl
  omega

/-- The device as it is loaded and after IOCTL_RESET. -/
def ioctlDevSetDefault : IoctlDev pageShift where
  message :=
    { bufLen := BitVec.ofNat 64 defaultMessage.length
      buff := patch (Vector.replicate _ 0) 0 defaultMessage
      fits := defaultMessage_fits pageShift }
  howmany := defaultHowmany
  howmany_le := by decide

/-- What a read returns, with the bytes and the position it leaves. -/
structure Reply where
  value : Int
  data : List Byte
  fPos : BitVec 64
  deriving DecidableEq, Repr

/-- The position is divided as an unsigned number, since buf_len is a size_t. -/
def round (dev : IoctlDev pageShift) (fPos : BitVec 64) : BitVec 64 := fPos / dev.message.bufLen

def offset (dev : IoctlDev pageShift) (fPos : BitVec 64) : BitVec 64 := fPos % dev.message.bufLen

def ioctlRead (dev : IoctlDev pageShift) (fPos : BitVec 64) (count : Nat) (c : Conditions) : Reply :=
  if dev.message.bufLen = 0 then ⟨0, [], fPos⟩
  -- the round is a loff_t, so the count is widened and the comparison is signed
  else if (dev.howmany.setWidth 64).sle (round dev fPos) then ⟨0, [], fPos⟩
  else
    let count := min count (dev.message.bufLen - offset dev fPos).toNat
    if c.uncopied count ≠ 0 then ⟨-efault, [], fPos⟩
    else
      ⟨count, slice dev.message.buff (offset dev fPos).toNat count, fPos + BitVec.ofNat 64 count⟩

/-- The argument of an ioctl: a number, and what stands there if it is an address, which is the len
of a struct ioctl_msg_arg unless that cannot be fetched, and the bytes that its msg points to. -/
structure IoctlArg where
  value : BitVec 64
  len : Option (BitVec 32) := none
  msg : Nat → Byte := fun _ => 0

def ioctlHowmany (dev : IoctlDev pageShift) (arg : BitVec 64) (capable : Bool) :
    IoctlDev pageShift × Int :=
  if !capable then (dev, -eperm)
  else if h : arg.toNat > intMax then (dev, -einval)
  else
    ({ dev with
        howmany := arg.truncate 32
        howmany_le := by
          rw [BitVec.truncate_eq_setWidth, BitVec.toNat_setWidth]
          exact (Nat.mod_le _ _).trans (not_lt.mp h) },
      dev.howmany.toNat)

/-- The bytes that copy_from_user is asked for. -/
def IoctlArg.text (arg : IoctlArg) (len : BitVec 32) : List Byte :=
  (List.range len.toNat).map arg.msg

/-- The length that IOCTL_MESSAGE refuses. -/
def badLen (pageShift : Fin 19) (len : BitVec 32) : Prop :=
  len.slt 0 ∨ (len.signExtend 64).toNat > buffSize pageShift

instance (len : BitVec 32) : Decidable (badLen pageShift len) :=
  inferInstanceAs (Decidable (_ ∨ _))

theorem len_fits {len : BitVec 32} (h : ¬ badLen pageShift len) :
    (len.signExtend 64).toNat ≤ buffSize pageShift := by
  unfold badLen at h
  omega

def ioctlMessage (dev : IoctlDev pageShift) (arg : IoctlArg) (c : Conditions) :
    IoctlDev pageShift × Int :=
  match arg.len with
  | none => (dev, -efault)
  | some len =>
    if h : badLen pageShift len then (dev, -einval)
    else
      let copied := dev.message.copyIn c (arg.text len)
      if c.uncopied (arg.text len).length ≠ 0 then ({ dev with message := copied }, -efault)
      else
        ({ dev with
            message :=
              { bufLen := len.signExtend 64
                -- the memset behind the message
                buff := patch copied.buff len.toNat
                  (List.replicate (buffSize pageShift - len.toNat) 0)
                fits := len_fits h } }, 0)

def ioctlIocMagic : BitVec 32 := 0x64
def ioctlReset : BitVec 32 := 0x6400
def ioctlHowmanyCmd : BitVec 32 := 0x6401
/-- The size of struct ioctl_msg_arg, 16 bytes, is part of the number. -/
def ioctlMessageCmd : BitVec 32 := 0x40106402
def ioctlMaxnr : BitVec 32 := 2

def iocType (cmd : BitVec 32) : BitVec 32 := (cmd >>> 8) &&& 0xff
def iocNr (cmd : BitVec 32) : BitVec 32 := cmd &&& 0xff

def ioctlIoctl (dev : IoctlDev pageShift) (cmd : BitVec 32) (arg : IoctlArg) (capable : Bool)
    (c : Conditions) : IoctlDev pageShift × Int :=
  if iocType cmd ≠ ioctlIocMagic then (dev, -enotty)
  else if iocNr cmd > ioctlMaxnr then (dev, -enotty)
  else if cmd = ioctlReset then (ioctlDevSetDefault, 0)
  else if cmd = ioctlHowmanyCmd then ioctlHowmany dev arg.value capable
  else if cmd = ioctlMessageCmd then ioctlMessage dev arg c
  else (dev, -enotty)

/-! ## The message, so many times -/

/-- What the device holds for a reader. -/
def whole (dev : IoctlDev pageShift) : List Byte :=
  (List.replicate dev.howmany.toNat dev.message.text).flatten

/-- How many bytes a read at a position moves: none behind the end, and else no more than to the
end of the copy that it begins in. -/
def readCount (dev : IoctlDev pageShift) (p : BitVec 64) (count : Nat) : Nat :=
  if p.toNat < (whole dev).length then
    min count (dev.message.bufLen.toNat - p.toNat % dev.message.bufLen.toNat)
  else 0

/-- What a read at a position comes to; positions are integers here, so that nothing wraps. -/
inductive Reads (dev : IoctlDev pageShift) (p : BitVec 64) (count : Nat) (c : Conditions) :
    Reply → Prop
  | faulted (h : c.uncopied (readCount dev p count) ≠ 0) : Reads dev p count c ⟨-efault, [], p⟩
  | done (next : BitVec 64) (hcopy : c.uncopied (readCount dev p count) = 0)
      (hnext : next.toInt = p.toInt + readCount dev p count) :
      Reads dev p count c
        ⟨readCount dev p count, ((whole dev).drop p.toNat).take (readCount dev p count), next⟩

/-- The quotient, the remainder and the rest of the copy are those of the integers. -/
structure Exact (dev : IoctlDev pageShift) (p : BitVec 64) : Prop where
  round : (round dev p).toInt = p.toInt / dev.message.bufLen.toNat
  offset : (offset dev p).toNat = p.toInt % dev.message.bufLen.toNat
  rest : (dev.message.bufLen - Ioctl.offset dev p).toNat =
    dev.message.bufLen.toNat - p.toInt % dev.message.bufLen.toNat

section Read

variable {dev : IoctlDev pageShift} {p : BitVec 64} {count : Nat} {c : Conditions}

theorem whole_length (dev : IoctlDev pageShift) :
    (whole dev).length = dev.howmany.toNat * dev.message.bufLen.toNat := by
  rw [whole, length_flatten_replicate, MessageBuffer.text_length]

theorem whole_length_lt (dev : IoctlDev pageShift) : (whole dev).length < 2 ^ 62 := by
  have hmany : dev.howmany.toNat < 2 ^ 31 := Nat.lt_succ_of_le dev.howmany_le
  have hlen : dev.message.bufLen.toNat < 2 ^ 31 :=
    Nat.lt_of_le_of_lt dev.message.fits (buffSize_lt pageShift)
  rw [whole_length]
  calc dev.howmany.toNat * dev.message.bufLen.toNat < 2 ^ 31 * 2 ^ 31 := Nat.mul_lt_mul'' hmany hlen
    _ = 2 ^ 62 := rfl

theorem position_lt (hp : 0 ≤ p.toInt) : p.toNat < 2 ^ 63 ∧ p.toInt = p.toNat := by
  rw [BitVec.toInt_eq_toNat_cond] at hp ⊢
  have hlt := p.isLt
  split
  · exact ⟨by omega, rfl⟩
  · next hge =>
    rw [if_neg hge] at hp
    omega

theorem bufLen_pos (h : dev.message.bufLen ≠ 0) : 0 < dev.message.bufLen.toNat := by
  apply Nat.pos_of_ne_zero
  intro hzero
  exact h (BitVec.eq_of_toNat_eq hzero)

theorem offset_lt (h : dev.message.bufLen ≠ 0) (p : BitVec 64) :
    (offset dev p).toNat = p.toNat % dev.message.bufLen.toNat ∧
      (offset dev p).toNat < dev.message.bufLen.toNat := by
  have hmod : (offset dev p).toNat = p.toNat % dev.message.bufLen.toNat := BitVec.toNat_umod
  have hlt := Nat.mod_lt p.toNat (bufLen_pos h)
  exact ⟨hmod, by omega⟩

theorem rest_toNat (h : dev.message.bufLen ≠ 0) (p : BitVec 64) :
    (dev.message.bufLen - offset dev p).toNat =
      dev.message.bufLen.toNat - p.toNat % dev.message.bufLen.toNat := by
  obtain ⟨hmod, hlt⟩ := offset_lt h p
  have hle : offset dev p ≤ dev.message.bufLen := by
    rw [BitVec.le_def]
    omega
  rw [BitVec.toNat_sub_of_le hle, hmod]

theorem round_toInt (hp : 0 ≤ p.toInt) :
    (round dev p).toInt = (p.toNat / dev.message.bufLen.toNat : Nat) := by
  have hlt := (position_lt hp).1
  have hdiv : (round dev p).toNat = p.toNat / dev.message.bufLen.toNat := BitVec.toNat_udiv
  have hle := Nat.div_le_self p.toNat dev.message.bufLen.toNat
  rw [BitVec.toInt_eq_toNat_of_lt (by omega), hdiv]

theorem exact_of_nonneg (h : dev.message.bufLen ≠ 0) (hp : 0 ≤ p.toInt) : Exact dev p := by
  have hint := (position_lt hp).2
  obtain ⟨hmod, hlt⟩ := offset_lt h p
  refine ⟨?_, ?_, ?_⟩
  · rw [round_toInt hp, hint, Int.natCast_ediv]
  · rw [hmod, hint, Int.natCast_emod]
  · rw [rest_toNat h, hint, ← Int.natCast_emod]
    omega

theorem past_iff (h : dev.message.bufLen ≠ 0) (hp : 0 ≤ p.toInt) :
    (dev.howmany.setWidth 64).sle (round dev p) = true ↔ (whole dev).length ≤ p.toNat := by
  have hmany : (dev.howmany.setWidth 64).toInt = dev.howmany.toNat := by
    have hle := dev.howmany_le
    unfold intMax at hle
    have hwide : (dev.howmany.setWidth 64).toNat = dev.howmany.toNat := by
      rw [BitVec.toNat_setWidth]
      omega
    rw [BitVec.toInt_eq_toNat_of_lt (by omega), hwide]
  rw [BitVec.sle_eq_decide, decide_eq_true_iff, hmany, round_toInt hp, Int.ofNat_le, whole_length,
    Nat.le_div_iff_mul_le (bufLen_pos h)]

theorem copy_fits (h : dev.message.bufLen ≠ 0) (hlt : p.toNat < (whole dev).length) :
    p.toNat + (dev.message.bufLen.toNat - p.toNat % dev.message.bufLen.toNat) ≤
      (whole dev).length := by
  rw [whole_length] at hlt ⊢
  have hround : p.toNat / dev.message.bufLen.toNat + 1 ≤ dev.howmany.toNat :=
    (Nat.div_lt_iff_lt_mul (bufLen_pos h)).mpr hlt
  have hend := Nat.mul_le_mul_right dev.message.bufLen.toNat hround
  have hsplit := Nat.div_add_mod p.toNat dev.message.bufLen.toNat
  rw [Nat.add_mul, Nat.one_mul, Nat.mul_comm] at hend
  omega

theorem readCount_le (dev : IoctlDev pageShift) (p : BitVec 64) (count : Nat) :
    readCount dev p count ≤ (whole dev).length - p.toNat := by
  unfold readCount
  split
  · next hlt =>
    have h : dev.message.bufLen ≠ 0 := by
      intro hzero
      rw [whole_length, hzero] at hlt
      exact Nat.not_lt_zero _ hlt
    have hfits := copy_fits h hlt
    omega
  · exact Nat.zero_le _

/-- A read that asks for something gets something unless the position is at the end. -/
theorem readCount_eq_zero (hcount : 0 < count) (h : readCount dev p count = 0) :
    (whole dev).length ≤ p.toNat := by
  by_contra hlt
  rw [Nat.not_le] at hlt
  rw [readCount, if_pos hlt] at h
  have hpos : 0 < dev.message.bufLen.toNat := by
    rw [whole_length] at hlt
    exact Nat.pos_of_mul_pos_left (Nat.lt_of_le_of_lt (Nat.zero_le _) hlt)
  have hmod := Nat.mod_lt p.toNat hpos
  omega

/-- What stands in the buffer at the offset is what the repeated message has at the position. -/
theorem slice_whole (h : dev.message.bufLen ≠ 0) (hlt : p.toNat < (whole dev).length) {k : Nat}
    (hk : k ≤ dev.message.bufLen.toNat - p.toNat % dev.message.bufLen.toNat) :
    slice dev.message.buff (p.toNat % dev.message.bufLen.toNat) k =
      ((whole dev).drop p.toNat).take k := by
  have hmod := Nat.mod_lt p.toNat (bufLen_pos h)
  have hlen := dev.message.text_length
  have hne : dev.message.text ≠ [] := by
    rw [← List.length_pos_iff, hlen]
    exact bufLen_pos h
  have hfit := copy_fits h hlt
  rw [whole_length] at hfit
  rw [MessageBuffer.slice_text (by omega), whole, drop_flatten_replicate hne, hlen,
    take_repeated hne (by omega), repeated_inside (by rw [hlen]; omega), hlen]

theorem read_reads (dev : IoctlDev pageShift) (hp : 0 ≤ p.toInt) (count : Nat) (c : Conditions) :
    Reads dev p count c (ioctlRead dev p count c) := by
  have hnothing : (whole dev).length ≤ p.toNat → Reads dev p count c ⟨0, [], p⟩ := by
    intro hpast
    have hzero : readCount dev p count = 0 := if_neg (by omega)
    have hcopy : c.uncopied (readCount dev p count) = 0 := by
      have hle := uncopied_le c (readCount dev p count)
      omega
    have hdone : Reads dev p count c _ := .done p hcopy (by omega)
    rw [hzero, List.take_zero] at hdone
    exact hdone
  unfold ioctlRead
  split
  · next hempty =>
    apply hnothing
    rw [whole_length, hempty]
    exact Nat.zero_le _
  · next h =>
    split
    · next hpast => exact hnothing ((past_iff h hp).mp hpast)
    · next hinside =>
      have hlt : p.toNat < (whole dev).length := by
        rw [past_iff h hp] at hinside
        omega
      have hcount : min count (dev.message.bufLen - offset dev p).toNat = readCount dev p count := by
        rw [rest_toNat h, readCount, if_pos hlt]
      have hle : readCount dev p count ≤
          dev.message.bufLen.toNat - p.toNat % dev.message.bufLen.toNat := by
        rw [readCount, if_pos hlt]
        exact Nat.min_le_right _ _
      dsimp only
      rw [hcount, (offset_lt h p).1, slice_whole h hlt hle]
      split
      · next hfault => exact .faulted hfault
      · next hcopy =>
        refine .done _ (not_not.mp hcopy) ?_
        have hend := whole_length_lt dev
        have hfits := dev.message.fits
        have hsmall := buffSize_lt pageShift
        have hsum : (p + BitVec.ofNat 64 (readCount dev p count)).toNat =
            p.toNat + readCount dev p count := by
          rw [BitVec.toNat_add, BitVec.toNat_ofNat]
          omega
        rw [BitVec.toInt_eq_toNat_of_lt (by omega), hsum, (position_lt hp).2, Int.natCast_add]

end Read

/-! ## Runs -/

/-- A read at the position that the last one has left. -/
def ioctlReadNext (dev : IoctlDev pageShift) (p : BitVec 64) (call : Nat × Conditions) :
    BitVec 64 × Reply :=
  ((ioctlRead dev p call.1 call.2).fPos, ioctlRead dev p call.1 call.2)

/-- All that the calls have returned. -/
def returned (out : List Reply) : List Byte := out.flatMap Reply.data

section Runs

variable {dev : IoctlDev pageShift} {p : BitVec 64} {count : Nat} {c : Conditions} {r : Reply}

theorem Reads.position (h : Reads dev p count c r) : r.fPos.toInt = p.toInt + r.data.length := by
  cases h with
  | faulted => exact (Int.add_zero _).symm
  | done next _ hnext =>
    have hle := readCount_le dev p count
    have hlen : (((whole dev).drop p.toNat).take (readCount dev p count)).length =
        readCount dev p count := by
      rw [List.length_take, List.length_drop]
      omega
    dsimp only
    rw [hlen, hnext]

/-- What a read returns and what is left behind it is what was there before. -/
theorem Reads.rest (h : Reads dev p count c r) (hp : 0 ≤ p.toInt) :
    r.data ++ (whole dev).drop r.fPos.toNat = (whole dev).drop p.toNat := by
  cases h with
  | faulted => rfl
  | done next _ hnext =>
    have hint := (position_lt hp).2
    have hnext' : next.toNat = p.toNat + readCount dev p count := by
      have hint' := (position_lt (p := next) (by omega)).2
      omega
    dsimp only
    rw [hnext', ← List.drop_drop, List.take_append_drop]

theorem Reads.zero (h : Reads dev p count c r) (hcount : 0 < count) (hr : r.value = 0) :
    (whole dev).length ≤ p.toNat := by
  cases h with
  | faulted => cases hr
  | done _ _ _ => exact readCount_eq_zero hcount (Int.natCast_eq_zero.mp hr)

/-- A call that neither fails nor returns 0 returns at least a byte. -/
theorem Reads.some (h : Reads dev p count c r) (hzero : r.value ≠ 0) (hfault : r.value ≠ -efault) :
    0 < r.data.length := by
  cases h with
  | faulted => exact absurd rfl hfault
  | done _ _ _ =>
    have hle := readCount_le dev p count
    dsimp only at hzero ⊢
    rw [List.length_take, List.length_drop]
    omega

theorem returned_cons (dev : IoctlDev pageShift) (p : BitVec 64) (call : Nat × Conditions)
    (calls : List (Nat × Conditions)) :
    returned (replies (ioctlReadNext dev) p (call :: calls)) =
      (ioctlRead dev p call.1 call.2).data ++
        returned (replies (ioctlReadNext dev) (ioctlRead dev p call.1 call.2).fPos calls) := rfl

/-- After any reads, the position has moved by what they returned, and what they returned is what
was there before. -/
theorem run_position (dev : IoctlDev pageShift) (hp : 0 ≤ p.toInt) (calls : List (Nat × Conditions)) :
    (after (ioctlReadNext dev) p calls).toInt =
      p.toInt + (returned (replies (ioctlReadNext dev) p calls)).length ∧
    returned (replies (ioctlReadNext dev) p calls) ++
      (whole dev).drop (after (ioctlReadNext dev) p calls).toNat = (whole dev).drop p.toNat := by
  induction calls generalizing p with
  | nil => exact ⟨(Int.add_zero _).symm, rfl⟩
  | cons call calls ih =>
    have hread := read_reads dev hp call.1 call.2
    have hpos := hread.position
    obtain ⟨hmoved, hrest⟩ := ih (p := (ioctlRead dev p call.1 call.2).fPos) (by omega)
    constructor
    · rw [returned_cons, List.length_append, Int.natCast_add, ← Int.add_assoc, ← hpos]
      exact hmoved
    · rw [returned_cons, List.append_assoc, ← hread.rest hp]
      exact congrArg _ hrest

theorem run_zero (hp : 0 ≤ p.toInt) (calls : List (Nat × Conditions))
    (hcounts : ∀ call ∈ calls, 0 < call.1)
    (h : ∃ r ∈ replies (ioctlReadNext dev) p calls, r.value = 0) :
    (whole dev).length ≤ (after (ioctlReadNext dev) p calls).toNat := by
  induction calls generalizing p with
  | nil =>
    obtain ⟨r, hr, -⟩ := h
    cases hr
  | cons call calls ih =>
    have hread := read_reads dev hp call.1 call.2
    have hpos := hread.position
    obtain ⟨r, hr, hvalue⟩ := h
    rcases List.mem_cons.mp hr with rfl | hr
    · have hpast := hread.zero (hcounts call List.mem_cons_self) hvalue
      have hmoved := (run_position dev hp (call :: calls)).1
      have hint := (position_lt hp).2
      have hint' := (position_lt (p := after (ioctlReadNext dev) p (call :: calls)) (by omega)).2
      omega
    · exact ih (p := (ioctlRead dev p call.1 call.2).fPos) (by omega)
        (fun call' hmem => hcounts call' (List.mem_cons_of_mem call hmem)) ⟨r, hr, hvalue⟩

/-- As long as none has, every call that does not fail has returned at least a byte. -/
theorem run_progress (hp : 0 ≤ p.toInt) (calls : List (Nat × Conditions))
    (h : ∀ r ∈ replies (ioctlReadNext dev) p calls, r.value ≠ 0) :
    ((replies (ioctlReadNext dev) p calls).filter (fun r => r.value ≠ -efault)).length ≤
      (returned (replies (ioctlReadNext dev) p calls)).length := by
  induction calls generalizing p with
  | nil => exact Nat.le_refl 0
  | cons call calls ih =>
    have hread := read_reads dev hp call.1 call.2
    have hpos := hread.position
    have hrest := ih (p := (ioctlRead dev p call.1 call.2).fPos) (by omega)
      fun r hr => h r (List.mem_cons_of_mem _ hr)
    rw [returned_cons, List.length_append, replies, List.filter_cons]
    split
    · next hok =>
      have hsome := hread.some (h _ List.mem_cons_self) (of_decide_eq_true hok)
      rw [List.length_cons]
      exact Nat.add_comm _ 1 ▸ Nat.add_le_add hsome hrest
    · exact hrest.trans (Nat.le_add_left _ _)

end Runs

/-- Reads that ask for something, from any position on: as long as the device is not told otherwise
they return the message repeated, from that position on, and once one of them returns 0 they have
returned all of it; one that returns 0 comes before there are more calls than bytes. On the way the
position moves by what was returned, and the numbers it is split into are those of the integers. -/
theorem ioctl_reads_repeat (dev : IoctlDev pageShift) (p : BitVec 64) (hp : 0 ≤ p.toInt)
    (calls : List (Nat × Conditions)) (hcounts : ∀ call ∈ calls, 0 < call.1) :
    let q := after (ioctlReadNext dev) p calls
    let out := replies (ioctlReadNext dev) p calls
    q.toInt = p.toInt + (returned out).length ∧
    (dev.message.bufLen ≠ 0 → Exact dev q) ∧
    (∀ count c, Reads dev q count c (ioctlRead dev q count c)) ∧
    (∃ rest, returned out ++ rest = (whole dev).drop p.toNat) ∧
    ((∃ r ∈ out, r.value = 0) → returned out = (whole dev).drop p.toNat) ∧
    ((whole dev).length - p.toNat < (out.filter fun r => r.value ≠ -efault).length →
      ∃ r ∈ out, r.value = 0) := by
  intro q out
  obtain ⟨hmoved, hrest⟩ :
      q.toInt = p.toInt + (returned out).length ∧
        returned out ++ (whole dev).drop q.toNat = (whole dev).drop p.toNat :=
    run_position dev hp calls
  have hq : 0 ≤ q.toInt := by omega
  refine ⟨hmoved, ?_, ?_, ⟨_, hrest⟩, ?_, ?_⟩
  · intro hlen
    exact exact_of_nonneg hlen hq
  · intro count c
    exact read_reads dev hq count c
  · intro hzero
    have hpast : (whole dev).length ≤ q.toNat := run_zero hp calls hcounts hzero
    rwa [List.drop_eq_nil_of_le hpast, List.append_nil] at hrest
  · intro hmany
    by_contra hnone
    have hprogress : (out.filter fun r => r.value ≠ -efault).length ≤ (returned out).length :=
      run_progress hp calls fun r hr hvalue => hnone ⟨r, hr, hvalue⟩
    have hlen := congrArg List.length hrest
    rw [List.length_append, List.length_drop, List.length_drop] at hlen
    omega

/-- The default message, read from its fourth byte on: two reads of which the first is cut at the
end of a copy. -/
theorem ioctl_reads_repeat_default :
    let dev : IoctlDev 0 := ioctlDevSetDefault
    let calls : List (Nat × Conditions) := [(100, {}), (100, {})]
    0 ≤ (3 : BitVec 64).toInt ∧ (∀ call ∈ calls, 0 < call.1) ∧
      ∃ rest, returned (replies (ioctlReadNext dev) 3 calls) ++ rest = (whole dev).drop 3 := by
  intro dev calls
  have hcounts : ∀ call ∈ calls, 0 < call.1 := by simp [calls]
  have hp : 0 ≤ (3 : BitVec 64).toInt := by decide
  exact ⟨hp, hcounts, (ioctl_reads_repeat dev 3 hp calls hcounts).2.2.2.1⟩

end LinuxDeviceDriver.Drivers.Ioctl
