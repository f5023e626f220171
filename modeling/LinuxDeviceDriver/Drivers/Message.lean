/- source: examples/07_ioctl/main.h, examples/10_poll/main.h and
     examples/11_asynchronous_notification/main.h, the fields buf_len and buff; the bodies that
     poll_read and async_notify_read, and poll_write and async_notify_write, share
   digest: One message of up to a page, and what a copy from the user over it leaves of it. -/

import LinuxDeviceDriver.Drivers.CharFile
import LinuxDeviceDriver.Drivers.UserCopy

set_option autoImplicit false

namespace LinuxDeviceDriver.Drivers.Message

open Lib.Blocks (patch slice slice_length slice_append slice_patch
  slice_patch_disjoint slice_zero)
open Lib.LittleEndian (Byte)
open CharFile (efault)
open UserCopy

/-- BUFF_SIZE is PAGE_SIZE, which the architecture chooses: 4096 bytes or a multiple of that by a
power of two, and it fits an int. -/
def buffSize (pageShift : Fin 19) : Nat := 2 ^ (12 + pageShift.val)

theorem buffSize_lt (pageShift : Fin 19) : buffSize pageShift < 2 ^ 31 :=
  Nat.pow_lt_pow_right (by decide) (by omega)

theorem le_buffSize (pageShift : Fin 19) : 4096 ≤ buffSize pageShift :=
  Nat.pow_le_pow_right (show 0 < 2 by decide) (Nat.le_add_right 12 pageShift.val)

variable {pageShift : Fin 19}

/-- The stored message: buf_len is a size_t, and never more than the buffer holds. -/
structure MessageBuffer (pageShift : Fin 19) where
  bufLen : BitVec 64
  buff : Vector Byte (buffSize pageShift)
  fits : bufLen.toNat ≤ buffSize pageShift

namespace MessageBuffer

/-- The message itself. -/
def text (m : MessageBuffer pageShift) : List Byte := slice m.buff 0 m.bufLen.toNat

/-- The buffer after copy_from_user, whether or not that could fetch everything. -/
def copyIn (m : MessageBuffer pageShift) (c : Conditions) (src : List Byte) :
    MessageBuffer pageShift :=
  { m with buff := patch m.buff 0 (fetched c src) }

theorem length_fits (src : List Byte) :
    (BitVec.ofNat 64 (src.take (buffSize pageShift)).length).toNat ≤ buffSize pageShift := by
  have hlt := buffSize_lt pageShift
  rw [BitVec.toNat_ofNat, List.length_take]
  exact (Nat.mod_le _ _).trans (Nat.min_le_left _ _)

/-- What poll_read and async_notify_read do with the mutex held. -/
def fetch (m : MessageBuffer pageShift) (count : Nat) (c : Conditions) : Int × List Byte :=
  let count := min count m.bufLen.toNat
  if c.uncopied count ≠ 0 then (-efault, []) else (count, slice m.buff 0 count)

/-- What poll_write and async_notify_write do with the mutex held: the new message replaces the
old one. -/
def store (m : MessageBuffer pageShift) (buff : List Byte) (c : Conditions) :
    MessageBuffer pageShift × Int :=
  let src := buff.take (buffSize pageShift)
  if c.uncopied src.length ≠ 0 then (m.copyIn c src, -efault)
  else (⟨BitVec.ofNat 64 src.length, (m.copyIn c src).buff, length_fits buff⟩, src.length)

/-- Two buffers with the same message in them, whatever stands behind it. -/
structure Same (m m' : MessageBuffer pageShift) : Prop where
  bufLen : m.bufLen = m'.bufLen
  text : m.text = m'.text

variable {m m' : MessageBuffer pageShift} {c : Conditions} {src buff : List Byte} {count : Nat}

theorem Same.refl (m : MessageBuffer pageShift) : Same m m := ⟨rfl, rfl⟩

theorem Same.symm (h : Same m m') : Same m' m := ⟨h.bufLen.symm, h.text.symm⟩

theorem text_length (m : MessageBuffer pageShift) : m.text.length = m.bufLen.toNat :=
  slice_length ((Nat.zero_add _).trans_le m.fits)

theorem slice_text {o k : Nat} (h : o + k ≤ m.bufLen.toNat) :
    slice m.buff o k = (m.text.drop o).take k := by
  rw [text, slice, slice, List.drop_zero, List.drop_take, List.take_take]
  congr 1
  omega

/-- What a copy from the user leaves: the bytes that it stored, and behind them the old message. -/
theorem copyIn_text (hsrc : src.length ≤ buffSize pageShift) :
    (m.copyIn c src).text =
      (fetched c src).take m.bufLen.toNat ++ m.text.drop src.length := by
  have hfits := m.fits
  have hlen := fetched_length c src
  show slice (patch m.buff 0 (fetched c src)) 0 m.bufLen.toNat = _
  have hstored : slice (patch m.buff 0 (fetched c src)) 0 src.length = fetched c src := by
    rw [← hlen]
    exact slice_patch (by omega)
  rcases Nat.le_total m.bufLen.toNat src.length with hle | hge
  · -- the copy covers the whole message
    have hnone : m.text.drop src.length = [] := by
      rw [List.drop_eq_nil_of_le]
      rw [text_length]
      exact hle
    have hfront : slice (patch m.buff 0 (fetched c src)) 0 m.bufLen.toNat =
        (slice (patch m.buff 0 (fetched c src)) 0 src.length).take m.bufLen.toNat := by
      rw [slice, slice, List.take_take, Nat.min_eq_left hle]
    rw [hnone, List.append_nil, hfront, hstored]
  · -- the end of the message is behind it
    have hsplit : m.bufLen.toNat = src.length + (m.bufLen.toNat - src.length) := by omega
    have htail : slice (patch m.buff 0 (fetched c src)) (0 + src.length)
        (m.bufLen.toNat - src.length) = m.text.drop src.length := by
      rw [slice_patch_disjoint (.inr (by omega)), slice_text (by omega), Nat.zero_add]
      apply List.take_of_length_le
      rw [List.length_drop, text_length]
    have hwhole : (fetched c src).take m.bufLen.toNat = fetched c src :=
      List.take_of_length_le (by omega)
    rw [hwhole, hsplit, slice_append, hstored, htail]

/-- Copies over the same message leave the same message. -/
theorem Same.copyIn (h : Same m m') (hsrc : src.length ≤ buffSize pageShift) :
    Same (m.copyIn c src) (m'.copyIn c src) := by
  refine ⟨h.bufLen, ?_⟩
  rw [copyIn_text hsrc, copyIn_text hsrc, h.bufLen, h.text]

theorem Same.fetch (h : Same m m') : m.fetch count c = m'.fetch count c := by
  have hslice : slice m.buff 0 (min count m.bufLen.toNat) =
      slice m'.buff 0 (min count m'.bufLen.toNat) := by
    rw [slice_text (by omega), slice_text (by omega), h.bufLen, h.text]
  unfold MessageBuffer.fetch
  dsimp only
  rw [hslice, h.bufLen]

theorem store_failed (h : c.uncopied (buff.take (buffSize pageShift)).length ≠ 0) :
    m.store buff c = (m.copyIn c (buff.take (buffSize pageShift)), -efault) :=
  if_pos h

theorem store_done (h : c.uncopied (buff.take (buffSize pageShift)).length = 0) :
    (m.store buff c).1.bufLen = BitVec.ofNat 64 (buff.take (buffSize pageShift)).length ∧
      (m.store buff c).1.text = buff.take (buffSize pageShift) ∧
      (m.store buff c).2 = (buff.take (buffSize pageShift)).length := by
  have hlt := buffSize_lt pageShift
  have hle : (buff.take (buffSize pageShift)).length ≤ buffSize pageShift :=
    List.length_take_le _ _
  have hstore : m.store buff c =
      (⟨BitVec.ofNat 64 (buff.take (buffSize pageShift)).length,
        (m.copyIn c (buff.take (buffSize pageShift))).buff, length_fits buff⟩,
        ((buff.take (buffSize pageShift)).length : Int)) := if_neg (not_not.mpr h)
  rw [hstore]
  refine ⟨rfl, ?_, rfl⟩
  show slice (m.copyIn c (buff.take (buffSize pageShift))).buff 0
    (BitVec.ofNat 64 (buff.take (buffSize pageShift)).length).toNat = _
  rw [BitVec.toNat_ofNat, Nat.mod_eq_of_lt (by omega), MessageBuffer.copyIn, fetched_whole h]
  exact slice_patch (by omega)

/-- So a write to the one does what it does to the other. -/
theorem Same.store (h : Same m m') (buff : List Byte) (c : Conditions) :
    Same (m.store buff c).1 (m'.store buff c).1 ∧ (m.store buff c).2 = (m'.store buff c).2 := by
  by_cases hcopy : c.uncopied (buff.take (buffSize pageShift)).length = 0
  · obtain ⟨hlen, htext, hvalue⟩ := store_done (m := m) hcopy
    obtain ⟨hlen', htext', hvalue'⟩ := store_done (m := m') hcopy
    exact ⟨⟨hlen.trans hlen'.symm, htext.trans htext'.symm⟩, hvalue.trans hvalue'.symm⟩
  · rw [store_failed hcopy, store_failed hcopy]
    exact ⟨h.copyIn (List.length_take_le _ _), rfl⟩

/-- What a copy that fails stores over the message is what stands there already. -/
def Kept (m : MessageBuffer pageShift) (c : Conditions) (src : List Byte) : Prop :=
  (fetched c src).take m.bufLen.toNat = m.text.take src.length

theorem Kept.same (h : m.Kept c src) (hsrc : src.length ≤ buffSize pageShift) :
    Same (m.copyIn c src) m := by
  refine ⟨rfl, ?_⟩
  rw [copyIn_text hsrc, h, List.take_append_drop]

/-- A buffer that holds a message and was blank before. -/
def holding (message : List Byte) : MessageBuffer pageShift :=
  (store ⟨0, Vector.replicate _ 0, Nat.zero_le _⟩ message {}).1

theorem holding_text {message : List Byte} (h : message.length ≤ buffSize pageShift) :
    (holding message : MessageBuffer pageShift).text = message := by
  rw [holding, (store_done rfl).2.1, List.take_of_length_le h]

theorem fetch_whole {message : List Byte} (h : m.text = message) (hcount : message.length ≤ count) :
    m.fetch count {} = ((message.length : Int), message) := by
  have hlen : m.bufLen.toNat = message.length := by rw [← text_length, h]
  have hslice : slice m.buff 0 message.length = message := by
    rw [← hlen]
    exact h
  unfold MessageBuffer.fetch
  dsimp only
  rw [hlen, Nat.min_eq_right hcount, hslice]
  rfl

end MessageBuffer

end LinuxDeviceDriver.Drivers.Message
