/- source: examples/21_usb_skel/main.c, lines 25 to 37, 170 to 190 and 300 to 370
   digest: The buffer that probe allocates, where a read puts its newline, and what line it hands
     to the user. -/

import LinuxDeviceDriver.Drivers.UsbSkel.Calls

set_option autoImplicit false

namespace LinuxDeviceDriver.Drivers.UsbSkel.Line

open Lib.LittleEndian (Byte)
open Lib.Threads
open Lib.Transition (Steps annotate Annotated exec exec_steps)
open CharFile
open Model hiding exec
open Polling (Inv)
open Lifetime (inv_next inv_probed probed)
open Calls

/-! ## Probe -/

def usbEndpointMaxp (wMaxPacketSize : BitVec 16) : Nat := (wMaxPacketSize &&& 0x7ff).toNat

/-- What the kernel answers to skel_probe: the wMaxPacketSize of the bulk IN endpoint it finds, the
memory it gives, and whether the device gets a minor. -/
structure ProbeKernel where
  kzalloc : Bool
  usbFindCommonEndpoints : Except Int (BitVec 16)
  kmalloc : (size : Nat) → Option { buffer : List Byte // buffer.length = size }
  usbAllocUrb : Bool
  usbAllocCoherent : Bool
  usbRegisterDev : Int

inductive Resource
  | dev | udev | bulkInBuffer | tickUrb | tickBuffer
  deriving DecidableEq, Repr

/-- Frees what there is, the structure last. -/
def skelDelete (held : List Resource) : List Resource :=
  ((((held.erase .tickBuffer).erase .tickUrb).erase .bulkInBuffer).erase .udev).erase .dev

/-- What probe holds once it has allocated, or tried to. -/
def allocated (k : ProbeKernel) (size : Nat) : List Resource :=
  [Resource.dev, .udev] ++ (if (k.kmalloc size).isSome then [Resource.bulkInBuffer] else []) ++
    (if k.usbAllocUrb then [Resource.tickUrb] else []) ++
    (if k.usbAllocUrb && k.usbAllocCoherent then [Resource.tickBuffer] else [])

/-- What is held when skel_probe returns, and the device or the error. -/
def skelProbe (k : ProbeKernel) : List Resource × Except Int System :=
  if k.kzalloc = false then ([], .error (-enomem))
  else
    match k.usbFindCommonEndpoints with
    | .error err => (skelDelete [.dev, .udev], .error err)
    | .ok wMaxPacketSize =>
      let size := usbEndpointMaxp wMaxPacketSize
      match k.kmalloc size with
      | none => (skelDelete (allocated k size), .error (-enomem))
      | some buffer =>
        if k.usbAllocUrb = false ∨ k.usbAllocCoherent = false then
          (skelDelete (allocated k size), .error (-enomem))
        else if k.usbRegisterDev ≠ 0 then
          (skelDelete (allocated k size), .error k.usbRegisterDev)
        else (allocated k size, .ok (probed size buffer.val))

theorem skelDelete_allocated (k : ProbeKernel) (size : Nat) :
    skelDelete (allocated k size) = [] := by
  unfold allocated
  cases (k.kmalloc size).isSome <;> cases k.usbAllocUrb <;> cases k.usbAllocCoherent <;> rfl

/-- A probe that fails leaves nothing behind. One that succeeds has a buffer of the size that the
endpoint declares. -/
theorem skelProbe_spec {k : ProbeKernel} {held : List Resource} {r : Except Int System}
    (h : skelProbe k = (held, r)) :
    (∀ err, r = .error err → held = []) ∧
      ∀ s, r = .ok s → ∃ wMaxPacketSize buffer, k.usbFindCommonEndpoints = .ok wMaxPacketSize ∧
        buffer.length = usbEndpointMaxp wMaxPacketSize ∧
        s = probed (usbEndpointMaxp wMaxPacketSize) buffer := by
  unfold skelProbe at h
  split at h
  · obtain ⟨rfl, rfl⟩ := Prod.mk.inj h
    exact ⟨fun _ _ => rfl, fun s hs => by cases hs⟩
  split at h
  · obtain ⟨rfl, rfl⟩ := Prod.mk.inj h
    exact ⟨fun _ _ => rfl, fun s hs => by cases hs⟩
  next wMaxPacketSize hfound =>
  dsimp only at h
  split at h
  · obtain ⟨rfl, rfl⟩ := Prod.mk.inj h
    exact ⟨fun _ _ => skelDelete_allocated k _, fun s hs => by cases hs⟩
  next buffer hbuffer =>
  split at h
  · obtain ⟨rfl, rfl⟩ := Prod.mk.inj h
    exact ⟨fun _ _ => skelDelete_allocated k _, fun s hs => by cases hs⟩
  split at h
  · obtain ⟨rfl, rfl⟩ := Prod.mk.inj h
    exact ⟨fun _ _ => skelDelete_allocated k _, fun s hs => by cases hs⟩
  · obtain ⟨rfl, rfl⟩ := Prod.mk.inj h
    refine ⟨fun err he => (by cases he), fun s hs => ?_⟩
    obtain rfl := Except.ok.inj hs
    exact ⟨wMaxPacketSize, buffer.val, hfound, buffer.property, rfl⟩

theorem usbEndpointMaxp_lt (wMaxPacketSize : BitVec 16) :
    usbEndpointMaxp wMaxPacketSize < 2048 := by
  have hle : (wMaxPacketSize &&& 0x7ff).toNat ≤ (0x7ff : BitVec 16).toNat := by
    rw [BitVec.toNat_and]
    exact Nat.and_le_right
  exact Nat.lt_succ_of_le hle

/-! ## The newline -/

/-- The bytes up to the first NUL, without the last one if they fill the buffer, and a newline. -/
def lineOf (size : Nat) (bytes : List Byte) : List Byte :=
  let text := bytes.takeWhile (· ≠ 0)
  (if text.length = size then text.dropLast else text) ++ [10]

/-- The newline goes into the buffer, and neither the decrement nor the increment of len wraps. -/
structure Put (d : Data) (actual : Nat) : Prop where
  inside : (d.newline actual).toNat < d.bulkInBuffer.length
  decrement : strnlen d.bulkInBuffer actual = d.bulkInSize →
    (d.newline actual).toNat + 1 = strnlen d.bulkInBuffer actual
  increment : (d.newline actual + 1).toNat = (d.newline actual).toNat + 1

section Newline

variable {d : Data}

theorem strnlen_le (buffer : List Byte) (n : Nat) :
    strnlen buffer n ≤ n ∧ strnlen buffer n ≤ buffer.length := by
  have htext : strnlen buffer n ≤ (buffer.take n).length := List.takeWhile_prefix _ |>.length_le
  rw [List.length_take] at htext
  omega

/-- A buffer that holds at least one byte. -/
structure Sized (d : Data) : Prop where
  length : d.bulkInBuffer.length = d.bulkInSize
  pos : 1 ≤ d.bulkInSize
  small : d.bulkInSize < 2048

theorem newline_toNat (hd : Sized d) (actual : Nat) :
    (d.newline actual).toNat =
      if strnlen d.bulkInBuffer actual = d.bulkInSize then d.bulkInSize - 1
        else strnlen d.bulkInBuffer actual := by
  obtain ⟨hlength, hpos, hsmall⟩ := hd
  have hle := (strnlen_le d.bulkInBuffer actual).2
  have hsize : (BitVec.ofNat 64 d.bulkInSize).toNat = d.bulkInSize := by
    rw [BitVec.toNat_ofNat]
    omega
  have hlen : (BitVec.ofNat 64 (strnlen d.bulkInBuffer actual)).toNat =
      strnlen d.bulkInBuffer actual := by
    rw [BitVec.toNat_ofNat]
    omega
  unfold Data.newline newlineAt
  by_cases hfull : strnlen d.bulkInBuffer actual = d.bulkInSize
  · rw [if_pos hfull, hfull, if_pos rfl, BitVec.toNat_sub_of_le]
    · rw [hsize]
      rfl
    · rw [BitVec.le_def, hsize]
      exact hpos
  · rw [if_neg hfull, if_neg, hlen]
    intro heq
    rw [← BitVec.toNat_inj, hlen, hsize] at heq
    exact hfull heq

theorem put_of_sized (hd : Sized d) (actual : Nat) : Put d actual := by
  have hnl := newline_toNat hd actual
  obtain ⟨hlength, hpos, hsmall⟩ := hd
  have hle := (strnlen_le d.bulkInBuffer actual).2
  have hinside : (d.newline actual).toNat < d.bulkInBuffer.length := by
    rw [hnl]
    split <;> omega
  refine ⟨hinside, ?_, ?_⟩
  · intro hfull
    rw [hnl, if_pos hfull]
    omega
  · rw [BitVec.toNat_add]
    show ((d.newline actual).toNat + 1) % 2 ^ 64 = _
    omega

/-- With the newline put, the buffer begins with the line. -/
theorem take_put (hd : Sized d) (actual : Nat) :
    (d.bulkInBuffer.set (d.newline actual).toNat 10).take ((d.newline actual).toNat + 1) =
      lineOf d.bulkInSize (d.bulkInBuffer.take actual) := by
  have hinside := (put_of_sized hd actual).inside
  have hnl := newline_toNat hd actual
  -- the bytes before the first NUL are a prefix of the buffer
  have htext : (d.bulkInBuffer.take actual).takeWhile (· ≠ 0) =
      d.bulkInBuffer.take (strnlen d.bulkInBuffer actual) := by
    have hprefix : (d.bulkInBuffer.take actual).takeWhile (· ≠ 0) <+: d.bulkInBuffer :=
      (List.takeWhile_prefix _).trans (List.take_prefix _ _)
    exact List.prefix_iff_eq_take.mp hprefix
  have hlen : (d.bulkInBuffer.take (strnlen d.bulkInBuffer actual)).length =
      strnlen d.bulkInBuffer actual := by
    rw [List.length_take]
    exact Nat.min_eq_left (strnlen_le _ _).2
  have hcut : (d.bulkInBuffer.set (d.newline actual).toNat 10).take ((d.newline actual).toNat + 1) =
      d.bulkInBuffer.take (d.newline actual).toNat ++ [10] := by
    rw [List.take_add_one, List.take_set_of_le (Nat.le_refl _), List.getElem?_set_self hinside]
    rfl
  rw [hcut, lineOf, htext, hlen, hnl]
  split
  · next hfull =>
    rw [hfull, List.take_of_length_le hd.length.le, List.dropLast_eq_take, hd.length]
  · rfl

/-- What a read hands over: the line, cut to the size of the user's buffer, and its length. -/
structure Delivered (size : Nat) (bytes : List Byte) (r : Read) (buffer : List Byte)
    (len : BitVec 64) : Prop where
  copied : buffer.take len.toNat = (lineOf size bytes).take r.count.toNat
  length : len.toNat = min (lineOf size bytes).length r.count.toNat
  value : (len.truncate 32).toInt = len.toNat

theorem toInt_truncate {len : BitVec 64} (h : len.toNat < 2 ^ 31) :
    (len.truncate 32).toInt = len.toNat := by
  have hsame : (len.truncate 32).toNat = len.toNat := by
    rw [BitVec.truncate_eq_setWidth, BitVec.toNat_setWidth]
    omega
  rw [BitVec.toInt_eq_toNat_of_lt, hsame]
  rw [hsame]
  omega

theorem delivered_of_sized (hd : Sized d) (actual : Nat) (r : Read) :
    Delivered d.bulkInSize (d.bulkInBuffer.take actual) r
      (d.bulkInBuffer.set (d.newline actual).toNat 10)
      (if d.newline actual + 1 ≤ r.count then d.newline actual + 1 else r.count) := by
  have hput := put_of_sized hd actual
  have hline := take_put hd actual
  have hinside := hput.inside
  have hlen : (lineOf d.bulkInSize (d.bulkInBuffer.take actual)).length =
      (d.newline actual).toNat + 1 := by
    rw [← hline, List.length_take, List.length_set]
    omega
  have hmin : (if d.newline actual + 1 ≤ r.count then d.newline actual + 1 else r.count).toNat =
      min ((d.newline actual).toNat + 1) r.count.toNat := by
    rw [← hput.increment]
    split
    · next hle => exact (Nat.min_eq_left hle).symm
    · next hgt => exact (Nat.min_eq_right (not_le.mp hgt).le).symm
  have hsmall := hd.small
  have hlength := hd.length
  refine ⟨?_, ?_, ?_⟩
  · rw [hmin, ← hline, List.take_take, Nat.min_comm]
  · rw [hmin, hlen]
  · apply toInt_truncate
    rw [hmin]
    omega

end Newline

/-! ## In every run -/

/-- What the device has sent to the read with this number. -/
def received (past : List Label) (id : Nat) : List Byte :=
  past.foldl (fun bytes l =>
    match l with
    | (.step _ (.bulk sent), some (.readBulk r _)) => if r.id = id then sent else bytes
    | _ => bytes) []

def transfers : Act → Bool
  | .readBulk _ _ => true
  | _ => false

/-- Nothing but a bulk transfer changes what was received. -/
theorem received_append {past : List Label} {e : Event} {a : Option Act}
    (h : a.all transfers = true → a = none) : received (past ++ [(e, a)]) = received past := by
  funext id
  rw [received, List.foldl_append, List.foldl_cons, List.foldl_nil]
  split
  · next r ticks heq =>
    obtain ⟨-, rfl⟩ := Prod.mk.inj heq
    cases h rfl
  · rfl

theorem received_bulk {past : List Label} {i : Nat} {bytes : List Byte} {r : Read}
    {ticks : BitVec 32} :
    received (past ++ [(.step i (.bulk bytes), some (.readBulk r ticks))]) r.id = bytes := by
  rw [received, List.foldl_append]
  exact if_pos rfl

/-- The action is to put the newline, or to copy the line. -/
def lining : Act → Bool
  | .readLine _ _ _ | .readCopy _ _ _ => true
  | _ => false

/-- What is known before the newline is put, and before the line is copied. -/
def Known (past : List Label) (d : Data) : Act → Prop
  | .readLine r _ actual => d.bulkInBuffer.take actual = received past r.id
  | .readCopy r _ len => Delivered d.bulkInSize (received past r.id) r d.bulkInBuffer len
  | _ => True

structure Buffered (past : List Label) (d : Data) (m : Multiset Act) : Prop where
  sized : Sized d
  known : ∀ a ∈ m, Known past d a

theorem known_of_not_lining {past : List Label} {d : Data} {a : Act} (h : lining a = false) :
    Known past d a := by
  cases a with
  | readLine | readCopy => cases h
  | _ => trivial

theorem lining_inside {a : Act} (h : lining a = true) : a.inside = true := by
  cases a with
  | readLine | readCopy => rfl
  | _ => cases h

namespace Buffered

variable {past past' : List Label} {d d' : Data} {m rest : Multiset Act} {a : Act}
variable {pushed : List Act}

theorem keep (h : Buffered past d (a ::ₘ rest)) (e : Event) (ha : transfers a = false)
    (hsize : d'.bulkInSize = d.bulkInSize) (hbuffer : d'.bulkInBuffer = d.bulkInBuffer)
    (hpushed : ∀ b ∈ pushed, lining b = false) :
    Buffered (past ++ [(e, some a)]) d' ((pushed : Multiset Act) + rest) := by
  obtain ⟨⟨hlength, hpos, hsmall⟩, hknown⟩ := h
  have hpast : received (past ++ [(e, some a)]) = received past := by
    apply received_append
    intro htransfers
    rw [Option.all_some, ha] at htransfers
    cases htransfers
  refine ⟨⟨?_, ?_, ?_⟩, ?_⟩
  · rw [hbuffer, hsize]
    exact hlength
  · rw [hsize]
    exact hpos
  · rw [hsize]
    exact hsmall
  · intro b hb
    rcases Multiset.mem_add.mp hb with hb | hb
    · exact known_of_not_lining (hpushed b (Multiset.mem_coe.mp hb))
    · have hold := hknown b (Multiset.mem_cons_of_mem hb)
      cases b with
      | readLine r ticks actual =>
        show d'.bulkInBuffer.take actual = received (past ++ _) r.id
        rw [hbuffer, hpast]
        exact hold
      | readCopy r ticks len =>
        show Delivered d'.bulkInSize (received (past ++ _) r.id) r d'.bulkInBuffer len
        rw [hbuffer, hsize, hpast]
        exact hold
      | _ => trivial

/-- A step of the holder of the mutex: nobody else is about to use the buffer. -/
theorem alone (hrest : cnt Act.inside rest = 0) (hsized : Sized d')
    (hpushed : ∀ b ∈ pushed, Known past' d' b) :
    Buffered past' d' ((pushed : Multiset Act) + rest) := by
  refine ⟨hsized, ?_⟩
  intro b hb
  rcases Multiset.mem_add.mp hb with hb | hb
  · exact hpushed b (Multiset.mem_coe.mp hb)
  · apply known_of_not_lining
    cases hlining : lining b with
    | false => rfl
    | true =>
      have hin := lining_inside hlining
      rw [cnt_eq_zero.mp hrest b hb] at hin
      cases hin

private theorem not_lining {a : Act} (h : reading a = none) : lining a = false := by
  cases a with
  | readLine | readCopy => cases h
  | _ => rfl

private theorem not_transfers {a : Act} (h : quiet a = true) : transfers a = false := by
  cases a with
  | readBulk => cases h
  | _ => rfl

theorem moves {i : Nat} {o : Choice} (h : Buffered past d (a ::ₘ rest))
    (hrest : a.inside = true → cnt Act.inside rest = 0) (hm : Moves d o a d' pushed) :
    Buffered (past ++ [(.step i o, some a)]) d' ((pushed : Multiset Act) + rest) := by
  have hsized := h.sized
  cases hm with
  | aside _ _ ha hpushed =>
    exact h.keep _ (not_transfers ha) rfl rfl fun b hb => not_lining (hpushed b hb)
  | tick status actualLength word htick | passes r htest | samples r | locks r ticks
  | refuses r ticks | allows r ticks hthere | copyFails r ticks len ho | copies r ticks len ho =>
    exact h.keep _ rfl rfl rfl (List.forall_mem_singleton.mpr rfl)
  | openSees id file =>
    exact h.keep _ rfl rfl rfl
      fun b hb => by cases hb
  | unplugs id todo gone _ hgone hpushed =>
    exact h.keep _ rfl rfl rfl
      fun b hb => not_lining (hpushed b hb)
  | leaves _ r ha =>
    refine h.keep _ ?_ rfl rfl fun b hb => by cases hb
    cases a with
    | readBulk => cases ha
    | _ => rfl
  | bulkFails r ticks err herr =>
    exact alone (hrest rfl) hsized (List.forall_mem_singleton.mpr trivial)
  | receives r ticks bytes ho hlen =>
    subst ho
    obtain ⟨hlength, hpos, hsmall⟩ := hsized
    refine alone (hrest rfl) ⟨?_, hpos, hsmall⟩ ?_
    · show (bytes ++ d.bulkInBuffer.drop bytes.length).length = d.bulkInSize
      rw [List.length_append, List.length_drop]
      omega
    · intro b hb
      obtain rfl := List.mem_singleton.mp hb
      show (bytes ++ d.bulkInBuffer.drop bytes.length).take bytes.length = _
      rw [List.take_left, received_bulk]
  | puts r ticks actual =>
    have hgot : d.bulkInBuffer.take actual = received past r.id :=
      h.known _ (Multiset.mem_cons_self _ _)
    refine alone (hrest rfl) ⟨?_, hsized.pos, hsized.small⟩ ?_
    · rw [List.length_set]
      exact hsized.length
    · intro b hb
      obtain rfl := List.mem_singleton.mp hb
      show Delivered d.bulkInSize (received (past ++ _) r.id) r _ _
      rw [received_append (fun htransfers => by cases htransfers), ← hgot]
      exact delivered_of_sized hsized actual r

theorem begins {c c' : Core} {e : Event} {b : Act} (h : Buffered past (data c) m)
    (hb : Begins c e b c') :
    Buffered (past ++ [(e, none)]) (data c') ((([b] : List Act) : Multiset Act) + m) := by
  have hpast : received (past ++ [(e, none)]) = received past :=
    received_append fun _ => rfl
  have hlining : lining b = false := by
    cases hr : reading b with
    | none => exact not_lining hr
    | some r =>
      rw [(hb.reading r hr).1]
      rfl
  rw [hb.data]
  refine ⟨h.sized, ?_⟩
  intro x hx
  rcases Multiset.mem_add.mp hx with hx | hx
  · obtain rfl := List.mem_singleton.mp (Multiset.mem_coe.mp hx)
    exact known_of_not_lining hlining
  · have hold := h.known x hx
    unfold Known at hold ⊢
    rw [hpast]
    exact hold

end Buffered

theorem moves_size {d d' : Data} {o : Choice} {a : Act} {pushed : List Act}
    (h : Moves d o a d' pushed) : d'.bulkInSize = d.bulkInSize := by
  cases h <;> rfl

/-- The mutex keeps the readers apart, and the buffer of this size is as they expect it. -/
structure Reads (size : Nat) (past : List Label) (s : System) : Prop where
  inv : Inv s.core.toSkel s.pending
  buffered : Buffered past (data s.core) s.pending
  size : s.core.bulkInSize = size

theorem reads_next {size : Nat} (past : List Label) (s : System) (l : Label) (t : System)
    (h : Reads size past s) (hstep : Annotated deed (fun s e t => next s e = some t) s l t) :
    Reads size (past ++ [l]) t := by
  obtain ⟨e, a⟩ := l
  obtain ⟨hinv, hbuffered, hsize⟩ := h
  have hnext : next s e = some t := hstep.1
  have ha : a = deed s e := hstep.2
  rw [ha]
  cases next_happens hnext with
  | begins b hdeed hpending hbegins =>
    refine ⟨inv_next hinv hnext, ?_, (congrArg Data.bulkInSize hbegins.data).trans hsize⟩
    rw [hdeed, hpending]
    exact hbuffered.begins hbegins
  | goes i o a rest pushed he hdeed hbefore hexec hafter =>
    have hmoves := exec_moves hexec
    refine ⟨inv_next hinv hnext, ?_, (moves_size hmoves).trans hsize⟩
    rw [hbefore] at hinv hbuffered
    rw [hdeed, he, hafter]
    exact hbuffered.moves (fun hin => hinv.lock.others_outside (.inl hin)) hmoves

theorem reads_probed {size : Nat} {buffer : List Byte} (hlength : buffer.length = size)
    (hpos : 1 ≤ size) (hsmall : size < 2048) : Reads size [] (probed size buffer) := by
  refine ⟨inv_probed size buffer, ⟨⟨hlength, hpos, hsmall⟩, ?_⟩, rfl⟩
  intro a ha
  exact absurd ha (Multiset.notMem_zero a)

/-- A kernel that gives skel_probe all it asks for, and finds this wMaxPacketSize. -/
def willing (wMaxPacketSize : BitVec 16) : ProbeKernel where
  kzalloc := true
  usbFindCommonEndpoints := .ok wMaxPacketSize
  kmalloc size := some ⟨List.replicate size 0xaa, List.length_replicate⟩
  usbAllocUrb := true
  usbAllocCoherent := true
  usbRegisterDev := 0

/-- A file is opened, a tick is counted, and a read of up to 100 bytes gets these bytes from the
device; then it makes some more steps. -/
def readsBytes (bytes : List Byte) (more : Nat) : List Event :=
  [Event.openFile] ++ List.replicate 7 (Event.step 0 .go) ++
    [Event.complete 0 8 1, .step 1 .go, .read 0 false 100] ++ List.replicate 4 (Event.step 2 .go) ++
    [Event.step 2 (.bulk bytes)] ++ List.replicate more (Event.step 2 .go)

/-- The read that is about to put its newline, or to copy, and the length it has. -/
def shown : Act → Option (Bool × Nat × BitVec 64 × Nat)
  | .readLine r _ actual => some (false, r.id, r.count, actual)
  | .readCopy r _ len => some (true, r.id, r.count, len.toNat)
  | _ => none

end LinuxDeviceDriver.Drivers.UsbSkel.Line
