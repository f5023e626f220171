/- source: examples/07_ioctl/fops.c, lines 91 to 114; examples/10_poll/fops.c, lines 74 to 103;
     examples/11_asynchronous_notification/fops.c, lines 52 to 83
   digest: A replacement of the message whose copy fails is not seen by later calls as long as
     what it has stored is what stood there; in general the old message is written over. -/

import LinuxDeviceDriver.Drivers.AsyncNotify
import LinuxDeviceDriver.Drivers.Ioctl
import LinuxDeviceDriver.Drivers.Poll.Model

set_option autoImplicit false

namespace LinuxDeviceDriver.Drivers.Replacement

open Lib.Blocks (patch slice slice_patch slice_patch_disjoint)
open Lib.LittleEndian (Byte)
open Lib.Replies (replies replies_eq)
open Lib.Threads (Pool)
open CharFile (efault einval)
open AsyncNotify Ioctl Message UserCopy
open Poll.Model (PollDev PollSystem PollEvent pollStep timerStep userCopy)

variable {pageShift : Fin 19}

/-! ## The ioctl device -/

/-- A read at any position of any of the files, or an ioctl. -/
inductive IoctlCall
  | read (fPos : BitVec 64) (count : Nat) (c : Conditions)
  | ioctl (cmd : BitVec 32) (arg : IoctlArg) (capable : Bool) (c : Conditions)

def ioctlNext (dev : IoctlDev pageShift) : IoctlCall → IoctlDev pageShift × (Reply ⊕ Int)
  | .read fPos count c => (dev, .inl (ioctlRead dev fPos count c))
  | .ioctl cmd arg capable c =>
    ((ioctlIoctl dev cmd arg capable c).1, .inr (ioctlIoctl dev cmd arg capable c).2)

/-- Two devices that differ only in what stands behind the message. -/
structure IoctlTwin (dev dev' : IoctlDev pageShift) : Prop where
  message : dev.message.Same dev'.message
  howmany : dev.howmany = dev'.howmany

section Ioctl

variable {dev dev' : IoctlDev pageShift} {arg : IoctlArg} {len : BitVec 32} {c : Conditions}

/-- A length that is accepted is the number of bytes copied. -/
theorem goodLen (h : ¬ badLen pageShift len) :
    (len.signExtend 64).toNat = len.toNat ∧ len.toNat ≤ buffSize pageShift := by
  have hpos : len.toNat < 2 ^ 31 := by
    have hsign : ¬ len.slt 0 := fun hneg => h (.inl hneg)
    have hlt := len.isLt
    rw [BitVec.slt_eq_decide, decide_eq_true_iff, BitVec.toInt_eq_toNat_cond] at hsign
    split at hsign
    · omega
    · exact absurd (show _ < (0 : Int) by omega) hsign
  have hwide : (len.signExtend 64).toNat = len.toNat := by
    have hmsb : len.msb = false := by
      rw [BitVec.msb_eq_decide, decide_eq_false_iff_not]
      omega
    rw [BitVec.signExtend_eq_setWidth_of_msb_false hmsb, BitVec.toNat_setWidth]
    omega
  have hfits := len_fits h
  rw [hwide] at hfits
  exact ⟨hwide, hfits⟩

theorem text_length (arg : IoctlArg) (len : BitVec 32) : (arg.text len).length = len.toNat := by
  rw [IoctlArg.text, List.length_map, List.length_range]

theorem IoctlTwin.read (h : IoctlTwin dev dev') (fPos : BitVec 64) (count : Nat) (c : Conditions) :
    ioctlRead dev fPos count c = ioctlRead dev' fPos count c := by
  unfold ioctlRead Ioctl.round
  rw [h.message.bufLen, h.howmany]
  split
  · rfl
  · next hlen =>
    have hoffset : offset dev fPos = offset dev' fPos := by
      rw [offset, offset, h.message.bufLen]
    split
    · rfl
    · dsimp only
      rw [hoffset]
      have hrest := rest_toNat hlen fPos
      have hmod := offset_lt hlen fPos
      have hslice : slice dev.message.buff (offset dev' fPos).toNat
          (min count (dev'.message.bufLen - offset dev' fPos).toNat) =
          slice dev'.message.buff (offset dev' fPos).toNat
            (min count (dev'.message.bufLen - offset dev' fPos).toNat) := by
        have hlen' := congrArg BitVec.toNat h.message.bufLen
        rw [MessageBuffer.slice_text (by omega), MessageBuffer.slice_text (by omega),
          h.message.text]
      rw [hslice]

theorem replaced_text (m : MessageBuffer pageShift) (arg : IoctlArg) (c : Conditions)
    (h : ¬ badLen pageShift len) (hcopy : c.uncopied (arg.text len).length = 0) :
    slice (patch (m.copyIn c (arg.text len)).buff len.toNat
      (List.replicate (buffSize pageShift - len.toNat) 0)) 0 (len.signExtend 64).toNat =
      arg.text len := by
  obtain ⟨hwide, hfits⟩ := goodLen h
  have hlen := text_length arg len
  rw [hwide, slice_patch_disjoint (.inl (by omega)), MessageBuffer.copyIn, fetched_whole hcopy]
  rw [← hlen]
  exact slice_patch (by omega)

section Replace

variable {arg : IoctlArg} {c : Conditions} (dev : IoctlDev pageShift)

theorem message_unread (hlen : arg.len = none) : ioctlMessage dev arg c = (dev, -efault) := by
  unfold ioctlMessage
  rw [hlen]

theorem message_refused (hlen : arg.len = some len) (hbad : badLen pageShift len) :
    ioctlMessage dev arg c = (dev, -einval) := by
  unfold ioctlMessage
  rw [hlen]
  exact dif_pos hbad

theorem message_failed (hlen : arg.len = some len) (hgood : ¬ badLen pageShift len)
    (hcopy : c.uncopied (arg.text len).length ≠ 0) :
    ioctlMessage dev arg c =
      ({ dev with message := dev.message.copyIn c (arg.text len) }, -efault) := by
  unfold ioctlMessage
  rw [hlen]
  exact (dif_neg hgood).trans (if_pos hcopy)

theorem message_replaced (hlen : arg.len = some len) (hgood : ¬ badLen pageShift len)
    (hcopy : c.uncopied (arg.text len).length = 0) :
    ∃ message : MessageBuffer pageShift, ioctlMessage dev arg c = ({ dev with message }, 0) ∧
      message.bufLen = len.signExtend 64 ∧ message.text = arg.text len := by
  refine ⟨⟨len.signExtend 64, patch (dev.message.copyIn c (arg.text len)).buff len.toNat
    (List.replicate (buffSize pageShift - len.toNat) 0), len_fits hgood⟩, ?_, rfl,
    replaced_text dev.message arg c hgood hcopy⟩
  unfold ioctlMessage
  rw [hlen]
  exact (dif_neg hgood).trans (if_neg (not_not.mpr hcopy))

end Replace

theorem IoctlTwin.replace (h : IoctlTwin dev dev') (arg : IoctlArg) (c : Conditions) :
    IoctlTwin (ioctlMessage dev arg c).1 (ioctlMessage dev' arg c).1 ∧
      (ioctlMessage dev arg c).2 = (ioctlMessage dev' arg c).2 := by
  cases hlen : arg.len with
  | none =>
    rw [message_unread dev hlen, message_unread dev' hlen]
    exact ⟨h, rfl⟩
  | some len =>
    by_cases hgood : badLen pageShift len
    · rw [message_refused dev hlen hgood, message_refused dev' hlen hgood]
      exact ⟨h, rfl⟩
    · by_cases hcopy : c.uncopied (arg.text len).length = 0
      · obtain ⟨m, hm, hbufLen, htext⟩ := message_replaced dev hlen hgood hcopy
        obtain ⟨m', hm', hbufLen', htext'⟩ := message_replaced dev' hlen hgood hcopy
        rw [hm, hm']
        exact ⟨⟨⟨hbufLen.trans hbufLen'.symm, htext.trans htext'.symm⟩, h.howmany⟩, rfl⟩
      · rw [message_failed dev hlen hgood hcopy, message_failed dev' hlen hgood hcopy]
        refine ⟨⟨h.message.copyIn ?_, h.howmany⟩, rfl⟩
        rw [text_length]
        exact (goodLen hgood).2

theorem IoctlTwin.count (h : IoctlTwin dev dev') (arg : BitVec 64) (capable : Bool) :
    IoctlTwin (ioctlHowmany dev arg capable).1 (ioctlHowmany dev' arg capable).1 ∧
      (ioctlHowmany dev arg capable).2 = (ioctlHowmany dev' arg capable).2 := by
  unfold ioctlHowmany
  split
  · exact ⟨h, rfl⟩
  · split
    · exact ⟨h, rfl⟩
    · refine ⟨⟨h.message, rfl⟩, ?_⟩
      dsimp only
      rw [h.howmany]

theorem IoctlTwin.next (h : IoctlTwin dev dev') (call : IoctlCall) :
    IoctlTwin (ioctlNext dev call).1 (ioctlNext dev' call).1 ∧
      (ioctlNext dev call).2 = (ioctlNext dev' call).2 := by
  have hioctl : ∀ cmd arg capable c,
      IoctlTwin (ioctlIoctl dev cmd arg capable c).1 (ioctlIoctl dev' cmd arg capable c).1 ∧
        (ioctlIoctl dev cmd arg capable c).2 = (ioctlIoctl dev' cmd arg capable c).2 := by
    intro cmd arg capable c
    unfold ioctlIoctl
    split
    · exact ⟨h, rfl⟩
    · split
      · exact ⟨h, rfl⟩
      · split
        · exact ⟨⟨.refl _, rfl⟩, rfl⟩
        · split
          · exact h.count arg.value capable
          · split
            · exact h.replace arg c
            · exact ⟨h, rfl⟩
  cases call with
  | read fPos count c => exact ⟨h, congrArg Sum.inl (h.read fPos count c)⟩
  | ioctl cmd arg capable c =>
    obtain ⟨htwin, hvalue⟩ := hioctl cmd arg capable c
    exact ⟨htwin, congrArg Sum.inr hvalue⟩

theorem read_begin {message : List Byte} {count : Nat} (htext : dev.message.text = message)
    (hne : message ≠ []) (hmany : 0 < dev.howmany.toNat) (hcount : message.length ≤ count) :
    (ioctlRead dev 0 count {}).data = message := by
  have hlen : dev.message.bufLen.toNat = message.length := by
    rw [← MessageBuffer.text_length, htext]
  have hpos := List.length_pos_iff.mpr hne
  have hwhole : (whole dev).take message.length = message := by
    obtain ⟨n, hn⟩ : ∃ n, dev.howmany.toNat = n + 1 := ⟨_, (Nat.succ_pred hmany.ne').symm⟩
    rw [whole, hn, htext, List.replicate_succ, List.flatten_cons, List.take_left]
  have hread : readCount dev 0 count = message.length := by
    have hlong : 0 < (whole dev).length := by
      rw [whole_length, hlen]
      exact Nat.mul_pos hmany hpos
    show (if 0 < (whole dev).length then
      min count (dev.message.bufLen.toNat - 0 % dev.message.bufLen.toNat) else 0) = _
    rw [if_pos hlong, hlen, Nat.zero_mod]
    omega
  have hreads := read_reads dev (p := 0) (by decide) count {}
  generalize ioctlRead dev 0 count {} = r at hreads
  cases hreads with
  | faulted h => exact absurd rfl h
  | done next _ _ =>
    dsimp only
    rw [hread]
    exact hwhole

/-- One of the two copies of IOCTL_MESSAGE fails: that of the argument, or that of the text. -/
def MessageFaults (pageShift : Fin 19) (arg : IoctlArg) (c : Conditions) : Prop :=
  ∀ len, arg.len = some len → ¬ badLen pageShift len ∧ c.uncopied (arg.text len).length ≠ 0

/-- What the copy of the text has stored is what stood there. -/
def MessageKept (dev : IoctlDev pageShift) (arg : IoctlArg) (c : Conditions) : Prop :=
  ∀ len, arg.len = some len → dev.message.Kept c (arg.text len)

theorem ioctl_failed (hfault : MessageFaults pageShift arg c) (hkept : MessageKept dev arg c) :
    (ioctlMessage dev arg c).2 = -efault ∧ IoctlTwin (ioctlMessage dev arg c).1 dev := by
  cases hlen : arg.len with
  | none =>
    rw [message_unread dev hlen]
    exact ⟨rfl, .refl _, rfl⟩
  | some len =>
    obtain ⟨hgood, hcopy⟩ := hfault len hlen
    rw [message_failed dev hlen hgood hcopy]
    refine ⟨rfl, (hkept len hlen).same ?_, rfl⟩
    rw [text_length]
    exact (goodLen hgood).2

end Ioctl

/-! ## The poll device -/

/-- Two devices that differ only in what stands behind the message. -/
def PollTwin (d d' : PollDev pageShift) : Prop :=
  ∃ message, d' = { d with message } ∧ d.message.Same message

/-- Two systems with such devices and the same calls in progress. -/
structure SystemTwin (s t : PollSystem pageShift) : Prop where
  threads : s.threads = t.threads
  core : PollTwin s.core t.core

section Poll

variable {s s' t : PollSystem pageShift} {d d' d₁ : PollDev pageShift}

theorem PollTwin.symm (h : PollTwin d d') : PollTwin d' d := by
  obtain ⟨message, rfl, hsame⟩ := h
  exact ⟨d.message, rfl, hsame.symm⟩

theorem SystemTwin.symm (h : SystemTwin s t) : SystemTwin t s := ⟨h.threads.symm, h.core.symm⟩

theorem userCopy_twin (d : PollDev pageShift) {message : MessageBuffer pageShift}
    (h : d.message.Same message) (o : Poll.Model.Choice) (c : Poll.Model.Call) :
    (userCopy o { d with message } c).2 = (userCopy o d c).2 ∧
      PollTwin (userCopy o d c).1 (userCopy o { d with message } c).1 := by
  unfold userCopy
  split
  · exact ⟨h.fetch.symm, message, rfl, h⟩
  · next buff _ =>
    obtain ⟨hsame, hvalue⟩ := h.store buff o.conditions
    exact ⟨by rw [hvalue], _, rfl, hsame⟩

theorem exec_frame (d : PollDev pageShift) (message : MessageBuffer pageShift)
    {o : Poll.Model.Choice} {a : Poll.Model.Act} (ha : ∀ c, a ≠ .copy c) :
    Poll.Model.exec o { d with message } a =
      (Poll.Model.exec o d a).map fun r => ({ r.1 with message }, r.2) := by
  cases a with
  | takeFlag c | waitEvent c | lock c =>
    rw [Poll.Model.exec, Poll.Model.exec, apply_ite (Option.map _), apply_ite (Option.map _)]
    rfl
  | copy c => exact absurd rfl (ha c)
  | unlock c value data => rfl
  | pollRd id => rfl
  | pollWr id rd => rfl

theorem does_message {o : Poll.Model.Choice} {a : Poll.Model.Act}
    {pushed : List Poll.Model.Act} (h : Poll.Model.Does d o a d₁ pushed)
    (ha : ∀ c, a ≠ .copy c) : d₁.message = d.message := by
  cases h with
  | copied o c => exact absurd rfl (ha c)
  | took | wouldBlock | missed | happened | gaveUp | interrupted | locked | returns | polledRd
  | polledWr => rfl

theorem PollTwin.exec (h : PollTwin d d') {o : Poll.Model.Choice} {a : Poll.Model.Act}
    {pushed : List Poll.Model.Act} (he : Poll.Model.exec o d a = some (d₁, pushed)) :
    ∃ d₁', Poll.Model.exec o d' a = some (d₁', pushed) ∧ PollTwin d₁ d₁' := by
  obtain ⟨message, rfl, hsame⟩ := h
  by_cases ha : ∃ c, a = .copy c
  · obtain ⟨c, rfl⟩ := ha
    obtain ⟨rfl, rfl⟩ := Prod.mk.inj (Option.some.inj he)
    obtain ⟨hvalue, htwin⟩ := userCopy_twin d hsame o c
    refine ⟨(userCopy o { d with message } c).1, ?_, htwin⟩
    simp only [Poll.Model.exec, hvalue]
  · have ha := not_exists.mp ha
    have hkept := does_message (Poll.Model.exec_does he) ha
    refine ⟨{ d₁ with message }, ?_, message, rfl, ?_⟩
    · rw [exec_frame d message ha, he]
      rfl
    · rw [hkept]
      exact hsame

theorem PollTwin.timer (h : PollTwin d d') : PollTwin (timerStep d) (timerStep d') := by
  obtain ⟨message, rfl, hsame⟩ := h
  unfold timerStep
  dsimp only
  split
  · exact ⟨message, rfl, hsame⟩
  · exact ⟨message, rfl, hsame⟩
  · split
    · exact ⟨message, rfl, hsame⟩
    · exact ⟨message, rfl, hsame⟩

theorem SystemTwin.step (h : SystemTwin s t) {e : PollEvent} (hs : pollStep s e = some s') :
    ∃ t', pollStep t e = some t' ∧ SystemTwin s' t' := by
  obtain ⟨hthreads, htwin⟩ := h
  have hcalls : s.core.calls = t.core.calls := by
    obtain ⟨message, heq, -⟩ := htwin
    rw [heq]
  have hnew : PollTwin { s.core with calls := s.core.calls + 1 }
      { t.core with calls := t.core.calls + 1 } := by
    obtain ⟨message, heq, hsame⟩ := htwin
    rw [heq]
    exact ⟨message, rfl, hsame⟩
  cases e with
  | start nonblock request | poll =>
    obtain rfl := Option.some.inj hs
    refine ⟨_, rfl, ?_, hnew⟩
    rw [Pool.spawn, Pool.spawn, hthreads, hcalls]
  | timer =>
    obtain rfl := Option.some.inj hs
    exact ⟨_, rfl, hthreads, htwin.timer⟩
  | step i o =>
    obtain ⟨t', ht, hthreads', htwin'⟩ :=
      Pool.run_sim hthreads (fun _ _ _ _ he => htwin.exec he) hs
    exact ⟨t', ht, hthreads', htwin'⟩

/-- What the calls have returned after some events, if these are possible. -/
def returnedAfter (s : PollSystem pageShift) (es : List PollEvent) :
    Option (List (Nat × Poll.Model.Answer)) :=
  (Lib.Transition.exec pollStep s es).map fun s => s.core.returned

theorem SystemTwin.returned (h : SystemTwin s t) (es : List PollEvent) :
    returnedAfter s es = returnedAfter t es := by
  induction es generalizing s t with
  | nil =>
    obtain ⟨message, heq, -⟩ := h.core
    show some s.core.returned = some t.core.returned
    rw [heq]
  | cons e es ih =>
    unfold returnedAfter Lib.Transition.exec
    cases hs : pollStep s e with
    | none =>
      cases ht : pollStep t e with
      | none => rfl
      | some t' =>
        obtain ⟨s', hs', -⟩ := h.symm.step ht
        rw [hs] at hs'
        cases hs'
    | some s' =>
      obtain ⟨t', ht, htwin⟩ := h.step hs
      rw [ht]
      exact ih htwin

theorem copy_failed {o : Poll.Model.Choice} {call : Poll.Model.Call} {buff : List Byte}
    (hrequest : call.request = .write buff)
    (hfault : o.conditions.uncopied (buff.take (buffSize pageShift)).length ≠ 0) :
    Poll.Model.exec o d (.copy call) =
      some ({ d with message := d.message.copyIn o.conditions (buff.take (buffSize pageShift)) },
        [.unlock call (-efault) []]) := by
  have hcopy : userCopy o d call =
      ({ d with message := d.message.copyIn o.conditions (buff.take (buffSize pageShift)) },
        -efault, []) := by
    rw [userCopy, hrequest]
    dsimp only
    rw [MessageBuffer.store_failed hfault]
  rw [Poll.Model.exec, hcopy]

end Poll

/-! ## The three devices -/

/-- "abc" is to be replaced by "xy", of which only the first byte can be fetched. -/
def mixed : MessageBuffer pageShift :=
  (MessageBuffer.holding [0x61, 0x62, 0x63]).copyIn { reachable := some 1 } [0x78, 0x79]

theorem mixed_text : (mixed : MessageBuffer 0).text = [0x78, 0, 0x63] := by
  rw [mixed, MessageBuffer.copyIn_text (by decide), MessageBuffer.holding_text (by decide)]
  rfl

/-- The writer takes the flag and fails; the reader takes the other flag. -/
def failingWriter : List PollEvent :=
  [.timer, .timer, .timer, .start false (.write [0x78, 0x79]), .step 0 .go, .step 0 .go,
    .step 0 (.reachable 1), .step 0 .go, .start false (.read 3), .step 1 .go, .step 1 .go,
    .step 1 .go, .step 1 .go]

end LinuxDeviceDriver.Drivers.Replacement
