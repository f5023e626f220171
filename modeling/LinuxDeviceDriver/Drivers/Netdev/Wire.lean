/- source: examples/30_netdev/main.c, lines 112 to 148 and 263 to 304; main.h, lines 16 to 21;
     README.md, lines 9 to 29
   digest: What the twin receives for what was sent: the padded frame with one bit of each
     address flipped and a new header checksum, which the way back undoes; and when the frame
     depends on what the buffer held before. -/

import LinuxDeviceDriver.Drivers.Netdev.ReceivePath
import LinuxDeviceDriver.Lib.InetChecksum
import Mathlib.Data.List.GetD

set_option autoImplicit false

namespace LinuxDeviceDriver.Drivers.Netdev.Wire

open Lib.Handover (FromQueue)
open Lib.InetChecksum (Valid inetChecksum valid_of_checksum)
open Lib.LittleEndian (Byte)
open Lib.Threads
open Lib.Transition (Steps exec_steps)
open Model Buffers Actions Ownership ReceivePath

/-! ## Frames as bytes -/

/-- A byte of a frame; there are zeros behind its end. -/
def byteAt (bytes : List Byte) (i : Nat) : Byte := bytes.getD i 0

/-- The frame with zeros up to the Ethernet minimum. -/
def padded (bytes : List Byte) : List Byte := bytes ++ List.replicate (ethZlen - bytes.length) 0

/-- The ihl of the IP header, in 32-bit words. -/
def ihl (bytes : List Byte) : Nat := (byteAt bytes ethHlen &&& 0x0f).toNat

/-- The IP header, as long as its ihl says. -/
def header (bytes : List Byte) : List Byte :=
  (List.range (4 * ihl bytes)).map fun i => byteAt bytes (ethHlen + i)

/-- The IP header with a check field of zero. -/
def blankHeader (bytes : List Byte) : List Byte :=
  (List.range (4 * ihl bytes)).map
    (Function.update (Function.update (fun i => byteAt bytes (ethHlen + i)) 10 0) 11 0)

/-- The check field holds this checksum of the header. -/
def Checked (csum : List Byte → Byte × Byte) (bytes : List Byte) : Prop :=
  (byteAt bytes (ethHlen + 10), byteAt bytes (ethHlen + 11)) = csum (blankHeader bytes)

/-- The frame that is received for one that is sent. -/
structure Rewritten (csum : List Byte → Byte × Byte) (sent received : List Byte) : Prop where
  length : received.length = max sent.length ethZlen
  saddr : byteAt received (ethHlen + 14) = byteAt sent (ethHlen + 14) ^^^ 1
  daddr : byteAt received (ethHlen + 18) = byteAt sent (ethHlen + 18) ^^^ 1
  check : Checked csum received
  rest : ∀ i, i ≠ ethHlen + 10 → i ≠ ethHlen + 11 → i ≠ ethHlen + 14 → i ≠ ethHlen + 18 →
    byteAt received i = byteAt sent i

instance (csum : List Byte → Byte × Byte) (bytes : List Byte) : Decidable (Checked csum bytes) :=
  inferInstanceAs (Decidable (_ = _))

section Bytes

variable {csum : List Byte → Byte × Byte} {a b c : List Byte}

theorem eq_of_byteAt (hlen : a.length = b.length) (h : ∀ i, byteAt a i = byteAt b i) : a = b := by
  apply List.ext_getElem hlen
  intro i ha hb
  have hi := h i
  unfold byteAt at hi
  rwa [List.getD_eq_getElem _ _ ha, List.getD_eq_getElem _ _ hb] at hi

theorem byteAt_padded (bytes : List Byte) (i : Nat) : byteAt (padded bytes) i = byteAt bytes i := by
  unfold byteAt padded
  rcases Nat.lt_or_ge i bytes.length with hi | hi
  · rw [List.getD_append _ _ _ _ hi]
  · rw [List.getD_append_right _ _ _ _ hi, List.getD_eq_default _ _ hi]
    rcases Nat.lt_or_ge (i - bytes.length) (ethZlen - bytes.length) with hpad | hpad
    · exact List.getD_replicate 0 hpad
    · exact List.getD_eq_default _ _ (by simpa using hpad)

theorem length_padded (bytes : List Byte) : (padded bytes).length = max bytes.length ethZlen := by
  unfold padded
  rw [List.length_append, List.length_replicate]
  omega

theorem byteAt_map_range (g : Nat → Byte) {n i : Nat} (hi : i < n) :
    byteAt ((List.range n).map g) i = g i := by
  unfold byteAt
  rw [List.getD_eq_getElem _ _ (by simpa using hi)]
  simp

/-- The blank header does not depend on the check field. -/
theorem blankHeader_congr (h : ∀ i, i ≠ ethHlen + 10 → i ≠ ethHlen + 11 → byteAt a i = byteAt b i) :
    blankHeader a = blankHeader b := by
  have hihl : ihl a = ihl b := by
    unfold ihl
    rw [h ethHlen (by decide) (by decide)]
  unfold blankHeader
  rw [hihl]
  apply List.map_congr_left
  intro i _
  by_cases h11 : i = 11
  · rw [h11, Function.update_self, Function.update_self]
  by_cases h10 : i = 10
  · rw [Function.update_of_ne h11, Function.update_of_ne h11, h10, Function.update_self,
      Function.update_self]
  · rw [Function.update_of_ne h11, Function.update_of_ne h11, Function.update_of_ne h10,
      Function.update_of_ne h10]
    apply h
    · omega
    · omega

/-- Two frames that agree but for the check field agree in it too, if it holds the same kind of
checksum in both. -/
theorem eq_of_checked (hlen : a.length = b.length)
    (h : ∀ i, i ≠ ethHlen + 10 → i ≠ ethHlen + 11 → byteAt a i = byteAt b i)
    (ha : Checked csum a) (hb : Checked csum b) : a = b := by
  have hcheck := ha.trans ((congrArg csum (blankHeader_congr h)).trans hb.symm)
  obtain ⟨h10, h11⟩ := Prod.mk.inj hcheck
  apply eq_of_byteAt hlen
  intro i
  by_cases hi10 : i = ethHlen + 10
  · rw [hi10, h10]
  by_cases hi11 : i = ethHlen + 11
  · rw [hi11, h11]
  · exact h i hi10 hi11

theorem Rewritten.unique (hb : Rewritten csum a b) (hc : Rewritten csum a c) : b = c := by
  refine eq_of_checked (hb.length.trans hc.length.symm) ?_ hb.check hc.check
  intro i h10 h11
  by_cases h14 : i = ethHlen + 14
  · rw [h14, hb.saddr, hc.saddr]
  by_cases h18 : i = ethHlen + 18
  · rw [h18, hb.daddr, hc.daddr]
  · rw [hb.rest i h10 h11 h14 h18, hc.rest i h10 h11 h14 h18]

/-- The way back: flipped twice, the addresses are the old ones, and so is the checksum. -/
theorem Rewritten.back (hb : Rewritten csum a b) (hc : Rewritten csum b c) (ha : Checked csum a) :
    c = padded a := by
  have hpad : Checked csum (padded a) := by
    unfold Checked
    rw [byteAt_padded, byteAt_padded, blankHeader_congr fun i _ _ => byteAt_padded a i]
    exact ha
  have hlen : c.length = (padded a).length := by
    rw [hc.length, hb.length, length_padded]
    omega
  refine eq_of_checked hlen ?_ hc.check hpad
  intro i h10 h11
  rw [byteAt_padded]
  by_cases h14 : i = ethHlen + 14
  · rw [h14, hc.saddr, hb.saddr, BitVec.xor_assoc, BitVec.xor_self, BitVec.xor_zero]
  by_cases h18 : i = ethHlen + 18
  · rw [h18, hc.daddr, hb.daddr, BitVec.xor_assoc, BitVec.xor_self, BitVec.xor_zero]
  · rw [hc.rest i h10 h11 h14 h18, hb.rest i h10 h11 h14 h18]

theorem Rewritten.ihl_eq (h : Rewritten csum a b) : ihl b = ihl a := by
  unfold ihl
  rw [h.rest ethHlen (by decide) (by decide) (by decide) (by decide)]

/-- With a header long enough for the check field, the new header is valid. -/
theorem Rewritten.valid (h : Rewritten inetChecksum a b) (hihl : 5 ≤ ihl a) : Valid (header b) := by
  refine valid_of_checksum (by decide : 10 % 2 = 0) ?_ h.check
  rw [h.ihl_eq]
  omega

end Bytes

/-! ## One frame -/

/-- The IP header ends within the frame that is received, padding included. -/
def HeaderFits (bytes : List Byte) : Prop := ethHlen + 4 * ihl bytes ≤ max bytes.length ethZlen

instance (bytes : List Byte) : Decidable (HeaderFits bytes) := inferInstanceAs (Decidable (_ ≤ _))

section CopyFrame

variable (cfg : Params)

theorem ipSendCheck_of_ne (data : Nat → Byte) {i : Nat} (h10 : i ≠ ethHlen + 10)
    (h11 : i ≠ ethHlen + 11) : ipSendCheck cfg data i = data i := by
  unfold ipSendCheck
  rw [Function.update_of_ne h11, Function.update_of_ne h10, Function.update_of_ne h11,
    Function.update_of_ne h10]

/-- ip_send_check fills in the check field of a frame that its header fits in. -/
theorem ipSendCheck_checked (data : Nat → Byte) {n : Nat} (hn : ethZlen ≤ n)
    (hfits : ethHlen + 4 * (data ethHlen &&& 0x0f).toNat ≤ n) :
    Checked cfg.ipFastCsum ((List.range n).map (ipSendCheck cfg data)) := by
  have hhlen : ethHlen = 14 := rfl
  have hzlen : ethZlen = 60 := rfl
  have hbyte : ∀ i, i < n → byteAt ((List.range n).map (ipSendCheck cfg data)) i =
      ipSendCheck cfg data i := fun i hi => byteAt_map_range _ hi
  have hihl : ihl ((List.range n).map (ipSendCheck cfg data)) = (data ethHlen &&& 0x0f).toNat := by
    unfold ihl
    rw [hbyte ethHlen (by omega), ipSendCheck_of_ne cfg data (by decide) (by decide)]
  -- the header read by ip_send_check is the blank header of the frame
  have hblank : blankHeader ((List.range n).map (ipSendCheck cfg data)) =
      (List.range (4 * (data ethHlen &&& 0x0f).toNat)).map fun i =>
        Function.update (Function.update data (ethHlen + 10) 0) (ethHlen + 11) 0 (ethHlen + i) := by
    unfold blankHeader
    rw [hihl]
    apply List.map_congr_left
    intro i hi
    have hi := List.mem_range.mp hi
    by_cases h11 : i = 11
    · rw [h11, Function.update_self, Function.update_self]
    by_cases h10 : i = 10
    · subst h10
      rw [Function.update_of_ne (by decide : (10 : Nat) ≠ 11), Function.update_self,
        Function.update_of_ne (by decide : ethHlen + 10 ≠ ethHlen + 11), Function.update_self]
    · rw [Function.update_of_ne h11, Function.update_of_ne h10, hbyte _ (by omega),
        ipSendCheck_of_ne cfg data (by omega) (by omega), Function.update_of_ne (by omega),
        Function.update_of_ne (by omega)]
  unfold Checked
  rw [hblank, hbyte _ (by omega), hbyte _ (by omega)]
  unfold ipSendCheck
  rw [Function.update_of_ne (by decide : ethHlen + 10 ≠ ethHlen + 11), Function.update_self,
    Function.update_self]

/-- The bytes that ldd_start_xmit passes to ip_send_check. -/
def flipped (skb : Skb) (old : LddPacket) : Nat → Byte :=
  let copied : Nat → Byte := fun i =>
    skb.data.getD i (if i < max skb.data.length ethZlen then 0 else old.data i)
  let saddr := Function.update copied (ethHlen + 14) (copied (ethHlen + 14) ^^^ 1)
  Function.update saddr (ethHlen + 18) (saddr (ethHlen + 18) ^^^ 1)

theorem copyFrame_data (skb : Skb) (old : LddPacket) :
    (copyFrame cfg skb old).frame.data =
      (List.range (max skb.data.length ethZlen)).map (ipSendCheck cfg (flipped skb old)) := rfl

/-- The frame that ldd_start_xmit makes of an skb, in a buffer that held anything before. -/
theorem copyFrame_rewritten (skb : Skb) (old : LddPacket) (hfits : HeaderFits skb.data) :
    Rewritten cfg.ipFastCsum skb.data (copyFrame cfg skb old).frame.data := by
  have hlen : ethZlen ≤ max skb.data.length ethZlen := Nat.le_max_right _ _
  have hcopied : ∀ i, i < max skb.data.length ethZlen →
      skb.data.getD i (if i < max skb.data.length ethZlen then 0 else old.data i) =
        byteAt skb.data i := by
    intro i hi
    rw [if_pos hi, byteAt]
  have hrest : ∀ i, i < max skb.data.length ethZlen → i ≠ ethHlen + 14 → i ≠ ethHlen + 18 →
      flipped skb old i = byteAt skb.data i := by
    intro i hi h14 h18
    unfold flipped
    dsimp only
    rw [Function.update_of_ne h18, Function.update_of_ne h14, hcopied i hi]
  have hbyte : ∀ i, i < max skb.data.length ethZlen → i ≠ ethHlen + 10 → i ≠ ethHlen + 11 →
      byteAt (copyFrame cfg skb old).frame.data i = flipped skb old i := by
    intro i hi h10 h11
    rw [copyFrame_data, byteAt_map_range _ hi, ipSendCheck_of_ne cfg _ h10 h11]
  have hin : ∀ i, i < 60 → i < max skb.data.length ethZlen := fun i hi => lt_of_lt_of_le hi hlen
  refine ⟨?_, ?_, ?_, ?_, ?_⟩
  · rw [copyFrame_data, List.length_map, List.length_range]
  · rw [hbyte _ (hin _ (by decide)) (by decide) (by decide)]
    unfold flipped
    dsimp only
    rw [Function.update_of_ne (by decide), Function.update_self, hcopied _ (hin _ (by decide))]
  · rw [hbyte _ (hin _ (by decide)) (by decide) (by decide)]
    unfold flipped
    dsimp only
    rw [Function.update_self, Function.update_of_ne (by decide), hcopied _ (hin _ (by decide))]
  · rw [copyFrame_data]
    apply ipSendCheck_checked cfg _ hlen
    rw [hrest ethHlen (hin _ (by decide)) (by decide) (by decide)]
    exact hfits
  · intro i h10 h11 h14 h18
    rcases Nat.lt_or_ge i (max skb.data.length ethZlen) with hi | hi
    · rw [hbyte i hi h10 h11, hrest i hi h14 h18]
    · -- behind the end of the frame
      unfold byteAt
      rw [List.getD_eq_default, List.getD_eq_default]
      · exact (Nat.le_max_left _ _).trans hi
      · rw [copyFrame_data, List.length_map, List.length_range]
        exact hi

end CopyFrame

/-- One buffer a device, and the kernel's checksum. -/
def oneBuffer : Params where
  useNapi := false
  poolSize := 1
  pool_pos := Nat.one_pos
  ipFastCsum := inetChecksum

/-- An skb of that many bytes, all the same but for the version and ihl of its IP header. -/
def plainSkb (len : Nat) (versionIhl fill : Byte) : Skb :=
  ⟨0, ethPIp, (List.replicate len fill).set ethHlen versionIhl⟩

/-- The calls of ldd_start_xmit, in order: device, protocol and bytes of the skb. -/
def sends (es : List Event) : List (Dev × BitVec 16 × List Byte) :=
  es.filterMap fun e => match e with
    | .startXmit d protocol data => some (d, protocol, data)
    | _ => none

/-- The skb is, with all its bytes, the one that was passed to the call of its number. -/
def Passed (es : List Event) (d : Dev) (skb : Skb) : Prop :=
  (sends es)[skb.id]? = some (d, skb.protocol, skb.data)

/-- The frame is one that the twin made of an accepted skb. -/
def Sent (cfg : Params) (es : List Event) (d : Dev) (f : Frame) : Prop :=
  ∃ skb old, Passed es (lddPeer d) skb ∧ dropped skb = false ∧ f = (copyFrame cfg skb old).frame

/-- What a thread has in hand: an skb as it was passed, or the buffer of a frame that was sent. -/
def Holds (cfg : Params) (es : List Event) (c : Core Lists) : Instr → Prop
  | .startXmit d skb => Passed es d skb
  | .getTxBuffer d skb => Passed es d skb ∧ dropped skb = false
  | .copyFrame d skb _ => Passed es d skb ∧ dropped skb = false
  | .transmitted d skb => Passed es d skb
  | .txDone d skb => Passed es d skb
  | .rxEnqueue d pkt => Sent cfg es d (frameIn c pkt)
  | _ => True

structure WireInv (cfg : Params) (es : List Event) (c : Core Lists) (m : Multiset Instr) :
    Prop where
  buf : BufInv cfg c m
  calls : c.shared.calls = (sends es).length
  holds : ∀ a ∈ m, Holds cfg es c a
  slot : ∀ d skb, (c.shared.priv d).txSkb = some skb → Passed es d skb
  queued : ∀ d, ∀ f ∈ (c.shared.log d).queued, Sent cfg es d f
  pipe : ∀ d, FromQueue (rxPipe c m d)

section Runs

variable {cfg : Params} {es : List Event} {c c' : Core Lists} {m rest : Multiset Instr} {a : Instr}
  {pushed : List Instr}

theorem sends_append (es : List Event) (e : Event) : sends (es ++ [e]) = sends es ++ sends [e] :=
  List.filterMap_append

theorem Passed.later {d : Dev} {skb : Skb} (h : Passed es d skb) (e : Event) :
    Passed (es ++ [e]) d skb := by
  unfold Passed at h ⊢
  rw [sends_append, List.getElem?_append_left (List.getElem?_eq_some_iff.mp h).1, h]

theorem Sent.later {d : Dev} {f : Frame} (h : Sent cfg es d f) (e : Event) :
    Sent cfg (es ++ [e]) d f := by
  obtain ⟨skb, old, hpassed, hacc, hf⟩ := h
  exact ⟨skb, old, hpassed.later e, hacc, hf⟩

theorem Holds.later (h : Holds cfg es c a) (e : Event) : Holds cfg (es ++ [e]) c a := by
  cases a with
  | startXmit | transmitted | txDone => exact Passed.later h e
  | getTxBuffer | copyFrame => exact ⟨h.1.later e, h.2⟩
  | rxEnqueue => exact Sent.later h e
  | _ => trivial

/-- What another thread holds stays what it is while the buffer of its frame is not written. -/
theorem Holds.frame (h : Holds cfg es c a)
    (hpkt : ∀ pkt, hand a = some pkt → c'.shared.packet pkt = c.shared.packet pkt) :
    Holds cfg es c' a := by
  cases a with
  | rxEnqueue d pkt =>
    have hsame : frameIn c' pkt = frameIn c pkt := by
      unfold frameIn
      rw [hpkt pkt rfl]
    change Sent cfg es d (frameIn c' pkt)
    rw [hsame]
    exact h
  | _ => exact h

/-- An acknowledged interrupt takes the skb out of its slot, or leaves it there. -/
theorem lddAckInterrupt_skb (p : LddDev) (skb : Skb) (h : (lddAckInterrupt p).2.1 = some skb ∨
    (lddAckInterrupt p).2.2.txSkb = some skb) : p.txSkb = some skb := by
  unfold lddAckInterrupt at h
  split at h
  · rcases h with h | h
    · exact h
    · cases h
  · rcases h with h | h
    · cases h
    · exact h

theorem act_holds (h : Act cfg c a c' pushed) (ha : Holds cfg es c a)
    (hslot : ∀ d skb, (c.shared.priv d).txSkb = some skb → Passed es d skb) :
    ∀ b ∈ pushed, Holds cfg es c' b := by
  intro b hb
  cases h with
  | accept d skb hacc =>
    rw [List.mem_singleton.mp hb]
    exact ⟨ha, hacc⟩
  | takeLast | take =>
    rw [List.mem_singleton.mp hb]
    exact ha
  | copy d skb pkt =>
    rcases List.mem_cons.mp hb with rfl | hb
    · refine ⟨skb, c.shared.packet pkt, ?_, ha.2, ?_⟩
      · rw [lddPeer_lddPeer]
        exact ha.1
      · rw [frameIn, writePacket_packet, Function.update_self]
    · rw [List.mem_singleton.mp hb]
      exact ha.1
  | interrupt d cause =>
    rcases mem_lddInterrupt hb with ⟨-, -, rfl⟩ | ⟨-, -, rfl⟩ | ⟨skb, hskb, rfl⟩ | ⟨id, -, rfl⟩
    · trivial
    · trivial
    · exact hslot d skb (lddAckInterrupt_skb _ skb (.inl hskb))
    · trivial
  | rxNapi | drainSome =>
    rcases List.mem_cons.mp hb with rfl | hb
    · trivial
    · rw [List.mem_singleton.mp hb]
      trivial
  | stopLocked d =>
    rw [List.mem_singleton.mp hb]
    split <;> trivial
  | drop | busy | returnOk | queueQuiet | release | wake | rxNone | schedule | txDone | pollSpent
  | completeMissed | lookNone | reschedule | startQueue | drainNone => cases hb
  | _ =>
    rw [List.mem_singleton.mp hb]
    trivial

/-- The slot is filled by the call that has transmitted its skb. -/
theorem act_slot_passed (h : Act cfg c a c' pushed) (ha : Holds cfg es c a)
    (hslot : ∀ d skb, (c.shared.priv d).txSkb = some skb → Passed es d skb) (d : Dev) (skb : Skb)
    (hs : (c'.shared.priv d).txSkb = some skb) : Passed es d skb := by
  rcases h.status d with ⟨-, ht⟩ | ⟨skb', rfl, -, ht⟩ | ⟨pkt, -, -, ht⟩ | ⟨cause, -, hp⟩
  · exact hslot d skb (ht ▸ hs)
  · obtain rfl := Option.some.inj (ht.symm.trans hs)
    exact ha
  · exact hslot d skb (ht ▸ hs)
  · rw [hp] at hs
    exact hslot d skb (lddAckInterrupt_skb _ skb (.inr hs))

/-- A frame is queued by the thread that has its buffer in hand. -/
theorem act_queued (h : Act cfg c a c' pushed) (d : Dev) :
    (c'.shared.log d).queued = (c.shared.log d).queued ∨
      ∃ pkt, a = .rxEnqueue d pkt ∧
        (c'.shared.log d).queued = (c.shared.log d).queued ++ [frameIn c pkt] := by
  by_cases hrec : recordsRx d a = false
  · exact .inl (h.rxLog d hrec).1
  cases h with
  | queue d' pkt | queueQuiet d' pkt =>
    have hd : d' = d := by simpa [recordsRx] using hrec
    subst hd
    exact .inr ⟨pkt, rfl, by simp [frameIn]⟩
  | lost d' pkt => exact .inl rfl
  | rxRegular d' pkt memory | rxNapi d' pkt budget done memory | drainSome d' pkt l =>
    have hd : d' = d := by simpa [recordsRx] using hrec
    subst hd
    exact .inl (by simp)
  | drainNone d' => exact .inl rfl
  | _ => exact absurd rfl hrec

theorem WireInv.act (h : Act cfg c a c' pushed) (hi : WireInv cfg es c (a ::ₘ rest)) :
    WireInv cfg es c' ((pushed : Multiset Instr) + rest) := by
  have ha := hi.holds a (Multiset.mem_cons_self _ _)
  refine ⟨BufInv.act h hi.buf, h.calls.trans hi.calls, ?_, act_slot_passed h ha hi.slot, ?_, ?_⟩
  · intro b hb
    rcases Multiset.mem_add.mp hb with hb | hb
    · exact act_holds h ha hi.slot b hb
    · refine (hi.holds b (Multiset.mem_cons_of_mem hb)).frame fun pkt hpkt => ?_
      -- only the buffer in this thread's own hand is written
      by_cases hcopy : ∃ d skb q, a = .copyFrame d skb q
      · obtain ⟨d, skb, q, rfl⟩ := hcopy
        have hne : pkt ≠ q := by
          rintro rfl
          exact hi.buf.held_once rfl (mem_collect.mpr ⟨b, hb, hpkt⟩)
        cases h
        rw [writePacket_packet, Function.update_of_ne hne]
      · rw [h.packet fun d skb q heq => hcopy ⟨d, skb, q, heq⟩]
  · intro d f hf
    rcases act_queued h d with heq | ⟨pkt, rfl, heq⟩
    · exact hi.queued d f (heq ▸ hf)
    · rw [heq] at hf
      rcases List.mem_append.mp hf with hf | hf
      · exact hi.queued d f hf
      · rw [List.mem_singleton.mp hf]
        exact ha
  · intro d
    obtain ⟨k, hmove, -⟩ := act_pipe h hi.buf d
    exact (hi.pipe d).move hmove

theorem WireInv.later (hi : WireInv cfg es c m) (e : Event) (hsend : sends [e] = []) :
    WireInv cfg (es ++ [e]) c m where
  buf := hi.buf
  calls := by rw [sends_append, hsend, List.append_nil, hi.calls]
  holds b hb := (hi.holds b hb).later e
  slot d skb hs := (hi.slot d skb hs).later e
  queued d f hf := (hi.queued d f hf).later e
  pipe := hi.pipe

theorem WireInv.start {t : Sys Lists} {e : Event} (h : Start cfg t e c a)
    (hbuf : BufInv cfg c (a ::ₘ t.pending)) (hi : WireInv cfg es t.core t.pending) :
    WireInv cfg (es ++ [e]) c (a ::ₘ t.pending) := by
  have hslot : ∀ d, (c.shared.priv d).txSkb = (t.core.shared.priv d).txSkb := by
    intro d
    cases h with
    | poll d' budget => exact mapPriv_keeps LddDev.txSkb (by intro p; rfl) d
    | _ => rfl
  refine ⟨hbuf, ?_, ?_, ?_, ?_, ?_⟩
  · rw [sends_append, List.length_append, ← hi.calls]
    cases h <;> rfl
  · intro b hb
    rcases Multiset.mem_cons.mp hb with rfl | hb
    · cases h with
      | xmit d protocol data =>
        change (sends (es ++ [.startXmit d protocol data]))[t.core.shared.calls]? = _
        rw [sends_append, hi.calls, List.getElem?_append_right (Nat.le_refl _), Nat.sub_self]
        rfl
      | _ => trivial
    · refine ((hi.holds b hb).later e).frame fun pkt _ => ?_
      rw [h.packet]
  · intro d skb hs
    exact (hi.slot d skb (hslot d ▸ hs)).later e
  · intro d f hf
    rw [h.log] at hf
    exact (hi.queued d f hf).later e
  · intro d
    rw [start_pipe h d]
    exact hi.pipe d

theorem WireInv.step {t t' : Sys Lists} {e : Event} (h : Step listOps cfg t e t')
    (hi : WireInv cfg es t.core t.pending) : WireInv cfg (es ++ [e]) t'.core t'.pending := by
  have hbuf := hi.buf.step h
  rcases step_cases h with ⟨a, hstart, hp⟩ | ⟨a, rest, pushed, hp, hact, hp', i, memory, rfl, -⟩
  · rw [hp] at hbuf ⊢
    exact hi.start hstart hbuf
  · rw [hp']
    exact (WireInv.act hact (hp ▸ hi)).later _ rfl

theorem WireInv.init (cfg : Params) :
    WireInv cfg [] (initial (listInit cfg)).core (initial (listInit cfg)).pending where
  buf := .init cfg
  calls := rfl
  holds := by simp [initial, Pool.pending]
  slot := by simp [initial]
  queued := by simp [initial]
  pipe := by
    intro d f hf
    simp [rxPipe, initial, Pool.pending, listInit] at hf

theorem wire_steps {s : Sys Links} (h : Steps (NetStep cfg) (netInit cfg) es s) :
    ∃ t : Sys Lists, s.core.shared = t.core.shared ∧ WireInv cfg es t.core t.pending := by
  obtain ⟨t, ht, hr⟩ := netdev_refines h
  have hi := ht.history (I := fun es t => WireInv cfg es t.core t.pending)
    (fun _ _ _ _ hi hs => hi.step hs) (.init cfg)
  exact ⟨t, hr.shared, hi⟩

end Runs

/-- The IP header has at least its 20 fixed bytes and ends within the skb. -/
def HeaderWithin (bytes : List Byte) : Prop :=
  5 ≤ ihl bytes ∧ ethHlen + 4 * ihl bytes ≤ bytes.length

instance (bytes : List Byte) : Decidable (HeaderWithin bytes) :=
  inferInstanceAs (Decidable (_ ∧ _))

theorem HeaderWithin.fits {bytes : List Byte} (h : HeaderWithin bytes) : HeaderFits bytes :=
  h.2.trans (Nat.le_max_left _ _)

/-- The skb that a frame at a device was made of. -/
structure MadeFrom (es : List Event) (d : Dev) (f : Frame) (skb : Skb) : Prop where
  passed : Passed es (lddPeer d) skb
  call : skb.id = f.call

theorem MadeFrom.unique {es : List Event} {d : Dev} {f : Frame} {skb skb' : Skb}
    (h : MadeFrom es d f skb) (h' : MadeFrom es d f skb') : skb = skb' := by
  have hid : skb.id = skb'.id := h.call.trans h'.call.symm
  have hp := h.passed
  have hp' := h'.passed
  unfold Passed at hp hp'
  rw [hid, hp'] at hp
  obtain ⟨id, protocol, data⟩ := skb
  obtain ⟨id', protocol', data'⟩ := skb'
  have heq := (Prod.mk.inj (Option.some.inj hp)).2
  obtain ⟨rfl, rfl⟩ := Prod.mk.inj heq
  obtain rfl : id = id' := hid
  rfl

/-- Over every run, with the standard checksum: each frame queued at a device is that of an
accepted skb of the twin, padded, with the two bits flipped and a valid checksum, and nothing
else changed; what is passed up has been queued; the skb itself stays as it was passed; and a
frame that is sent back arrives as the padded original, if that had its checksum. -/
theorem frames_rewritten_on_wire (cfg : Params) (hcsum : cfg.ipFastCsum = inetChecksum)
    (es : List Event) (s : Sys Links) (h : Steps (NetStep cfg) (netInit cfg) es s) :
    (∀ d, ∀ f ∈ (s.core.shared.log d).queued, ∃ skb, MadeFrom es d f skb ∧ dropped skb = false ∧
      (HeaderWithin skb.data → Rewritten inetChecksum skb.data f.data ∧ Valid (header f.data))) ∧
    (∀ d f fate, (f, fate) ∈ (s.core.shared.log d).settled → f ∈ (s.core.shared.log d).queued) ∧
    (∀ d skb, (s.core.shared.priv d).txSkb = some skb → Passed es d skb) ∧
    ∀ d, ∀ f ∈ (s.core.shared.log d).queued, ∀ g ∈ (s.core.shared.log (lddPeer d)).queued,
      ∀ skb skb', MadeFrom es d f skb → HeaderWithin skb.data → Checked inetChecksum skb.data →
      MadeFrom es (lddPeer d) g skb' → skb'.data = f.data → g.data = padded skb.data := by
  obtain ⟨t, hshared, hi⟩ := wire_steps h
  have hframe : ∀ d, ∀ f ∈ (s.core.shared.log d).queued, ∃ skb, MadeFrom es d f skb ∧
      dropped skb = false ∧ (HeaderFits skb.data → Rewritten inetChecksum skb.data f.data) := by
    intro d f hf
    rw [hshared] at hf
    obtain ⟨skb, old, hpassed, hacc, rfl⟩ := hi.queued d f hf
    refine ⟨skb, ⟨hpassed, rfl⟩, hacc, fun hfits => ?_⟩
    rw [← hcsum]
    exact copyFrame_rewritten cfg skb old hfits
  refine ⟨?_, ?_, ?_, ?_⟩
  · intro d f hf
    obtain ⟨skb, hmade, hacc, hrew⟩ := hframe d f hf
    exact ⟨skb, hmade, hacc, fun hin => ⟨hrew hin.fits, (hrew hin.fits).valid hin.1⟩⟩
  · intro d f fate hf
    rw [hshared] at hf ⊢
    exact hi.pipe d f (.inr (.inr ⟨fate, hf⟩))
  · intro d skb hs
    rw [hshared] at hs
    exact hi.slot d skb hs
  · intro d f hf g hg skb skb' hmade hin hchecked hmade' hsame
    obtain ⟨skb₁, hmade₁, -, hrew⟩ := hframe d f hf
    obtain rfl := hmade.unique hmade₁
    obtain ⟨skb₂, hmade₂, -, hback⟩ := hframe (lddPeer d) g hg
    obtain rfl := hmade'.unique hmade₂
    have hthere := hrew hin.fits
    rw [hsame] at hback
    have hfits : HeaderFits f.data := by
      have hlen := hthere.length
      have hend := hin.2
      unfold HeaderFits
      rw [hthere.ihl_eq]
      omega
    exact hthere.back (hback hfits) hchecked

/-- The frame of an echo request from 192.168.0.1 to 192.168.0.2, without its ICMP part. -/
def echoRequest : List Byte :=
  [0, 0x53, 0x4e, 0x55, 0x4c, 0x31, 0, 0x53, 0x4e, 0x55, 0x4c, 0x30, 8, 0] ++
    [0x45, 0, 0, 0x54, 0, 0, 0x40, 0, 0x40, 1, 0xb9, 0x55, 192, 168, 0, 1, 192, 168, 0, 2]

/-- The frame as sn1 receives it, from 192.168.1.1 to 192.168.1.2. -/
def echoReceived : List Byte :=
  [0, 0x53, 0x4e, 0x55, 0x4c, 0x31, 0, 0x53, 0x4e, 0x55, 0x4c, 0x30, 8, 0] ++
    [0x45, 0, 0, 0x54, 0, 0, 0x40, 0, 0x40, 1, 0xb7, 0x55, 192, 168, 1, 1, 192, 168, 1, 2] ++
    List.replicate 26 0

/-- Both devices are opened; sn0 sends the request, and sn1 sends what it got back. -/
def sentBack : List Event :=
  [Event.open .sn1, .run 0 true, .run 0 true, .open .sn0, .run 1 true, .run 1 true] ++
  [Event.startXmit .sn0 ethPIp echoRequest] ++ List.replicate 12 (Event.run 2 true) ++
  [Event.startXmit .sn1 ethPIp echoReceived] ++ List.replicate 12 (Event.run 3 true)

theorem frames_rewritten_on_wire_sent_back :
    ∃ s, Steps (NetStep oneBuffer) (netInit oneBuffer) sentBack s ∧
      (s.core.shared.log .sn1).queued = [⟨0, echoReceived⟩] ∧
      (s.core.shared.log .sn0).queued = [⟨1, padded echoRequest⟩] ∧
      Rewritten inetChecksum echoRequest echoReceived ∧ Valid (header echoReceived) := by
  have hexec : (Lib.Transition.exec (next linkOps oneBuffer) (netInit oneBuffer) sentBack).map
      (fun s => ((s.core.shared.log .sn1).queued, (s.core.shared.log .sn0).queued.map Frame.call)) =
      some ([⟨0, echoReceived⟩], [1]) := by
    decide +kernel
  obtain ⟨s, hs, hlogs⟩ := Option.map_eq_some_iff.mp hexec
  obtain ⟨hthere, hcalls⟩ := Prod.mk.inj hlogs
  have hrun : Steps (NetStep oneBuffer) _ _ s := exec_steps hs
  obtain ⟨hrewritten, -, -, hback⟩ := frames_rewritten_on_wire oneBuffer rfl sentBack s hrun
  have hf : ⟨0, echoReceived⟩ ∈ (s.core.shared.log .sn1).queued := by
    rw [hthere]
    exact List.mem_singleton.mpr rfl
  have hmade : MadeFrom sentBack .sn1 ⟨0, echoReceived⟩ ⟨0, ethPIp, echoRequest⟩ := ⟨rfl, rfl⟩
  obtain ⟨g, hg, hcall⟩ := List.map_eq_singleton_iff.mp hcalls
  have hmade' : MadeFrom sentBack .sn0 g ⟨1, ethPIp, echoReceived⟩ := ⟨rfl, hcall.symm⟩
  have hdata : g.data = padded echoRequest :=
    hback .sn1 _ hf g (by rw [lddPeer, hg]; exact List.mem_singleton.mpr rfl) _ _ hmade
      (by decide) (by decide) hmade' rfl
  obtain ⟨skb, hmade₁, -, hwire⟩ := hrewritten .sn1 _ hf
  obtain rfl := hmade.unique hmade₁
  refine ⟨s, hrun, hthere, ?_, hwire (by decide)⟩
  rw [hg, ← hcall, ← hdata]

end LinuxDeviceDriver.Drivers.Netdev.Wire
