/- source: examples/30_netdev/main.c, lines 70 to 148 and 176 to 261
   digest: The frames at a device: queued, waiting, dequeued and not passed up, settled. Each
     action moves at most one of them. -/

import LinuxDeviceDriver.Drivers.Netdev.Ownership
import LinuxDeviceDriver.Lib.Handover

set_option autoImplicit false

namespace LinuxDeviceDriver.Drivers.Netdev.ReceivePath

open Lib.Handover
open Lib.Threads
open Model Buffers Actions Ownership

def frameIn (c : Core Lists) (pkt : PktRef) : Frame := (c.shared.packet pkt).frame

/-- The frame that a handler or a poll has dequeued and not passed up. -/
def handed (c : Core Lists) (d : Dev) : Instr → Option Frame
  | .rxRegular d' pkt => if d' = d then some (frameIn c pkt) else none
  | .rxNapi d' pkt _ _ => if d' = d then some (frameIn c pkt) else none
  | _ => none

/-- The frames at a device. -/
def rxPipe (c : Core Lists) (m : Multiset Instr) (d : Dev) : Pipe Frame Fate where
  queued := (c.shared.log d).queued
  waiting := (c.bufs.rx d).map (frameIn c)
  hand := collect (handed c d) m
  settled := (c.shared.log d).settled

section

variable {cfg : Params} {c c' : Core Lists} {rest : Multiset Instr} {a : Instr}
  {pushed : List Instr}

private theorem handed_lddInterrupt (d d' : Dev) (status : BitVec 32) (txSkb : Option Skb)
    (cause : Cause) : collect (handed c d)
      ((lddInterrupt cfg d' status txSkb ++ cause.rest d' : List Instr) : Multiset Instr) = 0 := by
  rw [Multiset.eq_zero_iff_forall_notMem]
  intro f hf
  obtain ⟨b, hb, hhand⟩ := mem_collect.mp hf
  rcases mem_lddInterrupt hb with ⟨-, -, rfl⟩ | ⟨-, -, rfl⟩ | ⟨skb, -, rfl⟩ | ⟨id, -, rfl⟩ <;>
    cases hhand

/-- A frame is written into a buffer that is nowhere else, so the frames at the devices
stay what they are. -/
private theorem copy_pipe {d' : Dev} {skb : Skb} {pkt : PktRef}
    (hi : BufInv cfg c (.copyFrame d' skb pkt ::ₘ rest)) (d : Dev) :
    rxPipe (writePacket cfg c skb pkt)
        (([.rxEnqueue (lddPeer d') pkt, .transmitted d' skb] : List Instr) + rest) d =
      rxPipe c (.copyFrame d' skb pkt ::ₘ rest) d := by
  have hsame : ∀ q, q ≠ pkt → frameIn (writePacket cfg c skb pkt) q = frameIn c q := by
    intro q hq
    simp only [frameIn, writePacket_packet, Function.update_of_ne hq]
  have hwait : (c.bufs.rx d).map (frameIn (writePacket cfg c skb pkt)) =
      (c.bufs.rx d).map (frameIn c) := by
    refine List.map_congr_left fun q hq => hsame q ?_
    rintro rfl
    exact hi.held_not_mem (Multiset.mem_cons_self _ _) rfl (mem_all.mpr ⟨d, .inr hq⟩)
  have hhand : collect (handed (writePacket cfg c skb pkt) d) rest = collect (handed c d) rest := by
    refine Multiset.bind_congr fun b hb => ?_
    have hfree : hand b ≠ some pkt := fun h => hi.held_once rfl (mem_collect.mpr ⟨b, hb, h⟩)
    cases b with
    | rxRegular d'' q | rxNapi d'' q budget done =>
      rw [handed, handed, hsame q fun h => hfree (congrArg some h)]
    | _ => rfl
  simp [rxPipe, hwait, hhand, handed]

/-- The frames at a device after an action that writes to no buffer. -/
private theorem rxPipe_after (hpkt : c'.shared.packet = c.shared.packet) (d : Dev) :
    rxPipe c' ((pushed : Multiset Instr) + rest) d =
      { queued := (c'.shared.log d).queued
        waiting := (c'.bufs.rx d).map (frameIn c)
        hand := collect (handed c d) (pushed : Multiset Instr) + collect (handed c d) rest
        settled := (c'.shared.log d).settled } := by
  have hframe : frameIn c' = frameIn c := by
    funext q
    simp only [frameIn, hpkt]
  have hhanded : handed c' d = handed c d := by
    funext b
    cases b <;> simp [handed, hframe]
  simp only [rxPipe, hframe, hhanded, collect_add]

private theorem arrive_pipe {d : Dev} (pkt : PktRef) (ha : handed c d a = none)
    (hp : collect (handed c d) (pushed : Multiset Instr) = 0)
    (hpkt : c'.shared.packet = c.shared.packet) (hrx : c'.bufs.rx d = c.bufs.rx d ++ [pkt])
    (hq : (c'.shared.log d).queued = (c.shared.log d).queued ++ [frameIn c pkt])
    (hs : (c'.shared.log d).settled = (c.shared.log d).settled) :
    Move (rxPipe c (a ::ₘ rest) d) .arrive (rxPipe c' ((pushed : Multiset Instr) + rest) d) := by
  have hmove := Move.arrive (rxPipe c (a ::ₘ rest) d) (frameIn c pkt)
  rw [rxPipe_after hpkt, hrx, hq, hs, hp, List.map_append, List.map_singleton, zero_add]
  simpa [rxPipe, ha] using hmove

/-- A frame taken from the front of the queue into the hand. -/
private theorem take_pipe {d : Dev} {pkt : PktRef} {l : List PktRef} {b : Instr}
    (hr : c.bufs.rx d = pkt :: l) (ha : handed c d a = none)
    (hb : handed c d b = some (frameIn c pkt)) :
    Move (rxPipe c (a ::ₘ rest) d) .take (rxPipe (rxTail c d l) (([b] : List Instr) + rest) d) := by
  have hmove := Move.take (rxPipe c (a ::ₘ rest) d) (frameIn c pkt) (l.map (frameIn c))
    (by simp [rxPipe, hr])
  have hpkt : (rxTail c d l).shared.packet = c.shared.packet := rfl
  rw [rxPipe_after hpkt]
  simpa [rxPipe, ha, hb] using hmove

/-- A frame in hand is passed up, or dropped for lack of memory. -/
private theorem settle_pipe {d : Dev} {pkt : PktRef} {napi memory : Bool}
    (ha : handed c d a = some (frameIn c pkt))
    (hp : collect (handed c d) (pushed : Multiset Instr) = 0) :
    Move (rxPipe c (a ::ₘ rest) d) (.settle (rxFate napi memory))
      (rxPipe (lddRx c d pkt napi memory) ((pushed : Multiset Instr) + rest) d) := by
  have hmove := Move.settle (rxPipe c (a ::ₘ rest) d) (frameIn c pkt) (rxFate napi memory)
    (collect (handed c d) rest) (by simp [rxPipe, ha])
  rw [rxPipe_after lddRx_packet, hp, zero_add]
  have hframe : (c.shared.packet pkt).frame = frameIn c pkt := rfl
  simpa [rxPipe, hframe] using hmove

/-- A frame taken from the front of the queue and given up. -/
private theorem discard_pipe {d : Dev} {pkt : PktRef} {l : List PktRef}
    (hr : c.bufs.rx d = pkt :: l) (ha : handed c d a = none)
    (hp : collect (handed c d) (pushed : Multiset Instr) = 0) :
    Move (rxPipe c (a ::ₘ rest) d) (.discard .stopped)
      (rxPipe ((rxTail c d l).settle d pkt .stopped) ((pushed : Multiset Instr) + rest) d) := by
  have hmove := Move.discard (rxPipe c (a ::ₘ rest) d) (frameIn c pkt) Fate.stopped
    (l.map (frameIn c)) (by simp [rxPipe, hr])
  have hpkt : ((rxTail c d l).settle d pkt .stopped).shared.packet = c.shared.packet := rfl
  rw [rxPipe_after hpkt, hp, zero_add]
  have hframe : (c.shared.packet pkt).frame = frameIn c pkt := rfl
  simpa [rxPipe, ha, hframe] using hmove

theorem act_pipe (h : Act cfg c a c' pushed) (hi : BufInv cfg c (a ::ₘ rest)) (d : Dev) :
    ∃ k, Move (rxPipe c (a ::ₘ rest) d) k (rxPipe c' ((pushed : Multiset Instr) + rest) d) ∧
      (k = .take → a = .rxDequeue d ∨ ∃ budget done, a = .poll d budget done) ∧
      ∀ r, k = .discard r → r = .stopped ∧ a = .drain d := by
  have hrx := h.rx d
  have hlog := h.rxLog d
  have hstay : rxPipe c' ((pushed : Multiset Instr) + rest) d = rxPipe c (a ::ₘ rest) d →
      ∃ k, Move (rxPipe c (a ::ₘ rest) d) k (rxPipe c' ((pushed : Multiset Instr) + rest) d) ∧
        (k = .take → a = .rxDequeue d ∨ ∃ budget done, a = .poll d budget done) ∧
        ∀ r, k = .discard r → r = .stopped ∧ a = .drain d := by
    intro heq
    rw [heq]
    exact ⟨.stay, .stay _, by simp, by simp⟩
  -- a frame moves, but not out of the queue
  have hmove : ∀ {k : Kind Fate},
      Move (rxPipe c (a ::ₘ rest) d) k (rxPipe c' ((pushed : Multiset Instr) + rest) d) →
      k ≠ .take → (∀ r, k ≠ .discard r) →
      ∃ k, Move (rxPipe c (a ::ₘ rest) d) k (rxPipe c' ((pushed : Multiset Instr) + rest) d) ∧
        (k = .take → a = .rxDequeue d ∨ ∃ budget done, a = .poll d budget done) ∧
        ∀ r, k = .discard r → r = .stopped ∧ a = .drain d := by
    intro k hk htake hdiscard
    exact ⟨k, hk, fun he => absurd he htake, fun r he => absurd he (hdiscard r)⟩
  -- an action that touches neither the queue nor a frame
  have hkeep : c'.shared.packet = c.shared.packet → c'.bufs.rx d = c.bufs.rx d →
      (c'.shared.log d).queued = (c.shared.log d).queued ∧
        (c'.shared.log d).settled = (c.shared.log d).settled →
      collect (handed c d) (pushed : Multiset Instr) = ((handed c d a).toList : List Frame) →
      rxPipe c' ((pushed : Multiset Instr) + rest) d = rxPipe c (a ::ₘ rest) d := by
    intro hpkt hrx hlog hhand
    rw [rxPipe_after hpkt, hrx, hlog.1, hlog.2, hhand, ← collect_cons]
    rfl
  cases h with
  | copy d' skb pkt => exact hstay (copy_pipe hi d)
  | queue d' pkt hrun hint =>
    by_cases hd : d = d'
    · subst hd
      refine hmove (arrive_pipe pkt rfl ?_ rfl ?_ ?_ ?_) ?_ ?_ <;> simp [handed, frameIn]
    · exact hstay (hkeep rfl (hrx (by simp [touchesRx, Ne.symm hd]))
        (hlog (by simp [recordsRx, Ne.symm hd])) (by simp [handed]))
  | queueQuiet d' pkt hrun hint =>
    by_cases hd : d = d'
    · subst hd
      refine hmove (arrive_pipe pkt rfl ?_ rfl ?_ ?_ ?_) ?_ ?_ <;> simp [frameIn]
    · exact hstay (hkeep rfl (hrx (by simp [touchesRx, Ne.symm hd]))
        (hlog (by simp [recordsRx, Ne.symm hd])) (by simp [handed]))
  | rxSome d' pkt l hr =>
    by_cases hd : d = d'
    · subst hd
      exact ⟨.take, take_pipe hr rfl (if_pos rfl), fun _ => .inl rfl, by simp⟩
    · exact hstay (hkeep rfl (hrx (by simp [touchesRx, Ne.symm hd])) (hlog rfl)
        (by simp [handed, Ne.symm hd]))
  | pollSome d' budget done pkt l hr =>
    by_cases hd : d = d'
    · subst hd
      exact ⟨.take, take_pipe hr rfl (if_pos rfl), fun _ => .inr ⟨budget, done, rfl⟩, by simp⟩
    · exact hstay (hkeep rfl (hrx (by simp [touchesRx, Ne.symm hd])) (hlog rfl)
        (by simp [handed, Ne.symm hd]))
  | rxRegular d' pkt memory | rxNapi d' pkt budget done memory =>
    by_cases hd : d = d'
    · subst hd
      exact hmove (settle_pipe (if_pos rfl) (by simp [handed])) (by simp) (by simp)
    · exact hstay (hkeep lddRx_packet (hrx rfl) (hlog (by simp [recordsRx, Ne.symm hd]))
        (by simp [handed, Ne.symm hd]))
  | drainSome d' pkt l hr =>
    by_cases hd : d = d'
    · subst hd
      refine ⟨_, discard_pipe hr rfl (by simp [handed]), by simp, ?_⟩
      intro r heq
      exact ⟨(Kind.discard.inj heq).symm, rfl⟩
    · exact hstay (hkeep rfl (hrx (by simp [touchesRx, Ne.symm hd]))
        (hlog (by simp [recordsRx, Ne.symm hd])) (by simp [handed]))
  | interrupt d' cause =>
    exact hstay (hkeep rfl (hrx rfl) (hlog rfl) (handed_lddInterrupt d d' _ _ cause))
  | stopLocked d' =>
    exact hstay (hkeep rfl (hrx rfl) (hlog rfl) (by cases cfg.useNapi <;> simp [handed]))
  | lost d' pkt | rxNone d' hr | pollNone d' budget done hr | pollSpent d' budget done hr
  | drainNone d' hr => exact hstay (hkeep rfl rfl ⟨rfl, rfl⟩ (by simp [handed]))
  | _ => exact hstay (hkeep rfl (hrx rfl) (hlog rfl) (by simp [handed]))

theorem start_pipe {t : Sys Lists} {e : Event} (h : Start cfg t e c a) (d : Dev) :
    rxPipe c (a ::ₘ t.pending) d = rxPipe t.core t.pending d := by
  have hframe : frameIn c = frameIn t.core := by
    funext q
    simp only [frameIn, h.packet]
  have hhanded : handed c d = handed t.core d := by
    funext b
    cases b <;> simp [handed, hframe]
  have ha : handed t.core d a = none := by
    cases h <;> rfl
  simp [rxPipe, hframe, hhanded, h.bufs, h.log, ha]

end

end LinuxDeviceDriver.Drivers.Netdev.ReceivePath
