/- source: examples/30_netdev/main.c, lines 83 to 110 and 175 to 197
   digest: Without NAPI two handlers of a device may pass frames up in the wrong order; with one
     handler at a time between its dequeue and its netif_rx they do not. -/

import LinuxDeviceDriver.Drivers.Netdev.Regular

set_option autoImplicit false

namespace LinuxDeviceDriver.Drivers.Netdev.RegularOrder

open Lib.Handover
open Lib.Threads
open Lib.Transition (Steps Guarded exec_guarded_steps)
open Model Buffers Actions Ownership ReceivePath Regular

/-- The frames handed to netif_rx on a device, in that order. -/
def delivered (s : Shared) (d : Dev) : List Frame :=
  ((s.log d).settled.filter fun f => f.2 == .netifRx).map Prod.fst

/-- A handler that has dequeued a frame and not yet handed it to netif_rx. -/
def holding (d : Dev) : Instr → Bool
  | .rxRegular d' _ => d' == d
  | _ => false

/-- A handler dequeues for a device only while no other handler of that device is between
its dequeue and netif_rx. -/
def OneHandler {B : Type} (s : Sys B) : Event → Prop
  | .run i _ => ∀ d, s.next i = some (.rxDequeue d) → cnt (holding d) s.pending = 0
  | _ => True

instance {B : Type} (s : Sys B) : (e : Event) → Decidable (OneHandler s e)
  | .run i _ =>
    decidable_of_iff ((s.next i = some (.rxDequeue .sn0) → cnt (holding .sn0) s.pending = 0) ∧
        (s.next i = some (.rxDequeue .sn1) → cnt (holding .sn1) s.pending = 0))
      ⟨fun h d => match d with
        | .sn0 => h.1
        | .sn1 => h.2, fun h => ⟨h .sn0, h .sn1⟩⟩
  | .startXmit _ _ _ => .isTrue trivial
  | .open _ => .isTrue trivial
  | .stop _ => .isTrue trivial
  | .poll _ _ => .isTrue trivial

/-! ## Two handlers at once -/

/-- Two buffers on each device. -/
def twoBuffers : Params := ⟨false, 2, Nat.le_succ 1, fun _ => (0, 0)⟩

/-- Both devices are up. sn1 sends, and its TX interrupt takes along the RX interrupt of
the first frame from sn0: that handler dequeues the frame and is delayed. The second frame
from sn0 is dequeued and passed up before it goes on. -/
def overtaken : List Event :=
  [Event.open .sn0, .run 0 true, .run 0 true, .open .sn1, .run 1 true, .run 1 true,
    .startXmit .sn1 ethPIp (List.replicate 34 0)] ++
  List.replicate 9 (Event.run 2 true) ++
  [Event.startXmit .sn0 ethPIp (List.replicate 34 1)] ++
  List.replicate 4 (Event.run 3 true) ++
  List.replicate 2 (Event.run 2 true) ++
  List.replicate 5 (Event.run 3 true) ++
  [Event.startXmit .sn0 ethPIp (List.replicate 34 2)] ++
  List.replicate 7 (Event.run 4 true) ++
  [Event.run 2 true]

/-- The frames of calls 1 and 2 were queued in that order and passed up in the other. -/
theorem regular_handlers_reorder :
    ∃ s, Steps (Guarded XmitSerial (NetStep twoBuffers)) (netInit twoBuffers) overtaken s ∧
      (s.core.shared.log .sn1).queued.map Frame.call = [1, 2] ∧
      (delivered s.core.shared .sn1).map Frame.call = [2, 1] := by
  have hexec : (Lib.Transition.exec
      (fun s e => if XmitSerial s e then next linkOps twoBuffers s e else none)
      (netInit twoBuffers) overtaken).map
      (fun s => ((s.core.shared.log .sn1).queued.map Frame.call,
        (delivered s.core.shared .sn1).map Frame.call)) = some ([1, 2], [2, 1]) := by
    decide +kernel
  obtain ⟨s, hs, hd⟩ := Option.map_eq_some_iff.mp hexec
  exact ⟨s, exec_guarded_steps hs, congrArg Prod.fst hd, congrArg Prod.snd hd⟩

/-! ## One handler at a time -/

/-- The call of the twin whose frame is on its way to a device. -/
def sent (c : Core Lists) (d : Dev) : Instr → Option Nat
  | .startXmit d' skb => if d' = lddPeer d then some skb.id else none
  | .getTxBuffer d' skb => if d' = lddPeer d then some skb.id else none
  | .copyFrame d' skb _ => if d' = lddPeer d then some skb.id else none
  | .rxEnqueue d' pkt => if d' = d then some (c.shared.packet pkt).call else none
  | _ => none

structure OrderInv (c : Core Lists) (m : Multiset Instr) : Prop where
  line : ∀ d, InOrder (· == .netifRx) (rxPipe c m d)
  sorted : ∀ d, ((c.shared.log d).queued.map Frame.call).Pairwise (· < ·)
  before : ∀ d, ∀ f ∈ (c.shared.log d).queued, ∀ n ∈ collect (sent c d) m, f.call < n
  fresh : ∀ d, (∀ f ∈ (c.shared.log d).queued, f.call < c.shared.calls) ∧
    ∀ n ∈ collect (sent c d) m, n < c.shared.calls

section OrderInv

variable {cfg : Params} {c c' : Core Lists} {rest : Multiset Instr} {a : Instr}
  {pushed : List Instr}

private theorem sent_arriving {d : Dev} {b : Instr} {n : Nat} (h : sent c d b = some n) :
    arriving d b = true := by
  have hdev : ∀ {d' d'' : Dev} {k : Nat}, (if d' = d'' then some k else none) = some n →
      (d' == d'') = true := by
    intro d' d'' k h
    by_contra hne
    rw [if_neg (by simpa using hne)] at h
    cases h
  cases b with
  | startXmit d' skb => exact hdev h
  | getTxBuffer d' skb => exact hdev h
  | copyFrame d' skb pkt => exact hdev h
  | rxEnqueue d' pkt => exact hdev h
  | _ => cases h

/-- Up to the copy of the frame, a transmission goes on with the same call. -/
private theorem act_leads (h : Act cfg c a c' pushed)
    (hcopy : ¬ ∃ d skb pkt, a = .copyFrame d skb pkt) (d : Dev) :
    ∀ b ∈ pushed, sent c d b = none ∨ sent c d b = sent c d a := by
  cases h with
  | copy d' skb pkt => exact absurd ⟨d', skb, pkt, rfl⟩ hcopy
  | interrupt d' cause =>
    intro b hb
    left
    rcases mem_lddInterrupt hb with ⟨-, -, rfl⟩ | ⟨-, -, rfl⟩ | ⟨skb, -, rfl⟩ | ⟨id, -, rfl⟩ <;> rfl
  | stopLocked d' => cases cfg.useNapi <;> simp [sent]
  | _ => simp [sent]

/-- An action brings no frame on its way: what it leads to was on its way before. -/
private theorem act_sent (h : Act cfg c a c' pushed) (hi : BufInv cfg c (a ::ₘ rest)) (d : Dev)
    {n : Nat} (hn : n ∈ collect (sent c' d) ((pushed : Multiset Instr) + rest)) :
    n ∈ collect (sent c d) (a ::ₘ rest) := by
  obtain ⟨b, hb, hs⟩ := mem_collect.mp hn
  by_cases hcopy : ∃ d' skb pkt, a = .copyFrame d' skb pkt
  · obtain ⟨d', skb, pkt, rfl⟩ := hcopy
    cases h
    rcases Multiset.mem_add.mp hb with hb | hb
    · -- the frame just written
      rcases List.mem_cons.mp (Multiset.mem_coe.mp hb) with rfl | hb
      · refine mem_collect.mpr ⟨_, Multiset.mem_cons_self _ _, ?_⟩
        simp only [sent, writePacket_packet, Function.update_self, copyFrame] at hs ⊢
        rw [← hs]
        cases d <;> cases d' <;> rfl
      · obtain rfl := List.mem_singleton.mp hb
        cases hs
    · have hrest := hb
      refine mem_collect.mpr ⟨b, Multiset.mem_cons_of_mem hrest, ?_⟩
      rw [← hs]
      cases b with
      | rxEnqueue d'' q =>
        have hq : q ≠ pkt := by
          rintro rfl
          have hfree : q ∉ collect hand rest := hi.held_once rfl
          exact hfree (mem_collect.mpr ⟨_, hrest, rfl⟩)
        simp only [sent, writePacket_packet, Function.update_of_ne hq]
      | _ => rfl
  · have hpkt : c'.shared.packet = c.shared.packet :=
      h.packet fun d' skb pkt heq => hcopy ⟨d', skb, pkt, heq⟩
    have hsent : sent c' d = sent c d := by
      funext b'
      cases b' <;> simp [sent, hpkt]
    rw [hsent] at hs
    rcases Multiset.mem_add.mp hb with hb | hb
    · -- what the action leads to carries the call of the action
      have hsame : sent c d b = sent c d a := by
        rcases act_leads h hcopy d b (Multiset.mem_coe.mp hb) with hnone | hsame
        · rw [hnone] at hs
          cases hs
        · exact hsame
      exact mem_collect.mpr ⟨a, Multiset.mem_cons_self _ _, hsame ▸ hs⟩
    · exact mem_collect.mpr ⟨b, Multiset.mem_cons_of_mem hb, hs⟩

/-- A frame is queued after those that were queued before, and before any that is still
to be sent. -/
private theorem act_queued (h : Act cfg c a c' pushed) (d : Dev) :
    (c'.shared.log d).queued = (c.shared.log d).queued ∨
      ∃ pkt, a = .rxEnqueue d pkt ∧
        (c'.shared.log d).queued = (c.shared.log d).queued ++ [frameIn c pkt] ∧
        ∀ b ∈ pushed, sent c' d b = none := by
  have hlog := h.rxLog d
  have hsettle : ∀ (d' : Dev) (r : List (Frame × Fate)),
      (Function.update c.shared.log d' { c.shared.log d' with settled := r } d).queued =
        (c.shared.log d).queued := by
    intro d' r
    by_cases hd : d = d'
    · subst hd
      simp
    · simp [Function.update_of_ne hd]
  cases h with
  | queue d' pkt =>
    by_cases hd : d = d'
    · subst hd
      exact .inr ⟨pkt, rfl, by simp [frameIn], by simp [sent]⟩
    · exact .inl (hlog (by simp [recordsRx, Ne.symm hd])).1
  | queueQuiet d' pkt =>
    by_cases hd : d = d'
    · subst hd
      exact .inr ⟨pkt, rfl, by simp [frameIn], by simp⟩
    · exact .inl (hlog (by simp [recordsRx, Ne.symm hd])).1
  | rxRegular d' pkt memory => exact .inl (lddRx_log ▸ hsettle d' _)
  | rxNapi d' pkt budget done memory => exact .inl (lddRx_log ▸ hsettle d' _)
  | drainSome d' pkt l => exact .inl (hsettle d' _)
  | drainNone d' => exact .inl rfl
  | lost d' pkt => exact .inl rfl
  | _ => exact .inl (hlog rfl).1


theorem OrderInv.act (h : Act cfg c a c' pushed) (hi : OrderInv c (a ::ₘ rest))
    (hbuf : BufInv cfg c (a ::ₘ rest)) (hreg : RegInv c (a ::ₘ rest))
    (hser : ∀ d, cnt (arriving d) (a ::ₘ rest) ≤ 1)
    (hone : ∀ d, a = .rxDequeue d → cnt (holding d) (a ::ₘ rest) = 0) :
    OrderInv c' ((pushed : Multiset Instr) + rest) := by
  have hquiet := cnt_eq_zero.mp hreg.quiet
  refine ⟨?_, ?_, ?_, ?_⟩
  · intro d
    obtain ⟨k, hmove, htake, hdiscard⟩ := act_pipe h hbuf d
    refine (hi.line d).move hmove ?_ ?_
    · intro hk
      have ha : a = .rxDequeue d := by
        rcases htake hk with ha | ⟨budget, done, rfl⟩
        · exact ha
        · have hpoll : napiOnly (.poll d budget done) = false :=
            hquiet _ (Multiset.mem_cons_self _ _)
          cases hpoll
      show collect (handed c d) (a ::ₘ rest) = 0
      rw [Multiset.eq_zero_iff_forall_notMem]
      intro f hf
      obtain ⟨b, hb, hhand⟩ := mem_collect.mp hf
      cases b with
      | rxRegular d' pkt =>
        by_cases hd : d' = d
        · have hfree : holding d (.rxRegular d' pkt) = false := cnt_eq_zero.mp (hone d ha) _ hb
          simp [holding, hd] at hfree
        · rw [handed, if_neg hd] at hhand
          cases hhand
      | rxNapi d' pkt budget done =>
        have hnapi : napiOnly (.rxNapi d' pkt budget done) = false := hquiet _ hb
        cases hnapi
      | _ => cases hhand
    · intro r hk
      rw [(hdiscard r hk).1]
      rfl
  · intro d
    rcases act_queued h d with hq | ⟨pkt, rfl, hq, -⟩
    · rw [hq]
      exact hi.sorted d
    · rw [hq, List.map_append, List.pairwise_append]
      refine ⟨hi.sorted d, List.pairwise_singleton _ _, ?_⟩
      intro x hx y hy
      obtain ⟨f, hf, rfl⟩ := List.mem_map.mp hx
      obtain rfl := List.mem_singleton.mp hy
      exact hi.before d f hf _ (mem_collect.mpr ⟨_, Multiset.mem_cons_self _ _, if_pos rfl⟩)
  · intro d f hf n hn
    rcases act_queued h d with hq | ⟨pkt, rfl, hq, hpush⟩
    · rw [hq] at hf
      exact hi.before d f hf n (act_sent h hbuf d hn)
    · -- no other frame is on its way to the device
      obtain ⟨b, hb, hs⟩ := mem_collect.mp hn
      rcases Multiset.mem_add.mp hb with hb | hb
      · rw [hpush b (Multiset.mem_coe.mp hb)] at hs
        cases hs
      · have hpos := cnt_pos_of_mem hb (sent_arriving hs)
        have hle := hser d
        rw [cnt_cons] at hle
        simp only [arriving, beq_self_eq_true, Bool.toNat_true] at hle
        omega
  · intro d
    rw [h.calls]
    refine ⟨?_, fun n hn => (hi.fresh d).2 n (act_sent h hbuf d hn)⟩
    intro f hf
    rcases act_queued h d with hq | ⟨pkt, rfl, hq, -⟩
    · exact (hi.fresh d).1 f (hq ▸ hf)
    · rw [hq, List.mem_append, List.mem_singleton] at hf
      rcases hf with hf | rfl
      · exact (hi.fresh d).1 f hf
      · exact (hi.fresh d).2 _ (mem_collect.mpr ⟨_, Multiset.mem_cons_self _ _, if_pos rfl⟩)

/-- A call of ldd_start_xmit has a number above all others. -/
theorem OrderInv.start {t : Sys Lists} {e : Event} (h : Start cfg t e c a)
    (hi : OrderInv t.core t.pending) : OrderInv c (a ::ₘ t.pending) := by
  have hsent : ∀ d, sent c d = sent t.core d := by
    intro d
    funext b
    cases b <;> simp [sent, h.packet]
  have hcalls : t.core.shared.calls ≤ c.shared.calls := by
    cases h with
    | xmit d protocol data => exact Nat.le_succ _
    | _ => exact Nat.le_refl _
  -- the first action has the new number, or none
  have hnew : ∀ d n, sent t.core d a = some n →
      n = t.core.shared.calls ∧ t.core.shared.calls < c.shared.calls := by
    intro d n hs
    cases h with
    | xmit d' protocol data =>
      by_cases hd : d' = lddPeer d
      · rw [sent, if_pos hd] at hs
        exact ⟨(Option.some.inj hs).symm, Nat.lt_succ_self _⟩
      · rw [sent, if_neg hd] at hs
        cases hs
    | _ => cases hs
  have hmem : ∀ d n, n ∈ collect (sent c d) (a ::ₘ t.pending) →
      (n = t.core.shared.calls ∧ t.core.shared.calls < c.shared.calls) ∨
        n ∈ collect (sent t.core d) t.pending := by
    intro d n hn
    rw [hsent] at hn
    obtain ⟨b, hb, hs⟩ := mem_collect.mp hn
    rcases Multiset.mem_cons.mp hb with rfl | hb
    · exact .inl (hnew d n hs)
    · exact .inr (mem_collect.mpr ⟨b, hb, hs⟩)
  refine ⟨?_, ?_, ?_, ?_⟩
  · intro d
    rw [start_pipe h]
    exact hi.line d
  · rw [h.log]
    exact hi.sorted
  · intro d f hf n hn
    rw [h.log] at hf
    rcases hmem d n hn with ⟨rfl, -⟩ | hn
    · exact (hi.fresh d).1 f hf
    · exact hi.before d f hf n hn
  · intro d
    rw [h.log]
    refine ⟨fun f hf => Nat.lt_of_lt_of_le ((hi.fresh d).1 f hf) hcalls, ?_⟩
    intro n hn
    rcases hmem d n hn with ⟨rfl, hlt⟩ | hn
    · exact hlt
    · exact Nat.lt_of_lt_of_le ((hi.fresh d).2 n hn) hcalls

theorem OrderInv.init (b : Lists) (hb : ∀ d, b.rx d = []) :
    OrderInv (initial b).core (initial b).pending where
  line d := ⟨[], rfl, Nat.zero_le 1, by simp [rxPipe, initial, hb]⟩
  sorted := by simp [initial]
  before := by simp [initial]
  fresh := by simp [initial, Pool.pending]

end OrderInv

/-- The kernel's promise, and the condition on the handlers. -/
def InTurn {B : Type} (s : Sys B) (e : Event) : Prop := XmitSerial s e ∧ OneHandler s e

instance {B : Type} (s : Sys B) (e : Event) : Decidable (InTurn s e) :=
  inferInstanceAs (Decidable (_ ∧ _))

theorem inTurn_lists (s : Sys Links) (t : Sys Lists) (e : Event) (hth : s.threads = t.threads)
    (h : InTurn s e) : InTurn t e := by
  refine ⟨xmitSerial_lists s t e hth h.1, ?_⟩
  cases e with
  | run i memory =>
    intro d hnext
    have hone := h.2 d
    rw [Pool.next, hth] at hone
    rw [Pool.pending, ← hth]
    exact hone hnext
  | _ => trivial

/-- The frames that were passed up are among those that were queued, in that order, which
is the order of the calls that sent them. -/
theorem RxInv.ordered_step {cfg : Params} (hcfg : cfg.useNapi = false) {t t' : Sys Lists}
    {e : Event} (hi : RxInv cfg t ∧ OrderInv t.core t.pending)
    (h : Guarded InTurn (Step listOps cfg) t e t') :
    RxInv cfg t' ∧ OrderInv t'.core t'.pending := by
  obtain ⟨hrx, hord⟩ := hi
  refine ⟨hrx.step hcfg h.1.1 h.2, ?_⟩
  rcases step_cases h.2 with ⟨a, hstart, hp⟩ | ⟨a, rest, pushed, hp, hact, hp', i, memory, rfl, hnext⟩
  · rw [hp]
    exact hord.start hstart
  · rw [hp']
    refine OrderInv.act hact (hp ▸ hord) (hp ▸ hrx.buf) (hp ▸ hrx.reg)
      (fun d => hp ▸ (hrx.serial d).single) ?_
    rintro d rfl
    exact hp ▸ h.1.2 d hnext

/-- Over every run in which the handlers of a device take turns, the frames handed to
netif_rx are frames that were queued, in the order in which the twin sent them. -/
theorem frames_in_order_one_handler (cfg : Params) (hcfg : cfg.useNapi = false) (es : List Event)
    (s : Sys Links) (h : Steps (Guarded InTurn (NetStep cfg)) (netInit cfg) es s) (d : Dev) :
    ((delivered s.core.shared d).map Frame.call).Pairwise (· < ·) ∧
      (delivered s.core.shared d).Sublist (s.core.shared.log d).queued := by
  obtain ⟨t, ht, hr⟩ := netdev_lists (fun s t e hth _ => inTurn_lists s t e hth) h
  have hi := ht.invariant
    (fun t _ _ (hi : RxInv cfg t ∧ OrderInv t.core t.pending) hs => RxInv.ordered_step hcfg hi hs)
    ⟨RxInv.init cfg, OrderInv.init _ fun _ => rfl⟩
  obtain ⟨hd, -, -, hsub⟩ := hi.2.line d
  rw [hr.shared]
  have hdel : (delivered t.core.shared d).Sublist (t.core.shared.log d).queued :=
    (List.sublist_append_left _ _).trans hsub
  exact ⟨(hi.2.sorted d).sublist (hdel.map Frame.call), hdel⟩

/-- Two frames from sn0, each passed up before the next is sent. -/
def twoFrames : List Event :=
  [Event.open .sn1, .run 0 true, .run 0 true] ++
  [Event.startXmit .sn0 ethPIp (List.replicate 34 1)] ++ List.replicate 12 (Event.run 1 true) ++
  [Event.startXmit .sn0 ethPIp (List.replicate 34 2)] ++ List.replicate 7 (Event.run 2 true)

theorem frames_in_order_two_frames :
    ∃ s, Steps (Guarded InTurn (NetStep twoBuffers)) (netInit twoBuffers) twoFrames s ∧
      (delivered s.core.shared .sn1).map Frame.call = [0, 1] ∧
      ((delivered s.core.shared .sn1).map Frame.call).Pairwise (· < ·) ∧
      (delivered s.core.shared .sn1).Sublist (s.core.shared.log .sn1).queued := by
  have hexec : (Lib.Transition.exec
      (fun s e => if InTurn s e then next linkOps twoBuffers s e else none)
      (netInit twoBuffers) twoFrames).map
      (fun s => (delivered s.core.shared .sn1).map Frame.call) = some [0, 1] := by
    decide +kernel
  obtain ⟨s, hs, hd⟩ := Option.map_eq_some_iff.mp hexec
  have hrun : Steps (Guarded InTurn (NetStep twoBuffers)) _ _ s := exec_guarded_steps hs
  exact ⟨s, hrun, hd, frames_in_order_one_handler _ rfl _ s hrun .sn1⟩

end LinuxDeviceDriver.Drivers.Netdev.RegularOrder
