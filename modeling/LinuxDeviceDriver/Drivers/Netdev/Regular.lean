/- source: examples/30_netdev/main.c, lines 83 to 110 and 150 to 197
   digest: Receiving without NAPI: one dequeue for each acknowledged interrupt, and the order
     in which frames are passed up. -/

import LinuxDeviceDriver.Drivers.Netdev.ReceivePath

set_option autoImplicit false

namespace LinuxDeviceDriver.Drivers.Netdev.Regular

open Lib.Bits
open Lib.Handover
open Lib.Threads
open Lib.Transition (Steps Guarded exec_guarded_steps)
open Model Buffers Actions Ownership ReceivePath

/-! ## One frame on the wire at a time -/

/-- What brings a frame to a device: the twin's transmission, up to the receive interrupt
it raises. -/
def arriving (d : Dev) : Instr → Bool
  | .startXmit d' _ => d' == lddPeer d
  | .getTxBuffer d' _ => d' == lddPeer d
  | .copyFrame d' _ _ => d' == lddPeer d
  | .rxEnqueue d' _ => d' == d
  | .interrupt d' .rx => d' == d
  | _ => false

section Serial

variable {cfg : Params}

private theorem peer_beq (d d' : Dev) : (lddPeer d' == d) = (d' == lddPeer d) := by
  cases d <;> cases d' <;> decide

theorem arriving_linear (d : Dev) : Linear (exec listOps cfg) (arriving d) := by
  intro memory c a c' pushed he
  cases exec_act he with
  | copy d' skb pkt => simp [arriving, peer_beq]
  | interrupt d' cause =>
    rw [cnt_lddInterrupt _ _ _ _ _ rfl rfl]
    cases (lddAckInterrupt (c.shared.priv d')).2.1 <;> cases cause <;> simp [arriving, Cause.rest]
  | stopLocked d' => cases cfg.useNapi <;> simp [arriving]
  | _ => simp [arriving]

theorem arriving_step {t t' : Sys Lists} {e : Event} (d : Dev) (hg : XmitSerial t e)
    (h : Step listOps cfg t e t') (hs : Serial (arriving d) (· == .startXmit (lddPeer d)) t) :
    Serial (arriving d) (· == .startXmit (lddPeer d)) t' :=
  xmitSerial_step (arriving_linear d) (fun _ _ => rfl) (fun _ => rfl) (fun _ => rfl)
    (fun _ => rfl) (fun _ _ => rfl) hg h hs

end Serial

/-! ## Dequeues that are owed -/

/-- What is done only with NAPI. -/
def napiOnly : Instr → Bool
  | .rxIntOff _ => true
  | .schedule _ => true
  | .poll _ _ _ => true
  | .rxNapi _ _ _ _ => true
  | .completeDone _ => true
  | .lookAgain _ => true
  | .reschedule _ => true
  | .napiEnable _ => true
  | .napiDisable _ => true
  | .napiDisableWait _ => true
  | _ => false

/-- The call of ldd_interrupt for a frame that arrived. -/
def rxCall (d : Dev) : Instr → Bool
  | .interrupt d' .rx => d' == d
  | _ => false

/-- A handler that has acknowledged NETDEV_RX_INTR and not dequeued. -/
def dequeues (d : Dev) : Instr → Bool
  | .rxDequeue d' => d' == d
  | _ => false

structure RegInv (c : Core Lists) (m : Multiset Instr) : Prop where
  quiet : cnt napiOnly m = 0
  enabled : ∀ d, (c.shared.priv d).rxIntEnabled = (c.shared.priv d).running
  bit : ∀ d, isSet (c.shared.priv d).status netdevRxIntr = true → 0 < cnt (rxCall d) m
  owed : ∀ d, (c.bufs.rx d).length ≤
    (isSet (c.shared.priv d).status netdevRxIntr).toNat + cnt (dequeues d) m

section RegInv

variable {cfg : Params} {c c' : Core Lists} {rest : Multiset Instr} {a : Instr}
  {pushed : List Instr}

private theorem act_quiet (hcfg : cfg.useNapi = false) (h : Act cfg c a c' pushed)
    (ha : napiOnly a = false) : cnt napiOnly (pushed : Multiset Instr) = 0 := by
  cases h with
  | interrupt d' cause =>
    rw [cnt_eq_zero]
    intro b hb
    rcases mem_lddInterrupt hb with ⟨-, hn, -⟩ | ⟨-, -, rfl⟩ | ⟨skb, -, rfl⟩ | ⟨id, -, rfl⟩
    · simp [hcfg] at hn
    all_goals rfl
  | stopLocked d' => simp [hcfg, napiOnly]
  | _ => first
    | (simp [napiOnly]; done)
    | cases ha

private theorem act_enabled (h : Act cfg c a c' pushed) (ha : napiOnly a = false)
    (he : ∀ d, (c.shared.priv d).rxIntEnabled = (c.shared.priv d).running) (d : Dev) :
    (c'.shared.priv d).rxIntEnabled = (c'.shared.priv d).running := by
  cases ht : touchesInt d a with
  | false =>
    have hopen : a ≠ .openLocked d := by
      rintro rfl
      simp [touchesInt] at ht
    have hstop : a ≠ .stopLocked d := by
      rintro rfl
      simp [touchesInt] at ht
    rw [h.rxIntEnabled d ht, h.running d, if_neg hopen, if_neg hstop]
    exact he d
  | true =>
    cases a with
    | openLocked d' | stopLocked d' =>
      obtain rfl : d' = d := beq_iff_eq.mp ht
      cases h
      simp
    | rxIntOff d' => cases ha
    | lookAgain d' => cases ha
    | _ => cases ht

/-- A frame that arrives finds the bit clear: whoever set it has yet to call
ldd_interrupt, and that would be a second transmission. -/
private theorem rxEnqueue_clear {d : Dev} {pkt : PktRef} (hi : RegInv c (.rxEnqueue d pkt ::ₘ rest))
    (hser : cnt (arriving d) (.rxEnqueue d pkt ::ₘ rest) ≤ 1) :
    isSet (c.shared.priv d).status netdevRxIntr = false := by
  by_contra hset
  obtain ⟨b, hb, hcall⟩ := cnt_pos.mp (hi.bit d (Bool.not_eq_false _ ▸ hset))
  have harr : arriving d b = true := by
    cases b with
    | interrupt d' cause =>
      cases cause with
      | rx => exact hcall
      | tx id => cases hcall
    | _ => cases hcall
  have hrest : b ∈ rest := by
    rcases Multiset.mem_cons.mp hb with rfl | hb
    · cases hcall
    · exact hb
  have hpos := cnt_pos_of_mem hrest harr
  rw [cnt_cons] at hser
  simp only [arriving, beq_self_eq_true, Bool.toNat_true] at hser
  omega

private theorem ack_status (p : LddDev) : (lddAckInterrupt p).2.2.status = 0 := by
  unfold lddAckInterrupt
  split <;> rfl

private theorem act_bit (h : Act cfg c a c' pushed) (hi : RegInv c (a ::ₘ rest)) (d : Dev)
    (hset : isSet (c'.shared.priv d).status netdevRxIntr = true) :
    0 < cnt (rxCall d) ((pushed : Multiset Instr) + rest) := by
  rw [cnt_add]
  by_cases hint : ∃ cause, a = .interrupt d cause
  · obtain ⟨cause, rfl⟩ := hint
    cases h
    simp [ack_status] at hset
  rw [not_exists] at hint
  have hold : isSet (c.shared.priv d).status netdevRxIntr = true → 0 < cnt (rxCall d) rest := by
    intro hs
    have hpos := hi.bit d hs
    have ha : rxCall d a = false := by
      cases a with
      | interrupt d' cause =>
        cases cause with
        | rx => exact beq_eq_false_iff_ne.mpr fun hd => hint .rx (hd ▸ rfl)
        | tx id => rfl
      | _ => rfl
    rw [cnt_cons, ha] at hpos
    simpa using hpos
  by_cases henq : ∃ pkt, a = .rxEnqueue d pkt
  · obtain ⟨pkt, rfl⟩ := henq
    cases h with
    | lost | queueQuiet => exact Nat.lt_of_lt_of_le (hold hset) (Nat.le_add_left _ _)
    | queue => simp [rxCall]
  · rw [not_exists] at henq
    rw [h.rxBit d henq hint] at hset
    exact Nat.lt_of_lt_of_le (hold hset) (Nat.le_add_left _ _)

private theorem act_owed (hcfg : cfg.useNapi = false) (h : Act cfg c a c' pushed)
    (hi : RegInv c (a ::ₘ rest)) (ha : napiOnly a = false) (d : Dev)
    (hser : cnt (arriving d) (a ::ₘ rest) ≤ 1) :
    (c'.bufs.rx d).length ≤ (isSet (c'.shared.priv d).status netdevRxIntr).toNat +
      cnt (dequeues d) ((pushed : Multiset Instr) + rest) := by
  have hold := hi.owed d
  have hrx : touchesRx d a = false → (c'.bufs.rx d).length ≤ (c.bufs.rx d).length :=
    fun ht => h.rx d ht ▸ Nat.le_refl _
  have hbit := h.rxBit d
  rw [cnt_cons] at hold
  rw [cnt_add]
  -- the queue no longer, the bit as it was, and no dequeue lost
  have hkeep : (c'.bufs.rx d).length ≤ (c.bufs.rx d).length →
      isSet (c'.shared.priv d).status netdevRxIntr = isSet (c.shared.priv d).status netdevRxIntr →
      (dequeues d a).toNat ≤ cnt (dequeues d) (pushed : Multiset Instr) →
      (c'.bufs.rx d).length ≤ (isSet (c'.shared.priv d).status netdevRxIntr).toNat +
        (cnt (dequeues d) (pushed : Multiset Instr) + cnt (dequeues d) rest) := by
    intro hl hb hc
    rw [hb]
    omega
  cases h with
  | lost d' pkt | drainNone d' hr => exact hkeep (Nat.le_refl _) rfl (by simp [dequeues])
  | queue d' pkt hrun hint =>
    by_cases hd : d' = d
    · subst hd
      rw [rxEnqueue_clear hi hser] at hold
      have hset : isSet netdevRxIntr netdevRxIntr = true := by decide
      simp only [mapPriv_bufs, rxPut_rx, mapPriv_priv, rxPut_priv, Function.update_self, isSet_or,
        hset, List.length_append, List.length_singleton, Bool.or_true, Bool.toNat_true]
      simp only [dequeues, Bool.toNat_false] at hold
      omega
    · exact hkeep (hrx (by simp [touchesRx, hd])) (by simp [Function.update_of_ne (Ne.symm hd)])
        (by simp [dequeues])
  | queueQuiet d' pkt hrun hint =>
    rw [hi.enabled d', hrun] at hint
    cases hint
  | interrupt d' cause =>
    by_cases hd : d' = d
    · subst hd
      have hclear : isSet ((c.mapPriv d' fun p => (lddAckInterrupt p).2.2).shared.priv d').status
          netdevRxIntr = false := by
        simp [ack_status]
      have hpush : (isSet (c.shared.priv d').status netdevRxIntr).toNat ≤ cnt (dequeues d')
          ((lddInterrupt cfg d' (c.shared.priv d').status (lddAckInterrupt (c.shared.priv d')).2.1 ++
            cause.rest d' : List Instr) : Multiset Instr) := by
        cases hset : isSet (c.shared.priv d').status netdevRxIntr with
        | false => exact Nat.zero_le _
        | true =>
          have hmem : Instr.rxDequeue d' ∈ (↑(lddInterrupt cfg d' (c.shared.priv d').status
              (lddAckInterrupt (c.shared.priv d')).2.1 ++ cause.rest d') : Multiset Instr) := by
            simp [lddInterrupt, hset, hcfg]
          exact cnt_pos_of_mem hmem (by simp [dequeues])
      rw [hclear]
      simp only [dequeues, Bool.toNat_false] at hold
      show (c.bufs.rx d').length ≤ _
      simp only [Bool.toNat_false]
      omega
    · exact hkeep (hrx rfl) (hbit (by simp) (by rintro c ⟨⟩; exact hd rfl)) (by simp [dequeues])
  | rxNone d' hr =>
    by_cases hd : d' = d
    · subst hd
      rw [hr]
      exact Nat.zero_le _
    · exact hkeep (Nat.le_refl _) rfl (by simp [dequeues, hd])
  | rxSome d' pkt l hr =>
    by_cases hd : d' = d
    · subst hd
      rw [hr] at hold
      simp only [rxTail_rx, Function.update_self, rxTail_shared]
      simp only [List.length_cons, dequeues, beq_self_eq_true, Bool.toNat_true] at hold
      omega
    · exact hkeep (hrx (by simp [touchesRx, hd])) rfl (by simp [dequeues, hd])
  | drainSome d' pkt l hr =>
    refine hkeep ?_ rfl (by simp [dequeues])
    by_cases hd : d' = d
    · subst hd
      simp [hr]
    · exact hrx (by simp [touchesRx, hd])
  | pollSpent => cases ha
  | pollNone => cases ha
  | pollSome => cases ha
  | stopLocked d' =>
    refine hkeep (hrx rfl) (hbit (by simp) (by simp)) (by simp [dequeues])
  | _ => exact hkeep (hrx rfl) (hbit (by simp) (by simp)) (by simp [dequeues])

theorem RegInv.act (hcfg : cfg.useNapi = false) (h : Act cfg c a c' pushed)
    (hi : RegInv c (a ::ₘ rest)) (hser : ∀ d, cnt (arriving d) (a ::ₘ rest) ≤ 1) :
    RegInv c' ((pushed : Multiset Instr) + rest) := by
  have hq := cnt_eq_zero.mp hi.quiet
  have ha : napiOnly a = false := hq a (Multiset.mem_cons_self _ _)
  have hrest : cnt napiOnly rest = 0 :=
    cnt_eq_zero.mpr fun b hb => hq b (Multiset.mem_cons_of_mem hb)
  refine ⟨?_, act_enabled h ha hi.enabled, act_bit h hi, fun d => act_owed hcfg h hi ha d (hser d)⟩
  rw [cnt_add, act_quiet hcfg h ha, hrest]

theorem RegInv.start (hcfg : cfg.useNapi = false) {t : Sys Lists} {e : Event}
    (h : Start cfg t e c a) (hi : RegInv t.core t.pending) : RegInv c (a ::ₘ t.pending) := by
  have hpriv : c.shared.priv = t.core.shared.priv := by
    cases h with
    | poll d budget hnapi =>
      rw [hcfg] at hnapi
      cases hnapi
    | _ => rfl
  refine ⟨?_, ?_, ?_, ?_⟩
  · have ha : napiOnly a = false := by
      cases h with
      | openNapi d hnapi | poll d budget hnapi =>
        rw [hcfg] at hnapi
        cases hnapi
      | _ => rfl
    rw [cnt_cons, ha, hi.quiet]
    rfl
  · rw [hpriv]
    exact hi.enabled
  · intro d hset
    rw [hpriv] at hset
    rw [cnt_cons]
    exact Nat.lt_of_lt_of_le (hi.bit d hset) (Nat.le_add_left _ _)
  · intro d
    have hold := hi.owed d
    rw [h.bufs, hpriv, cnt_cons]
    omega

theorem RegInv.init (b : Lists) (hb : ∀ d, b.rx d = []) :
    RegInv (initial b).core (initial b).pending where
  quiet := rfl
  enabled := fun _ => rfl
  bit := by simp [initial]
  owed := by simp [initial, hb]

end RegInv

/-- What every step keeps without NAPI, if the kernel sends on a device one skb at a time. -/
structure RxInv (cfg : Params) (t : Sys Lists) : Prop where
  serial : ∀ d, Serial (arriving d) (· == .startXmit (lddPeer d)) t
  buf : BufInv cfg t.core t.pending
  reg : RegInv t.core t.pending

theorem RxInv.step {cfg : Params} (hcfg : cfg.useNapi = false) {t t' : Sys Lists} {e : Event}
    (hi : RxInv cfg t) (hg : XmitSerial t e) (h : Step listOps cfg t e t') : RxInv cfg t' := by
  refine ⟨fun d => arriving_step d hg h (hi.serial d), hi.buf.step h, ?_⟩
  rcases step_cases h with ⟨a, hstart, hp⟩ | ⟨a, rest, pushed, hp, hact, hp', -⟩
  · rw [hp]
    exact hi.reg.start hcfg hstart
  · rw [hp']
    exact RegInv.act hcfg hact (hp ▸ hi.reg) (fun d => hp ▸ (hi.serial d).single)

theorem RxInv.init (cfg : Params) : RxInv cfg (initial (listInit cfg)) :=
  ⟨fun _ => ⟨(fun _ h => nomatch h), Nat.zero_le 1⟩, BufInv.init cfg, RegInv.init _ fun _ => rfl⟩

/-- A device's queue is no longer than the dequeues it is owed, so it is empty once the
handlers are done. -/
theorem queue_within_owed_dequeues (cfg : Params) (hcfg : cfg.useNapi = false) (es : List Event)
    (s : Sys Links) (h : Steps (Guarded XmitSerial (NetStep cfg)) (netInit cfg) es s) :
    ∃ b, Placed cfg s b ∧ ∀ d,
      (b.rx d).length ≤ (isSet (s.core.shared.priv d).status netdevRxIntr).toNat +
        cnt (dequeues d) s.pending ∧
      ((∀ cause, .interrupt d cause ∉ s.pending) → .rxDequeue d ∉ s.pending →
        s.core.bufs.rxHead d = none) := by
  obtain ⟨t, ht, hr⟩ := netdev_lists (fun s t e hth _ => xmitSerial_lists s t e hth) h
  have hi := ht.invariant (fun t _ _ (hi : RxInv cfg t) hs => hi.step hcfg hs.1 hs.2)
    (RxInv.init cfg)
  refine ⟨_, hr.placed, fun d => ?_⟩
  have howed := hi.reg.owed d
  rw [hr.shared, hr.pending]
  refine ⟨howed, ?_⟩
  intro hcall hdeq
  have hclear : isSet (t.core.shared.priv d).status netdevRxIntr = false := by
    by_contra hset
    obtain ⟨b, hb, hrx⟩ := cnt_pos.mp (hi.reg.bit d (Bool.not_eq_false _ ▸ hset))
    cases b with
    | interrupt d' cause =>
      cases cause with
      | rx =>
        obtain rfl : d' = d := beq_iff_eq.mp hrx
        exact hcall .rx hb
      | tx id => cases hrx
    | _ => cases hrx
  have hnone : cnt (dequeues d) t.pending = 0 := by
    rw [cnt_eq_zero]
    intro b hb
    cases b with
    | rxDequeue d' => exact beq_eq_false_iff_ne.mpr fun hd => hdeq (hd ▸ hb)
    | _ => rfl
  rw [hclear, hnone] at howed
  rw [(hr.rep.rx d).head_eq, List.length_eq_zero_iff.mp (Nat.le_zero.mp howed), List.head?_nil]

/-- The frame that sn0 sent waits, and its interrupt is about to be handled. -/
theorem queue_within_owed_dequeues_frame :
    ∃ s, Steps (Guarded XmitSerial (NetStep (oneBuffer false))) (netInit (oneBuffer false))
        frameArrives s ∧
      s.core.bufs.rxHead .sn1 = some ⟨.sn0, 0⟩ ∧
      ∃ b, Placed (oneBuffer false) s b ∧ ∀ d,
        (b.rx d).length ≤ (isSet (s.core.shared.priv d).status netdevRxIntr).toNat +
          cnt (dequeues d) s.pending ∧
        ((∀ cause, .interrupt d cause ∉ s.pending) → .rxDequeue d ∉ s.pending →
          s.core.bufs.rxHead d = none) := by
  have hexec : (Lib.Transition.exec
      (fun s e => if XmitSerial s e then next linkOps (oneBuffer false) s e else none)
      (netInit (oneBuffer false)) frameArrives).map (fun s => s.core.bufs.rxHead .sn1) =
      some (some ⟨.sn0, 0⟩) := by
    decide +kernel
  obtain ⟨s, hs, hd⟩ := Option.map_eq_some_iff.mp hexec
  have hrun : Steps (Guarded XmitSerial (NetStep (oneBuffer false))) _ _ s := exec_guarded_steps hs
  exact ⟨s, hrun, hd, queue_within_owed_dequeues _ rfl _ s hrun⟩

end LinuxDeviceDriver.Drivers.Netdev.Regular
