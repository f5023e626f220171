/- source: examples/30_netdev/main.c, lines 150 to 221 and 268 to 314
   digest: The one slot tx_skb and the interrupts that empty it: an skb that was accepted is
     freed once, one that was refused is not freed. -/

import LinuxDeviceDriver.Drivers.Netdev.Ownership

set_option autoImplicit false

namespace LinuxDeviceDriver.Drivers.Netdev.Transmit

open Lib.Bits
open Lib.Threads
open Lib.Transition (Steps Guarded exec_guarded_steps)
open Model Buffers Actions Ownership

/-! ## One call at a time -/

/-- What a call of ldd_start_xmit has to do up to the interrupt it raises. -/
def sending (d : Dev) : Instr → Bool
  | .startXmit d' _ => d' == d
  | .getTxBuffer d' _ => d' == d
  | .copyFrame d' _ _ => d' == d
  | .transmitted d' _ => d' == d
  | .interrupt d' (.tx _) => d' == d
  | _ => false

section Serial

variable {cfg : Params}

theorem sending_linear (d : Dev) : Linear (exec listOps cfg) (sending d) := by
  intro memory c a c' pushed he
  cases exec_act he with
  | interrupt d' cause =>
    rw [cnt_lddInterrupt _ _ _ _ _ rfl rfl]
    cases (lddAckInterrupt (c.shared.priv d')).2.1 <;> cases cause <;> simp [sending, Cause.rest]
  | stopLocked d' => cases cfg.useNapi <;> simp [sending]
  | _ => simp [sending]

theorem serial_step {t t' : Sys Lists} {e : Event} (d : Dev) (hg : XmitSerial t e)
    (h : Step listOps cfg t e t') (hs : Serial (sending d) (· == .startXmit d) t) :
    Serial (sending d) (· == .startXmit d) t' :=
  xmitSerial_step (sending_linear d) (fun _ _ => rfl) (fun _ => rfl) (fun _ => rfl) (fun _ => rfl)
    (fun _ _ => rfl) hg h hs

end Serial

/-! ## Where each skb is -/

/-- The action frees the skb of call n, or hands it on. -/
def carries (d : Dev) (n : Nat) : Instr → Bool
  | .startXmit d' skb => d' == d && skb.id == n
  | .getTxBuffer d' skb => d' == d && skb.id == n
  | .copyFrame d' skb _ => d' == d && skb.id == n
  | .transmitted d' skb => d' == d && skb.id == n
  | .txDone d' skb => d' == d && skb.id == n
  | _ => false

/-- The action is one of call n itself. -/
def calling (d : Dev) (n : Nat) : Instr → Bool
  | .startXmit d' skb => d' == d && skb.id == n
  | .getTxBuffer d' skb => d' == d && skb.id == n
  | .copyFrame d' skb _ => d' == d && skb.id == n
  | .transmitted d' skb => d' == d && skb.id == n
  | .interrupt d' (.tx id) => d' == d && id == n
  | .returnOk d' id => d' == d && id == n
  | _ => false

/-- The skb of call n is in tx_skb. -/
def inSlot (p : LddDev) (n : Nat) : Nat := (p.txSkb.elim false fun skb => skb.id == n).toNat

/-- The skbs of call n that were freed, that were given back or that are in tx_skb. -/
def kept (c : Core Lists) (d : Dev) (n : Nat) : Nat :=
  inSlot (c.shared.priv d) n + (c.shared.log d).freed.count n +
    (c.shared.log d).returned.count (n, .busy)

/-- The returns of call n. -/
def returns (c : Core Lists) (d : Dev) (n : Nat) : Nat :=
  ((c.shared.log d).returned.map Prod.fst).count n

structure TxInv (c : Core Lists) (m : Multiset Instr) : Prop where
  bit : ∀ d, isSet (c.shared.priv d).status netdevTxIntr = (c.shared.priv d).txSkb.isSome
  slot : ∀ d skb, (c.shared.priv d).txSkb = some skb → .interrupt d (.tx skb.id) ∈ m
  /-- An skb is somewhere exactly as long as its call is in progress or has returned. -/
  same : ∀ d n, cnt (carries d n) m + kept c d n = cnt (calling d n) m + returns c d n
  once : ∀ n, cnt (calling .sn0 n) m + returns c .sn0 n + (cnt (calling .sn1 n) m + returns c .sn1 n) =
    if n < c.shared.calls then 1 else 0
  stats : ∀ d, (c.shared.netdev d).txPackets + (c.shared.netdev d).txDropped =
    (c.shared.log d).freed.length

section TxInv

variable {cfg : Params} {c c' : Core Lists} {m rest : Multiset Instr} {a : Instr}
  {pushed : List Instr}

/-- The slot is empty when ldd_start_xmit is about to store to it: a frame in it would
have its interrupt to come, of the same call. -/
theorem TxInv.slot_empty (hi : TxInv c m) {d : Dev} {skb : Skb} (hser : cnt (sending d) m ≤ 1)
    (ha : .transmitted d skb ∈ m) : (c.shared.priv d).txSkb = none := by
  by_contra hne
  obtain ⟨skb', hs⟩ := Option.ne_none_iff_exists'.mp hne
  have hint := hi.slot d skb' hs
  obtain ⟨m', rfl⟩ := Multiset.exists_cons_of_mem ha
  have hint : .interrupt d (.tx skb'.id) ∈ m' := by simpa using hint
  have hpos : 0 < cnt (sending d) m' := cnt_pos_of_mem hint (by simp [sending])
  rw [cnt_cons] at hser
  simp [sending] at hser
  omega

private theorem act_bit (h : Act cfg c a c' pushed)
    (hbit : ∀ d, isSet (c.shared.priv d).status netdevTxIntr = (c.shared.priv d).txSkb.isSome) :
    ∀ d, isSet (c'.shared.priv d).status netdevTxIntr = (c'.shared.priv d).txSkb.isSome := by
  intro d
  rcases h.status d with ⟨hs, ht⟩ | ⟨skb, -, hs, ht⟩ | ⟨pkt, -, hs, ht⟩ | ⟨cause, -, hp⟩
  · rw [hs, ht]
    exact hbit d
  · rw [hs, ht, isSet_or]
    simp [isSet, netdevTxIntr]
  · rw [hs, ht, isSet_or, hbit d]
    simp [isSet, netdevTxIntr, netdevRxIntr]
  · rw [hp]
    unfold lddAckInterrupt
    split
    · simp
    · next htx =>
      have hnone := hbit d
      simp only [Bool.not_eq_true] at htx
      rw [htx] at hnone
      simpa using hnone.symm

private theorem count_snoc {α : Type} [BEq α] (l : List α) (x y : α) :
    (l ++ [x]).count y = l.count y + (x == y).toNat := by
  rw [List.count_append, List.count_singleton]
  cases x == y <;> rfl

private theorem act_slot (h : Act cfg c a c' pushed) (d : Dev)
    (htr : ∀ skb, a ≠ .transmitted d skb) (hint : ∀ cause, a ≠ .interrupt d cause) :
    (c'.shared.priv d).txSkb = (c.shared.priv d).txSkb := by
  rcases h.status d with ⟨-, ht⟩ | ⟨skb, ha, -⟩ | ⟨pkt, -, -, ht⟩ | ⟨cause, ha, -⟩
  · exact ht
  · exact absurd ha (htr skb)
  · exact ht
  · exact absurd ha (hint cause)

/-- Acknowledging takes the skb out of the slot if there is one. -/
private theorem ack_slot {p : LddDev} (hbit : isSet p.status netdevTxIntr = p.txSkb.isSome) :
    (lddAckInterrupt p).2.1 = p.txSkb ∧ (lddAckInterrupt p).2.2.txSkb = none := by
  unfold lddAckInterrupt
  split
  · exact ⟨rfl, rfl⟩
  · next htx =>
    rw [Bool.not_eq_true] at htx
    rw [htx] at hbit
    have hnone : p.txSkb = none := by simpa using hbit.symm
    exact ⟨hnone.symm, hnone⟩

/-- Where the skb of call n is: an action that has it hands it on, frees it or gives it
back; an interrupt takes it out of the slot. -/
private theorem act_kept (h : Act cfg c a c' pushed)
    (hbit : ∀ d, isSet (c.shared.priv d).status netdevTxIntr = (c.shared.priv d).txSkb.isSome)
    (hslot : ∀ d skb, a = .transmitted d skb → (c.shared.priv d).txSkb = none) (d : Dev) (n : Nat) :
    cnt (carries d n) (pushed : Multiset Instr) + kept c' d n =
      (carries d n a).toNat + kept c d n := by
  have hkeep : (∀ skb, a ≠ .transmitted d skb) → (∀ cause, a ≠ .interrupt d cause) →
      recordsTx d a = false → kept c' d n = kept c d n := by
    intro htr hint hrec
    obtain ⟨hf, hr⟩ := h.txLog d hrec
    simp only [kept, inSlot, act_slot h d htr hint, hf, hr]
  have hbusy : ∀ id, ((id, NetdevTx.busy) == (n, NetdevTx.busy)) = (id == n) :=
    fun _ => Bool.and_true _
  have hok : ∀ id, ((id, NetdevTx.ok) == (n, NetdevTx.busy)) = false := fun _ => Bool.and_false _
  cases h with
  | drop d' skb hd =>
    by_cases hdd : d = d'
    · subst hdd
      simp only [kept, mapLog_priv, mapNetdev_priv, mapLog_log, mapNetdev_log, Function.update_self,
        count_snoc, carries, cnt_coe_nil, hok]
      simp
      omega
    · simp [kept, carries, Function.update_of_ne hdd, Ne.symm hdd]
  | busy d' skb hp =>
    by_cases hdd : d = d'
    · subst hdd
      simp only [kept, mapLog_priv, mapLog_log, Function.update_self, count_snoc, carries,
        cnt_coe_nil, hbusy]
      simp
      omega
    · simp [kept, carries, Function.update_of_ne hdd, Ne.symm hdd]
  | transmitted d' skb =>
    by_cases hdd : d = d'
    · subst hdd
      simp [kept, carries, inSlot, hslot d skb rfl]
      omega
    · simp [kept, carries, Function.update_of_ne hdd, Ne.symm hdd]
  | returnOk d' id =>
    by_cases hdd : d = d'
    · subst hdd
      simp only [kept, mapLog_priv, mapLog_log, Function.update_self, count_snoc, carries,
        cnt_coe_nil, hok]
      simp
    · simp [kept, carries, Function.update_of_ne hdd]
  | interrupt d' cause =>
    rw [cnt_lddInterrupt _ _ _ _ _ rfl rfl]
    have hrest : cnt (carries d n) ((cause.rest d' : List Instr) : Multiset Instr) = 0 := by
      cases cause <;> simp [Cause.rest, carries]
    obtain ⟨htook, hempty⟩ := ack_slot (hbit d')
    rw [hrest, htook]
    by_cases hdd : d = d'
    · subst hdd
      cases hs : (c.shared.priv d).txSkb with
      | none => simp [kept, carries, inSlot, hempty, hs]
      | some skb =>
        simp [kept, carries, inSlot, hempty, hs]
        omega
    · cases hs : (c.shared.priv d').txSkb with
      | none => simp [kept, carries, Function.update_of_ne hdd]
      | some skb => simp [kept, carries, Function.update_of_ne hdd, Ne.symm hdd]
  | txDone d' skb =>
    by_cases hdd : d = d'
    · subst hdd
      simp only [kept, lddTxDone_priv, lddTxDone_log, Function.update_self, count_snoc, carries,
        cnt_coe_nil]
      simp
      omega
    · simp [kept, carries, Function.update_of_ne hdd, Ne.symm hdd]
  | stopLocked d' =>
    rw [hkeep (fun _ => nofun) (fun _ => nofun) rfl]
    cases cfg.useNapi <;> simp [carries]
  | accept d' skb => simp [carries]
  | takeLast d' skb pkt => simp [kept, carries]
  | take d' skb pkt l => simp [kept, carries]
  | _ =>
    rw [hkeep (fun _ => nofun) (fun _ => nofun) rfl]
    simp [carries]

private theorem act_calls (h : Act cfg c a c' pushed) (d : Dev) (n : Nat) :
    cnt (calling d n) (pushed : Multiset Instr) + returns c' d n =
      (calling d n a).toNat + returns c d n := by
  have hkeep : recordsTx d a = false → returns c' d n = returns c d n := by
    intro hrec
    simp only [returns, (h.txLog d hrec).2]
  have hret : ∀ (id : Nat) (r : NetdevTx) (l : List (Nat × NetdevTx)),
      ((l ++ [(id, r)]).map Prod.fst).count n = (id == n).toNat + (l.map Prod.fst).count n := by
    intro id r l
    rw [List.map_append, List.map_singleton, count_snoc, Nat.add_comm]
  cases h with
  | drop d' skb hd =>
    by_cases hdd : d = d'
    · subst hdd
      simp only [returns, mapLog_log, mapNetdev_log, Function.update_self, hret, calling, cnt_coe_nil]
      simp
    · simp [returns, calling, Function.update_of_ne hdd, Ne.symm hdd]
  | busy d' skb hp | returnOk d' id =>
    by_cases hdd : d = d'
    · subst hdd
      simp only [returns, mapLog_log, Function.update_self, hret, calling, cnt_coe_nil]
      simp
    · simp [returns, calling, Function.update_of_ne hdd, Ne.symm hdd]
  | interrupt d' cause =>
    rw [cnt_lddInterrupt _ _ _ _ _ rfl rfl, hkeep rfl]
    have hdone : ((lddAckInterrupt (c.shared.priv d')).2.1.elim 0 fun skb =>
        (calling d n (.txDone d' skb)).toNat) = 0 := by
      cases (lddAckInterrupt (c.shared.priv d')).2.1 <;> rfl
    rw [hdone]
    cases cause <;> simp [Cause.rest, calling]
  | txDone d' skb =>
    by_cases hdd : d = d'
    · subst hdd
      simp [returns, calling]
    · simp [returns, calling, Function.update_of_ne hdd]
  | stopLocked d' =>
    rw [hkeep rfl]
    cases cfg.useNapi <;> simp [calling]
  | accept d' skb => simp [calling]
  | takeLast d' skb pkt => simp [returns, calling]
  | take d' skb pkt l => simp [returns, calling]
  | _ =>
    rw [hkeep rfl]
    simp [calling]

private theorem act_stats (h : Act cfg c a c' pushed) (d : Dev)
    (hs : (c.shared.netdev d).txPackets + (c.shared.netdev d).txDropped =
      (c.shared.log d).freed.length) :
    (c'.shared.netdev d).txPackets + (c'.shared.netdev d).txDropped =
      (c'.shared.log d).freed.length := by
  have hkeep : recordsTx d a = false →
      (c'.shared.netdev d).txPackets = (c.shared.netdev d).txPackets →
      (c'.shared.netdev d).txDropped = (c.shared.netdev d).txDropped →
      (c'.shared.netdev d).txPackets + (c'.shared.netdev d).txDropped =
        (c'.shared.log d).freed.length := by
    intro hrec hp hd
    rw [hp, hd, (h.txLog d hrec).1]
    exact hs
  cases h with
  | drop d' skb | txDone d' skb =>
    by_cases hdd : d = d'
    · subst hdd
      simp
      omega
    · simpa [Function.update_of_ne hdd] using hs
  | busy d' skb | returnOk d' id | takeLast d' skb pkt =>
    by_cases hdd : d = d'
    · subst hdd
      simpa using hs
    · simpa [Function.update_of_ne hdd] using hs
  | accept d' skb => exact hs
  | take d' skb pkt l => exact hs
  | wake d' | startQueue d' | drainNone d' =>
    exact hkeep rfl (mapNetdev_keeps NetDevice.txPackets (by intro n; rfl) d)
      (mapNetdev_keeps NetDevice.txDropped (by intro n; rfl) d)
  | rxRegular d' pkt memory | rxNapi d' pkt budget done memory =>
    obtain ⟨-, -, hp, hd⟩ := lddRx_netdev (c := c) d
    exact hkeep rfl hp hd
  | _ => exact hkeep rfl rfl rfl

/-- The slot holds an skb only while the interrupt of its own call is to come. -/
private theorem act_slot_interrupt (h : Act cfg c a c' pushed) (hi : TxInv c (a ::ₘ rest)) (d : Dev)
    (skb : Skb) (hs : (c'.shared.priv d).txSkb = some skb) :
    .interrupt d (.tx skb.id) ∈ (pushed : Multiset Instr) + rest := by
  have hold : (c'.shared.priv d).txSkb = (c.shared.priv d).txSkb →
      (∀ cause, a ≠ .interrupt d cause) → .interrupt d (.tx skb.id) ∈ (pushed : Multiset Instr) + rest := by
    intro heq hne
    have hmem := hi.slot d skb (heq ▸ hs)
    rcases Multiset.mem_cons.mp hmem with rfl | hmem
    · exact absurd rfl (hne _)
    · exact Multiset.mem_add.mpr (.inr hmem)
  by_cases hint : ∃ cause, a = .interrupt d cause
  · obtain ⟨cause, rfl⟩ := hint
    cases h
    have hempty := (ack_slot (hi.bit d)).2
    simp [hempty] at hs
  · rw [not_exists] at hint
    by_cases htr : ∃ skb', a = .transmitted d skb'
    · obtain ⟨skb', rfl⟩ := htr
      cases h
      have hskb : skb' = skb := by simpa using hs
      simp [hskb]
    · rw [not_exists] at htr
      exact hold (act_slot h d htr hint) hint

theorem TxInv.act (h : Act cfg c a c' pushed) (hi : TxInv c (a ::ₘ rest))
    (hser : ∀ d, cnt (sending d) (a ::ₘ rest) ≤ 1) :
    TxInv c' ((pushed : Multiset Instr) + rest) where
  bit := act_bit h hi.bit
  slot := act_slot_interrupt h hi
  same d n := by
    have hslot : ∀ d skb, a = .transmitted d skb → (c.shared.priv d).txSkb = none := by
      rintro d skb rfl
      exact hi.slot_empty (hser d) (Multiset.mem_cons_self _ _)
    have hk := act_kept h hi.bit hslot d n
    have hc := act_calls h d n
    have hold := hi.same d n
    rw [cnt_cons, cnt_cons] at hold
    rw [cnt_add, cnt_add]
    omega
  once n := by
    have h0 := act_calls h .sn0 n
    have h1 := act_calls h .sn1 n
    have hold := hi.once n
    rw [cnt_cons, cnt_cons] at hold
    rw [cnt_add, cnt_add, h.calls, ← hold]
    omega
  stats d := act_stats h d (hi.stats d)

/-- A call of ldd_start_xmit starts with its skb in hand; no other call has one. -/
theorem TxInv.start {t : Sys Lists} {e : Event} (h : Start cfg t e c a)
    (hi : TxInv t.core t.pending) : TxInv c (a ::ₘ t.pending) := by
  have hpriv : ∀ d, (c.shared.priv d).status = (t.core.shared.priv d).status ∧
      (c.shared.priv d).txSkb = (t.core.shared.priv d).txSkb := by
    intro d
    cases h with
    | poll d' budget =>
      exact ⟨mapPriv_keeps LddDev.status (by intro p; rfl) d,
        mapPriv_keeps LddDev.txSkb (by intro p; rfl) d⟩
    | _ => exact ⟨rfl, rfl⟩
  have hkept : ∀ d n, kept c d n = kept t.core d n := by
    intro d n
    simp only [kept, inSlot, (hpriv d).2, h.log]
  have hreturns : ∀ d n, returns c d n = returns t.core d n := by
    intro d n
    simp only [returns, h.log]
  refine ⟨?_, ?_, ?_, ?_, ?_⟩
  · intro d
    rw [(hpriv d).1, (hpriv d).2]
    exact hi.bit d
  · intro d skb hs
    rw [(hpriv d).2] at hs
    exact Multiset.mem_cons_of_mem (hi.slot d skb hs)
  · intro d n
    have hsame : (carries d n a).toNat = (calling d n a).toNat := by
      cases h <;> rfl
    rw [cnt_cons, cnt_cons, hkept, hreturns, hsame, Nat.add_assoc, hi.same, Nat.add_assoc]
  · intro n
    have hold := hi.once n
    rw [cnt_cons, cnt_cons, hreturns, hreturns]
    cases h with
    | xmit d protocol data =>
      have hnew : (calling .sn0 n (.startXmit d ⟨t.core.shared.calls, protocol, data⟩)).toNat +
          (calling .sn1 n (.startXmit d ⟨t.core.shared.calls, protocol, data⟩)).toNat =
          if t.core.shared.calls = n then 1 else 0 := by
        by_cases hn : t.core.shared.calls = n
        · cases d <;> simp [calling, hn]
        · have hne : (t.core.shared.calls == n) = false := beq_eq_false_iff_ne.mpr hn
          cases d <;> simp [calling, hn, hne]
      show _ = if n < t.core.shared.calls + 1 then 1 else 0
      split at hold <;> split at hnew <;> split <;> omega
    | _ =>
      simp only [calling, Bool.toNat_false, Nat.zero_add]
      exact hold
  · intro d
    rw [h.log]
    refine Eq.trans ?_ (hi.stats d)
    cases h with
    | openNapi d' | openRegular d' | stop d' =>
      exact congrArg₂ _ (mapNetdev_keeps NetDevice.txPackets (by intro n; rfl) d)
        (mapNetdev_keeps NetDevice.txDropped (by intro n; rfl) d)
    | _ => rfl

theorem TxInv.init (b : Lists) : TxInv (initial b).core (initial b).pending where
  bit := by simp [initial]
  slot := by simp [initial]
  same := by simp [initial, Pool.pending, kept, inSlot, returns]
  once := by simp [initial, Pool.pending, returns]
  stats := by simp [initial]

end TxInv

/-- What every step keeps if the kernel sends on a device one skb at a time. -/
structure XmitInv (t : Sys Lists) : Prop where
  serial : ∀ d, Serial (sending d) (· == .startXmit d) t
  tx : TxInv t.core t.pending

theorem XmitInv.step {cfg : Params} {t t' : Sys Lists} {e : Event} (hi : XmitInv t)
    (h : Guarded XmitSerial (Step listOps cfg) t e t') : XmitInv t' := by
  refine ⟨fun d => serial_step d h.1 h.2 (hi.serial d), ?_⟩
  rcases step_cases h.2 with ⟨a, hstart, hp⟩ | ⟨a, rest, pushed, hp, hact, hp', -⟩
  · rw [hp]
    exact hi.tx.start hstart
  · rw [hp']
    exact TxInv.act hact (hp ▸ hi.tx) (fun d => hp ▸ (hi.serial d).single)

theorem XmitInv.init (b : Lists) : XmitInv (initial b) :=
  ⟨fun _ => ⟨(fun _ h => nomatch h), Nat.zero_le 1⟩, TxInv.init b⟩

/-! ## Freed once -/

/-- The skbs that were passed to ldd_start_xmit, by the number of the call. -/
structure FreedOnce (s : Sys Links) : Prop where
  /-- tx_skb is null when ldd_start_xmit is about to store to it. -/
  slot_empty : ∀ d skb, .transmitted d skb ∈ s.pending → (s.core.shared.priv d).txSkb = none
  bit : ∀ d, isSet (s.core.shared.priv d).status netdevTxIntr = true ↔
    (s.core.shared.priv d).txSkb ≠ none
  /-- Accepted, and no handler has it left to free. -/
  ok : ∀ d n, (n, .ok) ∈ (s.core.shared.log d).returned →
    (∀ skb, .txDone d skb ∈ s.pending → skb.id ≠ n) →
    (s.core.shared.log d).freed.count n = 1
  busy : ∀ d n, (n, .busy) ∈ (s.core.shared.log d).returned →
    n ∉ (s.core.shared.log d).freed
  /-- Nothing is freed twice, or by the other device. -/
  once : ∀ n, (s.core.shared.log .sn0).freed.count n + (s.core.shared.log .sn1).freed.count n ≤ 1
  own : ∀ d n r, (n, r) ∈ (s.core.shared.log d).returned →
    n ∉ (s.core.shared.log (lddPeer d)).freed
  stats : ∀ d, (s.core.shared.netdev d).txPackets + (s.core.shared.netdev d).txDropped =
    (s.core.shared.log d).freed.length
  accepted : s.Idle (fun _ => true) → ∀ d,
    (s.core.shared.netdev d).txPackets + (s.core.shared.netdev d).txDropped =
      (s.core.shared.log d).returned.countP (fun r => r.2 == .ok)

section FreedOnce

variable {c : Core Lists} {m : Multiset Instr}

private theorem count_returned (l : List (Nat × NetdevTx)) (n : Nat) :
    (l.map Prod.fst).count n = l.count (n, .ok) + l.count (n, .busy) := by
  induction l with
  | nil => rfl
  | cons r l ih =>
    obtain ⟨k, r⟩ := r
    rw [List.map_cons, List.count_cons, List.count_cons, List.count_cons, ih]
    cases r <;> by_cases hk : k = n <;> simp [hk] <;> omega

/-- The skb is with the call, or with a handler that is about to free it. -/
private theorem carries_cases {d : Dev} {n : Nat} {a : Instr} (h : carries d n a = true) :
    calling d n a = true ∨ ∃ skb, a = .txDone d skb ∧ skb.id = n := by
  cases a <;> simp only [carries, Bool.false_eq_true, Bool.and_eq_true, beq_iff_eq] at h
  case txDone d' skb =>
    obtain ⟨rfl, rfl⟩ := h
    exact .inr ⟨skb, rfl, rfl⟩
  all_goals
    obtain ⟨rfl, rfl⟩ := h
    exact .inl (by simp [calling])

/-- A call that has returned has no action left, and its skb is not in the slot. -/
private theorem TxInv.returned (hi : TxInv c m) {d : Dev} {n : Nat} (hr : 0 < returns c d n) :
    cnt (calling d n) m = 0 ∧ returns c d n = 1 ∧ inSlot (c.shared.priv d) n = 0 ∧
      cnt (calling (lddPeer d) n) m = 0 ∧ returns c (lddPeer d) n = 0 := by
  have honce := hi.once n
  have hle : (if n < c.shared.calls then 1 else 0) ≤ 1 := by split <;> omega
  have hcalls : cnt (calling d n) m = 0 ∧ returns c d n = 1 ∧
      cnt (calling (lddPeer d) n) m = 0 ∧ returns c (lddPeer d) n = 0 := by
    cases d
    · simp only [lddPeer]
      omega
    · simp only [lddPeer]
      omega
  refine ⟨hcalls.1, hcalls.2.1, ?_, hcalls.2.2⟩
  cases hs : (c.shared.priv d).txSkb with
  | none => simp [inSlot, hs]
  | some skb =>
    have hint := hi.slot d skb hs
    by_cases hn : skb.id = n
    · have hpos := cnt_pos_of_mem (p := calling d n) hint (by simp [calling, hn])
      omega
    · have hne : (skb.id == n) = false := beq_eq_false_iff_ne.mpr hn
      simp [inSlot, hs, hne]

private theorem TxInv.freed_ok (hi : TxInv c m) {d : Dev} {n : Nat}
    (hr : (n, .ok) ∈ (c.shared.log d).returned)
    (hdone : ∀ skb, .txDone d skb ∈ m → skb.id ≠ n) : (c.shared.log d).freed.count n = 1 := by
  have hpos := List.count_pos_iff.mpr hr
  have hsplit : returns c d n = _ := count_returned (c.shared.log d).returned n
  obtain ⟨hcall, hone, hslot, -⟩ := hi.returned (d := d) (n := n) (by omega)
  have hcarry : cnt (carries d n) m = 0 := by
    rw [cnt_eq_zero]
    intro a ha
    by_contra hc
    rcases carries_cases (Bool.not_eq_false _ ▸ hc) with hca | ⟨skb, rfl, hn⟩
    · exact absurd (cnt_eq_zero.mp hcall a ha) (by simp [hca])
    · exact hdone skb ha hn
  have hsame := hi.same d n
  rw [hcarry, hcall] at hsame
  simp only [kept] at hsame
  omega

private theorem TxInv.freed_busy (hi : TxInv c m) {d : Dev} {n : Nat}
    (hr : (n, .busy) ∈ (c.shared.log d).returned) : n ∉ (c.shared.log d).freed := by
  have hpos := List.count_pos_iff.mpr hr
  have hsplit : returns c d n = _ := count_returned (c.shared.log d).returned n
  obtain ⟨hcall, hone, -, -⟩ := hi.returned (d := d) (n := n) (by omega)
  have hsame := hi.same d n
  rw [hcall] at hsame
  simp only [kept] at hsame
  rw [← List.count_eq_zero]
  omega

private theorem TxInv.freed_own (hi : TxInv c m) {d : Dev} {n : Nat} {r : NetdevTx}
    (hr : (n, r) ∈ (c.shared.log d).returned) : n ∉ (c.shared.log (lddPeer d)).freed := by
  have hpos : 0 < returns c d n :=
    List.count_pos_iff.mpr (List.mem_map.mpr ⟨(n, r), hr, rfl⟩)
  obtain ⟨-, -, -, hcall, hret⟩ := hi.returned hpos
  have hsame := hi.same (lddPeer d) n
  rw [hcall, hret] at hsame
  simp only [kept] at hsame
  rw [← List.count_eq_zero]
  omega

private theorem TxInv.freed_once (hi : TxInv c m) (n : Nat) :
    (c.shared.log .sn0).freed.count n + (c.shared.log .sn1).freed.count n ≤ 1 := by
  have honce := hi.once n
  have hle : (if n < c.shared.calls then 1 else 0) ≤ 1 := by split <;> omega
  have h0 := hi.same .sn0 n
  have h1 := hi.same .sn1 n
  simp only [kept] at h0 h1
  omega

/-- With nothing in progress, what was freed is what was accepted. -/
private theorem TxInv.freed_accepted (hi : TxInv c 0) (d : Dev) :
    (c.shared.log d).freed.length = (c.shared.log d).returned.countP (fun r => r.2 == .ok) := by
  have hperm : (c.shared.log d).freed.Perm
      (((c.shared.log d).returned.filter fun r => r.2 == .ok).map Prod.fst) := by
    rw [List.perm_iff_count]
    intro n
    have hslot : (c.shared.priv d).txSkb = none := by
      by_contra hne
      obtain ⟨skb, hs⟩ := Option.ne_none_iff_exists'.mp hne
      exact Multiset.notMem_zero _ (hi.slot d skb hs)
    have hsame := hi.same d n
    have hsplit : returns c d n = _ := count_returned (c.shared.log d).returned n
    have hok := count_returned ((c.shared.log d).returned.filter fun r => r.2 == .ok) n
    have hbusy : ((c.shared.log d).returned.filter fun r => r.2 == .ok).count (n, .busy) = 0 :=
      List.count_eq_zero_of_not_mem fun hm => by simpa using (List.mem_filter.mp hm).2
    rw [List.count_filter (by rfl), hbusy] at hok
    simp only [kept, inSlot, hslot, cnt_zero] at hsame
    simp only [Option.elim_none, Bool.toNat_false] at hsame
    omega
  rw [hperm.length_eq, List.length_map, List.countP_eq_length_filter]

end FreedOnce

/-- Over every run in which the kernel sends on each device one skb at a time. -/
theorem accepted_skbs_freed_once (cfg : Params) (es : List Event) (s : Sys Links)
    (h : Steps (Guarded XmitSerial (NetStep cfg)) (netInit cfg) es s) : FreedOnce s := by
  obtain ⟨t, ht, hr⟩ := netdev_lists (fun s t e hth _ => xmitSerial_lists s t e hth) h
  have hi := ht.invariant (fun t _ _ (hi : XmitInv t) hs => hi.step hs) (XmitInv.init _)
  have hpend := hr.pending
  constructor
  · intro d skb hm
    rw [hr.shared]
    exact hi.tx.slot_empty (hi.serial d).single (hpend ▸ hm)
  · intro d
    rw [hr.shared, hi.tx.bit d, Option.isSome_iff_ne_none]
  · intro d n hmem hdone
    rw [hr.shared] at hmem ⊢
    exact hi.tx.freed_ok hmem (hpend ▸ hdone)
  · intro d n hmem
    rw [hr.shared] at hmem ⊢
    exact hi.tx.freed_busy hmem
  · rw [hr.shared]
    exact hi.tx.freed_once
  · intro d n r hmem
    rw [hr.shared] at hmem ⊢
    exact hi.tx.freed_own hmem
  · rw [hr.shared]
    exact hi.tx.stats
  · intro hidle d
    have hnone : t.pending = 0 := hpend ▸ Pool.pending_idle hidle
    rw [hr.shared, hi.tx.stats]
    exact TxInv.freed_accepted (hnone ▸ hi.tx) d

/-- sn0 sends to a twin that is not up. -/
theorem accepted_skbs_freed_once_lost_frame :
    ∃ s, Steps (Guarded XmitSerial (NetStep (oneBuffer false))) (netInit (oneBuffer false))
        (.startXmit .sn0 ethPIp (List.replicate 34 0) :: List.replicate 10 (.run 0 true)) s ∧
      (s.core.shared.log .sn0).returned = [(0, .ok)] ∧ FreedOnce s := by
  have hexec : (Lib.Transition.exec
      (fun s e => if XmitSerial s e then next linkOps (oneBuffer false) s e else none)
      (netInit (oneBuffer false))
      (.startXmit .sn0 ethPIp (List.replicate 34 0) :: List.replicate 10 (.run 0 true))).map
      (fun s => (s.core.shared.log .sn0).returned) = some [(0, .ok)] := by
    decide +kernel
  obtain ⟨s, hs, hd⟩ := Option.map_eq_some_iff.mp hexec
  have hrun : Steps (Guarded XmitSerial (NetStep (oneBuffer false))) _ _ s := exec_guarded_steps hs
  exact ⟨s, hrun, hd, accepted_skbs_freed_once _ _ s hrun⟩


end LinuxDeviceDriver.Drivers.Netdev.Transmit
