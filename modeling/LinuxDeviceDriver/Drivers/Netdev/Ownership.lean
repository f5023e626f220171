/- source: examples/30_netdev/main.c, lines 33 to 110 and 176 to 359
   digest: Where each buffer is: in one pool, in one receive queue or in one thread's hands.
     The driver's pointers and the lists take the same steps. -/

import LinuxDeviceDriver.Drivers.Netdev.Actions

set_option autoImplicit false

namespace LinuxDeviceDriver.Drivers.Netdev.Ownership

open Lib.Threads
open Lib.Transition (Steps Guarded exec_steps)
open Model Buffers Actions

/-! ## Buffers in hand -/

/-- The buffer that the thread has taken and not passed on. -/
def hand : Instr → Option PktRef
  | .copyFrame _ _ pkt => some pkt
  | .rxEnqueue _ pkt => some pkt
  | .releaseBuffer pkt => some pkt
  | .rxRegular _ pkt => some pkt
  | .rxNapi _ pkt _ _ => some pkt
  | _ => none

theorem hand_lddInterrupt (cfg : Params) (d : Dev) (status : BitVec 32) (txSkb : Option Skb)
    (cause : Cause) :
    collect hand ((lddInterrupt cfg d status txSkb ++ cause.rest d : List Instr) : Multiset Instr) = 0 := by
  rw [Multiset.eq_zero_iff_forall_notMem]
  intro pkt hpkt
  obtain ⟨b, hb, hhand⟩ := mem_collect.mp hpkt
  rcases mem_lddInterrupt hb with ⟨-, -, rfl⟩ | ⟨-, -, rfl⟩ | ⟨skb, -, rfl⟩ | ⟨id, -, rfl⟩ <;>
    cases hhand

/-- Each action keeps the buffers: it takes one out of a list, puts its own into one,
or passes its own on. -/
theorem act_places {cfg : Params} {c c' : Core Lists} {a : Instr} {pushed : List Instr}
    (h : Act cfg c a c' pushed) :
    c'.bufs.all + collect hand (pushed : Multiset Instr) = c.bufs.all + ((hand a).toList : List PktRef) := by
  cases h with
  | takeLast d skb pkt hp | take d skb pkt l hp =>
    rw [all_pool_cons hp]
    simp [hand, poolTail, ← Multiset.singleton_add, add_comm]
  | queue d pkt | queueQuiet d pkt =>
    simp [hand, rxPut, all_rxEnqueue, ← Multiset.singleton_add, add_comm]
  | release pkt | releaseFirst pkt =>
    simp [hand, poolPut, all_putPool, ← Multiset.singleton_add, add_comm]
  | interrupt d cause => simp [hand, hand_lddInterrupt]
  | rxSome d pkt l hr | pollSome d budget done pkt l hr =>
    rw [all_rx_cons hr]
    simp [hand, rxTail, ← Multiset.singleton_add, add_comm]
  | drainSome d pkt l hr =>
    rw [all_rx_cons hr]
    simp [hand, rxTail, Core.settle, ← Multiset.singleton_add, add_comm]
  | stopLocked d =>
    cases cfg.useNapi <;> simp [hand]
  | _ => simp [hand, Core.free, Core.returns, Core.mapNapi, lddTxDone]

/-- A frame on its way to a device is in a buffer of the twin's. -/
def Routed : Instr → Prop
  | .copyFrame d _ pkt => pkt.arr = d
  | .rxEnqueue d pkt => pkt.arr = lddPeer d
  | _ => True

/-- A device that was stopped is about to be emptied. -/
def draining (d : Dev) : Instr → Bool
  | .napiDisable d' => d' == d
  | .napiDisableWait d' => d' == d
  | .drain d' => d' == d
  | _ => false

structure BufInv (cfg : Params) (c : Core Lists) (m : Multiset Instr) : Prop where
  places : c.bufs.all + collect hand m = (pktArr cfg .sn0 : Multiset PktRef) + pktArr cfg .sn1
  pool_own : ∀ d, ∀ pkt ∈ c.bufs.pool d, pkt.arr = d
  rx_peer : ∀ d, ∀ pkt ∈ c.bufs.rx d, pkt.arr = lddPeer d
  routed : ∀ a ∈ m, Routed a
  dev : ∀ pkt, (c.shared.packet pkt).dev = pkt.arr
  drained : ∀ d, (c.shared.priv d).running = false → c.bufs.rx d = [] ∨ 0 < cnt (draining d) m

section BufInv

variable {cfg : Params} {c c' : Core Lists} {m rest : Multiset Instr} {a : Instr}
  {pushed : List Instr}

theorem pktArr_nodup (cfg : Params) :
    ((pktArr cfg .sn0 : Multiset PktRef) + pktArr cfg .sn1).Nodup := by
  rw [Multiset.coe_add, Multiset.coe_nodup]
  have hinj : ∀ d, Function.Injective (PktRef.mk d) := fun d i j h => (PktRef.mk.inj h).2
  refine List.Nodup.append (List.nodup_range.map (hinj _)) (List.nodup_range.map (hinj _)) ?_
  intro pkt h0 h1
  obtain ⟨i, -, rfl⟩ := List.mem_map.mp h0
  obtain ⟨j, -, hj⟩ := List.mem_map.mp h1
  cases hj

theorem BufInv.sound (h : BufInv cfg c m) : c.bufs.Sound := by
  refine ⟨?_, h.pool_own, h.rx_peer⟩
  have hn := pktArr_nodup cfg
  rw [← h.places] at hn
  exact Multiset.nodup_of_le (Multiset.le_add_right _ _) hn

theorem BufInv.held_not_mem (h : BufInv cfg c m) {pkt : PktRef} (ha : a ∈ m)
    (hp : hand a = some pkt) : pkt ∉ c.bufs.all := by
  have hn := pktArr_nodup cfg
  rw [← h.places] at hn
  exact (Multiset.disjoint_right.mp (Multiset.nodup_add.mp hn).2.2) (mem_collect.mpr ⟨a, ha, hp⟩)

theorem BufInv.held_once (h : BufInv cfg c (a ::ₘ rest)) {pkt : PktRef} (hp : hand a = some pkt) :
    pkt ∉ collect hand rest := by
  have hn := pktArr_nodup cfg
  rw [← h.places] at hn
  have hheld := (Multiset.nodup_add.mp hn).2.1
  rw [collect_cons, hp] at hheld
  exact (Multiset.nodup_cons.mp hheld).1

private theorem act_routed (h : Act cfg c a c' pushed) (ha : Routed a)
    (hown : ∀ d, ∀ pkt ∈ c.bufs.pool d, pkt.arr = d) : ∀ b ∈ pushed, Routed b := by
  cases h with
  | takeLast d skb pkt hp | take d skb pkt l hp => simp [Routed, hown d pkt (by simp [hp])]
  | copy d skb pkt =>
    have hd : pkt.arr = d := ha
    simp [Routed, hd]
  | interrupt d cause =>
    intro b hb
    rcases mem_lddInterrupt hb with ⟨-, -, rfl⟩ | ⟨-, -, rfl⟩ | ⟨skb, -, rfl⟩ | ⟨id, -, rfl⟩ <;>
      trivial
  | stopLocked d => cases cfg.useNapi <;> simp [Routed]
  | _ => simp [Routed]

private theorem act_own (h : Act cfg c a c' pushed) (hdev : ∀ pkt, (c.shared.packet pkt).dev = pkt.arr)
    (hown : ∀ d, ∀ pkt ∈ c.bufs.pool d, pkt.arr = d) :
    ∀ d, ∀ pkt ∈ c'.bufs.pool d, pkt.arr = d := by
  have htail : ∀ d' pkt l, c.bufs.pool d' = pkt :: l →
      ∀ d, ∀ q ∈ Function.update c.bufs.pool d' l d, q.arr = d := by
    intro d' pkt l hp d q hq
    by_cases hd : d = d'
    · subst hd
      rw [Function.update_self] at hq
      exact hown d q (by rw [hp]; exact List.mem_cons_of_mem _ hq)
    · rw [Function.update_of_ne hd] at hq
      exact hown d q hq
  have hput : ∀ pkt d, ∀ q ∈ (poolPut c pkt).bufs.pool d, q.arr = d := by
    intro pkt d q hq
    by_cases hd : d = (c.shared.packet pkt).dev
    · subst hd
      rw [poolPut_pool, Function.update_self, List.mem_cons] at hq
      rcases hq with rfl | hq
      · exact (hdev q).symm
      · exact hown _ q hq
    · rw [poolPut_pool, Function.update_of_ne hd] at hq
      exact hown d q hq
  cases h with
  | takeLast d skb pkt hp => exact htail d pkt [] hp
  | take d skb pkt l hp => exact htail d pkt l hp
  | release pkt => exact hput pkt
  | releaseFirst pkt => exact hput pkt
  | rxRegular d pkt memory => simpa using hown
  | rxNapi d pkt budget done memory => simpa using hown
  | _ => exact hown

private theorem act_peer (h : Act cfg c a c' pushed) (ha : Routed a)
    (hpeer : ∀ d, ∀ pkt ∈ c.bufs.rx d, pkt.arr = lddPeer d) :
    ∀ d, ∀ pkt ∈ c'.bufs.rx d, pkt.arr = lddPeer d := by
  have htail : ∀ d' pkt l, c.bufs.rx d' = pkt :: l →
      ∀ d, ∀ q ∈ Function.update c.bufs.rx d' l d, q.arr = lddPeer d := by
    intro d' pkt l hr d q hq
    by_cases hd : d = d'
    · subst hd
      rw [Function.update_self] at hq
      exact hpeer d q (by rw [hr]; exact List.mem_cons_of_mem _ hq)
    · rw [Function.update_of_ne hd] at hq
      exact hpeer d q hq
  have hput : ∀ d' pkt, pkt.arr = lddPeer d' → ∀ d, ∀ q ∈ (rxPut c d' pkt).bufs.rx d,
      q.arr = lddPeer d := by
    intro d' pkt hp d q hq
    by_cases hd : d = d'
    · subst hd
      rw [rxPut_rx, Function.update_self, List.mem_append, List.mem_singleton] at hq
      rcases hq with hq | rfl
      · exact hpeer d q hq
      · exact hp
    · rw [rxPut_rx, Function.update_of_ne hd] at hq
      exact hpeer d q hq
  cases h with
  | queue d pkt => exact hput d pkt ha
  | queueQuiet d pkt => exact hput d pkt ha
  | rxSome d pkt l hr | pollSome d budget done pkt l hr | drainSome d pkt l hr =>
    exact htail d pkt l hr
  | rxRegular d pkt memory => simpa using hpeer
  | rxNapi d pkt budget done memory => simpa using hpeer
  | _ => exact hpeer

private theorem act_dev (h : Act cfg c a c' pushed)
    (hdev : ∀ pkt, (c.shared.packet pkt).dev = pkt.arr) :
    ∀ pkt, (c'.shared.packet pkt).dev = pkt.arr := by
  cases h with
  | copy d skb pkt =>
    intro q
    by_cases hq : q = pkt
    · subst hq
      simpa [copyFrame] using hdev q
    · simpa [Function.update_of_ne hq] using hdev q
  | rxRegular d pkt memory => simpa using hdev
  | rxNapi d pkt budget done memory => simpa using hdev
  | _ => exact hdev

/-- A stopped device's queue does not grow, and whoever was to empty it goes on until
it is empty. -/
private theorem act_drained (h : Act cfg c a c' pushed) (d : Dev)
    (hd : (c.shared.priv d).running = false → c.bufs.rx d = [] ∨ 0 < cnt (draining d) (a ::ₘ rest))
    (hrun : (c'.shared.priv d).running = false) :
    c'.bufs.rx d = [] ∨ 0 < cnt (draining d) ((pushed : Multiset Instr) + rest) := by
  have hrx := h.rx d
  have hr := h.running d
  rw [hrun] at hr
  -- the queue as it was, and still someone to empty it
  have hkeep : c'.bufs.rx d = c.bufs.rx d → (c.shared.priv d).running = false →
      (draining d a).toNat ≤ cnt (draining d) (pushed : Multiset Instr) →
      c'.bufs.rx d = [] ∨ 0 < cnt (draining d) ((pushed : Multiset Instr) + rest) := by
    intro hrx hr hc
    rw [hrx]
    refine (hd hr).imp_right fun h => h.trans_le ?_
    rw [cnt_cons, cnt_add]
    exact Nat.add_le_add_right hc _
  -- a frame taken out of a queue that is not empty
  have htake : ∀ d' pkt l, c.bufs.rx d' = pkt :: l →
      c'.bufs.rx = Function.update c.bufs.rx d' l → (c.shared.priv d).running = false →
      (draining d a).toNat ≤ cnt (draining d) (pushed : Multiset Instr) →
      c'.bufs.rx d = [] ∨ 0 < cnt (draining d) ((pushed : Multiset Instr) + rest) := by
    intro d' pkt l hl hrx' hr hc
    by_cases hdd : d = d'
    · subst hdd
      refine .inr (((hd hr).resolve_left (by simp [hl])).trans_le ?_)
      rw [cnt_cons, cnt_add]
      exact Nat.add_le_add_right hc _
    · exact hkeep (by rw [hrx', Function.update_of_ne hdd]) hr hc
  cases h with
  | queue d' pkt hrun' | queueQuiet d' pkt hrun' =>
    have hdd : d' ≠ d := by
      rintro rfl
      simp [hrun'] at hr
    exact hkeep (hrx (by simp [touchesRx, hdd])) (by simpa using hr.symm) (by simp [draining])
  | rxSome d' pkt l hl | drainSome d' pkt l hl =>
    exact htake d' pkt l hl rfl (by simpa using hr.symm) (by simp [draining])
  | pollSome d' budget done pkt l hl =>
    exact htake d' pkt l hl rfl (by simpa using hr.symm) (by simp [draining])
  | drainNone d' hl =>
    by_cases hdd : d = d'
    · exact .inl (hdd ▸ hl)
    · exact hkeep rfl (by simpa using hr.symm) (by simp [draining, Ne.symm hdd])
  | openLocked d' =>
    have hdd : d' ≠ d := by
      rintro rfl
      simp at hr
    exact hkeep rfl (by simpa [hdd] using hr.symm) (by simp [draining])
  | stopLocked d' =>
    by_cases hdd : d' = d
    · subst hdd
      right
      rw [cnt_add]
      cases cfg.useNapi <;> simp [draining]
    · exact hkeep rfl (by simpa [hdd] using hr.symm) (by simp [draining])
  | rxNone d' hl | pollNone d' budget done hl | pollSpent d' budget done hl | lost d' pkt =>
    exact hkeep rfl (by simpa using hr.symm) (by simp [draining])
  | _ => exact hkeep (hrx rfl) (by simpa using hr.symm) (by simp [draining])

theorem BufInv.act (h : Act cfg c a c' pushed) (hi : BufInv cfg c (a ::ₘ rest)) :
    BufInv cfg c' ((pushed : Multiset Instr) + rest) where
  places := by
    rw [collect_add, ← add_assoc, act_places h, add_assoc, ← collect_cons]
    exact hi.places
  pool_own := act_own h hi.dev hi.pool_own
  rx_peer := act_peer h (hi.routed a (Multiset.mem_cons_self _ _)) hi.rx_peer
  routed := by
    intro b hb
    rcases Multiset.mem_add.mp hb with hb | hb
    · exact act_routed h (hi.routed a (Multiset.mem_cons_self _ _)) hi.pool_own b hb
    · exact hi.routed b (Multiset.mem_cons_of_mem hb)
  dev := act_dev h hi.dev
  drained d := act_drained h d (hi.drained d)

/-- Calls that start hold no buffer, and do not touch the lists. -/
private theorem BufInv.start {t : Sys Lists} {e : Event} (h : Start cfg t e c a)
    (hi : BufInv cfg t.core t.pending) : BufInv cfg c (a ::ₘ t.pending) where
  places := by
    have ha : hand a = none := by cases h <;> rfl
    rw [collect_cons, h.bufs, ha]
    simpa using hi.places
  pool_own := h.bufs ▸ hi.pool_own
  rx_peer := h.bufs ▸ hi.rx_peer
  routed := by
    intro b hb
    rcases Multiset.mem_cons.mp hb with rfl | hb
    · cases h <;> trivial
    · exact hi.routed b hb
  dev := h.packet ▸ hi.dev
  drained d hrun := by
    rw [h.bufs, cnt_cons]
    exact (hi.drained d (h.running d ▸ hrun)).imp_right fun h => h.trans_le (Nat.le_add_left _ _)

theorem BufInv.step {t t' : Sys Lists} {e : Event} (h : Step listOps cfg t e t')
    (hi : BufInv cfg t.core t.pending) : BufInv cfg t'.core t'.pending := by
  rcases step_cases h with ⟨a, hstart, hp⟩ | ⟨a, rest, pushed, hp, hact, hp', -⟩
  · rw [hp]
    exact hi.start hstart
  · rw [hp']
    exact BufInv.act hact (hp ▸ hi)

theorem BufInv.init (cfg : Params) :
    BufInv cfg (initial (listInit cfg)).core (initial (listInit cfg)).pending where
  places := by simp [initial, Pool.pending, listInit, Lists.all]
  pool_own := by simp [initial, listInit, pktArr]
  rx_peer := by simp [initial, listInit]
  routed := by simp [initial, Pool.pending]
  dev := by simp [initial]
  drained := by simp [initial, listInit]

end BufInv

/-! ## The pointers take the steps of the lists -/

section Sim

variable {cfg : Params} {memory : Bool} {p p' : Links} {b : Lists} {sh sh' : Shared} {a : Instr}
  {pushed : List Instr}

private theorem rxDequeue_results (hrep : Rep p b) (d : Dev) :
    (∃ p' b', linkOps.rxDequeue p d = (none, p') ∧ listOps.rxDequeue b d = (none, b') ∧
      Rep p' b') ∨
    ∃ pkt p' b', linkOps.rxDequeue p d = (some pkt, p') ∧ listOps.rxDequeue b d = (some pkt, b') ∧
      Rep p' b' := by
  obtain ⟨hpkt, hrep'⟩ := hrep.rxDequeue d
  cases hb : (b.rxDequeue d).1 with
  | none => exact .inl ⟨_, _, Prod.ext (hpkt.trans hb) rfl, Prod.ext hb rfl, hrep'⟩
  | some pkt => exact .inr ⟨pkt, _, _, Prod.ext (hpkt.trans hb) rfl, Prod.ext hb rfl, hrep'⟩

private theorem getTxBuffer_results (hrep : Rep p b) (sh : Shared) (d : Dev) :
    (lddGetTxBuffer linkOps ⟨p, sh⟩ d = (none, ⟨p, sh⟩) ∧
      lddGetTxBuffer listOps ⟨b, sh⟩ d = (none, ⟨b, sh⟩)) ∨
    ∃ pkt p' b' sh', lddGetTxBuffer linkOps ⟨p, sh⟩ d = (some pkt, ⟨p', sh'⟩) ∧
      lddGetTxBuffer listOps ⟨b, sh⟩ d = (some pkt, ⟨b', sh'⟩) ∧ Rep p' b' := by
  obtain ⟨hpkt, hrep'⟩ := hrep.takePool d
  have hempty := hrep'.poolEmpty d
  have hlinks : linkOps.takePool p d = ((b.takePool d).1, (p.takePool d).2) := Prod.ext hpkt rfl
  have hlists : listOps.takePool b d = ((b.takePool d).1, (b.takePool d).2) := rfl
  simp only [lddGetTxBuffer, hlinks, hlists]
  cases (b.takePool d).1 with
  | none => exact .inl ⟨rfl, rfl⟩
  | some pkt =>
    simp only [hempty]
    split
    · exact .inr ⟨pkt, _, _, _, rfl, rfl, hrep'⟩
    · exact .inr ⟨pkt, _, _, _, rfl, rfl, hrep'⟩

/-- An action on the pointers is the same action on the lists they hold. -/
theorem exec_sim (hrep : Rep p b) (hb : b.Sound) (hhand : ∀ pkt, hand a = some pkt → pkt ∉ b.all)
    (h : exec linkOps cfg memory ⟨p, sh⟩ a = some (⟨p', sh'⟩, pushed)) :
    ∃ b', exec listOps cfg memory ⟨b, sh⟩ a = some (⟨b', sh'⟩, pushed) ∧ Rep p' b' := by
  cases a with
  | startXmit d skb =>
    simp only [exec] at h ⊢
    split at h
    · next hd =>
      cases h
      exact ⟨b, by rw [if_pos hd]; rfl, hrep⟩
    · next hd =>
      cases h
      exact ⟨b, by rw [if_neg hd], hrep⟩
  | getTxBuffer d skb =>
    simp only [exec] at h ⊢
    rcases getTxBuffer_results hrep sh d with ⟨hp, hb'⟩ | ⟨pkt, q, b', sh'', hp, hb', hr⟩
    · rw [hp] at h
      cases h
      exact ⟨b, by rw [hb']; rfl, hrep⟩
    · rw [hp] at h
      cases h
      exact ⟨b', by rw [hb'], hr⟩
  | rxEnqueue d pkt =>
    have hnot := hhand pkt rfl
    simp only [exec, lddRxEnqueue] at h ⊢
    split at h
    · next hrun =>
      rw [if_pos hrun]
      split at h
      · next hint =>
        cases h
        exact ⟨b.rxEnqueue d pkt, by rw [if_pos hint]; rfl, hrep.rxEnqueue hb d hnot⟩
      · next hint =>
        cases h
        exact ⟨b.rxEnqueue d pkt, by rw [if_neg hint]; rfl, hrep.rxEnqueue hb d hnot⟩
    · next hrun =>
      rw [if_neg hrun]
      cases h
      exact ⟨b, rfl, hrep⟩
  | releaseBuffer pkt =>
    have hnot := hhand pkt rfl
    simp only [exec, lddReleaseBuffer, hrep.poolEmpty] at h ⊢
    cases h
    exact ⟨b.putPool (sh.packet pkt).dev pkt, rfl, hrep.putPool _ hnot⟩
  | rxDequeue d =>
    have hexec : ∀ {B : Type} (ops : BufOps B) (q : B),
        exec ops cfg memory ⟨q, sh⟩ (.rxDequeue d) = some (⟨(ops.rxDequeue q d).2, sh⟩,
          ((ops.rxDequeue q d).1.map (.rxRegular d)).toList) := fun _ _ => rfl
    rw [hexec] at h ⊢
    rcases rxDequeue_results hrep d with ⟨q, b', hq, hb', hr⟩ | ⟨pkt, q, b', hq, hb', hr⟩
    · rw [hq] at h
      cases h
      exact ⟨b', by rw [hb'], hr⟩
    · rw [hq] at h
      cases h
      exact ⟨b', by rw [hb'], hr⟩
  | poll d budget done =>
    simp only [exec] at h ⊢
    split at h
    · next hlt =>
      rw [if_pos hlt]
      rcases rxDequeue_results hrep d with ⟨q, b', hq, hb', hr⟩ | ⟨pkt, q, b', hq, hb', hr⟩
      · rw [hq] at h
        cases h
        exact ⟨b', by rw [hb'], hr⟩
      · rw [hq] at h
        cases h
        exact ⟨b', by rw [hb'], hr⟩
    · next hlt =>
      rw [if_neg hlt]
      cases h
      exact ⟨b, rfl, hrep⟩
  | lookAgain d =>
    simp only [exec, hrep.rxWaiting] at h ⊢
    cases h
    exact ⟨b, rfl, hrep⟩
  | napiDisableWait d =>
    simp only [exec] at h ⊢
    split at h
    · cases h
    · next hs =>
      rw [if_neg hs]
      cases h
      exact ⟨b, rfl, hrep⟩
  | drain d =>
    simp only [exec] at h ⊢
    rcases rxDequeue_results hrep d with ⟨q, b', hq, hb', hr⟩ | ⟨pkt, q, b', hq, hb', hr⟩
    · rw [hq] at h
      cases h
      exact ⟨b', by rw [hb']; rfl, hr⟩
    · rw [hq] at h
      cases h
      exact ⟨b', by rw [hb']; rfl, hr⟩
  | rxRegular d pkt | rxNapi d pkt budget done =>
    cases memory <;> (cases h; exact ⟨b, rfl, hrep⟩)
  | _ =>
    cases h
    exact ⟨b, rfl, hrep⟩

end Sim

/-- The system over its pointers, and over the lists they hold. -/
structure Refines (cfg : Params) (s : Sys Links) (t : Sys Lists) : Prop where
  threads : s.threads = t.threads
  shared : s.core.shared = t.core.shared
  rep : Rep s.core.bufs t.core.bufs
  inv : BufInv cfg t.core t.pending

section Refines

variable {cfg : Params} {s s' : Sys Links} {t : Sys Lists} {e : Event}

theorem Refines.pending (h : Refines cfg s t) : s.pending = t.pending := by
  rw [Pool.pending, h.threads, Pool.pending]

private theorem Refines.start (h : Refines cfg s t) {c : Core Links} {c' : Core Lists}
    {th : Thread Call Instr} (hstep : Step listOps cfg t e (t.spawn c' th))
    (hsh : c.shared = c'.shared) (hb : c.bufs = s.core.bufs) (hb' : c'.bufs = t.core.bufs) :
    ∃ t', Step listOps cfg t e t' ∧ Refines cfg (s.spawn c th) t' := by
  refine ⟨_, hstep, ?_, hsh, ?_, h.inv.step hstep⟩
  · show s.threads ++ [th] = t.threads ++ [th]
    rw [h.threads]
  · show Rep c.bufs c'.bufs
    rw [hb, hb']
    exact h.rep

theorem Refines.step (h : Refines cfg s t) (hstep : NetStep cfg s e s') :
    ∃ t', Step listOps cfg t e t' ∧ Refines cfg s' t' := by
  obtain ⟨⟨p, sh⟩, th⟩ := s
  obtain ⟨⟨b, sh'⟩, th'⟩ := t
  obtain rfl : sh = sh' := h.shared
  obtain rfl : th = th' := h.threads
  cases e with
  | startXmit d protocol data | «open» d | stop d =>
    obtain rfl := Option.some.inj hstep
    exact h.start rfl rfl rfl rfl
  | poll d budget =>
    obtain ⟨hc, hstep⟩ := Option.ite_none_right_eq_some.mp hstep
    obtain rfl := Option.some.inj hstep
    exact h.start (if_pos hc) rfl rfl rfl
  | run i memory =>
    have hsim : ∀ a ∈ Pool.pending (⟨⟨p, sh⟩, th⟩ : Sys Links), ∀ c pushed,
        exec linkOps cfg memory ⟨p, sh⟩ a = some (c, pushed) →
        ∃ c', exec listOps cfg memory ⟨b, sh⟩ a = some (c', pushed) ∧
          c.shared = c'.shared ∧ Rep c.bufs c'.bufs := by
      intro a ha c pushed he
      obtain ⟨b', he', hrep⟩ := exec_sim h.rep h.inv.sound
        (fun pkt hp => h.inv.held_not_mem (h.pending ▸ ha) hp) he
      exact ⟨⟨b', c.shared⟩, he', rfl, hrep⟩
    obtain ⟨t', ht', hth, hsh, hrep⟩ :=
      Pool.run_sim (R := fun c c' => c.shared = c'.shared ∧ Rep c.bufs c'.bufs) h.threads hsim hstep
    have hrun : Step listOps cfg ⟨⟨b, sh⟩, th⟩ (.run i memory) t' := ht'
    exact ⟨t', hrun, hth, hsh, hrep, h.inv.step hrun⟩

theorem Refines.init (cfg : Params) : Refines cfg (netInit cfg) (initial (listInit cfg)) :=
  ⟨rfl, rfl, create_rep cfg, .init cfg⟩

/-- Every run of the driver is a run over lists; so is every run under a condition that
looks at the threads and the shared data only. -/
theorem netdev_lists {G : Sys Links → Event → Prop} {G' : Sys Lists → Event → Prop}
    (hG : ∀ s t e, s.threads = t.threads → s.core.shared = t.core.shared → G s e → G' t e)
    {es : List Event} (h : Steps (Guarded G (NetStep cfg)) (netInit cfg) es s) :
    ∃ t, Steps (Guarded G' (Step listOps cfg)) (initial (listInit cfg)) es t ∧ Refines cfg s t := by
  refine Steps.forward ?_ h (Refines.init cfg)
  intro s t e s' hr hs
  obtain ⟨t', ht', hr'⟩ := hr.step hs.2
  exact ⟨t', ⟨hG s t e hr.threads hr.shared hs.1, ht'⟩, hr'⟩

/-- The kernel's promise for transmissions is one about threads. -/
theorem xmitSerial_lists (s : Sys Links) (t : Sys Lists) (e : Event) (hth : s.threads = t.threads)
    (h : XmitSerial s e) : XmitSerial t e := by
  cases e with
  | startXmit d protocol data =>
    intro th hmem
    exact h th (hth ▸ hmem)
  | _ => trivial

theorem netdev_refines {es : List Event} (h : Steps (NetStep cfg) (netInit cfg) es s) :
    ∃ t, Steps (Step listOps cfg) (initial (listInit cfg)) es t ∧ Refines cfg s t :=
  h.forward (fun _ _ _ _ hr hs => hr.step hs) (Refines.init cfg)

end Refines

/-! ## Where the buffers are -/

/-- The pools and receive queues of the driver are these lists, and no buffer is lost,
doubled or in the wrong place. -/
structure Placed (cfg : Params) (s : Sys Links) (b : Lists) : Prop where
  rep : Rep s.core.bufs b
  tail : ∀ d, s.core.bufs.rxTail d = none ↔ s.core.bufs.rxHead d = none
  nodup : ∀ d, (b.pool d).Nodup ∧ (b.rx d).Nodup
  /-- A buffer of pkt_arr is in its own device's pool, in the twin's queue or in the
  hands of one thread. -/
  once : ∀ d, ∀ pkt ∈ pktArr cfg d, (b.pool d).count pkt + (b.rx (lddPeer d)).count pkt +
    cnt (fun a => decide (hand a = some pkt)) s.pending = 1
  /-- And there are no others. -/
  only : ∀ d pkt, pkt ∈ b.pool d ∨ pkt ∈ b.rx (lddPeer d) → pkt ∈ pktArr cfg d
  /-- ldd_release_buffer puts a buffer back where it came from. -/
  home : ∀ d, ∀ pkt ∈ pktArr cfg d, (s.core.shared.packet pkt).dev = d
  full : (∀ d, (s.core.shared.priv d).running = false) → s.Idle (fun _ => true) →
    ∀ d, (b.pool d).Perm (pktArr cfg d)

section Placed

variable {cfg : Params} {s : Sys Links} {t : Sys Lists}

theorem mem_pktArr {pkt : PktRef} {d : Dev} :
    pkt ∈ pktArr cfg d ↔ pkt.arr = d ∧ pkt.idx < cfg.poolSize := by
  constructor
  · intro h
    obtain ⟨i, hi, rfl⟩ := List.mem_map.mp h
    exact ⟨rfl, List.mem_range.mp hi⟩
  · rintro ⟨rfl, hi⟩
    exact List.mem_map.mpr ⟨pkt.idx, List.mem_range.mpr hi, rfl⟩

private theorem BufInv.once (h : BufInv cfg t.core t.pending) {d : Dev} {pkt : PktRef}
    (hp : pkt ∈ pktArr cfg d) :
    (t.core.bufs.pool d).count pkt + (t.core.bufs.rx (lddPeer d)).count pkt +
      cnt (fun a => decide (hand a = some pkt)) t.pending = 1 := by
  have harr := (mem_pktArr.mp hp).1
  have hall := congrArg (Multiset.count pkt) h.places
  have hone : Multiset.count pkt ((pktArr cfg .sn0 : Multiset PktRef) + pktArr cfg .sn1) = 1 := by
    refine Multiset.count_eq_one_of_mem (pktArr_nodup cfg) (Multiset.mem_add.mpr ?_)
    cases d
    · exact .inl hp
    · exact .inr hp
  rw [hone, Multiset.count_add, count_collect] at hall
  -- the other pool and the other queue hold buffers of the other device only
  have hpool : (t.core.bufs.pool (lddPeer d)).count pkt = 0 :=
    List.count_eq_zero_of_not_mem fun hm =>
      lddPeer_ne d ((h.pool_own _ pkt hm).symm.trans harr)
  have hrx : (t.core.bufs.rx d).count pkt = 0 :=
    List.count_eq_zero_of_not_mem fun hm =>
      lddPeer_ne d ((h.rx_peer _ pkt hm).symm.trans harr)
  simp only [Lists.all, Multiset.count_add, Multiset.coe_count] at hall
  cases d
  · simp only [lddPeer] at hpool hrx ⊢
    omega
  · simp only [lddPeer] at hpool hrx ⊢
    omega

private theorem BufInv.mem_arr (h : BufInv cfg t.core t.pending) {d : Dev} {pkt : PktRef}
    (hp : pkt ∈ t.core.bufs.all) (harr : pkt.arr = d) : pkt ∈ pktArr cfg d := by
  have hm : pkt ∈ (pktArr cfg .sn0 : Multiset PktRef) + pktArr cfg .sn1 := by
    rw [← h.places]
    exact Multiset.mem_add.mpr (.inl hp)
  rw [Multiset.mem_add, Multiset.mem_coe, Multiset.mem_coe, mem_pktArr, mem_pktArr] at hm
  exact mem_pktArr.mpr ⟨harr, hm.elim And.right And.right⟩

/-- Nothing is queued or in anyone's hands, so the pools have everything. -/
private theorem BufInv.full (h : BufInv cfg t.core t.pending)
    (hrun : ∀ d, (t.core.shared.priv d).running = false) (hidle : t.Idle fun _ => true) (d : Dev) :
    (t.core.bufs.pool d).Perm (pktArr cfg d) := by
  have hnone := Pool.pending_idle hidle
  have hrx : ∀ d, t.core.bufs.rx d = [] := by
    intro d
    refine (h.drained d (hrun d)).resolve_right ?_
    rw [hnone, cnt_zero]
    exact Nat.lt_irrefl 0
  rw [List.perm_iff_count]
  intro pkt
  by_cases hp : pkt ∈ pktArr cfg d
  · have hone := h.once hp
    rw [hrx, List.count_nil, hnone, cnt_zero] at hone
    have hnd : (pktArr cfg d).Nodup := List.nodup_range.map fun i j hij => (PktRef.mk.inj hij).2
    rw [List.count_eq_one_of_mem hnd hp]
    omega
  · rw [List.count_eq_zero_of_not_mem hp]
    refine List.count_eq_zero_of_not_mem fun hm => hp ?_
    exact h.mem_arr (mem_all.mpr ⟨d, .inl hm⟩) (h.pool_own d pkt hm)

theorem Refines.placed (h : Refines cfg s t) : Placed cfg s t.core.bufs where
  rep := h.rep
  tail d := by
    rw [h.rep.tail, (h.rep.rx d).head_eq, List.getLast?_eq_none_iff, List.head?_eq_none_iff]
  nodup d := ⟨h.inv.sound.nodup_pool d, h.inv.sound.nodup_rx d⟩
  once d pkt hp := by
    rw [h.pending]
    exact h.inv.once hp
  only d pkt hp := by
    rcases hp with hp | hp
    · exact h.inv.mem_arr (mem_all.mpr ⟨d, .inl hp⟩) (h.inv.pool_own d pkt hp)
    · have harr := h.inv.rx_peer _ pkt hp
      rw [lddPeer_lddPeer] at harr
      exact h.inv.mem_arr (mem_all.mpr ⟨_, .inr hp⟩) harr
  home d pkt hp := by
    rw [h.shared, h.inv.dev]
    exact (mem_pktArr.mp hp).1
  full hrun hidle := by
    refine h.inv.full (fun d => h.shared ▸ hrun d) ?_
    intro th hth
    exact hidle th (h.threads ▸ hth)

/-- Over every run: any number of calls on both devices, interleaved in any way. -/
theorem buffers_in_one_place (cfg : Params) (es : List Event) (s : Sys Links)
    (h : Steps (NetStep cfg) (netInit cfg) es s) : ∃ b, Placed cfg s b := by
  obtain ⟨t, -, hr⟩ := netdev_refines h
  exact ⟨_, hr.placed⟩

/-- One buffer on each device. -/
def oneBuffer (useNapi : Bool) : Params := ⟨useNapi, 1, Nat.le_refl 1, fun _ => (0, 0)⟩

/-- sn1 is opened, and sn0 sends it a frame that it has not taken yet. -/
def frameArrives : List Event :=
  [Event.open .sn1, .run 0 true, .run 0 true, .startXmit .sn0 ethPIp (List.replicate 34 0)] ++
    List.replicate 4 (Event.run 1 true)

theorem buffers_in_one_place_frame :
    ∃ s, Steps (NetStep (oneBuffer false)) (netInit (oneBuffer false)) frameArrives s ∧
      s.core.bufs.rxHead .sn1 = some ⟨.sn0, 0⟩ ∧ ∃ b, Placed (oneBuffer false) s b := by
  have hexec : (Lib.Transition.exec (next linkOps (oneBuffer false)) (netInit (oneBuffer false))
      frameArrives).map (fun s => s.core.bufs.rxHead .sn1) = some (some ⟨.sn0, 0⟩) := by
    decide +kernel
  obtain ⟨s, hs, hd⟩ := Option.map_eq_some_iff.mp hexec
  have hrun : Steps (NetStep (oneBuffer false)) _ _ s := exec_steps hs
  exact ⟨s, hrun, hd, buffers_in_one_place _ _ s hrun⟩

end Placed

end LinuxDeviceDriver.Drivers.Netdev.Ownership
