/- source: examples/30_netdev/main.c, lines 33 to 68
   digest: The transmit queue is stopped under the lock and woken outside it; it never stays
     stopped with a buffer free. -/

import LinuxDeviceDriver.Drivers.Netdev.Ownership

set_option autoImplicit false

namespace LinuxDeviceDriver.Drivers.Netdev.TxQueue

open Lib.LinkedList
open Lib.Threads
open Lib.Transition (Steps exec_steps)
open Model Buffers Actions Ownership

/-- netif_wake_queue is yet to be called. -/
def waking (d : Dev) : Instr → Bool
  | .wakeQueue d' => d' == d
  | _ => false

/-- A queue that is stopped has no buffer left, or is about to be woken. -/
def WakeInv (c : Core Lists) (m : Multiset Instr) : Prop :=
  ∀ d, (c.shared.netdev d).link = .up → (c.shared.netdev d).txStopped = true →
    c.bufs.pool d = [] ∨ 0 < cnt (waking d) m

section

variable {cfg : Params} {c c' : Core Lists} {m rest : Multiset Instr} {a : Instr}
  {pushed : List Instr}

theorem WakeInv.act (h : Act cfg c a c' pushed) (hi : WakeInv c (a ::ₘ rest)) :
    WakeInv c' ((pushed : Multiset Instr) + rest) := by
  intro d hup hstop
  -- a step that leaves the queue as it was, takes no wake away and does not refill the pool
  have hkeep : (c.bufs.pool d = [] → c'.bufs.pool d = []) →
      (c'.shared.netdev d).link = (c.shared.netdev d).link →
      (c'.shared.netdev d).txStopped = (c.shared.netdev d).txStopped →
      (waking d a).toNat ≤ cnt (waking d) (pushed : Multiset Instr) →
      c'.bufs.pool d = [] ∨ 0 < cnt (waking d) ((pushed : Multiset Instr) + rest) := by
    intro hpool hlink hstopped hc
    refine (hi d (hlink ▸ hup) (hstopped ▸ hstop)).imp hpool fun h => h.trans_le ?_
    rw [cnt_cons, cnt_add]
    exact Nat.add_le_add_right hc _
  cases h with
  | drop d' skb hd =>
    refine hkeep id ?_ ?_ (by simp [waking])
    · rw [mapLog_netdev, mapLog_netdev]
      exact mapNetdev_keeps NetDevice.link (by intro n; rfl) d
    · rw [mapLog_netdev, mapLog_netdev]
      exact mapNetdev_keeps NetDevice.txStopped (by intro n; rfl) d
  | takeLast d' skb pkt hp =>
    by_cases hd : d = d'
    · subst hd
      exact .inl (by simp)
    · exact hkeep (by simp [Function.update_of_ne hd]) (by simp [Function.update_of_ne hd])
        (by simp [Function.update_of_ne hd]) (by simp [waking])
  | take d' skb pkt l hp hl =>
    by_cases hd : d = d'
    · subst hd
      exact hkeep (by simp [hp]) rfl rfl (by simp [waking])
    · exact hkeep (by simp [Function.update_of_ne hd]) rfl rfl (by simp [waking])
  | release pkt hp =>
    by_cases hd : d = (c.shared.packet pkt).dev
    · subst hd
      exact hkeep (fun h => absurd h hp) rfl rfl (by simp [waking])
    · exact hkeep (by simp [Function.update_of_ne hd]) rfl rfl (by simp [waking])
  | releaseFirst pkt hp =>
    by_cases hd : d = (c.shared.packet pkt).dev
    · subst hd
      right
      rw [cnt_add]
      simp [waking]
    · exact hkeep (by simp [Function.update_of_ne hd]) rfl rfl (by simp [waking])
  | wake d' =>
    have hd : d' ≠ d := by
      rintro rfl
      simp at hstop
    exact hkeep id (mapNetdev_keeps NetDevice.link (by intro n; rfl) d)
      (by simp [Function.update_of_ne hd.symm]) (by simp [waking, hd])
  | rxRegular d' pkt memory | rxNapi d' pkt budget done memory =>
    obtain ⟨hlink, hstopped, -, -⟩ := lddRx_netdev (c := c) d
    exact hkeep (by simp) hlink hstopped (by simp [waking])
  | txDone d' skb =>
    refine hkeep id ?_ ?_ (by simp [waking])
    · rw [lddTxDone_netdev]
      exact mapNetdev_keeps NetDevice.link (by intro n; rfl) d
    · rw [lddTxDone_netdev]
      exact mapNetdev_keeps NetDevice.txStopped (by intro n; rfl) d
  | startQueue d' =>
    have hd : d ≠ d' := by
      rintro rfl
      simp at hstop
    exact hkeep id (by simp [Function.update_of_ne hd]) (by simp [Function.update_of_ne hd])
      (by simp [waking])
  | drainNone d' hr =>
    have hd : d ≠ d' := by
      rintro rfl
      simp at hup
    exact hkeep id (by simp [Function.update_of_ne hd]) (by simp [Function.update_of_ne hd])
      (by simp [waking])
  | _ => exact hkeep id rfl rfl (by simp [waking])

/-- A call that starts leaves the queue as it was or takes the link out of up. -/
theorem WakeInv.start {t : Sys Lists} {e : Event} (h : Start cfg t e c a)
    (hi : WakeInv t.core t.pending) : WakeInv c (a ::ₘ t.pending) := by
  intro d hup hstop
  have hchange : ∀ (d' : Dev) (f : NetDevice → NetDevice), (∀ n, (f n).link = .changing) →
      ((t.core.mapNetdev d' f).shared.netdev d).link = .up →
      (t.core.mapNetdev d' f).shared.netdev d = t.core.shared.netdev d := by
    intro d' f hf hup
    by_cases hd : d = d'
    · subst hd
      simp [hf] at hup
    · simp [Function.update_of_ne hd]
  have hn : c.shared.netdev d = t.core.shared.netdev d := by
    cases h with
    | openNapi d' | openRegular d' | stop d' => exact hchange d' _ (fun _ => rfl) hup
    | _ => rfl
  rw [h.bufs, cnt_cons]
  exact (hi d (hn ▸ hup) (hn ▸ hstop)).imp_right fun h => h.trans_le (Nat.le_add_left _ _)

theorem WakeInv.step {t t' : Sys Lists} {e : Event} (h : Step listOps cfg t e t')
    (hi : WakeInv t.core t.pending) : WakeInv t'.core t'.pending := by
  rcases step_cases h with ⟨a, hstart, hp⟩ | ⟨a, rest, pushed, hp, hact, hp', -⟩
  · rw [hp]
    exact hi.start hstart
  · rw [hp']
    exact WakeInv.act hact (hp ▸ hi)

private theorem waking_mem {d : Dev} (h : 0 < cnt (waking d) m) : .wakeQueue d ∈ m := by
  obtain ⟨a, ha, hw⟩ := cnt_pos.mp h
  cases a <;> simp only [waking, Bool.false_eq_true] at hw
  exact beq_iff_eq.mp hw ▸ ha

/-- A pool that was empty is refilled by a release that goes on to wake the queue. -/
private theorem act_refill (h : Act cfg c a c' pushed) {d : Dev} (hp : c.bufs.pool d = [])
    (hp' : c'.bufs.pool d ≠ []) : .wakeQueue d ∈ pushed := by
  cases h with
  | takeLast d' skb pkt hl =>
    by_cases hd : d = d'
    · subst hd
      simp at hp'
    · simp [Function.update_of_ne hd, hp] at hp'
  | take d' skb pkt l hl =>
    by_cases hd : d = d'
    · subst hd
      simp [hp] at hl
    · simp [Function.update_of_ne hd, hp] at hp'
  | release pkt hl =>
    by_cases hd : d = (c.shared.packet pkt).dev
    · subst hd
      exact absurd hp hl
    · simp [Function.update_of_ne hd, hp] at hp'
  | releaseFirst pkt hl =>
    by_cases hd : d = (c.shared.packet pkt).dev
    · subst hd
      exact List.mem_singleton.mpr rfl
    · simp [Function.update_of_ne hd, hp] at hp'
  | rxRegular d' pkt memory => simp [hp] at hp'
  | rxNapi d' pkt budget done memory => simp [hp] at hp'
  | _ => exact absurd hp hp'

private theorem step_refill {t t' : Sys Lists} {e : Event} (h : Step listOps cfg t e t') {d : Dev}
    (hp : t.core.bufs.pool d = []) (hp' : t'.core.bufs.pool d ≠ []) : .wakeQueue d ∈ t'.pending := by
  rcases step_cases h with ⟨a, hstart, -⟩ | ⟨a, rest, pushed, -, hact, hpend, -⟩
  · exact absurd hp (hstart.bufs ▸ hp')
  · rw [hpend]
    exact Multiset.mem_add.mpr (.inl (act_refill hact hp hp'))

private theorem outstanding {s : Sys Links} {b : Lists} (h : Placed cfg s b) {d : Dev}
    (hp : b.pool d = []) : ∃ pkt ∈ pktArr cfg d,
      pkt ∈ b.rx (lddPeer d) ∨ ∃ a ∈ s.pending, hand a = some pkt := by
  have hfirst : (⟨d, 0⟩ : PktRef) ∈ pktArr cfg d := mem_pktArr.mpr ⟨rfl, cfg.pool_pos⟩
  refine ⟨_, hfirst, ?_⟩
  have hone := h.once d _ hfirst
  rw [hp, List.count_nil, Nat.zero_add] at hone
  by_cases hrx : (⟨d, 0⟩ : PktRef) ∈ b.rx (lddPeer d)
  · exact .inl hrx
  · right
    rw [List.count_eq_zero_of_not_mem hrx, Nat.zero_add] at hone
    obtain ⟨a, ha, hhand⟩ := cnt_pos.mp (Nat.lt_of_lt_of_eq Nat.zero_lt_one hone.symm)
    exact ⟨a, ha, of_decide_eq_true hhand⟩

end

/-- While a device is up: a queue that is stopped is about to be woken, or its pool is
empty; then a buffer is outstanding, and the step that refills the pool leaves the wake
to be called. -/
theorem stopped_queue_is_woken (cfg : Params) (es : List Event) (s : Sys Links)
    (h : Steps (NetStep cfg) (netInit cfg) es s) (d : Dev)
    (hup : (s.core.shared.netdev d).link = .up)
    (hstop : (s.core.shared.netdev d).txStopped = true) :
    .wakeQueue d ∈ s.pending ∨
      s.core.bufs.pool d = none ∧
      (∃ b, Placed cfg s b ∧ ∃ pkt ∈ pktArr cfg d,
        pkt ∈ b.rx (lddPeer d) ∨ ∃ a ∈ s.pending, hand a = some pkt) ∧
      ∀ e s', NetStep cfg s e s' → s'.core.bufs.pool d ≠ none → .wakeQueue d ∈ s'.pending := by
  obtain ⟨t, ht, hr⟩ := netdev_refines h
  have hi : WakeInv t.core t.pending :=
    ht.invariant (fun t _ _ (hi : WakeInv t.core t.pending) hs => hi.step hs)
      (fun _ hup => nomatch hup)
  rcases hi d (hr.shared ▸ hup) (hr.shared ▸ hstop) with hpool | hwake
  · right
    refine ⟨?_, ⟨_, hr.placed, outstanding hr.placed hpool⟩, ?_⟩
    · rw [(hr.rep.pool d).head_eq, hpool, List.head?_nil]
    · intro e s' hs hp'
      obtain ⟨t', ht', hr'⟩ := hr.step hs
      rw [hr'.pending]
      refine step_refill ht' hpool ?_
      intro hnil
      rw [(hr'.rep.pool d).head_eq, hnil] at hp'
      exact hp' rfl
  · left
    rw [hr.pending]
    exact waking_mem hwake

/-- sn0 is up and has given its only buffer to a frame; sn1 is about to hand it back. -/
theorem stopped_queue_is_woken_last_buffer :
    ∃ s, Steps (NetStep (oneBuffer false)) (netInit (oneBuffer false))
        ([.open .sn0, .run 0 true, .run 0 true, .startXmit .sn0 ethPIp (List.replicate 34 0)] ++
          List.replicate 2 (.run 1 true)) s ∧
      (.wakeQueue .sn0 ∈ s.pending ∨
        s.core.bufs.pool .sn0 = none ∧
        (∃ b, Placed (oneBuffer false) s b ∧ ∃ pkt ∈ pktArr (oneBuffer false) .sn0,
          pkt ∈ b.rx (lddPeer .sn0) ∨ ∃ a ∈ s.pending, hand a = some pkt) ∧
        ∀ e s', NetStep (oneBuffer false) s e s' → s'.core.bufs.pool .sn0 ≠ none →
          .wakeQueue .sn0 ∈ s'.pending) := by
  have hexec : (Lib.Transition.exec (next linkOps (oneBuffer false)) (netInit (oneBuffer false))
      ([.open .sn0, .run 0 true, .run 0 true, .startXmit .sn0 ethPIp (List.replicate 34 0)] ++
        List.replicate 2 (.run 1 true))).map
      (fun s => ((s.core.shared.netdev .sn0).link, (s.core.shared.netdev .sn0).txStopped)) =
      some (.up, true) := by
    decide +kernel
  obtain ⟨s, hs, hd⟩ := Option.map_eq_some_iff.mp hexec
  have hrun : Steps (NetStep (oneBuffer false)) _ _ s := exec_steps hs
  exact ⟨s, hrun, stopped_queue_is_woken _ _ s hrun .sn0 (congrArg Prod.fst hd)
    (congrArg Prod.snd hd)⟩

end LinuxDeviceDriver.Drivers.Netdev.TxQueue
