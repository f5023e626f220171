/- source: examples/30_netdev/main.c, lines 37 to 110 and 427 to 432
   digest: The pools and receive queues as lists, and how the driver's pointers hold them. -/

import LinuxDeviceDriver.Drivers.Netdev.Model
import LinuxDeviceDriver.Lib.LinkedList

set_option autoImplicit false

namespace LinuxDeviceDriver.Drivers.Netdev.Buffers

open Lib.LinkedList
open Model

/-- What the pointers stand for. -/
structure Lists where
  pool : Dev → List PktRef
  rx : Dev → List PktRef := fun _ => []

def Lists.takePool (b : Lists) (d : Dev) : Option PktRef × Lists :=
  match b.pool d with
  | [] => (none, b)
  | pkt :: l => (some pkt, { b with pool := Function.update b.pool d l })

def Lists.putPool (b : Lists) (d : Dev) (pkt : PktRef) : Lists :=
  { b with pool := Function.update b.pool d (pkt :: b.pool d) }

def Lists.rxEnqueue (b : Lists) (d : Dev) (pkt : PktRef) : Lists :=
  { b with rx := Function.update b.rx d (b.rx d ++ [pkt]) }

def Lists.rxDequeue (b : Lists) (d : Dev) : Option PktRef × Lists :=
  match b.rx d with
  | [] => (none, b)
  | pkt :: l => (some pkt, { b with rx := Function.update b.rx d l })

def listOps : BufOps Lists where
  poolEmpty b d := (b.pool d).isEmpty
  takePool := Lists.takePool
  putPool := Lists.putPool
  rxWaiting b d := !(b.rx d).isEmpty
  rxEnqueue := Lists.rxEnqueue
  rxDequeue := Lists.rxDequeue

/-! ## Every buffer that is in a list -/

def Lists.all (b : Lists) : Multiset PktRef :=
  (b.pool .sn0 : Multiset PktRef) + b.pool .sn1 + b.rx .sn0 + b.rx .sn1

section Ops

variable {b b' : Lists} {d : Dev} {pkt : PktRef}

theorem takePool_cases (b : Lists) (d : Dev) :
    (b.pool d = [] ∧ b.takePool d = (none, b)) ∨
      ∃ pkt l, b.pool d = pkt :: l ∧
        b.takePool d = (some pkt, { b with pool := Function.update b.pool d l }) := by
  unfold Lists.takePool
  cases h : b.pool d with
  | nil => exact .inl ⟨rfl, rfl⟩
  | cons pkt l => exact .inr ⟨pkt, l, rfl, rfl⟩

theorem rxDequeue_cases (b : Lists) (d : Dev) :
    (b.rx d = [] ∧ b.rxDequeue d = (none, b)) ∨
      ∃ pkt l, b.rx d = pkt :: l ∧
        b.rxDequeue d = (some pkt, { b with rx := Function.update b.rx d l }) := by
  unfold Lists.rxDequeue
  cases h : b.rx d with
  | nil => exact .inl ⟨rfl, rfl⟩
  | cons pkt l => exact .inr ⟨pkt, l, rfl, rfl⟩

theorem all_pool_cons {l : List PktRef} (h : b.pool d = pkt :: l) :
    b.all = pkt ::ₘ Lists.all { b with pool := Function.update b.pool d l } := by
  cases d <;> simp [Lists.all, h, ← Multiset.cons_coe]

theorem all_rx_cons {l : List PktRef} (h : b.rx d = pkt :: l) :
    b.all = pkt ::ₘ Lists.all { b with rx := Function.update b.rx d l } := by
  cases d <;> simp [Lists.all, h, ← Multiset.cons_coe]

theorem all_putPool : (b.putPool d pkt).all = pkt ::ₘ b.all := by
  cases d <;> simp [Lists.all, Lists.putPool, ← Multiset.cons_coe]

theorem all_rxEnqueue : (b.rxEnqueue d pkt).all = pkt ::ₘ b.all := by
  have hsnoc : ∀ l : List PktRef, ((l ++ [pkt] : List PktRef) : Multiset PktRef) = pkt ::ₘ l := by
    intro l
    rw [Multiset.cons_coe, Multiset.coe_eq_coe]
    exact List.perm_append_singleton pkt l
  cases d
  · simp only [Lists.all, Lists.rxEnqueue, Function.update_self, hsnoc,
      Function.update_of_ne (show Dev.sn1 ≠ .sn0 by decide), Multiset.add_cons, Multiset.cons_add]
  · simp only [Lists.all, Lists.rxEnqueue, Function.update_self, hsnoc,
      Function.update_of_ne (show Dev.sn0 ≠ .sn1 by decide), Multiset.add_cons]

theorem mem_all : pkt ∈ b.all ↔ ∃ d, pkt ∈ b.pool d ∨ pkt ∈ b.rx d := by
  constructor
  · intro h
    simp only [Lists.all, Multiset.mem_add, Multiset.mem_coe] at h
    rcases h with ((h | h) | h) | h
    · exact ⟨_, .inl h⟩
    · exact ⟨_, .inl h⟩
    · exact ⟨_, .inr h⟩
    · exact ⟨_, .inr h⟩
  · rintro ⟨d, h⟩
    simp only [Lists.all, Multiset.mem_add, Multiset.mem_coe]
    cases d <;> tauto

end Ops

/-- Each buffer is in at most one list, a pool holds the device's own buffers, a
receive queue those of the twin. -/
structure Lists.Sound (b : Lists) : Prop where
  nodup : b.all.Nodup
  pool_own : ∀ d, ∀ pkt ∈ b.pool d, pkt.arr = d
  rx_peer : ∀ d, ∀ pkt ∈ b.rx d, pkt.arr = lddPeer d

section Sound

variable {b : Lists} {d d' : Dev} {pkt : PktRef}

theorem Lists.Sound.nodup_rx (h : b.Sound) (d : Dev) : (b.rx d).Nodup := by
  have hn := h.nodup
  simp only [Lists.all, Multiset.coe_add, Multiset.coe_nodup, List.nodup_append] at hn
  cases d
  · exact hn.1.2.1
  · exact hn.2.1

theorem Lists.Sound.nodup_pool (h : b.Sound) (d : Dev) : (b.pool d).Nodup := by
  have hn := h.nodup
  simp only [Lists.all, Multiset.coe_add, Multiset.coe_nodup, List.nodup_append] at hn
  cases d
  · exact hn.1.1.1
  · exact hn.1.1.2.1

theorem Lists.Sound.pool_rx (h : b.Sound) (hr : pkt ∈ b.rx d) : pkt ∉ b.pool d' := by
  intro hp
  have hn := h.nodup
  simp only [Lists.all, Multiset.coe_add, Multiset.coe_nodup, List.nodup_append] at hn
  cases d
  · exact hn.1.2.2 pkt (by cases d' <;> simp [hp]) pkt hr rfl
  · exact hn.2.2 pkt (by cases d' <;> simp [hp]) pkt hr rfl

theorem lddPeer_injective : Function.Injective lddPeer := by
  intro d d' h
  cases d <;> cases d' <;> first | rfl | cases h

@[simp] theorem lddPeer_lddPeer (d : Dev) : lddPeer (lddPeer d) = d := by cases d <;> rfl

@[simp] theorem lddPeer_ne (d : Dev) : lddPeer d ≠ d := by cases d <;> decide

theorem Lists.Sound.rx_rx (h : b.Sound) (hr : pkt ∈ b.rx d) (hr' : pkt ∈ b.rx d') : d = d' :=
  lddPeer_injective ((h.rx_peer d pkt hr).symm.trans (h.rx_peer d' pkt hr'))

end Sound

/-! ## The pointers hold the lists -/

structure Rep (p : Links) (b : Lists) : Prop where
  pool : ∀ d, Chain p.next (p.pool d) (b.pool d)
  rx : ∀ d, Chain p.next (p.rxHead d) (b.rx d)
  tail : ∀ d, p.rxTail d = (b.rx d).getLast?

section Rep

variable {p : Links} {b : Lists} {d : Dev} {pkt : PktRef}

theorem Rep.poolEmpty (h : Rep p b) (d : Dev) : linkOps.poolEmpty p d = listOps.poolEmpty b d := by
  show (p.pool d).isNone = (b.pool d).isEmpty
  rw [(h.pool d).head_eq]
  cases b.pool d <;> rfl

theorem Rep.rxWaiting (h : Rep p b) (d : Dev) : linkOps.rxWaiting p d = listOps.rxWaiting b d := by
  show (p.rxHead d).isSome = !(b.rx d).isEmpty
  rw [(h.rx d).head_eq]
  cases b.rx d <;> rfl

theorem Rep.takePool (h : Rep p b) (d : Dev) :
    (p.takePool d).1 = (b.takePool d).1 ∧ Rep (p.takePool d).2 (b.takePool d).2 := by
  have hc := h.pool d
  unfold Links.takePool
  rcases takePool_cases b d with ⟨hb, ht⟩ | ⟨pkt, l, hb, ht⟩
  · rw [hb, chain_nil] at hc
    rw [ht, hc]
    exact ⟨rfl, h⟩
  · rw [hb, chain_cons] at hc
    rw [ht, hc.1]
    refine ⟨rfl, ?_, h.rx, h.tail⟩
    intro d'
    by_cases hd : d' = d
    · subst hd
      simpa using hc.2
    · simpa [Function.update_of_ne hd] using h.pool d'

theorem Rep.rxDequeue (h : Rep p b) (d : Dev) :
    (p.rxDequeue d).1 = (b.rxDequeue d).1 ∧ Rep (p.rxDequeue d).2 (b.rxDequeue d).2 := by
  have hc := h.rx d
  unfold Links.rxDequeue
  rcases rxDequeue_cases b d with ⟨hb, ht⟩ | ⟨pkt, l, hb, ht⟩
  · rw [hb, chain_nil] at hc
    rw [ht, hc]
    exact ⟨rfl, h⟩
  · rw [hb, chain_cons] at hc
    rw [ht, hc.1]
    refine ⟨rfl, h.pool, ?_, ?_⟩
    · intro d'
      by_cases hd : d' = d
      · subst hd
        simpa using hc.2
      · simpa [Function.update_of_ne hd] using h.rx d'
    · -- the tail is reset exactly when the last frame was taken
      intro d'
      have ht' := h.tail d'
      have hnone : p.next pkt = none ↔ l = [] := by
        rw [hc.2.head_eq]
        cases l <;> simp
      by_cases hd : d' = d
      · subst hd
        rw [hb] at ht'
        by_cases hl : l = []
        · subst hl
          simp [hnone.mpr rfl]
        · obtain ⟨q, l, rfl⟩ := List.exists_cons_of_ne_nil hl
          simpa [mt hnone.mp hl, List.getLast?_cons_cons] using ht'
      · by_cases hl : p.next pkt = none
        · simpa [hl, Function.update_of_ne hd] using ht'
        · simpa [hl, Function.update_of_ne hd] using ht'

theorem Rep.putPool (h : Rep p b) (d : Dev) (hp : pkt ∉ b.all) :
    Rep (p.putPool d pkt) (b.putPool d pkt) := by
  have hpool : ∀ d, pkt ∉ b.pool d := fun d hm => hp (mem_all.mpr ⟨d, .inl hm⟩)
  have hrx : ∀ d, pkt ∉ b.rx d := fun d hm => hp (mem_all.mpr ⟨d, .inr hm⟩)
  refine ⟨?_, fun d' => (h.rx d').frame (hrx d') _, h.tail⟩
  intro d'
  by_cases hd : d' = d
  · subst hd
    simpa [Links.putPool, Lists.putPool] using (h.pool d').push (hpool d')
  · simpa [Links.putPool, Lists.putPool, Function.update_of_ne hd] using
      (h.pool d').frame (hpool d') _

theorem Rep.rxEnqueue (h : Rep p b) (hb : b.Sound) (d : Dev) (hp : pkt ∉ b.all) :
    Rep (p.rxEnqueue d pkt) (b.rxEnqueue d pkt) := by
  have hpool : ∀ d, Chain (Function.update p.next pkt none) (p.pool d) (b.pool d) := fun d =>
    (h.pool d).frame (fun hm => hp (mem_all.mpr ⟨d, .inl hm⟩)) _
  have hnot : ∀ d, pkt ∉ b.rx d := fun d hm => hp (mem_all.mpr ⟨d, .inr hm⟩)
  have hrx : ∀ d, Chain (Function.update p.next pkt none) (p.rxHead d) (b.rx d) := fun d =>
    (h.rx d).frame (hnot d) _
  have htail := h.tail d
  unfold Links.rxEnqueue
  cases ht : p.rxTail d with
  | none =>
    have hempty : b.rx d = [] := List.getLast?_eq_none_iff.mp (htail.symm.trans ht)
    refine ⟨hpool, ?_, ?_⟩
    · intro d'
      by_cases hd : d' = d
      · subst hd
        simp [Lists.rxEnqueue, hempty]
      · simpa [Lists.rxEnqueue, Function.update_of_ne hd] using hrx d'
    · intro d'
      by_cases hd : d' = d
      · subst hd
        simp [Lists.rxEnqueue]
      · simpa [Lists.rxEnqueue, Function.update_of_ne hd] using h.tail d'
  | some t =>
    have hlast : (b.rx d).getLast? = some t := htail.symm.trans ht
    have hmem : t ∈ b.rx d := List.mem_of_getLast? hlast
    refine ⟨fun d' => (hpool d').frame (hb.pool_rx hmem) _, ?_, ?_⟩
    · intro d'
      by_cases hd : d' = d
      · subst hd
        simpa [Lists.rxEnqueue] using
          (hrx d').append (hb.nodup_rx d') (hnot d') (Function.update_self _ _ _) hlast
      · have hother : t ∉ b.rx d' := fun hm => hd (hb.rx_rx hm hmem)
        simpa [Lists.rxEnqueue, Function.update_of_ne hd] using (hrx d').frame hother _
    · intro d'
      by_cases hd : d' = d
      · subst hd
        simp [Lists.rxEnqueue]
      · simpa [Lists.rxEnqueue, Function.update_of_ne hd] using h.tail d'

end Rep

/-! ## Right after m_init -/

def listInit (cfg : Params) : Lists := { pool := pktArr cfg }

/-- The pointers of ldd_create chain the buffers from any index to the last. -/
private theorem create_chain (cfg : Params) (d : Dev) (k n : Nat) (h : k + n = cfg.poolSize) :
    Chain (lddCreate cfg).next (if k < cfg.poolSize then some ⟨d, k⟩ else none)
      ((List.range' k n).map (PktRef.mk d)) := by
  induction n generalizing k with
  | zero =>
    have hk : ¬ k < cfg.poolSize := by omega
    simp [hk]
  | succ n ih =>
    have hk : k < cfg.poolSize := by omega
    rw [List.range'_succ, List.map_cons, if_pos hk]
    exact ⟨rfl, ih (k + 1) (by omega)⟩

theorem create_rep (cfg : Params) : Rep (lddCreate cfg) (listInit cfg) := by
  refine ⟨?_, fun _ => rfl, fun _ => rfl⟩
  intro d
  have h := create_chain cfg d 0 cfg.poolSize (by omega)
  rw [if_pos (Nat.lt_of_lt_of_le Nat.zero_lt_one cfg.pool_pos)] at h
  show Chain (lddCreate cfg).next (some ⟨d, 0⟩) ((List.range cfg.poolSize).map (PktRef.mk d))
  rwa [List.range_eq_range']

end LinuxDeviceDriver.Drivers.Netdev.Buffers
