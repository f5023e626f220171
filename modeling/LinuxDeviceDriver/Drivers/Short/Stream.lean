/- source: examples/15_short_ioport/main.c, lines 40 to 96; examples/16_short_port_remap/main.c,
     lines 42 to 98; examples/17_short_mmio/main.c, lines 71 to 127
   digest: What concurrent readers of the data node return, in the order in which they took
     the lock, is what the host sent. -/

import LinuxDeviceDriver.Drivers.Short.Taking
import LinuxDeviceDriver.Lib.Transition

set_option autoImplicit false

namespace LinuxDeviceDriver.Drivers.Short.Stream

open Lib.LittleEndian (Byte)
open Lib.Mutex (Locked)
open Lib.Threads
open Lib.Transition (Steps Guarded exec_guarded_steps)
open Qemu.Io.Device
open Registers DataNode
open Taking (Enters)

/-- What the turns took from the device, in the order in which the lock was taken. -/
def takes (c : Core) : List (List Byte) := c.turns.map Turn.took

/-- What the calls returned to their callers, in the same order. -/
def returned (c : Core) : List Byte := c.turns.flatMap fun t => t.ret.getD []

/-! ## What the lock protects -/

/-- With nobody at the device, only the byte in the buffer has not been taken. -/
def Free (c : Core) : Prop := (takes c).flatten ++ buffered c.dev = received c.dev.trace

/-- The turn is the last one and has nothing on record yet; these are the bytes that came in
after those of the turns before it. -/
def Filling (c : Core) (turn : Nat) (bytes : List Byte) : Prop :=
  ∃ before, takes c = before ++ [[]] ∧ turn = before.length ∧
    before.flatten ++ bytes = received c.dev.trace

/-- What the holder of the lock knows. A byte that is read and not yet acknowledged is in the
call's own buffer and in the device's. -/
def Holds (c : Core) : Act → Prop
  | .status _ turn kbuf | .unlock _ turn kbuf => Filling c turn (kbuf ++ buffered c.dev)
  | .data _ turn kbuf => c.dev.rxReady = true ∧ Filling c turn (kbuf ++ buffered c.dev)
  | .ack _ turn kbuf => c.dev.rxReady = true ∧ Filling c turn kbuf
  | .leds _ _ _ => Free c
  | _ => True

/-- Outside loopback, what comes in comes from the keyboard. -/
theorem enters_received :
    Enters (fun s => s.loopback = false) (fun s => received s.trace) where
  ack host hplain hready := (ack_received hready hplain _ rfl).1
  data v hplain := by
    refine ⟨[], ?_, ?_⟩
    · rw [leds_eq hplain, List.append_nil]
    · rw [leds_eq hplain, List.append_nil]
      rfl
  receive _ _ := received_keyboardReceive

/-! ## What the calls return -/

/-- The action copies the bytes of this turn to the user. -/
def copies (turn : Nat) (a : Act) : Bool := copyOf a == some turn

/-- What a turn took is returned once: the copy to the user is still to be made, by one
action, or it has been made. -/
structure Copies (turns : List Turn) (m : Multiset Act) : Prop where
  ret : ∀ (k : Nat) (t : Turn) (bytes : List Byte), turns[k]? = some t → t.ret = some bytes →
    t.took = bytes ∧ bytes ≠ []
  owed : ∀ (k : Nat) (t : Turn), turns[k]? = some t →
    cnt (copies k) m = (!t.took.isEmpty && t.ret.isNone).toNat
  carried : ∀ r k kbuf, .copyToUser r k kbuf ∈ m →
    ∃ t : Turn, turns[k]? = some t ∧ t.took = kbuf

namespace Copies

variable {turns : List Turn} {a : Act} {pushed rest : Multiset Act} {turn k : Nat} {t : Turn}
  {kbuf : List Byte}

private theorem copies_none (ha : copyOf a = none) : copies k a = false := by
  rw [copies, ha]
  rfl

theorem add (h : Copies turns rest) (hpushed : ∀ b ∈ pushed, copyOf b = none) :
    Copies turns (pushed + rest) where
  ret := h.ret
  owed k t ht := by
    have hzero : cnt (copies k) pushed = 0 :=
      cnt_eq_zero.mpr fun b hb => copies_none (hpushed b hb)
    rw [cnt_add, hzero, h.owed k t ht, Nat.zero_add]
  carried r k kbuf hb := by
    rcases Multiset.mem_add.mp hb with hb | hb
    · cases hpushed _ hb
    · exact h.carried r k kbuf hb

theorem drop (h : Copies turns (a ::ₘ rest)) (ha : copyOf a = none) : Copies turns rest where
  ret := h.ret
  owed k t ht := by
    have howed := h.owed k t ht
    rwa [cnt_cons, copies_none ha, Bool.toNat_false, Nat.zero_add] at howed
  carried r k kbuf hb := h.carried r k kbuf (Multiset.mem_cons_of_mem hb)

/-- No copy is to be made for a turn that has not been had. -/
theorem none_to_come (h : Copies turns rest) (hk : turns.length ≤ k) :
    cnt (copies k) rest = 0 := by
  rw [cnt_eq_zero]
  intro b hb
  cases b with
  | copyToUser r k' kbuf =>
    obtain ⟨t, ht, -⟩ := h.carried r k' kbuf hb
    have hlt := (List.getElem?_eq_some_iff.mp ht).1
    exact beq_eq_false_iff_ne.mpr fun he => by
      have := Option.some.inj he
      omega
  | lock | status | data | ack | unlock | poll | signalPending | memdupUser | lockWrite | leds =>
    rfl

theorem newTurn (h : Copies turns rest) (id : Nat) : Copies (turns ++ [{ call := id }]) rest := by
  have hcases : ∀ (k : Nat) (t : Turn), (turns ++ [{ call := id }])[k]? = some t →
      turns[k]? = some t ∨ k = turns.length ∧ t = { call := id } := by
    intro k t ht
    rcases Nat.lt_trichotomy k turns.length with hk | rfl | hk
    · exact .inl (by rwa [List.getElem?_append_left hk] at ht)
    · exact .inr ⟨rfl, by simpa using ht.symm⟩
    · rw [List.getElem?_eq_none (by simp; omega)] at ht
      cases ht
  refine ⟨?_, ?_, ?_⟩
  · intro k t bytes ht hret
    rcases hcases k t ht with ht | ⟨-, rfl⟩
    · exact h.ret k t bytes ht hret
    · cases hret
  · intro k t ht
    rcases hcases k t ht with ht | ⟨rfl, rfl⟩
    · exact h.owed k t ht
    · exact h.none_to_come (Nat.le_refl _)
  · intro r k kbuf hb
    obtain ⟨t, ht, htook⟩ := h.carried r k kbuf hb
    have hlt := (List.getElem?_eq_some_iff.mp ht).1
    exact ⟨t, by rwa [List.getElem?_append_left hlt], htook⟩

private theorem not_mem_of_cnt {r : Reader} {bytes : List Byte} (h : cnt (copies turn) rest = 0) :
    Act.copyToUser r turn bytes ∉ rest := by
  intro hb
  have hfalse : copies turn (.copyToUser r turn bytes) = false := cnt_eq_zero.mp h _ hb
  rw [copies, copyOf, beq_self_eq_true] at hfalse
  cases hfalse

/-- One turn is updated, with the copies of the others as they were. -/
theorem modify {m m' : Multiset Act} {f : Turn → Turn} (h : Copies turns m)
    (ht : turns[turn]? = some t)
    (hret : ∀ bytes, (f t).ret = some bytes → (f t).took = bytes ∧ bytes ≠ [])
    (howed : cnt (copies turn) m' = (!(f t).took.isEmpty && (f t).ret.isNone).toNat)
    (hcarried : ∀ r bytes, .copyToUser r turn bytes ∈ m' → (f t).took = bytes)
    (hcount : ∀ k, turn ≠ k → cnt (copies k) m' = cnt (copies k) m)
    (hmem : ∀ r k bytes, turn ≠ k → .copyToUser r k bytes ∈ m' → .copyToUser r k bytes ∈ m) :
    Copies (turns.modify turn f) m' := by
  have hself : (turns.modify turn f)[turn]? = some (f t) := by
    rw [List.getElem?_modify_eq, ht]
    rfl
  have hother : ∀ k, turn ≠ k → (turns.modify turn f)[k]? = turns[k]? :=
    fun k hk => List.getElem?_modify_ne _ _ hk
  refine ⟨?_, ?_, ?_⟩
  · intro k t' bytes ht' hr
    by_cases hk : turn = k
    · subst hk
      obtain rfl := Option.some.inj (hself.symm.trans ht')
      exact hret bytes hr
    · exact h.ret k t' bytes (hother k hk ▸ ht') hr
  · intro k t' ht'
    by_cases hk : turn = k
    · subst hk
      obtain rfl := Option.some.inj (hself.symm.trans ht')
      exact howed
    · rw [hcount k hk]
      exact h.owed k t' (hother k hk ▸ ht')
  · intro r k bytes hb
    by_cases hk : turn = k
    · subst hk
      exact ⟨f t, hself, hcarried r bytes hb⟩
    · obtain ⟨t', ht', htook⟩ := h.carried r k bytes (hmem r k bytes hk hb)
      exact ⟨t', (hother k hk).trans ht', htook⟩

/-- A reader gives the lock back. If it took something, it copies that next. -/
theorem take (h : Copies turns rest) (ht : turns[turn]? = some t) (htook : t.took = [])
    (hcount : ∀ k, cnt (copies k) pushed = (turn == k && !kbuf.isEmpty).toNat)
    (hcarry : ∀ r k bytes, .copyToUser r k bytes ∈ pushed → k = turn ∧ bytes = kbuf) :
    Copies (turns.modify turn fun t => { t with took := kbuf }) (pushed + rest) := by
  have hret : t.ret = none := by
    cases hr : t.ret with
    | none => rfl
    | some bytes =>
      obtain ⟨heq, hne⟩ := h.ret turn t bytes ht hr
      exact absurd (heq.symm.trans htook) hne
  have hnone : cnt (copies turn) rest = 0 := by
    rw [h.owed turn t ht, htook]
    rfl
  refine h.modify ht ?_ ?_ ?_ ?_ ?_
  · intro bytes hr
    cases hret.symm.trans hr
  · rw [cnt_add, hcount, hnone]
    simp [hret]
  · intro r bytes hb
    rcases Multiset.mem_add.mp hb with hb | hb
    · exact (hcarry r turn bytes hb).2.symm
    · exact absurd hb (not_mem_of_cnt hnone)
  · intro k hk
    rw [cnt_add, hcount, beq_eq_false_iff_ne.mpr hk, Bool.false_and, Bool.toNat_false, Nat.zero_add]
  · intro r k bytes hk hb
    rcases Multiset.mem_add.mp hb with hb | hb
    · exact absurd (hcarry r k bytes hb).1.symm hk
    · exact hb

theorem deliver {r : Reader} (h : Copies turns (.copyToUser r turn kbuf ::ₘ rest)) :
    Copies (turns.modify turn fun t => { t with ret := some kbuf }) rest := by
  obtain ⟨t, ht, htook⟩ := h.carried r turn kbuf (Multiset.mem_cons_self _ _)
  have howed := h.owed turn t ht
  have hone : copies turn (.copyToUser r turn kbuf) = true := beq_self_eq_true _
  rw [cnt_cons, hone, Bool.toNat_true] at howed
  have hle := Bool.toNat_le (!t.took.isEmpty && t.ret.isNone)
  have hnone : cnt (copies turn) rest = 0 := by omega
  have hne : kbuf ≠ [] := by
    rintro rfl
    rw [htook] at howed
    simp at howed
  refine h.modify ht ?_ ?_ ?_ ?_ ?_
  · intro bytes hr
    obtain rfl := Option.some.inj hr
    exact ⟨htook, hne⟩
  · rw [hnone]
    simp
  · intro r' bytes hb
    exact absurd hb (not_mem_of_cnt hnone)
  · intro k hk
    have hskip : copies k (.copyToUser r turn kbuf) = false :=
      beq_eq_false_iff_ne.mpr fun he => hk (Option.some.inj he)
    rw [cnt_cons, hskip, Bool.toNat_false, Nat.zero_add]
  · intro r' k bytes _ hb
    exact Multiset.mem_cons_of_mem hb

end Copies

/-! ## The whole node -/

structure Inv (c : Core) (m : Multiset Act) : Prop where
  plain : c.dev.loopback = false
  sent : received c.dev.trace <+: c.sent
  lock : Locked inside Core.locked Free Holds c m
  copies : Copies c.turns m

/-- The lock protects the bytes that the keyboard has delivered. -/
theorem Inv.taking {c : Core} {m : Multiset Act} (h : Inv c m) :
    Locked inside Core.locked (Taking.Free fun s => received s.trace)
      (Taking.Holds fun s => received s.trace) c m := h.lock

section Inv

variable {o : Choice} {c c' : Core} {a : Act} {pushed : List Act} {rest : Multiset Act}

/-- What has come in, and then what waits, is what was sent. -/
theorem received_waiting (h : received c.dev.trace <+: c.sent) :
    received c.dev.trace ++ c.waiting = c.sent := by
  obtain ⟨more, hmore⟩ := h
  rw [Core.waiting, ← hmore, List.drop_left]

/-- LOOPBACK stays off, and only what was sent comes in. -/
theorem dev_does (h : Inv c (a ::ₘ rest)) (hd : Does c o a c' pushed) :
    c'.dev.loopback = false ∧ received c'.dev.trace <+: c'.sent := by
  have hheld := h.lock.held a (Multiset.mem_cons_self a rest)
  cases hd with
  | ack _ r turn kbuf host hhost =>
    obtain ⟨hrec, hbuf, hplain⟩ := ack_received (hheld rfl).1 h.plain _
      (rfl : iowrite8 c.dev _ _ host = _)
    refine ⟨hplain, ?_⟩
    have hwait : host <+: c.waiting := by
      rcases hhost with rfl | rfl
      · exact List.nil_prefix
      · exact List.prefix_refl _
    show received _ <+: c.sent
    rw [hrec, ← received_waiting h.sent]
    exact (List.prefix_append_right_inj _).mpr (hbuf.trans hwait)
  | led id count byte rest =>
    rw [leds_eq h.plain]
    exact ⟨h.plain, h.sent⟩
  | lock | take | full | data | unlock | unlockAgain | unlockPoll | goOn | copy | fault | fail
  | lockWrite | unlockWrite => exact ⟨h.plain, h.sent⟩

/-- The turn of a reader in the lock has nothing on record. -/
private theorem filling_turn {turn : Nat} {bytes : List Byte} (h : Filling c turn bytes) :
    ∃ t, c.turns[turn]? = some t ∧ t.took = [] := by
  obtain ⟨before, htakes, rfl, -⟩ := h
  have hlast : (takes c)[before.length]? = some [] := by
    rw [htakes]
    simp
  rw [takes, List.getElem?_map] at hlast
  exact Option.map_eq_some_iff.mp hlast

theorem copies_does (h : Inv c (a ::ₘ rest)) (hd : Does c o a c' pushed) (ho : o ≠ .fault) :
    Copies c'.turns ((pushed : Multiset Act) + rest) := by
  have hheld := h.lock.held a (Multiset.mem_cons_self a rest)
  cases hd with
  | lock r hfree => exact ((h.copies.drop rfl).newTurn r.id).add (by simp [copyOf])
  | unlock r turn kbuf hn =>
    obtain ⟨t, ht, htook⟩ := filling_turn (hheld rfl)
    refine (h.copies.drop rfl).take ht htook ?_ ?_
    · intro k
      rw [cnt_coe_cons, List.isEmpty_eq_false_iff.mpr hn]
      simp [DataNode.copyOf, copies]
    · intro r' k bytes hb
      simp at hb
      exact ⟨hb.2.1, hb.2.2⟩
  | unlockAgain r turn =>
    obtain ⟨t, ht, htook⟩ := filling_turn (hheld rfl)
    refine (h.copies.drop rfl).take ht htook (fun k => by simp) fun _ _ _ hb => ?_
    cases hb
  | unlockPoll r turn =>
    obtain ⟨t, ht, htook⟩ := filling_turn (hheld rfl)
    refine (h.copies.drop rfl).take ht htook (fun k => by simp [copies, copyOf]) fun _ _ _ hb => ?_
    simp at hb
  | copy r turn kbuf =>
    rw [Multiset.coe_nil, Multiset.zero_add]
    exact h.copies.deliver
  | fault => exact absurd rfl ho
  | goOn _ _ b _ ha _ hb => exact (h.copies.drop ha).add (by simpa using hb)
  | fail _ _ id value _ ha => exact (h.copies.drop ha).add (by simp)
  | take | full | data | ack | lockWrite | led =>
    exact (h.copies.drop rfl).add (by simp [copyOf])
  | unlockWrite => exact (h.copies.drop rfl).add (by simp)

theorem Inv.does (h : Inv c (a ::ₘ rest)) (hd : Does c o a c' pushed) (ho : o ≠ .fault) :
    Inv c' ((pushed : Multiset Act) + rest) where
  plain := (dev_does h hd).1
  sent := (dev_does h hd).2
  lock := Taking.locked_does enters_received h.plain h.taking hd
  copies := copies_does h hd ho

theorem Inv.spawn {m : Multiset Act} (h : Inv c m) (hdev : c'.dev = c.dev) (hsent : c'.sent = c.sent)
    (hlock : c'.locked = c.locked) (hturns : c'.turns = c.turns)
    (hout : ∀ b ∈ pushed, inside b = false ∧ copyOf b = none) :
    Inv c' ((pushed : Multiset Act) + m) := by
  refine ⟨hdev ▸ h.plain, hdev ▸ hsent ▸ h.sent, ?_, hturns ▸ h.copies.add fun b hb => (hout b hb).2⟩
  exact Taking.locked_add h.taking (cnt_eq_zero.mpr fun b hb => (hout b hb).1) hlock hturns hdev

theorem Inv.receive {m : Multiset Act} (h : Inv c m) (hr : receiveNext c = some c') : Inv c' m := by
  unfold receiveNext at hr
  split at hr
  · next byte more hwait =>
    obtain ⟨hroom, hr⟩ := Option.ite_none_right_eq_some.mp hr
    obtain rfl := Option.some.inj hr
    refine ⟨loopback_keyboardReceive.trans h.plain, ?_,
      Taking.locked_receive enters_received h.plain hroom h.taking, h.copies⟩
    show received _ <+: c.sent
    rw [received_keyboardReceive, ← received_waiting h.sent, hwait]
    exact (List.prefix_append_right_inj _).mpr ⟨more, rfl⟩
  · cases hr

end Inv

/-- No copy to the user fails. -/
def NoFault (_ : Sys) : Event → Prop
  | .run _ o => o ≠ .fault
  | _ => True

instance (s : Sys) : (e : Event) → Decidable (NoFault s e)
  | .run _ o => inferInstanceAs (Decidable (o ≠ .fault))
  | .dataRead _ _ | .dataWrite _ | .send _ | .receive => inferInstanceAs (Decidable True)

theorem inv_step {s s' : Sys} {e : Event} (h : Inv s.core s.pending) (hfault : NoFault s e)
    (hs : step s e = some s') : Inv s'.core s'.pending := by
  cases e with
  | dataRead count nonblock =>
    obtain rfl := Option.some.inj hs
    rw [Pool.spawn_pending]
    by_cases hcount : count = 0
    · refine h.spawn ?_ ?_ ?_ ?_ ?_ <;> simp [Pool.spawn, dataRead, Core.finish, hcount]
    · refine h.spawn ?_ ?_ ?_ ?_ ?_ <;> simp [Pool.spawn, dataRead, hcount, inside, copyOf]
  | dataWrite buf =>
    obtain rfl := Option.some.inj hs
    rw [Pool.spawn_pending]
    exact h.spawn rfl rfl rfl rfl (by simp [inside, copyOf])
  | send byte =>
    obtain rfl := Option.some.inj hs
    refine ⟨h.plain, h.sent.trans (List.prefix_append _ _), ?_, h.copies⟩
    rw [← Multiset.zero_add (Pool.pending _)]
    exact Taking.locked_add h.taking rfl rfl rfl rfl
  | receive =>
    obtain ⟨c, hc, rfl⟩ := Option.map_eq_some_iff.mp hs
    exact h.receive hc
  | run i o =>
    obtain ⟨a, rest, pushed, hp, hexec, hp', -⟩ := Pool.run_pending hs
    rw [hp']
    exact (hp ▸ h).does (exec_does hexec) hfault

theorem inv_start (dev : LDDIOState) : Inv (start dev).core (start dev).pending where
  plain := resetEnter_loopback
  sent := List.nil_prefix
  lock := .given_back rfl rfl (buffered_empty resetEnter_rxReady)
  copies := ⟨nofun, nofun, fun _ _ _ hb => absurd hb (Multiset.notMem_zero _)⟩

theorem inv_steps {s s' : Sys} {es : List Event}
    (h : Steps (Guarded NoFault fun s e s' => step s e = some s') s es s')
    (hs : Inv s.core s.pending) : Inv s'.core s'.pending := by
  induction h with
  | nil s => exact hs
  | cons hstep _ ih => exact ih (inv_step hs hstep.1 hstep.2)

theorem Inv.takes_received {c : Core} {m : Multiset Act} (h : Inv c m) :
    (takes c).flatten <+: received c.dev.trace := Taking.tooks_came h.taking

/-- What a turn took and has not returned is about to be copied. -/
theorem Copies.to_come {turns : List Turn} {m : Multiset Act} (h : Copies turns m) {k : Nat}
    {t : Turn} (ht : turns[k]? = some t) (hret : t.ret = none) (htook : t.took ≠ []) :
    ∃ r, .copyToUser r k t.took ∈ m := by
  have howed := h.owed k t ht
  rw [hret, List.isEmpty_eq_false_iff.mpr htook] at howed
  have hpos : 0 < cnt (copies k) m := by
    rw [howed]
    exact Nat.one_pos
  obtain ⟨a, ha, hcopy⟩ := cnt_pos.mp hpos
  cases a with
  | copyToUser r k' kbuf =>
    obtain rfl : k' = k := Option.some.inj (beq_iff_eq.mp hcopy)
    obtain ⟨t', ht', rfl⟩ := h.carried r k' kbuf ha
    obtain rfl := Option.some.inj (ht.symm.trans ht')
    exact ⟨r, ha⟩
  | lock | status | data | ack | unlock | poll | signalPending | memdupUser | lockWrite | leds =>
    cases hcopy

/-- With no copy to come, what has been returned is what has been taken. -/
theorem Copies.returned_eq {c : Core} {m : Multiset Act} (h : Copies c.turns m)
    (hnone : ∀ a ∈ m, copyOf a = none) : returned c = (takes c).flatten := by
  have hturn : ∀ t ∈ c.turns, t.ret.getD [] = t.took := by
    intro t ht
    obtain ⟨k, hk⟩ := List.getElem?_of_mem ht
    cases hret : t.ret with
    | some bytes => exact (h.ret k t bytes hk hret).1.symm
    | none =>
      have howed := h.owed k t hk
      have hzero : cnt (copies k) m = 0 := cnt_eq_zero.mpr fun a ha => by
        rw [copies, hnone a ha]
        rfl
      rw [hzero, hret] at howed
      cases htook : t.took with
      | nil => rfl
      | cons => simp [htook] at howed
  rw [returned, takes, ← List.flatMap_def]
  exact List.flatMap_congr hturn

/-- What the readers take, in the order in which they take the lock, is what the host sent,
from its first byte on. A call returns just what it took, once. While nobody holds the lock,
the device has let in one more byte at most: the one in its buffer. -/
theorem readers_return_the_stream {dev : LDDIOState} {es : List Event} {s : Sys}
    (h : Steps (Guarded NoFault fun s e s' => step s e = some s') (start dev) es s) :
    (takes s.core).flatten <+: s.core.sent ∧
      (∀ t ∈ s.core.turns, ∀ bytes, t.ret = some bytes → t.took = bytes) ∧
      (∀ k t, s.core.turns[k]? = some t → t.ret = none → t.took ≠ [] →
        ∃ r, .copyToUser r k t.took ∈ s.pending) ∧
      ((∀ a ∈ s.pending, copyOf a = none) →
        returned s.core = (takes s.core).flatten ∧ returned s.core <+: s.core.sent) ∧
      received s.core.dev.trace <+: s.core.sent ∧
      (s.core.locked = false →
        (takes s.core).flatten ++ buffered s.core.dev = received s.core.dev.trace) := by
  have hinv := inv_steps h (inv_start dev)
  have hbegin := hinv.takes_received.trans hinv.sent
  refine ⟨hbegin, ?_, ?_, ?_, hinv.sent, hinv.lock.free⟩
  · intro t ht bytes hret
    obtain ⟨k, hk⟩ := List.getElem?_of_mem ht
    exact (hinv.copies.ret k t bytes hk hret).1
  · intro k t ht hret htook
    exact hinv.copies.to_come ht hret htook
  · intro hnone
    have heq := hinv.copies.returned_eq hnone
    exact ⟨heq, heq ▸ hbegin⟩

/-- Two readers. The first takes two bytes, the second of which comes in while the first one
is acknowledged; the second reader gets the lock after it, takes the third byte and returns
first. -/
def twoReaders : List Event :=
  [.dataRead 2 false, .dataRead 64 true, .send 104, .send 105, .send 33, .send 10, .receive,
    .run 0 .go, .run 0 .go, .run 0 .go, .run 0 .offer, .run 0 .go, .run 0 .go, .run 0 .go,
    .run 0 .go, .run 0 .go, .receive, .run 1 .go, .run 1 .go, .run 1 .go, .run 1 .go, .run 1 .go,
    .run 1 .go, .receive, .run 1 .go, .run 0 .go]

theorem readers_return_the_stream_two_readers : ∃ s,
    Lib.Transition.exec (fun s e => if NoFault s e then step s e else none) (start {}) twoReaders =
      some s ∧ takes s.core = [[104, 105], [33]] ∧ s.core.results = [(1, 1), (0, 2)] ∧
    (takes s.core).flatten ++ buffered s.core.dev = received s.core.dev.trace := by
  obtain ⟨s, hrun, htakes, hres, hlock⟩ : ∃ s,
      Lib.Transition.exec (fun s e => if NoFault s e then step s e else none) (start {})
        twoReaders = some s ∧ takes s.core = [[104, 105], [33]] ∧
      s.core.results = [(1, 1), (0, 2)] ∧ s.core.locked = false :=
    ⟨_, rfl, by decide, by decide, by decide⟩
  exact ⟨s, hrun, htakes, hres,
    (readers_return_the_stream (exec_guarded_steps hrun)).2.2.2.2.2 hlock⟩

end LinuxDeviceDriver.Drivers.Short.Stream
