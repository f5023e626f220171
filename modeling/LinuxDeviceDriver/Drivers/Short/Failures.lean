/- source: examples/15_short_ioport/main.c, lines 40 to 96; examples/16_short_port_remap/main.c,
     lines 42 to 98; examples/17_short_mmio/main.c, lines 71 to 127
   digest: A read of the data node that fails has taken nothing from the device, unless it fails to
     copy to the user what it has taken. -/

import LinuxDeviceDriver.Drivers.Short.Stream
import LinuxDeviceDriver.Lib.Calls

set_option autoImplicit false

namespace LinuxDeviceDriver.Drivers.Short.Failures

open Lib.Calls (Ledger)
open Lib.LittleEndian (Byte)
open Lib.Mutex (Locked)
open Lib.Threads
open Lib.Transition (Steps Guarded exec_guarded_steps)
open Qemu.Io.Device
open CharFile (efault)
open Registers DataNode
open Short.Stream (takes NoFault)
open Taking (Enters map_modify)

/-! ## The bytes that have come in -/

/-- Every byte that was put in the receive buffer, by the keyboard or by a write to DATA. -/
def entered : List Effect → List Byte
  | [] => []
  | .enter _ byte :: t => entered t ++ [byte]
  | _ :: t => entered t

section Entered

variable {s : LDDIOState} {origin : Origin} {byte : Byte}

theorem entered_receiveByte :
    entered (lddIoReceiveByte s origin byte).trace = entered s.trace ++ [byte] := by
  unfold lddIoReceiveByte
  dsimp only
  split <;> rfl

theorem buffered_receiveByte : buffered (lddIoReceiveByte s origin byte) = [byte] := by
  rw [buffered, receiveByte_rxReady, receiveByte_dataIn]
  rfl

/-- Whatever CTRL says, the bytes come in through the buffer. -/
theorem enters_entered (init : List Byte) :
    Enters (fun _ => True) (fun s => init ++ entered s.trace) where
  ack {s} host _ hready := by
    rw [ack_eq hready, acceptInput_eq, List.append_assoc]
    cases host with
    | nil =>
      simp only [List.head?_nil, buffered_empty setStatus_acked, List.append_nil]
      rfl
    | cons byte rest =>
      simp only [List.head?_cons]
      split
      · rw [lddIoKeyboardReceive, entered_receiveByte, buffered_receiveByte]
        rfl
      · rw [buffered_empty setStatus_acked, List.append_nil]
        rfl
  data {s} v _ := by
    rw [iowrite8_data]
    unfold writeData
    dsimp only
    split
    · next hroom =>
      obtain ⟨-, hempty⟩ := Bool.and_eq_true_iff.mp hroom
      have hunready : s.rxReady = false := Bool.not_eq_eq_eq_not.mp hempty
      have hnone := buffered_empty hunready
      refine ⟨[v], ?_, ?_⟩
      · rw [entered_receiveByte, List.append_assoc]
      · rw [buffered_receiveByte, hnone]
        rfl
    · refine ⟨[], (List.append_nil _).symm, ?_⟩
      rw [List.append_nil]
      rfl
  receive byte _ := by
    rw [lddIoKeyboardReceive, entered_receiveByte, List.append_assoc]

end Entered

/-! ## Whose turn it is -/

/-- The call that an action belongs to. -/
def callOf : Act → Nat
  | .lock r | .status r _ _ | .data r _ _ | .ack r _ _ | .unlock r _ _ | .poll r
  | .signalPending r | .copyToUser r _ _ => r.id
  | .memdupUser id _ | .lockWrite id _ | .leds id _ _ => id

/-- An action leads to one action of the same call, or it ends the call. -/
theorem exec_call {o : Choice} {c c' : Core} {a : Act} {pushed : List Act}
    (h : exec o c a = some (c', pushed)) :
    (∃ b, pushed = [b] ∧ callOf b = callOf a) ∨
      pushed = [] ∧ ∃ value, c'.results = c.results ++ [(callOf a, value)] := by
  unfold exec at h
  split at h
  case h_20 => cases h
  case h_1 | h_3 | h_8 | h_16 =>
    split at h <;> cases h <;> exact .inl ⟨_, rfl, rfl⟩
  case h_7 =>
    unfold afterTake at h
    split at h
    · cases h
      exact .inl ⟨_, rfl, rfl⟩
    · split at h <;> cases h
      · exact .inr ⟨rfl, _, rfl⟩
      · exact .inl ⟨_, rfl, rfl⟩
  all_goals
    cases h
    first
    | exact .inl ⟨_, rfl, rfl⟩
    | exact .inr ⟨rfl, _, rfl⟩

/-- The turn of a reader that has the lock. -/
def seat : Act → Option Nat
  | .status _ turn _ | .data _ turn _ | .ack _ turn _ | .unlock _ turn _ => some turn
  | _ => none

/-- A reader that has the lock has it in a turn of its own. -/
def Owned (c : Core) (m : Multiset Act) : Prop :=
  ∀ a ∈ m, ∀ turn, seat a = some turn → (c.turns.map Turn.call)[turn]? = some (callOf a)

section Owned

variable {o : Choice} {c c' : Core} {a : Act} {pushed : List Act} {rest : Multiset Act}

theorem seat_outside (h : inside a = false) : seat a = none := by
  cases a with
  | status | data | ack | unlock => cases h
  | lock | poll | signalPending | copyToUser | memdupUser | lockWrite | leds => rfl

theorem calls_take (c : Core) (turn : Nat) (kbuf : List Byte) :
    (c.take turn kbuf).turns.map Turn.call = c.turns.map Turn.call :=
  map_modify (by intro t; rfl) _ _

/-- The turns that have been had stay those of their calls. -/
theorem calls_does (h : Does c o a c' pushed) :
    c.turns.map Turn.call <+: c'.turns.map Turn.call := by
  cases h with
  | lock r =>
    rw [List.map_append]
    exact List.prefix_append _ _
  | unlock r turn kbuf => exact ⟨[], by rw [List.append_nil]; exact (calls_take c turn kbuf).symm⟩
  | unlockAgain r turn | unlockPoll r turn =>
    exact ⟨[], by rw [List.append_nil]; exact (calls_take c turn []).symm⟩
  | copy r turn kbuf =>
    exact ⟨[], by rw [List.append_nil]; exact (map_modify (by intro t; rfl) _ _).symm⟩
  | take | full | data | ack | goOn | fault | fail | lockWrite | led | unlockWrite =>
    exact List.prefix_rfl

theorem Owned.does (h : Owned c (a ::ₘ rest)) (hd : Does c o a c' pushed) :
    Owned c' ((pushed : Multiset Act) + rest) := by
  have hself := h a (Multiset.mem_cons_self a rest)
  intro b hb turn hseat
  rcases Multiset.mem_add.mp hb with hb | hb
  · have hb := Multiset.mem_coe.mp hb
    cases hd with
    | lock r hfree =>
      obtain rfl := List.mem_singleton.mp hb
      obtain rfl := Option.some.inj hseat
      simp
      rfl
    | take | full | data | ack =>
      obtain rfl := List.mem_singleton.mp hb
      exact hself turn hseat
    | goOn _ _ b' _ _ hout =>
      obtain rfl := List.mem_singleton.mp hb
      rw [seat_outside hout] at hseat
      cases hseat
    | unlock | unlockPoll | lockWrite | led =>
      obtain rfl := List.mem_singleton.mp hb
      cases hseat
    | unlockAgain | copy | fault | fail | unlockWrite => cases hb
  · have hcall := h b (Multiset.mem_cons_of_mem hb) turn hseat
    obtain ⟨more, hmore⟩ := calls_does hd
    rw [← hmore, List.getElem?_append_left (List.getElem?_eq_some_iff.mp hcall).1]
    exact hcall

end Owned

/-! ## What the calls have taken -/

/-- What a call has taken from the device, in all of these turns. -/
def tookIn (turns : List Turn) (id : Nat) : List Byte :=
  (turns.filter fun t => t.call == id).flatMap Turn.took

def tookBy (c : Core) (id : Nat) : List Byte := tookIn c.turns id

/-- Nothing is on record for a call that is not about to copy. -/
def Suits (a : Act) (bytes : List Byte) : Prop := copyOf a = none → bytes = []

/-- A call that failed has taken nothing. -/
def Fits (value : Int) (bytes : List Byte) : Prop := value < 0 → bytes = []

abbrev Accounts (c : Core) (m : Multiset Act) : Prop :=
  Ledger callOf [] Suits Fits c.calls (tookBy c) c.results m

section Took

variable {c c' : Core} {id turn : Nat} {kbuf : List Byte}

theorem tookIn_append (l r : List Turn) : tookIn (l ++ r) id = tookIn l id ++ tookIn r id := by
  rw [tookIn, List.filter_append, List.flatMap_append, tookIn, tookIn]

theorem tookIn_cons (t : Turn) (r : List Turn) :
    tookIn (t :: r) id = (if t.call = id then t.took else []) ++ tookIn r id := by
  rw [tookIn, List.filter_cons]
  by_cases h : t.call = id
  · rw [if_pos h, if_pos (beq_iff_eq.mpr h), List.flatMap_cons, tookIn]
  · rw [if_neg h, if_neg (by simpa using h), List.nil_append, tookIn]

theorem tookIn_eq_nil {turns : List Turn} :
    tookIn turns id = [] ↔ ∀ t ∈ turns, t.call = id → t.took = [] := by
  rw [tookIn, List.flatMap_eq_nil_iff]
  constructor
  · intro h t ht hcall
    exact h t (List.mem_filter.mpr ⟨ht, beq_iff_eq.mpr hcall⟩)
  · intro h t ht
    obtain ⟨ht, hcall⟩ := List.mem_filter.mp ht
    exact h t ht (beq_iff_eq.mp hcall)

theorem tookIn_new (turns : List Turn) (call : Nat) :
    tookIn (turns ++ [{ call := call }]) id = tookIn turns id := by
  have hnew : tookIn [{ call := call }] id = [] := by
    rw [tookIn_eq_nil]
    intro t ht _
    rw [List.mem_singleton.mp ht]
  rw [tookIn_append, hnew, List.append_nil]

/-- An update of a turn of another call, or one that leaves what was taken. -/
theorem tookIn_modify {turns : List Turn} {f : Turn → Turn} (hcall : ∀ t, (f t).call = t.call)
    (h : ∀ t, turns[turn]? = some t → t.call ≠ id ∨ (f t).took = t.took) :
    tookIn (turns.modify turn f) id = tookIn turns id := by
  rcases Nat.lt_or_ge turn turns.length with hlt | hge
  · have hsplit : turns = turns.take turn ++ turns[turn] :: turns.drop (turn + 1) := by
      rw [List.getElem_cons_drop, List.take_append_drop]
    have hturn : (if (f turns[turn]).call = id then (f turns[turn]).took else []) =
        if turns[turn].call = id then turns[turn].took else [] := by
      rw [hcall]
      rcases h turns[turn] (List.getElem?_eq_getElem hlt) with hne | htook
      · rw [if_neg hne, if_neg hne]
      · rw [htook]
    calc tookIn (turns.modify turn f) id
        = tookIn (turns.take turn ++ f turns[turn] :: turns.drop (turn + 1)) id := by
          rw [List.modify_eq_take_cons_drop hlt]
      _ = tookIn (turns.take turn ++ turns[turn] :: turns.drop (turn + 1)) id := by
          rw [tookIn_append, tookIn_cons, hturn, tookIn_append, tookIn_cons]
      _ = tookIn turns id := by rw [← hsplit]
  · rw [List.modify_eq_self hge]

/-- What a reader takes goes on the record of its own call. -/
theorem tookBy_take_other (howned : (c.turns.map Turn.call)[turn]? = some id) {other : Nat}
    (hother : other ≠ id) : tookBy (c.take turn kbuf) other = tookBy c other := by
  refine tookIn_modify (by intro t; rfl) ?_
  intro t ht
  rw [List.getElem?_map, ht] at howned
  obtain rfl : t.call = id := Option.some.inj howned
  exact .inl (Ne.symm hother)

/-- A turn in which nothing was taken leaves nothing on record. -/
theorem tookBy_take_nil (h : tookBy c id = []) : tookBy (c.take turn []) id = [] := by
  refine tookIn_eq_nil.mpr ?_
  intro t ht hcall
  obtain ⟨k, hk⟩ := List.mem_iff_getElem?.mp ht
  rw [Core.take, List.getElem?_modify, Option.map_eq_map, Option.map_eq_some_iff] at hk
  obtain ⟨t', ht', rfl⟩ := hk
  by_cases hturn : turn = k
  · rw [if_pos hturn]
  · rw [if_neg hturn] at hcall ⊢
    exact tookIn_eq_nil.mp h t' (List.mem_of_getElem? ht') hcall

theorem tookBy_deliver (c : Core) (turn : Nat) (kbuf : List Byte) (id : Nat) :
    tookBy (c.deliver turn kbuf) id = tookBy c id :=
  tookIn_modify (by intro t; rfl) (by intro t _; exact .inr rfl)

end Took

theorem Accounts.step {o : Choice} {c c' : Core} {a : Act} {pushed : List Act}
    {rest : Multiset Act} (h : Accounts c (a ::ₘ rest)) (howned : Owned c (a ::ₘ rest))
    (ho : o ≠ .fault) (he : exec o c a = some (c', pushed)) :
    Accounts c' ((pushed : Multiset Act) + rest) := by
  have hself := Multiset.mem_cons_self a rest
  have hopen := h.current a hself
  have hcall := exec_call he
  cases exec_does he with
  | lock r hfree =>
    refine h.next rfl (fun id _ => tookIn_new c.turns r.id) fun _ => ?_
    exact (tookIn_new c.turns r.id).trans (hopen rfl)
  | take r turn kbuf | full r turn kbuf | data r turn kbuf | ack _ r turn kbuf =>
    exact h.next rfl (fun _ _ => rfl) hopen
  | unlock r turn kbuf hn =>
    refine h.next rfl (fun id hid => tookBy_take_other (howned _ hself turn rfl) hid) ?_
    intro hcopy
    cases hcopy
  | unlockAgain r turn =>
    refine h.report (fun id hid => tookBy_take_other (howned _ hself turn rfl) hid) ?_
    exact fun _ => tookBy_take_nil (hopen rfl)
  | unlockPoll r turn =>
    refine h.next rfl (fun id hid => tookBy_take_other (howned _ hself turn rfl) hid) ?_
    exact fun _ => tookBy_take_nil (hopen rfl)
  | goOn _ _ b _ hcopy =>
    have hb : callOf b = callOf a := by
      rcases hcall with ⟨b', hb', hsame⟩ | ⟨hnone, -⟩
      · obtain rfl := List.singleton_inj.mp hb'
        exact hsame
      · cases hnone
    exact h.next hb (fun _ _ => rfl) fun _ => hopen hcopy
  | copy r turn kbuf =>
    refine h.report (fun id _ => tookBy_deliver c turn kbuf id) ?_
    intro hneg
    omega
  | fault => exact absurd rfl ho
  | fail _ _ id value _ hcopy =>
    rcases hcall with ⟨b, hb, -⟩ | ⟨-, value', hresults⟩
    · cases hb
    · have hid : (id, value) = (callOf a, value') :=
        List.singleton_inj.mp (List.append_cancel_left hresults)
      obtain ⟨rfl, rfl⟩ := Prod.mk.inj hid
      exact h.report (fun _ _ => rfl) fun _ => hopen hcopy
  | lockWrite id kbuf | led id count byte more =>
    exact h.next rfl (fun _ _ => rfl) fun _ => hopen rfl
  | unlockWrite id count => exact h.report (fun _ _ => rfl) fun _ => hopen rfl

/-! ## Every run -/

/-- A device in any state, with no call made. -/
def startAt (dev : LDDIOState) : Sys := { core := { dev := { dev with trace := [] } } }

structure Inv (init : List Byte) (c : Core) (m : Multiset Act) : Prop where
  lock : Locked inside Core.locked (Taking.Free fun s => init ++ entered s.trace)
    (Taking.Holds fun s => init ++ entered s.trace) c m
  owned : Owned c m
  accounts : Accounts c m

theorem inv_start (dev : LDDIOState) :
    Inv (buffered dev) (startAt dev).core (startAt dev).pending where
  lock := .given_back rfl rfl (List.append_nil _).symm
  owned := fun _ ha => absurd ha (Multiset.notMem_zero _)
  accounts := .none

theorem Inv.spawn {init : List Byte} {c c' : Core} {m new : Multiset Act} (h : Inv init c m)
    (hnew : ∀ b ∈ new, inside b = false) (hlock : c'.locked = c.locked) (hturns : c'.turns = c.turns)
    (hdev : c'.dev = c.dev) (haccounts : Accounts c' (new + m)) : Inv init c' (new + m) where
  lock := Taking.locked_add h.lock (cnt_eq_zero.mpr hnew) hlock hturns hdev
  owned a ha turn hseat := by
    rcases Multiset.mem_add.mp ha with ha | ha
    · rw [seat_outside (hnew a ha)] at hseat
      cases hseat
    · rw [hturns]
      exact h.owned a ha turn hseat
  accounts := haccounts

theorem Accounts.nothing {c : Core} {m : Multiset Act} (h : Accounts c m) :
    Accounts ({ c with calls := c.calls + 1 }.finish c.calls 0) (([] : List Act) + m) := by
  have hmade := h.start (a := .lock ⟨c.calls, 0, false⟩) rfl fun _ => rfl
  rw [Multiset.coe_singleton, Multiset.singleton_add] at hmade
  refine hmade.report (fun _ _ => rfl) ?_
  intro hneg
  omega

theorem inv_step {init : List Byte} {s s' : Sys} {e : Event} (h : Inv init s.core s.pending)
    (hs : Guarded NoFault (fun s e s' => step s e = some s') s e s') :
    Inv init s'.core s'.pending := by
  obtain ⟨hfault, hs⟩ := hs
  cases e with
  | dataRead count nonblock =>
    obtain rfl := Option.some.inj hs
    rw [Pool.spawn_pending]
    by_cases hcount : count = 0
    · subst hcount
      exact h.spawn (fun _ hb => absurd hb List.not_mem_nil) rfl rfl rfl h.accounts.nothing
    · simp only [Pool.spawn, dataRead, if_neg hcount]
      refine h.spawn ?_ rfl rfl rfl (h.accounts.start rfl fun _ => rfl)
      intro b hb
      obtain rfl := List.mem_singleton.mp hb
      rfl
  | dataWrite buf =>
    obtain rfl := Option.some.inj hs
    rw [Pool.spawn_pending]
    refine h.spawn ?_ rfl rfl rfl (h.accounts.start rfl fun _ => rfl)
    intro b hb
    obtain rfl := List.mem_singleton.mp hb
    rfl
  | send byte =>
    obtain rfl := Option.some.inj hs
    have hnone : ∀ b ∈ (0 : Multiset Act), inside b = false :=
      fun b hb => absurd hb (Multiset.notMem_zero b)
    rw [← Multiset.zero_add (Pool.pending _)]
    refine h.spawn hnone rfl rfl rfl ?_
    rw [Multiset.zero_add]
    exact h.accounts
  | receive =>
    obtain ⟨c, hc, rfl⟩ := Option.map_eq_some_iff.mp hs
    unfold receiveNext at hc
    split at hc
    · obtain ⟨hroom, hc⟩ := Option.ite_none_right_eq_some.mp hc
      obtain rfl := Option.some.inj hc
      exact ⟨Taking.locked_receive (enters_entered init) trivial hroom h.lock, h.owned, h.accounts⟩
    · cases hc
  | run i o =>
    obtain ⟨a, rest, pushed, hp, hexec, hp', -⟩ := Pool.run_pending hs
    rw [hp']
    rw [hp] at h
    have hdoes := exec_does hexec
    exact ⟨Taking.locked_does (enters_entered init) trivial h.lock hdoes, h.owned.does hdoes,
      h.accounts.step h.owned hfault hexec⟩

/-- As long as no copy to the user fails: a call that has returned an error has taken nothing, in
none of its turns; and what the turns took, with the byte in the buffer once nobody is at the
device, is what was in the buffer at first and what has come in since, in that order. So what a
call that failed might have returned is what the next one takes. -/
theorem failed_reads_take_nothing (dev : LDDIOState) (es : List Event) (s : Sys)
    (h : Steps (Guarded NoFault fun s e s' => step s e = some s') (startAt dev) es s) :
    (∀ id value, (id, value) ∈ s.core.results → value < 0 →
      ∀ t ∈ s.core.turns, t.call = id → t.took = []) ∧
    (takes s.core).flatten <+: buffered dev ++ entered s.core.dev.trace ∧
    (s.core.locked = false →
      (takes s.core).flatten ++ buffered s.core.dev = buffered dev ++ entered s.core.dev.trace) := by
  have hinv : (fun s : Sys => Inv (buffered dev) s.core s.pending) s :=
    h.invariant (fun _ _ _ hs hstep => inv_step hs hstep) (inv_start dev)
  refine ⟨?_, Taking.tooks_came hinv.lock, hinv.lock.free⟩
  intro id value hresult hneg
  exact tookIn_eq_nil.mp (hinv.accounts.closed _ hresult hneg)

/-- A byte is in the buffer. One reader is interrupted before it has the lock; the next one takes
the byte, and a third finds none left. -/
def interrupted : List Event :=
  [.dataRead 4 false, .dataRead 4 true, .dataRead 4 true, .run 0 .signal, .run 1 .go, .run 1 .go,
    .run 1 .go, .run 1 .go, .run 1 .go, .run 1 .go, .run 1 .go, .run 2 .go, .run 2 .go, .run 2 .go]

/-- A device with a byte in its buffer. -/
def filled : LDDIOState := { dataIn := 0x41, status := lddIoStatusRxReady }

theorem failed_reads_take_nothing_interrupted : ∃ s,
    Lib.Transition.exec (fun s e => if NoFault s e then step s e else none) (startAt filled)
      interrupted = some s ∧
    s.core.results = [(0, -512), (1, 1), (2, -11)] ∧ takes s.core = [[0x41], []] ∧
    ∀ t ∈ s.core.turns, t.call = 2 → t.took = [] := by
  obtain ⟨s, hrun, hresults, htakes⟩ : ∃ s,
      Lib.Transition.exec (fun s e => if NoFault s e then step s e else none) (startAt filled)
        interrupted = some s ∧
      s.core.results = [(0, -512), (1, 1), (2, -11)] ∧ takes s.core = [[0x41], []] :=
    ⟨_, rfl, by decide, by decide⟩
  refine ⟨s, hrun, hresults, htakes, ?_⟩
  obtain ⟨hfailed, -, -⟩ := failed_reads_take_nothing filled interrupted s (exec_guarded_steps hrun)
  exact hfailed 2 (-11) (by rw [hresults]; decide) (by decide)

/-- A reader takes the byte and cannot copy it out; the next one finds nothing. -/
def unreachable : List Event :=
  [.dataRead 4 true, .run 0 .go, .run 0 .go, .run 0 .go, .run 0 .go, .run 0 .go, .run 0 .go,
    .run 0 .fault, .dataRead 4 true, .run 1 .go, .run 1 .go, .run 1 .go]

theorem failed_copy_takes_a_byte : ∃ s,
    Lib.Transition.exec step (startAt filled) unreachable = some s ∧
    s.core.results = [(0, -efault), (1, -11)] ∧ s.core.locked = false ∧
    buffered filled = [0x41] ∧ buffered s.core.dev = [] ∧
    ∃ t ∈ s.core.turns, t.call = 0 ∧ t.took = [0x41] := by
  refine ⟨_, rfl, by decide, by decide, by decide, by decide, ?_⟩
  exact ⟨⟨0, [0x41], none⟩, by decide, rfl, rfl⟩

end LinuxDeviceDriver.Drivers.Short.Failures
