/- source: examples/ds/llist/main.c, lines 10 to 16, 25 to 28, 42 to 73 and 98 to 152
   digest: Any number of producers add items to a lock-less list while a consumer takes and frees
     it: when the consumer's loop ends, every item has been freed, once. -/

import LinuxDeviceDriver.Lib.Threads
import LinuxDeviceDriver.Lib.Transition
import Mathlib.Algebra.BigOperators.Group.Multiset.Basic
import Mathlib.Data.Multiset.Range

set_option autoImplicit false

namespace LinuxDeviceDriver.Ds.Llist

open Lib.Threads
open Lib.Transition (Steps exec exec_steps)

/-- PRODUCERS and PER_PRODUCER. -/
structure Config where
  producers : Nat
  perProducer : Nat

/-- An object that kzalloc returned, by its number, and its key. -/
structure Item where
  id : Nat
  key : Nat
  deriving DecidableEq, Repr

def enomem : Int := -12
def einval : Int := -22

/-- The steps of llist_demo from where it creates the threads, then those of a producer, with its
number. What is local to a function is in its next step. -/
inductive Act
  | create (i : Nat)
  | read
  | take (done : Bool)
  | free (done : Bool) (batch : List Item)
  | test (done : Bool)
  | stop (i : Nat)
  | check
  | alloc (i k : Nat)
  | add (i : Nat) (item : Item)
  | inc (i k : Nat)
  | dec (i : Nat) (err : Int)
  | exit (i : Nat) (err : Int)
  deriving DecidableEq, Repr

/-- What is shared, and what llist_demo keeps. producers_left only counts down from PRODUCERS, so
that it does not overflow. Then, for the record: the objects allocated so far, the items added and
freed, the batches taken, the additions that found the list empty, and whether the loop has
ended. -/
structure Core where
  inbox : List Item := []
  producersLeft : Int
  wasEmpty : BitVec 32 := 0
  got : BitVec 32 := 0
  batches : BitVec 32 := 0
  err : Int := 0
  created : List Nat := []
  exits : List (Nat × Int) := []
  result : Option Int := none
  allocated : Nat := 0
  added : List Item := []
  freed : List Item := []
  taken : Nat := 0
  foundEmpty : Nat := 0
  ended : Bool := false

/-- The count that free_batch returns. -/
def freeBatch (first : List Item) : BitVec 32 := first.foldl (fun n _ => n + 1) 0

/-- One step of a thread. What the kernel decides is the error with which an allocation or the
creation of a thread fails, if it does. -/
def act (cfg : Config) (o : Option Int) (c : Core) : Act → Option (Core × List Act)
  | .create i =>
    if i < cfg.producers then
      match o with
      | none => some ({ c with created := c.created ++ [i] }, [.create (i + 1)])
      | some err =>
        some ({ c with err, producersLeft := c.producersLeft - 1 }, [.create (i + 1)])
    else some (c, [.read])
  | .read => some (c, [.take (c.producersLeft == 0)])
  | .take done => some ({ c with inbox := [] }, [.free done c.inbox])
  | .free done batch =>
    if batch = [] then some (c, [.test done])
    else
      some ({ c with
        got := c.got + freeBatch batch
        batches := c.batches + 1
        freed := c.freed ++ batch
        taken := c.taken + 1 }, [.test done])
  | .test done =>
    if !done || !c.inbox.isEmpty then some (c, [.read])
    else some ({ c with ended := true }, [.stop 0])
  | .stop i =>
    if i < cfg.producers then
      if i ∈ c.created then
        -- kthread_stop waits for the thread to return
        (c.exits.lookup i).map fun ret =>
          ({ c with err := if ret ≠ 0 ∧ c.err = 0 then ret else c.err }, [.stop (i + 1)])
      else some (c, [.stop (i + 1)])
    else some (c, [.check])
  | .check =>
    let result :=
      if c.err ≠ 0 then c.err
      else if c.got ≠ BitVec.ofNat 32 (cfg.producers * cfg.perProducer) then einval
      else 0
    some ({ c with result := some result }, [])
  | .alloc i k =>
    if k < cfg.perProducer then
      match o with
      | none => some ({ c with allocated := c.allocated + 1 }, [.add i ⟨c.allocated, k⟩])
      | some _ => some (c, [.dec i enomem])
    else some (c, [.dec i 0])
  | .add i item =>
    some ({ c with
      inbox := item :: c.inbox
      added := c.added ++ [item]
      foundEmpty := if c.inbox.isEmpty then c.foundEmpty + 1 else c.foundEmpty },
      [if c.inbox.isEmpty then .inc i item.key else .alloc i (item.key + 1)])
  | .inc i k => some ({ c with wasEmpty := c.wasEmpty + 1 }, [.alloc i (k + 1)])
  | .dec i err => some ({ c with producersLeft := c.producersLeft - 1 }, [.exit i err])
  | .exit i err => some ({ c with exits := c.exits ++ [(i, err)] }, [])

abbrev System := Pool Core Unit Act

/-- The thread that a step creates and wakes. -/
def woken (cfg : Config) (o : Option Int) : Act → List Act
  | .create i => if i < cfg.producers ∧ o = none then [.alloc i 0] else []
  | _ => []

/-- Thread i takes a step. -/
def next (cfg : Config) (s : System) (e : Nat × Option Int) : Option System :=
  (s.next e.1).bind fun a => (s.run (act cfg) e.1 e.2).map fun t =>
    match woken cfg e.2 a with
    | [] => t
    | todo => t.spawn t.core ⟨(), todo⟩

/-- llist_demo is about to create the threads, with an empty list. -/
def start (cfg : Config) : System :=
  { core := { producersLeft := cfg.producers }, threads := [⟨(), [.create 0]⟩] }

theorem next_pending {cfg : Config} {s t : System} {e : Nat × Option Int}
    (h : next cfg s e = some t) :
    ∃ a rest pushed, s.pending = a ::ₘ rest ∧ act cfg e.2 s.core a = some (t.core, pushed) ∧
      t.pending = (woken cfg e.2 a : Multiset Act) + ((pushed : Multiset Act) + rest) := by
  obtain ⟨a, ha, h⟩ := Option.bind_eq_some_iff.mp h
  obtain ⟨u, hu, rfl⟩ := Option.map_eq_some_iff.mp h
  obtain ⟨b, rest, pushed, hpending, hact, hpending', hb⟩ := Pool.run_pending hu
  obtain rfl : a = b := Option.some.inj (ha.symm.trans hb)
  refine ⟨a, rest, pushed, hpending, ?_, ?_⟩
  · split
    · exact hact
    · exact hact
  · split
    · next hnone => rw [hnone, hpending', Multiset.coe_nil, zero_add]
    · rw [Pool.spawn_pending, hpending']

/-! ## Who is still to come -/

/-- The steps of a producer that has not counted itself out. -/
def live : Act → Bool
  | .alloc _ _ | .add _ _ | .inc _ _ | .dec _ _ => true
  | _ => false

/-- The steps of llist_demo up to the end of its loop. -/
def inLoop : Act → Bool
  | .create _ | .read | .take _ | .free _ _ | .test _ => true
  | _ => false

/-- The consumer has seen that all producers are done. -/
def sure : Act → Bool
  | .take true | .free true _ | .test true => true
  | _ => false

/-- And it has taken the list since. -/
def drained : Act → Bool
  | .free true _ | .test true => true
  | _ => false

/-- How many producers a step stands for that have not counted themselves out. -/
def weight (cfg : Config) : Act → Nat
  | .create i => cfg.producers - i
  | a => (live a).toNat

def leftOf (cfg : Config) (m : Multiset Act) : Nat := (m.map (weight cfg)).sum

section Count

variable {cfg : Config} {a : Act} {m : Multiset Act}

theorem leftOf_cons : leftOf cfg (a ::ₘ m) = weight cfg a + leftOf cfg m := by
  rw [leftOf, Multiset.map_cons, Multiset.sum_cons, leftOf]

theorem leftOf_add (m m' : Multiset Act) : leftOf cfg (m + m') = leftOf cfg m + leftOf cfg m' := by
  rw [leftOf, Multiset.map_add, Multiset.sum_add, leftOf, leftOf]

@[simp] theorem leftOf_nil : leftOf cfg (([] : List Act) : Multiset Act) = 0 := rfl

@[simp] theorem leftOf_coe_cons (l : List Act) :
    leftOf cfg ((a :: l : List Act) : Multiset Act) =
      weight cfg a + leftOf cfg (l : Multiset Act) := by
  rw [← Multiset.cons_coe, leftOf_cons]

@[simp] theorem leftOf_singleton : leftOf cfg {a} = weight cfg a := Multiset.sum_singleton _

theorem cnt_sure_le (m : Multiset Act) : cnt sure m ≤ cnt inLoop m := by
  refine cnt_mono (fun a ha => ?_) m
  cases a <;> first | rfl | cases ha

theorem cnt_drained_le (m : Multiset Act) : cnt drained m ≤ cnt sure m := by
  refine cnt_mono (fun a ha => ?_) m
  unfold drained at ha
  split at ha
  · rfl
  · rfl
  · cases ha

theorem cnt_live_le (cfg : Config) (m : Multiset Act) : cnt live m ≤ leftOf cfg m := by
  induction m using Multiset.induction_on with
  | empty => simp
  | cons a m ih =>
    rw [cnt_cons, leftOf_cons]
    have hle : (live a).toNat ≤ weight cfg a := by
      cases a <;> simp [live, weight]
    omega

end Count

/-- producers_left is the number of producers still to come. Once the consumer has seen it at zero,
it stays there, and the list stays as the consumer leaves it. -/
structure Control (cfg : Config) (c : Core) (m : Multiset Act) : Prop where
  left : c.producersLeft = leftOf cfg m
  one : cnt inLoop m ≤ 1
  quiet : 0 < cnt sure m ∨ c.ended = true → c.producersLeft = 0
  empty : 0 < cnt drained m ∨ c.ended = true → c.inbox = []
  outside : c.ended = true → cnt inLoop m = 0

namespace Control

variable {cfg : Config} {c c' : Core} {a : Act} {rest : Multiset Act} {pushed : List Act}

/-- While a producer is to come the consumer has not seen that all are done. -/
theorem live_step (h : Control cfg c (a ::ₘ rest)) (ha : live a = true)
    (hpushed : cnt inLoop (pushed : Multiset Act) = 0)
    (hleft : c'.producersLeft = c.producersLeft - 1 + leftOf cfg pushed)
    (hended : c'.ended = c.ended) : Control cfg c' ((pushed : Multiset Act) + rest) := by
  have hweight : weight cfg a = 1 := by
    cases a <;> first | rfl | cases ha
  have hloop : inLoop a = false := by
    cases a <;> first | rfl | cases ha
  have hsome : c.producersLeft = 1 + leftOf cfg rest := by
    rw [h.left, leftOf_cons, hweight]
    exact Int.natCast_add 1 (leftOf cfg rest)
  have hnone : ¬(0 < cnt sure (a ::ₘ rest) ∨ c.ended = true) := by
    intro hsure
    have hzero := h.quiet hsure
    omega
  have hone := h.one
  rw [cnt_cons, hloop] at hone
  have hsure : cnt sure ((pushed : Multiset Act) + rest) = 0 := by
    have hle := cnt_sure_le (pushed : Multiset Act)
    have hrest : ¬0 < cnt sure (a ::ₘ rest) := fun hpos => hnone (.inl hpos)
    rw [cnt_cons] at hrest
    rw [cnt_add]
    omega
  have hdrained := cnt_drained_le ((pushed : Multiset Act) + rest)
  have hnot : c'.ended ≠ true := by
    rw [hended]
    exact fun hend => hnone (.inr hend)
  refine ⟨?_, ?_, ?_, ?_, fun hend => absurd hend hnot⟩
  · rw [hleft, leftOf_add]
    push_cast
    omega
  · rw [cnt_add]
    simp only [Bool.toNat_false] at hone
    omega
  · rintro (hpos | hend)
    · omega
    · exact absurd hend hnot
  · rintro (hpos | hend)
    · omega
    · exact absurd hend hnot

/-- In the loop the consumer is the only one of whom something is to come that is in the loop. -/
theorem loop_step (h : Control cfg c (a ::ₘ rest)) (ha : inLoop a = true)
    (hpushed : cnt inLoop (pushed : Multiset Act) ≤ 1)
    (hleft : c'.producersLeft = c.producersLeft - weight cfg a + leftOf cfg pushed)
    (hquiet : 0 < cnt sure (pushed : Multiset Act) ∨ c'.ended = true → c'.producersLeft = 0)
    (hempty : 0 < cnt drained (pushed : Multiset Act) ∨ c'.ended = true → c'.inbox = [])
    (houtside : c'.ended = true → cnt inLoop (pushed : Multiset Act) = 0) :
    Control cfg c' ((pushed : Multiset Act) + rest) := by
  have hone := h.one
  rw [cnt_cons, ha, Bool.toNat_true] at hone
  have hsure := cnt_sure_le rest
  have hdrained := cnt_drained_le rest
  refine ⟨?_, ?_, ?_, ?_, ?_⟩
  · rw [hleft, h.left, leftOf_cons, leftOf_add]
    push_cast
    omega
  · rw [cnt_add]
    omega
  · rw [cnt_add]
    rintro (hpos | hend)
    · exact hquiet (.inl (by omega))
    · exact hquiet (.inr hend)
  · rw [cnt_add]
    rintro (hpos | hend)
    · exact hempty (.inl (by omega))
    · exact hempty (.inr hend)
  · intro hend
    have hnone := houtside hend
    rw [cnt_add]
    omega

/-- The other steps leave the list and producers_left alone. -/
theorem other_step (h : Control cfg c (a ::ₘ rest)) (hweight : weight cfg a = 0)
    (ha : inLoop a = false) (hpushed : cnt inLoop (pushed : Multiset Act) = 0)
    (hnone : leftOf cfg pushed = 0) (hleft : c'.producersLeft = c.producersLeft)
    (hinbox : c'.inbox = c.inbox) (hended : c'.ended = c.ended) :
    Control cfg c' ((pushed : Multiset Act) + rest) := by
  have hsure := cnt_sure_le (pushed : Multiset Act)
  have hdrained := cnt_drained_le (pushed : Multiset Act)
  refine ⟨?_, ?_, ?_, ?_, ?_⟩
  · rw [hleft, h.left, leftOf_cons, leftOf_add, hweight, hnone]
  · have hone := h.one
    rw [cnt_cons, ha, Bool.toNat_false] at hone
    rw [cnt_add]
    omega
  · rw [cnt_add, hleft, hended]
    rintro (hpos | hend)
    · exact h.quiet (.inl (by rw [cnt_cons]; omega))
    · exact h.quiet (.inr hend)
  · rw [cnt_add, hinbox, hended]
    rintro (hpos | hend)
    · exact h.empty (.inl (by rw [cnt_cons]; omega))
    · exact h.empty (.inr hend)
  · rw [cnt_add, hended]
    intro hend
    have houtside := h.outside hend
    rw [cnt_cons, ha, Bool.toNat_false] at houtside
    omega

/-- As long as the consumer is in the loop, the loop has not ended. -/
theorem running (h : Control cfg c (a ::ₘ rest)) (ha : inLoop a = true) : c.ended ≠ true := by
  intro hend
  have houtside := h.outside hend
  rw [cnt_cons, ha, Bool.toNat_true] at houtside
  omega

/-- A step of the loop after which the consumer is sure of nothing. -/
theorem unsure_step (h : Control cfg c (a ::ₘ rest)) (ha : inLoop a = true)
    (hpushed : cnt inLoop (pushed : Multiset Act) ≤ 1)
    (hleft : c'.producersLeft = c.producersLeft - weight cfg a + leftOf cfg pushed)
    (hsure : cnt sure (pushed : Multiset Act) = 0) (hended : c'.ended = c.ended) :
    Control cfg c' ((pushed : Multiset Act) + rest) := by
  have hdrained := cnt_drained_le (pushed : Multiset Act)
  have hrunning : c'.ended ≠ true := hended ▸ h.running ha
  refine h.loop_step ha hpushed hleft ?_ ?_ fun hend => absurd hend hrunning
  · rintro (hpos | hend)
    · omega
    · exact absurd hend hrunning
  · rintro (hpos | hend)
    · omega
    · exact absurd hend hrunning

/-- What the consumer carries from one step of the loop to the next. -/
theorem quiet_of_sure (h : Control cfg c (a ::ₘ rest)) (ha : sure a = true) :
    c.producersLeft = 0 := by
  refine h.quiet (.inl ?_)
  rw [cnt_cons, ha]
  exact Nat.add_pos_left Nat.one_pos _

theorem empty_of_drained (h : Control cfg c (a ::ₘ rest)) (ha : drained a = true) :
    c.inbox = [] := by
  refine h.empty (.inl ?_)
  rw [cnt_cons, ha]
  exact Nat.add_pos_left Nat.one_pos _

end Control

section Steps

variable {cfg : Config} {o : Option Int} {c c' : Core} {a : Act} {rest : Multiset Act}
variable {pushed : List Act}

theorem create_control {i : Nat} (h : Control cfg c (.create i ::ₘ rest))
    (hact : act cfg o c (.create i) = some (c', pushed)) :
    Control cfg c' ((woken cfg o (.create i) ++ pushed : List Act) + rest) := by
  unfold act at hact
  dsimp only at hact
  by_cases hi : i < cfg.producers
  · rw [if_pos hi] at hact
    cases o with
    | none =>
      cases hact
      have hwoken : woken cfg none (.create i) = [.alloc i 0] := if_pos ⟨hi, rfl⟩
      rw [hwoken]
      refine h.unsure_step rfl ?_ ?_ ?_ rfl
      · simp [inLoop]
      · simp [weight, live]
        omega
      · simp [sure]
    | some err =>
      cases hact
      have hwoken : woken cfg (some err) (.create i) = [] := if_neg (by simp)
      rw [hwoken]
      refine h.unsure_step rfl ?_ ?_ ?_ rfl
      · simp [inLoop]
      · simp [weight]
        omega
      · simp [sure]
  · rw [if_neg hi] at hact
    cases hact
    have hwoken : woken cfg o (.create i) = [] := if_neg fun hwake => hi hwake.1
    rw [hwoken]
    refine h.unsure_step rfl ?_ ?_ ?_ rfl
    · simp [inLoop]
    · simp [weight, live]
      omega
    · simp [sure]

theorem read_control (h : Control cfg c (.read ::ₘ rest))
    (hact : act cfg o c .read = some (c', pushed)) :
    Control cfg c' ((pushed : Multiset Act) + rest) := by
  have hrunning := h.running rfl
  cases hact
  refine h.loop_step rfl (by simp [inLoop]) (by simp [weight, live]) ?_ ?_ ?_
  · intro hsure
    by_contra hleft
    simp [sure, hrunning, hleft] at hsure
  · simp [drained, hrunning]
  · exact fun hend => absurd hend hrunning

theorem take_control {done : Bool} (h : Control cfg c (.take done ::ₘ rest))
    (hact : act cfg o c (.take done) = some (c', pushed)) :
    Control cfg c' ((pushed : Multiset Act) + rest) := by
  have hrunning := h.running rfl
  cases hact
  refine h.loop_step rfl (by simp [inLoop]) (by simp [weight, live]) ?_ ?_ ?_
  · rintro (hsure | hend)
    · cases done with
      | true => exact h.quiet_of_sure rfl
      | false => simp [sure] at hsure
    · exact absurd hend hrunning
  · exact fun _ => rfl
  · exact fun hend => absurd hend hrunning

/-- Whether or not there is a batch, producers_left and the list stay as they are. -/
theorem free_frame {done : Bool} {batch : List Item}
    (hact : act cfg o c (.free done batch) = some (c', pushed)) :
    c'.producersLeft = c.producersLeft ∧ c'.inbox = c.inbox ∧ c'.ended = c.ended ∧
      pushed = [.test done] := by
  unfold act at hact
  dsimp only at hact
  split at hact
  · cases hact
    exact ⟨rfl, rfl, rfl, rfl⟩
  · cases hact
    exact ⟨rfl, rfl, rfl, rfl⟩

theorem free_control {done : Bool} {batch : List Item}
    (h : Control cfg c (.free done batch ::ₘ rest))
    (hact : act cfg o c (.free done batch) = some (c', pushed)) :
    Control cfg c' ((pushed : Multiset Act) + rest) := by
  obtain ⟨hleft, hinbox, hended, rfl⟩ := free_frame hact
  have hrunning : c'.ended ≠ true := hended ▸ h.running rfl
  refine h.loop_step rfl (by simp [inLoop]) (by simp [weight, live, hleft]) ?_ ?_ ?_
  · rintro (hsure | hend)
    · rw [hleft]
      cases done with
      | true => exact h.quiet_of_sure rfl
      | false => simp [sure] at hsure
    · exact absurd hend hrunning
  · rintro (hdrained | hend)
    · rw [hinbox]
      cases done with
      | true => exact h.empty_of_drained rfl
      | false => simp [drained] at hdrained
    · exact absurd hend hrunning
  · exact fun hend => absurd hend hrunning

theorem test_control {done : Bool} (h : Control cfg c (.test done ::ₘ rest))
    (hact : act cfg o c (.test done) = some (c', pushed)) :
    Control cfg c' ((pushed : Multiset Act) + rest) := by
  unfold act at hact
  dsimp only at hact
  split at hact
  · cases hact
    exact h.unsure_step rfl (by simp [inLoop]) (by simp [weight, live]) (by simp [sure]) rfl
  · next hexit =>
    cases hact
    have hdone : done = true := by
      cases done with
      | true => rfl
      | false => exact absurd rfl hexit
    subst hdone
    refine h.loop_step rfl (by simp [inLoop]) (by simp [weight, live]) ?_ ?_ ?_
    · exact fun _ => h.quiet_of_sure rfl
    · exact fun _ => h.empty_of_drained rfl
    · simp [inLoop]

theorem stop_control {i : Nat} (h : Control cfg c (.stop i ::ₘ rest))
    (hact : act cfg o c (.stop i) = some (c', pushed)) :
    Control cfg c' ((pushed : Multiset Act) + rest) := by
  obtain ⟨hc', hloop, hnone⟩ : (c'.producersLeft = c.producersLeft ∧ c'.inbox = c.inbox ∧
      c'.ended = c.ended) ∧ cnt inLoop (pushed : Multiset Act) = 0 ∧ leftOf cfg pushed = 0 := by
    unfold act at hact
    dsimp only at hact
    split at hact
    · split at hact
      · obtain ⟨ret, -, heq⟩ := Option.map_eq_some_iff.mp hact
        cases heq
        exact ⟨⟨rfl, rfl, rfl⟩, rfl, rfl⟩
      · cases hact
        exact ⟨⟨rfl, rfl, rfl⟩, rfl, rfl⟩
    · cases hact
      exact ⟨⟨rfl, rfl, rfl⟩, rfl, rfl⟩
  exact h.other_step rfl rfl hloop hnone hc'.1 hc'.2.1 hc'.2.2

theorem alloc_control {i k : Nat} (h : Control cfg c (.alloc i k ::ₘ rest))
    (hact : act cfg o c (.alloc i k) = some (c', pushed)) :
    Control cfg c' ((pushed : Multiset Act) + rest) := by
  obtain ⟨hleft, hended, hloop, hone⟩ : c'.producersLeft = c.producersLeft ∧
      c'.ended = c.ended ∧ cnt inLoop (pushed : Multiset Act) = 0 ∧ leftOf cfg pushed = 1 := by
    unfold act at hact
    dsimp only at hact
    split at hact
    · split at hact
      · cases hact
        exact ⟨rfl, rfl, rfl, rfl⟩
      · cases hact
        exact ⟨rfl, rfl, rfl, rfl⟩
    · cases hact
      exact ⟨rfl, rfl, rfl, rfl⟩
  refine h.live_step rfl hloop ?_ hended
  rw [hleft, hone]
  omega

theorem act_control (h : Control cfg c (a ::ₘ rest)) (hact : act cfg o c a = some (c', pushed)) :
    Control cfg c' ((woken cfg o a ++ pushed : List Act) + rest) := by
  cases a with
  | create i => exact create_control h hact
  | read => exact read_control h hact
  | take done => exact take_control h hact
  | free done batch => exact free_control h hact
  | test done => exact test_control h hact
  | stop i => exact stop_control h hact
  | check | exit i err =>
    cases hact
    exact h.other_step rfl rfl rfl rfl rfl rfl rfl
  | alloc i k => exact alloc_control h hact
  | add i item =>
    cases hact
    refine h.live_step rfl ?_ ?_ rfl
    · simp only [woken, List.nil_append]
      split <;> rfl
    · simp only [woken, List.nil_append]
      split <;> simp [weight, live]
  | inc i k | dec i err =>
    cases hact
    refine h.live_step rfl rfl ?_ rfl
    simp [woken, weight, live]

end Steps

/-! ## Where the items are -/

/-- The object that a producer is about to add. -/
def inHand : Act → Option Nat
  | .add _ item => some item.id
  | _ => none

/-- The items that the consumer has taken and not yet freed. -/
def batchOf : Act → Multiset Item
  | .free _ batch => batch
  | _ => 0

def carries : Act → Bool
  | .free _ batch => !batch.isEmpty
  | _ => false

/-- A producer has found the list empty, and has not yet counted that. -/
def isInc : Act → Bool
  | .inc _ _ => true
  | _ => false

/-- Nothing of the above. -/
def silent : Act → Bool
  | .add _ _ | .inc _ _ => false
  | .free _ batch => batch.isEmpty
  | _ => true

/-- Every object has been added or is in a producer's hand; every item added has been freed, is in
the list or in the consumer's batch. Each time the list was found empty, a batch began that has been
taken, is carried or is in the list; some of these times have not been counted yet. -/
structure Balance (c : Core) (hand : Multiset Nat) (batch : Multiset Item)
    (carried uncounted : Nat) : Prop where
  ids : ((c.added.map Item.id : List Nat) : Multiset Nat) + hand = Multiset.range c.allocated
  kept : (c.freed : Multiset Item) + c.inbox + batch = c.added
  found : c.foundEmpty = c.taken + (!c.inbox.isEmpty).toNat + carried
  got : c.got = BitVec.ofNat 32 c.freed.length
  batches : c.batches = BitVec.ofNat 32 c.taken
  empties : c.wasEmpty + BitVec.ofNat 32 uncounted = BitVec.ofNat 32 c.foundEmpty

theorem freeBatch_eq (first : List Item) : freeBatch first = BitVec.ofNat 32 first.length := by
  have hfold : ∀ n, first.foldl (fun n _ => n + 1) n = n + BitVec.ofNat 32 first.length := by
    induction first with
    | nil => exact fun n => (BitVec.add_zero n).symm
    | cons item rest ih =>
      intro n
      rw [List.foldl_cons, ih, List.length_cons, BitVec.ofNat_add, BitVec.add_assoc,
        BitVec.add_comm 1]
      rfl
  exact (hfold 0).trans (BitVec.zero_add _)

namespace Balance

variable {c : Core} {hand : Multiset Nat} {batch : Multiset Item} {carried uncounted : Nat}

theorem take (h : Balance c hand batch carried uncounted) :
    Balance { c with inbox := [] } hand ((c.inbox : Multiset Item) + batch)
      ((!c.inbox.isEmpty).toNat + carried) uncounted := by
  refine ⟨h.ids, ?_, ?_, h.got, h.batches, h.empties⟩
  · rw [Multiset.coe_nil, add_zero, ← add_assoc]
    exact h.kept
  · show c.foundEmpty = c.taken + 0 + ((!c.inbox.isEmpty).toNat + carried)
    rw [Nat.add_zero, ← Nat.add_assoc]
    exact h.found

theorem free {first : List Item}
    (h : Balance c hand ((first : Multiset Item) + batch) (1 + carried) uncounted) :
    Balance { c with
      got := c.got + freeBatch first
      batches := c.batches + 1
      freed := c.freed ++ first
      taken := c.taken + 1 } hand batch carried uncounted := by
  refine ⟨h.ids, ?_, ?_, ?_, ?_, h.empties⟩
  · rw [← h.kept, ← Multiset.coe_add, add_right_comm, add_assoc _ (first : Multiset Item)]
    exact add_right_comm _ _ _
  · have hfound := h.found
    dsimp only
    omega
  · rw [freeBatch_eq, h.got, List.length_append, BitVec.ofNat_add]
  · show c.batches + 1 = BitVec.ofNat 32 (c.taken + 1)
    rw [h.batches, BitVec.ofNat_add]
    rfl

theorem alloc (h : Balance c hand batch carried uncounted) :
    Balance { c with allocated := c.allocated + 1 } (c.allocated ::ₘ hand) batch carried
      uncounted := by
  refine ⟨?_, h.kept, h.found, h.got, h.batches, h.empties⟩
  rw [Multiset.add_cons, h.ids, Multiset.range_succ]

/-- It adds the object, and finds out whether the list was empty. -/
theorem add {item : Item} (h : Balance c (item.id ::ₘ hand) batch carried uncounted) :
    Balance { c with
      inbox := item :: c.inbox
      added := c.added ++ [item]
      foundEmpty := if c.inbox.isEmpty then c.foundEmpty + 1 else c.foundEmpty }
      hand batch carried (c.inbox.isEmpty.toNat + uncounted) := by
  have hfound := h.found
  have hempties := h.empties
  refine ⟨?_, ?_, ?_, h.got, h.batches, ?_⟩
  · rw [← h.ids, List.map_append, ← Multiset.coe_add, List.map_singleton, Multiset.coe_singleton,
      add_assoc, Multiset.singleton_add]
  · rw [← Multiset.coe_add, ← h.kept, ← Multiset.cons_coe, Multiset.add_cons, Multiset.cons_add,
      Multiset.coe_singleton, Multiset.add_comm _ {item}, Multiset.singleton_add]
  · cases hempty : c.inbox.isEmpty with
    | true =>
      rw [hempty] at hfound
      simp at hfound ⊢
      omega
    | false =>
      rw [hempty] at hfound
      simpa using hfound
  · cases c.inbox.isEmpty with
    | true =>
      show c.wasEmpty + BitVec.ofNat 32 (1 + uncounted) = BitVec.ofNat 32 (c.foundEmpty + 1)
      rw [Nat.add_comm 1, BitVec.ofNat_add, BitVec.ofNat_add, ← BitVec.add_assoc, hempties]
    | false => simpa using hempties

theorem inc (h : Balance c hand batch carried (1 + uncounted)) :
    Balance { c with wasEmpty := c.wasEmpty + 1 } hand batch carried uncounted := by
  refine ⟨h.ids, h.kept, h.found, h.got, h.batches, ?_⟩
  rw [← h.empties, BitVec.ofNat_add, BitVec.add_assoc]
  rfl

end Balance

/-- The balance of what all threads have in hand. -/
def Items (c : Core) (m : Multiset Act) : Prop :=
  Balance c (collect inHand m) (m.bind batchOf) (cnt carries m) (cnt isInc m)

section Items

variable {cfg : Config} {o : Option Int} {c c' : Core} {a : Act} {rest : Multiset Act}
variable {pushed : List Act}

theorem items_cons : Items c (a ::ₘ rest) ↔
    Balance c (((inHand a).toList : Multiset Nat) + collect inHand rest)
      (batchOf a + rest.bind batchOf) ((carries a).toNat + cnt carries rest)
      ((isInc a).toNat + cnt isInc rest) := by
  rw [Items, collect_cons, Multiset.cons_bind, cnt_cons, cnt_cons]

theorem items_silent (h : silent a = true) : Items c (a ::ₘ rest) ↔ Items c rest := by
  rw [items_cons]
  cases a with
  | free done batch =>
    obtain rfl : batch = [] := List.isEmpty_iff.mp h
    simp [Items, inHand, batchOf, carries, isInc]
  | add i item => cases h
  | inc i k => cases h
  | _ => simp [Items, inHand, batchOf, carries, isInc]

theorem items_push (h : ∀ b ∈ pushed, silent b = true) (hitems : Items c rest) :
    Items c ((pushed : Multiset Act) + rest) := by
  induction pushed with
  | nil =>
    rw [Multiset.coe_nil, zero_add]
    exact hitems
  | cons b pushed ih =>
    rw [← Multiset.cons_coe, Multiset.cons_add, items_silent (h b List.mem_cons_self)]
    exact ih fun x hx => h x (List.mem_cons_of_mem b hx)

theorem items_frame (h : Items c (a ::ₘ rest)) (ha : silent a = true)
    (hpushed : ∀ b ∈ pushed, silent b = true)
    (hsame : c' = { c with
      producersLeft := c'.producersLeft, err := c'.err, created := c'.created,
      exits := c'.exits, result := c'.result, ended := c'.ended }) :
    Items c' ((pushed : Multiset Act) + rest) := by
  have hrest := (items_silent ha).mp h
  refine items_push hpushed ?_
  rw [hsame]
  exact ⟨hrest.ids, hrest.kept, hrest.found, hrest.got, hrest.batches, hrest.empties⟩

theorem silent_woken (cfg : Config) (o : Option Int) (a : Act) :
    ∀ b ∈ woken cfg o a, silent b = true := by
  intro b hb
  unfold woken at hb
  split at hb
  · split at hb
    · rw [List.mem_singleton.mp hb]
      rfl
    · cases hb
  · cases hb

theorem act_items (h : Items c (a ::ₘ rest)) (hact : act cfg o c a = some (c', pushed)) :
    Items c' ((woken cfg o a ++ pushed : List Act) + rest) := by
  -- most steps move no item
  have hframe : silent a = true → (∀ b ∈ pushed, silent b = true) →
      c' = { c with
        producersLeft := c'.producersLeft, err := c'.err, created := c'.created,
        exits := c'.exits, result := c'.result, ended := c'.ended } →
      Items c' ((woken cfg o a ++ pushed : List Act) + rest) := by
    intro ha hpushed hsame
    refine items_frame h ha (fun b hb => ?_) hsame
    rcases List.mem_append.mp hb with hwoken | hb
    · exact silent_woken cfg o a b hwoken
    · exact hpushed b hb
  have hone : ∀ {b : Act}, silent b = true → ∀ x ∈ [b], silent x = true := by
    intro b hb x hx
    rw [List.mem_singleton.mp hx]
    exact hb
  have hpush : ∀ b : Act, (([b] : List Act) : Multiset Act) + rest = b ::ₘ rest := fun b =>
    Multiset.singleton_add b rest
  unfold act at hact
  cases a with
  | create i =>
    dsimp only at hact
    split at hact
    · split at hact <;> (cases hact; exact hframe rfl (hone rfl) rfl)
    · cases hact
      exact hframe rfl (hone rfl) rfl
  | read | dec i err =>
    cases hact
    exact hframe rfl (hone rfl) rfl
  | take done =>
    cases hact
    show Items _ (([.free done c.inbox] : List Act) + rest)
    rw [hpush, items_cons]
    have hrest := (items_silent rfl).mp h
    simpa [inHand, batchOf, carries, isInc] using Balance.take hrest
  | free done batch =>
    dsimp only at hact
    split at hact
    · next hempty =>
      cases hact
      exact hframe (List.isEmpty_iff.mpr hempty) (hone rfl) rfl
    · next hsome =>
      cases hact
      show Items _ (([.test done] : List Act) + rest)
      rw [hpush, items_silent rfl]
      have hbalance := items_cons.mp h
      simp only [inHand, batchOf, carries, isInc, Option.toList_none, Multiset.coe_nil, zero_add,
        Bool.toNat_false, List.isEmpty_eq_false_iff.mpr hsome, Bool.not_false, Bool.toNat_true]
        at hbalance
      exact hbalance.free
  | test done =>
    dsimp only at hact
    split at hact <;> (cases hact; exact hframe rfl (hone rfl) rfl)
  | stop i =>
    dsimp only at hact
    split at hact
    · split at hact
      · obtain ⟨ret, -, heq⟩ := Option.map_eq_some_iff.mp hact
        cases heq
        exact hframe rfl (hone rfl) rfl
      · cases hact
        exact hframe rfl (hone rfl) rfl
    · cases hact
      exact hframe rfl (hone rfl) rfl
  | check | exit i err =>
    cases hact
    exact hframe rfl (fun _ hb => nomatch hb) rfl
  | alloc i k =>
    dsimp only at hact
    split at hact
    · split at hact
      · cases hact
        show Items _ (([.add i ⟨c.allocated, k⟩] : List Act) + rest)
        rw [hpush, items_cons]
        have hrest := (items_silent rfl).mp h
        simpa [inHand, batchOf, carries, isInc] using Balance.alloc hrest
      · cases hact
        exact hframe rfl (hone rfl) rfl
    · cases hact
      exact hframe rfl (hone rfl) rfl
  | add i item =>
    cases hact
    have hbalance := items_cons.mp h
    simp only [inHand, batchOf, carries, isInc, Option.toList_some, Multiset.coe_singleton,
      Multiset.singleton_add, zero_add, Bool.toNat_false] at hbalance
    have hadded := hbalance.add
    show Items _
      (([if c.inbox.isEmpty then .inc i item.key else .alloc i (item.key + 1)] : List Act) + rest)
    rw [hpush, items_cons]
    cases hempty : c.inbox.isEmpty with
    | true | false =>
      rw [hempty] at hadded
      simpa [inHand, batchOf, carries, isInc] using hadded
  | inc i k =>
    cases hact
    show Items _ (([.alloc i (k + 1)] : List Act) + rest)
    rw [hpush, items_silent rfl]
    have hbalance := items_cons.mp h
    simp only [inHand, batchOf, carries, isInc, Option.toList_none, Multiset.coe_nil, zero_add,
      Bool.toNat_false, Bool.toNat_true] at hbalance
    exact hbalance.inc

end Items

/-! ## Runs -/

structure Inv (cfg : Config) (s : System) : Prop where
  control : Control cfg s.core s.pending
  items : Items s.core s.pending

theorem start_inv (cfg : Config) : Inv cfg (start cfg) where
  control := by
    refine ⟨?_, Nat.le_refl 1, ?_, ?_, fun hend => nomatch hend⟩
    · show (cfg.producers : Int) = ((cfg.producers - 0 : Nat) : Int)
      rw [Nat.sub_zero]
    · rintro (hsure | hend)
      · exact absurd hsure (Nat.lt_irrefl 0)
      · cases hend
    · exact fun _ => rfl
  items := ⟨rfl, rfl, rfl, rfl, rfl, rfl⟩

theorem next_inv {cfg : Config} {s t : System} {e : Nat × Option Int} (h : Inv cfg s)
    (hnext : next cfg s e = some t) : Inv cfg t := by
  obtain ⟨a, rest, pushed, hpending, hact, hpending'⟩ := next_pending hnext
  obtain ⟨hcontrol, hitems⟩ := h
  rw [hpending] at hcontrol hitems
  rw [← add_assoc, Multiset.coe_add] at hpending'
  refine ⟨?_, ?_⟩
  · rw [hpending']
    exact act_control hcontrol hact
  · rw [hpending']
    exact act_items hitems hact

theorem no_batch {m : Multiset Act} (h : cnt inLoop m = 0) :
    m.bind batchOf = 0 ∧ cnt carries m = 0 := by
  induction m using Multiset.induction_on with
  | empty => exact ⟨rfl, rfl⟩
  | cons a m ih =>
    rw [cnt_cons] at h
    obtain ⟨hbatch, hcarries⟩ := ih (by omega)
    have ha : batchOf a = 0 ∧ carries a = false := by
      cases a with
      | free done batch => simp [inLoop] at h
      | _ => exact ⟨rfl, rfl⟩
    rw [Multiset.cons_bind, cnt_cons, hbatch, hcarries, ha.1, ha.2]
    exact ⟨rfl, rfl⟩

theorem cnt_isInc_le (m : Multiset Act) : cnt isInc m ≤ cnt live m := by
  refine cnt_mono (fun a ha => ?_) m
  cases a <;> first | rfl | cases ha

/-- In every run, whatever allocations and creations of threads fail: when the consumer's loop has
ended, the list is empty and stays so, the items freed are the items added, each of them once, all
of them are counted in got, and there were as many batches as additions that found the list
empty. -/
theorem loop_frees_every_item_once (cfg : Config) (es : List (Nat × Option Int)) (s : System)
    (h : Steps (fun s e t => next cfg s e = some t) (start cfg) es s)
    (hended : s.core.ended = true) :
    s.core.inbox = [] ∧ s.core.freed.Perm s.core.added ∧ (s.core.freed.map Item.id).Nodup ∧
      s.core.got = BitVec.ofNat 32 s.core.added.length ∧ s.core.taken = s.core.foundEmpty ∧
      s.core.batches = BitVec.ofNat 32 s.core.foundEmpty ∧
      s.core.wasEmpty = BitVec.ofNat 32 s.core.foundEmpty := by
  have hstep : ∀ s e t, Inv cfg s → next cfg s e = some t → Inv cfg t :=
    fun _ _ _ hs hnext => next_inv hs hnext
  obtain ⟨hcontrol, hitems⟩ := h.invariant hstep (start_inv cfg)
  have hempty : s.core.inbox = [] := hcontrol.empty (.inr hended)
  obtain ⟨hbatch, hcarries⟩ := no_batch (hcontrol.outside hended)
  -- nobody is left who could add an item or count an addition
  have hlive : cnt live s.pending = 0 := by
    have hleft := hcontrol.left
    have hle := cnt_live_le cfg s.pending
    rw [hcontrol.quiet (.inr hended)] at hleft
    omega
  have hincs : cnt isInc s.pending = 0 := by
    have hle := cnt_isInc_le s.pending
    omega
  have hperm : s.core.freed.Perm s.core.added := by
    have hkept := hitems.kept
    rw [hempty, hbatch, Multiset.coe_nil, add_zero, add_zero] at hkept
    exact Multiset.coe_eq_coe.mp hkept
  have hfound : s.core.foundEmpty = s.core.taken := by
    have hfound := hitems.found
    rw [hempty, hcarries] at hfound
    exact hfound
  have hempties := hitems.empties
  rw [hincs, BitVec.add_zero] at hempties
  refine ⟨hempty, hperm, ?_, ?_, hfound.symm, ?_, hempties⟩
  · have hadded : ((s.core.added.map Item.id : List Nat) : Multiset Nat).Nodup :=
      Multiset.nodup_of_le (hitems.ids ▸ Multiset.le_add_right _ _)
        (Multiset.nodup_range s.core.allocated)
    exact (hperm.map Item.id).nodup_iff.mpr (Multiset.coe_nodup.mp hadded)
  · rw [hitems.got, hperm.length_eq]
  · rw [hitems.batches, hfound]

/-- Three producers of two items; the second thread cannot be created, and the third producer gets
no memory for its second item. The consumer takes the list while they run. -/
def threeProducers : Config := ⟨3, 2⟩

def twoFailures : List (Nat × Option Int) :=
  [(0, none), (0, some (-11)), (0, none), (0, none), (1, none), (1, none), (0, none), (0, none),
    (1, none), (2, none), (2, none), (0, none), (0, none), (2, none), (2, some (-12)), (2, none),
    (2, none), (1, none), (1, none), (1, none), (1, none), (0, none), (0, none), (0, none),
    (0, none)]

theorem two_failures_lose_nothing :
    ∃ s, Steps (fun s e t => next threeProducers s e = some t) (start threeProducers)
        twoFailures s ∧ s.core.ended = true ∧ s.core.added.length = 3 ∧ s.core.foundEmpty = 2 ∧
      s.core.freed.Perm s.core.added := by
  have hexec : (exec (next threeProducers) (start threeProducers) twoFailures).map
      (fun s => (s.core.ended, s.core.added.length, s.core.foundEmpty)) = some (true, 3, 2) := by
    decide +kernel
  obtain ⟨s, hs, heq⟩ := Option.map_eq_some_iff.mp hexec
  obtain ⟨hended, hadded, hfound⟩ := by simpa only [Prod.mk.injEq] using heq
  have hrun := exec_steps hs
  exact ⟨s, hrun, hended, hadded, hfound,
    (loop_frees_every_item_once threeProducers twoFailures s hrun hended).2.1⟩

end LinuxDeviceDriver.Ds.Llist
