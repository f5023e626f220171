/- source: examples/09_pipe_advanced_sleep/fops.c, lines 43 to 110 and 123 to 174; README.md,
     lines 28 to 44
   digest: No process sleeps on while what it waits for is there, unless its wake-up is still to
     come. -/

import LinuxDeviceDriver.Drivers.Pipe.Stream

set_option autoImplicit false

namespace LinuxDeviceDriver.Drivers.Pipe.Wakeup

open Lib.LittleEndian (Byte)
open Lib.Transition (Steps exec exec_steps)
open Model hiding exec
open Drivers.Pipe.Stream (Accounts)

/-- The process has joined its queue and has yet to leave it. -/
def Act.queued : Act → Bool
  | .test _ | .schedule _ => true
  | _ => false

/-- A process that is not runnable is on its queue; and if what it waits for is there, a process
of the other side has yet to wake it up. -/
structure Inv (d : PipeDev) (m : Multiset Act) : Prop where
  accounts : Accounts d m
  onQueue : ∀ a ∈ m, Act.queued a = true → a.call.id ∈ d.interruptible →
    a.call.id ∈ d.queue a.call.side
  woken : ∀ c, .schedule c ∈ m → c.id ∈ d.interruptible → d.ready c.side = true →
    ∃ w count, .wake w count ∈ m ∧ w.side = c.side.other

section Sides

theorem other_other (side : Side) : side.other.other = side := by
  cases side <;> rfl

theorem eq_other {side side' : Side} (h : side ≠ side') : side = side'.other := by
  cases side <;> cases side' <;> first | rfl | exact absurd rfl h

end Sides

namespace Inv

variable {d d' : PipeDev} {m rest : Multiset Act} {a b : Act} {c : Call} {pushed : List Act}

theorem start (h : Inv d m) (hc : c.id = d.calls) :
    Inv { d with calls := d.calls + 1 } (([.lock c] : List Act) + m) where
  accounts := h.accounts.start hc rfl
  onQueue x hx hqueued := by
    rcases Multiset.mem_add.mp hx with hx | hx
    · obtain rfl := List.mem_singleton.mp (Multiset.mem_coe.mp hx)
      cases hqueued
    · exact h.onQueue x hx hqueued
  woken x hx hsleep hready := by
    rcases Multiset.mem_add.mp hx with hx | hx
    · cases List.mem_singleton.mp (Multiset.mem_coe.mp hx)
    · obtain ⟨w, count, hw, hside⟩ := h.woken x hx hsleep hready
      exact ⟨w, count, Multiset.mem_add.mpr (.inr hw), hside⟩

/-- A wake-up that is still to come stays so in a step that is none. -/
theorem wake_rest {w : Call} {count : Nat} (ha : ∀ w count, a ≠ .wake w count)
    (hw : .wake w count ∈ a ::ₘ rest) : .wake w count ∈ (pushed : Multiset Act) + rest := by
  rcases Multiset.mem_cons.mp hw with hw | hw
  · exact absurd hw.symm (ha w count)
  · exact Multiset.mem_add.mpr (.inr hw)

/-- A process stays on its queue if the list put in place of one queue keeps it. -/
theorem mem_update {queue : Side → List Nat} {p q : Side} {n : Nat} {l : List Nat}
    (hn : n ∈ queue p) (hl : n ∈ queue q → n ∈ l) : n ∈ Function.update queue q l p := by
  by_cases h : p = q
  · subst h
    rw [Function.update_self]
    exact hl hn
  · rw [Function.update_of_ne h]
    exact hn

/-- A step that changes neither buff_len nor, for other processes, who sleeps on which queue. A
process that goes to sleep in it has found nothing. -/
theorem shifts (h : Inv d (a ::ₘ rest)) (haccounts : Accounts d' ((pushed : Multiset Act) + rest))
    (hlen : d'.buffLen = d.buffLen) (ha : ∀ w count, a ≠ .wake w count)
    (hint : ∀ x ∈ rest, x.call.id ∈ d'.interruptible → x.call.id ∈ d.interruptible)
    (hqueue : ∀ x ∈ rest, x.call.id ∈ d.queue x.call.side → x.call.id ∈ d'.queue x.call.side)
    (hpushed : ∀ b ∈ pushed, Act.queued b = true → b.call.id ∈ d'.interruptible →
      b.call.id ∈ d'.queue b.call.side)
    (hsleeps : ∀ c, .schedule c ∈ pushed → d.ready c.side = false) :
    Inv d' ((pushed : Multiset Act) + rest) where
  accounts := haccounts
  onQueue x hx hqueued hsleep := by
    rcases Multiset.mem_add.mp hx with hx | hx
    · exact hpushed x (Multiset.mem_coe.mp hx) hqueued hsleep
    · exact hqueue x hx (h.onQueue x (Multiset.mem_cons_of_mem hx) hqueued (hint x hx hsleep))
  woken x hx hsleep hready := by
    have hready : d.ready x.side = true := by
      rw [← hready]
      unfold PipeDev.ready
      rw [hlen]
    rcases Multiset.mem_add.mp hx with hx | hx
    · rw [hsleeps x (Multiset.mem_coe.mp hx)] at hready
      cases hready
    · obtain ⟨w, count, hw, hside⟩ :=
        h.woken x (Multiset.mem_cons_of_mem hx) (hint _ hx hsleep) hready
      exact ⟨w, count, wake_rest ha hw, hside⟩

theorem quiet (h : Inv d (a ::ₘ rest)) (haccounts : Accounts d' ((pushed : Multiset Act) + rest))
    (hqueue : d'.queue = d.queue) (hint : d'.interruptible = d.interruptible)
    (hlen : d'.buffLen = d.buffLen) (ha : ∀ w count, a ≠ .wake w count)
    (hpushed : ∀ b ∈ pushed, Act.queued b = false) : Inv d' ((pushed : Multiset Act) + rest) := by
  refine h.shifts haccounts hlen ha ?_ ?_ ?_ ?_
  · intro x _ hsleep
    rwa [hint] at hsleep
  · intro x _ hx
    rwa [hqueue]
  · intro b hb hqueued
    rw [hpushed b hb] at hqueued
    cases hqueued
  · intro c hc
    cases hpushed _ hc

/-- The process joins its queue before it tests the condition. -/
theorem prepared (h : Inv d (.prepare c ::ₘ rest))
    (haccounts : Accounts (d.prepareToWait c) (([.test c] : List Act) + rest)) :
    Inv (d.prepareToWait c) (([.test c] : List Act) + rest) := by
  refine h.shifts haccounts rfl (by simp) ?_ ?_ ?_ (by simp)
  · intro x hx hsleep
    rcases List.mem_cons.mp hsleep with heq | hsleep
    · exact absurd heq (h.accounts.each.ne_of_mem hx)
    · exact hsleep
  · intro x _ hx
    apply mem_update hx
    intro hx
    exact List.mem_cons_of_mem _ hx
  · intro b hb _ _
    obtain rfl := List.mem_singleton.mp hb
    show c.id ∈ Function.update d.queue c.side (c.id :: d.queue c.side) c.side
    rw [Function.update_self]
    exact List.mem_cons_self

/-- The condition is tested on the queue: nothing is there to be woken up for. -/
theorem sleeps (h : Inv d (.test c ::ₘ rest)) (hready : d.ready c.side = false)
    (haccounts : Accounts d (([.schedule c] : List Act) + rest)) :
    Inv d (([.schedule c] : List Act) + rest) := by
  refine h.shifts haccounts rfl (by simp) (fun _ _ hx => hx) (fun _ _ hx => hx) ?_ ?_
  · intro b hb _ hsleep
    obtain rfl := List.mem_singleton.mp hb
    exact h.onQueue (.test c) (Multiset.mem_cons_self _ _) rfl hsleep
  · intro x hx
    obtain rfl := Act.schedule.inj (List.mem_singleton.mp hx)
    exact hready

theorem finished (h : Inv d (.finish c ::ₘ rest))
    (haccounts : Accounts (d.finishWait c) (([.signalPending c] : List Act) + rest)) :
    Inv (d.finishWait c) (([.signalPending c] : List Act) + rest) := by
  refine h.shifts haccounts rfl (by simp) ?_ ?_ (by simp [Act.queued]) (by simp)
  · intro x _ hsleep
    exact (List.mem_filter.mp hsleep).1
  · intro x hx hqueue
    have hne : x.call.id ≠ c.id := h.accounts.each.ne_of_mem hx
    apply mem_update hqueue
    intro hqueue
    exact List.mem_filter.mpr ⟨hqueue, decide_eq_true hne⟩

/-- A wake-up reaches every process that sleeps on its queue. -/
theorem woke {count : Nat} (h : Inv d (.wake c count ::ₘ rest))
    (haccounts : Accounts (d.wakeUp c.side.other) (([.unlock c count] : List Act) + rest)) :
    Inv (d.wakeUp c.side.other) (([.unlock c count] : List Act) + rest) := by
  have hsleep : ∀ x ∈ rest, Act.queued x = true →
      x.call.id ∈ (d.wakeUp c.side.other).interruptible →
      x.call.id ∈ d.interruptible ∧ x.call.side ≠ c.side.other := by
    intro x hx hqueued hsleep
    obtain ⟨hint, hnot⟩ := List.mem_filter.mp hsleep
    refine ⟨hint, fun hside => ?_⟩
    have hqueue := h.onQueue x (Multiset.mem_cons_of_mem hx) hqueued hint
    rw [hside] at hqueue
    exact of_decide_eq_true hnot hqueue
  refine ⟨haccounts, ?_, ?_⟩
  · intro x hx hqueued hint
    rcases Multiset.mem_add.mp hx with hx | hx
    · obtain rfl := List.mem_singleton.mp (Multiset.mem_coe.mp hx)
      cases hqueued
    · obtain ⟨hint, hside⟩ := hsleep x hx hqueued hint
      show x.call.id ∈ Function.update d.queue c.side.other [] x.call.side
      rw [Function.update_of_ne hside]
      exact h.onQueue x (Multiset.mem_cons_of_mem hx) hqueued hint
  · intro x hx hint hready
    rcases Multiset.mem_add.mp hx with hx | hx
    · cases List.mem_singleton.mp (Multiset.mem_coe.mp hx)
    · obtain ⟨hint, hside⟩ := hsleep _ hx rfl hint
      obtain ⟨w, n, hw, hother⟩ := h.woken x (Multiset.mem_cons_of_mem hx) hint hready
      refine ⟨w, n, ?_, hother⟩
      rcases Multiset.mem_cons.mp hw with hw | hw
      · -- the wake-up that has just been made was for the other queue
        obtain ⟨rfl, -⟩ := Act.wake.inj hw
        rw [hother, other_other] at hside
        exact absurd rfl hside
      · exact Multiset.mem_add.mpr (.inr hw)

/-- The store to buff_len makes the other side ready, and its wake-up comes next. -/
theorem stored (h : Inv d (a ::ₘ rest)) {count : Nat}
    (haccounts : Accounts d' (([.wake c count] : List Act) + rest))
    (hqueue : d'.queue = d.queue) (hint : d'.interruptible = d.interruptible)
    (hready : d'.ready c.side = false) : Inv d' (([.wake c count] : List Act) + rest) := by
  refine ⟨haccounts, ?_, ?_⟩
  · intro x hx hqueued hsleep
    rw [hint] at hsleep
    rw [hqueue]
    rcases Multiset.mem_add.mp hx with hx | hx
    · obtain rfl := List.mem_singleton.mp (Multiset.mem_coe.mp hx)
      cases hqueued
    · exact h.onQueue x (Multiset.mem_cons_of_mem hx) hqueued hsleep
  · intro x _ _ hx
    refine ⟨c, count, Multiset.mem_add.mpr (.inl (Multiset.mem_coe.mpr List.mem_cons_self)), ?_⟩
    have hside : x.side ≠ c.side := by
      intro heq
      rw [heq, hready] at hx
      cases hx
    rw [eq_other hside, other_other]

theorem committed {data : List Byte} (h : Inv d (.commit c data ::ₘ rest))
    (haccounts : Accounts (commitStep d c data).1 (([(commitStep d c data).2] : List Act) + rest)) :
    Inv (commitStep d c data).1 (([(commitStep d c data).2] : List Act) + rest) := by
  revert haccounts
  unfold commitStep
  split
  · next n hrequest =>
    have hside : c.side = .rd := by rw [Call.side, hrequest]
    unfold PipeDev.consume
    dsimp only
    split
    · intro haccounts
      refine h.stored haccounts rfl rfl ?_
      rw [hside]
      rfl
    · intro haccounts
      exact h.quiet haccounts rfl rfl rfl (by simp) (by simp [Act.queued])
  · next buff hrequest =>
    have hside : c.side = .wr := by rw [Call.side, hrequest]
    unfold PipeDev.supply
    dsimp only
    split
    · next hpos =>
      intro haccounts
      refine h.stored haccounts rfl rfl ?_
      rw [hside]
      exact decide_eq_false (by dsimp only; omega)
    · intro haccounts
      exact h.quiet haccounts rfl rfl rfl (by simp) (by simp [Act.queued])

theorem copied (h : Inv d (.copy c ::ₘ rest)) (o : Choice)
    (haccounts : Accounts (userCopy o d c).1 (([(userCopy o d c).2] : List Act) + rest)) :
    Inv (userCopy o d c).1 (([(userCopy o d c).2] : List Act) + rest) := by
  revert haccounts
  unfold userCopy
  split
  · dsimp only
    split
    · exact fun haccounts => h.quiet haccounts rfl rfl rfl (by simp) (by simp [Act.queued])
    · exact fun haccounts => h.quiet haccounts rfl rfl rfl (by simp) (by simp [Act.queued])
  · dsimp only
    split
    · exact fun haccounts => h.quiet haccounts rfl rfl rfl (by simp) (by simp [Act.queued])
    · exact fun haccounts => h.quiet haccounts rfl rfl rfl (by simp) (by simp [Act.queued])

theorem step (h : Inv d (a ::ₘ rest)) (hd : Does d a d' pushed) :
    Inv d' ((pushed : Multiset Act) + rest) := by
  have haccounts := h.accounts.step hd
  cases hd with
  | interrupted a c ha =>
    refine h.quiet haccounts rfl rfl rfl ?_ (by simp)
    rcases ha with rfl | rfl | rfl <;> simp
  | wouldBlock c | returns c value => exact h.quiet haccounts rfl rfl rfl (by simp) (by simp)
  | locked c hfree | found c hready | missed c | happened c | stays c | resumes c | retries c =>
    exact h.quiet haccounts rfl rfl rfl (by simp) (by simp [Act.queued])
  | leaves c b hb =>
    refine h.quiet haccounts rfl rfl rfl (by simp) ?_
    rcases hb with rfl | rfl <;> simp [Act.queued]
  | prepared c => exact h.prepared haccounts
  | sleeps c hready => exact h.sleeps hready haccounts
  | finished c => exact h.finished haccounts
  | copied o c => exact h.copied o haccounts
  | committed c data => exact h.committed haccounts
  | woke c count => exact h.woke haccounts

end Inv

/-- In every interleaving of pipe_advanced_sleep: a reader that sleeps although there is something
to read has a writer with its wake-up still to make, and a writer that sleeps although the buffer
is empty such a reader. -/
theorem no_lost_wakeup (es : List PipeEvent) (s : PipeSystem)
    (h : Steps (fun s e s' => pipeStep .pipeAdvancedSleep s e = some s') ⟨{}, []⟩ es s) :
    (∀ c, .schedule c ∈ s.pending → c.id ∈ s.core.interruptible → c.side = .rd →
      s.core.buffLen ≠ 0 → ∃ w count, .wake w count ∈ s.pending ∧ w.side = .wr) ∧
    ∀ c, .schedule c ∈ s.pending → c.id ∈ s.core.interruptible → c.side = .wr →
      s.core.buffLen = 0 → ∃ w count, .wake w count ∈ s.pending ∧ w.side = .rd := by
  have hinv : Inv s.core s.pending := by
    refine run_inv ?_ ?_ h ?_
    · intro d m c hc hinv
      exact hinv.start hc
    · intro d a rest d' pushed hinv hdoes
      exact hinv.step hdoes
    · refine ⟨Lib.Calls.Ledger.none, ?_, ?_⟩
      · intro a ha
        exact absurd ha (Multiset.notMem_zero a)
      · intro c hc
        exact absurd hc (Multiset.notMem_zero _)
  constructor
  · intro c hc hsleep hside hlen
    have hready : s.core.ready c.side = true := by
      rw [hside]
      exact decide_eq_true hlen
    obtain ⟨w, count, hw, hother⟩ := hinv.woken c hc hsleep hready
    exact ⟨w, count, hw, by rw [hother, hside]; rfl⟩
  · intro c hc hsleep hside hlen
    have hready : s.core.ready c.side = true := by
      rw [hside]
      exact decide_eq_true hlen
    obtain ⟨w, count, hw, hother⟩ := hinv.woken c hc hsleep hready
    exact ⟨w, count, hw, by rw [hother, hside]; rfl⟩

/-- A reader sleeps, and a writer has stored its byte but not yet woken it up. -/
def midway : List PipeEvent :=
  .start false (.read 1) :: List.replicate 5 (PipeEvent.step 0 .go) ++
    .start false (.write [1#8]) :: List.replicate 4 (PipeEvent.step 1 .go)

theorem no_lost_wakeup_midway :
    ∃ s, exec (pipeStep .pipeAdvancedSleep) ⟨{}, []⟩ midway = some s ∧
      (.schedule ⟨0, false, .read 1⟩ ∈ s.pending ∧ 0 ∈ s.core.interruptible ∧
        s.core.buffLen = 1) ∧
      ∃ w count, .wake w count ∈ s.pending ∧ w.side = .wr := by
  obtain ⟨s, hrun, hs⟩ : ∃ s, exec (pipeStep .pipeAdvancedSleep) ⟨{}, []⟩ midway = some s ∧
      .schedule ⟨0, false, .read 1⟩ ∈ s.pending ∧ 0 ∈ s.core.interruptible ∧
        s.core.buffLen = 1 :=
    ⟨_, rfl, by decide, by decide, by decide⟩
  have hlen : s.core.buffLen ≠ 0 := by
    rw [hs.2.2]
    decide
  exact ⟨s, hrun, hs, (no_lost_wakeup midway s (exec_steps hrun)).1 _ hs.1 hs.2.1 rfl hlen⟩

end LinuxDeviceDriver.Drivers.Pipe.Wakeup
