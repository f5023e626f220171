/- source: examples/10_poll/fops.c, lines 28 to 132; main.c, lines 29 to 48
   digest: Each setting of a flag is taken by one call at most, and by one that succeeds, as long
     as nothing fails behind take_flag; a call that fails there has taken the flag for nothing. -/

import LinuxDeviceDriver.Drivers.Poll.Model
import LinuxDeviceDriver.Lib.Calls

set_option autoImplicit false

namespace LinuxDeviceDriver.Drivers.Poll.Flags

open Lib.Calls (Ledger entriesOf entriesOf_own entriesOf_other)
open Lib.Settings (Latch)
open Lib.LittleEndian (Byte)
open Lib.Threads (Pool)
open Lib.Transition (Steps Guarded exec_guarded_steps)
open CharFile (eagain efault erestartsys)
open Message Model

variable {pageShift : Fin 19}

/-- The settings of one flag that a call has taken. -/
def tookOf (l : Latch Call) (id : Nat) : List Nat :=
  entriesOf (l.taken.map fun t => (t.1.id, t.2)) id

/-- The settings of both flags that a call has taken. -/
def took (d : PollDev pageShift) (id : Nat) : List Nat :=
  tookOf (d.can .rd) id ++ tookOf (d.can .wr) id

/-- A call that failed, or that polled, has taken no setting; one that succeeded, exactly one. -/
def Fits : Answer → List Nat → Prop
  | .value value _, settings => value < 0 ∧ settings = [] ∨ 0 ≤ value ∧ settings.length = 1
  | .mask _ _, settings => settings = []

/-- What the flags are for: a setting is taken by one call at most, a reader or a writer as the
flag is, and by none that fails; and the flag is set exactly as long as the latest setting has not
been taken. -/
structure Consumed (d : PollDev pageShift) : Prop where
  once : ∀ side, ((d.can side).taken.map Prod.snd).Nodup
  side : ∀ side, ∀ t ∈ (d.can side).taken, t.1.side = side
  calls : ∀ r ∈ d.returned, Fits r.2 (took d r.1)
  failed : ∀ id value data, (id, .value value data) ∈ d.returned → value < 0 →
    ∀ side, ∀ t ∈ (d.can side).taken, t.1.id ≠ id
  ready : ∀ side, (d.can side).up = true ↔
    0 < (d.can side).settings ∧ (d.can side).settings ∉ (d.can side).taken.map Prod.snd

/-- Once a call has taken its flag, no signal keeps it from the mutex and its copy does not
fail. -/
def Completes (s : PollSystem pageShift) : PollEvent → Prop
  | .step i o =>
    match s.next i with
    | some (.lock _) => o ≠ .signal
    | some (.copy c) => (userCopy o s.core c).2.1 ≠ -efault
    | _ => True
  | _ => True

instance (s : PollSystem pageShift) : (e : PollEvent) → Decidable (Completes s e)
  | .step i o =>
    match h : s.next i with
    | some (.lock _) => decidable_of_iff (o ≠ .signal) (by simp only [Completes, h])
    | some (.copy c) =>
      decidable_of_iff ((userCopy o s.core c).2.1 ≠ -efault) (by simp only [Completes, h])
    | some (.takeFlag _) | some (.waitEvent _) | some (.unlock _ _ _) | some (.pollRd _)
    | some (.pollWr _ _) | none => decidable_of_iff True (by simp only [Completes, h])
  | .start _ _ | .poll | .timer => inferInstanceAs (Decidable True)

/-! ## The flags -/

/-- The two flags are sound, and taken by the calls that they are for. -/
structure Sound (can : Side → Latch Call) : Prop where
  latch : ∀ side, (can side).Sound
  side : ∀ side, ∀ t ∈ (can side).taken, t.1.side = side

namespace Sound

variable {can : Side → Latch Call}

theorem never : Sound fun _ => {} where
  latch _ := .never
  side _ _ ht := absurd ht List.not_mem_nil

theorem update (h : Sound can) {side : Side} {l : Latch Call} (hl : l.Sound)
    (hside : ∀ t ∈ l.taken, t.1.side = side) : Sound (Function.update can side l) := by
  constructor
  · intro other
    by_cases hother : other = side
    · subst hother
      rw [Function.update_self]
      exact hl
    · rw [Function.update_of_ne hother]
      exact h.latch other
  · intro other
    by_cases hother : other = side
    · subst hother
      rw [Function.update_self]
      exact hside
    · rw [Function.update_of_ne hother]
      exact h.side other

theorem set (h : Sound can) (side : Side) : Sound (Function.update can side (can side).set) :=
  h.update (h.latch side).set (h.side side)

theorem take (h : Sound can) {c : Call} (hup : (can c.side).up = true) :
    Sound (Function.update can c.side ((can c.side).take c)) := by
  refine h.update ((h.latch c.side).take hup c) ?_
  intro t ht
  rcases List.mem_append.mp ht with ht | ht
  · exact h.side c.side t ht
  · obtain rfl := List.mem_singleton.mp ht
    rfl

end Sound

/-! ## The calls -/

/-- A call that is past take_flag has one setting, and its value, once it has one, says that it
succeeded; before that, and in a poll, it has none. -/
def Suits : Act → List Nat → Prop
  | .lock _, settings | .copy _, settings => settings.length = 1
  | .unlock _ value _, settings => 0 ≤ value ∧ settings.length = 1
  | _, settings => settings = []

abbrev Accounts (d : PollDev pageShift) (m : Multiset Act) : Prop :=
  Ledger Act.id [] Suits Fits d.calls (took d) d.returned m

section Took

variable {d : PollDev pageShift} {l : Latch Call} {c : Call} {id : Nat}

theorem tookOf_take_own : tookOf (l.take c) c.id = tookOf l c.id ++ [l.settings] := by
  rw [tookOf, Latch.take, List.map_append]
  exact entriesOf_own

theorem tookOf_take_other (h : id ≠ c.id) : tookOf (l.take c) id = tookOf l id := by
  rw [tookOf, Latch.take, List.map_append]
  exact entriesOf_other h

theorem took_setFlag (d : PollDev pageShift) (side : Side) : took (d.setFlag side) = took d := by
  cases side <;> rfl

theorem took_takeFlag_other (h : id ≠ c.id) : took (d.takeFlag c) id = took d id := by
  have hflag : ∀ side, tookOf ((d.takeFlag c).can side) id = tookOf (d.can side) id := by
    intro side
    by_cases hside : side = c.side
    · subst hside
      rw [PollDev.takeFlag_own, tookOf_take_other h]
    · rw [PollDev.takeFlag_other d hside]
  rw [took, took, hflag, hflag]

theorem took_takeFlag_own (h : took d c.id = []) : (took (d.takeFlag c) c.id).length = 1 := by
  obtain ⟨hrd, hwr⟩ := List.append_eq_nil_iff.mp h
  have hown := PollDev.takeFlag_own d c
  cases hside : c.side with
  | rd =>
    rw [hside] at hown
    have hother : (d.takeFlag c).can .wr = d.can .wr := PollDev.takeFlag_other d (by simp [hside])
    rw [took, hown, hother, tookOf_take_own, hrd, hwr]
    rfl
  | wr =>
    rw [hside] at hown
    have hother : (d.takeFlag c).can .rd = d.can .rd := PollDev.takeFlag_other d (by simp [hside])
    rw [took, hown, hother, tookOf_take_own, hrd, hwr]
    rfl

end Took

theorem userCopy_fields (o : Choice) (d : PollDev pageShift) (c : Call) :
    (userCopy o d c).1.can = d.can ∧ (userCopy o d c).1.calls = d.calls ∧
      (userCopy o d c).1.returned = d.returned := by
  unfold userCopy
  split <;> exact ⟨rfl, rfl, rfl⟩

theorem userCopy_nonneg {o : Choice} {d : PollDev pageShift} {c : Call}
    (h : (userCopy o d c).2.1 ≠ -efault) : 0 ≤ (userCopy o d c).2.1 := by
  unfold userCopy at h ⊢
  split at h
  · unfold MessageBuffer.fetch at h ⊢
    dsimp only at h ⊢
    split at h
    · exact absurd rfl h
    · next hcopy =>
      rw [if_neg hcopy]
      exact Int.natCast_nonneg _
  · unfold MessageBuffer.store at h ⊢
    dsimp only at h ⊢
    split at h
    · exact absurd rfl h
    · next hcopy =>
      rw [if_neg hcopy]
      exact Int.natCast_nonneg _

/-- What Completes asks of the step of one call. -/
def Ends (o : Choice) (d : PollDev pageShift) : Act → Prop
  | .lock _ => o ≠ .signal
  | .copy c => (userCopy o d c).2.1 ≠ -efault
  | _ => True

theorem Accounts.step {d d' : PollDev pageShift} {o : Choice} {a : Act} {pushed : List Act}
    {rest : Multiset Act} (h : Accounts d (a ::ₘ rest)) (hends : Ends o d a)
    (hd : Does d o a d' pushed) : Accounts d' ((pushed : Multiset Act) + rest) := by
  have hopen := h.current a (Multiset.mem_cons_self a rest)
  cases hd with
  | took o c hup =>
    exact h.next rfl (fun _ hid => took_takeFlag_other hid) (took_takeFlag_own hopen)
  | wouldBlock o c | gaveUp c => exact h.report (fun _ _ => rfl) (.inl ⟨by decide, hopen⟩)
  | missed o c | happened o c | locked o c | polledRd o id =>
    exact h.next rfl (fun _ _ => rfl) hopen
  | interrupted c => exact absurd rfl hends
  | copied o c =>
    obtain ⟨hcan, hcalls, hreturned⟩ := userCopy_fields o d c
    have htook : took (userCopy o d c).1 = took d := by
      funext id
      rw [took, took, hcan]
    rw [Accounts, hcalls, hreturned, htook]
    exact h.next rfl (fun _ _ => rfl) ⟨userCopy_nonneg hends, hopen⟩
  | returns o c value data => exact h.report (fun _ _ => rfl) (.inr hopen)
  | polledWr o id rd => exact h.report (fun _ _ => rfl) hopen

theorem Sound.step {d d' : PollDev pageShift} {o : Choice} {a : Act} {pushed : List Act}
    (h : Sound d.can) (hd : Does d o a d' pushed) : Sound d'.can := by
  cases hd with
  | took o c hup => exact h.take hup
  | copied o c =>
    rw [(userCopy_fields o d c).1]
    exact h
  | wouldBlock | missed | happened | gaveUp | interrupted | locked | returns | polledRd
  | polledWr => exact h

/-! ## Every run -/

structure Inv (d : PollDev pageShift) (m : Multiset Act) : Prop where
  sound : Sound d.can
  accounts : Accounts d m

/-- A call past take_flag has its setting to the end; the timer only adds settings. -/
theorem Inv.timer {d : PollDev pageShift} {m : Multiset Act} (h : Inv d m) :
    Inv (timerStep d) m := by
  have hset : ∀ side, Accounts (d.setFlag side) m := by
    intro side
    rw [Accounts, took_setFlag]
    exact h.accounts
  unfold timerStep
  split
  · exact ⟨h.sound, h.accounts⟩
  · exact ⟨h.sound.set .rd, hset .rd⟩
  · split
    · exact ⟨h.sound.set .wr, hset .wr⟩
    · exact ⟨h.sound, h.accounts⟩

theorem inv_step {s s' : PollSystem pageShift} {e : PollEvent} (h : Inv s.core s.pending)
    (hs : Guarded Completes (fun s e s' => pollStep s e = some s') s e s') :
    Inv s'.core s'.pending := by
  obtain ⟨hends, hs⟩ := hs
  cases e with
  | start nonblock request | poll =>
    obtain rfl := Option.some.inj hs
    rw [Pool.spawn_pending]
    exact ⟨h.sound, h.accounts.start rfl rfl⟩
  | timer =>
    obtain rfl := Option.some.inj hs
    exact h.timer
  | step i o =>
    obtain ⟨a, rest, pushed, hp, hexec, hp', hnext⟩ := Pool.run_pending hs
    have hact : Ends o s.core a := by
      rw [Completes, hnext] at hends
      cases a with
      | lock c => exact hends
      | copy c => exact hends
      | takeFlag | waitEvent | unlock | pollRd | pollWr => trivial
    have hdoes := exec_does hexec
    rw [hp']
    exact ⟨h.sound.step hdoes, (hp ▸ h.accounts).step hact hdoes⟩

theorem inv_start (message : MessageBuffer pageShift) :
    Inv (start message).core (start message).pending where
  sound := .never
  accounts := .none

theorem Inv.consumed {d : PollDev pageShift} {m : Multiset Act} (h : Inv d m) : Consumed d where
  once side := (h.sound.latch side).once
  side := h.sound.side
  calls := h.accounts.closed
  failed id value data hr hneg side t ht := by
    rintro rfl
    have hnone : took d t.1.id = [] := by
      rcases h.accounts.closed _ hr with ⟨-, hnone⟩ | ⟨hpos, -⟩
      · exact hnone
      · omega
    obtain ⟨hrd, hwr⟩ := List.append_eq_nil_iff.mp hnone
    have hmem : t.2 ∈ tookOf (d.can side) t.1.id := by
      refine List.mem_map.mpr ⟨(t.1.id, t.2), List.mem_filter.mpr ⟨?_, beq_self_eq_true _⟩, rfl⟩
      exact List.mem_map_of_mem ht
    cases side with
    | rd =>
      rw [hrd] at hmem
      cases hmem
    | wr =>
      rw [hwr] at hmem
      cases hmem
  ready side := (h.sound.latch side).up_iff

/-- Memory that held nothing before. -/
def blank : Vector Byte (buffSize pageShift) := Vector.replicate _ 0

/-- The timer fires; a poll sees both flags. A reader takes the one, a second reader finds it gone,
and the next poll sees only the other. -/
def twoReaders : List PollEvent :=
  [.timer, .timer, .timer, .poll, .step 0 .go, .step 0 .go, .start false (.read 5), .step 1 .go,
    .start true (.read 5), .step 2 .go, .step 1 .go, .step 1 (.reachable 5), .step 1 .go, .poll,
    .step 3 .go, .step 3 .go]

/-- A poll sees the flag, a reader takes it and cannot copy the message out, and the next poll
sees the flag no longer. -/
def failingReader : List PollEvent :=
  [.timer, .timer, .poll, .step 0 .go, .step 0 .go, .start false (.read 5), .step 1 .go,
    .step 1 .go, .step 1 (.reachable 4), .step 1 .go, .poll, .step 2 .go, .step 2 .go]

end LinuxDeviceDriver.Drivers.Poll.Flags
