/- source: examples/21_usb_skel/main.c, lines 144 to 261 and 372 to 396
   digest: What reads and writes return that are made once the device is disconnected, and that
     they do return. -/

import LinuxDeviceDriver.Drivers.UsbSkel.Calls

set_option autoImplicit false

namespace LinuxDeviceDriver.Drivers.UsbSkel.Unplugged

open Lib.LittleEndian (Byte)
open Lib.Threads
open Lib.Transition
  (Steps Guarded annotate Annotated exec exec_steps exec_guarded_steps)
open CharFile
open Model hiding exec
open Accounts (due)
open Polling (Inv)
open Lifetime (inv_next inv_probed inv_steps probed)
open Calls

/-! ## Calls that are to fail -/

/-- A read, or a write of a number. -/
def requests : Event → Bool
  | .read _ _ _ | .write _ _ (.ok _) => true
  | _ => false

/-- Where the call n can be, if it is to return -ENODEV. -/
def Failing (n : Nat) : Act → Prop
  | .readWait r | .readTicks r | .readLock r _ | .readCheck r _ => r.id = n
  | .readUnlock r err => r.id = n ∧ err = -enodev
  | .writeParse w => w.id = n ∧ ∃ interval, w.parsed = .ok interval
  | .writeFill w _ | .writeLock w _ | .writeCheck w _ => w.id = n
  | .writeUnlock w err => w.id = n ∧ err = -enodev
  | _ => False

/-- A read with O_NONBLOCK finds a tick that its file has not seen, and a write finds memory. -/
def Passes (n : Nat) (c : Core) (o : Choice) : Act → Prop
  | .readWait r => r.id = n → r.nonblock = true → c.ticks ≠ c.seen r.file
  | .writeParse w => w.id = n → refused o = false
  | _ => True

instance (n : Nat) (c : Core) (o : Choice) (a : Act) : Decidable (Passes n c o a) := by
  unfold Passes
  split <;> infer_instance

/-- The call n is not turned away before it takes the mutex. -/
def Admitted (n : Nat) (s : System) : Event → Prop
  | .step i o => ∀ a ∈ s.next i, Passes n s.core o a
  | _ => True

instance (n : Nat) (s : System) (e : Event) : Decidable (Admitted n s e) := by
  unfold Admitted
  split <;> infer_instance

/-- A signal found the read n waiting. -/
def Signalled (n : Nat) (l : Label) : Prop :=
  ∃ i a r, l = (.step i .signal, some a) ∧ reading a = some r ∧ r.id = n

section Step

variable {n : Nat} {o : Choice} {c c' : Core} {a : Act} {pushed : List Act}

/-- What one step makes of such a call: it goes on to fail, or it returns. -/
inductive Fails (n : Nat) (o : Choice) (a : Act) (c c' : Core) : List Act → Prop
  | goesOn (b : Act) (hb : Failing n b) : Fails n o a c c' [b]
  | gone (hreturned : c'.returned = c.returned ++ [(n, -enodev)]) : Fails n o a c c' []
  | interrupted (r : Read) (ho : o = .signal) (ha : reading a = some r) (hr : r.id = n)
      (hreturned : c'.returned = c.returned ++ [(n, -erestartsys)]) : Fails n o a c c' []

private theorem wait_fails {r : Read} (hr : r.id = n) (hgone : c.disconnected = true)
    (hp : Passes n c o (.readWait r)) (h : act o c (.readWait r) = some (c', pushed)) :
    Fails n o (.readWait r) c c' pushed := by
  have hpass : some (c, [Act.readTicks r]) = some (c', pushed) := by
    unfold act at h
    dsimp only at h
    split at h
    · next hnonblock =>
      rw [if_neg (hp hr hnonblock)] at h
      exact h
    · rw [if_pos (.inr hgone)] at h
      exact h
  obtain ⟨-, rfl⟩ := Prod.mk.inj (Option.some.inj hpass)
  exact .goesOn _ hr

private theorem readLock_fails {r : Read} {ticks : BitVec 32} (hr : r.id = n)
    (h : act o c (.readLock r ticks) = some (c', pushed)) :
    Fails n o (.readLock r ticks) c c' pushed := by
  unfold act at h
  dsimp only at h
  split at h
  · obtain ⟨rfl, rfl⟩ := Prod.mk.inj (Option.some.inj h)
    refine .interrupted r rfl rfl hr ?_
    rw [← hr]
    rfl
  · obtain ⟨-, rfl, rfl⟩ := lock_does h
    exact .goesOn _ hr

private theorem parse_fails {w : Write} {interval : BitVec 32} (hw : w.id = n)
    (hparsed : w.parsed = .ok interval) (hp : Passes n c o (.writeParse w))
    (h : act o c (.writeParse w) = some (c', pushed)) :
    Fails n o (.writeParse w) c c' pushed := by
  have hmemory : refused o = false := hp hw
  cases o with
  | fails err => cases hmemory
  | _ =>
    simp only [act, hparsed] at h
    obtain ⟨-, rfl⟩ := Prod.mk.inj (Option.some.inj h)
    exact .goesOn _ hw

theorem act_fails (ha : Failing n a) (hgone : c.disconnected = true) (hp : Passes n c o a)
    (h : act o c a = some (c', pushed)) : Fails n o a c c' pushed := by
  cases a with
  | readWait r => exact wait_fails ha hgone hp h
  | readTicks r | writeFill w interval =>
    obtain ⟨-, rfl⟩ := Prod.mk.inj (Option.some.inj h)
    exact .goesOn _ ha
  | readLock r ticks => exact readLock_fails ha h
  | readCheck r ticks | writeCheck w interval =>
    obtain ⟨-, rfl⟩ := Prod.mk.inj (Option.some.inj h)
    rw [if_pos hgone]
    exact .goesOn _ ⟨ha, rfl⟩
  | readUnlock r err =>
    obtain ⟨hr, rfl⟩ := ha
    obtain ⟨rfl, rfl⟩ := Prod.mk.inj (Option.some.inj h)
    refine .gone ?_
    rw [← hr]
    rfl
  | writeParse w =>
    obtain ⟨hw, interval, hparsed⟩ := ha
    exact parse_fails hw hparsed hp h
  | writeLock w interval =>
    obtain ⟨-, rfl, rfl⟩ := lock_does h
    exact .goesOn _ ha
  | writeUnlock w err =>
    obtain ⟨hw, rfl⟩ := ha
    obtain ⟨rfl, rfl⟩ := Prod.mk.inj (Option.some.inj h)
    refine .gone ?_
    rw [← hw]
    rfl
  | _ => exact absurd ha not_false

theorem exec_fails (ha : Failing n a) (hgone : c.disconnected = true) (hp : Passes n c o a)
    (h : Model.exec o c a = some (c', pushed)) : Fails n o a c c' pushed := by
  rw [Model.exec] at h
  split at h
  · have hp' : Passes n { c with dev := c.dev.use } o a := by
      cases a <;> exact hp
    cases act_fails (c := { c with dev := c.dev.use }) ha hgone hp' h with
    | goesOn b hb => exact .goesOn b hb
    | gone hreturned => exact .gone hreturned
    | interrupted r ho hread hr hreturned => exact .interrupted r ho hread hr hreturned
  · exact act_fails ha hgone hp h

end Step

theorem caller_of_failing {n : Nat} {a : Act} (h : Failing n a) : caller a = some n := by
  cases a with
  | readWait r | readTicks r | readLock r | readCheck r => exact congrArg some h
  | writeFill w | writeLock w | writeCheck w => exact congrArg some h
  | readUnlock r err | writeParse w | writeUnlock w err => exact congrArg some h.1
  | _ => exact absurd h not_false

theorem moves_gone {d d' : Data} {o : Choice} {a : Act} {pushed : List Act}
    (h : Moves d o a d' pushed) (hgone : d.disconnected = true) : d'.disconnected = true := by
  cases h with
  | unplugs id todo gone _ hkept => exact hkept hgone
  | _ => exact hgone

/-! ## What they return -/

/-- The call n was made when the device was gone. -/
structure Doomed (n : Nat) (past : List Label) (s : System) : Prop where
  gone : s.core.disconnected = true
  made : n < s.core.calls
  acts : ∀ a ∈ s.pending, caller a = some n → Failing n a
  values : ∀ v, (n, v) ∈ s.core.returned →
    v = -enodev ∨ (v = -erestartsys ∧ ∃ l ∈ past, Signalled n l)
  somewhere : (∃ v, (n, v) ∈ s.core.returned) ∨ ∃ a ∈ s.pending, caller a = some n

namespace Doomed

variable {n : Nat} {past : List Label} {s t : System} {e : Event}

theorem values_append (h : Doomed n past s) (l : Label) {v : Int} (hv : (n, v) ∈ s.core.returned) :
    v = -enodev ∨ (v = -erestartsys ∧ ∃ l' ∈ past ++ [l], Signalled n l') := by
  rcases h.values v hv with hv | ⟨hv, l', hl, hsignal⟩
  · exact .inl hv
  · exact .inr ⟨hv, l', List.mem_append_left _ hl, hsignal⟩

private theorem begins {b : Act} (h : Doomed n past s) (hb : Begins s.core e b t.core)
    (hpending : t.pending = (([b] : List Act) : Multiset Act) + s.pending) (l : Label) :
    Doomed n (past ++ [l]) t := by
  have hmade := h.made
  have hother : caller b ≠ some n ∧ n < t.core.calls := by
    rcases hb.calls with ⟨hcaller, hcalls⟩ | ⟨hcaller, hcalls⟩
    · rw [hcaller, hcalls]
      exact ⟨fun heq => absurd (Option.some.inj heq) (by omega), by omega⟩
    · rw [hcaller, hcalls]
      exact ⟨Option.some_ne_none n |>.symm, hmade⟩
  refine ⟨(congrArg Data.disconnected hb.data).trans h.gone, hother.2, ?_, ?_, ?_⟩
  · intro a ha hcaller
    rw [hpending] at ha
    rcases Multiset.mem_add.mp ha with ha | ha
    · obtain rfl := List.mem_singleton.mp (Multiset.mem_coe.mp ha)
      exact absurd hcaller hother.1
    · exact h.acts a ha hcaller
  · intro v hv
    rw [hb.returned] at hv
    exact h.values_append l hv
  · rw [hb.returned, hpending]
    rcases h.somewhere with hv | ⟨a, ha, hcaller⟩
    · exact .inl hv
    · exact .inr ⟨a, Multiset.mem_add.mpr (.inr ha), hcaller⟩

section Thread

variable {o : Choice} {a : Act} {rest : Multiset Act} {pushed : List Act}

/-- A step of some thread, given what it does to the call n. -/
private theorem step (h : Doomed n past s) (l : Label) (hbefore : s.pending = a ::ₘ rest)
    (hexec : Model.exec o s.core a = some (t.core, pushed))
    (hafter : t.pending = (pushed : Multiset Act) + rest)
    (hpushed : ∀ b ∈ pushed, caller b = some n → Failing n b)
    (hkept : ∀ v, (n, v) ∈ s.core.returned → (n, v) ∈ t.core.returned)
    (hnew : ∀ v, (n, v) ∈ t.core.returned → (n, v) ∈ s.core.returned ∨ v = -enodev ∨
      (v = -erestartsys ∧ Signalled n l))
    (hstill : caller a = some n →
      (∃ v, (n, v) ∈ t.core.returned) ∨ ∃ b ∈ pushed, caller b = some n) :
    Doomed n (past ++ [l]) t := by
  refine ⟨moves_gone (exec_moves hexec) h.gone, ?_, ?_, ?_, ?_⟩
  · rw [(exec_records hexec).calls]
    exact h.made
  · intro b hb hcaller
    rw [hafter] at hb
    rcases Multiset.mem_add.mp hb with hb | hb
    · exact hpushed b (Multiset.mem_coe.mp hb) hcaller
    · refine h.acts b ?_ hcaller
      rw [hbefore]
      exact Multiset.mem_cons_of_mem hb
  · intro v hv
    rcases hnew v hv with hold | hgone | ⟨hsignal, hl⟩
    · exact h.values_append l hold
    · exact .inl hgone
    · exact .inr ⟨hsignal, l, List.mem_append_right _ (List.mem_singleton.mpr rfl), hl⟩
  · rw [hafter]
    rcases h.somewhere with ⟨v, hv⟩ | ⟨b, hb, hcaller⟩
    · exact .inl ⟨v, hkept v hv⟩
    · rw [hbefore] at hb
      rcases Multiset.mem_cons.mp hb with rfl | hb
      · rcases hstill hcaller with hv | ⟨x, hx, hx'⟩
        · exact .inl hv
        · exact .inr ⟨x, Multiset.mem_add.mpr (.inl (Multiset.mem_coe.mpr hx)), hx'⟩
      · exact .inr ⟨b, Multiset.mem_add.mpr (.inr hb), hcaller⟩

private theorem mem_log {log log' : List (Nat × Int)} {w : Int} (h : log' = log ++ [(n, w)]) :
    (∀ v, (n, v) ∈ log → (n, v) ∈ log') ∧ (n, w) ∈ log' ∧
      ∀ v, (n, v) ∈ log' → (n, v) ∈ log ∨ v = w := by
  rw [h]
  refine ⟨fun v => List.mem_append_left _, List.mem_append_right _ (List.mem_singleton.mpr rfl), ?_⟩
  intro v hv
  rcases List.mem_append.mp hv with hv | hv
  · exact .inl hv
  · exact .inr (Prod.mk.inj (List.mem_singleton.mp hv)).2

private theorem own {i : Nat} (h : Doomed n past s) (ha : caller a = some n)
    (hpasses : Passes n s.core o a) (hbefore : s.pending = a ::ₘ rest)
    (hexec : Model.exec o s.core a = some (t.core, pushed))
    (hafter : t.pending = (pushed : Multiset Act) + rest) :
    Doomed n (past ++ [(.step i o, some a)]) t := by
  have hfailing : Failing n a := by
    refine h.acts a ?_ ha
    rw [hbefore]
    exact Multiset.mem_cons_self a rest
  cases exec_fails hfailing h.gone hpasses hexec with
  | goesOn b hb =>
    have hreturned : t.core.returned = s.core.returned := by
      cases exec_records hexec with
      | goesOn _ _ _ _ hreturned => exact hreturned
    refine h.step _ hbefore hexec hafter ?_ ?_ ?_ fun _ =>
      .inr ⟨b, List.mem_singleton.mpr rfl, caller_of_failing hb⟩
    · intro x hx _
      obtain rfl := List.mem_singleton.mp hx
      exact hb
    · rw [hreturned]
      exact fun v hv => hv
    · rw [hreturned]
      exact fun v hv => .inl hv
  | gone hreturned =>
    obtain ⟨hkept, hmem, hnew⟩ := mem_log hreturned
    refine h.step _ hbefore hexec hafter (fun x hx => by cases hx) hkept ?_ fun _ =>
      .inl ⟨_, hmem⟩
    intro v hv
    rcases hnew v hv with hold | rfl
    · exact .inl hold
    · exact .inr (.inl rfl)
  | interrupted r ho hread hr hreturned =>
    obtain ⟨hkept, hmem, hnew⟩ := mem_log hreturned
    refine h.step _ hbefore hexec hafter (fun x hx => by cases hx) hkept ?_ fun _ =>
      .inl ⟨_, hmem⟩
    intro v hv
    rcases hnew v hv with hold | rfl
    · exact .inl hold
    · refine .inr (.inr ⟨rfl, i, a, r, ?_, hread, hr⟩)
      rw [ho]

private theorem other (h : Doomed n past s) (ha : caller a ≠ some n) (l : Label)
    (hbefore : s.pending = a ::ₘ rest) (hexec : Model.exec o s.core a = some (t.core, pushed))
    (hafter : t.pending = (pushed : Multiset Act) + rest) : Doomed n (past ++ [l]) t := by
  obtain ⟨hpushed, hlog⟩ := (exec_records hexec).others ha
  exact h.step l hbefore hexec hafter (fun b hb hcaller => absurd hcaller (hpushed b hb))
    (fun v hv => (hlog v).mpr hv) (fun v hv => .inl ((hlog v).mp hv))
    fun hcaller => absurd hcaller ha

end Thread

theorem next (h : Doomed n past s) (hadmitted : Admitted n s e) (hn : Model.next s e = some t) :
    Doomed n (past ++ [(e, deed s e)]) t := by
  cases next_happens hn with
  | begins b hdeed hpending hbegins => exact h.begins hbegins hpending _
  | goes i o a rest pushed he hdeed hbefore hexec hafter =>
    by_cases ha : caller a = some n
    · subst he
      rw [hdeed]
      exact h.own ha (hadmitted a hdeed) hbefore hexec hafter
    · exact h.other ha _ hbefore hexec hafter

theorem run {es : List Event} (h : Doomed n past s)
    (hrun : Steps (Guarded (Admitted n) fun s e t => Model.next s e = some t) s es t) :
    Doomed n (past ++ annotate Model.next deed s es) t := by
  have hannotated : Steps
      (Annotated deed (Guarded (Admitted n) fun s e t => Model.next s e = some t))
      s (annotate Model.next deed s es) t := hrun.annotated fun _ _ _ hstep => hstep.2
  refine hannotated.history (I := Doomed n) ?_ h
  intro past s l t hs hstep
  obtain ⟨e, a⟩ := l
  have ha : a = deed s e := hstep.2
  rw [ha]
  exact hs.next hstep.1.1 hstep.1.2

end Doomed

/-! ## They do return -/

/-- What is known of every state that can be reached. -/
structure Reached (s : System) : Prop where
  inv : Inv s.core.toSkel s.pending
  lone : s.Lone

section Reached

variable {s t : System} {e : Event}

private theorem lone_start {c : Core} {a : Act} (h : s.Lone) : (s.start c a).Lone :=
  h.spawn _ (Nat.le_refl 1)

theorem lone_next (h : s.Lone) (hn : next s e = some t) : t.Lone := by
  cases e with
  | openFile | close file | read file nonblock count | write file count parsed | poll file =>
    obtain ⟨-, heq⟩ := Option.ite_none_right_eq_some.mp hn
    obtain rfl := Option.some.inj heq
    exact lone_start h
  | disconnect =>
    obtain ⟨-, heq⟩ := Option.ite_none_left_eq_some.mp hn
    obtain rfl := Option.some.inj heq
    exact lone_start h
  | complete status actualLength word =>
    obtain ⟨-, heq⟩ := Option.ite_none_right_eq_some.mp hn
    obtain rfl := Option.some.inj heq
    exact h.spawn _ (Nat.le_refl 1)
  | step i o =>
    have hrun : s.run Model.exec i o = some t := hn
    exact h.run (fun c a c' pushed he => (exec_records he).length) hrun

theorem Reached.next (h : Reached s) (hn : Model.next s e = some t) : Reached t :=
  ⟨inv_next h.inv hn, lone_next h.lone hn⟩

theorem reached_probed (bulkInSize : Nat) (bulkInBuffer : List Byte) :
    Reached (probed bulkInSize bulkInBuffer) :=
  ⟨inv_probed bulkInSize bulkInBuffer, fun _ ht => absurd ht List.not_mem_nil⟩

end Reached

/-- How many steps the holder of the mutex needs to give it back, at most. -/
def toUnlock : Act → Nat
  | .readLine _ _ _ => 3
  | .openCheck _ _ | .closeCount _ | .readCheck _ _ | .readBulk _ _ | .readCopy _ _ _
  | .writeCheck _ _ | .writeSubmit _ _ => 2
  | _ => 1

section Holder

variable {n : Nat} {c : Core} {m : Multiset Act} {a : Act} {s : System}

/-- Once the device is gone, the holder of the mutex can go on, and is nearer to giving it back. -/
theorem holder_goes (hinv : Inv c.toSkel m) (hgone : c.disconnected = true) (ha : a ∈ m)
    (hin : a.inside = true) :
    ∃ o c' pushed, Model.exec o c a = some (c', pushed) ∧
      (c'.ioMutex = false ∨ ∃ b, pushed = [b] ∧ b.inside = true ∧ toUnlock b < toUnlock a) := by
  have hheld := hinv.lock.held a ha hin
  have hthere : c.disconnected ≠ false := by
    rw [hgone]
    decide
  cases a with
  | openCheck id file =>
    exact ⟨.go, _, _, if_pos hgone, .inr ⟨_, rfl, rfl, Nat.lt_succ_self 1⟩⟩
  | openSubmit id file => exact absurd hheld.2.2.2 hthere
  | openUncount id file err => exact absurd hheld.2.2.2.2 hthere
  | openUnlock id file err =>
    by_cases herr : err ≠ 0
    · exact ⟨.go, _, _, if_pos herr, .inl rfl⟩
    · exact ⟨.go, _, _, if_neg herr, .inl rfl⟩
  | closeCount id =>
    refine ⟨.go, _, _, rfl, .inr ⟨_, rfl, ?_⟩⟩
    rw [if_neg fun hlast => hthere hlast.2]
    exact ⟨rfl, Nat.lt_succ_self 1⟩
  | closeKill id => exact absurd hheld.2.2 hthere
  | closeWait id => exact absurd hheld.2.2 hthere
  | closeUnlock id | readUnlock r err | writeUnlock w err => exact ⟨.go, _, _, rfl, .inl rfl⟩
  | readCheck r ticks =>
    refine ⟨.go, _, [if c.disconnected then .readUnlock r (-enodev) else .readBulk r ticks], rfl,
      .inr ⟨_, rfl, ?_⟩⟩
    rw [if_pos hgone]
    exact ⟨rfl, Nat.lt_succ_self 1⟩
  | readBulk r ticks | readCopy r ticks len =>
    exact ⟨.fails 0, _, _, rfl, .inr ⟨_, rfl, rfl, Nat.lt_succ_self 1⟩⟩
  | readLine r ticks actual => exact ⟨.go, _, _, rfl, .inr ⟨_, rfl, rfl, Nat.lt_succ_self 2⟩⟩
  | writeCheck w interval =>
    refine ⟨.go, _, [if c.disconnected then .writeUnlock w (-enodev) else .writeSubmit w interval],
      rfl, .inr ⟨_, rfl, ?_⟩⟩
    rw [if_pos hgone]
    exact ⟨rfl, Nat.lt_succ_self 1⟩
  | writeSubmit w interval => exact ⟨.go, _, _, rfl, .inr ⟨_, rfl, rfl, Nat.lt_succ_self 1⟩⟩
  | unplug id todo =>
    cases todo with
    | nil => cases hin
    | cons x todo =>
      have hdue := due (hinv.stage.follows.todo _ ha _ rfl)
      cases x with
      | setDisconnected =>
        have hset : decide (Unplug.setDisconnected ∈ c.done) = true :=
          hinv.stage.disconnected.symm.trans hgone
        exact absurd (of_decide_eq_true hset) (hdue.2.2.2.1 rfl)
      | mutexUnlock =>
        cases todo with
        | nil => exact ⟨.go, _, _, rfl, .inl rfl⟩
        | cons y todo => exact ⟨.go, _, _, rfl, .inl rfl⟩
      | _ => cases hin
  | _ => cases hin

/-- What is done with the mutex held is not where a call is turned away. -/
theorem passes_inside (h : a.inside = true) (o : Choice) : Passes n c o a := by
  cases a with
  | readWait r => cases h
  | writeParse w => cases h
  | _ => trivial

theorem admitted_step {i : Nat} {o : Choice} (hnext : s.next i = some a)
    (h : Passes n s.core o a) : Admitted n s (.step i o) := by
  intro b hb
  obtain rfl := Option.some.inj (hnext.symm.trans hb)
  exact h

end Holder

/-- The runs in which the call n is not turned away. -/
abbrev Goes (n : Nat) : System → List Event → System → Prop :=
  Steps (Guarded (Admitted n) fun s e t => next s e = some t)

/-- The mutex is given back while whoever is outside stays there. -/
theorem mutex_freed {n : Nat} {s : System} (hs : Reached s) (hgone : s.core.disconnected = true)
    {a : Act} (ha : a ∈ s.pending) (hin : a.inside = true) :
    ∃ es t, Goes n s es t ∧ t.core.ioMutex = false ∧
      ∀ b ∈ s.pending, b.inside = false → b ∈ t.pending := by
  -- by the number of steps that the holder has to go
  induction hk : toUnlock a using Nat.strong_induction_on generalizing s a with
  | _ k ih =>
    obtain ⟨o, c, pushed, hexec, hcase⟩ := holder_goes hs.inv hgone ha hin
    obtain ⟨i, hi⟩ := hs.lone.next ha
    obtain ⟨t, ht⟩ := Pool.run_of_next hi hexec
    have hnext : next s (.step i o) = some t := ht
    obtain ⟨a', rest, pushed', hbefore, hexec', hafter, hi'⟩ := Pool.run_pending ht
    obtain rfl := Option.some.inj (hi.symm.trans hi')
    obtain ⟨rfl, rfl⟩ := Prod.mk.inj (Option.some.inj (hexec.symm.trans hexec'))
    have hstep : Guarded (Admitted n) (fun s e t => next s e = some t) s (.step i o) t :=
      ⟨admitted_step hi (passes_inside hin o), hnext⟩
    have houtside : ∀ b ∈ s.pending, b.inside = false → b ∈ t.pending := by
      intro b hb hout
      rw [hbefore] at hb
      rw [hafter]
      rcases Multiset.mem_cons.mp hb with rfl | hb
      · rw [hin] at hout
        cases hout
      · exact Multiset.mem_add.mpr (.inr hb)
    rcases hcase with hfree | ⟨b, rfl, hbin, hlt⟩
    · exact ⟨[.step i o], t, .cons hstep (.nil t), hfree, houtside⟩
    · have hb : b ∈ t.pending := by
        rw [hafter]
        exact Multiset.mem_add.mpr (.inl (Multiset.mem_coe.mpr (List.mem_singleton.mpr rfl)))
      obtain ⟨es, u, hrun, hfree, hkept⟩ := ih _ (hk ▸ hlt) (hs.next hnext)
        (moves_gone (exec_moves hexec) hgone) hb hbin rfl
      exact ⟨_, u, .cons hstep hrun, hfree, fun x hx hout => hkept x (houtside x hx hout) hout⟩

/-- How many steps the call still has to make. -/
def stage : Act → Nat
  | .readWait _ | .writeParse _ => 5
  | .readTicks _ | .writeFill _ _ => 4
  | .readLock _ _ | .writeLock _ _ => 3
  | .readCheck _ _ | .writeCheck _ _ => 2
  | _ => 1

/-- The call waits for the mutex. -/
def locking : Act → Bool
  | .readLock _ _ | .writeLock _ _ => true
  | _ => false

section Own

variable {n : Nat} {c : Core} {a : Act}

/-- Unless it waits for the mutex, the call can go on, and is nearer to its end. -/
theorem call_goes (ha : Failing n a) (hgone : c.disconnected = true) (hp : Passes n c .go a)
    (hfree : locking a = true → ¬ c.ioMutex = true) :
    ∃ c' pushed, Model.exec .go c a = some (c', pushed) ∧
      ((∃ b, pushed = [b] ∧ Failing n b ∧ stage b < stage a ∧ ∀ c o, Passes n c o b) ∨
        c'.returned = c.returned ++ [(n, -enodev)]) := by
  cases a with
  | readWait r =>
    refine ⟨{ c with dev := c.dev.use }, [.readTicks r], ?_,
      .inl ⟨_, rfl, ha, Nat.lt_succ_self 4, fun _ _ => trivial⟩⟩
    by_cases hnonblock : r.nonblock = true
    · exact (if_pos hnonblock).trans (if_neg (hp ha hnonblock))
    · exact (if_neg hnonblock).trans (if_pos (.inr hgone))
  | readTicks r => exact ⟨_, _, rfl, .inl ⟨_, rfl, ha, Nat.lt_succ_self 3, fun _ _ => trivial⟩⟩
  | readLock r ticks | writeLock w interval =>
    exact ⟨_, _, if_neg (hfree rfl),
      .inl ⟨_, rfl, ha, Nat.lt_succ_self 2, fun _ _ => trivial⟩⟩
  | readCheck r ticks =>
    refine ⟨_, [if c.disconnected then .readUnlock r (-enodev) else .readBulk r ticks], rfl,
      .inl ⟨_, rfl, ?_⟩⟩
    rw [if_pos hgone]
    exact ⟨⟨ha, rfl⟩, Nat.lt_succ_self 1, fun _ _ => trivial⟩
  | readUnlock r err | writeUnlock w err =>
    obtain ⟨rfl, rfl⟩ := ha
    exact ⟨_, _, rfl, .inr rfl⟩
  | writeParse w =>
    obtain ⟨hw, interval, hparsed⟩ := ha
    refine ⟨c, [.writeFill w interval], ?_,
      .inl ⟨_, rfl, hw, Nat.lt_succ_self 4, fun _ _ => trivial⟩⟩
    show act .go c (.writeParse w) = _
    simp only [act, hparsed]
  | writeFill w interval =>
    exact ⟨_, _, rfl, .inl ⟨_, rfl, ha, Nat.lt_succ_self 3, fun _ _ => trivial⟩⟩
  | writeCheck w interval =>
    refine ⟨_, [if c.disconnected then .writeUnlock w (-enodev) else .writeSubmit w interval], rfl,
      .inl ⟨_, rfl, ?_⟩⟩
    rw [if_pos hgone]
    exact ⟨⟨ha, rfl⟩, Nat.lt_succ_self 1, fun _ _ => trivial⟩
  | _ => exact absurd ha not_false

end Own

/-- From wherever the call is, it can be brought to return -ENODEV. -/
theorem call_returns {n : Nat} {past : List Label} {s : System} (hs : Reached s)
    (h : Doomed n past s) {a : Act} (ha : a ∈ s.pending) (hcaller : caller a = some n)
    (hp : Passes n s.core .go a) : ∃ es t, Goes n s es t ∧ (n, -enodev) ∈ t.core.returned := by
  -- by the number of steps that the call has to make
  induction hk : stage a using Nat.strong_induction_on generalizing s past a with
  | _ k ih =>
    have hfailing := h.acts a ha hcaller
    -- first somebody else may have to give the mutex back
    obtain ⟨es, t, hrun, hfree, hat, hpt⟩ : ∃ es t, Goes n s es t ∧
        (locking a = true → ¬ t.core.ioMutex = true) ∧ a ∈ t.pending ∧ Passes n t.core .go a := by
      by_cases hwaits : locking a = true ∧ s.core.ioMutex = true
      · obtain ⟨hlocking, hheld⟩ := hwaits
        have hout : a.inside = false ∧ ∀ c o, Passes n c o a := by
          cases a with
          | readLock | writeLock => exact ⟨rfl, fun _ _ => trivial⟩
          | _ => cases hlocking
        have hpos : 0 < cnt Act.inside s.pending := by
          have hexcl := hs.inv.lock.excl
          rw [hexcl]
          show 0 < s.core.ioMutex.toNat
          rw [hheld]
          exact Nat.one_pos
        obtain ⟨b, hb, hin⟩ := cnt_pos.mp hpos
        obtain ⟨es, t, hrun, hfree, hkept⟩ := mutex_freed (n := n) hs h.gone hb hin
        refine ⟨es, t, hrun, ?_, hkept a ha hout.1, hout.2 _ _⟩
        intro _
        rw [hfree]
        decide
      · exact ⟨[], s, .nil s, fun hlocking hheld => hwaits ⟨hlocking, hheld⟩, ha, hp⟩
    have hd := h.run hrun
    have ht : Reached t := hrun.invariant (fun _ _ _ hu hstep => hu.next hstep.2) hs
    obtain ⟨c, pushed, hexec, hcase⟩ := call_goes hfailing hd.gone hpt hfree
    obtain ⟨i, hi⟩ := ht.lone.next hat
    obtain ⟨u, hu⟩ := Pool.run_of_next hi hexec
    have hnext : next t (.step i .go) = some u := hu
    have hadmitted : Admitted n t (.step i .go) := admitted_step hi hpt
    have hgoes : Goes n s (es ++ [.step i .go]) u :=
      hrun.append (.cons ⟨hadmitted, hnext⟩ (.nil u))
    obtain ⟨a', rest, pushed', hbefore, hexec', hafter, hi'⟩ := Pool.run_pending hu
    obtain rfl := Option.some.inj (hi.symm.trans hi')
    obtain ⟨rfl, rfl⟩ := Prod.mk.inj (Option.some.inj (hexec.symm.trans hexec'))
    rcases hcase with ⟨b, rfl, hb, hlt, hpasses⟩ | hreturned
    · have hmem : b ∈ u.pending := by
        rw [hafter]
        exact Multiset.mem_add.mpr (.inl (Multiset.mem_coe.mpr (List.mem_singleton.mpr rfl)))
      obtain ⟨es', w, hrest, hdone⟩ := ih _ (hk ▸ hlt) (ht.next hnext) (hd.next hadmitted hnext)
        hmem (caller_of_failing hb) (hpasses _ _) rfl
      exact ⟨_, w, hgoes.append hrest, hdone⟩
    · refine ⟨_, u, hgoes, ?_⟩
      rw [hreturned]
      exact List.mem_append_right _ (List.mem_singleton.mpr rfl)

/-- A call takes a number that no other has, or has returned under. -/
private theorem doomed_call {s t : System} {file : Nat} {b : Act}
    (hnumbered : Numbered s.core s.pending) (hgone : s.core.disconnected = true)
    (h : s.call file b = some t) (hb : Failing s.core.calls b) : Doomed s.core.calls [] t := by
  obtain ⟨-, heq⟩ := Option.ite_none_right_eq_some.mp h
  obtain rfl := Option.some.inj heq
  have hpending : (s.start s.core b).pending = (([b] : List Act) : Multiset Act) + s.pending :=
    Pool.spawn_pending _ _ _
  refine ⟨hgone, Nat.lt_succ_self _, ?_, ?_, .inr ⟨b, ?_, caller_of_failing hb⟩⟩
  · intro a ha hcaller
    rw [hpending] at ha
    rcases Multiset.mem_add.mp ha with ha | ha
    · obtain rfl := List.mem_singleton.mp (Multiset.mem_coe.mp ha)
      exact hb
    · exact absurd (hnumbered.caller_lt ha hcaller) (Nat.lt_irrefl _)
  · intro v hv
    exact absurd (hnumbered.returned_lt hv) (Nat.lt_irrefl _)
  · rw [hpending]
    exact Multiset.mem_add.mpr (.inl (Multiset.mem_coe.mpr (List.mem_singleton.mpr rfl)))

theorem doomed_begins {s t : System} {e : Event} (hnumbered : Numbered s.core s.pending)
    (hgone : s.core.disconnected = true) (he : requests e = true) (hn : next s e = some t) :
    Doomed s.core.calls [] t := by
  cases e with
  | read file nonblock count => exact doomed_call hnumbered hgone hn rfl
  | write file count parsed =>
    cases parsed with
    | error err => cases he
    | ok interval => exact doomed_call hnumbered hgone hn ⟨rfl, interval, rfl⟩
  | _ => cases he

/-- A read, or a write of a number, that is made once disconnect has set disconnected. As long as it
is not turned away before it takes the mutex, it returns -ENODEV, or -ERESTARTSYS if a signal finds
it waiting; and at no time is it stuck. -/
theorem unplugged_calls_fail (bulkInSize : Nat) (bulkInBuffer : List Byte) (es es' : List Event)
    (s s₁ t : System) (e : Event)
    (h : Steps (fun s e t => next s e = some t) (probed bulkInSize bulkInBuffer) es s)
    (hgone : s.core.disconnected = true) (he : requests e = true) (hstart : next s e = some s₁)
    (hrun : Goes s.core.calls s₁ es' t) :
    (∀ v, (s.core.calls, v) ∈ t.core.returned → v = -enodev ∨
      (v = -erestartsys ∧ ∃ l ∈ annotate next deed s₁ es', Signalled s.core.calls l)) ∧
    ((∀ a ∈ t.pending, Passes s.core.calls t.core .go a) →
      (∃ v, (s.core.calls, v) ∈ t.core.returned) ∨
        ∃ es'' u, Goes s.core.calls t es'' u ∧ (s.core.calls, -enodev) ∈ u.core.returned) := by
  have hs : Reached s := h.invariant (fun _ _ _ hu hstep => hu.next hstep)
    (reached_probed bulkInSize bulkInBuffer)
  have hnumbered := Numbered.steps h (Numbered.probed bulkInSize bulkInBuffer)
  have hdoomed := (doomed_begins hnumbered hgone he hstart).run hrun
  refine ⟨hdoomed.values, ?_⟩
  intro hpasses
  rcases hdoomed.somewhere with hv | ⟨a, ha, hcaller⟩
  · exact .inl hv
  · have ht : Reached t :=
      hrun.invariant (fun _ _ _ hu hstep => hu.next hstep.2) (hs.next hstart)
    exact .inr (call_returns ht hdoomed ha hcaller (hpasses a ha))

/-- A file is opened; the device is disconnected as far as that disconnected is set and the mutex
given back. -/
def unplugsOpen : List Event :=
  [Event.openFile] ++ List.replicate 7 (Event.step 0 .go) ++ [Event.disconnect] ++
    List.replicate 4 (Event.step 1 .go)

/-- A read that would have waited for a tick, and does not. -/
theorem unplugged_calls_fail_read :
    ∃ s s₁ t, Steps (fun s e t => next s e = some t) (probed 64 []) unplugsOpen s ∧
      s.core.disconnected = true ∧ next s (.read 0 false 100) = some s₁ ∧
      Goes s.core.calls s₁ [.step 2 .go, .step 2 .go] t ∧
      ∃ es u, Goes s.core.calls t es u ∧ (s.core.calls, -enodev) ∈ u.core.returned := by
  have hexec : (exec next (probed 64 []) unplugsOpen).bind (fun s =>
      (next s (.read 0 false 100)).bind fun s₁ =>
        (exec (fun s e => if Admitted 2 s e then next s e else none) s₁
          [.step 2 .go, .step 2 .go]).map fun t =>
        (s.core.disconnected, s.core.calls, t.core.returned,
          t.threads.all fun x => x.todo.all fun a => decide (Passes 2 t.core .go a))) =
      some (true, 2, [(0, 0)], true) := by decide +kernel
  obtain ⟨s, hs, hexec⟩ := Option.bind_eq_some_iff.mp hexec
  obtain ⟨s₁, hs₁, hexec⟩ := Option.bind_eq_some_iff.mp hexec
  obtain ⟨t, ht, heq⟩ := Option.map_eq_some_iff.mp hexec
  obtain ⟨hgone, hcalls, hreturned, hall⟩ := by simpa only [Prod.mk.injEq] using heq
  have hgoes : Goes s.core.calls s₁ [.step 2 .go, .step 2 .go] t := by
    rw [hcalls]
    exact exec_guarded_steps ht
  have hpasses : ∀ a ∈ t.pending, Passes s.core.calls t.core .go a := by
    intro a ha
    obtain ⟨x, hx, ha⟩ := Pool.mem_pending.mp ha
    rw [hcalls]
    exact of_decide_eq_true (List.all_eq_true.mp (List.all_eq_true.mp hall x hx) a ha)
  refine ⟨s, s₁, t, exec_steps hs, hgone, hs₁, hgoes, ?_⟩
  rcases (unplugged_calls_fail 64 [] unplugsOpen _ s s₁ t _ (exec_steps hs) hgone rfl hs₁ hgoes).2
    hpasses with ⟨v, hv⟩ | hreturns
  · rw [hcalls, hreturned] at hv
    have hsame : 2 = 0 := (Prod.mk.inj (List.mem_singleton.mp hv)).1
    exact absurd hsame (by decide)
  · exact hreturns

/-- The same read with O_NONBLOCK: the file has seen every tick there was. -/
theorem nonblocking_read_again :
    ∃ s s₁ t, Steps (fun s e t => next s e = some t) (probed 64 []) unplugsOpen s ∧
      s.core.disconnected = true ∧ next s (.read 0 true 100) = some s₁ ∧
      Steps (fun s e t => next s e = some t) s₁ [.step 2 .go] t ∧
      (s.core.calls, -eagain) ∈ t.core.returned := by
  have hexec : (exec next (probed 64 []) unplugsOpen).bind (fun s =>
      (next s (.read 0 true 100)).bind fun s₁ => (next s₁ (.step 2 .go)).map fun t =>
        (s.core.disconnected, s.core.calls, t.core.returned)) =
      some (true, 2, [(0, 0), (2, -eagain)]) := by decide +kernel
  obtain ⟨s, hs, hexec⟩ := Option.bind_eq_some_iff.mp hexec
  obtain ⟨s₁, hs₁, hexec⟩ := Option.bind_eq_some_iff.mp hexec
  obtain ⟨t, ht, heq⟩ := Option.map_eq_some_iff.mp hexec
  obtain ⟨hgone, hcalls, hreturned⟩ := by simpa only [Prod.mk.injEq] using heq
  refine ⟨s, s₁, t, exec_steps hs, hgone, hs₁, .cons ht (.nil t), ?_⟩
  rw [hcalls, hreturned]
  exact List.mem_cons_of_mem _ (List.mem_singleton.mpr rfl)

end LinuxDeviceDriver.Drivers.UsbSkel.Unplugged
