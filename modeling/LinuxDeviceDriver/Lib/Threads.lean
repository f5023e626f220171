/- digest: Any number of threads over a shared core, each a stack of atomic actions;
     invariants over the actions still to come, and calls of which one runs at a time. -/

import Mathlib.Data.Multiset.Bind
import Mathlib.Data.Multiset.Filter

set_option autoImplicit false

namespace LinuxDeviceDriver.Lib.Threads

universe u

variable {C K A O : Type u}

/-- A call in progress, and the actions it still has to do. -/
structure Thread (K A : Type u) where
  call : K
  todo : List A

/-- A thread with nothing to do has returned from its call. -/
structure Pool (C K A : Type u) where
  core : C
  threads : List (Thread K A) := []

/-- Thread i does its next action; what the action calls comes before the rest. -/
def Pool.run (exec : O → C → A → Option (C × List A)) (s : Pool C K A) (i : Nat) (o : O) :
    Option (Pool C K A) :=
  match s.threads[i]? with
  | some ⟨call, a :: rest⟩ =>
    (exec o s.core a).map fun r => ⟨r.1, s.threads.set i ⟨call, r.2 ++ rest⟩⟩
  | _ => none

def Pool.spawn (s : Pool C K A) (c : C) (t : Thread K A) : Pool C K A := ⟨c, s.threads ++ [t]⟩

/-- The actions to come, of all threads. -/
def Pool.pending (s : Pool C K A) : Multiset A := (s.threads.flatMap Thread.todo : List A)

/-- The action that thread i does next. -/
def Pool.next (s : Pool C K A) (i : Nat) : Option A := s.threads[i]?.bind fun t => t.todo.head?

/-- No call of this kind is in progress. -/
def Pool.Idle (s : Pool C K A) (kind : K → Bool) : Prop :=
  ∀ t ∈ s.threads, kind t.call = true → t.todo = []

instance (s : Pool C K A) (kind : K → Bool) : Decidable (s.Idle kind) :=
  decidable_of_iff (∀ t ∈ s.threads, kind t.call = true → t.todo.isEmpty = true) <| by
    simp [Pool.Idle]

section Run

variable {exec : O → C → A → Option (C × List A)} {s s' : Pool C K A} {i : Nat} {o : O}

/-- What a step of one thread does to the list of threads. -/
theorem Pool.run_threads (h : s.run exec i o = some s') :
    ∃ l r call a rest pushed, s.threads = l ++ ⟨call, a :: rest⟩ :: r ∧
      exec o s.core a = some (s'.core, pushed) ∧
      s'.threads = l ++ ⟨call, pushed ++ rest⟩ :: r ∧ s.next i = some a := by
  unfold Pool.run at h
  split at h
  · next call a rest hi =>
    obtain ⟨⟨c, pushed⟩, hexec, rfl⟩ := Option.map_eq_some_iff.mp h
    obtain ⟨hlt, hget⟩ := List.getElem?_eq_some_iff.mp hi
    refine ⟨s.threads.take i, s.threads.drop (i + 1), call, a, rest, pushed, ?_, hexec, ?_, ?_⟩
    · rw [← hget, List.getElem_cons_drop, List.take_append_drop]
    · show s.threads.set i _ = _
      rw [List.set_eq_take_append_cons_drop, if_pos hlt]
    · rw [Pool.next, hi]
      rfl
  · cases h

theorem Pool.run_pending (h : s.run exec i o = some s') :
    ∃ a rest pushed, s.pending = a ::ₘ rest ∧ exec o s.core a = some (s'.core, pushed) ∧
      s'.pending = (pushed : Multiset A) + rest ∧ s.next i = some a := by
  obtain ⟨l, r, call, a, rest, pushed, hs, hexec, hs', hnext⟩ := Pool.run_threads h
  refine ⟨a, (l.flatMap Thread.todo ++ (rest ++ r.flatMap Thread.todo) : List A), pushed, ?_,
    hexec, ?_, hnext⟩
  · rw [Pool.pending, hs, Multiset.cons_coe, Multiset.coe_eq_coe]
    simp only [List.flatMap_append, List.flatMap_cons, List.cons_append]
    exact List.perm_middle
  · rw [Pool.pending, hs', Multiset.coe_add, Multiset.coe_eq_coe]
    simp only [List.flatMap_append, List.flatMap_cons, List.append_assoc]
    rw [← List.append_assoc, ← List.append_assoc pushed]
    exact List.perm_append_comm.append_right _

/-- A thread whose next action can be done goes on with the first action that it calls. -/
theorem Pool.run_next {a b : A} {c : C} {pushed : List A} (hnext : s.next i = some a)
    (hexec : exec o s.core a = some (c, b :: pushed)) :
    ∃ s', s.run exec i o = some s' ∧ s'.core = c ∧ s'.next i = some b := by
  obtain ⟨⟨call, todo⟩, ht, hhead⟩ := Option.bind_eq_some_iff.mp hnext
  obtain ⟨rest, rfl⟩ := List.head?_eq_some_iff.mp hhead
  have hlt : i < s.threads.length := (List.getElem?_eq_some_iff.mp ht).1
  refine ⟨⟨c, s.threads.set i ⟨call, b :: pushed ++ rest⟩⟩, ?_, rfl, ?_⟩
  · rw [Pool.run, ht]
    simp only [hexec, Option.map_some]
  · rw [Pool.next, List.getElem?_set_self hlt]
    rfl

/-- What one action keeps, whatever else is to come, a step of any thread keeps. -/
theorem Pool.run_invariant {Inv : C → Multiset A → Prop}
    (hexec : ∀ o c a rest c' pushed, Inv c (a ::ₘ rest) → exec o c a = some (c', pushed) →
      Inv c' ((pushed : Multiset A) + rest))
    (h : s.run exec i o = some s') (hs : Inv s.core s.pending) : Inv s'.core s'.pending := by
  obtain ⟨a, rest, pushed, hp, he, hp', -⟩ := Pool.run_pending h
  rw [hp']
  exact hexec o s.core a rest s'.core pushed (hp ▸ hs) he

/-- A pool over another core with the same threads takes the same step, if its core can
follow the action. -/
theorem Pool.run_sim {D : Type u} {exec' : O → D → A → Option (D × List A)} {t : Pool D K A}
    {R : C → D → Prop} (ht : s.threads = t.threads)
    (hsim : ∀ a ∈ s.pending, ∀ c pushed, exec o s.core a = some (c, pushed) →
      ∃ d, exec' o t.core a = some (d, pushed) ∧ R c d)
    (h : s.run exec i o = some s') :
    ∃ t', t.run exec' i o = some t' ∧ s'.threads = t'.threads ∧ R s'.core t'.core := by
  unfold Pool.run at h
  split at h
  · next call a rest hi =>
    obtain ⟨⟨c, pushed⟩, hexec, rfl⟩ := Option.map_eq_some_iff.mp h
    have ha : a ∈ s.pending := by
      rw [Pool.pending, Multiset.mem_coe, List.mem_flatMap]
      exact ⟨_, List.mem_of_getElem? hi, List.mem_cons_self⟩
    obtain ⟨d, hd, hR⟩ := hsim a ha c pushed hexec
    refine ⟨⟨d, t.threads.set i ⟨call, pushed ++ rest⟩⟩, ?_, ?_, hR⟩
    · simp only [Pool.run, ← ht, hi, hd, Option.map_some]
    · simp only [ht]
  · cases h

end Run

@[simp] theorem Pool.spawn_pending (s : Pool C K A) (c : C) (t : Thread K A) :
    (s.spawn c t).pending = (t.todo : Multiset A) + s.pending := by
  rw [Pool.pending, Pool.spawn, Pool.pending, Multiset.coe_add, Multiset.coe_eq_coe]
  simp only [List.flatMap_append, List.flatMap_cons, List.flatMap_nil, List.append_nil]
  exact List.perm_append_comm

theorem Pool.mem_pending {s : Pool C K A} {a : A} :
    a ∈ s.pending ↔ ∃ t ∈ s.threads, a ∈ t.todo := by
  rw [Pool.pending, Multiset.mem_coe, List.mem_flatMap]

theorem Pool.mem_of_next {s : Pool C K A} {i : Nat} {a : A} (h : s.next i = some a) :
    a ∈ s.pending := by
  obtain ⟨t, ht, hhead⟩ := Option.bind_eq_some_iff.mp h
  exact Pool.mem_pending.mpr ⟨t, List.mem_of_getElem? ht, List.mem_of_head? hhead⟩

theorem Pool.pending_idle {s : Pool C K A} (h : s.Idle fun _ => true) : s.pending = 0 := by
  rw [Multiset.eq_zero_iff_forall_notMem]
  intro a ha
  obtain ⟨t, ht, ha⟩ := Pool.mem_pending.mp ha
  rw [h t ht rfl] at ha
  cases ha

/-! ## Threads with one action to come -/

section Lone

variable {exec : O → C → A → Option (C × List A)} {s s' : Pool C K A} {i : Nat} {o : O} {a : A}

/-- No thread has more than one action to come. -/
def Pool.Lone (s : Pool C K A) : Prop := ∀ t ∈ s.threads, t.todo.length ≤ 1

theorem Pool.Lone.run (hs : s.Lone)
    (hexec : ∀ c a c' pushed, exec o c a = some (c', pushed) → pushed.length ≤ 1)
    (h : s.run exec i o = some s') : s'.Lone := by
  obtain ⟨l, r, call, a, rest, pushed, ht, he, ht', -⟩ := Pool.run_threads h
  intro t hmem
  rw [ht', List.mem_append, List.mem_cons] at hmem
  rcases hmem with hl | rfl | hr
  · exact hs t (by rw [ht]; exact List.mem_append_left _ hl)
  · have hold := hs ⟨call, a :: rest⟩ (by rw [ht]; simp)
    have hpushed := hexec s.core a s'.core pushed he
    rw [List.length_cons] at hold
    rw [List.length_append]
    omega
  · exact hs t (by rw [ht]; exact List.mem_append_right _ (List.mem_cons_of_mem _ hr))

theorem Pool.Lone.spawn (hs : s.Lone) (c : C) {t : Thread K A} (ht : t.todo.length ≤ 1) :
    (s.spawn c t).Lone := by
  intro t' hmem
  rcases List.mem_append.mp hmem with h | h
  · exact hs t' h
  · obtain rfl := List.mem_singleton.mp h
    exact ht

theorem Pool.Lone.next (hs : s.Lone) (ha : a ∈ s.pending) : ∃ i, s.next i = some a := by
  obtain ⟨t, ht, ha⟩ := Pool.mem_pending.mp ha
  obtain ⟨i, hi⟩ := List.mem_iff_getElem?.mp ht
  refine ⟨i, ?_⟩
  have hone : t.todo = [a] := by
    have hle := hs t ht
    match h : t.todo with
    | [] =>
      rw [h] at ha
      cases ha
    | [b] =>
      rw [h] at ha
      rw [List.mem_singleton.mp ha]
    | _ :: _ :: _ =>
      rw [h] at hle
      simp at hle
  rw [Pool.next, hi, Option.bind_some, hone]
  rfl

/-- A thread whose next action can be done can take its step. -/
theorem Pool.run_of_next {r : C × List A} (ha : s.next i = some a)
    (he : exec o s.core a = some r) : ∃ t, s.run exec i o = some t := by
  obtain ⟨t, ht, hhead⟩ := Option.bind_eq_some_iff.mp ha
  obtain ⟨call, todo⟩ := t
  obtain ⟨rest, rfl⟩ := List.head?_eq_some_iff.mp hhead
  exact ⟨_, by simp only [Pool.run, ht, he, Option.map_some]; rfl⟩

end Lone

/-! ## Counting -/

section Count

/-- How many of the actions are of a class. -/
def cnt (p : A → Bool) (m : Multiset A) : Nat := m.countP (fun a => p a = true)

variable {p q : A → Bool} {a : A} {m : Multiset A}

@[simp] theorem cnt_zero : cnt p 0 = 0 := Multiset.countP_zero _

@[simp] theorem cnt_cons : cnt p (a ::ₘ m) = (p a).toNat + cnt p m := by
  rw [cnt, Multiset.countP_cons, Nat.add_comm]
  cases p a <;> rfl

@[simp] theorem cnt_add (m m' : Multiset A) : cnt p (m + m') = cnt p m + cnt p m' :=
  Multiset.countP_add _ _ _

@[simp] theorem cnt_coe_nil : cnt p (([] : List A) : Multiset A) = 0 := rfl

@[simp] theorem cnt_coe_cons (l : List A) :
    cnt p ((a :: l : List A) : Multiset A) = (p a).toNat + cnt p (l : Multiset A) := by
  rw [← Multiset.cons_coe, cnt_cons]

@[simp] theorem cnt_singleton : cnt p {a} = (p a).toNat := by
  rw [← Multiset.cons_zero, cnt_cons, cnt_zero, Nat.add_zero]

@[simp] theorem cnt_coe_append (l l' : List A) :
    cnt p ((l ++ l' : List A) : Multiset A) = cnt p (l : Multiset A) + cnt p (l' : Multiset A) := by
  rw [← Multiset.coe_add, cnt_add]

theorem cnt_eq_zero : cnt p m = 0 ↔ ∀ a ∈ m, p a = false := by
  simp [cnt, Multiset.countP_eq_zero]

theorem cnt_pos : 0 < cnt p m ↔ ∃ a ∈ m, p a = true := Multiset.countP_pos

theorem cnt_pos_of_mem (ha : a ∈ m) (hp : p a = true) : 0 < cnt p m := cnt_pos.mpr ⟨a, ha, hp⟩

theorem cnt_mono (h : ∀ a, p a = true → q a = true) (m : Multiset A) : cnt p m ≤ cnt q m := by
  induction m using Multiset.induction_on with
  | empty => simp
  | cons a m ih =>
    have hle : (p a).toNat ≤ (q a).toNat := by
      cases hp : p a with
      | false => simp
      | true => rw [h a hp]
    rw [cnt_cons, cnt_cons]
    omega

end Count

/-! ## What the actions carry -/

section Collect

variable {B : Type u}

/-- All that the actions to come carry, if f says what each one carries. -/
def collect (f : A → Option B) (m : Multiset A) : Multiset B :=
  Multiset.bind m fun a => (f a).toList

variable {f : A → Option B} {a : A} {m : Multiset A} {l : List A}

@[simp] theorem collect_zero : collect f 0 = 0 := Multiset.zero_bind _

@[simp] theorem collect_cons :
    collect f (a ::ₘ m) = ((f a).toList : Multiset B) + collect f m := Multiset.cons_bind _ _ _

@[simp] theorem collect_add (m m' : Multiset A) : collect f (m + m') = collect f m + collect f m' :=
  Multiset.add_bind _ _ _

@[simp] theorem collect_singleton : collect f {a} = ((f a).toList : Multiset B) :=
  Multiset.singleton_bind _ _

@[simp] theorem collect_coe_nil : collect f (([] : List A) : Multiset A) = 0 := rfl

@[simp] theorem collect_coe_cons : collect f ((a :: l : List A) : Multiset A) =
    ((f a).toList : Multiset B) + collect f (l : Multiset A) := by
  rw [← Multiset.cons_coe, collect_cons]

theorem collect_coe_append (l l' : List A) : collect f ((l ++ l' : List A) : Multiset A) =
    collect f (l : Multiset A) + collect f (l' : Multiset A) := by
  rw [← Multiset.coe_add, collect_add]

theorem mem_collect {b : B} : b ∈ collect f m ↔ ∃ a ∈ m, f a = some b := by
  simp [collect, Multiset.mem_bind, Option.mem_toList]

theorem count_collect [DecidableEq B] (b : B) (m : Multiset A) :
    (collect f m).count b = cnt (fun a => decide (f a = some b)) m := by
  induction m using Multiset.induction_on with
  | empty => simp
  | cons a m ih =>
    rw [collect_cons, Multiset.count_add, ih, cnt_cons, Multiset.coe_count]
    congr 1
    cases h : f a with
    | none => simp
    | some b' =>
      by_cases hb : b' = b
      · simp [hb]
      · simp [hb]

end Collect

/-! ## Calls of which one runs at a time -/

section Serial

variable {exec : O → C → A → Option (C × List A)} {s s' : Pool C K A} {i : Nat} {o : O}
variable {p : A → Bool} {kind : K → Bool}

/-- An action of the class leaves at most one more of the class to do, any other none. -/
def Linear (exec : O → C → A → Option (C × List A)) (p : A → Bool) : Prop :=
  ∀ o c a c' pushed, exec o c a = some (c', pushed) → cnt p (pushed : Multiset A) ≤ (p a).toNat

/-- Calls of this kind have at most one action of the class to do, other calls none;
and there is at most one in all. -/
structure Serial (p : A → Bool) (kind : K → Bool) (s : Pool C K A) : Prop where
  own : ∀ t ∈ s.threads, cnt p (t.todo : Multiset A) ≤ (kind t.call).toNat
  single : cnt p s.pending ≤ 1

theorem Serial.run (hlin : Linear exec p) (hs : Serial p kind s)
    (h : s.run exec i o = some s') : Serial p kind s' := by
  constructor
  · obtain ⟨l, r, call, a, rest, pushed, ht, he, ht', -⟩ := Pool.run_threads h
    intro t hmem
    rw [ht', List.mem_append, List.mem_cons] at hmem
    rcases hmem with hl | rfl | hr
    · exact hs.own t (by rw [ht]; exact List.mem_append_left _ hl)
    · have hold := hs.own ⟨call, a :: rest⟩ (by rw [ht]; simp)
      have hle := hlin o s.core a s'.core pushed he
      rw [cnt_coe_cons] at hold
      rw [← Multiset.coe_add, cnt_add]
      exact (Nat.add_le_add_right hle _).trans hold
    · exact hs.own t (by rw [ht]; exact List.mem_append_right _ (List.mem_cons_of_mem _ hr))
  · obtain ⟨a, rest, pushed, hp, he, hp', -⟩ := Pool.run_pending h
    have hold := hs.single
    have hle := hlin o s.core a s'.core pushed he
    rw [hp, cnt_cons] at hold
    rw [hp', cnt_add]
    omega

/-- While no call of the kind is in progress, no action of the class is to come. -/
theorem Serial.idle (hs : Serial p kind s) (hidle : s.Idle kind) : cnt p s.pending = 0 := by
  rw [cnt_eq_zero]
  intro a ha
  obtain ⟨t, ht, ha⟩ := Pool.mem_pending.mp ha
  have hle := hs.own t ht
  cases hk : kind t.call with
  | true =>
    rw [hidle t ht hk] at ha
    exact absurd ha List.not_mem_nil
  | false =>
    rw [hk] at hle
    exact cnt_eq_zero.mp (Nat.le_zero.mp hle) a ha

/-- A call of the kind may start when no other is in progress. -/
theorem Serial.spawn (hs : Serial p kind s) (c : C) (t : Thread K A)
    (ht : cnt p (t.todo : Multiset A) ≤ (kind t.call).toNat)
    (hidle : kind t.call = true → s.Idle kind) : Serial p kind (s.spawn c t) := by
  constructor
  · intro t' hmem
    rcases List.mem_append.mp hmem with h | h
    · exact hs.own t' h
    · obtain rfl := List.mem_singleton.mp h
      exact ht
  · rw [Pool.spawn_pending, cnt_add]
    have hone := hs.single
    cases hk : kind t.call with
    | false =>
      rw [hk, Bool.toNat_false] at ht
      omega
    | true =>
      have hnone := hs.idle (hidle hk)
      rw [hk, Bool.toNat_true] at ht
      omega

end Serial

end LinuxDeviceDriver.Lib.Threads
