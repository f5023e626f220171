/- digest: Binary trees that are searched by a comparison with their nodes, seen through their
     in-order lists: what finding, adding, replacing and removing a node do to that list. -/

import Mathlib.Data.List.Pairwise

set_option autoImplicit false

namespace LinuxDeviceDriver.Lib.SearchTree

universe u

inductive BinTree (A : Type u)
  | leaf
  | node (left : BinTree A) (a : A) (right : BinTree A)
  deriving Repr, DecidableEq

variable {A : Type u}

namespace BinTree

def inorder : BinTree A → List A
  | leaf => []
  | node l a r => l.inorder ++ a :: r.inorder

/-- The walk down goes left where the comparison is negative and right where it is positive. -/
def find (cmp : A → Int) : BinTree A → Option A
  | leaf => none
  | node l a r => if cmp a < 0 then l.find cmp else if cmp a > 0 then r.find cmp else some a

/-- The same walk; where it ends without a node, the new one is added. -/
def findAdd (cmp : A → Int) (new : A) : BinTree A → BinTree A × Option A
  | leaf => (node leaf new leaf, none)
  | node l a r =>
    if cmp a < 0 then
      let found := l.findAdd cmp new
      (node found.1 a r, found.2)
    else if cmp a > 0 then
      let found := r.findAdd cmp new
      (node l a found.1, found.2)
    else (node l a r, some a)

/-- The leftmost node, and what is left without it. -/
def popFirst : BinTree A → Option (A × BinTree A)
  | leaf => none
  | node l a r =>
    match l.popFirst with
    | none => some (a, r)
    | some (first, l') => some (first, node l' a r)

/-- What takes the place of a node with these children. -/
def join : BinTree A → BinTree A → BinTree A
  | leaf, r => r
  | l, r =>
    match r.popFirst with
    | none => l
    | some (first, r') => node l first r'

section Change

variable [DecidableEq A]

def erase (x : A) : BinTree A → BinTree A
  | leaf => leaf
  | node l a r => if a = x then l.join r else node (l.erase x) a (r.erase x)

def replace (x y : A) : BinTree A → BinTree A
  | leaf => leaf
  | node l a r => if a = x then node l y r else node (l.replace x y) a (r.replace x y)

end Change

end BinTree

/-- Rotations and changes of colour, which keep the order of the nodes. -/
structure Rebalance (A : Type u) where
  run : BinTree A → BinTree A
  inorder_run : ∀ t, (run t).inorder = t.inorder

/-- The comparison goes down along the list, and is zero for at most one node. -/
def Cuts (cmp : A → Int) (as : List A) : Prop := as.Pairwise fun a b => cmp a ≤ 0 → cmp b < 0

namespace BinTree

section Find

variable {cmp : A → Int} {t : BinTree A} {a : A}

theorem cuts_left {l r : BinTree A} (h : Cuts cmp (node l a r).inorder) : Cuts cmp l.inorder :=
  (List.pairwise_append.mp h).1

theorem cuts_right {l r : BinTree A} (h : Cuts cmp (node l a r).inorder) : Cuts cmp r.inorder :=
  (List.pairwise_cons.mp (List.pairwise_append.mp h).2.1).2

/-- Left of a node that is not below what is looked for, everything is above zero. -/
theorem pos_of_mem_left {l r : BinTree A} (h : Cuts cmp (node l a r).inorder) (ha : 0 ≤ cmp a) :
    ∀ b ∈ l.inorder, 0 < cmp b := by
  intro b hb
  have hpair := (List.pairwise_append.mp h).2.2 b hb a List.mem_cons_self
  by_contra hneg
  have hlt := hpair (by omega)
  omega

theorem neg_of_mem_right {l r : BinTree A} (h : Cuts cmp (node l a r).inorder) (ha : cmp a ≤ 0) :
    ∀ b ∈ r.inorder, cmp b < 0 := by
  intro b hb
  exact (List.pairwise_cons.mp (List.pairwise_append.mp h).2.1).1 b hb ha

/-- The walk finds the node for which the comparison is zero. -/
theorem find_eq_some (h : Cuts cmp t.inorder) (x : A) :
    t.find cmp = some x ↔ x ∈ t.inorder ∧ cmp x = 0 := by
  induction t with
  | leaf => simp [find, inorder]
  | node l a r ihl ihr =>
    have hmem : x ∈ (node l a r).inorder ↔ x ∈ l.inorder ∨ x = a ∨ x ∈ r.inorder := by
      rw [inorder, List.mem_append, List.mem_cons]
    rw [find, hmem]
    rcases Int.lt_trichotomy (cmp a) 0 with hlt | heq | hgt
    · rw [if_pos hlt, ihl (cuts_left h)]
      constructor
      · exact fun ⟨hx, hzero⟩ => ⟨.inl hx, hzero⟩
      · rintro ⟨hx | rfl | hx, hzero⟩
        · exact ⟨hx, hzero⟩
        · omega
        · have hneg := neg_of_mem_right h (Int.le_of_lt hlt) x hx
          omega
    · rw [if_neg (by omega), if_neg (by omega), Option.some.injEq]
      constructor
      · rintro rfl
        exact ⟨.inr (.inl rfl), heq⟩
      · rintro ⟨hx | rfl | hx, hzero⟩
        · have hpos := pos_of_mem_left h (Int.le_of_eq heq.symm) x hx
          omega
        · rfl
        · have hneg := neg_of_mem_right h (Int.le_of_eq heq) x hx
          omega
    · rw [if_neg (by omega), if_pos hgt, ihr (cuts_right h)]
      constructor
      · exact fun ⟨hx, hzero⟩ => ⟨.inr (.inr hx), hzero⟩
      · rintro ⟨hx | rfl | hx, hzero⟩
        · have hpos := pos_of_mem_left h (Int.le_of_lt hgt) x hx
          omega
        · omega
        · exact ⟨hx, hzero⟩

theorem find_eq_none (h : Cuts cmp t.inorder) :
    t.find cmp = none ↔ ∀ x ∈ t.inorder, cmp x ≠ 0 := by
  rw [Option.eq_none_iff_forall_ne_some]
  constructor
  · exact fun hnone x hx hzero => hnone x ((find_eq_some h x).mpr ⟨hx, hzero⟩)
  · intro hnone x hfound
    obtain ⟨hx, hzero⟩ := (find_eq_some h x).mp hfound
    exact hnone x hx hzero

theorem findAdd_snd (cmp : A → Int) (new : A) (t : BinTree A) :
    (t.findAdd cmp new).2 = t.find cmp := by
  induction t with
  | leaf => rfl
  | node l a r ihl ihr =>
    rw [findAdd, find]
    split
    · exact ihl
    · split
      · exact ihr
      · rfl

/-- A node that is found stops the walk: nothing is added. -/
theorem findAdd_found (new : A) {x : A} (h : t.find cmp = some x) : (t.findAdd cmp new).1 = t := by
  induction t with
  | leaf => cases h
  | node l a r ihl ihr =>
    rw [find] at h
    rw [findAdd]
    split
    · next hlt =>
      rw [if_pos hlt] at h
      exact congrArg (node · a r) (ihl h)
    · next hge =>
      rw [if_neg hge] at h
      split
      · next hgt =>
        rw [if_pos hgt] at h
        exact congrArg (node l a) (ihr h)
      · rfl

/-- Otherwise the new node is put where the comparison passes zero. -/
theorem findAdd_added (new : A) (hcuts : Cuts cmp t.inorder) (h : t.find cmp = none) :
    ∃ as bs, t.inorder = as ++ bs ∧ (t.findAdd cmp new).1.inorder = as ++ new :: bs ∧
      (∀ a ∈ as, 0 < cmp a) ∧ ∀ b ∈ bs, cmp b < 0 := by
  induction t with
  | leaf =>
    refine ⟨[], [], rfl, rfl, ?_, ?_⟩
    · intro a ha
      cases ha
    · intro b hb
      cases hb
  | node l a r ihl ihr =>
    rw [find] at h
    rcases Int.lt_trichotomy (cmp a) 0 with hlt | heq | hgt
    · rw [if_pos hlt] at h
      obtain ⟨as, bs, hl, hnew, hpos, hneg⟩ := ihl (cuts_left hcuts) h
      refine ⟨as, bs ++ a :: r.inorder, ?_, ?_, hpos, ?_⟩
      · rw [inorder, hl, List.append_assoc]
      · rw [findAdd, if_pos hlt, inorder, hnew, List.append_assoc, List.cons_append]
      · intro b hb
        rcases List.mem_append.mp hb with hb | hb
        · exact hneg b hb
        · rcases List.mem_cons.mp hb with rfl | hb
          · exact hlt
          · exact neg_of_mem_right hcuts (Int.le_of_lt hlt) b hb
    · rw [if_neg (by omega), if_neg (by omega)] at h
      cases h
    · rw [if_neg (by omega), if_pos hgt] at h
      obtain ⟨as, bs, hr, hnew, hpos, hneg⟩ := ihr (cuts_right hcuts) h
      refine ⟨l.inorder ++ a :: as, bs, ?_, ?_, ?_, hneg⟩
      · rw [inorder, hr, List.append_assoc, List.cons_append]
      · rw [findAdd, if_neg (by omega), if_pos hgt, inorder, hnew, List.append_assoc,
          List.cons_append]
      · intro b hb
        rcases List.mem_append.mp hb with hb | hb
        · exact pos_of_mem_left hcuts (Int.le_of_lt hgt) b hb
        · rcases List.mem_cons.mp hb with rfl | hb
          · exact hgt
          · exact hpos b hb

end Find

section Remove

theorem popFirst_none {t : BinTree A} (h : t.popFirst = none) : t = leaf := by
  cases t with
  | leaf => rfl
  | node l a r =>
    rw [popFirst] at h
    split at h <;> cases h

theorem popFirst_inorder {t t' : BinTree A} {first : A} (h : t.popFirst = some (first, t')) :
    t.inorder = first :: t'.inorder := by
  induction t generalizing t' with
  | leaf => cases h
  | node l a r ihl _ =>
    rw [popFirst] at h
    split at h
    · next hnone =>
      cases h
      rw [popFirst_none hnone]
      rfl
    · next b l' hsome =>
      cases h
      rw [inorder, ihl hsome]
      rfl

theorem inorder_join (l r : BinTree A) : (l.join r).inorder = l.inorder ++ r.inorder := by
  cases l with
  | leaf => rfl
  | node ll a lr =>
    rw [join]
    · split
      · next hnone =>
        rw [popFirst_none hnone]
        exact (List.append_nil _).symm
      · next first r' hsome =>
        rw [popFirst_inorder hsome]
        rfl
    · intro hleaf
      cases hleaf

variable [DecidableEq A] {x : A}

theorem inorder_erase {t : BinTree A} (h : t.inorder.Nodup) :
    (t.erase x).inorder = t.inorder.erase x := by
  induction t with
  | leaf => rfl
  | node l a r ihl ihr =>
    rw [inorder] at h ⊢
    rw [erase]
    have hparts := List.nodup_append.mp h
    have hright := (List.nodup_cons.mp hparts.2.1)
    split
    · next heq =>
      subst heq
      have hnot : a ∉ l.inorder := fun ha => hparts.2.2 a ha a List.mem_cons_self rfl
      rw [inorder_join, List.erase_append_right _ hnot, List.erase_cons_head]
    · next hne =>
      rw [inorder, ihl hparts.1, ihr hright.2]
      by_cases hl : x ∈ l.inorder
      · have hr : x ∉ r.inorder := fun hr =>
          hparts.2.2 x hl x (List.mem_cons_of_mem a hr) rfl
        rw [List.erase_append_left _ hl, List.erase_of_not_mem hr]
      · rw [List.erase_append_right _ hl, List.erase_of_not_mem hl,
          List.erase_cons_tail (by simpa using hne)]

theorem inorder_replace {t : BinTree A} {y : A} (h : t.inorder.Nodup) :
    (t.replace x y).inorder = t.inorder.map fun a => if a = x then y else a := by
  induction t with
  | leaf => rfl
  | node l a r ihl ihr =>
    rw [inorder] at h ⊢
    have hparts := List.nodup_append.mp h
    have hright := (List.nodup_cons.mp hparts.2.1)
    rw [replace, List.map_append, List.map_cons]
    split
    · next heq =>
      subst heq
      have hsame : ∀ as : List A, a ∉ as → as.map (fun b => if b = a then y else b) = as := by
        intro as hnot
        refine (List.map_congr_left fun b hb => if_neg ?_).trans (List.map_id as)
        rintro rfl
        exact hnot hb
      rw [hsame l.inorder fun ha => hparts.2.2 a ha a List.mem_cons_self rfl,
        hsame r.inorder hright.1]
      rfl
    · rw [inorder, ihl hparts.1, ihr hright.2]

end Remove

end BinTree

end LinuxDeviceDriver.Lib.SearchTree
