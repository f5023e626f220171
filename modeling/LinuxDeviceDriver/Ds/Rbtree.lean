/- source: examples/ds/rbtree/main.c, lines 9 to 109 and 149 to 168; lines 252 and 262
   digest: A tree of nodes with int keys under insertions, replacements and removals: which keys an
     insertion refuses, what a search finds, and what check_tree counts. -/

import LinuxDeviceDriver.Lib.SearchTree
import LinuxDeviceDriver.Lib.Transition
import Mathlib.Data.BitVec

set_option autoImplicit false

namespace LinuxDeviceDriver.Ds.Rbtree

open Lib.SearchTree
open Lib.Transition (Steps exec exec_steps)

/-- A node: where it is, and what is in it. -/
structure RbData where
  addr : Nat
  key : BitVec 32
  val : BitVec 8
  deriving DecidableEq, Repr

def rbDataCmp (a b : RbData) : Int :=
  let ka := a.key.toInt
  let kb := b.key.toInt
  (decide (ka > kb)).toInt - (decide (ka < kb)).toInt

def rbDataKeyCmp (key : BitVec 32) (node : RbData) : Int :=
  let k := key.toInt
  let nk := node.key.toInt
  (decide (k > nk)).toInt - (decide (k < nk)).toInt

/-- rb_find_add links the node and then rebalances; it does neither where it finds one. -/
def insert (rb : Rebalance RbData) (root : BinTree RbData) (new : RbData) : BinTree RbData × Bool :=
  match root.findAdd (rbDataCmp new) new with
  | (root, some _) => (root, false)
  | (root, none) => (rb.run root, true)

def search (root : BinTree RbData) (key : BitVec 32) : Option RbData := root.find (rbDataKeyCmp key)

/-- The walk of the insertion that is written by hand, to an empty link. -/
def linkByHand (new : RbData) : BinTree RbData → Option (BinTree RbData)
  | .leaf => some (.node .leaf new .leaf)
  | .node l data r =>
    if new.key.toInt < data.key.toInt then (linkByHand new l).map (.node · data r)
    else if new.key.toInt > data.key.toInt then (linkByHand new r).map (.node l data ·)
    else none

def insertByHand (rb : Rebalance RbData) (root : BinTree RbData) (new : RbData) :
    BinTree RbData × Bool :=
  match linkByHand new root with
  | none => (root, false)
  | some linked => (rb.run linked, true)

def searchByHand (key : BitVec 32) : BinTree RbData → Option RbData
  | .leaf => none
  | .node l data r =>
    if key.toInt < data.key.toInt then searchByHand key l
    else if key.toInt > data.key.toInt then searchByHand key r
    else some data

/-- The loop of check_tree over the nodes from rb_first on. -/
def checkNodes (prev : Option RbData) (n : BitVec 32) : List RbData → BitVec 32
  | [] => n
  | data :: rest =>
    if prev.any fun prev => prev.key.toInt ≥ data.key.toInt then -1
    else checkNodes (some data) (n + 1) rest

def checkTree (root : BinTree RbData) : BitVec 32 := checkNodes none 0 root.inorder

/-- The changes. A node that is replaced or removed is in the tree, and is replaced by one of the
same key. -/
inductive Op
  | insert (new : RbData) (rb : Rebalance RbData)
  | replace (victim new : RbData)
  | erase (node : RbData) (rb : Rebalance RbData)

def step (root : BinTree RbData) : Op → Option (BinTree RbData)
  | .insert new rb => some (insert rb root new).1
  | .replace victim new =>
    if victim ∈ root.inorder ∧ new.key = victim.key then some (root.replace victim new) else none
  | .erase node rb => if node ∈ root.inorder then some (rb.run (root.erase node)) else none

/-! ## The two comparisons -/

theorem rbDataCmp_eq (new : RbData) : rbDataCmp new = rbDataKeyCmp new.key := rfl

theorem keyCmp_neg (key : BitVec 32) (a : RbData) :
    rbDataKeyCmp key a < 0 ↔ key.toInt < a.key.toInt := by
  unfold rbDataKeyCmp
  rcases Int.lt_trichotomy key.toInt a.key.toInt with hlt | heq | hgt
  · simp [hlt, Int.not_lt.mpr (Int.le_of_lt hlt)]
  · simp [heq]
  · simp [hgt, Int.not_lt.mpr (Int.le_of_lt hgt)]

theorem keyCmp_pos (key : BitVec 32) (a : RbData) :
    rbDataKeyCmp key a > 0 ↔ key.toInt > a.key.toInt := by
  unfold rbDataKeyCmp
  rcases Int.lt_trichotomy key.toInt a.key.toInt with hlt | heq | hgt
  · simp [hlt, Int.not_lt.mpr (Int.le_of_lt hlt)]
  · simp [heq]
  · simp [hgt, Int.not_lt.mpr (Int.le_of_lt hgt)]

theorem keyCmp_zero (key : BitVec 32) (a : RbData) : rbDataKeyCmp key a = 0 ↔ a.key = key := by
  have hneg := keyCmp_neg key a
  have hpos := keyCmp_pos key a
  rw [← BitVec.toInt_inj]
  omega

/-! ## By hand -/

theorem searchByHand_eq (key : BitVec 32) (root : BinTree RbData) :
    searchByHand key root = search root key := by
  unfold search
  induction root with
  | leaf => rfl
  | node l data r ihl ihr =>
    simp only [searchByHand, BinTree.find, ihl, ihr, keyCmp_neg, keyCmp_pos]

theorem linkByHand_eq (new : RbData) (root : BinTree RbData) :
    linkByHand new root = (search root new.key).elim
      (some (root.findAdd (rbDataKeyCmp new.key) new).1) fun _ => none := by
  unfold search
  induction root with
  | leaf => rfl
  | node l data r ihl ihr =>
    simp only [linkByHand, BinTree.find, BinTree.findAdd, ihl, ihr, keyCmp_neg, keyCmp_pos]
    split
    · cases l.find (rbDataKeyCmp new.key) <;> rfl
    · split
      · cases r.find (rbDataKeyCmp new.key) <;> rfl
      · rfl

theorem insert_refused {rb : Rebalance RbData} {root : BinTree RbData} {new d : RbData}
    (h : search root new.key = some d) : insert rb root new = (root, false) := by
  have hsame := BinTree.findAdd_found new h
  have hfound := (BinTree.findAdd_snd (rbDataCmp new) new root).trans h
  unfold insert
  rw [rbDataCmp_eq] at hfound ⊢
  rw [← Prod.eta (root.findAdd (rbDataKeyCmp new.key) new), hsame, hfound]

theorem insert_added {rb : Rebalance RbData} {root : BinTree RbData} {new : RbData}
    (h : search root new.key = none) :
    insert rb root new = (rb.run (root.findAdd (rbDataKeyCmp new.key) new).1, true) := by
  have hfound := (BinTree.findAdd_snd (rbDataCmp new) new root).trans h
  unfold insert
  rw [rbDataCmp_eq] at hfound ⊢
  rw [← Prod.eta (root.findAdd (rbDataKeyCmp new.key) new), hfound]

theorem insertByHand_eq (rb : Rebalance RbData) (root : BinTree RbData) (new : RbData) :
    insertByHand rb root new = insert rb root new := by
  unfold insertByHand
  cases hfound : search root new.key with
  | some d => rw [linkByHand_eq, hfound, insert_refused hfound, Option.elim_some]
  | none => rw [linkByHand_eq, hfound, insert_added hfound, Option.elim_none]

/-! ## The order of the nodes -/

def Sorted (root : BinTree RbData) : Prop :=
  root.inorder.Pairwise fun a b => a.key.toInt < b.key.toInt

section Sorted

variable {root root' : BinTree RbData} {new : RbData}

theorem Sorted.cuts (h : Sorted root) (key : BitVec 32) : Cuts (rbDataKeyCmp key) root.inorder := by
  refine h.imp fun {a b} hlt hle => ?_
  rw [keyCmp_neg]
  have hpos := keyCmp_pos key a
  omega

theorem Sorted.keys_nodup (h : Sorted root) : (root.inorder.map RbData.key).Nodup := by
  refine List.pairwise_map.mpr (h.imp fun {a b} hlt heq => ?_)
  rw [heq] at hlt
  exact Int.lt_irrefl _ hlt

theorem Sorted.nodup (h : Sorted root) : root.inorder.Nodup := h.keys_nodup.of_map RbData.key

theorem search_eq_some (h : Sorted root) (key : BitVec 32) (d : RbData) :
    search root key = some d ↔ d ∈ root.inorder ∧ d.key = key := by
  rw [search, BinTree.find_eq_some (h.cuts key), keyCmp_zero]

theorem search_eq_none (h : Sorted root) (key : BitVec 32) :
    search root key = none ↔ ∀ d ∈ root.inorder, d.key ≠ key := by
  rw [search, BinTree.find_eq_none (h.cuts key)]
  simp only [ne_eq, keyCmp_zero]

/-- An insertion that is not refused adds its node, and nothing else. -/
theorem insert_inorder (h : Sorted root) (rb : Rebalance RbData)
    (hnone : search root new.key = none) :
    ∃ as bs, root.inorder = as ++ bs ∧ (insert rb root new).1.inorder = as ++ new :: bs ∧
      (∀ a ∈ as, a.key.toInt < new.key.toInt) ∧ ∀ b ∈ bs, new.key.toInt < b.key.toInt := by
  obtain ⟨as, bs, hold, hnew, has, hbs⟩ :=
    BinTree.findAdd_added new (h.cuts new.key) hnone
  refine ⟨as, bs, hold, ?_, fun a ha => ?_, fun b hb => ?_⟩
  · rw [insert_added hnone, rb.inorder_run, hnew]
  · exact (keyCmp_pos new.key a).mp (has a ha)
  · exact (keyCmp_neg new.key b).mp (hbs b hb)

theorem insert_sorted (h : Sorted root) (rb : Rebalance RbData) :
    Sorted (insert rb root new).1 := by
  cases hfound : search root new.key with
  | some d =>
    rw [insert_refused hfound]
    exact h
  | none =>
    obtain ⟨as, bs, hold, hnew, has, hbs⟩ := insert_inorder h rb hfound
    unfold Sorted at h ⊢
    rw [hold] at h
    rw [hnew]
    obtain ⟨hleft, hright, hcross⟩ := List.pairwise_append.mp h
    refine List.pairwise_append.mpr ⟨hleft, List.pairwise_cons.mpr ⟨hbs, hright⟩, ?_⟩
    intro a ha b hb
    rcases List.mem_cons.mp hb with rfl | hb
    · exact has a ha
    · exact hcross a ha b hb

theorem step_sorted {op : Op} (h : Sorted root) (hstep : step root op = some root') :
    Sorted root' := by
  cases op with
  | insert new rb =>
    obtain rfl := Option.some.inj hstep
    exact insert_sorted h rb
  | replace victim new =>
    obtain ⟨⟨-, hkey⟩, heq⟩ := Option.ite_none_right_eq_some.mp hstep
    obtain rfl := Option.some.inj heq
    unfold Sorted
    rw [BinTree.inorder_replace h.nodup, List.pairwise_map]
    have hsame : ∀ a : RbData, (if a = victim then new else a).key = a.key := by
      intro a
      split
      · next heq => rw [hkey, heq]
      · rfl
    refine h.imp fun {a b} hlt => ?_
    rw [hsame, hsame]
    exact hlt
  | erase node rb =>
    obtain ⟨-, heq⟩ := Option.ite_none_right_eq_some.mp hstep
    obtain rfl := Option.some.inj heq
    unfold Sorted
    rw [rb.inorder_run, BinTree.inorder_erase h.nodup]
    exact h.sublist List.erase_sublist

theorem steps_sorted {ops : List Op}
    (h : Steps (fun root op root' => step root op = some root') .leaf ops root) : Sorted root := by
  have hstep : ∀ s op s', Sorted s → step s op = some s' → Sorted s' :=
    fun _ _ _ hs hop => step_sorted hs hop
  exact h.invariant hstep List.Pairwise.nil

end Sorted

/-! ## What check_tree counts -/

theorem checkNodes_eq {nodes : List RbData} {prev : Option RbData} (n : BitVec 32)
    (hsorted : nodes.Pairwise fun a b => a.key.toInt < b.key.toInt)
    (hprev : ∀ p ∈ prev, ∀ d ∈ nodes, p.key.toInt < d.key.toInt) :
    checkNodes prev n nodes = n + BitVec.ofNat 32 nodes.length := by
  induction nodes generalizing prev n with
  | nil => exact (BitVec.add_zero n).symm
  | cons data rest ih =>
    obtain ⟨hfirst, hrest⟩ := List.pairwise_cons.mp hsorted
    have hok : ¬(prev.any fun prev => prev.key.toInt ≥ data.key.toInt) = true := by
      rw [Option.any_eq_true]
      rintro ⟨p, hp, hge⟩
      have hlt := hprev p hp data List.mem_cons_self
      have hge := of_decide_eq_true hge
      omega
    have hnext : ∀ p ∈ some data, ∀ d ∈ rest, p.key.toInt < d.key.toInt := by
      intro p hp d hd
      obtain rfl := Option.some.inj hp
      exact hfirst d hd
    rw [checkNodes, if_neg hok, ih (n + 1) hrest hnext, List.length_cons, BitVec.ofNat_add,
      BitVec.add_assoc, BitVec.add_comm 1]
    rfl

/-- The count runs over where there are more nodes than an int holds. -/
theorem checkTree_eq {root : BinTree RbData} (h : Sorted root) :
    checkTree root = BitVec.ofNat 32 root.inorder.length := by
  have hnone : ∀ p ∈ (none : Option RbData), ∀ d ∈ root.inorder, p.key.toInt < d.key.toInt := by
    intro p hp
    cases hp
  rw [checkTree, checkNodes_eq 0 h hnone]
  exact BitVec.zero_add _

def intMax : Nat := 2147483647

theorem checkTree_count {root : BinTree RbData} (h : Sorted root)
    (hfew : root.inorder.length ≤ intMax) : (checkTree root).toInt = root.inorder.length := by
  unfold intMax at hfew
  have hnat : (checkTree root).toNat = root.inorder.length := by
    rw [checkTree_eq h, BitVec.toNat_ofNat]
    omega
  rw [BitVec.toInt_eq_toNat_of_lt (by omega), hnat]

/-- After any insertions, replacements and removals, with any rebalancing: the keys in the tree are
different; an insertion refuses exactly those, and then leaves the tree as it is, and otherwise adds
its node; a search finds the node of the key; check_tree counts the nodes, as long as an int can
hold their number; and what is written by hand does the same. -/
theorem tree_holds_keys_once (ops : List Op) (root : BinTree RbData)
    (h : Steps (fun root op root' => step root op = some root') .leaf ops root) :
    (root.inorder.map RbData.key).Nodup ∧
      (∀ rb new, ((insert rb root new).2 = false ↔ ∃ d ∈ root.inorder, d.key = new.key) ∧
        ((insert rb root new).2 = false → (insert rb root new).1 = root) ∧
        ((insert rb root new).2 = true → ∃ as bs, root.inorder = as ++ bs ∧
          (insert rb root new).1.inorder = as ++ new :: bs)) ∧
      (∀ key d, search root key = some d ↔ d ∈ root.inorder ∧ d.key = key) ∧
      (∀ key, search root key = none ↔ ∀ d ∈ root.inorder, d.key ≠ key) ∧
      (root.inorder.length ≤ intMax →
        (checkTree root).toInt = root.inorder.length ∧ (checkTree root).toInt ≠ -1) ∧
      (∀ rb new, insertByHand rb root new = insert rb root new) ∧
      ∀ key, searchByHand key root = search root key := by
  have hsorted := steps_sorted h
  refine ⟨hsorted.keys_nodup, ?_, search_eq_some hsorted, search_eq_none hsorted, ?_,
    fun rb new => insertByHand_eq rb root new, fun key => searchByHand_eq key root⟩
  · intro rb new
    cases hfound : search root new.key with
    | some d =>
      obtain ⟨hmem, hkey⟩ := (search_eq_some hsorted new.key d).mp hfound
      rw [insert_refused hfound]
      exact ⟨⟨fun _ => ⟨d, hmem, hkey⟩, fun _ => rfl⟩, fun _ => rfl, fun hadded => nomatch hadded⟩
    | none =>
      obtain ⟨as, bs, hold, hnew, -, -⟩ := insert_inorder hsorted rb hfound
      have hadded : (insert rb root new).2 = true := by rw [insert_added hfound]
      refine ⟨⟨fun hrefused => ?_, ?_⟩, fun hrefused => ?_, fun _ => ⟨as, bs, hold, hnew⟩⟩
      · rw [hadded] at hrefused
        cases hrefused
      · rintro ⟨d, hmem, hkey⟩
        exact absurd hkey ((search_eq_none hsorted new.key).mp hfound d hmem)
      · rw [hadded] at hrefused
        cases hrefused
  · intro hfew
    have hcount := checkTree_count hsorted hfew
    exact ⟨hcount, by omega⟩

/-- No rotation is made. -/
def still : Rebalance RbData where
  run := id
  inorder_run _ := rfl

/-- The ends of the range of int, and 2, which is replaced and then removed. -/
def ends : List Op :=
  [.insert ⟨0, 2, 0x42⟩ still, .insert ⟨1, BitVec.intMin 32, 0x41⟩ still,
    .insert ⟨2, BitVec.intMax 32, 0x43⟩ still, .insert ⟨3, 2, 0x3f⟩ still,
    .replace ⟨0, 2, 0x42⟩ ⟨4, 2, 0x7a⟩, .erase ⟨4, 2, 0x7a⟩ still]

theorem ends_of_range_found :
    ∃ root, Steps (fun root op root' => step root op = some root') .leaf ends root ∧
      root.inorder.length = 2 ∧
      search root (BitVec.intMin 32) = some ⟨1, BitVec.intMin 32, 0x41⟩ ∧
      (checkTree root).toInt = 2 := by
  have hexec : (exec step .leaf ends).map BinTree.inorder =
      some [⟨1, BitVec.intMin 32, 0x41⟩, ⟨2, BitVec.intMax 32, 0x43⟩] := by decide
  obtain ⟨root, hroot, hinorder⟩ := Option.map_eq_some_iff.mp hexec
  have hrun := exec_steps hroot
  obtain ⟨-, -, hsearch, -, hcheck, -, -⟩ := tree_holds_keys_once ends root hrun
  have hlength : root.inorder.length = 2 := by
    rw [hinorder]
    rfl
  refine ⟨root, hrun, hlength, (hsearch _ _).mpr ⟨?_, rfl⟩, ?_⟩
  · rw [hinorder]
    exact List.mem_cons_self
  · have hcount := (hcheck (by rw [hlength]; decide)).1
    rw [hcount, hlength]
    rfl

/-! ## More nodes than an int counts -/

/-- The keys from 0 on, in the order of the words. -/
def ascending (n : Nat) : List Op :=
  (List.range n).map fun i => .insert ⟨i, BitVec.ofNat 32 i, 0⟩ still

theorem ascending_inserts {n : Nat} (hn : n ≤ 2 ^ 32) :
    ∃ root, Steps (fun root op root' => step root op = some root') .leaf (ascending n) root ∧
      root.inorder.length = n ∧ ∀ d ∈ root.inorder, ∃ i < n, d.key = BitVec.ofNat 32 i := by
  induction n with
  | zero => exact ⟨.leaf, .nil _, rfl, fun d hd => nomatch hd⟩
  | succ n ih =>
    obtain ⟨root, hrun, hlength, hkeys⟩ := ih (by omega)
    have hsorted := steps_sorted hrun
    let new : RbData := ⟨n, BitVec.ofNat 32 n, 0⟩
    have hnone : search root new.key = none := by
      rw [search_eq_none hsorted]
      intro d hd hkey
      obtain ⟨i, hi, hd⟩ := hkeys d hd
      have heq : (BitVec.ofNat 32 i).toNat = (BitVec.ofNat 32 n).toNat := by rw [← hd, hkey]
      rw [BitVec.toNat_ofNat, BitVec.toNat_ofNat] at heq
      omega
    obtain ⟨as, bs, hold, hnew, -, -⟩ := insert_inorder hsorted still hnone
    refine ⟨(insert still root new).1, ?_, ?_, ?_⟩
    · have hsplit : ascending (n + 1) = ascending n ++ [.insert new still] := by
        rw [ascending, List.range_succ, List.map_append]
        rfl
      rw [hsplit]
      exact hrun.append (.cons rfl (.nil _))
    · rw [hold, List.length_append] at hlength
      rw [hnew, List.length_append, List.length_cons]
      omega
    · intro d hd
      rw [hnew, List.mem_append, List.mem_cons] at hd
      rw [hold] at hkeys
      rcases hd with hd | rfl | hd
      · obtain ⟨i, hi, hkey⟩ := hkeys d (List.mem_append_left _ hd)
        exact ⟨i, by omega, hkey⟩
      · exact ⟨n, by omega, rfl⟩
      · obtain ⟨i, hi, hkey⟩ := hkeys d (List.mem_append_right _ hd)
        exact ⟨i, by omega, hkey⟩

/-- With one key less than there are ints, all in order, check_tree returns -1. -/
theorem full_tree_counts_minus_one :
    ∃ ops root, Steps (fun root op root' => step root op = some root') .leaf ops root ∧
      root.inorder.length = 2 ^ 32 - 1 ∧ checkTree root = -1 := by
  obtain ⟨root, hrun, hlength, -⟩ := ascending_inserts (Nat.sub_le (2 ^ 32) 1)
  refine ⟨ascending (2 ^ 32 - 1), root, hrun, hlength, ?_⟩
  rw [checkTree_eq (steps_sorted hrun), hlength]
  rfl

end LinuxDeviceDriver.Ds.Rbtree
