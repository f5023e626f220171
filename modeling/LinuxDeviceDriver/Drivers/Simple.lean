/- source: examples/23_simple/main.c, lines 27 to 122
   digest: Two buffers that are mapped, one at once and one page by page as it is touched. -/

import LinuxDeviceDriver.Drivers.CharFile
import Mathlib.Algebra.BigOperators.Group.Multiset.Basic
import Mathlib.Logic.Relation

set_option autoImplicit false

namespace LinuxDeviceDriver.Drivers.Simple

open CharFile (einval)

def simplePages : Nat := 8

inductive Dev
  | remap | fault
  deriving DecidableEq

/-- The pages of the two buffers by their numbers. Those of simple0 are contiguous. -/
structure Kernel where
  remapPages : Nat
  faultBuf : Nat → Nat

def Kernel.page (k : Kernel) : Dev → Nat → Nat
  | .remap, n => k.remapPages + n
  | .fault, n => k.faultBuf n

/-- A mapping, with one entry of the page table for each of its pages. -/
structure Vma where
  dev : Dev
  pgoff : Nat
  ptes : List (Option Nat)
  deriving DecidableEq

def simpleRangeOk (pgoff pages : Nat) : Bool :=
  pgoff < simplePages && pages ≤ simplePages - pgoff

/-- The error is that of `remap_pfn_range`. -/
def simpleRemapMmap (k : Kernel) (pgoff pages : Nat) (err : Int) : Except Int Vma :=
  if !simpleRangeOk pgoff pages then .error (-einval)
  else if err ≠ 0 then .error err
  else .ok ⟨.remap, pgoff, (List.range pages).map fun i => some (k.remapPages + pgoff + i)⟩

def simpleFaultMmap (pgoff pages : Nat) : Except Int Vma :=
  if !simpleRangeOk pgoff pages then .error (-einval)
  else .ok ⟨.fault, pgoff, List.replicate pages none⟩

/-- The page, with a reference to it, or none for VM_FAULT_SIGBUS. -/
def simpleVmaFault (k : Kernel) (pgoff : Nat) : Option Nat :=
  if simplePages ≤ pgoff then none else some (k.faultBuf pgoff)

def mmap (k : Kernel) (d : Dev) (pgoff pages : Nat) (err : Int) : Except Int Vma :=
  match d with
  | .remap => simpleRemapMmap k pgoff pages err
  | .fault => simpleFaultMmap pgoff pages

/-- The page that an access to page `i` of a mapping gets to; none is a SIGBUS. -/
def touch (k : Kernel) (v : Vma) (i : Nat) : Option Nat :=
  match v.dev, v.ptes[i]? with
  | _, some (some p) => some p
  | .fault, some none => simpleVmaFault k (v.pgoff + i)
  | _, _ => none

/-- The pages that a mapping has a reference to. With VM_PFNMAP it has none. -/
def Vma.held (v : Vma) : Multiset Nat :=
  match v.dev with
  | .remap => 0
  | .fault => v.ptes.filterMap id

/-- The mappings of all processes, and the references that `get_page` took for them. -/
structure State where
  vmas : List Vma := []
  refs : Multiset Nat := 0

/-- What the kernel does with the mappings: it splits them, copies them on fork, with or without
the entries of pages that can be faulted in again, and takes them down. -/
inductive Step (k : Kernel) (s : State) : State → Prop
  | mmap {d : Dev} {pgoff pages : Nat} {err : Int} {v : Vma}
      (h : mmap k d pgoff pages err = .ok v) : Step k s { s with vmas := v :: s.vmas }
  | split {a b : List Vma} {d : Dev} {pgoff : Nat} {l r : List (Option Nat)}
      (h : s.vmas = a ++ ⟨d, pgoff, l ++ r⟩ :: b) :
      Step k s { s with vmas := a ++ ⟨d, pgoff, l⟩ :: ⟨d, pgoff + l.length, r⟩ :: b }
  | fork {v : Vma} (h : v ∈ s.vmas) : Step k s ⟨v :: s.vmas, v.held + s.refs⟩
  | forkEmpty {v : Vma} (h : v ∈ s.vmas) (hd : v.dev = .fault) :
      Step k s { s with vmas := { v with ptes := List.replicate v.ptes.length none } :: s.vmas }
  | munmap {a b : List Vma} {v : Vma} (h : s.vmas = a ++ v :: b) :
      Step k s ⟨a ++ b, s.refs - v.held⟩
  | fault {a b : List Vma} {pgoff p : Nat} {l r : List (Option Nat)}
      (h : s.vmas = a ++ ⟨.fault, pgoff, l ++ none :: r⟩ :: b)
      (hp : simpleVmaFault k (pgoff + l.length) = some p) :
      Step k s ⟨a ++ ⟨.fault, pgoff, l ++ some p :: r⟩ :: b, p ::ₘ s.refs⟩

/-- The mapping lies in the buffer, and its entries are right. -/
structure Mapped (k : Kernel) (v : Vma) : Prop where
  inside : v.pgoff + v.ptes.length ≤ simplePages
  right : ∀ i p, v.ptes[i]? = some (some p) → p = k.page v.dev (v.pgoff + i)
  eager : v.dev = .remap → none ∉ v.ptes

structure Inv (k : Kernel) (s : State) : Prop where
  mapped : ∀ v ∈ s.vmas, Mapped k v
  refs : s.refs = (s.vmas.map Vma.held).sum

theorem range_inside {pgoff pages : Nat} (h : simpleRangeOk pgoff pages = true) :
    pgoff + pages ≤ simplePages := by
  obtain ⟨h1, h2⟩ := Bool.and_eq_true_iff.mp h
  have hoff := of_decide_eq_true h1
  have hlen := of_decide_eq_true h2
  omega

/-- Nothing of the mapping has been touched. -/
theorem empty_mapped (k : Kernel) {pgoff n : Nat} (h : pgoff + n ≤ simplePages) :
    Mapped k ⟨.fault, pgoff, List.replicate n none⟩ ∧
      Vma.held ⟨.fault, pgoff, List.replicate n none⟩ = 0 := by
  refine ⟨⟨by simpa using h, fun i p hp => ?_, nofun⟩, ?_⟩
  · exact absurd (List.eq_of_mem_replicate (List.mem_of_getElem? hp)) nofun
  · simp [Vma.held]

theorem mmap_mapped {k : Kernel} {d : Dev} {pgoff pages : Nat} {err : Int} {v : Vma}
    (h : mmap k d pgoff pages err = .ok v) : Mapped k v ∧ v.held = 0 := by
  cases d with
  | remap =>
    unfold mmap simpleRemapMmap at h
    dsimp only at h
    split_ifs at h with hr
    obtain rfl := Except.ok.inj h
    have hin := range_inside (by simpa using hr)
    refine ⟨⟨by simpa using hin, fun i p hp => ?_, by simp⟩, rfl⟩
    simp only [List.getElem?_map, Option.map_eq_some_iff, List.getElem?_eq_some_iff] at hp
    obtain ⟨j, ⟨hj, rfl⟩, hp⟩ := hp
    rw [← Option.some.inj hp, List.getElem_range, Kernel.page, Nat.add_assoc]
  | fault =>
    unfold mmap simpleFaultMmap at h
    dsimp only at h
    split_ifs at h with hr
    obtain rfl := Except.ok.inj h
    exact empty_mapped k (range_inside (by simpa using hr))

section Pieces

variable {k : Kernel} {d : Dev} {pgoff : Nat} {l r : List (Option Nat)}

theorem Mapped.split (h : Mapped k ⟨d, pgoff, l ++ r⟩) :
    Mapped k ⟨d, pgoff, l⟩ ∧ Mapped k ⟨d, pgoff + l.length, r⟩ := by
  obtain ⟨hin, hright, heager⟩ := h
  have hlen : pgoff + (l.length + r.length) ≤ simplePages := List.length_append ▸ hin
  have hnone := fun hd => mt List.mem_append.mpr (heager hd)
  refine ⟨⟨?_, fun i p hp => ?_, fun hd => (not_or.mp (hnone hd)).1⟩,
    ⟨?_, fun i p hp => ?_, fun hd => (not_or.mp (hnone hd)).2⟩⟩
  · show pgoff + l.length ≤ simplePages
    omega
  · exact hright i p ((List.getElem?_append_left (List.getElem?_eq_some_iff.mp hp).1).trans hp)
  · show pgoff + l.length + r.length ≤ simplePages
    omega
  · have hshift : (l ++ r)[l.length + i]? = some (some p) := by
      rw [List.getElem?_append_right (Nat.le_add_right ..)]
      simpa using hp
    exact (hright _ p hshift).trans (congrArg (k.page d) (Nat.add_assoc ..).symm)

theorem held_append (n : Nat) :
    Vma.held ⟨d, pgoff, l ++ r⟩ = Vma.held ⟨d, pgoff, l⟩ + Vma.held ⟨d, n, r⟩ := by
  cases d <;> simp [Vma.held]

theorem Mapped.fill {p : Nat} (h : Mapped k ⟨.fault, pgoff, l ++ none :: r⟩)
    (hp : simpleVmaFault k (pgoff + l.length) = some p) :
    Mapped k ⟨.fault, pgoff, l ++ some p :: r⟩ := by
  obtain ⟨hin, hright, -⟩ := h
  refine ⟨by simpa using hin, fun i q hq => ?_, nofun⟩
  dsimp only at hq hright
  by_cases hi : i = l.length
  · subst hi
    obtain rfl : p = q := by simpa using hq
    unfold simpleVmaFault at hp
    split_ifs at hp
    exact (Option.some.inj hp).symm
  · refine hright i q (Eq.trans ?_ hq)
    rw [List.getElem?_append, List.getElem?_append, List.getElem?_cons, List.getElem?_cons]
    split
    · rfl
    · rw [if_neg (by omega), if_neg (by omega)]

end Pieces

theorem Inv.parts {k : Kernel} {s : State} (h : Inv k s) {a b : List Vma} {v : Vma}
    (hs : s.vmas = a ++ v :: b) :
    (∀ w ∈ a, Mapped k w) ∧ Mapped k v ∧ (∀ w ∈ b, Mapped k w) ∧
      s.refs = v.held + ((a.map Vma.held).sum + (b.map Vma.held).sum) := by
  obtain ⟨hmap, hrefs⟩ := h
  rw [hs] at hmap hrefs
  obtain ⟨ha, hv⟩ := List.forall_mem_append.mp hmap
  obtain ⟨hv, hb⟩ := List.forall_mem_cons.mp hv
  exact ⟨ha, hv, hb, by simpa [add_left_comm] using hrefs⟩

theorem inv_step {k : Kernel} {s s' : State} (h : Inv k s) (hs : Step k s s') : Inv k s' := by
  cases hs with
  | mmap hm =>
    obtain ⟨hm, hz⟩ := mmap_mapped hm
    exact ⟨List.forall_mem_cons.mpr ⟨hm, h.mapped⟩, by simp [hz, h.refs]⟩
  | @split a b d pgoff l r hv =>
    obtain ⟨ha, hv, hb, hr⟩ := h.parts hv
    refine ⟨List.forall_mem_append.mpr ⟨ha, ?_⟩, ?_⟩
    · exact List.forall_mem_cons.mpr ⟨hv.split.1, List.forall_mem_cons.mpr ⟨hv.split.2, hb⟩⟩
    · simp [hr, held_append (pgoff + l.length), add_assoc, add_left_comm]
  | fork hv => exact ⟨List.forall_mem_cons.mpr ⟨h.mapped _ hv, h.mapped⟩, by simp [h.refs]⟩
  | forkEmpty hv hd =>
    obtain ⟨hm, hz⟩ := empty_mapped k (h.mapped _ hv).inside
    rw [← hd] at hm hz
    exact ⟨List.forall_mem_cons.mpr ⟨hm, h.mapped⟩, by simp [hz, h.refs]⟩
  | munmap hv =>
    obtain ⟨ha, -, hb, hr⟩ := h.parts hv
    exact ⟨List.forall_mem_append.mpr ⟨ha, hb⟩, by simp [hr]⟩
  | fault hv hp =>
    obtain ⟨ha, hv, hb, hr⟩ := h.parts hv
    refine ⟨List.forall_mem_append.mpr ⟨ha, List.forall_mem_cons.mpr ⟨hv.fill hp, hb⟩⟩, ?_⟩
    simp [hr, Vma.held, add_left_comm, ← Multiset.coe_add, ← Multiset.cons_coe]

end LinuxDeviceDriver.Drivers.Simple
