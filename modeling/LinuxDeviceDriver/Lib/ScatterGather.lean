/- digest: Stores through lists of locations, and what a load finds afterwards. -/

import Mathlib.Data.List.Nodup
import Mathlib.Data.List.Range

set_option autoImplicit false

namespace LinuxDeviceDriver.Lib.ScatterGather

universe u v

variable {A : Type u} {B : Type v} [DecidableEq A]

/-- Store the values one after the other, each at its own location. What is
left over of the longer list is not used. -/
def store (m : A → B) : List A → List B → A → B
  | [], _ => m
  | _ :: _, [] => m
  | a :: as, b :: bs => store (fun x => if x = a then b else m x) as bs

@[simp] theorem store_nil (m : A → B) (bs : List B) : store m [] bs = m := rfl

@[simp] theorem store_cons (m : A → B) (a : A) (as : List A) (b : B) (bs : List B) :
    store m (a :: as) (b :: bs) = store (fun x => if x = a then b else m x) as bs := rfl

theorem store_frame (m : A → B) (as : List A) (bs : List B) {x : A} (hx : x ∉ as) :
    store m as bs x = m x := by
  induction as generalizing m bs with
  | nil => rfl
  | cons a as ih =>
    obtain ⟨hne, hx⟩ := not_or.mp (mt List.mem_cons.mpr hx)
    cases bs with
    | nil => rfl
    | cons b bs => rw [store_cons, ih _ bs hx, if_neg hne]

theorem store_append (m : A → B) (as as' : List A) (bs bs' : List B)
    (hl : as.length = bs.length) :
    store m (as ++ as') (bs ++ bs') = store (store m as bs) as' bs' := by
  induction as generalizing m bs with
  | nil =>
    have hb : bs = [] := List.length_eq_zero_iff.mp hl.symm
    subst hb
    rfl
  | cons a as ih =>
    cases bs with
    | nil => simp at hl
    | cons b bs => exact ih _ bs (by simpa using hl)

/-- With no location named twice, every location holds the value stored there. -/
theorem store_getElem (m : A → B) (as : List A) (bs : List B) (hn : as.Nodup)
    (i : Nat) (ha : i < as.length) (hb : i < bs.length) : store m as bs as[i] = bs[i] := by
  induction as generalizing m bs i with
  | nil => simp at ha
  | cons a as ih =>
    obtain ⟨hna, hn⟩ := List.nodup_cons.mp hn
    cases bs with
    | nil => simp at hb
    | cons b bs =>
      cases i with
      | zero =>
        rw [List.getElem_cons_zero, List.getElem_cons_zero, store_cons, store_frame _ as bs hna]
        exact if_pos rfl
      | succ i => simpa using ih _ bs hn i (by simpa using ha) (by simpa using hb)

/-- A load of the stored range gives the stored values back. -/
theorem map_store (m : A → B) (as : List A) (bs : List B) (hn : as.Nodup)
    (hl : as.length = bs.length) : as.map (store m as bs) = bs := by
  apply List.ext_getElem
  · simpa using hl
  · intro i hi hb
    rw [List.getElem_map]
    exact store_getElem m as bs hn i (by simpa using hi) hb

/-- A load of locations that were not stored to is unchanged. -/
theorem map_store_disjoint (m : A → B) (as : List A) (bs : List B) (xs : List A)
    (hd : List.Disjoint xs as) : xs.map (store m as bs) = xs.map m :=
  List.map_congr_left fun _ hx => store_frame m as bs (hd hx)


end LinuxDeviceDriver.Lib.ScatterGather
