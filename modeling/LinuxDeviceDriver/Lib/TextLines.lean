/- digest: The lines of a text, whose last line may lack its newline, and the text that has them. -/

import Mathlib.Data.List.DropRight

set_option autoImplicit false

namespace LinuxDeviceDriver.Lib.TextLines

universe u

variable {A : Type u}

section Printing

variable {nl a : A} {t : List A}

/-- The text in which every line has its newline. -/
def unlines (nl : A) (ls : List (List A)) : List A := ls.flatMap (· ++ [nl])

theorem mem_unlines_iff {ls : List (List A)} (hne : a ≠ nl) :
    a ∈ unlines nl ls ↔ ∃ l ∈ ls, a ∈ l := by
  rw [unlines, List.mem_flatMap]
  refine exists_congr fun l => and_congr_right fun _ => ?_
  rw [List.mem_append, List.mem_singleton, or_iff_left hne]

/-- The last line has its newline, if there is one at all. -/
def Ended (nl : A) (t : List A) : Prop := ∀ h : t ≠ [], t.getLast h = nl

theorem ended_nil (nl : A) : Ended nl [] := fun h => absurd rfl h

theorem ended_concat (nl : A) (t : List A) : Ended nl (t ++ [nl]) :=
  fun _ => List.getLast_concat

theorem ended_singleton_iff : Ended nl [a] ↔ a = nl := by
  constructor
  · intro h
    exact h (List.cons_ne_nil _ _)
  · intro h _
    exact h

theorem ended_cons_iff (hne : t ≠ []) : Ended nl (a :: t) ↔ Ended nl t := by
  constructor
  · intro h _
    rw [← List.getLast_cons hne]
    exact h (List.cons_ne_nil a t)
  · intro h _
    rw [List.getLast_cons hne]
    exact h hne

end Printing

variable [DecidableEq A] {nl a : A} {t r l : List A}

/-- The lines of a text. What follows the last newline is a line unless it is empty. -/
def lines (nl : A) : List A → List (List A)
  | [] => []
  | a :: t =>
    if a = nl then [] :: lines nl t
    else
      match lines nl t with
      | [] => [[a]]
      | l :: ls => (a :: l) :: ls

instance (nl : A) (t : List A) : Decidable (Ended nl t) :=
  inferInstanceAs (Decidable (∀ h : t ≠ [], t.getLast h = nl))

/-- The text with the newline that its last line lacks. -/
def close (nl : A) (t : List A) : List A := if Ended nl t then t else t ++ [nl]

/-- The text without the newlines at its end. -/
def strip (nl : A) (t : List A) : List A := t.rdropWhile (· = nl)

/-! ## Ends -/

theorem ended_close (nl : A) (t : List A) : Ended nl (close nl t) := by
  unfold close
  split
  · next h => exact h
  · exact ended_concat nl t

theorem close_singleton_nl (nl : A) : close nl [nl] = [nl] :=
  if_pos (ended_singleton_iff.mpr rfl)

theorem close_singleton (ha : a ≠ nl) : close nl [a] = [a, nl] :=
  if_neg (ended_singleton_iff.not.mpr ha)

theorem close_cons (hne : t ≠ []) : close nl (a :: t) = a :: close nl t := by
  unfold close
  by_cases h : Ended nl t
  · rw [if_pos h, if_pos ((ended_cons_iff hne).mpr h)]
  · rw [if_neg h, if_neg ((ended_cons_iff hne).not.mpr h), List.cons_append]

/-- A text ends in one newline exactly when putting one newline for those at its end changes
nothing. -/
theorem strip_concat_eq_iff :
    strip nl t ++ [nl] = t ↔ ∃ g, t = g ++ [nl] ∧ (g = [] ∨ ¬Ended nl g) := by
  constructor
  · intro h
    refine ⟨strip nl t, h.symm, ?_⟩
    by_cases hnil : strip nl t = []
    · exact .inl hnil
    · refine .inr fun hend => ?_
      have hlast := List.rdropWhile_last_not (fun x => decide (x = nl)) t hnil
      exact hlast (decide_eq_true (hend hnil))
  · rintro ⟨g, rfl, hg⟩
    have hstrip : strip nl (g ++ [nl]) = strip nl g :=
      List.rdropWhile_concat_pos _ g nl (decide_eq_true rfl)
    have hself : strip nl g = g := by
      refine List.rdropWhile_eq_self_iff.mpr fun hne hlast => ?_
      rcases hg with rfl | hg
      · exact hne rfl
      · exact hg fun _ => of_decide_eq_true hlast
    rw [hstrip, hself]

theorem strip_close (nl : A) (t : List A) : strip nl (close nl t) = strip nl t := by
  unfold close
  split
  · rfl
  · exact List.rdropWhile_concat_pos _ t nl (decide_eq_true rfl)

theorem mem_of_mem_strip (h : a ∈ strip nl t) : a ∈ t :=
  (List.rdropWhile_prefix _ _).subset h

/-! ## Lines -/

theorem lines_cons_nl (nl : A) (t : List A) : lines nl (nl :: t) = [] :: lines nl t := if_pos rfl

theorem lines_singleton (ha : a ≠ nl) : lines nl [a] = [[a]] := if_neg ha

theorem lines_ne_nil (h : t ≠ []) : lines nl t ≠ [] := by
  cases t with
  | nil => exact absurd rfl h
  | cons a t =>
    rw [lines]
    split
    · exact List.cons_ne_nil _ _
    · split
      · exact List.cons_ne_nil _ _
      · exact List.cons_ne_nil _ _

theorem lines_cons (hne : a ≠ nl) {ls : List (List A)} (h : lines nl t = l :: ls) :
    lines nl (a :: t) = (a :: l) :: ls := by
  rw [lines, if_neg hne, h]

theorem exists_lines (nl : A) (h : t ≠ []) : ∃ l ls, lines nl t = l :: ls :=
  List.exists_cons_of_ne_nil (lines_ne_nil h)

theorem mem_of_mem_lines (hl : l ∈ lines nl t) (ha : a ∈ l) : a ∈ t := by
  induction t generalizing l with
  | nil => cases hl
  | cons b t ih =>
    rw [lines] at hl
    split at hl
    · rcases List.mem_cons.mp hl with rfl | hl
      · cases ha
      · exact List.mem_cons_of_mem b (ih hl ha)
    · split at hl
      · obtain rfl := List.mem_singleton.mp hl
        obtain rfl := List.mem_singleton.mp ha
        exact List.mem_cons_self
      · next k ks hlines =>
        rcases List.mem_cons.mp hl with rfl | hl
        · rcases List.mem_cons.mp ha with rfl | ha
          · exact List.mem_cons_self
          · exact List.mem_cons_of_mem b (ih (hlines ▸ List.mem_cons_self) ha)
        · exact List.mem_cons_of_mem b (ih (hlines ▸ List.mem_cons_of_mem k hl) ha)

/-- Where a text has its last newline, the lines of what follows begin. -/
theorem lines_append (h : Ended nl t) (r : List A) :
    lines nl (t ++ r) = lines nl t ++ lines nl r := by
  induction t with
  | nil => rfl
  | cons a t ih =>
    by_cases hnil : t = []
    · subst hnil
      obtain rfl := ended_singleton_iff.mp h
      rw [List.cons_append, lines_cons_nl, lines_cons_nl]
      rfl
    · have hrest := ih ((ended_cons_iff hnil).mp h)
      by_cases ha : a = nl
      · subst ha
        rw [List.cons_append, lines_cons_nl, lines_cons_nl, hrest, List.cons_append]
      · obtain ⟨l, ls, hl⟩ := exists_lines nl hnil
        rw [hl, List.cons_append] at hrest
        rw [List.cons_append, lines_cons ha hl, lines_cons ha hrest, List.cons_append]

theorem lines_line (h : nl ∉ l) : lines nl (l ++ [nl]) = [l] := by
  induction l with
  | nil => exact lines_cons_nl nl []
  | cons a l ih =>
    obtain ⟨hne, hrest⟩ := not_or.mp (List.mem_cons.not.mp h)
    exact lines_cons (Ne.symm hne) (ih hrest)

theorem lines_close (nl : A) (t : List A) : lines nl (close nl t) = lines nl t := by
  induction t with
  | nil => rfl
  | cons a t ih =>
    by_cases hnil : t = []
    · subst hnil
      by_cases ha : a = nl
      · rw [ha, close_singleton_nl]
      · rw [close_singleton ha, lines_cons ha (lines_cons_nl nl []), lines_singleton ha]
        rfl
    · rw [close_cons hnil]
      by_cases ha : a = nl
      · rw [ha, lines_cons_nl, lines_cons_nl, ih]
      · obtain ⟨l, ls, hl⟩ := exists_lines nl hnil
        rw [lines_cons ha hl, lines_cons ha (ih.trans hl)]

/-- The lines printed again are the text with the newline that it may lack. -/
theorem unlines_lines (nl : A) (t : List A) : unlines nl (lines nl t) = close nl t := by
  induction t with
  | nil => rfl
  | cons a t ih =>
    by_cases hnil : t = []
    · subst hnil
      by_cases ha : a = nl
      · rw [ha, close_singleton_nl, lines_cons_nl]
        rfl
      · rw [close_singleton ha, lines_singleton ha]
        rfl
    · rw [close_cons hnil, ← ih]
      by_cases ha : a = nl
      · rw [ha, lines_cons_nl]
        rfl
      · obtain ⟨l, ls, hl⟩ := exists_lines nl hnil
        rw [lines_cons ha hl, hl]
        rfl

end LinuxDeviceDriver.Lib.TextLines
