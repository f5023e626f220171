/- source: tools/qemu/link.sh, lines 24 to 88
   digest: Linking the devices into a QEMU source tree and removing them again: when the files of
     the tree come back byte for byte. -/

import LinuxDeviceDriver.Lib.TextLines

set_option autoImplicit false

namespace LinuxDeviceDriver.Qemu.Link

open Lib.TextLines

/-! ## Files and commands -/

/-- The newline as a byte. -/
def newline : UInt8 := 10

def ascii (s : String) : List UInt8 := s.toList.map fun c => UInt8.ofNat c.toNat

/-- The contents of a text file. grep takes a file with a NUL byte for a binary one, and the shell
drops NUL bytes from what it reads. -/
@[ext]
structure Text where
  bytes : List UInt8
  noNul : 0 ∉ bytes
  deriving DecidableEq

/-- A line, as an argument of the script's functions. -/
structure Line where
  bytes : List UInt8
  noNul : 0 ∉ bytes
  single : newline ∉ bytes
  deriving DecidableEq

theorem newline_noNul : (0 : UInt8) ∉ [newline] := by decide

theorem append_noNul {s t : List UInt8} (hs : 0 ∉ s) (ht : 0 ∉ t) : 0 ∉ s ++ t := by
  intro h
  rcases List.mem_append.mp h with h | h
  · exact hs h
  · exact ht h

namespace Text

def empty : Text := ⟨[], List.not_mem_nil⟩

def append (t more : Text) : Text := ⟨t.bytes ++ more.bytes, append_noNul t.noNul more.noNul⟩

/-- The output of printf '\n'. -/
def newlineOnly : Text := ⟨[newline], newline_noNul⟩

/-- The text has the line as one of its lines. -/
def Contains (t : Text) (l : Line) : Prop := l.bytes ∈ lines newline t.bytes

instance (t : Text) (l : Line) : Decidable (t.Contains l) :=
  inferInstanceAs (Decidable (l.bytes ∈ lines newline t.bytes))

/-- There is one newline at the end of the text, and one only. -/
def EndsOnce (t : Text) : Prop :=
  ∃ g, t.bytes = g ++ [newline] ∧ (g = [] ∨ ¬Ended newline g)

end Text

/-- The output of printf '%s\n'. -/
def Line.printed (l : Line) : Text :=
  ⟨l.bytes ++ [newline], append_noNul l.noNul newline_noNul⟩

/-- The status of grep -qxF: whether a line of the file is the given one. -/
def grepQuiet (l : Line) (t : Text) : Bool := decide (t.Contains l)

/-- What grep -vxF prints: the other lines, each with a newline. -/
def grepInverted (l : Line) (t : Text) : List UInt8 :=
  unlines newline ((lines newline t.bytes).filter (· ≠ l.bytes))

/-- What the output of a command is as a word of another: the shell strips the newlines at its
end. -/
def substitute (output : List UInt8) : List UInt8 := strip newline output

/-- What tail -c 1 prints. -/
def tailByte (t : Text) : List UInt8 := t.bytes.getLast?.toList

theorem grepInverted_noNul (l : Line) (t : Text) : 0 ∉ grepInverted l t := by
  intro h
  obtain ⟨k, hk, hmem⟩ := (mem_unlines_iff (by decide)).mp h
  exact t.noNul (mem_of_mem_lines (List.mem_filter.mp hk).1 hmem)

theorem substitute_noNul {output : List UInt8} (h : 0 ∉ output) :
    0 ∉ substitute output ++ [newline] :=
  append_noNul (fun hmem => h (mem_of_mem_strip hmem)) newline_noNul

/-! ## Adding and removing a line -/

def addLine (t : Text) (l : Line) : Text :=
  if grepQuiet l t = true then t
  else
    -- Do not join the line onto a last line without a newline.
    let t := if t.bytes ≠ [] ∧ substitute (tailByte t) ≠ [] then t.append .newlineOnly else t
    t.append l.printed

def removeLine (t : Text) (l : Line) : Text :=
  if grepQuiet l t = false then t
  else
    ⟨substitute (grepInverted l t) ++ [newline], substitute_noNul (grepInverted_noNul l t)⟩

variable {t : Text} {l : Line}

/-- The test of add_line() finds out whether the last line lacks its newline. -/
theorem tail_test_iff (t : Text) :
    (t.bytes ≠ [] ∧ substitute (tailByte t) ≠ []) ↔ ¬Ended newline t.bytes := by
  by_cases hnil : t.bytes = []
  · rw [hnil]
    exact iff_of_false (fun h => h.1 rfl) (fun h => h (ended_nil newline))
  · have htail : tailByte t = [t.bytes.getLast hnil] := by
      rw [tailByte, List.getLast?_eq_some_getLast hnil]
      rfl
    have hsub : substitute [t.bytes.getLast hnil] ≠ [] ↔ t.bytes.getLast hnil ≠ newline := by
      rw [substitute, strip, ne_eq, List.rdropWhile_eq_nil_iff]
      simp
    rw [htail, hsub]
    constructor
    · intro h hend
      exact h.2 (hend hnil)
    · intro h
      exact ⟨hnil, fun hlast => h fun _ => hlast⟩

/-- A line that is not there is put behind the last line, which gets the newline it may lack. -/
theorem addLine_bytes (h : ¬t.Contains l) :
    (addLine t l).bytes = close newline t.bytes ++ (l.bytes ++ [newline]) := by
  have hgrep : ¬grepQuiet l t = true := fun hq => h (of_decide_eq_true hq)
  rw [addLine, if_neg hgrep]
  dsimp only
  by_cases hend : Ended newline t.bytes
  · rw [if_neg (fun hs => (tail_test_iff t).mp hs hend), close, if_pos hend]
    rfl
  · rw [if_pos ((tail_test_iff t).mpr hend), close, if_neg hend]
    rfl

theorem addLine_of_contains (h : t.Contains l) : addLine t l = t := if_pos (decide_eq_true h)

theorem removeLine_of_not_contains (h : ¬t.Contains l) : removeLine t l = t :=
  if_pos (decide_eq_false h)

theorem removeLine_bytes (h : t.Contains l) :
    (removeLine t l).bytes = substitute (grepInverted l t) ++ [newline] := by
  have hgrep : ¬grepQuiet l t = false := by
    rw [grepQuiet, decide_eq_true h]
    decide
  rw [removeLine, if_neg hgrep]

theorem lines_addLine (h : ¬t.Contains l) :
    lines newline (addLine t l).bytes = lines newline t.bytes ++ [l.bytes] := by
  rw [addLine_bytes h, lines_append (ended_close newline t.bytes), lines_close,
    lines_line l.single]

theorem addLine_contains (t : Text) (l : Line) : (addLine t l).Contains l := by
  by_cases h : t.Contains l
  · rw [addLine_of_contains h]
    exact h
  · show l.bytes ∈ lines newline (addLine t l).bytes
    rw [lines_addLine h]
    exact List.mem_append_right _ List.mem_cons_self

theorem addLine_addLine (t : Text) (l : Line) : addLine (addLine t l) l = addLine t l :=
  addLine_of_contains (addLine_contains t l)

/-- Taking the line out again leaves the other lines, and puts one newline for those that the file
had at its end, be they none or many. -/
theorem removeLine_addLine_bytes (h : ¬t.Contains l) :
    (removeLine (addLine t l) l).bytes = strip newline t.bytes ++ [newline] := by
  have hkept : (lines newline (addLine t l).bytes).filter (· ≠ l.bytes) =
      lines newline t.bytes := by
    rw [lines_addLine h, List.filter_append, List.filter_eq_self.mpr]
    · simp
    · intro k hk
      refine decide_eq_true fun heq => h ?_
      rw [Text.Contains, ← heq]
      exact hk
  rw [removeLine_bytes (addLine_contains t l), grepInverted, hkept, unlines_lines, substitute,
    strip_close]

theorem removeLine_addLine_eq_iff (h : ¬t.Contains l) :
    removeLine (addLine t l) l = t ↔ t.EndsOnce := by
  rw [Text.ext_iff, removeLine_addLine_bytes h]
  exact strip_concat_eq_iff

/-! ## The script -/

theorem mesonLine_noNul : 0 ∉ ascii "subdir('ldd')" := by decide

theorem mesonLine_single : newline ∉ ascii "subdir('ldd')" := by decide

/-- MESON_LINE. -/
def mesonLine : Line := ⟨ascii "subdir('ldd')", mesonLine_noNul, mesonLine_single⟩

theorem kconfigLine_noNul : 0 ∉ ascii "source ldd/Kconfig" := by decide

theorem kconfigLine_single : newline ∉ ascii "source ldd/Kconfig" := by decide

/-- KCONFIG_LINE. -/
def kconfigLine : Line := ⟨ascii "source ldd/Kconfig", kconfigLine_noNul, kconfigLine_single⟩

theorem excludeLine_noNul : 0 ∉ ascii "/hw/ldd" := by decide

theorem excludeLine_single : newline ∉ ascii "/hw/ldd" := by decide

/-- The line of the git exclude file. -/
def excludeLine : Line := ⟨ascii "/hw/ldd", excludeLine_noNul, excludeLine_single⟩

structure Paths where
  /-- QEMU_SRC. -/
  qemuSrc : List UInt8
  /-- The directory of the script. -/
  scriptDir : List UInt8

namespace Paths

/-- DEVICES_DIR. -/
def devicesDir (p : Paths) : List UInt8 := p.scriptDir ++ ascii "/hw/ldd"

/-- LINK. -/
def link (p : Paths) : List UInt8 := p.qemuSrc ++ ascii "/hw/ldd"

end Paths

/-- What LINK is: nothing, a symbolic link with its target, or something else. -/
inductive HwLdd
  | absent
  | symlink (target : List UInt8)
  | other
  deriving DecidableEq

/-- A QEMU source tree, as far as the script sees it. MESON and KCONFIG are none where there is no
such file. EXCLUDE is none where git names no path, and some none where the file is not there. -/
structure Tree where
  meson : Option Text
  kconfig : Option Text
  ldd : HwLdd
  exclude : Option (Option Text)
  deriving DecidableEq

structure Outcome where
  tree : Tree
  status : Nat
  output : List UInt8
  deriving DecidableEq

/-- The script with --remove. -/
def remove (p : Paths) (tree : Tree) (meson kconfig : Text) : Outcome :=
  if tree.ldd = .other then
    { tree := tree, status := 1
      output := p.link ++ ascii " is not a link; leaving it in place.\n" }
  else
    { tree :=
        { meson := some (removeLine meson mesonLine)
          kconfig := some (removeLine kconfig kconfigLine)
          ldd := .absent
          exclude := tree.exclude.map fun file => file.map (removeLine · excludeLine) }
      status := 0
      output := ascii "Removed the ldd devices from " ++ p.qemuSrc ++ [newline] }

/-- LINK may be made, or is the link that would be made. -/
def linkable (p : Paths) : HwLdd → Bool
  | .absent => true
  | .symlink target => substitute target == p.devicesDir
  | .other => false

/-- What LINK is once it links to the devices. -/
def linked (p : Paths) : HwLdd → HwLdd
  | .symlink target => .symlink target
  | _ => .symlink p.devicesDir

/-- The tree once the devices are linked in. An exclude file that is not there is made by touch. -/
def Tree.withDevices (p : Paths) (tree : Tree) (meson kconfig : Text) : Tree :=
  { meson := some (addLine meson mesonLine)
    kconfig := some (addLine kconfig kconfigLine)
    ldd := linked p tree.ldd
    exclude := tree.exclude.map fun file => some (addLine (file.getD .empty) excludeLine) }

/-- The script without --remove. -/
def link (p : Paths) (tree : Tree) (meson kconfig : Text) : Outcome :=
  if linkable p tree.ldd = false then
    { tree := tree, status := 1
      output := p.link ++ ascii " already exists and does not link to " ++ p.devicesDir ++
        [newline] }
  else
    { tree := tree.withDevices p meson kconfig, status := 0
      output := ascii "Linked " ++ p.devicesDir ++ ascii " into " ++ p.qemuSrc ++ [newline] }

/-- The script from the check of the tree on. -/
def run (p : Paths) (removing : Bool) (tree : Tree) : Outcome :=
  match tree.meson, tree.kconfig with
  | some meson, some kconfig =>
    if removing = true then remove p tree meson kconfig else link p tree meson kconfig
  | _, _ =>
    { tree := tree, status := 1
      output := ascii "Not a QEMU source tree: " ++ p.qemuSrc ++ [newline] }

/-! ## Linking and removing -/

/-- Each of the files that is there lacks its line. -/
structure Lacking (tree : Tree) : Prop where
  meson : ∀ t, tree.meson = some t → ¬t.Contains mesonLine
  kconfig : ∀ t, tree.kconfig = some t → ¬t.Contains kconfigLine
  exclude : ∀ t, tree.exclude = some (some t) → ¬t.Contains excludeLine

/-- Each of the files that is there has one newline at its end. -/
structure EndOnce (tree : Tree) : Prop where
  meson : ∀ t, tree.meson = some t → t.EndsOnce
  kconfig : ∀ t, tree.kconfig = some t → t.EndsOnce
  exclude : ∀ t, tree.exclude = some (some t) → t.EndsOnce

/-- The files are as they were; an exclude file that was not there may be. -/
structure SameFiles (before after : Tree) : Prop where
  meson : after.meson = before.meson
  kconfig : after.kconfig = before.kconfig
  exclude : ∀ t, before.exclude = some (some t) → after.exclude = some (some t)

theorem SameFiles.refl (tree : Tree) : SameFiles tree tree := ⟨rfl, rfl, fun _ h => h⟩

variable {p : Paths} {tree : Tree} {meson kconfig : Text}

theorem run_remove_eq (hm : tree.meson = some meson) (hk : tree.kconfig = some kconfig) :
    run p true tree = remove p tree meson kconfig := by
  rw [run, hm, hk]
  rfl

theorem run_link_eq (hm : tree.meson = some meson) (hk : tree.kconfig = some kconfig) :
    run p false tree = link p tree meson kconfig := by
  rw [run, hm, hk]
  rfl

theorem run_not_tree (removing : Bool) (h : tree.meson = none ∨ tree.kconfig = none) :
    (run p removing tree).tree = tree := by
  unfold run
  split
  · next meson kconfig hm hk =>
    rcases h with h | h
    · rw [hm] at h
      cases h
    · rw [hk] at h
      cases h
  · rfl

theorem remove_lacking (hm : tree.meson = some meson) (hk : tree.kconfig = some kconfig)
    (h : Lacking tree) : SameFiles tree (remove p tree meson kconfig).tree := by
  unfold remove
  split
  · exact .refl tree
  · refine ⟨?_, ?_, ?_⟩
    · rw [hm]
      exact congrArg some (removeLine_of_not_contains (h.meson meson hm))
    · rw [hk]
      exact congrArg some (removeLine_of_not_contains (h.kconfig kconfig hk))
    · intro t ht
      dsimp only
      rw [ht]
      exact congrArg (fun x => some (some x)) (removeLine_of_not_contains (h.exclude t ht))

/-- The script links the devices in, or it leaves the tree alone. -/
theorem link_cases (p : Paths) (tree : Tree) (meson kconfig : Text) :
    (linkable p tree.ldd = false ∧ (link p tree meson kconfig).tree = tree) ∨
    (linkable p tree.ldd = true ∧
      (link p tree meson kconfig).tree = tree.withDevices p meson kconfig) := by
  unfold link
  split
  · next h => exact .inl ⟨h, rfl⟩
  · next h => exact .inr ⟨Bool.not_eq_false _ ▸ h, rfl⟩

theorem linked_ne_other (p : Paths) (ldd : HwLdd) : linked p ldd ≠ .other := by
  cases ldd with
  | absent | symlink target | other => exact HwLdd.noConfusion

/-- Removing the devices that were linked in brings back files that end in one newline. -/
theorem remove_withDevices (hm : tree.meson = some meson) (hk : tree.kconfig = some kconfig)
    (hlack : Lacking tree) (hend : EndOnce tree) :
    SameFiles tree (run p true (tree.withDevices p meson kconfig)).tree := by
  have hldd : (tree.withDevices p meson kconfig).ldd ≠ .other := linked_ne_other p tree.ldd
  rw [run_remove_eq rfl rfl, remove, if_neg hldd]
  refine ⟨?_, ?_, ?_⟩
  · rw [hm]
    exact congrArg some
      ((removeLine_addLine_eq_iff (hlack.meson meson hm)).mpr (hend.meson meson hm))
  · rw [hk]
    exact congrArg some
      ((removeLine_addLine_eq_iff (hlack.kconfig kconfig hk)).mpr (hend.kconfig kconfig hk))
  · intro t ht
    have hback := (removeLine_addLine_eq_iff (hlack.exclude t ht)).mpr (hend.exclude t ht)
    dsimp only [Tree.withDevices]
    rw [ht]
    exact congrArg (fun x => some (some x)) hback

theorem remove_after_link (p : Paths) (hlack : Lacking tree) (hend : EndOnce tree) :
    SameFiles tree (run p true (run p false tree).tree).tree := by
  by_cases htree : tree.meson = none ∨ tree.kconfig = none
  · rw [run_not_tree false htree, run_not_tree true htree]
    exact .refl tree
  · obtain ⟨hm, hk⟩ := not_or.mp htree
    obtain ⟨meson, hm⟩ := Option.ne_none_iff_exists'.mp hm
    obtain ⟨kconfig, hk⟩ := Option.ne_none_iff_exists'.mp hk
    rw [run_link_eq hm hk]
    obtain ⟨-, hsame⟩ | ⟨-, hdone⟩ := link_cases p tree meson kconfig
    · rw [hsame, run_remove_eq hm hk]
      exact remove_lacking hm hk hlack
    · rw [hdone]
      exact remove_withDevices hm hk hlack hend

theorem linkable_linked {ldd : HwLdd} (h : linkable p ldd = true) :
    linkable p (linked p ldd) = true ∧ linked p (linked p ldd) = linked p ldd := by
  cases ldd with
  | absent =>
    refine ⟨beq_iff_eq.mpr ?_, rfl⟩
    have hlast : p.devicesDir = (p.scriptDir ++ ascii "/hw/ld") ++ ascii "d" := by
      rw [List.append_assoc]
      rfl
    rw [substitute, strip, hlast]
    exact List.rdropWhile_concat_neg _ _ _ (by decide)
  | symlink target => exact ⟨h, rfl⟩
  | other => exact absurd h Bool.false_ne_true

/-- Linking a second time changes nothing. -/
theorem run_link_twice (p : Paths) (tree : Tree) :
    (run p false (run p false tree).tree).tree = (run p false tree).tree := by
  by_cases htree : tree.meson = none ∨ tree.kconfig = none
  · rw [run_not_tree false htree, run_not_tree false htree]
  · obtain ⟨hm, hk⟩ := not_or.mp htree
    obtain ⟨meson, hm⟩ := Option.ne_none_iff_exists'.mp hm
    obtain ⟨kconfig, hk⟩ := Option.ne_none_iff_exists'.mp hk
    rw [run_link_eq hm hk]
    obtain ⟨-, hsame⟩ | ⟨hable, hdone⟩ := link_cases p tree meson kconfig
    · rw [hsame, run_link_eq hm hk, hsame]
    · obtain ⟨hagain, hlinked⟩ := linkable_linked hable
      rw [hdone, run_link_eq rfl rfl]
      obtain ⟨hnot, -⟩ | ⟨-, htwice⟩ := link_cases p (tree.withDevices p meson kconfig)
        (addLine meson mesonLine) (addLine kconfig kconfigLine)
      · exact Bool.noConfusion (hagain.symm.trans hnot)
      · rw [htwice]
        simp only [Tree.withDevices, addLine_addLine, hlinked, Option.map_map, Tree.mk.injEq,
          true_and]
        refine congrArg (Option.map · tree.exclude) (funext fun file => ?_)
        exact congrArg some (addLine_addLine _ excludeLine)

theorem filter_noNul (bytes : List UInt8) : 0 ∉ bytes.filter (· ≠ 0) := by
  intro h
  exact of_decide_eq_true (List.mem_filter.mp h).2 rfl

def text (s : String) : Text := ⟨(ascii s).filter (· ≠ 0), filter_noNul _⟩

/-- A tree as the tests of the script make it, outside of git. -/
def testTree (meson : Text) : Tree :=
  { meson := some meson
    kconfig := some (text "source misc/Kconfig\n")
    ldd := .absent
    exclude := none }

def testPaths : Paths := ⟨ascii "qemu", ascii "tools/qemu"⟩

end LinuxDeviceDriver.Qemu.Link
