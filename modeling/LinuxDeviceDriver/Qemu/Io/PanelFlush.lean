/- source: tools/qemu/hw/ldd/io.c, lines 161 to 197
   digest: The loop that sends the panel ends whatever the chardev answers, draws at most one more
     frame and takes no more out of the buffer than it holds. -/

import LinuxDeviceDriver.Lib.Loop
import LinuxDeviceDriver.Qemu.Io.PanelFrames

set_option autoImplicit false

namespace LinuxDeviceDriver.Qemu.Io.PanelFlush

open Lib.LittleEndian (Byte)
open Lib.Loop
open Panel PanelFrames

/-- A chardev: how it answers each write, of which it takes at most all bytes. -/
structure Chardev where
  answer : Nat → List Byte → Answer
  takes_le : ∀ i buf n, (answer i buf).written = .takes n → n ≤ buf.length

/-- The panel in the loop. Then, for the record: the answers so far, how many bytes were erased each
time and how many there were, and how often the panel was built. -/
structure Flushing where
  panel : PanelState
  given : List Answer := []
  erased : List (Nat × Nat) := []
  built : Nat := 0

namespace Flushing

def erase (f : Flushing) (n : Nat) : Flushing :=
  { f with panel := f.panel.take n, erased := f.erased ++ [(n, f.panel.panelOut.length)] }

def redraw (props : Properties) (f : Flushing) : Flushing :=
  if f.panel.panelOut = [] ∧ f.panel.panelDirty = true then
    { f with panel := { f.panel with panelDirty := false }.build props, built := f.built + 1 }
  else f

/-- One write, and what its answer leads to. -/
def body (props : Properties) (chardev : Chardev) (f : Flushing) : Next Flushing :=
  let answer := chardev.answer f.given.length f.panel.panelOut
  let f := { f with given := f.given ++ [answer] }
  match answer.written with
  | .fails => .leave { f with panel := { f.panel with panelOut := [] } }
  | .again => .leave { f with panel := f.panel.wait answer.watch }
  | .takes n =>
    if n = 0 then .leave { f with panel := f.panel.wait answer.watch }
    else .again ((f.erase n).redraw props)

def cond (f : Flushing) : Bool := !f.panel.panelOut.isEmpty

end Flushing

/-- The loop of ldd_io_panel_flush with a chardev that answers as it likes. -/
def flushLoop (props : Properties) (chardev : Chardev) (fuel : Nat) (p : PanelState) :
    Option Flushing :=
  loop Flushing.cond (Flushing.body props chardev) fuel { panel := p }

section Iteration

variable {props : Properties} {chardev : Chardev} {f f' : Flushing}

theorem cond_eq_true : f.cond = true ↔ f.panel.panelOut ≠ [] := by
  unfold Flushing.cond
  rw [Bool.not_eq_true', ← Bool.not_eq_true, List.isEmpty_iff]

theorem cond_eq_false : f.cond = false ↔ f.panel.panelOut = [] := by
  rw [← Bool.not_eq_true, cond_eq_true, not_not]

/-- The answer to the write of an iteration. -/
def answerTo (chardev : Chardev) (f : Flushing) : Answer :=
  chardev.answer f.given.length f.panel.panelOut

def answered (chardev : Chardev) (f : Flushing) : Flushing :=
  { f with given := f.given ++ [answerTo chardev f] }

theorem body_again (h : f.body props chardev = .again f') :
    ∃ n, (answerTo chardev f).written = .takes n ∧ 0 < n ∧ n ≤ f.panel.panelOut.length ∧
      f' = ((answered chardev f).erase n).redraw props := by
  unfold Flushing.body at h
  dsimp only at h
  split at h
  · cases h
  · cases h
  · next n hn =>
    split at h
    · cases h
    · next hpos =>
      injection h with heq
      exact ⟨n, hn, Nat.pos_of_ne_zero hpos, chardev.takes_le _ _ n hn, heq.symm⟩

/-- Where it leaves the loop, the frame is dropped or the viewer is watched. -/
theorem body_leave (h : f.body props chardev = .leave f') :
    (answerTo chardev f).written = .fails ∧
        f' = { answered chardev f with panel := { f.panel with panelOut := [] } } ∨
      ((answerTo chardev f).written = .again ∨ (answerTo chardev f).written = .takes 0) ∧
        f' = { answered chardev f with panel := f.panel.wait (answerTo chardev f).watch } := by
  unfold Flushing.body at h
  dsimp only at h
  split at h
  · next hn =>
    injection h with heq
    exact .inl ⟨hn, heq.symm⟩
  · next hn =>
    injection h with heq
    exact .inr ⟨.inl hn, heq.symm⟩
  · next n hn =>
    split at h
    · next hzero =>
      injection h with heq
      exact .inr ⟨.inr (hzero ▸ hn), heq.symm⟩
    · cases h

end Iteration

/-! ## The loop ends -/

/-- What is to be sent before the loop ends, and the frame that is drawn in it if one is due. -/
def rank (props : Properties) (p : PanelState) : Nat :=
  p.panelOut.length + if p.panelDirty then (render props p.io).length else 0

section Rank

variable {props : Properties} {chardev : Chardev} {f f' : Flushing}

theorem rank_redraw (f : Flushing) : rank props (f.redraw props).panel = rank props f.panel := by
  unfold Flushing.redraw
  split
  · next hall =>
    unfold rank PanelState.build
    dsimp only
    rw [buildPanel_eq, hall.1, hall.2]
    simp
  · rfl

theorem rank_erase {n : Nat} (hn : 0 < n) (hle : n ≤ f.panel.panelOut.length) :
    rank props (f.erase n).panel < rank props f.panel := by
  unfold rank Flushing.erase PanelState.take
  dsimp only
  rw [List.length_drop]
  omega

theorem rank_body (h : f.body props chardev = .again f') :
    rank props f'.panel < rank props f.panel := by
  obtain ⟨n, -, hpos, hle, rfl⟩ := body_again h
  rw [rank_redraw]
  exact rank_erase (f := answered chardev f) hpos hle

end Rank

/-! ## What the loop does on its way -/

section Way

variable {props : Properties} {chardev : Chardev} {f f' : Flushing} {p : PanelState}

/-- Every redraw so far has used up one that was due, and no more was erased than there was. -/
structure Careful (p : PanelState) (f : Flushing) : Prop where
  built : f.built + f.panel.panelDirty.toNat ≤ p.panelDirty.toNat
  erased : ∀ e ∈ f.erased, e.1 ≤ e.2

theorem Careful.start (p : PanelState) : Careful p { panel := p } := by
  refine ⟨Nat.le_of_eq (Nat.zero_add _), ?_⟩
  intro e hmem
  cases hmem

theorem Careful.redraw (h : Careful p f) : Careful p (f.redraw props) := by
  unfold Flushing.redraw
  split
  · next hall =>
    have hbuilt := h.built
    rw [hall.2] at hbuilt
    exact ⟨hbuilt, h.erased⟩
  · exact h

theorem Careful.erase {n : Nat} (h : Careful p f) (hle : n ≤ f.panel.panelOut.length) :
    Careful p (f.erase n) := by
  refine ⟨h.built, ?_⟩
  intro e hmem
  rcases List.mem_append.mp hmem with hold | hnew
  · exact h.erased e hold
  · rw [List.mem_singleton.mp hnew]
    exact hle

theorem Careful.again (h : Careful p f) (hbody : f.body props chardev = .again f') :
    Careful p f' := by
  obtain ⟨n, -, -, hle, rfl⟩ := body_again hbody
  have hanswered : Careful p (answered chardev f) := ⟨h.built, h.erased⟩
  exact (hanswered.erase hle).redraw

theorem wait_dirty (watch : Bool) : (p.wait watch).panelDirty = p.panelDirty := by
  unfold PanelState.wait
  split <;> rfl

theorem Careful.leave (h : Careful p f) (hbody : f.body props chardev = .leave f') :
    Careful p f' := by
  obtain ⟨-, rfl⟩ | ⟨-, rfl⟩ := body_leave hbody
  · exact ⟨h.built, h.erased⟩
  · refine ⟨?_, h.erased⟩
    rw [wait_dirty]
    exact h.built

end Way

/-! ## The answers that it was given -/

/-- How often the panel is built in a flush that is given these answers. -/
def builds (props : Properties) : List Answer → PanelState → Nat
  | [], _ => 0
  | answer :: answers, p =>
    if p.panelOut = [] then 0
    else
      match answer.written with
      | .fails | .again => 0
      | .takes n =>
        if n = 0 then 0
        else
          (if (p.take n).panelOut = [] ∧ p.panelDirty = true then 1 else 0) +
            builds props answers ((p.take n).redraw props)

/-- The panel without the answers that are left. -/
def forget (p : PanelState) : PanelState := { p with answers := [] }

section Given

variable {props : Properties} {chardev : Chardev} {f f' : Flushing} {p : PanelState}
variable {answer : Answer} {answers : List Answer} {n : Nat}

theorem flush_answers (answers left : List Answer) (p : PanelState) :
    forget ({ p with answers := left }.flush props answers) = forget (p.flush props answers) := by
  cases answers with
  | nil =>
    unfold PanelState.flush PanelState.wait
    dsimp only
    split
    · rfl
    · split <;> rfl
  | cons answer answers => rfl

theorem redraw_answers (p : PanelState) :
    { p with answers }.redraw props = { p.redraw props with answers } := by
  unfold PanelState.redraw
  split <;> rfl

/-- A flush that is given one more answer, by which bytes were taken. -/
theorem flush_takes (hout : p.panelOut ≠ []) (hn : answer.written = .takes n) (hpos : 0 < n) :
    forget (p.flush props (answer :: answers)) =
      forget (((p.take n).redraw props).flush props answers) := by
  rw [PanelState.flush, if_neg hout, hn]
  dsimp only
  rw [if_neg (Nat.ne_of_gt hpos)]
  have htake : { p with answers }.take n = { p.take n with answers } := rfl
  rw [htake, redraw_answers, flush_answers]

theorem flush_fails (hout : p.panelOut ≠ []) (hn : answer.written = .fails) :
    forget (p.flush props [answer]) = forget { p with panelOut := [] } := by
  rw [PanelState.flush, if_neg hout, hn]
  rfl

theorem flush_waits (hout : p.panelOut ≠ [])
    (hn : answer.written = .again ∨ answer.written = .takes 0) :
    forget (p.flush props [answer]) = forget (p.wait answer.watch) := by
  rw [PanelState.flush, if_neg hout]
  unfold PanelState.wait
  rcases hn with hn | hn
  · rw [hn]
    dsimp only
    split <;> rfl
  · rw [hn]
    dsimp only
    rw [if_pos rfl]
    split <;> rfl

theorem builds_takes (hout : p.panelOut ≠ []) (hn : answer.written = .takes n) (hpos : 0 < n) :
    builds props (answer :: answers) p =
      (if (p.take n).panelOut = [] ∧ p.panelDirty = true then 1 else 0) +
        builds props answers ((p.take n).redraw props) := by
  rw [builds, if_neg hout, hn]
  dsimp only
  rw [if_neg (Nat.ne_of_gt hpos)]

theorem builds_leaves
    (hn : answer.written = .fails ∨ answer.written = .again ∨ answer.written = .takes 0) :
    builds props [answer] p = 0 := by
  unfold builds
  split
  · rfl
  · rcases hn with hn | hn | hn
    · rw [hn]
    · rw [hn]
    · rw [hn]
      rfl

theorem redraw_panel (f : Flushing) : (f.redraw props).panel = f.panel.redraw props := by
  unfold Flushing.redraw PanelState.redraw
  split <;> rfl

theorem redraw_given (props : Properties) (f : Flushing) : (f.redraw props).given = f.given := by
  unfold Flushing.redraw
  split <;> rfl

theorem redraw_built (f : Flushing) :
    (f.redraw props).built =
      f.built + if f.panel.panelOut = [] ∧ f.panel.panelDirty = true then 1 else 0 := by
  unfold Flushing.redraw
  split <;> rfl

/-- So far the loop has done what a flush does that is given the same answers. -/
structure Follows (props : Properties) (p : PanelState) (f : Flushing) : Prop where
  panel : ∀ answers, forget (p.flush props (f.given ++ answers)) =
    forget (f.panel.flush props answers)
  built : ∀ answers, builds props (f.given ++ answers) p =
    f.built + builds props answers f.panel

/-- And so has a loop that was left. -/
structure Followed (props : Properties) (p : PanelState) (f : Flushing) : Prop where
  panel : forget (p.flush props f.given) = forget f.panel
  built : builds props f.given p = f.built

theorem Follows.start (props : Properties) (p : PanelState) : Follows props p { panel := p } :=
  ⟨fun _ => rfl, fun answers => (Nat.zero_add (builds props answers p)).symm⟩

theorem Follows.again (h : Follows props p f) (hcond : f.cond = true)
    (hbody : f.body props chardev = .again f') : Follows props p f' := by
  obtain ⟨n, hn, hpos, -, rfl⟩ := body_again hbody
  have hout := cond_eq_true.mp hcond
  have hgiven : (((answered chardev f).erase n).redraw props).given =
      f.given ++ [answerTo chardev f] := redraw_given props _
  refine ⟨fun answers => ?_, fun answers => ?_⟩
  · rw [hgiven, List.append_assoc, h.panel, List.singleton_append, flush_takes hout hn hpos,
      redraw_panel]
    rfl
  · rw [hgiven, List.append_assoc, h.built, List.singleton_append, builds_takes hout hn hpos,
      redraw_panel, redraw_built, Nat.add_assoc]
    rfl

theorem Follows.leave (h : Follows props p f) (hcond : f.cond = true)
    (hbody : f.body props chardev = .leave f') : Followed props p f' := by
  have hout := cond_eq_true.mp hcond
  have hpanel := h.panel [answerTo chardev f]
  have hbuilt := h.built [answerTo chardev f]
  obtain ⟨hn, rfl⟩ | ⟨hn, rfl⟩ := body_leave hbody
  · rw [flush_fails hout hn] at hpanel
    rw [builds_leaves (.inl hn)] at hbuilt
    exact ⟨hpanel, hbuilt⟩
  · rw [flush_waits hout hn] at hpanel
    rw [builds_leaves (.inr hn)] at hbuilt
    exact ⟨hpanel, hbuilt⟩

theorem Follows.stop (h : Follows props p f) (hcond : f.cond = false) : Followed props p f := by
  have hempty := cond_eq_false.mp hcond
  have hpanel := h.panel []
  have hbuilt := h.built []
  rw [List.append_nil] at hpanel hbuilt
  rw [PanelState.flush, if_pos hempty] at hpanel
  exact ⟨hpanel, hbuilt⟩

end Given

/-- Whatever is in the buffer, whether or not a redraw is due and whatever the chardev answers, the
loop ends: with more fuel than there is to be sent, always in the same way. It builds the panel at
most once, and erases no more bytes than there are. Its result is that of the flush that is given
the same answers. -/
theorem flush_loop_ends (props : Properties) (chardev : Chardev) (p : PanelState) :
    ∃ f, (∀ fuel, rank props p < fuel → flushLoop props chardev fuel p = some f) ∧
      f.built ≤ 1 ∧ (∀ e ∈ f.erased, e.1 ≤ e.2) ∧
      forget (p.flush props f.given) = forget f.panel ∧ builds props f.given p = f.built := by
  have hrank : ∀ f f' : Flushing, f.cond = true → f.body props chardev = .again f' →
      rank props f'.panel < rank props f.panel := fun f f' _ hbody => rank_body hbody
  obtain ⟨f, hends⟩ := loop_ends (fun f : Flushing => rank props f.panel) hrank { panel := p }
  have hloop := hends (rank props p + 1) (Nat.lt_succ_self _)
  have hcareful : Careful p f := loop_post (fun f f' (h : Careful p f) _ hbody => h.again hbody)
    (fun _ _ h _ hbody => h.leave hbody) (fun _ h _ => h) (Careful.start p) hloop
  have hfollowed : Followed props p f :=
    loop_post (fun f f' (h : Follows props p f) hcond hbody => h.again hcond hbody)
      (fun _ _ h hcond hbody => h.leave hcond hbody) (fun _ h hcond => h.stop hcond)
      (Follows.start props p) hloop
  refine ⟨f, hends, ?_, hcareful.erased, hfollowed.panel, hfollowed.built⟩
  calc f.built ≤ f.built + f.panel.panelDirty.toNat := Nat.le_add_right _ _
    _ ≤ p.panelDirty.toNat := hcareful.built
    _ ≤ 1 := Bool.toNat_le _

end LinuxDeviceDriver.Qemu.Io.PanelFlush
