/- source: tools/qemu/hw/ldd/io.c, lines 161 to 232 and 263 to 291
   digest: A viewer gets whole frames, in the order of the states they show, and the last one shows
     the current state as soon as it has taken them all. -/

import LinuxDeviceDriver.Qemu.Io.Panel

set_option autoImplicit false

namespace LinuxDeviceDriver.Qemu.Io.PanelFrames

open Lib.Frames
open Lib.LittleEndian (Byte)
open Lib.Transition (Steps exec exec_steps)
open Device hiding writeStatus writeCtrl
open Panel

/-! ## Frames -/

def render (props : Properties) (s : LDDIOState) : List Byte := lddIoBuildPanel props s []

section Append

variable (panel : List Byte) (s : LDDIOState)

theorem appendRow_eq (label : String) (content : List Byte) (width : Int) (hex : List Byte) :
    lddIoAppendRow panel label content width hex =
      panel ++ lddIoAppendRow [] label content width hex := by
  simp only [lddIoAppendRow, List.append_assoc, List.nil_append]

theorem dataInRow_eq : dataInRow panel s = panel ++ dataInRow [] s := by
  unfold dataInRow
  split
  · exact appendRow_eq panel _ _ _ _
  · exact appendRow_eq panel _ _ _ _

theorem matrixRows_eq (rows : List Nat) :
    rows.foldl (fun panel row => matrixRow panel s row) panel =
      panel ++ rows.foldl (fun panel row => matrixRow panel s row) [] := by
  induction rows generalizing panel with
  | nil => exact (List.append_nil panel).symm
  | cons row rows ih =>
    rw [List.foldl_cons, List.foldl_cons, ih, ih (matrixRow [] s row), matrixRow, appendRow_eq,
      List.append_assoc]
    rfl

theorem buildPanel_eq (props : Properties) :
    lddIoBuildPanel props s panel = panel ++ render props s := by
  unfold render lddIoBuildPanel
  dsimp only
  rw [matrixRows_eq, matrixRows_eq (_ ++ rule)]
  simp only [appendRow_eq (_ ++ _), dataInRow_eq (_ ++ _), List.append_assoc, List.nil_append]

end Append

theorem render_emit (props : Properties) (s : LDDIOState) (e : Effect) :
    render props (s.emit e) = render props s := rfl

/-! ## What a viewer has got -/

/-- The chardev answers every write with a number of bytes or with EAGAIN, and can be watched. -/
def Willing (answers : List Answer) : Prop :=
  ∀ a ∈ answers, a.written ≠ .fails ∧ a.watch = true

variable {props : Properties} {p : PanelState} {times : List Nat}

/-- What is true all the time while there is a viewer. A redraw is due only while a frame is on its
way. -/
structure Sending (props : Properties) (p : PanelState) (times : List Nat) : Prop where
  sent : Sent (render props) clearScreen p.hist times p.taken p.panelOut
  now : p.hist.getLast? = some p.io
  due : p.panelDirty = true → p.panelOut ≠ []
  there : p.connected = true
  willing : Willing p.answers

/-- The last frame shows the current state, unless a redraw is due. -/
def Current (props : Properties) (p : PanelState) (times : List Nat) : Prop :=
  p.panelDirty = false → Shown (render props) p.hist times p.io

def Watched (p : PanelState) : Prop := p.panelOut ≠ [] → p.panelWatch = true

/-- What is true before a draw, and after it. -/
def Ready (props : Properties) (p : PanelState) : Prop :=
  ∃ times, Sending props p times ∧ Watched p

def Drawn (props : Properties) (p : PanelState) : Prop :=
  ∃ times, Sending props p times ∧ Current props p times ∧ Watched p

theorem Drawn.ready (h : Drawn props p) : Ready props p := by
  obtain ⟨times, hsending, -, hwatched⟩ := h
  exact ⟨times, hsending, hwatched⟩

namespace Sending

/-- A frame of the current state, behind what is to be sent. -/
theorem build (h : Sending props p times) (hdirty : p.panelDirty = false) :
    Sending props (p.build props) (times ++ [p.hist.length - 1]) ∧
      Current props (p.build props) (times ++ [p.hist.length - 1]) := by
  unfold PanelState.build
  rw [buildPanel_eq]
  refine ⟨⟨h.sent.build h.now, h.now, ?_, h.there, h.willing⟩, fun _ => Shown.build h.now⟩
  intro hdue
  exact absurd (hdirty.symm.trans hdue) Bool.false_ne_true

theorem change (h : Sending props p times) (io : LDDIOState) :
    Sending props (p.change io) times :=
  ⟨h.sent.change io, List.getLast?_concat, h.due, h.there, h.willing⟩

theorem wait (h : Sending props p times) :
    Sending props (p.wait true) times ∧ Watched (p.wait true) ∧
      (Current props p times → Current props (p.wait true) times) := by
  have heq : p.wait true = { p with panelWatch := true } := if_pos (Bool.or_true _)
  rw [heq]
  exact ⟨⟨h.sent, h.now, h.due, h.there, h.willing⟩, fun _ => rfl, fun hcurrent => hcurrent⟩

/-- It takes some bytes; where it has taken all, a redraw that is due is made. -/
theorem take (h : Sending props p times) (hcurrent : Current props p times) (n : Nat) :
    ∃ times', Sending props ((p.take n).redraw props) times' ∧
      Current props ((p.take n).redraw props) times' := by
  have hsent : Sent (render props) clearScreen (p.take n).hist times (p.take n).taken
      (p.take n).panelOut := h.sent.send n
  unfold PanelState.redraw
  split
  · next hall =>
    have hidle : Sending props { p.take n with panelDirty := false } times :=
      ⟨hsent, h.now, fun hdue => absurd hdue Bool.false_ne_true, h.there, h.willing⟩
    exact ⟨_, hidle.build rfl⟩
  · next hsome =>
    refine ⟨times, ⟨hsent, h.now, ?_, h.there, h.willing⟩, hcurrent⟩
    intro hdue hempty
    exact hsome ⟨hempty, hdue⟩

end Sending

/-! ## Sending -/

/-- By induction on the answers: each write leaves the stream made of whole frames. -/
theorem flush_drawn (answers : List Answer) (h : Sending props p times)
    (hcurrent : Current props p times) (hwilling : Willing answers) :
    Drawn props (p.flush props answers) := by
  induction answers generalizing p times with
  | nil =>
    unfold PanelState.flush
    split
    · next hempty => exact ⟨times, h, hcurrent, fun hne => absurd hempty hne⟩
    · obtain ⟨hsending, hwatched, hkept⟩ := h.wait
      exact ⟨times, hsending, hkept hcurrent, hwatched⟩
  | cons answer answers ih =>
    obtain ⟨hfails, hwatch⟩ := hwilling answer List.mem_cons_self
    have hrest : Willing answers := fun a ha => hwilling a (List.mem_cons_of_mem answer ha)
    have hnext : Sending props { p with answers } times :=
      ⟨h.sent, h.now, h.due, h.there, hrest⟩
    have hwaits : Drawn props ({ p with answers }.wait answer.watch) := by
      rw [hwatch]
      obtain ⟨hsending, hwatched, hkept⟩ := hnext.wait
      exact ⟨times, hsending, hkept hcurrent, hwatched⟩
    unfold PanelState.flush
    split
    · next hempty =>
      exact ⟨times, ⟨h.sent, h.now, h.due, h.there, hwilling⟩, hcurrent,
        fun hne => absurd hempty hne⟩
    · split
      · next hwritten => exact absurd hwritten hfails
      · exact hwaits
      · next n hwritten =>
        split
        · exact hwaits
        · obtain ⟨times', hsending, hcurrent'⟩ := hnext.take hcurrent n
          exact ih hsending hcurrent' hrest

theorem drawPanel_drawn (h : Ready props p) : Drawn props (lddIoDrawPanel props p) := by
  obtain ⟨times, hsending, hwatched⟩ := h
  unfold lddIoDrawPanel
  split
  · next hgone =>
    rw [hsending.there] at hgone
    cases hgone
  · split
    · next hbusy =>
      refine ⟨times, ⟨hsending.sent, hsending.now, fun _ => hbusy, hsending.there,
        hsending.willing⟩, ?_, hwatched⟩
      intro hclean
      cases hclean
    · next hidle =>
      have hclean : p.panelDirty = false := by
        cases hdirty : p.panelDirty with
        | false => rfl
        | true => exact absurd (hsending.due hdirty) hidle
      obtain ⟨hbuilt, hcurrent⟩ := hsending.build hclean
      exact flush_drawn _ hbuilt hcurrent hbuilt.willing

/-! ## Events -/

theorem Ready.change (h : Ready props p) (io : LDDIOState) : Ready props (p.change io) := by
  obtain ⟨times, hsending, hwatched⟩ := h
  exact ⟨times, hsending.change io, hwatched⟩

theorem Drawn.change (h : Drawn props p) {io : LDDIOState}
    (hsame : render props io = render props p.io) : Drawn props (p.change io) := by
  obtain ⟨times, hsending, hcurrent, hwatched⟩ := h
  refine ⟨times, hsending.change io, ?_, hwatched⟩
  intro hclean
  obtain ⟨t, ht, heq⟩ := (hcurrent hclean).change hsending.sent.known io
  exact ⟨t, ht, heq.trans hsame.symm⟩

theorem keyboardReceive_drawn (h : Ready props p) (byte : Byte) :
    Drawn props (keyboardReceive props p byte) :=
  drawPanel_drawn (h.change _)

theorem ready_kept (props : Properties) : Kept props (Ready props) where
  change _ io h := h.change io
  draw _ h := (drawPanel_drawn h).ready

theorem write_drawn (h : Drawn props p) (addr : Nat) (data : BitVec 64) (size : Nat)
    (host : List Byte) : Drawn props (write props p addr data size host) := by
  unfold write
  dsimp only
  split
  · exact drawPanel_drawn (h.ready.change _)
  · split
    · exact drawPanel_drawn (h.ready.change _)
    · split
      · exact drawPanel_drawn ((ready_kept props).writeStatus h.ready _ host)
      · split
        · exact drawPanel_drawn ((ready_kept props).writeCtrl h.ready _ host)
        · exact h.change (render_emit props p.io _)

theorem opened_drawn (hthere : p.connected = true) (hwilling : Willing p.answers) :
    Drawn props (lddIoPanelOpened props p) := by
  unfold lddIoPanelOpened lddIoPanelFlush PanelState.build
  dsimp only [lddIoPanelDrop]
  -- the clear-screen sequence and the first frame are one buffer
  rw [buildPanel_eq, List.nil_append]
  refine flush_drawn _ ⟨Sent.first (render props) clearScreen p.io, rfl, ?_, hthere, hwilling⟩
    (fun _ => Shown.first (render props) p.io) hwilling
  exact fun hdue => absurd hdue Bool.false_ne_true

theorem step_drawn {q : PanelState} {e : List Answer × PanelEvent} (h : Drawn props p)
    (hwilling : Willing e.1) (hinside : e.2.inside = true)
    (hstep : panelStep props p e = some q) : Drawn props q := by
  obtain ⟨answers, e⟩ := e
  have hstart : Drawn props { p with answers } := by
    obtain ⟨times, hsending, hcurrent, hwatched⟩ := h
    exact ⟨times, ⟨hsending.sent, hsending.now, hsending.due, hsending.there, hwilling⟩, hcurrent,
      hwatched⟩
  cases e with
  | opened => cases hinside
  | closed => cases hinside
  | writable =>
    obtain ⟨-, heq⟩ := Option.ite_none_right_eq_some.mp hstep
    obtain rfl := Option.some.inj heq
    obtain ⟨times, hsending, hcurrent, -⟩ := hstart
    have hunwatched : Sending props { p with answers, panelWatch := false } times :=
      ⟨hsending.sent, hsending.now, hsending.due, hsending.there, hwilling⟩
    exact flush_drawn _ hunwatched hcurrent hwilling
  | read addr size =>
    obtain rfl := Option.some.inj hstep
    exact hstart
  | write addr data size host =>
    obtain rfl := Option.some.inj hstep
    split
    · exact write_drawn hstart addr data size host
    · exact hstart
  | receive byte =>
    obtain ⟨-, heq⟩ := Option.ite_none_right_eq_some.mp hstep
    obtain rfl := Option.some.inj heq
    exact keyboardReceive_drawn hstart.ready byte
  | reset host =>
    obtain rfl := Option.some.inj hstep
    exact drawPanel_drawn ((ready_kept props).acceptInput (hstart.ready.change _) host)

theorem steps_drawn {q : PanelState} {es : List (List Answer × PanelEvent)}
    (hrun : Steps (fun p e q => panelStep props p e = some q) p es q) (h : Drawn props p)
    (hes : ∀ e ∈ es, Willing e.1 ∧ e.2.inside = true) : Drawn props q := by
  induction hrun with
  | nil => exact h
  | cons hstep _ ih =>
    obtain ⟨hwilling, hinside⟩ := hes _ List.mem_cons_self
    exact ih (step_drawn h hwilling hinside hstep) fun e he => hes e (List.mem_cons_of_mem _ he)

/-- From any state in which a viewer comes, with register accesses, received bytes, resets and
writable callbacks in any order and the chardev taking any number of bytes each time: the viewer
has got a part of the clear-screen sequence and whole frames, each of a state no older than the one
before it; while it has not taken all, it is watched; and when it has, it sees the current state. -/
theorem viewer_sees_current_state (props : Properties) (p₀ p : PanelState) (first : List Answer)
    (es : List (List Answer × PanelEvent)) (hthere : p₀.connected = true)
    (hfirst : Willing first) (hes : ∀ e ∈ es, Willing e.1 ∧ e.2.inside = true)
    (h : Steps (fun p e q => panelStep props p e = some q) p₀ ((first, .opened) :: es) p) :
    p.hist.getLast? = some p.io ∧
      ∃ times, times.Pairwise (· ≤ ·) ∧ (∀ t ∈ times, t < p.hist.length) ∧
        p.taken <+: clearScreen ++ frames (render props) p.hist times ∧
        (p.panelOut ≠ [] → p.panelWatch = true) ∧
        (p.panelOut = [] → p.taken = clearScreen ++ frames (render props) p.hist times ∧
          Shown (render props) p.hist times p.io) := by
  cases h with
  | cons hopened hrun =>
    obtain rfl := Option.some.inj hopened
    have hdrawn : Drawn props (lddIoPanelOpened props { p₀ with answers := first }) :=
      opened_drawn hthere hfirst
    obtain ⟨times, hsending, hcurrent, hwatched⟩ := steps_drawn hrun hdrawn hes
    refine ⟨hsending.now, times, hsending.sent.ordered, hsending.sent.known,
      hsending.sent.sent_isPrefix, hwatched, ?_⟩
    intro hempty
    have hbytes := hsending.sent.bytes
    rw [hempty, List.append_nil] at hbytes
    refine ⟨hbytes, hcurrent ?_⟩
    cases hdirty : p.panelDirty with
    | false => rfl
    | true => exact absurd hempty (hsending.due hdirty)

def whole : Answer := { written := .takes 4096, watch := true }

/-- While the first frame is cut after 100 bytes, DATA is written twice. Then the viewer takes what
is left of that frame, and one more. -/
def slowViewer : List (List Answer × PanelEvent) :=
  [([], .write lddIoData 1 1 []), ([], .write lddIoData 5 1 []), ([whole, whole], .writable)]

theorem slow_viewer_sees_current_state :
    ∃ p times, Steps (fun p e q => panelStep {} p e = some q) {}
        (([{ written := .takes 100, watch := true }], .opened) :: slowViewer) p ∧
      p.io.dataOut = 5 ∧ p.hist.length = 3 ∧
      p.taken = clearScreen ++ frames (render {}) p.hist times ∧
      Shown (render {}) p.hist times p.io := by
  have hexec : (exec (panelStep {}) {}
      (([{ written := .takes 100, watch := true }], .opened) :: slowViewer)).map
      (fun p => (p.io.dataOut, p.hist.length, p.panelOut)) = some (5, 3, []) := by decide +kernel
  obtain ⟨p, hp, heq⟩ := Option.map_eq_some_iff.mp hexec
  obtain ⟨hleds, hchanges, hempty⟩ := by simpa only [Prod.mk.injEq] using heq
  obtain ⟨-, times, -, -, -, -, hall⟩ := viewer_sees_current_state {} {} p _ slowViewer rfl
    (by unfold Willing; decide) (by unfold Willing; decide) (exec_steps hp)
  obtain ⟨htaken, hshown⟩ := hall hempty
  exact ⟨p, times, exec_steps hp, hleds, hchanges, htaken, hshown⟩

end LinuxDeviceDriver.Qemu.Io.PanelFrames
