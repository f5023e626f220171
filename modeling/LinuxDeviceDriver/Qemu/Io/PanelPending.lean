/- source: tools/qemu/hw/ldd/io.c, lines 161 to 232 and 263 to 291
   digest: A redraw of the panel is due only while a frame is on its way, unless a write fails or
     the viewer cannot be watched before that frame is out. -/

import LinuxDeviceDriver.Qemu.Io.PanelFlush

set_option autoImplicit false

namespace LinuxDeviceDriver.Qemu.Io.PanelPending

open Lib.LittleEndian (Byte)
open Lib.Transition (Steps Guarded exec exec_steps exec_guarded_steps)
open Device hiding writeStatus writeCtrl
open Panel PanelFrames PanelFlush

def Pending (p : PanelState) : Prop := p.panelDirty = true → p.panelOut ≠ []

/-- While so many bytes of a frame are left, no write fails, and where the viewer takes nothing it
can be watched. -/
def spares : Nat → List Answer → Bool
  | _, [] => true
  | left, answer :: answers =>
    match answer.written with
    | .fails => false
    | .again => answer.watch
    | .takes n => if n = 0 then answer.watch else decide (left ≤ n) || spares (left - n) answers

variable {props : Properties} {p : PanelState}

theorem Pending.clean (h : Pending p) (hout : p.panelOut = []) : p.panelDirty = false := by
  cases hdirty : p.panelDirty with
  | false => rfl
  | true => exact absurd hout (h hdirty)

theorem pending_of_clean (h : p.panelDirty = false) : Pending p := by
  intro hdirty
  rw [h] at hdirty
  cases hdirty

/-! ## Flushes and draws -/

theorem build_dirty : (p.build props).panelDirty = p.panelDirty := by
  dsimp only [PanelState.build]

theorem wait_pending {watch : Bool} (h : Pending p) (hwatch : p.panelDirty = true → watch = true) :
    Pending (p.wait watch) := by
  intro hdirty
  rw [wait_dirty] at hdirty
  unfold PanelState.wait
  rw [hwatch hdirty, Bool.or_true, if_pos rfl]
  exact h hdirty

/-- By induction on the answers. The frame that is due is drawn when the one before it is out; from
then on no redraw is due, and any answer will do. -/
theorem flush_pending (answers : List Answer) (h : Pending p)
    (hspares : p.panelDirty = true → spares p.panelOut.length answers = true) :
    Pending (p.flush props answers) := by
  induction answers generalizing p with
  | nil =>
    unfold PanelState.flush
    split
    · exact h
    · exact wait_pending h fun _ => rfl
  | cons answer answers ih =>
    unfold spares at hspares
    unfold PanelState.flush
    split
    · exact h
    · cases hw : answer.written with
      | fails =>
        rw [hw] at hspares
        intro hdirty
        exact absurd (hspares hdirty) Bool.false_ne_true
      | again =>
        rw [hw] at hspares
        exact wait_pending (p := { p with answers }) h hspares
      | takes n =>
        rw [hw] at hspares
        dsimp only at hspares ⊢
        split
        · next hzero =>
          rw [if_pos hzero] at hspares
          exact wait_pending (p := { p with answers }) h hspares
        · next hpos =>
          rw [if_neg hpos] at hspares
          apply ih
          · unfold PanelState.redraw
            split
            · exact pending_of_clean rfl
            · next hsome => exact fun hdirty hempty => hsome ⟨hempty, hdirty⟩
          · unfold PanelState.redraw
            split
            · intro hdirty
              cases hdirty
            · next hsome =>
              intro hdirty
              have hmore : ¬ p.panelOut.length ≤ n := fun hle =>
                hsome ⟨List.drop_eq_nil_of_le hle, hdirty⟩
              have hrest := hspares hdirty
              rw [decide_eq_false hmore, Bool.false_or] at hrest
              exact (List.length_drop (l := p.panelOut) (i := n)).symm ▸ hrest

theorem drawPanel_pending (h : Pending p) : Pending (lddIoDrawPanel props p) := by
  unfold lddIoDrawPanel
  split
  · exact h
  · split
    · next hbusy => exact fun _ => hbusy
    · next hidle =>
      have hclean : (p.build props).panelDirty = false :=
        build_dirty.trans (h.clean (not_not.mp hidle))
      refine flush_pending _ (pending_of_clean hclean) fun hdirty => ?_
      rw [hclean] at hdirty
      cases hdirty

theorem pending_kept (props : Properties) : Kept props Pending where
  change _ _ h := h
  draw _ h := drawPanel_pending h

/-! ## Where the panel is drawn -/

/-- The states in which ldd_io_draw_panel is entered while input is accepted. -/
def inputDraws (props : Properties) (p : PanelState) : List Byte → List PanelState
  | [] => []
  | byte :: rest =>
    if lddIoKeyboardCanReceive p.io = 1 then
      let changed := p.change (lddIoKeyboardReceive p.io byte)
      changed :: inputDraws props (lddIoDrawPanel props changed) rest
    else []

def statusDraws (props : Properties) (p : PanelState) (byte : Byte) (host : List Byte) :
    List PanelState :=
  let s := logReserved p.io byte (~~~lddIoStatusRxReady) (.statusBits byte)
  if Lib.Bits.isSet byte lddIoStatusRxReady && s.rxReady then
    inputDraws props (p.change (s.setStatus (s.status &&& ~~~lddIoStatusRxReady))) host
  else []

def ctrlDraws (props : Properties) (p : PanelState) (byte : Byte) (host : List Byte) :
    List PanelState :=
  let old := logReserved p.io byte (~~~lddIoCtrlMask) (.ctrlBits byte)
  let s := assignCtrl old byte
  if old.loopback && !s.loopback then inputDraws props (p.change s) host else []

def writeDraws (props : Properties) (p : PanelState) (addr : Nat) (data : BitVec 64) (size : Nat)
    (host : List Byte) : List PanelState :=
  let byte := data.setWidth 8
  if addr ≥ lddIoMatrix then
    [p.change { p.io with matrix := writeMatrix p.io.matrix addr data size }]
  else if addr = lddIoData then [p.change (writeData p.io byte)]
  else if addr = lddIoStatus then
    statusDraws props p byte host ++ [Panel.writeStatus props p byte host]
  else if addr = lddIoCtrl then
    ctrlDraws props p byte host ++ [Panel.writeCtrl props p byte host]
  else []

/-- The states in which it is entered in an event. -/
def draws (props : Properties) (p : PanelState) (e : List Answer × PanelEvent) :
    List PanelState :=
  let p := { p with answers := e.1 }
  match e.2 with
  | .write addr data size host =>
    if lddIoOps addr size then writeDraws props p addr data size host else []
  | .receive byte =>
    if lddIoKeyboardCanReceive p.io = 1 then [p.change (lddIoKeyboardReceive p.io byte)] else []
  | .reset host =>
    let entered := p.change (lddIoResetEnter p.io)
    inputDraws props entered host ++ [acceptInput props entered host]
  | _ => []

/-- An event that draws ends with its last draw. -/
theorem panelStep_last_draw {q d : PanelState} {e : List Answer × PanelEvent}
    (hstep : panelStep props p e = some q) (hd : (draws props p e).getLast? = some d) :
    q = lddIoDrawPanel props d := by
  obtain ⟨answers, e⟩ := e
  cases e with
  | opened | closed | writable | read => cases hd
  | receive byte =>
    obtain ⟨hroom, heq⟩ := Option.ite_none_right_eq_some.mp hstep
    obtain rfl := Option.some.inj heq
    unfold draws at hd
    dsimp only at hd hroom
    rw [if_pos hroom, List.getLast?_singleton] at hd
    rw [← Option.some.inj hd]
    rfl
  | reset host =>
    obtain rfl := Option.some.inj hstep
    obtain rfl := Option.some.inj (List.getLast?_concat.symm.trans hd)
    rfl
  | write addr data size host =>
    obtain rfl := Option.some.inj hstep
    unfold draws at hd
    dsimp only at hd ⊢
    split at hd
    · next hops =>
      rw [if_pos hops]
      unfold writeDraws at hd
      unfold Panel.write
      dsimp only at hd ⊢
      split at hd
      · next hmatrix =>
        rw [List.getLast?_singleton] at hd
        rw [if_pos hmatrix, ← Option.some.inj hd]
      · next hmatrix =>
        rw [if_neg hmatrix]
        split at hd
        · next hdata =>
          rw [List.getLast?_singleton] at hd
          rw [if_pos hdata, ← Option.some.inj hd]
        · next hdata =>
          rw [if_neg hdata]
          split at hd
          · next hstatus =>
            rw [List.getLast?_concat] at hd
            rw [if_pos hstatus, ← Option.some.inj hd]
          · next hstatus =>
            rw [if_neg hstatus]
            split at hd
            · next hctrl =>
              rw [List.getLast?_concat] at hd
              rw [if_pos hctrl, ← Option.some.inj hd]
            · cases hd
    · cases hd

theorem kept_inputDraws {P : PanelState → Prop} (k : Kept props P) (h : P p) (host : List Byte) :
    ∀ d ∈ inputDraws props p host, P d := by
  induction host generalizing p with
  | nil =>
    intro d hd
    cases hd
  | cons byte rest ih =>
    unfold inputDraws
    split
    · have hchanged := k.change p (lddIoKeyboardReceive p.io byte) h
      intro d hd
      rcases List.mem_cons.mp hd with rfl | hd
      · exact hchanged
      · exact ih (k.draw _ hchanged) d hd
    · intro d hd
      cases hd

theorem kept_statusDraws {P : PanelState → Prop} (k : Kept props P) (h : P p) (byte : Byte)
    (host : List Byte) : ∀ d ∈ statusDraws props p byte host, P d := by
  unfold statusDraws
  dsimp only
  split
  · exact kept_inputDraws k (k.change p _ h) host
  · intro d hd
    cases hd

theorem kept_ctrlDraws {P : PanelState → Prop} (k : Kept props P) (h : P p) (byte : Byte)
    (host : List Byte) : ∀ d ∈ ctrlDraws props p byte host, P d := by
  unfold ctrlDraws
  dsimp only
  split
  · exact kept_inputDraws k (k.change p _ h) host
  · intro d hd
    cases hd

/-- What every change and every draw keeps is true whenever a draw begins. -/
theorem kept_draws {P : PanelState → Prop} (k : Kept props P) {e : List Answer × PanelEvent}
    (h : P { p with answers := e.1 }) : ∀ d ∈ draws props p e, P d := by
  obtain ⟨answers, e⟩ := e
  have hlast : ∀ {ds : List PanelState} {c : PanelState}, (∀ d ∈ ds, P d) → P c →
      ∀ d ∈ ds ++ [c], P d := by
    intro ds c hds hc d hd
    rcases List.mem_append.mp hd with hd | hd
    · exact hds d hd
    · rw [List.mem_singleton.mp hd]
      exact hc
  have hnone : ∀ d ∈ ([] : List PanelState), P d := fun d hd => nomatch hd
  cases e with
  | opened | closed | writable | read => exact hnone
  | receive byte =>
    unfold draws
    dsimp only
    split
    · exact hlast hnone (k.change _ _ h)
    · exact hnone
  | reset host =>
    exact hlast (kept_inputDraws k (k.change _ _ h) host) (k.acceptInput (k.change _ _ h) host)
  | write addr data size host =>
    unfold draws writeDraws
    dsimp only
    split
    · split
      · exact hlast hnone (k.change _ _ h)
      · split
        · exact hlast hnone (k.change _ _ h)
        · split
          · exact hlast (kept_statusDraws k h _ host) (k.writeStatus h _ host)
          · split
            · exact hlast (kept_ctrlDraws k h _ host) (k.writeCtrl h _ host)
            · exact hnone
    · exact hnone

/-! ## Runs -/

/-- A callback that finds a redraw due is answered without a failure until the frame before it is
out. -/
def Undisturbed (p : PanelState) (e : List Answer × PanelEvent) : Prop :=
  e.2 = .writable → p.panelDirty = true → spares p.panelOut.length e.1 = true

instance (p : PanelState) (e : List Answer × PanelEvent) : Decidable (Undisturbed p e) :=
  inferInstanceAs (Decidable (e.2 = .writable → p.panelDirty = true → _ = true))

theorem step_pending {q : PanelState} {e : List Answer × PanelEvent} (h : Pending p)
    (hstep : Guarded Undisturbed (fun p e q => panelStep props p e = some q) p e q) :
    Pending q := by
  obtain ⟨answers, e⟩ := e
  obtain ⟨hsafe, hstep⟩ := hstep
  have hstart : Pending { p with answers } := h
  cases e with
  | opened =>
    obtain rfl := Option.some.inj hstep
    unfold lddIoPanelOpened
    dsimp only
    have hclean : ({ lddIoPanelDrop { p with answers } with
        taken := [], hist := [p.io], panelOut := clearScreen }.build props).panelDirty = false := by
      rw [build_dirty]
      rfl
    refine flush_pending _ (pending_of_clean hclean) fun hdirty => ?_
    exact absurd (hclean.symm.trans hdirty) Bool.false_ne_true
  | closed =>
    obtain rfl := Option.some.inj hstep
    exact pending_of_clean rfl
  | writable =>
    obtain ⟨-, heq⟩ := Option.ite_none_right_eq_some.mp hstep
    obtain rfl := Option.some.inj heq
    exact flush_pending (p := { p with answers, panelWatch := false }) _ h (hsafe rfl)
  | read addr size =>
    obtain rfl := Option.some.inj hstep
    exact hstart
  | write addr data size host =>
    obtain rfl := Option.some.inj hstep
    split
    · exact (pending_kept props).write hstart addr data size host
    · exact hstart
  | receive byte =>
    obtain ⟨-, heq⟩ := Option.ite_none_right_eq_some.mp hstep
    obtain rfl := Option.some.inj heq
    exact drawPanel_pending hstart
  | reset host =>
    obtain rfl := Option.some.inj hstep
    exact (pending_kept props).reset hstart host

/-! ## Frames -/

/-- How many frames a draw builds. -/
def framesDrawn (props : Properties) (p : PanelState) : Nat :=
  if p.connected = false then 0
  else if p.panelOut ≠ [] then 0
  else 1 + builds props p.answers (p.build props)

/-- A flush builds a frame only where a redraw is due. -/
theorem builds_clean (answers : List Answer) (h : p.panelDirty = false) :
    builds props answers p = 0 := by
  induction answers generalizing p with
  | nil => rfl
  | cons answer answers ih =>
    unfold builds
    split
    · rfl
    · split
      · rfl
      · rfl
      · next n hn =>
        have hnone : ¬((p.take n).panelOut = [] ∧ p.panelDirty = true) := by
          rintro ⟨-, hdirty⟩
          exact absurd (h.symm.trans hdirty) Bool.false_ne_true
        have hsame : (p.take n).redraw props = p.take n := if_neg hnone
        split
        · rfl
        · rw [hsame, Nat.zero_add]
          exact ih h

theorem framesDrawn_eq_one (h : Pending p) (hthere : p.connected = true) (hout : p.panelOut = []) :
    framesDrawn props p = 1 := by
  unfold framesDrawn
  rw [if_neg (by rw [hthere]; decide), if_neg (not_not.mpr hout),
    builds_clean _ (build_dirty.trans (h.clean hout))]

/-- In every run in which no write fails and no watch is refused while a frame is on its way behind
which another is due: a redraw is due only while a frame is on its way, and a draw that begins with
nothing on its way, in whatever event comes next, builds one frame. -/
theorem redraw_due_with_frame_in_flight (props : Properties) (p₀ p : PanelState)
    (es : List (List Answer × PanelEvent)) (hclean : p₀.panelDirty = false)
    (h : Steps (Guarded Undisturbed fun p e q => panelStep props p e = some q) p₀ es p) :
    (p.panelDirty = true → p.panelOut ≠ []) ∧
      ∀ e, ∀ d ∈ draws props p e, d.connected = true → d.panelOut = [] →
        framesDrawn props d = 1 := by
  have hstep : ∀ q e q', Pending q →
      Guarded Undisturbed (fun p e q => panelStep props p e = some q) q e q' → Pending q' :=
    fun _ _ _ hq hs => step_pending hq hs
  have hpending : Pending p := h.invariant hstep (pending_of_clean hclean)
  refine ⟨hpending, fun e d hd hthere hout => ?_⟩
  exact framesDrawn_eq_one (kept_draws (pending_kept props) hpending d hd) hthere hout

/-- One byte of a frame is left, and the viewer is watched. -/
def nearlySent : PanelState := { panelOut := [0x0a], panelWatch := true }

/-- DATA is written, and the viewer is still not ready. -/
theorem redraw_waits_for_frame :
    ∃ p, Steps (Guarded Undisturbed fun p e q => panelStep {} p e = some q) nearlySent
        [([], .write lddIoData 1 1 []), ([{ written := .again, watch := true }], .writable)] p ∧
      p.panelDirty = true ∧ p.panelOut ≠ [] := by
  have hexec : (exec (fun p e => if Undisturbed p e then panelStep {} p e else none) nearlySent
      [([], .write lddIoData 1 1 []), ([{ written := .again, watch := true }], .writable)]).map
      PanelState.panelDirty = some true := by decide +kernel
  obtain ⟨p, hp, hdirty⟩ := Option.map_eq_some_iff.mp hexec
  have hrun := exec_guarded_steps hp
  exact ⟨p, hrun, hdirty, (redraw_due_with_frame_in_flight {} nearlySent p _ rfl hrun).1 hdirty⟩

/-! ## A frame that is dropped -/

theorem render_ne_nil (props : Properties) (s : LDDIOState) : render props s ≠ [] := by
  have hrule : rule ≠ [] := by decide +kernel
  unfold render lddIoBuildPanel
  dsimp only
  rw [matrixRows_eq]
  exact List.append_ne_nil_of_left_ne_nil (List.append_ne_nil_of_right_ne_nil _ hrule) _

/-- With a redraw due and nothing on its way, a viewer that takes a whole frame gets two. -/
theorem framesDrawn_eq_two (hthere : p.connected = true) (hout : p.panelOut = [])
    (hdirty : p.panelDirty = true)
    (hanswers : p.answers = [{ written := .takes (render props p.io).length, watch := true }]) :
    framesDrawn props p = 2 := by
  have hbuilt : (p.build props).panelOut = render props p.io := by
    unfold PanelState.build
    dsimp only
    rw [buildPanel_eq, hout, List.nil_append]
  have hne : (p.build props).panelOut ≠ [] := by
    rw [hbuilt]
    exact render_ne_nil props p.io
  have hall : ((p.build props).take (render props p.io).length).panelOut = [] := by
    unfold PanelState.take
    dsimp only
    rw [hbuilt, List.drop_length]
  unfold framesDrawn
  rw [if_neg (by rw [hthere]; decide), if_neg (not_not.mpr hout), hanswers,
    builds_takes hne rfl (List.length_pos_iff.mpr (render_ne_nil props p.io)),
    if_pos ⟨hall, build_dirty.trans hdirty⟩, builds]

/-- A viewer comes and takes nothing, DATA is written, and the next write to the viewer fails. -/
def failingWrite : List (List Answer × PanelEvent) :=
  [([], .opened), ([], .write lddIoData 1 1 []),
    ([{ written := .fails, watch := true }], .writable)]

/-- The redraw stays due with nothing on its way; the next write to DATA draws two frames. -/
theorem dropped_frame_leaves_redraw_due :
    ∃ p, Steps (fun p e q => panelStep {} p e = some q) {} failingWrite p ∧
      p.panelDirty = true ∧ p.panelOut = [] ∧
      ∃ e, ∃ d ∈ draws {} p e, d.connected = true ∧ d.panelOut = [] ∧ framesDrawn {} d = 2 := by
  have hexec : (exec (panelStep {}) {} failingWrite).map
      (fun p => (p.panelDirty, p.panelOut, p.connected)) = some (true, [], true) := by
    decide +kernel
  obtain ⟨p, hp, heq⟩ := Option.map_eq_some_iff.mp hexec
  obtain ⟨hdirty, hout, hthere⟩ := by simpa only [Prod.mk.injEq] using heq
  let answers : List Answer :=
    [{ written := .takes (render {} (writeData p.io 2)).length, watch := true }]
  refine ⟨p, exec_steps hp, hdirty, hout, (answers, .write lddIoData 2 1 []),
    { p with answers }.change (writeData p.io 2), List.mem_singleton.mpr rfl, hthere, hout, ?_⟩
  exact framesDrawn_eq_two hthere hout hdirty rfl

end LinuxDeviceDriver.Qemu.Io.PanelPending
