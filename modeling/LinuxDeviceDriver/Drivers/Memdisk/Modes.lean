/- source: examples/29_block_device/main.c, lines 40 to 166; README.md, lines 33 to 39
   digest: What the three request modes do to the disk and the segments, as one copy of the
     segments before the first that runs past the end; where the modes differ; and that a
     read returns what was written last. -/

import LinuxDeviceDriver.Drivers.Memdisk.Model

set_option autoImplicit false

namespace LinuxDeviceDriver.Drivers.Memdisk.Modes

open Lib.Extents
open Lib.LittleEndian (Byte)
open Lib.ScatterGather
open Model

/-! ## One segment -/

/-- The copy of a segment that fits. -/
def copy (write : Bool) (s : State) (p : Nat × BioVec) : State :=
  if write = true then memcpyFromBvec s p.1 p.2 else memcpyToBvec s p.1 p.2

@[simp] theorem copy_size (write : Bool) (s : State) (p : Nat × BioVec) :
    (copy write s p).dev.size = s.dev.size := by
  cases write <;> rfl

@[simp] theorem foldl_copy_size (write : Bool) (s : State) (ps : List (Nat × BioVec)) :
    (ps.foldl (copy write) s).dev.size = s.dev.size := by
  induction ps generalizing s with
  | nil => rfl
  | cons p ps ih => rw [List.foldl_cons, ih, copy_size]

/-- A segment at a byte offset fits on the disk. -/
abbrev onDisk (s : State) (p : Nat × BioVec) : Bool := fits BioVec.len s.dev.size.toNat p

section Transfer

variable {s : State} {sector : BitVec 64} {bvec : BioVec} {write : Bool}

private theorem offset_toNat (h : 512 * sector.toNat < 2 ^ 64) :
    (sector <<< sectorShift).toNat = 512 * sector.toNat := by
  rw [BitVec.toNat_shiftLeft, Nat.shiftLeft_eq, sectorShift, Nat.mod_eq_of_lt (by omega)]
  omega

/-- With an offset that does not overflow the test is the one over the integers. -/
theorem memdiskTransfer_eq (h : 512 * sector.toNat + bvec.len < 2 ^ 64) :
    memdiskTransfer s sector bvec write =
      if onDisk s (512 * sector.toNat, bvec) = true then
        (.ok, copy write s (512 * sector.toNat, bvec))
      else (.ioerr, s) := by
  have hoff : (sector <<< sectorShift).toNat = _ := offset_toNat (by omega)
  have hlen : (bvec.bvLen.setWidth 64).toNat = bvec.len := by
    rw [BitVec.toNat_setWidth, BioVec.len, Nat.mod_eq_of_lt]
    have := bvec.bvLen.isLt
    omega
  have hsum : (sector <<< sectorShift + bvec.bvLen.setWidth 64).toNat =
      512 * sector.toNat + bvec.len := by
    rw [BitVec.toNat_add, hoff, hlen, Nat.mod_eq_of_lt h]
  have htest : s.dev.size < sector <<< sectorShift + bvec.bvLen.setWidth 64 ↔
      ¬ onDisk s (512 * sector.toNat, bvec) = true := by
    rw [BitVec.lt_def, hsum, onDisk, fits, decide_eq_true_iff, Nat.not_le]
  simp only [memdiskTransfer, hoff, htest]
  by_cases hfit : onDisk s (512 * sector.toNat, bvec) = true
  · rw [if_neg (not_not_intro hfit), if_pos hfit]
    cases write <;> rfl
  · rw [if_pos hfit, if_neg hfit]

theorem next_sector (hlen : bvec.len % 512 = 0) (h : 512 * sector.toNat + bvec.len < 2 ^ 64) :
    512 * (sector + (bvec.bvLen >>> sectorShift).setWidth 64).toNat =
      512 * sector.toNat + bvec.len := by
  have hlt := bvec.bvLen.isLt
  have hshift : ((bvec.bvLen >>> sectorShift).setWidth 64).toNat = bvec.len / 512 := by
    rw [BitVec.toNat_setWidth, BitVec.toNat_ushiftRight, Nat.shiftRight_eq_div_pow, sectorShift,
      BioVec.len, Nat.mod_eq_of_lt (by omega)]
  rw [BitVec.toNat_add, hshift, Nat.mod_eq_of_lt (by omega)]
  omega

end Transfer

/-! ## The segments of one bio -/

/-- The walk after a segment that fits. -/
def Walk.past (write : Bool) (w : Walk) (bvec : BioVec) : Walk :=
  ⟨copy write w.state (512 * w.sector.toNat, bvec),
    w.sector + (bvec.bvLen >>> sectorShift).setWidth 64, .ok⟩

@[simp] theorem Walk.past_state (write : Bool) (w : Walk) (bvec : BioVec) :
    (Walk.past write w bvec).state = copy write w.state (512 * w.sector.toNat, bvec) := rfl

section Segments

variable {write : Bool} {segs : List BioVec} {bvec : BioVec} {w : Walk}

theorem forEachSegment_cons (h : 512 * w.sector.toNat + bvec.len < 2 ^ 64)
    (hfit : onDisk w.state (512 * w.sector.toNat, bvec) = true) :
    forEachSegment write (bvec :: segs) w = forEachSegment write segs (Walk.past write w bvec) := by
  rw [forEachSegment, memdiskTransfer_eq h, if_pos hfit]
  rfl

theorem forEachSegment_fail (h : 512 * w.sector.toNat + bvec.len < 2 ^ 64)
    (hoff : onDisk w.state (512 * w.sector.toNat, bvec) = false) :
    forEachSegment write (bvec :: segs) w = { w with status := .ioerr } := by
  rw [forEachSegment, memdiskTransfer_eq h, if_neg (by simp [hoff])]

theorem forEachSegment_all (write : Bool) (hlens : ∀ bvec ∈ segs, bvec.len % 512 = 0)
    (h : 512 * w.sector.toNat + total BioVec.len segs < 2 ^ 64)
    (hfit : ∀ p ∈ place BioVec.len (512 * w.sector.toNat) segs, onDisk w.state p = true) :
    let w' := forEachSegment write segs w
    w'.state = (place BioVec.len (512 * w.sector.toNat) segs).foldl (copy write) w.state ∧
      512 * w'.sector.toNat = 512 * w.sector.toNat + total BioVec.len segs ∧
      w'.status = if segs = [] then w.status else .ok := by
  induction segs generalizing w with
  | nil => exact ⟨rfl, rfl, rfl⟩
  | cons bvec segs ih =>
    rw [total_cons] at h
    have hnext : 512 * (Walk.past write w bvec).sector.toNat = 512 * w.sector.toNat + bvec.len :=
      next_sector (hlens bvec List.mem_cons_self) (by omega)
    rw [forEachSegment_cons (by omega) (hfit _ List.mem_cons_self)]
    obtain ⟨hstate, hsector, hstatus⟩ := ih (w := Walk.past write w bvec)
      (fun v hv => hlens v (List.mem_cons_of_mem _ hv)) (by omega) (by
        intro p hp
        rw [hnext] at hp
        simpa [onDisk] using hfit p (List.mem_cons_of_mem _ hp))
    refine ⟨?_, ?_, ?_⟩
    · rw [hstate, hnext]
      rfl
    · rw [hsector, hnext, total_cons]
      omega
    · rw [hstatus, if_neg (List.cons_ne_nil _ _)]
      exact ite_self _

/-- A bio with a segment that is not: the walk stops at the first such. -/
theorem forEachSegment_stop (write : Bool) (hlens : ∀ bvec ∈ segs, bvec.len % 512 = 0)
    (h : 512 * w.sector.toNat + total BioVec.len segs < 2 ^ 64)
    (hstop : ∃ p ∈ place BioVec.len (512 * w.sector.toNat) segs, onDisk w.state p = false) :
    let w' := forEachSegment write segs w
    w'.state = (fitting BioVec.len w.state.dev.size.toNat
        (place BioVec.len (512 * w.sector.toNat) segs)).foldl (copy write) w.state ∧
      (∃ p ∈ place BioVec.len (512 * w.sector.toNat) segs,
        onDisk w.state p = false ∧ 512 * w'.sector.toNat = p.1) ∧
      w'.status = .ioerr := by
  induction segs generalizing w with
  | nil =>
    obtain ⟨p, hp, -⟩ := hstop
    cases hp
  | cons bvec segs ih =>
    rw [total_cons] at h
    cases hthis : onDisk w.state (512 * w.sector.toNat, bvec) with
    | false =>
      rw [forEachSegment_fail (by omega) hthis, place, fitting_cons_neg hthis]
      exact ⟨rfl, ⟨_, List.mem_cons_self, hthis, rfl⟩, rfl⟩
    | true =>
      have hnext : 512 * (Walk.past write w bvec).sector.toNat = 512 * w.sector.toNat + bvec.len :=
        next_sector (hlens bvec List.mem_cons_self) (by omega)
      have hrest : ∃ p ∈ place BioVec.len (512 * (Walk.past write w bvec).sector.toNat) segs,
          onDisk (Walk.past write w bvec).state p = false := by
        obtain ⟨p, hp, hoff⟩ := hstop
        rcases List.mem_cons.mp hp with rfl | hp
        · rw [hthis] at hoff
          cases hoff
        · exact ⟨p, hnext ▸ hp, by simpa [onDisk] using hoff⟩
      rw [forEachSegment_cons (by omega) hthis]
      obtain ⟨hstate, ⟨p, hp, hoff, hsector⟩, hstatus⟩ := ih (w := Walk.past write w bvec)
        (fun v hv => hlens v (List.mem_cons_of_mem _ hv)) (by omega) hrest
      rw [hnext] at hp hstate
      refine ⟨?_, ⟨p, List.mem_cons_of_mem _ hp, by simpa [onDisk] using hoff, hsector⟩, hstatus⟩
      rw [hstate, place, fitting_cons_pos hthis, List.foldl_cons, Walk.past_state, copy_size]

end Segments

/-! ## The bios of a request -/

/-- What is known of the rest of a request, from the sector where it begins. -/
structure Rest (op : ReqOp) (sector : Nat) (bios : List Bio) : Prop where
  dir : ∀ bio ∈ bios, bio.op = op
  lens : ∀ bio ∈ bios, ∀ bvec ∈ bio.segs, bvec.len % 512 = 0
  follow : Consecutive sector bios
  range : 512 * sector + total BioVec.len (bios.flatMap Bio.segs) < 2 ^ 64

theorem rwRequest_rest (rq : RwRequest) : Rest rq.op rq.pos.toNat rq.bios :=
  ⟨rq.dir, rq.lens, rq.follow, rq.range⟩

/-- The segments of these bios, each with its byte offset. -/
abbrev pieces (sector : Nat) (bios : List Bio) : List (Nat × BioVec) :=
  place BioVec.len (512 * sector) (bios.flatMap Bio.segs)

section Bios

variable {op : ReqOp} {sector : Nat} {bio : Bio} {bios : List Bio} {s : State}

private theorem total_mod {segs : List BioVec} (h : ∀ bvec ∈ segs, bvec.len % 512 = 0) :
    total BioVec.len segs % 512 = 0 := by
  induction segs with
  | nil => rfl
  | cons bvec segs ih =>
    have hthis := h bvec List.mem_cons_self
    have hrest := ih fun v hv => h v (List.mem_cons_of_mem _ hv)
    rw [total_cons]
    omega

theorem Rest.sectors (h : Rest op sector (bio :: bios)) :
    512 * (sector + total BioVec.len bio.segs / 512) =
      512 * sector + total BioVec.len bio.segs := by
  have hmod := total_mod (h.lens bio List.mem_cons_self)
  omega

theorem Rest.tail (h : Rest op sector (bio :: bios)) :
    Rest op (sector + total BioVec.len bio.segs / 512) bios where
  dir b hb := h.dir b (List.mem_cons_of_mem _ hb)
  lens b hb := h.lens b (List.mem_cons_of_mem _ hb)
  follow := h.follow.2
  range := by
    have hrange := h.range
    rw [List.flatMap_cons, total_append] at hrange
    rw [h.sectors]
    omega

theorem Rest.pieces_cons (h : Rest op sector (bio :: bios)) :
    pieces sector (bio :: bios) = place BioVec.len (512 * sector) bio.segs ++
      pieces (sector + total BioVec.len bio.segs / 512) bios := by
  rw [pieces, List.flatMap_cons, place_append, ← h.sectors]

theorem Rest.bio_range (h : Rest op sector (bio :: bios)) :
    512 * bio.biSector.toNat + total BioVec.len bio.segs < 2 ^ 64 := by
  have hrange := h.range
  rw [List.flatMap_cons, total_append] at hrange
  rw [h.follow.1]
  omega

theorem memdiskXferBio_all (h : Rest op sector (bio :: bios))
    (hfit : ∀ p ∈ place BioVec.len (512 * sector) bio.segs, onDisk s p = true) :
    memdiskXferBio s bio = (.ok,
      (place BioVec.len (512 * sector) bio.segs).foldl (copy (bioDataDir op)) s) := by
  have hdir := h.dir bio List.mem_cons_self
  rw [← h.follow.1] at hfit ⊢
  obtain ⟨hstate, -, hstatus⟩ := forEachSegment_all (bioDataDir bio.op)
    (w := ⟨s, bio.biSector, .ok⟩) (h.lens bio List.mem_cons_self) h.bio_range hfit
  rw [ite_self] at hstatus
  rw [memdiskXferBio, ← hdir]
  exact Prod.ext hstatus hstate

theorem memdiskXferBio_stop (h : Rest op sector (bio :: bios))
    (hstop : ∃ p ∈ place BioVec.len (512 * sector) bio.segs, onDisk s p = false) :
    memdiskXferBio s bio = (.ioerr, (fitting BioVec.len s.dev.size.toNat
      (place BioVec.len (512 * sector) bio.segs)).foldl (copy (bioDataDir op)) s) := by
  have hdir := h.dir bio List.mem_cons_self
  rw [← h.follow.1] at hstop ⊢
  obtain ⟨hstate, -, hstatus⟩ := forEachSegment_stop (bioDataDir bio.op)
    (w := ⟨s, bio.biSector, .ok⟩) (h.lens bio List.mem_cons_self) h.bio_range hstop
  rw [memdiskXferBio, ← hdir]
  exact Prod.ext hstatus hstate

/-- A segment of this bio is past the end of the disk, or none is. -/
theorem stop_or_all (s : State) (ps : List (Nat × BioVec)) :
    (∃ p ∈ ps, onDisk s p = false) ∨ ∀ p ∈ ps, onDisk s p = true := by
  by_cases h : ∃ p ∈ ps, onDisk s p = false
  · exact .inl h
  · right
    intro p hp
    by_contra hoff
    exact h ⟨p, hp, Bool.not_eq_true _ ▸ hoff⟩

end Bios

/-- What became of a walk over these segments: those before the first that is past the end
of the disk were copied, and there was an error if there is such a segment. -/
structure Moved (write : Bool) (ps : List (Nat × BioVec)) (s s' : State) (err : Bool) : Prop where
  state : s' = (fitting BioVec.len s.dev.size.toNat ps).foldl (copy write) s
  error : err = true ↔ ∃ p ∈ ps, onDisk s p = false

section Moved

variable {op : ReqOp} {sector : Nat} {bio : Bio} {bios : List Bio} {s s' : State} {write err : Bool}
  {ps qs : List (Nat × BioVec)}

theorem Moved.stop (hstop : ∃ p ∈ ps, onDisk s p = false)
    (hs : s' = (fitting BioVec.len s.dev.size.toNat ps).foldl (copy write) s)
    (herr : err = true) : Moved write (ps ++ qs) s s' err where
  state := by rw [fitting_append_stop hstop, hs]
  error := by
    obtain ⟨p, hp, hoff⟩ := hstop
    exact ⟨fun _ => ⟨p, List.mem_append_left _ hp, hoff⟩, fun _ => herr⟩

theorem Moved.all (hfit : ∀ p ∈ ps, onDisk s p = true)
    (h : Moved write qs (ps.foldl (copy write) s) s' err) : Moved write (ps ++ qs) s s' err where
  state := by
    rw [fitting_append_all hfit, List.foldl_append, h.state, foldl_copy_size]
  error := by
    rw [h.error]
    constructor
    · rintro ⟨p, hp, hoff⟩
      exact ⟨p, List.mem_append_right _ hp, by simpa [onDisk] using hoff⟩
    · rintro ⟨p, hp, hoff⟩
      rcases List.mem_append.mp hp with hp | hp
      · rw [hfit p hp] at hoff
        cases hoff
      · exact ⟨p, hp, by simpa [onDisk] using hoff⟩

theorem Moved.nil (write : Bool) (s : State) : Moved write [] s s false :=
  ⟨rfl, by simp⟩

theorem rqForEachBio_moved (h : Rest op sector bios) :
    Moved (bioDataDir op) (pieces sector bios) s (rqForEachBio bios (.ok, s)).2
      ((rqForEachBio bios (.ok, s)).1 != .ok) := by
  induction bios generalizing sector s with
  | nil => exact Moved.nil _ s
  | cons bio bios ih =>
    rw [h.pieces_cons]
    rcases stop_or_all s (place BioVec.len (512 * sector) bio.segs) with hstop | hfit
    · rw [rqForEachBio, memdiskXferBio_stop h hstop]
      exact Moved.stop hstop rfl rfl
    · rw [rqForEachBio, memdiskXferBio_all h hfit]
      exact Moved.all hfit (ih h.tail)

/-- Bios that begin past the end of the disk move nothing. -/
theorem submitBios_past (h : Rest op sector bios) (hop : memdiskRw op = true)
    (hpast : s.dev.size.toNat < 512 * sector) : (submitBios s bios).2 = s := by
  induction bios generalizing sector with
  | nil => rfl
  | cons bio bios ih =>
    have hnone : fitting BioVec.len s.dev.size.toNat (place BioVec.len (512 * sector) bio.segs) = [] :=
      fitting_past hpast
    have hsub : (memdiskSubmitBio s bio).2 = s := by
      rw [memdiskSubmitBio, h.dir bio List.mem_cons_self, if_pos hop]
      rcases stop_or_all s (place BioVec.len (512 * sector) bio.segs) with hstop | hfit
      · rw [memdiskXferBio_stop h hstop, hnone]
        rfl
      · rw [memdiskXferBio_all h hfit, ← fitting_all hfit, hnone]
        rfl
    rw [submitBios, hsub]
    exact ih h.tail (by rw [h.sectors]; omega)

/-- After a bio that failed the later ones are past the end of the disk. -/
theorem submitBios_moved (h : Rest op sector bios) (hop : memdiskRw op = true) :
    Moved (bioDataDir op) (pieces sector bios) s (submitBios s bios).2
      ((submitBios s bios).1.any (· != .ok)) := by
  induction bios generalizing sector s with
  | nil => exact Moved.nil _ s
  | cons bio bios ih =>
    have hxfer : memdiskSubmitBio s bio = memdiskXferBio s bio := by
      rw [memdiskSubmitBio, h.dir bio List.mem_cons_self, if_pos hop]
    rw [h.pieces_cons, submitBios, hxfer]
    rcases stop_or_all s (place BioVec.len (512 * sector) bio.segs) with hstop | hfit
    · rw [memdiskXferBio_stop h hstop]
      refine Moved.stop hstop (submitBios_past h.tail hop ?_) rfl
      obtain ⟨p, hp, hoff⟩ := hstop
      have hend := (mem_place hp).2.1
      have hlt := of_decide_eq_false hoff
      rw [foldl_copy_size, h.sectors]
      omega
    · rw [memdiskXferBio_all h hfit]
      exact Moved.all hfit (ih h.tail)

end Moved

/-! ## The simple mode -/

/-- No bio begins with a segment short enough to be on the disk where a segment of an
earlier bio was not. -/
def StopsAtError (limit : Nat) : Nat → List Bio → Prop
  | _, [] => True
  | o, bio :: bios =>
    (∀ p ∈ place BioVec.len o bio.segs, fits BioVec.len limit p = false →
      ∀ b ∈ bios, ∀ bvec ∈ b.segs.head?, fits BioVec.len limit (p.1, bvec) = false) ∧
      StopsAtError limit (o + total BioVec.len bio.segs) bios

section Simple

variable {op : ReqOp} {sector : Nat} {bio : Bio} {bios : List Bio} {write : Bool} {w : Walk}

/-- Each later bio fails at its first segment, where the walk stopped. -/
theorem rqForEachSegment_stopped (hstatus : w.status = .ioerr)
    (h : ∀ b ∈ bios, ∀ bvec ∈ b.segs.head?, 512 * w.sector.toNat + bvec.len < 2 ^ 64 ∧
      onDisk w.state (512 * w.sector.toNat, bvec) = false) :
    rqForEachSegment write bios w = w := by
  induction bios with
  | nil => rfl
  | cons bio bios ih =>
    have hbio : forEachSegment write bio.segs w = w := by
      have hhead := h bio List.mem_cons_self
      cases hsegs : bio.segs with
      | nil => rfl
      | cons bvec segs =>
        obtain ⟨hlt, hoff⟩ := hhead bvec (by rw [hsegs]; rfl)
        rw [forEachSegment_fail hlt hoff, ← hstatus]
    rw [rqForEachSegment, List.foldl_cons, hbio]
    exact ih fun b hb => h b (List.mem_cons_of_mem _ hb)

private theorem rqForEachSegment_cons :
    rqForEachSegment write (bio :: bios) w =
      rqForEachSegment write bios (forEachSegment write bio.segs w) := rfl

/-- The status counts if there was a segment, or if the walk had gone well before. -/
theorem rqForEachSegment_moved (h : Rest op sector bios) (hw : w.sector.toNat = sector)
    (hstops : StopsAtError w.state.dev.size.toNat (512 * sector) bios)
    (hok : w.status = .ok ∨ bios.flatMap Bio.segs ≠ []) :
    Moved (bioDataDir op) (pieces sector bios) w.state
      (rqForEachSegment (bioDataDir op) bios w).state
      ((rqForEachSegment (bioDataDir op) bios w).status != .ok) := by
  induction bios generalizing sector w with
  | nil =>
    have hstatus : w.status = .ok := hok.resolve_right fun hne => hne rfl
    have hmoved := Moved.nil (bioDataDir op) w.state
    rw [rqForEachSegment, List.foldl_nil, hstatus]
    exact hmoved
  | cons bio bios ih =>
    subst hw
    have hrange := h.range
    rw [List.flatMap_cons, total_append] at hrange
    rw [h.pieces_cons, rqForEachSegment_cons]
    rcases stop_or_all w.state (place BioVec.len (512 * w.sector.toNat) bio.segs) with hstop | hfit
    · obtain ⟨hstate, ⟨p, hp, hoff, hsector⟩, hstatus⟩ := forEachSegment_stop
        (bioDataDir op) (h.lens bio List.mem_cons_self) (by omega) hstop
      rw [rqForEachSegment_stopped hstatus]
      · exact Moved.stop hstop hstate (by rw [hstatus]; rfl)
      · intro b hb bvec hbvec
        have hmem : bvec ∈ bios.flatMap Bio.segs :=
          List.mem_flatMap.mpr ⟨b, hb, List.mem_of_mem_head? hbvec⟩
        have hlen : bvec.len ≤ total BioVec.len (bios.flatMap Bio.segs) := le_total hmem
        have hend := (mem_place hp).2.1
        rw [hsector, hstate, onDisk, foldl_copy_size]
        exact ⟨by omega, hstops.1 p hp hoff b hb bvec hbvec⟩
    · obtain ⟨hstate, hsector, hstatus⟩ := forEachSegment_all
        (bioDataDir op) (h.lens bio List.mem_cons_self) (by omega) hfit
      have hmoved := ih (w := forEachSegment (bioDataDir op) bio.segs w) h.tail ?_ ?_ ?_
      · rw [hstate] at hmoved
        exact Moved.all hfit hmoved
      · have hs := h.sectors
        omega
      · rw [hstate, foldl_copy_size, h.sectors]
        exact hstops.2
      · rw [hstatus]
        by_cases hnil : bio.segs = []
        · rw [if_pos hnil]
          rw [List.flatMap_cons, hnil, List.nil_append] at hok
          exact hok
        · rw [if_neg hnil]
          exact .inl rfl

end Simple

/-- A disk of two sectors, and memory with another byte on each page. -/
def twoSectors : State := ⟨⟨1024, fun _ => 0⟩, fun l => BitVec.ofNat 8 l.1⟩

/-- A write of sectors 1 to 3: a bio of two sectors from page 1, then one of one sector
from page 2. -/
def pastTheEnd : RwRequest where
  pos := 1
  op := .write
  bios := [⟨1, .write, [⟨1, 0, 1024⟩]⟩, ⟨3, .write, [⟨2, 0, 512⟩]⟩]
  rw := rfl
  dir := by simp
  lens := by simp [BioVec.len]
  follow := by decide
  range := by decide

/-- What a request must be for the three modes to agree: it has a segment, and stops at an
error. -/
structure Agreeable (limit : Nat) (rq : RwRequest) : Prop where
  segs : rq.segs ≠ []
  stops : StopsAtError limit (512 * rq.pos.toNat) rq.bios

theorem memdiskQueueRqSimple_moved {s : State} {rq : RwRequest}
    (h : Agreeable s.dev.size.toNat rq) :
    Moved (bioDataDir rq.op) (pieces rq.pos.toNat rq.bios) s
      (memdiskQueueRqSimple s rq.toRequest).2
      ((memdiskQueueRqSimple s rq.toRequest).1 != .ok) := by
  rw [memdiskQueueRqSimple, if_pos rq.rw]
  exact rqForEachSegment_moved (w := ⟨s, rq.pos, .notsupp⟩) (rwRequest_rest rq) rfl h.stops
    (.inr h.segs)

theorem memdiskQueueRqFull_moved (s : State) {rq : RwRequest} (h : rq.segs ≠ []) :
    Moved (bioDataDir rq.op) (pieces rq.pos.toNat rq.bios) s
      (memdiskQueueRqFull s rq.toRequest).2 ((memdiskQueueRqFull s rq.toRequest).1 != .ok) := by
  have hstatus : rqForEachBio rq.bios (.notsupp, s) = rqForEachBio rq.bios (.ok, s) := by
    cases hb : rq.bios with
    | nil => exact absurd (by rw [Request.segs, hb]; rfl) h
    | cons bio bios => rfl
  rw [memdiskQueueRqFull, if_pos rq.rw, hstatus]
  exact rqForEachBio_moved (rwRequest_rest rq)

theorem serve_moved {s : State} {rq : RwRequest} (h : Agreeable s.dev.size.toNat rq)
    (mode : RequestMode) :
    Moved (bioDataDir rq.op) (pieces rq.pos.toNat rq.bios) s (serve s rq.toRequest mode).2
      (serve s rq.toRequest mode).1 := by
  cases mode with
  | simple => exact memdiskQueueRqSimple_moved h
  | full => exact memdiskQueueRqFull_moved s h.segs
  | noqueue => exact submitBios_moved (rwRequest_rest rq) rq.rw

/-! ## What was written last -/

section History

variable {s : State} {ps : List (Nat × BioVec)}

/-- The write of a segment, with memory as it is. -/
def writeOf (mem : Loc → Byte) (p : Nat × BioVec) : Write Byte := ⟨p.1, p.2.locs.map mem⟩

theorem foldl_copy_write : ps.foldl (copy true) s =
    ⟨⟨s.dev.size, (ps.map (writeOf s.mem)).foldl Write.apply s.dev.data⟩, s.mem⟩ := by
  induction ps generalizing s with
  | nil => rfl
  | cons p ps ih =>
    have hcopy : copy true s p = ⟨⟨s.dev.size, (writeOf s.mem p).apply s.dev.data⟩, s.mem⟩ := by
      have hlen : (p.2.locs.map s.mem).length = p.2.len := by simp [BioVec.locs]
      rw [Write.apply, writeOf, hlen]
      rfl
    rw [List.foldl_cons, ih, hcopy, List.map_cons, List.foldl_cons]

theorem foldl_copy_read : ps.foldl (copy false) s =
    ⟨s.dev, store s.mem (ps.flatMap fun p => p.2.locs)
      ((ps.flatMap fun p => extent p.1 p.2.len).map s.dev.data)⟩ := by
  induction ps generalizing s with
  | nil => rfl
  | cons p ps ih =>
    rw [List.foldl_cons, ih, List.flatMap_cons, List.flatMap_cons, List.map_append,
      store_append _ _ _ _ _ (by simp [BioVec.locs])]
    rfl

/-- The segments of a request cover one extent of the disk. -/
theorem flatMap_extent (o : Nat) (segs : List BioVec) :
    ((place BioVec.len o segs).flatMap fun p => extent p.1 p.2.len) =
      extent o (total BioVec.len segs) := by
  induction segs generalizing o with
  | nil => rfl
  | cons bvec segs ih => rw [place, List.flatMap_cons, ih, total_cons, extent_append]

theorem flatMap_locs (o : Nat) (segs : List BioVec) :
    ((place BioVec.len o segs).flatMap fun p => p.2.locs) = segs.flatMap BioVec.locs := by
  induction segs generalizing o with
  | nil => rfl
  | cons bvec segs ih => rw [place, List.flatMap_cons, ih, List.flatMap_cons]

end History

/-- A request, with memory as it is when it is served. -/
structure Call where
  mem : Loc → Byte
  rq : RwRequest

/-- The segments that a request writes, each to its byte offset: those before the first
that runs past the end. -/
def Call.writes (limit : Nat) (call : Call) : List (Write Byte) :=
  if call.rq.op = .write then
    (fitting BioVec.len limit (pieces call.rq.pos.toNat call.rq.bios)).map (writeOf call.mem)
  else []

/-- The disk after these requests. -/
def serveAll (mode : RequestMode) (dev : Memdisk) (calls : List Call) : Memdisk :=
  calls.foldl (fun dev call => (serve ⟨dev, call.mem⟩ call.rq.toRequest mode).2.dev) dev

section Run

variable {dev : Memdisk} {call : Call} {calls : List Call}

theorem serve_dev (mode : RequestMode) (h : Agreeable dev.size.toNat call.rq) :
    (serve ⟨dev, call.mem⟩ call.rq.toRequest mode).2.dev =
      ⟨dev.size, (call.writes dev.size.toNat).foldl Write.apply dev.data⟩ := by
  have hmoved := serve_moved (s := ⟨dev, call.mem⟩) h mode
  rw [hmoved.state]
  cases hop : call.rq.op with
  | write =>
    have hdir : bioDataDir ReqOp.write = true := rfl
    rw [hdir, foldl_copy_write, Call.writes, if_pos hop]
  | read =>
    have hdir : bioDataDir ReqOp.read = false := rfl
    rw [hdir, foldl_copy_read, Call.writes, hop]
    rfl
  | other =>
    have hrw := call.rq.rw
    rw [hop] at hrw
    cases hrw

theorem serveAll_dev (mode : RequestMode) (h : ∀ call ∈ calls, Agreeable dev.size.toNat call.rq) :
    serveAll mode dev calls = ⟨dev.size,
      (calls.flatMap (Call.writes dev.size.toNat)).foldl Write.apply dev.data⟩ := by
  induction calls generalizing dev with
  | nil => rfl
  | cons call calls ih =>
    have hdev := serve_dev mode (h call List.mem_cons_self)
    rw [serveAll, List.foldl_cons, hdev, List.flatMap_cons, List.foldl_append]
    exact ih fun c hc => h c (List.mem_cons_of_mem _ hc)

/-- A read that goes well fills its segments from the disk. -/
theorem serve_read (mode : RequestMode) (h : Agreeable dev.size.toNat call.rq)
    (hop : call.rq.op = .read)
    (hok : (serve ⟨dev, call.mem⟩ call.rq.toRequest mode).1 = false) :
    (serve ⟨dev, call.mem⟩ call.rq.toRequest mode).2.mem =
      store call.mem (call.rq.segs.flatMap BioVec.locs)
        ((extent (512 * call.rq.pos.toNat) (total BioVec.len call.rq.segs)).map dev.data) := by
  have hmoved := serve_moved (s := ⟨dev, call.mem⟩) h mode
  have hall := (stop_or_all ⟨dev, call.mem⟩ (pieces call.rq.pos.toNat call.rq.bios)).resolve_left
    fun hstop => by simp [hmoved.error.mpr hstop] at hok
  have hdir : bioDataDir ReqOp.read = false := rfl
  rw [hmoved.state, fitting_all hall, hop, hdir, foldl_copy_read, flatMap_extent, flatMap_locs]
  rfl

end Run

/-- A request for the first sector, to or from a page. -/
def firstSector (op : ReqOp) (hrw : memdiskRw op = true) (page : Nat) : RwRequest where
  pos := 0
  op := op
  bios := [⟨0, op, [⟨page, 0, 512⟩]⟩]
  rw := hrw
  dir := by simp
  lens := by simp [BioVec.len]
  follow := ⟨rfl, trivial⟩
  range := by simp [total, BioVec.len]

theorem firstSector_agreeable (op : ReqOp) (hrw : memdiskRw op = true) (page : Nat) :
    Agreeable 1024 (firstSector op hrw page) :=
  ⟨List.cons_ne_nil _ _, by simp [firstSector, StopsAtError]⟩

end LinuxDeviceDriver.Drivers.Memdisk.Modes
