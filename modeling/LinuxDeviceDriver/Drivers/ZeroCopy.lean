/- source: examples/24_zero_copy/main.c, lines 20 to 173
   digest: The pages that a zero_copy file pins: who holds them, and what is marked dirty. -/

import LinuxDeviceDriver.Lib.Custody
import LinuxDeviceDriver.Lib.Transition
import Mathlib.Algebra.Group.Nat.Defs

set_option autoImplicit false

namespace LinuxDeviceDriver.Drivers.ZeroCopy

open Lib.Custody
open Lib.Transition

/-! ## The driver -/

def enomem : Int := 12

def efault : Int := 14

def ebusy : Int := 16

def einval : Int := 22

def enotty : Int := 25

/-- ZC_MAX_PAGES. -/
def zcMaxPages : Nat := 16

def pageSize (pageShift : Nat) : Nat := 2 ^ pageShift

def pageAligned (pageShift : Nat) (x : BitVec 64) : Bool := x.toNat % pageSize pageShift == 0

structure ZcBuf where
  addr : BitVec 64
  len : BitVec 64
  deriving DecidableEq, Repr

/-- A pin on a page. One page may be pinned more than once, so each pin has a number of its own. -/
structure Pin where
  id : Nat
  page : Nat
  deriving DecidableEq, Repr

structure ZcCtx where
  /-- The array of pinned pages; none is NULL. -/
  pages : Option (List Pin) := none
  npages : Nat := 0
  deriving DecidableEq, Repr

/-- A file of the driver and the memory. The lists are what was done so far, in order: the pins
taken, the pins given back with the dirty argument of the call, the pins through which ZC_FILL has
written, and the sums stored for the user. -/
structure State where
  ctx : ZcCtx := {}
  mem : Nat → Nat → BitVec 32
  pinned : List Pin := []
  unpinned : List (Pin × Bool) := []
  filled : List Pin := []
  sums : List (BitVec 32) := []
  closed : Bool := false

/-- What pin_user_pages_fast() comes to: a negative errno, or the pages it got, which may be too
few. -/
inductive Pinned
  | error (errno : Nat)
  | got (pages : List Nat)
  deriving DecidableEq, Repr

namespace Pinned

/-- The pages of the array that are pinned; the call never pins more than it was asked for. -/
def pages (npages : Nat) : Pinned → List Nat
  | error _ => []
  | got pages => pages.take npages

/-- The value that the call returns. -/
def ret (npages : Nat) : Pinned → Int
  | error errno => Int.negSucc errno
  | got pages => (pages.take npages).length

end Pinned

/-- The next pins, one on each of the pages. -/
def newPins (first : Nat) : List Nat → List Pin
  | [] => []
  | page :: pages => { id := first, page := page } :: newPins (first + 1) pages

/-- unpin_user_pages(), and unpin_user_pages_dirty_lock() with its argument make_dirty. -/
def unpinUserPages (s : State) (pages : List Pin) (npages : Nat) (makeDirty : Bool) : State :=
  { s with unpinned := s.unpinned ++ (pages.take npages).map (·, makeDirty) }

def zcUnpin (s : State) : State :=
  match s.ctx.pages with
  | none => s
  | some pages =>
    { unpinUserPages s pages s.ctx.npages true with ctx := { pages := none, npages := 0 } }

/-- The checks of ZC_PIN on the buffer. -/
def badBuf (pageShift : Nat) (buf : ZcBuf) : Bool :=
  !pageAligned pageShift buf.addr || !pageAligned pageShift buf.len || buf.len == 0 ||
    decide (zcMaxPages * pageSize pageShift < buf.len.toNat)

/-- From the call of pin_user_pages_fast() on. -/
def pinPages (s : State) (npages : Nat) (res : Pinned) : State × Int :=
  let pages := newPins s.pinned.length (res.pages npages)
  let taken := { s with pinned := s.pinned ++ pages }
  let pinned := res.ret npages
  if pinned ≠ npages then
    (if 0 < pinned then unpinUserPages taken pages pinned.toNat false else taken,
      if pinned < 0 then pinned else -efault)
  else
    ({ taken with ctx := { pages := some pages, npages := npages } }, 0)

/-- ZC_PIN. The buffer is none when it cannot be copied from the user; the array of pages may not
be had. -/
def zcPin (pageShift : Nat) (s : State) (buf : Option ZcBuf) (array : Bool) (res : Pinned) :
    State × Int :=
  match buf with
  | none => (s, -efault)
  | some buf =>
    if badBuf pageShift buf = true then (s, -einval)
    else if s.ctx.pages.isSome = true then (s, -ebusy)
    else if array = false then (s, -enomem)
    else pinPages s (buf.len.toNat >>> pageShift) res

/-- One turn of the loop of ZC_FILL. -/
def fillPage (pageShift : Nat) (val : BitVec 32) (s : State) (p : Pin) : State :=
  { s with
    mem := fun page word =>
      if page = p.page ∧ word < pageSize pageShift / 4 then val else s.mem page word
    filled := s.filled ++ [p] }

/-- ZC_FILL. The value is none when it cannot be read from the user. -/
def zcFill (pageShift : Nat) (s : State) (val : Option (BitVec 32)) : State × Int :=
  match val with
  | none => (s, -efault)
  | some val =>
    match s.ctx.pages with
    | none => (s, -einval)
    | some pages => ((pages.take s.ctx.npages).foldl (fillPage pageShift val) s, 0)

/-- The loop of ZC_SUM. -/
def sumPages (s : State) (pages : List Pin) : BitVec 32 :=
  pages.foldl (fun sum p => sum + s.mem p.page 0) 0

/-- ZC_SUM. The last argument says whether put_user() can store the sum. -/
def zcSum (s : State) (stored : Bool) : State × Int :=
  match s.ctx.pages with
  | none => (s, -einval)
  | some pages =>
    if stored = true then
      ({ s with sums := s.sums ++ [sumPages s (pages.take s.ctx.npages)] }, 0)
    else (s, -efault)

/-- An ioctl, with what the kernel's calls come to in it. -/
inductive Ioctl
  | pin (buf : Option ZcBuf) (array : Bool) (res : Pinned)
  | fill (val : Option (BitVec 32))
  | sum (stored : Bool)
  | unpin
  | unknown
  deriving DecidableEq, Repr

/-- The mutex is held throughout, so each ioctl is one step. -/
def zcIoctl (pageShift : Nat) (s : State) : Ioctl → State × Int
  | .pin buf array res => zcPin pageShift s buf array res
  | .fill val => zcFill pageShift s val
  | .sum stored => zcSum s stored
  | .unpin => (zcUnpin s, 0)
  | .unknown => (s, -enotty)

/-- The file after a successful open: the context is zeroed. -/
def zcOpen (mem : Nat → Nat → BitVec 32) : State := { mem := mem }

def zcRelease (s : State) : State := { zcUnpin s with closed := true }

/-- The process may also write to its memory, pinned or not. -/
inductive Event
  | ioctl (c : Ioctl)
  | user (mem : Nat → Nat → BitVec 32)
  | close

def next (pageShift : Nat) (s : State) (e : Event) : Option State :=
  if s.closed = true then none
  else
    match e with
    | .ioctl c => some (zcIoctl pageShift s c).1
    | .user mem => some { s with mem := mem }
    | .close => some (zcRelease s)

/-! ## The pins of a file -/

/-- The pins that the context points to. -/
def State.recorded (s : State) : List Pin := s.ctx.pages.getD []

/-- The pin was taken and not given back. -/
def Holds (s : State) (p : Pin) : Prop := p ∈ s.pinned ∧ p ∉ s.unpinned.map Prod.fst

/-- The context points to the pins that the file holds, and those written through are given back
dirty. -/
structure Inv (s : State) : Prop where
  balanced : Balanced s.pinned (s.unpinned.map Prod.fst) s.recorded
  numbered : ∀ p ∈ s.pinned, p.id < s.pinned.length
  counted : s.recorded.length = s.ctx.npages
  sized : ∀ pages, s.ctx.pages = some pages → 1 ≤ s.ctx.npages ∧ s.ctx.npages ≤ zcMaxPages
  filled : ∀ p ∈ s.filled, p ∈ s.pinned
  dirty : ∀ u ∈ s.unpinned, u.1 ∈ s.filled → u.2 = true
  closed : s.closed = true → s.ctx.pages = none

theorem zcOpen_inv (mem : Nat → Nat → BitVec 32) : Inv (zcOpen mem) where
  balanced := .empty
  numbered _ hp := absurd hp List.not_mem_nil
  counted := rfl
  sized _ h := nomatch h
  filled _ hp := absurd hp List.not_mem_nil
  dirty _ hu := absurd hu List.not_mem_nil
  closed _ := rfl

/-! ## Taking and giving back -/

@[simp] theorem newPins_length (first : Nat) (pages : List Nat) :
    (newPins first pages).length = pages.length := by
  induction pages generalizing first with
  | nil => rfl
  | cons page pages ih => exact congrArg (· + 1) (ih (first + 1))

theorem newPins_id {first : Nat} {pages : List Nat} {p : Pin} (hp : p ∈ newPins first pages) :
    first ≤ p.id ∧ p.id < first + pages.length := by
  induction pages generalizing first with
  | nil => exact absurd hp List.not_mem_nil
  | cons page pages ih =>
    rw [List.length_cons]
    rcases List.mem_cons.mp hp with rfl | hp
    · dsimp only
      omega
    · have := ih hp
      omega

theorem newPins_nodup (first : Nat) (pages : List Nat) : (newPins first pages).Nodup := by
  induction pages generalizing first with
  | nil => exact .nil
  | cons page pages ih =>
    refine List.nodup_cons.mpr ⟨fun hmem => ?_, ih (first + 1)⟩
    have := (newPins_id hmem).1
    dsimp only at this
    omega

variable {s : State} {pageShift npages : Nat}

theorem map_fst_append (given : List (Pin × Bool)) (pages : List Pin) (makeDirty : Bool) :
    (given ++ pages.map (·, makeDirty)).map Prod.fst = given.map Prod.fst ++ pages := by
  rw [List.map_append, List.map_map]
  exact congrArg _ (List.map_id _)

theorem Inv.take_npages (h : Inv s) {pages : List Pin} (hpages : s.ctx.pages = some pages) :
    s.recorded = pages ∧ pages.take s.ctx.npages = pages := by
  have hrec : s.recorded = pages := congrArg (Option.getD · []) hpages
  refine ⟨hrec, List.take_of_length_le (Nat.le_of_eq ?_)⟩
  rw [← hrec]
  exact h.counted

/-- What zc_unpin() comes to: all the pins are given back dirty. -/
theorem zcUnpin_eq (h : Inv s) :
    zcUnpin s = { s with
      ctx := {}, unpinned := s.unpinned ++ s.recorded.map (·, true) } := by
  unfold zcUnpin
  split
  · next hnone =>
    have hrec : s.recorded = [] := congrArg (Option.getD · []) hnone
    have hcount : s.ctx.npages = 0 := h.counted.symm.trans (congrArg List.length hrec)
    have hctx : s.ctx = {} := by
      cases hc : s.ctx
      rw [hc] at hnone hcount
      exact ZcCtx.mk.injEq .. ▸ ⟨hnone, hcount⟩
    rw [hrec, List.map_nil, List.append_nil, ← hctx]
  · next pages hpages =>
    obtain ⟨hrec, htake⟩ := h.take_npages hpages
    rw [unpinUserPages, htake, hrec]

theorem zcUnpin_inv (h : Inv s) : Inv (zcUnpin s) := by
  rw [zcUnpin_eq h]
  refine ⟨?_, h.numbered, rfl, fun pages hp => (nomatch hp), h.filled, ?_, fun _ => rfl⟩
  · show Balanced s.pinned ((s.unpinned ++ s.recorded.map (·, true)).map Prod.fst) []
    rw [map_fst_append]
    exact Balanced.release h.balanced
  · intro u hu hfilled
    rcases List.mem_append.mp hu with hu | hu
    · exact h.dirty u hu hfilled
    · obtain ⟨p, -, rfl⟩ := List.mem_map.mp hu
      rfl

/-- A buffer that passes the checks has one page at least, and no more than the driver pins. -/
theorem npages_of_good {buf : ZcBuf} (h : ¬badBuf pageShift buf = true) :
    1 ≤ buf.len.toNat >>> pageShift ∧ buf.len.toNat >>> pageShift ≤ zcMaxPages := by
  simp only [badBuf, Bool.or_eq_true, not_or, Bool.not_eq_true', Bool.not_eq_false, pageAligned,
    beq_iff_eq, pageSize] at h
  obtain ⟨⟨⟨-, hlen⟩, hzero⟩, hlarge⟩ := h
  have hmax : buf.len.toNat ≤ zcMaxPages * 2 ^ pageShift :=
    Nat.le_of_not_lt fun hlt => hlarge (decide_eq_true hlt)
  have hpos : 0 < buf.len.toNat := by
    refine Nat.pos_of_ne_zero fun h0 => hzero ?_
    exact BitVec.eq_of_toNat_eq h0
  have hsize : 0 < 2 ^ pageShift := Nat.two_pow_pos pageShift
  rw [Nat.shiftRight_eq_div_pow]
  constructor
  · exact Nat.div_pos (Nat.le_of_dvd hpos (Nat.dvd_of_mod_eq_zero hlen)) hsize
  · refine Nat.div_le_of_le_mul ?_
    rw [Nat.mul_comm]
    exact hmax

/-- What pinning the pages comes to: all of them are recorded, or those that were had are given
back at once and the call fails. -/
theorem pinPages_cases (s : State) (npages : Nat) (res : Pinned) :
    ((res.pages npages).length = npages ∧
      pinPages s npages res =
        ({ s with
            pinned := s.pinned ++ newPins s.pinned.length (res.pages npages)
            ctx := { pages := some (newPins s.pinned.length (res.pages npages)),
                     npages := npages } }, 0)) ∨
    ∃ err < 0, pinPages s npages res =
      ({ s with
          pinned := s.pinned ++ newPins s.pinned.length (res.pages npages)
          unpinned := s.unpinned ++
            (newPins s.pinned.length (res.pages npages)).map (·, false) }, err) := by
  cases res with
  | error errno =>
    refine .inr ⟨Int.negSucc errno, Int.negSucc_lt_zero errno, ?_⟩
    have hne : Int.negSucc errno ≠ npages := by omega
    have hnone : ¬0 < Int.negSucc errno := by omega
    unfold pinPages
    dsimp only [Pinned.ret, Pinned.pages, newPins]
    rw [if_pos hne, if_neg hnone, if_pos (Int.negSucc_lt_zero errno), List.map_nil,
      List.append_nil, List.append_nil]
  | got pages =>
    by_cases hall : (pages.take npages).length = npages
    · refine .inl ⟨hall, ?_⟩
      have heq : ¬((pages.take npages).length : Int) ≠ npages := by omega
      unfold pinPages
      dsimp only [Pinned.ret, Pinned.pages]
      rw [if_neg heq]
    · refine .inr ⟨-efault, by decide, ?_⟩
      have hne : ((pages.take npages).length : Int) ≠ npages := by omega
      have hnn : ¬((pages.take npages).length : Int) < 0 := by omega
      have hwhole : (newPins s.pinned.length (pages.take npages)).take (pages.take npages).length =
          newPins s.pinned.length (pages.take npages) :=
        List.take_of_length_le (Nat.le_of_eq (newPins_length _ _))
      unfold pinPages
      dsimp only [Pinned.ret, Pinned.pages]
      rw [if_pos hne, if_neg hnn, Int.toNat_natCast]
      split
      · rw [unpinUserPages, hwhole]
      · next hzero =>
        have hnil : pages.take npages = [] := List.length_eq_zero_iff.mp (by omega)
        rw [hnil, newPins, List.map_nil, List.append_nil, List.append_nil]

theorem Inv.fresh (h : Inv s) (pages : List Nat) :
    ∀ p ∈ newPins s.pinned.length pages, p ∉ s.pinned := by
  intro p hp hold
  have hlt := h.numbered p hold
  have hge := (newPins_id hp).1
  omega

theorem Inv.numbered_append (h : Inv s) (pages : List Nat) :
    ∀ p ∈ s.pinned ++ newPins s.pinned.length pages,
      p.id < (s.pinned ++ newPins s.pinned.length pages).length := by
  intro p hp
  rw [List.length_append, newPins_length]
  rcases List.mem_append.mp hp with hold | hnew
  · exact Nat.lt_add_right _ (h.numbered p hold)
  · exact (newPins_id hnew).2

theorem pinPages_inv (h : Inv s) (hnone : s.ctx.pages = none) (hopen : s.closed = false)
    (hsize : 1 ≤ npages ∧ npages ≤ zcMaxPages) (res : Pinned) :
    Inv (pinPages s npages res).1 := by
  have hrec : s.recorded = [] := congrArg (Option.getD · []) hnone
  have htake := h.balanced.take (newPins_nodup s.pinned.length (res.pages npages))
    (h.fresh (res.pages npages))
  have hfilled : ∀ p ∈ s.filled, p ∈ s.pinned ++ newPins s.pinned.length (res.pages npages) :=
    fun p hp => List.mem_append_left _ (h.filled p hp)
  rw [hrec, List.nil_append] at htake
  obtain ⟨hlen, heq⟩ | ⟨err, -, heq⟩ := pinPages_cases s npages res
  · rw [heq]
    exact ⟨htake, h.numbered_append _, (newPins_length _ _).trans hlen, fun _ _ => hsize, hfilled,
      h.dirty, fun hc => absurd (hopen.symm.trans hc) Bool.false_ne_true⟩
  · rw [heq]
    refine ⟨?_, h.numbered_append _, h.counted, h.sized, hfilled, ?_, h.closed⟩
    · show Balanced _ ((s.unpinned ++ _).map Prod.fst) s.recorded
      have hheld : Balanced _ _ ([] ++ newPins s.pinned.length (res.pages npages)) := htake
      rw [hrec, map_fst_append]
      exact hheld.release
    · -- The pins given back here are new: nothing was written through them.
      intro u hu hwritten
      rcases List.mem_append.mp hu with hu | hu
      · exact h.dirty u hu hwritten
      · obtain ⟨p, hp, rfl⟩ := List.mem_map.mp hu
        exact absurd (h.filled p hwritten) (h.fresh _ p hp)

/-! ## The ioctls -/

/-- A ZC_PIN fails before it pins anything, or the pages are pinned for a file that has none. -/
theorem zcPin_cases (pageShift : Nat) (s : State) (buf : Option ZcBuf) (array : Bool)
    (res : Pinned) :
    (∃ err < 0, zcPin pageShift s buf array res = (s, err)) ∨
    ∃ npages, (1 ≤ npages ∧ npages ≤ zcMaxPages) ∧ s.ctx.pages = none ∧
      zcPin pageShift s buf array res = pinPages s npages res := by
  unfold zcPin
  split
  · exact .inl ⟨-efault, by decide, rfl⟩
  · next buf =>
    split
    · exact .inl ⟨-einval, by decide, rfl⟩
    · next hgood =>
      split
      · exact .inl ⟨-ebusy, by decide, rfl⟩
      · next hnone =>
        split
        · exact .inl ⟨-enomem, by decide, rfl⟩
        · exact .inr ⟨_, npages_of_good hgood, Option.not_isSome_iff_eq_none.mp hnone, rfl⟩

theorem foldl_fillPage (val : BitVec 32) (s : State) (pages : List Pin) :
    pages.foldl (fillPage pageShift val) s =
      { s with
        mem := fun page word =>
          if page ∈ pages.map Pin.page ∧ word < pageSize pageShift / 4 then val
          else s.mem page word
        filled := s.filled ++ pages } := by
  induction pages generalizing s with
  | nil => simp
  | cons p pages ih =>
    rw [List.foldl_cons, ih]
    simp only [fillPage, List.map_cons, List.mem_cons, List.append_assoc, List.cons_append,
      List.nil_append, State.mk.injEq, true_and, and_true]
    funext page word
    by_cases hword : word < pageSize pageShift / 4
    · by_cases hrest : page ∈ pages.map Pin.page
      · simp only [hrest, hword, and_self, or_true, if_true]
      · simp only [hrest, hword, and_true, or_false, if_false]
    · simp only [hword, and_false, if_false]

/-- A ZC_FILL fails and does nothing, or it writes through every pin that the file holds. -/
theorem zcFill_cases (pageShift : Nat) (h : Inv s) (val : Option (BitVec 32)) :
    (∃ err < 0, zcFill pageShift s val = (s, err)) ∨
    ∃ v, zcFill pageShift s val = (s.recorded.foldl (fillPage pageShift v) s, 0) := by
  unfold zcFill
  split
  · exact .inl ⟨-efault, by decide, rfl⟩
  · next v =>
    split
    · exact .inl ⟨-einval, by decide, rfl⟩
    · next pages hpages =>
      obtain ⟨hrec, htake⟩ := h.take_npages hpages
      refine .inr ⟨v, ?_⟩
      rw [htake, hrec]

theorem zcFill_inv (h : Inv s) (val : Option (BitVec 32)) : Inv (zcFill pageShift s val).1 := by
  obtain ⟨err, -, heq⟩ | ⟨v, heq⟩ := zcFill_cases pageShift h val
  · rw [heq]
    exact h
  · rw [heq]
    show Inv (s.recorded.foldl (fillPage pageShift v) s)
    rw [foldl_fillPage]
    refine ⟨h.balanced, h.numbered, h.counted, h.sized, ?_, ?_, h.closed⟩
    · intro p hp
      rcases List.mem_append.mp hp with hold | hnew
      · exact h.filled p hold
      · exact (h.balanced.mem_held_iff.mp hnew).1
    · -- A pin that is written through now is held, so it has not been given back.
      intro u hu hwritten
      rcases List.mem_append.mp hwritten with hold | hnew
      · exact h.dirty u hu hold
      · exact absurd (List.mem_map_of_mem hu) (h.balanced.mem_held_iff.mp hnew).2

theorem zcSum_cases (s : State) (stored : Bool) :
    (∃ err < 0, zcSum s stored = (s, err)) ∨
    ∃ sums, zcSum s stored = ({ s with sums := sums }, 0) := by
  unfold zcSum
  split
  · exact .inl ⟨-einval, by decide, rfl⟩
  · split
    · exact .inr ⟨_, rfl⟩
    · exact .inl ⟨-efault, by decide, rfl⟩

theorem zcIoctl_inv (h : Inv s) (hopen : s.closed = false) (c : Ioctl) :
    Inv (zcIoctl pageShift s c).1 := by
  cases c with
  | pin buf array res =>
    show Inv (zcPin pageShift s buf array res).1
    obtain ⟨err, -, heq⟩ | ⟨npages, hsize, hnone, heq⟩ :=
      zcPin_cases pageShift s buf array res
    · rw [heq]
      exact h
    · rw [heq]
      exact pinPages_inv h hnone hopen hsize res
  | fill val => exact zcFill_inv h val
  | sum stored =>
    show Inv (zcSum s stored).1
    obtain ⟨err, -, heq⟩ | ⟨sums, heq⟩ := zcSum_cases s stored
    · rw [heq]
      exact h
    · rw [heq]
      exact ⟨h.balanced, h.numbered, h.counted, h.sized, h.filled, h.dirty, h.closed⟩
  | unpin => exact zcUnpin_inv h
  | unknown => exact h

theorem next_inv {e : Event} {t : State} (h : Inv s) (hnext : next pageShift s e = some t) :
    Inv t := by
  unfold next at hnext
  split at hnext
  · cases hnext
  · next hopen =>
    cases e with
    | ioctl c =>
      obtain rfl := Option.some.inj hnext
      exact zcIoctl_inv h (Bool.not_eq_true _ ▸ hopen) c
    | user mem =>
      obtain rfl := Option.some.inj hnext
      exact ⟨h.balanced, h.numbered, h.counted, h.sized, h.filled, h.dirty, h.closed⟩
    | close =>
      obtain rfl := Option.some.inj hnext
      have hu := zcUnpin_inv h
      refine ⟨hu.balanced, hu.numbered, hu.counted, hu.sized, hu.filled, hu.dirty, fun _ => ?_⟩
      show (zcUnpin s).ctx.pages = none
      rw [zcUnpin_eq h]

/-- The file holds the pins that its context points to. -/
theorem Inv.holds_iff (h : Inv s) (p : Pin) : Holds s p ↔ p ∈ s.recorded :=
  h.balanced.mem_held_iff.symm

theorem failed_ctx (h : Inv s) {c : Ioctl} (hfail : (zcIoctl pageShift s c).2 < 0) :
    (zcIoctl pageShift s c).1.ctx = s.ctx := by
  cases c with
  | pin buf array res =>
    change (zcPin pageShift s buf array res).2 < 0 at hfail
    show (zcPin pageShift s buf array res).1.ctx = s.ctx
    obtain ⟨err, -, heq⟩ | ⟨npages, -, -, heq⟩ := zcPin_cases pageShift s buf array res
    · rw [heq]
    · rw [heq] at hfail ⊢
      obtain ⟨-, heq⟩ | ⟨err, -, heq⟩ := pinPages_cases s npages res
      · rw [heq] at hfail
        exact absurd hfail (Int.lt_irrefl 0)
      · rw [heq]
  | fill val =>
    change (zcFill pageShift s val).2 < 0 at hfail
    show (zcFill pageShift s val).1.ctx = s.ctx
    obtain ⟨err, -, heq⟩ | ⟨v, heq⟩ := zcFill_cases pageShift h val
    · rw [heq]
    · rw [heq] at hfail
      exact absurd hfail (Int.lt_irrefl 0)
  | sum stored =>
    show (zcSum s stored).1.ctx = s.ctx
    obtain ⟨err, -, heq⟩ | ⟨sums, heq⟩ := zcSum_cases s stored
    · rw [heq]
    · rw [heq]
  | unpin => exact absurd hfail (Int.lt_irrefl 0)
  | unknown => rfl

/-! ## Whole runs -/

/-- The pins of a file, at every point of its life: those it holds are the npages pages that its
context points to; none is given back twice, and when the file is closed each has been given back;
a failing ioctl leaves them as they were; and those that ZC_FILL has written through are marked
dirty when they are given back. -/
theorem pins_given_back_once (mem : Nat → Nat → BitVec 32) {es : List Event}
    (h : Steps (fun s e t => next pageShift s e = some t) (zcOpen mem) es s) :
    (match s.ctx.pages with
      | none => ∀ p, ¬Holds s p
      | some pages => pages.Nodup ∧ pages.length = s.ctx.npages ∧
          (1 ≤ s.ctx.npages ∧ s.ctx.npages ≤ 16) ∧ ∀ p, Holds s p ↔ p ∈ pages) ∧
      s.pinned.Nodup ∧ (s.unpinned.map Prod.fst).Nodup ∧
      (∀ u ∈ s.unpinned, u.1 ∈ s.pinned) ∧
      (s.closed = true → (s.unpinned.map Prod.fst).Perm s.pinned) ∧
      (∀ c t, next pageShift s (.ioctl c) = some t → (zcIoctl pageShift s c).2 < 0 →
        t.ctx = s.ctx ∧ ∀ p, Holds t p ↔ Holds s p) ∧
      ∀ u ∈ s.unpinned, u.1 ∈ s.filled → u.2 = true := by
  have hstep : ∀ s e t, Inv s → next pageShift s e = some t → Inv t :=
    fun _ _ _ hs hnext => next_inv hs hnext
  have hinv : Inv s := h.invariant hstep (zcOpen_inv mem)
  obtain ⟨hgiven, hheld, -⟩ := List.nodup_append.mp hinv.balanced.nodup
  refine ⟨?_, hinv.balanced.new, hgiven, ?_, ?_, ?_, hinv.dirty⟩
  · split
    · next hnone =>
      intro p hp
      have hrec : s.recorded = [] := congrArg (Option.getD · []) hnone
      have hmem := (hinv.holds_iff p).mp hp
      rw [hrec] at hmem
      exact absurd hmem List.not_mem_nil
    · next pages hpages =>
      have hrec : s.recorded = pages := congrArg (Option.getD · []) hpages
      rw [← hrec]
      exact ⟨hheld, hinv.counted, hinv.sized pages hpages, hinv.holds_iff⟩
  · intro u hu
    exact hinv.balanced.whole.mem_iff.mp (List.mem_append_left _ (List.mem_map_of_mem hu))
  · intro hclosed
    have hrec : s.recorded = [] := congrArg (Option.getD · []) (hinv.closed hclosed)
    have hwhole := hinv.balanced.whole
    rw [hrec, List.append_nil] at hwhole
    exact hwhole
  · intro c t hnext hfail
    have htinv : Inv t := next_inv hinv hnext
    have ht : t = (zcIoctl pageShift s c).1 := by
      unfold next at hnext
      split at hnext
      · cases hnext
      · exact (Option.some.inj hnext).symm
    have hctx : t.ctx = s.ctx := by
      rw [ht]
      exact failed_ctx hinv hfail
    refine ⟨hctx, fun p => ?_⟩
    rw [htinv.holds_iff, hinv.holds_iff, State.recorded, hctx, State.recorded]

/-- A buffer of three pages, two of which are one page mapped twice. The first ZC_PIN gets only one
of them; the second gets all, and a third finds the file busy. The file is closed with its pages
filled. -/
def shortPinThenFill : List Event :=
  [.ioctl (.pin (some ⟨0x10000, 0x3000⟩) true (.got [7])),
    .ioctl (.pin (some ⟨0x10000, 0x3000⟩) true (.got [7, 9, 7])),
    .ioctl (.pin (some ⟨0x20000, 0x1000⟩) true (.got [5])), .ioctl (.fill (some 42)),
    .ioctl (.sum true), .close]

theorem short_pin_given_back :
    ∃ s, Steps (fun s e t => next 12 s e = some t) (zcOpen fun _ _ => 0) shortPinThenFill s ∧
      s.sums = [126] ∧ s.unpinned.map Prod.snd = [false, true, true, true] ∧
      (s.unpinned.map Prod.fst).Perm s.pinned := by
  have hexec : (exec (next 12) (zcOpen fun _ _ => 0) shortPinThenFill).map
      (fun s => (s.sums, s.unpinned.map Prod.snd, s.closed)) =
        some ([126], [false, true, true, true], true) := by
    decide
  obtain ⟨s, hs, heq⟩ := Option.map_eq_some_iff.mp hexec
  have hrun := exec_steps hs
  obtain ⟨hsums, hrest⟩ := Prod.mk.inj heq
  obtain ⟨hdirty, hclosed⟩ := Prod.mk.inj hrest
  exact ⟨s, hrun, hsums, hdirty, (pins_given_back_once _ hrun).2.2.2.2.1 hclosed⟩

end LinuxDeviceDriver.Drivers.ZeroCopy
