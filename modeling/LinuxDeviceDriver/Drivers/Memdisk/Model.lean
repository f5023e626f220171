/- source: examples/29_block_device/main.c, lines 40 to 166; main.h
   digest: The RAM disk and its three ways to serve a request: by segment, by bio, and bio by
     bio as they are submitted. -/

import LinuxDeviceDriver.Lib.Extents
import LinuxDeviceDriver.Lib.LittleEndian

set_option autoImplicit false

namespace LinuxDeviceDriver.Drivers.Memdisk.Model

open Lib.Extents
open Lib.LittleEndian (Byte)
open Lib.ScatterGather

/-! ## Data -/

/-- A byte of memory: a page and an offset in it. -/
abbrev Loc := Nat × Nat

/-- struct bio_vec. -/
structure BioVec where
  page : Nat
  bvOffset : Nat
  bvLen : BitVec 32

def BioVec.len (bvec : BioVec) : Nat := bvec.bvLen.toNat

def BioVec.locs (bvec : BioVec) : List Loc :=
  (extent bvec.bvOffset bvec.len).map (Prod.mk bvec.page)

/-- enum req_op; other stands for flush, discard and the rest. -/
inductive ReqOp
  | read | write | other
  deriving DecidableEq, Repr

/-- The parts of struct bio in use: bi_iter.bi_sector, the operation and the segments that
bio_for_each_segment finds. -/
structure Bio where
  biSector : BitVec 64
  op : ReqOp
  segs : List BioVec

/-- struct request: blk_rq_pos, req_op and the list of bios. -/
structure Request where
  pos : BitVec 64
  op : ReqOp
  bios : List Bio

def Request.segs (rq : Request) : List BioVec := rq.bios.flatMap Bio.segs

inductive BlkStatus
  | ok | ioerr | notsupp
  deriving DecidableEq, Repr

/-- struct memdisk. -/
structure Memdisk where
  size : BitVec 64
  data : Nat → Byte

/-- The disk, and the memory that segments are in. -/
structure State where
  dev : Memdisk
  mem : Loc → Byte

def sectorShift : Nat := 9

/-! ## The driver -/

/-- memcpy_from_bvec(dev->data + offset, bvec). -/
def memcpyFromBvec (s : State) (offset : Nat) (bvec : BioVec) : State :=
  { s with dev := { s.dev with
    data := store s.dev.data (extent offset bvec.len) (bvec.locs.map s.mem) } }

/-- memcpy_to_bvec(bvec, dev->data + offset). -/
def memcpyToBvec (s : State) (offset : Nat) (bvec : BioVec) : State :=
  { s with mem := store s.mem bvec.locs ((extent offset bvec.len).map s.dev.data) }

def memdiskTransfer (s : State) (sector : BitVec 64) (bvec : BioVec) (write : Bool) :
    BlkStatus × State :=
  let offset := sector <<< sectorShift
  if s.dev.size < offset + bvec.bvLen.setWidth 64 then (.ioerr, s)
  else if write = true then (.ok, memcpyFromBvec s offset.toNat bvec)
  else (.ok, memcpyToBvec s offset.toNat bvec)

/-- The variables of a walk over segments. -/
structure Walk where
  state : State
  sector : BitVec 64
  status : BlkStatus

/-- The loop over the segments of one bio, lines 63 to 68 and 99 to 104: it ends at the
first segment that fails. -/
def forEachSegment (write : Bool) : List BioVec → Walk → Walk
  | [], w => w
  | bvec :: segs, w =>
    match memdiskTransfer w.state w.sector bvec write with
    | (.ok, s) =>
      forEachSegment write segs ⟨s, w.sector + (bvec.bvLen >>> sectorShift).setWidth 64, .ok⟩
    | (status, s) => ⟨s, w.sector, status⟩

/-- Of a bio that reads or writes. -/
def bioDataDir (op : ReqOp) : Bool := op == .write

def memdiskXferBio (s : State) (bio : Bio) : BlkStatus × State :=
  let w := forEachSegment (bioDataDir bio.op) bio.segs ⟨s, bio.biSector, .ok⟩
  (w.status, w.state)

def memdiskRw (op : ReqOp) : Bool := op == .read || op == .write

/-- rq_for_each_segment is a loop over the bios with bio_for_each_segment as its body, so
the break of line 102 leaves the bio and not the request: the next bio is walked with
sector as it is. -/
def rqForEachSegment (write : Bool) (bios : List Bio) (w : Walk) : Walk :=
  bios.foldl (fun w bio => forEachSegment write bio.segs w) w

/-- The status that blk_mq_end_request is called with. -/
def memdiskQueueRqSimple (s : State) (rq : Request) : BlkStatus × State :=
  if memdiskRw rq.op = true then
    let w := rqForEachSegment (bioDataDir rq.op) rq.bios ⟨s, rq.pos, .notsupp⟩
    (w.status, w.state)
  else (.notsupp, s)

/-- The loop over the bios of a request, lines 133 to 137. -/
def rqForEachBio : List Bio → BlkStatus × State → BlkStatus × State
  | [], r => r
  | bio :: bios, r =>
    match memdiskXferBio r.2 bio with
    | (.ok, s) => rqForEachBio bios (.ok, s)
    | (status, s) => (status, s)

def memdiskQueueRqFull (s : State) (rq : Request) : BlkStatus × State :=
  if memdiskRw rq.op = true then rqForEachBio rq.bios (.notsupp, s) else (.notsupp, s)

/-- The status of the bio when it ends. -/
def memdiskSubmitBio (s : State) (bio : Bio) : BlkStatus × State :=
  if memdiskRw bio.op = true then memdiskXferBio s bio else (.notsupp, s)

/-- Bios submitted one by one, and how each ended. -/
def submitBios : State → List Bio → List BlkStatus × State
  | s, [] => ([], s)
  | s, bio :: bios =>
    let r := memdiskSubmitBio s bio
    let rs := submitBios r.2 bios
    (r.1 :: rs.1, rs.2)

/-- request_mode. -/
inductive RequestMode
  | simple | full | noqueue
  deriving DecidableEq, Repr

/-- Whether the request, or one of its bios, ends in error; and the state after it. -/
def serve (s : State) (rq : Request) : RequestMode → Bool × State
  | .simple => let r := memdiskQueueRqSimple s rq; (r.1 != .ok, r.2)
  | .full => let r := memdiskQueueRqFull s rq; (r.1 != .ok, r.2)
  | .noqueue => let r := submitBios s rq.bios; (r.1.any (· != .ok), r.2)

/-! ## What the block layer guarantees -/

/-- Each bio begins at the sector where the one before it ends. -/
def Consecutive : Nat → List Bio → Prop
  | _, [] => True
  | sector, bio :: bios =>
    bio.biSector.toNat = sector ∧ Consecutive (sector + total BioVec.len bio.segs / 512) bios

instance decidableConsecutive : (sector : Nat) → (bios : List Bio) → Decidable (Consecutive sector bios)
  | _, [] => .isTrue trivial
  | sector, bio :: bios =>
    have := decidableConsecutive (sector + total BioVec.len bio.segs / 512) bios
    inferInstanceAs (Decidable (_ ∧ _))

/-- A request to read or write, made of bios in one direction that cover consecutive
sectors, in segments of whole sectors, with byte offsets that fit 64 bits. -/
structure RwRequest extends Request where
  rw : memdiskRw op = true
  dir : ∀ bio ∈ bios, bio.op = op
  lens : ∀ bio ∈ bios, ∀ bvec ∈ bio.segs, bvec.len % 512 = 0
  follow : Consecutive pos.toNat bios
  range : 512 * pos.toNat + total BioVec.len (bios.flatMap Bio.segs) < 2 ^ 64

end LinuxDeviceDriver.Drivers.Memdisk.Model
