/- source: examples/29_block_device/main.c, lines 15 to 53 and 177 to 290; main.h
   digest: Loading and unloading memdisk: what m_init accepts, what it holds when it fails, and
     that the bound of a transfer is the size it was asked for where no product or sum wraps. -/

import LinuxDeviceDriver.Drivers.Memdisk.Modes

set_option autoImplicit false

namespace LinuxDeviceDriver.Drivers.Memdisk.Setup

open Lib.Extents (fits)
open Lib.LittleEndian (Byte)
open Model Modes

/-! ## Data -/

/-- The module parameters, with their defaults. -/
structure ModuleParams where
  nsectors : BitVec 64 := 32768
  hardsectSize : BitVec 32 := 512
  requestMode : Int := 0
  deriving DecidableEq, Repr

def rmSimple : Int := 0
def rmFull : Int := 1
def rmNoqueue : Int := 2

def sectorSize : Int := 512
def memdiskMinors : Nat := 16
def einval : Int := 22
def enomem : Int := 12

/-- What the kernel answers while the module is loaded. An error is a negative number, and so is
that of a call that returns a pointer; register_blkdev returns the major. -/
structure Kernel where
  pageSize : BitVec 64 := 4096
  kzalloc : Bool := true
  vzalloc : BitVec 64 → Bool := fun _ => true
  registerBlkdev : Int := 240
  allocTagSet : Int := 0
  allocDisk : Int := 0
  addDisk : Int := 0

/-- What is to be given back. -/
inductive Resource
  | memdisk | data | major | tagSet | disk
  deriving DecidableEq, Repr

/-- struct gendisk; mode stands for its operations and those of its tag set. -/
structure Gendisk where
  major : Int
  firstMinor : Nat
  minors : Nat
  mode : RequestMode
  diskName : String
  logicalBlockSize : BitVec 32
  capacity : BitVec 64
  deriving DecidableEq, Repr

/-- The module when it has been loaded. -/
structure Loaded where
  dev : Memdisk
  major : Int
  gd : Gendisk

/-! ## The driver -/

def isPowerOf2 (n : BitVec 64) : Bool := n != 0 && n &&& (n - 1) == 0

/-- The parameters m_init refuses, lines 239 to 241. SECTOR_SIZE is an int, PAGE_SIZE an
unsigned long. -/
def refused (k : Kernel) (p : ModuleParams) : Bool :=
  !isPowerOf2 (p.hardsectSize.signExtend 64) || decide (p.hardsectSize.toInt < sectorSize) ||
    decide (k.pageSize < p.hardsectSize.signExtend 64) || p.nsectors == 0 ||
    decide (p.requestMode < rmSimple) || decide (rmNoqueue < p.requestMode)

/-- The functions that serve the requests, by request_mode. -/
def modeOf (p : ModuleParams) : RequestMode :=
  if p.requestMode = rmNoqueue then .noqueue
  else if p.requestMode = rmFull then .full
  else .simple

/-- The label err_tags of memdisk_create_disk, and the end of memdisk_destroy_disk. -/
def freeTagSet (p : ModuleParams) (held : List Resource) : List Resource :=
  if p.requestMode ≠ rmNoqueue then held.erase .tagSet else held

/-- What it is called with, it returns with, but for a disk and a tag set if it succeeds. -/
def memdiskCreateDisk (k : Kernel) (p : ModuleParams) (dev : Memdisk) (major : Int)
    (held : List Resource) : Except Int Gendisk × List Resource :=
  if p.requestMode ≠ rmNoqueue ∧ k.allocTagSet ≠ 0 then (.error k.allocTagSet, held)
  else
    let held := if p.requestMode ≠ rmNoqueue then .tagSet :: held else held
    if k.allocDisk ≠ 0 then (.error k.allocDisk, freeTagSet p held)
    else
      let held := .disk :: held
      let gd : Gendisk :=
        { major := major
          firstMinor := 0
          minors := memdiskMinors
          mode := modeOf p
          diskName := "memdisk"
          logicalBlockSize := p.hardsectSize
          capacity := dev.size >>> sectorShift }
      if k.addDisk ≠ 0 then (.error k.addDisk, freeTagSet p (held.erase .disk))
      else (.ok gd, held)

def memdiskDestroyDisk (p : ModuleParams) (held : List Resource) : List Resource :=
  freeTagSet p (held.erase .disk)

/-- The module, or the error, and what is then held. -/
def mInit (k : Kernel) (p : ModuleParams) : Except Int Loaded × List Resource :=
  if refused k p = true then (.error (-einval), [])
  else if k.kzalloc = false then (.error (-enomem), [])
  else
    let held := [.memdisk]
    let size := p.nsectors * p.hardsectSize.signExtend 64
    if k.vzalloc size = false then (.error (-enomem), held.erase .memdisk)
    else
      let held := .data :: held
      let dev : Memdisk := ⟨size, fun _ => 0⟩
      if k.registerBlkdev < 0 then
        (.error k.registerBlkdev, (held.erase .data).erase .memdisk)
      else
        let held := .major :: held
        match memdiskCreateDisk k p dev k.registerBlkdev held with
        | (.error err, held) => (.error err, ((held.erase .major).erase .data).erase .memdisk)
        | (.ok gd, held) => (.ok ⟨dev, k.registerBlkdev, gd⟩, held)

def mExit (p : ModuleParams) (held : List Resource) : List Resource :=
  (((memdiskDestroyDisk p held).erase .major).erase .data).erase .memdisk

/-! ## What is held -/

/-- The disk that a successful memdisk_create_disk makes, and what it leaves held; a failed one
leaves what was held. -/
theorem memdiskCreateDisk_spec (k : Kernel) (p : ModuleParams) (dev : Memdisk) (major : Int)
    (held : List Resource) :
    (∃ err, memdiskCreateDisk k p dev major held = (.error err, held)) ∨
    ∃ gd held', memdiskCreateDisk k p dev major held = (.ok gd, held') ∧
      gd.capacity = dev.size >>> sectorShift ∧ memdiskDestroyDisk p held' = held := by
  unfold memdiskCreateDisk
  split
  · exact .inl ⟨_, rfl⟩
  -- the disk is put in front of the tag set and taken off before it
  have htags :
      freeTagSet p (if p.requestMode ≠ rmNoqueue then .tagSet :: held else held) = held := by
    unfold freeTagSet
    split
    · exact List.erase_cons_head ..
    · rfl
  have hdisk : ∀ l : List Resource, (.disk :: l).erase .disk = l :=
    fun l => List.erase_cons_head ..
  dsimp only
  split
  · exact .inl ⟨_, by rw [htags]⟩
  split
  · exact .inl ⟨_, by rw [hdisk, htags]⟩
  · refine .inr ⟨_, _, rfl, rfl, ?_⟩
    rw [memdiskDestroyDisk, hdisk, htags]

theorem mInit_spec (k : Kernel) (p : ModuleParams) :
    (∃ err, mInit k p = (.error err, [])) ∨
    ∃ loaded held, mInit k p = (.ok loaded, held) ∧ mExit p held = [] ∧ refused k p = false ∧
      loaded.dev.size = p.nsectors * p.hardsectSize.signExtend 64 ∧
      loaded.gd.capacity = loaded.dev.size >>> sectorShift := by
  unfold mInit
  split
  · exact .inl ⟨_, rfl⟩
  next hrefused =>
  split
  · exact .inl ⟨_, rfl⟩
  dsimp only
  split
  · exact .inl ⟨_, rfl⟩
  split
  · exact .inl ⟨_, rfl⟩
  have hcreate := memdiskCreateDisk_spec k p
    ⟨p.nsectors * p.hardsectSize.signExtend 64, fun _ => 0⟩ k.registerBlkdev
    [.major, .data, .memdisk]
  rcases hcreate with ⟨err, hfail⟩ | ⟨gd, held', hok, hcap, hdestroy⟩
  · rw [hfail]
    exact .inl ⟨_, rfl⟩
  · rw [hok]
    refine .inr ⟨_, held', rfl, ?_, by simpa using hrefused, rfl, hcap⟩
    rw [mExit, hdestroy]
    rfl

/-- Loading that fails gives everything back, and so does unloading. -/
theorem nothing_held (k : Kernel) (p : ModuleParams) :
    match mInit k p with
    | (.error _, held) => held = []
    | (.ok _, held) => mExit p held = [] := by
  rcases mInit_spec k p with ⟨err, h⟩ | ⟨loaded, held, h, hexit, -⟩
  · rw [h]
  · rw [h]
    exact hexit

/-! ## The bound of a transfer -/

section Bound

variable {k : Kernel} {p : ModuleParams}

/-- An accepted block size is positive, and the same in 64 bits. -/
theorem hardsectSize_toNat (h : refused k p = false) :
    (p.hardsectSize.signExtend 64).toNat = p.hardsectSize.toNat := by
  have hlow : sectorSize ≤ p.hardsectSize.toInt := by
    unfold refused at h
    simp only [Bool.or_eq_false_iff, decide_eq_false_iff_not] at h
    omega
  have hmsb : p.hardsectSize.msb = false := by
    rw [BitVec.msb_eq_false_iff_two_mul_lt]
    rw [BitVec.toInt_eq_toNat_cond] at hlow
    unfold sectorSize at hlow
    split at hlow
    · assumption
    · have hlt := p.hardsectSize.isLt
      omega
  have hlt := p.hardsectSize.isLt
  rw [BitVec.signExtend_eq_setWidth_of_msb_false hmsb, BitVec.toNat_setWidth,
    Nat.mod_eq_of_lt (by omega)]

/-- The size in bytes is the product, if that fits 64 bits. -/
theorem size_toNat {loaded : Loaded} (hinit : (mInit k p).1 = .ok loaded)
    (hsize : p.nsectors.toNat * p.hardsectSize.toNat < 2 ^ 64) :
    loaded.dev.size.toNat = p.nsectors.toNat * p.hardsectSize.toNat ∧
      loaded.gd.capacity.toNat = p.nsectors.toNat * p.hardsectSize.toNat / 512 := by
  rcases mInit_spec k p with ⟨err, h⟩ | ⟨loaded', held, h, -, hok, hdev, hcap⟩
  · rw [h] at hinit
    cases hinit
  rw [h] at hinit
  obtain rfl := Except.ok.inj hinit
  have hprod : loaded'.dev.size.toNat = p.nsectors.toNat * p.hardsectSize.toNat := by
    rw [hdev, BitVec.toNat_mul, hardsectSize_toNat hok, Nat.mod_eq_of_lt hsize]
  refine ⟨hprod, ?_⟩
  rw [hcap, BitVec.toNat_ushiftRight, hprod, Nat.shiftRight_eq_div_pow]
  rfl

end Bound

end LinuxDeviceDriver.Drivers.Memdisk.Setup
