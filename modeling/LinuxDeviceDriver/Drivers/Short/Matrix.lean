/- source: examples/17_short_mmio/main.c, lines 28 to 55 and 168 to 254;
     examples/15_short_ioport/main.c, lines 136 to 192; examples/16_short_port_remap/main.c,
     lines 138 to 196; tools/qemu/hw/ldd/io.c, lines 293 to 339
   digest: The matrix node of the short drivers on ldd-io is a file of eight bytes, whatever the
     widths of the accesses that it is read and written with. -/

import LinuxDeviceDriver.Drivers.CharFile
import LinuxDeviceDriver.Drivers.UserCopy
import LinuxDeviceDriver.Lib.Replies
import LinuxDeviceDriver.Qemu.Io.Device

set_option autoImplicit false

namespace LinuxDeviceDriver.Drivers.Short.Matrix

open Lib.Blocks (foldl_setIfInBounds patch patch_append patch_nil slice slice_append
  slice_eq_map slice_zero)
open Lib.LittleEndian
open Lib.Replies (after after_related replies replies_eq)
open Qemu.Io.Device
open CharFile (efault einval enospc erestartsys)
open UserCopy

/-! ## Accesses -/

/-- The device, and the accesses made so far: where, and how wide. -/
structure Port where
  dev : LDDIOState
  accesses : List (Nat × Nat) := []

/-- readq or ioread8, and put_unaligned_le64: the bytes of one access, in the order of their
addresses. -/
def Port.read (p : Port) (addr size : Nat) : Port × List Byte :=
  ({ p with accesses := p.accesses ++ [(addr, size)] },
    leBytes size (if lddIoOps addr size then lddIoRead p.dev addr size else 0).toNat)

/-- writeq, iowrite32, iowrite16 or iowrite8, of what get_unaligned_le64 and its like make of the
rows. -/
def Port.write (p : Port) (addr size : Nat) (rows : List Byte) : Port where
  dev :=
    if lddIoOps addr size then lddIoWrite p.dev addr (BitVec.ofNat 64 (leNat rows)) size [] else p.dev
  accesses := p.accesses ++ [(addr, size)]

/-- A loop of reads, one after the other, of these widths. -/
def Port.load (p : Port) (addr : Nat) : List Nat → Port × List Byte
  | [] => (p, [])
  | size :: sizes =>
    let r := (p.read addr size).1.load (addr + size) sizes
    (r.1, (p.read addr size).2 ++ r.2)

/-- A loop of writes. -/
def Port.store (p : Port) (addr : Nat) (rows : List Byte) : List Nat → Port
  | [] => p
  | size :: sizes =>
    (p.write addr size (rows.take size)).store (addr + size) (rows.drop size) sizes

/-- The widths are those of machine accesses, each naturally aligned, from one row to another. -/
def Spans : Nat → Nat → List Nat → Prop
  | first, last, [] => first = last
  | first, last, size :: sizes =>
    size ∈ [1, 2, 4, 8] ∧ first % size = 0 ∧ Spans (first + size) last sizes

/-- How an architecture's memcpy_toio stores the rows: at increasing addresses, by naturally
aligned accesses. -/
structure Plan where
  sizes : List Nat
  spans : Spans 0 lddIoMatrixRows sizes

/-- The values that width_set accepts. -/
inductive Width
  | eight
  | four
  | two
  | one
  | zero
  deriving DecidableEq, Repr

/-- How matrix_put writes with a width; with 0 this is up to memcpy_toio. -/
def Width.sizes (plan : Plan) : Width → List Nat
  | .eight => [8]
  | .four => [4, 4]
  | .two => [2, 2, 2, 2]
  | .one => [1, 1, 1, 1, 1, 1, 1, 1]
  | .zero => plan.sizes

/-! ## The calls -/

inductive Driver
  | shortMmio
  | shortIoport
  | shortPortRemap
  deriving DecidableEq, Repr

/-- How a driver reads all of the rows. -/
def Driver.readSizes : Driver → List Nat
  | .shortMmio => [8]
  | .shortIoport | .shortPortRemap => List.replicate lddIoMatrixRows 1

/-- How a driver writes all of the rows. -/
def Driver.writeSizes (width : Width) (plan : Plan) : Driver → List Nat
  | .shortMmio => width.sizes plan
  | .shortIoport | .shortPortRemap => [4, 4]

/-- What a call returns, the bytes it reads and the position it leaves. -/
structure Reply where
  value : Int
  data : List Byte
  fPos : Int
  deriving DecidableEq, Repr

/-- The rows that a call is about. -/
def rowCount (count : Nat) (pos : Int) : Nat := min count (lddIoMatrixRows - pos.toNat)

/-- What matrix_read does with the lock held: all of the rows at once, or one by one. -/
def loadRows (driver : Driver) (p : Port) (pos count : Nat) : Port × List Byte :=
  if pos = 0 ∧ count = lddIoMatrixRows then p.load lddIoMatrix driver.readSizes
  else p.load (lddIoMatrix + pos) (List.replicate count 1)

/-- What matrix_write does with the lock held. The width is the one that matrix_put finds. -/
def storeRows (driver : Driver) (width : Width) (plan : Plan) (p : Port) (pos count : Nat)
    (rows : List Byte) : Port :=
  if pos = 0 ∧ count = lddIoMatrixRows then p.store lddIoMatrix rows (driver.writeSizes width plan)
  else p.store (lddIoMatrix + pos) rows (List.replicate count 1)

def matrixRead (driver : Driver) (p : Port) (pos : Int) (count : Nat) (c : Conditions) :
    Port × Reply :=
  if pos < 0 then (p, ⟨-einval, [], pos⟩)
  else if pos ≥ lddIoMatrixRows then (p, ⟨0, [], pos⟩)
  else
    let count := rowCount count pos
    if c.signal then (p, ⟨-erestartsys, [], pos⟩)
    else
      let r := loadRows driver p pos.toNat count
      if c.uncopied count ≠ 0 then (r.1, ⟨-efault, [], pos⟩)
      else (r.1, ⟨count, r.2, pos + count⟩)

def matrixWrite (driver : Driver) (width : Width) (plan : Plan) (p : Port) (pos : Int)
    (buf : List Byte) (c : Conditions) : Port × Reply :=
  if pos < 0 then (p, ⟨-einval, [], pos⟩)
  else if pos ≥ lddIoMatrixRows then (p, ⟨-enospc, [], pos⟩)
  else
    let count := rowCount buf.length pos
    let rows := buf.take count
    if c.uncopied count ≠ 0 then (p, ⟨-efault, [], pos⟩)
    else if c.signal then (p, ⟨-erestartsys, [], pos⟩)
    else (storeRows driver width plan p pos.toNat count rows, ⟨count, [], pos + count⟩)

inductive MatrixCall
  | read (driver : Driver) (pos : Int) (count : Nat) (c : Conditions)
  | write (driver : Driver) (width : Width) (plan : Plan) (pos : Int) (buf : List Byte)
      (c : Conditions)

def matrixNext (p : Port) : MatrixCall → Port × Reply
  | .read driver pos count c => matrixRead driver p pos count c
  | .write driver width plan pos buf c => matrixWrite driver width plan p pos buf c

/-! ## A file of eight bytes -/

abbrev Rows := Vector Byte lddIoMatrixRows

/-- A read of the file: up to its end, unless the call fails. -/
def fileRead (rows : Rows) (pos : Int) (count : Nat) (c : Conditions) : Reply :=
  if pos < 0 then ⟨-einval, [], pos⟩
  else if pos ≥ lddIoMatrixRows then ⟨0, [], pos⟩
  else if c.signal then ⟨-erestartsys, [], pos⟩
  else if c.uncopied (rowCount count pos) ≠ 0 then ⟨-efault, [], pos⟩
  else
    ⟨rowCount count pos, slice rows pos.toNat (rowCount count pos), pos + rowCount count pos⟩

/-- A write to the file: it does not grow. -/
def fileWrite (rows : Rows) (pos : Int) (buf : List Byte) (c : Conditions) : Rows × Reply :=
  if pos < 0 then (rows, ⟨-einval, [], pos⟩)
  else if pos ≥ lddIoMatrixRows then (rows, ⟨-enospc, [], pos⟩)
  else if c.uncopied (rowCount buf.length pos) ≠ 0 then (rows, ⟨-efault, [], pos⟩)
  else if c.signal then (rows, ⟨-erestartsys, [], pos⟩)
  else
    (patch rows pos.toNat (buf.take (rowCount buf.length pos)),
      ⟨rowCount buf.length pos, [], pos + rowCount buf.length pos⟩)

def fileNext (rows : Rows) : MatrixCall → Rows × Reply
  | .read _ pos count c => (rows, fileRead rows pos count c)
  | .write _ _ _ pos buf c => fileWrite rows pos buf c

/-! ## One access -/

/-- An access that the device allows, and that stays inside the matrix. -/
def Allowed (a : Nat × Nat) : Prop :=
  lddIoAccepts a.1 a.2 = true ∧ lddIoMatrix ≤ a.1 ∧ a.1 + a.2 ≤ lddIoMatrix + lddIoMatrixRows

section Access

variable {p : Port} {first size : Nat}

/-- A naturally aligned access. -/
structure Natural (first size : Nat) : Prop where
  machine : size ∈ [1, 2, 4, 8]
  aligned : first % size = 0
  inside : first + size ≤ lddIoMatrixRows

theorem Natural.accepts (h : Natural first size) :
    lddIoAccepts (lddIoMatrix + first) size = true ∧
      lddIoOps (lddIoMatrix + first) size = true := by
  have hall : ∀ size ∈ [1, 2, 4, 8], ∀ first < 8, first % size = 0 → first + size ≤ 8 →
      lddIoAccepts (8 + first) size = true ∧ lddIoOps (8 + first) size = true := by decide
  have hsome : ∀ size ∈ [1, 2, 4, 8], 0 < size := by decide
  have hpos := hsome size h.machine
  have hinside : first + size ≤ 8 := h.inside
  exact hall size h.machine first (by omega) h.aligned hinside

theorem Natural.allowed (h : Natural first size) : Allowed (lddIoMatrix + first, size) := by
  refine ⟨h.accepts.1, Nat.le_add_right _ _, ?_⟩
  have hinside := h.inside
  show lddIoMatrix + first + size ≤ lddIoMatrix + lddIoMatrixRows
  omega

theorem Natural.bits_le (h : Natural first size) : 8 * size ≤ 64 := by
  have hinside : first + size ≤ 8 := h.inside
  omega

theorem matrix_addr (first : Nat) : lddIoMatrix + first - lddIoMatrix = first := by omega

/-- The device's loop over the rows gives their number, and its bytes are the rows. -/
theorem Natural.read (h : Natural first size) (p : Port) :
    (p.read (lddIoMatrix + first) size).2 = slice p.dev.matrix first size := by
  have hlen : (slice p.dev.matrix first size).length = size := Lib.Blocks.slice_length h.inside
  have hregister : lddIoRead p.dev (lddIoMatrix + first) size =
      BitVec.ofNat 64 (leNat (slice p.dev.matrix first size)) := by
    have hloop : lddIoRead p.dev (lddIoMatrix + first) size =
        ((List.range size).map fun i => p.dev.matrix.getD (first + i) 0).foldr
          (fun b (v : BitVec 64) => (v <<< 8) ||| b.setWidth 64) 0 := by
      rw [lddIoRead, if_pos (Nat.le_add_right _ _), List.foldr_map, matrix_addr]
    rw [hloop, ← slice_eq_map h.inside, foldr_shiftLeft (by rw [hlen]; exact h.bits_le)]
  show leBytes size _ = _
  rw [if_pos h.accepts.2, hregister, toNat_ofNat_leNat (by rw [hlen]; exact h.bits_le)]
  nth_rewrite 1 [← hlen]
  exact leBytes_leNat _

theorem Natural.write (h : Natural first size) (p : Port) {rows : List Byte}
    (hrows : rows.length = size) :
    (p.write (lddIoMatrix + first) size rows).dev =
      { p.dev with matrix := patch p.dev.matrix first rows } := by
  have hbytes : leBytes size (BitVec.ofNat 64 (leNat rows)).toNat = rows := by
    rw [toNat_ofNat_leNat (by rw [hrows]; exact h.bits_le), ← hrows, leBytes_leNat]
  have hmatrix : writeMatrix p.dev.matrix (lddIoMatrix + first) (BitVec.ofNat 64 (leNat rows)) size =
      patch p.dev.matrix first rows := by
    rw [writeMatrix, matrix_addr, foldl_setIfInBounds, ← leBytes_toNat, hbytes]
  show (if lddIoOps (lddIoMatrix + first) size then _ else p.dev) = _
  rw [if_pos h.accepts.2, lddIoWrite]
  dsimp only
  rw [if_pos (Nat.le_add_right _ _), hmatrix]

end Access

/-! ## A loop of accesses -/

section Loop

variable {first last : Nat} {sizes : List Nat}

theorem Spans.le (h : Spans first last sizes) : first ≤ last := by
  induction sizes generalizing first with
  | nil => exact le_of_eq h
  | cons size sizes ih =>
    have hrest := ih h.2.2
    omega

/-- The first access of a loop that stays inside the matrix. -/
theorem Spans.natural {size : Nat} (h : Spans first last (size :: sizes))
    (hlast : last ≤ lddIoMatrixRows) : Natural first size :=
  ⟨h.1, h.2.1, h.2.2.le.trans hlast⟩

theorem spans_bytes (first count : Nat) :
    Spans first (first + count) (List.replicate count 1) := by
  induction count generalizing first with
  | zero => rfl
  | succ count ih =>
    refine ⟨by decide, Nat.mod_one first, ?_⟩
    rw [show first + (count + 1) = first + 1 + count by omega]
    exact ih (first + 1)

/-- The accesses so far were all allowed. -/
def Port.Good (p : Port) : Prop := ∀ a ∈ p.accesses, Allowed a

theorem good_append {p p' : Port} {a : Nat × Nat} (h : p.Good) (ha : Allowed a)
    (hp : p'.accesses = p.accesses ++ [a]) : p'.Good := by
  intro b hb
  rw [hp] at hb
  rcases List.mem_append.mp hb with hb | hb
  · exact h b hb
  · rw [List.mem_singleton.mp hb]
    exact ha

theorem Spans.load (h : Spans first last sizes) (hlast : last ≤ lddIoMatrixRows) (p : Port) :
    (p.load (lddIoMatrix + first) sizes).2 = slice p.dev.matrix first (last - first) ∧
      (p.load (lddIoMatrix + first) sizes).1.dev = p.dev ∧
      (p.Good → (p.load (lddIoMatrix + first) sizes).1.Good) := by
  induction sizes generalizing first p with
  | nil =>
    obtain rfl : first = last := h
    rw [Nat.sub_self, slice_zero]
    exact ⟨rfl, rfl, id⟩
  | cons size sizes ih =>
    have hnatural := h.natural hlast
    have hle := h.2.2.le
    obtain ⟨hdata, hdev, hgood⟩ := ih h.2.2 (p.read (lddIoMatrix + first) size).1
    rw [← Nat.add_assoc] at hdata hdev hgood
    refine ⟨?_, hdev, ?_⟩
    · show (p.read _ size).2 ++ _ = _
      rw [hdata, hnatural.read, show last - first = size + (last - (first + size)) by omega,
        slice_append]
      rfl
    · intro hp
      exact hgood (good_append hp hnatural.allowed rfl)

theorem Spans.store (h : Spans first last sizes) (hlast : last ≤ lddIoMatrixRows) (p : Port)
    {rows : List Byte} (hrows : rows.length = last - first) :
    (p.store (lddIoMatrix + first) rows sizes).dev =
        { p.dev with matrix := patch p.dev.matrix first rows } ∧
      (p.Good → (p.store (lddIoMatrix + first) rows sizes).Good) := by
  induction sizes generalizing first rows p with
  | nil =>
    obtain rfl : first = last := h
    obtain rfl : rows = [] := List.eq_nil_of_length_eq_zero (by omega)
    rw [patch_nil]
    exact ⟨rfl, id⟩
  | cons size sizes ih =>
    have hnatural := h.natural hlast
    have hle := h.2.2.le
    have htake : (rows.take size).length = size := by
      rw [List.length_take]
      omega
    have hdrop : (rows.drop size).length = last - (first + size) := by
      rw [List.length_drop]
      omega
    obtain ⟨hdev, hgood⟩ := ih h.2.2 (p.write (lddIoMatrix + first) size (rows.take size)) hdrop
    rw [← Nat.add_assoc] at hdev hgood
    constructor
    · show ((p.write _ size (rows.take size)).store _ (rows.drop size) sizes).dev = _
      have hboth : patch (patch p.dev.matrix first (rows.take size)) (first + size)
          (rows.drop size) = patch p.dev.matrix first rows := by
        have happend := patch_append p.dev.matrix first (rows.take size) (rows.drop size)
        rw [htake, List.take_append_drop] at happend
        exact happend.symm
      rw [hdev, hnatural.write p htake, hboth]
    · intro hp
      exact hgood (good_append hp hnatural.allowed rfl)

end Loop

/-! ## The node is the file -/

/-- Every way to write all of the rows is one that the device allows. -/
theorem writeSizes_spans (driver : Driver) (width : Width) (plan : Plan) :
    Spans 0 lddIoMatrixRows (driver.writeSizes width plan) := by
  cases driver with
  | shortMmio =>
    cases width with
    | eight => exact ⟨by decide, rfl, rfl⟩
    | four => exact ⟨by decide, rfl, by decide, rfl, rfl⟩
    | two => exact ⟨by decide, rfl, by decide, rfl, by decide, rfl, by decide, rfl, rfl⟩
    | one => exact spans_bytes 0 8
    | zero => exact plan.spans
  | shortIoport | shortPortRemap => exact ⟨by decide, rfl, by decide, rfl, rfl⟩

theorem readSizes_spans (driver : Driver) : Spans 0 lddIoMatrixRows driver.readSizes := by
  cases driver with
  | shortMmio => exact ⟨by decide, rfl, rfl⟩
  | shortIoport | shortPortRemap => exact spans_bytes 0 8

/-- The device is as it was but for the rows, which are the file's. -/
structure Shows (dev : LDDIOState) (p : Port) (rows : Rows) : Prop where
  dev : p.dev = { dev with matrix := rows }
  good : p.Good

section Calls

variable {dev : LDDIOState} {p : Port} {rows : Rows} {pos : Int}

theorem Shows.matrix (h : Shows dev p rows) : p.dev.matrix = rows := by rw [h.dev]

theorem rowCount_le (count : Nat) (hneg : ¬ pos < 0) (hlt : ¬ pos ≥ lddIoMatrixRows) :
    pos.toNat + rowCount count pos ≤ lddIoMatrixRows := by
  unfold rowCount
  unfold lddIoMatrixRows at hlt ⊢
  omega

theorem Shows.load (h : Shows dev p rows) (driver : Driver) {first count : Nat}
    (hle : first + count ≤ lddIoMatrixRows) :
    Shows dev (loadRows driver p first count).1 rows ∧
      (loadRows driver p first count).2 = slice rows first count := by
  unfold loadRows
  split
  · next hwhole =>
    obtain ⟨rfl, rfl⟩ := hwhole
    obtain ⟨hdata, hdev, hgood⟩ := (readSizes_spans driver).load (le_refl _) p
    rw [Nat.sub_zero, h.matrix] at hdata
    exact ⟨⟨hdev.trans h.dev, hgood h.good⟩, hdata⟩
  · obtain ⟨hdata, hdev, hgood⟩ := (spans_bytes first count).load hle p
    rw [Nat.add_sub_cancel_left, h.matrix] at hdata
    exact ⟨⟨hdev.trans h.dev, hgood h.good⟩, hdata⟩

theorem Shows.store (h : Shows dev p rows) (driver : Driver) (width : Width) (plan : Plan)
    {first count : Nat} (hle : first + count ≤ lddIoMatrixRows) {new : List Byte}
    (hnew : new.length = count) :
    Shows dev (storeRows driver width plan p first count new) (patch rows first new) := by
  have hset : ∀ p' : Port, p'.dev = { p.dev with matrix := patch p.dev.matrix first new } →
      p'.dev = { dev with matrix := patch rows first new } := by
    intro p' hp'
    rw [hp', h.dev]
  unfold storeRows
  split
  · next hwhole =>
    obtain ⟨rfl, rfl⟩ := hwhole
    obtain ⟨hdev, hgood⟩ := (writeSizes_spans driver width plan).store (le_refl _) p hnew
    exact ⟨hset _ hdev, hgood h.good⟩
  · obtain ⟨hdev, hgood⟩ := (spans_bytes first count).store hle p
      (hnew.trans (Nat.add_sub_cancel_left first count).symm)
    exact ⟨hset _ hdev, hgood h.good⟩

theorem Shows.read (h : Shows dev p rows) (driver : Driver) (pos : Int) (count : Nat)
    (c : Conditions) :
    Shows dev (matrixRead driver p pos count c).1 rows ∧
      (matrixRead driver p pos count c).2 = fileRead rows pos count c := by
  unfold matrixRead fileRead
  split
  · exact ⟨h, rfl⟩
  · next hneg =>
    split
    · exact ⟨h, rfl⟩
    · next hlt =>
      obtain ⟨hshows, hdata⟩ := h.load driver (rowCount_le count hneg hlt)
      dsimp only
      split
      · exact ⟨h, rfl⟩
      · split
        · exact ⟨hshows, rfl⟩
        · rw [hdata]
          exact ⟨hshows, rfl⟩

theorem Shows.write (h : Shows dev p rows) (driver : Driver) (width : Width) (plan : Plan)
    (pos : Int) (buf : List Byte) (c : Conditions) :
    Shows dev (matrixWrite driver width plan p pos buf c).1 (fileWrite rows pos buf c).1 ∧
      (matrixWrite driver width plan p pos buf c).2 = (fileWrite rows pos buf c).2 := by
  unfold matrixWrite fileWrite
  split
  · exact ⟨h, rfl⟩
  · next hneg =>
    split
    · exact ⟨h, rfl⟩
    · next hlt =>
      have hlen : (buf.take (rowCount buf.length pos)).length = rowCount buf.length pos := by
        rw [List.length_take]
        exact Nat.min_eq_left (Nat.min_le_left _ _)
      dsimp only
      split
      · exact ⟨h, rfl⟩
      · split
        · exact ⟨h, rfl⟩
        · exact ⟨h.store driver width plan (rowCount_le buf.length hneg hlt) hlen, rfl⟩

theorem Shows.next (h : Shows dev p rows) (call : MatrixCall) :
    Shows dev (matrixNext p call).1 (fileNext rows call).1 ∧
      (matrixNext p call).2 = (fileNext rows call).2 := by
  cases call with
  | read driver pos count c => exact h.read driver pos count c
  | write driver width plan pos buf c => exact h.write driver width plan pos buf c

end Calls

/-- Whatever is called, with whatever widths and whatever memcpy_toio does: the calls return what
those of a file of eight bytes would, the rows are then those of the file, nothing else of the
device has changed, and every access was allowed and inside the matrix. -/
theorem matrix_is_a_file (dev : LDDIOState) (calls : List MatrixCall) :
    replies matrixNext { dev } calls = replies fileNext dev.matrix calls ∧
    (after matrixNext { dev } calls).dev =
      { dev with matrix := after fileNext dev.matrix calls } ∧
    ∀ a ∈ (after matrixNext { dev } calls).accesses, lddIoAccepts a.1 a.2 = true ∧
      lddIoMatrix ≤ a.1 ∧ a.1 + a.2 ≤ lddIoMatrix + lddIoMatrixRows := by
  have hstart : Shows dev { dev } dev.matrix := ⟨rfl, fun _ ha => absurd ha List.not_mem_nil⟩
  have hafter : Shows dev (after matrixNext { dev } calls) (after fileNext dev.matrix calls) :=
    after_related (fun _ _ call h => (h.next call).1) hstart calls
  exact ⟨replies_eq (fun _ _ call h => h.next call) hstart calls, hafter.dev, hafter.good⟩

end LinuxDeviceDriver.Drivers.Short.Matrix
