/- digest: The C test of some bits of a word, and what the bit operations do to it. -/

import Mathlib.Data.BitVec

set_option autoImplicit false

namespace LinuxDeviceDriver.Lib.Bits

variable {w : Nat} {v v' mask : BitVec w}

/-- The C condition `v & mask`. -/
def isSet (v mask : BitVec w) : Bool := v &&& mask != 0

@[simp] theorem isSet_zero : isSet (0#w) mask = false := by
  simp [isSet]

@[simp] theorem isSet_or : isSet (v ||| v') mask = (isSet v mask || isSet v' mask) := by
  unfold isSet
  rw [BitVec.and_or_distrib_right, Bool.eq_iff_iff]
  simp only [bne_iff_ne, ne_eq, Bool.or_eq_true, ← not_and_or, not_iff_not]
  exact BitVec.or_eq_zero_iff

@[simp] theorem isSet_and_not : isSet (v &&& ~~~mask) mask = false := by
  have hz : v &&& ~~~mask &&& mask = 0#w := by
    rw [BitVec.and_assoc, BitVec.and_comm (~~~mask), BitVec.and_not_self]
    exact BitVec.and_zero
  simp [isSet, hz]

theorem isSet_and_of_mask {keep : BitVec w} (h : keep &&& mask = mask) :
    isSet (v &&& keep) mask = isSet v mask := by
  rw [isSet, isSet, BitVec.and_assoc, h]

end LinuxDeviceDriver.Lib.Bits
