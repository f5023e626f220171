/- digest: An object that goes with its last reference, and what its holders can rely on. -/

import Mathlib.Data.Nat.Basic

set_option autoImplicit false

namespace LinuxDeviceDriver.Lib.RefCount

/-- An object with its reference count, how often it has been freed, and how often it was used
when it was free. -/
structure Object where
  refs : Nat := 1
  frees : Nat := 0
  faults : Nat := 0
  deriving DecidableEq, Repr

namespace Object

def use (x : Object) : Object := if x.frees = 0 then x else { x with faults := x.faults + 1 }

def get (x : Object) : Object := { x.use with refs := x.refs + 1 }

/-- The last reference frees the object. -/
def put (x : Object) : Object :=
  if x.refs = 1 then { x.use with refs := 0, frees := x.frees + 1 }
  else { x.use with refs := x.refs - 1 }

end Object

/-- Each reference has its holder; the object is freed once they have all let go, and never used
after that. -/
structure Held (x : Object) (holders : Nat) : Prop where
  refs : x.refs = holders
  frees : x.frees = (decide (holders = 0)).toNat
  faults : x.faults = 0

namespace Held

variable {x : Object} {n : Nat}

theorem frees_eq_zero (h : Held x n) (hn : 0 < n) : x.frees = 0 := by
  rw [h.frees, decide_eq_false (by omega)]
  rfl

theorem use (h : Held x n) (hn : 0 < n) : x.use = x := by
  rw [Object.use, if_pos (h.frees_eq_zero hn)]

theorem get (h : Held x n) (hn : 0 < n) : Held x.get (n + 1) := by
  rw [Object.get, h.use hn]
  refine ⟨?_, ?_, h.faults⟩
  · show x.refs + 1 = n + 1
    rw [h.refs]
  · show x.frees = _
    rw [h.frees_eq_zero hn, decide_eq_false (by omega)]
    rfl

theorem put (h : Held x (n + 1)) : Held x.put n := by
  have hrefs := h.refs
  have hfree := h.frees_eq_zero (Nat.succ_pos n)
  rw [Object.put, h.use (Nat.succ_pos n)]
  split
  · next hlast =>
    obtain rfl : n = 0 := by omega
    refine ⟨rfl, ?_, h.faults⟩
    show x.frees + 1 = 1
    rw [hfree]
  · next hmore =>
    refine ⟨?_, ?_, h.faults⟩
    · show x.refs - 1 = n
      omega
    · show x.frees = _
      rw [hfree, decide_eq_false (by omega)]
      rfl

end Held

end LinuxDeviceDriver.Lib.RefCount
