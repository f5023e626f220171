/- digest: A request that its completion handler may submit again, and killing it, which waits for
     the handler. -/

import Mathlib.Data.Bool.Basic

set_option autoImplicit false

namespace LinuxDeviceDriver.Lib.Resubmission

/-- A request is active from its submission until it completes. A use is a submission whose
handler has not returned yet; while there is a reject, a kill is in progress. -/
structure Request where
  active : Bool := false
  uses : Nat := 0
  rejects : Nat := 0
  deriving DecidableEq

namespace Request

def submit (r : Request) : Request := { r with active := true, uses := r.uses + 1 }

def complete (r : Request) : Request := { r with active := false }

/-- The handler has returned. -/
def giveBack (r : Request) : Request := { r with uses := r.uses - 1 }

def kill (r : Request) : Request := { r with rejects := r.rejects + 1 }

def killed (r : Request) : Request := { r with rejects := r.rejects - 1 }

end Request

/-- Each use is the request itself, being active, or one of the handlers that run. -/
def InFlight (r : Request) (handlers : Nat) : Prop := r.uses = r.active.toNat + handlers

namespace InFlight

variable {r : Request} {n : Nat}

theorem submit (h : InFlight r n) (hidle : r.active = false) : InFlight r.submit n := by
  unfold InFlight at h ⊢
  rw [hidle, Bool.toNat_false] at h
  show r.uses + 1 = 1 + n
  omega

theorem complete (h : InFlight r n) (hactive : r.active = true) :
    InFlight r.complete (n + 1) := by
  unfold InFlight at h ⊢
  rw [hactive, Bool.toNat_true] at h
  show r.uses = 0 + (n + 1)
  omega

theorem giveBack (h : InFlight r (n + 1)) : InFlight r.giveBack n := by
  unfold InFlight at h ⊢
  show r.uses - 1 = r.active.toNat + n
  omega

theorem unused (h : InFlight r n) (hwaited : r.uses = 0) : r.active = false ∧ n = 0 := by
  unfold InFlight at h
  have hidle : r.active.toNat = 0 := by omega
  exact ⟨Bool.toNat_eq_zero.mp hidle, by omega⟩

theorem used (h : InFlight r n) (hn : 0 < n ∨ r.active = true) : 0 < r.uses := by
  unfold InFlight at h
  rcases hn with hn | hactive
  · omega
  · rw [hactive, Bool.toNat_true] at h
    omega

end InFlight

end LinuxDeviceDriver.Lib.Resubmission
