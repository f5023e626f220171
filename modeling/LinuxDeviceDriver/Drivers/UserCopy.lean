/- digest: What the calls of the drivers meet outside of them: a signal at the mutex, and user
     memory that can be reached in part. -/

import LinuxDeviceDriver.Lib.Blocks
import LinuxDeviceDriver.Lib.LittleEndian

set_option autoImplicit false

namespace LinuxDeviceDriver.Drivers.UserCopy

open Lib.Blocks (patch)
open Lib.LittleEndian (Byte)

/-- A signal arrives while the call waits for the mutex, or only so many bytes of the user's
buffer can be reached. -/
structure Conditions where
  signal : Bool := false
  reachable : Option Nat := none
  deriving DecidableEq, Repr

/-- How many of so many bytes copy_to_user or copy_from_user leaves uncopied. -/
def Conditions.uncopied (c : Conditions) (count : Nat) : Nat :=
  match c.reachable with
  | none => 0
  | some n => count - n

/-- What copy_from_user stores: the bytes it could fetch, and zeros for the others. -/
def fetched (c : Conditions) (src : List Byte) : List Byte :=
  src.take (src.length - c.uncopied src.length) ++ List.replicate (c.uncopied src.length) 0

variable {c : Conditions} {count : Nat} {src : List Byte}

theorem uncopied_le (c : Conditions) (count : Nat) : c.uncopied count ≤ count := by
  unfold Conditions.uncopied
  split
  · exact Nat.zero_le count
  · exact Nat.sub_le count _

@[simp] theorem fetched_length (c : Conditions) (src : List Byte) :
    (fetched c src).length = src.length := by
  have hle := uncopied_le c src.length
  rw [fetched, List.length_append, List.length_take, List.length_replicate]
  omega

theorem fetched_whole (h : c.uncopied src.length = 0) : fetched c src = src := by
  rw [fetched, h, Nat.sub_zero, List.take_length, List.replicate_zero, List.append_nil]

end LinuxDeviceDriver.Drivers.UserCopy
