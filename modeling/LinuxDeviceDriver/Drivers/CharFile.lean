/- digest: What a character device that is a fixed array of bytes does with its calls. -/

import Mathlib.Logic.Function.Basic
import LinuxDeviceDriver.Lib.LittleEndian
import LinuxDeviceDriver.Lib.ScatterGather

set_option autoImplicit false

namespace LinuxDeviceDriver.Drivers.CharFile

open Lib.LittleEndian (Byte)
open Lib.ScatterGather

/-! The errno values; the drivers return them negated. -/

def eperm : Int := 1
def enoent : Int := 2
def eio : Int := 5
def eagain : Int := 11
def enomem : Int := 12
def efault : Int := 14
def ebusy : Int := 16
def enodev : Int := 19
def einval : Int := 22
def enospc : Int := 28
def econnreset : Int := 104
def eshutdown : Int := 108
def etimedout : Int := 110
def erestartsys : Int := 512
def eiocbqueued : Int := 529

/-- A read or write call, with what the caller passes. -/
inductive FileOp
  | read (count : Nat)
  | write (data : List Byte)

/-- The number of bytes a call asks for. -/
def FileOp.size : FileOp → Nat
  | .read count => count
  | .write data => data.length

/-- One call as its caller sees it: the file, what was asked, the value
returned and the bytes read. A kernel service that refused it on the way, before
any data moved, is named with its errno. -/
structure CallLog where
  file : Nat
  op : FileOp
  refused : Option Int
  ret : Int
  data : List Byte

inductive FileEvent
  | call (log : CallLog)
  | seek (file pos : Nat)

/-- The bytes of the device, and the position of each open file. -/
structure FileView where
  bytes : Nat → Byte
  pos : Nat → Nat

def FileView.advance (a : FileView) (f m : Nat) : FileView :=
  { a with pos := Function.update a.pos f (a.pos f + m) }

/-- What a device that is an array of the given size does. -/
inductive ArrayStep (size : Nat) (a : FileView) : FileEvent → FileView → Prop
  | seek (f p : Nat) : ArrayStep size a (.seek f p) { a with pos := Function.update a.pos f p }
  | readEnd (f n : Nat) (hp : size ≤ a.pos f) : ArrayStep size a (.call ⟨f, .read n, none, 0, []⟩) a
  | writeEnd (f : Nat) (data : List Byte) (hp : size ≤ a.pos f) :
      ArrayStep size a (.call ⟨f, .write data, none, -enospc, []⟩) a
  | nothing (f : Nat) (op : FileOp) (hp : a.pos f < size) (hn : op.size = 0) :
      ArrayStep size a (.call ⟨f, op, none, 0, []⟩) a
  | refused (f : Nat) (op : FileOp) (e : Int) (he : e < 0) (hp : a.pos f < size) (hn : 0 < op.size) :
      ArrayStep size a (.call ⟨f, op, some e, e, []⟩) a
  | read (f n m : Nat) (hp : a.pos f < size) (hm : 1 ≤ m) (hn : m ≤ n) (hend : a.pos f + m ≤ size) :
      ArrayStep size a (.call ⟨f, .read n, none, m, (List.range' (a.pos f) m).map a.bytes⟩)
        (a.advance f m)
  | write (f : Nat) (data : List Byte) (m : Nat) (hp : a.pos f < size) (hm : 1 ≤ m)
      (hn : m ≤ data.length) (hend : a.pos f + m ≤ size) :
      ArrayStep size a (.call ⟨f, .write data, none, m, []⟩)
        { a.advance f m with bytes := store a.bytes (List.range' (a.pos f) m) (data.take m) }

end LinuxDeviceDriver.Drivers.CharFile
