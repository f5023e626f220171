/- source: examples/11_asynchronous_notification/fops.c, lines 27 to 107; main.h, lines 14 to 24
   digest: The device that holds one message and sends SIGIO to the files in its queue when it is
     replaced. -/

import LinuxDeviceDriver.Drivers.Message

set_option autoImplicit false

namespace LinuxDeviceDriver.Drivers.AsyncNotify

open Lib.LittleEndian (Byte)
open CharFile (efault enomem erestartsys)
open Message UserCopy

variable {pageShift : Fin 19}

/-- The queue holds the files with O_ASYNC set, the latest first. -/
structure AsyncNotifyDev (pageShift : Fin 19) where
  message : MessageBuffer pageShift
  asyncQueue : List Nat := []

/-- What a call returns, the bytes it reads, and the files it sends SIGIO to. -/
structure AsyncReply where
  value : Int
  data : List Byte := []
  sigio : List Nat := []
  deriving DecidableEq, Repr

def asyncNotifyRead (dev : AsyncNotifyDev pageShift) (count : Nat) (c : Conditions) : AsyncReply :=
  if c.signal then { value := -erestartsys }
  else { value := (dev.message.fetch count c).1, data := (dev.message.fetch count c).2 }

def asyncNotifyWrite (dev : AsyncNotifyDev pageShift) (buff : List Byte) (c : Conditions) :
    AsyncNotifyDev pageShift × AsyncReply :=
  if c.signal then (dev, { value := -erestartsys })
  else
    ({ dev with message := (dev.message.store buff c).1 },
      { value := (dev.message.store buff c).2
        -- a write that failed goes past kill_fasync
        sigio := if (dev.message.store buff c).2 < 0 then [] else dev.asyncQueue })

/-- fasync_helper: a file is put in the queue at most once. -/
def fasyncHelper (queue : List Nat) (filp : Nat) (mode memory : Bool) : List Nat × Int :=
  if !mode then
    if filp ∈ queue then (queue.erase filp, 1) else (queue, 0)
  else if !memory then (queue, -enomem)
  else if filp ∈ queue then (queue, 0)
  else (filp :: queue, 1)

def asyncNotifyFasync (dev : AsyncNotifyDev pageShift) (filp : Nat) (mode memory : Bool) :
    AsyncNotifyDev pageShift × AsyncReply :=
  ({ dev with asyncQueue := (fasyncHelper dev.asyncQueue filp mode memory).1 },
    { value := (fasyncHelper dev.asyncQueue filp mode memory).2 })

def asyncNotifyRelease (dev : AsyncNotifyDev pageShift) (filp : Nat) :
    AsyncNotifyDev pageShift × AsyncReply :=
  ({ dev with asyncQueue := (fasyncHelper dev.asyncQueue filp false true).1 }, { value := 0 })

inductive AsyncCall
  | read (count : Nat) (c : Conditions)
  | write (buff : List Byte) (c : Conditions)
  | fasync (filp : Nat) (mode memory : Bool)
  | release (filp : Nat)
  deriving DecidableEq, Repr

/-- One call, which holds the mutex all the time that it looks at the message. -/
def asyncNext (dev : AsyncNotifyDev pageShift) : AsyncCall → AsyncNotifyDev pageShift × AsyncReply
  | .read count c => (dev, asyncNotifyRead dev count c)
  | .write buff c => asyncNotifyWrite dev buff c
  | .fasync filp mode memory => asyncNotifyFasync dev filp mode memory
  | .release filp => asyncNotifyRelease dev filp

theorem write_failed {dev : AsyncNotifyDev pageShift} {buff : List Byte} {c : Conditions}
    (hsignal : c.signal = false)
    (hfault : c.uncopied (buff.take (buffSize pageShift)).length ≠ 0) :
    asyncNotifyWrite dev buff c =
      ({ dev with message := dev.message.copyIn c (buff.take (buffSize pageShift)) },
        { value := -efault }) := by
  rw [asyncNotifyWrite, hsignal, MessageBuffer.store_failed hfault]
  rfl

/-! ## Devices with the same message -/

/-- Two devices that differ only in what stands behind the message. -/
structure Twin (dev dev' : AsyncNotifyDev pageShift) : Prop where
  message : dev.message.Same dev'.message
  asyncQueue : dev.asyncQueue = dev'.asyncQueue

theorem Twin.next {dev dev' : AsyncNotifyDev pageShift} (h : Twin dev dev') (call : AsyncCall) :
    Twin (asyncNext dev call).1 (asyncNext dev' call).1 ∧
      (asyncNext dev call).2 = (asyncNext dev' call).2 := by
  cases call with
  | read count c =>
    refine ⟨h, ?_⟩
    show asyncNotifyRead dev count c = asyncNotifyRead dev' count c
    unfold asyncNotifyRead
    rw [h.message.fetch]
  | write buff c =>
    obtain ⟨hmessage, hvalue⟩ := h.message.store buff c
    show Twin (asyncNotifyWrite dev buff c).1 (asyncNotifyWrite dev' buff c).1 ∧
      (asyncNotifyWrite dev buff c).2 = (asyncNotifyWrite dev' buff c).2
    unfold asyncNotifyWrite
    split
    · exact ⟨h, rfl⟩
    · dsimp only
      rw [hvalue, h.asyncQueue]
      exact ⟨⟨hmessage, rfl⟩, rfl⟩
  | fasync filp mode memory =>
    refine ⟨⟨h.message, ?_⟩, ?_⟩
    · exact congrArg (fun queue => (fasyncHelper queue filp mode memory).1) h.asyncQueue
    · exact congrArg
        (fun queue => ({ value := (fasyncHelper queue filp mode memory).2 } : AsyncReply))
        h.asyncQueue
  | release filp =>
    refine ⟨⟨h.message, ?_⟩, rfl⟩
    exact congrArg (fun queue => (fasyncHelper queue filp false true).1) h.asyncQueue

end LinuxDeviceDriver.Drivers.AsyncNotify
