/- source: tools/qemu/hw/ldd/usb.c, lines 23 to 48 and 117 to 222
   digest: The ldd-usb device: a tick timer and three endpoints, and what its host and its
     timer see of a run. -/

import LinuxDeviceDriver.Lib.LittleEndian
import LinuxDeviceDriver.Lib.Transition

set_option autoImplicit false

namespace LinuxDeviceDriver.Qemu.Usb.Device

open Lib.LittleEndian (Byte leBytes leNat)

def lddUsbEpTime : Nat := 1
def lddUsbEpInterval : Nat := 2
def lddUsbEpTick : Nat := 3

def lddUsbIntervalMax : Nat := 3600
def lddUsbTimeLen : Nat := 20

/-- What the device reads of its host: the virtual clock in ms, and the local time as
strftime writes it. -/
structure HostClock where
  now : Int
  localtime : Vector Byte lddUsbTimeLen
  deriving DecidableEq

/-- A timer that is running, with the clock's reading when it was set. -/
structure QEMUTimer where
  armed : Int
  expire : Int
  deriving DecidableEq, Repr

structure LDDUSBState where
  timer : Option QEMUTimer := none
  interval : BitVec 32 := 0
  tickPending : Bool := false
  time : Vector Byte lddUsbTimeLen := Vector.replicate lddUsbTimeLen 0
  defaultInterval : BitVec 32 := 1
  deriving DecidableEq

inductive UsbToken
  | setup
  | tokenIn
  | tokenOut
  deriving DecidableEq, Repr

inductive UsbRet
  | success
  | nak
  | stall
  deriving DecidableEq, Repr

/-- A packet is as long as its buffer. -/
structure USBPacket where
  pid : UsbToken
  ep : Nat
  iov : List Byte
  status : UsbRet := .success
  actualLength : Nat := 0
  deriving DecidableEq, Repr

namespace USBPacket

def refuse (p : USBPacket) (status : UsbRet) : USBPacket := { p with status := status }

/-- usb_packet_copy of an IN packet: the bytes go into its buffer, after those already there. -/
def fill (p : USBPacket) (bytes : List Byte) : USBPacket :=
  { p with
    iov := p.iov.take p.actualLength ++ bytes ++ p.iov.drop (p.actualLength + bytes.length)
    actualLength := p.actualLength + bytes.length }

/-- usb_packet_copy of an OUT packet: the next n bytes of its buffer, which it then has
delivered. -/
def drain (p : USBPacket) (n : Nat) : List Byte × USBPacket :=
  ((p.iov.drop p.actualLength).take n, { p with actualLength := p.actualLength + n })

/-- What an IN packet brings back. -/
def answer (p : USBPacket) : List Byte := p.iov.take p.actualLength

end USBPacket

def lddUsbStampTime (s : LDDUSBState) (clock : HostClock) : LDDUSBState :=
  { s with time := clock.localtime }

def lddUsbArmTimer (s : LDDUSBState) (clock : HostClock) : LDDUSBState :=
  { s with timer := some ⟨clock.now, clock.now + s.interval.toNat * 1000⟩ }

/-- The timer's callback. The wakeup at its end only makes the controller try again what was
refused. -/
def lddUsbTick (s : LDDUSBState) (clock : HostClock) : LDDUSBState :=
  lddUsbArmTimer { lddUsbStampTime s clock with tickPending := true } clock

def lddUsbHandleReset (s : LDDUSBState) (clock : HostClock) : LDDUSBState :=
  let s := { s with interval := s.defaultInterval, tickPending := false }
  lddUsbArmTimer (lddUsbStampTime s clock) clock

/-- Control requests are answered from the descriptors, or refused; the number is what
usb_desc_handle_control returns. -/
def lddUsbHandleControl (s : LDDUSBState) (p : USBPacket) (ret : Int) : LDDUSBState × USBPacket :=
  (s, if ret < 0 then p.refuse .stall else p)

/-- The interval that a number of seconds stands for. -/
def clampInterval (seconds : Nat) : BitVec 32 :=
  BitVec.ofNat 32 (min (max seconds 1) lddUsbIntervalMax)

def lddUsbSetInterval (s : LDDUSBState) (p : USBPacket) (clock : HostClock) :
    LDDUSBState × USBPacket :=
  if p.iov.length ≠ 4 then (s, p.refuse .stall)
  else
    let s := { s with interval := clampInterval (leNat (p.drain 4).1), tickPending := false }
    (lddUsbArmTimer s clock, (p.drain 4).2)

/-- The report of a tick: a 1, and the interval. -/
def tickReport (interval : BitVec 32) : List Byte := leBytes 4 1 ++ leBytes 4 interval.toNat

def lddUsbReportTick (s : LDDUSBState) (p : USBPacket) : LDDUSBState × USBPacket :=
  if !s.tickPending then (s, p.refuse .nak)
  else
    ({ s with tickPending := false },
      p.fill ((tickReport s.interval).take (min 8 p.iov.length)))

def lddUsbHandleData (s : LDDUSBState) (p : USBPacket) (clock : HostClock) :
    LDDUSBState × USBPacket :=
  match p.pid with
  | .tokenOut =>
    if p.ep = lddUsbEpInterval then lddUsbSetInterval s p clock else (s, p.refuse .stall)
  | .tokenIn =>
    if p.ep = lddUsbEpTime then
      (s, p.fill (s.time.toList.take (min lddUsbTimeLen p.iov.length)))
    else if p.ep = lddUsbEpTick then lddUsbReportTick s p
    else (s, p.refuse .stall)
  | .setup => (s, p.refuse .stall)

/-! ## Runs -/

inductive UsbEvent
  | tick
  | reset
  | data (pid : UsbToken) (ep : Nat) (iov : List Byte)
  | control (iov : List Byte) (ret : Int)
  deriving DecidableEq, Repr

/-- What is seen from outside: the timer fired, the device was reset, or a packet came back. -/
inductive Sight
  | tick (timer : QEMUTimer)
  | reset
  | packet (p : USBPacket)
  deriving DecidableEq, Repr

/-- The device, and what has been seen of it, latest first. -/
structure UsbRun where
  dev : LDDUSBState
  seen : List Sight := []
  deriving DecidableEq

def UsbRun.after (r : UsbRun) (out : LDDUSBState × USBPacket) : UsbRun :=
  ⟨out.1, .packet out.2 :: r.seen⟩

/-- One event. The timer fires when its time has come, and is then no longer set. -/
def usbStep (r : UsbRun) (e : UsbEvent × HostClock) : Option UsbRun :=
  match e.1 with
  | .tick =>
    r.dev.timer.bind fun t =>
      if t.expire ≤ e.2.now then
        some ⟨lddUsbTick { r.dev with timer := none } e.2, .tick t :: r.seen⟩
      else none
  | .reset => some ⟨lddUsbHandleReset r.dev e.2, .reset :: r.seen⟩
  | .data pid ep iov => some (r.after (lddUsbHandleData r.dev ⟨pid, ep, iov, .success, 0⟩ e.2))
  | .control iov ret => some (r.after (lddUsbHandleControl r.dev ⟨.setup, 0, iov, .success, 0⟩ ret))

/-- The device as realize leaves it, for any value of its property. -/
def lddUsbRealize (defaultInterval : BitVec 32) : UsbRun := ⟨{ defaultInterval }, []⟩

/-! ## What a packet can do -/

section Answered

variable {s : LDDUSBState} {p : USBPacket} {clock : HostClock}

/-- The outcomes of a packet that has not been answered yet. -/
inductive Answered (s : LDDUSBState) (p : USBPacket) (clock : HostClock) :
    LDDUSBState × USBPacket → Prop
  | refused (status : UsbRet) (hrefused : status ≠ .success) :
      Answered s p clock (s, p.refuse status)
  | interval (hpid : p.pid = .tokenOut) (hep : p.ep = lddUsbEpInterval) (hlen : p.iov.length = 4) :
      Answered s p clock
        (lddUsbArmTimer
          { s with interval := clampInterval (leNat (p.drain 4).1), tickPending := false } clock,
          (p.drain 4).2)
  | time (hpid : p.pid = .tokenIn) (hep : p.ep = lddUsbEpTime) :
      Answered s p clock (s, p.fill (s.time.toList.take (min lddUsbTimeLen p.iov.length)))
  | report (hpid : p.pid = .tokenIn) (hep : p.ep = lddUsbEpTick) (hpending : s.tickPending = true) :
      Answered s p clock ({ s with tickPending := false },
        p.fill ((tickReport s.interval).take (min 8 p.iov.length)))

theorem handleData_answered : Answered s p clock (lddUsbHandleData s p clock) := by
  have hstall : Answered s p clock (s, p.refuse .stall) := .refused .stall (by simp)
  unfold lddUsbHandleData
  split
  · next hpid =>
    split
    · next hep =>
      unfold lddUsbSetInterval
      split
      · exact hstall
      · next hlen => exact .interval hpid hep (not_not.mp hlen)
    · exact hstall
  · next hpid =>
    split
    · next hep => exact .time hpid hep
    · split
      · next hep =>
        unfold lddUsbReportTick
        split
        · exact .refused .nak (by simp)
        · next hpending => exact .report hpid hep (by simpa using hpending)
      · exact hstall
  · exact hstall

end Answered

end LinuxDeviceDriver.Qemu.Usb.Device
