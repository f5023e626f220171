/- source: tools/qemu/hw/ldd/io.c, lines 240 to 271 and 341 to 360
   digest: The registers of ldd-io as the short drivers access them, and what an access does
     to the bytes that have come in. -/

import LinuxDeviceDriver.Qemu.Io.Device

set_option autoImplicit false

namespace LinuxDeviceDriver.Drivers.Short.Registers

open Lib.Bits (isSet)
open Lib.LittleEndian (Byte)
open Qemu.Io.Device

/-- One byte access. The drivers make it by inb or ioread8, through a port or through
memory. -/
def ioread8 (s : LDDIOState) (off : Nat) : Byte := (lddIoRead s off 1).setWidth 8

/-- One byte access, by outb or iowrite8. -/
def iowrite8 (s : LDDIOState) (v : Byte) (off : Nat) (host : List Byte) : LDDIOState :=
  if lddIoOps off 1 then lddIoWrite s off (v.setWidth 64) 1 host else s

section Access

variable {s : LDDIOState} {v : Byte} {host : List Byte}

private theorem byte_roundTrip (v : Byte) : (v.setWidth 64).setWidth 8 = v := by
  rw [BitVec.setWidth_setWidth_of_le v (by decide), BitVec.setWidth_eq]

@[simp] theorem ioread8_status : ioread8 s lddIoStatus = s.status := byte_roundTrip s.status

@[simp] theorem ioread8_data : ioread8 s lddIoData = s.dataIn := byte_roundTrip s.dataIn

theorem iowrite8_data : iowrite8 s v lddIoData host = writeData s v := by
  show writeData s ((v.setWidth 64).setWidth 8) = writeData s v
  rw [byte_roundTrip]

theorem iowrite8_status : iowrite8 s v lddIoStatus host = writeStatus s v host := by
  show writeStatus s ((v.setWidth 64).setWidth 8) host = writeStatus s v host
  rw [byte_roundTrip]

theorem iowrite8_ctrl : iowrite8 s v lddIoCtrl host = writeCtrl s v host := by
  show writeCtrl s ((v.setWidth 64).setWidth 8) host = writeCtrl s v host
  rw [byte_roundTrip]

end Access

/-! ## The bytes that have come in -/

/-- What the keyboard has delivered since the last reset. -/
def received : List Effect → List Byte
  | [] => []
  | .reset :: _ => []
  | .enter .keyboard byte :: t => received t ++ [byte]
  | _ :: t => received t

/-- The byte in the receive buffer, if there is one. -/
def buffered (s : LDDIOState) : List Byte := if s.rxReady then [s.dataIn] else []

section Received

variable {s : LDDIOState} {byte : Byte} {host : List Byte}

theorem received_keyboardReceive :
    received (lddIoKeyboardReceive s byte).trace = received s.trace ++ [byte] := by
  unfold lddIoKeyboardReceive lddIoReceiveByte
  dsimp only
  split <;> rfl

theorem buffered_keyboardReceive : buffered (lddIoKeyboardReceive s byte) = [byte] := by
  rw [buffered, lddIoKeyboardReceive, receiveByte_rxReady, receiveByte_dataIn]
  rfl

theorem loopback_keyboardReceive : (lddIoKeyboardReceive s byte).loopback = s.loopback := by
  rw [LDDIOState.loopback, lddIoKeyboardReceive, receiveByte_ctrl]
  rfl

theorem buffered_ready (h : s.rxReady = true) : buffered s = [s.dataIn] := if_pos h

theorem buffered_empty (h : s.rxReady = false) : buffered s = [] := by
  rw [buffered, h]
  rfl

/-- An acknowledgement clears RX_READY and tells the keyboard to go on. -/
theorem ack_eq (hready : s.rxReady = true) :
    iowrite8 s lddIoStatusRxReady lddIoStatus host =
      qemuChrFeAcceptInput (s.setStatus (s.status &&& ~~~lddIoStatusRxReady)) host := by
  rw [iowrite8_status]
  unfold writeStatus
  have hlog : logReserved s lddIoStatusRxReady (~~~lddIoStatusRxReady)
      (.statusBits lddIoStatusRxReady) = s := rfl
  simp only [hlog, hready]
  rfl

/-- An acknowledgement empties the buffer; the next byte may come in at once. -/
theorem ack_received (hready : s.rxReady = true) (hloop : s.loopback = false)
    (s' : LDDIOState) (hs : s' = iowrite8 s lddIoStatusRxReady lddIoStatus host) :
    received s'.trace = received s.trace ++ buffered s' ∧ buffered s' <+: host ∧
      s'.loopback = false := by
  have hacked : s' = qemuChrFeAcceptInput (s.setStatus (s.status &&& ~~~lddIoStatusRxReady)) host := by
    rw [hs, ack_eq hready]
  have hroom : lddIoKeyboardCanReceive (s.setStatus (s.status &&& ~~~lddIoStatusRxReady)) = 1 :=
    canReceive_iff.mpr ⟨setStatus_acked, hloop⟩
  rw [acceptInput_eq] at hacked
  clear hs
  cases host with
  | nil =>
    obtain rfl : s' = s.setStatus (s.status &&& ~~~lddIoStatusRxReady) := hacked
    rw [buffered_empty setStatus_acked, List.append_nil]
    exact ⟨rfl, List.prefix_refl _, hloop⟩
  | cons byte rest =>
    simp only [List.head?_cons, if_pos hroom] at hacked
    subst hacked
    rw [received_keyboardReceive, buffered_keyboardReceive, loopback_keyboardReceive]
    exact ⟨rfl, ⟨rest, rfl⟩, hloop⟩

theorem leds_eq (hloop : s.loopback = false) (v : Byte) :
    iowrite8 s v lddIoData host = { s with dataOut := v } := by
  rw [iowrite8_data, writeData]
  exact if_neg (by rw [show ({ s with dataOut := v } : LDDIOState).loopback = false from hloop]; nofun)

end Received

end LinuxDeviceDriver.Drivers.Short.Registers
