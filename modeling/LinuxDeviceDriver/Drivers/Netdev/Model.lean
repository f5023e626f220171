/- source: examples/30_netdev/main.c, lines 22 to 359 and 409 to 491; main.h
   digest: The netdev driver, one locked section or kernel call at a time: its two devices,
     their buffers, and the threads that transmit, receive, poll, open and stop. -/

import LinuxDeviceDriver.Lib.Bits
import LinuxDeviceDriver.Lib.LittleEndian
import LinuxDeviceDriver.Lib.Threads

set_option autoImplicit false

namespace LinuxDeviceDriver.Drivers.Netdev.Model

open Lib.LittleEndian (Byte)
open Lib.Bits
open Lib.Threads

/-! ## Data -/

/-- sn0 and sn1. -/
inductive Dev
  | sn0 | sn1
  deriving DecidableEq, Repr

def lddPeer : Dev → Dev
  | .sn0 => .sn1
  | .sn1 => .sn0

/-- A pointer into pkt_arr of a device. -/
structure PktRef where
  arr : Dev
  idx : Nat
  deriving DecidableEq, Repr

def netdevRxIntr : BitVec 32 := 1
def netdevTxIntr : BitVec 32 := 2

def ethPIp : BitVec 16 := 0x0800
def ethZlen : Nat := 60
def ethHlen : Nat := 14
def ethFrameLen : Nat := 1514
/-- sizeof(struct iphdr). -/
def iphdrSize : Nat := 20

/-- An skb to send. The calls of ldd_start_xmit are numbered; id is the number of the
call it is passed to. -/
structure Skb where
  id : Nat
  protocol : BitVec 16
  data : List Byte
  deriving DecidableEq

/-- struct ldd_packet but for next, which is in Links. call is the number of the call
whose frame the buffer holds; the source has no such field. -/
structure LddPacket where
  dev : Dev
  datalen : Nat := 0
  data : Nat → Byte := fun _ => 0
  call : Nat := 0

/-- A frame as it is passed up. -/
structure Frame where
  call : Nat
  data : List Byte
  deriving DecidableEq, Repr

def LddPacket.frame (pkt : LddPacket) : Frame := ⟨pkt.call, (List.range pkt.datalen).map pkt.data⟩

/-- NAPI_STATE_SCHED, MISSED and DISABLE, and whether the context is in a poll list. A new
context is scheduled but in no list, which is how it is disabled. -/
structure NapiStruct where
  sched : Bool := true
  missed : Bool := false
  disable : Bool := false
  listed : Bool := false
  deriving DecidableEq, Repr

/-- struct ldd_dev but for the pool and the receive queue. -/
structure LddDev where
  running : Bool := false
  rxIntEnabled : Bool := false
  status : BitVec 32 := 0
  txSkb : Option Skb := none
  napi : NapiStruct := {}

/-- Whether the kernel has the device up, down, or is opening or stopping it. -/
inductive Link
  | down | changing | up
  deriving DecidableEq, Repr

/-- The parts of struct net_device in use: the transmit queue and the statistics. -/
structure NetDevice where
  link : Link := .down
  txStopped : Bool := false
  txPackets : Nat := 0
  txBytes : Nat := 0
  txDropped : Nat := 0
  rxPackets : Nat := 0
  rxBytes : Nat := 0
  rxDropped : Nat := 0

/-- What became of a frame that had been queued. -/
inductive Fate
  | netifRx | netifReceiveSkb | noMemory | stopped
  deriving DecidableEq, Repr

inductive NetdevTx
  | ok | busy
  deriving DecidableEq, Repr

/-- History: frames queued at the device and what became of them; skbs it freed; and
the calls of ldd_start_xmit for it that returned. -/
structure DevLog where
  queued : List Frame := []
  settled : List (Frame × Fate) := []
  freed : List Nat := []
  returned : List (Nat × NetdevTx) := []

structure Shared where
  packet : PktRef → LddPacket
  priv : Dev → LddDev := fun _ => {}
  netdev : Dev → NetDevice := fun _ => {}
  log : Dev → DevLog := fun _ => {}
  calls : Nat := 0

def Shared.setPriv (s : Shared) (d : Dev) (p : LddDev) : Shared :=
  { s with priv := Function.update s.priv d p }

def Shared.setNetdev (s : Shared) (d : Dev) (n : NetDevice) : Shared :=
  { s with netdev := Function.update s.netdev d n }

def Shared.setLog (s : Shared) (d : Dev) (l : DevLog) : Shared :=
  { s with log := Function.update s.log d l }

/-! ## The pool and the receive queue -/

/-- The operations of the driver on the pools and the receive queues. -/
structure BufOps (B : Type) where
  /-- priv->pool is null. -/
  poolEmpty : B → Dev → Bool
  takePool : B → Dev → Option PktRef × B
  putPool : B → Dev → PktRef → B
  /-- priv->rx_head is not null. -/
  rxWaiting : B → Dev → Bool
  rxEnqueue : B → Dev → PktRef → B
  rxDequeue : B → Dev → Option PktRef × B

/-- The pointers: pool, rx_head and rx_tail of each device, next of each buffer. -/
structure Links where
  next : PktRef → Option PktRef
  pool : Dev → Option PktRef
  rxHead : Dev → Option PktRef := fun _ => none
  rxTail : Dev → Option PktRef := fun _ => none

/-- ldd_get_tx_buffer, lines 44 to 46. -/
def Links.takePool (b : Links) (d : Dev) : Option PktRef × Links :=
  match b.pool d with
  | none => (none, b)
  | some pkt => (some pkt, { b with pool := Function.update b.pool d (b.next pkt) })

/-- ldd_release_buffer, lines 62 and 63. -/
def Links.putPool (b : Links) (d : Dev) (pkt : PktRef) : Links :=
  { b with
    next := Function.update b.next pkt (b.pool d)
    pool := Function.update b.pool d (some pkt) }

/-- ldd_rx_dequeue. -/
def Links.rxDequeue (b : Links) (d : Dev) : Option PktRef × Links :=
  match b.rxHead d with
  | none => (none, b)
  | some pkt =>
    (some pkt, { b with
      rxHead := Function.update b.rxHead d (b.next pkt)
      rxTail := if b.next pkt = none then Function.update b.rxTail d none else b.rxTail })

/-- ldd_rx_enqueue, lines 96 to 101. -/
def Links.rxEnqueue (b : Links) (d : Dev) (pkt : PktRef) : Links :=
  let next := Function.update b.next pkt none
  match b.rxTail d with
  | some tail =>
    { b with
      next := Function.update next tail (some pkt)
      rxTail := Function.update b.rxTail d (some pkt) }
  | none =>
    { b with
      next := next
      rxHead := Function.update b.rxHead d (some pkt)
      rxTail := Function.update b.rxTail d (some pkt) }

def linkOps : BufOps Links where
  poolEmpty b d := (b.pool d).isNone
  takePool := Links.takePool
  putPool := Links.putPool
  rxWaiting b d := (b.rxHead d).isSome
  rxEnqueue := Links.rxEnqueue
  rxDequeue := Links.rxDequeue

/-! ## The kernel's NAPI -/

def napiSchedule (n : NapiStruct) : NapiStruct :=
  if n.disable = true then n
  else if n.sched = true then { n with missed := true }
  else { n with sched := true, listed := true }

/-- True if the poll is over; else the context was scheduled meanwhile and is polled again. -/
def napiCompleteDone (n : NapiStruct) : Bool × NapiStruct :=
  if n.missed = true then (false, { n with missed := false, listed := true })
  else (true, { n with sched := false })

/-- A poll has used up its budget: it is listed again, unless napi_disable waits for it. -/
def napiRepoll (n : NapiStruct) : NapiStruct :=
  if n.disable = true then (napiCompleteDone n).2 else { n with listed := true }

/-! ## The driver -/

/-- The module parameters, as m_init accepts them, and the kernel's ip_fast_csum: the two
bytes of the checksum of a header. -/
structure Params where
  useNapi : Bool
  poolSize : Nat
  pool_pos : 1 ≤ poolSize
  ipFastCsum : List Byte → Byte × Byte

/-- The check of m_init. -/
def mInit (useNapi : Bool) (poolSize : Int) (csum : List Byte → Byte × Byte) :
    Except Int Params :=
  if h : poolSize < 1 then .error (-22)
  else .ok ⟨useNapi, poolSize.toNat, by omega, csum⟩

/-- Where ldd_interrupt is called from: for a frame that arrived, line 109, or for a
transmission that is done, line 311. -/
inductive Cause
  | rx | tx (id : Nat)
  deriving DecidableEq, Repr

/-- What a thread does next: one locked section, or one call of the kernel, with the
thread's own variables. -/
inductive Instr
  -- ldd_start_xmit
  | startXmit (d : Dev) (skb : Skb)
  | getTxBuffer (d : Dev) (skb : Skb)
  | copyFrame (d : Dev) (skb : Skb) (pkt : PktRef)
  | transmitted (d : Dev) (skb : Skb)
  | returnOk (d : Dev) (id : Nat)
  -- ldd_rx_enqueue and ldd_release_buffer
  | rxEnqueue (d : Dev) (pkt : PktRef)
  | releaseBuffer (pkt : PktRef)
  | wakeQueue (d : Dev)
  -- ldd_regular_interrupt and ldd_napi_interrupt
  | interrupt (d : Dev) (cause : Cause)
  | rxDequeue (d : Dev)
  | rxRegular (d : Dev) (pkt : PktRef)
  | rxIntOff (d : Dev)
  | schedule (d : Dev)
  | txDone (d : Dev) (skb : Skb)
  -- ldd_poll
  | poll (d : Dev) (budget done : Nat)
  | rxNapi (d : Dev) (pkt : PktRef) (budget done : Nat)
  | completeDone (d : Dev)
  | lookAgain (d : Dev)
  | reschedule (d : Dev)
  -- ldd_open
  | napiEnable (d : Dev)
  | openLocked (d : Dev)
  | startQueue (d : Dev)
  -- ldd_stop
  | stopLocked (d : Dev)
  | napiDisable (d : Dev)
  | napiDisableWait (d : Dev)
  | drain (d : Dev)
  deriving DecidableEq

structure Core (B : Type) where
  bufs : B
  shared : Shared

/-- The frames ldd_start_xmit drops, lines 277 and 278; both devices exist. -/
def dropped (skb : Skb) : Bool :=
  skb.protocol != ethPIp || decide (skb.data.length < ethHlen + iphdrSize) ||
    decide (ethFrameLen < skb.data.length)

/-- ip_send_check: the checksum of the header, of as many words as ihl says. -/
def ipSendCheck (cfg : Params) (data : Nat → Byte) : Nat → Byte :=
  let zeroed := Function.update (Function.update data (ethHlen + 10) 0) (ethHlen + 11) 0
  let ihl := (data ethHlen &&& 0x0f).toNat
  let sum := cfg.ipFastCsum ((List.range (4 * ihl)).map fun i => zeroed (ethHlen + i))
  Function.update (Function.update zeroed (ethHlen + 10) sum.1) (ethHlen + 11) sum.2

/-- Lines 294 to 301: the buffer with the frame of the skb. The source address is at
offset 12 of the IP header, the destination address at 16. -/
def copyFrame (cfg : Params) (skb : Skb) (pkt : LddPacket) : LddPacket :=
  let len := max skb.data.length ethZlen
  let padded : Nat → Byte := fun i => if i < len then 0 else pkt.data i
  let copied : Nat → Byte := fun i => skb.data.getD i (padded i)
  let saddr := Function.update copied (ethHlen + 14) (copied (ethHlen + 14) ^^^ 1)
  let daddr := Function.update saddr (ethHlen + 18) (saddr (ethHlen + 18) ^^^ 1)
  { pkt with datalen := len, data := ipSendCheck cfg daddr, call := skb.id }

section Sections

variable {B : Type} (ops : BufOps B) (cfg : Params) (c : Core B)

def Core.mapPriv (d : Dev) (f : LddDev → LddDev) : Core B :=
  { c with shared := c.shared.setPriv d (f (c.shared.priv d)) }

def Core.mapNetdev (d : Dev) (f : NetDevice → NetDevice) : Core B :=
  { c with shared := c.shared.setNetdev d (f (c.shared.netdev d)) }

def Core.mapLog (d : Dev) (f : DevLog → DevLog) : Core B :=
  { c with shared := c.shared.setLog d (f (c.shared.log d)) }

abbrev Core.mapNapi (d : Dev) (f : NapiStruct → NapiStruct) : Core B :=
  c.mapPriv d fun p => { p with napi := f p.napi }

section Fields

variable {c} {d : Dev}

@[simp] theorem mapPriv_bufs (f : LddDev → LddDev) : (c.mapPriv d f).bufs = c.bufs := rfl

@[simp] theorem mapPriv_packet (f : LddDev → LddDev) :
    (c.mapPriv d f).shared.packet = c.shared.packet := rfl

@[simp] theorem mapPriv_priv (f : LddDev → LddDev) :
    (c.mapPriv d f).shared.priv = Function.update c.shared.priv d (f (c.shared.priv d)) := rfl

@[simp] theorem mapPriv_netdev (f : LddDev → LddDev) :
    (c.mapPriv d f).shared.netdev = c.shared.netdev := rfl

@[simp] theorem mapPriv_log (f : LddDev → LddDev) : (c.mapPriv d f).shared.log = c.shared.log := rfl

@[simp] theorem mapPriv_calls (f : LddDev → LddDev) :
    (c.mapPriv d f).shared.calls = c.shared.calls := rfl

/-- What f keeps of the device's data stays, for either device. -/
theorem mapPriv_keeps {α : Type} (g : LddDev → α) {f : LddDev → LddDev} (hf : ∀ p, g (f p) = g p)
    (d' : Dev) : g ((c.mapPriv d f).shared.priv d') = g (c.shared.priv d') := by
  by_cases hd : d' = d
  · subst hd
    rw [mapPriv_priv, Function.update_self, hf]
  · rw [mapPriv_priv, Function.update_of_ne hd]

@[simp] theorem mapNetdev_bufs (f : NetDevice → NetDevice) : (c.mapNetdev d f).bufs = c.bufs := rfl

@[simp] theorem mapNetdev_packet (f : NetDevice → NetDevice) :
    (c.mapNetdev d f).shared.packet = c.shared.packet := rfl

@[simp] theorem mapNetdev_priv (f : NetDevice → NetDevice) :
    (c.mapNetdev d f).shared.priv = c.shared.priv := rfl

@[simp] theorem mapNetdev_netdev (f : NetDevice → NetDevice) :
    (c.mapNetdev d f).shared.netdev = Function.update c.shared.netdev d (f (c.shared.netdev d)) :=
  rfl

@[simp] theorem mapNetdev_log (f : NetDevice → NetDevice) :
    (c.mapNetdev d f).shared.log = c.shared.log := rfl

@[simp] theorem mapNetdev_calls (f : NetDevice → NetDevice) :
    (c.mapNetdev d f).shared.calls = c.shared.calls := rfl

theorem mapNetdev_keeps {α : Type} (g : NetDevice → α) {f : NetDevice → NetDevice}
    (hf : ∀ n, g (f n) = g n) (d' : Dev) :
    g ((c.mapNetdev d f).shared.netdev d') = g (c.shared.netdev d') := by
  by_cases hd : d' = d
  · subst hd
    rw [mapNetdev_netdev, Function.update_self, hf]
  · rw [mapNetdev_netdev, Function.update_of_ne hd]

@[simp] theorem mapLog_bufs (f : DevLog → DevLog) : (c.mapLog d f).bufs = c.bufs := rfl

@[simp] theorem mapLog_packet (f : DevLog → DevLog) :
    (c.mapLog d f).shared.packet = c.shared.packet := rfl

@[simp] theorem mapLog_priv (f : DevLog → DevLog) : (c.mapLog d f).shared.priv = c.shared.priv := rfl

@[simp] theorem mapLog_netdev (f : DevLog → DevLog) :
    (c.mapLog d f).shared.netdev = c.shared.netdev := rfl

@[simp] theorem mapLog_log (f : DevLog → DevLog) :
    (c.mapLog d f).shared.log = Function.update c.shared.log d (f (c.shared.log d)) := rfl

@[simp] theorem mapLog_calls (f : DevLog → DevLog) :
    (c.mapLog d f).shared.calls = c.shared.calls := rfl

end Fields

/-- dev_kfree_skb_any. -/
abbrev Core.free (d : Dev) (id : Nat) : Core B :=
  c.mapLog d fun l => { l with freed := l.freed ++ [id] }

abbrev Core.returns (d : Dev) (id : Nat) (r : NetdevTx) : Core B :=
  c.mapLog d fun l => { l with returned := l.returned ++ [(id, r)] }

abbrev Core.settle (d : Dev) (pkt : PktRef) (f : Fate) : Core B :=
  c.mapLog d fun l => { l with settled := l.settled ++ [((c.shared.packet pkt).frame, f)] }

/-- ldd_get_tx_buffer. -/
def lddGetTxBuffer (d : Dev) : Option PktRef × Core B :=
  match ops.takePool c.bufs d with
  | (none, _) => (none, c)
  | (some pkt, bufs) =>
    let c := { c with bufs := bufs }
    (some pkt,
      if ops.poolEmpty bufs d = true then c.mapNetdev d fun n => { n with txStopped := true }
      else c)

/-- ldd_release_buffer: the locked section, and whether netif_wake_queue is to follow. -/
def lddReleaseBuffer (pkt : PktRef) : Core B × List Instr :=
  let d := (c.shared.packet pkt).dev
  ({ c with bufs := ops.putPool c.bufs d pkt },
    if ops.poolEmpty c.bufs d = true then [.wakeQueue d] else [])

/-- ldd_rx_enqueue: the locked section, and the call that is to follow. -/
def lddRxEnqueue (d : Dev) (pkt : PktRef) : Core B × List Instr :=
  if (c.shared.priv d).running = true then
    let queued := ({ c with bufs := ops.rxEnqueue c.bufs d pkt } : Core B).mapLog d fun l =>
      { l with queued := l.queued ++ [(c.shared.packet pkt).frame] }
    if (c.shared.priv d).rxIntEnabled = true then
      (queued.mapPriv d fun p => { p with status := p.status ||| netdevRxIntr },
        [.interrupt d .rx])
    else (queued, [])
  else (c, [.releaseBuffer pkt])

/-- ldd_rx; memory says whether dev_alloc_skb has any. -/
def lddRx (d : Dev) (pkt : PktRef) (napi memory : Bool) : Core B :=
  if memory = true then
    (c.mapNetdev d fun n =>
      { n with
        rxPackets := n.rxPackets + 1
        rxBytes := n.rxBytes + (c.shared.packet pkt).datalen }).settle d pkt
      (if napi = true then .netifReceiveSkb else .netifRx)
  else (c.mapNetdev d fun n => { n with rxDropped := n.rxDropped + 1 }).settle d pkt .noMemory

/-- ldd_ack_interrupt: the status, the finished skb, and the device after it. -/
def lddAckInterrupt (p : LddDev) : BitVec 32 × Option Skb × LddDev :=
  if isSet p.status netdevTxIntr = true then
    (p.status, p.txSkb, { p with status := 0, txSkb := none })
  else (p.status, none, { p with status := 0 })

def lddTxDone (d : Dev) (skb : Skb) : Core B :=
  (c.mapNetdev d fun n =>
    { n with txPackets := n.txPackets + 1, txBytes := n.txBytes + skb.data.length }).free d skb.id

/-- ldd_interrupt after ldd_ack_interrupt, by the handler in use. -/
def lddInterrupt (d : Dev) (status : BitVec 32) (txSkb : Option Skb) : List Instr :=
  (if isSet status netdevRxIntr = true then
    [if cfg.useNapi = true then .rxIntOff d else .rxDequeue d] else []) ++
    (txSkb.map (.txDone d)).toList

/-- What is left of a call of ldd_start_xmit when its ldd_interrupt returns. -/
def Cause.rest (d : Dev) : Cause → List Instr
  | .rx => []
  | .tx id => [.returnOk d id]

/-- One action: the state after it, and the actions it leads to. None where it waits. -/
def exec (memory : Bool) (c : Core B) : Instr → Option (Core B × List Instr)
  | .startXmit d skb =>
    if dropped skb = true then
      some (((c.mapNetdev d fun n => { n with txDropped := n.txDropped + 1 }).free d
        skb.id).returns d skb.id .ok, [])
    else some (c, [.getTxBuffer d skb])
  | .getTxBuffer d skb =>
    match lddGetTxBuffer ops c d with
    | (none, c) => some (c.returns d skb.id .busy, [])
    | (some pkt, c) => some (c, [.copyFrame d skb pkt])
  | .copyFrame d skb pkt =>
    some ({ c with shared := { c.shared with
      packet := Function.update c.shared.packet pkt (copyFrame cfg skb (c.shared.packet pkt)) } },
      [.rxEnqueue (lddPeer d) pkt, .transmitted d skb])
  | .transmitted d skb =>
    some (c.mapPriv d fun p =>
      { p with txSkb := some skb, status := p.status ||| netdevTxIntr },
      [.interrupt d (.tx skb.id)])
  | .returnOk d id => some (c.returns d id .ok, [])
  | .rxEnqueue d pkt => some (lddRxEnqueue ops c d pkt)
  | .releaseBuffer pkt => some (lddReleaseBuffer ops c pkt)
  | .wakeQueue d => some (c.mapNetdev d fun n => { n with txStopped := false }, [])
  | .interrupt d cause =>
    let (status, txSkb, p) := lddAckInterrupt (c.shared.priv d)
    some (c.mapPriv d fun _ => p, lddInterrupt cfg d status txSkb ++ cause.rest d)
  | .rxDequeue d =>
    let (pkt, bufs) := ops.rxDequeue c.bufs d
    some ({ c with bufs := bufs }, (pkt.map (.rxRegular d)).toList)
  | .rxRegular d pkt => some (lddRx c d pkt false memory, [.releaseBuffer pkt])
  | .rxIntOff d => some (c.mapPriv d fun p => { p with rxIntEnabled := false }, [.schedule d])
  | .schedule d => some (c.mapNapi d napiSchedule, [])
  | .txDone d skb => some (lddTxDone c d skb, [])
  | .poll d budget done =>
    if done < budget then
      match ops.rxDequeue c.bufs d with
      | (none, bufs) => some ({ c with bufs := bufs }, [.completeDone d])
      | (some pkt, bufs) => some ({ c with bufs := bufs }, [.rxNapi d pkt budget done])
    else some (c.mapNapi d napiRepoll, [])
  | .rxNapi d pkt budget done =>
    some (lddRx c d pkt true memory, [.releaseBuffer pkt, .poll d budget (done + 1)])
  | .completeDone d =>
    some (c.mapNapi d fun n => (napiCompleteDone n).2,
      if (napiCompleteDone (c.shared.priv d).napi).1 = true then [.lookAgain d] else [])
  | .lookAgain d =>
    let more := ops.rxWaiting c.bufs d
    some (c.mapPriv d fun p => { p with rxIntEnabled := !more },
      if more = true then [.reschedule d] else [])
  | .reschedule d => some (c.mapNapi d napiSchedule, [])
  | .napiEnable d => some (c.mapNapi d fun n => { n with sched := false }, [.openLocked d])
  | .openLocked d =>
    some (c.mapPriv d fun p => { p with running := true, rxIntEnabled := true }, [.startQueue d])
  | .startQueue d =>
    some (c.mapNetdev d fun n => { n with txStopped := false, link := .up }, [])
  | .stopLocked d =>
    some (c.mapPriv d fun p => { p with running := false, rxIntEnabled := false },
      [if cfg.useNapi = true then .napiDisable d else .drain d])
  | .napiDisable d => some (c.mapNapi d fun n => { n with disable := true }, [.napiDisableWait d])
  | .napiDisableWait d =>
    if (c.shared.priv d).napi.sched = true then none
    else some (c.mapNapi d fun n => { n with sched := true, disable := false }, [.drain d])
  | .drain d =>
    match ops.rxDequeue c.bufs d with
    | (none, bufs) =>
      some (({ c with bufs := bufs } : Core B).mapNetdev d fun n => { n with link := .down }, [])
    | (some pkt, bufs) =>
      some (({ c with bufs := bufs } : Core B).settle d pkt .stopped,
        [.releaseBuffer pkt, .drain d])

end Sections

/-! ## The system -/

inductive Call
  | startXmit (d : Dev) | open (d : Dev) | stop (d : Dev) | poll (d : Dev)
  deriving DecidableEq, Repr

abbrev Sys (B : Type) := Pool (Core B) Call Instr

/-- The kernel calls one of the driver's functions, or thread i does its next action. -/
inductive Event
  | startXmit (d : Dev) (protocol : BitVec 16) (data : List Byte)
  | open (d : Dev)
  | stop (d : Dev)
  | poll (d : Dev) (budget : Nat)
  | run (i : Nat) (memory : Bool)

section System

variable {B : Type} (ops : BufOps B) (cfg : Params)

/-- The first statement of ldd_stop, netif_stop_queue, is part of the call. A poll is
called for a context in the list, one at a time. -/
def next (s : Sys B) : Event → Option (Sys B)
  | .startXmit d protocol data =>
    some (s.spawn { s.core with
        shared := { s.core.shared with calls := s.core.shared.calls + 1 } }
      ⟨.startXmit d, [.startXmit d ⟨s.core.shared.calls, protocol, data⟩]⟩)
  | .open d =>
    some (s.spawn (s.core.mapNetdev d fun n => { n with link := .changing })
      ⟨.open d, [if cfg.useNapi = true then .napiEnable d else .openLocked d]⟩)
  | .stop d =>
    some (s.spawn (s.core.mapNetdev d fun n => { n with link := .changing, txStopped := true })
      ⟨.stop d, [.stopLocked d]⟩)
  | .poll d budget =>
    if cfg.useNapi = true ∧ (s.core.shared.priv d).napi.listed = true ∧
        s.Idle (· == .poll d) then
      some (s.spawn (s.core.mapNapi d fun n => { n with listed := false })
        ⟨.poll d, [.poll d budget 0]⟩)
    else none
  | .run i memory => s.run (exec ops cfg) i memory

def Step (s : Sys B) (e : Event) (s' : Sys B) : Prop := next ops cfg s e = some s'

/-- The kernel calls ndo_start_xmit of a device one at a time. -/
def XmitSerial (s : Sys B) : Event → Prop
  | .startXmit d _ _ => s.Idle (· == .startXmit d)
  | _ => True

/-- The kernel opens a device that is down and stops one that is up, under its rtnl lock. -/
def RtnlSerial (s : Sys B) : Event → Prop
  | .open d => (s.core.shared.netdev d).link = .down
  | .stop d => (s.core.shared.netdev d).link = .up
  | _ => True

instance (s : Sys B) : (e : Event) → Decidable (XmitSerial s e)
  | .startXmit d _ _ => inferInstanceAs (Decidable (s.Idle (· == .startXmit d)))
  | .open _ => .isTrue trivial
  | .stop _ => .isTrue trivial
  | .poll _ _ => .isTrue trivial
  | .run _ _ => .isTrue trivial

instance (s : Sys B) : (e : Event) → Decidable (RtnlSerial s e)
  | .startXmit _ _ _ => .isTrue trivial
  | .open d => inferInstanceAs (Decidable ((s.core.shared.netdev d).link = .down))
  | .stop d => inferInstanceAs (Decidable ((s.core.shared.netdev d).link = .up))
  | .poll _ _ => .isTrue trivial
  | .run _ _ => .isTrue trivial

/-- Right after m_init. -/
def initial (b : B) : Sys B :=
  { core := { bufs := b, shared := { packet := fun p => { dev := p.arr } } } }

end System

/-- The pkt_arr of a device. -/
def pktArr (cfg : Params) (d : Dev) : List PktRef := (List.range cfg.poolSize).map (PktRef.mk d)

/-- The pointers that ldd_create sets up, lines 427 to 432. -/
def lddCreate (cfg : Params) : Links where
  next p := if p.idx + 1 < cfg.poolSize then some ⟨p.arr, p.idx + 1⟩ else none
  pool d := some ⟨d, 0⟩

/-- The driver itself, over its pointers. -/
abbrev NetStep (cfg : Params) : Sys Links → Event → Sys Links → Prop := Step linkOps cfg

abbrev netInit (cfg : Params) : Sys Links := initial (lddCreate cfg)

end LinuxDeviceDriver.Drivers.Netdev.Model
