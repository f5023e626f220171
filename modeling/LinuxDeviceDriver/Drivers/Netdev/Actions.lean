/- source: examples/30_netdev/main.c, lines 33 to 359
   digest: What each action of the driver does, over the lists: one case for each way out. -/

import LinuxDeviceDriver.Drivers.Netdev.Buffers
import LinuxDeviceDriver.Lib.Transition

set_option autoImplicit false

namespace LinuxDeviceDriver.Drivers.Netdev.Actions

open Lib.Bits
open Lib.LittleEndian (Byte)
open Lib.Threads
open Model Buffers

/-- The lists after the first buffer of the pool was taken. -/
def poolTail (c : Core Lists) (d : Dev) (l : List PktRef) : Core Lists :=
  { c with bufs := { c.bufs with pool := Function.update c.bufs.pool d l } }

/-- The lists after the oldest frame was taken. -/
def rxTail (c : Core Lists) (d : Dev) (l : List PktRef) : Core Lists :=
  { c with bufs := { c.bufs with rx := Function.update c.bufs.rx d l } }

/-- A frame at the end of the receive queue. -/
def rxPut (c : Core Lists) (d : Dev) (pkt : PktRef) : Core Lists :=
  ({ c with bufs := c.bufs.rxEnqueue d pkt } : Core Lists).mapLog d fun l =>
    { l with queued := l.queued ++ [(c.shared.packet pkt).frame] }

def poolPut (c : Core Lists) (pkt : PktRef) : Core Lists :=
  { c with bufs := c.bufs.putPool (c.shared.packet pkt).dev pkt }

def writePacket (cfg : Params) (c : Core Lists) (skb : Skb) (pkt : PktRef) : Core Lists :=
  { c with shared := { c.shared with
    packet := Function.update c.shared.packet pkt (copyFrame cfg skb (c.shared.packet pkt)) } }

section Fields

variable {cfg : Params} {c : Core Lists} {d : Dev} {l : List PktRef} {pkt : PktRef} {skb : Skb}
  {napi memory : Bool} {f : Fate}

@[simp] theorem poolTail_pool : (poolTail c d l).bufs.pool = Function.update c.bufs.pool d l := rfl

@[simp] theorem poolTail_rx : (poolTail c d l).bufs.rx = c.bufs.rx := rfl

@[simp] theorem poolTail_shared : (poolTail c d l).shared = c.shared := rfl

@[simp] theorem rxTail_pool : (rxTail c d l).bufs.pool = c.bufs.pool := rfl

@[simp] theorem rxTail_rx : (rxTail c d l).bufs.rx = Function.update c.bufs.rx d l := rfl

@[simp] theorem rxTail_shared : (rxTail c d l).shared = c.shared := rfl

@[simp] theorem rxPut_pool : (rxPut c d pkt).bufs.pool = c.bufs.pool := rfl

@[simp] theorem rxPut_rx :
    (rxPut c d pkt).bufs.rx = Function.update c.bufs.rx d (c.bufs.rx d ++ [pkt]) := rfl

@[simp] theorem rxPut_packet : (rxPut c d pkt).shared.packet = c.shared.packet := rfl

@[simp] theorem rxPut_priv : (rxPut c d pkt).shared.priv = c.shared.priv := rfl

@[simp] theorem rxPut_netdev : (rxPut c d pkt).shared.netdev = c.shared.netdev := rfl

@[simp] theorem rxPut_calls : (rxPut c d pkt).shared.calls = c.shared.calls := rfl

@[simp] theorem rxPut_log : (rxPut c d pkt).shared.log = Function.update c.shared.log d
    { c.shared.log d with
      queued := (c.shared.log d).queued ++ [(c.shared.packet pkt).frame] } := rfl

@[simp] theorem poolPut_pool : (poolPut c pkt).bufs.pool = Function.update c.bufs.pool
    (c.shared.packet pkt).dev (pkt :: c.bufs.pool (c.shared.packet pkt).dev) := rfl

@[simp] theorem poolPut_rx : (poolPut c pkt).bufs.rx = c.bufs.rx := rfl

@[simp] theorem poolPut_shared : (poolPut c pkt).shared = c.shared := rfl

@[simp] theorem writePacket_bufs : (writePacket cfg c skb pkt).bufs = c.bufs := rfl

@[simp] theorem writePacket_packet : (writePacket cfg c skb pkt).shared.packet =
    Function.update c.shared.packet pkt (copyFrame cfg skb (c.shared.packet pkt)) := rfl

@[simp] theorem writePacket_priv : (writePacket cfg c skb pkt).shared.priv = c.shared.priv := rfl

@[simp] theorem writePacket_netdev :
    (writePacket cfg c skb pkt).shared.netdev = c.shared.netdev := rfl

@[simp] theorem writePacket_log : (writePacket cfg c skb pkt).shared.log = c.shared.log := rfl

@[simp] theorem writePacket_calls : (writePacket cfg c skb pkt).shared.calls = c.shared.calls := rfl

@[simp] theorem lddRx_bufs : (lddRx c d pkt napi memory).bufs = c.bufs := by
  cases memory <;> rfl

@[simp] theorem lddRx_packet : (lddRx c d pkt napi memory).shared.packet = c.shared.packet := by
  cases memory <;> rfl

@[simp] theorem lddRx_priv : (lddRx c d pkt napi memory).shared.priv = c.shared.priv := by
  cases memory <;> rfl

@[simp] theorem lddRx_calls : (lddRx c d pkt napi memory).shared.calls = c.shared.calls := by
  cases memory <;> rfl

@[simp] theorem lddTxDone_bufs : (lddTxDone c d skb).bufs = c.bufs := rfl

@[simp] theorem lddTxDone_packet : (lddTxDone c d skb).shared.packet = c.shared.packet := rfl

@[simp] theorem lddTxDone_priv : (lddTxDone c d skb).shared.priv = c.shared.priv := rfl

@[simp] theorem lddTxDone_calls : (lddTxDone c d skb).shared.calls = c.shared.calls := rfl

@[simp] theorem lddTxDone_netdev : (lddTxDone c d skb).shared.netdev =
    (c.mapNetdev d fun n =>
      { n with
        txPackets := n.txPackets + 1
        txBytes := n.txBytes + skb.data.length }).shared.netdev := rfl

@[simp] theorem lddTxDone_log : (lddTxDone c d skb).shared.log = Function.update c.shared.log d
    { c.shared.log d with freed := (c.shared.log d).freed ++ [skb.id] } := rfl

/-- What became of a frame for which there was memory or not. -/
def rxFate (napi memory : Bool) : Fate :=
  if memory = true then (if napi = true then .netifReceiveSkb else .netifRx) else .noMemory

@[simp] theorem lddRx_log : (lddRx c d pkt napi memory).shared.log = Function.update c.shared.log d
    { c.shared.log d with
      settled := (c.shared.log d).settled ++
        [((c.shared.packet pkt).frame, rxFate napi memory)] } := by
  cases memory <;> rfl

/-- Receiving leaves the transmit side of the statistics and the queue alone. -/
theorem lddRx_netdev (d' : Dev) :
    let n := c.shared.netdev d'
    let n' := (lddRx c d pkt napi memory).shared.netdev d'
    n'.link = n.link ∧ n'.txStopped = n.txStopped ∧ n'.txPackets = n.txPackets ∧
      n'.txDropped = n.txDropped := by
  by_cases hd : d' = d
  · subst hd
    cases memory <;> simp [lddRx, Core.settle]
  · cases memory <;> simp [lddRx, Core.settle, Function.update_of_ne hd]

end Fields

theorem mem_lddInterrupt {cfg : Params} {d : Dev} {status : BitVec 32} {txSkb : Option Skb}
    {cause : Cause} {b : Instr} (h : b ∈ lddInterrupt cfg d status txSkb ++ cause.rest d) :
    (isSet status netdevRxIntr = true ∧ cfg.useNapi = true ∧ b = .rxIntOff d) ∨
      (isSet status netdevRxIntr = true ∧ cfg.useNapi = false ∧ b = .rxDequeue d) ∨
      (∃ skb, txSkb = some skb ∧ b = .txDone d skb) ∨
      (∃ id, cause = .tx id ∧ b = .returnOk d id) := by
  rw [List.mem_append, lddInterrupt, List.mem_append] at h
  rcases h with (hrx | htx) | hrest
  · split at hrx
    · next hset =>
      rw [List.mem_singleton] at hrx
      cases hn : cfg.useNapi with
      | true =>
        rw [hn, if_pos rfl] at hrx
        exact .inl ⟨hset, rfl, hrx⟩
      | false =>
        rw [hn] at hrx
        exact .inr (.inl ⟨hset, rfl, hrx⟩)
    · cases hrx
  · cases txSkb with
    | none => cases htx
    | some skb => exact .inr (.inr (.inl ⟨skb, rfl, List.mem_singleton.mp htx⟩))
  · cases cause with
    | rx => cases hrest
    | tx id => exact .inr (.inr (.inr ⟨id, rfl, List.mem_singleton.mp hrest⟩))

theorem cnt_lddInterrupt {p : Instr → Bool} (cfg : Params) (d : Dev) (status : BitVec 32)
    (txSkb : Option Skb) (cause : Cause) (hoff : p (.rxIntOff d) = false)
    (hdeq : p (.rxDequeue d) = false) :
    cnt p ((lddInterrupt cfg d status txSkb ++ cause.rest d : List Instr) : Multiset Instr) =
      (txSkb.elim 0 fun skb => (p (.txDone d skb)).toNat) +
        cnt p ((cause.rest d : List Instr) : Multiset Instr) := by
  have hrx : p (if cfg.useNapi = true then .rxIntOff d else .rxDequeue d) = false := by
    split
    · exact hoff
    · exact hdeq
  rw [cnt_coe_append, lddInterrupt, cnt_coe_append]
  congr 1
  cases txSkb <;> split <;> simp [hrx]

/-- The ways an action can go. -/
inductive Act (cfg : Params) (c : Core Lists) : Instr → Core Lists → List Instr → Prop
  | drop (d : Dev) (skb : Skb) (h : dropped skb = true) :
      Act cfg c (.startXmit d skb)
        (((c.mapNetdev d fun n => { n with txDropped := n.txDropped + 1 }).free d skb.id).returns
          d skb.id .ok) []
  | accept (d : Dev) (skb : Skb) (h : dropped skb = false) :
      Act cfg c (.startXmit d skb) c [.getTxBuffer d skb]
  | busy (d : Dev) (skb : Skb) (h : c.bufs.pool d = []) :
      Act cfg c (.getTxBuffer d skb) (c.returns d skb.id .busy) []
  | takeLast (d : Dev) (skb : Skb) (pkt : PktRef) (h : c.bufs.pool d = [pkt]) :
      Act cfg c (.getTxBuffer d skb)
        ((poolTail c d []).mapNetdev d fun n => { n with txStopped := true })
        [.copyFrame d skb pkt]
  | take (d : Dev) (skb : Skb) (pkt : PktRef) (l : List PktRef) (h : c.bufs.pool d = pkt :: l)
      (hl : l ≠ []) : Act cfg c (.getTxBuffer d skb) (poolTail c d l) [.copyFrame d skb pkt]
  | copy (d : Dev) (skb : Skb) (pkt : PktRef) :
      Act cfg c (.copyFrame d skb pkt) (writePacket cfg c skb pkt)
        [.rxEnqueue (lddPeer d) pkt, .transmitted d skb]
  | transmitted (d : Dev) (skb : Skb) :
      Act cfg c (.transmitted d skb)
        (c.mapPriv d fun p => { p with txSkb := some skb, status := p.status ||| netdevTxIntr })
        [.interrupt d (.tx skb.id)]
  | returnOk (d : Dev) (id : Nat) : Act cfg c (.returnOk d id) (c.returns d id .ok) []
  | lost (d : Dev) (pkt : PktRef) (h : (c.shared.priv d).running = false) :
      Act cfg c (.rxEnqueue d pkt) c [.releaseBuffer pkt]
  | queue (d : Dev) (pkt : PktRef) (h : (c.shared.priv d).running = true)
      (hint : (c.shared.priv d).rxIntEnabled = true) :
      Act cfg c (.rxEnqueue d pkt)
        ((rxPut c d pkt).mapPriv d fun p => { p with status := p.status ||| netdevRxIntr })
        [.interrupt d .rx]
  | queueQuiet (d : Dev) (pkt : PktRef) (h : (c.shared.priv d).running = true)
      (hint : (c.shared.priv d).rxIntEnabled = false) :
      Act cfg c (.rxEnqueue d pkt) (rxPut c d pkt) []
  | release (pkt : PktRef) (h : c.bufs.pool (c.shared.packet pkt).dev ≠ []) :
      Act cfg c (.releaseBuffer pkt) (poolPut c pkt) []
  | releaseFirst (pkt : PktRef) (h : c.bufs.pool (c.shared.packet pkt).dev = []) :
      Act cfg c (.releaseBuffer pkt) (poolPut c pkt) [.wakeQueue (c.shared.packet pkt).dev]
  | wake (d : Dev) :
      Act cfg c (.wakeQueue d) (c.mapNetdev d fun n => { n with txStopped := false }) []
  | interrupt (d : Dev) (cause : Cause) :
      Act cfg c (.interrupt d cause)
        (c.mapPriv d fun p => (lddAckInterrupt p).2.2)
        (lddInterrupt cfg d (c.shared.priv d).status (lddAckInterrupt (c.shared.priv d)).2.1 ++
          cause.rest d)
  | rxNone (d : Dev) (h : c.bufs.rx d = []) : Act cfg c (.rxDequeue d) c []
  | rxSome (d : Dev) (pkt : PktRef) (l : List PktRef) (h : c.bufs.rx d = pkt :: l) :
      Act cfg c (.rxDequeue d) (rxTail c d l) [.rxRegular d pkt]
  | rxRegular (d : Dev) (pkt : PktRef) (memory : Bool) :
      Act cfg c (.rxRegular d pkt) (lddRx c d pkt false memory) [.releaseBuffer pkt]
  | rxIntOff (d : Dev) :
      Act cfg c (.rxIntOff d) (c.mapPriv d fun p => { p with rxIntEnabled := false }) [.schedule d]
  | schedule (d : Dev) : Act cfg c (.schedule d) (c.mapNapi d napiSchedule) []
  | txDone (d : Dev) (skb : Skb) : Act cfg c (.txDone d skb) (lddTxDone c d skb) []
  | pollSpent (d : Dev) (budget done : Nat) (h : budget ≤ done) :
      Act cfg c (.poll d budget done) (c.mapNapi d napiRepoll) []
  | pollNone (d : Dev) (budget done : Nat) (h : c.bufs.rx d = []) :
      Act cfg c (.poll d budget done) c [.completeDone d]
  | pollSome (d : Dev) (budget done : Nat) (pkt : PktRef) (l : List PktRef)
      (h : c.bufs.rx d = pkt :: l) :
      Act cfg c (.poll d budget done) (rxTail c d l) [.rxNapi d pkt budget done]
  | rxNapi (d : Dev) (pkt : PktRef) (budget done : Nat) (memory : Bool) :
      Act cfg c (.rxNapi d pkt budget done) (lddRx c d pkt true memory)
        [.releaseBuffer pkt, .poll d budget (done + 1)]
  | completeMissed (d : Dev) (h : (c.shared.priv d).napi.missed = true) :
      Act cfg c (.completeDone d)
        (c.mapNapi d fun n => { n with missed := false, listed := true }) []
  | complete (d : Dev) (h : (c.shared.priv d).napi.missed = false) :
      Act cfg c (.completeDone d) (c.mapNapi d fun n => { n with sched := false }) [.lookAgain d]
  | lookMore (d : Dev) (h : c.bufs.rx d ≠ []) :
      Act cfg c (.lookAgain d) (c.mapPriv d fun p => { p with rxIntEnabled := false })
        [.reschedule d]
  | lookNone (d : Dev) (h : c.bufs.rx d = []) :
      Act cfg c (.lookAgain d) (c.mapPriv d fun p => { p with rxIntEnabled := true }) []
  | reschedule (d : Dev) : Act cfg c (.reschedule d) (c.mapNapi d napiSchedule) []
  | napiEnable (d : Dev) :
      Act cfg c (.napiEnable d) (c.mapNapi d fun n => { n with sched := false }) [.openLocked d]
  | openLocked (d : Dev) :
      Act cfg c (.openLocked d)
        (c.mapPriv d fun p => { p with running := true, rxIntEnabled := true }) [.startQueue d]
  | startQueue (d : Dev) :
      Act cfg c (.startQueue d)
        (c.mapNetdev d fun n => { n with txStopped := false, link := .up }) []
  | stopLocked (d : Dev) :
      Act cfg c (.stopLocked d)
        (c.mapPriv d fun p => { p with running := false, rxIntEnabled := false })
        [if cfg.useNapi = true then .napiDisable d else .drain d]
  | napiDisable (d : Dev) :
      Act cfg c (.napiDisable d) (c.mapNapi d fun n => { n with disable := true })
        [.napiDisableWait d]
  | napiDisabled (d : Dev) (h : (c.shared.priv d).napi.sched = false) :
      Act cfg c (.napiDisableWait d) (c.mapNapi d fun n => { n with sched := true, disable := false })
        [.drain d]
  | drainNone (d : Dev) (h : c.bufs.rx d = []) :
      Act cfg c (.drain d) (c.mapNetdev d fun n => { n with link := .down }) []
  | drainSome (d : Dev) (pkt : PktRef) (l : List PktRef) (h : c.bufs.rx d = pkt :: l) :
      Act cfg c (.drain d) ((rxTail c d l).settle d pkt .stopped) [.releaseBuffer pkt, .drain d]

variable {cfg : Params} {memory : Bool} {c c' : Core Lists} {a : Instr} {pushed : List Instr}

private theorem getTxBuffer_act {d : Dev} {skb : Skb}
    (h : exec listOps cfg memory c (.getTxBuffer d skb) = some (c', pushed)) :
    Act cfg c (.getTxBuffer d skb) c' pushed := by
  simp only [exec, lddGetTxBuffer, listOps] at h
  rcases takePool_cases c.bufs d with ⟨hb, ht⟩ | ⟨pkt, l, hb, ht⟩
  · rw [ht] at h
    cases h
    exact .busy d skb hb
  · rw [ht] at h
    simp only [Function.update_self] at h
    cases l with
    | nil =>
      cases h
      exact .takeLast d skb pkt hb
    | cons q l =>
      cases h
      exact .take d skb pkt (q :: l) hb (List.cons_ne_nil q l)

private theorem rxEnqueue_act {d : Dev} {pkt : PktRef}
    (h : exec listOps cfg memory c (.rxEnqueue d pkt) = some (c', pushed)) :
    Act cfg c (.rxEnqueue d pkt) c' pushed := by
  simp only [exec, lddRxEnqueue] at h
  split at h
  · next hrun =>
    split at h
    · next hint =>
      cases h
      exact .queue d pkt hrun hint
    · next hint =>
      cases h
      exact .queueQuiet d pkt hrun (Bool.not_eq_true _ ▸ hint)
  · next hrun =>
    cases h
    exact .lost d pkt (Bool.not_eq_true _ ▸ hrun)

private theorem releaseBuffer_act {pkt : PktRef}
    (h : exec listOps cfg memory c (.releaseBuffer pkt) = some (c', pushed)) :
    Act cfg c (.releaseBuffer pkt) c' pushed := by
  simp only [exec, lddReleaseBuffer, listOps, List.isEmpty_iff] at h
  cases h
  split
  · next hempty => exact .releaseFirst pkt hempty
  · next hempty => exact .release pkt hempty

private theorem poll_act {d : Dev} {budget done : Nat}
    (h : exec listOps cfg memory c (.poll d budget done) = some (c', pushed)) :
    Act cfg c (.poll d budget done) c' pushed := by
  simp only [exec, listOps] at h
  split at h
  · rcases rxDequeue_cases c.bufs d with ⟨hb, ht⟩ | ⟨pkt, l, hb, ht⟩
    · rw [ht] at h
      cases h
      exact .pollNone d budget done hb
    · rw [ht] at h
      cases h
      exact .pollSome d budget done pkt l hb
  · next hspent =>
    cases h
    exact .pollSpent d budget done (Nat.not_lt.mp hspent)

private theorem completeDone_act {d : Dev}
    (h : exec listOps cfg memory c (.completeDone d) = some (c', pushed)) :
    Act cfg c (.completeDone d) c' pushed := by
  simp only [exec, napiCompleteDone] at h
  cases hm : (c.shared.priv d).napi.missed with
  | true =>
    have hact : Act cfg c _ _ _ := .completeMissed d hm
    simp only [Core.mapNapi, Core.mapPriv, hm, if_true] at h hact
    cases h
    exact hact
  | false =>
    have hact : Act cfg c _ _ _ := .complete d hm
    simp only [Core.mapNapi, Core.mapPriv, hm, Bool.false_eq_true, if_false] at h hact
    cases h
    exact hact

private theorem lookAgain_act {d : Dev}
    (h : exec listOps cfg memory c (.lookAgain d) = some (c', pushed)) :
    Act cfg c (.lookAgain d) c' pushed := by
  cases hb : c.bufs.rx d with
  | nil =>
    have hwait : listOps.rxWaiting c.bufs d = false := by simp [listOps, hb]
    simp only [exec, hwait] at h
    cases h
    exact .lookNone d hb
  | cons pkt l =>
    have hwait : listOps.rxWaiting c.bufs d = true := by simp [listOps, hb]
    simp only [exec, hwait] at h
    cases h
    exact .lookMore d (hb ▸ List.cons_ne_nil pkt l)

private theorem drain_act {d : Dev}
    (h : exec listOps cfg memory c (.drain d) = some (c', pushed)) :
    Act cfg c (.drain d) c' pushed := by
  simp only [exec, listOps] at h
  rcases rxDequeue_cases c.bufs d with ⟨hb, ht⟩ | ⟨pkt, l, hb, ht⟩
  · rw [ht] at h
    cases h
    exact .drainNone d hb
  · rw [ht] at h
    cases h
    exact .drainSome d pkt l hb

private theorem interrupt_act {d : Dev} {cause : Cause}
    (h : exec listOps cfg memory c (.interrupt d cause) = some (c', pushed)) :
    Act cfg c (.interrupt d cause) c' pushed := by
  have hstatus : (lddAckInterrupt (c.shared.priv d)).1 = (c.shared.priv d).status := by
    unfold lddAckInterrupt
    split <;> rfl
  have hact : Act cfg c _ _ _ := .interrupt d cause
  rw [← hstatus] at hact
  obtain ⟨rfl, rfl⟩ := Prod.mk.inj (Option.some.inj h)
  exact hact

theorem exec_act (h : exec listOps cfg memory c a = some (c', pushed)) : Act cfg c a c' pushed := by
  cases a with
  | startXmit d skb =>
    simp only [exec] at h
    split at h
    · next hd =>
      cases h
      exact .drop d skb hd
    · next hd =>
      cases h
      exact .accept d skb (Bool.not_eq_true _ ▸ hd)
  | getTxBuffer d skb => exact getTxBuffer_act h
  | rxEnqueue d pkt => exact rxEnqueue_act h
  | releaseBuffer pkt => exact releaseBuffer_act h
  | interrupt d cause => exact interrupt_act h
  | rxDequeue d =>
    simp only [exec, listOps] at h
    rcases rxDequeue_cases c.bufs d with ⟨hb, ht⟩ | ⟨pkt, l, hb, ht⟩
    · rw [ht] at h
      cases h
      exact .rxNone d hb
    · rw [ht] at h
      cases h
      exact .rxSome d pkt l hb
  | poll d budget done => exact poll_act h
  | completeDone d => exact completeDone_act h
  | lookAgain d => exact lookAgain_act h
  | drain d => exact drain_act h
  | napiDisableWait d =>
    simp only [exec] at h
    split at h
    · cases h
    · next hs =>
      cases h
      exact .napiDisabled d (Bool.not_eq_true _ ▸ hs)
  | _ => cases h; constructor

/-- The calls that the kernel makes, and their first action. -/
inductive Start (cfg : Params) (t : Sys Lists) : Event → Core Lists → Instr → Prop
  | xmit (d : Dev) (protocol : BitVec 16) (data : List Byte) :
      Start cfg t (.startXmit d protocol data)
        { t.core with shared := { t.core.shared with calls := t.core.shared.calls + 1 } }
        (.startXmit d ⟨t.core.shared.calls, protocol, data⟩)
  | openNapi (d : Dev) (h : cfg.useNapi = true) :
      Start cfg t (.open d) (t.core.mapNetdev d fun n => { n with link := .changing })
        (.napiEnable d)
  | openRegular (d : Dev) (h : cfg.useNapi = false) :
      Start cfg t (.open d) (t.core.mapNetdev d fun n => { n with link := .changing })
        (.openLocked d)
  | stop (d : Dev) :
      Start cfg t (.stop d)
        (t.core.mapNetdev d fun n => { n with link := .changing, txStopped := true }) (.stopLocked d)
  | poll (d : Dev) (budget : Nat) (hnapi : cfg.useNapi = true)
      (hlisted : (t.core.shared.priv d).napi.listed = true) (hidle : t.Idle (· == .poll d)) :
      Start cfg t (.poll d budget) (t.core.mapNapi d fun n => { n with listed := false })
        (.poll d budget 0)

section Start

variable {t : Sys Lists} {e : Event}

theorem Start.bufs (h : Start cfg t e c a) : c.bufs = t.core.bufs := by
  cases h <;> rfl

theorem Start.packet (h : Start cfg t e c a) : c.shared.packet = t.core.shared.packet := by
  cases h <;> rfl

theorem Start.log (h : Start cfg t e c a) : c.shared.log = t.core.shared.log := by
  cases h <;> rfl

theorem Start.running (h : Start cfg t e c a) (d : Dev) :
    (c.shared.priv d).running = (t.core.shared.priv d).running := by
  cases h with
  | poll d' budget => exact mapPriv_keeps LddDev.running (by intro p; rfl) d
  | _ => rfl

end Start

theorem step_cases {t t' : Sys Lists} {e : Event} (h : Step listOps cfg t e t') :
    (∃ a, Start cfg t e t'.core a ∧ t'.pending = a ::ₘ t.pending) ∨
      ∃ a rest pushed, t.pending = a ::ₘ rest ∧ Act cfg t.core a t'.core pushed ∧
        t'.pending = (pushed : Multiset Instr) + rest ∧
        ∃ i memory, e = .run i memory ∧ t.next i = some a := by
  have hspawn : ∀ (c : Core Lists) (call : Call) (a : Instr),
      (t.spawn c ⟨call, [a]⟩).pending = a ::ₘ t.pending := by
    intro c call a
    rw [Pool.spawn_pending, Multiset.coe_singleton, Multiset.singleton_add]
  cases e with
  | startXmit d protocol data =>
    obtain rfl := Option.some.inj h
    exact .inl ⟨_, .xmit d protocol data, hspawn _ _ _⟩
  | «open» d =>
    obtain rfl := Option.some.inj h
    refine .inl ⟨_, ?_, hspawn _ _ _⟩
    split
    · next hn => exact .openNapi d hn
    · next hn => exact .openRegular d (Bool.not_eq_true _ ▸ hn)
  | stop d =>
    obtain rfl := Option.some.inj h
    exact .inl ⟨_, .stop d, hspawn _ _ _⟩
  | poll d budget =>
    obtain ⟨⟨hnapi, hlisted, hidle⟩, h⟩ := Option.ite_none_right_eq_some.mp h
    obtain rfl := Option.some.inj h
    exact .inl ⟨_, .poll d budget hnapi hlisted hidle, hspawn _ _ _⟩
  | run i memory =>
    obtain ⟨a, rest, pushed, hp, he, hp', hnext⟩ := Pool.run_pending h
    exact .inr ⟨a, rest, pushed, hp, exec_act he, hp', i, memory, rfl, hnext⟩

/-- The actions of a class that calls of ldd_start_xmit for one device begin, and no other
call does. The kernel makes these calls one at a time, so at most one such action is to
come. -/
theorem xmitSerial_step {t t' : Sys Lists} {e : Event} {d : Dev} {p : Instr → Bool}
    (hlin : Linear (exec listOps cfg) p) (hxmit : ∀ d' skb, p (.startXmit d' skb) = (d' == d))
    (henable : ∀ d', p (.napiEnable d') = false) (hopen : ∀ d', p (.openLocked d') = false)
    (hstop : ∀ d', p (.stopLocked d') = false) (hpoll : ∀ d' n, p (.poll d' n 0) = false)
    (hg : XmitSerial t e) (h : Step listOps cfg t e t') (hs : Serial p (· == .startXmit d) t) :
    Serial p (· == .startXmit d) t' := by
  -- a call that begins with no action of the class may be made at any time
  have hspawn : ∀ (c : Core Lists) (call : Call) (a : Instr), p a = false →
      (call == .startXmit d) = false → Serial p (· == .startXmit d) (t.spawn c ⟨call, [a]⟩) := by
    intro c call a ha hcall
    refine hs.spawn c _ ?_ ?_
    · simp [ha]
    · intro hk
      rw [hcall] at hk
      cases hk
  cases e with
  | startXmit d' protocol data =>
    obtain rfl := Option.some.inj h
    refine hs.spawn _ _ ?_ ?_
    · have hcall : (Call.startXmit d' == Call.startXmit d) = (d' == d) := by
        cases d <;> cases d' <;> decide
      simp [hxmit, hcall]
    · intro hk
      obtain rfl : d' = d := by simpa using hk
      exact hg
  | «open» d' =>
    obtain rfl := Option.some.inj h
    refine hspawn _ _ _ ?_ rfl
    split
    · exact henable d'
    · exact hopen d'
  | stop d' =>
    obtain rfl := Option.some.inj h
    exact hspawn _ _ _ (hstop d') rfl
  | poll d' budget =>
    obtain ⟨-, h⟩ := Option.ite_none_right_eq_some.mp h
    obtain rfl := Option.some.inj h
    exact hspawn _ _ _ (hpoll d' budget) rfl
  | run i memory => exact hs.run hlin h

/-! ## Who changes what -/

/-- Who writes status and tx_skb: the two that raise an interrupt, and the one that
acknowledges it. -/
theorem Act.status (h : Act cfg c a c' pushed) (d : Dev) :
    let p := c.shared.priv d
    let p' := c'.shared.priv d
    (p'.status = p.status ∧ p'.txSkb = p.txSkb) ∨
      (∃ skb, a = .transmitted d skb ∧ p'.status = p.status ||| netdevTxIntr ∧
        p'.txSkb = some skb) ∨
      (∃ pkt, a = .rxEnqueue d pkt ∧ p'.status = p.status ||| netdevRxIntr ∧ p'.txSkb = p.txSkb) ∨
      (∃ cause, a = .interrupt d cause ∧ p' = (lddAckInterrupt p).2.2) := by
  have hkeep : ∀ (d' : Dev) (f : LddDev → LddDev),
      (∀ p, (f p).status = p.status ∧ (f p).txSkb = p.txSkb) →
      ((c.mapPriv d' f).shared.priv d).status = (c.shared.priv d).status ∧
        ((c.mapPriv d' f).shared.priv d).txSkb = (c.shared.priv d).txSkb := fun d' f hf =>
    ⟨mapPriv_keeps LddDev.status (fun p => (hf p).1) d,
      mapPriv_keeps LddDev.txSkb (fun p => (hf p).2) d⟩
  cases h with
  | transmitted d' skb =>
    by_cases hd : d = d'
    · subst hd
      exact .inr (.inl ⟨skb, rfl, by simp, by simp⟩)
    · exact .inl (by simp [Function.update_of_ne hd])
  | queue d' pkt =>
    by_cases hd : d = d'
    · subst hd
      exact .inr (.inr (.inl ⟨pkt, rfl, by simp, by simp⟩))
    · exact .inl (by simp [Function.update_of_ne hd])
  | interrupt d' cause =>
    by_cases hd : d = d'
    · subst hd
      exact .inr (.inr (.inr ⟨cause, rfl, by simp⟩))
    · exact .inl (by simp [Function.update_of_ne hd])
  | rxRegular d' pkt memory => exact .inl (by simp)
  | rxNapi d' pkt budget done memory => exact .inl (by simp)
  | _ => first
    | exact .inl ⟨rfl, rfl⟩
    | exact .inl (hkeep _ _ fun _ => ⟨rfl, rfl⟩)

/-- The receive interrupt is raised by ldd_rx_enqueue and taken back by ldd_ack_interrupt. -/
theorem Act.rxBit (h : Act cfg c a c' pushed) (d : Dev) (henq : ∀ pkt, a ≠ .rxEnqueue d pkt)
    (hint : ∀ cause, a ≠ .interrupt d cause) :
    isSet (c'.shared.priv d).status netdevRxIntr = isSet (c.shared.priv d).status netdevRxIntr := by
  rcases h.status d with ⟨hs, -⟩ | ⟨skb, -, hs, -⟩ | ⟨pkt, ha, -⟩ | ⟨cause, ha, -⟩
  · rw [hs]
  · rw [hs, isSet_or]
    simp [isSet, netdevTxIntr, netdevRxIntr]
  · exact absurd ha (henq pkt)
  · exact absurd ha (hint cause)

/-- Who turns receive interrupts on or off. -/
def touchesInt (d : Dev) : Instr → Bool
  | .rxIntOff d' => d' == d
  | .lookAgain d' => d' == d
  | .openLocked d' => d' == d
  | .stopLocked d' => d' == d
  | _ => false

theorem Act.rxIntEnabled (h : Act cfg c a c' pushed) (d : Dev) (ht : touchesInt d a = false) :
    (c'.shared.priv d).rxIntEnabled = (c.shared.priv d).rxIntEnabled := by
  have hne : ∀ {d'}, (d' == d) = false → d ≠ d' := fun h hd => by simp [hd] at h
  cases h with
  | rxIntOff d' | lookMore d' | lookNone d' | openLocked d' | stopLocked d' =>
    simp [Function.update_of_ne (hne ht)]
  | interrupt d' cause =>
    refine mapPriv_keeps LddDev.rxIntEnabled ?_ d
    intro p
    unfold lddAckInterrupt
    split <;> rfl
  | rxRegular d' pkt memory => simp
  | rxNapi d' pkt budget done memory => simp
  | _ => first
    | rfl
    | exact mapPriv_keeps LddDev.rxIntEnabled (by intro p; rfl) d

/-- Who changes the NAPI context. -/
def touchesNapi (d : Dev) : Instr → Bool
  | .schedule d' => d' == d
  | .poll d' _ _ => d' == d
  | .completeDone d' => d' == d
  | .reschedule d' => d' == d
  | .napiEnable d' => d' == d
  | .napiDisable d' => d' == d
  | .napiDisableWait d' => d' == d
  | _ => false

theorem Act.napi (h : Act cfg c a c' pushed) (d : Dev) (ht : touchesNapi d a = false) :
    (c'.shared.priv d).napi = (c.shared.priv d).napi := by
  have hne : ∀ {d'}, (d' == d) = false → d ≠ d' := fun h hd => by simp [hd] at h
  cases h with
  | interrupt d' cause =>
    refine mapPriv_keeps LddDev.napi ?_ d
    intro p
    unfold lddAckInterrupt
    split <;> rfl
  | rxRegular d' pkt memory => simp
  | rxNapi d' pkt budget done memory => simp
  | _ => first
    | rfl
    | exact mapPriv_keeps LddDev.napi (by intro p; rfl) d
    | simp [Function.update_of_ne (hne ht)]

/-- Who reports that the device is up or down. -/
def touchesLink (d : Dev) : Instr → Bool
  | .startQueue d' => d' == d
  | .drain d' => d' == d
  | _ => false

theorem Act.link (h : Act cfg c a c' pushed) (d : Dev) (ht : touchesLink d a = false) :
    (c'.shared.netdev d).link = (c.shared.netdev d).link := by
  have hne : ∀ {d'}, (d' == d) = false → d ≠ d' := fun h hd => by simp [hd] at h
  cases h with
  | drop d' skb =>
    rw [mapLog_netdev, mapLog_netdev]
    exact mapNetdev_keeps NetDevice.link (by intro n; rfl) d
  | takeLast d' skb pkt | wake d' => exact mapNetdev_keeps NetDevice.link (by intro n; rfl) d
  | rxRegular d' pkt memory => exact (lddRx_netdev (c := c) d).1
  | rxNapi d' pkt budget done memory => exact (lddRx_netdev (c := c) d).1
  | txDone d' skb =>
    rw [lddTxDone_netdev]
    exact mapNetdev_keeps NetDevice.link (by intro n; rfl) d
  | startQueue d' => simp [Function.update_of_ne (hne ht)]
  | drainNone d' => simp [Function.update_of_ne (hne ht)]
  | _ => rfl

/-- Who may record that an skb was freed or that a call returned. -/
def recordsTx (d : Dev) : Instr → Bool
  | .startXmit d' _ => d' == d
  | .getTxBuffer d' _ => d' == d
  | .returnOk d' _ => d' == d
  | .txDone d' _ => d' == d
  | _ => false

theorem Act.txLog (h : Act cfg c a c' pushed) (d : Dev) (ht : recordsTx d a = false) :
    (c'.shared.log d).freed = (c.shared.log d).freed ∧
      (c'.shared.log d).returned = (c.shared.log d).returned := by
  have hne : ∀ {d'}, (d' == d) = false → d ≠ d' := fun h hd => by simp [hd] at h
  have hkeep : ∀ (d' : Dev) (f : DevLog → DevLog),
      (∀ l, (f l).freed = l.freed ∧ (f l).returned = l.returned) →
      (Function.update c.shared.log d' (f (c.shared.log d')) d).freed = (c.shared.log d).freed ∧
        (Function.update c.shared.log d' (f (c.shared.log d')) d).returned =
          (c.shared.log d).returned := by
    intro d' f hf
    by_cases hd : d = d'
    · subst hd
      simpa using hf (c.shared.log d)
    · simp [Function.update_of_ne hd]
  cases h with
  | drop d' skb | busy d' skb | returnOk d' id | txDone d' skb =>
    simp [Function.update_of_ne (hne ht)]
  | queue d' pkt | queueQuiet d' pkt =>
    exact hkeep d' (fun l => { l with queued := l.queued ++ [(c.shared.packet pkt).frame] })
      fun _ => ⟨rfl, rfl⟩
  | rxRegular d' pkt memory | rxNapi d' pkt budget done memory =>
    rw [lddRx_log]
    exact hkeep d' (fun l => { l with settled := l.settled ++ [((c.shared.packet pkt).frame, _)] })
      fun _ => ⟨rfl, rfl⟩
  | drainSome d' pkt l =>
    exact hkeep d' (fun l => { l with settled := l.settled ++ [((c.shared.packet pkt).frame, _)] })
      fun _ => ⟨rfl, rfl⟩
  | _ => exact ⟨rfl, rfl⟩

/-- Who takes frames out of a receive queue or puts them in. -/
def touchesRx (d : Dev) : Instr → Bool
  | .rxEnqueue d' _ => d' == d
  | .rxDequeue d' => d' == d
  | .poll d' _ _ => d' == d
  | .drain d' => d' == d
  | _ => false

/-- Who may record that a frame was queued or what became of it. -/
def recordsRx (d : Dev) : Instr → Bool
  | .rxEnqueue d' _ => d' == d
  | .rxRegular d' _ => d' == d
  | .rxNapi d' _ _ _ => d' == d
  | .drain d' => d' == d
  | _ => false

section Frame

variable (h : Act cfg c a c' pushed) (d : Dev)

include h

theorem Act.running : (c'.shared.priv d).running =
    if a = .openLocked d then true else if a = .stopLocked d then false
    else (c.shared.priv d).running := by
  cases h with
  | openLocked d' | stopLocked d' =>
    by_cases hd : d = d'
    · subst hd
      simp
    · simp [Function.update_of_ne hd, Ne.symm hd]
  | interrupt d' cause =>
    refine mapPriv_keeps LddDev.running ?_ d
    intro p
    unfold lddAckInterrupt
    split <;> rfl
  | rxRegular d' pkt memory => simp
  | rxNapi d' pkt budget done memory => simp
  | _ => first
    | rfl
    | exact mapPriv_keeps LddDev.running (by intro p; rfl) d

theorem Act.rx (ht : touchesRx d a = false) : c'.bufs.rx d = c.bufs.rx d := by
  have hne : ∀ {d'}, (d' == d) = false → d ≠ d' := fun h hd => by simp [hd] at h
  cases h with
  | queue d' pkt | queueQuiet d' pkt | rxSome d' pkt l | pollSome d' budget done pkt l
  | drainSome d' pkt l => exact Function.update_of_ne (hne ht) _ _
  | rxRegular d' pkt memory => simp
  | rxNapi d' pkt budget done memory => simp
  | _ => rfl

theorem Act.rxLog (ht : recordsRx d a = false) :
    (c'.shared.log d).queued = (c.shared.log d).queued ∧
      (c'.shared.log d).settled = (c.shared.log d).settled := by
  have hne : ∀ {d'}, (d' == d) = false → d ≠ d' := fun h hd => by simp [hd] at h
  have hkeep : ∀ (d' : Dev) (l : DevLog), l.queued = (c.shared.log d').queued →
      l.settled = (c.shared.log d').settled →
      (Function.update c.shared.log d' l d).queued = (c.shared.log d).queued ∧
        (Function.update c.shared.log d' l d).settled = (c.shared.log d).settled := by
    intro d' l hq hs
    by_cases hd : d = d'
    · subst hd
      simpa using ⟨hq, hs⟩
    · simp [Function.update_of_ne hd]
  cases h with
  | drop d' skb =>
    simp only [mapLog_log, mapNetdev_log, Function.update_self, Function.update_idem]
    exact hkeep d' _ rfl rfl
  | busy d' skb | returnOk d' id | txDone d' skb => exact hkeep d' _ rfl rfl
  | queue d' pkt | queueQuiet d' pkt | rxRegular d' pkt memory
  | rxNapi d' pkt budget done memory | drainSome d' pkt l => simp [Function.update_of_ne (hne ht)]
  | _ => exact ⟨rfl, rfl⟩

omit d in
theorem Act.calls : c'.shared.calls = c.shared.calls := by
  cases h with
  | rxRegular d' pkt memory => simp
  | rxNapi d' pkt budget done memory => simp
  | _ => rfl

omit d in
theorem Act.packet (hcopy : ∀ d skb pkt, a ≠ .copyFrame d skb pkt) :
    c'.shared.packet = c.shared.packet := by
  cases h with
  | copy d' skb pkt => exact absurd rfl (hcopy d' skb pkt)
  | rxRegular d' pkt memory => simp
  | rxNapi d' pkt budget done memory => simp
  | _ => rfl

end Frame

end LinuxDeviceDriver.Drivers.Netdev.Actions
