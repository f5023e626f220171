/- source: examples/28_dma_sg/main.c, lines 36 to 80 and 163 to 177;
     examples/27_dma/main.c, lines 40 to 125; tools/qemu/hw/ldd/pcie.c, lines 243 to 277
   digest: The driver, its interrupt handler and the device, access by access: each call
     gets the outcome of its own transfer and leaves the device quiet. -/

import LinuxDeviceDriver.Drivers.DmaSg
import LinuxDeviceDriver.Lib.Transition

set_option autoImplicit false

namespace LinuxDeviceDriver.Drivers.CompletionProtocol

open Lib.Transition
open Qemu.Pcie
open State Transfer TransferOutcome Registers Interrupts Engine CharFile DmaHost DmaProbe

/-- One call of dma_sg_run, or of dma_xfer from its register writes on. -/
structure Program where
  descBus : BitVec 64
  nents : Nat
  pos : Nat
  dir : DmaDataDirection
  xor : BitVec 32

def Program.writes (p : Program) : List (Reg × BitVec 32) :=
  programWrites p.descBus p.nents p.pos p.dir p.xor

/-- What the thread that holds the lock does next. -/
inductive DriverPc
  | idle
  /-- The register writes that are left, and then reinit_completion(). -/
  | program (todo : List (Reg × BitVec 32)) (dir : DmaDataDirection)
  | start (dir : DmaDataDirection)
  /-- In wait_for_completion_timeout(), for the transfer of this number. -/
  | wait (own : Nat)
  | reset (own : Nat)
  | synchronize (own : Nat)
  | unmask (own : Nat)
  | check (own : Nat)
  /-- The registers that the error message still has to read. -/
  | report (todo : List Reg) (own : Nat)
  | returning (ret : Int) (own : Nat)
  deriving DecidableEq, Repr

/-- What the interrupt handler does next. -/
inductive HandlerPc
  | idle
  | entered
  | clear (status : BitVec 32)
  | publish (status : BitVec 32)
  | complete
  deriving DecidableEq, Repr

/-- The device with the ledger of its transfers, the fields dma_done and
int_status of the driver's structure, and the two flows of control. -/
structure Sys where
  machine : Machine
  ledger : Ledger := {}
  dmaDone : Nat := 0
  intStatus : BitVec 32 := 0
  driver : DriverPc := .idle
  handler : HandlerPc := .idle

def Sys.device (s : Sys) (e : DevEvent) : Sys :=
  { s with machine := devStep s.machine e, ledger := record s.ledger s.machine e }

def Sys.iowrite32 (s : Sys) (reg : Reg) (val : BitVec 32) : Sys :=
  s.device (.write (lddReg reg) val)

/-- The next action of the driver, if it is not blocked. reports are the
registers that the message about a failed transfer reads. -/
def driverStep (reports : List Reg) (s : Sys) : Option Sys :=
  match s.driver with
  | .idle => none
  | .program ((reg, val) :: todo) dir =>
    some { s.iowrite32 reg val with driver := .program todo dir }
  | .program [] dir => some { s with dmaDone := 0, driver := .start dir }
  | .start dir =>
    -- an accepted START gets the next number of the ledger
    some { s.iowrite32 .dmaCtrl (startCtrl dir) with driver := .wait s.ledger.started.length }
  | .wait own =>
    if s.dmaDone = 0 then none else some { s with dmaDone := s.dmaDone - 1, driver := .check own }
  | .reset own => some { s.iowrite32 .ctrl lddCtrlReset with driver := .synchronize own }
  | .synchronize own => if s.handler = .idle then some { s with driver := .unmask own } else none
  | .unmask own =>
    some { s.iowrite32 .intMask dmaEvents with driver := .returning (-etimedout) own }
  | .check own =>
    if anySet s.intStatus lddIntDmaError = true then some { s with driver := .report reports own }
    else some { s with driver := .returning 0 own }
  | .report (_ :: todo) own => some { s with driver := .report todo own }
  | .report [] own => some { s with driver := .returning (-eio) own }
  | .returning _ _ => some { s with driver := .idle }

/-- The next action of a handler that has been entered. -/
def handlerStep (s : Sys) : Option Sys :=
  match s.handler with
  | .idle => none
  | .entered =>
    let status := ioread32 s.machine .intStatus &&& dmaEvents
    if status = 0 then some { s with handler := .idle }
    else some { s with handler := .clear status }
  | .clear status => some { s.iowrite32 .intStatus status with handler := .publish status }
  | .publish status => some { s with intStatus := status, handler := .complete }
  | .complete => some { s with dmaDone := s.dmaDone + 1, handler := .idle }

/-- A call is made; the driver acts; its wait runs out; the handler is entered,
for a message, for the line, late or for nothing; the handler acts; the timer of
the device expires; memory and bus change. -/
inductive Event
  | call (p : Program)
  | driver
  | timeout
  | interrupt
  | handler
  | expire
  | env (bus : DmaBus) (guest : Memory)

def next (reports : List Reg) (s : Sys) : Event → Option Sys
  | .call p => if s.driver = .idle then some { s with driver := .program p.writes p.dir } else none
  | .driver => driverStep reports s
  | .timeout =>
    match s.driver with
    | .wait own => if s.dmaDone = 0 then some { s with driver := .reset own } else none
    | _ => none
  | .interrupt => if s.handler = .idle then some { s with handler := .entered } else none
  | .handler => handlerStep s
  | .expire => some (s.device .expire)
  | .env bus guest => some (s.device (.env bus guest))

def Step (reports : List Reg) (s : Sys) (e : Event) (s' : Sys) : Prop := next reports s e = some s'

/-! ## What the accesses do to the device -/


/-- A write to this register neither moves the engine nor touches INT_STATUS. -/
def Passive (reg : Reg) : Prop :=
  reg ≠ .dmaCtrl ∧ reg ≠ .ctrl ∧ reg ≠ .intStatus ∧ reg ≠ .intRaise

theorem passive_writes (p : Program) : ∀ w ∈ p.writes, Passive w.1 := by
  intro w hw
  have hreg : w.1 ∈ [Reg.descAddrLo, .descAddrHi, .descCount, .devOffset, .xor] := by
    obtain ⟨descBus, nents, pos, dir, xor⟩ := p
    have hmem := List.mem_map_of_mem (f := Prod.fst) hw
    cases dir with
    | toDevice => exact List.mem_append_left [Reg.xor] hmem
    | fromDevice => exact hmem
  have hpassive : ∀ reg ∈ [Reg.descAddrLo, .descAddrHi, .descCount, .devOffset, .xor],
      Passive reg := by simp [Passive]
  exact hpassive w.1 hreg

theorem passive_ledger {reg : Reg} (hp : Passive reg) (s : Sys) (val : BitVec 32) :
    (s.iowrite32 reg val).ledger = s.ledger := by
  have hs : isStart (.write (lddReg reg) val) = false := by simp [isStart, hp.1]
  have hr : isReset (.write (lddReg reg) val) = false := by simp [isReset, hp.2.1]
  show record s.ledger s.machine (.write (lddReg reg) val) = s.ledger
  simp [record, accepted, completes, isExpire, hs, hr]

theorem passive_engine {reg : Reg} (hp : Passive reg) (s : Sys) (val : BitVec 32) :
    let ps := (s.iowrite32 reg val).machine.ps
    ps.timer = s.machine.ps.timer ∧ ps.regs.status = s.machine.ps.regs.status ∧
      ps.regs.intStatus = s.machine.ps.regs.intStatus := by
  intro ps
  obtain ⟨hd, hc, hi, hr⟩ := hp
  simp only [ps, Sys.iowrite32, Sys.device, devStep, lddPcieBar0Write, regAt_lddReg]
  cases reg with
  | dmaCtrl => exact absurd rfl hd
  | ctrl => exact absurd rfl hc
  | intStatus => exact absurd rfl hi
  | intRaise => exact absurd rfl hr
  | descAddrLo | descAddrHi | descCount | devOffset =>
    dsimp only
    split <;> exact ⟨rfl, rfl, rfl⟩
  | id | version | caps | scratch | status | intMask | maxSeg | maxDesc | xferBytes | errDesc
  | xor => exact ⟨rfl, rfl, rfl⟩

theorem passive_idle {reg : Reg} (hp : Passive reg) {s : Sys} (val : BitVec 32)
    (hi : Idle s.machine.ps) : Idle (s.iowrite32 reg val).machine.ps := by
  obtain ⟨ht, hs, hint⟩ := passive_engine hp s val
  refine ⟨?_, ht.trans hi.disarmed, ?_⟩
  · rw [busy, hs]
    exact hi.notBusy
  · rw [hint]
    exact hi.clear

theorem clear_idle {s : Sys} (v : BitVec 32) (hi : Idle s.machine.ps) :
    Idle (s.iowrite32 .intStatus v).machine.ps := by
  refine ⟨hi.notBusy, hi.disarmed, ?_⟩
  show s.machine.ps.regs.intStatus &&& ~~~v &&& dmaEvents = 0
  rw [masked_clear, hi.clear]
  exact BitVec.zero_and

theorem expire_disarmed {s : Sys} (ht : s.machine.ps.timer = false) : s.device .expire = s := by
  have hm : devStep s.machine .expire = s.machine := by
    have he : timerExpire s.machine.ps = s.machine.ps := by simp [timerExpire, ht]
    rw [devStep, he]
    rfl
  have hl : record s.ledger s.machine .expire = s.ledger := by
    simp [record, accepted, isStart, isReset, completes, ht]
  rw [Sys.device, hm, hl]

/-! ## The invariant -/

/-- The handler has not taken a completion from the device. -/
def Unheld : HandlerPc → Prop
  | .idle | .entered => True
  | .clear _ | .publish _ | .complete => False

structure Quiet (s : Sys) : Prop where
  idle : Idle s.machine.ps
  unheld : Unheld s.handler

/-- The transfer of this number has completed, with this ERR_CODE. -/
def Reported (l : Ledger) (own : Nat) (code : BitVec 32) : Prop :=
  ∃ c ∈ l.completed, c.transfer = some own ∧ c.status = statusOf code

/-- Where the completion of the driver's own transfer is: not there yet, in
INT_STATUS or about to be cleared there, with the handler, or delivered. -/
inductive Flight (s : Sys) (own : Nat) : Prop
  | running (timer : s.machine.ps.timer = true)
      (clear : s.machine.ps.regs.intStatus &&& dmaEvents = 0)
      (code_le : s.machine.ps.regs.result.toNat ≤ 5) (current : s.ledger.current = some own)
      (unheld : Unheld s.handler) (done : s.dmaDone = 0)
  | signalled (code : BitVec 32) (notBusy : busy s.machine.ps = false)
      (disarmed : s.machine.ps.timer = false)
      (raised : s.machine.ps.regs.intStatus &&& dmaEvents = intBitOf code)
      (reported : Reported s.ledger own code)
      (taking : Unheld s.handler ∨ s.handler = .clear (intBitOf code)) (done : s.dmaDone = 0)
  | publishing (code : BitVec 32) (idle : Idle s.machine.ps) (reported : Reported s.ledger own code)
      (handler : s.handler = .publish (intBitOf code)) (done : s.dmaDone = 0)
  | completing (code : BitVec 32) (idle : Idle s.machine.ps) (reported : Reported s.ledger own code)
      (handler : s.handler = .complete) (status : s.intStatus = intBitOf code)
      (done : s.dmaDone = 0)
  | finished (code : BitVec 32) (quiet : Quiet s) (reported : Reported s.ledger own code)
      (status : s.intStatus = intBitOf code) (done : s.dmaDone = 1)

/-- What a return value says about the transfer of this number. -/
def Answer (l : Ledger) (own : Nat) (ret : Int) : Prop :=
  (ret = 0 ∧ Reported l own 0) ∨ (ret = -eio ∧ ∃ code, code ≠ 0 ∧ Reported l own code) ∨
    ret = -etimedout

/-- What holds when this is what the driver does next. -/
def At : DriverPc → Sys → Prop
  | .idle, s => Quiet s
  | .program todo _, s => Quiet s ∧ ∀ w ∈ todo, Passive w.1
  | .start _, s => Quiet s ∧ s.dmaDone = 0
  | .wait own, s | .reset own, s => Flight s own
  -- the device is idle, but a late handler may still hold what it read
  | .synchronize _, s => Idle s.machine.ps
  | .unmask _, s => Quiet s
  | .check own, s => Quiet s ∧ ∃ code, s.intStatus = intBitOf code ∧ Reported s.ledger own code
  | .report _ own, s => Quiet s ∧ ∃ code, code ≠ 0 ∧ Reported s.ledger own code
  | .returning ret own, s => Quiet s ∧ Answer s.ledger own ret

def Inv (s : Sys) : Prop := At s.driver s

/-! ## Steps beside the driver's -/

/-- What the handler's next action can be. -/
inductive HandlerMove (s s' : Sys) : Prop
  | nothing (hp : s.handler = .entered) (hz : s.machine.ps.regs.intStatus &&& dmaEvents = 0)
      (after : s' = { s with handler := .idle })
  | takes (hp : s.handler = .entered) (hne : s.machine.ps.regs.intStatus &&& dmaEvents ≠ 0)
      (after : s' = { s with
        handler := .clear (s.machine.ps.regs.intStatus &&& dmaEvents) })
  | clears (st : BitVec 32) (hp : s.handler = .clear st)
      (after : s' = { s.iowrite32 .intStatus st with handler := .publish st })
  | publishes (st : BitVec 32) (hp : s.handler = .publish st)
      (after : s' = { s with intStatus := st, handler := .complete })
  | completes (hp : s.handler = .complete)
      (after : s' = { s with dmaDone := s.dmaDone + 1, handler := .idle })

theorem handlerStep_move {s s' : Sys} (h : handlerStep s = some s') : HandlerMove s s' := by
  unfold handlerStep at h
  cases hp : s.handler with
  | idle =>
    rw [hp] at h
    cases h
  | entered =>
    rw [hp] at h
    by_cases hz : s.machine.ps.regs.intStatus &&& dmaEvents = 0
    · exact .nothing hp hz (Option.some.inj ((if_pos hz).symm.trans h)).symm
    · exact .takes hp hz (Option.some.inj ((if_neg hz).symm.trans h)).symm
  | clear st =>
    rw [hp] at h
    exact .clears st hp (Option.some.inj h).symm
  | publish st =>
    rw [hp] at h
    exact .publishes st hp (Option.some.inj h).symm
  | complete =>
    rw [hp] at h
    exact .completes hp (Option.some.inj h).symm

/-- The steps of the handler, the timer and memory. -/
inductive Background (s s' : Sys) : Prop
  | interrupt (hp : s.handler = .idle) (after : s' = { s with handler := .entered })
  | handler (move : HandlerMove s s')
  | expire (after : s' = s.device .expire)
  | env (bus : DmaBus) (guest : Memory) (after : s' = s.device (.env bus guest))

/-- Nothing but the handler's entry and return happens around a quiet device. -/
theorem quiet_background {s s' : Sys} (hq : Quiet s) (h : Background s s') :
    Quiet s' ∧ s'.driver = s.driver ∧ s'.dmaDone = s.dmaDone ∧ s'.intStatus = s.intStatus ∧
      s'.ledger = s.ledger := by
  obtain ⟨hi, hu⟩ := hq
  cases h with
  | interrupt hp after =>
    subst after
    exact ⟨⟨hi, trivial⟩, rfl, rfl, rfl, rfl⟩
  | handler move =>
    cases move with
    | nothing hp hz after =>
      subst after
      exact ⟨⟨hi, trivial⟩, rfl, rfl, rfl, rfl⟩
    | takes hp hne => exact absurd hi.clear hne
    | clears st hp | publishes st hp | completes hp =>
      rw [hp] at hu
      exact hu.elim
  | expire after =>
    rw [after, expire_disarmed hi.disarmed]
    exact ⟨⟨hi, hu⟩, rfl, rfl, rfl, rfl⟩
  | env bus guest after =>
    subst after
    exact ⟨⟨hi, hu⟩, rfl, rfl, rfl, rfl⟩

/-- Whatever a late handler does, the device stays idle. -/
theorem idle_background {s s' : Sys} (hi : Idle s.machine.ps) (h : Background s s') :
    Idle s'.machine.ps ∧ s'.driver = s.driver := by
  cases h with
  | interrupt hp after =>
    subst after
    exact ⟨hi, rfl⟩
  | handler move =>
    cases move with
    | nothing hp hz after | takes hp hz after | publishes st hp after | completes hp after =>
      subst after
      exact ⟨hi, rfl⟩
    | clears st hp after =>
      subst after
      exact ⟨clear_idle st hi, rfl⟩
  | expire after =>
    rw [after, expire_disarmed hi.disarmed]
    exact ⟨hi, rfl⟩
  | env bus guest after =>
    subst after
    exact ⟨hi, rfl⟩

/-- The timer of the running transfer expires: its completion is in INT_STATUS
and in the ledger, under its own number. -/
theorem running_expires {s : Sys} {own : Nat} (timer : s.machine.ps.timer = true)
    (clear : s.machine.ps.regs.intStatus &&& dmaEvents = 0)
    (code_le : s.machine.ps.regs.result.toNat ≤ 5) (current : s.ledger.current = some own)
    (unheld : Unheld s.handler) (done : s.dmaDone = 0) : Flight (s.device .expire) own := by
  have hm : devStep s.machine .expire =
      setPs s.machine (lddPcieComplete { s.machine.ps with timer := false }) := by
    simp [devStep, timerExpire, timer]
  have hregs : (devStep s.machine .expire).ps.regs = _ :=
    (congrArg (fun m : Machine => m.ps.regs) hm).trans
      (complete_regs { s.machine.ps with timer := false })
  have hlogged : ⟨s.ledger.current, (devStep s.machine .expire).ps.regs.status,
      s.machine.ps.regs.intStatus, (devStep s.machine .expire).ps.regs.intStatus⟩ ∈
      (s.device .expire).ledger.completed := by
    simp [Sys.device, record, accepted, isStart, isReset, completes, isExpire, timer]
  refine .signalled s.machine.ps.regs.result ?_ ?_ ?_ ?_ (.inl unheld) done
  · show anySet (devStep s.machine .expire).ps.regs.status lddStatusBusy = false
    rw [hregs]
    exact (statusOf_word _ code_le).2
  · show (devStep s.machine .expire).ps.timer = false
    rw [hm]
    rfl
  · show (devStep s.machine .expire).ps.regs.intStatus &&& dmaEvents = _
    rw [hregs]
    exact masked_completion _ _ clear
  · refine ⟨_, hlogged, current, ?_⟩
    show (devStep s.machine .expire).ps.regs.status = _
    rw [hregs]

/-- The handler clears the completion it has read, and nothing is left of it in
the device. -/
theorem signalled_clears {s : Sys} {own : Nat} {code : BitVec 32}
    (notBusy : busy s.machine.ps = false) (disarmed : s.machine.ps.timer = false)
    (raised : s.machine.ps.regs.intStatus &&& dmaEvents = intBitOf code)
    (reported : Reported s.ledger own code) (done : s.dmaDone = 0) :
    Flight { s.iowrite32 .intStatus (intBitOf code) with handler := .publish (intBitOf code) }
      own := by
  refine .publishing code ⟨notBusy, disarmed, ?_⟩ reported rfl done
  show s.machine.ps.regs.intStatus &&& ~~~(intBitOf code) &&& dmaEvents = 0
  rw [masked_clear, raised]
  exact BitVec.and_not_self _

/-- The completion moves on from place to place; the handler neither loses nor
repeats it. -/
theorem flight_handler {s s' : Sys} {own : Nat} (hf : Flight s own) (h : HandlerMove s s') :
    Flight s' own ∧ s'.driver = s.driver := by
  cases hf with
  | running timer clear code_le current unheld done =>
    cases h with
    | nothing hp hz after =>
      subst after
      exact ⟨.running timer clear code_le current trivial done, rfl⟩
    | takes hp hne => exact absurd clear hne
    | clears st hp | publishes st hp | completes hp =>
      rw [hp] at unheld
      exact unheld.elim
  | signalled code notBusy disarmed raised reported taking done =>
    cases h with
    | nothing hp hz after => exact absurd (raised.symm.trans hz) (intBitOf_ne_zero code)
    | takes hp hne after =>
      rw [raised] at after
      subst after
      exact ⟨.signalled code notBusy disarmed raised reported (.inr rfl) done, rfl⟩
    | clears st hp after =>
      rw [hp] at taking
      obtain rfl := HandlerPc.clear.inj (taking.resolve_left id)
      subst after
      exact ⟨signalled_clears notBusy disarmed raised reported done, rfl⟩
    | publishes st hp | completes hp =>
      rw [hp] at taking
      exact absurd (taking.resolve_left id) (by simp)
  | publishing code idle reported handler done =>
    cases h with
    | publishes st hp after =>
      obtain rfl : st = intBitOf code := HandlerPc.publish.inj (hp.symm.trans handler)
      subst after
      exact ⟨.completing code idle reported rfl rfl done, rfl⟩
    | nothing hp | takes hp | clears st hp | completes hp =>
      rw [handler] at hp
      cases hp
  | completing code idle reported handler status done =>
    cases h with
    | completes hp after =>
      subst after
      exact ⟨.finished code ⟨idle, trivial⟩ reported status (congrArg (· + 1) done), rfl⟩
    | nothing hp | takes hp | clears st hp | publishes st hp =>
      rw [handler] at hp
      cases hp
  | finished code quiet reported status done =>
    obtain ⟨hq, hd, hn, hs, hl⟩ := quiet_background quiet (.handler h)
    exact ⟨.finished code hq (hl ▸ reported) (hs.trans status) (hn.trans done), hd⟩

/-- Only the device, the ledger, dma_done, int_status and the handler matter. -/
theorem Flight.of_eq {s s' : Sys} {own : Nat} (hf : Flight s own)
    (hps : s'.machine.ps = s.machine.ps) (hl : s'.ledger = s.ledger)
    (hn : s'.dmaDone = s.dmaDone) (hs : s'.intStatus = s.intStatus)
    (hh : s'.handler = s.handler) : Flight s' own := by
  cases hf with
  | running timer clear code_le current unheld done =>
    exact .running (hps ▸ timer) (hps ▸ clear) (hps ▸ code_le) (hl ▸ current) (hh ▸ unheld)
      (hn.trans done)
  | signalled code notBusy disarmed raised reported taking done =>
    exact .signalled code (hps ▸ notBusy) (hps ▸ disarmed) (hps ▸ raised) (hl ▸ reported)
      (hh ▸ taking) (hn.trans done)
  | publishing code idle reported handler done =>
    exact .publishing code (hps ▸ idle) (hl ▸ reported) (hh.trans handler) (hn.trans done)
  | completing code idle reported handler status done =>
    exact .completing code (hps ▸ idle) (hl ▸ reported) (hh.trans handler) (hs.trans status)
      (hn.trans done)
  | finished code quiet reported status done =>
    exact .finished code ⟨hps ▸ quiet.idle, hh ▸ quiet.unheld⟩ (hl ▸ reported) (hs.trans status)
      (hn.trans done)

theorem flight_background {s s' : Sys} {own : Nat} (hf : Flight s own) (h : Background s s') :
    Flight s' own ∧ s'.driver = s.driver := by
  cases h with
  | handler move => exact flight_handler hf move
  | interrupt hp after =>
    subst after
    refine ⟨?_, rfl⟩
    cases hf with
    | running timer clear code_le current unheld done =>
      exact .running timer clear code_le current trivial done
    | signalled code notBusy disarmed raised reported taking done =>
      exact .signalled code notBusy disarmed raised reported (.inl trivial) done
    | publishing code idle reported handler done
    | completing code idle reported handler status done =>
      rw [handler] at hp
      cases hp
    | finished code quiet reported status done =>
      exact .finished code ⟨quiet.idle, trivial⟩ reported status done
  | expire after =>
    subst after
    refine ⟨?_, rfl⟩
    have hsame : s.machine.ps.timer = false → Flight (s.device .expire) own := by
      intro ht
      rw [expire_disarmed ht]
      exact hf
    cases hf with
    | running timer clear code_le current unheld done =>
      exact running_expires timer clear code_le current unheld done
    | signalled code notBusy disarmed => exact hsame disarmed
    | publishing code idle => exact hsame idle.disarmed
    | completing code idle => exact hsame idle.disarmed
    | finished code quiet => exact hsame quiet.idle.disarmed
  | env bus guest after =>
    subst after
    exact ⟨hf.of_eq rfl rfl rfl rfl rfl, rfl⟩

theorem inv_background {s s' : Sys} (hi : Inv s) (h : Background s s') : Inv s' := by
  have hat : ∀ pc, At pc s → At pc s' ∧ s'.driver = s.driver := by
    intro pc hpc
    cases pc with
    | idle | unmask =>
      obtain ⟨hq, hd, -⟩ := quiet_background hpc h
      exact ⟨hq, hd⟩
    | program todo =>
      obtain ⟨hq, hd, -⟩ := quiet_background hpc.1 h
      exact ⟨⟨hq, hpc.2⟩, hd⟩
    | start =>
      obtain ⟨hq, hd, hn, -⟩ := quiet_background hpc.1 h
      exact ⟨⟨hq, hn.trans hpc.2⟩, hd⟩
    | wait own | reset own => exact flight_background hpc h
    | synchronize => exact idle_background hpc h
    | check own =>
      obtain ⟨hq, hd, -, hs, hl⟩ := quiet_background hpc.1 h
      exact ⟨⟨hq, hs ▸ hl ▸ hpc.2⟩, hd⟩
    | report todo own | returning ret own =>
      obtain ⟨hq, hd, -, -, hl⟩ := quiet_background hpc.1 h
      exact ⟨⟨hq, hl ▸ hpc.2⟩, hd⟩
  obtain ⟨hs, hd⟩ := hat s.driver hi
  rw [Inv, hd]
  exact hs

/-! ## Steps of the driver -/

/-- START while the device is not BUSY: it is accepted, under the next number. -/
theorem start_accepted {s : Sys} (dir : DmaDataDirection) (hb : busy s.machine.ps = false) :
    let s' := s.iowrite32 .dmaCtrl (startCtrl dir)
    s'.machine = lddPcieStart (setDmaDir s.machine (startCtrl dir)) ∧
      s'.ledger.current = some s.ledger.started.length ∧
      s'.ledger.started.length = s.ledger.started.length + 1 := by
  have hs : isStart (.write (lddReg .dmaCtrl) (startCtrl dir)) = true := by cases dir <;> decide
  refine ⟨iowrite32_start s.machine dir hb, ?_, ?_⟩ <;>
    simp [Sys.iowrite32, Sys.device, record, accepted, hs, hb]

/-- A quiet device runs the transfer, and no completion of it is about yet. -/
theorem start_flight {s : Sys} (dir : DmaDataDirection) (hq : Quiet s) (hn : s.dmaDone = 0) :
    Flight { s.iowrite32 .dmaCtrl (startCtrl dir) with driver := .wait s.ledger.started.length }
      s.ledger.started.length := by
  obtain ⟨hm, hl, -⟩ := start_accepted dir hq.idle.notBusy
  refine .running ?_ ?_ ?_ hl hq.unheld hn
  · show (s.iowrite32 .dmaCtrl (startCtrl dir)).machine.ps.timer = true
    rw [hm]
    rfl
  · show (s.iowrite32 .dmaCtrl (startCtrl dir)).machine.ps.regs.intStatus &&& dmaEvents = 0
    rw [hm, start_intStatus]
    exact hq.idle.clear
  · show (s.iowrite32 .dmaCtrl (startCtrl dir)).machine.ps.regs.result.toNat ≤ 5
    rw [hm]
    exact start_code_le _

/-- The reset abandons the transfer, whatever has become of it. -/
theorem reset_idle (s : Sys) : Idle (s.iowrite32 .ctrl lddCtrlReset).machine.ps := by
  have hm : (s.iowrite32 .ctrl lddCtrlReset).machine = setPs s.machine (lddPcieReset s.machine.ps) :=
    rfl
  rw [hm]
  exact ⟨show anySet 0 lddStatusBusy = false by decide, rfl, BitVec.zero_and⟩

/-- The driver gets past its wait: the completion has been delivered. -/
theorem Flight.delivered {s : Sys} {own : Nat} (hf : Flight s own) (hn : s.dmaDone ≠ 0) :
    Quiet s ∧ ∃ code, s.intStatus = intBitOf code ∧ Reported s.ledger own code := by
  cases hf with
  | finished code quiet reported status => exact ⟨quiet, code, status, reported⟩
  | running _ _ _ _ _ done | signalled _ _ _ _ _ _ done | publishing _ _ _ _ done
  | completing _ _ _ _ _ done => exact absurd done hn

theorem anySet_intBitOf (code : BitVec 32) :
    anySet (intBitOf code) lddIntDmaError = true ↔ code ≠ 0 := by
  by_cases hc : code = 0
  · rw [hc]
    decide
  · rw [intBitOf, if_pos hc]
    exact ⟨fun _ => hc, fun _ => by decide⟩

theorem inv_driver {reports : List Reg} {s s' : Sys} (hi : Inv s)
    (h : driverStep reports s = some s') : Inv s' := by
  unfold driverStep at h
  unfold Inv at hi
  cases hd : s.driver with
  | idle =>
    rw [hd] at h
    cases h
  | program todo dir =>
    rw [hd] at h hi
    obtain ⟨hq, hp⟩ := hi
    cases todo with
    | nil =>
      obtain rfl := Option.some.inj h
      exact ⟨⟨hq.idle, hq.unheld⟩, rfl⟩
    | cons w todo =>
      obtain rfl := Option.some.inj h
      have hw := hp w List.mem_cons_self
      exact ⟨⟨passive_idle hw w.2 hq.idle, hq.unheld⟩,
        fun v hv => hp v (List.mem_cons_of_mem w hv)⟩
  | start dir =>
    rw [hd] at h hi
    obtain rfl := Option.some.inj h
    exact start_flight dir hi.1 hi.2
  | wait own =>
    rw [hd] at h hi
    obtain ⟨hn, h⟩ := Option.ite_none_left_eq_some.mp h
    obtain rfl := Option.some.inj h
    obtain ⟨hq, hout⟩ := hi.delivered hn
    exact ⟨⟨hq.idle, hq.unheld⟩, hout⟩
  | reset own =>
    rw [hd] at h hi
    obtain rfl := Option.some.inj h
    exact reset_idle s
  | synchronize own =>
    rw [hd] at h hi
    obtain ⟨hh, h⟩ := Option.ite_none_right_eq_some.mp h
    obtain rfl := Option.some.inj h
    refine ⟨hi, ?_⟩
    show Unheld s.handler
    rw [hh]
    trivial
  | unmask own =>
    rw [hd] at h hi
    obtain rfl := Option.some.inj h
    have hmask : Passive .intMask := by simp [Passive]
    exact ⟨⟨passive_idle hmask _ hi.idle, hi.unheld⟩, .inr (.inr rfl)⟩
  | check own =>
    rw [hd] at h hi
    obtain ⟨hq, code, hs, hr⟩ := hi
    by_cases he : anySet s.intStatus lddIntDmaError = true
    · obtain rfl := Option.some.inj ((if_pos he).symm.trans h)
      exact ⟨⟨hq.idle, hq.unheld⟩, code, (anySet_intBitOf code).mp (hs ▸ he), hr⟩
    · obtain rfl := Option.some.inj ((if_neg he).symm.trans h)
      have hz : code = 0 := not_not.mp fun hc => he (hs ▸ (anySet_intBitOf code).mpr hc)
      exact ⟨⟨hq.idle, hq.unheld⟩, .inl ⟨rfl, hz ▸ hr⟩⟩
  | report todo own =>
    rw [hd] at h hi
    obtain ⟨hq, hr⟩ := hi
    cases todo with
    | nil =>
      obtain rfl := Option.some.inj h
      exact ⟨⟨hq.idle, hq.unheld⟩, .inr (.inl ⟨rfl, hr⟩)⟩
    | cons reg todo =>
      obtain rfl := Option.some.inj h
      exact ⟨⟨hq.idle, hq.unheld⟩, hr⟩
  | returning ret own =>
    rw [hd] at h hi
    obtain rfl := Option.some.inj h
    exact ⟨hi.1.idle, hi.1.unheld⟩

theorem inv_step (reports : List Reg) (s : Sys) (e : Event) (s' : Sys) (hi : Inv s)
    (h : Step reports s e s') : Inv s' := by
  unfold Step next at h
  cases e with
  | call p =>
    obtain ⟨hd, h⟩ := Option.ite_none_right_eq_some.mp h
    obtain rfl := Option.some.inj h
    rw [Inv, hd] at hi
    exact ⟨⟨hi.idle, hi.unheld⟩, passive_writes p⟩
  | driver => exact inv_driver hi h
  | timeout =>
    unfold Inv at hi
    cases hd : s.driver with
    | wait own =>
      rw [hd] at h hi
      obtain ⟨-, h⟩ := Option.ite_none_right_eq_some.mp h
      obtain rfl := Option.some.inj h
      exact hi.of_eq rfl rfl rfl rfl rfl
    | idle | program | start | reset | synchronize | unmask | check | report | returning =>
      rw [hd] at h
      cases h
  | interrupt =>
    obtain ⟨hh, h⟩ := Option.ite_none_right_eq_some.mp h
    exact inv_background hi (.interrupt hh (Option.some.inj h).symm)
  | handler => exact inv_background hi (.handler (handlerStep_move h))
  | expire => exact inv_background hi (.expire (Option.some.inj h).symm)
  | env bus guest => exact inv_background hi (.env bus guest (Option.some.inj h).symm)

/-! ## Calls that nothing disturbs -/

theorem passive_iowrite32 {reg : Reg} (hp : Passive reg) (s : Sys) (val : BitVec 32) :
    s.iowrite32 reg val = { s with machine := DmaHost.iowrite32 s.machine reg val } := by
  have hl := passive_ledger hp s val
  show { s.iowrite32 reg val with ledger := (s.iowrite32 reg val).ledger } = _
  rw [hl]
  rfl

theorem program_run (reports : List Reg) (dir : DmaDataDirection)
    (todo : List (Reg × BitVec 32)) (hp : ∀ w ∈ todo, Passive w.1) (s : Sys)
    (hd : s.driver = .program todo dir) :
    Steps (Step reports) s (List.replicate todo.length .driver)
      { s with machine := iowrites s.machine todo, driver := .program [] dir } := by
  induction todo generalizing s with
  | nil =>
    have hs : s = { s with machine := iowrites s.machine [], driver := .program [] dir } := by
      rw [← hd]
      rfl
    rw [← hs]
    exact .nil s
  | cons w todo ih =>
    obtain ⟨hw, htodo⟩ := List.forall_mem_cons.mp hp
    have hstep : Step reports s .driver { s with
        machine := DmaHost.iowrite32 s.machine w.1 w.2, driver := .program todo dir } := by
      show driverStep reports s = _
      rw [driverStep, hd]
      dsimp only
      rw [passive_iowrite32 hw]
    exact .cons hstep (ih htodo _ rfl)

theorem report_run (reports todo : List Reg) (own : Nat) (s : Sys)
    (hd : s.driver = .report todo own) :
    Steps (Step reports) s (List.replicate (todo.length + 1) .driver)
      { s with driver := .returning (-eio) own } := by
  induction todo generalizing s with
  | nil =>
    have hstep : Step reports s .driver { s with driver := .returning (-eio) own } := by
      show driverStep reports s = _
      rw [driverStep, hd]
    exact .cons hstep (.nil _)
  | cons reg todo ih =>
    have hstep : Step reports s .driver { s with driver := .report todo own } := by
      show driverStep reports s = _
      rw [driverStep, hd]
    exact .cons hstep (ih _ rfl)

theorem reinit_step (reports : List Reg) {dir : DmaDataDirection} {s : Sys}
    (hd : s.driver = .program [] dir) :
    Step reports s .driver { s with dmaDone := 0, driver := .start dir } := by
  show driverStep reports s = _
  rw [driverStep, hd]

theorem start_step (reports : List Reg) {dir : DmaDataDirection} {s : Sys}
    (hd : s.driver = .start dir) :
    Step reports s .driver { s.iowrite32 .dmaCtrl (startCtrl dir) with
      driver := .wait s.ledger.started.length } := by
  show driverStep reports s = _
  rw [driverStep, hd]

theorem wait_run (reports : List Reg) (p : Program) (s : Sys) (hd : s.driver = .idle)
    (hq : Quiet s) : ∃ es t, Steps (Step reports) s es t ∧
      t.machine = DmaHost.iowrite32 (iowrites s.machine p.writes) .dmaCtrl (startCtrl p.dir) ∧
      t.driver = .wait s.ledger.started.length ∧ t.intStatus = s.intStatus ∧
      t.handler = s.handler ∧ t.dmaDone = 0 ∧ Flight t s.ledger.started.length := by
  have hcall : Step reports s (.call p) { s with driver := .program p.writes p.dir } := by
    show next reports s (.call p) = _
    rw [next, if_pos hd]
  have hprogram := program_run reports p.dir p.writes (passive_writes p)
    { s with driver := .program p.writes p.dir } rfl
  have hinv : Inv { s with driver := .program p.writes p.dir } :=
    ⟨⟨hq.idle, hq.unheld⟩, passive_writes p⟩
  have hquiet := (hprogram.invariant (inv_step reports) hinv).1
  dsimp only at hprogram hquiet
  -- what the writes leave is not looked at any more
  generalize iowrites s.machine p.writes = m at hprogram hquiet ⊢
  have hreinit := reinit_step reports (s := { s with machine := m, driver := .program [] p.dir }) rfl
  have hstart := start_step reports (s := { s with
    machine := m, dmaDone := 0, driver := .start p.dir }) rfl
  exact ⟨_, _, .cons hcall (hprogram.append (.cons hreinit (.cons hstart (.nil _)))), rfl, rfl,
    rfl, rfl, rfl, start_flight p.dir ⟨hquiet.idle, hquiet.unheld⟩ rfl⟩

theorem expire_timer (m : Machine) : (devStep m .expire).ps.timer = false := by
  show (timerExpire m.ps).timer = false
  unfold timerExpire
  split
  · rfl
  · next h => exact Bool.eq_false_of_not_eq_true h

/-- Once the timer has expired, a completion that no handler has touched is in
INT_STATUS. -/
theorem Flight.raised {s : Sys} {own : Nat} (hf : Flight s own)
    (ht : s.machine.ps.timer = false) (hh : s.handler = .idle) (hn : s.dmaDone = 0) :
    s.machine.ps.regs.intStatus &&& dmaEvents ≠ 0 := by
  cases hf with
  | running timer => exact absurd (timer.symm.trans ht) (by decide)
  | signalled code _ _ raised =>
    rw [raised]
    exact intBitOf_ne_zero code
  | publishing _ _ _ handler | completing _ _ _ handler =>
    exact absurd (handler.symm.trans hh) (by simp)
  | finished _ _ _ _ done => exact absurd (done.symm.trans hn) (by decide)

theorem handler_run (reports : List Reg) (s : Sys) (hh : s.handler = .idle)
    (hne : s.machine.ps.regs.intStatus &&& dmaEvents ≠ 0) :
    Steps (Step reports) s [.interrupt, .handler, .handler, .handler, .handler]
      { s.iowrite32 .intStatus (s.machine.ps.regs.intStatus &&& dmaEvents) with
        intStatus := s.machine.ps.regs.intStatus &&& dmaEvents
        dmaDone := s.dmaDone + 1 } := by
  let status := s.machine.ps.regs.intStatus &&& dmaEvents
  have hin : Step reports s .interrupt { s with handler := .entered } := if_pos hh
  have hread : Step reports { s with handler := .entered } .handler
      { s with handler := .clear status } := if_neg hne
  have hidle : ({ s.iowrite32 .intStatus status with
      intStatus := status, dmaDone := s.dmaDone + 1 } : Sys) =
      { s.iowrite32 .intStatus status with
        intStatus := status, dmaDone := s.dmaDone + 1, handler := .idle } := by
    rw [← hh]
    rfl
  show Steps _ _ _ { s.iowrite32 .intStatus status with
    intStatus := status, dmaDone := s.dmaDone + 1 }
  rw [hidle]
  exact .cons hin (.cons hread (.cons rfl (.cons rfl (.cons rfl (.nil _)))))

/-- A driver that is woken, from its check of int_status to its return. -/
theorem check_run (reports : List Reg) (own : Nat) (s : Sys) (hd : s.driver = .check own) :
    ∃ es, Steps (Step reports) s es { s with
      driver := .returning (if anySet s.intStatus lddIntDmaError = true then -eio else 0) own } := by
  by_cases he : anySet s.intStatus lddIntDmaError = true
  · have hstep : Step reports s .driver { s with driver := .report reports own } := by
      show driverStep reports s = _
      rw [driverStep, hd]
      exact if_pos he
    rw [if_pos he]
    exact ⟨_, .cons hstep (report_run reports reports own _ rfl)⟩
  · have hstep : Step reports s .driver { s with driver := .returning 0 own } := by
      show driverStep reports s = _
      rw [driverStep, hd]
      exact if_neg he
    rw [if_neg he]
    exact ⟨_, .cons hstep (.nil _)⟩

/-- The calls that runTransfer describes are calls of this system: those in which
the device completes and its handler runs while the driver waits, and those in
which the wait runs out first. -/
theorem undisturbed_call (reports : List Reg) (p : Program) (s : Sys) (wait : Wait)
    (hd : s.driver = .idle) (hh : s.handler = .idle) (hi : Idle s.machine.ps) :
    let r := runTransfer s.machine s.intStatus p.descBus p.nents p.pos p.dir p.xor wait
    ∃ es s', Steps (Step reports) s es s' ∧ s'.machine = r.machine ∧ s'.intStatus = r.intStatus ∧
      s'.driver = .returning r.ret s.ledger.started.length := by
  intro r
  have hq : Quiet s := ⟨hi, hh ▸ trivial⟩
  obtain ⟨es, t, hrun, hm, hdt, hst, hht, hn, hf⟩ := wait_run reports p s hd hq
  cases wait with
  | completed =>
    let fired := t.device .expire
    let status := fired.machine.ps.regs.intStatus &&& dmaEvents
    have hexpire : Step reports t .expire fired := rfl
    have hne : status ≠ 0 := (flight_background hf (.expire rfl)).1.raised
      (expire_timer t.machine) (hht.trans hh) hn
    have hhandler := handler_run reports fired (hht.trans hh) hne
    let served : Sys := { fired.iowrite32 .intStatus status with
      intStatus := status, dmaDone := fired.dmaDone + 1 }
    have hwake : Step reports served .driver
        { served with dmaDone := fired.dmaDone, driver := .check s.ledger.started.length } := by
      show driverStep reports served = _
      rw [driverStep, show served.driver = _ from hdt]
      rfl
    obtain ⟨fs, hcheck⟩ := check_run reports s.ledger.started.length
      { served with dmaDone := fired.dmaDone, driver := .check s.ledger.started.length } rfl
    have hr : dmaHandler (devStep t.machine .expire) s.intStatus =
        (DmaHost.iowrite32 (devStep t.machine .expire) .intStatus status, status, true) :=
      if_neg hne
    refine ⟨_, _, hrun.append (.cons hexpire (hhandler.append (.cons hwake hcheck))), ?_, ?_, ?_⟩
    · show DmaHost.iowrite32 (devStep t.machine .expire) .intStatus status = r.machine
      rw [hm] at hr ⊢
      exact (congrArg Prod.fst hr).symm
    · rw [hm] at hr
      exact (congrArg (fun h => h.2.1) hr).symm
    · rw [hm] at hr
      exact congrArg (fun v : BitVec 32 => DriverPc.returning
        (if anySet v lddIntDmaError = true then -eio else 0) s.ledger.started.length)
        (congrArg (fun h => h.2.1) hr).symm
  | timedOut =>
    let given : Sys := { t with driver := .reset s.ledger.started.length }
    let reset : Sys := { given.iowrite32 .ctrl lddCtrlReset with
      driver := .synchronize s.ledger.started.length }
    have hgive : Step reports t .timeout given := by
      show next reports t .timeout = _
      rw [next, hdt]
      exact if_pos hn
    have hreset : Step reports given .driver reset := rfl
    let settled : Sys := { reset with driver := .unmask s.ledger.started.length }
    let unmasked : Sys := { settled.iowrite32 .intMask dmaEvents with
      driver := .returning (-etimedout) s.ledger.started.length }
    have hsync : Step reports reset .driver settled := if_pos (hht.trans hh)
    have hunmask : Step reports settled .driver unmasked := rfl
    refine ⟨_, unmasked, hrun.append (.cons hgive (.cons hreset (.cons hsync
      (.cons hunmask (.nil _))))), ?_, hst, rfl⟩
    show DmaHost.iowrite32 (DmaHost.iowrite32 t.machine .ctrl lddCtrlReset) .intMask dmaEvents =
      r.machine
    rw [hm]
    rfl

theorem undisturbed_first_call :
    ∃ es s', Steps (Step []) { machine := (DmaSg.dmaSgProbe 12 willing fresh).1 } es s' ∧
      s'.driver = .returning (-etimedout) 0 := by
  have hprobe : DmaSg.dmaSgProbe 12 willing fresh = (_, .ok DmaSg.probedDev) := rfl
  have hidle := (DmaSg.dmaSgProbe_ready hprobe rfl rfl).1.idle
  obtain ⟨es, s, h, -, -, hd⟩ :=
    undisturbed_call [] ⟨0x1000, 1, 0, .fromDevice, 0⟩ { machine := _ } .timedOut rfl rfl hidle
  exact ⟨es, s, h, hd⟩

/-! ## The driver's view -/

/-- What the driver can rely on, at START and when it returns. -/
structure Reliable (reports : List Reg) (s : Sys) : Prop where
  /-- START is accepted, and the driver waits for the transfer it begins. -/
  start : ∀ dir, s.driver = .start dir → busy s.machine.ps = false ∧
    ∃ s', driverStep reports s = some s' ∧ s'.driver = .wait s.ledger.started.length ∧
      s'.ledger.current = some s.ledger.started.length ∧
      s'.ledger.started.length = s.ledger.started.length + 1 ∧
      s'.machine = lddPcieStart (setDmaDir s.machine (startCtrl dir))
  done : ∀ own, s.driver = .returning 0 own →
    ∃ c ∈ s.ledger.completed, c.transfer = some own ∧ c.status = lddStatusDone
  failed : ∀ own, s.driver = .returning (-eio) own →
    ∃ c ∈ s.ledger.completed, c.transfer = some own ∧ anySet c.status lddStatusError = true
  /-- Nothing is running, nothing is signalled, and no handler is about to
  deliver anything. -/
  settled : ∀ ret own, s.driver = .returning ret own →
    (ret = 0 ∨ ret = -eio ∨ ret = -etimedout) ∧ busy s.machine.ps = false ∧
      s.machine.ps.timer = false ∧
      s.machine.ps.regs.intStatus &&& (lddIntDmaDone ||| lddIntDmaError) = 0 ∧
      (s.handler = .idle ∨ s.handler = .entered)

theorem anySet_statusOf {code : BitVec 32} (hc : code ≠ 0) :
    anySet (statusOf code) lddStatusError = true := by
  rw [statusOf, if_pos hc, lddStatusError, anySet_bit _ (by decide), BitVec.getLsbD_or]
  simp [bit]

theorem Unheld.cases {h : HandlerPc} (hu : Unheld h) : h = .idle ∨ h = .entered := by
  cases h with
  | idle => exact .inl rfl
  | entered => exact .inr rfl
  | clear | publish | complete => exact hu.elim

theorem Inv.reliable {reports : List Reg} {s : Sys} (hi : Inv s) : Reliable reports s := by
  refine ⟨?_, ?_, ?_, ?_⟩
  · intro dir hd
    rw [Inv, hd] at hi
    have hb := hi.1.idle.notBusy
    obtain ⟨hm, hl, hn⟩ := start_accepted dir hb
    refine ⟨hb, { s.iowrite32 .dmaCtrl (startCtrl dir) with
      driver := .wait s.ledger.started.length }, ?_, rfl, hl, hn, hm⟩
    rw [driverStep, hd]
  · intro own hd
    rw [Inv, hd] at hi
    rcases hi.2 with ⟨-, hr⟩ | ⟨h, -⟩ | h
    · exact hr
    · exact absurd h (by decide)
    · exact absurd h (by decide)
  · intro own hd
    rw [Inv, hd] at hi
    rcases hi.2 with ⟨h, -⟩ | ⟨-, code, hc, c, hmem, hown, hstatus⟩ | h
    · exact absurd h (by decide)
    · exact ⟨c, hmem, hown, hstatus ▸ anySet_statusOf hc⟩
    · exact absurd h (by decide)
  · intro ret own hd
    rw [Inv, hd] at hi
    obtain ⟨⟨hidle, hu⟩, hans⟩ := hi
    refine ⟨?_, hidle.notBusy, hidle.disarmed, hidle.clear, hu.cases⟩
    rcases hans with ⟨h, -⟩ | ⟨h, -⟩ | h
    · exact .inl h
    · exact .inr (.inl h)
    · exact .inr (.inr h)

/-- Over every run of any number of calls, with the register accesses of the
driver and of its handler, the timer, interrupts and timeouts interleaved in any
way. -/
theorem calls_get_their_own_outcome (reports : List Reg) (m : Machine) (es : List Event) (s : Sys)
    (hidle : Idle m.ps) (h : Steps (Step reports) { machine := m } es s) : Reliable reports s :=
  Inv.reliable (h.invariant (inv_step reports) ⟨hidle, trivial⟩)

/-- A call of dma_sg_run that nothing disturbs: it reads four bytes. -/
def oneCall : List Event :=
  [Event.env DmaBus.flat (DescTable.storeDesc (fun _ => 0) firstTable 0 ⟨0x2000, 4, 0⟩),
    .call ⟨0x1000, 1, 0, .fromDevice, 0⟩] ++ List.replicate 7 Event.driver ++
    [Event.expire, .interrupt, .handler, .handler, .handler, .handler, .driver, .driver]

theorem calls_get_their_own_outcome_one_call :
    ∃ s, Steps (Step [.status, .errDesc])
        { machine := (DmaSg.dmaSgProbe 12 willing fresh).1 } oneCall s ∧
      s.driver = .returning 0 0 ∧ Reliable [.status, .errDesc] s := by
  have hexec : (exec (next [.status, .errDesc])
      { machine := (DmaSg.dmaSgProbe 12 willing fresh).1 } oneCall).map (fun s => s.driver) =
      some (.returning 0 0) := by decide +kernel
  obtain ⟨s, hs, hd⟩ := Option.map_eq_some_iff.mp hexec
  have hprobe : DmaSg.dmaSgProbe 12 willing fresh = (_, .ok DmaSg.probedDev) := rfl
  have hidle := (DmaSg.dmaSgProbe_ready hprobe rfl rfl).1.idle
  exact ⟨s, exec_steps hs, hd, calls_get_their_own_outcome _ _ oneCall s hidle (exec_steps hs)⟩

end LinuxDeviceDriver.Drivers.CompletionProtocol
