/- source: tools/qemu/hw/ldd/pcie.c, lines 144 to 149, 243 to 277 and 329 to 409
   digest: Each accepted START has at most one completion, with its own result. -/

import LinuxDeviceDriver.Qemu.Pcie.Interrupts

set_option autoImplicit false

namespace LinuxDeviceDriver.Qemu.Pcie.Engine

open State Transfer TransferOutcome Registers Interrupts

/-- DMA_CTRL is written with START set. -/
def isStart : DevEvent → Bool
  | .write addr val => regAt addr == some .dmaCtrl && anySet val lddDmaCtrlStart
  | _ => false

/-- CTRL.RESET is written, or the PCI function is reset. -/
def isReset : DevEvent → Bool
  | .write addr val => regAt addr == some .ctrl && anySet val lddCtrlReset
  | .pciReset => true
  | _ => false

def isExpire : DevEvent → Bool
  | .expire => true
  | _ => false

/-- A START written while BUSY is 0. -/
def accepted (m : Machine) (e : DevEvent) : Bool := isStart e && !busy m.ps

/-- The timer expires while it is armed: ldd_pcie_complete runs. -/
def completes (m : Machine) (e : DevEvent) : Bool := isExpire e && m.ps.timer

/-- The machine that a START hands to ldd_pcie_transfer. -/
def programmed (m : Machine) : DevEvent → Machine
  | .write _ val => startRegs (setDmaDir m val)
  | _ => m

/-- What a step can do to the engine. -/
inductive EngineStep (m : Machine) (e : DevEvent) (m' : Machine) : Prop
  | start (hs : accepted m e = true) (val : BitVec 32)
      (prog : programmed m e = startRegs (setDmaDir m val))
      (after : m' = lddPcieStart (setDmaDir m val))
  | reset (hs : accepted m e = false) (hr : isReset e = true) (timer : m'.ps.timer = false) (regs : m'.ps.regs = {})
  | complete (he : e = .expire) (armed : m.ps.timer = true)
      (after : m' = setPs m (lddPcieComplete { m.ps with timer := false }))
  | other (hs : accepted m e = false) (hr : isReset e = false) (hc : completes m e = false)
      (timer : m'.ps.timer = m.ps.timer) (status : m'.ps.regs.status = m.ps.regs.status)
      (result : m'.ps.regs.result = m.ps.regs.result)

private theorem engineStep_write (m : Machine) (addr : Nat) (val : BitVec 32) :
    EngineStep m (.write addr val) (lddPcieBar0Write m addr val) := by
  unfold lddPcieBar0Write
  cases hr : regAt addr with
  | none => exact .other (by simp [accepted, isStart, hr]) (by simp [isReset, hr]) rfl rfl rfl rfl
  | some r =>
    cases r with
    | ctrl =>
      dsimp only
      split
      · next hv => exact .reset (by simp [accepted, isStart, hr]) (by simp [isReset, hr, hv]) rfl rfl
      · next hv =>
        exact .other (by simp [accepted, isStart, hr]) (by simp [isReset, hr, hv]) rfl rfl rfl rfl
    | dmaCtrl =>
      dsimp only
      split
      · next hb =>
        exact .other (by simp [accepted, hb]) (by simp [isReset, hr]) rfl rfl rfl rfl
      · next hb =>
        split
        · next hv => exact .start (by simp [accepted, isStart, hr, hb, hv]) val rfl rfl
        · next hv =>
          exact .other (by simp [accepted, isStart, hr, hv]) (by simp [isReset, hr]) rfl rfl rfl rfl
    | descAddrLo | descAddrHi | descCount | devOffset =>
      dsimp only
      split <;> exact .other (by simp [accepted, isStart, hr]) (by simp [isReset, hr]) rfl rfl rfl rfl
    | id | version | caps | scratch | status | intStatus | intMask | intRaise | maxSeg | maxDesc
    | xferBytes | errDesc | xor =>
      exact .other (by simp [accepted, isStart, hr]) (by simp [isReset, hr]) rfl rfl rfl rfl

theorem devStep_engineStep (m : Machine) (e : DevEvent) : EngineStep m e (devStep m e) := by
  cases e with
  | write addr val => exact engineStep_write m addr val
  | expire =>
    cases ht : m.ps.timer with
    | true =>
      refine .complete rfl ht ?_
      simp [devStep, timerExpire, ht]
    | false =>
      have he : timerExpire m.ps = m.ps := by simp [timerExpire, ht]
      have hs : devStep m .expire = m := by rw [devStep, he]; rfl
      rw [hs]
      exact .other rfl rfl (by simp [completes, ht]) rfl rfl rfl
  | pciReset => exact .reset rfl rfl rfl rfl
  | env bus guest => exact .other rfl rfl rfl rfl rfl rfl

/-- STATUS of a completed transfer with this ERR_CODE. -/
def statusOf (code : BitVec 32) : BitVec 32 :=
  if code ≠ 0 then lddStatusError ||| code <<< lddStatusErrCodeShift else lddStatusDone

/-- The INT_STATUS bit a completion with this ERR_CODE sets. -/
def intBitOf (code : BitVec 32) : BitVec 32 :=
  if code ≠ 0 then lddIntDmaError else lddIntDmaDone

theorem completeRegs_eq (regs : Regs) : completeRegs regs = { regs with
    status := statusOf regs.result
    intStatus := regs.intStatus ||| intBitOf regs.result } := by
  unfold completeRegs statusOf intBitOf
  split <;> rfl

/-- A completion sets STATUS and one bit of INT_STATUS, and no other register but
the shadow copy. -/
theorem complete_regs (ps : LDDPCIEState) : (lddPcieComplete ps).regs = { ps.regs with
    status := statusOf ps.regs.result
    intStatus := ps.regs.intStatus ||| intBitOf ps.regs.result
    irqSent := (lddPcieComplete ps).regs.irqSent } := by
  have h : (lddPcieComplete ps).regs = { completeRegs ps.regs with
      irqSent := (lddPcieComplete ps).regs.irqSent } := rfl
  rw [completeRegs_eq] at h
  exact h

/-- The only values STATUS takes: clear, BUSY, DONE, or ERROR with an ERR_CODE. -/
def StatusWord (status : BitVec 32) : Prop :=
  status = 0 ∨ status = lddStatusBusy ∨ status = lddStatusDone ∨
    ∃ code : BitVec 32, 1 ≤ code.toNat ∧ code.toNat ≤ 5 ∧
      status = lddStatusError ||| code <<< lddStatusErrCodeShift

private theorem le_five_cases (code : BitVec 32) (h : code.toNat ≤ 5) :
    code = 0 ∨ code = 1 ∨ code = 2 ∨ code = 3 ∨ code = 4 ∨ code = 5 := by
  have hc : ∀ n : Nat, code.toNat = n → code = BitVec.ofNat 32 n := by
    intro n hn
    rw [← hn, BitVec.ofNat_toNat, BitVec.setWidth_eq]
  have hcases : code.toNat = 0 ∨ code.toNat = 1 ∨ code.toNat = 2 ∨ code.toNat = 3 ∨
      code.toNat = 4 ∨ code.toNat = 5 := by omega
  rcases hcases with h | h | h | h | h | h <;> simp [hc _ h]

theorem statusOf_word (code : BitVec 32) (h : code.toNat ≤ 5) :
    StatusWord (statusOf code) ∧ anySet (statusOf code) lddStatusBusy = false := by
  rcases le_five_cases code h with rfl | rfl | rfl | rfl | rfl | rfl
  · exact ⟨.inr (.inr (.inl rfl)), by decide⟩
  all_goals exact ⟨.inr (.inr (.inr ⟨_, by decide, by decide, rfl⟩)), by decide⟩

/-! The ledger is kept beside the device, from what can be seen of it: it numbers
the accepted STARTs, and records each completion with the transfer in progress. -/

structure Completion where
  transfer : Option Nat
  status : BitVec 32
  intBefore : BitVec 32
  intAfter : BitVec 32

structure Ledger where
  /-- The ERR_CODE that each accepted START's own transfer returned. -/
  started : List (BitVec 32) := []
  current : Option Nat := none
  completed : List Completion := []

def record (l : Ledger) (m : Machine) (e : DevEvent) : Ledger :=
  let m' := devStep m e
  if accepted m e = true then
    { l with
      started := l.started ++ [(lddPcieTransfer (programmed m e)).1]
      current := some l.started.length }
  else if isReset e = true then { l with current := none }
  else if completes m e = true then
    { l with
      current := none
      completed := l.completed ++
        [⟨l.current, m'.ps.regs.status, m.ps.regs.intStatus, m'.ps.regs.intStatus⟩] }
  else l

def recordRun : Machine × Ledger → List DevEvent → Machine × Ledger
  | s, [] => s
  | s, e :: es => recordRun (devStep s.1 e, record s.2 s.1 e) es

theorem recordRun_append (s : Machine × Ledger) (es fs : List DevEvent) :
    recordRun s (es ++ fs) = recordRun (recordRun s es) fs := by
  induction es generalizing s with
  | nil => rfl
  | cons e es ih => exact ih _

structure EngineInv (m : Machine) (l : Ledger) : Prop where
  armed : busy m.ps = m.ps.timer
  word : StatusWord m.ps.regs.status
  running : l.current.isSome = m.ps.timer
  own : ∀ k, l.current = some k → k + 1 = l.started.length ∧
    l.started[k]? = some m.ps.regs.result
  codes : ∀ code ∈ l.started, code.toNat ≤ 5
  logged : ∀ c ∈ l.completed, ∃ k code, c.transfer = some k ∧ l.started[k]? = some code ∧
    c.status = statusOf code ∧ c.intAfter = c.intBefore ||| intBitOf code
  fresh : ∀ c ∈ l.completed, ∀ k, l.current = some k → c.transfer ≠ some k
  once : (l.completed.map Completion.transfer).Nodup

private theorem getElem?_append_of_some {α : Type} {l : List α} {k : Nat} {a : α} (b : List α)
    (h : l[k]? = some a) : (l ++ b)[k]? = some a := by
  obtain ⟨hk, -⟩ := List.getElem?_eq_some_iff.mp h
  rw [List.getElem?_append_left hk, h]

private theorem inv_start {m m' : Machine} {l : Ledger} {e : DevEvent} (hi : EngineInv m l)
    (hs : accepted m e = true) (val : BitVec 32)
    (prog : programmed m e = startRegs (setDmaDir m val))
    (after : m' = lddPcieStart (setDmaDir m val)) : EngineInv m' (record l m e) := by
  have hrec : record l m e = { l with
      started := l.started ++ [(lddPcieTransfer (programmed m e)).1]
      current := some l.started.length } := by
    rw [record, if_pos hs]
  have hregs := start_regs (setDmaDir m val)
  rw [← after, ← prog] at hregs
  have hstatus : m'.ps.regs.status = lddStatusBusy := by rw [hregs]
  have hresult : m'.ps.regs.result = (lddPcieTransfer (programmed m e)).1 := by rw [hregs]
  have htimer : m'.ps.timer = true := by rw [after]; rfl
  rw [hrec]
  refine ⟨?_, ?_, ?_, ?_, ?_, ?_, ?_, hi.once⟩
  · rw [busy, hstatus, htimer]
    decide
  · exact .inr (.inl hstatus)
  · rw [htimer]
    rfl
  · intro k hk
    cases hk
    exact ⟨by simp, by simp [hresult]⟩
  · intro code hc
    rcases List.mem_append.mp hc with hc | hc
    · exact hi.codes code hc
    · rw [List.mem_singleton.mp hc]
      exact (transfer_outcome (programmed m e)).code_le
  · intro c hc
    obtain ⟨k, code, ht, hk, hrest⟩ := hi.logged c hc
    exact ⟨k, code, ht, getElem?_append_of_some _ hk, hrest⟩
  · -- the new number is past all those that have completed
    intro c hc k hk ht
    cases hk
    obtain ⟨j, code, hj, hget, -⟩ := hi.logged c hc
    obtain ⟨hlt, -⟩ := List.getElem?_eq_some_iff.mp hget
    rw [hj] at ht
    cases ht
    omega

private theorem inv_reset {m m' : Machine} {l : Ledger} {e : DevEvent} (hi : EngineInv m l)
    (hs : accepted m e = false) (hr : isReset e = true) (timer : m'.ps.timer = false)
    (regs : m'.ps.regs = {}) : EngineInv m' (record l m e) := by
  have hrec : record l m e = { l with current := none } := by
    rw [record, if_neg (by simp [hs]), if_pos hr]
  rw [hrec]
  refine ⟨?_, ?_, ?_, ?_, hi.codes, hi.logged, ?_, hi.once⟩
  · rw [busy, regs, timer]
    decide
  · exact .inl (by rw [regs])
  · rw [timer]
    rfl
  · intro k hk
    cases hk
  · intro c hc k hk
    cases hk

private theorem inv_complete {m m' : Machine} {l : Ledger} (hi : EngineInv m l)
    (armed : m.ps.timer = true)
    (after : m' = setPs m (lddPcieComplete { m.ps with timer := false }))
    (he : devStep m .expire = m') : EngineInv m' (record l m .expire) := by
  have hrec : record l m .expire = { l with
      current := none
      completed := l.completed ++
        [⟨l.current, m'.ps.regs.status, m.ps.regs.intStatus, m'.ps.regs.intStatus⟩] } := by
    rw [record, if_neg (by simp [accepted, isStart]), if_neg (by simp [isReset]),
      if_pos (by simp [completes, isExpire, armed]), he]
  have hregs : m'.ps.regs = { completeRegs m.ps.regs with
      irqSent := m'.ps.regs.irqSent } := by
    rw [after]
    rfl
  rw [completeRegs_eq] at hregs
  have hstatus : m'.ps.regs.status = statusOf m.ps.regs.result := by rw [hregs]
  have hint : m'.ps.regs.intStatus = m.ps.regs.intStatus ||| intBitOf m.ps.regs.result := by
    rw [hregs]
  have htimer : m'.ps.timer = false := by rw [after]; rfl
  obtain ⟨k, hk⟩ := Option.isSome_iff_exists.mp (hi.running.trans armed)
  obtain ⟨hlast, hcode⟩ := hi.own k hk
  have hmem : m.ps.regs.result ∈ l.started := List.mem_of_getElem? hcode
  have hword := statusOf_word _ (hi.codes _ hmem)
  rw [hrec]
  refine ⟨?_, ?_, ?_, ?_, hi.codes, ?_, ?_, ?_⟩
  · rw [busy, hstatus, htimer, hword.2]
  · rw [hstatus]
    exact hword.1
  · rw [htimer]
    rfl
  · intro j hj
    cases hj
  · intro c hc
    rcases List.mem_append.mp hc with hc | hc
    · exact hi.logged c hc
    · rw [List.mem_singleton.mp hc]
      exact ⟨k, m.ps.regs.result, hk, hcode, hstatus, hint⟩
  · intro c hc j hj
    cases hj
  · rw [List.map_append]
    refine List.nodup_append.mpr ⟨hi.once, by simp, ?_⟩
    intro a ha b hb hab
    obtain ⟨c, hc, rfl⟩ := List.mem_map.mp ha
    have hb' : b = l.current := by simpa using hb
    exact hi.fresh c hc k hk (by rw [hab, hb', hk])

private theorem inv_other {m m' : Machine} {l : Ledger} {e : DevEvent} (hi : EngineInv m l)
    (hs : accepted m e = false) (hr : isReset e = false) (hc : completes m e = false)
    (timer : m'.ps.timer = m.ps.timer) (status : m'.ps.regs.status = m.ps.regs.status)
    (result : m'.ps.regs.result = m.ps.regs.result) : EngineInv m' (record l m e) := by
  have hrec : record l m e = l := by
    rw [record, if_neg (by simp [hs]), if_neg (by simp [hr]), if_neg (by simp [hc])]
  rw [hrec]
  refine ⟨?_, ?_, ?_, ?_, hi.codes, hi.logged, hi.fresh, hi.once⟩
  · rw [busy, status, timer]
    exact hi.armed
  · rw [status]
    exact hi.word
  · rw [timer]
    exact hi.running
  · rw [result]
    exact hi.own

theorem engineInv_step {m : Machine} {l : Ledger} (hi : EngineInv m l) (e : DevEvent) :
    EngineInv (devStep m e) (record l m e) := by
  cases devStep_engineStep m e with
  | start hs val prog after => exact inv_start hi hs val prog after
  | reset hs hr timer regs => exact inv_reset hi hs hr timer regs
  | complete he armed after =>
    subst he
    exact inv_complete hi armed after rfl
  | other hs hr hc timer status result => exact inv_other hi hs hr hc timer status result

theorem engineInv_run (s : Machine × Ledger) (es : List DevEvent) (hi : EngineInv s.1 s.2) :
    EngineInv (recordRun s es).1 (recordRun s es).2 := by
  induction es generalizing s with
  | nil => exact hi
  | cons e es ih => exact ih _ (engineInv_step hi e)

/-- While a transfer is in progress, only the timer or a reset ends it. -/
private theorem in_progress_run (s : Machine × Ledger) (fs : List DevEvent)
    (hi : EngineInv s.1 s.2) (hk : s.2.current.isSome = true)
    (hf : ∀ f ∈ fs, isReset f = false ∧ isExpire f = false) : (recordRun s fs).2 = s.2 := by
  induction fs generalizing s with
  | nil => rfl
  | cons f fs ih =>
    obtain ⟨⟨hr, he⟩, hf⟩ := List.forall_mem_cons.mp hf
    have hb : busy s.1.ps = true := by rw [hi.armed, ← hi.running, hk]
    have hrec : record s.2 s.1 f = s.2 := by
      rw [record, if_neg (by simp [accepted, hb]), if_neg (by simp [hr]),
        if_neg (by simp [completes, he])]
    have hnext := engineInv_step hi f
    rw [hrec] at hnext
    rw [recordRun, hrec]
    exact ih (devStep s.1 f, s.2) hnext hk hf

private theorem no_expiry_run (s : Machine × Ledger) (fs : List DevEvent)
    (hf : ∀ f ∈ fs, isExpire f = false) : (recordRun s fs).2.completed = s.2.completed ∧
      s.2.started.length ≤ (recordRun s fs).2.started.length := by
  induction fs generalizing s with
  | nil => exact ⟨rfl, le_rfl⟩
  | cons f fs ih =>
    obtain ⟨he, hf⟩ := List.forall_mem_cons.mp hf
    have hrec : (record s.2 s.1 f).completed = s.2.completed ∧
        s.2.started.length ≤ (record s.2 s.1 f).started.length := by
      unfold record
      dsimp only
      split_ifs with h1 h2 h3
      · exact ⟨rfl, by simp⟩
      · exact ⟨rfl, le_rfl⟩
      · simp [completes, he] at h3
      · exact ⟨rfl, le_rfl⟩
    obtain ⟨hc, hl⟩ := ih (devStep s.1 f, record s.2 s.1 f) hf
    exact ⟨hc.trans hrec.1, hrec.2.trans hl⟩

theorem accepted_of_isReset (m : Machine) {e : DevEvent} (hr : isReset e = true) :
    accepted m e = false := by
  cases e with
  | write addr val =>
    simp only [isReset, Bool.and_eq_true, beq_iff_eq] at hr
    simp [accepted, isStart, hr.1]
  | expire => rfl
  | pciReset => rfl
  | env bus guest => rfl

private theorem record_reset (s : Machine × Ledger) {r : DevEvent} (hr : isReset r = true) :
    (record s.2 s.1 r).started = s.2.started ∧ (record s.2 s.1 r).current = none ∧
      (record s.2 s.1 r).completed = s.2.completed := by
  rw [record, if_neg (by simp [accepted_of_isReset s.1 hr]), if_pos hr]
  exact ⟨rfl, rfl, rfl⟩

/-- A number that is no longer in progress stays out of the completions. -/
private theorem abandoned_run (s : Machine × Ledger) (es : List DevEvent) (k : Nat)
    (hk : k < s.2.started.length) (hcur : s.2.current ≠ some k)
    (hout : ∀ c ∈ s.2.completed, c.transfer ≠ some k) :
    ∀ c ∈ (recordRun s es).2.completed, c.transfer ≠ some k := by
  induction es generalizing s with
  | nil => exact hout
  | cons e es ih =>
    rw [recordRun]
    have hrec : k < (record s.2 s.1 e).started.length ∧ (record s.2 s.1 e).current ≠ some k ∧
        ∀ c ∈ (record s.2 s.1 e).completed, c.transfer ≠ some k := by
      unfold record
      dsimp only
      split_ifs
      · refine ⟨by simp; omega, ?_, hout⟩
        intro h
        cases h
        omega
      · exact ⟨hk, by simp, hout⟩
      · refine ⟨hk, by simp, ?_⟩
        intro c hc
        rcases List.mem_append.mp hc with hc | hc
        · exact hout c hc
        · rw [List.mem_singleton.mp hc]
          exact hcur
      · exact ⟨hk, hcur, hout⟩
    exact ih _ hrec.1 hrec.2.1 hrec.2.2

private theorem record_start {m : Machine} {l : Ledger} {e : DevEvent}
    (hs : accepted m e = true) : record l m e = { l with
      started := l.started ++ [(lddPcieTransfer (programmed m e)).1]
      current := some l.started.length } := by
  rw [record, if_pos hs]

theorem powerOn_engineInv (command : BitVec 16) (msix msi : Bool)
    (ram : Nat → LinuxDeviceDriver.Lib.LittleEndian.Byte) (props : Realized) (bus : DmaBus)
    (guest : Memory) : EngineInv (powerOn command msix msi ram props bus guest) {} where
  armed := by
    change anySet 0 lddStatusBusy = false
    decide
  word := .inl rfl
  running := rfl
  own _ hk := by cases hk
  codes _ hc := by cases hc
  logged _ hc := by cases hc
  fresh _ hc := by cases hc
  once := List.nodup_nil

/-- A START written while BUSY is 1 changes nothing at all. -/
theorem start_ignored (m : Machine) (e : DevEvent) (hs : isStart e = true)
    (hb : busy m.ps = true) : devStep m e = m := by
  cases e with
  | write addr val =>
    simp only [isStart, Bool.and_eq_true, beq_iff_eq] at hs
    simp [devStep, lddPcieBar0Write, hs.1, hb]
  | expire | pciReset | env bus guest => simp [isStart] at hs

/-- The next expiry completes the transfer in progress, with its own result. -/
private theorem expiry_completes {m : Machine} {l : Ledger} (hi : EngineInv m l) {k : Nat}
    {code : BitVec 32} (hk : l.current = some k) (hcode : l.started[k]? = some code) :
    (record l m .expire).completed = l.completed ++
      [⟨some k, statusOf code, m.ps.regs.intStatus, m.ps.regs.intStatus ||| intBitOf code⟩] ∧
    (devStep m .expire).ps.timer = false := by
  have harmed : m.ps.timer = true := by rw [← hi.running, hk]; rfl
  have hresult : m.ps.regs.result = code :=
    Option.some.inj ((hi.own k hk).2.symm.trans hcode)
  have hstep : devStep m .expire = setPs m (lddPcieComplete { m.ps with timer := false }) := by
    simp [devStep, timerExpire, harmed]
  have hregs : (devStep m .expire).ps.regs = { completeRegs m.ps.regs with
      irqSent := (devStep m .expire).ps.regs.irqSent } := by
    rw [hstep]
    rfl
  rw [completeRegs_eq, hresult] at hregs
  refine ⟨?_, by rw [hstep]; rfl⟩
  rw [record, if_neg (by simp [accepted, isStart]), if_neg (by simp [isReset]),
    if_pos (by simp [completes, isExpire, harmed]), hk, hregs]

/-- An accepted transfer that nothing resets is completed by the next expiry. -/
private theorem accepted_completes {m : Machine} {l : Ledger} (hi : EngineInv m l)
    {e : DevEvent} (he : accepted m e = true) (fs : List DevEvent)
    (hfs : ∀ f ∈ fs, isReset f = false ∧ isExpire f = false) :
    let t := recordRun (devStep m e, record l m e) fs
    let code := (lddPcieTransfer (programmed m e)).1
    t.2.completed = l.completed ∧
    (record t.2 t.1 .expire).completed = l.completed ++
      [⟨some l.started.length, statusOf code, t.1.ps.regs.intStatus,
        t.1.ps.regs.intStatus ||| intBitOf code⟩] ∧
    (devStep t.1 .expire).ps.timer = false := by
  intro t code
  have hstart := engineInv_step hi e
  have hrec := record_start (l := l) he
  have hrun : t.2 = record l m e :=
    in_progress_run (devStep m e, record l m e) fs hstart (by rw [hrec]; rfl) hfs
  have hinv : EngineInv t.1 t.2 := engineInv_run (devStep m e, record l m e) fs hstart
  have hcur : t.2.current = some l.started.length := by rw [hrun, hrec]
  have hcode : t.2.started[l.started.length]? = some code := by
    rw [hrun, hrec]
    simp [code]
  have hend := expiry_completes hinv hcur hcode
  have hsame : t.2.completed = l.completed := by rw [hrun, hrec]
  rw [hsame] at hend
  exact ⟨hsame, hend⟩

/-- The number that the next START gets is in no completion yet. -/
private theorem EngineInv.next_fresh {m : Machine} {l : Ledger} (hi : EngineInv m l) :
    ∀ c ∈ l.completed, c.transfer ≠ some l.started.length := by
  intro c hc hcon
  obtain ⟨j, code, hj, hget, -⟩ := hi.logged c hc
  obtain ⟨hlt, -⟩ := List.getElem?_eq_some_iff.mp hget
  rw [hj] at hcon
  cases hcon
  omega

/-- A transfer that is reset before its expiry never completes. -/
private theorem reset_abandons {m : Machine} {l : Ledger} (hi : EngineInv m l)
    {e : DevEvent} (he : accepted m e = true) (fs : List DevEvent) {r : DevEvent}
    (gs : List DevEvent) (hfs : ∀ f ∈ fs, isExpire f = false) (hr : isReset r = true) :
    ∀ c ∈ (recordRun (devStep m e, record l m e) (fs ++ r :: gs)).2.completed,
      c.transfer ≠ some l.started.length := by
  have hrec : record l m e = _ := record_start he
  obtain ⟨hsame, hlen⟩ := no_expiry_run (devStep m e, record l m e) fs hfs
  have hk : l.started.length <
      (recordRun (devStep m e, record l m e) fs).2.started.length := by
    refine lt_of_lt_of_le ?_ hlen
    simp [hrec]
  have hreset := record_reset (recordRun (devStep m e, record l m e) fs) hr
  rw [recordRun_append (devStep m e, record l m e) fs (r :: gs)]
  refine abandoned_run _ gs l.started.length ?_ ?_ ?_
  · rw [hreset.1]
    exact hk
  · rw [hreset.2.1]
    simp
  · rw [hreset.2.2, hsame, hrec]
    exact hi.next_fresh

private theorem record_ignored {m : Machine} (l : Ledger) {e : DevEvent} (hs : isStart e = true)
    (hb : busy m.ps = true) : record l m e = l := by
  cases e with
  | write addr val =>
    simp only [isStart, Bool.and_eq_true, beq_iff_eq] at hs
    rw [record, if_neg (by simp [accepted, hb]), if_neg (by simp [isReset, hs.1]),
      if_neg (by simp [completes, isExpire])]
  | expire | pciReset | env bus guest => simp [isStart] at hs

end LinuxDeviceDriver.Qemu.Pcie.Engine
