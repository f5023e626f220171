/- source: examples/30_netdev/main.c, lines 83 to 110 and 204 to 359
   digest: Receiving with NAPI: a frame that waits has a poll to come, and frames are passed up
     in the order they were queued. -/

import LinuxDeviceDriver.Drivers.Netdev.NapiLine
import LinuxDeviceDriver.Drivers.Netdev.ReceivePath

set_option autoImplicit false

namespace LinuxDeviceDriver.Drivers.Netdev.Napi

open Lib.Bits
open Lib.Handover
open Lib.Threads
open Lib.Transition (Steps Guarded exec_guarded_steps)
open Model Buffers Actions Ownership ReceivePath NapiLine

/-! ## The receive side of each device -/

/-- What an action is to the receive side of a device. -/
def job (d : Dev) : Instr → Option Job
  | .interrupt d' .rx => if d' = d then some .raise else none
  | .rxIntOff d' => if d' = d then some .intOff else none
  | .schedule d' => if d' = d then some .schedule else none
  | .reschedule d' => if d' = d then some .schedule else none
  | .poll d' _ _ => if d' = d then some .poll else none
  | .rxNapi d' _ _ _ => if d' = d then some .poll else none
  | .completeDone d' => if d' = d then some .complete else none
  | .lookAgain d' => if d' = d then some .look else none
  | .napiEnable d' => if d' = d then some .enable else none
  | .openLocked d' => if d' = d then some .open else none
  | .startQueue d' => if d' = d then some .start else none
  | .stopLocked d' => if d' = d then some .stop else none
  | .napiDisable d' => if d' = d then some .disable else none
  | .napiDisableWait d' => if d' = d then some .disableWait else none
  | .drain d' => if d' = d then some .drain else none
  | _ => none

def line (c : Core Lists) (m : Multiset Instr) (d : Dev) : Line where
  link := (c.shared.netdev d).link
  running := (c.shared.priv d).running
  intEnabled := (c.shared.priv d).rxIntEnabled
  bit := isSet (c.shared.priv d).status netdevRxIntr
  waiting := !(c.bufs.rx d).isEmpty
  napi := (c.shared.priv d).napi
  jobs := collect (job d) m

/-- What is done only without NAPI. -/
def regularOnly : Instr → Bool
  | .rxDequeue _ => true
  | .rxRegular _ _ => true
  | _ => false

section Line

variable {cfg : Params} {c c' : Core Lists} {rest : Multiset Instr} {a : Instr}
  {pushed : List Instr}

/-- The acknowledged interrupt of the device, as far as receiving goes. -/
private theorem interrupt_jobs (hcfg : cfg.useNapi = true) (d d' : Dev) (status : BitVec 32)
    (txSkb : Option Skb) (cause : Cause) : collect (job d)
      ((lddInterrupt cfg d' status txSkb ++ cause.rest d' : List Instr) : Multiset Instr) =
      if d' = d ∧ isSet status netdevRxIntr = true then {Job.intOff} else 0 := by
  have htx : ∀ (skb : Option Skb), collect (job d)
      (((skb.map (.txDone d')).toList : List Instr) : Multiset Instr) = 0 := by
    intro skb
    cases skb <;> simp [job]
  have hrest : collect (job d) ((cause.rest d' : List Instr) : Multiset Instr) = 0 := by
    cases cause <;> simp [Cause.rest, job]
  rw [collect_coe_append, lddInterrupt, collect_coe_append, htx, hrest, hcfg]
  by_cases hd : d' = d <;> by_cases hs : isSet status netdevRxIntr = true <;> simp [hd, hs, job]

/-- The actions that are about the receive side of a device. -/
def concerns (d : Dev) : Instr → Bool
  | .rxEnqueue d' _ => d' == d
  | .interrupt d' _ => d' == d
  | .rxIntOff d' => d' == d
  | .rxDequeue d' => d' == d
  | .schedule d' => d' == d
  | .poll d' _ _ => d' == d
  | .rxNapi d' _ _ _ => d' == d
  | .completeDone d' => d' == d
  | .lookAgain d' => d' == d
  | .reschedule d' => d' == d
  | .napiEnable d' => d' == d
  | .openLocked d' => d' == d
  | .startQueue d' => d' == d
  | .stopLocked d' => d' == d
  | .napiDisable d' => d' == d
  | .napiDisableWait d' => d' == d
  | .drain d' => d' == d
  | _ => false

private theorem jobs_keep (hcfg : cfg.useNapi = true) (h : Act cfg c a c' pushed) {d : Dev}
    (hc : concerns d a = false) :
    collect (job d) (pushed : Multiset Instr) = 0 ∧ job d a = none := by
  have hne : ∀ {d'}, (d' == d) = false → d' ≠ d := fun h hd => by simp [hd] at h
  cases h with
  | interrupt d' cause =>
    refine ⟨?_, by cases cause <;> simp [job, hne hc]⟩
    rw [interrupt_jobs hcfg, if_neg fun h => hne hc h.1]
  | stopLocked d' => simp [job, hcfg, hne hc]
  | _ => first
    | (simp [job]; done)
    | simp [job, hne hc]

private theorem line_keep (hcfg : cfg.useNapi = true) (h : Act cfg c a c' pushed) {d : Dev}
    (hc : concerns d a = false) :
    line c' ((pushed : Multiset Instr) + rest) d = line c (a ::ₘ rest) d := by
  have henq : ∀ pkt, a ≠ .rxEnqueue d pkt := by
    rintro pkt rfl
    simp [concerns] at hc
  have hint : ∀ cause, a ≠ .interrupt d cause := by
    rintro cause rfl
    simp [concerns] at hc
  have hopen : a ≠ .openLocked d := by
    rintro rfl
    simp [concerns] at hc
  have hstop : a ≠ .stopLocked d := by
    rintro rfl
    simp [concerns] at hc
  have htouch : touchesInt d a = false ∧ touchesRx d a = false ∧ touchesNapi d a = false ∧
      touchesLink d a = false := by
    cases a <;> first
      | exact ⟨rfl, rfl, rfl, rfl⟩
      | exact ⟨hc, rfl, rfl, rfl⟩
      | exact ⟨rfl, hc, rfl, rfl⟩
      | exact ⟨rfl, rfl, hc, rfl⟩
      | exact ⟨rfl, rfl, rfl, hc⟩
      | exact ⟨rfl, hc, hc, rfl⟩
      | exact ⟨rfl, hc, rfl, hc⟩
  obtain ⟨hon, hrx, hnapi, hlink⟩ := htouch
  obtain ⟨hpush, ha⟩ := jobs_keep hcfg h hc
  simp only [line, collect_add, collect_cons, hpush, ha, h.link d hlink, h.rxIntEnabled d hon,
    h.rxBit d henq hint, h.rx d hrx, h.napi d hnapi, h.running d, if_neg hopen, if_neg hstop,
    Option.toList_none, Multiset.coe_nil]

/-- A handler takes the receive interrupt along, whichever interrupt it was called for. -/
private theorem interrupt_turn (hcfg : cfg.useNapi = true) (d : Dev) (cause : Cause) :
    Turn (line c (.interrupt d cause ::ₘ rest) d)
      (line (c.mapPriv d fun p => (lddAckInterrupt p).2.2)
        (((lddInterrupt cfg d (c.shared.priv d).status (lddAckInterrupt (c.shared.priv d)).2.1 ++
          cause.rest d : List Instr) : Multiset Instr) + rest) d) := by
  have hjobs : (line c (.interrupt d cause ::ₘ rest) d).jobs = .raise ::ₘ collect (job d) rest ∨
      (line c (.interrupt d cause ::ₘ rest) d).jobs = collect (job d) rest := by
    cases cause <;> simp [line, job]
  have hack : ∀ p : LddDev, (lddAckInterrupt p).2.2.running = p.running ∧
      (lddAckInterrupt p).2.2.rxIntEnabled = p.rxIntEnabled ∧
      (lddAckInterrupt p).2.2.status = 0 ∧ (lddAckInterrupt p).2.2.napi = p.napi := by
    intro p
    unfold lddAckInterrupt
    split <;> exact ⟨rfl, rfl, rfl, rfl⟩
  obtain ⟨hrun, hint, hstatus, hnapi⟩ := hack (c.shared.priv d)
  cases hb : isSet (c.shared.priv d).status netdevRxIntr with
  | true =>
    have hturn := Turn.ack _ _ hjobs hb
    simpa [line, interrupt_jobs hcfg, hb, hrun, hint, hstatus, hnapi] using hturn
  | false =>
    have hturn := Turn.ackNone _ _ hjobs hb
    simpa [line, interrupt_jobs hcfg, hb, hrun, hint, hstatus, hnapi] using hturn

theorem act_turn (hcfg : cfg.useNapi = true) (h : Act cfg c a c' pushed)
    (hq : regularOnly a = false) (d : Dev) :
    Turn (line c (a ::ₘ rest) d) (line c' ((pushed : Multiset Instr) + rest) d) := by
  cases hc : concerns d a with
  | false =>
    rw [line_keep hcfg h hc]
    exact .stay _
  | true =>
    have hset : isSet netdevRxIntr netdevRxIntr = true := by decide
    have hput : ∀ (l : List PktRef) (pkt : PktRef), (l ++ [pkt]).isEmpty = false := by simp
    have hdev : ∀ {d'}, (d' == d) = true → d' = d := beq_iff_eq.mp
    cases h with
    | lost d' pkt => simpa [line, job] using Turn.stay (line c (.rxEnqueue d' pkt ::ₘ rest) d)
    | queue d' pkt hrun hint =>
      obtain rfl := hdev hc
      simpa [line, job, isSet_or, hset, hput] using
        Turn.queue (line c (.rxEnqueue d' pkt ::ₘ rest) d') hrun hint
    | queueQuiet d' pkt hrun hint =>
      obtain rfl := hdev hc
      simpa [line, job, hput] using
        Turn.queueQuiet (line c (.rxEnqueue d' pkt ::ₘ rest) d') hrun hint
    | interrupt d' cause =>
      obtain rfl := hdev hc
      exact interrupt_turn hcfg d' cause
    | rxNone d' => cases hq
    | rxSome d' => cases hq
    | rxRegular d' => cases hq
    | rxIntOff d' =>
      obtain rfl := hdev hc
      simpa [line, job] using Turn.intOff (line c (.rxIntOff d' ::ₘ rest) d')
        (collect (job d') rest) (by simp [line, job])
    | schedule d' =>
      obtain rfl := hdev hc
      simpa [line, job] using Turn.schedule (line c (.schedule d' ::ₘ rest) d')
        (collect (job d') rest) (by simp [line, job])
    | pollSpent d' budget done =>
      obtain rfl := hdev hc
      simpa [line, job] using Turn.pollSpent (line c (.poll d' budget done ::ₘ rest) d')
        (collect (job d') rest) (by simp [line, job])
    | pollNone d' budget done hr =>
      obtain rfl := hdev hc
      simpa [line, job] using Turn.pollNone (line c (.poll d' budget done ::ₘ rest) d')
        (collect (job d') rest) (by simp [line, job]) (by simp [line, hr])
    | pollSome d' budget done pkt l hr =>
      obtain rfl := hdev hc
      simpa [line, job] using Turn.pollSome (line c (.poll d' budget done ::ₘ rest) d')
        (!l.isEmpty) (by simp [line, job]) (by simp [line, hr])
    | rxNapi d' pkt budget done memory =>
      obtain rfl := hdev hc
      have hlink : ((lddRx c d' pkt true memory).shared.netdev d').link =
          (c.shared.netdev d').link := (lddRx_netdev d').1
      simpa [line, job, hlink] using Turn.stay (line c (.rxNapi d' pkt budget done ::ₘ rest) d')
    | completeMissed d' hm =>
      obtain rfl := hdev hc
      simpa [line, job] using Turn.completeMissed (line c (.completeDone d' ::ₘ rest) d')
        (collect (job d') rest) (by simp [line, job]) hm
    | complete d' hm =>
      obtain rfl := hdev hc
      simpa [line, job] using Turn.complete (line c (.completeDone d' ::ₘ rest) d')
        (collect (job d') rest) (by simp [line, job]) hm
    | lookMore d' hr =>
      obtain rfl := hdev hc
      simpa [line, job] using Turn.lookMore (line c (.lookAgain d' ::ₘ rest) d')
        (collect (job d') rest) (by simp [line, job]) (by simp [line, hr])
    | lookNone d' hr =>
      obtain rfl := hdev hc
      simpa [line, job] using Turn.lookNone (line c (.lookAgain d' ::ₘ rest) d')
        (collect (job d') rest) (by simp [line, job]) (by simp [line, hr])
    | reschedule d' =>
      obtain rfl := hdev hc
      simpa [line, job] using Turn.schedule (line c (.reschedule d' ::ₘ rest) d')
        (collect (job d') rest) (by simp [line, job])
    | napiEnable d' =>
      obtain rfl := hdev hc
      simpa [line, job] using Turn.enable (line c (.napiEnable d' ::ₘ rest) d')
        (collect (job d') rest) (by simp [line, job])
    | openLocked d' =>
      obtain rfl := hdev hc
      simpa [line, job] using Turn.open (line c (.openLocked d' ::ₘ rest) d')
        (collect (job d') rest) (by simp [line, job])
    | startQueue d' =>
      obtain rfl := hdev hc
      simpa [line, job] using Turn.start (line c (.startQueue d' ::ₘ rest) d')
        (collect (job d') rest) (by simp [line, job])
    | stopLocked d' =>
      obtain rfl := hdev hc
      simpa [line, job, hcfg] using Turn.stop (line c (.stopLocked d' ::ₘ rest) d')
        (collect (job d') rest) (by simp [line, job])
    | napiDisable d' =>
      obtain rfl := hdev hc
      simpa [line, job] using Turn.disable (line c (.napiDisable d' ::ₘ rest) d')
        (collect (job d') rest) (by simp [line, job])
    | napiDisabled d' hs =>
      obtain rfl := hdev hc
      simpa [line, job] using Turn.disabled (line c (.napiDisableWait d' ::ₘ rest) d')
        (collect (job d') rest) (by simp [line, job]) hs
    | drainNone d' hr =>
      obtain rfl := hdev hc
      simpa [line, job] using Turn.drainNone (line c (.drain d' ::ₘ rest) d')
        (collect (job d') rest) (by simp [line, job]) (by simp [line, hr])
    | drainSome d' pkt l hr =>
      obtain rfl := hdev hc
      simpa [line, job] using Turn.drainSome (line c (.drain d' ::ₘ rest) d')
        (!l.isEmpty) (by simp [line, job]) (by simp [line, hr])
    | _ => cases hc

theorem start_turn {t : Sys Lists} {e : Event} (hcfg : cfg.useNapi = true) (hg : RtnlSerial t e)
    (h : Start cfg t e c a) (d : Dev) : Turn (line t.core t.pending d) (line c (a ::ₘ t.pending) d) := by
  have hstay : line c (a ::ₘ t.pending) d = line t.core t.pending d →
      Turn (line t.core t.pending d) (line c (a ::ₘ t.pending) d) := by
    intro heq
    rw [heq]
    exact .stay _
  cases h with
  | xmit d' protocol data => exact hstay (by simp [line, job])
  | openNapi d' =>
    by_cases hd : d' = d
    · subst hd
      simpa [line, job] using Turn.openCall (line t.core t.pending d') hg
    · exact hstay (by simp [line, job, hd, Function.update_of_ne (Ne.symm hd)])
  | openRegular d' hn =>
    rw [hcfg] at hn
    cases hn
  | stop d' =>
    by_cases hd : d' = d
    · subst hd
      simpa [line, job] using Turn.stopCall (line t.core t.pending d') hg
    · exact hstay (by simp [line, job, hd, Function.update_of_ne (Ne.symm hd)])
  | poll d' budget hn hlisted =>
    by_cases hd : d' = d
    · subst hd
      simpa [line, job] using Turn.pollStart (line t.core t.pending d') hlisted
    · exact hstay (by simp [line, job, hd, Function.update_of_ne (Ne.symm hd)])

theorem line_init (b : Lists) (hb : ∀ d, b.rx d = []) (d : Dev) :
    LineInv (line (initial b).core (initial b).pending d) := by
  constructor <;> simp [line, initial, Pool.pending, hb, Line.phases, Line.polling, Line.off]

end Line

/-! ## The frames -/

section Frames

variable {cfg : Params} {c c' : Core Lists} {rest : Multiset Instr} {a : Instr}
  {pushed : List Instr}

private theorem act_quiet (hcfg : cfg.useNapi = true) (h : Act cfg c a c' pushed)
    (ha : regularOnly a = false) : cnt regularOnly (pushed : Multiset Instr) = 0 := by
  cases h with
  | interrupt d' cause =>
    rw [cnt_eq_zero]
    intro b hb
    rcases mem_lddInterrupt hb with ⟨-, -, rfl⟩ | ⟨-, hn, -⟩ | ⟨skb, -, rfl⟩ | ⟨id, -, rfl⟩
    · rfl
    · simp [hcfg] at hn
    all_goals rfl
  | stopLocked d' => simp [hcfg, regularOnly]
  | _ => first
    | (simp [regularOnly]; done)
    | cases ha

private theorem handed_poll {m : Multiset Instr} {d : Dev} (hq : cnt regularOnly m = 0)
    (h : collect (handed c d) m ≠ 0) : 0 < (collect (job d) m).count .poll := by
  obtain ⟨f, hf⟩ := Multiset.exists_mem_of_ne_zero h
  obtain ⟨b, hb, hhand⟩ := mem_collect.mp hf
  refine Multiset.count_pos.mpr (mem_collect.mpr ⟨b, hb, ?_⟩)
  cases b with
  | rxNapi d' pkt budget done =>
    by_cases hd : d' = d
    · simp [job, hd]
    · simp [handed, hd] at hhand
  | rxRegular d' pkt =>
    have hreg : regularOnly (.rxRegular d' pkt) = false := cnt_eq_zero.mp hq _ hb
    cases hreg
  | _ => cases hhand

/-- A poll takes a frame, and ldd_stop discards one, while no other frame is in hand. -/
theorem act_whole (h : Act cfg c a c' pushed) (hbuf : BufInv cfg c (a ::ₘ rest))
    (hq : cnt regularOnly (a ::ₘ rest) = 0) (d : Dev) (hl : LineInv (line c (a ::ₘ rest) d))
    (hw : Whole (rxPipe c (a ::ₘ rest) d)) :
    Whole (rxPipe c' ((pushed : Multiset Instr) + rest) d) := by
  obtain ⟨k, hmove, htake, hdiscard⟩ := act_pipe h hbuf d
  have hq' : cnt regularOnly rest = 0 :=
    cnt_eq_zero.mpr fun b hb => cnt_eq_zero.mp hq b (Multiset.mem_cons_of_mem hb)
  refine hw.move hmove ?_ ?_
  · intro hk
    obtain ⟨budget, done, rfl⟩ : ∃ budget done, a = .poll d budget done := by
      rcases htake hk with rfl | hpoll
      · have hreg : regularOnly (.rxDequeue d) = false :=
          cnt_eq_zero.mp hq _ (Multiset.mem_cons_self _ _)
        cases hreg
      · exact hpoll
    by_contra hhand
    have hpos : 0 < (collect (job d) rest).count .poll := by
      refine handed_poll (c := c) hq' ?_
      simpa [rxPipe, handed] using hhand
    have hone := (hl.polled (by simp [Line.polling, line, job])).1
    simp only [Line.polling, line, job, collect_cons, if_true, Option.toList_some,
      Multiset.coe_singleton, Multiset.singleton_add, Multiset.count_cons_self] at hone
    omega
  · intro r hk
    obtain ⟨-, rfl⟩ := hdiscard r hk
    by_contra hhand
    have hpos : 0 < (collect (job d) rest).count .poll := by
      refine handed_poll (c := c) hq' ?_
      simpa [rxPipe, handed] using hhand
    have hpolling : 0 < (line c (.drain d ::ₘ rest) d).polling := by
      refine Nat.add_pos_left (Nat.lt_of_lt_of_le hpos ?_) _
      simp [line, job]
    have hoff := (hl.polled hpolling).2.2.2
    simp [Line.off, line, job] at hoff

private theorem act_fate (h : Act cfg c a c' pushed) (ha : regularOnly a = false) (d : Dev)
    (hf : ∀ f ∈ (c.shared.log d).settled, f.2 ≠ .netifRx) :
    ∀ f ∈ (c'.shared.log d).settled, f.2 ≠ .netifRx := by
  have hlog := h.rxLog d
  have hsettle : ∀ (d' : Dev) (x : Frame × Fate), x.2 ≠ .netifRx →
      ∀ f ∈ (Function.update c.shared.log d' { c.shared.log d' with
        settled := (c.shared.log d').settled ++ [x] } d).settled, f.2 ≠ .netifRx := by
    intro d' x hx f hmem
    by_cases hd : d = d'
    · subst hd
      rw [Function.update_self, List.mem_append, List.mem_singleton] at hmem
      rcases hmem with hmem | rfl
      · exact hf f hmem
      · exact hx
    · rw [Function.update_of_ne hd] at hmem
      exact hf f hmem
  cases h with
  | rxNapi d' pkt budget done memory =>
    rw [lddRx_log]
    exact hsettle d' _ (by cases memory <;> simp [rxFate])
  | drainSome d' pkt l => exact hsettle d' _ (by simp)
  | rxRegular => cases ha
  | queue d' pkt | queueQuiet d' pkt =>
    by_cases hd : d = d'
    · subst hd
      simpa using hf
    · rw [(hlog (by simp [recordsRx, Ne.symm hd])).2]
      exact hf
  | drainNone | lost => exact hf
  | _ =>
    rw [(hlog rfl).2]
    exact hf

end Frames

/-- What every step keeps with NAPI, if the kernel opens and stops a device in turn. -/
structure NapiInv (cfg : Params) (c : Core Lists) (m : Multiset Instr) : Prop where
  buf : BufInv cfg c m
  quiet : cnt regularOnly m = 0
  lines : ∀ d, LineInv (line c m d)
  whole : ∀ d, Whole (rxPipe c m d)
  fate : ∀ d, ∀ f ∈ (c.shared.log d).settled, f.2 ≠ .netifRx

section NapiInv

variable {cfg : Params} {c c' : Core Lists} {rest : Multiset Instr} {a : Instr}
  {pushed : List Instr} {t t' : Sys Lists} {e : Event}

theorem NapiInv.act (hcfg : cfg.useNapi = true) (h : Act cfg c a c' pushed)
    (hi : NapiInv cfg c (a ::ₘ rest)) : NapiInv cfg c' ((pushed : Multiset Instr) + rest) := by
  have hq := hi.quiet
  rw [cnt_cons] at hq
  have ha : regularOnly a = false := Bool.toNat_eq_zero.mp (by omega)
  refine ⟨hi.buf.act h, ?_, fun d => (hi.lines d).turn (act_turn hcfg h ha d),
    fun d => act_whole h hi.buf hi.quiet d (hi.lines d) (hi.whole d),
    fun d => act_fate h ha d (hi.fate d)⟩
  rw [cnt_add, act_quiet hcfg h ha]
  omega

theorem NapiInv.start (hcfg : cfg.useNapi = true) (hg : RtnlSerial t e) (h : Start cfg t e c a)
    (hbuf : BufInv cfg c (a ::ₘ t.pending)) (hi : NapiInv cfg t.core t.pending) :
    NapiInv cfg c (a ::ₘ t.pending) := by
  have ha : regularOnly a = false := by cases h <;> rfl
  refine ⟨hbuf, ?_, fun d => (hi.lines d).turn (start_turn hcfg hg h d), ?_, ?_⟩
  · rw [cnt_cons, ha, hi.quiet]
    rfl
  · intro d
    rw [start_pipe h]
    exact hi.whole d
  · rw [h.log]
    exact hi.fate

theorem NapiInv.step (hcfg : cfg.useNapi = true) (hi : NapiInv cfg t.core t.pending)
    (h : Guarded RtnlSerial (Step listOps cfg) t e t') : NapiInv cfg t'.core t'.pending := by
  have hbuf := hi.buf.step h.2
  rcases step_cases h.2 with ⟨a, hstart, hp⟩ | ⟨a, rest, pushed, hp, hact, hp', -⟩
  · rw [hp] at hbuf ⊢
    exact hi.start hcfg h.1 hstart hbuf
  · rw [hp']
    exact NapiInv.act hcfg hact (hp ▸ hi)

theorem NapiInv.init (cfg : Params) :
    NapiInv cfg (initial (listInit cfg)).core (initial (listInit cfg)).pending where
  buf := BufInv.init cfg
  quiet := rfl
  lines := line_init _ fun _ => rfl
  whole _ := ⟨[], rfl, Nat.zero_le 1, rfl⟩
  fate := by simp [initial]

end NapiInv

theorem rtnlSerial_lists (s : Sys Links) (t : Sys Lists) (e : Event)
    (hsh : s.core.shared = t.core.shared) (h : RtnlSerial s e) : RtnlSerial t e := by
  cases e with
  | «open» d | stop d =>
    rw [RtnlSerial, ← hsh]
    exact h
  | _ => trivial

/-- What the poll function has left to do once it is called. A look that found a frame
is not its last: it goes on to schedule itself. -/
def polls (d : Dev) : Instr → Bool
  | .poll d' _ _ => d' == d
  | .rxNapi d' _ _ _ => d' == d
  | .completeDone d' => d' == d
  | .lookAgain d' => d' == d
  | .reschedule d' => d' == d
  | _ => false

/-- The poll function is in NAPI's list, or runs and has not done its last look. -/
def PollToCome {B : Type} (s : Sys B) (d : Dev) : Prop :=
  (s.core.shared.priv d).napi.listed = true ∨ ∃ a ∈ s.pending, polls d a = true

/-- A thread that has queued a frame and raised the interrupt has yet to handle it, or one
that has acknowledged it has yet to call napi_schedule. -/
def ScheduleToCome {B : Type} (s : Sys B) (d : Dev) : Prop :=
  (isSet (s.core.shared.priv d).status netdevRxIntr = true ∧ .interrupt d .rx ∈ s.pending) ∨
    .rxIntOff d ∈ s.pending ∨ .schedule d ∈ s.pending

section Awake

variable {cfg : Params} {c : Core Lists} {m : Multiset Instr} {d : Dev} {a : Instr} {t : Sys Lists}

private theorem job_pending {j : Job} (h : 0 < (line c m d).jobs.count j) :
    ∃ a ∈ m, job d a = some j := mem_collect.mp (Multiset.count_pos.mp h)

private theorem job_polls {j : Job} (hj : j = .poll ∨ j = .complete ∨ j = .look)
    (h : job d a = some j) : polls d a = true := by
  cases a <;> simp only [job, polls] at h ⊢ <;> grind

private theorem job_raise (h : job d a = some .raise) : a = .interrupt d .rx := by
  cases a <;> simp only [job] at h <;> grind

private theorem job_intOff (h : job d a = some .intOff) : a = .rxIntOff d := by
  cases a <;> simp only [job] at h <;> grind

private theorem job_schedule (h : job d a = some .schedule) : a = .schedule d ∨ polls d a = true := by
  cases a <;> simp only [job] at h <;> grind [polls]

theorem NapiInv.awake (hi : NapiInv cfg t.core t.pending)
    (hrun : (t.core.shared.priv d).running = true) (hrx : t.core.bufs.rx d ≠ []) :
    PollToCome t d ∨ ScheduleToCome t d := by
  have hpoll : ∀ {j : Job}, (j = .poll ∨ j = .complete ∨ j = .look) →
      0 < (line t.core t.pending d).jobs.count j → PollToCome t d ∨ ScheduleToCome t d := by
    intro j hj hpos
    obtain ⟨a, ha, hjob⟩ := job_pending hpos
    exact .inl (.inr ⟨a, ha, job_polls hj hjob⟩)
  have hwait : (line t.core t.pending d).waiting = true := by simpa [line] using hrx
  rcases (hi.lines d).awake hrun (.inl hwait) with hlisted | hpos | hbit | hpos
  · exact .inl (.inl hlisted)
  · rw [Line.polling, Nat.add_pos_iff_pos_or_pos, Nat.add_pos_iff_pos_or_pos] at hpos
    rcases hpos with (hpos | hpos) | hpos
    · exact hpoll (.inl rfl) hpos
    · exact hpoll (.inr (.inl rfl)) hpos
    · exact hpoll (.inr (.inr rfl)) hpos
  · obtain ⟨a, ha, hjob⟩ := job_pending ((hi.lines d).bit hbit)
    exact .inr (.inl ⟨hbit, job_raise hjob ▸ ha⟩)
  · rcases Nat.add_pos_iff_pos_or_pos.mp hpos with hpos | hpos
    · obtain ⟨a, ha, hjob⟩ := job_pending hpos
      exact .inr (.inr (.inl (job_intOff hjob ▸ ha)))
    · obtain ⟨a, ha, hjob⟩ := job_pending hpos
      rcases job_schedule hjob with rfl | hp
      · exact .inr (.inr (.inr ha))
      · exact .inl (.inr ⟨a, ha, hp⟩)

theorem NapiInv.hold (hi : NapiInv cfg t.core t.pending) {f : Frame}
    (hf : f ∈ collect (handed t.core d) t.pending) :
    ∃ pkt budget done, .rxNapi d pkt budget done ∈ t.pending ∧
      f = (t.core.shared.packet pkt).frame := by
  obtain ⟨a, ha, hframe⟩ := mem_collect.mp hf
  cases a with
  | rxNapi d' pkt budget done =>
    rw [handed] at hframe
    obtain ⟨rfl, heq⟩ := Option.ite_none_right_eq_some.mp hframe
    exact ⟨pkt, budget, done, ha, (Option.some.inj heq).symm⟩
  | rxRegular d' pkt =>
    have hreg : regularOnly (.rxRegular d' pkt) = false := cnt_eq_zero.mp hi.quiet _ ha
    cases hreg
  | _ => cases hframe

end Awake

/-- With NAPI, over every run in which the kernel opens and stops each device in turn: a
running device whose receive queue is not empty has a poll or a napi_schedule to come; and
what was queued at it is, in that order, what was passed up, dropped for lack of memory or
by ldd_stop, then what the poll holds, then what waits. -/
theorem napi_no_lost_wakeup (cfg : Params) (hcfg : cfg.useNapi = true) (es : List Event)
    (s : Sys Links) (h : Steps (Guarded RtnlSerial (NetStep cfg)) (netInit cfg) es s) (d : Dev) :
    ((s.core.shared.priv d).running = true → s.core.bufs.rxHead d ≠ none →
      PollToCome s d ∨ ScheduleToCome s d) ∧
    ∃ b hold, Placed cfg s b ∧ hold.length ≤ 1 ∧
      (∀ f ∈ hold, ∃ pkt budget done, .rxNapi d pkt budget done ∈ s.pending ∧
        f = (s.core.shared.packet pkt).frame) ∧
      (s.core.shared.log d).settled.map Prod.fst ++
        (hold ++ (b.rx d).map fun pkt => (s.core.shared.packet pkt).frame) =
          (s.core.shared.log d).queued ∧
      ∀ f ∈ (s.core.shared.log d).settled,
        f.2 = .netifReceiveSkb ∨ f.2 = .noMemory ∨ f.2 = .stopped := by
  obtain ⟨t, ht, hr⟩ := netdev_lists (fun s t e _ => rtnlSerial_lists s t e) h
  have hi := ht.invariant
    (fun t _ _ (hi : NapiInv cfg t.core t.pending) hs => hi.step hcfg hs) (NapiInv.init cfg)
  simp only [PollToCome, ScheduleToCome, hr.shared, hr.pending]
  constructor
  · intro hrun hhead
    refine hi.awake hrun ?_
    intro hnil
    rw [(hr.rep.rx d).head_eq, hnil] at hhead
    exact hhead rfl
  · obtain ⟨hold, hhand, hlen, hwhole⟩ := hi.whole d
    have hmem : collect (handed t.core d) t.pending = hold := hhand
    refine ⟨_, hold, hr.placed, hlen, ?_, hwhole, ?_⟩
    · intro f hf
      refine hi.hold ?_
      rw [hmem]
      exact hf
    · intro f hf
      have hne := hi.fate d f hf
      cases hfate : f.2 with
      | netifRx => exact absurd hfate hne
      | netifReceiveSkb => exact .inl rfl
      | noMemory => exact .inr (.inl rfl)
      | stopped => exact .inr (.inr rfl)

/-- sn1 is up and polling; sn0 has sent two frames, of which the first was passed up. -/
def oneOfTwoPolled : List Event :=
  [Event.open .sn1, .run 0 true, .run 0 true, .run 0 true] ++
  [Event.startXmit .sn0 ethPIp (List.replicate 34 1)] ++ List.replicate 9 (Event.run 1 true) ++
  [Event.startXmit .sn0 ethPIp (List.replicate 34 2)] ++ List.replicate 4 (Event.run 2 true) ++
  [Event.poll .sn1 64] ++ List.replicate 2 (Event.run 3 true)

theorem napi_no_lost_wakeup_two_frames :
    ∃ s, Steps (Guarded RtnlSerial (NetStep ⟨true, 2, Nat.le_succ 1, fun _ => (0, 0)⟩))
        (netInit ⟨true, 2, Nat.le_succ 1, fun _ => (0, 0)⟩) oneOfTwoPolled s ∧
      (s.core.shared.log .sn1).settled.map (fun f => (f.1.call, f.2)) = [(0, .netifReceiveSkb)] ∧
      (PollToCome s .sn1 ∨ ScheduleToCome s .sn1) := by
  have hexec : (Lib.Transition.exec (fun s e => if RtnlSerial s e then
        next linkOps ⟨true, 2, Nat.le_succ 1, fun _ => (0, 0)⟩ s e else none)
      (netInit ⟨true, 2, Nat.le_succ 1, fun _ => (0, 0)⟩) oneOfTwoPolled).map
      (fun s => ((s.core.shared.priv .sn1).running, s.core.bufs.rxHead .sn1,
        (s.core.shared.log .sn1).settled.map (fun f => (f.1.call, f.2)))) =
      some (true, some ⟨.sn0, 1⟩, [(0, .netifReceiveSkb)]) := by
    decide +kernel
  obtain ⟨s, hs, hd⟩ := Option.map_eq_some_iff.mp hexec
  have hrun : Steps (Guarded RtnlSerial (NetStep _)) _ _ s := exec_guarded_steps hs
  obtain ⟨hup, hhead, hlog⟩ : _ ∧ _ ∧ _ :=
    ⟨congrArg Prod.fst hd, congrArg (fun r => r.2.1) hd, congrArg (fun r => r.2.2) hd⟩
  refine ⟨s, hrun, hlog, (napi_no_lost_wakeup _ rfl _ s hrun .sn1).1 hup ?_⟩
  intro hnone
  rw [hnone] at hhead
  cases hhead

end LinuxDeviceDriver.Drivers.Netdev.Napi
