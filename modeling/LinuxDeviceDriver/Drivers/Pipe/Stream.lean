/- source: examples/08_pipe_simple_sleep/fops.c, lines 31 to 146;
     examples/09_pipe_advanced_sleep/fops.c, lines 32 to 174
   digest: What the readers of a pipe take, in mutex order, is what the writers have put into it,
     up to what the buffer still holds; a call that fails takes and puts nothing. -/

import LinuxDeviceDriver.Drivers.Pipe.Model
import LinuxDeviceDriver.Lib.Calls
import LinuxDeviceDriver.Lib.Mutex

set_option autoImplicit false

namespace LinuxDeviceDriver.Drivers.Pipe.Stream

open Lib.Blocks (patch slice slice_append slice_length slice_patch slice_zero)
open Lib.Calls (Ledger entriesOf entriesOf_other entriesOf_own)
open Lib.LittleEndian (Byte)
open Lib.Mutex (Locked)
open Lib.Transition (Steps exec exec_steps)
open CharFile (eagain efault erestartsys)
open Model hiding exec

/-- What calls have moved, in order. -/
def bytes (moved : List (Nat × List Byte)) : List Byte := moved.flatMap Prod.snd

theorem bytes_append (moved : List (Nat × List Byte)) (id : Nat) (data : List Byte) :
    bytes (moved ++ [(id, data)]) = bytes moved ++ data := by
  simp [bytes]

/-- The bytes that have not been read yet. -/
def unread (d : PipeDev) : List Byte := slice d.buff d.rdPos (d.buffLen - d.rdPos)

/-! ## The buffer -/

/-- The two cursors, and the stream that has gone through the buffer. -/
structure Flow (d : PipeDev) : Prop where
  cursors : (d.rdPos < d.buffLen ∧ d.buffLen ≤ buffSize) ∨ (d.rdPos = 0 ∧ d.buffLen = 0)
  stream : bytes d.took ++ unread d = bytes d.put

/-- What the holder of the mutex knows before each of its steps. -/
def Holds (d : PipeDev) : Act → Prop
  | .copy c => d.ready c.side = true
  | .commit c data =>
    d.ready c.side = true ∧
      match c.request with
      | .read _ => data.length ≤ d.buffLen - d.rdPos ∧ data = slice d.buff d.rdPos data.length
      | .write _ => data.length ≤ buffSize ∧ slice d.buff 0 data.length = data
  | _ => True

/-- The flow is in order at every step, and the mutex is held by one call. -/
structure Data (d : PipeDev) (m : Multiset Act) : Prop where
  flow : Flow d
  mutex : Locked Act.inside PipeDev.mutex (fun _ => True) Holds d m

namespace Flow

variable {d : PipeDev} {c : Call} {data : List Byte}

theorem rdPos_le (h : Flow d) : d.rdPos ≤ d.buffLen ∧ d.buffLen ≤ buffSize := by
  rcases h.cursors with h | h
  · omega
  · exact ⟨by omega, by rw [h.2]; exact Nat.zero_le _⟩

/-- A read takes its bytes off the front of what is unread. -/
theorem consume (h : Flow d) (hlen : data.length ≤ d.buffLen - d.rdPos)
    (hdata : data = slice d.buff d.rdPos data.length) : Flow (d.consume c data) := by
  have hle := h.rdPos_le
  have hsplit : unread d = data ++
      slice d.buff (d.rdPos + data.length) (d.buffLen - (d.rdPos + data.length)) := by
    have hsum : d.buffLen - d.rdPos =
        data.length + (d.buffLen - (d.rdPos + data.length)) := by omega
    rw [unread, hsum, slice_append, ← hdata]
  have hstream : bytes (d.took ++ [(c.id, data)]) ++
      slice d.buff (d.rdPos + data.length) (d.buffLen - (d.rdPos + data.length)) =
        bytes d.put := by
    rw [bytes_append, List.append_assoc, ← hsplit]
    exact h.stream
  unfold PipeDev.consume
  dsimp only
  split
  · next hdrained =>
    refine ⟨.inr ⟨rfl, rfl⟩, ?_⟩
    have hnone : d.buffLen - (d.rdPos + data.length) = 0 := by omega
    rw [hnone, slice_zero] at hstream
    exact hstream
  · next hmore => exact ⟨.inl ⟨by dsimp only; omega, hle.2⟩, hstream⟩

theorem supply (h : Flow d) (hempty : d.buffLen = 0) (hlen : data.length ≤ buffSize)
    (hdata : slice d.buff 0 data.length = data) : Flow (d.supply c data) := by
  have hstream := h.stream
  rw [unread, hempty, Nat.zero_sub, slice_zero, List.append_nil] at hstream
  unfold PipeDev.supply
  dsimp only
  split
  · next hpos =>
    refine ⟨.inl ⟨hpos, hlen⟩, ?_⟩
    show bytes d.took ++ slice d.buff 0 (data.length - 0) = bytes (d.put ++ [(c.id, data)])
    rw [Nat.sub_zero, hdata, bytes_append, hstream]
  · next hnone =>
    obtain rfl : data = [] := List.eq_nil_of_length_eq_zero (by omega)
    refine ⟨h.cursors, ?_⟩
    show bytes d.took ++ unread d = bytes (d.put ++ [(c.id, [])])
    rw [bytes_append, List.append_nil]
    exact h.stream

theorem rewrite (h : Flow d) (hempty : d.buffLen = 0) (buff : Vector Byte buffSize) :
    Flow { d with buff } where
  cursors := h.cursors
  stream := by
    have hstream := h.stream
    rw [unread, hempty, Nat.zero_sub, slice_zero] at hstream
    show _ ++ slice buff d.rdPos (d.buffLen - d.rdPos) = _
    rw [hempty, Nat.zero_sub, slice_zero, hstream]

end Flow

section Fields

variable {d : PipeDev} {c : Call} {data : List Byte}

theorem consume_mutex : (d.consume c data).mutex = d.mutex := by
  unfold PipeDev.consume
  dsimp only
  split <;> rfl

theorem supply_mutex : (d.supply c data).mutex = d.mutex := by
  unfold PipeDev.supply
  dsimp only
  split <;> rfl

end Fields

namespace Data

variable {d d' : PipeDev} {m rest : Multiset Act} {a : Act} {c : Call} {pushed : List Act}

theorem start (h : Data d m) (c : Call) :
    Data { d with calls := d.calls + 1 } (([.lock c] : List Act) + m) where
  flow := ⟨h.flow.cursors, h.flow.stream⟩
  mutex := h.mutex.add rfl rfl (fun _ => trivial) fun _ _ _ hb => hb

theorem outside (h : Data d (a ::ₘ rest)) (ha : a.inside = false)
    (hpushed : Lib.Threads.cnt Act.inside (pushed : Multiset Act) = 0) (hflow : Flow d')
    (hmutex : d'.mutex = d.mutex) (hholds : ∀ b, Holds d b → Holds d' b) :
    Data d' ((pushed : Multiset Act) + rest) :=
  ⟨hflow, h.mutex.frame ha hpushed hmutex (fun _ => trivial) fun b _ => hholds b⟩

theorem held (h : Data d (a ::ₘ rest)) (ha : a.inside = true ∨ d.mutex = false) {b : Act}
    (hflow : Flow d') (hmutex : d'.mutex = true) (hb : b.inside = true) (hholds : Holds d' b) :
    Data d' (([b] : List Act) + rest) :=
  ⟨hflow, h.mutex.alone ha (Locked.taken hmutex hb hholds)⟩

theorem released (h : Data d (a ::ₘ rest)) (ha : a.inside = true) (hflow : Flow d')
    (hmutex : d'.mutex = false)
    (hpushed : Lib.Threads.cnt Act.inside (pushed : Multiset Act) = 0) :
    Data d' ((pushed : Multiset Act) + rest) :=
  ⟨hflow, h.mutex.alone (.inl ha) (Locked.given_back hmutex hpushed trivial)⟩

theorem copied (h : Data d (.copy c ::ₘ rest)) (o : Choice) :
    Data (userCopy o d c).1 (([(userCopy o d c).2] : List Act) + rest) := by
  have hheld : d.mutex = true := h.mutex.locked_of_inside (Multiset.mem_cons_self _ _) rfl
  have hready : d.ready c.side = true := h.mutex.held _ (Multiset.mem_cons_self _ _) rfl
  have hle := h.flow.rdPos_le
  unfold userCopy
  split
  · next count hrequest =>
    dsimp only
    split
    · exact h.held (.inl rfl) h.flow hheld rfl trivial
    · have hfit : d.rdPos + min count (d.buffLen - d.rdPos) ≤ buffSize := by omega
      have hlen : (slice d.buff d.rdPos (min count (d.buffLen - d.rdPos))).length = _ :=
        slice_length hfit
      refine h.held (.inl rfl) h.flow hheld rfl ⟨hready, ?_⟩
      rw [hrequest]
      dsimp only
      rw [hlen]
      exact ⟨Nat.min_le_right _ _, rfl⟩
  · next buff hrequest =>
    have hempty : d.buffLen = 0 := by
      rw [Call.side, hrequest] at hready
      exact of_decide_eq_true hready
    dsimp only
    split
    · exact h.held (.inl rfl) (h.flow.rewrite hempty _) hheld rfl trivial
    · next hall =>
      refine h.held (.inl rfl) (h.flow.rewrite hempty _) hheld rfl ⟨hready, ?_⟩
      rw [hrequest]
      dsimp only
      have hlen : (buff.take (min buff.length buffSize - o.uncopied (min buff.length buffSize)) ++
          List.replicate (o.uncopied (min buff.length buffSize)) (0 : Byte)).length ≤ buffSize := by
        rw [List.length_append, List.length_take, List.length_replicate]
        omega
      exact ⟨hlen, slice_patch (by omega)⟩

theorem committed {data : List Byte} (h : Data d (.commit c data ::ₘ rest)) :
    Data (commitStep d c data).1 (([(commitStep d c data).2] : List Act) + rest) := by
  have hheld : d.mutex = true := h.mutex.locked_of_inside (Multiset.mem_cons_self _ _) rfl
  obtain ⟨hready, hdata⟩ : Holds d (.commit c data) :=
    h.mutex.held _ (Multiset.mem_cons_self _ _) rfl
  unfold commitStep
  split
  · next count hrequest =>
    rw [hrequest] at hdata
    refine h.held (.inl rfl) (h.flow.consume hdata.1 hdata.2) ?_ ?_ ?_
    · rw [consume_mutex, hheld]
    · split <;> rfl
    · split <;> trivial
  · next buff hrequest =>
    rw [hrequest] at hdata
    have hempty : d.buffLen = 0 := by
      rw [Call.side, hrequest] at hready
      exact of_decide_eq_true hready
    refine h.held (.inl rfl) (h.flow.supply hempty hdata.1 hdata.2) ?_ ?_ ?_
    · rw [supply_mutex, hheld]
    · split <;> rfl
    · split <;> trivial

theorem step (h : Data d (a ::ₘ rest)) (hd : Does d a d' pushed) :
    Data d' ((pushed : Multiset Act) + rest) := by
  have hflow := h.flow
  have hin : ∀ b, b ∈ (a ::ₘ rest) → b.inside = true → d.mutex = true :=
    fun _ hb => h.mutex.locked_of_inside hb
  have hself := Multiset.mem_cons_self a rest
  cases hd with
  | interrupted a c ha =>
    refine h.outside ?_ rfl ⟨hflow.cursors, hflow.stream⟩ rfl fun _ hb => hb
    rcases ha with rfl | rfl | rfl <;> rfl
  | wouldBlock c | returns c value => exact h.released rfl ⟨hflow.cursors, hflow.stream⟩ rfl rfl
  | locked c hfree =>
    exact h.held (.inr hfree) ⟨hflow.cursors, hflow.stream⟩ rfl rfl trivial
  | found c hready => exact h.held (.inl rfl) hflow (hin _ hself rfl) rfl hready
  | missed c => exact h.held (.inl rfl) hflow (hin _ hself rfl) rfl trivial
  | leaves c b hb =>
    refine h.released rfl ⟨hflow.cursors, hflow.stream⟩ rfl ?_
    rcases hb with rfl | rfl <;> rfl
  | happened c | stays c | sleeps c | resumes c | retries c =>
    exact h.outside rfl rfl hflow rfl fun _ hb => hb
  | prepared c | finished c =>
    exact h.outside rfl rfl ⟨hflow.cursors, hflow.stream⟩ rfl fun _ hb => hb
  | copied o c => exact h.copied o
  | committed c data => exact h.committed
  | woke c count =>
    exact h.held (.inl rfl) ⟨hflow.cursors, hflow.stream⟩ (hin _ hself rfl) rfl trivial

end Data

/-! ## The calls -/

/-- What a call has moved. -/
def moved (d : PipeDev) (id : Nat) : List (List Byte) :=
  (d.took.filter fun e => e.1 == id).map Prod.snd ++ (d.put.filter fun e => e.1 == id).map Prod.snd

/-- A call that failed has moved nothing, one that succeeded what it returned, once. -/
def Fits (value : Int) (data : List (List Byte)) : Prop :=
  (value < 0 ∧ data = []) ∨ ∃ x, data = [x] ∧ value = x.length

/-- A call moves nothing until its value is settled. -/
def Suits (a : Act) (data : List (List Byte)) : Prop :=
  match a.outcome with
  | none => data = []
  | some value => Fits value data

abbrev Accounts (d : PipeDev) (m : Multiset Act) : Prop :=
  Ledger (fun a : Act => a.call.id) [] Suits Fits d.calls (moved d) d.returned m

section Moved

variable {d d' : PipeDev} {i id : Nat} {data : List Byte}

/-- A step that took or put some bytes. -/
def Moves (d d' : PipeDev) (i : Nat) (data : List Byte) : Prop :=
  d'.took = d.took ++ [(i, data)] ∧ d'.put = d.put ∨ d'.took = d.took ∧ d'.put = d.put ++ [(i, data)]

theorem moved_eq (d : PipeDev) (id : Nat) :
    moved d id = entriesOf d.took id ++ entriesOf d.put id := rfl

theorem moved_other (h : Moves d d' i data) (hid : id ≠ i) : moved d' id = moved d id := by
  rw [moved_eq, moved_eq]
  rcases h with ⟨htook, hput⟩ | ⟨htook, hput⟩
  · rw [htook, hput, entriesOf_other hid]
  · rw [htook, hput, entriesOf_other hid]

theorem moved_own (h : Moves d d' i data) (hnone : moved d i = []) : moved d' i = [data] := by
  obtain ⟨hnone, hnone'⟩ := List.append_eq_nil_iff.mp hnone
  have htook₀ : entriesOf d.took i = [] := hnone
  have hput₀ : entriesOf d.put i = [] := hnone'
  rw [moved_eq]
  rcases h with ⟨htook, hput⟩ | ⟨htook, hput⟩
  · rw [htook, hput, entriesOf_own, htook₀, hput₀]
    rfl
  · rw [htook, hput, entriesOf_own, htook₀, hput₀]
    rfl

end Moved

namespace Accounts

variable {d d' : PipeDev} {rest : Multiset Act} {a b : Act} {c : Call} {pushed : List Act}

theorem moved_none (h : Accounts d (a ::ₘ rest)) (ha : a.outcome = none) :
    moved d a.call.id = [] := by
  have hsuits := h.current a (Multiset.mem_cons_self a rest)
  rw [Suits, ha] at hsuits
  exact hsuits

theorem moved_fits (h : Accounts d (a ::ₘ rest)) {value : Int} (ha : a.outcome = some value) :
    Fits value (moved d a.call.id) := by
  have hsuits := h.current a (Multiset.mem_cons_self a rest)
  rw [Suits, ha] at hsuits
  exact hsuits

/-- A step that moves nothing, of a call that has moved nothing. -/
theorem goes (h : Accounts d (a ::ₘ rest)) (hb : b.call.id = a.call.id) (ha : a.outcome = none)
    (hnone : b.outcome = none ∨ ∃ value : Int, b.outcome = some value ∧ value < 0) :
    Accounts d (([b] : List Act) + rest) := by
  refine h.next hb (fun _ _ => rfl) ?_
  have hmoved := h.moved_none ha
  rw [Suits]
  rcases hnone with hnone | ⟨value, hvalue, hneg⟩
  · rw [hnone]
    exact hmoved
  · rw [hvalue]
    exact .inl ⟨hneg, hmoved⟩

theorem copied (h : Accounts d (.copy c ::ₘ rest)) (o : Choice) :
    Accounts (userCopy o d c).1 (([(userCopy o d c).2] : List Act) + rest) := by
  have hfault : ∃ value : Int, Act.outcome (.unlock c (-efault)) = some value ∧ value < 0 :=
    ⟨-efault, rfl, by decide⟩
  unfold userCopy
  split
  · dsimp only
    split
    · exact h.goes rfl rfl (.inr hfault)
    · exact h.goes rfl rfl (.inl rfl)
  · dsimp only
    split
    · exact h.goes rfl rfl (.inr hfault)
    · exact h.goes rfl rfl (.inl rfl)

theorem consume_fields (d : PipeDev) (c : Call) (data : List Byte) :
    ((d.consume c data).took = d.took ++ [(c.id, data)] ∧ (d.consume c data).put = d.put) ∧
      (d.consume c data).calls = d.calls ∧ (d.consume c data).returned = d.returned := by
  unfold PipeDev.consume
  dsimp only
  split <;> exact ⟨⟨rfl, rfl⟩, rfl, rfl⟩

theorem supply_fields (d : PipeDev) (c : Call) (data : List Byte) :
    ((d.supply c data).took = d.took ∧ (d.supply c data).put = d.put ++ [(c.id, data)]) ∧
      (d.supply c data).calls = d.calls ∧ (d.supply c data).returned = d.returned := by
  unfold PipeDev.supply
  dsimp only
  split <;> exact ⟨⟨rfl, rfl⟩, rfl, rfl⟩

theorem enters {data : List Byte} (h : Accounts d (.commit c data ::ₘ rest)) (hb : b.call = c)
    (hout : b.outcome = some (data.length : Int)) (hmoves : Moves d d' c.id data)
    (hrest : d'.calls = d.calls ∧ d'.returned = d.returned) :
    Accounts d' (([b] : List Act) + rest) := by
  rw [Accounts, hrest.1, hrest.2]
  refine h.next (congrArg Call.id hb) (fun id hid => moved_other hmoves hid) ?_
  rw [Suits, hout]
  exact .inr ⟨data, moved_own hmoves (h.moved_none rfl), rfl⟩

theorem committed {data : List Byte} (h : Accounts d (.commit c data ::ₘ rest)) :
    Accounts (commitStep d c data).1 (([(commitStep d c data).2] : List Act) + rest) := by
  unfold commitStep
  split
  · obtain ⟨hmoves, hrest⟩ := consume_fields d c data
    refine h.enters ?_ ?_ (.inl hmoves) hrest
    · split <;> rfl
    · split <;> rfl
  · obtain ⟨hmoves, hrest⟩ := supply_fields d c data
    refine h.enters ?_ ?_ (.inr hmoves) hrest
    · split <;> rfl
    · split <;> rfl

theorem step (h : Accounts d (a ::ₘ rest)) (hd : Does d a d' pushed) :
    Accounts d' ((pushed : Multiset Act) + rest) := by
  cases hd with
  | interrupted a c ha =>
    have hcall : a.call = c ∧ a.outcome = none := by
      rcases ha with rfl | rfl | rfl <;> exact ⟨rfl, rfl⟩
    obtain ⟨rfl, hout⟩ := hcall
    exact h.report (fun _ _ => rfl) (.inl ⟨by decide, h.moved_none hout⟩)
  | wouldBlock c => exact h.report (fun _ _ => rfl) (.inl ⟨by decide, h.moved_none rfl⟩)
  | returns c value => exact h.report (fun _ _ => rfl) (h.moved_fits rfl)
  | locked c hfree | found c hready | missed c | happened c | prepared c | stays c | sleeps c
  | resumes c | finished c | retries c => exact h.goes rfl rfl (.inl rfl)
  | leaves c b hb => rcases hb with rfl | rfl <;> exact h.goes rfl rfl (.inl rfl)
  | copied o c => exact h.copied o
  | committed c data => exact h.committed
  | woke c count => exact h.next rfl (fun _ _ => rfl) (h.moved_fits rfl)

end Accounts

/-! ## Every run -/

structure Inv (d : PipeDev) (m : Multiset Act) : Prop where
  data : Data d m
  accounts : Accounts d m

theorem inv_steps {driver : Driver} {es : List PipeEvent} {s : PipeSystem}
    (h : Steps (fun s e s' => pipeStep driver s e = some s') ⟨{}, []⟩ es s) :
    Inv s.core s.pending := by
  refine run_inv ?_ ?_ h ?_
  · intro d m c hc hinv
    exact ⟨hinv.data.start c, hinv.accounts.start hc rfl⟩
  · intro d a rest d' pushed hinv hdoes
    exact ⟨hinv.data.step hdoes, hinv.accounts.step hdoes⟩
  · refine ⟨⟨⟨.inr ⟨rfl, rfl⟩, rfl⟩, ⟨rfl, fun _ => trivial, ?_⟩⟩, Ledger.none⟩
    intro a ha
    exact absurd ha (Multiset.notMem_zero a)

/-- For either driver, over every interleaving: the cursors are in order, what reads took is what
writes put up to what the buffer holds, and a call that has returned moved what it says, or
nothing. -/
theorem pipe_stream (driver : Driver) (es : List PipeEvent) (s : PipeSystem)
    (h : Steps (fun s e s' => pipeStep driver s e = some s') ⟨{}, []⟩ es s) :
    (s.core.rdPos < s.core.buffLen ∧ s.core.buffLen ≤ buffSize ∨
      s.core.rdPos = 0 ∧ s.core.buffLen = 0) ∧
    bytes s.core.took ++ slice s.core.buff s.core.rdPos (s.core.buffLen - s.core.rdPos) =
      bytes s.core.put ∧
    bytes s.core.took <+: bytes s.core.put ∧
    (∀ id value, (id, value) ∈ s.core.returned → value < 0 → moved s.core id = []) ∧
    ∀ id value, (id, value) ∈ s.core.returned → 0 ≤ value →
      ∃ data, moved s.core id = [data] ∧ value = data.length := by
  have hinv := inv_steps h
  refine ⟨hinv.data.flow.cursors, hinv.data.flow.stream, ⟨_, hinv.data.flow.stream⟩, ?_, ?_⟩
  · intro id value hmem hneg
    rcases hinv.accounts.closed _ hmem with ⟨-, hnone⟩ | ⟨data, -, hvalue⟩
    · exact hnone
    · dsimp only at hvalue
      omega
  · intro id value hmem hnonneg
    rcases hinv.accounts.closed _ hmem with ⟨hneg, -⟩ | hdata
    · dsimp only at hneg
      omega
    · exact hdata

/-- A reader finds nothing and goes to sleep; a writer brings three bytes, of which it takes two. -/
def handed : List PipeEvent :=
  .start false (.read 2) :: List.replicate 5 (PipeEvent.step 0 .go) ++
    .start false (.write [1#8, 2#8, 3#8]) :: List.replicate 6 (PipeEvent.step 1 .go) ++
    List.replicate 8 (PipeEvent.step 0 .go)

theorem pipe_stream_handed :
    ∃ s, exec (pipeStep .pipeAdvancedSleep) ⟨{}, []⟩ handed = some s ∧
      (s.core.returned = [(1, 3), (0, 2)] ∧ s.core.took = [(0, [1#8, 2#8])] ∧
        bytes s.core.put = [1#8, 2#8, 3#8]) ∧
      bytes s.core.took <+: bytes s.core.put := by
  obtain ⟨s, hrun, hs⟩ : ∃ s, exec (pipeStep .pipeAdvancedSleep) ⟨{}, []⟩ handed = some s ∧
      s.core.returned = [(1, 3), (0, 2)] ∧ s.core.took = [(0, [1#8, 2#8])] ∧
        bytes s.core.put = [1#8, 2#8, 3#8] :=
    ⟨_, rfl, by decide, by decide, by decide⟩
  exact ⟨s, hrun, hs, (pipe_stream .pipeAdvancedSleep handed s (exec_steps hrun)).2.2.1⟩

end LinuxDeviceDriver.Drivers.Pipe.Stream
