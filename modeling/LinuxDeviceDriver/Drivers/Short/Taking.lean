/- source: examples/15_short_ioport/main.c, lines 40 to 51; examples/16_short_port_remap/main.c,
     lines 42 to 53; examples/17_short_mmio/main.c, lines 71 to 84
   digest: What short_lock protects: the bytes that have come in are those that the readers took,
     in the order of their turns, and the one in the buffer. -/

import LinuxDeviceDriver.Drivers.Short.DataNode
import LinuxDeviceDriver.Lib.Mutex

set_option autoImplicit false

namespace LinuxDeviceDriver.Drivers.Short.Taking

open Lib.LittleEndian (Byte)
open Lib.Mutex (Locked)
open Lib.Threads
open Qemu.Io.Device
open Registers DataNode

/-- The bytes that have come in, by some account of them, come in through the buffer. The account
holds for the devices of a kind. -/
structure Enters (Kind : LDDIOState → Prop) (came : LDDIOState → List Byte) : Prop where
  ack : ∀ {s : LDDIOState} (host : List Byte), Kind s → s.rxReady = true →
    came (iowrite8 s lddIoStatusRxReady lddIoStatus host) =
      came s ++ buffered (iowrite8 s lddIoStatusRxReady lddIoStatus host)
  data : ∀ {s : LDDIOState} (v : Byte), Kind s → ∃ new,
    came (iowrite8 s v lddIoData []) = came s ++ new ∧
      buffered (iowrite8 s v lddIoData []) = buffered s ++ new
  receive : ∀ {s : LDDIOState} (byte : Byte), Kind s →
    came (lddIoKeyboardReceive s byte) = came s ++ [byte]

/-- What the turns took, in the order in which the lock was taken. -/
def tooks (c : Core) : List (List Byte) := c.turns.map Turn.took

section Defs

variable (came : LDDIOState → List Byte)

/-- With nobody at the device, only the byte in the buffer has not been taken. -/
def Free (c : Core) : Prop := (tooks c).flatten ++ buffered c.dev = came c.dev

/-- The turn is the last one and has nothing on record yet; these are the bytes that came in
after those of the turns before it. -/
def Filling (c : Core) (turn : Nat) (bytes : List Byte) : Prop :=
  ∃ before, tooks c = before ++ [[]] ∧ turn = before.length ∧
    before.flatten ++ bytes = came c.dev

/-- What the holder of the lock knows. A byte that is read and not yet acknowledged is in the
call's own buffer and in the device's. -/
def Holds (c : Core) : Act → Prop
  | .status _ turn kbuf | .unlock _ turn kbuf => Filling came c turn (kbuf ++ buffered c.dev)
  | .data _ turn kbuf => c.dev.rxReady = true ∧ Filling came c turn (kbuf ++ buffered c.dev)
  | .ack _ turn kbuf => c.dev.rxReady = true ∧ Filling came c turn kbuf
  | .leds _ _ _ => Free came c
  | _ => True

end Defs

variable {came : LDDIOState → List Byte}

section Turns

variable {turns : List Turn} {turn : Nat} {kbuf : List Byte}

theorem map_modify {F : Type} {field : Turn → F} {f : Turn → Turn}
    (hf : ∀ t, field (f t) = field t) (turns : List Turn) (turn : Nat) :
    (turns.modify turn f).map field = turns.map field := by
  apply List.ext_getElem?
  intro k
  simp only [List.getElem?_map, List.getElem?_modify, Option.map_eq_map, Option.map_map]
  congr 1
  funext t
  show field (if turn = k then f t else t) = field t
  split
  · exact hf t
  · rfl

private theorem map_took_modify_last {before : List (List Byte)}
    (h : turns.map Turn.took = before ++ [[]]) :
    (turns.modify before.length fun t => { t with took := kbuf }).map Turn.took =
      before ++ [kbuf] := by
  obtain ⟨init, last, rfl, hinit, hlast⟩ := List.map_eq_append_iff.mp h
  obtain ⟨t, rest, rfl, -, hrest⟩ := List.map_eq_cons_iff.mp hlast
  obtain rfl := List.map_eq_nil_iff.mp hrest
  subst hinit
  rw [List.length_map, List.modify_eq_take_cons_drop (by simp)]
  simp

end Turns

theorem tooks_deliver (c : Core) (turn : Nat) (kbuf : List Byte) :
    tooks (c.deliver turn kbuf) = tooks c := map_modify (by intro t; rfl) _ _

/-- A reader that gives the lock back leaves on record what it took. -/
theorem Filling.free {c c' : Core} {turn : Nat} {kbuf : List Byte}
    (h : Filling came c turn (kbuf ++ buffered c.dev))
    (hturns : c'.turns = (c.take turn kbuf).turns) (hdev : c'.dev = c.dev) : Free came c' := by
  obtain ⟨before, htooks, rfl, heq⟩ := h
  have htook : tooks c' = before ++ [kbuf] := by
    rw [tooks, hturns]
    exact map_took_modify_last htooks
  rw [Free, htook, hdev, ← heq]
  simp only [List.flatten_append, List.flatten_cons, List.flatten_nil, List.append_nil,
    List.append_assoc]

theorem Free.congr {c c' : Core} (h : Free came c) (ht : tooks c' = tooks c)
    (hdev : c'.dev = c.dev) : Free came c' := by
  rw [Free, ht, hdev]
  exact h

theorem Holds.congr {c c' : Core} {a : Act} (h : Holds came c a) (ht : tooks c' = tooks c)
    (hdev : c'.dev = c.dev) : Holds came c' a := by
  cases a with
  | status r turn kbuf | data r turn kbuf | ack r turn kbuf | unlock r turn kbuf | leds _ _ _ =>
    simpa only [Holds, Filling, Free, ht, hdev] using h
  | lock | poll | signalPending | copyToUser | memdupUser | lockWrite => trivial

section Lock

variable {Kind : LDDIOState → Prop} {o : Choice} {c c' : Core} {a : Act} {pushed : List Act}
  {rest m : Multiset Act}

theorem locked_does (hcame : Enters Kind came) (hkind : Kind c.dev)
    (h : Locked inside Core.locked (Free came) (Holds came) c (a ::ₘ rest))
    (hd : Does c o a c' pushed) :
    Locked inside Core.locked (Free came) (Holds came) c' ((pushed : Multiset Act) + rest) := by
  have hheld := h.held a (Multiset.mem_cons_self a rest)
  have hlock := h.locked_of_inside (Multiset.mem_cons_self a rest)
  cases hd with
  | lock r hfree =>
    refine h.alone (.inr hfree) (.taken rfl rfl ?_)
    refine ⟨tooks c, ?_, (List.length_map _).symm, h.free hfree⟩
    exact List.map_append
  | take r turn kbuf hcount hready =>
    exact h.alone (.inl rfl) (.taken (hlock rfl) rfl ⟨hready, hheld rfl⟩)
  | full r turn kbuf => exact h.alone (.inl rfl) (.taken (hlock rfl) rfl (hheld rfl))
  | data r turn kbuf =>
    obtain ⟨hready, hfill⟩ := hheld rfl
    rw [buffered_ready hready] at hfill
    exact h.alone (.inl rfl) (.taken (hlock rfl) rfl ⟨hready, hfill⟩)
  | ack _ r turn kbuf host hhost =>
    obtain ⟨hready, before, htooks, hturn, heq⟩ := hheld rfl
    refine h.alone (.inl rfl) (.taken (hlock rfl) rfl ⟨before, htooks, hturn, ?_⟩)
    show before.flatten ++ (kbuf ++ buffered _) = came _
    rw [← List.append_assoc, heq, hcame.ack host hkind hready]
  | unlock r turn kbuf hn | unlockAgain r turn | unlockPoll r turn =>
    exact h.alone (.inl rfl) (.given_back rfl rfl ((hheld rfl).free rfl rfl))
  | goOn _ _ b ha _ hb =>
    exact h.frame ha (by rw [cnt_coe_cons, hb]; rfl) rfl id fun _ _ hh => hh
  | copy r turn kbuf =>
    have ht : tooks ((c.deliver turn kbuf).finish r.id kbuf.length) = tooks c :=
      tooks_deliver c turn kbuf
    exact h.frame rfl rfl rfl (fun hf => hf.congr ht rfl) fun _ _ hh => hh.congr ht rfl
  | fault r turn kbuf =>
    exact h.frame rfl rfl rfl (fun hf => hf.congr rfl rfl) fun _ _ hh => hh.congr rfl rfl
  | fail _ _ id value ha =>
    exact h.frame ha rfl rfl (fun hf => hf.congr rfl rfl) fun _ _ hh => hh.congr rfl rfl
  | lockWrite id kbuf hfree => exact h.alone (.inr hfree) (.taken rfl rfl (h.free hfree))
  | led id count byte rest =>
    -- with LOOPBACK set, the byte comes in if the buffer is empty
    obtain ⟨new, hnew, hbuffered⟩ := hcame.data byte hkind
    have hfree : Free came c := hheld rfl
    refine h.alone (.inl rfl) (.taken (hlock rfl) rfl ?_)
    show (tooks c).flatten ++ buffered _ = came _
    rw [hnew, hbuffered, ← List.append_assoc, hfree]
  | unlockWrite id count => exact h.alone (.inl rfl) (.given_back rfl rfl (hheld rfl))

/-- What changes neither the turns nor the device, and adds no action inside the lock. -/
theorem locked_add {new : Multiset Act}
    (h : Locked inside Core.locked (Free came) (Holds came) c m) (hnew : cnt inside new = 0)
    (hlock : c'.locked = c.locked) (hturns : c'.turns = c.turns) (hdev : c'.dev = c.dev) :
    Locked inside Core.locked (Free came) (Holds came) c' (new + m) := by
  have ht : tooks c' = tooks c := congrArg (List.map Turn.took) hturns
  exact h.add hnew hlock (fun hf => hf.congr ht hdev)
    fun _ _ _ hh => hh.congr ht hdev

theorem locked_receive (hcame : Enters Kind came) (hkind : Kind c.dev) {byte : Byte}
    (hroom : lddIoKeyboardCanReceive c.dev = 1)
    (h : Locked inside Core.locked (Free came) (Holds came) c m) :
    Locked inside Core.locked (Free came) (Holds came)
      { c with dev := lddIoKeyboardReceive c.dev byte } m := by
  obtain ⟨hempty, -⟩ := canReceive_iff.mp hroom
  have hbefore := buffered_empty hempty
  have hcome : came (lddIoKeyboardReceive c.dev byte) =
      came c.dev ++ buffered (lddIoKeyboardReceive c.dev byte) := by
    rw [hcame.receive byte hkind, buffered_keyboardReceive]
  have hfree : Free came c → Free came { c with dev := lddIoKeyboardReceive c.dev byte } := by
    intro hf
    rw [Free, hbefore, List.append_nil] at hf
    show (tooks c).flatten ++ _ = came _
    rw [hf, hcome]
  rw [← Multiset.zero_add m]
  refine h.add rfl rfl hfree ?_
  intro b hb hin hh
  -- a byte that is being read keeps the next one out
  cases b with
  | status r turn kbuf | unlock r turn kbuf =>
    obtain ⟨before, htooks, hturn, heq⟩ := hh
    rw [hbefore, List.append_nil] at heq
    refine ⟨before, htooks, hturn, ?_⟩
    show _ ++ (kbuf ++ buffered _) = came _
    rw [hcome, ← heq, List.append_assoc]
  | data r turn kbuf | ack r turn kbuf =>
    have hready : c.dev.rxReady = true := hh.1
    rw [hempty] at hready
    cases hready
  | leds id count kbuf => exact hfree hh
  | lock | poll | signalPending | copyToUser | memdupUser | lockWrite => cases hin

theorem tooks_came (h : Locked inside Core.locked (Free came) (Holds came) c m) :
    (tooks c).flatten <+: came c.dev := by
  cases hlock : c.locked with
  | false => exact ⟨_, h.free hlock⟩
  | true =>
    have hone : 0 < cnt inside m := by
      rw [h.excl, hlock]
      exact Nat.one_pos
    have hfilling : ∀ {turn : Nat} {bytes : List Byte}, Filling came c turn bytes →
        (tooks c).flatten <+: came c.dev := by
      rintro turn bytes ⟨before, htooks, -, heq⟩
      rw [htooks, List.flatten_append, List.flatten_singleton, List.append_nil, ← heq]
      exact List.prefix_append _ _
    -- the holder of the lock knows where its bytes begin
    obtain ⟨a, ha, hin⟩ := cnt_pos.mp hone
    have hheld := h.held a ha hin
    cases a with
    | status r turn kbuf | unlock r turn kbuf => exact hfilling hheld
    | data r turn kbuf | ack r turn kbuf => exact hfilling hheld.2
    | leds id count kbuf => exact ⟨_, hheld⟩
    | lock | poll | signalPending | copyToUser | memdupUser | lockWrite => cases hin

end Lock

end LinuxDeviceDriver.Drivers.Short.Taking
