import FusionOS.Drivers.Keyboard

/-!
# The mouse

`input.c`: bytes of the mouse go through a ring of 256 bytes, or come from the controller while the
ring is empty, and `input_poll_mouse` puts three of them together to a packet. The bytes that the
controller holds are a list, `port`; signed overflow wraps.
-/

namespace FusionOS.Input

open List
open Function (update)

def mouseBufferSize : Nat := 256

/-- Here the size of the ring is that of the type, and the second reduction does nothing. -/
def nextMouseIndex (i : Nat) : Nat := (i + 1) % 2 ^ 8 % mouseBufferSize

/-- `mouse_event_t`. -/
structure MouseEvent where
  x : Int
  y : Int
  dx : Int
  dy : Int
  buttons : UInt8
  deriving DecidableEq

/-- The static variables behind the ring: the packet that is put together, and the position. -/
structure PacketState where
  packet : Nat → UInt8
  packetIndex : Nat
  mouseX : Int
  mouseY : Int
  mouseButtons : UInt8

/-- The static variables of the mouse; `ring` is `mouse_buf` with `mouse_head` and `mouse_tail`. -/
structure Mouse where
  ring : Ring UInt8
  state : PacketState

def pushMouseByte (m : Mouse) (data : UInt8) : Mouse := { m with ring := m.ring.push nextMouseIndex data }

def popMouseByte (m : Mouse) : Option UInt8 × Mouse :=
  ((m.ring.pop nextMouseIndex).1, { m with ring := (m.ring.pop nextMouseIndex).2 })

def inputHandleMouseByte (m : Mouse) (data : UInt8) : Mouse := pushMouseByte m data

/-- `mouse_get_byte`: the ring first, then the controller. -/
def mouseGetByte (m : Mouse) (port : List UInt8) : Option UInt8 × Mouse × List UInt8 :=
  match popMouseByte m with
  | (some data, m) => (some data, m, port)
  | (none, m) => (port.head?, m, port.tail)

/-- Conversion to `int8_t`. -/
def int8 (b : UInt8) : Int := Int.bmod b.toNat (2 ^ 8)

/-- Addition on `int`, and the lower bound behind it. -/
def moveBy (pos d : Int) : Int := if Int.bmod (pos + d) (2 ^ 32) < 0 then 0 else Int.bmod (pos + d) (2 ^ 32)

/-- The part of `input_poll_mouse` behind the third byte. -/
def packetEvent (st : PacketState) : MouseEvent × PacketState :=
  let dx := int8 (st.packet 1)
  let dy := int8 (st.packet 2)
  let st := { st with
    mouseButtons := st.packet 0 &&& 7
    mouseX := moveBy st.mouseX dx
    mouseY := moveBy st.mouseY (-dy) }
  (⟨st.mouseX, st.mouseY, dx, dy, st.mouseButtons⟩, st)

/-- The body of the loop of `input_poll_mouse`; a first byte without bit 3 is skipped. -/
def takeByte (st : PacketState) (data : UInt8) : Option MouseEvent × PacketState :=
  if st.packetIndex = 0 ∧ data &&& 8 = 0 then (none, st)
  else
    let st := { st with
      packet := update st.packet st.packetIndex data
      packetIndex := st.packetIndex + 1 }
    if st.packetIndex = 3 then
      let r := packetEvent { st with packetIndex := 0 }
      (some r.1, r.2)
    else (none, st)

/-- The loop of `input_poll_mouse`; `none` where it does not end. -/
def pollMouseLoop : Nat → Mouse → List UInt8 → Option (Option MouseEvent × Mouse × List UInt8)
  | 0, _, _ => none
  | n + 1, m, port =>
    match mouseGetByte m port with
    | (none, m, port) => some (none, m, port)
    | (some data, m, port) =>
      match takeByte m.state data with
      | (some event, st) => some (some event, { m with state := st }, port)
      | (none, st) => pollMouseLoop n { m with state := st } port

namespace Mouse

/-- The bytes in the ring, in the order of their arrival. -/
def pending (m : Mouse) : List UInt8 := m.ring.contents mouseBufferSize

/-- The bytes that `mouse_get_byte` can return. -/
def available (m : Mouse) (port : List UInt8) : List UInt8 := m.pending ++ port

end Mouse

def inputPollMouse (m : Mouse) (port : List UInt8) : Option (Option MouseEvent × Mouse × List UInt8) :=
  pollMouseLoop ((m.available port).length + 1) m port

/-- The mouse behind `input_init`. -/
def mouseStart : Mouse := ⟨⟨fun _ => 0, 0, 0⟩, ⟨fun _ => 0, 0, 20, 20, 0⟩⟩

lemma nextMouseIndex_eq (i : Nat) : nextMouseIndex i = (i + 1) % mouseBufferSize := by
  unfold nextMouseIndex mouseBufferSize
  omega

/-! ## Both rings as queues -/

/-- Over the operations, the ring gives out what a queue with one place less gives out. -/
structure ActsAsQueue {σ : Type} (push : σ → UInt8 → σ) (pop : σ → Option UInt8 × σ)
    (pending : σ → List UInt8) (head tail : σ → Nat) (size : Nat) (start : σ)
    (ops : List (QueueOp UInt8)) : Prop where
  popped : (runOps push pop start ops).2 = (runOps (fifoPush (size - 1)) fifoPop [] ops).2
  held : pending (runOps push pop start ops).1 = (runOps (fifoPush (size - 1)) fifoPop [] ops).1
  inOrder : (runOps push pop start ops).2.reduceOption ++ pending (runOps push pop start ops).1 =
    accepted (size - 1) [] ops
  bounded : (pending (runOps push pop start ops).1).length ≤ size - 1
  indices : head (runOps push pop start ops).1 < size ∧ tail (runOps push pop start ops).1 < size

lemma actsAsQueue_of_ring {σ : Type} {push : σ → UInt8 → σ} {pop : σ → Option UInt8 × σ}
    (ring : σ → Ring UInt8) {next : Nat → Nat} {size : Nat} (hnext : ∀ i, i < size → next i = (i + 1) % size)
    (hpush : ∀ s b, ring (push s b) = (ring s).push next b)
    (hpop : ∀ s, (pop s).1 = ((ring s).pop next).1 ∧ ring (pop s).2 = ((ring s).pop next).2) {start : σ}
    (hstart : (ring start).Holds size []) (ops : List (QueueOp UInt8)) :
    ActsAsQueue push pop (fun s => (ring s).contents size) (fun s => (ring s).head) (fun s => (ring s).tail)
      size start ops := by
  have hpush' : ∀ s q b, (ring s).Holds size q → (ring (push s b)).Holds size (fifoPush (size - 1) q b) := by
    intro s q b h
    rw [hpush]
    exact h.push hnext b
  have hpop' : ∀ s q, (ring s).Holds size q →
      (pop s).1 = (fifoPop q).1 ∧ (ring (pop s).2).Holds size (fifoPop q).2 := by
    intro s q h
    obtain ⟨hout, hring⟩ := hpop s
    rw [hout, hring]
    exact h.pop hnext
  obtain ⟨⟨hok, hcontents⟩, hout⟩ := runOps_sim (fun s q => (ring s).Holds size q) hpush' hpop' hstart ops
  refine ⟨hout, hcontents, ?_, ?_, hok.head, hok.tail⟩
  · rw [hout, hcontents, popped_append, nil_append]
  · rw [hcontents]
    exact fifo_length_le (Nat.zero_le _) ops

/-- The rings of the keyboard and of the mouse are queues of 127 and of 255 bytes. -/
theorem input_rings_fifo (ops : List (QueueOp UInt8)) :
    ActsAsQueue pushScancode popScancode Keyboard.pending Keyboard.scancodeHead Keyboard.scancodeTail
        kbdBufferSize keyboardStart ops ∧
      ActsAsQueue pushMouseByte popMouseByte Mouse.pending (fun m => m.ring.head) (fun m => m.ring.tail)
        mouseBufferSize mouseStart ops := by
  constructor
  · apply actsAsQueue_of_ring Keyboard.ring (fun i _ => Keyboard.nextIndex_eq i) Keyboard.pushScancode_ring
      Keyboard.popScancode_ring
    exact ⟨⟨by decide, by decide⟩, rfl⟩
  · apply actsAsQueue_of_ring Mouse.ring (fun i _ => nextMouseIndex_eq i) (fun m b => rfl) (fun m => ⟨rfl, rfl⟩)
    exact ⟨⟨by decide, by decide⟩, rfl⟩

/-! ## Polls -/

def takeBytes : PacketState → List UInt8 → List MouseEvent × PacketState
  | st, [] => ([], st)
  | st, b :: bs => ((takeByte st b).1.toList ++ (takeBytes (takeByte st b).2 bs).1, (takeBytes (takeByte st b).2 bs).2)

lemma takeBytes_append (st : PacketState) (bs cs : List UInt8) :
    takeBytes st (bs ++ cs) = ((takeBytes st bs).1 ++ (takeBytes (takeBytes st bs).2 cs).1,
      (takeBytes (takeBytes st bs).2 cs).2) := by
  induction bs generalizing st with
  | nil => rfl
  | cons b bs ih => rw [cons_append, takeBytes, takeBytes, ih, append_assoc]

section Polls
variable {m : Mouse} {port : List UInt8}

lemma mouseGetByte_nil (h : m.ring.Ok mouseBufferSize) (hnil : m.available port = []) :
    mouseGetByte m port = (none, m, []) := by
  obtain ⟨hring, rfl⟩ := append_eq_nil_iff.mp hnil
  have hempty : m.ring.tail = m.ring.head := by
    by_contra hne
    obtain ⟨-, hcons⟩ := h.pop_some hne
    rw [Mouse.pending, hcons] at hring
    cases hring
  rw [mouseGetByte, popMouseByte, Ring.pop, if_pos hempty]
  rfl

lemma mouseGetByte_cons (h : m.ring.Ok mouseBufferSize) {b : UInt8} {bs : List UInt8}
    (hcons : m.available port = b :: bs) :
    ∃ ring port', mouseGetByte m port = (some b, { m with ring := ring }, port') ∧
      ring.Ok mouseBufferSize ∧ ring.contents mouseBufferSize ++ port' = bs := by
  by_cases hempty : m.ring.tail = m.ring.head
  · have hring : m.pending = [] := h.pop_empty hempty
    rw [Mouse.available, hring, nil_append] at hcons
    refine ⟨m.ring, bs, ?_, h, ?_⟩
    · rw [mouseGetByte, popMouseByte, Ring.pop, if_pos hempty, hcons]
      rfl
    · rw [← Mouse.pending, hring, nil_append]
  · obtain ⟨hok, hfirst⟩ := h.pop_some hempty
    rw [Mouse.available, Mouse.pending, hfirst, cons_append, List.cons.injEq] at hcons
    obtain ⟨hbyte, hrest⟩ := hcons
    refine ⟨{ m.ring with tail := (m.ring.tail + 1) % mouseBufferSize }, port, ?_, hok, hrest⟩
    rw [mouseGetByte, popMouseByte, Ring.pop, if_neg hempty, hbyte, nextMouseIndex_eq]

lemma pollMouseLoop_ok (h : m.ring.Ok mouseBufferSize) {fuel : Nat} (hf : (m.available port).length < fuel) :
    ∃ r m' port' bs, pollMouseLoop fuel m port = some (r, m', port') ∧ m'.ring.Ok mouseBufferSize ∧
      m.available port = bs ++ m'.available port' ∧ takeBytes m.state bs = (r.toList, m'.state) ∧
      (r = none → m'.available port' = []) := by
  induction fuel generalizing m port with
  | zero => omega
  | succ fuel ih =>
    cases havail : m.available port with
    | nil =>
      refine ⟨none, m, [], [], ?_, h, ?_, rfl, ?_⟩
      · rw [pollMouseLoop, mouseGetByte_nil h havail]
      · rw [nil_append, Mouse.available, append_nil, ← (append_eq_nil_iff.mp havail).1]
      · intro _
        rw [Mouse.available, (append_eq_nil_iff.mp havail).1, nil_append]
    | cons b bs =>
      obtain ⟨ring, port', hget, hok, hrest⟩ := mouseGetByte_cons h havail
      rw [havail, length_cons] at hf
      cases htake : takeByte m.state b with
      | mk r st =>
        cases r with
        | some event =>
          refine ⟨some event, ⟨ring, st⟩, port', [b], ?_, hok, ?_, ?_, nofun⟩
          · simp only [pollMouseLoop, hget, htake]
          · rw [← hrest]
            rfl
          · rw [takeBytes, takeBytes, htake]
            rfl
        | none =>
          have hlt : (Mouse.available ⟨ring, st⟩ port').length < fuel := by
            have hlen : (Mouse.available ⟨ring, st⟩ port').length = bs.length := congrArg List.length hrest
            omega
          obtain ⟨r, m', port'', cs, hpoll, hok', hsplit, htakes, hnone⟩ := ih hok hlt
          refine ⟨r, m', port'', b :: cs, ?_, hok', ?_, ?_, hnone⟩
          · simp only [pollMouseLoop, hget, htake, hpoll]
          · rw [cons_append, ← hsplit, ← hrest]
            rfl
          · rw [takeBytes, htake, htakes]
            rfl

end Polls

/-! ## Packets -/

/-- Three bytes, of which the first has bit 3 set. -/
structure Packet where
  first : UInt8
  x : UInt8
  y : UInt8
  sync : first &&& 8 ≠ 0

namespace Packet

def bytes (p : Packet) : List UInt8 := [p.first, p.x, p.y]

def dx (p : Packet) : Int := int8 p.x
def dy (p : Packet) : Int := int8 p.y

end Packet

lemma takeBytes_packet {st : PacketState} (h : st.packetIndex = 0) (p : Packet) :
    ∃ packet, takeBytes st p.bytes =
      ([⟨moveBy st.mouseX p.dx, moveBy st.mouseY (-p.dy), p.dx, p.dy, p.first &&& 7⟩],
        ⟨packet, 0, moveBy st.mouseX p.dx, moveBy st.mouseY (-p.dy), p.first &&& 7⟩) := by
  obtain ⟨packet, index, x, y, buttons⟩ := st
  cases h
  refine ⟨update (update (update packet 0 p.first) 1 p.x) 2 p.y, ?_⟩
  have hfirst : takeByte ⟨packet, 0, x, y, buttons⟩ p.first =
      (none, ⟨update packet 0 p.first, 1, x, y, buttons⟩) := by
    rw [takeByte, if_neg fun hskip => p.sync hskip.2]
    rfl
  simp only [Packet.bytes, takeBytes, hfirst]
  rfl

end FusionOS.Input
