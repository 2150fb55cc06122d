import FusionOS.Drivers.Mouse
import FusionOS.Ui.Loop

/-!
# The cursor

The driver keeps the position of the mouse and holds it above 0; the desktop cuts a copy of it to the
screen. Past the right or the lower edge the driver's position runs on, and moving back the mouse has
to return the whole way before the cursor leaves the edge.
-/

namespace FusionOS.Ui

open List

open FusionOS.Input

/-- The loop of `desktop_loop` over the events of the mouse; `none` where it does not end. -/
def mouseLoop : Nat → Mouse → List UInt8 → LoopState → Option (Mouse × LoopState)
  | 0, _, _, _ => none
  | n + 1, m, port, s =>
    match inputPollMouse m port with
    | none => none
    | some (none, m, _) => some (m, s)
    | some (some event, m, port) => mouseLoop n m port (handleMouse s event.x event.y event.buttons)

/-- The driver and the desktop. -/
structure Pointer where
  mouse : Mouse
  loop : LoopState

/-- A byte that comes by an interrupt, and a turn of `desktop_loop` that finds bytes at the port. -/
inductive PointerEvent where
  | byte (b : UInt8)
  | turn (port : List UInt8)

def Pointer.step (s : Pointer) : PointerEvent → Option Pointer
  | .byte b => some { s with mouse := inputHandleMouseByte s.mouse b }
  | .turn port => (mouseLoop ((s.mouse.available port).length + 1) s.mouse port s.loop).map fun r => ⟨r.1, r.2⟩

def pointerStart (width height : Nat) (slots : Nat → Window) : Pointer :=
  ⟨mouseStart, loopStart width height slots⟩

/-- No byte comes while the ring is full. -/
def Pointer.NoOverflow (s : Pointer) : PointerEvent → Prop
  | .byte _ => s.mouse.pending.length < mouseBufferSize - 1
  | .turn _ => True

instance (s : Pointer) (e : PointerEvent) : Decidable (s.NoOverflow e) := by
  cases e <;> unfold Pointer.NoOverflow <;> infer_instance

/-- The bytes of the mouse, in the order in which they come. -/
def arrived (es : List PointerEvent) : List UInt8 :=
  es.flatMap fun e =>
    match e with
    | .byte b => [b]
    | .turn port => port

/-! ## Interrupts and turns in any order -/

def handleEvents (s : LoopState) (events : List MouseEvent) : LoopState :=
  events.foldl (fun s e => handleMouse s e.x e.y e.buttons) s

lemma mouseLoop_ok {m : Mouse} {port : List UInt8} (h : m.ring.Ok mouseBufferSize) {fuel : Nat}
    (hf : (m.available port).length < fuel) (s : LoopState) :
    ∃ m', mouseLoop fuel m port s = some (m', handleEvents s (takeBytes m.state (m.available port)).1) ∧
      m'.ring.Ok mouseBufferSize ∧ m'.pending = [] ∧ m'.state = (takeBytes m.state (m.available port)).2 := by
  induction fuel generalizing m port s with
  | zero => omega
  | succ fuel ih =>
    obtain ⟨r, m', port', bs, hpoll, hok, hsplit, htake, hnone⟩ := pollMouseLoop_ok h (Nat.lt_succ_self _)
    rw [← inputPollMouse] at hpoll
    rw [hsplit, takeBytes_append, htake]
    dsimp only
    cases r with
    | none =>
      rw [hnone rfl]
      refine ⟨m', ?_, hok, (append_eq_nil_iff.mp (hnone rfl)).1, rfl⟩
      rw [mouseLoop, hpoll]
      rfl
    | some event =>
      have hne : bs ≠ [] := by
        rintro rfl
        cases htake
      have hpos := length_pos_of_ne_nil hne
      have hlt : (m'.available port').length < fuel := by
        rw [hsplit, length_append] at hf
        omega
      obtain ⟨m'', hloop, hok', hempty, hstate⟩ := ih hok hlt (handleMouse s event.x event.y event.buttons)
      refine ⟨m'', ?_, hok', hempty, hstate⟩
      rw [mouseLoop, hpoll]
      exact hloop

lemma Pointer.step_turn (s : Pointer) (hok : s.mouse.ring.Ok mouseBufferSize) (port : List UInt8) :
    ∃ m, s.step (.turn port) =
        some ⟨m, handleEvents s.loop (takeBytes s.mouse.state (s.mouse.available port)).1⟩ ∧
      m.ring.Ok mouseBufferSize ∧ m.pending = [] ∧
      m.state = (takeBytes s.mouse.state (s.mouse.available port)).2 := by
  obtain ⟨m, hturn, hok', hempty, hstate⟩ := mouseLoop_ok hok (Nat.lt_succ_self _) s.loop
  refine ⟨m, ?_, hok', hempty, hstate⟩
  rw [Pointer.step, hturn]
  rfl

lemma Pointer.run_taken {s t : Pointer} {es : List PointerEvent} (hrun : Run Pointer.step s es t)
    (hok : s.mouse.ring.Ok mouseBufferSize) (hroom : Along Pointer.step Pointer.NoOverflow s es) :
    ∃ bs, bs ++ t.mouse.pending = s.mouse.pending ++ arrived es ∧
      t.mouse.state = (takeBytes s.mouse.state bs).2 ∧
      t.loop = handleEvents s.loop (takeBytes s.mouse.state bs).1 := by
  induction hrun with
  | nil s => exact ⟨[], by rw [arrived, flatMap_nil, append_nil, nil_append], rfl, rfl⟩
  | @cons s t u e es hstep _ ih =>
    obtain ⟨hfree, hrest⟩ := hroom
    cases e with
    | byte b =>
      cases hstep
      have hcount : s.mouse.ring.count mouseBufferSize + 1 ≠ mouseBufferSize := by
        rw [Pointer.NoOverflow, Mouse.pending, Ring.contents_length] at hfree
        omega
      obtain ⟨hok', hcontents⟩ := hok.push_room (fun i _ => nextMouseIndex_eq i) hcount b
      obtain ⟨bs, htaken, hstate, hloop⟩ := ih hok' (hrest _ rfl)
      refine ⟨bs, htaken.trans ?_, hstate, hloop⟩
      rw [Mouse.pending, inputHandleMouseByte, pushMouseByte, hcontents, append_assoc]
      rfl
    | turn port =>
      obtain ⟨m, hnext, hok', hempty, hstate'⟩ := s.step_turn hok port
      rw [hnext] at hstep
      cases hstep
      obtain ⟨bs, htaken, hstate, hloop⟩ := ih hok' (hrest _ hnext)
      dsimp only at htaken hstate hloop
      rw [hempty, nil_append] at htaken
      refine ⟨s.mouse.available port ++ bs, ?_, ?_, ?_⟩
      · rw [append_assoc, htaken, Mouse.available, append_assoc]
        rfl
      · rw [takeBytes_append, hstate, hstate']
      · rw [takeBytes_append, hloop, hstate', handleEvents, handleEvents, handleEvents, foldl_append]

/-! ## The position after the packets -/

structure Axis where
  driver : Int
  cursor : Int
  deriving DecidableEq

def Axis.move (size : Int) (a : Axis) (d : Int) : Axis :=
  ⟨moveBy a.driver d, if size - 1 < moveBy a.driver d then size - 1 else moveBy a.driver d⟩

structure Position where
  x : Axis
  y : Axis

def Position.cursor (s : Position) : Int × Int := (s.x.cursor, s.y.cursor)

def Position.move (w h : Int) (s : Position) (p : Packet) : Position :=
  ⟨s.x.move w p.dx, s.y.move h (-p.dy)⟩

def positionStart : Position := ⟨⟨20, 20⟩, ⟨20, 20⟩⟩

def positionAfter (w h : Int) (ps : List Packet) : Position := ps.foldl (Position.move w h) positionStart

def clampTo (size pos : Int) : Int := min (max pos 0) (size - 1)

def clampedMove (w h : Int) (c : Int × Int) (p : Packet) : Int × Int :=
  (clampTo w (c.1 + p.dx), clampTo h (c.2 - p.dy))

def clampedAfter (w h : Int) (ps : List Packet) : Int × Int := ps.foldl (clampedMove w h) (20, 20)

structure Shows (s : Position) (st : PacketState) (loop : LoopState) : Prop where
  index : st.packetIndex = 0
  driver : st.mouseX = s.x.driver ∧ st.mouseY = s.y.driver
  cursor : loop.mouseX = s.x.cursor ∧ loop.mouseY = s.y.cursor

lemma Shows.packets {s : Position} {st : PacketState} {loop : LoopState} (h : Shows s st loop)
    (ps : List Packet) :
    Shows (ps.foldl (Position.move loop.desktop.screenW loop.desktop.screenH) s)
      (takeBytes st (ps.flatMap Packet.bytes)).2
      (handleEvents loop (takeBytes st (ps.flatMap Packet.bytes)).1) := by
  induction ps generalizing s st loop with
  | nil => exact h
  | cons p ps ih =>
    obtain ⟨packet, htake⟩ := takeBytes_packet h.index p
    obtain ⟨hx, hy⟩ := h.driver
    rw [hx, hy] at htake
    rw [flatMap_cons, takeBytes_append, htake, foldl_cons]
    have hnext : Shows (s.move loop.desktop.screenW loop.desktop.screenH p)
        ⟨packet, 0, moveBy s.x.driver p.dx, moveBy s.y.driver (-p.dy), p.first &&& 7⟩
        (handleMouse loop (moveBy s.x.driver p.dx) (moveBy s.y.driver (-p.dy)) (p.first &&& 7)) :=
      ⟨rfl, ⟨rfl, rfl⟩, rfl, rfl⟩
    exact ih hnext

/-! ## Moving back from an edge -/

/-- The packet does not move back from beyond the edge, unless as far as the other edge, and the
driver's sum does not overflow. -/
def Axis.Harmless (size : Int) (a : Axis) (d : Int) : Prop :=
  size ≤ 1 ∨ a.driver + d < 2 ^ 31 ∧ (a.driver = a.cursor ∨ 0 ≤ d ∨ a.driver + d ≤ 0)

def Position.Harmless (w h : Int) (s : Position) (p : Packet) : Prop :=
  s.x.Harmless w p.dx ∧ s.y.Harmless h (-p.dy)

instance (size : Int) (a : Axis) (d : Int) : Decidable (a.Harmless size d) :=
  inferInstanceAs (Decidable (_ ∨ _))

instance (w h : Int) (s : Position) (p : Packet) : Decidable (s.Harmless w h p) :=
  inferInstanceAs (Decidable (_ ∧ _))

/-- The driver's coordinate is an `int` that is not negative, and the cursor is a copy of it, cut or
not. -/
structure Axis.Ok (size : Int) (a : Axis) : Prop where
  driver : 0 ≤ a.driver ∧ a.driver < 2 ^ 31
  cursor : a.cursor = a.driver ∨ a.cursor = min a.driver (size - 1)

lemma int8_range (b : UInt8) : -128 ≤ int8 b ∧ int8 b ≤ 127 := by
  have hb := b.toNat_lt
  unfold int8 Int.bmod
  dsimp only
  split <;> omega

section Axes
variable {size d : Int} {a : Axis}

lemma moveBy_eq (h : a.Ok size) (hd : -128 ≤ d ∧ d ≤ 128) :
    moveBy a.driver d = if a.driver + d < 2 ^ 31 then max (a.driver + d) 0 else 0 := by
  have hdriver := h.driver
  unfold moveBy Int.bmod
  dsimp only
  split_ifs <;> omega

lemma Axis.Ok.move (h : a.Ok size) (hd : -128 ≤ d ∧ d ≤ 128) : (a.move size d).Ok size := by
  have hdriver := h.driver
  refine ⟨?_, ?_⟩
  · dsimp only [Axis.move]
    rw [moveBy_eq h hd]
    split <;> omega
  · right
    dsimp only [Axis.move]
    split <;> omega

lemma Axis.Ok.move_cursor (h : a.Ok size) (hd : -128 ≤ d ∧ d ≤ 128) :
    (a.move size d).cursor = clampTo size (a.cursor + d) ↔ a.Harmless size d := by
  have hdriver := h.driver
  have hcursor := h.cursor
  unfold Axis.move clampTo Axis.Harmless
  dsimp only
  rw [moveBy_eq h hd]
  split_ifs <;> omega

end Axes

structure Position.Ok (w h : Int) (s : Position) : Prop where
  x : s.x.Ok w
  y : s.y.Ok h

section Packets
variable {w h : Int} {s : Position}

lemma Position.Ok.move (hs : s.Ok w h) (p : Packet) : (s.move w h p).Ok w h := by
  have hx := int8_range p.x
  have hy := int8_range p.y
  refine ⟨hs.x.move ?_, hs.y.move ?_⟩
  · unfold Packet.dx
    omega
  · unfold Packet.dy
    omega

lemma Position.Ok.move_cursor (hs : s.Ok w h) (p : Packet) :
    (s.move w h p).cursor = clampedMove w h s.cursor p ↔ s.Harmless w h p := by
  have hx := int8_range p.x
  have hy := int8_range p.y
  have hxmove := hs.x.move_cursor (d := p.dx) (by unfold Packet.dx; omega)
  have hymove := hs.y.move_cursor (d := -p.dy) (by unfold Packet.dy; omega)
  rw [← Int.sub_eq_add_neg] at hymove
  rw [Position.Harmless, ← hxmove, ← hymove]
  exact Prod.ext_iff

lemma follows_iff (hs : s.Ok w h) (ps : List Packet) :
    (∀ qs, qs <+: ps → (qs.foldl (Position.move w h) s).cursor = qs.foldl (clampedMove w h) s.cursor) ↔
      ∀ qs p, qs ++ [p] <+: ps → (qs.foldl (Position.move w h) s).Harmless w h p := by
  induction ps generalizing s with
  | nil =>
    constructor
    · intro _ qs p hpre
      exact absurd (prefix_nil.mp hpre) (append_ne_nil_of_right_ne_nil qs (cons_ne_nil p []))
    · intro _ qs hpre
      rw [prefix_nil.mp hpre]
      rfl
  | cons p ps ih =>
    constructor
    · intro hfollow
      have hfirst := hfollow [p] (prefix_append [p] ps)
      have hharmless := (hs.move_cursor p).mp hfirst
      have hrest := (ih (hs.move p)).mp ?_
      · intro qs q hpre
        cases qs with
        | nil =>
          obtain rfl := (cons_prefix_cons.mp hpre).1
          exact hharmless
        | cons r qs =>
          obtain ⟨rfl, htail⟩ := cons_prefix_cons.mp hpre
          exact hrest qs q htail
      · intro qs hpre
        have hq := hfollow (p :: qs) (cons_prefix_cons.mpr ⟨rfl, hpre⟩)
        rw [foldl_cons, foldl_cons] at hq
        rw [(hs.move_cursor p).mpr hharmless]
        exact hq
    · intro hharmless qs hpre
      cases qs with
      | nil => rfl
      | cons q qs =>
        obtain ⟨rfl, htail⟩ := cons_prefix_cons.mp hpre
        have hfirst := (hs.move_cursor q).mpr (hharmless [] q (prefix_append [q] ps))
        rw [foldl_cons, foldl_cons, ← hfirst]
        apply (ih (hs.move q)).mpr _ qs htail
        intro rs r hr
        exact hharmless (q :: rs) r (cons_prefix_cons.mpr ⟨rfl, hr⟩)

end Packets

lemma mouseStart_ok : mouseStart.ring.Ok mouseBufferSize := ⟨by decide, by decide⟩

lemma loopStart_screen (width height : Nat) (slots : Nat → Window) :
    (loopStart width height slots).desktop.screenW = toInt width ∧
      (loopStart width height slots).desktop.screenH = toInt height := ⟨rfl, rfl⟩

lemma positionStart_ok (w h : Int) : positionStart.Ok w h :=
  ⟨⟨by decide, .inl rfl⟩, by decide, .inl rfl⟩

section Runs
variable {width height : Nat} {slots : Nat → Window} {ps : List Packet} {es : List PointerEvent} {t : Pointer}

lemma Pointer.run_cursor (hrun : Run Pointer.step (pointerStart width height slots) es t)
    (hroom : Along Pointer.step Pointer.NoOverflow (pointerStart width height slots) es)
    (hbytes : arrived es = ps.flatMap Packet.bytes) (hdone : t.mouse.pending = []) :
    (t.loop.mouseX, t.loop.mouseY) = (positionAfter (toInt width) (toInt height) ps).cursor := by
  obtain ⟨bs, htaken, -, hloop⟩ := Pointer.run_taken hrun mouseStart_ok hroom
  have hempty : (pointerStart width height slots).mouse.pending = [] := mouseStart_ok.pop_empty rfl
  rw [hdone, append_nil, hempty, nil_append, hbytes] at htaken
  have hstart : Shows positionStart mouseStart.state (loopStart width height slots) :=
    ⟨rfl, ⟨rfl, rfl⟩, rfl, rfl⟩
  have hshows := hstart.packets ps
  rw [(loopStart_screen width height slots).1, (loopStart_screen width height slots).2, ← positionAfter,
    ← htaken] at hshows
  rw [hloop]
  exact Prod.ext hshows.cursor.1 hshows.cursor.2

lemma Pointer.run_turn (width height : Nat) (slots : Nat → Window) (ps : List Packet) :
    ∃ t, Run Pointer.step (pointerStart width height slots) [.turn (ps.flatMap Packet.bytes)] t ∧
      Along Pointer.step Pointer.NoOverflow (pointerStart width height slots)
        [.turn (ps.flatMap Packet.bytes)] ∧
      arrived [.turn (ps.flatMap Packet.bytes)] = ps.flatMap Packet.bytes ∧ t.mouse.pending = [] := by
  obtain ⟨m, hstep, -, hempty, -⟩ :=
    (pointerStart width height slots).step_turn mouseStart_ok (ps.flatMap Packet.bytes)
  refine ⟨_, .cons hstep (.nil _), ⟨trivial, fun _ _ => trivial⟩, ?_, hempty⟩
  rw [arrived, flatMap_singleton]

/-- The cursor is at the clamped position after every packet exactly if every packet is harmless. -/
theorem cursor_clamped_iff (hrun : Run Pointer.step (pointerStart width height slots) es t)
    (hroom : Along Pointer.step Pointer.NoOverflow (pointerStart width height slots) es)
    (hbytes : arrived es = ps.flatMap Packet.bytes) (hdone : t.mouse.pending = []) :
    (t.loop.mouseX, t.loop.mouseY) = (positionAfter (toInt width) (toInt height) ps).cursor ∧
      ((∀ qs, qs <+: ps → (positionAfter (toInt width) (toInt height) qs).cursor =
          clampedAfter (toInt width) (toInt height) qs) ↔
        ∀ qs p, qs ++ [p] <+: ps →
          (positionAfter (toInt width) (toInt height) qs).Harmless (toInt width) (toInt height) p) :=
  ⟨Pointer.run_cursor hrun hroom hbytes hdone, follows_iff (positionStart_ok _ _) ps⟩

end Runs

def packetOf (x y : UInt8) : Packet := ⟨8, x, y, by decide⟩

/-- Two packets: to the right and down, and back. -/
theorem cursor_clamped_back :
    ∃ t, Run Pointer.step (pointerStart 640 480 emptySlots)
        [.turn ([packetOf 5 0xFD, packetOf 0xFE 0].flatMap Packet.bytes)] t ∧
      (t.loop.mouseX, t.loop.mouseY) = clampedAfter 640 480 [packetOf 5 0xFD, packetOf 0xFE 0] := by
  obtain ⟨t, hrun, hroom, hbytes, hdone⟩ :=
    Pointer.run_turn 640 480 emptySlots [packetOf 5 0xFD, packetOf 0xFE 0]
  obtain ⟨hcursor, hiff⟩ := cursor_clamped_iff hrun hroom hbytes hdone
  refine ⟨t, hrun, hcursor.trans (hiff.mpr ?_ _ (prefix_refl _))⟩
  intro qs p hpre
  rcases qs with _ | ⟨q, _ | ⟨r, qs⟩⟩
  · obtain rfl := (cons_prefix_cons.mp hpre).1
    decide
  · obtain ⟨rfl, hrest⟩ := cons_prefix_cons.mp hpre
    obtain rfl := (cons_prefix_cons.mp hrest).1
    decide
  · have hlen := hpre.length_le
    simp at hlen

/-- Five packets to the right, past the edge of 640 columns, and one back by ten. -/
def overshoot : List Packet := List.replicate 5 (packetOf 127 0) ++ [packetOf 0xF6 0]

theorem not_cursor_clamped_edge :
    ∃ t, Run Pointer.step (pointerStart 640 480 emptySlots) [.turn (overshoot.flatMap Packet.bytes)] t ∧
      (t.loop.mouseX, t.loop.mouseY) = (639, 20) ∧ clampedAfter 640 480 overshoot = (629, 20) := by
  obtain ⟨t, hrun, hroom, hbytes, hdone⟩ := Pointer.run_turn 640 480 emptySlots overshoot
  exact ⟨t, hrun, Pointer.run_cursor hrun hroom hbytes hdone, by decide⟩

end FusionOS.Ui
