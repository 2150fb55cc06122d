import FusionOS.Lib.Ring
import FusionOS.Lib.Run
import Mathlib.Data.List.Induction

/-!
# The keyboard

`input.c`: the interrupt handler puts scancodes into a ring of 128 bytes, and `input_poll_key` takes
them out and translates them to key events. The translation keeps three flags; one of them says that
the prefix 0xE0 has come.
-/

namespace FusionOS.Input

open List
open Function (update)

inductive Keycode where
  | none | backspace | enter | esc | tab | up | down | left | right | win | alt
  deriving DecidableEq

/-- `key_event_t`. -/
structure KeyEvent where
  pressed : Bool
  ascii : UInt8
  keycode : Keycode
  deriving DecidableEq

/-- The flags `extended`, `shift_down` and `alt_down`. -/
structure Decoder where
  extended : Bool
  shiftDown : Bool
  altDown : Bool
  deriving DecidableEq

/-- `scancode_ascii`; the array has 128 bytes, of which the rest is 0. -/
def scancodeAscii : List UInt8 :=
  [0, 27, 49, 50, 51, 52, 53, 54, 55, 56, 57, 48, 45, 61, 8,
    9, 113, 119, 101, 114, 116, 121, 117, 105, 111, 112, 91, 93, 10,
    0, 97, 115, 100, 102, 103, 104, 106, 107, 108, 59, 39, 96,
    0, 92, 122, 120, 99, 118, 98, 110, 109, 44, 46, 47, 0,
    42, 0, 32]

def scancodeAsciiShift : List UInt8 :=
  [0, 27, 33, 64, 35, 36, 37, 94, 38, 42, 40, 41, 95, 43, 8,
    9, 81, 87, 69, 82, 84, 89, 85, 73, 79, 80, 123, 125, 10,
    0, 65, 83, 68, 70, 71, 72, 74, 75, 76, 58, 34, 126,
    0, 124, 90, 88, 67, 86, 66, 78, 77, 60, 62, 63, 0,
    42, 0, 32]

/-- The `switch` of `translate_scancode` over the codes behind a prefix. -/
def extendedKeycode (scancode : UInt8) : Keycode :=
  if scancode = 0x48 then .up
  else if scancode = 0x50 then .down
  else if scancode = 0x4B then .left
  else if scancode = 0x4D then .right
  else if scancode = 0x5B then .win
  else .none

/-- The end of `translate_scancode`: a key without prefix. -/
def plainEvent (shiftDown : Bool) (scancode : UInt8) : KeyEvent :=
  if scancode = 0x1C then ⟨true, 0, .enter⟩
  else if scancode = 0x0E then ⟨true, 0, .backspace⟩
  else if scancode = 0x01 then ⟨true, 0, .esc⟩
  else if scancode = 0x0F then ⟨true, 9, .tab⟩
  else
    ⟨true, (if shiftDown then scancodeAsciiShift else scancodeAscii).getD scancode.toNat 0, .none⟩

def translateScancode (d : Decoder) (scancode : UInt8) : KeyEvent × Decoder :=
  let event : KeyEvent := ⟨false, 0, .none⟩
  if scancode = 0xE0 then (event, { d with extended := true })
  else if scancode &&& 0x80 ≠ 0 then
    let code := scancode &&& 0x7F
    let d := if code = 0x2A ∨ code = 0x36 then { d with shiftDown := false } else d
    if code = 0x38 then ({ event with keycode := .alt }, { d with altDown := false })
    else (event, d)
  else if scancode = 0x2A ∨ scancode = 0x36 then (event, { d with shiftDown := true })
  else if scancode = 0x38 then (⟨true, 0, .alt⟩, { d with altDown := true })
  else if d.extended then (⟨true, 0, extendedKeycode scancode⟩, { d with extended := false })
  else (plainEvent d.shiftDown scancode, d)

def kbdBufferSize : Nat := 128

/-- The ring of scancodes and the flags of the translation. -/
structure Keyboard where
  scancodeBuf : Nat → UInt8
  scancodeHead : Nat
  scancodeTail : Nat
  decoder : Decoder

/-- Indices of the ring are of type `u8`. -/
def nextIndex (i : Nat) : Nat := (i + 1) % 2 ^ 8 % kbdBufferSize

def pushScancode (kb : Keyboard) (scancode : UInt8) : Keyboard :=
  if nextIndex kb.scancodeHead = kb.scancodeTail then kb
  else
    { kb with
      scancodeBuf := update kb.scancodeBuf kb.scancodeHead scancode
      scancodeHead := nextIndex kb.scancodeHead }

def popScancode (kb : Keyboard) : Option UInt8 × Keyboard :=
  if kb.scancodeTail = kb.scancodeHead then (none, kb)
  else (some (kb.scancodeBuf kb.scancodeTail), { kb with scancodeTail := nextIndex kb.scancodeTail })

def inputHandleScancode (kb : Keyboard) (scancode : UInt8) : Keyboard := pushScancode kb scancode

/-- The condition under which `input_poll_key` returns an event. -/
def KeyEvent.visible (e : KeyEvent) : Bool := e.pressed || e.ascii != 0 || e.keycode != .none

/-- The loop of `input_poll_key`; `none` where it does not end. -/
def pollLoop : Nat → Keyboard → Option (Option KeyEvent × Keyboard)
  | 0, _ => none
  | n + 1, kb =>
    match popScancode kb with
    | (none, kb) => some (none, kb)
    | (some scancode, kb) =>
      match translateScancode kb.decoder scancode with
      | (translated, d) =>
        if translated.visible then some (some translated, { kb with decoder := d })
        else pollLoop n { kb with decoder := d }

def inputPollKey (kb : Keyboard) : Option (Option KeyEvent × Keyboard) := pollLoop kbdBufferSize kb

/-- The static variables before the first interrupt. -/
def keyboardStart : Keyboard := ⟨fun _ => 0, 0, 0, ⟨false, false, false⟩⟩

/-! ## The ring as a queue -/

namespace Keyboard

structure Ok (kb : Keyboard) : Prop where
  head : kb.scancodeHead < kbdBufferSize
  tail : kb.scancodeTail < kbdBufferSize

/-- The number of scancodes in the ring. -/
def count (kb : Keyboard) : Nat := (kb.scancodeHead + kbdBufferSize - kb.scancodeTail) % kbdBufferSize

/-- The scancodes in the ring, in the order of their arrival. -/
def pending (kb : Keyboard) : List UInt8 :=
  ringList kb.scancodeBuf kbdBufferSize kb.scancodeTail kb.count

def Room (kb : Keyboard) : Prop := nextIndex kb.scancodeHead ≠ kb.scancodeTail

instance (kb : Keyboard) : Decidable kb.Room := inferInstanceAs (Decidable (_ ≠ _))

/-- The ring without the flags. -/
def ring (kb : Keyboard) : Ring UInt8 := ⟨kb.scancodeBuf, kb.scancodeHead, kb.scancodeTail⟩

variable {kb : Keyboard}

lemma count_lt (kb : Keyboard) : kb.count < kbdBufferSize := Nat.mod_lt _ (by decide)

lemma nextIndex_eq (i : Nat) : nextIndex i = (i + 1) % kbdBufferSize := by
  unfold nextIndex kbdBufferSize
  omega

lemma Ok.ring (h : kb.Ok) : kb.ring.Ok kbdBufferSize := ⟨h.head, h.tail⟩

lemma pushScancode_ring (kb : Keyboard) (b : UInt8) :
    (pushScancode kb b).ring = kb.ring.push nextIndex b := by
  unfold pushScancode Ring.push
  split
  · exact (if_pos (by assumption)).symm
  · exact (if_neg (by assumption)).symm

lemma popScancode_ring (kb : Keyboard) :
    (popScancode kb).1 = (kb.ring.pop nextIndex).1 ∧ (popScancode kb).2.ring = (kb.ring.pop nextIndex).2 := by
  unfold popScancode Ring.pop Keyboard.ring
  split <;> exact ⟨rfl, rfl⟩

lemma Ok.push (h : kb.Ok) (hroom : kb.Room) (b : UInt8) :
    (pushScancode kb b).Ok ∧ (pushScancode kb b).pending = kb.pending ++ [b] ∧
      (pushScancode kb b).decoder = kb.decoder := by
  have hfree : kb.ring.count kbdBufferSize + 1 ≠ kbdBufferSize := by
    intro hfull
    have hhead := h.ring.full_iff.mpr hfull
    rw [← nextIndex_eq] at hhead
    exact hroom hhead
  obtain ⟨hok, hcontents⟩ := h.ring.push_room (fun i _ => nextIndex_eq i) hfree b
  rw [← pushScancode_ring] at hok hcontents
  refine ⟨⟨hok.head, hok.tail⟩, hcontents, ?_⟩
  rw [pushScancode, if_neg hroom]

lemma Ok.pop (h : kb.Ok) :
    (kb.pending = [] ∧ popScancode kb = (none, kb)) ∨
      ∃ b kb', kb.pending = b :: kb'.pending ∧ popScancode kb = (some b, kb') ∧ kb'.Ok ∧
        kb'.decoder = kb.decoder ∧ kb'.count < kb.count := by
  by_cases heq : kb.scancodeTail = kb.scancodeHead
  · exact .inl ⟨h.ring.pop_empty heq, if_pos heq⟩
  · obtain ⟨hok, hcons⟩ := h.ring.pop_some heq
    rw [← nextIndex_eq] at hok hcons
    refine .inr ⟨_, { kb with scancodeTail := nextIndex kb.scancodeTail }, hcons, if_neg heq,
      ⟨hok.head, hok.tail⟩, rfl, ?_⟩
    have hlen := congrArg List.length hcons
    rw [Ring.contents_length, length_cons, Ring.contents_length] at hlen
    exact Nat.lt_of_succ_le (Nat.le_of_eq hlen.symm)

end Keyboard

/-- The events that a list of scancodes gives, and the flags behind it. -/
def decode : Decoder → List UInt8 → List KeyEvent × Decoder
  | d, [] => ([], d)
  | d, b :: bs =>
    match translateScancode d b with
    | (e, d') => (if e.visible then e :: (decode d' bs).1 else (decode d' bs).1, (decode d' bs).2)

lemma pollLoop_ok {kb : Keyboard} (h : kb.Ok) {fuel : Nat} (hf : kb.count < fuel) :
    ∃ r kb', pollLoop fuel kb = some (r, kb') ∧ kb'.Ok ∧
      ∀ more, (decode kb.decoder (kb.pending ++ more)).1 =
        r.toList ++ (decode kb'.decoder (kb'.pending ++ more)).1 := by
  induction fuel generalizing kb with
  | zero => omega
  | succ fuel ih =>
    rcases h.pop with ⟨hnil, hpop⟩ | ⟨b, kb', hcons, hpop, hok, hdec, hlt⟩
    · refine ⟨none, kb, ?_, h, fun _ => rfl⟩
      rw [pollLoop, hpop]
    · simp only [pollLoop, hpop, hcons, cons_append, decode, ← hdec]
      cases hvis : (translateScancode kb'.decoder b).1.visible with
      | true => exact ⟨_, { kb' with decoder := _ }, rfl, ⟨hok.head, hok.tail⟩, fun _ => rfl⟩
      | false =>
        have hok' : ({ kb' with decoder := (translateScancode kb'.decoder b).2 } : Keyboard).Ok :=
          ⟨hok.head, hok.tail⟩
        obtain ⟨r, kb'', hrun, hok'', hsplit⟩ := ih hok' (show kb'.count < fuel by omega)
        exact ⟨r, kb'', hrun, hok'', hsplit⟩

/-! ## Interrupts and polls in any order -/

/-- The keyboard and the events that the polls have returned. -/
structure Session where
  keyboard : Keyboard
  polled : List KeyEvent

inductive Event where
  | scancode (b : UInt8)
  | poll

def Session.step (s : Session) : Event → Option Session
  | .scancode b => some { s with keyboard := inputHandleScancode s.keyboard b }
  | .poll => (inputPollKey s.keyboard).map fun r => ⟨r.2, s.polled ++ r.1.toList⟩

def sessionStart : Session := ⟨keyboardStart, []⟩

/-- No scancode comes while the ring is full. -/
def Session.NoOverflow (s : Session) : Event → Prop
  | .scancode _ => s.keyboard.Room
  | .poll => True

instance (s : Session) (e : Event) : Decidable (s.NoOverflow e) := by
  cases e <;> unfold Session.NoOverflow <;> infer_instance

/-- The scancodes that have come. -/
def scancodes (es : List Event) : List UInt8 :=
  es.filterMap fun e =>
    match e with
    | .scancode b => some b
    | .poll => none

lemma Session.run_events {s t : Session} {es : List Event} (hrun : Run Session.step s es t)
    (hok : s.keyboard.Ok) (hroom : Along Session.step Session.NoOverflow s es) :
    t.keyboard.Ok ∧ t.polled ++ (decode t.keyboard.decoder t.keyboard.pending).1 =
      s.polled ++ (decode s.keyboard.decoder (s.keyboard.pending ++ scancodes es)).1 := by
  induction hrun with
  | nil s => exact ⟨hok, by rw [scancodes, filterMap_nil, append_nil]⟩
  | @cons s t u e es hstep _ ih =>
    obtain ⟨hroom, hrest⟩ := hroom
    cases e with
    | scancode b =>
      cases hstep
      obtain ⟨hok', hpend, hdec⟩ := hok.push hroom b
      obtain ⟨hfinal, heq⟩ := ih hok' (hrest _ rfl)
      refine ⟨hfinal, heq.trans ?_⟩
      dsimp only [inputHandleScancode]
      rw [hpend, hdec, append_assoc]
      rfl
    | poll =>
      obtain ⟨r, kb, hpoll, hok', hsplit⟩ := pollLoop_ok hok s.keyboard.count_lt
      rw [Session.step, inputPollKey, hpoll] at hstep
      cases hstep
      obtain ⟨hfinal, heq⟩ := ih hok' (hrest _ (by rw [Session.step, inputPollKey, hpoll]; rfl))
      refine ⟨hfinal, heq.trans ?_⟩
      rw [append_assoc, ← hsplit]
      rfl

/-! ## Key codes -/

/-- A complete key code: a make or break code, with the prefix 0xE0 or without. -/
structure KeyCode where
  extended : Bool
  code : UInt8
  ne : code ≠ 0xE0

def KeyCode.bytes (k : KeyCode) : List UInt8 := if k.extended then [0xE0, k.code] else [k.code]

/-- The event of a key code, and the flags behind it. -/
def press (d : Decoder) (k : KeyCode) : KeyEvent × Decoder :=
  translateScancode (if k.extended then { d with extended := true } else d) k.code

def afterCodes (ks : List KeyCode) : Decoder :=
  ks.foldl (fun d k => (press d k).2) keyboardStart.decoder

def keyEvent (shiftDown : Bool) (k : KeyCode) : KeyEvent :=
  (translateScancode ⟨k.extended, shiftDown, false⟩ k.code).1

/-- The events of the key codes one after the other. -/
def codeEvents : Decoder → List KeyCode → List KeyEvent
  | _, [] => []
  | d, k :: ks => (press d k).1 :: codeEvents (press d k).2 ks

/-- The event of each key code is that of the code and the shift key alone, and no prefix is left
behind it. -/
def Independent (ks : List KeyCode) : Prop :=
  ∀ pre k post, ks = pre ++ k :: post →
    (press (afterCodes pre) k).1 = keyEvent (afterCodes pre).shiftDown k ∧
      (afterCodes (pre ++ [k])).extended = false

/-- The prefix of the key code, if there is one, is taken back: the code is a make code other than
those of the shift and alt keys. -/
def KeyCode.Consumed (k : KeyCode) : Prop :=
  k.extended = true → k.code &&& 0x80 = 0 ∧ k.code ≠ 0x2A ∧ k.code ≠ 0x36 ∧ k.code ≠ 0x38

instance (k : KeyCode) : Decidable k.Consumed := inferInstanceAs (Decidable (_ → _))

section Codes
variable {d : Decoder} {k : KeyCode}

lemma translateScancode_alt (b : UInt8) :
    (translateScancode d b).1 = (translateScancode ⟨d.extended, d.shiftDown, false⟩ b).1 := by
  simp only [translateScancode]
  split_ifs <;> rfl

lemma press_event (hd : d.extended = false) : (press d k).1 = keyEvent d.shiftDown k := by
  rw [press, translateScancode_alt, keyEvent]
  cases hk : k.extended with
  | true => rfl
  | false => rw [if_neg (by decide), hd]

lemma press_extended (hd : d.extended = false) : (press d k).2.extended = false ↔ k.Consumed := by
  have hne := k.ne
  cases hk : k.extended with
  | true =>
    simp only [press, translateScancode, hk, KeyCode.Consumed, if_neg hne, if_true, forall_const]
    split_ifs
    all_goals simp_all
    tauto
  | false =>
    simp only [press, translateScancode, hk, KeyCode.Consumed, if_neg hne]
    split_ifs <;> simp_all

lemma decode_bytes (d : Decoder) (ks : List KeyCode) :
    (decode d (ks.flatMap KeyCode.bytes)).1 = (codeEvents d ks).filter KeyEvent.visible := by
  induction ks generalizing d with
  | nil => rfl
  | cons k ks ih =>
    rw [flatMap_cons, KeyCode.bytes, codeEvents, filter_cons]
    cases hk : k.extended with
    | true =>
      simp only [press, hk, if_true, ← ih]
      rfl
    | false =>
      simp only [press, hk, ← ih]
      rfl

lemma independent_iff (ks : List KeyCode) : Independent ks ↔ ∀ k ∈ ks, k.Consumed := by
  -- the prefix is taken back by every code before the one at hand
  have hclear : ∀ pre : List KeyCode, (∀ k ∈ pre, k.Consumed) → (afterCodes pre).extended = false := by
    intro pre
    induction pre using List.reverseRecOn with
    | nil => exact fun _ => rfl
    | append_singleton pre k ih =>
      intro hpre
      rw [afterCodes, foldl_append]
      exact (press_extended (ih fun k hk => hpre k (mem_append_left _ hk))).mpr
        (hpre k (mem_append_right _ mem_cons_self))
  constructor
  · intro h
    induction ks using List.reverseRecOn with
    | nil => exact fun k hk => by cases hk
    | append_singleton ks k ih =>
      have hks : ∀ k ∈ ks, k.Consumed := by
        apply ih
        intro pre k' post heq
        exact h pre k' (post ++ [k]) (by rw [heq, append_assoc, cons_append])
      intro k' hk'
      rcases mem_append.mp hk' with hk' | hk'
      · exact hks k' hk'
      · rw [mem_singleton.mp hk']
        have hlast := (h ks k [] rfl).2
        rw [afterCodes, foldl_append] at hlast
        exact (press_extended (hclear ks hks)).mp hlast
  · rintro h pre k post rfl
    have hpre := hclear pre fun k hk => h k (mem_append_left _ hk)
    refine ⟨press_event hpre, hclear _ ?_⟩
    intro k' hk'
    apply h
    rw [mem_append, mem_singleton] at hk'
    rw [mem_append, mem_cons]
    tauto

end Codes

/-- Whatever the order of interrupts and polls, the polls return the events of the key codes; and each
event is that of its own code exactly where every prefix is taken back. -/
theorem key_events_iff (ks : List KeyCode) (es : List Event) (t : Session)
    (hrun : Run Session.step sessionStart es t)
    (hroom : Along Session.step Session.NoOverflow sessionStart es)
    (hcodes : scancodes es = ks.flatMap KeyCode.bytes) :
    t.polled ++ (decode t.keyboard.decoder t.keyboard.pending).1 =
        (codeEvents keyboardStart.decoder ks).filter KeyEvent.visible ∧
      (Independent ks ↔ ∀ k ∈ ks, k.Consumed) := by
  refine ⟨?_, independent_iff ks⟩
  have hevents := (Session.run_events hrun ⟨by decide, by decide⟩ hroom).2
  rw [hevents, hcodes, ← decode_bytes]
  rfl

/-- The up arrow and the key A are pressed and released, with a poll in between. -/
theorem key_events_arrow_a :
    ∃ t, Run Session.step sessionStart [.scancode 0xE0, .scancode 0x48, .poll, .scancode 0x1E] t ∧
      t.polled ++ (decode t.keyboard.decoder t.keyboard.pending).1 =
        [⟨true, 0, .up⟩, ⟨true, 97, .none⟩] ∧
      Independent [⟨true, 0x48, by decide⟩, ⟨false, 0x1E, by decide⟩] := by
  have hrun : Run Session.step sessionStart [.scancode 0xE0, .scancode 0x48, .poll, .scancode 0x1E] _ :=
    Run.of_exec rfl
  have h := key_events_iff [⟨true, 0x48, by decide⟩, ⟨false, 0x1E, by decide⟩] _ _ hrun (by decide) rfl
  exact ⟨_, hrun, h.1, h.2.mpr (by decide)⟩

/-- The release of the up arrow takes the letter from the key A that follows. -/
theorem not_independent_arrow_released :
    press (afterCodes []) ⟨false, 0x1E, by decide⟩ = (⟨true, 97, .none⟩, keyboardStart.decoder) ∧
    (press (afterCodes [⟨true, 0xC8, by decide⟩]) ⟨false, 0x1E, by decide⟩).1 = ⟨true, 0, .none⟩ ∧
    ¬ Independent [⟨true, 0xC8, by decide⟩, ⟨false, 0x1E, by decide⟩] := by
  refine ⟨by decide, by decide, ?_⟩
  intro h
  have := (h [⟨true, 0xC8, by decide⟩] ⟨false, 0x1E, by decide⟩ [] rfl).1
  revert this
  decide

end FusionOS.Input
