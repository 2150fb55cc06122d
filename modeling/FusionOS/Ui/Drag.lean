import FusionOS.Ui.Focus
import FusionOS.Ui.Terminals

/-!
# Dragging and resizing

While the left button is down, `dragging_index` or `resizing_index` is the slot of the window that
was pressed. Keys run in between, and only one of their actions moves windows to other slots:
closing one. `desktop_close_window` adjusts neither index.
-/

namespace FusionOS.Ui

open FusionOS.Input (KeyEvent)

def Desktop.InRange (d : Desktop) : Prop := -1 ≤ d.activeIndex ∧ d.activeIndex < d.windowCount

structure Steady (d d' : Desktop) : Prop where
  dragging : d'.draggingIndex = d.draggingIndex
  resizing : d'.resizingIndex = d.resizingIndex
  inRange : d.InRange → d'.InRange

section Steady
variable {d d' : Desktop}

variable {index : Int}

lemma Steady.refl (d : Desktop) : Steady d d := ⟨rfl, rfl, id⟩

lemma Steady.trans {d'' : Desktop} (h : Steady d d') (h' : Steady d' d'') : Steady d d'' :=
  ⟨h'.dragging.trans h.dragging, h'.resizing.trans h.resizing, fun hin => h'.inRange (h.inRange hin)⟩

lemma placed_steady (h : d.Placed d') : Steady d d' := by
  obtain ⟨ws, rfl, -⟩ := h
  exact ⟨rfl, rfl, id⟩

lemma focus_inRange (h : d.InRange ∨ 0 ≤ index ∧ index < d.windowCount) :
    (desktopFocusWindow d index).InRange := by
  unfold desktopFocusWindow
  split
  next hout =>
    rcases h with h | h
    · exact h
    · omega
  next hin =>
  dsimp only
  split
  · refine ⟨le_refl _, ?_⟩
    dsimp only
    omega
  · refine ⟨?_, ?_⟩
    all_goals
      dsimp only
      omega

lemma Steady.focus (hdragging : d'.draggingIndex = d.draggingIndex)
    (hresizing : d'.resizingIndex = d.resizingIndex)
    (h : d.InRange → d'.InRange ∨ 0 ≤ index ∧ index < d'.windowCount) :
    Steady d (desktopFocusWindow d' index) :=
  ⟨(focus_same d' index).dragging.trans hdragging, (focus_same d' index).resizing.trans hresizing,
    fun hin => focus_inRange (h hin)⟩

lemma focus_steady (d : Desktop) (index : Int) : Steady d (desktopFocusWindow d index) :=
  .focus rfl rfl .inl

lemma focusNext_steady (d : Desktop) (dir : Int) : Steady d (desktopFocusNext d dir) := by
  obtain ⟨index, heq⟩ := focusNext_eq d dir
  rw [heq]
  exact focus_steady d index

lemma minimize_steady (d : Desktop) : Steady d (minimizeActive d) := by
  unfold minimizeActive
  split
  · exact ⟨rfl, rfl, id⟩
  · exact .refl d

lemma panel_steady (d : Desktop) (i : Nat) : Steady d (panelClick d i) := by
  unfold panelClick
  split
  · exact .refl d
  split
  · exact .focus rfl rfl .inl
  split
  · refine ⟨rfl, rfl, fun h => ⟨le_refl _, ?_⟩⟩
    dsimp only
    omega
  · exact focus_steady d _

lemma create_steady (d : Desktop) (type : AppType) : Steady d (desktopCreateWindow d type) := by
  unfold desktopCreateWindow
  split
  · exact .refl d
  · refine Steady.focus ?_ ?_ ?_
    · rfl
    · rfl
    · intro _
      right
      dsimp only
      omega

lemma close_steady (d : Desktop) (index : Int) : Steady d (desktopCloseWindow d index) := by
  unfold desktopCloseWindow
  split
  · exact .refl d
  dsimp only
  split
  · refine ⟨rfl, rfl, fun _ => ⟨le_refl _, ?_⟩⟩
    dsimp only
    omega
  · refine Steady.focus ?_ ?_ ?_
    · rfl
    · rfl
    · intro _
      right
      dsimp only
      omega

lemma raisedIndex_none {last : Int} (h : 0 ≤ index) : raisedIndex (-1) index last = -1 := by
  rw [raisedIndex, if_neg (by omega), if_neg (by omega)]

lemma bringToTop_steady {hit : Int} (hge : 0 ≤ hit) (hlt : hit < d.windowCount)
    (hdragging : d.draggingIndex = -1) (hresizing : d.resizingIndex = -1) :
    Steady d (bringToTop d hit).2 := by
  obtain ⟨hge', hlt'⟩ := raise_range hge hlt
  have hraised : (desktopRaiseWindow d hit).2.draggingIndex = -1 ∧
      (desktopRaiseWindow d hit).2.resizingIndex = -1 := by
    rw [desktopRaiseWindow, if_neg (by omega)]
    split
    · exact ⟨hdragging, hresizing⟩
    · dsimp only
      rw [hdragging, hresizing, raisedIndex_none hge]
      exact ⟨rfl, rfl⟩
  rw [bringToTop_eq]
  apply Steady.focus
  · rw [hraised.1, hdragging]
  · rw [hraised.2, hresizing]
  · exact fun _ => .inr ⟨hge', hlt'⟩

lemma KeyOut.steady {s : LoopState} {k : KeyEvent} {alt shift exits : Bool}
    (h : KeyOut s k alt shift exits d) : Steady s.desktop d := by
  cases h with
  | same => exact .refl _
  | create type => exact create_steady _ type
  | focusNext dir => exact focusNext_steady _ dir
  | place _ hmoved => exact placed_steady (setWindow_placed hmoved)
  | close _ => exact close_steady _ _
  | minimize _ => exact minimize_steady _

end Steady

/-! ## The two indices and the left button -/

/-- What holds of the indices in every state: the active index is in range, and nothing is held unless
the left button was down at the last turn. -/
structure LoopState.Ok (s : LoopState) : Prop where
  inRange : s.desktop.InRange
  button : s.prevMouseButtons &&& 1 = 0 → s.desktop.draggingIndex = -1 ∧ s.desktop.resizingIndex = -1

/-- The state in which `update_drag_resize` runs. -/
def clicked (s : LoopState) : LoopState :=
  if s.mouseButtons ≠ s.prevMouseButtons then
    { handleMouseClick s with prevMouseButtons := s.mouseButtons }
  else s

section Ok
variable {s : LoopState}

lemma frame_eq : frame s = updateDragResize (clicked s) := rfl

lemma clicked_pressed (h : s.LeftPressed) : (clicked s).desktop = (handlePress s).desktop := by
  have hne : s.mouseButtons ≠ s.prevMouseButtons := by
    intro heq
    rw [LoopState.LeftPressed, heq] at h
    exact h.1 h.2
  rw [clicked, if_pos hne, handleMouseClick, if_pos h]

lemma clicked_released (h : s.LeftReleased) : (clicked s).desktop = (handleRelease s).desktop := by
  have hne : s.mouseButtons ≠ s.prevMouseButtons := by
    intro heq
    rw [LoopState.LeftReleased, heq] at h
    exact h.2 h.1
  have hpress : ¬s.LeftPressed := fun hp => hp.1 h.1
  rw [clicked, if_pos hne, handleMouseClick, if_neg hpress, if_pos h]

lemma clicked_other (hpress : ¬s.LeftPressed) (hrelease : ¬s.LeftReleased) :
    (clicked s).desktop = s.desktop := by
  unfold clicked
  split
  · rw [handleMouseClick, if_neg hpress, if_neg hrelease]
  · rfl

lemma frame_prevMouseButtons : (frame s).prevMouseButtons = s.mouseButtons := by
  have hclicked : (clicked s).prevMouseButtons = s.mouseButtons := by
    unfold clicked
    split
    · rfl
    next h => exact (not_not.mp h).symm
  exact hclicked

lemma loopStart_ok (width height : Nat) (slots : Nat → Window) : (loopStart width height slots).Ok := by
  have hsteady := create_steady ⟨slots, 0, -1, -1, -1, width, height⟩ .terminal
  have hin : Desktop.InRange ⟨slots, 0, -1, -1, -1, width, height⟩ := ⟨le_refl _, Int.negSucc_lt_zero 0⟩
  exact ⟨hsteady.inRange hin, fun _ => ⟨hsteady.dragging, hsteady.resizing⟩⟩

lemma Steady.loopOk {t : LoopState} (h : Steady s.desktop t.desktop)
    (hprev : t.prevMouseButtons = s.prevMouseButtons) (hok : s.Ok) : t.Ok := by
  refine ⟨h.inRange hok.inRange, ?_⟩
  rw [hprev, h.dragging, h.resizing]
  exact hok.button

end Ok

/-! ## The window that is held -/

/-- A state of the loop with the slot of the window that the mouse holds. -/
structure Held where
  loop : LoopState
  slot : Option Nat

/-- Where the window of slot `i` is when the window of slot `c` has been closed. -/
def followClose (d : Desktop) (c i : Nat) : Option Nat :=
  if i = c then none else if i = d.windowCount - 1 then some c else some i

/-- Where the window of slot `i` is after a key or a movement of the mouse. -/
def follow (s : LoopState) (e : LoopEvent) (i : Nat) : Option Nat :=
  if s.ClosesActive e then followClose s.desktop s.desktop.activeIndex.toNat i else some i

def pressedSlot (s : LoopState) : Option Nat :=
  if 0 ≤ (clicked s).desktop.draggingIndex ∨ 0 ≤ (clicked s).desktop.resizingIndex then
    some (bringToTop s.desktop s.hit).1.toNat
  else none

def slotAfter (s : LoopState) (slot : Option Nat) : LoopEvent → Option Nat
  | .key k alt shift exits => slot.bind (follow s (.key k alt shift exits))
  | .mouse _ _ _ => slot
  | .frame => if s.LeftPressed then pressedSlot s else if s.LeftReleased then none else slot

def Held.step (h : Held) (e : LoopEvent) : Option Held :=
  (h.loop.step e).map fun t => ⟨t, slotAfter h.loop h.slot e⟩

def Designates (d : Desktop) (slot : Option Nat) (i : Int) : Prop :=
  i = -1 ∨ ∃ n : Nat, i = n ∧ n < d.windowCount ∧ slot = some n

def Held.Ok (h : Held) : Prop :=
  Designates h.loop.desktop h.slot h.loop.desktop.draggingIndex ∧
    Designates h.loop.desktop h.slot h.loop.desktop.resizingIndex

/-- After the event the indices designate the window held, and `update_drag_resize` has changed no
other window. -/
def HeldAfter (h : Held) (e : LoopEvent) : Prop :=
  ∀ t, h.step e = some t → t.Ok ∧
    (e = .frame → ∀ j, t.loop.desktop.windows j ≠ (clicked h.loop).desktop.windows j → t.slot = some j)

/-- The event closes a window and reuses the slot of the one held: that window is closed itself, or it
is in the last slot and moves. -/
def ClosesHeld (h : Held) (e : LoopEvent) : Prop :=
  h.loop.ClosesActive e ∧ ∃ i, (i = h.loop.desktop.draggingIndex ∨ i = h.loop.desktop.resizingIndex) ∧
    0 ≤ i ∧ (i = h.loop.desktop.activeIndex ∨ i = h.loop.desktop.windowCount - 1)

section Held
variable {s : LoopState} {slot : Option Nat} {k : KeyEvent} {alt shift exits : Bool}

variable {d : Desktop} {i : Int} {j : Nat}

lemma KeyOut.count_le (hclose : ¬s.ClosesActive (.key k alt shift exits))
    (h : KeyOut s k alt shift exits d) : s.desktop.windowCount ≤ d.windowCount := by
  cases h with
  | same => exact le_refl _
  | create type =>
    unfold desktopCreateWindow
    split
    · exact le_refl _
    · rw [(focus_same _ _).count]
      exact Nat.le_succ _
  | focusNext dir => exact (focusNext_same _ dir).count.ge
  | place _ hmoved => exact le_refl _
  | close h => exact absurd h hclose
  | minimize _ => exact (minimize_same _).count.ge

lemma closed_count (hok : s.Ok) (hge : 0 ≤ s.desktop.activeIndex) :
    (desktopCloseWindow s.desktop s.desktop.activeIndex).windowCount = s.desktop.windowCount - 1 := by
  obtain ⟨c, hc⟩ := Int.eq_ofNat_of_zero_le hge
  have hlt := hok.inRange.2
  rw [hc]
  exact (close_moves (by omega)).count

lemma designates_key_iff (hok : s.Ok) (h : Designates s.desktop slot i) :
    Designates (handleKey s k alt shift exits).desktop
        (slotAfter s slot (.key k alt shift exits)) i ↔
      ¬(s.ClosesActive (.key k alt shift exits) ∧ 0 ≤ i ∧
        (i = s.desktop.activeIndex ∨ i = s.desktop.windowCount - 1)) := by
  rcases h with rfl | ⟨n, rfl, hn, rfl⟩
  · exact iff_of_true (.inl rfl) fun hbad => absurd hbad.2.1 (by decide)
  have hslot : slotAfter s (some n) (.key k alt shift exits) = follow s (.key k alt shift exits) n := rfl
  by_cases hclose : s.ClosesActive (.key k alt shift exits)
  · have hge := hclose.2.1
    rw [hslot, follow, if_pos hclose, handleKey_closes hclose, Designates, closed_count hok hge,
      followClose]
    constructor
    · rintro (hnone | ⟨m, hm, hlt, hsome⟩) ⟨-, -, hbad⟩
      · omega
      · have hmn : m = n := by omega
        subst hmn
        rcases hbad with hbad | hbad
        · rw [if_pos (by omega)] at hsome
          cases hsome
        · omega
    · intro hgood
      have hactive : n ≠ s.desktop.activeIndex.toNat := by
        intro heq
        exact hgood ⟨hclose, by omega, .inl (by omega)⟩
      have hlast : n ≠ s.desktop.windowCount - 1 := by
        intro heq
        exact hgood ⟨hclose, by omega, .inr (by omega)⟩
      refine .inr ⟨n, rfl, by omega, ?_⟩
      rw [if_neg hactive, if_neg hlast]
  · refine iff_of_true (.inr ⟨n, rfl, ?_, ?_⟩) fun hbad => hclose hbad.1
    · exact Nat.lt_of_lt_of_le hn (handleKey_out.count_le hclose)
    · rw [hslot, follow, if_neg hclose]

structure Pressed (s : LoopState) (d : Desktop) : Prop where
  inRange : d.InRange
  dragging : Designates d (some (bringToTop s.desktop s.hit).1.toNat) d.draggingIndex
  resizing : Designates d (some (bringToTop s.desktop s.hit).1.toNat) d.resizingIndex

lemma Pressed.of_steady (hok : s.Ok) (hpress : s.LeftPressed) (h : Steady s.desktop d) :
    Pressed s d :=
  ⟨h.inRange hok.inRange, .inl (h.dragging.trans (hok.button hpress.2).1),
    .inl (h.resizing.trans (hok.button hpress.2).2)⟩

lemma bringToTop_designates (hge : 0 ≤ s.hit) :
    Designates (bringToTop s.desktop s.hit).2 (some (bringToTop s.desktop s.hit).1.toNat)
      (bringToTop s.desktop s.hit).1 := by
  obtain ⟨hge', hlt'⟩ := raise_range hge hit_lt
  refine .inr ⟨_, (Int.toNat_of_nonneg hge').symm, ?_, rfl⟩
  rw [bringToTop_eq, (focus_same _ _).count]
  omega

lemma ClickOut.pressed (hout : ClickOut s d) (hok : s.Ok) (hpress : s.LeftPressed) :
    Pressed s d := by
  obtain ⟨hdragging, hresizing⟩ := hok.button hpress.2
  have htop : 0 ≤ s.hit → Steady s.desktop (bringToTop s.desktop s.hit).2 :=
    fun hge => bringToTop_steady hge hit_lt hdragging hresizing
  cases hout with
  | same => exact .of_steady hok hpress (.refl _)
  | create _ type => exact .of_steady hok hpress (create_steady _ _)
  | panel _ i => exact .of_steady hok hpress (panel_steady _ _)
  | focus _ hge => exact .of_steady hok hpress (htop hge)
  | close _ hge => exact .of_steady hok hpress ((htop hge).trans (close_steady _ _))
  | resize _ hge =>
    have hfree := Pressed.of_steady hok hpress (htop hge)
    exact ⟨hfree.inRange, hfree.dragging, bringToTop_designates hge⟩
  | drag _ hge =>
    have hfree := Pressed.of_steady hok hpress (htop hge)
    exact ⟨hfree.inRange, bringToTop_designates hge, hfree.resizing⟩
  | release hrelease _ => exact absurd hrelease.1 hpress.1

lemma handleRelease_inRange (hok : s.Ok) : (handleRelease s).desktop.InRange := by
  unfold handleRelease
  dsimp only
  split
  · exact hok.inRange
  · exact hok.inRange

lemma Designates.placed {d' : Desktop} (h : Designates d slot i) (hplaced : d.Placed d') :
    Designates d' slot i := by
  obtain ⟨ws, rfl, -⟩ := hplaced
  exact h

lemma Designates.of_neg {slot' : Option Nat} (h : Designates d slot i)
    (hneg : i < 0) : Designates d slot' i := by
  rcases h with rfl | ⟨n, rfl, -⟩
  · exact .inl rfl
  · omega

lemma clicked_inRange (hok : s.Ok) : (clicked s).desktop.InRange := by
  by_cases hpress : s.LeftPressed
  · rw [clicked_pressed hpress]
    exact ((handlePress_out hpress).pressed hok hpress).inRange
  by_cases hrelease : s.LeftReleased
  · rw [clicked_released hrelease]
    exact handleRelease_inRange hok
  · rw [clicked_other hpress hrelease]
    exact hok.inRange

lemma clicked_free (hok : s.Ok) (hup : s.mouseButtons &&& 1 = 0) :
    (clicked s).desktop.draggingIndex = -1 ∧ (clicked s).desktop.resizingIndex = -1 := by
  have hpress : ¬s.LeftPressed := fun h => h.1 hup
  by_cases hrelease : s.LeftReleased
  · rw [clicked_released hrelease]
    exact ⟨rfl, rfl⟩
  · rw [clicked_other hpress hrelease]
    exact hok.button (not_not.mp fun hne => hrelease ⟨hup, hne⟩)

lemma LoopState.Ok.step (hok : s.Ok) {e : LoopEvent} {t : LoopState} (ht : s.step e = some t) :
    t.Ok := by
  cases e with
  | key k alt shift exits =>
    cases ht
    exact handleKey_out.steady.loopOk handleKey_prevMouseButtons hok
  | mouse x y buttons =>
    cases ht
    exact ⟨hok.inRange, hok.button⟩
  | frame =>
    cases ht
    have hsteady := placed_steady (updateDragResize_placed (clicked s))
    refine ⟨hsteady.inRange (clicked_inRange hok), ?_⟩
    rw [frame_prevMouseButtons, frame_eq, hsteady.dragging, hsteady.resizing]
    exact clicked_free hok

lemma clicked_designates (hok : s.Ok)
    (hdragging : Designates s.desktop slot s.desktop.draggingIndex)
    (hresizing : Designates s.desktop slot s.desktop.resizingIndex) :
    Designates (clicked s).desktop (slotAfter s slot .frame) (clicked s).desktop.draggingIndex ∧
      Designates (clicked s).desktop (slotAfter s slot .frame) (clicked s).desktop.resizingIndex := by
  rw [slotAfter]
  split
  next hpress =>
    have hpressed := (handlePress_out hpress).pressed hok hpress
    rw [← clicked_pressed hpress] at hpressed
    unfold pressedSlot
    split
    · exact ⟨hpressed.dragging, hpressed.resizing⟩
    · exact ⟨hpressed.dragging.of_neg (by omega), hpressed.resizing.of_neg (by omega)⟩
  split
  next hrelease =>
    rw [clicked_released hrelease]
    exact ⟨.inl rfl, .inl rfl⟩
  next hpress hrelease =>
    rw [clicked_other hpress hrelease]
    exact ⟨hdragging, hresizing⟩

lemma setWindow_other {c : Prop} [Decidable c] {win : Window}
    (hge : c → 0 ≤ i) (hne : i ≠ j) :
    (if c then d.setWindow i.toNat win else d).windows j = d.windows j := by
  split
  next hc =>
    have hslot : j ≠ i.toNat := by
      have := hge hc
      omega
    exact Function.update_of_ne hslot _ _
  · rfl

lemma updateDragResize_slots
    (hne : (updateDragResize s).desktop.windows j ≠ s.desktop.windows j) :
    s.desktop.draggingIndex = j ∨ s.desktop.resizingIndex = j := by
  by_contra hother
  obtain ⟨hdragging, hresizing⟩ := not_or.mp hother
  apply hne
  unfold updateDragResize
  extract_lets d1 d2 d3
  have hfirst : d2.windows j = s.desktop.windows j := setWindow_other And.left hdragging
  have hindex : d2.resizingIndex = s.desktop.resizingIndex := by
    dsimp only [d2]
    split
    · rfl
    · rfl
  have hsecond : d3.windows j = d2.windows j := setWindow_other And.left (hindex ▸ hresizing)
  exact hsecond.trans hfirst

lemma Designates.eq_some (h : Designates d slot i) (hj : i = j) :
    slot = some j := by
  rcases h with hnone | ⟨n, hn, -, hslot⟩
  · omega
  · rw [hslot, Int.natCast_inj.mp (hn.symm.trans hj)]

lemma heldAfter_key_iff (hok : s.Ok) (hheld : Held.Ok ⟨s, slot⟩) :
    HeldAfter ⟨s, slot⟩ (.key k alt shift exits) ↔ ¬ClosesHeld ⟨s, slot⟩ (.key k alt shift exits) := by
  have hsteady : Steady s.desktop (handleKey s k alt shift exits).desktop := handleKey_out.steady
  have hafter : HeldAfter ⟨s, slot⟩ (.key k alt shift exits) ↔
      Held.Ok ⟨handleKey s k alt shift exits, slotAfter s slot (.key k alt shift exits)⟩ := by
    constructor
    · exact fun h => (h _ rfl).1
    · rintro h t ⟨⟩
      exact ⟨h, fun he => by cases he⟩
  rw [hafter, Held.Ok]
  dsimp only
  rw [hsteady.dragging, hsteady.resizing, designates_key_iff hok hheld.1, designates_key_iff hok hheld.2]
  constructor
  · rintro ⟨hdragging, hresizing⟩ ⟨hclose, i, rfl | rfl, hbad⟩
    · exact hdragging ⟨hclose, hbad⟩
    · exact hresizing ⟨hclose, hbad⟩
  · intro h
    exact ⟨fun hbad => h ⟨hbad.1, _, .inl rfl, hbad.2⟩, fun hbad => h ⟨hbad.1, _, .inr rfl, hbad.2⟩⟩

lemma heldAfter_frame (hok : s.Ok) (hheld : Held.Ok ⟨s, slot⟩) : HeldAfter ⟨s, slot⟩ .frame := by
  rintro t ⟨⟩
  obtain ⟨hdragging, hresizing⟩ := clicked_designates hok hheld.1 hheld.2
  have hplaced := updateDragResize_placed (clicked s)
  have hsteady := placed_steady hplaced
  refine ⟨⟨?_, ?_⟩, ?_⟩
  · rw [← hsteady.dragging] at hdragging
    exact hdragging.placed hplaced
  · rw [← hsteady.resizing] at hresizing
    exact hresizing.placed hplaced
  · intro _ j hne
    rcases updateDragResize_slots hne with hj | hj
    · exact hdragging.eq_some hj
    · exact hresizing.eq_some hj

lemma heldAfter_iff (hok : s.Ok) (hheld : Held.Ok ⟨s, slot⟩) (e : LoopEvent) :
    HeldAfter ⟨s, slot⟩ e ↔ ¬ClosesHeld ⟨s, slot⟩ e := by
  cases e with
  | key k alt shift exits => exact heldAfter_key_iff hok hheld
  | mouse x y buttons =>
    refine iff_of_true ?_ fun h => h.1
    rintro t ⟨⟩
    exact ⟨hheld, fun h => by cases h⟩
  | frame => exact iff_of_true (heldAfter_frame hok hheld) fun h => h.1

/-! The slots that are followed hold the same windows: the type and the shell go along. -/

lemma KeyOut.window (hclose : ¬s.ClosesActive (.key k alt shift exits))
    (h : KeyOut s k alt shift exits d) {i : Nat} (hi : i < s.desktop.windowCount) :
    (d.windows i).type = (s.desktop.windows i).type ∧
      (d.windows i).shellTerm = (s.desktop.windows i).shellTerm := by
  cases h with
  | same => exact ⟨rfl, rfl⟩
  | create type =>
    unfold desktopCreateWindow
    split
    · exact ⟨rfl, rfl⟩
    · dsimp only
      rw [((focus_same _ _).windows i).type, ((focus_same _ _).windows i).shellTerm]
      dsimp only
      rw [Function.update_of_ne (Nat.ne_of_lt hi)]
      exact ⟨rfl, rfl⟩
  | focusNext dir =>
    have hsame := (focusNext_same s.desktop dir).windows i
    exact ⟨hsame.type, hsame.shellTerm⟩
  | place _ hmoved =>
    obtain ⟨ws, hws, hall⟩ := setWindow_placed hmoved
    rw [hws]
    exact ⟨(hall i).type, (hall i).shellTerm⟩
  | close h => exact absurd h hclose
  | minimize _ =>
    have hsame := (minimize_same s.desktop).windows i
    exact ⟨hsame.type, hsame.shellTerm⟩

lemma follow_window (hok : s.Ok) {i : Nat} (hi : i < s.desktop.windowCount)
    (h : follow s (.key k alt shift exits) i = some j) :
    j < (handleKey s k alt shift exits).desktop.windowCount ∧
      ((handleKey s k alt shift exits).desktop.windows j).type = (s.desktop.windows i).type ∧
      ((handleKey s k alt shift exits).desktop.windows j).shellTerm = (s.desktop.windows i).shellTerm := by
  unfold follow at h
  split at h
  next hclose =>
    obtain ⟨c, hc⟩ := Int.eq_ofNat_of_zero_le hclose.2.1
    have hlt : c < s.desktop.windowCount := by
      have := hok.inRange.2
      omega
    have hmoves := close_moves hlt
    rw [handleKey_closes hclose, hc]
    rw [hc, Int.toNat_natCast, followClose] at h
    rw [hmoves.count, (hmoves.windows j).type, (hmoves.windows j).shellTerm]
    dsimp only
    split_ifs at h with hic hlast
    · cases h
      rw [if_neg (by omega), Function.update_self, ← hlast]
      exact ⟨by omega, rfl, rfl⟩
    · cases h
      refine ⟨by omega, ?_⟩
      split
      · exact ⟨rfl, rfl⟩
      · rw [Function.update_of_ne hic]
        exact ⟨rfl, rfl⟩
  next hclose =>
    cases h
    exact ⟨Nat.lt_of_lt_of_le hi (handleKey_out.count_le hclose), handleKey_out.window hclose hi⟩

lemma bringToTop_window {hit : Int} (hge : 0 ≤ hit) (hlt : hit < d.windowCount) :
    ((bringToTop d hit).2.windows (bringToTop d hit).1.toNat).type = (d.windows hit.toNat).type ∧
      ((bringToTop d hit).2.windows (bringToTop d hit).1.toNat).shellTerm =
        (d.windows hit.toNat).shellTerm := by
  obtain ⟨hge', hlt'⟩ := raise_range hge hlt
  have hraised : (desktopRaiseWindow d hit).2.windows (desktopRaiseWindow d hit).1.toNat =
      d.windows hit.toNat := by
    rw [desktopRaiseWindow, if_neg (by omega)]
    split
    · rfl
    · exact Function.update_self _ _ _
  rw [bringToTop_eq, ((focus_same _ _).windows _).type, ((focus_same _ _).windows _).shellTerm]
  rw [show (bringToTop d hit).1 = (desktopRaiseWindow d hit).1 from rfl, hraised]
  exact ⟨rfl, rfl⟩

end Held

/-- The start of the desktop, with nothing held. -/
def heldStart (width height : Nat) (slots : Nat → Window) : Held := ⟨loopStart width height slots, none⟩

lemma heldStart_ok (width height : Nat) (slots : Nat → Window) : (heldStart width height slots).Ok := by
  have hsteady := create_steady ⟨slots, 0, -1, -1, -1, width, height⟩ .terminal
  exact ⟨.inl hsteady.dragging, .inl hsteady.resizing⟩

/-- From the start of the desktop on, the indices designate the window held after every event, and
`update_drag_resize` moves no other one, exactly if no key closes a window while the one held is that
window or is in the last slot. -/
theorem held_window_iff (width height : Nat) (slots : Nat → Window) (es : List LoopEvent) :
    ((heldStart width height slots).Ok ∧ Along Held.step HeldAfter (heldStart width height slots) es) ↔
      Along Held.step (fun h e => ¬ClosesHeld h e) (heldStart width height slots) es := by
  have hstart := heldStart_ok width height slots
  rw [and_iff_right hstart]
  apply Along.iff_of_invariant (G := fun _ _ => True) (fun h => h.loop.Ok ∧ h.Ok)
  · rintro ⟨s, slot⟩ e t ⟨hok, -⟩ - hafter ht
    refine ⟨?_, (hafter t ht).1⟩
    obtain ⟨t', ht', rfl⟩ := Option.map_eq_some_iff.mp ht
    exact hok.step ht'
  · rintro ⟨s, slot⟩ e ⟨hok, hheld⟩ -
    exact heldAfter_iff hok hheld e
  · exact ⟨loopStart_ok width height slots, hstart⟩
  · exact .of_forall (fun _ _ => trivial) _ _

/-- The first terminal is dragged by its title and closed with Alt+Q. -/
theorem not_held_window_altQ :
    ¬ Along Held.step HeldAfter (heldStart 1024 768 emptySlots)
      [.mouse 300 180 1, .frame, .key ⟨true, 113, .none⟩ true false false] := by
  intro h
  have hdragging := (((h.2 _ rfl).2 _ rfl).1 _ rfl).1.1
  rcases hdragging with hnone | ⟨n, hn, hlt, -⟩
  · exact absurd hnone (by decide)
  · exact absurd hlt (Nat.not_lt_zero n)

end FusionOS.Ui
