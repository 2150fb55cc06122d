import FusionOS.Drivers.Keyboard
import FusionOS.Ui.Desktop

/-!
# The event loop of the desktop

`desktop_loop` reads the keys, then the mouse, then runs `handle_mouse_click` if the buttons have
changed, and then `update_drag_resize`. A run is a list of events: a key, a movement of the mouse,
and the part of a turn behind both.
-/

namespace FusionOS.Ui

open FusionOS.Input (KeyEvent Keycode)

def titleHeight : Int := 24
def panelHeight : Int := 28
def closeSize : Int := 14
def resizeMargin : Int := 6
def snapMargin : Int := 20

/-- The static variables of `desktop.c`. `resize_mask` is given by its four bits. -/
structure LoopState where
  desktop : Desktop
  launcherOpen : Bool
  launcherQuery : List UInt8
  launcherSelection : Nat
  mouseX : Int
  mouseY : Int
  mouseButtons : UInt8
  prevMouseButtons : UInt8
  dragOffsetX : Int
  dragOffsetY : Int
  resizeLeft : Bool
  resizeRight : Bool
  resizeTop : Bool
  resizeBottom : Bool
  resizeStartX : Int
  resizeStartY : Int
  resizeStartW : Int
  resizeStartH : Int

/-! ## Geometry -/

def pointInRect (x y rx ry rw rh : Int) : Bool :=
  decide (rx ≤ x ∧ x < rx + rw ∧ ry ≤ y ∧ y < ry + rh)

def Window.contains (win : Window) (x y : Int) : Bool := pointInRect x y win.x win.y win.w win.h

/-- `(int)gfx_width()`. -/
def Desktop.screenW (d : Desktop) : Int := toInt d.gfxWidth

/-- `(int)gfx_height()`. -/
def Desktop.screenH (d : Desktop) : Int := toInt d.gfxHeight

/-- The loop of `find_top_window_at` over the slots below `n`. -/
def findTopLoop (d : Desktop) (x y : Int) : Nat → Int
  | 0 => -1
  | n + 1 =>
    if (d.windows n).minimized then findTopLoop d x y n
    else if (d.windows n).contains x y then n
    else findTopLoop d x y n

def findTopWindowAt (d : Desktop) (x y : Int) : Int := findTopLoop d x y d.windowCount

def clampWindowToScreen (d : Desktop) (win : Window) : Window :=
  let win := if win.w < minWinW then { win with w := minWinW } else win
  let win := if win.h < minWinH then { win with h := minWinH } else win
  let win := if win.x < 0 then { win with x := 0 } else win
  let win := if win.y < 0 then { win with y := 0 } else win
  let win := if d.screenW < win.x + win.w then { win with x := d.screenW - win.w } else win
  if d.screenH - panelHeight < win.y + win.h then { win with y := d.screenH - panelHeight - win.h } else win

def Desktop.setWindow (d : Desktop) (i : Nat) (win : Window) : Desktop :=
  { d with windows := Function.update d.windows i win }

/-- `desktop_snap_window`; the modes are 0 for the whole screen, 1 for the left and 2 for the right
half. -/
def desktopSnapWindow (d : Desktop) (win : Window) (mode : Nat) : Window :=
  let screenW := d.screenW
  let screenH := d.screenH - panelHeight
  let win :=
    if mode = 0 then { win with x := 0, y := 0, w := screenW, h := screenH }
    else if mode = 1 then { win with x := 0, y := 0, w := screenW.tdiv 2, h := screenH }
    else if mode = 2 then
      { win with x := screenW.tdiv 2, y := 0, w := screenW - screenW.tdiv 2, h := screenH }
    else win
  let win := if win.w < minWinW then { win with w := minWinW } else win
  if win.h < minWinH then { win with h := minWinH } else win

/-! ## The launcher -/

/-- The names of `apps`. -/
def appName : AppType → List UInt8
  | .terminal => [84, 101, 114, 109, 105, 110, 97, 108]
  | .files => [70, 105, 108, 101, 115]
  | .settings => [83, 101, 116, 116, 105, 110, 103, 115]
  | .about => [65, 98, 111, 117, 116]
  | .browser => [66, 114, 111, 119, 115, 101, 114]

def apps : List AppType := [.terminal, .files, .settings, .about, .browser]

def lower (c : UInt8) : UInt8 := if 65 ≤ c ∧ c ≤ 90 then c - 65 + 97 else c

/-- `launcher_matches`: the query stands somewhere in the name, whatever the case of its letters. -/
def launcherMatches (query name : List UInt8) : Bool :=
  query.isEmpty || (List.range name.length).any fun j =>
    (query.map lower).isPrefixOf ((name.drop j).map lower)

def launcherMatchCount (query : List UInt8) : Nat :=
  (apps.filter fun a => launcherMatches query (appName a)).length

def launcherMatchType (query : List UInt8) (index : Nat) : AppType :=
  (apps.filter fun a => launcherMatches query (appName a)).getD index .terminal

def launcherResetQuery (s : LoopState) : LoopState := { s with launcherQuery := [], launcherSelection := 0 }

/-- What the launcher button and the Windows key do. -/
def toggleLauncher (s : LoopState) : LoopState :=
  if s.launcherOpen then { s with launcherOpen := false }
  else launcherResetQuery { s with launcherOpen := true }

structure Layout where
  lx : Int
  lw : Int
  listY : Int
  listBottom : Int
  buttonY : Int

def launcherLayout (d : Desktop) : Layout :=
  let margin : Int := 8
  let panelY := d.screenH - panelHeight
  let maxH := if panelY - margin * 2 < 140 then 140 else panelY - margin * 2
  let maxW := d.screenW - margin * 2
  let width := if maxW < 280 then maxW else 280
  let width := if width < 160 then maxW else width
  let listStart := margin + 12 + 16 + 6 + 16 + 10
  let buttonPos := margin + maxH - 12 - 24
  let listEnd := if buttonPos - 8 < listStart + 16 then listStart + 16 else buttonPos - 8
  ⟨margin, width, listStart, listEnd, buttonPos⟩

/-- A key while the launcher is open. -/
def launcherKey (s : LoopState) (key : KeyEvent) : LoopState :=
  if key.pressed ∧ key.keycode = .esc then { s with launcherOpen := false }
  else if key.pressed ∧ key.keycode = .backspace then
    if s.launcherQuery = [] then s
    else { s with launcherQuery := s.launcherQuery.dropLast, launcherSelection := 0 }
  else if key.pressed ∧ (key.keycode = .up ∨ key.keycode = .down) then
    if 0 < launcherMatchCount s.launcherQuery then
      if key.keycode = .up ∧ 0 < s.launcherSelection then
        { s with launcherSelection := s.launcherSelection - 1 }
      else if key.keycode = .down ∧ s.launcherSelection + 1 < launcherMatchCount s.launcherQuery then
        { s with launcherSelection := s.launcherSelection + 1 }
      else s
    else s
  else if key.pressed ∧ key.keycode = .enter then
    if 0 < launcherMatchCount s.launcherQuery then
      { s with
        desktop := desktopCreateWindow s.desktop (launcherMatchType s.launcherQuery s.launcherSelection)
        launcherOpen := false }
    else { s with launcherOpen := false }
  else if 32 ≤ key.ascii ∧ key.ascii < 127 then
    if s.launcherQuery.length < 31 then
      { s with launcherQuery := s.launcherQuery ++ [key.ascii], launcherSelection := 0 }
    else s
  else s

/-! ## Keys -/

/-- What a key does while the alt key is down. -/
inductive AltAction where
  | create (type : AppType)
  | snap (mode : Nat)
  | close
  | minimize
  deriving DecidableEq

/-- The chain of comparisons in `desktop_loop`; `none` is the jump to `handle_active`. -/
def altAction (key : KeyEvent) : Option AltAction :=
  if key.keycode = .enter then some (.create .terminal)
  else if key.keycode = .left then some (.snap 1)
  else if key.keycode = .right then some (.snap 2)
  else if key.keycode = .up then some (.snap 0)
  else if key.ascii = 102 ∨ key.ascii = 70 then some (.create .files)
  else if key.ascii = 98 ∨ key.ascii = 66 then some (.create .browser)
  else if key.ascii = 115 ∨ key.ascii = 83 then some (.create .settings)
  else if key.ascii = 97 ∨ key.ascii = 65 then some (.create .about)
  else if key.ascii = 113 ∨ key.ascii = 81 then some .close
  else if key.ascii = 109 ∨ key.ascii = 77 then some .minimize
  else none

def Desktop.alt (d : Desktop) : AltAction → Desktop
  | .create type => desktopCreateWindow d type
  | .snap mode =>
    if 0 ≤ d.activeIndex then
      d.setWindow d.activeIndex.toNat (desktopSnapWindow d (d.windows d.activeIndex.toNat) mode)
    else d
  | .close => if 0 ≤ d.activeIndex then desktopCloseWindow d d.activeIndex else d
  | .minimize => minimizeActive d

/-- The part of `desktop_loop` at `handle_active`, as far as it concerns the windows; `exits` is what
`shell_should_exit` returns. -/
def handleActive (d : Desktop) (key : KeyEvent) (shift exits : Bool) : Desktop :=
  if 0 ≤ d.activeIndex then
    if (d.windows d.activeIndex.toNat).type = .terminal then
      if shift ∧ (key.keycode = .up ∨ key.keycode = .down) then d
      else if exits then desktopCloseWindow d d.activeIndex
      else d
    else d
  else d

def handleKey (s : LoopState) (key : KeyEvent) (alt shift exits : Bool) : LoopState :=
  if key.pressed ∧ key.keycode = .win then toggleLauncher s
  else if key.pressed ∧ key.keycode = .tab ∧ alt then
    { s with desktop := desktopFocusNext s.desktop (if shift then -1 else 1) }
  else if s.launcherOpen then launcherKey s key
  else if key.pressed ∧ alt then
    match altAction key with
    | some a => { s with desktop := s.desktop.alt a }
    | none => { s with desktop := handleActive s.desktop key shift exits }
  else { s with desktop := handleActive s.desktop key shift exits }

/-! ## The mouse -/

def handleMouse (s : LoopState) (x y : Int) (buttons : UInt8) : LoopState :=
  { s with
    mouseX := if s.desktop.screenW - 1 < x then s.desktop.screenW - 1 else x
    mouseY := if s.desktop.screenH - 1 < y then s.desktop.screenH - 1 else y
    mouseButtons := buttons }

def LoopState.LeftPressed (s : LoopState) : Prop :=
  s.mouseButtons &&& 1 ≠ 0 ∧ s.prevMouseButtons &&& 1 = 0

def LoopState.LeftReleased (s : LoopState) : Prop :=
  s.mouseButtons &&& 1 = 0 ∧ s.prevMouseButtons &&& 1 ≠ 0

instance (s : LoopState) : Decidable s.LeftPressed := inferInstanceAs (Decidable (_ ∧ _))
instance (s : LoopState) : Decidable s.LeftReleased := inferInstanceAs (Decidable (_ ∧ _))

/-- The first window whose button in the panel contains the mouse. -/
def panelHit (s : LoopState) : Option Nat :=
  (List.range s.desktop.windowCount).find? fun i =>
    pointInRect s.mouseX s.mouseY (90 + 96 * (i : Int)) (s.desktop.screenH - panelHeight + 4) 90
      (panelHeight - 8)

/-- The mouse is on one of the buttons that halt or restart the machine. -/
def haltHit (s : LoopState) : Bool :=
  let l := launcherLayout s.desktop
  let buttonW := (l.lw - 12 * 2 - 8 * 2).tdiv 3
  let buttonX := l.lx + 12
  pointInRect s.mouseX s.mouseY buttonX l.buttonY buttonW 24 ||
    pointInRect s.mouseX s.mouseY (buttonX + buttonW + 8) l.buttonY buttonW 24 ||
    pointInRect s.mouseX s.mouseY (buttonX + (buttonW + 8) * 2) l.buttonY buttonW 24

/-- The entry of the launcher's list at the mouse, if there is one. -/
def launcherHit (s : LoopState) : Option AppType :=
  let l := launcherLayout s.desktop
  if l.listY ≤ s.mouseY ∧ s.mouseY < l.listBottom then
    let index := (s.mouseY - l.listY).tdiv (16 + 6)
    if 0 ≤ index ∧ index < launcherMatchCount s.launcherQuery then
      some (launcherMatchType s.launcherQuery index.toNat)
    else none
  else none

/-- A press on the window at `hit`: it comes to the top and gets the focus, and is closed, resized or
dragged from here on. -/
def pressWindow (s : LoopState) (hit : Int) : LoopState :=
  let r := desktopRaiseWindow s.desktop hit
  let hit := r.1
  let d := desktopActivateWindow r.2 hit false
  let win := d.windows hit.toNat
  if pointInRect s.mouseX s.mouseY (win.x + win.w - closeSize - 6) (win.y + 5) closeSize closeSize then
    { s with desktop := desktopCloseWindow d hit }
  else
    let left := decide (s.mouseX - win.x < resizeMargin)
    let right := decide (win.x + win.w - s.mouseX < resizeMargin)
    let top := decide (s.mouseY - win.y < resizeMargin)
    let bottom := decide (win.y + win.h - s.mouseY < resizeMargin)
    if left || right || top || bottom then
      { s with
        desktop := { d with resizingIndex := hit }
        resizeLeft := left
        resizeRight := right
        resizeTop := top
        resizeBottom := bottom
        resizeStartX := win.x
        resizeStartY := win.y
        resizeStartW := win.w
        resizeStartH := win.h }
    else if pointInRect s.mouseX s.mouseY win.x win.y win.w titleHeight then
      { s with
        desktop := { d with draggingIndex := hit }
        dragOffsetX := s.mouseX - win.x
        dragOffsetY := s.mouseY - win.y }
    else { s with desktop := d }

def handlePress (s : LoopState) : LoopState :=
  if pointInRect s.mouseX s.mouseY 8 (s.desktop.screenH - panelHeight + 4) 72 (panelHeight - 8) then
    toggleLauncher s
  else
    match panelHit s with
    | some i => { s with desktop := panelClick s.desktop i }
    | none =>
      if s.launcherOpen ∧ haltHit s then s
      else
        match if s.launcherOpen then launcherHit s else none with
        | some type => { s with desktop := desktopCreateWindow s.desktop type, launcherOpen := false }
        | none =>
          if 0 ≤ findTopWindowAt s.desktop s.mouseX s.mouseY then
            pressWindow s (findTopWindowAt s.desktop s.mouseX s.mouseY)
          else s

/-- Where a window goes that is dropped at the edge of the screen. -/
def dropWindow (s : LoopState) (win : Window) : Window :=
  let d := s.desktop
  if s.mouseX < snapMargin then
    { win with x := 0, y := 0, w := d.screenW.tdiv 2, h := d.screenH - panelHeight }
  else if d.screenW - snapMargin < s.mouseX then
    { win with
      x := d.screenW.tdiv 2, y := 0, w := d.screenW - d.screenW.tdiv 2, h := d.screenH - panelHeight }
  else if s.mouseY < snapMargin then
    { win with x := 0, y := 0, w := d.screenW, h := d.screenH - panelHeight }
  else win

def handleRelease (s : LoopState) : LoopState :=
  let d := s.desktop
  let d := if 0 ≤ d.draggingIndex then
      d.setWindow d.draggingIndex.toNat (dropWindow s (d.windows d.draggingIndex.toNat))
    else d
  { s with
    desktop := { d with draggingIndex := -1, resizingIndex := -1 }
    resizeLeft := false
    resizeRight := false
    resizeTop := false
    resizeBottom := false }

def handleMouseClick (s : LoopState) : LoopState :=
  if s.LeftPressed then handlePress s
  else if s.LeftReleased then handleRelease s
  else s

/-- Where the mouse drags a window. -/
def dragWindow (s : LoopState) (win : Window) : Window :=
  let d := s.desktop
  let win := { win with x := s.mouseX - s.dragOffsetX, y := s.mouseY - s.dragOffsetY }
  let win := if win.x < 4 then { win with x := 4 } else win
  let win := if win.y < 4 then { win with y := 4 } else win
  let win := if d.screenW - 4 < win.x + win.w then { win with x := d.screenW - win.w - 4 } else win
  if d.screenH - panelHeight - 4 < win.y + win.h then
    { win with y := d.screenH - panelHeight - win.h - 4 }
  else win

/-- The size that the mouse gives to a window. -/
def resizeWindow (s : LoopState) (win : Window) : Window :=
  let right := s.resizeStartX + s.resizeStartW
  let bottom := s.resizeStartY + s.resizeStartH
  let win := if s.resizeLeft then { win with x := s.mouseX, w := right - s.mouseX } else win
  let win := if s.resizeRight then { win with w := s.mouseX - s.resizeStartX } else win
  let win := if s.resizeTop then { win with y := s.mouseY, h := bottom - s.mouseY } else win
  let win := if s.resizeBottom then { win with h := s.mouseY - s.resizeStartY } else win
  clampWindowToScreen s.desktop win

def updateDragResize (s : LoopState) : LoopState :=
  let d := s.desktop
  let d := if 0 ≤ d.draggingIndex ∧ s.mouseButtons &&& 1 ≠ 0 then
      d.setWindow d.draggingIndex.toNat (dragWindow s (d.windows d.draggingIndex.toNat))
    else d
  let d := if 0 ≤ d.resizingIndex ∧ s.mouseButtons &&& 1 ≠ 0 then
      d.setWindow d.resizingIndex.toNat (resizeWindow s (d.windows d.resizingIndex.toNat))
    else d
  { s with desktop := d }

/-- The part of a turn of `desktop_loop` behind the keys and the mouse. -/
def frame (s : LoopState) : LoopState :=
  updateDragResize
    (if s.mouseButtons ≠ s.prevMouseButtons then
      { handleMouseClick s with prevMouseButtons := s.mouseButtons }
    else s)

inductive LoopEvent where
  | key (key : KeyEvent) (alt shift exits : Bool)
  | mouse (x y : Int) (buttons : UInt8)
  | frame

def LoopState.step (s : LoopState) : LoopEvent → Option LoopState
  | .key k alt shift exits => some (handleKey s k alt shift exits)
  | .mouse x y buttons => some (handleMouse s x y buttons)
  | .frame => some (frame s)

/-- The state in which `desktop_loop` begins, on a screen of the given size; `slots` is what the array
of windows held before. -/
def loopStart (width height : Nat) (slots : Nat → Window) : LoopState where
  desktop := desktopInit ⟨slots, 0, -1, -1, -1, width, height⟩
  launcherOpen := false
  launcherQuery := []
  launcherSelection := 0
  mouseX := 20
  mouseY := 20
  mouseButtons := 0
  prevMouseButtons := 0
  dragOffsetX := 0
  dragOffsetY := 0
  resizeLeft := false
  resizeRight := false
  resizeTop := false
  resizeBottom := false
  resizeStartX := 0
  resizeStartY := 0
  resizeStartW := 0
  resizeStartH := 0

/-- The array of windows when the machine starts: all zeros. -/
def emptySlots : Nat → Window := fun _ => ⟨.terminal, 0, 0, 0, 0, false, false, "", none⟩

/-! ## What an event can do -/

structure Window.Moved (win win' : Window) : Prop where
  type : win'.type = win.type
  active : win'.active = win.active
  minimized : win'.minimized = win.minimized
  title : win'.title = win.title
  shellTerm : win'.shellTerm = win.shellTerm

section Moved
variable {win win' : Window}

lemma Window.Moved.refl (win : Window) : win.Moved win := ⟨rfl, rfl, rfl, rfl, rfl⟩

lemma Window.Moved.trans {win'' : Window} (h : win.Moved win') (h' : win'.Moved win'') :
    win.Moved win'' :=
  ⟨h'.type.trans h.type, h'.active.trans h.active, h'.minimized.trans h.minimized,
    h'.title.trans h.title, h'.shellTerm.trans h.shellTerm⟩

lemma Window.Moved.set (x y w h : Int) : win.Moved { win with x := x, y := y, w := w, h := h } :=
  ⟨rfl, rfl, rfl, rfl, rfl⟩

lemma Window.Moved.ite {a b : Window} {c : Prop} [Decidable c] (ha : win.Moved a) (hb : win.Moved b) :
    win.Moved (if c then a else b) := by
  split
  · exact ha
  · exact hb

lemma Window.Moved.place {a : Window} {c : Prop} [Decidable c] (ha : win.Moved a) (x y w h : Int) :
    win.Moved (if c then { a with x := x, y := y, w := w, h := h } else a) :=
  Window.Moved.ite ⟨ha.type, ha.active, ha.minimized, ha.title, ha.shellTerm⟩ ha

lemma clampWindowToScreen_moved {d : Desktop} (h : win.Moved win') :
    win.Moved (clampWindowToScreen d win') := by
  unfold clampWindowToScreen
  exact (((((h.place _ _ _ _).place _ _ _ _).place _ _ _ _).place _ _ _ _).place _ _ _ _).place _ _ _ _

lemma desktopSnapWindow_moved (d : Desktop) (mode : Nat) : win.Moved (desktopSnapWindow d win mode) := by
  unfold desktopSnapWindow
  apply Window.Moved.place
  apply Window.Moved.place
  exact .ite (.set _ _ _ _) (.ite (.set _ _ _ _) (.ite (.set _ _ _ _) (.refl win)))

lemma dropWindow_moved (s : LoopState) : win.Moved (dropWindow s win) := by
  unfold dropWindow
  exact .ite (.set _ _ _ _) (.ite (.set _ _ _ _) (.ite (.set _ _ _ _) (.refl win)))

lemma dragWindow_moved (s : LoopState) : win.Moved (dragWindow s win) := by
  have hdragged : win.Moved { win with x := s.mouseX - s.dragOffsetX, y := s.mouseY - s.dragOffsetY } :=
    .set _ _ _ _
  unfold dragWindow
  exact (((hdragged.place _ _ _ _).place _ _ _ _).place _ _ _ _).place _ _ _ _

lemma resizeWindow_moved (s : LoopState) : win.Moved (resizeWindow s win) := by
  unfold resizeWindow
  apply clampWindowToScreen_moved
  exact (((Window.Moved.place (.refl win) _ _ _ _).place _ _ _ _).place _ _ _ _).place _ _ _ _

end Moved

def Desktop.Placed (d d' : Desktop) : Prop :=
  ∃ ws, d' = { d with windows := ws } ∧ ∀ i, (d.windows i).Moved (ws i)

section Placed
variable {d d' : Desktop}

lemma Desktop.Placed.refl (d : Desktop) : d.Placed d := ⟨d.windows, rfl, fun _ => .refl _⟩

lemma Desktop.Placed.trans {d'' : Desktop} (h : d.Placed d') (h' : d'.Placed d'') : d.Placed d'' := by
  obtain ⟨ws, rfl, hmoved⟩ := h
  obtain ⟨ws', rfl, hmoved'⟩ := h'
  exact ⟨ws', rfl, fun i => (hmoved i).trans (hmoved' i)⟩

lemma setWindow_placed {i : Nat} {win : Window} (h : (d.windows i).Moved win) :
    d.Placed (d.setWindow i win) := by
  refine ⟨_, rfl, ?_⟩
  intro j
  rcases eq_or_ne j i with rfl | hne
  · rw [Function.update_self]
    exact h
  · rw [Function.update_of_ne hne]
    exact .refl _

lemma updateDragResize_placed (s : LoopState) : s.desktop.Placed (updateDragResize s).desktop := by
  have hset : ∀ (d : Desktop) (c : Prop) [Decidable c] (i : Nat) (win : Window), (d.windows i).Moved win →
      d.Placed (if c then d.setWindow i win else d) := by
    intro d c _ i win hmoved
    split
    · exact setWindow_placed hmoved
    · exact .refl d
  exact (hset _ _ _ _ (dragWindow_moved s)).trans (hset _ _ _ _ (resizeWindow_moved s))

end Placed

section Keys
variable (s : LoopState) (k : KeyEvent) (alt shift exits : Bool)

def ToWindows : Prop :=
  ¬(k.pressed ∧ k.keycode = .win) ∧ ¬(k.pressed ∧ k.keycode = .tab ∧ alt) ∧ s.launcherOpen = false

instance : Decidable (ToWindows s k alt) := inferInstanceAs (Decidable (_ ∧ _))

/-- The key is Alt together with a key that `desktop_loop` handles for this action. -/
def IsAlt (a : AltAction) : Prop := k.pressed ∧ alt ∧ altAction k = some a

def EndsShell (d : Desktop) : Prop :=
  (k.pressed ∧ alt → altAction k = none) ∧ (d.windows d.activeIndex.toNat).type = .terminal ∧
    ¬(shift ∧ (k.keycode = .up ∨ k.keycode = .down)) ∧ exits

def LoopState.ClosesActive : LoopEvent → Prop
  | .key k alt shift exits =>
    ToWindows s k alt ∧ 0 ≤ s.desktop.activeIndex ∧
      (IsAlt k alt .close ∨ EndsShell k alt shift exits s.desktop)
  | _ => False

instance (a : AltAction) : Decidable (IsAlt k alt a) := inferInstanceAs (Decidable (_ ∧ _))

instance (d : Desktop) : Decidable (EndsShell k alt shift exits d) := inferInstanceAs (Decidable (_ ∧ _))

instance : DecidablePred s.ClosesActive := fun e =>
  match e with
  | .key _ _ _ _ => inferInstanceAs (Decidable (_ ∧ _))
  | .mouse _ _ _ => inferInstanceAs (Decidable False)
  | .frame => inferInstanceAs (Decidable False)

/-- The event is Alt+M while a window is active. -/
def LoopState.MinimizesActive : LoopEvent → Prop
  | .key k alt _ _ => ToWindows s k alt ∧ 0 ≤ s.desktop.activeIndex ∧ IsAlt k alt .minimize
  | _ => False

/-- What a key can do to the windows. -/
inductive KeyOut : Desktop → Prop
  | same : KeyOut s.desktop
  | create (type : AppType) : KeyOut (desktopCreateWindow s.desktop type)
  | focusNext (dir : Int) : KeyOut (desktopFocusNext s.desktop dir)
  | place {win : Window} (hge : 0 ≤ s.desktop.activeIndex)
      (hmoved : (s.desktop.windows s.desktop.activeIndex.toNat).Moved win) :
      KeyOut (s.desktop.setWindow s.desktop.activeIndex.toNat win)
  | close (h : s.ClosesActive (.key k alt shift exits)) :
      KeyOut (desktopCloseWindow s.desktop s.desktop.activeIndex)
  | minimize (h : s.MinimizesActive (.key k alt shift exits)) : KeyOut (minimizeActive s.desktop)

variable {s k alt shift exits}

lemma toggleLauncher_desktop : (toggleLauncher s).desktop = s.desktop := by
  unfold toggleLauncher
  split <;> rfl

lemma launcherKey_out : KeyOut s k alt shift exits (launcherKey s k).desktop := by
  unfold launcherKey
  repeat' split
  all_goals first | exact .create _ | exact .same

lemma handleActive_out (hto : ToWindows s k alt) (hnone : k.pressed ∧ alt → altAction k = none) :
    KeyOut s k alt shift exits (handleActive s.desktop k shift exits) := by
  unfold handleActive
  split_ifs with hge hterm hscroll hexits
  · exact .same
  · exact .close ⟨hto, hge, .inr ⟨hnone, hterm, hscroll, hexits⟩⟩
  all_goals exact .same

lemma alt_out (hto : ToWindows s k alt) {a : AltAction} (ha : IsAlt k alt a) :
    KeyOut s k alt shift exits (s.desktop.alt a) := by
  cases a with
  | create type => exact .create type
  | snap mode =>
    rw [Desktop.alt]
    split
    next hge => exact .place hge (desktopSnapWindow_moved _ _)
    · exact .same
  | close =>
    rw [Desktop.alt]
    split
    next hge => exact .close ⟨hto, hge, .inl ha⟩
    · exact .same
  | minimize =>
    rw [Desktop.alt]
    by_cases hge : 0 ≤ s.desktop.activeIndex
    · exact .minimize ⟨hto, hge, ha⟩
    · rw [minimizeActive, if_neg hge]
      exact .same

lemma handleKey_out : KeyOut s k alt shift exits (handleKey s k alt shift exits).desktop := by
  unfold handleKey
  split
  · rw [toggleLauncher_desktop]
    exact .same
  next hwin =>
  split
  · exact .focusNext _
  next htab =>
  split
  · exact launcherKey_out
  next hopen =>
  have hto : ToWindows s k alt := ⟨hwin, htab, eq_false_of_ne_true hopen⟩
  split
  next halt =>
    split
    next a ha => exact alt_out hto ⟨halt.1, halt.2, ha⟩
    next hnone => exact handleActive_out hto fun _ => hnone
  next halt => exact handleActive_out hto fun h => absurd h halt

lemma launcherKey_prevMouseButtons : (launcherKey s k).prevMouseButtons = s.prevMouseButtons := by
  unfold launcherKey
  repeat' split
  all_goals rfl

lemma handleKey_prevMouseButtons :
    (handleKey s k alt shift exits).prevMouseButtons = s.prevMouseButtons := by
  unfold handleKey
  split
  · unfold toggleLauncher
    split <;> rfl
  split
  · rfl
  split
  · exact launcherKey_prevMouseButtons
  repeat' split
  all_goals rfl

lemma handleKey_toWindows (hto : ToWindows s k alt) :
    (handleKey s k alt shift exits).desktop =
      match if k.pressed ∧ alt then altAction k else none with
      | some a => s.desktop.alt a
      | none => handleActive s.desktop k shift exits := by
  unfold handleKey
  rw [if_neg hto.1, if_neg hto.2.1, if_neg (by rw [hto.2.2]; exact Bool.false_ne_true)]
  split_ifs
  · cases altAction k <;> rfl
  · rfl

lemma handleKey_isAlt (hto : ToWindows s k alt) {a : AltAction} (ha : IsAlt k alt a) :
    (handleKey s k alt shift exits).desktop = s.desktop.alt a := by
  rw [handleKey_toWindows hto, if_pos ⟨ha.1, ha.2.1⟩, ha.2.2]

lemma handleKey_closes (h : s.ClosesActive (.key k alt shift exits)) :
    (handleKey s k alt shift exits).desktop = desktopCloseWindow s.desktop s.desktop.activeIndex := by
  obtain ⟨hto, hge, halt | ⟨hnone, hterm, hscroll, hexits⟩⟩ := h
  · rw [handleKey_isAlt hto halt, Desktop.alt, if_pos hge]
  · have hpassed : (if k.pressed ∧ alt then altAction k else none) = none := by
      split
      next h => exact hnone h
      · rfl
    rw [handleKey_toWindows hto, hpassed]
    dsimp only
    rw [handleActive, if_pos hge, if_pos hterm, if_neg hscroll, if_pos hexits]

lemma handleKey_minimizes (h : s.MinimizesActive (.key k alt shift exits)) :
    (handleKey s k alt shift exits).desktop = minimizeActive s.desktop :=
  handleKey_isAlt h.1 h.2.2

end Keys

section Clicks
variable (s : LoopState)

def LoopState.hit : Int := findTopWindowAt s.desktop s.mouseX s.mouseY

def bringToTop (d : Desktop) (hit : Int) : Int × Desktop :=
  let r := desktopRaiseWindow d hit
  (r.1, desktopActivateWindow r.2 r.1 false)

lemma bringToTop_eq (d : Desktop) (hit : Int) :
    (bringToTop d hit).2 = desktopFocusWindow (desktopRaiseWindow d hit).2 (desktopRaiseWindow d hit).1 := by
  unfold bringToTop desktopActivateWindow
  dsimp only
  split
  next hout => rw [desktopFocusWindow, if_pos hout]
  · rw [if_neg Bool.false_ne_true]

/-- What the part of `frame` before `update_drag_resize` can do to the windows. -/
inductive ClickOut : Desktop → Prop
  | same : ClickOut s.desktop
  | create (hpress : s.LeftPressed) (type : AppType) : ClickOut (desktopCreateWindow s.desktop type)
  | panel (hpress : s.LeftPressed) (i : Nat) : ClickOut (panelClick s.desktop i)
  | focus (hpress : s.LeftPressed) (hge : 0 ≤ s.hit) :
      ClickOut (bringToTop s.desktop s.hit).2
  | close (hpress : s.LeftPressed) (hge : 0 ≤ s.hit) :
      ClickOut (desktopCloseWindow (bringToTop s.desktop s.hit).2 (bringToTop s.desktop s.hit).1)
  | resize (hpress : s.LeftPressed) (hge : 0 ≤ s.hit) :
      ClickOut { (bringToTop s.desktop s.hit).2 with resizingIndex := (bringToTop s.desktop s.hit).1 }
  | drag (hpress : s.LeftPressed) (hge : 0 ≤ s.hit) :
      ClickOut { (bringToTop s.desktop s.hit).2 with draggingIndex := (bringToTop s.desktop s.hit).1 }
  | release (hrelease : s.LeftReleased) {d : Desktop} (h : s.desktop.Placed d) :
      ClickOut { d with draggingIndex := -1, resizingIndex := -1 }

variable {s}

lemma findTopLoop_lt (d : Desktop) (x y : Int) (n : Nat) : findTopLoop d x y n < n := by
  induction n with
  | zero => exact Int.negSucc_lt_zero 0
  | succ n ih =>
    rw [findTopLoop]
    split_ifs
    all_goals omega

lemma hit_lt : s.hit < s.desktop.windowCount := findTopLoop_lt _ _ _ _

lemma pressWindow_out (hpress : s.LeftPressed) (hge : 0 ≤ s.hit) :
    ClickOut s (pressWindow s s.hit).desktop := by
  unfold pressWindow
  dsimp only
  split
  · exact .close hpress hge
  split
  · exact .resize hpress hge
  split
  · exact .drag hpress hge
  · exact .focus hpress hge

lemma handlePress_out (hpress : s.LeftPressed) : ClickOut s (handlePress s).desktop := by
  unfold handlePress
  split
  · rw [toggleLauncher_desktop]
    exact .same
  split
  · exact .panel hpress _
  split
  · exact .same
  split
  · exact .create hpress _
  split
  next hge => exact pressWindow_out hpress hge
  · exact .same

lemma handleMouseClick_out : ClickOut s (handleMouseClick s).desktop := by
  unfold handleMouseClick
  split
  next hpress => exact handlePress_out hpress
  split
  next hrelease =>
    apply ClickOut.release hrelease
    split
    · exact setWindow_placed (dropWindow_moved s)
    · exact .refl _
  · exact .same

lemma frame_out : ∃ d, ClickOut s d ∧ d.Placed (frame s).desktop := by
  refine ⟨_, ?_, updateDragResize_placed _⟩
  split
  · exact handleMouseClick_out
  · exact .same

end Clicks

end FusionOS.Ui
