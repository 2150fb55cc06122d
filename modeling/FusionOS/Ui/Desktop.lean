import FusionOS.Lib.Run
import Mathlib.Logic.Function.Basic
import Mathlib.Algebra.Group.Nat.Defs
import Mathlib.Algebra.Group.Int.Defs

/-!
# The windows of the desktop

`desktop.c` keeps its windows by value in an array, in stacking order. The shell of a terminal
window holds a pointer to a terminal; every such pointer goes to the terminal of some slot of the
array, and is modelled by the number of that slot.
-/

namespace FusionOS.Ui

open Function (update)

def maxWindows : Nat := 8
def minWinW : Int := 260
def minWinH : Int := 160

inductive AppType where
  | terminal | files | settings | about | browser
  deriving DecidableEq

/-- `window_t`, without the contents of its applications. -/
structure Window where
  type : AppType
  x : Int
  y : Int
  w : Int
  h : Int
  active : Bool
  minimized : Bool
  title : String
  /-- The slot whose terminal `shell.term` points to. -/
  shellTerm : Option Nat

structure Desktop where
  windows : Nat → Window
  windowCount : Nat
  activeIndex : Int
  draggingIndex : Int
  resizingIndex : Int
  gfxWidth : Nat
  gfxHeight : Nat

/-- Conversion to `int`. -/
def toInt (x : Int) : Int := Int.bmod x (2 ^ 32)

/-- The loop of `desktop_raise_window`: slots from `i` on take over the slot behind them. -/
def shiftLoop : Nat → Nat → (Nat → Window) → Nat → Window
  | 0, _, ws => ws
  | n + 1, i, ws => shiftLoop n (i + 1) (update ws i (ws (i + 1)))

/-- What becomes of an index when the window at `index` moves to the slot `last`. -/
def raisedIndex (i index last : Int) : Int :=
  if i = index then last else if index < i then i - 1 else i

def desktopRaiseWindow (d : Desktop) (index : Int) : Int × Desktop :=
  if index < 0 ∨ (d.windowCount : Int) ≤ index then (index, d)
  else if index = d.windowCount - 1 then (index, d)
  else
    let last := d.windowCount - 1
    let temp := d.windows index.toNat
    (last,
      { d with
        windows := update (shiftLoop (last - index.toNat) index.toNat d.windows) last temp
        activeIndex := raisedIndex d.activeIndex index last
        draggingIndex := raisedIndex d.draggingIndex index last
        resizingIndex := raisedIndex d.resizingIndex index last })

/-- The loop of `desktop_focus_window`. -/
def clearActive (d : Desktop) : Nat → Window := fun i =>
  if i < d.windowCount then { d.windows i with active := false } else d.windows i

def desktopFocusWindow (d : Desktop) (index : Int) : Desktop :=
  if index < 0 ∨ (d.windowCount : Int) ≤ index then d
  else
    let ws := clearActive d
    if (ws index.toNat).minimized then { d with windows := ws, activeIndex := -1 }
    else
      { d with
        windows := update ws index.toNat { ws index.toNat with active := true }
        activeIndex := index }

def desktopActivateWindow (d : Desktop) (index : Int) (raise : Bool) : Desktop :=
  if index < 0 ∨ (d.windowCount : Int) ≤ index then d
  else if raise then
    let r := desktopRaiseWindow d index
    desktopFocusWindow r.2 r.1
  else desktopFocusWindow d index

/-- The loop of `desktop_focus_next`. -/
def focusNextLoop (d : Desktop) (dir : Int) : Nat → Int → Desktop
  | 0, _ => d
  | n + 1, idx =>
    let idx := (idx + dir + d.windowCount).tmod d.windowCount
    if (d.windows idx.toNat).minimized then focusNextLoop d dir n idx
    else desktopFocusWindow d idx

def desktopFocusNext (d : Desktop) (dir : Int) : Desktop :=
  if d.windowCount = 0 then d
  else
    let start := if d.activeIndex < 0 ∨ (d.windowCount : Int) ≤ d.activeIndex then 0 else d.activeIndex
    focusNextLoop d dir d.windowCount start

lemma focusNext_eq (d : Desktop) (dir : Int) :
    ∃ index, desktopFocusNext d dir = desktopFocusWindow d index := by
  have hnone : desktopFocusWindow d (-1) = d := if_pos (.inl (Int.negSucc_lt_zero 0))
  have hloop : ∀ n idx, ∃ index, focusNextLoop d dir n idx = desktopFocusWindow d index := by
    intro n
    induction n with
    | zero => exact fun _ => ⟨-1, hnone.symm⟩
    | succ n ih =>
      intro idx
      rw [focusNextLoop]
      split
      · exact ih _
      · exact ⟨_, rfl⟩
  unfold desktopFocusNext
  split
  · exact ⟨-1, hnone.symm⟩
  · exact hloop _ _

def appTitle : AppType → String
  | .terminal => "Terminal"
  | .files => "Files"
  | .settings => "Settings"
  | .about => "About"
  | .browser => "Browser"

def desktopCreateWindow (d : Desktop) (type : AppType) : Desktop :=
  if maxWindows ≤ d.windowCount then d
  else
    let old := d.windows d.windowCount
    let w := max (toInt (d.gfxWidth * 55 % 2 ^ 64 / 100 : Nat)) minWinW
    let h := max (toInt (d.gfxHeight * 55 % 2 ^ 64 / 100 : Nat)) minWinH
    let win : Window :=
      { type := type
        x := (toInt (d.gfxWidth - w)).tdiv 2 + d.windowCount * 18
        y := (toInt (d.gfxHeight - h)).tdiv 2 + d.windowCount * 18
        w := w
        h := h
        active := false
        minimized := false
        title := appTitle type
        -- `shell_init` runs for terminals only; other windows keep what the slot held
        shellTerm := if type = .terminal then some d.windowCount else old.shellTerm }
    desktopFocusWindow
      { d with windows := update d.windows d.windowCount win, windowCount := d.windowCount + 1 }
      d.windowCount

def desktopCloseWindow (d : Desktop) (index : Int) : Desktop :=
  if index < 0 ∨ (d.windowCount : Int) ≤ index then d
  else
    let last := d.windowCount - 1
    let ws := if index = last then d.windows
      else update d.windows index.toNat (d.windows last)
    let d := { d with windows := ws, windowCount := last }
    if last = 0 then { d with activeIndex := -1 } else desktopFocusWindow d (last - 1 : Nat)

/-- Alt+M in `desktop_loop`. -/
def minimizeActive (d : Desktop) : Desktop :=
  if 0 ≤ d.activeIndex then
    { d with
      windows := update d.windows d.activeIndex.toNat
        { d.windows d.activeIndex.toNat with minimized := true } }
  else d

/-- A click on the button of window `i` in the panel, in `handle_mouse_click`. -/
def panelClick (d : Desktop) (i : Nat) : Desktop :=
  if d.windowCount ≤ i then d
  else if (d.windows i).minimized then
    desktopFocusWindow
      { d with windows := update d.windows i { d.windows i with minimized := false } } i
  else if d.activeIndex = i then
    { d with
      windows := update d.windows i { d.windows i with minimized := true, active := false }
      activeIndex := -1 }
  else desktopFocusWindow d i

/-- The part of `desktop_init` that concerns the windows. -/
def desktopInit (d : Desktop) : Desktop :=
  desktopCreateWindow { d with windowCount := 0, activeIndex := -1 } .terminal

inductive Action where
  | create (type : AppType)
  | focus (index : Int)
  | focusNext (dir : Int)
  | raise (index : Int)
  | activate (index : Int) (raise : Bool)
  | minimize
  | panel (i : Nat)
  | close (index : Int)

def Desktop.step (d : Desktop) : Action → Option Desktop
  | .create type => some (desktopCreateWindow d type)
  | .focus index => some (desktopFocusWindow d index)
  | .focusNext dir => some (desktopFocusNext d dir)
  | .raise index => some (desktopRaiseWindow d index).2
  | .activate index raise => some (desktopActivateWindow d index raise)
  | .minimize => some (minimizeActive d)
  | .panel i => some (panelClick d i)
  | .close index => some (desktopCloseWindow d index)

end FusionOS.Ui
