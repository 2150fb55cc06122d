import FusionOS.Ui.Desktop

/-!
# The terminal

`terminal.c`: a terminal keeps its text in a ring of rows, one block of the heap. The result of
`malloc` is a parameter of the functions that call it, the bytes of the new block or none.
-/

namespace FusionOS.Ui

def scrollbackLines : Int := 200
def fontWidth : Int := 8
def fontHeight : Int := 16

structure Block where
  size : Nat
  mem : Nat → UInt8

/-- `terminal_t`. -/
structure Terminal where
  w : Int
  h : Int
  cols : Int
  rows : Int
  cursorX : Int
  lineHead : Int
  lineCount : Int
  totalLines : Int
  viewOffset : Int
  cells : Option Block
  clipboard : Option Block
  clipboardLen : Nat
  clipboardCap : Nat

/-- A cell or a clipboard byte that is read or written. -/
inductive Access where
  | cell (i : Int)
  | clip (i : Nat)

/-- Conversion to `size_t`. -/
def toSize (n : Int) : Nat := (n % 2 ^ 64).toNat

/-- A loop that writes blanks to `n` cells from `start` on. -/
def Block.fill (b : Block) (start n : Int) : Block :=
  { b with mem := fun j => if start ≤ j ∧ (j : Int) < start + n then 32 else b.mem j }

def Block.set (b : Block) (i : Int) (c : UInt8) : Block :=
  { b with mem := Function.update b.mem i.toNat c }

def cellRange (start n : Int) : List Access := (List.range n.toNat).map fun (i : Nat) => .cell (start + i)

section Lines
variable (t : Terminal)

def terminalMaxOffset : Int :=
  let available := t.lineCount - t.rows
  let available := if available < 0 then 0 else available
  if t.totalLines < available then t.totalLines else available

/-- The loop of `terminal_line_index`; a turn adds at least 1. -/
def lineLoop (total : Int) : Nat → Int → Int
  | 0, line => line
  | n + 1, line => if line < 0 then lineLoop total n (line + total) else line

def terminalLineIndex (line : Int) : Int :=
  if t.totalLines ≤ 0 then 0 else (lineLoop t.totalLines line.natAbs line).tmod t.totalLines

/-- `terminal_line_ptr`, as an offset into the block. -/
def terminalLinePtr (line : Int) : Int := terminalLineIndex t line * t.cols

def terminalClearLine (line : Int) : Terminal × List Access :=
  ({ t with cells := t.cells.map fun b => b.fill (terminalLinePtr t line) t.cols },
    cellRange (terminalLinePtr t line) t.cols)

/-- `terminal_alloc_cells`; `mem` is what `malloc` returns. -/
def terminalAllocCells (mem : Option (Nat → UInt8)) : Terminal × List Access :=
  let cols := if t.w.tdiv fontWidth < 1 then 1 else t.w.tdiv fontWidth
  let rows := if t.h.tdiv fontHeight < 1 then 1 else t.h.tdiv fontHeight
  if cols = t.cols ∧ rows = t.rows ∧ t.cells.isSome then (t, [])
  else
    let total := rows + scrollbackLines
    let n := toInt (cols * total)
    ({ t with
        cols := cols
        rows := rows
        totalLines := total
        cells := mem.map fun m => Block.fill ⟨toSize n, m⟩ 0 n
        cursorX := 0
        lineHead := 0
        lineCount := 1
        viewOffset := 0 },
      if mem.isSome then cellRange 0 n else [])

end Lines

def terminalInit (w h : Int) (mem : Option (Nat → UInt8)) : Terminal × List Access :=
  terminalAllocCells ⟨w, h, 0, 0, 0, 0, 0, 0, 0, none, none, 0, 0⟩ mem

def terminalSetBounds (t : Terminal) (w h : Int) (mem : Option (Nat → UInt8)) : Terminal × List Access :=
  terminalAllocCells { t with w := w, h := h } mem

def terminalClear (t : Terminal) : Terminal × List Access :=
  match t.cells with
  | none => (t, [])
  | some b =>
    let n := toInt (t.cols * t.totalLines)
    ({ t with cells := some (b.fill 0 n), cursorX := 0, lineHead := 0, lineCount := 1, viewOffset := 0 },
      cellRange 0 n)

/-- What `terminal_putc` does with the view when a line is added. -/
def scrollView (t : Terminal) : Terminal :=
  if 0 < t.viewOffset then
    { t with
      viewOffset := if terminalMaxOffset t < t.viewOffset + 1 then terminalMaxOffset t else t.viewOffset + 1 }
  else t

/-- The part of `terminal_putc` that begins a line; it stands there twice, for the newline and for
the last column. -/
def newLine (t : Terminal) : Terminal × List Access :=
  let head := (t.lineHead + 1).tmod t.totalLines
  let r := terminalClearLine { t with cursorX := 0, lineHead := head } head
  let t := if r.1.lineCount < r.1.totalLines then { r.1 with lineCount := r.1.lineCount + 1 } else r.1
  (scrollView t, r.2)

def terminalPutc (t : Terminal) (c : UInt8) : Terminal × List Access :=
  match t.cells with
  | none => (t, [])
  | some b =>
    if c = 10 then newLine t
    else if c = 8 then
      if 0 < t.cursorX then
        let i := terminalLinePtr t t.lineHead + (t.cursorX - 1)
        ({ t with cursorX := t.cursorX - 1, cells := some (b.set i 32) }, [.cell i])
      else (t, [])
    else
      let i := terminalLinePtr t t.lineHead + t.cursorX
      let t := { t with cells := some (b.set i c), cursorX := t.cursorX + 1 }
      if t.cols ≤ t.cursorX then ((newLine t).1, .cell i :: (newLine t).2) else (t, [.cell i])

/-- `terminal_print` of a string, which is given without its terminator. -/
def terminalPrint : Terminal → List UInt8 → Terminal × List Access
  | t, [] => (t, [])
  | t, c :: cs =>
    let r := terminalPutc t c
    let r' := terminalPrint r.1 cs
    (r'.1, r.2 ++ r'.2)

def terminalScrollUp (t : Terminal) : Terminal :=
  if t.viewOffset < terminalMaxOffset t then { t with viewOffset := t.viewOffset + 1 } else t

def terminalScrollDown (t : Terminal) : Terminal :=
  if 0 < t.viewOffset then { t with viewOffset := t.viewOffset - 1 } else t

/-- What `terminal_render` and `terminal_copy_visible` do with the view first. -/
def clampView (t : Terminal) : Terminal :=
  if terminalMaxOffset t < t.viewOffset then { t with viewOffset := terminalMaxOffset t } else t

def topLine (t : Terminal) : Int := t.lineHead - (t.rows - 1) - t.viewOffset

/-- `terminal_render`, without the drawing. -/
def terminalRender (t : Terminal) : Terminal × List Access :=
  if t.cells.isNone then (t, [])
  else
    let t := clampView t
    (t, (List.range t.rows.toNat).flatMap fun (row : Nat) =>
      cellRange (terminalLinePtr t (topLine t + row)) t.cols)

/-- The inner loop of `terminal_copy_visible` that skips blanks at the end of a line. -/
def lineEnd (b : Block) (start : Int) : Nat → Nat × List Access
  | 0 => (0, [])
  | e + 1 =>
    if b.mem (start + e).toNat = 32 then ((lineEnd b start e).1, .cell (start + e) :: (lineEnd b start e).2)
    else (e + 1, [.cell (start + e)])

/-- The first pass of `terminal_copy_visible`, over `n` rows. -/
def neededLoop (t : Terminal) (b : Block) : Nat → Int → Nat → Nat × List Access
  | 0, _, needed => (needed, [])
  | n + 1, line, needed =>
    let e := lineEnd b (terminalLinePtr t line) t.cols.toNat
    let r := neededLoop t b n (line + 1) (needed + (e.1 + 1))
    (r.1, e.2 ++ r.2)

/-- The loop that copies `len` cells to the clipboard, and the newline behind them. -/
def copyLine (b : Block) (start : Int) (len pos : Nat) (clip : Nat → UInt8) : Nat → UInt8 := fun j =>
  if pos ≤ j ∧ j < pos + len then b.mem (start + (j - pos : Nat)).toNat
  else if j = pos + len then 10
  else clip j

/-- The second pass; the result is the position behind the last newline. -/
def copyLoop (t : Terminal) (b : Block) :
    Nat → Int → Nat → (Nat → UInt8) → (Nat × (Nat → UInt8)) × List Access
  | 0, _, pos, clip => ((pos, clip), [])
  | n + 1, line, pos, clip =>
    let start := terminalLinePtr t line
    let e := lineEnd b start t.cols.toNat
    let r := copyLoop t b n (line + 1) (pos + e.1 + 1) (copyLine b start e.1 pos clip)
    (r.1, e.2 ++ cellRange start e.1 ++ (List.range (e.1 + 1)).map (fun i => .clip (pos + i)) ++ r.2)

/-- `terminal_copy_visible`; `mem` is what `malloc` returns. -/
def terminalCopyVisible (t : Terminal) (mem : Option (Nat → UInt8)) : Terminal × List Access :=
  match t.cells with
  | none => (t, [])
  | some b =>
    let t := clampView t
    let needed := neededLoop t b t.rows.toNat (topLine t) 0
    if needed.1 = 0 then (t, needed.2)
    else
      let t := if t.clipboard.isSome then { t with clipboard := none, clipboardCap := 0 } else t
      match mem with
      | none => ({ t with clipboard := none }, needed.2)
      | some m =>
        let r := copyLoop t b t.rows.toNat (topLine t) 0 m
        ({ t with
            clipboard := some ⟨needed.1 + 1, Function.update r.1.2 r.1.1 0⟩
            clipboardCap := needed.1 + 1
            clipboardLen := r.1.1 },
          needed.2 ++ r.2 ++ [.clip r.1.1])

/-- The string in the clipboard. -/
def clipText (b : Block) : List UInt8 := ((List.range b.size).map b.mem).takeWhile (· != 0)

def terminalPaste (t : Terminal) : Terminal × List Access :=
  match t.clipboard with
  | none => (t, [])
  | some b => if t.clipboardLen = 0 then (t, []) else terminalPrint t (clipText b)

inductive TermAction where
  | init (w h : Int) (mem : Option (Nat → UInt8))
  | setBounds (w h : Int) (mem : Option (Nat → UInt8))
  | clear
  | putc (c : UInt8)
  | print (s : List UInt8)
  | scrollUp
  | scrollDown
  | render
  | copyVisible (mem : Option (Nat → UInt8))
  | paste

/-- What a call does to the terminal, and the cells and bytes it touches. -/
def Terminal.call (t : Terminal) : TermAction → Terminal × List Access
  | .init w h mem => terminalInit w h mem
  | .setBounds w h mem => terminalSetBounds t w h mem
  | .clear => terminalClear t
  | .putc c => terminalPutc t c
  | .print s => terminalPrint t s
  | .scrollUp => (terminalScrollUp t, [])
  | .scrollDown => (terminalScrollDown t, [])
  | .render => terminalRender t
  | .copyVisible mem => terminalCopyVisible t mem
  | .paste => terminalPaste t

def Terminal.step (t : Terminal) (a : TermAction) : Option Terminal := some (t.call a).1

end FusionOS.Ui
