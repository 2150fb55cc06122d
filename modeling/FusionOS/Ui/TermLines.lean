import FusionOS.Ui.TermBounds
import Mathlib.Data.List.GetD

/-!
# The lines of the terminal

The ring of rows stands for the last lines of a terminal without bounds. The correspondence is kept
by every character, however often the ring has wrapped around.
-/

namespace FusionOS.Ui

open List
open Function (update update_of_ne update_self)

/-- A terminal that keeps all its lines: the current one, and those above it, last first. -/
structure RefTerm where
  line : List UInt8
  above : List (List UInt8)

namespace RefTerm

def lines (r : RefTerm) : List (List UInt8) := r.line :: r.above

def newLine (r : RefTerm) : RefTerm := ⟨[], r.line :: r.above⟩

/-- A newline and the last column begin a line, a backspace erases in the current line. -/
def putc (cols : Nat) (r : RefTerm) (c : UInt8) : RefTerm :=
  if c = 10 then r.newLine
  else if c = 8 then { r with line := r.line.dropLast }
  else if cols ≤ (r.line ++ [c]).length then newLine { r with line := r.line ++ [c] }
  else { r with line := r.line ++ [c] }

def empty : RefTerm := ⟨[], []⟩

end RefTerm

/-- The cell in column `j` of the row `k` rows above the current one. -/
def cellAbove (t : Terminal) (b : Block) (k : Nat) (j : Int) : UInt8 :=
  b.mem (terminalLinePtr t (t.lineHead - k) + j).toNat

/-- The rows of the ring are the last lines, padded with blanks, and the rest of them is blank. -/
structure Represents (t : Terminal) (r : RefTerm) : Prop where
  column : t.cursorX = r.line.length
  count : t.lineCount = min (r.lines.length : Int) t.totalLines
  rows : ∃ b, t.cells = some b ∧
    (∀ k : Nat, (k : Int) < min (r.lines.length : Int) t.totalLines → ∀ j : Nat, (j : Int) < t.cols →
      cellAbove t b k j = (r.lines.getD k []).getD j 32) ∧
    ∀ k : Nat, r.lines.length ≤ k → (k : Int) < t.totalLines → ∀ j : Nat, (j : Int) < t.cols →
      cellAbove t b k j = 32

/-! ## Rows -/

/-- The rows of a block, from the one at `head` upwards, are the lines; a line that does not exist
counts as an empty one. -/
def RowsShow (m : Nat → UInt8) (cols total head : Int) (lines : List (List UInt8)) : Prop :=
  ∀ k : Nat, (k : Int) < total → ∀ j : Nat, (j : Int) < cols →
    m ((head - k) % total * cols + j).toNat = (lines.getD k []).getD j 32

section Rows
variable {m : Nat → UInt8} {cols total head : Int} {lines : List (List UInt8)}

lemma row_disjoint {a a' j j' : Int} (hne : a ≠ a') (hj : 0 ≤ j) (hlt : j < cols) (hj' : 0 ≤ j')
    (hlt' : j' < cols) : a * cols + j ≠ a' * cols + j' := by
  intro h
  rcases Int.lt_or_gt_of_ne hne with hlt1 | hgt
  · have := Int.mul_le_mul_of_nonneg_right (show a + 1 ≤ a' by omega) (show 0 ≤ cols by omega)
    rw [Int.add_mul, Int.one_mul] at this
    omega
  · have := Int.mul_le_mul_of_nonneg_right (show a' + 1 ≤ a by omega) (show 0 ≤ cols by omega)
    rw [Int.add_mul, Int.one_mul] at this
    omega

lemma lineIndex_ne {k : Nat} (h0 : 0 < k) (hk : (k : Int) < total) :
    (head - k) % total ≠ head % total := by
  intro h
  have hdvd := Int.dvd_of_emod_eq_zero (Int.emod_eq_emod_iff_emod_sub_eq_zero.mp h.symm)
  have hle := Int.le_of_dvd (by omega) hdvd
  omega

lemma cell_nonneg (ht : 0 < total) (hc : 1 ≤ cols) (line : Int) (j : Nat) : 0 ≤ line % total * cols + j := by
  have hlo := Int.emod_nonneg line (Int.ne_of_gt ht)
  have := Int.mul_nonneg hlo (show 0 ≤ cols by omega)
  omega

lemma RowsShow.push (h : RowsShow m cols total head lines) (ht : 0 < total) (hc : 1 ≤ cols) (size : Nat) :
    RowsShow (Block.fill ⟨size, m⟩ ((head + 1) % total * cols) cols).mem cols total ((head + 1) % total)
      ([] :: lines) := by
  intro k hk j hj
  have hnn := cell_nonneg ht hc (head + 1 - k) j
  dsimp only [Block.fill]
  rw [Int.emod_sub_emod, Int.toNat_of_nonneg hnn]
  cases k with
  | zero =>
    rw [Int.natCast_zero, Int.sub_zero, if_pos (by omega)]
    rfl
  | succ k =>
    have hne : (head + 1 - ((k + 1 : Nat) : Int)) % total ≠ (head + 1) % total :=
      lineIndex_ne (Nat.succ_pos k) hk
    rw [if_neg]
    · have hback : head + 1 - ((k + 1 : Nat) : Int) = head - k := by omega
      rw [hback, h k (by omega) j hj]
      rfl
    · rintro ⟨h1, h2⟩
      have hdis := row_disjoint hne (Int.natCast_nonneg j) hj
        (show 0 ≤ (head + 1 - ((k + 1 : Nat) : Int)) % total * cols + j - (head + 1) % total * cols by omega)
        (by omega)
      omega

lemma RowsShow.set {line line' : List UInt8} (h : RowsShow m cols total head (line :: lines)) (ht : 0 < total)
    (hc : 1 ≤ cols) (size : Nat) {i : Nat} (hi : (i : Int) < cols) {c : UInt8}
    (hline : ∀ j : Nat, line'.getD j 32 = if j = i then c else line.getD j 32) :
    RowsShow (Block.set ⟨size, m⟩ (head % total * cols + i) c).mem cols total head (line' :: lines) := by
  intro k hk j hj
  have hcell := cell_nonneg ht hc head i
  have hother := cell_nonneg ht hc (head - k) j
  dsimp only [Block.set]
  cases k with
  | zero =>
    rw [Int.natCast_zero, Int.sub_zero] at hother ⊢
    rw [getD_cons_zero, hline]
    by_cases hji : j = i
    · rw [hji, if_pos rfl, update_self]
    · rw [if_neg hji, update_of_ne (by omega)]
      have := h 0 hk j hj
      rwa [Int.natCast_zero, Int.sub_zero, getD_cons_zero] at this
  | succ k =>
    have hne : (head - ((k + 1 : Nat) : Int)) % total ≠ head % total := lineIndex_ne (Nat.succ_pos k) hk
    have hdis := row_disjoint hne (Int.natCast_nonneg j) hj (Int.natCast_nonneg i) hi
    rw [update_of_ne (by omega), h (k + 1) hk j hj]
    rfl

lemma getD_append_singleton (line : List UInt8) (c : UInt8) (j : Nat) :
    (line ++ [c]).getD j 32 = if j = line.length then c else line.getD j 32 := by
  rcases Nat.lt_trichotomy j line.length with hlt | rfl | hgt
  · rw [if_neg (by omega), getD_append _ _ _ _ hlt]
  · rw [if_pos rfl, getD_append_right _ _ _ _ (Nat.le_refl _), Nat.sub_self]
    rfl
  · rw [if_neg (by omega), getD_eq_default _ _ (by rw [length_append, length_singleton]; omega),
      getD_eq_default _ _ (by omega)]

lemma getD_dropLast (line : List UInt8) (j : Nat) :
    line.dropLast.getD j 32 = if j = line.length - 1 then 32 else line.getD j 32 := by
  rcases Nat.lt_trichotomy j (line.length - 1) with hlt | heq | hgt
  · rw [if_neg (by omega), getD_eq_getElem _ _ (by rw [length_dropLast]; omega),
      getD_eq_getElem _ _ (by omega), getElem_dropLast]
  · rw [if_pos heq, getD_eq_default _ _ (by rw [length_dropLast]; omega)]
  · rw [if_neg (by omega), getD_eq_default _ _ (by rw [length_dropLast]; omega),
      getD_eq_default _ _ (by omega)]

end Rows

/-! ## Characters -/

section Lines
variable {t : Terminal} {r : RefTerm} {b : Block}

lemma cellAbove_eq (ht : 0 < t.totalLines) (k : Nat) (j : Int) :
    cellAbove t b k j = b.mem ((t.lineHead - k) % t.totalLines * t.cols + j).toNat := by
  rw [cellAbove, terminalLinePtr, terminalLineIndex_eq ht]

lemma Represents.of_rows (ht : 0 < t.totalLines) (hcol : t.cursorX = r.line.length)
    (hcount : t.lineCount = min (r.lines.length : Int) t.totalLines) (hcells : t.cells = some b)
    (h : RowsShow b.mem t.cols t.totalLines t.lineHead r.lines) : Represents t r := by
  refine ⟨hcol, hcount, b, hcells, ?_, ?_⟩
  · intro k hk j hj
    rw [cellAbove_eq ht, h k (by omega) j hj]
  · intro k hk hlt j hj
    rw [cellAbove_eq ht, h k hlt j hj, getD_eq_default r.lines _ hk]
    rfl

lemma Represents.rowsShow (h : Represents t r) (ht : 0 < t.totalLines) :
    ∃ b, t.cells = some b ∧ RowsShow b.mem t.cols t.totalLines t.lineHead r.lines := by
  obtain ⟨b, hcells, hlines, hblank⟩ := h.rows
  refine ⟨b, hcells, ?_⟩
  intro k hk j hj
  rw [← cellAbove_eq ht]
  by_cases hlt : k < r.lines.length
  · exact hlines k (by omega) j hj
  · rw [hblank k (by omega) hk j hj, getD_eq_default r.lines _ (by omega)]
    rfl

lemma newLine_fields (h : Terminal.Ok { t with cursorX := 0 }) :
    (newLine t).1.cursorX = 0 ∧ (newLine t).1.cols = t.cols ∧ (newLine t).1.totalLines = t.totalLines ∧
      (newLine t).1.lineHead = (t.lineHead + 1) % t.totalLines ∧
      (newLine t).1.lineCount = min (t.lineCount + 1) t.totalLines ∧
      (newLine t).1.cells = t.cells.map fun b => b.fill ((t.lineHead + 1) % t.totalLines * t.cols) t.cols := by
  have ht : 0 < t.totalLines := h.total_pos
  have hhead : 0 ≤ t.lineHead ∧ t.lineHead < t.totalLines := h.head
  have hcount : 1 ≤ t.lineCount ∧ t.lineCount ≤ t.totalLines := h.count
  have hmod : (t.lineHead + 1).tmod t.totalLines = (t.lineHead + 1) % t.totalLines :=
    Int.tmod_eq_emod_of_nonneg (by omega)
  have hptr : ∀ s : Terminal, s.totalLines = t.totalLines → s.cols = t.cols →
      terminalLinePtr s ((t.lineHead + 1) % t.totalLines) = (t.lineHead + 1) % t.totalLines * t.cols := by
    intro s hs hcols
    rw [terminalLinePtr, terminalLineIndex_eq (by omega), hs, hcols, Int.emod_emod]
  unfold newLine scrollView
  dsimp only [terminalClearLine]
  rw [hmod, hptr { t with cursorX := 0, lineHead := (t.lineHead + 1) % t.totalLines } rfl rfl]
  split
  · have hmin : min (t.lineCount + 1) t.totalLines = t.lineCount + 1 := by omega
    split <;> exact ⟨rfl, rfl, rfl, rfl, hmin.symm, rfl⟩
  · have hmin : min (t.lineCount + 1) t.totalLines = t.lineCount := by omega
    split <;> exact ⟨rfl, rfl, rfl, rfl, hmin.symm, rfl⟩

lemma newLine_represents (h : Terminal.Ok { t with cursorX := 0 }) (hcells : t.cells = some b)
    (hcount : t.lineCount = min (r.lines.length : Int) t.totalLines)
    (hrows : RowsShow b.mem t.cols t.totalLines t.lineHead r.lines) : Represents (newLine t).1 r.newLine := by
  have ht : 0 < t.totalLines := h.total_pos
  obtain ⟨hcursor, hcols, htotal, hhead, hcount', hcells'⟩ := newLine_fields h
  rw [hcells] at hcells'
  apply Represents.of_rows (by rw [htotal]; exact ht) hcursor _ hcells'
  · rw [hcols, htotal, hhead]
    exact hrows.push ht h.cols b.size
  · rw [hcount', htotal, hcount]
    dsimp only [RefTerm.newLine, RefTerm.lines]
    rw [length_cons, length_cons, length_cons]
    omega

lemma terminalPutc_represents (h : t.Ok) (hrep : Represents t r) (c : UInt8) :
    Represents (terminalPutc t c).1 (r.putc t.cols.toNat c) := by
  have ht := h.total_pos
  have hhead := h.head
  have hcursor := h.cursor
  have hcol := hrep.column
  have hcount := hrep.count
  have hzero : Terminal.Ok { t with cursorX := 0 } :=
    ⟨h.cols, h.rows, h.total, ⟨Int.le_refl 0, h.cols⟩, h.head, h.count, h.view⟩
  obtain ⟨b, hcells, hrows⟩ := hrep.rowsShow ht
  have hptr : terminalLinePtr t t.lineHead = t.lineHead % t.totalLines * t.cols := by
    rw [terminalLinePtr, terminalLineIndex_eq ht]
  unfold terminalPutc RefTerm.putc
  rw [hcells]
  dsimp only
  split
  · exact newLine_represents hzero hcells hcount hrows
  split
  · split
    next hpos =>
      -- the last character of the line is erased
      have hlen : t.cursorX - 1 = (r.line.length - 1 : Nat) := by omega
      rw [hptr, hlen]
      refine Represents.of_rows ?_ ?_ ?_ rfl ?_
      · exact ht
      · dsimp only
        rw [length_dropLast]
      · exact hcount
      · exact hrows.set ht h.cols b.size (i := r.line.length - 1) (by omega) (getD_dropLast r.line)
    next hpos =>
      have hnil : r.line = [] := eq_nil_of_length_eq_zero (by omega)
      have hsame : { r with line := r.line.dropLast } = r := by
        cases r
        simp_all
      rw [hsame]
      exact hrep
  · have hset := hrows.set ht h.cols b.size (i := r.line.length) (by omega) (getD_append_singleton r.line c)
    rw [hptr, hcol]
    rw [length_append, length_singleton]
    by_cases hwrap : t.cols ≤ (r.line.length : Int) + 1
    · rw [if_pos hwrap, if_pos (by omega)]
      exact newLine_represents (r := { r with line := r.line ++ [c] })
        ⟨h.cols, h.rows, h.total, ⟨Int.le_refl 0, h.cols⟩, h.head, h.count, h.view⟩ rfl hcount hset
    · rw [if_neg hwrap, if_neg (by omega)]
      refine Represents.of_rows ?_ ?_ ?_ rfl hset
      · exact ht
      · dsimp only
        rw [length_append, length_singleton]
        rfl
      · exact hcount

end Lines

/-- A terminal behind `terminal_init` or `terminal_clear`, with cells. -/
inductive Fresh : Terminal → Prop where
  | init (w h : Int) (mem : Nat → UInt8) : Fresh (terminalInit w h (some mem)).1
  | clear {w h : Int} {mem : Option (Nat → UInt8)} {as : List TermAction} {t : Terminal} {b : Block} :
      Run Terminal.step (terminalInit w h mem).1 as t → t.cells = some b → Fresh (terminalClear t).1

lemma toInt_of_lt {n : Int} (h0 : 0 ≤ n) (hn : n < 2 ^ 31) : toInt n = n := by
  unfold toInt Int.bmod
  dsimp only
  split <;> omega

lemma rowsShow_blank {cols total : Int} (hc : 1 ≤ cols) (ht : 0 < total) (hn : cols * total < 2 ^ 31)
    (b : Block) : RowsShow (b.fill 0 (toInt (cols * total))).mem cols total 0 [[]] := by
  intro k hk j hj
  have hlo := Int.emod_nonneg (0 - (k : Int)) (Int.ne_of_gt ht)
  have hhi := Int.emod_lt_of_pos (0 - (k : Int)) ht
  have hnn := cell_nonneg ht hc (0 - k) j
  have hlt : (0 - (k : Int)) % total * cols + j < cols * total := by
    have := Int.mul_le_mul_of_nonneg_right (show (0 - (k : Int)) % total + 1 ≤ total by omega)
      (show 0 ≤ cols by omega)
    rw [Int.add_mul, Int.one_mul] at this
    rw [Int.mul_comm cols]
    omega
  dsimp only [Block.fill]
  rw [toInt_of_lt (by omega) hn, Int.toNat_of_nonneg hnn, if_pos (by omega)]
  cases k with
  | zero => rfl
  | succ k => rfl

lemma represents_blank {t : Terminal} {b : Block} (hok : t.Ok) (hsize : t.cols * t.totalLines < 2 ^ 31)
    (hcursor : t.cursorX = 0) (hhead : t.lineHead = 0) (hcount : t.lineCount = 1)
    (hcells : t.cells = some (b.fill 0 (toInt (t.cols * t.totalLines)))) : Represents t RefTerm.empty := by
  have ht := hok.total_pos
  refine Represents.of_rows ht ?_ ?_ hcells ?_
  · exact hcursor
  · rw [hcount]
    exact (Int.min_eq_left ht).symm
  · rw [hhead]
    exact rowsShow_blank hok.cols ht hsize b

lemma Fresh.represents {t : Terminal} (h : Fresh t) (hsize : t.cols * t.totalLines < 2 ^ 31) :
    t.Ok ∧ Represents t RefTerm.empty := by
  cases h with
  | init w h mem =>
    refine ⟨terminalInit_ok w h (some mem), ?_⟩
    have hok := terminalInit_ok w h (some mem)
    unfold terminalInit terminalAllocCells at hok hsize ⊢
    dsimp only at hok hsize ⊢
    rw [if_neg (fun hs => by cases hs.2.2)] at hok hsize ⊢
    exact represents_blank hok hsize rfl rfl rfl rfl
  | @clear w h mem as s b hrun hcells =>
    have hok := (terminalClear_safe (Terminal.ok_of_run hrun)).ok
    refine ⟨hok, ?_⟩
    unfold terminalClear at hok hsize ⊢
    rw [hcells] at hok hsize ⊢
    exact represents_blank hok hsize rfl rfl rfl rfl

/-- The rows of the ring are the last lines of the terminal without bounds, after any characters. -/
theorem putc_represents (t : Terminal) (h : Fresh t) (hsize : t.cols * t.totalLines < 2 ^ 31)
    (cs : List UInt8) :
    Represents (cs.foldl (fun t c => (terminalPutc t c).1) t)
      (cs.foldl (RefTerm.putc t.cols.toNat) RefTerm.empty) := by
  obtain ⟨hok, hrep⟩ := h.represents hsize
  clear h hsize
  generalize RefTerm.empty = r at hrep ⊢
  induction cs generalizing t r with
  | nil => exact hrep
  | cons c cs ih =>
    have hsafe := terminalPutc_safe hok c
    have hnext := ih (terminalPutc t c).1 hsafe.ok (r.putc t.cols.toNat c) (terminalPutc_represents hok hrep c)
    rw [hsafe.dims.cols] at hnext
    exact hnext

/-- Two columns: the letter a, a backspace, the letters b and c, which fill the line, and d. -/
theorem putc_represents_two_columns :
    Represents
    ([97, 8, 98, 99, 100].foldl (fun t c => (terminalPutc t c).1) (terminalInit 16 16 (some fun _ => 7)).1)
      ⟨[100], [[98, 99]]⟩ :=
  putc_represents _ (.init 16 16 fun _ => 7) (by decide) [97, 8, 98, 99, 100]

/-- Without cells a character is lost. -/
theorem not_represents_no_cells :
    ¬ Represents (terminalPutc (terminalInit 16 16 none).1 97).1 (RefTerm.putc 2 RefTerm.empty 97) := by
  intro h
  cases h.column

end FusionOS.Ui
