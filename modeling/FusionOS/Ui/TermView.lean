import FusionOS.Ui.TermLines
import Mathlib.Data.List.Basic

/-!
# The view of the terminal

A terminal that is scrolled back keeps its view while text is printed: a new line moves the head of the
ring and the offset of the view together. That ends only where a line on view leaves the ring.
-/

namespace FusionOS.Ui

/-- The byte at a cell or in the clipboard. -/
def Terminal.read (t : Terminal) : Access → UInt8
  | .cell i => (t.cells.map fun b => b.mem i.toNat).getD 0
  | .clip i => (t.clipboard.map fun b => b.mem i).getD 0

/-- The characters that `terminal_render` draws, row by row. -/
def shown (t : Terminal) : List UInt8 := (terminalRender t).2.map t.read

def BeginsLine (t : Terminal) (c : UInt8) : Prop :=
  t.cells.isSome ∧ (c = 10 ∨ c ≠ 8 ∧ t.cols ≤ t.cursorX + 1)

instance (t : Terminal) (c : UInt8) : Decidable (BeginsLine t c) := inferInstanceAs (Decidable (_ ∧ _))

/-- The number of lines that printing a string begins. -/
def linesBegun : Terminal → List UInt8 → Nat
  | _, [] => 0
  | t, c :: cs => (if BeginsLine t c then 1 else 0) + linesBegun (terminalPutc t c).1 cs

/-! ## Rows that are not written -/

section Blocks
variable {cols total head : Int} {k j : Nat}

/-- The place of column `j` in the row `k` rows above the one at `head`. -/
def rowCell (cols total head : Int) (k j : Nat) : Nat := ((head - k) % total * cols + j).toNat

lemma fill_rowCell (hcols : 1 ≤ cols) (hk : (k : Int) + 1 < total) (hj : (j : Int) < cols) (b : Block) :
    (b.fill ((head + 1) % total * cols) cols).mem (rowCell cols total head k j) =
      b.mem (rowCell cols total head k j) := by
  have hcell := cell_nonneg (by omega : 0 < total) hcols (head - k) j
  have hback : head + 1 - ((k + 1 : Nat) : Int) = head - k := by omega
  have hne : (head - k) % total ≠ (head + 1) % total := by
    rw [← hback]
    exact lineIndex_ne (Nat.succ_pos k) (by omega)
  dsimp only [Block.fill]
  rw [rowCell, Int.toNat_of_nonneg hcell]
  apply if_neg
  rintro ⟨hlo, hhi⟩
  have hdis := row_disjoint hne (Int.natCast_nonneg j) hj
    (show 0 ≤ (head - k) % total * cols + j - (head + 1) % total * cols by omega) (by omega)
  omega

lemma set_rowCell (hcols : 1 ≤ cols) (h0 : 0 < k) (hk : (k : Int) < total) (hj : (j : Int) < cols) (b : Block)
    {i : Int} (hi : 0 ≤ i ∧ i < cols) (c : UInt8) :
    (b.set (head % total * cols + i) c).mem (rowCell cols total head k j) =
      b.mem (rowCell cols total head k j) := by
  have hcell := cell_nonneg (by omega : 0 < total) hcols (head - k) j
  have hwritten := cell_nonneg (by omega : 0 < total) hcols head i.toNat
  have hne : (head - k) % total ≠ head % total := lineIndex_ne h0 hk
  have hdis := row_disjoint hne (Int.natCast_nonneg j) hj hi.1 hi.2
  dsimp only [Block.set]
  rw [rowCell]
  apply Function.update_of_ne
  omega

end Blocks

/-! ## Characters -/

/-- The terminal behind `n` new lines, as far as the view is concerned. -/
structure Kept (t t' : Terminal) (n : Nat) : Prop where
  rows : t'.rows = t.rows
  cols : t'.cols = t.cols
  total : t'.totalLines = t.totalLines
  head : t'.lineHead = (t.lineHead + n) % t.totalLines
  view : t'.viewOffset = t.viewOffset + n
  clipboard : t'.clipboard = t.clipboard ∧ t'.clipboardLen = t.clipboardLen ∧ t'.clipboardCap = t.clipboardCap
  cells : ∀ b, t.cells = some b → ∃ b', t'.cells = some b' ∧ ∀ k j : Nat, 0 < k → (k : Int) + n < t.totalLines →
    (j : Int) < t.cols →
    b'.mem (rowCell t.cols t.totalLines t.lineHead k j) = b.mem (rowCell t.cols t.totalLines t.lineHead k j)

section Characters
variable {t : Terminal}

lemma Kept.refl (h : t.Ok) : Kept t t 0 := by
  refine ⟨rfl, rfl, rfl, ?_, (Int.add_zero _).symm, ⟨rfl, rfl, rfl⟩, fun b hb => ⟨b, hb, fun _ _ _ _ _ => rfl⟩⟩
  rw [Int.natCast_zero, Int.add_zero, Int.emod_eq_of_lt h.head.1 h.head.2]

lemma Kept.trans {t' t'' : Terminal} {n m : Nat} (h : Kept t t' n) (h' : Kept t' t'' m) :
    Kept t t'' (n + m) := by
  refine ⟨h'.rows.trans h.rows, h'.cols.trans h.cols, h'.total.trans h.total, ?_, ?_, ?_, ?_⟩
  · rw [h'.head, h.head, h.total, Int.emod_add_emod, Int.natCast_add, Int.add_assoc]
  · rw [h'.view, h.view, Int.natCast_add, Int.add_assoc]
  · obtain ⟨h1, h2, h3⟩ := h.clipboard
    obtain ⟨h1', h2', h3'⟩ := h'.clipboard
    exact ⟨h1'.trans h1, h2'.trans h2, h3'.trans h3⟩
  · intro b hb
    obtain ⟨b', hb', hsame⟩ := h.cells b hb
    obtain ⟨b'', hb'', hsame'⟩ := h'.cells b' hb'
    refine ⟨b'', hb'', ?_⟩
    intro k j h0 hk hj
    -- the row is `n` rows further up from the new head
    have hrow : rowCell t'.cols t'.totalLines t'.lineHead (k + n) j =
        rowCell t.cols t.totalLines t.lineHead k j := by
      rw [rowCell, rowCell, h.cols, h.total, h.head, Int.emod_sub_emod]
      congr 4
      omega
    rw [← hsame k j h0 (by omega) hj, ← hrow]
    apply hsame'
    · omega
    · rw [h.total]
      omega
    · rw [h.cols]
      exact hj

lemma scrollView_eq (hview : 0 < t.viewOffset) :
    scrollView t = { t with viewOffset := min (t.viewOffset + 1) (terminalMaxOffset t) } := by
  have hmin : (if terminalMaxOffset t < t.viewOffset + 1 then terminalMaxOffset t else t.viewOffset + 1) =
      min (t.viewOffset + 1) (terminalMaxOffset t) := by
    split <;> omega
  rw [scrollView, if_pos hview, hmin]

lemma newLine_kept (h : Terminal.Ok { t with cursorX := 0 }) (hview : 0 < t.viewOffset)
    (hkept : t.viewOffset + t.rows + 1 ≤ t.totalLines) : Kept t (newLine t).1 1 := by
  have hrange : 0 ≤ t.viewOffset ∧ t.viewOffset ≤ max 0 (t.lineCount - t.rows) := h.view
  have hrows : 1 ≤ t.rows := h.rows
  have hcols : 1 ≤ t.cols := h.cols
  obtain ⟨-, hcols', htotal, hhead, hcount, hcells⟩ := newLine_fields h
  have hsame : (newLine t).1.rows = t.rows ∧ (newLine t).1.clipboard = t.clipboard ∧
      (newLine t).1.clipboardLen = t.clipboardLen ∧ (newLine t).1.clipboardCap = t.clipboardCap ∧
      (newLine t).1.viewOffset = min (t.viewOffset + 1) (terminalMaxOffset (newLine t).1) := by
    unfold newLine
    dsimp only [terminalClearLine]
    split
    · rw [scrollView_eq (by exact hview)]
      exact ⟨rfl, rfl, rfl, rfl, rfl⟩
    · rw [scrollView_eq (by exact hview)]
      exact ⟨rfl, rfl, rfl, rfl, rfl⟩
  obtain ⟨hrows', hclip, hlen, hcap, hview'⟩ := hsame
  have hmax : t.viewOffset + 1 ≤ terminalMaxOffset (newLine t).1 := by
    simp only [terminalMaxOffset, hcount, hrows', htotal]
    split <;> split <;> omega
  refine ⟨hrows', hcols', htotal, hhead, ?_, ⟨hclip, hlen, hcap⟩, ?_⟩
  · rw [hview']
    exact Int.min_eq_left hmax
  · intro b hb
    rw [hb] at hcells
    refine ⟨_, hcells, ?_⟩
    intro k j h0 hk hj
    exact fill_rowCell hcols hk hj b

lemma set_kept (h : t.Ok) {b : Block} (hb : t.cells = some b) {i : Int} (hi : 0 ≤ i ∧ i < t.cols) (c : UInt8)
    (x : Int) :
    Kept t { t with cursorX := x, cells := some (b.set (terminalLinePtr t t.lineHead + i) c) } 0 := by
  have hrefl := Kept.refl h
  refine ⟨rfl, rfl, rfl, hrefl.head, hrefl.view, ⟨rfl, rfl, rfl⟩, ?_⟩
  intro b' hb'
  rw [hb] at hb'
  cases hb'
  refine ⟨_, rfl, ?_⟩
  intro k j h0 hk hj
  rw [terminalLinePtr, terminalLineIndex_eq h.total_pos]
  exact set_rowCell h.cols h0 (by omega) hj b hi c

lemma terminalPutc_kept (h : t.Ok) (hview : 0 < t.viewOffset) (c : UInt8)
    (hkept : t.viewOffset + t.rows + (if BeginsLine t c then 1 else 0 : Nat) ≤ t.totalLines) :
    Kept t (terminalPutc t c).1 (if BeginsLine t c then 1 else 0) := by
  have hcursor := h.cursor
  rcases Option.eq_none_or_eq_some t.cells with hcells | ⟨b, hcells⟩
  · rw [if_neg (by simp [BeginsLine, hcells]), terminalPutc, hcells]
    exact Kept.refl h
  have hbegins : BeginsLine t c ↔ c = 10 ∨ c ≠ 8 ∧ t.cols ≤ t.cursorX + 1 := by
    simp [BeginsLine, hcells]
  simp only [hbegins] at hkept ⊢
  rw [terminalPutc, hcells]
  dsimp only
  by_cases hnl : c = 10
  · rw [if_pos (Or.inl hnl)] at hkept
    rw [if_pos hnl, if_pos (Or.inl hnl)]
    exact newLine_kept ⟨h.cols, h.rows, h.total, ⟨Int.le_refl 0, h.cols⟩, h.head, h.count, h.view⟩ hview hkept
  rw [if_neg hnl]
  by_cases hbs : c = 8
  · have hnone : ¬(c = 10 ∨ c ≠ 8 ∧ t.cols ≤ t.cursorX + 1) := by simp [hbs]
    rw [if_pos hbs, if_neg hnone]
    split
    · exact set_kept h hcells (by omega) 32 (t.cursorX - 1)
    · exact Kept.refl h
  · rw [if_neg hbs]
    have hset := set_kept h hcells hcursor c (t.cursorX + 1)
    by_cases hwrap : t.cols ≤ t.cursorX + 1
    · rw [if_pos (Or.inr ⟨hbs, hwrap⟩)] at hkept
      rw [if_pos hwrap, if_pos (Or.inr ⟨hbs, hwrap⟩)]
      refine hset.trans (newLine_kept ?_ hview hkept)
      exact ⟨h.cols, h.rows, h.total, ⟨Int.le_refl 0, h.cols⟩, h.head, h.count, h.view⟩
    · rw [if_neg hwrap, if_neg (by simp [hnl, hwrap])]
      exact hset

lemma terminalPrint_kept (h : t.Ok) (hview : 0 < t.viewOffset) (s : List UInt8)
    (hkept : t.viewOffset + t.rows + linesBegun t s ≤ t.totalLines) :
    Kept t (terminalPrint t s).1 (linesBegun t s) := by
  induction s generalizing t with
  | nil => exact Kept.refl h
  | cons c s ih =>
    rw [linesBegun] at hkept ⊢
    have hc := terminalPutc_kept h hview c (by omega)
    have hview' := hc.view
    have hrows := hc.rows
    have htotal := hc.total
    exact hc.trans (ih (terminalPutc_safe h c).ok (by omega) (by omega))

end Characters

/-! ## The rows on view -/

def SameLine (t t' : Terminal) (b b' : Block) (line line' : Int) : Prop :=
  terminalLinePtr t' line' = terminalLinePtr t line ∧ ∀ j : Nat, (j : Int) < t.cols →
    b'.mem (terminalLinePtr t line + j).toNat = b.mem (terminalLinePtr t line + j).toNat

section View
variable {t t' : Terminal} {b b' : Block}

variable {line line' : Int} {n : Nat}

lemma Kept.sameLine (h : t.Ok) (hk : Kept t t' n) (hview : 0 < t.viewOffset)
    (hroom : t.viewOffset + t.rows + n ≤ t.totalLines) (hb : t.cells = some b) (hb' : t'.cells = some b')
    {i : Nat} (hi : (i : Int) < t.rows) : SameLine t t' b b' (topLine t + i) (topLine t' + i) := by
  obtain ⟨b'', hcells, hsame⟩ := hk.cells b hb
  rw [hb'] at hcells
  cases hcells
  have htotal := h.total_pos
  have hline : topLine t + i = t.lineHead - ((t.rows - 1 + t.viewOffset - i).toNat : Nat) := by
    unfold topLine
    omega
  have hptr : terminalLinePtr t (topLine t + i) =
      (t.lineHead - ((t.rows - 1 + t.viewOffset - i).toNat : Nat)) % t.totalLines * t.cols := by
    rw [terminalLinePtr, terminalLineIndex_eq htotal, hline]
  constructor
  · rw [hptr, terminalLinePtr, terminalLineIndex_eq (by rw [hk.total]; exact htotal), topLine, hk.head, hk.rows,
      hk.view, hk.total, hk.cols]
    congr 1
    rw [Int.sub_sub, Int.add_comm, ← Int.add_sub_assoc, Int.add_comm (i : Int), Int.add_sub_assoc,
      Int.emod_add_emod]
    congr 1
    omega
  · intro j hj
    rw [hptr]
    exact hsame _ j (by omega) (by omega) hj

lemma lineEnd_same {start : Int} {e : Nat}
    (h : ∀ j : Nat, j < e → b'.mem (start + j).toNat = b.mem (start + j).toNat) :
    lineEnd b' start e = lineEnd b start e := by
  induction e with
  | zero => rfl
  | succ e ih => rw [lineEnd, lineEnd, h e (Nat.lt_succ_self e), ih fun j hj => h j (Nat.lt_succ_of_lt hj)]

lemma SameLine.lineEnd (h : SameLine t t' b b' line line') :
    lineEnd b' (terminalLinePtr t' line') t.cols.toNat = lineEnd b (terminalLinePtr t line) t.cols.toNat := by
  rw [h.1]
  exact lineEnd_same fun j hj => h.2 j (by omega)

lemma SameLine.copyLine (h : SameLine t t' b b' line line') {len : Nat}
    (hlen : len ≤ t.cols.toNat) (pos : Nat) (clip : Nat → UInt8) :
    copyLine b' (terminalLinePtr t' line') len pos clip = copyLine b (terminalLinePtr t line) len pos clip := by
  funext j
  unfold Ui.copyLine
  rw [h.1]
  split
  · exact h.2 (j - pos) (by omega)
  · rfl

/-- The rows from `line` on are the same, `n` of them. -/
def SameLines (t t' : Terminal) (b b' : Block) (n : Nat) (line line' : Int) : Prop :=
  ∀ i : Nat, i < n → SameLine t t' b b' (line + i) (line' + i)

lemma SameLines.head (h : SameLines t t' b b' (n + 1) line line') :
    SameLine t t' b b' line line' := by
  have h0 := h 0 (Nat.succ_pos n)
  rwa [Int.natCast_zero, Int.add_zero, Int.add_zero] at h0

lemma SameLines.tail (h : SameLines t t' b b' (n + 1) line line') :
    SameLines t t' b b' n (line + 1) (line' + 1) := by
  intro i hi
  have hs := h (i + 1) (Nat.succ_lt_succ hi)
  rwa [Int.natCast_add, Int.add_comm (i : Int), ← Int.add_assoc, ← Int.add_assoc] at hs

lemma neededLoop_same (hcols : t'.cols = t.cols) (needed : Nat)
    (h : SameLines t t' b b' n line line') :
    neededLoop t' b' n line' needed = neededLoop t b n line needed := by
  induction n generalizing line line' needed with
  | zero => rfl
  | succ n ih => rw [neededLoop, neededLoop, hcols, h.head.lineEnd, ih _ h.tail]

lemma copyLoop_same (hcols : t'.cols = t.cols) (pos : Nat) (clip : Nat → UInt8)
    (h : SameLines t t' b b' n line line') :
    (copyLoop t' b' n line' pos clip).1 = (copyLoop t b n line pos clip).1 := by
  induction n generalizing line line' pos clip with
  | zero => rfl
  | succ n ih =>
    rw [copyLoop, copyLoop]
    dsimp only
    rw [hcols, h.head.lineEnd, h.head.copyLine (lineEnd_le _ _), ih _ _ h.tail]

lemma cellRange_same (h : SameLine t t' b b' line line') (hb : t.cells = some b)
    (hb' : t'.cells = some b') :
    (cellRange (terminalLinePtr t' line') t.cols).map t'.read =
      (cellRange (terminalLinePtr t line) t.cols).map t.read := by
  rw [cellRange, cellRange, List.map_map, List.map_map, h.1]
  apply List.map_congr_left
  intro j hj
  have hlt := List.mem_range.mp hj
  simp only [Function.comp_apply, Terminal.read, hb, hb', Option.map_some, Option.getD_some]
  exact h.2 j (by omega)

lemma shown_same (h : t.Ok) (h' : t'.Ok) (hrows : t'.rows = t.rows) (hcols : t'.cols = t.cols)
    (hb : t.cells = some b) (hb' : t'.cells = some b')
    (hsame : SameLines t t' b b' t.rows.toNat (topLine t) (topLine t')) : shown t' = shown t := by
  rw [shown, shown, terminalRender, terminalRender, hb, hb', clampView_eq h, clampView_eq h']
  dsimp only [Option.isNone_some]
  rw [if_neg (by decide), if_neg (by decide)]
  dsimp only
  rw [hrows, hcols, List.map_flatMap, List.map_flatMap]
  apply List.flatMap_congr
  intro i hi
  exact cellRange_same (hsame i (List.mem_range.mp hi)) hb hb'

lemma clipboard_same (h : t.Ok) (h' : t'.Ok) (hrows : t'.rows = t.rows) (hcols : t'.cols = t.cols)
    (hclip : t'.clipboard = t.clipboard ∧ t'.clipboardLen = t.clipboardLen)
    (hb : t.cells = some b) (hb' : t'.cells = some b')
    (hsame : SameLines t t' b b' t.rows.toNat (topLine t) (topLine t')) (mem : Option (Nat → UInt8)) :
    (terminalCopyVisible t' mem).1.clipboard = (terminalCopyVisible t mem).1.clipboard ∧
      (terminalCopyVisible t' mem).1.clipboardLen = (terminalCopyVisible t mem).1.clipboardLen := by
  have hn : t'.rows.toNat = t.rows.toNat := by rw [hrows]
  have hneeded : neededLoop t' b' t'.rows.toNat (topLine t') 0 = neededLoop t b t.rows.toNat (topLine t) 0 := by
    rw [hn]
    exact neededLoop_same hcols 0 hsame
  rw [terminalCopyVisible, terminalCopyVisible, hb, hb', clampView_eq h, clampView_eq h']
  dsimp only
  rw [hneeded]
  split
  · exact hclip
  · cases mem with
    | none =>
      dsimp only
      rw [hclip.1]
      split <;> exact ⟨rfl, hclip.2⟩
    | some m =>
      dsimp only
      rw [hclip.1]
      split
      · have hcopy : (copyLoop { t' with clipboard := none, clipboardCap := 0 } b' t.rows.toNat (topLine t') 0 m).1 =
            (copyLoop { t with clipboard := none, clipboardCap := 0 } b t.rows.toNat (topLine t) 0 m).1 := by
          apply copyLoop_same
          · exact hcols
          · exact hsame
        dsimp only [topLine] at hcopy ⊢
        rw [hn, hcopy]
        exact ⟨rfl, rfl⟩
      · rw [hn, copyLoop_same hcols 0 m hsame]
        exact ⟨rfl, rfl⟩

end View

/-- Printing leaves the view of a terminal that is scrolled back as it is, while the lines on view
are in the ring: what is drawn, and what is copied. -/
theorem scrolled_view_kept (w h : Int) (mem : Option (Nat → UInt8)) (as : List TermAction) (t : Terminal)
    (hrun : Run Terminal.step (terminalInit w h mem).1 as t) (hview : 0 < t.viewOffset) (s : List UInt8)
    (hkept : t.viewOffset + (t.rows - 1) + linesBegun t s < t.totalLines) :
    shown (terminalPrint t s).1 = shown t ∧ 0 < (terminalPrint t s).1.viewOffset ∧
      ∀ mem', (terminalCopyVisible (terminalPrint t s).1 mem').1.clipboard =
          (terminalCopyVisible t mem').1.clipboard ∧
        (terminalCopyVisible (terminalPrint t s).1 mem').1.clipboardLen =
          (terminalCopyVisible t mem').1.clipboardLen := by
  have hok := Terminal.ok_of_run hrun
  have hok' := (terminalPrint_safe hok s).ok
  have hroom : t.viewOffset + t.rows + linesBegun t s ≤ t.totalLines := by omega
  have hk := terminalPrint_kept hok hview s hroom
  rcases Option.eq_none_or_eq_some t.cells with hcells | ⟨b, hcells⟩
  · have hsame : (terminalPrint t s).1 = t := by
      clear hkept hroom hk hok'
      induction s with
      | nil => rfl
      | cons c s ih =>
        rw [terminalPrint]
        dsimp only
        rw [terminalPutc, hcells]
        exact ih
    rw [hsame]
    exact ⟨rfl, hview, fun _ => ⟨rfl, rfl⟩⟩
  · obtain ⟨b', hcells', -⟩ := hk.cells b hcells
    have hlines : SameLines t (terminalPrint t s).1 b b' t.rows.toNat (topLine t)
        (topLine (terminalPrint t s).1) :=
      fun i hi => hk.sameLine hok hview hroom hcells hcells' (by omega)
    refine ⟨shown_same hok hok' hk.rows hk.cols hcells hcells' hlines, ?_, ?_⟩
    · rw [hk.view]
      omega
    · exact clipboard_same hok hok' hk.rows hk.cols ⟨hk.clipboard.1, hk.clipboard.2.1⟩ hcells hcells' hlines

/-- One row of two columns, scrolled back to the letter b; the letter c and a newline are printed. -/
theorem scrolled_view_kept_letter :
    ∃ t, Run Terminal.step (terminalInit 16 16 (some fun _ => 7)).1 [.print [97, 10, 98, 10], .scrollUp] t ∧
      linesBegun t [99, 10] = 1 ∧ shown t = [98, 32] ∧ shown (terminalPrint t [99, 10]).1 = shown t := by
  have hrun : Run Terminal.step (terminalInit 16 16 (some fun _ => 7)).1 [.print [97, 10, 98, 10], .scrollUp] _ :=
    Run.of_exec rfl
  exact ⟨_, hrun, rfl, rfl, (scrolled_view_kept 16 16 (some fun _ => 7) _ _ hrun (by decide) [99, 10] (by decide)).1⟩

end FusionOS.Ui
