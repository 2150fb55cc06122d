import FusionOS.Ui.TermBuffer

/-!
# Bounds of the terminal

The six coupled fields of a terminal stay in their ranges, whatever is called and whether or not the
allocations succeed, and every access lies inside the ring of rows or the clipboard.
-/

namespace FusionOS.Ui

open List

/-- The fields of a terminal that has been initialised. -/
structure Terminal.Ok (t : Terminal) : Prop where
  cols : 1 ≤ t.cols
  rows : 1 ≤ t.rows
  total : t.totalLines = t.rows + scrollbackLines
  cursor : 0 ≤ t.cursorX ∧ t.cursorX < t.cols
  head : 0 ≤ t.lineHead ∧ t.lineHead < t.totalLines
  count : 1 ≤ t.lineCount ∧ t.lineCount ≤ t.totalLines
  view : 0 ≤ t.viewOffset ∧ t.viewOffset ≤ max 0 (t.lineCount - t.rows)

/-- The access lies inside the rows or inside the clipboard. -/
def Access.InBounds (t : Terminal) : Access → Prop
  | .cell i => 0 ≤ i ∧ i < t.cols * t.totalLines
  | .clip i => i < t.clipboardCap

section Rows
variable {t : Terminal}

lemma Terminal.Ok.total_pos (h : t.Ok) : 0 < t.totalLines := by
  have h1 := h.total
  have h2 := h.rows
  unfold scrollbackLines at h1
  omega

lemma lineLoop_emod {total : Int} (ht : 0 < total) (n : Nat) (line : Int) (hn : -(n : Int) ≤ line) :
    0 ≤ lineLoop total n line ∧ lineLoop total n line % total = line % total := by
  induction n generalizing line with
  | zero => exact ⟨by rw [lineLoop]; omega, rfl⟩
  | succ n ih =>
    rw [lineLoop]
    split
    · obtain ⟨h0, hmod⟩ := ih (line + total) (by omega)
      exact ⟨h0, hmod.trans (Int.add_emod_right line total)⟩
    · exact ⟨by omega, rfl⟩

lemma terminalLineIndex_eq (ht : 0 < t.totalLines) (line : Int) :
    terminalLineIndex t line = line % t.totalLines := by
  obtain ⟨h0, hmod⟩ := lineLoop_emod ht line.natAbs line (by omega)
  rw [terminalLineIndex, if_neg (by omega), Int.tmod_eq_emod_of_nonneg h0, hmod]

lemma Terminal.Ok.row_cell (h : t.Ok) (line : Int) {j : Int} (h0 : 0 ≤ j) (hj : j < t.cols) :
    0 ≤ terminalLinePtr t line + j ∧ terminalLinePtr t line + j < t.cols * t.totalLines := by
  have ht := h.total_pos
  have hlo := Int.emod_nonneg line (Int.ne_of_gt ht)
  have hhi := Int.emod_lt_of_pos line ht
  have hc := h.cols
  rw [terminalLinePtr, terminalLineIndex_eq ht]
  constructor
  · have := Int.mul_nonneg hlo (by omega : 0 ≤ t.cols)
    omega
  · have := Int.mul_le_mul_of_nonneg_right (by omega : line % t.totalLines + 1 ≤ t.totalLines)
      (by omega : 0 ≤ t.cols)
    rw [Int.add_mul, Int.one_mul] at this
    rw [Int.mul_comm t.cols]
    omega

lemma mem_cellRange {start n : Int} {x : Access} (hx : x ∈ cellRange start n) :
    ∃ i : Int, 0 ≤ i ∧ i < n ∧ x = .cell (start + i) := by
  obtain ⟨i, hi, rfl⟩ := mem_map.mp hx
  have := mem_range.mp hi
  exact ⟨i, by omega, by omega, rfl⟩

lemma Terminal.Ok.row_range (h : t.Ok) (line : Int) {n : Int} (hn : n ≤ t.cols) :
    ∀ x ∈ cellRange (terminalLinePtr t line) n, x.InBounds t := by
  intro x hx
  obtain ⟨i, h0, hi, rfl⟩ := mem_cellRange hx
  exact h.row_cell line h0 (by omega)

end Rows

/-! ## One call -/

lemma Terminal.Ok.maxOffset {t : Terminal} (h : t.Ok) :
    terminalMaxOffset t = max 0 (t.lineCount - t.rows) := by
  have hr := h.rows
  have hc := h.count
  have ht := h.total_pos
  simp only [terminalMaxOffset]
  split <;> split <;> omega

lemma inBounds_of_dims {t t' : Terminal} (hcols : t'.cols = t.cols) (htotal : t'.totalLines = t.totalLines)
    (hcap : t'.clipboardCap = t.clipboardCap) {x : Access} (hx : x.InBounds t) : x.InBounds t' := by
  cases x with
  | cell i =>
    unfold Access.InBounds
    rw [hcols, htotal]
    exact hx
  | clip i =>
    unfold Access.InBounds
    rw [hcap]
    exact hx

structure SameDims (t t' : Terminal) : Prop where
  cols : t'.cols = t.cols
  total : t'.totalLines = t.totalLines
  cap : t'.clipboardCap = t.clipboardCap
  block : t'.cells.map Block.size = t.cells.map Block.size

lemma SameDims.refl (t : Terminal) : SameDims t t := ⟨rfl, rfl, rfl, rfl⟩

lemma SameDims.trans {t t' t'' : Terminal} (h : SameDims t t') (h' : SameDims t' t'') : SameDims t t'' :=
  ⟨h'.cols.trans h.cols, h'.total.trans h.total, h'.cap.trans h.cap, h'.block.trans h.block⟩

/-- A call that keeps the fields in range and accesses only what is there. -/
structure Safe (t : Terminal) (r : Terminal × List Access) : Prop where
  ok : r.1.Ok
  dims : SameDims t r.1
  log : ∀ x ∈ r.2, x.InBounds t

section Calls
variable {t : Terminal}

lemma Safe.refl (h : t.Ok) : Safe t (t, []) :=
  ⟨h, SameDims.refl t, fun _ hx => by cases hx⟩

lemma scrollView_ok (h : t.Ok) : (scrollView t).Ok ∧ SameDims t (scrollView t) := by
  have hm := h.maxOffset
  have hv := h.view
  unfold scrollView
  split
  · refine ⟨⟨h.cols, h.rows, h.total, h.cursor, h.head, h.count, ?_⟩, rfl, rfl, rfl, rfl⟩
    dsimp only
    split <;> omega
  · exact ⟨h, SameDims.refl t⟩

lemma newLine_safe (h : Terminal.Ok { t with cursorX := 0 }) : Safe t (newLine t) := by
  have htotal : 0 < t.totalLines := h.total_pos
  have hhead : 0 ≤ t.lineHead ∧ t.lineHead < t.totalLines := h.head
  have hcount : 1 ≤ t.lineCount ∧ t.lineCount ≤ t.totalLines := h.count
  have hview : 0 ≤ t.viewOffset ∧ t.viewOffset ≤ max 0 (t.lineCount - t.rows) := h.view
  have hmod : 0 ≤ (t.lineHead + 1).tmod t.totalLines ∧ (t.lineHead + 1).tmod t.totalLines < t.totalLines := by
    rw [Int.tmod_eq_emod_of_nonneg (by omega)]
    exact ⟨Int.emod_nonneg _ (by omega), Int.emod_lt_of_pos _ htotal⟩
  -- the line count grows, so the view may stay where it is
  have hgrown : ∀ n, t.lineCount ≤ n → n ≤ t.totalLines → ∀ cells, Terminal.Ok { t with
      cursorX := 0, lineHead := (t.lineHead + 1).tmod t.totalLines, cells := cells, lineCount := n } := by
    intro n hn hle cells
    refine ⟨h.cols, h.rows, h.total, h.cursor, hmod, ⟨?_, hle⟩, hview.1, ?_⟩
    all_goals
      dsimp only
      omega
  have hblock : ∀ start n, (t.cells.map fun b => b.fill start n).map Block.size = t.cells.map Block.size := by
    intro start n
    rw [Option.map_map]
    rfl
  unfold newLine
  dsimp only [terminalClearLine]
  split
  · obtain ⟨hok, hdims⟩ := scrollView_ok (hgrown (t.lineCount + 1) (by omega) (by omega) _)
    exact ⟨hok, ⟨hdims.cols, hdims.total, hdims.cap, hdims.block.trans (hblock _ _)⟩,
      h.row_range _ (Int.le_refl _)⟩
  · obtain ⟨hok, hdims⟩ := scrollView_ok (hgrown t.lineCount (by omega) (by omega) _)
    exact ⟨hok, ⟨hdims.cols, hdims.total, hdims.cap, hdims.block.trans (hblock _ _)⟩,
      h.row_range _ (Int.le_refl _)⟩

lemma terminalPutc_safe (h : t.Ok) (c : UInt8) : Safe t (terminalPutc t c) := by
  have hcursor := h.cursor
  unfold terminalPutc
  cases hcells : t.cells with
  | none => exact Safe.refl h
  | some b =>
    dsimp only
    have hrow := fun j => h.row_cell t.lineHead (j := j)
    have hset : ∀ x i c, SameDims t { t with cursorX := x, cells := some (b.set i c) } :=
      fun _ _ _ => ⟨rfl, rfl, rfl, by rw [hcells]; rfl⟩
    split
    · exact newLine_safe ⟨h.cols, h.rows, h.total, ⟨Int.le_refl 0, h.cols⟩, h.head, h.count, h.view⟩
    split
    · split
      next hpos =>
        refine ⟨⟨h.cols, h.rows, h.total, ⟨?_, ?_⟩, h.head, h.count, h.view⟩, hset _ _ _, ?_⟩
        · dsimp only
          omega
        · dsimp only
          omega
        · intro x hx
          rw [mem_singleton.mp hx]
          exact hrow _ (by omega) (by omega)
      · exact Safe.refl h
    · have hdims := hset (t.cursorX + 1) (terminalLinePtr t t.lineHead + t.cursorX) c
      split
      next hwrap =>
        have hline := newLine_safe (t := { t with
            cells := some (b.set (terminalLinePtr t t.lineHead + t.cursorX) c), cursorX := t.cursorX + 1 })
          ⟨h.cols, h.rows, h.total, ⟨Int.le_refl 0, h.cols⟩, h.head, h.count, h.view⟩
        refine ⟨hline.ok, hdims.trans hline.dims, ?_⟩
        intro x hx
        rcases mem_cons.mp hx with rfl | hx
        · exact hrow _ hcursor.1 hcursor.2
        · exact inBounds_of_dims rfl rfl rfl (hline.log x hx)
      next hroom =>
        refine ⟨⟨h.cols, h.rows, h.total, ⟨?_, ?_⟩, h.head, h.count, h.view⟩, hdims, ?_⟩
        · dsimp only
          omega
        · dsimp only at hroom ⊢
          omega
        · intro x hx
          rw [mem_singleton.mp hx]
          exact hrow _ hcursor.1 hcursor.2

lemma terminalPrint_safe (h : t.Ok) (s : List UInt8) : Safe t (terminalPrint t s) := by
  induction s generalizing t with
  | nil => exact Safe.refl h
  | cons c s ih =>
    have hc := terminalPutc_safe h c
    have hs := ih hc.ok
    refine ⟨hs.ok, hc.dims.trans hs.dims, ?_⟩
    intro x hx
    rcases mem_append.mp hx with hx | hx
    · exact hc.log x hx
    · exact inBounds_of_dims hc.dims.cols.symm hc.dims.total.symm hc.dims.cap.symm (hs.log x hx)

lemma toInt_le {n : Int} (h : 0 ≤ n) : toInt n ≤ n := by
  unfold toInt Int.bmod
  dsimp only
  split <;> omega

lemma ring_range {t : Terminal} (hc : 1 ≤ t.cols) (ht : 0 < t.totalLines) :
    ∀ x ∈ cellRange 0 (toInt (t.cols * t.totalLines)), x.InBounds t := by
  intro x hx
  obtain ⟨i, h0, hi, rfl⟩ := mem_cellRange hx
  have hle := toInt_le (Int.mul_nonneg (by omega : 0 ≤ t.cols) (by omega : 0 ≤ t.totalLines))
  rw [Int.zero_add]
  exact ⟨h0, by omega⟩

lemma terminalAllocCells_ok (h : t.cells.isSome → t.Ok) (mem : Option (Nat → UInt8)) :
    (terminalAllocCells t mem).1.Ok ∧
      ∀ x ∈ (terminalAllocCells t mem).2, x.InBounds (terminalAllocCells t mem).1 := by
  unfold terminalAllocCells
  dsimp only
  generalize hcols : (if t.w.tdiv fontWidth < 1 then 1 else t.w.tdiv fontWidth) = cols
  generalize hrows : (if t.h.tdiv fontHeight < 1 then 1 else t.h.tdiv fontHeight) = rows
  have hc : 1 ≤ cols := by split at hcols <;> omega
  have hr : 1 ≤ rows := by split at hrows <;> omega
  have hs : scrollbackLines = 200 := rfl
  split
  next hsame => exact ⟨h hsame.2.2, fun x hx => by cases hx⟩
  · refine ⟨⟨hc, hr, rfl, ⟨Int.le_refl 0, hc⟩, ?_, ?_, ?_⟩, ?_⟩
    · dsimp only
      omega
    · dsimp only
      omega
    · dsimp only
      omega
    · intro x hx
      dsimp only at hx
      split at hx
      · exact ring_range hc (show 0 < rows + scrollbackLines by omega) x hx
      · cases hx

lemma terminalClear_safe (h : t.Ok) : Safe t (terminalClear t) := by
  have hc := h.cols
  have ht := h.total_pos
  unfold terminalClear
  cases hcells : t.cells with
  | none => exact Safe.refl h
  | some b =>
    refine ⟨⟨hc, h.rows, h.total, ⟨Int.le_refl 0, hc⟩, ⟨Int.le_refl 0, ht⟩, ⟨Int.le_refl 1, ht⟩, ?_⟩,
      ⟨rfl, rfl, rfl, by rw [hcells]; rfl⟩, ring_range hc ht⟩
    dsimp only
    omega

lemma terminalScrollUp_safe (h : t.Ok) : Safe t (terminalScrollUp t, []) := by
  have hm := h.maxOffset
  have hv := h.view
  unfold terminalScrollUp
  split
  · refine ⟨⟨h.cols, h.rows, h.total, h.cursor, h.head, h.count, ?_⟩, ⟨rfl, rfl, rfl, rfl⟩,
      fun x hx => by cases hx⟩
    dsimp only
    omega
  · exact Safe.refl h

lemma terminalScrollDown_safe (h : t.Ok) : Safe t (terminalScrollDown t, []) := by
  have hv := h.view
  unfold terminalScrollDown
  split
  · refine ⟨⟨h.cols, h.rows, h.total, h.cursor, h.head, h.count, ?_⟩, ⟨rfl, rfl, rfl, rfl⟩,
      fun x hx => by cases hx⟩
    dsimp only
    omega
  · exact Safe.refl h

lemma clampView_eq (h : t.Ok) : clampView t = t := by
  have hv := h.view
  unfold clampView
  rw [h.maxOffset, if_neg (by omega)]

lemma terminalRender_safe (h : t.Ok) : Safe t (terminalRender t) := by
  unfold terminalRender
  split
  · exact Safe.refl h
  · rw [clampView_eq h]
    refine ⟨h, ⟨rfl, rfl, rfl, rfl⟩, ?_⟩
    intro x hx
    obtain ⟨row, -, hx⟩ := mem_flatMap.mp hx
    exact h.row_range _ (Int.le_refl _) x hx

lemma terminalPaste_safe (h : t.Ok) : Safe t (terminalPaste t) := by
  unfold terminalPaste
  cases t.clipboard with
  | none => exact Safe.refl h
  | some b =>
    dsimp only
    split
    · exact Safe.refl h
    · exact terminalPrint_safe h _

end Calls

/-! ## Copying to the clipboard -/

section Copy
variable {t : Terminal} {b : Block}

lemma lineEnd_le (start : Int) (e : Nat) : (lineEnd b start e).1 ≤ e := by
  induction e with
  | zero => exact Nat.le_refl 0
  | succ e ih =>
    rw [lineEnd]
    split
    · exact Nat.le_succ_of_le ih
    · exact Nat.le_refl _

lemma Terminal.Ok.lineEnd_log (h : t.Ok) (line : Int) {e : Nat} (he : (e : Int) ≤ t.cols) :
    ∀ x ∈ (lineEnd b (terminalLinePtr t line) e).2, x.InBounds t := by
  induction e with
  | zero => exact fun x hx => by cases hx
  | succ e ih =>
    have hcell := h.row_cell line (j := e) (by omega) (by omega)
    intro x hx
    rw [lineEnd] at hx
    split at hx
    · rcases mem_cons.mp hx with rfl | hx
      · exact hcell
      · exact ih (by omega) x hx
    · rw [mem_singleton.mp hx]
      exact hcell

lemma Terminal.Ok.withCap (h : t.Ok) (cap : Nat) : Terminal.Ok { t with clipboardCap := cap } :=
  ⟨h.cols, h.rows, h.total, h.cursor, h.head, h.count, h.view⟩

lemma neededLoop_log (h : t.Ok) (cap n : Nat) (line : Int) (needed : Nat) :
    ∀ x ∈ (neededLoop t b n line needed).2, x.InBounds { t with clipboardCap := cap } := by
  have hc := h.cols
  induction n generalizing line needed with
  | zero => exact fun x hx => by cases hx
  | succ n ih =>
    intro x hx
    rcases mem_append.mp hx with hx | hx
    · exact (h.withCap cap).lineEnd_log line (by dsimp only; omega) x hx
    · exact ih _ _ x hx

lemma copyLoop_pos {t' : Terminal} (hc : t'.cols = t.cols) (ht : t'.totalLines = t.totalLines) (n : Nat)
    (line : Int) (pos : Nat) (clip : Nat → UInt8) :
    (copyLoop t' b n line pos clip).1.1 = (neededLoop t b n line pos).1 := by
  have hptr : ∀ line, terminalLinePtr t' line = terminalLinePtr t line := by
    intro line
    rw [terminalLinePtr, terminalLinePtr, terminalLineIndex, terminalLineIndex, hc, ht]
  induction n generalizing line pos clip with
  | zero => rfl
  | succ n ih =>
    rw [copyLoop, neededLoop]
    dsimp only
    rw [ih, hptr, hc, Nat.add_assoc]

lemma copyLoop_le (n : Nat) (line : Int) (pos : Nat) (clip : Nat → UInt8) :
    pos ≤ (copyLoop t b n line pos clip).1.1 := by
  induction n generalizing line pos clip with
  | zero => exact Nat.le_refl pos
  | succ n ih =>
    rw [copyLoop]
    exact Nat.le_trans (by omega) (ih _ _ _)

lemma copyLoop_log (h : t.Ok) {cap : Nat} (n : Nat) (line : Int) (pos : Nat) (clip : Nat → UInt8)
    (hcap : (copyLoop t b n line pos clip).1.1 < cap) :
    ∀ x ∈ (copyLoop t b n line pos clip).2, x.InBounds { t with clipboardCap := cap } := by
  have hok := h.withCap cap
  have hc := h.cols
  induction n generalizing line pos clip with
  | zero => exact fun x hx => by cases hx
  | succ n ih =>
    intro x hx
    rw [copyLoop] at hx hcap
    dsimp only at hx hcap
    have hend := lineEnd_le (b := b) (terminalLinePtr t line) t.cols.toNat
    have hle := copyLoop_le (t := t) (b := b) n (line + 1)
      (pos + (lineEnd b (terminalLinePtr t line) t.cols.toNat).1 + 1)
      (copyLine b (terminalLinePtr t line) (lineEnd b (terminalLinePtr t line) t.cols.toNat).1 pos clip)
    rcases mem_append.mp hx with hx | hx
    · rcases mem_append.mp hx with hx | hx
      · rcases mem_append.mp hx with hx | hx
        · exact hok.lineEnd_log line (by dsimp only; omega) x hx
        · exact hok.row_range line (by dsimp only; omega) x hx
      · obtain ⟨i, hi, rfl⟩ := mem_map.mp hx
        have := mem_range.mp hi
        unfold Access.InBounds
        dsimp only
        omega
    · exact ih _ _ _ hcap x hx

lemma terminalCopyVisible_ok (h : t.Ok) (mem : Option (Nat → UInt8)) :
    (terminalCopyVisible t mem).1.Ok ∧
      ∀ x ∈ (terminalCopyVisible t mem).2, x.InBounds (terminalCopyVisible t mem).1 := by
  unfold terminalCopyVisible
  rw [clampView_eq h]
  cases t.cells with
  | none => exact ⟨h, fun x hx => by cases hx⟩
  | some b =>
    dsimp only
    have hfirst := fun cap => neededLoop_log (b := b) h cap t.rows.toNat (topLine t) 0
    split
    · exact ⟨h, hfirst t.clipboardCap⟩
    · -- the old clipboard is released first, which the two passes do not see
      generalize ht' : (if t.clipboard.isSome then { t with clipboard := none, clipboardCap := 0 } else t) = t'
      obtain ⟨hok, hcols, hrows, htotal, htop⟩ : t'.Ok ∧ t'.cols = t.cols ∧ t'.rows = t.rows ∧
          t'.totalLines = t.totalLines ∧ topLine t' = topLine t := by
        subst ht'
        split
        · exact ⟨⟨h.cols, h.rows, h.total, h.cursor, h.head, h.count, h.view⟩, rfl, rfl, rfl, rfl⟩
        · exact ⟨h, rfl, rfl, rfl, rfl⟩
      cases mem with
      | none =>
        refine ⟨⟨hok.cols, hok.rows, hok.total, hok.cursor, hok.head, hok.count, hok.view⟩, ?_⟩
        intro x hx
        apply inBounds_of_dims _ _ _ (hfirst t'.clipboardCap x hx)
        · exact hcols
        · exact htotal
        · rfl
      | some m =>
        refine ⟨⟨hok.cols, hok.rows, hok.total, hok.cursor, hok.head, hok.count, hok.view⟩, ?_⟩
        have hpos := copyLoop_pos (b := b) hcols htotal t.rows.toNat (topLine t) 0 m
        dsimp only
        rw [hrows, htop]
        intro x hx
        rcases mem_append.mp hx with hx | hx
        · rcases mem_append.mp hx with hx | hx
          · apply inBounds_of_dims _ _ _
              (hfirst ((neededLoop t b t.rows.toNat (topLine t) 0).1 + 1) x hx)
            · exact hcols
            · exact htotal
            · rfl
          · have hsecond := copyLoop_log (b := b) hok t.rows.toNat (topLine t) 0 m
              (show _ < (neededLoop t b t.rows.toNat (topLine t) 0).1 + 1 by omega) x hx
            exact inBounds_of_dims rfl rfl rfl hsecond
        · rw [mem_singleton.mp hx]
          unfold Access.InBounds
          dsimp only
          omega

lemma terminalCopyVisible_cells (h : t.Ok) (mem : Option (Nat → UInt8)) :
    (terminalCopyVisible t mem).1.cells = t.cells ∧ (terminalCopyVisible t mem).1.cols = t.cols ∧
      (terminalCopyVisible t mem).1.totalLines = t.totalLines := by
  unfold terminalCopyVisible
  rw [clampView_eq h]
  cases hcells : t.cells with
  | none => exact ⟨hcells, rfl, rfl⟩
  | some b =>
    dsimp only
    split
    · exact ⟨hcells, rfl, rfl⟩
    · cases mem with
      | none =>
        dsimp only
        split <;> exact ⟨hcells, rfl, rfl⟩
      | some m =>
        dsimp only
        split <;> exact ⟨hcells, rfl, rfl⟩

end Copy

/-! ## Every run -/

/-- Bounds of a terminal on a screen: nowhere negative in height, and with fewer than 2^31 cells. -/
def BoundsFit (w h : Int) : Prop :=
  (0 ≤ h ∧ h < 2 ^ 31) ∧ w.tdiv fontWidth * (h.tdiv fontHeight + scrollbackLines) < 2 ^ 31

def TermAction.Fits : TermAction → Prop
  | .init w h _ => BoundsFit w h
  | .setBounds w h _ => BoundsFit w h
  | _ => True

/-- The block of the cells is as large as the ring. -/
def Terminal.Sized (t : Terminal) : Prop :=
  ∀ n, t.cells.map Block.size = some n → t.cols * t.totalLines ≤ n

section Run
variable {t : Terminal}

lemma Terminal.Ok.call (h : t.Ok) (a : TermAction) :
    (t.call a).1.Ok ∧ ∀ x ∈ (t.call a).2, x.InBounds (t.call a).1 := by
  have hsafe : ∀ {r}, Safe t r → r.1.Ok ∧ ∀ x ∈ r.2, x.InBounds r.1 := fun hs =>
    ⟨hs.ok, fun x hx => inBounds_of_dims hs.dims.cols hs.dims.total hs.dims.cap (hs.log x hx)⟩
  cases a with
  | init w h mem => exact terminalAllocCells_ok (fun hs => by cases hs) mem
  | setBounds w h' mem =>
    exact terminalAllocCells_ok (t := { t with w := w, h := h' })
      (fun _ => ⟨h.cols, h.rows, h.total, h.cursor, h.head, h.count, h.view⟩) mem
  | clear => exact hsafe (terminalClear_safe h)
  | putc c => exact hsafe (terminalPutc_safe h c)
  | print s => exact hsafe (terminalPrint_safe h s)
  | scrollUp => exact hsafe (terminalScrollUp_safe h)
  | scrollDown => exact hsafe (terminalScrollDown_safe h)
  | render => exact hsafe (terminalRender_safe h)
  | copyVisible mem => exact terminalCopyVisible_ok h mem
  | paste => exact hsafe (terminalPaste_safe h)

lemma le_toSize_toInt {n : Int} (h0 : 0 ≤ n) (hn : n < 2 ^ 32) : n ≤ toSize (toInt n) := by
  unfold toSize toInt Int.bmod
  dsimp only
  split <;> omega

lemma terminalAllocCells_sized (hfit : BoundsFit t.w t.h) (hs : t.Sized) (mem : Option (Nat → UInt8)) :
    (terminalAllocCells t mem).1.Sized := by
  obtain ⟨⟨h0, hh⟩, hw⟩ := hfit
  unfold terminalAllocCells
  dsimp only
  generalize hcols : (if t.w.tdiv fontWidth < 1 then 1 else t.w.tdiv fontWidth) = cols
  generalize hrows : (if t.h.tdiv fontHeight < 1 then 1 else t.h.tdiv fontHeight) = rows
  split
  · exact hs
  · intro n hn
    cases mem with
    | none => cases hn
    | some m =>
      cases hn
      have hlines : scrollbackLines = 200 := rfl
      have hq : 0 ≤ t.h.tdiv fontHeight ∧ t.h.tdiv fontHeight < 2 ^ 27 := by
        rw [fontHeight, Int.tdiv_eq_ediv_of_nonneg h0]
        omega
      have hr : 1 ≤ rows ∧ rows ≤ t.h.tdiv fontHeight + 1 := by split at hrows <;> omega
      have hc : 1 ≤ cols ∧ (cols = 1 ∨ cols = t.w.tdiv fontWidth) := by split at hcols <;> omega
      have hsmall : cols * (rows + scrollbackLines) < 2 ^ 32 := by
        rcases hc.2 with rfl | rfl
        · omega
        · -- one row more than the bounds say doubles the product at most
          have hmore := Int.mul_le_mul_of_nonneg_left
            (show rows + scrollbackLines ≤ 2 * (t.h.tdiv fontHeight + scrollbackLines) by omega)
            (show 0 ≤ t.w.tdiv fontWidth by omega)
          rw [Int.mul_left_comm] at hmore
          omega
      have hpos : 0 ≤ cols * (rows + scrollbackLines) := Int.mul_nonneg (by omega) (by omega)
      exact le_toSize_toInt hpos hsmall

lemma Terminal.Sized.call (h : t.Ok) (hs : t.Sized) {a : TermAction} (ha : a.Fits) : (t.call a).1.Sized := by
  have hsafe : ∀ {r}, Safe t r → r.1.Sized := by
    intro r hsafe n hn
    rw [hsafe.dims.block] at hn
    rw [hsafe.dims.cols, hsafe.dims.total]
    exact hs n hn
  cases a with
  | init w h mem =>
    exact terminalAllocCells_sized (t := ⟨w, h, 0, 0, 0, 0, 0, 0, 0, none, none, 0, 0⟩) ha
      (fun n hn => by cases hn) mem
  | setBounds w h' mem => exact terminalAllocCells_sized (t := { t with w := w, h := h' }) ha hs mem
  | clear => exact hsafe (terminalClear_safe h)
  | putc c => exact hsafe (terminalPutc_safe h c)
  | print s => exact hsafe (terminalPrint_safe h s)
  | scrollUp => exact hsafe (terminalScrollUp_safe h)
  | scrollDown => exact hsafe (terminalScrollDown_safe h)
  | render => exact hsafe (terminalRender_safe h)
  | copyVisible mem =>
    obtain ⟨hcells, hcols, htotal⟩ := terminalCopyVisible_cells h mem
    unfold Terminal.call Terminal.Sized
    rw [hcells, hcols, htotal]
    exact hs
  | paste => exact hsafe (terminalPaste_safe h)

end Run

lemma terminalInit_ok (w h : Int) (mem : Option (Nat → UInt8)) : (terminalInit w h mem).1.Ok :=
  (terminalAllocCells_ok (fun hs => by cases hs) mem).1

lemma Terminal.ok_of_run {w h : Int} {mem : Option (Nat → UInt8)} {as : List TermAction} {t : Terminal}
    (hrun : Run Terminal.step (terminalInit w h mem).1 as t) : t.Ok := by
  apply hrun.invariant_along (G := fun _ _ => True) Terminal.Ok
  · intro t a t' hok _ hstep
    cases hstep
    exact (hok.call a).1
  · exact terminalInit_ok w h mem
  · exact Along.of_forall (fun _ _ => trivial) _ _

/-- After any calls the fields of a terminal are in range, and no call touches a cell outside the ring
or a byte outside the clipboard; and the block of the cells is as large as the ring, where the bounds
are those of a screen. -/
theorem terminal_in_bounds (w h : Int) (mem : Option (Nat → UInt8)) (as : List TermAction) (t : Terminal)
    (hrun : Run Terminal.step (terminalInit w h mem).1 as t) :
    (t.cells ≠ none →
      (0 ≤ t.cursorX ∧ t.cursorX < t.cols) ∧ (0 ≤ t.lineHead ∧ t.lineHead < t.totalLines) ∧
      (1 ≤ t.lineCount ∧ t.lineCount ≤ t.totalLines) ∧
      (0 ≤ t.viewOffset ∧ t.viewOffset ≤ terminalMaxOffset t)) ∧
    (∀ a, ∀ x ∈ (t.call a).2, x.InBounds (t.call a).1) ∧
    (BoundsFit w h → (∀ a ∈ as, a.Fits) → t.Sized) := by
  have hok := Terminal.ok_of_run hrun
  refine ⟨fun _ => ⟨hok.cursor, hok.head, hok.count, ?_⟩, fun a => (hok.call a).2, ?_⟩
  · rw [hok.maxOffset]
    exact hok.view
  · intro hfit hfits
    have hsized : (terminalInit w h mem).1.Sized :=
      terminalAllocCells_sized (t := ⟨w, h, 0, 0, 0, 0, 0, 0, 0, none, none, 0, 0⟩) hfit
        (fun n hn => by cases hn) mem
    have hstart := terminalInit_ok w h mem
    clear hok
    generalize (terminalInit w h mem).1 = s at hrun hstart hsized
    induction hrun with
    | nil => exact hsized
    | @cons s t u a as hstep _ ih =>
      cases hstep
      apply ih (fun a ha => hfits a (mem_cons_of_mem _ ha)) (hstart.call a).1
      exact hsized.call hstart (hfits a mem_cons_self)

/-- A terminal of 16 cells and one of 24, with a newline, a scrolling and a copy. -/
theorem terminal_in_bounds_small :
    ∃ t, Run Terminal.step (terminalInit 128 16 (some fun _ => 0)).1
        [.print [104, 105, 10], .setBounds 192 16 (some fun _ => 0), .putc 104, .scrollUp,
          .copyVisible (some fun _ => 0), .paste] t ∧
      t.cells ≠ none ∧ t.Sized := by
  have hrun : Run Terminal.step (terminalInit 128 16 (some fun _ => 0)).1
      [.print [104, 105, 10], .setBounds 192 16 (some fun _ => 0), .putc 104, .scrollUp,
        .copyVisible (some fun _ => 0), .paste] _ := Run.of_exec rfl
  have hbounds := terminal_in_bounds 128 16 (some fun _ => 0) _ _ hrun
  refine ⟨_, hrun, ?_, hbounds.2.2 ?_ ?_⟩
  · exact Option.ne_none_iff_isSome.mpr rfl
  · exact ⟨⟨by decide, by decide⟩, by decide⟩
  · intro a ha
    simp only [mem_cons, not_mem_nil, or_false] at ha
    rcases ha with rfl | rfl | rfl | rfl | rfl | rfl
    · trivial
    · exact ⟨⟨by decide, by decide⟩, by decide⟩
    all_goals trivial

end FusionOS.Ui
