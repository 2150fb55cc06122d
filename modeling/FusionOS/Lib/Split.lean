import Mathlib.Algebra.GroupWithZero.Nat
import Mathlib.Data.List.Basic
import Mathlib.Data.List.Infix
import Mathlib.Data.List.TakeWhile

/-!
# Texts cut at a separator

A text is read piece by piece: up to the next separator, then on behind it.
-/

namespace FusionOS

open List

variable {α : Type} {sep : α}

lemma doubled_behind_piece {text : List α} (h : sep ∉ text) (rest : List α) :
    [sep, sep] <:+: text ++ sep :: rest ↔ rest.head? = some sep ∨ [sep, sep] <:+: rest := by
  induction text with
  | nil =>
    rw [nil_append, infix_cons_iff, cons_prefix_cons]
    cases rest with
    | nil => simp
    | cons b rest => simp [eq_comm]
  | cons a text ih =>
    rw [mem_cons, not_or] at h
    rw [cons_append, infix_cons_iff, cons_prefix_cons, ih h.2]
    exact or_iff_right fun hfirst => h.1 hfirst.1

variable [DecidableEq α]

lemma split_induction {motive : List α → Prop} (sep : α) (nil : motive [])
    (last : ∀ text, text ≠ [] → sep ∉ text → motive text)
    (more : ∀ text rest, sep ∉ text → motive rest → motive (text ++ sep :: rest)) (xs : List α) :
    motive xs := by
  by_cases hmem : sep ∈ xs
  · obtain ⟨text, rest, heq, htext⟩ := eq_append_cons_of_mem hmem
    have hlt : rest.length < xs.length := by
      rw [heq, length_append, length_cons]
      omega
    rw [heq]
    exact more text rest htext (split_induction sep nil last more rest)
  · by_cases hne : xs = []
    · exact hne ▸ nil
    · exact last xs hne hmem
termination_by xs.length

/-! ## One piece -/

section Piece
variable {text rest : List α}

lemma takeWhile_piece (h : sep ∉ text) : (text ++ sep :: rest).takeWhile (· != sep) = text := by
  have hall : ∀ a ∈ text, (a != sep) = true := fun a ha => bne_iff_ne.mpr fun heq => h (heq ▸ ha)
  rw [takeWhile_append_of_pos hall, takeWhile_cons, bne_self_eq_false]
  exact append_nil text

lemma dropWhile_piece (h : sep ∉ text) :
    (text ++ sep :: rest).dropWhile (· != sep) = sep :: rest := by
  have hall : ∀ a ∈ text, (a != sep) = true := fun a ha => bne_iff_ne.mpr fun heq => h (heq ▸ ha)
  rw [dropWhile_append_of_pos hall, dropWhile_cons, bne_self_eq_false]
  rfl

lemma takeWhile_last (h : sep ∉ text) : text.takeWhile (· != sep) = text :=
  takeWhile_eq_self_iff.mpr fun _ ha => bne_iff_ne.mpr fun heq => h (heq ▸ ha)

lemma dropWhile_last (h : sep ∉ text) : text.dropWhile (· != sep) = [] :=
  dropWhile_eq_nil_iff.mpr fun _ ha => bne_iff_ne.mpr fun heq => h (heq ▸ ha)

end Piece

lemma length_behind_piece {xs : List α} (hne : xs ≠ []) :
    ((xs.dropWhile (· != sep)).drop 1).length < xs.length := by
  have hpos := length_pos_iff.mpr hne
  have hle := (dropWhile_suffix (· != sep) (l := xs)).length_le
  rw [length_drop]
  omega

/-! ## All pieces -/

def pieces (sep : α) (xs : List α) : List (List α) :=
  if _h : xs = [] then []
  else xs.takeWhile (· != sep) :: pieces sep ((xs.dropWhile (· != sep)).drop 1)
termination_by xs.length
decreasing_by exact length_behind_piece _h

def stripLast (sep : α) (xs : List α) : List α := if xs.getLast? = some sep then xs.dropLast else xs

@[simp] lemma pieces_nil : pieces sep [] = [] := by
  rw [pieces, dif_pos rfl]

lemma pieces_last {text : List α} (hne : text ≠ []) (h : sep ∉ text) : pieces sep text = [text] := by
  rw [pieces, dif_neg hne, takeWhile_last h, dropWhile_last h, drop_nil, pieces_nil]

lemma pieces_more {text : List α} (h : sep ∉ text) (rest : List α) :
    pieces sep (text ++ sep :: rest) = text :: pieces sep rest := by
  rw [pieces, dif_neg (append_ne_nil_of_right_ne_nil _ (cons_ne_nil _ _)), takeWhile_piece h,
    dropWhile_piece h, drop_one, tail_cons]

lemma pieces_ne_nil (sep : α) {xs : List α} (hne : xs ≠ []) : pieces sep xs ≠ [] := by
  rw [pieces, dif_neg hne]
  exact cons_ne_nil _ _

lemma stripLast_more {rest : List α} (hne : rest ≠ []) (text : List α) :
    stripLast sep (text ++ sep :: rest) = text ++ sep :: stripLast sep rest := by
  obtain ⟨z, hz⟩ := Option.ne_none_iff_exists'.mp (mt List.getLast?_eq_none_iff.mp hne)
  have hlast : (text ++ sep :: rest).getLast? = some z := by
    rw [List.getLast?_append, List.getLast?_cons, hz]
    rfl
  rw [stripLast, stripLast, hlast, hz]
  split
  · rw [dropLast_append_of_ne_nil (cons_ne_nil _ _), dropLast_cons_of_ne_nil hne]
  · rfl

lemma intercalate_pieces (xs : List α) : [sep].intercalate (pieces sep xs) = stripLast sep xs := by
  induction xs using split_induction sep with
  | nil =>
    rw [pieces_nil]
    rfl
  | last text hne h =>
    rw [pieces_last hne h, intercalate_singleton, stripLast, if_neg]
    exact fun hlast => h (mem_of_getLast? hlast)
  | more text rest h ih =>
    rw [pieces_more h]
    by_cases hrest : rest = []
    · subst hrest
      rw [pieces_nil, intercalate_singleton, stripLast, List.getLast?_concat, if_pos rfl,
        dropLast_concat]
    · obtain ⟨piece, others, hpieces⟩ := exists_cons_of_ne_nil (pieces_ne_nil sep hrest)
      rw [hpieces, intercalate_cons_cons, ← hpieces, ih, stripLast_more hrest, append_assoc]
      rfl

lemma nil_mem_pieces (xs : List α) :
    [] ∈ pieces sep xs ↔ xs.head? = some sep ∨ [sep, sep] <:+: xs := by
  induction xs using split_induction sep with
  | nil => simp
  | last text hne h =>
    rw [pieces_last hne h, mem_singleton]
    refine ⟨fun heq => absurd heq.symm hne, ?_⟩
    rintro (hhead | hdouble)
    · exact absurd (mem_of_head? hhead) h
    · exact absurd (hdouble.subset mem_cons_self) h
  | more text rest h ih =>
    rw [pieces_more h, mem_cons, ih, doubled_behind_piece h]
    cases text with
    | nil => simp
    | cons a text =>
      have hne : a ≠ sep := fun heq => h (heq ▸ mem_cons_self)
      simp [hne]

lemma sep_not_mem_of_mem_pieces {xs piece : List α} (h : piece ∈ pieces sep xs) : sep ∉ piece := by
  induction xs using split_induction sep with
  | nil =>
    rw [pieces_nil] at h
    exact absurd h not_mem_nil
  | last text hne hsep =>
    rw [pieces_last hne hsep, mem_singleton] at h
    exact h ▸ hsep
  | more text rest hsep ih =>
    rw [pieces_more hsep, mem_cons] at h
    rcases h with rfl | h
    · exact hsep
    · exact ih h

lemma length_le_of_mem_pieces {xs piece : List α} (h : piece ∈ pieces sep xs) :
    piece.length ≤ xs.length := by
  induction xs using split_induction sep with
  | nil =>
    rw [pieces_nil] at h
    exact absurd h not_mem_nil
  | last text hne hsep =>
    rw [pieces_last hne hsep, mem_singleton] at h
    exact h ▸ Nat.le_refl _
  | more text rest hsep ih =>
    rw [pieces_more hsep, mem_cons] at h
    rw [length_append, length_cons]
    rcases h with rfl | h
    · omega
    · have := ih h
      omega

lemma sum_pieces_le (xs : List α) :
    ((pieces sep xs).map fun piece => piece.length + 1).sum ≤ xs.length + 1 := by
  induction xs using split_induction sep with
  | nil => simp
  | last text hne h =>
    rw [pieces_last hne h]
    simp
  | more text rest h ih =>
    rw [pieces_more h, map_cons, sum_cons, length_append, length_cons]
    omega

end FusionOS
