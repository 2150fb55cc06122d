import Mathlib.Data.List.Perm.Basic

/-!
# Bubble sort

Nested loops that exchange neighbours of an array, here a list. `gt a b` says that `a` belongs
behind `b`; it is the complement of a total preorder.
-/

namespace FusionOS.Bubble

open List

universe u
variable {α : Type u} (gt : α → α → Bool)

/-- Exchanges the neighbours at `j` and `j + 1` if the first belongs behind the second. -/
def exchange (xs : List α) (j : Nat) : List α :=
  match xs[j]?, xs[j + 1]? with
  | some a, some b => if gt a b then (xs.set j b).set (j + 1) a else xs
  | _, _ => xs

/-- The inner loop, over the first `m` pairs of neighbours. -/
def pass (xs : List α) (m : Nat) : List α := (List.range m).foldl (exchange gt) xs

/-- The outer loop over the first `n` elements; each pass is one pair shorter than the last. -/
def bubbleSort (n : Nat) (xs : List α) : List α :=
  (List.range (n - 1)).foldl (fun ys i => pass gt ys (n - 1 - i)) xs

def tied (a b : α) : Bool := !gt a b && !gt b a

/-- The complement of `gt` is a total preorder. -/
structure Weak : Prop where
  asymm : ∀ {a b}, gt a b = true → gt b a = false
  trans : ∀ {a b c}, gt a b = false → gt b c = false → gt a c = false

structure Rearranged (ys xs : List α) : Prop where
  perm : ys.Perm xs
  order : ∀ e, ys.filter (tied gt e) = xs.filter (tied gt e)

variable {gt}

namespace Rearranged
variable {xs ys zs ws : List α}

lemma refl (xs : List α) : Rearranged gt xs xs := ⟨.refl xs, fun _ => rfl⟩

lemma trans (hyx : Rearranged gt ys xs) (hzy : Rearranged gt zs ys) : Rearranged gt zs xs :=
  ⟨hzy.perm.trans hyx.perm, fun e => (hzy.order e).trans (hyx.order e)⟩

lemma append (hys : Rearranged gt ys xs) (hws : Rearranged gt ws zs) :
    Rearranged gt (ys ++ ws) (xs ++ zs) := by
  refine ⟨hys.perm.append hws.perm, fun e => ?_⟩
  rw [filter_append, filter_append, hys.order, hws.order]

lemma swap (hgt : Weak gt) {a b : α} (hab : gt a b = true) : Rearranged gt [b, a] [a, b] := by
  refine ⟨.swap a b [], fun e => ?_⟩
  by_cases ha : tied gt e a = true
  · by_cases hb : tied gt e b = true
    · simp only [tied, Bool.and_eq_true, Bool.not_eq_true'] at ha hb
      rw [hgt.trans ha.2 hb.1] at hab
      cases hab
    · rw [filter_cons_of_neg hb, filter_cons_of_pos ha, filter_cons_of_pos ha,
        filter_cons_of_neg hb]
  · simp [filter_cons, ha]

end Rearranged

lemma exchange_middle {pre : List α} {m : Nat} (hm : pre.length = m) (a b : α) (post : List α) :
    exchange gt (pre ++ a :: b :: post) m =
      if gt a b then pre ++ b :: a :: post else pre ++ a :: b :: post := by
  subst hm
  simp [exchange]

lemma pass_succ (xs : List α) (m : Nat) : pass gt xs (m + 1) = exchange gt (pass gt xs m) m := by
  rw [pass, range_succ, foldl_append]
  rfl

section Sorts
variable (hgt : Weak gt)
include hgt

lemma pass_carries {xs : List α} {m : Nat} (hm : m < xs.length) :
    ∃ pre a, pass gt xs m = pre ++ a :: xs.drop (m + 1) ∧ pre.length = m ∧
      (∀ x ∈ pre, gt x a = false) ∧ Rearranged gt (pre ++ [a]) (xs.take (m + 1)) := by
  induction m with
  | zero =>
    obtain ⟨a, xs, rfl⟩ := exists_cons_of_length_pos hm
    exact ⟨[], a, rfl, rfl, fun x hx => absurd hx not_mem_nil, .refl [a]⟩
  | succ m ih =>
    obtain ⟨pre, a, hpass, hlen, hmax, hre⟩ := ih (by omega)
    obtain ⟨b, hdrop, htake⟩ : ∃ b, xs.drop (m + 1) = b :: xs.drop (m + 1 + 1) ∧
        xs.take (m + 1 + 1) = xs.take (m + 1) ++ [b] :=
      ⟨xs[m + 1], drop_eq_getElem_cons hm, take_succ_eq_append_getElem hm⟩
    have hgrown := hre.append (.refl [b])
    rw [← htake, append_assoc, singleton_append] at hgrown
    rw [pass_succ, hpass, hdrop, exchange_middle hlen]
    by_cases hab : gt a b = true
    · rw [if_pos hab]
      refine ⟨pre ++ [b], a, by simp, by simp [hlen], ?_, ?_⟩
      · intro x hx
        rcases mem_append.mp hx with hx | hx
        · exact hmax x hx
        · rw [mem_singleton.mp hx]
          exact hgt.asymm hab
      · rw [append_assoc]
        exact hgrown.trans ((Rearranged.refl pre).append (.swap hgt hab))
    · have hle : gt a b = false := by simpa using hab
      rw [if_neg hab]
      refine ⟨pre ++ [a], b, by simp, by simp [hlen], ?_, by simpa using hgrown⟩
      intro x hx
      rcases mem_append.mp hx with hx | hx
      · exact hgt.trans (hmax x hx) hle
      · rw [mem_singleton.mp hx]
        exact hle

lemma passes_sort {xs : List α} {n i : Nat} (hn : n ≤ xs.length) (hi : i < n) :
    ∃ front back, (List.range i).foldl (fun ys k => pass gt ys (n - 1 - k)) xs =
        front ++ (back ++ xs.drop n) ∧ front.length = n - i ∧
      back.Pairwise (fun a b => gt a b = false) ∧ (∀ x ∈ front, ∀ y ∈ back, gt x y = false) ∧
      Rearranged gt (front ++ back) (xs.take n) := by
  induction i with
  | zero => exact ⟨xs.take n, [], by simp, by simp [hn], .nil, by simp, by simpa using .refl _⟩
  | succ i ih =>
    obtain ⟨front, back, hrun, hlen, hsorted, hbelow, hre⟩ := ih (by omega)
    have hm : n - 1 - i < (front ++ (back ++ xs.drop n)).length := by
      rw [length_append]
      omega
    have hend : n - 1 - i + 1 = front.length := by omega
    obtain ⟨pre, a, hpass, hpre, hmax, hcarried⟩ := pass_carries hgt hm
    rw [hend, drop_left] at hpass
    rw [hend, take_left] at hcarried
    have hmem : ∀ x ∈ pre ++ [a], x ∈ front := fun x hx => hcarried.perm.mem_iff.mp hx
    refine ⟨pre, a :: back, ?_, by omega, ?_, ?_, ?_⟩
    · rw [range_succ, foldl_append, hrun]
      exact hpass
    · refine pairwise_cons.mpr ⟨fun y hy => ?_, hsorted⟩
      exact hbelow a (hmem a (mem_append_right _ (mem_singleton.mpr rfl))) y hy
    · intro x hx y hy
      rcases mem_cons.mp hy with rfl | hy
      · exact hmax x hx
      · exact hbelow x (hmem x (mem_append_left _ hx)) y hy
    · have hfront := hre.trans (hcarried.append (.refl back))
      rwa [append_assoc, singleton_append] at hfront

lemma bubbleSort_sorts {xs : List α} {n : Nat} (hn : n ≤ xs.length) :
    ∃ ys, bubbleSort gt n xs = ys ++ xs.drop n ∧ ys.length = n ∧
      ys.Pairwise (fun a b => gt a b = false) ∧ Rearranged gt ys (xs.take n) := by
  rcases Nat.eq_zero_or_pos n with rfl | hpos
  · exact ⟨[], rfl, rfl, .nil, .refl []⟩
  · obtain ⟨front, back, hrun, hlen, hsorted, hbelow, hre⟩ := passes_sort hgt hn (i := n - 1) (by omega)
    obtain ⟨a, rfl⟩ := length_eq_one_iff.mp (show front.length = 1 by omega)
    refine ⟨[a] ++ back, by rw [bubbleSort, hrun, append_assoc], ?_, ?_, hre⟩
    · rw [hre.perm.length_eq, length_take]
      omega
    · exact pairwise_cons.mpr ⟨hbelow a mem_cons_self, hsorted⟩

end Sorts

end FusionOS.Bubble
