import Mathlib.Logic.Function.Basic
import Mathlib.Data.List.Nodup

/-!
# Chains in a link table

A table gives every node a link, and a chain follows the links from a node until one of them is a
terminator.
-/

namespace FusionOS

open List
open Function (update update_of_ne update_self)

universe u
variable {α : Type u}

/-- `Chain Node Stop next a l`: from `a` on, the links lead through the nodes `l` to a
terminator. -/
inductive Chain (Node Stop : α → Prop) (next : α → α) : α → List α → Prop where
  | last {a : α} : Node a → Stop (next a) → Chain Node Stop next a [a]
  | cons {a : α} {l : List α} : Node a → Chain Node Stop next (next a) l →
      Chain Node Stop next a (a :: l)

namespace Chain
variable {Node Stop : α → Prop} {next next' : α → α} {a b c : α} {l l' : List α}

lemma eq_cons (h : Chain Node Stop next a l) : ∃ t, l = a :: t := by
  cases h with
  | last => exact ⟨[], rfl⟩
  | cons => exact ⟨_, rfl⟩

lemma head_eq (h : Chain Node Stop next a (b :: l)) : b = a := by
  obtain ⟨t, heq⟩ := h.eq_cons
  exact (List.cons.inj heq).1

lemma ne_nil (h : Chain Node Stop next a l) : l ≠ [] := by
  obtain ⟨t, rfl⟩ := h.eq_cons
  exact cons_ne_nil a t

lemma head_mem (h : Chain Node Stop next a l) : a ∈ l := by
  obtain ⟨t, rfl⟩ := h.eq_cons
  exact mem_cons_self

lemma node_head (h : Chain Node Stop next a l) : Node a := by
  cases h with
  | last hn => exact hn
  | cons hn => exact hn

lemma node (h : Chain Node Stop next a l) : ∀ x ∈ l, Node x := by
  induction h with
  | last hn =>
    intro x hx
    rw [mem_singleton.mp hx]
    exact hn
  | cons hn _ ih =>
    intro x hx
    rcases mem_cons.mp hx with rfl | hx
    · exact hn
    · exact ih x hx

lemma unique (hd : ∀ x, Node x → ¬ Stop x) (h : Chain Node Stop next a l)
    (h' : Chain Node Stop next a l') : l = l' := by
  induction h generalizing l' with
  | last _ hs =>
    cases h' with
    | last => rfl
    | cons _ ht => exact absurd hs (hd _ ht.node_head)
  | cons _ ht ih =>
    cases h' with
    | last _ hs => exact absurd hs (hd _ ht.node_head)
    | cons _ ht' => rw [ih ht']

lemma drop (h : Chain Node Stop next a l) (hb : b ∈ l) :
    ∃ l1 l2, l = l1 ++ l2 ∧ Chain Node Stop next b l2 := by
  induction h with
  | @last a hn hs =>
    rw [mem_singleton.mp hb]
    exact ⟨[], [a], rfl, .last hn hs⟩
  | @cons a t hn ht ih =>
    rcases mem_cons.mp hb with rfl | hb
    · exact ⟨[], b :: t, rfl, .cons hn ht⟩
    · obtain ⟨l1, l2, rfl, h2⟩ := ih hb
      exact ⟨a :: l1, l2, rfl, h2⟩

lemma nodup (hd : ∀ x, Node x → ¬ Stop x) (h : Chain Node Stop next a l) : l.Nodup := by
  induction h with
  | last => exact nodup_singleton _
  | @cons a t hn ht ih =>
    refine nodup_cons.mpr ⟨fun hmem => ?_, ih⟩
    -- a second visit of `a` would give it two chains of different lengths
    obtain ⟨l1, l2, hsplit, h2⟩ := ht.drop hmem
    have heq := unique hd h2 (.cons hn ht)
    have hlen := congrArg List.length hsplit
    rw [heq, length_append, length_cons] at hlen
    omega

lemma congr (h : Chain Node Stop next a l) (hn : ∀ x ∈ l, next' x = next x) :
    Chain Node Stop next' a l := by
  induction h with
  | last hna hs =>
    apply Chain.last hna
    rw [hn _ mem_cons_self]
    exact hs
  | cons hna _ ih =>
    apply Chain.cons hna
    rw [hn _ mem_cons_self]
    exact ih fun x hx => hn x (mem_cons_of_mem _ hx)

lemma stop_getLast (h : Chain Node Stop next a l) : Stop (next (l.getLast h.ne_nil)) := by
  induction h with
  | last _ hs => exact hs
  | cons _ ht ih =>
    rw [getLast_cons ht.ne_nil]
    exact ih

lemma append (h : Chain Node Stop next a l) (hnd : l.Nodup)
    (hc : Chain Node Stop next' c l') (heq : ∀ x ∈ l.dropLast, next' x = next x)
    (hlast : next' (l.getLast h.ne_nil) = c) : Chain Node Stop next' a (l ++ l') := by
  induction h with
  | @last a hn _ =>
    apply Chain.cons hn
    rw [show next' a = c from hlast]
    exact hc
  | @cons a t hn ht ih =>
    have hdl : (a :: t).dropLast = a :: t.dropLast := dropLast_cons_of_ne_nil ht.ne_nil
    rw [getLast_cons ht.ne_nil] at hlast
    apply Chain.cons hn
    rw [heq a (by rw [hdl]; exact mem_cons_self)]
    refine ih (nodup_cons.mp hnd).2 (fun x hx => heq x ?_) hlast
    rw [hdl]
    exact mem_cons_of_mem _ hx

lemma redirect [DecidableEq α] (h : Chain Node Stop next a l) (hnd : l.Nodup)
    (hc : Chain Node Stop next c l') (hout : l.getLast h.ne_nil ∉ l') :
    Chain Node Stop (update next (l.getLast h.ne_nil) c) a (l ++ l') := by
  refine h.append hnd (c := c) ?_ ?_ ?_
  · apply hc.congr
    intro x hx
    apply update_of_ne
    rintro rfl
    exact hout hx
  · intro x hx
    apply update_of_ne
    rintro rfl
    have hsplit := dropLast_append_getLast h.ne_nil
    rw [← hsplit] at hnd
    exact (nodup_append.mp hnd).2.2 _ hx _ (mem_singleton_self _) rfl
  · exact update_self ..

lemma restop [DecidableEq α] (h : Chain Node Stop next a l) (hnd : l.Nodup) (hs : Stop c) :
    Chain Node Stop (update next (l.getLast h.ne_nil) c) a l := by
  induction h with
  | @last a hn _ =>
    apply Chain.last hn
    rw [getLast_singleton, update_self]
    exact hs
  | @cons a t hn ht ih =>
    have hout := (nodup_cons.mp hnd).1
    have hne : a ≠ t.getLast ht.ne_nil := by
      intro heq
      apply hout
      rw [heq]
      exact getLast_mem _
    rw [getLast_cons ht.ne_nil]
    apply Chain.cons hn
    rw [update_of_ne hne]
    exact ih (nodup_cons.mp hnd).2

lemma next_mem (h : Chain Node Stop next a l) : ∀ x ∈ l, next x ∈ l ∨ Stop (next x) := by
  induction h with
  | last _ hs =>
    intro x hx
    rw [mem_singleton.mp hx]
    exact .inr hs
  | cons _ ht ih =>
    intro x hx
    rcases mem_cons.mp hx with rfl | hx
    · exact .inl (mem_cons_of_mem _ ht.head_mem)
    · rcases ih x hx with hm | hs
      · exact .inl (mem_cons_of_mem _ hm)
      · exact .inr hs

lemma link (h : Chain Node Stop next a l) : ∀ x ∈ l, Node (next x) ∨ Stop (next x) := by
  intro x hx
  rcases h.next_mem x hx with hm | hs
  · exact .inl (h.node _ hm)
  · exact .inr hs

lemma cut (h : Chain Node Stop next a l) (hcut : ∀ x, next' x = next x ∨ Stop (next' x)) :
    ∃ l', Chain Node Stop next' a l' := by
  induction h with
  | @last a hn hs =>
    refine ⟨[a], .last hn ?_⟩
    rcases hcut a with heq | hstop
    · rw [heq]
      exact hs
    · exact hstop
  | @cons a t hn ht ih =>
    rcases hcut a with heq | hstop
    · obtain ⟨l', hl'⟩ := ih
      refine ⟨a :: l', .cons hn ?_⟩
      rw [heq]
      exact hl'
    · exact ⟨[a], .last hn hstop⟩

lemma eq_getLast (hd : ∀ x, Node x → ¬ Stop x) (h : Chain Node Stop next a l) (hb : b ∈ l)
    (hs : Stop (next b)) : l.getLast h.ne_nil = b := by
  induction h with
  | last =>
    rw [mem_singleton.mp hb]
    rfl
  | cons _ ht ih =>
    rw [getLast_cons ht.ne_nil]
    rcases mem_cons.mp hb with rfl | hb
    · exact absurd hs (hd _ ht.node_head)
    · exact ih hb

lemma hook [DecidableEq α] (hd : ∀ x, Node x → ¬ Stop x) (h : Chain Node Stop next a l)
    (hs : Stop (next b)) (hn : Node c) (hc : Stop (next c)) (hne : b ≠ c) :
    ∃ l', Chain Node Stop (update next b c) a l' := by
  by_cases hb : b ∈ l
  · have hlast := h.eq_getLast hd hb hs
    have := h.redirect (h.nodup hd) (Chain.last hn hc) (by rw [hlast]; simpa using hne)
    rw [hlast] at this
    exact ⟨_, this⟩
  · refine ⟨l, h.congr fun x hx => update_of_ne ?_ _ _⟩
    rintro rfl
    exact hb hx

lemma stays {Z : α → Prop} (h : Chain Node Stop next a l) (ha : Z a)
    (hZ : ∀ x, Z x → Stop (next x) ∨ Z (next x)) (hd : ∀ x, Node x → ¬ Stop x) : ∀ x ∈ l, Z x := by
  induction h with
  | last =>
    intro x hx
    rw [mem_singleton.mp hx]
    exact ha
  | cons _ ht ih =>
    intro x hx
    rcases mem_cons.mp hx with rfl | hx
    · exact ha
    · exact ih ((hZ _ ha).resolve_left (hd _ ht.node_head)) x hx

end Chain

/-- `Reach Go next a x`: the links lead from `a` to `x`, through nodes only at which a walk goes
on. -/
inductive Reach (Go : α → Prop) (next : α → α) (a : α) : α → Prop where
  | start : Go a → Reach Go next a a
  | step {x : α} : Reach Go next a x → Go (next x) → Reach Go next a (next x)

section Reach
variable {Go : α → Prop} {next : α → α} {a x z : α}

lemma Reach.stays {Z : α → Prop} (h : Reach Go next a x) (ha : Go a → Z a)
    (hZ : ∀ y, Z y → Go (next y) → Z (next y)) : Z x := by
  induction h with
  | start hgo => exact ha hgo
  | step _ hgo ih => exact hZ _ ih hgo

/-- A walk that takes the link out of each node it leaves comes to the same nodes. -/
lemma reach_iff_cleared [DecidableEq α] (ha : Go a) (hz : ¬ Go z) :
    Reach Go next a x ↔ x = a ∨ Reach Go (update next a z) (next a) x := by
  constructor
  · intro h
    induction h with
    | start => exact .inl rfl
    | @step y _ hgo ih =>
      right
      by_cases hy : y = a
      · subst hy
        exact .start hgo
      · rw [← update_of_ne hy z next] at hgo ⊢
        exact .step (ih.resolve_left hy) hgo
  · rintro (rfl | h)
    · exact .start ha
    · induction h with
      | start hgo => exact .step (.start ha) hgo
      | @step y _ hgo ih =>
        have hy : y ≠ a := by
          rintro rfl
          rw [update_self] at hgo
          exact hz hgo
        rw [update_of_ne hy] at hgo ⊢
        exact .step ih hgo

lemma Chain.reach {Node Stop : α → Prop} {l : List α} (h : Chain Node Stop next a l)
    (hn : ∀ y, Node y → Go y) (hs : ∀ y, Stop y → ¬ Go y) : Reach Go next a x ↔ x ∈ l := by
  constructor
  · intro hx
    apply hx.stays fun _ => h.head_mem
    intro y hy hgo
    exact (h.next_mem y hy).resolve_right fun hstop => hs _ hstop hgo
  · suffices ∀ b, Reach Go next b a → ∀ y ∈ l, Reach Go next b y from
      this a (.start (hn a h.node_head)) x
    intro b hb
    induction h with
    | last =>
      intro y hy
      rw [mem_singleton.mp hy]
      exact hb
    | cons _ ht ih =>
      intro y hy
      rcases mem_cons.mp hy with rfl | hy
      · exact hb
      · exact ih (.step hb (hn _ ht.node_head)) y hy

end Reach

end FusionOS
