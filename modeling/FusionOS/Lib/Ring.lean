import Mathlib.Data.Int.ModEq
import Mathlib.Data.List.Basic
import Mathlib.Data.List.ReduceOption
import Mathlib.Logic.Function.Basic

/-!
# Rings

The contents of a ring of `cap` cells are the `n` cells from `tail` on, with wrap-around. Pushing
writes the cell behind the last one, popping moves `tail` on; the lemmas say what both do to the
contents.
-/

namespace FusionOS

open List
open Function (update update_of_ne update_self)

universe u
variable {α : Type u} {cap tail n : Nat}

/-- The `n` cells of a ring from `tail` on. -/
def ringList (buf : Nat → α) (cap tail n : Nat) : List α :=
  (List.range n).map fun i => buf ((tail + i) % cap)

@[simp] lemma ringList_zero (buf : Nat → α) : ringList buf cap tail 0 = [] := rfl

@[simp] lemma ringList_length (buf : Nat → α) : (ringList buf cap tail n).length = n := by
  rw [ringList, length_map, length_range]

lemma ringList_succ (buf : Nat → α) :
    ringList buf cap tail (n + 1) = buf (tail % cap) :: ringList buf cap ((tail + 1) % cap) n := by
  rw [ringList, range_succ_eq_map, map_cons, map_map, ringList, Nat.add_zero]
  congr 1
  apply map_congr_left
  intro i _
  rw [Function.comp_apply, Nat.mod_add_mod, Nat.add_assoc, Nat.add_comm 1 i]

lemma ring_index_ne {i j : Nat} (hij : i < j) (hj : j < i + cap) :
    (tail + i) % cap ≠ (tail + j) % cap := by
  intro h
  have hdvd : cap ∣ tail + j - (tail + i) := (Nat.modEq_iff_dvd' (by omega)).mp h
  have hle := Nat.le_of_dvd (by omega) hdvd
  omega

lemma ringList_update (buf : Nat → α) (x : α) (hn : n < cap) :
    ringList (update buf ((tail + n) % cap) x) cap tail n = ringList buf cap tail n := by
  apply map_congr_left
  intro i hi
  have hlt := mem_range.mp hi
  exact update_of_ne (ring_index_ne hlt (by omega : n < i + cap)) x buf

lemma ringList_push (buf : Nat → α) (x : α) (hn : n < cap) :
    ringList (update buf ((tail + n) % cap) x) cap tail (n + 1) =
      ringList buf cap tail n ++ [x] := by
  have hlast : ringList (update buf ((tail + n) % cap) x) cap tail n = ringList buf cap tail n :=
    ringList_update buf x hn
  rw [ringList] at hlast
  rw [ringList, range_succ, map_append, hlast, map_singleton, update_self]

/-! ## Bounded queues -/

inductive QueueOp (α : Type u) where
  | push (x : α)
  | pop

section Runs
universe v w
variable {σ : Type v} {τ : Type w}

def runOps (push : σ → α → σ) (pop : σ → Option α × σ) : σ → List (QueueOp α) → σ × List (Option α)
  | s, [] => (s, [])
  | s, .push x :: ops => runOps push pop (push s x) ops
  | s, .pop :: ops => ((runOps push pop (pop s).2 ops).1, (pop s).1 :: (runOps push pop (pop s).2 ops).2)

lemma runOps_sim {push : σ → α → σ} {pop : σ → Option α × σ} {push' : τ → α → τ}
    {pop' : τ → Option α × τ} (R : σ → τ → Prop) (hpush : ∀ s t x, R s t → R (push s x) (push' t x))
    (hpop : ∀ s t, R s t → (pop s).1 = (pop' t).1 ∧ R (pop s).2 (pop' t).2) {s : σ} {t : τ} (h : R s t)
    (ops : List (QueueOp α)) :
    R (runOps push pop s ops).1 (runOps push' pop' t ops).1 ∧
      (runOps push pop s ops).2 = (runOps push' pop' t ops).2 := by
  induction ops generalizing s t with
  | nil => exact ⟨h, rfl⟩
  | cons op ops ih =>
    cases op with
    | push x => exact ih (hpush s t x h)
    | pop =>
      obtain ⟨hout, hnext⟩ := hpop s t h
      obtain ⟨hend, houts⟩ := ih hnext
      refine ⟨hend, ?_⟩
      rw [runOps, runOps, hout, houts]

end Runs

def fifoPush (bound : Nat) (q : List α) (x : α) : List α := if q.length < bound then q ++ [x] else q

def fifoPop (q : List α) : Option α × List α := (q.head?, q.tail)

def accepted (bound : Nat) : List α → List (QueueOp α) → List α
  | _, [] => []
  | q, .push x :: ops =>
    if q.length < bound then x :: accepted bound (fifoPush bound q x) ops
    else accepted bound (fifoPush bound q x) ops
  | q, .pop :: ops => accepted bound (fifoPop q).2 ops

lemma popped_append (bound : Nat) (q : List α) (ops : List (QueueOp α)) :
    (runOps (fifoPush bound) fifoPop q ops).2.reduceOption ++ (runOps (fifoPush bound) fifoPop q ops).1 =
      q ++ accepted bound q ops := by
  induction ops generalizing q with
  | nil => rw [runOps, accepted, append_nil, reduceOption_nil, nil_append]
  | cons op ops ih =>
    cases op with
    | push x =>
      rw [runOps, ih, accepted, fifoPush]
      split
      · rw [append_assoc, singleton_append]
      · rfl
    | pop =>
      cases q with
      | nil => exact ih []
      | cons x q =>
        rw [runOps, accepted, fifoPop, List.head?_cons, reduceOption_cons_of_some, cons_append, ih]
        rfl

lemma fifo_length_le {bound : Nat} {q : List α} (hq : q.length ≤ bound) (ops : List (QueueOp α)) :
    (runOps (fifoPush bound) fifoPop q ops).1.length ≤ bound := by
  induction ops generalizing q with
  | nil => exact hq
  | cons op ops ih =>
    cases op with
    | push x =>
      apply ih
      unfold fifoPush
      split
      · rw [length_append, length_singleton]
        omega
      · exact hq
    | pop =>
      apply ih
      rw [fifoPop, length_tail]
      omega

/-! ## Rings as queues -/

structure Ring (α : Type u) where
  buf : Nat → α
  head : Nat
  tail : Nat

namespace Ring

def push (next : Nat → Nat) (r : Ring α) (x : α) : Ring α :=
  if next r.head = r.tail then r else ⟨update r.buf r.head x, next r.head, r.tail⟩

def pop (next : Nat → Nat) (r : Ring α) : Option α × Ring α :=
  if r.tail = r.head then (none, r) else (some (r.buf r.tail), { r with tail := next r.tail })

structure Ok (cap : Nat) (r : Ring α) : Prop where
  head : r.head < cap
  tail : r.tail < cap

def count (cap : Nat) (r : Ring α) : Nat := (r.head + cap - r.tail) % cap

def contents (cap : Nat) (r : Ring α) : List α := ringList r.buf cap r.tail (r.count cap)

variable {r : Ring α} {next : Nat → Nat}

lemma contents_length (cap : Nat) (r : Ring α) : (r.contents cap).length = r.count cap :=
  ringList_length r.buf

lemma Ok.count_eq (h : r.Ok cap) :
    r.count cap = if r.tail ≤ r.head then r.head - r.tail else r.head + cap - r.tail := by
  have hhead := h.head
  have htail := h.tail
  unfold count
  split
  · rw [show r.head + cap - r.tail = r.head - r.tail + cap by omega, Nat.add_mod_right,
      Nat.mod_eq_of_lt (by omega)]
  · exact Nat.mod_eq_of_lt (by omega)

lemma succ_mod {i : Nat} (hi : i < cap) : (i + 1) % cap = if i + 1 = cap then 0 else i + 1 := by
  split
  · rename_i heq
    rw [heq, Nat.mod_self]
  · exact Nat.mod_eq_of_lt (by omega)

lemma Ok.head_eq (h : r.Ok cap) : r.head = (r.tail + r.count cap) % cap := by
  have hhead := h.head
  have htail := h.tail
  rw [h.count_eq]
  split
  · rw [Nat.add_sub_cancel' (by assumption), Nat.mod_eq_of_lt hhead]
  · rw [show r.tail + (r.head + cap - r.tail) = r.head + cap by omega, Nat.add_mod_right,
      Nat.mod_eq_of_lt hhead]

lemma Ok.full_iff (h : r.Ok cap) : (r.head + 1) % cap = r.tail ↔ r.count cap + 1 = cap := by
  have hhead := h.head
  have htail := h.tail
  rw [succ_mod hhead, h.count_eq]
  split <;> split <;> omega

lemma Ok.push_full (h : r.Ok cap) (hnext : ∀ i, i < cap → next i = (i + 1) % cap)
    (hfull : r.count cap + 1 = cap) (x : α) : r.push next x = r := by
  rw [push, hnext r.head h.head]
  exact if_pos (h.full_iff.mpr hfull)

lemma Ok.push_room (h : r.Ok cap) (hnext : ∀ i, i < cap → next i = (i + 1) % cap)
    (hroom : r.count cap + 1 ≠ cap) (x : α) :
    (r.push next x).Ok cap ∧ (r.push next x).contents cap = r.contents cap ++ [x] := by
  have hhead := h.head
  have htail := h.tail
  have hfree : (r.head + 1) % cap ≠ r.tail := fun heq => hroom (h.full_iff.mp heq)
  have hlt : r.count cap < cap := Nat.mod_lt _ (by omega)
  rw [push, hnext r.head hhead, if_neg hfree]
  have hok : Ok cap (⟨update r.buf r.head x, (r.head + 1) % cap, r.tail⟩ : Ring α) :=
    ⟨Nat.mod_lt _ (by omega), htail⟩
  have hcount : count cap (⟨update r.buf r.head x, (r.head + 1) % cap, r.tail⟩ : Ring α) =
      r.count cap + 1 := by
    rw [hok.count_eq, h.count_eq]
    dsimp only
    rw [succ_mod hhead] at hfree ⊢
    split_ifs at hfree ⊢ <;> omega
  refine ⟨hok, ?_⟩
  rw [contents, hcount, contents, ← ringList_push r.buf x hlt, ← h.head_eq]

lemma Ok.pop_empty (h : r.Ok cap) (hempty : r.tail = r.head) : r.contents cap = [] := by
  have hzero : r.count cap = 0 := by
    rw [h.count_eq, if_pos (by omega)]
    omega
  rw [contents, hzero, ringList_zero]

lemma Ok.pop_some (h : r.Ok cap) (hne : r.tail ≠ r.head) :
    Ok cap { r with tail := (r.tail + 1) % cap } ∧
      r.contents cap = r.buf r.tail :: contents cap { r with tail := (r.tail + 1) % cap } := by
  have hhead := h.head
  have htail := h.tail
  have hok : Ok cap { r with tail := (r.tail + 1) % cap } := ⟨hhead, Nat.mod_lt _ (by omega)⟩
  have hcount : r.count cap = count cap { r with tail := (r.tail + 1) % cap } + 1 := by
    rw [hok.count_eq, h.count_eq]
    dsimp only
    rw [succ_mod htail]
    split_ifs <;> omega
  refine ⟨hok, ?_⟩
  rw [contents, hcount, ringList_succ, Nat.mod_eq_of_lt htail]
  rfl

def Holds (cap : Nat) (r : Ring α) (q : List α) : Prop := r.Ok cap ∧ r.contents cap = q

lemma Holds.push {q : List α} (h : r.Holds cap q) (hnext : ∀ i, i < cap → next i = (i + 1) % cap) (x : α) :
    (r.push next x).Holds cap (fifoPush (cap - 1) q x) := by
  obtain ⟨hok, rfl⟩ := h
  have hlt : r.count cap < cap := Nat.mod_lt _ (Nat.zero_lt_of_lt hok.head)
  rw [fifoPush, contents_length]
  split
  · exact hok.push_room hnext (by omega) x
  · rw [hok.push_full hnext (by omega)]
    exact ⟨hok, rfl⟩

lemma Holds.pop {q : List α} (h : r.Holds cap q) (hnext : ∀ i, i < cap → next i = (i + 1) % cap) :
    (r.pop next).1 = (fifoPop q).1 ∧ (r.pop next).2.Holds cap (fifoPop q).2 := by
  obtain ⟨hok, rfl⟩ := h
  unfold Ring.pop
  split
  · rename_i hempty
    rw [hok.pop_empty hempty]
    exact ⟨rfl, hok, hok.pop_empty hempty⟩
  · rename_i hne
    obtain ⟨hok', hcons⟩ := hok.pop_some hne
    rw [hcons, hnext r.tail hok.tail]
    exact ⟨rfl, hok', rfl⟩

end Ring

end FusionOS
