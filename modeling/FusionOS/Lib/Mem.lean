import Mathlib.Logic.Function.Basic
import Mathlib.Tactic.Ring

/-!
# Byte memory

A memory is a function from addresses to bytes, unbounded above.
-/

namespace FusionOS

open List
open Function (update update_apply update_of_ne update_self)

abbrev Mem := Nat → UInt8

/-- The little-endian word of `n` bytes at `a`. -/
def load (m : Mem) (a : Nat) : Nat → Nat
  | 0 => 0
  | n + 1 => (m a).toNat + 256 * load m (a + 1) n

/-- Stores the `n` low bytes of `v` at `a`, lowest first. -/
def store (m : Mem) (a : Nat) : Nat → Nat → Mem
  | 0, _ => m
  | n + 1, v => update (store m (a + 1) n (v / 256)) a (UInt8.ofNat v)

/-- The `n` bytes from `a` on. -/
def slice (m : Mem) (a n : Nat) : List UInt8 := (List.range n).map fun i => m (a + i)

/-- The bytes `xs` stand from the address on. -/
def BytesAt (m : Mem) : Nat → List UInt8 → Prop
  | _, [] => True
  | a, x :: xs => m a = x ∧ BytesAt m (a + 1) xs

/-- Overwrites the bytes from `a` on with `xs`. -/
def splice (m : Mem) (a : Nat) (xs : List UInt8) : Mem :=
  fun i => if a ≤ i then xs.getD (i - a) (m i) else m i

section Words
variable (m : Mem) (a n v : Nat)

variable {m' : Mem} {i : Nat}

lemma load_lt : load m a n < 256 ^ n := by
  induction n generalizing a with
  | zero => simp [load]
  | succ n ih =>
    have hb := (m a).toNat_lt
    have hw := ih (a + 1)
    rw [load, pow_succ]
    omega

lemma store_out (hi : i < a ∨ a + n ≤ i) : store m a n v i = m i := by
  induction n generalizing a v with
  | zero => rfl
  | succ n ih =>
    rw [store, update_of_ne (by omega)]
    exact ih (a + 1) (v / 256) (by omega)

lemma store_congr (h : m i = m' i) : store m a n v i = store m' a n v i := by
  induction n generalizing a v with
  | zero => exact h
  | succ n ih =>
    rw [store, store, update_apply, update_apply, ih (a + 1) (v / 256)]

lemma load_congr (h : ∀ i, a ≤ i → i < a + n → m i = m' i) :
    load m a n = load m' a n := by
  induction n generalizing a with
  | zero => rfl
  | succ n ih =>
    rw [load, load, h a (by omega) (by omega),
      ih (a + 1) fun i h1 h2 => h i (by omega) (by omega)]

@[simp] lemma load_store : load (store m a n v) a n = v % 256 ^ n := by
  induction n generalizing m a v with
  | zero => simp [load, Nat.mod_one]
  | succ n ih =>
    rw [load, store, update_self]
    have htail : load (update (store m (a + 1) n (v / 256)) a (UInt8.ofNat v)) (a + 1) n =
        (v / 256) % 256 ^ n := by
      rw [← ih m (a + 1) (v / 256)]
      exact load_congr _ _ _ fun i h1 _ => update_of_ne (by omega) _ _
    have hpow : 256 ^ (n + 1) = 256 * 256 ^ n := by ring
    rw [htail, UInt8.toNat_ofNat', hpow, Nat.mod_mul]

lemma store_load {b : Nat} (hi : i < n) :
    store m a n (load m' b n) (a + i) = m' (b + i) := by
  induction n generalizing a b i with
  | zero => omega
  | succ n ih =>
    have hb := (m' b).toNat_lt
    rw [store, load]
    cases i with
    | zero =>
      simp only [Nat.add_zero, update_self]
      apply UInt8.toNat_inj.mp
      rw [UInt8.toNat_ofNat']
      omega
    | succ i =>
      have hdiv : ((m' b).toNat + 256 * load m' (b + 1) n) / 256 = load m' (b + 1) n := by omega
      have hstep := ih (a + 1) (b := b + 1) (i := i) (by omega)
      rw [update_of_ne (by omega), hdiv]
      rwa [Nat.add_assoc, Nat.add_assoc, Nat.add_comm 1 i] at hstep

lemma load_store_disjoint {b k : Nat} (h : b + k ≤ a ∨ a + n ≤ b) :
    load (store m a n v) b k = load m b k :=
  load_congr _ _ _ fun i h1 h2 => store_out m a n v (by omega)

end Words

section Runs
variable (m : Mem) (a : Nat) (xs : List UInt8)

variable {m' : Mem} {i n : Nat}

@[simp] lemma slice_length (n : Nat) : (slice m a n).length = n := by simp [slice]

lemma slice_getElem? {n i : Nat} (h : i < n) : (slice m a n)[i]? = some (m (a + i)) := by
  simp [slice, h]

lemma slice_getElem (h : i < (slice m a n).length) : (slice m a n)[i] = m (a + i) := by
  simp [slice]

lemma slice_congr (h : ∀ i, a ≤ i → i < a + n → m i = m' i) :
    slice m a n = slice m' a n := by
  apply map_congr_left
  intro i hi
  exact h (a + i) (by omega) (by have := mem_range.mp hi; omega)

lemma slice_shift {b : Nat} (h : ∀ i < n, m (a + i) = m' (b + i)) :
    slice m a n = slice m' b n :=
  map_congr_left fun i hi => h i (mem_range.mp hi)

lemma bytesAt_append {ys : List UInt8} :
    BytesAt m a (xs ++ ys) ↔ BytesAt m a xs ∧ BytesAt m (a + xs.length) ys := by
  induction xs generalizing a with
  | nil => simp [BytesAt]
  | cons x xs ih => simp [BytesAt, ih, and_assoc, Nat.add_assoc, Nat.add_comm 1]

variable {m a xs} in
lemma BytesAt.congr (h : BytesAt m a xs) (hm : ∀ j < xs.length, m' (a + j) = m (a + j)) :
    BytesAt m' a xs := by
  induction xs generalizing a with
  | nil => trivial
  | cons x xs ih =>
    refine ⟨(hm 0 (by simp)).trans h.1, ?_⟩
    apply ih h.2
    intro j hj
    have := hm (j + 1) (by simpa using hj)
    rwa [Nat.add_comm j 1, ← Nat.add_assoc] at this

variable {m a xs} in
lemma BytesAt.snoc (h : BytesAt m a xs) (b : UInt8) :
    BytesAt (update m (a + xs.length) b) a (xs ++ [b]) := by
  rw [bytesAt_append]
  refine ⟨h.congr fun j hj => ?_, ?_, trivial⟩
  · exact update_of_ne (by omega) _ _
  · exact update_self _ _ _

lemma slice_succ (n : Nat) : slice m a (n + 1) = m a :: slice m (a + 1) n := by
  simp [slice, range_succ_eq_map, Nat.add_right_comm, Nat.add_assoc]

variable {m a xs} in
lemma BytesAt.slice_eq (h : BytesAt m a xs) : slice m a xs.length = xs := by
  induction xs generalizing a with
  | nil => rfl
  | cons x xs ih => rw [length_cons, slice_succ, h.1, ih h.2]

variable {m a xs} in
lemma BytesAt.drop {k : Nat} (h : BytesAt m a xs) (hk : k ≤ xs.length) : BytesAt m (a + k) (xs.drop k) := by
  rw [← take_append_drop k xs, bytesAt_append, length_take, Nat.min_eq_left hk] at h
  exact h.2

lemma splice_out (h : i < a ∨ a + xs.length ≤ i) : splice m a xs i = m i := by
  unfold splice
  split
  · rw [getD_eq_getElem?_getD, List.getElem?_eq_none (by omega)]
    rfl
  · rfl

lemma splice_in (h : i < xs.length) : splice m a xs (a + i) = xs[i] := by
  simp [splice, h]

@[simp] lemma slice_splice : slice (splice m a xs) a xs.length = xs := by
  apply ext_getElem?
  intro i
  by_cases hi : i < xs.length
  · rw [slice_getElem? _ _ hi, splice_in m a xs hi, List.getElem?_eq_getElem hi]
  · rw [List.getElem?_eq_none (by simpa using hi), List.getElem?_eq_none (by omega)]

end Runs

end FusionOS
