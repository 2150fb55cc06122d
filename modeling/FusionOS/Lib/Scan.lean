import Mathlib.Data.List.Basic

/-!
# Folds that can stop

A loop over a list with a state and early exits: the body goes on with a new
state or stops with a result, and the fold ends with the first of the
results or with the last state.
-/

namespace FusionOS

universe u v w z

/-- What a loop body does: it goes on with a state or stops with a result. -/
inductive Scan (σ : Type u) (ρ : Type v) where
  | next (s : σ)
  | stop (r : ρ)

namespace Scan
variable {α : Type w} {β : Type z} {σ : Type u} {ρ : Type v}

/-- Runs the body along a list. -/
def run (body : σ → α → Scan σ ρ) : List α → σ → Scan σ ρ
  | [], s => .next s
  | x :: xs, s =>
    match body s x with
    | .next s => run body xs s
    | .stop r => .stop r

def andThen (a : Scan σ ρ) (k : σ → Scan σ ρ) : Scan σ ρ :=
  match a with
  | .next s => k s
  | .stop r => .stop r

/-- The result of a scan that ends with the last state or stops. -/
def result (atEnd : σ → ρ) : Scan σ ρ → ρ
  | .next s => atEnd s
  | .stop r => r

variable {body body' : σ → α → Scan σ ρ} {xs ys : List α} {s : σ}

lemma run_append : run body (xs ++ ys) s = (run body xs s).andThen (run body ys) := by
  induction xs generalizing s with
  | nil => rfl
  | cons x xs ih =>
    rw [List.cons_append, run, run]
    cases body s x with
    | next s => exact ih
    | stop r => rfl

lemma run_map (f : β → α) (zs : List β) :
    run body (zs.map f) s = run (fun s z => body s (f z)) zs s := by
  induction zs generalizing s with
  | nil => rfl
  | cons z zs ih =>
    rw [List.map_cons, run, run]
    cases body s (f z) with
    | next s => exact ih
    | stop r => rfl

lemma run_congr (h : ∀ x ∈ xs, ∀ s, body s x = body' s x) : run body xs s = run body' xs s := by
  induction xs generalizing s with
  | nil => rfl
  | cons x xs ih =>
    rw [run, run, h x List.mem_cons_self]
    cases body' s x with
    | next s => exact ih fun y hy => h y (List.mem_cons_of_mem _ hy)
    | stop r => rfl

lemma run_find (p : α → Bool) (f : α → β) (xs : List α) :
    (run (fun (_ : Unit) x => if p x then .stop (some (f x)) else .next ()) xs ()).result
      (fun _ => none) = (xs.find? p).map f := by
  induction xs with
  | nil => rfl
  | cons x xs ih =>
    rw [run, List.find?_cons]
    cases p x with
    | true => rfl
    | false => exact ih

end Scan

end FusionOS
