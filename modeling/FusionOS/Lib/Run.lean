import Mathlib.Logic.Basic

/-!
# Runs of a labelled step function

`step s l` is the state after the step labelled `l`, or `none` where that step cannot be taken.
-/

namespace FusionOS

universe u v
variable {σ : Type u} {ι : Type v} {step : σ → ι → Option σ}

/-- The steps labelled `ls`, taken in this order, lead from `s` to `t`. -/
inductive Run (step : σ → ι → Option σ) : σ → List ι → σ → Prop where
  | nil (s : σ) : Run step s [] s
  | cons {s t u : σ} {l : ι} {ls : List ι} :
      step s l = some t → Run step t ls u → Run step s (l :: ls) u

/-- Every step along `ls` meets `G` in the state it is taken from. -/
def Along (step : σ → ι → Option σ) (G : σ → ι → Prop) : σ → List ι → Prop
  | _, [] => True
  | s, l :: ls => G s l ∧ ∀ t, step s l = some t → Along step G t ls

instance Along.decidable (G : σ → ι → Prop) [∀ s l, Decidable (G s l)] :
    (s : σ) → (ls : List ι) → Decidable (Along step G s ls)
  | _, [] => isTrue trivial
  | s, l :: ls =>
    match hst : step s l with
    | none => decidable_of_iff (G s l) ⟨fun h => ⟨h, fun t ht => by simp [hst] at ht⟩, And.left⟩
    | some t =>
      have := Along.decidable G t ls
      decidable_of_iff (G s l ∧ Along step G t ls)
        ⟨fun h => ⟨h.1, fun u hu => by cases hst.symm.trans hu; exact h.2⟩, fun h => ⟨h.1, h.2 t hst⟩⟩

/-- Takes the steps labelled `ls` one after the other, as far as they can be taken. -/
def exec (step : σ → ι → Option σ) : σ → List ι → Option σ
  | s, [] => some s
  | s, l :: ls => (step s l).bind fun t => exec step t ls

namespace Run
variable {s t : σ} {ls : List ι}

variable {G : σ → ι → Prop}

lemma of_exec (h : exec step s ls = some t) : Run step s ls t := by
  induction ls generalizing s with
  | nil =>
    cases h
    exact .nil _
  | cons l ls ih =>
    obtain ⟨v, hv, hrest⟩ := Option.bind_eq_some_iff.mp h
    exact .cons hv (ih hrest)

lemma invariant_along (Inv : σ → Prop)
    (hstep : ∀ s l t, Inv s → G s l → step s l = some t → Inv t)
    (hrun : Run step s ls t) : Inv s → Along step G s ls → Inv t := by
  induction hrun with
  | nil => exact fun hi _ => hi
  | @cons s t u l ls h _ ih =>
    intro hi hG
    exact ih (hstep s l t hi hG.1 h) (hG.2 t h)

lemma exists_of_along (Inv : σ → Prop)
    (hstep : ∀ s l, Inv s → G s l → ∃ t, step s l = some t ∧ Inv t)
    (hi : Inv s) (hG : Along step G s ls) : ∃ t, Run step s ls t ∧ Inv t := by
  induction ls generalizing s with
  | nil => exact ⟨s, .nil s, hi⟩
  | cons l ls ih =>
    obtain ⟨t, ht, hit⟩ := hstep s l hi hG.1
    obtain ⟨u, hrun, hiu⟩ := ih hit (hG.2 t ht)
    exact ⟨u, .cons ht hrun, hiu⟩

end Run

variable {ls : List ι} {s : σ} {G : σ → ι → Prop}

lemma along_cons_iff {t : σ} {l : ι} (h : step s l = some t) :
    Along step G s (l :: ls) ↔ G s l ∧ Along step G t ls := by
  refine and_congr_right fun _ => ⟨fun hrest => hrest t h, fun hrest u hu => ?_⟩
  rw [h] at hu
  cases hu
  exact hrest

lemma Along.of_forall (h : ∀ s l, G s l) (s : σ) (ls : List ι) :
    Along step G s ls := by
  induction ls generalizing s with
  | nil => trivial
  | cons l ls ih => exact ⟨h s l, fun t _ => ih t⟩

lemma Along.at_run {t : σ} {ls' : List ι} {l : ι}
    (h : Along step G s (ls ++ l :: ls')) (hrun : Run step s ls t) : G t l := by
  induction hrun with
  | nil => exact h.1
  | cons hstep _ ih => exact ih (h.2 _ hstep)

lemma Along.iff_of_invariant {P Q : σ → ι → Prop} (Inv : σ → Prop)
    (hstep : ∀ s l t, Inv s → G s l → P s l → step s l = some t → Inv t)
    (heq : ∀ s l, Inv s → G s l → (P s l ↔ Q s l)) (hi : Inv s)
    (hG : Along step G s ls) : Along step P s ls ↔ Along step Q s ls := by
  induction ls generalizing s with
  | nil => exact Iff.rfl
  | cons l ls ih =>
    have hrest : P s l → ∀ t, step s l = some t → (Along step P t ls ↔ Along step Q t ls) :=
      fun hp t ht => ih (hstep s l t hi hG.1 hp ht) (hG.2 t ht)
    constructor
    · intro h
      exact ⟨(heq s l hi hG.1).mp h.1, fun t ht => (hrest h.1 t ht).mp (h.2 t ht)⟩
    · intro h
      have hp := (heq s l hi hG.1).mpr h.1
      exact ⟨hp, fun t ht => (hrest hp t ht).mpr (h.2 t ht)⟩

end FusionOS
