import FusionOS.Ui.Drag

/-!
# Stacking

`find_top_window_at` goes through the windows from the last slot down. A full repaint draws them from
the first slot up, but the active one after all others. The two agree unless a window above the active
one overlaps it.
-/

namespace FusionOS.Ui

/-- What is seen at a point after `draw_window`, if `last` was seen there before. -/
def drawWindow (d : Desktop) (x y : Int) (last : Int) (i : Nat) : Int :=
  if (d.windows i).minimized then last
  else if (d.windows i).contains x y then i
  else last

/-- The loop of the full repaint over the slots below `n`. -/
def drawLoop (d : Desktop) (x y : Int) : Nat → Int
  | 0 => -1
  | n + 1 => if (n : Int) = d.activeIndex then drawLoop d x y n else drawWindow d x y (drawLoop d x y n) n

/-- The window that the full repaint of `desktop_loop` draws last at a point, or -1. -/
def drawnLast (d : Desktop) (x y : Int) : Int :=
  let last := drawLoop d x y d.windowCount
  if 0 ≤ d.activeIndex then drawWindow d x y last d.activeIndex.toNat else last

/-- Hit testing agrees with drawing on the whole screen. -/
def HitsAsDrawn (d : Desktop) : Prop :=
  ∀ x y, 0 ≤ x → x < d.screenW → 0 ≤ y → y < d.screenH → findTopWindowAt d x y = drawnLast d x y

def Overlap (d : Desktop) (a b : Window) : Prop :=
  max (max a.x b.x) 0 < min (min (a.x + a.w) (b.x + b.w)) d.screenW ∧
    max (max a.y b.y) 0 < min (min (a.y + a.h) (b.y + b.h)) d.screenH

/-- Slot `j` is above the active window and overlaps it, and neither is minimized. -/
def CoversActive (d : Desktop) (j : Nat) : Prop :=
  0 ≤ d.activeIndex ∧ d.activeIndex < j ∧ j < d.windowCount ∧
    (d.windows d.activeIndex.toNat).minimized = false ∧ (d.windows j).minimized = false ∧
    Overlap d (d.windows d.activeIndex.toNat) (d.windows j)

/-- The window of slot `i` is not minimized and contains the point. -/
def VisibleAt (d : Desktop) (x y : Int) (i : Nat) : Prop :=
  (d.windows i).minimized = false ∧ (d.windows i).contains x y

section Stacking
variable {d : Desktop} {x y : Int}

lemma drawWindow_visible {i : Nat} (h : VisibleAt d x y i) (last : Int) : drawWindow d x y last i = i := by
  rw [drawWindow, h.1, if_neg Bool.false_ne_true, if_pos h.2]

lemma drawWindow_hidden {i : Nat} (h : ¬VisibleAt d x y i) (last : Int) :
    drawWindow d x y last i = last := by
  unfold drawWindow
  split
  · rfl
  next hmin =>
    rw [if_neg fun hin => h ⟨eq_false_of_ne_true hmin, hin⟩]

lemma findTopLoop_succ (n : Nat) :
    findTopLoop d x y (n + 1) = drawWindow d x y (findTopLoop d x y n) n := by
  rw [findTopLoop, drawWindow]

lemma findTopLoop_top {a n : Nat} (hlt : a < n) (h : VisibleAt d x y a) :
    findTopLoop d x y n = a ↔ ∀ j, a < j → j < n → ¬VisibleAt d x y j := by
  induction n with
  | zero => omega
  | succ n ih =>
    rw [findTopLoop_succ]
    rcases Nat.lt_succ_iff_lt_or_eq.mp hlt with hlt' | rfl
    · by_cases hn : VisibleAt d x y n
      · rw [drawWindow_visible hn]
        exact iff_of_false (by omega) fun hall => hall n hlt' (Nat.lt_succ_self n) hn
      · rw [drawWindow_hidden hn, ih hlt']
        constructor
        · intro hall j haj hj
          rcases Nat.lt_succ_iff_lt_or_eq.mp hj with hj' | rfl
          · exact hall j haj hj'
          · exact hn
        · exact fun hall j haj hj => hall j haj (Nat.lt_succ_of_lt hj)
    · rw [drawWindow_visible h]
      exact iff_of_true rfl fun j haj hj => by omega

lemma drawLoop_hidden (h : ∀ a : Nat, d.activeIndex = a → ¬VisibleAt d x y a) (n : Nat) :
    drawLoop d x y n = findTopLoop d x y n := by
  induction n with
  | zero => rfl
  | succ n ih =>
    rw [drawLoop, findTopLoop_succ, ih]
    split
    next heq => rw [drawWindow_hidden (h n heq.symm)]
    · rfl

lemma hit_eq_drawn_iff (hin : d.InRange) :
    findTopWindowAt d x y = drawnLast d x y ↔
      ∀ a : Nat, d.activeIndex = a → VisibleAt d x y a →
        ∀ j, a < j → j < d.windowCount → ¬VisibleAt d x y j := by
  unfold findTopWindowAt drawnLast
  by_cases hvisible : ∃ a : Nat, d.activeIndex = a ∧ VisibleAt d x y a
  · obtain ⟨a, ha, hseen⟩ := hvisible
    have hlt : a < d.windowCount := by
      have := hin.2
      omega
    dsimp only
    rw [if_pos (by omega), ha, Int.toNat_natCast, drawWindow_visible hseen, findTopLoop_top hlt hseen]
    constructor
    · intro hall b hb _
      rw [← Int.natCast_inj.mp hb]
      exact hall
    · exact fun hall => hall a rfl hseen
  · have hhidden : ∀ a : Nat, d.activeIndex = a → ¬VisibleAt d x y a :=
      fun a ha hseen => hvisible ⟨a, ha, hseen⟩
    refine iff_of_true ?_ fun a ha hseen => absurd hseen (hhidden a ha)
    dsimp only
    rw [drawLoop_hidden hhidden]
    split
    next hge => rw [drawWindow_hidden (hhidden _ (Int.toNat_of_nonneg hge).symm)]
    · rfl

lemma spans_meet_iff {p q r s t : Int} :
    max (max p q) 0 < min (min r s) t ↔ ∃ x, 0 ≤ x ∧ x < t ∧ (p ≤ x ∧ x < r) ∧ (q ≤ x ∧ x < s) := by
  constructor
  · intro h
    obtain ⟨hrs, ht⟩ := lt_min_iff.mp h
    obtain ⟨hr, hs⟩ := lt_min_iff.mp hrs
    have hpq : max p q ≤ max (max p q) 0 := le_max_left _ _
    exact ⟨max (max p q) 0, le_max_right _ _, ht, ⟨(le_max_left p q).trans hpq, hr⟩,
      ⟨(le_max_right p q).trans hpq, hs⟩⟩
  · rintro ⟨x, h0, ht, ⟨hp, hr⟩, ⟨hq, hs⟩⟩
    exact (max_le (max_le hp hq) h0).trans_lt (lt_min (lt_min hr hs) ht)

lemma overlap_iff {a b : Window} :
    Overlap d a b ↔ ∃ x y, 0 ≤ x ∧ x < d.screenW ∧ 0 ≤ y ∧ y < d.screenH ∧
      a.contains x y ∧ b.contains x y := by
  simp only [Overlap, spans_meet_iff, Window.contains, pointInRect, decide_eq_true_eq]
  constructor
  · rintro ⟨⟨x, hx, hx', ⟨hax, hax'⟩, hbx, hbx'⟩, ⟨y, hy, hy', ⟨hay, hay'⟩, hby, hby'⟩⟩
    exact ⟨x, y, hx, hx', hy, hy', ⟨hax, hax', hay, hay'⟩, ⟨hbx, hbx', hby, hby'⟩⟩
  · rintro ⟨x, y, hx, hx', hy, hy', ⟨hax, hax', hay, hay'⟩, ⟨hbx, hbx', hby, hby'⟩⟩
    exact ⟨⟨x, hx, hx', ⟨hax, hax'⟩, hbx, hbx'⟩, ⟨y, hy, hy', ⟨hay, hay'⟩, hby, hby'⟩⟩

lemma hitsAsDrawn_iff (hin : d.InRange) : HitsAsDrawn d ↔ ¬∃ j, CoversActive d j := by
  constructor
  · rintro h ⟨j, hge, hlt, hj, hmin, hminj, hoverlap⟩
    obtain ⟨x, y, hx, hx', hy, hy', ha, hb⟩ := overlap_iff.mp hoverlap
    have hall := (hit_eq_drawn_iff hin).mp (h x y hx hx' hy hy')
    exact hall _ (Int.toNat_of_nonneg hge).symm ⟨hmin, ha⟩ j (by omega) hj ⟨hminj, hb⟩
  · intro h x y hx hx' hy hy'
    rw [hit_eq_drawn_iff hin]
    intro a ha hseen j haj hj hseenj
    apply h
    refine ⟨j, by omega, by omega, hj, ?_⟩
    rw [ha, Int.toNat_natCast]
    exact ⟨hseen.1, hseenj.1, overlap_iff.mpr ⟨x, y, hx, hx', hy, hy', hseen.2, hseenj.2⟩⟩

end Stacking

lemma run_ok {s t : LoopState} {es : List LoopEvent} (hok : s.Ok) (hrun : Run LoopState.step s es t) :
    t.Ok :=
  hrun.invariant_along LoopState.Ok (G := fun _ _ => True) (fun _ _ _ h _ ht => h.step ht) hok
    (.of_forall (fun _ _ => trivial) _ _)

end FusionOS.Ui
