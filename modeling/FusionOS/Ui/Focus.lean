import FusionOS.Ui.Loop

/-!
# The focus

`active_index` and the flags of the windows agree, and the focus is never on a minimized window.
-/

namespace FusionOS.Ui

open FusionOS.Input (KeyEvent)

/-- No window has the focus, or one open window that is not minimized has it alone. -/
def FocusOk (d : Desktop) : Prop :=
  (d.activeIndex = -1 ∧ ∀ i < d.windowCount, (d.windows i).active = false) ∨
    ∃ i < d.windowCount, d.activeIndex = i ∧ (d.windows i).minimized = false ∧
      ∀ j < d.windowCount, (d.windows j).active = true ↔ j = i

section Focus
variable {d d' : Desktop}

lemma placed_focusOk (hplaced : d.Placed d') (h : FocusOk d) : FocusOk d' := by
  obtain ⟨ws, rfl, hmoved⟩ := hplaced
  unfold FocusOk
  simp only [(hmoved _).active, (hmoved _).minimized]
  exact h

lemma focusWindow_focusOk {index : Int} (h0 : 0 ≤ index) (hlt : index < d.windowCount) :
    FocusOk (desktopFocusWindow d index) := by
  obtain ⟨i, rfl⟩ := Int.eq_ofNat_of_zero_le h0
  have hi : i < d.windowCount := by omega
  have hclear : ∀ j < d.windowCount, (clearActive d j).active = false := by
    intro j hj
    unfold clearActive
    rw [if_pos hj]
  unfold desktopFocusWindow
  rw [if_neg (by omega)]
  dsimp only
  rw [Int.toNat_natCast]
  split
  · exact .inl ⟨rfl, hclear⟩
  next hmin =>
    refine .inr ⟨i, hi, rfl, ?_, ?_⟩
    · dsimp only
      rw [Function.update_self]
      exact Bool.not_eq_true _ ▸ hmin
    · intro j hj
      dsimp only
      rcases eq_or_ne j i with rfl | hne
      · rw [Function.update_self]
        exact iff_of_true rfl rfl
      · rw [Function.update_of_ne hne, hclear j hj]
        exact iff_of_false Bool.false_ne_true hne

lemma focusWindow_keeps (h : FocusOk d) (index : Int) : FocusOk (desktopFocusWindow d index) := by
  by_cases hin : 0 ≤ index ∧ index < d.windowCount
  · exact focusWindow_focusOk hin.1 hin.2
  · rw [desktopFocusWindow, if_pos (by omega)]
    exact h

lemma focusNext_focusOk (h : FocusOk d) (dir : Int) : FocusOk (desktopFocusNext d dir) := by
  obtain ⟨index, heq⟩ := focusNext_eq d dir
  rw [heq]
  exact focusWindow_keeps h index

lemma create_focusOk (h : FocusOk d) (type : AppType) : FocusOk (desktopCreateWindow d type) := by
  unfold desktopCreateWindow
  split
  · exact h
  · apply focusWindow_focusOk
    · omega
    · dsimp only
      omega

lemma close_focusOk (h : FocusOk d) (index : Int) : FocusOk (desktopCloseWindow d index) := by
  unfold desktopCloseWindow
  split
  · exact h
  dsimp only
  split
  next hzero =>
    refine .inl ⟨rfl, ?_⟩
    intro i hi
    dsimp only at hi
    omega
  · apply focusWindow_focusOk
    · omega
    · dsimp only
      omega

lemma panelClick_focusOk (h : FocusOk d) (i : Nat) : FocusOk (panelClick d i) := by
  unfold panelClick
  split
  · exact h
  split
  · apply focusWindow_focusOk
    · omega
    · dsimp only
      omega
  split
  next hactive =>
    -- the window had the focus alone, so nobody has it now
    refine .inl ⟨rfl, ?_⟩
    intro j hj
    dsimp only at hj ⊢
    rcases eq_or_ne j i with rfl | hne
    · rw [Function.update_self]
    · rw [Function.update_of_ne hne]
      rcases h with ⟨hnone, -⟩ | ⟨k, -, hk, -, hall⟩
      · omega
      · have hki : k = i := by omega
        rw [← Bool.not_eq_true, hall j hj, hki]
        exact hne
  · exact focusWindow_keeps h _

lemma raise_range {hit : Int} (h0 : 0 ≤ hit) (hlt : hit < d.windowCount) :
    0 ≤ (desktopRaiseWindow d hit).1 ∧
      (desktopRaiseWindow d hit).1 < (desktopRaiseWindow d hit).2.windowCount := by
  rw [desktopRaiseWindow, if_neg (by omega)]
  split
  · exact ⟨h0, hlt⟩
  · dsimp only
    omega

lemma bringToTop_focusOk {hit : Int} (h0 : 0 ≤ hit) (hlt : hit < d.windowCount) :
    FocusOk (bringToTop d hit).2 := by
  obtain ⟨h0', hlt'⟩ := raise_range h0 hlt
  rw [bringToTop_eq]
  exact focusWindow_focusOk h0' hlt'

lemma minimizeActive_focusOk_iff (h : FocusOk d) : FocusOk (minimizeActive d) ↔ d.activeIndex < 0 := by
  constructor
  · intro hok
    by_contra hge
    obtain ⟨i, hi⟩ := Int.eq_ofNat_of_zero_le (Int.not_lt.mp hge)
    rw [minimizeActive, if_pos (by omega), hi] at hok
    rcases hok with ⟨hnone, -⟩ | ⟨j, -, hj, hmin, -⟩
    · dsimp only at hnone
      omega
    · dsimp only at hj hmin
      have hij : j = i := by omega
      rw [hij, Int.toNat_natCast, Function.update_self] at hmin
      cases hmin
  · intro hneg
    rw [minimizeActive, if_neg (by omega)]
    exact h

end Focus

section Steps
variable {s t : LoopState} {d : Desktop}

lemma KeyOut.focusOk {k : KeyEvent} {alt shift exits : Bool} (hout : KeyOut s k alt shift exits d)
    (h : FocusOk s.desktop) (hmin : ¬s.MinimizesActive (.key k alt shift exits)) : FocusOk d := by
  cases hout with
  | same => exact h
  | create type => exact create_focusOk h type
  | focusNext dir => exact focusNext_focusOk h dir
  | place hge hmoved => exact placed_focusOk (setWindow_placed hmoved) h
  | close _ => exact close_focusOk h _
  | minimize hm => exact absurd hm hmin

lemma ClickOut.focusOk (hout : ClickOut s d) (h : FocusOk s.desktop) : FocusOk d := by
  cases hout with
  | same => exact h
  | create _ type => exact create_focusOk h type
  | panel _ i => exact panelClick_focusOk h i
  | focus _ hge => exact bringToTop_focusOk hge hit_lt
  | close _ hge => exact close_focusOk (bringToTop_focusOk hge hit_lt) _
  | resize _ hge => exact bringToTop_focusOk hge hit_lt
  | drag _ hge => exact bringToTop_focusOk hge hit_lt
  | release _ hplaced =>
    have hd := placed_focusOk hplaced h
    exact hd

/-- The focus is in order after the event. -/
def FocusAfter (s : LoopState) (e : LoopEvent) : Prop := ∀ t, s.step e = some t → FocusOk t.desktop

lemma focusAfter_iff (h : FocusOk s.desktop) (e : LoopEvent) :
    FocusAfter s e ↔ ¬s.MinimizesActive e := by
  constructor
  · intro hafter hmin
    cases e with
    | key k alt shift exits =>
      have hok := hafter _ rfl
      rw [handleKey_minimizes hmin, minimizeActive_focusOk_iff h] at hok
      exact absurd hmin.2.1 (Int.not_le.mpr hok)
    | mouse x y buttons => exact hmin
    | frame => exact hmin
  · intro hmin t ht
    cases e with
    | key k alt shift exits =>
      cases ht
      exact handleKey_out.focusOk h hmin
    | mouse x y buttons =>
      cases ht
      exact h
    | frame =>
      cases ht
      obtain ⟨d, hout, hplaced⟩ := frame_out (s := s)
      exact placed_focusOk hplaced (hout.focusOk h)

lemma loopStart_focusOk (width height : Nat) (slots : Nat → Window) :
    FocusOk (loopStart width height slots).desktop := by
  apply create_focusOk
  refine .inl ⟨rfl, ?_⟩
  intro i hi
  exact absurd hi (Nat.not_lt_zero i)

/-- From the start of the desktop on, the focus is in order after every event exactly if Alt+M is never
pressed while a window is active. -/
theorem focus_in_order_iff (width height : Nat) (slots : Nat → Window) (es : List LoopEvent) :
    (FocusOk (loopStart width height slots).desktop ∧
        Along LoopState.step FocusAfter (loopStart width height slots) es) ↔
      Along LoopState.step (fun s e => ¬s.MinimizesActive e) (loopStart width height slots) es := by
  have hstart := loopStart_focusOk width height slots
  rw [and_iff_right hstart]
  apply Along.iff_of_invariant (G := fun _ _ => True) (fun s => FocusOk s.desktop)
  · exact fun _ _ t _ _ hafter hstep => hafter t hstep
  · exact fun _ e h _ => focusAfter_iff h e
  · exact hstart
  · exact .of_forall (fun _ _ => trivial) _ _

/-- Alt+M is the first key. -/
theorem not_focus_in_order_altM :
    ¬ Along LoopState.step FocusAfter (loopStart 1024 768 emptySlots)
      [.key ⟨true, 109, .none⟩ true false false] := by
  intro h
  rcases h.1 _ rfl with ⟨hnone, -⟩ | ⟨i, hi, hindex, hmin, -⟩
  · exact absurd hnone (by decide)
  · have hzero : i = 0 := Nat.lt_one_iff.mp hi
    subst hzero
    exact absurd hmin (by decide)

end Steps

end FusionOS.Ui
