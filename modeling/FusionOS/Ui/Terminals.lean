import FusionOS.Ui.Desktop

/-!
# The terminal of a shell

The shell of a terminal window should write to the terminal of its own window. Raising
a window and closing one move whole windows to other slots, but `shell.term` keeps
the address of the old slot. So the link survives exactly the actions that move no
terminal window.
-/

namespace FusionOS.Ui

open Function (update update_of_ne update_self)

/-- Every open terminal window has a shell that writes to its own terminal. -/
def Linked (d : Desktop) : Prop :=
  ∀ i, i < d.windowCount → (d.windows i).type = .terminal → (d.windows i).shellTerm = some i

/-- No terminal window among the slots from `index` on. -/
def NoTerminalFrom (d : Desktop) (index : Nat) : Prop :=
  ∀ i, index ≤ i → i < d.windowCount → (d.windows i).type ≠ .terminal

/-- Raising the window at `index` moves no terminal window. -/
def RaisesNone (d : Desktop) (index : Int) : Prop :=
  index < 0 ∨ (d.windowCount : Int) ≤ index ∨ index = d.windowCount - 1 ∨ NoTerminalFrom d index.toNat

/-- The action moves no terminal window to another slot. -/
def KeepsTerminals (d : Desktop) : Action → Prop
  | .raise index => RaisesNone d index
  | .activate index raise => raise = true → RaisesNone d index
  | .close index => index < 0 ∨ (d.windowCount : Int) ≤ index ∨ index = d.windowCount - 1 ∨
      (d.windows (d.windowCount - 1)).type ≠ .terminal
  | _ => True

structure Window.Same (win win' : Window) : Prop where
  type : win'.type = win.type
  x : win'.x = win.x
  y : win'.y = win.y
  w : win'.w = win.w
  h : win'.h = win.h
  shellTerm : win'.shellTerm = win.shellTerm

def SameWindows (ws ws' : Nat → Window) : Prop := ∀ i, (ws i).Same (ws' i)

structure SameLinks (d d' : Desktop) : Prop where
  count : d'.windowCount = d.windowCount
  dragging : d'.draggingIndex = d.draggingIndex
  resizing : d'.resizingIndex = d.resizingIndex
  width : d'.gfxWidth = d.gfxWidth
  height : d'.gfxHeight = d.gfxHeight
  windows : SameWindows d.windows d'.windows

section Links
variable {d d' : Desktop}

lemma Window.Same.refl (win : Window) : win.Same win := ⟨rfl, rfl, rfl, rfl, rfl, rfl⟩

lemma SameWindows.update {ws : Nat → Window} {i : Nat} {win : Window} (h : (ws i).Same win) :
    SameWindows ws (update ws i win) := by
  intro j
  rcases eq_or_ne j i with rfl | hne
  · rw [update_self]
    exact h
  · rw [update_of_ne hne]
    exact .refl _

lemma SameWindows.trans {ws ws' ws'' : Nat → Window} (h : SameWindows ws ws')
    (h' : SameWindows ws' ws'') : SameWindows ws ws'' :=
  fun i => ⟨(h' i).1.trans (h i).1, (h' i).2.trans (h i).2, (h' i).3.trans (h i).3,
    (h' i).4.trans (h i).4, (h' i).5.trans (h i).5, (h' i).6.trans (h i).6⟩

lemma SameLinks.refl (d : Desktop) : SameLinks d d := ⟨rfl, rfl, rfl, rfl, rfl, fun _ => .refl _⟩

lemma SameLinks.linked_iff (h : SameLinks d d') : Linked d' ↔ Linked d := by
  unfold Linked
  simp only [h.count, fun i => (h.windows i).type, fun i => (h.windows i).shellTerm]

lemma clearActive_same (d : Desktop) : SameWindows d.windows (clearActive d) := by
  intro i
  unfold clearActive
  split <;> exact ⟨rfl, rfl, rfl, rfl, rfl, rfl⟩

lemma focus_same (d : Desktop) (index : Int) : SameLinks d (desktopFocusWindow d index) := by
  unfold desktopFocusWindow
  split
  · exact .refl d
  dsimp only
  split
  · exact ⟨rfl, rfl, rfl, rfl, rfl, clearActive_same d⟩
  · exact ⟨rfl, rfl, rfl, rfl, rfl, (clearActive_same d).trans (.update ⟨rfl, rfl, rfl, rfl, rfl, rfl⟩)⟩

lemma focusNext_same (d : Desktop) (dir : Int) : SameLinks d (desktopFocusNext d dir) := by
  obtain ⟨index, heq⟩ := focusNext_eq d dir
  rw [heq]
  exact focus_same d index

lemma minimize_same (d : Desktop) : SameLinks d (minimizeActive d) := by
  unfold minimizeActive
  split
  · exact ⟨rfl, rfl, rfl, rfl, rfl, .update ⟨rfl, rfl, rfl, rfl, rfl, rfl⟩⟩
  · exact .refl d

lemma panel_same (d : Desktop) (i : Nat) : SameLinks d (panelClick d i) := by
  unfold panelClick
  split
  · exact .refl d
  split
  · have hfocus := focus_same
      { d with windows := update d.windows i { d.windows i with minimized := false } } i
    refine ⟨hfocus.count, hfocus.dragging, hfocus.resizing, hfocus.width, hfocus.height,
      SameWindows.trans ?_ hfocus.windows⟩
    exact .update ⟨rfl, rfl, rfl, rfl, rfl, rfl⟩
  split
  · exact ⟨rfl, rfl, rfl, rfl, rfl, .update ⟨rfl, rfl, rfl, rfl, rfl, rfl⟩⟩
  · exact focus_same d i

lemma create_linked (h : Linked d) (type : AppType) : Linked (desktopCreateWindow d type) := by
  unfold desktopCreateWindow
  split
  · exact h
  · dsimp only
    rw [(focus_same _ _).linked_iff]
    intro i hi htype
    dsimp only at hi htype ⊢
    rcases eq_or_ne i d.windowCount with rfl | hne
    · rw [update_self] at htype ⊢
      dsimp only at htype ⊢
      rw [if_pos htype]
    · rw [update_of_ne hne] at htype ⊢
      exact h i (by omega) htype

lemma desktopInit_linked (d : Desktop) : Linked (desktopInit d) := by
  apply create_linked
  intro i hi
  cases hi

lemma shiftLoop_apply (n i : Nat) (ws : Nat → Window) (j : Nat) :
    shiftLoop n i ws j = if i ≤ j ∧ j < i + n then ws (j + 1) else ws j := by
  induction n generalizing i ws with
  | zero =>
    rw [if_neg (by omega)]
    rfl
  | succ n ih =>
    rw [shiftLoop, ih]
    rcases Nat.lt_trichotomy j i with hlt | rfl | hgt
    · rw [if_neg (by omega), if_neg (by omega), update_of_ne (by omega)]
    · rw [if_neg (by omega), if_pos (by omega), update_self]
    · rw [update_of_ne (by omega), update_of_ne (by omega)]
      congr 1
      simp only [eq_iff_iff]
      omega

lemma raise_moves (index : Nat) (hlt : index + 1 < d.windowCount) :
    (desktopRaiseWindow d index).2.windowCount = d.windowCount ∧
      ∀ j, (desktopRaiseWindow d index).2.windows j =
        if j = d.windowCount - 1 then d.windows index
        else if index ≤ j ∧ j < d.windowCount - 1 then d.windows (j + 1) else d.windows j := by
  unfold desktopRaiseWindow
  rw [if_neg (by omega), if_neg (by omega)]
  refine ⟨rfl, fun j => ?_⟩
  dsimp only
  rw [Int.toNat_natCast]
  rcases eq_or_ne j (d.windowCount - 1) with rfl | hne
  · rw [update_self, if_pos rfl]
  · rw [update_of_ne hne, if_neg hne, shiftLoop_apply, Nat.add_sub_cancel' (by omega)]

lemma raise_linked_iff (h : Linked d) (index : Int) :
    Linked (desktopRaiseWindow d index).2 ↔ RaisesNone d index := by
  by_cases hmoves : 0 ≤ index ∧ index + 1 < d.windowCount
  · obtain ⟨i, rfl⟩ := Int.eq_ofNat_of_zero_le hmoves.1
    obtain ⟨hcount, hat⟩ := raise_moves (d := d) i (by omega)
    have hnone : RaisesNone d i ↔ NoTerminalFrom d i := by
      unfold RaisesNone
      rw [Int.toNat_natCast]
      constructor
      · rintro (hneg | hout | hlast | hno)
        · omega
        · omega
        · omega
        · exact hno
      · exact fun hno => Or.inr (Or.inr (Or.inr hno))
    rw [hnone]
    constructor
    · intro hlinked k hik hk hterm
      have hold := h k hk hterm
      -- the window at `k` is now in another slot
      rcases eq_or_ne k i with rfl | hne
      · have hnew := hlinked (d.windowCount - 1) (by rw [hcount]; omega)
        rw [hat, if_pos rfl, hold] at hnew
        have hslot := Option.some.inj (hnew hterm)
        omega
      · have hnew := hlinked (k - 1) (by rw [hcount]; omega)
        rw [hat, if_neg (by omega), if_pos (by omega), Nat.sub_add_cancel (by omega), hold] at hnew
        have hslot := Option.some.inj (hnew hterm)
        omega
    · intro hno j hj
      rw [hcount] at hj
      rw [hat]
      split
      · exact fun hterm => absurd hterm (hno i (Nat.le_refl i) (by omega))
      split
      · exact fun hterm => absurd hterm (hno (j + 1) (by omega) (by omega))
      · exact h j hj
  · have hsame : (desktopRaiseWindow d index).2 = d := by
      unfold desktopRaiseWindow
      split
      · rfl
      · rw [if_pos (by omega)]
    rw [hsame]
    unfold RaisesNone
    refine iff_of_true h ?_
    omega

lemma activate_linked_iff (h : Linked d) (index : Int) (raise : Bool) :
    Linked (desktopActivateWindow d index raise) ↔ (raise = true → RaisesNone d index) := by
  unfold desktopActivateWindow
  split
  · rename_i hout
    refine iff_of_true h fun _ => ?_
    unfold RaisesNone
    omega
  cases raise with
  | false =>
    rw [if_neg Bool.false_ne_true, (focus_same _ _).linked_iff]
    exact iff_of_true h fun hraise => nomatch hraise
  | true =>
    rw [if_pos rfl]
    dsimp only
    rw [(focus_same _ _).linked_iff, raise_linked_iff h]
    exact ⟨fun hr _ => hr, fun hr => hr rfl⟩

lemma close_moves {i : Nat} (hlt : i < d.windowCount) :
    SameLinks { d with
        windows := if i = d.windowCount - 1 then d.windows
          else update d.windows i (d.windows (d.windowCount - 1))
        windowCount := d.windowCount - 1 } (desktopCloseWindow d i) := by
  have hin : ¬ ((i : Int) < 0 ∨ (d.windowCount : Int) ≤ i) := by omega
  simp only [desktopCloseWindow, if_neg hin, Int.toNat_natCast, Int.natCast_inj]
  by_cases hzero : d.windowCount - 1 = 0
  · rw [if_pos hzero]
    exact ⟨rfl, rfl, rfl, rfl, rfl, fun _ => .refl _⟩
  · rw [if_neg hzero]
    exact focus_same _ _

lemma close_linked_iff (h : Linked d) (index : Int) :
    Linked (desktopCloseWindow d index) ↔ KeepsTerminals d (.close index) := by
  unfold KeepsTerminals
  by_cases hout : index < 0 ∨ (d.windowCount : Int) ≤ index
  · rw [desktopCloseWindow, if_pos hout]
    refine iff_of_true h ?_
    rcases hout with hneg | hout
    · exact Or.inl hneg
    · exact Or.inr (Or.inl hout)
  obtain ⟨i, rfl⟩ := Int.eq_ofNat_of_zero_le (a := index) (by omega)
  rw [(close_moves (by omega)).linked_iff]
  by_cases hlast : i = d.windowCount - 1
  · rw [if_pos hlast]
    refine iff_of_true (fun j hj => h j ?_) (Or.inr (Or.inr (Or.inl (by omega))))
    dsimp only at hj
    omega
  rw [if_neg hlast]
  constructor
  · intro hlinked
    refine Or.inr (Or.inr (Or.inr fun hterm => ?_))
    have hnew := hlinked i (by dsimp only; omega)
    dsimp only at hnew
    rw [update_self, h _ (by omega) hterm] at hnew
    have hslot := Option.some.inj (hnew hterm)
    omega
  · rintro (hneg | hge | heq | hno)
    · omega
    · omega
    · omega
    · intro j hj
      dsimp only at hj ⊢
      rcases eq_or_ne j i with rfl | hne
      · rw [update_self]
        exact fun hterm => absurd hterm hno
      · rw [update_of_ne hne]
        exact h j (by omega)

end Links

/-- After the action every terminal is linked. -/
def LinkedAfter (d : Desktop) (a : Action) : Prop := ∀ d', d.step a = some d' → Linked d'

lemma linkedAfter_iff {d : Desktop} (h : Linked d) (a : Action) :
    LinkedAfter d a ↔ KeepsTerminals d a := by
  have hstep : ∀ d', d.step a = some d' → (LinkedAfter d a ↔ Linked d') := by
    intro d' hd'
    refine ⟨fun hafter => hafter d' hd', fun hlinked d'' hd'' => ?_⟩
    rw [hd'] at hd''
    cases hd''
    exact hlinked
  cases a with
  | create type => exact (hstep _ rfl).trans (iff_of_true (create_linked h type) trivial)
  | focus index => exact (hstep _ rfl).trans (iff_of_true ((focus_same d index).linked_iff.mpr h) trivial)
  | focusNext dir => exact (hstep _ rfl).trans (iff_of_true ((focusNext_same d dir).linked_iff.mpr h) trivial)
  | raise index => exact (hstep _ rfl).trans (raise_linked_iff h index)
  | activate index raise => exact (hstep _ rfl).trans (activate_linked_iff h index raise)
  | minimize => exact (hstep _ rfl).trans (iff_of_true ((minimize_same d).linked_iff.mpr h) trivial)
  | panel i => exact (hstep _ rfl).trans (iff_of_true ((panel_same d i).linked_iff.mpr h) trivial)
  | close index => exact (hstep _ rfl).trans (close_linked_iff h index)

/-- From `desktop_init` on, every terminal window's shell writes to its own terminal in all states of
a run just when no action of the run moves a terminal window to another slot. -/
theorem terminals_linked_iff (d : Desktop) (actions : List Action) :
    (Linked (desktopInit d) ∧ Along Desktop.step LinkedAfter (desktopInit d) actions) ↔
      Along Desktop.step KeepsTerminals (desktopInit d) actions := by
  have hinit := desktopInit_linked d
  rw [and_iff_right hinit]
  apply Along.iff_of_invariant (G := fun _ _ => True) Linked
  · exact fun _ _ t _ _ hafter hstep => hafter t hstep
  · exact fun _ a h _ => linkedAfter_iff h a
  · exact hinit
  · exact .of_forall (fun _ _ => trivial) _ _

/-- A desktop of 1024 by 768 pixels with all slots empty. -/
def emptyDesktop : Desktop :=
  ⟨fun _ => ⟨.terminal, 0, 0, 0, 0, false, false, "", none⟩, 0, -1, -1, -1, 1024, 768⟩

/-- The second terminal is opened and the first one is clicked. -/
theorem not_terminals_linked_twoTerminals :
    ¬ Along Desktop.step LinkedAfter (desktopInit emptyDesktop) [.create .terminal, .raise 0] := by
  intro h
  have hlinked := (h.2 _ rfl).1 _ rfl 0 (by decide) (by decide)
  exact absurd hlinked (by decide)

end FusionOS.Ui
