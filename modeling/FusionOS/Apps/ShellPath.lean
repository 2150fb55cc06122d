import FusionOS.Lib.Split
import FusionOS.Fat.PathParts

/-!
# Paths of the shell

`resolve_path` makes an absolute path of a path and the directory of the shell. For each name it
notes the position behind the separator, and a `..` goes back to that position.
-/

namespace FusionOS.Shell

open Fat
open List

/-! ## The source -/

def strCopyLimit (src : CString) (max : Nat) : CString := src.take (max - 1)

/-- The text in `temp`, of 256 bytes. -/
def pathText (cwd input : CString) : CString :=
  if input.head? = some 0x2F then input.take 255
  else
    let dir := (if cwd = [] then [0x2F] else cwd).take 254
    let temp := if dir.getLast? = some 0x2F then dir else dir ++ [0x2F]
    temp ++ input.take (255 - temp.length)

/-- `out` up to `out_len`, and the positions in `seg_pos`, the last one first. -/
structure Resolving where
  out : CString
  segPos : List Nat

/-- The body of the loop, for one segment. -/
def resolveSegment (max : Nat) (r : Resolving) (seg : CString) : Resolving :=
  if seg = [] ∨ seg = [0x2E] then r
  else if seg = [0x2E, 0x2E] then
    match r.segPos with
    | [] => r
    | pos :: segPos => ⟨r.out.take pos, segPos⟩
  else
    let out := if 1 < r.out.length ∧ r.out.length < max - 1 then r.out ++ [0x2F] else r.out
    { out := out ++ seg.take (max - 1 - out.length)
      segPos := if r.segPos.length < 32 then out.length :: r.segPos else r.segPos }

/-- The loop; the first argument bounds its turns. -/
def resolveLoop (max : Nat) : Nat → CString → Resolving → Resolving
  | 0, _, r => r
  | fuel + 1, p, r =>
    if p = [] then r
    else resolveLoop max fuel ((p.dropWhile (· != 0x2F)).drop 1)
      (resolveSegment max r (p.takeWhile (· != 0x2F)))

def resolvePath (cwd input : CString) (max : Nat) : CString :=
  if input = [] then strCopyLimit (if cwd = [] then [0x2F] else cwd) max
  else
    let temp := pathText cwd input
    let p := if temp.head? = some 0x2F then temp.tail else temp
    let r := resolveLoop max (temp.length + 1) p ⟨[0x2F], []⟩
    if r.out = [] then [0x2F] else r.out

/-! ## The normal form -/

/-- The path that is meant. -/
def joinPath (cwd input : CString) : CString :=
  if input.head? = some 0x2F then input
  else if cwd.getLast? = some 0x2F then cwd ++ input
  else cwd ++ 0x2F :: input

def nameStep (names : List CString) (c : CString) : List CString :=
  if c = [] ∨ c = [0x2E] then names else if c = [0x2E, 0x2E] then names.tail else c :: names

def normalNames (text : CString) : List CString := ((components text).foldl nameStep []).reverse

def normalForm (text : CString) : CString := 0x2F :: [0x2F].intercalate (normalNames text)

def spoil : List (CString × Bool) → List (CString × Bool)
  | [] => []
  | e :: es => (e.1, true) :: es

/-- A `..` marks the name above the one that it deletes, and behind 32 names also the first name of the
path. The names are listed with the last one first. -/
def markStep (names : List (CString × Bool)) (c : CString) : List (CString × Bool) :=
  if c = [] ∨ c = [0x2E] then names
  else if c = [0x2E, 0x2E] then
    if 32 < names.length then (spoil (spoil names.tail).reverse).reverse else spoil names.tail
  else (c, false) :: names

/-- The names that are left of a path, with their marks. -/
def markedNames (text : CString) : List (CString × Bool) := (components text).foldl markStep []

/-! ## The names with the slashes behind them -/

/-- The names so far, each with the number of slashes that stand behind it beside the separator. -/
abbrev Stack := List (CString × Nat)

namespace Stack

def render : Stack → CString
  | [] => [0x2F]
  | e :: es =>
    (if es = [] then [0x2F] else render es ++ [0x2F]) ++ (e.1 ++ List.replicate e.2 0x2F)

def front (es : Stack) : CString := if es = [] then [0x2F] else render es ++ [0x2F]

def weight (es : Stack) : Nat := (es.map fun e => e.1.length + e.2 + 1).sum

def positions : Stack → List Nat
  | [] => []
  | _ :: es => (weight es + 1) :: positions es

def bump : Stack → Stack
  | [] => []
  | e :: es => (e.1, e.2 + 1) :: es

/-- What a segment does to the names. -/
def step (es : Stack) (c : CString) : Stack :=
  if c = [] ∨ c = [0x2E] then es
  else if c = [0x2E, 0x2E] then bump (es.drop (max 1 (es.length - 31)))
  else (c, 0) :: es

section Text
variable (e : CString × Nat) (es : Stack)

lemma render_cons : render (e :: es) = front es ++ (e.1 ++ List.replicate e.2 0x2F) := rfl

@[simp] lemma weight_nil : weight [] = 0 := rfl

@[simp] lemma weight_cons : weight (e :: es) = e.1.length + e.2 + 1 + weight es := rfl

lemma front_length : (front es).length = weight es + 1 := by
  induction es with
  | nil => rfl
  | cons e es ih =>
    rw [front, if_neg (cons_ne_nil _ _), render_cons]
    simp only [length_append, ih, length_replicate, length_singleton, weight_cons]
    omega

lemma render_length (h : es ≠ []) : (render es).length = weight es := by
  have := front_length es
  rw [front, if_neg h, length_append, length_singleton] at this
  omega

lemma render_ne_nil : render es ≠ [] := by
  cases es with
  | nil => simp [render]
  | cons e es =>
    intro h
    have := front_length es
    rw [render_cons, append_eq_nil_iff] at h
    rw [h.1] at this
    simp at this

lemma render_length_le : (render es).length ≤ max 1 (weight es) := by
  by_cases h : es = []
  · rw [h]
    decide
  · rw [render_length es h]
    omega

lemma render_bump : render (bump es) = front es := by
  cases es with
  | nil => rfl
  | cons e es =>
    rw [front, if_neg (cons_ne_nil _ _), render_cons, bump, render_cons, replicate_succ']
    simp only [append_assoc]

lemma positions_bump : positions (bump es) = positions es := by
  cases es <;> rfl

@[simp] lemma positions_length : (positions es).length = es.length := by
  induction es with
  | nil => rfl
  | cons e es ih => simp [positions, ih]

lemma positions_drop (k : Nat) : positions (es.drop k) = (positions es).drop k := by
  induction es generalizing k with
  | nil => simp [positions]
  | cons e es ih =>
    cases k with
    | zero => rfl
    | succ k => exact ih k

lemma front_begins {k : Nat} (hk : 0 < k) (hlen : k ≤ es.length) : front (es.drop k) <+: render es := by
  induction es generalizing k with
  | nil =>
    simp at hlen
    omega
  | cons e es ih =>
    have hfirst : front es <+: render (e :: es) := prefix_append _ _
    obtain ⟨k, rfl⟩ := Nat.exists_eq_succ_of_ne_zero hk.ne'
    rcases Nat.eq_zero_or_pos k with rfl | hpos
    · exact hfirst
    · have hk' : k ≤ es.length := by simpa using hlen
      have hes : es ≠ [] := by
        rintro rfl
        simp at hk'
        omega
      refine (ih hpos hk').trans (List.IsPrefix.trans ?_ hfirst)
      rw [front, if_neg hes]
      exact prefix_append _ _

end Text

variable {c : CString} {bound : Nat} {r : Resolving} {es : Stack}

lemma weight_drop_le (es : Stack) (k : Nat) : weight (es.drop k) ≤ weight es := by
  induction es generalizing k with
  | nil => simp
  | cons e es ih =>
    cases k with
    | zero => exact Nat.le_refl _
    | succ k => exact (ih k).trans (Nat.le_add_left _ _)

lemma weight_bump_le (es : Stack) : weight (bump es) ≤ weight es + 1 := by
  cases es with
  | nil => exact Nat.zero_le _
  | cons e es =>
    simp only [bump, weight_cons]
    omega

lemma weight_step_le (es : Stack) (c : CString) : weight (step es c) ≤ weight es + (c.length + 1) := by
  unfold step
  split
  · omega
  split
  · have hbump := weight_bump_le (es.drop (max 1 (es.length - 31)))
    have hdrop := weight_drop_le es (max 1 (es.length - 31))
    omega
  · rw [weight_cons]
    dsimp only
    omega

lemma weight_foldl_le (cs : List CString) (es : Stack) :
    weight (cs.foldl step es) ≤ weight es + (cs.map fun c => c.length + 1).sum := by
  induction cs generalizing es with
  | nil => simp
  | cons c cs ih =>
    have hstep := weight_step_le es c
    have hrest := ih (step es c)
    rw [foldl_cons, map_cons, sum_cons]
    omega

def Name (c : CString) : Prop := c ≠ [] ∧ c ≠ [0x2E] ∧ c ≠ [0x2E, 0x2E] ∧ 0x2F ∉ c

/-- What is kept through every segment. -/
def Names (es : Stack) : Prop := ∀ e ∈ es, Name e.1

lemma Names.step (h : Names es) (hc : 0x2F ∉ c) : Names (step es c) := by
  unfold Stack.step
  split
  · exact h
  rename_i hempty
  split
  · have hdrop : Names (es.drop (max 1 (es.length - 31))) := fun e he => h e (mem_of_mem_drop he)
    intro e he
    cases hd : es.drop (max 1 (es.length - 31)) with
    | nil =>
      rw [hd] at he
      cases he
    | cons f fs =>
      rw [hd] at he hdrop
      rcases mem_cons.mp he with rfl | he
      · exact hdrop f mem_cons_self
      · exact hdrop e (mem_cons_of_mem _ he)
  · rename_i hdots
    intro e he
    rcases mem_cons.mp he with rfl | he
    · exact ⟨fun h => hempty (.inl h), fun h => hempty (.inr h), hdots, hc⟩
    · exact h e he

structure Holds (es : Stack) (r : Resolving) : Prop where
  out : r.out = render es
  segPos : r.segPos = (positions es).drop (es.length - 32)

@[simp] lemma bump_length (es : Stack) : (bump es).length = es.length := by
  cases es <;> rfl

lemma positions_drop_pred {k : Nat} (hk : 0 < k) (hlen : k ≤ es.length) :
    (positions es).drop (k - 1) = (weight (es.drop k) + 1) :: positions (es.drop k) := by
  rw [← positions_drop, drop_eq_getElem_cons (by omega), positions, Nat.sub_add_cancel hk]

lemma Holds.pop (h : Holds es r) {pos : Nat} {segPos : List Nat}
    (hpos : r.segPos = pos :: segPos) :
    Holds (bump (es.drop (max 1 (es.length - 31)))) ⟨r.out.take pos, segPos⟩ := by
  rw [h.segPos] at hpos
  have hne : es.length ≠ 0 := by
    intro hzero
    rw [drop_eq_nil_of_le (by rw [positions_length]; omega)] at hpos
    cases hpos
  generalize hk : max 1 (es.length - 31) = k
  have hpred : es.length - 32 = k - 1 := by omega
  have hle : k ≤ es.length := by omega
  rw [hpred, positions_drop_pred (by omega) hle] at hpos
  obtain ⟨rfl, rfl⟩ := List.cons.inj hpos
  constructor
  · rw [render_bump, h.out, ← front_length]
    exact (prefix_iff_eq_take.mp (front_begins es (by omega) hle)).symm
  · rw [positions_bump, bump_length, length_drop, Nat.sub_eq_zero_of_le (by omega)]
    rfl

lemma Holds.push (h : Holds es r) (hes : Names es) (hroom : weight es + (c.length + 1) ≤ bound - 1) :
    let out := if 1 < r.out.length ∧ r.out.length < bound - 1 then r.out ++ [0x2F] else r.out
    Holds ((c, 0) :: es) ⟨out ++ c.take (bound - 1 - out.length),
      if r.segPos.length < 32 then out.length :: r.segPos else r.segPos⟩ := by
  have hfront : (if 1 < r.out.length ∧ r.out.length < bound - 1 then r.out ++ [0x2F] else r.out) =
      front es := by
    rw [h.out, front]
    cases es with
    | nil => rfl
    | cons e es =>
      have hname := length_pos_iff.mpr (hes e mem_cons_self).1
      rw [render_length _ (cons_ne_nil _ _), if_neg (cons_ne_nil _ _), if_pos]
      rw [weight_cons] at hroom ⊢
      omega
  dsimp only
  rw [hfront, front_length]
  constructor
  · rw [render_cons, take_of_length_le (by omega)]
    simp
  · rw [h.segPos, length_drop, positions_length, positions, length_cons]
    split
    · have hfew : es.length - 32 = 0 := by omega
      have hmore : es.length + 1 - 32 = 0 := by omega
      rw [hfew, hmore]
      rfl
    · have hmore : es.length + 1 - 32 = es.length - 32 + 1 := by omega
      rw [hmore, drop_succ_cons]

lemma Holds.segment (h : Holds es r) (hes : Names es) (hroom : weight es + (c.length + 1) ≤ bound - 1) :
    Holds (step es c) (resolveSegment bound r c) := by
  unfold step resolveSegment
  split
  · exact h
  split
  · cases hpos : r.segPos with
    | nil =>
      have hnone : es.length = 0 := by
        have := congrArg List.length hpos
        rw [h.segPos, length_drop, positions_length, length_nil] at this
        omega
      rw [eq_nil_of_length_eq_zero hnone] at h ⊢
      exact h
    | cons pos segPos => exact h.pop hpos
  · exact h.push hes hroom

lemma Holds.foldl {cs : List CString} (h : Holds es r) (hes : Names es)
    (hcs : ∀ c ∈ cs, 0x2F ∉ c)
    (hroom : weight es + (cs.map fun c => c.length + 1).sum ≤ bound - 1) :
    Holds (cs.foldl step es) (cs.foldl (resolveSegment bound) r) ∧ Names (cs.foldl step es) := by
  induction cs generalizing es r with
  | nil => exact ⟨h, hes⟩
  | cons c cs ih =>
    rw [map_cons, sum_cons] at hroom
    have hstep := weight_step_le es c
    apply ih
    · exact h.segment hes (by omega)
    · exact hes.step (hcs c mem_cons_self)
    · exact fun d hd => hcs d (mem_cons_of_mem _ hd)
    · omega

def ofPath (text : CString) : Stack := (components text).foldl step []

/-! ## The names and the marks -/

def Tracks (es : Stack) (marks : List (CString × Bool)) : Prop :=
  (es.map fun e => (e.1, decide (0 < e.2))) = marks ∨
    (es.length < marks.length ∧ ∃ e, marks.getLast? = some e ∧ e.2 = true)

lemma spoil_length (marks : List (CString × Bool)) : (spoil marks).length = marks.length := by
  cases marks <;> rfl

lemma map_bump (es : Stack) : ((bump es).map fun e => (e.1, decide (0 < e.2))) =
    spoil (es.map fun e => (e.1, decide (0 < e.2))) := by
  cases es with
  | nil => rfl
  | cons e es => simp [bump, spoil]

lemma spoil_getLast {marks : List (CString × Bool)} (h : ∃ e, marks.getLast? = some e ∧ e.2 = true) :
    ∃ e, (spoil marks).getLast? = some e ∧ e.2 = true := by
  obtain ⟨e, he, hmark⟩ := h
  cases marks with
  | nil => cases he
  | cons f fs =>
    cases fs with
    | nil => exact ⟨(f.1, true), rfl, rfl⟩
    | cons g gs => exact ⟨e, by rwa [spoil, List.getLast?_cons_cons, ← List.getLast?_cons_cons], hmark⟩

lemma spoil_first_getLast {marks : List (CString × Bool)} (h : marks ≠ []) :
    ∃ e, (spoil marks.reverse).reverse.getLast? = some e ∧ e.2 = true := by
  cases hrev : marks.reverse with
  | nil => exact absurd (reverse_eq_nil_iff.mp hrev) h
  | cons f fs => exact ⟨(f.1, true), by simp [spoil], rfl⟩

lemma tracks_up (es : Stack) :
    Tracks (bump (es.drop (max 1 (es.length - 31))))
      (if 32 < es.length then (spoil (spoil (es.map fun e => (e.1, decide (0 < e.2))).tail).reverse).reverse
        else spoil (es.map fun e => (e.1, decide (0 < e.2))).tail) := by
  split
  · have hlen : (spoil (es.map fun e => (e.1, decide (0 < e.2))).tail).length = es.length - 1 := by
      rw [spoil_length, length_tail, length_map]
    refine .inr ⟨?_, spoil_first_getLast fun hnil => ?_⟩
    · rw [length_reverse, spoil_length, length_reverse, hlen, bump_length, length_drop]
      omega
    · rw [hnil, length_nil] at hlen
      omega
  · have hone : max 1 (es.length - 31) = 1 := by omega
    refine .inl ?_
    rw [map_bump, hone, map_drop, drop_one]

lemma tracks_up_of_lost {marks : List (CString × Bool)} (hlen : es.length < marks.length)
    (hmark : ∃ e, marks.getLast? = some e ∧ e.2 = true) {k : Nat} (hk : 1 ≤ k) :
    Tracks (bump (es.drop k))
      (if 32 < marks.length then (spoil (spoil marks.tail).reverse).reverse else spoil marks.tail) := by
  obtain ⟨e, he, hmark⟩ := hmark
  cases marks with
  | nil => cases he
  | cons f fs =>
    cases fs with
    | nil =>
      have hnil : es = [] := eq_nil_of_length_eq_zero (by simpa using hlen)
      subst hnil
      exact .inl (by simp [spoil, bump])
    | cons g gs =>
      have hlt : (bump (es.drop k)).length < (g :: gs).length := by
        rw [bump_length, length_drop]
        simp only [length_cons] at hlen ⊢
        omega
      split
      · refine .inr ⟨?_, spoil_first_getLast (cons_ne_nil _ _)⟩
        rwa [length_reverse, spoil_length, length_reverse, spoil_length]
      · exact .inr ⟨by rwa [spoil_length], spoil_getLast ⟨e, he, hmark⟩⟩

lemma Tracks.step {marks : List (CString × Bool)} (h : Tracks es marks) (c : CString) :
    Tracks (step es c) (markStep marks c) := by
  unfold Stack.step markStep
  split
  · exact h
  split
  · rcases h with rfl | ⟨hlen, hmark⟩
    · rw [length_map]
      exact tracks_up es
    · exact tracks_up_of_lost hlen hmark (Nat.le_max_left _ _)
  · rcases h with rfl | ⟨hlen, e, he, hmark⟩
    · exact .inl (by simp)
    · refine .inr ⟨by simpa using hlen, e, ?_, hmark⟩
      cases marks with
      | nil => cases he
      | cons f fs => rwa [List.getLast?_cons_cons]

lemma tracks_ofPath (text : CString) : Tracks (ofPath text) (markedNames text) :=
  foldl_rel (.inl rfl) fun c _ _ _ h => h.step c

lemma unmarked_iff {marks : List (CString × Bool)} (h : Tracks es marks) :
    (∀ e ∈ marks, e.2 = false) ↔ es.map Prod.fst = marks.map Prod.fst ∧ ∀ e ∈ es, e.2 = 0 := by
  rcases h with rfl | ⟨hlen, e, he, hmark⟩
  · rw [forall_mem_map, map_map]
    simp only [decide_eq_false_iff_not, Nat.not_lt, Nat.le_zero]
    exact ⟨fun h => ⟨rfl, h⟩, And.right⟩
  · constructor
    · intro hall
      have := hall e (mem_of_getLast? he)
      rw [hmark] at this
      cases this
    · intro ⟨hnames, _⟩
      have := congrArg List.length hnames
      rw [length_map, length_map] at this
      omega

end Stack

/-! ## The normal form of the names -/

section Normal

variable {c text : CString} {names : List CString} {es : Stack}

lemma map_spoil (marks : List (CString × Bool)) : (spoil marks).map Prod.fst = marks.map Prod.fst := by
  cases marks <;> rfl

lemma map_markStep (marks : List (CString × Bool)) (c : CString) :
    (markStep marks c).map Prod.fst = nameStep (marks.map Prod.fst) c := by
  unfold markStep nameStep
  split
  · rfl
  split
  · split
    · rw [map_reverse, map_spoil, map_reverse, reverse_reverse, map_spoil, map_tail]
    · rw [map_spoil, map_tail]
  · rfl

lemma normalNames_eq (text : CString) :
    normalNames text = ((markedNames text).map Prod.fst).reverse := by
  rw [normalNames, markedNames, ← foldl_hom (map Prod.fst) fun marks c => (map_markStep marks c).symm]
  rfl

lemma cons_intercalate (h : names ≠ []) :
    0x2F :: [0x2F].intercalate names = names.flatMap fun c => 0x2F :: c := by
  induction names with
  | nil => exact absurd rfl h
  | cons c cs ih =>
    cases cs with
    | nil => simp
    | cons d ds =>
      rw [intercalate_cons_cons, flatMap_cons, ← ih (cons_ne_nil _ _)]
      simp

lemma Stack.render_single (h : ∀ e ∈ es, e.2 = 0) :
    es.render = 0x2F :: [0x2F].intercalate (es.map Prod.fst).reverse := by
  have hfront : ∀ {es : Stack}, (∀ e ∈ es, e.2 = 0) →
      es.front = ((es.map Prod.fst).reverse.flatMap fun c => 0x2F :: c) ++ [0x2F] := by
    intro es
    induction es with
    | nil => exact fun _ => rfl
    | cons e es ih =>
      intro h
      have hzero := h e mem_cons_self
      rw [Stack.front, if_neg (cons_ne_nil _ _), Stack.render_cons, hzero,
        ih fun f hf => h f (mem_cons_of_mem _ hf)]
      simp
  cases es with
  | nil => rfl
  | cons e es =>
    have hzero := h e mem_cons_self
    rw [cons_intercalate (by simp), Stack.render_cons, hzero,
      hfront fun f hf => h f (mem_cons_of_mem _ hf)]
    simp

lemma Stack.components_render (h : es.Names) :
    components es.render = (es.map Prod.fst).reverse := by
  have hslash : ∀ c : CString, components (c ++ [0x2F]) = components c := by
    intro c
    rw [components_slash]
    simp [components]
  have hslashes : ∀ (c : CString) (n : Nat), components (c ++ List.replicate n 0x2F) = components c := by
    intro c n
    induction n with
    | zero => simp
    | succ n ih => rw [replicate_succ', ← append_assoc, hslash, ih]
  induction es with
  | nil => decide
  | cons e es ih =>
    have he := h e mem_cons_self
    have hname : components (e.1 ++ List.replicate e.2 0x2F) = [e.1] := by
      rw [hslashes, components_single he.2.2.2]
      simp [he.1]
    obtain ⟨p, hp, hcomps⟩ : ∃ p, Stack.front es = p ++ [0x2F] ∧
        components p = (es.map Prod.fst).reverse := by
      cases es with
      | nil => exact ⟨[], rfl, by decide⟩
      | cons f fs =>
        refine ⟨Stack.render (f :: fs), if_neg (cons_ne_nil _ _), ?_⟩
        exact ih fun g hg => h g (mem_cons_of_mem _ hg)
    rw [Stack.render_cons, hp, append_assoc, singleton_append, components_slash, hcomps, hname]
    simp

lemma Stack.weight_eq (es : Stack) : Stack.weight es =
    ((es.map Prod.fst).map fun c => c.length + 1).sum + (es.map Prod.snd).sum := by
  induction es with
  | nil => rfl
  | cons e es ih =>
    simp only [Stack.weight_cons, map_cons, sum_cons, ih]
    omega

lemma Stack.sum_slashes (es : Stack) : (es.map Prod.snd).sum = 0 ↔ ∀ e ∈ es, e.2 = 0 := by
  rw [List.sum_eq_zero_iff_forall_eq_nat, forall_mem_map]

def Stack.ofNames (names : List CString) : Stack := names.reverse.map fun c => (c, 0)

section OfNames
variable (names : List CString)

lemma Stack.ofNames_slashes : ∀ e ∈ Stack.ofNames names, e.2 = 0 := by
  intro e he
  obtain ⟨c, -, rfl⟩ := mem_map.mp he
  rfl

lemma Stack.map_ofNames : (Stack.ofNames names).map Prod.fst = names.reverse := by
  rw [Stack.ofNames, map_map]
  exact map_id _

lemma Stack.render_ofNames : (Stack.ofNames names).render = 0x2F :: [0x2F].intercalate names := by
  rw [Stack.render_single (Stack.ofNames_slashes names), Stack.map_ofNames, reverse_reverse]

variable {names} in
lemma Stack.names_ofNames (h : ∀ c ∈ names, Stack.Name c) : (Stack.ofNames names).Names := by
  intro e he
  obtain ⟨c, hc, rfl⟩ := mem_map.mp he
  exact h c (mem_reverse.mp hc)

variable {names} in
lemma components_names (h : ∀ c ∈ names, Stack.Name c) :
    components (0x2F :: [0x2F].intercalate names) = names := by
  rw [← Stack.render_ofNames, Stack.components_render (Stack.names_ofNames h), Stack.map_ofNames,
    reverse_reverse]

end OfNames

lemma Stack.render_eq_iff (h : es.Names)
    (hnames : ∀ c ∈ names, Stack.Name c) :
    es.render = 0x2F :: [0x2F].intercalate names ↔
      es.map Prod.fst = names.reverse ∧ ∀ e ∈ es, e.2 = 0 := by
  constructor
  · intro heq
    have hsame : es.map Prod.fst = names.reverse := by
      rw [← reverse_eq_iff, ← Stack.components_render h, heq, components_names hnames]
    refine ⟨hsame, ?_⟩
    -- The names with single slashes have the same text, so no slash is left for the others.
    rw [← Stack.map_ofNames] at hsame
    rw [← Stack.render_ofNames] at heq
    have hfront : (Stack.front es).length = (Stack.front (Stack.ofNames names)).length := by
      have hnil : es = [] ↔ Stack.ofNames names = [] := by
        rw [← map_eq_nil_iff, hsame, map_eq_nil_iff]
      simp only [Stack.front, hnil, heq]
    rw [Stack.front_length, Stack.front_length, Stack.weight_eq, Stack.weight_eq, hsame,
      (Stack.sum_slashes _).mpr (Stack.ofNames_slashes names)] at hfront
    exact (Stack.sum_slashes es).mp (by omega)
  · intro ⟨hsame, hzero⟩
    rw [Stack.render_single hzero, hsame, reverse_reverse]

lemma filter_pieces (text : CString) : ((pieces 0x2F text).filter fun c => c ≠ []) = components text := by
  induction text using split_induction (0x2F : UInt8) with
  | nil =>
    rw [pieces_nil]
    rfl
  | last text hne h => rw [pieces_last hne h, components_single h]
  | more text rest h ih =>
    rw [pieces_more h, components_slash, components_single h, ← ih, ← filter_append]
    rfl

lemma slash_not_mem_components (h : c ∈ components text) : 0x2F ∉ c := by
  rw [← filter_pieces] at h
  exact sep_not_mem_of_mem_pieces (mem_filter.mp h).1

lemma normalNames_valid (h : c ∈ normalNames text) : Stack.Name c := by
  have hvalid : ∀ c ∈ (components text).foldl nameStep [], Stack.Name c := by
    apply foldlRecOn (motive := fun names => ∀ c ∈ names, Stack.Name c)
    · exact fun c hc => absurd hc not_mem_nil
    intro names hnames d hd c hc
    unfold nameStep at hc
    split at hc
    · exact hnames c hc
    rename_i hempty
    split at hc
    · exact hnames c (mem_of_mem_tail hc)
    rename_i hdots
    rcases mem_cons.mp hc with rfl | hc
    · exact ⟨fun h => hempty (.inl h), fun h => hempty (.inr h), hdots, slash_not_mem_components hd⟩
    · exact hnames c hc
  exact hvalid c (mem_reverse.mp h)

lemma components_normalForm (text : CString) : components (normalForm text) = normalNames text :=
  components_names fun _ => normalNames_valid

lemma markedNames_of_names (h : ∀ c ∈ components text, Stack.Name c) :
    (∀ e ∈ markedNames text, e.2 = false) ∧ normalNames text = components text := by
  have hfold : ∀ (cs : List CString) (marks : List (CString × Bool)), (∀ c ∈ cs, Stack.Name c) →
      cs.foldl markStep marks = (cs.map fun c => (c, false)).reverse ++ marks := by
    intro cs
    induction cs with
    | nil => exact fun _ _ => rfl
    | cons c cs ih =>
      intro marks hcs
      have hc := hcs c mem_cons_self
      have hstep : markStep marks c = (c, false) :: marks := by
        rw [markStep, if_neg (not_or.mpr ⟨hc.1, hc.2.1⟩), if_neg hc.2.2.1]
      rw [foldl_cons, hstep, ih _ fun d hd => hcs d (mem_cons_of_mem _ hd)]
      simp
  have hmarks := hfold (components text) [] h
  rw [append_nil] at hmarks
  constructor
  · rw [markedNames, hmarks]
    simp
  · rw [normalNames_eq, markedNames, hmarks, map_reverse, reverse_reverse, map_map]
    exact map_id _

end Normal

/-! ## The result of `resolve_path` -/

section Resolve
variable {cwd input : CString}

lemma resolveLoop_eq (bound : Nat) {fuel : Nat} {p : CString} (h : p.length < fuel) (r : Resolving) :
    resolveLoop bound fuel p r = (pieces 0x2F p).foldl (resolveSegment bound) r := by
  induction fuel generalizing p r with
  | zero => exact absurd h (Nat.not_lt_zero _)
  | succ fuel ih =>
    rw [resolveLoop]
    split
    · rename_i hp
      rw [hp, pieces_nil]
      rfl
    · rename_i hp
      have hlt : ((p.dropWhile (· != 0x2F)).drop 1).length < p.length := length_behind_piece hp
      have hpieces : pieces 0x2F p =
          p.takeWhile (· != 0x2F) :: pieces 0x2F ((p.dropWhile (· != 0x2F)).drop 1) := by
        rw [pieces, dif_neg hp]
      rw [ih (by omega), hpieces, foldl_cons]

lemma foldl_pieces (text : CString) (es : Stack) :
    (pieces 0x2F text).foldl Stack.step es = (components text).foldl Stack.step es := by
  rw [← filter_pieces, foldl_filter]
  congr 1
  funext es c
  split
  · rfl
  · rename_i hc
    have : c = [] := by simpa using hc
    rw [this]
    rfl

lemma joinPath_head (hcwd : cwd.head? = some 0x2F) : (joinPath cwd input).head? = some 0x2F := by
  cases cwd with
  | nil => cases hcwd
  | cons c cs =>
    unfold joinPath
    split
    · assumption
    split <;> exact hcwd

lemma pathText_eq (hcwd : cwd.head? = some 0x2F)
    (hlen : (joinPath cwd input).length < 255) : pathText cwd input = joinPath cwd input := by
  have hcwd : cwd ≠ [] := by
    rintro rfl
    cases hcwd
  unfold pathText
  unfold joinPath at hlen ⊢
  split at hlen
  · rename_i habs
    rw [if_pos habs, if_pos habs, take_of_length_le (by omega)]
  · rename_i habs
    split at hlen
    · rename_i hlast
      rw [length_append] at hlen
      have hdir : cwd.take 254 = cwd := take_of_length_le (by omega)
      simp only [if_neg habs, if_neg hcwd, hdir, if_pos hlast]
      rw [take_of_length_le (by omega)]
    · rename_i hlast
      rw [length_append, length_cons] at hlen
      have hdir : cwd.take 254 = cwd := take_of_length_le (by omega)
      simp only [if_neg habs, if_neg hcwd, hdir, if_neg hlast, length_append, length_singleton]
      rw [take_of_length_le (by omega)]
      simp

lemma resolvePath_eq_render (hcwd : cwd.head? = some 0x2F) (hne : input ≠ [])
    (hlen : (joinPath cwd input).length < 255) :
    resolvePath cwd input 256 = (Stack.ofPath (joinPath cwd input)).render ∧
      (Stack.ofPath (joinPath cwd input)).Names ∧ (resolvePath cwd input 256).length < 255 := by
  have hhead : (joinPath cwd input).head? = some 0x2F := joinPath_head hcwd
  have htext := pathText_eq hcwd hlen
  rw [resolvePath, if_neg hne, htext]
  generalize joinPath cwd input = text at hhead hlen
  obtain ⟨rest, rfl⟩ : ∃ rest, text = 0x2F :: rest := by
    cases text with
    | nil => cases hhead
    | cons c rest => exact ⟨rest, by rw [Option.some_inj.mp hhead]⟩
  rw [length_cons] at hlen
  have hsum : ((pieces 0x2F rest).map fun c : CString => c.length + 1).sum ≤ rest.length + 1 :=
    sum_pieces_le rest
  have hpath : Stack.ofPath (0x2F :: rest) = (pieces 0x2F rest).foldl Stack.step [] := by
    rw [foldl_pieces, Stack.ofPath, components_cons_slash]
  have hweight : (Stack.ofPath (0x2F :: rest)).weight ≤ rest.length + 1 := by
    have := Stack.weight_foldl_le (pieces 0x2F rest) []
    rw [← hpath, Stack.weight_nil] at this
    omega
  have hfold : Stack.Holds (Stack.ofPath (0x2F :: rest))
      ((pieces 0x2F rest).foldl (resolveSegment 256) ⟨[0x2F], []⟩) ∧
      (Stack.ofPath (0x2F :: rest)).Names := by
    rw [hpath]
    apply Stack.Holds.foldl
    · exact ⟨rfl, rfl⟩
    · exact fun e he => absurd he not_mem_nil
    · exact fun c hc => sep_not_mem_of_mem_pieces hc
    · rw [Stack.weight_nil]
      omega
  simp only [List.head?_cons, if_true, tail_cons]
  rw [resolveLoop_eq 256 (by rw [length_cons]; omega), hfold.1.out,
    if_neg (Stack.render_ne_nil _)]
  refine ⟨rfl, hfold.2, ?_⟩
  have := Stack.render_length_le (Stack.ofPath (0x2F :: rest))
  omega

lemma resolvePath_eq_normalForm_iff (hcwd : cwd.head? = some 0x2F) (hne : input ≠ [])
    (hlen : (joinPath cwd input).length < 255) :
    resolvePath cwd input 256 = normalForm (joinPath cwd input) ↔
      ∀ e ∈ markedNames (joinPath cwd input), e.2 = false := by
  obtain ⟨heq, hvalid, -⟩ := resolvePath_eq_render hcwd hne hlen
  rw [heq, normalForm, Stack.render_eq_iff hvalid fun _ => normalNames_valid,
    Stack.unmarked_iff (Stack.tracks_ofPath _), normalNames_eq, reverse_reverse]

lemma resolvePath_normalForm {text : CString} (hcwd : cwd.head? = some 0x2F)
    (hlen : (normalForm text).length < 255) : resolvePath cwd (normalForm text) 256 = normalForm text := by
  have hjoin : joinPath cwd (normalForm text) = normalForm text := if_pos rfl
  have hvalid : ∀ c ∈ components (normalForm text), Stack.Name c := by
    rw [components_normalForm]
    exact fun _ => normalNames_valid
  obtain ⟨hmarks, hnames⟩ := markedNames_of_names hvalid
  have hidem : normalForm (normalForm text) = normalForm text := by
    rw [normalForm, hnames, components_normalForm]
    rfl
  have hne : normalForm text ≠ [] := cons_ne_nil _ _
  have hnf : resolvePath cwd (normalForm text) 256 = normalForm (joinPath cwd (normalForm text)) := by
    apply (resolvePath_eq_normalForm_iff hcwd hne (by rwa [hjoin])).mpr
    rwa [hjoin]
  rwa [hjoin, hidem] at hnf

lemma resolvePath_empty (hcwd : normalForm cwd = cwd) (hlen : (joinPath cwd []).length < 255) :
    resolvePath cwd [] 256 = normalForm (joinPath cwd []) ∧ (resolvePath cwd [] 256).length < 255 ∧
      ∀ e ∈ markedNames (joinPath cwd []), e.2 = false := by
  have hne : cwd ≠ [] := by
    rw [← hcwd]
    exact cons_ne_nil _ _
  have hcomps : components (joinPath cwd []) = components cwd := by
    unfold joinPath
    rw [if_neg (by simp)]
    split
    · rw [append_nil]
    · rw [components_slash]
      simp [components]
  have hle : cwd.length ≤ (joinPath cwd []).length := by
    unfold joinPath
    rw [if_neg (by simp)]
    split <;> simp
  have hvalid : ∀ c ∈ components (joinPath cwd []), Stack.Name c := by
    rw [hcomps, ← hcwd, components_normalForm]
    exact fun _ => normalNames_valid
  have hcopy : resolvePath cwd [] 256 = cwd := by
    rw [resolvePath, if_pos rfl, if_neg hne, strCopyLimit, take_of_length_le (by omega)]
  rw [hcopy]
  refine ⟨?_, by omega, (markedNames_of_names hvalid).1⟩
  rw [normalForm, normalNames, hcomps]
  exact hcwd.symm

end Resolve

/-- In a directory in normal form, `resolve_path` gives the normal form of a path that is not too long,
and leaves its own result alone, exactly where no name of the result has lost the name below it to a `..`,
and no `..` came behind more than 32 names. -/
theorem resolvePath_normal_iff (cwd input : CString) (hcwd : normalForm cwd = cwd)
    (hlen : (joinPath cwd input).length < 255) :
    (resolvePath cwd input 256 = normalForm (joinPath cwd input) ∧
      resolvePath cwd (resolvePath cwd input 256) 256 = resolvePath cwd input 256) ↔
      ∀ e ∈ markedNames (joinPath cwd input), e.2 = false := by
  have hhead : cwd.head? = some 0x2F := by
    rw [← hcwd]
    rfl
  have hagain : resolvePath cwd input 256 = normalForm (joinPath cwd input) →
      (normalForm (joinPath cwd input)).length < 255 →
      resolvePath cwd (resolvePath cwd input 256) 256 = resolvePath cwd input 256 := by
    intro heq hshort
    rw [heq]
    exact resolvePath_normalForm hhead hshort
  by_cases hne : input = []
  · subst hne
    obtain ⟨heq, hshort, hmarks⟩ := resolvePath_empty hcwd hlen
    exact iff_of_true ⟨heq, hagain heq (heq ▸ hshort)⟩ hmarks
  · rw [← resolvePath_eq_normalForm_iff hhead hne hlen]
    refine ⟨And.left, fun heq => ⟨heq, hagain heq ?_⟩⟩
    rw [← heq]
    exact (resolvePath_eq_render hhead hne hlen).2.2

/-- The path `b/./c` in `/a`. -/
theorem resolvePath_normal_dot : resolvePath [0x2F, 0x61] [0x62, 0x2F, 0x2E, 0x2F, 0x63] 256 =
    [0x2F, 0x61, 0x2F, 0x62, 0x2F, 0x63] :=
  ((resolvePath_normal_iff [0x2F, 0x61] [0x62, 0x2F, 0x2E, 0x2F, 0x63] (by decide) (by decide)).mpr
    (by decide)).1

/-- In the root directory `a/b/..` becomes `/a/`, and `a/b/../c` becomes `/a//c`. -/
theorem not_resolvePath_normal_up :
    resolvePath [0x2F] [0x61, 0x2F, 0x62, 0x2F, 0x2E, 0x2E] 256 = [0x2F, 0x61, 0x2F] ∧
    normalForm (joinPath [0x2F] [0x61, 0x2F, 0x62, 0x2F, 0x2E, 0x2E]) = [0x2F, 0x61] ∧
    resolvePath [0x2F] [0x61, 0x2F, 0x62, 0x2F, 0x2E, 0x2E, 0x2F, 0x63] 256 =
      [0x2F, 0x61, 0x2F, 0x2F, 0x63] := by
  decide

end FusionOS.Shell
