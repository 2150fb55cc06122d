import FusionOS.Fat.Directory
import FusionOS.Lib.Bubble
import Mathlib.Data.List.DropRight
import Mathlib.Data.List.Lex
import Mathlib.Data.Prod.Lex

/-!
# Sorting a directory listing

`fs_sort_entries` is a bubble sort over a comparison that looks at the directory flag, then at the
size, the extension or the name, and changes sign for the descending order.
-/

namespace FusionOS.Fat

open Bubble
open List

/-- `fs_sort_mode_t`. -/
inductive FsSortMode where
  | name
  | size
  | type
  deriving DecidableEq

/-- `fs_stricmp`; a byte 0 ends a string like the end of the list. -/
def fsStricmp : CString → CString → Int
  | a :: as, b :: bs =>
    if a ≠ 0 ∧ b ≠ 0 then
      if toLower a ≠ toLower b then (toLower a).toNat - (toLower b).toNat else fsStricmp as bs
    else (a.toNat : Int) - b.toNat
  | as, bs => ((as.headD 0).toNat : Int) - (bs.headD 0).toNat

/-- The loop of `fs_extcmp` that looks for the last dot; `ext` is where the extension starts. -/
def extStart (ext : CString) : CString → CString
  | [] => ext
  | c :: rest => if c = 0 then ext else extStart (if c = 0x2E then rest else ext) rest

def fsExtcmp (a b : CString) : Int :=
  let cmp := fsStricmp (extStart a a) (extStart b b)
  if cmp ≠ 0 then cmp else fsStricmp a b

/-- The value `cmp` that `fs_sort_entries` computes for two neighbours. -/
def sortCmp (mode : FsSortMode) (descending : Bool) (a b : FsEntry) : Int :=
  let cmp :=
    if a.isDir ≠ b.isDir then (if a.isDir then -1 else 1)
    else
      match mode with
      | .size => if a.size < b.size then -1 else if b.size < a.size then 1 else 0
      | .type => fsExtcmp a.name b.name
      | .name => fsStricmp a.name b.name
  if descending then -cmp else cmp

def fsSortEntries (entries : List FsEntry) (count : Int) (mode : FsSortMode) (descending : Bool) :
    List FsEntry :=
  if count ≤ 1 then entries
  else bubbleSort (fun a b => decide (0 < sortCmp mode descending a b)) count.toNat entries

def folded (name : CString) : List Nat := (cstr name).map fun c => (toLower c).toNat

def extension (name : CString) : CString := (cstr name).rtakeWhile (· != 0x2E)

/-- What a listing is sorted by: directories first, then size, extension and name, or name. -/
def sortKey (mode : FsSortMode) (e : FsEntry) : Nat ×ₗ List Nat ×ₗ List Nat :=
  toLex (if e.isDir then 0 else 1, toLex
    (match mode with
    | .size => ([e.size], [])
    | .type => (folded (extension e.name), folded e.name)
    | .name => (folded e.name, [])))

/-- The sign of `c` tells how `x` and `y` compare. -/
def Compares {β : Type} [LinearOrder β] (c : Int) (x y : β) : Prop :=
  (c < 0 ↔ x < y) ∧ (0 < c ↔ y < x)

section Compares
variable {β γ : Type} [LinearOrder β] [LinearOrder γ] {c d : Int} {x y : β} {z w : γ}

lemma Compares.zero_iff (h : Compares c x y) : c = 0 ↔ x = y := by
  obtain ⟨hneg, hpos⟩ := h
  constructor
  · intro hc
    have hle : x ≤ y := not_lt.mp (hpos.not.mp (by omega))
    exact le_antisymm hle (not_lt.mp (hneg.not.mp (by omega)))
  · rintro rfl
    have hnot : ¬ c < 0 := hneg.not.mpr (lt_irrefl x)
    have hnot' : ¬ 0 < c := hpos.not.mpr (lt_irrefl x)
    omega

lemma Compares.neg (h : Compares c x y) : Compares (-c) y x := by
  refine ⟨?_, ?_⟩
  · rw [← h.2]
    omega
  · rw [← h.1]
    omega

lemma Compares.lex (hfst : Compares c x y) (hsnd : Compares d z w) :
    Compares (if c ≠ 0 then c else d) (toLex (x, z)) (toLex (y, w)) := by
  have hzero : c = 0 ↔ x = y := hfst.zero_iff
  have hzero' : c = 0 ↔ y = x := hzero.trans eq_comm
  refine ⟨?_, ?_⟩
  · rw [Prod.Lex.toLex_lt_toLex, ← hfst.1, ← hsnd.1]
    simp only [← hzero]
    split <;> omega
  · rw [Prod.Lex.toLex_lt_toLex, ← hfst.2, ← hsnd.2]
    simp only [← hzero']
    split <;> omega

lemma Compares.refl (x : β) : Compares 0 x x := by simp [Compares]

lemma Compares.pair (h : Compares c x y) (z : γ) : Compares c (toLex (x, z)) (toLex (y, z)) := by
  have hlex := h.lex (.refl z)
  rwa [ite_not, ite_eq_right_iff.mpr Eq.symm] at hlex

end Compares

section Names

lemma compares_cons {a b : Nat} {as bs : List Nat} {c : Int} (h : Compares c as bs) :
    Compares (if a ≠ b then (a : Int) - b else c) (a :: as) (b :: bs) := by
  obtain ⟨hneg, hpos⟩ := h
  refine ⟨?_, ?_⟩
  · have hlt : a :: as < b :: bs ↔ a < b ∨ a = b ∧ as < bs := cons_lt_cons_iff
    rw [hlt, ← hneg]
    split <;> omega
  · have hlt : b :: bs < a :: as ↔ b < a ∨ b = a ∧ bs < as := cons_lt_cons_iff
    rw [hlt, ← hpos]
    split <;> omega

lemma compares_nil_cons (a : Nat) (as : List Nat) {n : Nat} (hn : 0 < n) :
    Compares (-(n : Int)) [] (a :: as) := by
  have hlt : ([] : List Nat) < a :: as := nil_lt_cons a as
  exact ⟨iff_of_true (by omega) hlt, iff_of_false (by omega) (not_lt_nil _)⟩

lemma folded_cons {c : UInt8} (hc : c ≠ 0) (name : CString) :
    folded (c :: name) = (toLower c).toNat :: folded name := by
  simp [folded, cstr, hc]

lemma toNat_pos {c : UInt8} (hc : c ≠ 0) : 0 < c.toNat :=
  Nat.pos_of_ne_zero fun h => hc (UInt8.toNat_inj.mp h)

lemma fsStricmp_compares_nil {a : CString} (ha : folded a = []) (hcmp : ∀ b, fsStricmp a b =
    -((b.headD 0).toNat : Int)) (b : CString) : Compares (fsStricmp a b) (folded a) (folded b) := by
  rw [ha, hcmp]
  cases b with
  | nil => exact .refl _
  | cons y b =>
    by_cases hy : y = 0
    · subst hy
      exact .refl _
    · rw [folded_cons hy]
      exact compares_nil_cons _ _ (toNat_pos hy)

lemma fsStricmp_compares (a b : CString) : Compares (fsStricmp a b) (folded a) (folded b) := by
  induction a generalizing b with
  | nil => exact fsStricmp_compares_nil rfl (fun b => by simp [fsStricmp]) b
  | cons x a ih =>
    by_cases hx : x = 0
    · subst hx
      exact fsStricmp_compares_nil rfl (fun b => by cases b <;> simp [fsStricmp]) b
    rw [folded_cons hx]
    have hpos := compares_nil_cons (toLower x).toNat (folded a) (toNat_pos hx)
    cases b with
    | nil =>
      have hcmp : fsStricmp (x :: a) [] = x.toNat := by simp [fsStricmp]
      rw [hcmp, ← neg_neg (x.toNat : Int)]
      exact hpos.neg
    | cons y b =>
      by_cases hy : y = 0
      · subst hy
        have hcmp : fsStricmp (x :: a) (0 :: b) = x.toNat := by simp [fsStricmp]
        rw [hcmp, ← neg_neg (x.toNat : Int)]
        exact hpos.neg
      · have hcmp : fsStricmp (x :: a) (y :: b) =
            if (toLower x).toNat ≠ (toLower y).toNat then ((toLower x).toNat : Int) - (toLower y).toNat
            else fsStricmp a b := by
          simp [fsStricmp, hx, hy, UInt8.toNat_inj]
        rw [hcmp, folded_cons hy]
        exact compares_cons (ih b)

lemma extension_cons {c : UInt8} (hc : c ≠ 0) (name : CString) :
    extension (c :: name) =
      if 0x2E ∈ cstr name then extension name else if c = 0x2E then cstr name else c :: cstr name := by
  have hcons : cstr (c :: name) = c :: cstr name := by simp [cstr, hc]
  rw [extension, extension, hcons, List.rtakeWhile, List.rtakeWhile, reverse_cons,
    takeWhile_append]
  by_cases hdot : 0x2E ∈ cstr name
  · rw [if_pos hdot, if_neg]
    intro hlen
    have hall := takeWhile_eq_self_iff.mp
      (( takeWhile_prefix _).eq_of_length hlen) 0x2E (mem_reverse.mpr hdot)
    simp at hall
  · have hall : (cstr name).reverse.takeWhile (· != 0x2E) = (cstr name).reverse := by
      refine takeWhile_eq_self_iff.mpr fun x hx => ?_
      have hne : x ≠ 0x2E := fun heq => hdot (heq ▸ mem_reverse.mp hx)
      simpa using hne
    rw [if_neg hdot, if_pos (by rw [hall]), reverse_append, reverse_reverse]
    by_cases hc : c = 0x2E
    · simp [hc]
    · simp [hc]

lemma cstr_extStart (ext name : CString) :
    cstr (extStart ext name) = if 0x2E ∈ cstr name then extension name else cstr ext := by
  induction name generalizing ext with
  | nil => rfl
  | cons c name ih =>
    by_cases hc : c = 0
    · subst hc
      rfl
    · have hcons : cstr (c :: name) = c :: cstr name := by simp [cstr, hc]
      rw [extStart, if_neg hc, ih, extension_cons hc, hcons]
      by_cases hdot : 0x2E ∈ cstr name
      · simp [hdot]
      · by_cases hc : c = 0x2E
        · simp [hdot, hc]
        · simp [hdot, hc, Ne.symm hc]

lemma extension_of_not_mem {name : CString} (h : 0x2E ∉ cstr name) : extension name = cstr name := by
  refine rtakeWhile_eq_self_iff.mpr fun x hx => ?_
  have hne : x ≠ 0x2E := fun heq => h (heq ▸ hx)
  simpa using hne

lemma folded_extStart (name : CString) : folded (extStart name name) = folded (extension name) := by
  have hext : cstr (extStart name name) = extension name := by
    rw [cstr_extStart]
    split
    · rfl
    · rename_i hdot
      rw [extension_of_not_mem hdot]
  have hidem : cstr (extension name) = extension name := by
    rw [← hext]
    exact takeWhile_idem
  rw [folded, folded, hext, hidem]

lemma fsExtcmp_compares (a b : CString) : Compares (fsExtcmp a b)
    (toLex (folded (extension a), folded a)) (toLex (folded (extension b), folded b)) := by
  have hext := fsStricmp_compares (extStart a a) (extStart b b)
  rw [folded_extStart, folded_extStart] at hext
  exact hext.lex (fsStricmp_compares a b)

end Names

section Keys
variable {mode : FsSortMode} {descending : Bool} {a b : FsEntry}

lemma size_compares (m n : Nat) :
    Compares (if m < n then -1 else if n < m then 1 else 0) ([m] : List Nat) [n] := by
  have hcons : Compares (if m ≠ n then (m : Int) - n else 0) ([m] : List Nat) [n] :=
    compares_cons (.refl [])
  refine ⟨?_, ?_⟩
  · rw [← hcons.1]
    split <;> split <;> omega
  · rw [← hcons.2]
    split <;> split <;> omega

lemma sortCmp_compares (mode : FsSortMode) (a b : FsEntry) :
    Compares (sortCmp mode false a b) (sortKey mode a) (sortKey mode b) := by
  have hdir : Compares (if a.isDir ≠ b.isDir then (if a.isDir then -1 else 1) else 0)
      (if a.isDir then 0 else 1) (if b.isDir then 0 else 1) := by
    cases a.isDir <;> cases b.isDir <;> simp [Compares]
  have hif : ∀ d, (if (if a.isDir ≠ b.isDir then (if a.isDir then (-1 : Int) else 1) else 0) ≠ 0 then
      (if a.isDir ≠ b.isDir then (if a.isDir then -1 else 1) else 0) else d) =
      if a.isDir ≠ b.isDir then (if a.isDir then -1 else 1) else d := by
    intro d
    cases a.isDir <;> cases b.isDir <;> simp
  cases mode with
  | name =>
    have hlex := hdir.lex ((fsStricmp_compares a.name b.name).pair ([] : List Nat))
    rw [hif] at hlex
    exact hlex
  | size =>
    have hlex := hdir.lex ((size_compares a.size b.size).pair ([] : List Nat))
    rw [hif] at hlex
    exact hlex
  | type =>
    have hlex := hdir.lex (fsExtcmp_compares a.name b.name)
    rw [hif] at hlex
    exact hlex

lemma sortCmp_pos_iff : 0 < sortCmp mode descending a b ↔
    if descending then sortKey mode a < sortKey mode b else sortKey mode b < sortKey mode a := by
  have hcmp := sortCmp_compares mode a b
  cases descending with
  | false => exact hcmp.2
  | true =>
    have hneg : sortCmp mode true a b = -sortCmp mode false a b := rfl
    rw [hneg, if_pos rfl, ← hcmp.1]
    omega

lemma sortCmp_not_pos_iff : decide (0 < sortCmp mode descending a b) = false ↔
    if descending then sortKey mode b ≤ sortKey mode a else sortKey mode a ≤ sortKey mode b := by
  rw [decide_eq_false_iff_not, sortCmp_pos_iff]
  cases descending with
  | false => exact not_lt
  | true => exact not_lt

lemma sortCmp_weak (mode : FsSortMode) (descending : Bool) :
    Weak fun a b => decide (0 < sortCmp mode descending a b) := by
  refine ⟨fun {a b} hab => ?_, fun {a b c} hab hbc => ?_⟩
  · rw [decide_eq_true_eq, sortCmp_pos_iff] at hab
    rw [sortCmp_not_pos_iff]
    cases descending with
    | false => exact hab.le
    | true => exact hab.le
  · rw [sortCmp_not_pos_iff] at hab hbc ⊢
    cases descending with
    | false => exact hab.trans hbc
    | true => exact hbc.trans hab

lemma tied_sortCmp (mode : FsSortMode) (descending : Bool) (e x : FsEntry) :
    tied (fun a b => decide (0 < sortCmp mode descending a b)) e x =
      decide (sortKey mode x = sortKey mode e) := by
  rw [tied, Bool.eq_iff_iff, Bool.and_eq_true, Bool.not_eq_true', Bool.not_eq_true',
    sortCmp_not_pos_iff, sortCmp_not_pos_iff, decide_eq_true_eq]
  cases descending with
  | false => exact ⟨fun h => le_antisymm h.2 h.1, fun h => ⟨h.ge, h.le⟩⟩
  | true => exact ⟨fun h => le_antisymm h.1 h.2, fun h => ⟨h.le, h.ge⟩⟩

end Keys

/-- `fs_sort_entries` leaves a permutation of the first `count` entries in the order of their keys,
reversed when descending; entries with equal keys keep their order, and those behind the first
`count` stay. -/
theorem fsSortEntries_sorts (entries : List FsEntry) (count : Int) (mode : FsSortMode)
    (descending : Bool) (hcount : count ≤ entries.length) :
    ∃ ys, fsSortEntries entries count mode descending = ys ++ entries.drop count.toNat ∧
      ys.Perm (entries.take count.toNat) ∧
      ys.Pairwise (fun a b =>
        if descending then sortKey mode b ≤ sortKey mode a else sortKey mode a ≤ sortKey mode b) ∧
      ∀ e, ys.filter (fun x => sortKey mode x = sortKey mode e) =
        (entries.take count.toNat).filter (fun x => sortKey mode x = sortKey mode e) := by
  have hsort : fsSortEntries entries count mode descending =
      bubbleSort (fun a b => decide (0 < sortCmp mode descending a b)) count.toNat entries := by
    unfold fsSortEntries
    split
    · -- the outer loop makes no turn
      have hturns : count.toNat - 1 = 0 := by omega
      rw [bubbleSort, hturns]
      rfl
    · rfl
  have hn : count.toNat ≤ entries.length := by omega
  obtain ⟨ys, hrun, -, hsorted, hre⟩ := bubbleSort_sorts (sortCmp_weak mode descending) hn
  refine ⟨ys, hsort.trans hrun, hre.perm, hsorted.imp fun hab => sortCmp_not_pos_iff.mp hab, fun e => ?_⟩
  have htied := funext (tied_sortCmp mode descending e)
  have horder := hre.order e
  rwa [htied] at horder

/-- The directory comes first; the two files have equal keys and stay in their order. -/
theorem fsSortEntries_sorts_case :
    ∃ ys, fsSortEntries [⟨[0x62], 5, false⟩, ⟨[0x42], 7, false⟩, ⟨[0x7A], 0, true⟩] 3 .name false = ys ∧
      ys = [⟨[0x7A], 0, true⟩, ⟨[0x62], 5, false⟩, ⟨[0x42], 7, false⟩] ∧
      ys.Pairwise fun a b => sortKey .name a ≤ sortKey .name b := by
  obtain ⟨ys, hrun, -, hsorted, -⟩ := fsSortEntries_sorts
    [⟨[0x62], 5, false⟩, ⟨[0x42], 7, false⟩, ⟨[0x7A], 0, true⟩] 3 .name false (by decide)
  have heval : fsSortEntries [⟨[0x62], 5, false⟩, ⟨[0x42], 7, false⟩, ⟨[0x7A], 0, true⟩] 3 .name false =
      [⟨[0x7A], 0, true⟩, ⟨[0x62], 5, false⟩, ⟨[0x42], 7, false⟩] := by decide
  refine ⟨ys, hrun.trans (append_nil ys), ?_, hsorted⟩
  rw [← heval, hrun]
  exact (append_nil ys).symm

end FusionOS.Fat
