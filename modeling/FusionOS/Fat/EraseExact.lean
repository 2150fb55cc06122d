import FusionOS.Fat.Erase
import FusionOS.Fat.NewEntry

/-!
# Lookup and deletion compared

Both scanners join the long-name slots in front of an entry to its name. Lookup carries them over
the end of a cluster, deletion forgets them there and keeps the places of 20 of them only.
-/

namespace FusionOS.Fat

open List
open Function (update update_of_ne update_self)

variable {x : Found} {xs : List Found} {l : List Nat} {c : Nat}

/-! ## The marks -/

/-- The disk with the slots `xs` marked as deleted. -/
def eraseSlots (data : Nat → Mem) (xs : List Found) : Nat → Mem := fun c i =>
  if ∃ x ∈ xs, x.cluster = c ∧ x.offset = i then 0xE5 else data c i

lemma eraseAt_eq_eraseSlots (data : Nat → Mem)
    (hc : ∀ x ∈ xs, x.cluster = c) : eraseAt data c (xs.map Found.offset) = eraseSlots data xs := by
  funext a i
  unfold eraseAt eraseSlots
  by_cases ha : a = c
  · subst ha
    rw [update_self]
    apply if_congr _ rfl rfl
    rw [mem_map]
    constructor
    · rintro ⟨x, hx, rfl⟩
      exact ⟨x, hx, hc x hx, rfl⟩
    · rintro ⟨x, hx, -, rfl⟩
      exact ⟨x, hx, rfl⟩
  · rw [update_of_ne ha, if_neg]
    rintro ⟨x, hx, hxc, -⟩
    exact ha (hxc.symm.trans (hc x hx))

lemma mem_of_eraseSlots_eq {v : Volume} {data : Nat → Mem} {ys : List Found}
    (hxs : ∀ x ∈ xs, x ∈ dirSlots v data l) (hys : ∀ y ∈ ys, y ∈ dirSlots v data l)
    (hused : ∀ x ∈ xs, x.ent.getD 0 0 ≠ 0xE5) (h : eraseSlots data xs = eraseSlots data ys) (hx : x ∈ xs) :
    x ∈ ys := by
  by_contra hy
  have hmark : eraseSlots data xs x.cluster x.offset = 0xE5 := if_pos ⟨x, hx, rfl, rfl⟩
  have hplain : eraseSlots data ys x.cluster x.offset = data x.cluster x.offset := by
    apply if_neg
    rintro ⟨y, hmem, hc, ho⟩
    exact hy (found_ext (hys y hmem) (hxs x hx) hc ho ▸ hmem)
  apply hused x hx
  have hfirst : (slice (data x.cluster) x.offset 32)[0]? = some (data x.cluster x.offset) :=
    slice_getElem? _ _ (by omega)
  rw [(mem_dirSlots.mp (hxs x hx)).2.2.2, getD_eq_getElem?_getD, hfirst]
  exact (hplain.symm.trans (congrFun (congrFun h.symm _) _)).trans hmark

/-! ## The two scanners -/

section Agreement
variable {st : Fs} {c : Nat} {l : List Nat}

variable {name : CString} {ns : List Named} {n : Named}

lemma fatDeleteEntry_none (hr : Ready st) (h : FatChain st.vol st.fat c l)
    (hfirst : firstOwn name (named [] (dirSlots st.vol st.data l)) = none) :
    ∃ st', fatDeleteEntry st c name = some (false, st') ∧ Quiet st st' := by
  have hdel := fatDeleteEntry_named hr h name
  rw [hfirst] at hdel
  exact hdel

lemma fatDeleteEntry_some (hr : Ready st) (h : FatChain st.vol st.fat c l)
    (hfirst : firstOwn name (named [] (dirSlots st.vol st.data l)) = some n) :
    ∃ st', fatDeleteEntry st c name = some (true, st') ∧ DiskOnly st st' ∧ st'.fat = st.fat ∧
      st'.data = eraseSlots st.data (n.own.take 20 ++ [n.slot]) := by
  have hdel := fatDeleteEntry_named hr h name
  rw [hfirst] at hdel
  obtain ⟨st', hdel, -, herased⟩ := hdel
  refine ⟨st', hdel, herased.disk, herased.fat, ?_⟩
  have hown : ∀ x ∈ n.own.take 20 ++ [n.slot], x.cluster = n.slot.cluster := by
    intro x hx
    rcases mem_append.mp hx with hx | hx
    · exact of_decide_eq_true (mem_filter.mp (mem_of_mem_take hx)).2
    · rw [mem_singleton.mp hx]
  rw [herased.data, ← eraseAt_eq_eraseSlots st.data hown, map_append]
  rfl

/-- The first entry that lookup takes for `name`. -/
def firstNamed (name : CString) (ns : List Named) : Option Named :=
  ns.find? fun n => nameEquals n.name name

/-- The first entry that one of the scanners takes for `name`. -/
def firstEither (name : CString) (ns : List Named) : Option Named :=
  ns.find? fun n => nameEquals n.name name || nameEquals n.ownName name

/-- Deletion in the directory at `c` marks the entry that lookup finds and the slots of its name,
and nothing where lookup finds nothing. -/
def DeletesFound (st : Fs) (c : Nat) (l : List Nat) (name : CString) : Prop :=
  match firstNamed name (named [] (dirSlots st.vol st.data l)) with
  | none => ∃ st', fatDeleteEntry st c name = some (false, st') ∧ Quiet st st'
  | some n => ∃ st', fatDeleteEntry st c name = some (true, st') ∧ DiskOnly st st' ∧
      st'.fat = st.fat ∧ st'.data = eraseSlots st.data (n.lfns ++ [n.slot])

/-- The slots of the name are those that deletion keeps. -/
def Named.Compact (n : Named) : Prop :=
  (∀ x ∈ n.lfns, x.cluster = n.slot.cluster) ∧ n.lfns.length ≤ 20

lemma Named.Compact.own_eq (h : n.Compact) : n.own = n.lfns :=
  filter_eq_self.mpr fun x hx => decide_eq_true (h.1 x hx)

lemma find?_of_or {α : Type} {p q : α → Bool} {xs : List α} {x : α}
    (h : xs.find? (fun y => p y || q y) = some x) (hx : p x = true) : xs.find? p = some x := by
  obtain ⟨-, as, bs, rfl, has⟩ := List.find?_eq_some_iff_append.mp h
  refine List.find?_eq_some_iff_append.mpr ⟨hx, as, bs, rfl, fun a ha => ?_⟩
  have := has a ha
  simp only [Bool.not_eq_true', Bool.or_eq_false_iff] at this
  rw [this.1]
  rfl

lemma firstEither_none (h : firstEither name ns = none) :
    firstNamed name ns = none ∧ firstOwn name ns = none := by
  unfold firstEither at h
  simp only [List.find?_eq_none, Bool.or_eq_true, not_or] at h
  exact ⟨List.find?_eq_none.mpr fun n hn => (h n hn).1,
    List.find?_eq_none.mpr fun n hn => (h n hn).2⟩

lemma firstEither_some
    (h : firstEither name ns = some n) :
    nameEquals n.name name = true ∨ nameEquals n.ownName name = true := by
  have := List.find?_some h
  exact Bool.or_eq_true_iff.mp this

lemma firstEither_name
    (h : firstEither name ns = some n) (hn : nameEquals n.name name = true) :
    firstNamed name ns = some n := find?_of_or h hn

lemma firstEither_ownName
    (h : firstEither name ns = some n) (hn : nameEquals n.ownName name = true) :
    firstOwn name ns = some n := by
  have hcomm : (fun n : Named => nameEquals n.name name || nameEquals n.ownName name) =
      fun n => nameEquals n.ownName name || nameEquals n.name name := funext fun n => Bool.or_comm _ _
  rw [firstEither, hcomm] at h
  exact find?_of_or h hn

lemma named_slots (h : n ∈ named [] (dirSlots st.vol st.data l)) :
    ∀ x ∈ n.lfns ++ [n.slot], x ∈ dirSlots st.vol st.data l ∧ x.ent.getD 0 0 ≠ 0xE5 := by
  obtain ⟨hentry, hlfns⟩ := mem_named h
  intro x hx
  rcases mem_append.mp hx with hx | hx
  · exact ⟨(named_lfns_sublist h).subset hx, (hlfns x hx).1.2⟩
  · rw [mem_singleton.mp hx]
    exact ⟨(named_slots_sublist _ _).subset (mem_map_of_mem h), hentry.2.1⟩

lemma own_subset {x : Found} (hx : x ∈ n.own.take 20 ++ [n.slot]) :
    x ∈ n.lfns ++ [n.slot] := by
  rcases mem_append.mp hx with hx | hx
  · exact mem_append_left _ (mem_filter.mp (mem_of_mem_take hx)).1
  · exact mem_append_right _ hx

lemma compact_of_marks (hl : l.Nodup) {m : Named}
    (hn : n ∈ named [] (dirSlots st.vol st.data l)) (hm : m ∈ named [] (dirSlots st.vol st.data l))
    (h : eraseSlots st.data (n.lfns ++ [n.slot]) = eraseSlots st.data (m.own.take 20 ++ [m.slot])) :
    n = m ∧ n.Compact := by
  have hmem : ∀ x ∈ n.lfns ++ [n.slot], x ∈ m.own.take 20 ++ [m.slot] := fun x hx =>
    mem_of_eraseSlots_eq (fun x hx => (named_slots hn x hx).1)
      (fun x hx => (named_slots hm x (own_subset hx)).1) (fun x hx => (named_slots hn x hx).2) h hx
  obtain ⟨hentry, hlfns⟩ := mem_named hn
  obtain ⟨hentry', hlfns'⟩ := mem_named hm
  have hslot : n.slot = m.slot := by
    rcases mem_append.mp (hmem n.slot (mem_append_right _ mem_cons_self)) with hx | hx
    · have hx := (mem_filter.mp (mem_of_mem_take hx)).1
      exact absurd (hlfns' _ hx).2 hentry.2.2
    · exact mem_singleton.mp hx
  have hnd := (named_slots_sublist [] (dirSlots st.vol st.data l)).nodup (dirSlots_nodup hl)
  obtain rfl := inj_on_of_nodup_map hnd hn hm hslot
  have hkept : ∀ x ∈ n.lfns, x ∈ n.own.take 20 := by
    intro x hx
    rcases mem_append.mp (hmem x (mem_append_left _ hx)) with h | h
    · exact h
    · rw [mem_singleton.mp h] at hx
      exact absurd (hlfns _ hx).2 hentry.2.2
  refine ⟨rfl, fun x hx => ?_, ?_⟩
  · exact of_decide_eq_true (mem_filter.mp (mem_of_mem_take (hkept x hx))).2
  · have hlen := (((named_lfns_sublist hn).nodup (dirSlots_nodup hl)).subperm hkept).length_le
    rw [length_take] at hlen
    omega

/-- Deletion agrees with lookup exactly if the first entry that one of them takes for the name
has the slots of its long name in its own cluster, and at most 20. -/
theorem delete_agrees_iff (hr : Ready st) (h : FatChain st.vol st.fat c l) (name : CString) :
    (∃ st', fatFindEntry st c name =
        some ((firstNamed name (named [] (dirSlots st.vol st.data l))).map Named.slot, st') ∧
        Quiet st st') ∧
      (DeletesFound st c l name ↔
        ∀ n, firstEither name (named [] (dirSlots st.vol st.data l)) = some n → n.Compact) := by
  constructor
  · obtain ⟨st', hfind, hq⟩ := fatFindEntry_ok hr h name
    refine ⟨st', ?_, hq⟩
    rw [hfind]
    exact congrArg (fun r => some (r, st')) (lookup_named name [] _)
  constructor
  · intro hagree n hn
    unfold DeletesFound at hagree
    cases hown : firstOwn name (named [] (dirSlots st.vol st.data l)) with
    | none =>
      -- lookup alone takes `n` for the name, and nothing is deleted
      obtain ⟨st₁, hdel, -⟩ := fatDeleteEntry_none hr h hown
      have hname : nameEquals n.name name = true := by
        rcases firstEither_some hn with h | h
        · exact h
        · rw [firstEither_ownName hn h] at hown
          cases hown
      rw [firstEither_name hn hname] at hagree
      obtain ⟨st₂, hdel₂, -⟩ := hagree
      rw [hdel] at hdel₂
      cases hdel₂
    | some m =>
      obtain ⟨st₁, hdel, -, -, hdata⟩ := fatDeleteEntry_some hr h hown
      cases hfull : firstNamed name (named [] (dirSlots st.vol st.data l)) with
      | none =>
        rw [hfull] at hagree
        obtain ⟨st₂, hdel₂, -⟩ := hagree
        rw [hdel] at hdel₂
        cases hdel₂
      | some n₂ =>
        rw [hfull] at hagree
        obtain ⟨st₂, hdel₂, -, -, hdata₂⟩ := hagree
        rw [hdel] at hdel₂
        cases hdel₂
        obtain ⟨rfl, hcompact⟩ := compact_of_marks (FatChain.nodup hr.geometry h)
          (mem_of_find?_eq_some hfull) (mem_of_find?_eq_some hown) (hdata₂.symm.trans hdata)
        -- both scanners stop at this entry, so it is the first for either
        rcases firstEither_some hn with h | h
        · rw [firstEither_name hn h] at hfull
          cases hfull
          exact hcompact
        · rw [firstEither_ownName hn h] at hown
          cases hown
          exact hcompact
  · intro hcompact
    unfold DeletesFound
    cases hfirst : firstEither name (named [] (dirSlots st.vol st.data l)) with
    | none =>
      obtain ⟨hfull, hown⟩ := firstEither_none hfirst
      rw [hfull]
      exact fatDeleteEntry_none hr h hown
    | some n =>
      have hc := hcompact n hfirst
      have hsame : n.ownName = n.name := by rw [Named.ownName, hc.own_eq, Named.name]
      have hname : nameEquals n.name name = true := by
        rcases firstEither_some hfirst with h | h
        · exact h
        · exact hsame ▸ h
      rw [firstEither_name hfirst hname]
      obtain ⟨st', hdel, hd, hfat, hdata⟩ :=
        fatDeleteEntry_some hr h (firstEither_ownName hfirst (hsame ▸ hname))
      rw [hc.own_eq, take_of_length_le hc.2] at hdata
      exact ⟨st', hdel, hd, hfat, hdata⟩

end Agreement

/-- The root directory has two clusters. The slot of the long name `abcdefghi` ends the first
and its entry starts the second, with the entry `A` behind it. -/
def crossed : Fs :=
  smallFs [(2, 3), (3, 0x0FFFFFFF)]
    [(2, List.replicate 480 0xE5 ++ ((entrySlots [97, 98, 99, 100, 101, 102, 103, 104, 105] 0x20).getD 0 [])),
     (3, (entrySlots [97, 98, 99, 100, 101, 102, 103, 104, 105] 0x20).getD 1 [] ++ slotOf [65] 0x20 0 0)]

lemma crossed_chain : FatChain crossed.vol crossed.fat 2 [2, 3] := by
  apply Chain.cons
  · decide
  · rw [show crossed.fat 2 = 3 by decide +kernel]
    apply Chain.last
    · decide
    · decide +kernel

/-- Lookup finds `abcdefghi`, deletion does not. -/
theorem not_delete_agrees_crossed :
    (fatFindEntry crossed 2 [97, 98, 99, 100, 101, 102, 103, 104, 105]).map
        (fun r => r.1.map fun f => (f.cluster, f.offset)) = some (some (3, 0)) ∧
      (fatDeleteEntry crossed 2 [97, 98, 99, 100, 101, 102, 103, 104, 105]).map (fun r => r.1) =
        some false := by
  decide +kernel

/-- `a` has no long name, and its deletion agrees with its lookup. -/
theorem delete_agrees_crossed : DeletesFound crossed 2 [2, 3] [97] := by
  have hr : Ready crossed := smallFs_ready _ _
  have hboth := delete_agrees_iff hr crossed_chain [97]
  have hiff := hboth.2
  rw [hiff]
  intro n hn
  have hlfns : (firstEither [97] (named [] (dirSlots crossed.vol crossed.data [2, 3]))).map
      (fun n => n.lfns.length) = some 0 := by decide +kernel
  rw [hn, Option.map_some, Option.some.injEq] at hlfns
  constructor
  · intro x hx
    rw [length_eq_zero_iff.mp hlfns] at hx
    cases hx
  · exact hlfns.trans_le (Nat.zero_le 20)

end FusionOS.Fat
