import Mathlib.Data.List.Perm.Subperm
import FusionOS.Fat.Release

/-!
# The link table

Allocation and release of clusters, as effects on the table.
-/

namespace FusionOS.Fat

open List
open Function (update update_apply update_of_ne update_self)

/-- The chain of cluster `c` in the table `fat`. -/
abbrev FatChain (v : Volume) (fat : Nat → Nat) : Nat → List Nat → Prop :=
  Chain v.IsCluster (eoc ≤ ·) fat

/-- The clusters that a walk from `c` visits until a link ends it. -/
abbrev Walk (v : Volume) (fat : Nat → Nat) : Nat → List Nat → Prop :=
  Chain v.IsCluster (fun x => ¬ (2 ≤ x ∧ x < eoc)) fat

/-- The free clusters in the range that `fat_alloc_cluster` searches, in its order. -/
def freeClusters (v : Volume) (fat : Nat → Nat) : List Nat :=
  (List.range' 2 (v.totalClusters - 2)).filter fun c => fat c = 0

/-- The table after the release of the clusters `l`. -/
def freeAll (fat : Nat → Nat) (l : List Nat) : Nat → Nat := fun c => if c ∈ l then 0 else fat c

section Chains
variable {v : Volume} {fat : Nat → Nat} {c x : Nat} {l : List Nat}

lemma Geometry.not_eoc (hg : Geometry v) : ∀ x, v.IsCluster x → ¬ eoc ≤ x := by
  intro x hx
  have := hg.small
  have := hx.2
  omega

lemma FatChain.walk (h : FatChain v fat c l) : Walk v fat c l := by
  induction h with
  | last hn hs => exact .last hn fun hx => Nat.not_le.mpr hx.2 hs
  | cons hn _ ih => exact .cons hn ih

lemma FatChain.nodup (hg : Geometry v) (h : FatChain v fat c l) : l.Nodup :=
  Chain.nodup hg.not_eoc h

lemma FatChain.unique (hg : Geometry v) {l' : List Nat} (h : FatChain v fat c l)
    (h' : FatChain v fat c l') : l = l' := Chain.unique hg.not_eoc h h'

lemma FatChain.fat_ne_zero (h : FatChain v fat c l) (hx : x ∈ l) : fat x ≠ 0 := by
  rcases Chain.link h x hx with hn | hs
  · have := hn.1
    omega
  · intro h0
    rw [h0] at hs
    exact absurd hs (by decide)

lemma clusters_length_lt (hg : Geometry v) (hl : ∀ x ∈ l, v.IsCluster x) (hnd : l.Nodup) :
    l.length + 1 < chainFuel := by
  have hsub : l ⊆ List.range v.limit := fun x hx => mem_range.mpr (hl x hx).2
  have hle := (subperm_of_subset hnd hsub).length_le
  rw [length_range] at hle
  have hsmall := hg.small
  unfold eoc at hsmall
  unfold chainFuel
  omega

lemma FatChain.length_lt (hg : Geometry v) (h : FatChain v fat c l) :
    l.length + 1 < chainFuel := clusters_length_lt hg (Chain.node h) (FatChain.nodup hg h)

lemma FatChain.lt_fuel (h : FatChain v fat c l) (hg : Geometry v) : l.length < chainFuel := by
  have := FatChain.length_lt hg h
  omega

lemma isCluster_guard (hg : Geometry v) (hc : v.IsCluster c) : 2 ≤ c ∧ c < eoc :=
  ⟨hc.1, Nat.lt_of_lt_of_le hc.2 hg.small⟩

lemma Geometry.guard (hg : Geometry v) : ∀ x, v.IsCluster x → ¬ ¬ (2 ≤ x ∧ x < eoc) :=
  fun _ hx => not_not.mpr (isCluster_guard hg hx)

lemma mem_freeClusters : x ∈ freeClusters v fat ↔ (2 ≤ x ∧ x < v.totalClusters) ∧ fat x = 0 := by
  unfold freeClusters
  rw [mem_filter, mem_range'_1, decide_eq_true_eq]
  constructor
  · rintro ⟨h, h0⟩
    exact ⟨by omega, h0⟩
  · rintro ⟨h, h0⟩
    exact ⟨by omega, h0⟩

lemma isCluster_of_free (h : x ∈ freeClusters v fat) : v.IsCluster x := by
  have := (mem_freeClusters.mp h).1
  exact ⟨this.1, by unfold Volume.limit; omega⟩

lemma freeClusters_nodup : (freeClusters v fat).Nodup :=
  List.Nodup.filter _ nodup_range'

lemma freeClusters_congr {fat' : Nat → Nat}
    (h : ∀ x, 2 ≤ x → x < v.totalClusters → (fat' x = 0 ↔ fat x = 0)) :
    freeClusters v fat' = freeClusters v fat := by
  unfold freeClusters
  apply filter_congr
  intro x hx
  have hx' := mem_range'_1.mp hx
  rw [decide_eq_decide]
  exact h x hx'.1 (by omega)

lemma freeClusters_take {fs : List Nat} (h : freeClusters v fat = c :: fs) {value : Nat}
    (hv : value ≠ 0) : freeClusters v (update fat c value) = fs := by
  have hnd : (c :: fs).Nodup := h ▸ freeClusters_nodup
  have hfilter : freeClusters v (update fat c value) =
      (freeClusters v fat).filter fun x => x != c := by
    unfold freeClusters
    rw [filter_filter]
    apply filter_congr
    intro x _
    by_cases hx : x = c
    · simp [hx, hv]
    · simp [hx]
  rw [hfilter, h, filter_cons_of_neg (by simp)]
  apply filter_eq_self.mpr
  intro x hx
  have : x ≠ c := by
    rintro rfl
    exact (nodup_cons.mp hnd).1 hx
  simpa using this

lemma Quiet.chain {st st' : Fs} (hq : Quiet st st') (h : FatChain st.vol st.fat c l) :
    FatChain st'.vol st'.fat c l := by
  rw [hq.vol, hq.fat]
  exact h

end Chains

section Operations
variable {st : Fs}

variable {ch fs l : List Nat} {c : Nat}

lemma allocLoop_none (hr : Ready st) (n c : Nat)
    (hn : c + n ≤ st.vol.limit) (hfree : (List.range' c n).filter (fun c => st.fat c = 0) = []) :
    ∃ st', allocLoop n c st = (none, st') ∧ Quiet st st' := by
  induction n generalizing st c with
  | zero => exact ⟨st, rfl, Quiet.refl st⟩
  | succ n ih =>
    obtain ⟨st1, hget, hq⟩ := fatGetEntry_ok hr (c := c) (by omega)
    rw [List.range'_succ, filter_eq_nil_iff] at hfree
    have hne : st.fat c ≠ 0 := by simpa using hfree c mem_cons_self
    obtain ⟨st2, hrun, hq2⟩ := @ih st1 (hq.ready hr) (c + 1)
      (by rw [hq.vol]; omega)
      (by
        rw [hq.fat]
        exact filter_eq_nil_iff.mpr fun x hx => hfree x (mem_cons_of_mem _ hx))
    refine ⟨st2, ?_, hq.trans hq2⟩
    rw [allocLoop, hget]
    dsimp only
    rw [if_neg hne]
    exact hrun

lemma allocLoop_marks (hr : Ready st) (n c : Nat)
    (hn : c + n ≤ st.vol.limit) {x : Nat}
    (hfree : (List.range' c n).filter (fun c => st.fat c = 0) = x :: fs) :
    ∃ st1 st', allocLoop n c st = (some x, st') ∧ Quiet st st1 ∧ x < st.vol.limit ∧
      fatSetEntry st1 x 0x0FFFFFFF = (true, st') := by
  induction n generalizing st c with
  | zero => simp at hfree
  | succ n ih =>
    obtain ⟨st1, hget, hq⟩ := fatGetEntry_ok hr (c := c) (by omega)
    rw [allocLoop, hget]
    dsimp only
    rw [List.range'_succ] at hfree
    by_cases h0 : st.fat c = 0
    · rw [filter_cons_of_pos (by simpa using h0)] at hfree
      obtain ⟨rfl, -⟩ := List.cons.inj hfree
      obtain ⟨st2, hset, -⟩ := fatSetEntry_ok (hq.ready hr)
        (c := c) (by rw [hq.vol]; omega) (show 0x0FFFFFFF < 2 ^ 28 by decide)
      rw [if_pos h0, hset]
      exact ⟨st1, st2, rfl, hq, by omega, hset⟩
    · rw [filter_cons_of_neg (by simpa using h0)] at hfree
      obtain ⟨st2, st3, hrun, hq2, hlt, hset⟩ := @ih st1 (hq.ready hr) (c + 1)
        (by rw [hq.vol]; omega) (by rw [hq.fat]; exact hfree)
      rw [if_neg h0]
      exact ⟨st2, st3, hrun, hq.trans hq2, by rwa [hq.vol] at hlt, hset⟩

lemma Geometry.search_le {v : Volume} (hg : Geometry v) : 2 + (v.totalClusters - 2) ≤ v.limit := by
  have := hg.root_lt
  have := hg.root_ge
  unfold Volume.limit at *
  omega

lemma fatAllocCluster_none (hr : Ready st)
    (hfree : freeClusters st.vol st.fat = []) :
    ∃ st', fatAllocCluster st = (none, st') ∧ Quiet st st' :=
  allocLoop_none hr _ _ hr.geometry.search_le hfree

lemma fatAllocCluster_some (hr : Ready st)
    (hfree : freeClusters st.vol st.fat = c :: fs) :
    ∃ st', fatAllocCluster st = (some c, st') ∧ Held st st' ∧
      st'.fat = update st.fat c 0x0FFFFFFF ∧ st'.data = st.data := by
  obtain ⟨st1, st', hrun, hq, hlt, hset⟩ := allocLoop_marks hr _ _ hr.geometry.search_le hfree
  obtain ⟨st2, hset2, hd, hfat, hdata⟩ := fatSetEntry_ok (hq.ready hr)
    (c := c) (by rw [hq.vol]; exact hlt) (show 0x0FFFFFFF < 2 ^ 28 by decide)
  rw [hset] at hset2
  cases hset2
  refine ⟨st', hrun, hq.held.trans hd, ?_, ?_⟩
  · rw [hfat, hq.fat]
  · rw [hdata, hq.data]

lemma fatFreeChain_ok (hr : Ready st)
    (h : FatChain st.vol st.fat c l) :
    ∃ st', fatFreeChain st c = some (true, st') ∧ Held st st' ∧
      st'.fat = freeAll st.fat l ∧ st'.data = st.data := by
  have hg := hr.geometry
  have hnode := Chain.node h
  have hlinks : FatChain st.vol st.link c l := Chain.congr h fun x hx => link_eq_fat hg (hnode x hx).2
  have hmem : ∀ x, st.Reached c x ↔ x ∈ l := fun x =>
    Chain.reach hlinks (fun _ => isCluster_guard hg) fun _ hs hgo => Nat.not_le.mpr hgo.2 hs
  obtain ⟨-, st', hrun, hd, hdata, hfat⟩ := fatFreeChain_clears (Z := (· ∈ l)) hr hnode
    (fun x hx hgo => (Chain.next_mem h x hx).resolve_right (Nat.not_le.mpr hgo.2)) h.head_mem
  refine ⟨st', hrun, hd, ?_, hdata⟩
  funext x
  rw [freeAll]
  split
  · next hx => exact (hfat x).1 ((hmem x).mpr hx)
  · next hx => exact (hfat x).2 fun h => hx ((hmem x).mp h)

lemma lastLoop_ok (hr : Ready st)
    (h : FatChain st.vol st.fat c l) (fuel : Nat) (hf : l.length ≤ fuel) :
    ∃ st', lastLoop fuel c st = some (l.getLast h.ne_nil, st') ∧ Quiet st st' := by
  induction l generalizing st c fuel with
  | nil => exact absurd rfl h.ne_nil
  | cons a t ih =>
    obtain rfl := h.head_eq
    obtain ⟨fuel, rfl⟩ := Nat.exists_eq_add_one.mpr (Nat.zero_lt_of_lt hf)
    obtain ⟨st1, hget, hq⟩ := fatGetEntry_ok hr h.node_head.2
    rw [lastLoop, hget]
    dsimp only
    cases h with
    | last _ hstop =>
      rw [if_pos hstop]
      exact ⟨st1, rfl, hq⟩
    | cons _ ht =>
      rw [if_neg (hr.geometry.not_eoc _ ht.node_head)]
      have ht1 := hq.chain ht
      obtain ⟨st2, hrun, hq2⟩ := ih (hq.ready hr) ht1 fuel
        (by rw [length_cons] at hf; omega)
      refine ⟨st2, ?_, hq.trans hq2⟩
      rw [hrun, getLast_cons ht1.ne_nil]

lemma countLoop_ok (hr : Ready st)
    (h : FatChain st.vol st.fat c l) (fuel count : Nat) (hf : l.length < fuel) :
    ∃ st', countLoop fuel c count st = some (count + l.length, st') ∧ Quiet st st' := by
  induction l generalizing st c fuel count with
  | nil => exact absurd rfl h.ne_nil
  | cons a t ih =>
    obtain rfl := h.head_eq
    obtain ⟨fuel, rfl⟩ := Nat.exists_eq_add_one.mpr (Nat.zero_lt_of_lt hf)
    obtain ⟨st1, hget, hq⟩ := fatGetEntry_ok hr h.node_head.2
    rw [countLoop, if_pos (isCluster_guard hr.geometry h.node_head), hget]
    dsimp only
    cases h with
    | last _ hstop =>
      obtain ⟨fuel, rfl⟩ := Nat.exists_eq_add_one.mpr (Nat.lt_of_succ_lt_succ hf)
      rw [countLoop, if_neg (by omega)]
      exact ⟨st1, rfl, hq⟩
    | cons _ ht =>
      have ht1 := hq.chain ht
      obtain ⟨st2, hrun, hq2⟩ := ih (hq.ready hr) ht1 fuel (count + 1)
        (by rw [length_cons] at hf; omega)
      refine ⟨st2, ?_, hq.trans hq2⟩
      rw [hrun, length_cons, Nat.add_assoc, Nat.add_comm 1]

lemma extend_step (hr : Ready st) {first last : Nat}
    (h : FatChain st.vol st.fat first ch) (hl : ch.getLast? = some last)
    (hfree : freeClusters st.vol st.fat = c :: fs) :
    ∃ st1 st2, fatAllocCluster st = (some c, st1) ∧ fatSetEntry st1 last c = (true, st2) ∧
      Held st st2 ∧ st2.data = st.data ∧ FatChain st.vol st2.fat first (ch ++ [c]) ∧
      freeClusters st.vol st2.fat = fs ∧ st2.fat = update (update st.fat c 0x0FFFFFFF) last c := by
  have hg := hr.geometry
  have hcfree : c ∈ freeClusters st.vol st.fat := by rw [hfree]; exact mem_cons_self
  have hcl : st.vol.IsCluster c := isCluster_of_free hcfree
  have hc0 : st.fat c = 0 := (mem_freeClusters.mp hcfree).2
  have hlast : ch.getLast h.ne_nil = last := by
    rw [List.getLast?_eq_some_getLast h.ne_nil] at hl
    exact Option.some.inj hl
  have hmem : last ∈ ch := hlast ▸ getLast_mem h.ne_nil
  have hcout : c ∉ ch := fun hx => h.fat_ne_zero hx hc0
  have hne : c ≠ last := by
    rintro rfl
    exact hcout hmem
  obtain ⟨st1, halloc, hd1, hfat1, hdata1⟩ := fatAllocCluster_some hr hfree
  obtain ⟨st2, hset, hd2, hfat2, hdata2⟩ := fatSetEntry_ok (hd1.ready hr) (c := last)
    (by rw [hd1.vol]; exact (Chain.node h _ hmem).2)
    (show c < 2 ^ 28 by have := isCluster_guard hg hcl; unfold eoc at this; omega)
  have hch1 : FatChain st.vol st1.fat first ch := by
    rw [hfat1]
    apply Chain.congr h
    intro x hx
    apply update_of_ne
    rintro rfl
    exact hcout hx
  have hc1 : FatChain st.vol st1.fat c [c] := by
    apply Chain.last hcl
    rw [hfat1, update_self]
    decide
  refine ⟨st1, st2, halloc, hset, hd1.trans hd2, hdata2.trans hdata1, ?_, ?_, ?_⟩
  · have := Chain.redirect hch1 (h.nodup hg) hc1 (by simpa [hlast] using hne.symm)
    rw [hfat2, ← hlast]
    exact this
  · rw [← freeClusters_take hfree (show 0x0FFFFFFF ≠ 0 by decide), hfat2, ← hfat1]
    apply freeClusters_congr
    intro x _ _
    by_cases hx : x = last
    · rw [hx, update_self]
      constructor
      · intro h0
        exact absurd h0 (by have := hcl.1; omega)
      · intro h0
        exact absurd h0 (hch1.fat_ne_zero hmem)
    · rw [update_of_ne hx]
  · rw [hfat2, hfat1]

lemma extendLoop_ok (hr : Ready st) {first last : Nat}
    (h : FatChain st.vol st.fat first ch) (hl : ch.getLast? = some last) (n : Nat) :
    ∃ st', extendLoop n last st =
        (if n ≤ (freeClusters st.vol st.fat).length then
          (ch ++ (freeClusters st.vol st.fat).take n).getLast? else none, st') ∧
      Held st st' ∧ st'.data = st.data ∧
      FatChain st.vol st'.fat first (ch ++ (freeClusters st.vol st.fat).take n) ∧
      freeClusters st.vol st'.fat = (freeClusters st.vol st.fat).drop n ∧
      ∀ x, x ∉ (freeClusters st.vol st.fat).take n → x ≠ last → st'.fat x = st.fat x := by
  induction n generalizing st ch last with
  | zero =>
    refine ⟨st, ?_, Held.refl st, rfl, ?_, ?_, fun x _ _ => rfl⟩
    · rw [extendLoop, if_pos (Nat.zero_le _), take_zero, append_nil, hl]
    · rw [take_zero, append_nil]
      exact h
    · rw [drop_zero]
  | succ n ih =>
    cases hfree : freeClusters st.vol st.fat with
    | nil =>
      obtain ⟨st1, halloc, hq⟩ := fatAllocCluster_none hr hfree
      refine ⟨st1, ?_, hq.held, hq.data, ?_, ?_, fun x _ _ => by rw [hq.fat]⟩
      · rw [extendLoop, halloc]
        rfl
      · rw [take_nil, append_nil, hq.fat]
        exact h
      · rw [drop_nil, hq.fat, hfree]
    | cons c fs =>
      obtain ⟨st1, st2, halloc, hset, hd, hdata, hch, hfs, hfat⟩ := extend_step hr h hl hfree
      obtain ⟨st3, hrun, hd3, hdata3, hch3, hfs3, hout3⟩ :=
        ih (hd.ready hr) (by rw [hd.vol]; exact hch) (List.getLast?_concat ..)
      rw [hd.vol] at hrun hch3 hfs3 hout3
      rw [hfs] at hrun hch3 hfs3 hout3
      rw [append_assoc] at hrun hch3
      refine ⟨st3, ?_, hd.trans hd3, hdata3.trans hdata, hch3, hfs3, ?_⟩
      · rw [extendLoop, halloc]
        dsimp only
        rw [hset]
        dsimp only
        rw [hrun, take_succ_cons, length_cons]
        congr 1
        by_cases hn : n ≤ fs.length
        · rw [if_pos hn, if_pos (by omega)]
          rfl
        · rw [if_neg hn, if_neg (by omega)]
      · intro x hx hxl
        rw [take_succ_cons, mem_cons] at hx
        push Not at hx
        rw [hout3 x hx.2 hx.1, hfat, update_of_ne hxl, update_of_ne hx.1]

end Operations

end FusionOS.Fat
