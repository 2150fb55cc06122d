import FusionOS.Fat.WellFormed

/-!
# Which cluster is allocated

`fat_alloc_cluster` counts cluster numbers from 2 up to the number of clusters, which leaves out
the last two clusters of the volume.
-/

namespace FusionOS.Fat

/-- What `fat_alloc_cluster` is for: 0 means that every cluster is in use, and another result
is the lowest free cluster, which is now the end of a chain. -/
structure AllocatesLowest (st : Fs) (r : Option Nat × Fs) : Prop where
  full : r.1 = none → ∀ c, st.vol.IsCluster c → st.fat c ≠ 0
  lowest : ∀ c, r.1 = some c →
    st.vol.IsCluster c ∧ st.fat c = 0 ∧ ∀ b < c, st.vol.IsCluster b → st.fat b ≠ 0
  marked : ∀ c, r.1 = some c → EntrySet st r.2 c 0x0FFFFFFF

section Copies
variable {st : Fs}

lemma fatSetEntry_entrySet (hr : Ready st) {c value : Nat} (hc : c < st.vol.limit)
    (hv : value < 2 ^ 32) {st' : Fs} (hset : fatSetEntry st c value = (true, st')) :
    EntrySet st st' c value := by
  obtain ⟨st1, hrun, -, hentry, -⟩ := fatSetEntry_covered hr.io (hr.geometry.covers hc) value
  rw [hrun] at hset
  cases hset
  rw [Nat.mod_eq_of_lt hv] at hentry
  exact hentry

lemma freeClusters_head {v : Volume} {fat : Nat → Nat} {c b : Nat} {fs : List Nat}
    (h : freeClusters v fat = c :: fs) (hb : b ∈ freeClusters v fat) : c ≤ b := by
  have hsorted : (freeClusters v fat).Pairwise (· < ·) := List.Pairwise.filter _ List.pairwise_lt_range'
  rw [h] at hsorted hb
  rcases List.mem_cons.mp hb with rfl | hb
  · exact le_rfl
  · exact ((List.pairwise_cons.mp hsorted).1 b hb).le

/-- On a volume in order `fat_alloc_cluster` does what it is for just where a free cluster, if there
is one, is found below the last two. -/
theorem alloc_lowest_iff (hr : Ready st) :
    AllocatesLowest st (fatAllocCluster st) ↔
      ((∃ c, st.vol.IsCluster c ∧ st.fat c = 0) →
        ∃ c, 2 ≤ c ∧ c < st.vol.totalClusters ∧ st.fat c = 0) := by
  cases hfree : freeClusters st.vol st.fat with
  | nil =>
    obtain ⟨st', hrun, hq⟩ := fatAllocCluster_none hr hfree
    have hnone : ¬ ∃ c, 2 ≤ c ∧ c < st.vol.totalClusters ∧ st.fat c = 0 := by
      rintro ⟨c, hge, hlt, h0⟩
      have hmem := mem_freeClusters.mpr ⟨⟨hge, hlt⟩, h0⟩
      rw [hfree] at hmem
      cases hmem
    rw [hrun]
    constructor
    · rintro hspec ⟨c, hc, h0⟩
      exact absurd h0 (hspec.full rfl c hc)
    · intro hcond
      refine ⟨fun _ c hc h0 => hnone (hcond ⟨c, hc, h0⟩), ?_, ?_⟩
      · intro c hc
        cases hc
      · intro c hc
        cases hc
  | cons c fs =>
    have hmem : c ∈ freeClusters st.vol st.fat := hfree ▸ List.mem_cons_self
    obtain ⟨⟨hge, hlt⟩, h0⟩ := mem_freeClusters.mp hmem
    obtain ⟨st₁, st', hrun, hq, hlim, hset⟩ :=
      allocLoop_marks hr _ _ hr.geometry.search_le hfree
    rw [fatAllocCluster, hrun]
    refine iff_of_true ⟨?_, ?_, ?_⟩ fun _ => ⟨c, hge, hlt, h0⟩
    · intro hnone
      cases hnone
    · rintro _ ⟨⟩
      refine ⟨isCluster_of_free hmem, h0, fun b hb hcl hfb => ?_⟩
      have hle := freeClusters_head hfree (mem_freeClusters.mpr ⟨⟨hcl.1, by omega⟩, hfb⟩)
      omega
    · rintro _ ⟨⟩
      have hmarked := fatSetEntry_entrySet (hq.ready hr) (by rw [hq.vol]; exact hlim) (by decide) hset
      obtain ⟨buf, n, rfl⟩ := hq
      exact hmarked

end Copies

/-- A volume whose cluster 3 is the lowest free one. -/
theorem alloc_lowest_three :
    ∃ st', fatAllocCluster (smallFs [(2, 0x0FFFFFFF)] []) = (some 3, st') ∧
      EntrySet (smallFs [(2, 0x0FFFFFFF)] []) st' 3 0x0FFFFFFF := by
  have hspec : AllocatesLowest (smallFs [(2, 0x0FFFFFFF)] [])
      (fatAllocCluster (smallFs [(2, 0x0FFFFFFF)] [])) :=
    (alloc_lowest_iff (smallFs_ready _ _)).mpr fun _ => ⟨3, by decide, by decide, by decide +kernel⟩
  have hthree : (fatAllocCluster (smallFs [(2, 0x0FFFFFFF)] [])).1 = some 3 := by decide +kernel
  exact ⟨_, Prod.ext hthree rfl, hspec.marked 3 hthree⟩

/-- The table of a small volume whose clusters 2 to 7 are in use. -/
def lastTwoFree : Fs :=
  smallFs [(2, 0x0FFFFFFF), (3, 0x0FFFFFFF), (4, 0x0FFFFFFF), (5, 0x0FFFFFFF), (6, 0x0FFFFFFF),
    (7, 0x0FFFFFFF)] []

/-- Clusters 8 and 9 are free, and no cluster is found. -/
theorem not_alloc_lowest_last : Ready lastTwoFree ∧ lastTwoFree.vol.IsCluster 8 ∧
    lastTwoFree.fat 8 = 0 ∧ (fatAllocCluster lastTwoFree).1 = none :=
  ⟨smallFs_ready _ _, by decide, by decide +kernel, by decide +kernel⟩

end FusionOS.Fat
