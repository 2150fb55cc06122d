import FusionOS.Kernel.HeapRefine

/-!
# The outcomes of malloc and realloc

`malloc` finds nothing or takes a free block; `realloc` keeps a block, shrinks it, grows it into
the free block behind, fails, or moves it.
-/

namespace FusionOS.Memory

open Tiling

section Blocks
variable {n a : Nat} {bs : List Blk}

lemma trim_head {b : Blk} (hn : n ≤ b.size) :
    ∃ c rest, trim n b = c :: rest ∧ n ≤ c.size ∧ c.free = b.free := by
  unfold trim
  split
  · exact ⟨_, _, rfl, le_rfl, rfl⟩
  · exact ⟨b, [], rfl, hn, rfl⟩

lemma trim_head_le {b c : Blk} {rest : List Blk} (h : trim n b = c :: rest) (hn : n ≤ b.size) :
    n ≤ c.size := by
  obtain ⟨c', rest', htrim, hle, -⟩ := trim_head hn
  rw [h] at htrim
  cases htrim
  exact hle

lemma trim_head_free {b c : Blk} {rest : List Blk} (h : trim n b = c :: rest) : c.free = b.free := by
  unfold trim at h
  split at h
  · cases h
    rfl
  · cases h
    rfl

lemma trim_span (n : Nat) (b : Blk) : span 24 (trim n b) = span 24 [b] := by
  unfold trim
  split
  · simp only [span]
    omega
  · rfl

lemma mem_located_coalesce {x : Nat} {b : Blk} (hp : (x, b) ∈ located 24 a bs)
    (hb : b.free = false) : (x, b) ∈ located 24 a (coalesce 24 bs) := by
  have hused : (x, b) ∈ used 24 a bs := List.mem_filter.mpr ⟨hp, by simp [hb]⟩
  rw [← coalesce_used] at hused
  exact List.mem_of_mem_filter hused

lemma mem_located_middle (a : Nat) (pre post : List Blk) (b : Blk) :
    (a + span 24 pre, b) ∈ located 24 a (pre ++ b :: post) := by
  rw [located_append]
  exact List.mem_append_right _ List.mem_cons_self

lemma mem_located_flag {pre post : List Blk} {b c : Blk} {x : Nat}
    (hp : (x, c) ∈ located 24 a (pre ++ b :: post)) (hne : x ≠ a + span 24 pre) (f : Bool) :
    (x, c) ∈ located 24 a (pre ++ ⟨b.size, f⟩ :: post) := by
  have hspan : span 24 [(⟨b.size, f⟩ : Blk)] = span 24 [b] := rfl
  refine mem_located_replace [b] hspan ?_ hp
  intro hmem
  exact hne (Prod.mk.inj (List.mem_singleton.mp hmem)).1

end Blocks

section Outcomes
variable {A : HeapArray} {h : Heap} {bs : List Blk} {n : Nat}

lemma malloc_cases (hr : Rep A h bs) (n : Nat) :
    malloc h n = some (0, h) ∨
    ∃ pre b post c rest h', bs = pre ++ b :: post ∧ b.free = true ∧ roundUp n ≤ b.size ∧
      trim (roundUp n) ⟨b.size, false⟩ = c :: rest ∧ roundUp n ≤ c.size ∧
      malloc h n = some (A.base + span 24 pre + 24, h') ∧ Rep A h' (pre ++ c :: (rest ++ post)) ∧
      (∀ i, i < A.base + span 24 pre ∨ A.base + span 24 pre + 24 + b.size ≤ i → h'.mem i = h.mem i) ∧
      h'.heapAllocated = u64 (h.heapAllocated + c.size) ∧ h'.heapFreed = h.heapFreed := by
  by_cases hn : n = 0
  · exact Or.inl (by simp [malloc, hn])
  · cases hfit : bestFit 24 (roundUp n) A.base bs none with
    | none => exact Or.inl (malloc_null hr hn hfit)
    | some p =>
      obtain ⟨pre, post, rfl, hx, hbest, hrun⟩ := malloc_rep hr hn hfit
      have hle := hbest.fits
      obtain ⟨c, rest, htrim, hc, -⟩ := trim_head (b := ⟨p.2.size, false⟩) hle
      obtain ⟨hrep, hframe⟩ := takeBlock_rep hr hle
      have hcount := takeBlock_counters hr hle htrim
      rw [htrim] at hrep
      rw [hx] at hrun
      exact Or.inr ⟨pre, p.2, post, c, rest, _, rfl, hbest.free, hle, htrim, hc, hrun, hrep, hframe,
        hcount⟩

/-- What `realloc` makes of the block `b` between `pre` and `post` for a request rounded up to
`n` bytes: the pointer it returns, the heap it leaves and the blocks of that heap. -/
inductive Resized (A : HeapArray) (h : Heap) (pre : List Blk) (b : Blk) (post : List Blk) (n : Nat) :
    Nat → Heap → List Blk → Prop
  | keep : n ≤ b.size → b.size < n + 32 →
      Resized A h pre b post n (A.base + span 24 pre + 24) h (pre ++ b :: post)
  | shrink {h' : Heap} : n + 32 ≤ b.size →
      h'.heapAllocated = h.heapAllocated → h'.heapFreed = u64 (h.heapFreed + (b.size - n)) →
      (∀ i, OutsideHeaders A.base (pre ++ ⟨n, b.free⟩ :: ⟨b.size - n - 24, true⟩ :: post) i →
        h'.mem i = h.mem i) →
      Resized A h pre b post n (A.base + span 24 pre + 24) h'
        (coalesce 24 (pre ++ ⟨n, b.free⟩ :: ⟨b.size - n - 24, true⟩ :: post))
  | grow {c d : Blk} {post' rest : List Blk} {h' : Heap} : post = c :: post' → c.free = true →
      b.size < n → n ≤ b.size + (24 + c.size) →
      trim n ⟨b.size + (24 + c.size), b.free⟩ = d :: rest →
      h'.heapAllocated = u64 (h.heapAllocated + (n - b.size)) → h'.heapFreed = h.heapFreed →
      (∀ i, (i < A.base + span 24 pre ∨ A.base + span 24 pre + 24 ≤ i) →
        (i < A.base + span 24 pre + 24 + b.size ∨
          A.base + span 24 pre + 24 + (b.size + (24 + c.size)) ≤ i) → h'.mem i = h.mem i) →
      Resized A h pre b post n (A.base + span 24 pre + 24) h' (pre ++ d :: (rest ++ post'))
  | null : b.size < n → Resized A h pre b post n 0 h (pre ++ b :: post)
  | move {pre' post' rest pre₂ post₂ : List Blk} {d c : Blk} {h' : Heap} :
      pre ++ b :: post = pre' ++ d :: post' → d.free = true → b.size < n → n ≤ d.size →
      trim n ⟨d.size, false⟩ = c :: rest → pre' ++ c :: (rest ++ post') = pre₂ ++ b :: post₂ →
      span 24 pre₂ = span 24 pre →
      h'.heapAllocated = u64 (h.heapAllocated + c.size) → h'.heapFreed = u64 (h.heapFreed + b.size) →
      (∀ i, i < b.size →
        h'.mem (A.base + span 24 pre' + 24 + i) = h.mem (A.base + span 24 pre + 24 + i)) →
      (∀ i, OutsideHeaders A.base (pre₂ ++ b :: post₂) i →
        (i < A.base + span 24 pre' ∨ A.base + span 24 pre' + 24 + d.size ≤ i) → h'.mem i = h.mem i) →
      Resized A h pre b post n (A.base + span 24 pre' + 24) h'
        (coalesce 24 (pre₂ ++ ⟨b.size, true⟩ :: post₂))

section Realloc
variable {pre post : List Blk} {b : Blk}

lemma move_cases (hr : Rep A h (pre ++ b :: post)) (hused : b.free = false)
    (hlt : b.size < roundUp n) :
    ∃ q h' bs', ((malloc h (roundUp n)).bind fun r =>
        if r.1 = 0 then some r
        else (free { r.2 with mem := memcpy r.2.mem r.1 (A.base + span 24 pre + 24) b.size }
          (A.base + span 24 pre + 24)).map fun h => (r.1, h)) = some (q, h') ∧
      Rep A h' bs' ∧ Resized A h pre b post (roundUp n) q h' bs' := by
  rcases malloc_cases hr (roundUp n) with
    hnull | ⟨pre', d, post', c, rest, h1, hlist, hfree, hle, htrim, hc, hrun, hrep, hframe, hcount⟩
  · exact ⟨0, h, _, by rw [hnull]; rfl, hr, .null hlt⟩
  rw [roundUp_roundUp] at hle htrim hc
  have hold : (A.base + span 24 pre, b) ∈ located 24 A.base (pre' ++ d :: post') := by
    rw [← hlist]
    exact mem_located_middle _ _ _ _
  have hapart : A.base + span 24 pre + 24 + b.size ≤ A.base + span 24 pre' ∨
      A.base + span 24 pre' + 24 + d.size ≤ A.base + span 24 pre := by
    rcases located_disjoint hold (mem_located_middle A.base pre' post' d) with heq | hlo | hhi
    · obtain ⟨-, rfl⟩ := Prod.mk.inj heq
      rw [hused] at hfree
      cases hfree
    · exact Or.inl hlo
    · exact Or.inr hhi
  -- the old block is still where it was
  have hstays : (A.base + span 24 pre, b) ∈ located 24 A.base (pre' ++ c :: (rest ++ post')) := by
    have hspan : span 24 (trim (roundUp n) ⟨d.size, false⟩) = span 24 [d] := trim_span _ _
    have hnew := mem_located_replace [d] hspan (fun hmem => ?_) hold
    · rwa [htrim] at hnew
    · have heq := Prod.mk.inj (List.mem_singleton.mp hmem)
      omega
  obtain ⟨pre2, post2, hlist2, haddr⟩ := mem_located_split hstays
  have hnew : (A.base + span 24 pre', c) ∈ located 24 A.base (pre2 ++ b :: post2) := by
    rw [← hlist2]
    exact mem_located_middle _ _ _ _
  have hcopy := hrep.payload
    (m := memcpy h1.mem (A.base + span 24 pre' + 24) (A.base + span 24 pre + 24) b.size)
    fun i hi => memcpy_out (by omega)
  rw [hlist2] at hcopy
  obtain ⟨h2, hfreed, hrep2, halloc, hcounted, hkept⟩ := free_rep hcopy
  rw [← haddr] at hfreed
  refine ⟨A.base + span 24 pre' + 24, h2, _, ?_, hrep2,
    .move hlist hfree hlt hle htrim hlist2 (by omega) (halloc.trans hcount.1)
      (by rw [hcounted, hcount.2]) (fun i hi => ?_) fun i hi hout => ?_⟩
  · rw [hrun]
    simp only [Option.bind_some, Nat.add_eq_zero_iff, OfNat.ofNat_ne_zero, and_false, if_false, hfreed,
      Option.map_some]
  · rw [hkept _ (OutsideHeaders.of_payload hnew (by dsimp only; omega) (by dsimp only; omega))]
    refine (memcpy_in (by omega) hi).trans (hframe _ (by omega))
  · rw [hkept i hi]
    exact (memcpy_out (by omega)).trans (hframe i hout)

lemma realloc_cases (hr : Rep A h (pre ++ b :: post)) (hused : b.free = false) (hn : n ≠ 0) :
    ∃ q h' bs', realloc h (A.base + span 24 pre + 24) n = some (q, h') ∧ Rep A h' bs' ∧
      Resized A h pre b post (roundUp n) q h' bs' := by
  by_cases hsize : roundUp n ≤ b.size
  · by_cases hlarge : roundUp n + 32 ≤ b.size
    · obtain ⟨h', hrun, hrep, halloc, hfreed, hframe⟩ := realloc_shrink hr hn hlarge
      exact ⟨_, h', _, hrun, hrep, .shrink hlarge halloc hfreed hframe⟩
    · exact ⟨_, h, _, realloc_keep hr hn hsize (by omega), hr, .keep hsize (by omega)⟩
  have hlt : b.size < roundUp n := by omega
  by_cases hgrow : ∃ c post', post = c :: post' ∧ c.free = true ∧ roundUp n ≤ b.size + (24 + c.size)
  · obtain ⟨c, post, rfl, hc, hle⟩ := hgrow
    obtain ⟨h', hrun, hrep, halloc, hfreed, hframe⟩ := realloc_grow hr hn hlt hc hle
    obtain ⟨d, rest, htrim, -⟩ := trim_head (b := ⟨b.size + (24 + c.size), b.free⟩) hle
    rw [htrim, List.cons_append] at hrep
    exact ⟨_, h', _, hrun, hrep, .grow rfl hc hlt hle htrim halloc hfreed hframe⟩
  · rw [realloc_move hr hn hlt hgrow]
    exact move_cases hr hused hlt

namespace Resized
variable {q : Nat} {h' : Heap} {bs' : List Blk}

lemma head (hres : Resized A h pre b post n q h' bs') (hused : b.free = false) (hq : q ≠ 0) :
    ∃ x c, q = x + 24 ∧ (x, c) ∈ located 24 A.base bs' ∧ c.free = false ∧ n ≤ c.size := by
  cases hres with
  | keep hle _ => exact ⟨_, b, rfl, mem_located_middle _ _ _ _, hused, hle⟩
  | shrink _ _ _ _ =>
    exact ⟨_, ⟨n, b.free⟩, rfl, mem_located_coalesce (mem_located_middle _ _ _ _) hused, hused, le_rfl⟩
  | grow _ _ _ hle htrim _ _ _ =>
    exact ⟨_, _, rfl, mem_located_middle _ _ _ _, (trim_head_free htrim).trans hused,
      trim_head_le htrim hle⟩
  | null _ => exact absurd rfl hq
  | @move pre' post' rest pre2 post2 d c _ hlist hfree hlt hle htrim hlist2 hspan _ _ _ _ =>
    have hc := trim_head_free htrim
    have hmem : (A.base + span 24 pre', c) ∈ located 24 A.base (pre2 ++ b :: post2) := by
      rw [← hlist2]
      exact mem_located_middle _ _ _ _
    have hsize := trim_head_le htrim hle
    have hne : A.base + span 24 pre' ≠ A.base + span 24 pre2 := by
      intro heq
      rcases located_disjoint hmem (mem_located_middle A.base pre2 post2 b) with h | h | h
      · obtain ⟨-, rfl⟩ := Prod.mk.inj h
        omega
      · dsimp only at h
        omega
      · dsimp only at h
        omega
    exact ⟨_, c, rfl, mem_located_coalesce (mem_located_flag hmem hne true) hc, hc, hsize⟩

lemma null_lt (hres : Resized A h pre b post n q h' bs') (hq : q = 0) : b.size < n := by
  cases hres with
  | keep _ _ => omega
  | shrink _ _ _ _ => omega
  | grow _ _ hlt _ _ _ _ _ => exact hlt
  | null hlt => exact hlt
  | move _ _ hlt _ _ _ _ _ _ _ _ => exact hlt

lemma null_heap (hres : Resized A h pre b post n q h' bs') (hq : q = 0) : h' = h := by
  cases hres with
  | keep _ _ => omega
  | shrink _ _ _ _ => omega
  | grow _ _ _ _ _ _ _ _ => omega
  | null _ => rfl
  | move _ _ _ _ _ _ _ _ _ _ _ => omega

end Resized

end Realloc

end Outcomes

end FusionOS.Memory
