import FusionOS.Kernel.HeapRun

/-!
# The size of what the allocator returns

A request is rounded up to a multiple of eight in wrapping arithmetic.
-/

namespace FusionOS.Memory

open Tiling

/-- The call returns, and a pointer that is not null heads a block of at least `n` bytes. -/
def Provides (r : Option (Nat × Heap)) (n : Nat) : Prop :=
  ∃ p h, r = some (p, h) ∧ (p ≠ 0 → n ≤ usable h.mem p)

/-- Every block of the list is in use. -/
def NoFree (h : Heap) : Prop :=
  ∀ headers, blockWalk h.mem heapSize h.heapStart = some headers → ∀ a ∈ headers, blkFree h.mem a = false

lemma le_roundUp {n : Nat} (h : n ≤ 2 ^ 64 - 8) : n ≤ roundUp n := by
  unfold roundUp u64
  omega

lemma roundUp_eq_zero {n : Nat} (h : 2 ^ 64 - 8 < n) (hlt : n < 2 ^ 64) : roundUp n = 0 := by
  unfold roundUp u64
  omega

section Calls
variable {A : HeapArray} {h : Heap} {bs : List Blk} {n : Nat}

lemma noFree_iff (hr : Rep A h bs) : NoFree h ↔ ∀ b ∈ bs, b.free = false := by
  have hwalk := blockWalk_eq A.pos (by rw [hr.tiles]; rfl) hr.headers hr.length_lt
  rw [hr.link_base] at hwalk
  have hsnd : (located 24 A.base bs).map Prod.snd = bs := located_map_snd A.base bs
  constructor
  · intro hno b hb
    rw [← hsnd] at hb
    obtain ⟨p, hp, rfl⟩ := List.mem_map.mp hb
    rw [← (hr.headers p hp).free]
    exact hno _ hwalk p.1 (List.mem_map_of_mem hp)
  · intro hall headers hheaders a ha
    rw [hwalk] at hheaders
    cases hheaders
    obtain ⟨p, hp, rfl⟩ := List.mem_map.mp ha
    rw [(hr.headers p hp).free]
    apply hall
    rw [← hsnd]
    exact List.mem_map_of_mem hp

lemma malloc_noFree (hr : Rep A h bs) (hno : NoFree h) (n : Nat) : malloc h n = some (0, h) := by
  by_cases hn : n = 0
  · simp [malloc, hn]
  · apply malloc_null hr hn
    apply bestFit_eq_none_iff.mpr
    intro b hb hfree
    rw [(noFree_iff hr).mp hno b hb] at hfree
    cases hfree

lemma malloc_sized (hr : Rep A h bs) (n : Nat) : ∃ p h', malloc h n = some (p, h') ∧
    (p ≠ 0 → roundUp n ≤ usable h'.mem p ∧ usable h'.mem p ≤ heapSize) := by
  rcases malloc_cases hr n with hnull | ⟨pre, b, post, c, rest, h', -, -, -, -, hc, hrun, hrep, -⟩
  · exact ⟨0, h, hnull, fun hp => absurd rfl hp⟩
  · refine ⟨_, h', hrun, fun _ => ?_⟩
    rw [hrep.usable_eq (mem_located_middle _ _ _ _)]
    have htiles := hrep.tiles
    simp only [span_append, span] at htiles
    exact ⟨hc, by dsimp only; omega⟩

lemma malloc_ne_null (hr : Rep A h bs) (hn : n ≠ 0) (hzero : roundUp n = 0) (hfree : ¬ NoFree h) :
    ∃ p h', malloc h n = some (p, h') ∧ p ≠ 0 := by
  cases hfit : bestFit 24 (roundUp n) A.base bs none with
  | none =>
    rw [hzero] at hfit
    refine absurd ((noFree_iff hr).mpr ?_) hfree
    intro b hb
    rw [Bool.eq_false_iff]
    exact fun hf => bestFit_eq_none_iff.mp hfit b hb hf (Nat.zero_le _)
  | some p =>
    obtain ⟨pre, post, -, -, -, hrun⟩ := malloc_rep hr hn hfit
    exact ⟨_, _, hrun, by omega⟩

lemma malloc_provides_iff (hr : Rep A h bs) (hlt : n < 2 ^ 64) :
    Provides (malloc h n) n ↔ n ≤ 2 ^ 64 - 8 ∨ NoFree h := by
  obtain ⟨p, h', hrun, hsize⟩ := malloc_sized hr n
  constructor
  · rintro ⟨q, h'', hq, hn⟩
    rw [or_iff_not_imp_left]
    intro hbig
    by_contra hfree
    obtain ⟨r, h3, hr', hne⟩ := malloc_ne_null hr (by omega) (roundUp_eq_zero (by omega) hlt) hfree
    rw [hrun] at hq hr'
    cases hq
    cases hr'
    have hbound := (hsize hne).2
    have hlarge := hn hne
    rw [heapSize_eq] at hbound
    omega
  · rintro (hsmall | hno)
    · exact ⟨p, h', hrun, fun hp => Nat.le_trans (le_roundUp hsmall) (hsize hp).1⟩
    · exact ⟨0, h, malloc_noFree hr hno n, fun hp => absurd rfl hp⟩

lemma usable_memset {m : Mem} {p len : Nat} (hp : 24 ≤ p) (v : UInt8) :
    usable (memset m p v len) p = usable m p := by
  apply blkSize_congr
  intro i _ hi
  apply memset_out
  unfold sizeofBlock at hi
  omega

lemma malloc_ptr_ge (hr : Rep A h bs) {p : Nat} {h' : Heap} (hrun : malloc h n = some (p, h'))
    (hp : p ≠ 0) : 24 ≤ p := by
  rcases malloc_cases hr n with hnull | ⟨pre, b, post, c, rest, h2, -, -, -, -, -, hrun2, -⟩
  · rw [hnull] at hrun
    cases hrun
    exact absurd rfl hp
  · rw [hrun2] at hrun
    cases hrun
    omega

lemma calloc_provides {k m : Nat} (hr : Rep A h bs) (hk : k ≠ 0) (hm : m ≠ 0)
    (hfits : k * m < 2 ^ 64) : Provides (calloc h k m) (k * m) ↔ Provides (malloc h (k * m)) (k * m) := by
  have hover : ¬ (2 ^ 64 - 1) / k < m := by
    rw [Nat.not_lt, Nat.le_div_iff_mul_le (by omega), Nat.mul_comm]
    omega
  obtain ⟨p, h', hrun, -⟩ := malloc_sized hr (k * m)
  unfold Provides
  rw [calloc, if_neg (by omega), if_neg hover, hrun]
  by_cases hp : p = 0
  · simp [hp]
  · have husable : usable (memset h'.mem p 0 (k * m)) p = usable h'.mem p :=
      usable_memset (malloc_ptr_ge hr hrun hp) 0
    simp only [Option.map_some, hp, if_false, Option.some.injEq, Prod.mk.injEq]
    constructor
    · rintro ⟨_, _, ⟨rfl, rfl⟩, hsize⟩
      refine ⟨p, h', ⟨rfl, rfl⟩, fun hne => ?_⟩
      rw [← husable]
      exact hsize hne
    · rintro ⟨_, _, ⟨rfl, rfl⟩, hsize⟩
      refine ⟨p, _, ⟨rfl, rfl⟩, fun hne => ?_⟩
      rw [husable]
      exact hsize hne

lemma calloc_provides_iff (hr : Rep A h bs) (k m : Nat) :
    Provides (calloc h k m) (k * m) ↔ k * m ≤ 2 ^ 64 - 8 ∨ 2 ^ 64 ≤ k * m ∨ NoFree h := by
  by_cases hzero : k = 0 ∨ m = 0
  · have hprod : k * m = 0 := Nat.mul_eq_zero.mpr hzero
    refine iff_of_true ⟨0, h, if_pos hzero, fun hp => absurd rfl hp⟩ (Or.inl ?_)
    rw [hprod]
    exact Nat.zero_le _
  by_cases hfits : k * m < 2 ^ 64
  · rw [calloc_provides hr (by omega) (by omega) hfits, malloc_provides_iff hr hfits]
    have hnot : ¬ 2 ^ 64 ≤ k * m := by omega
    simp only [hnot, false_or]
  · have hover : (2 ^ 64 - 1) / k < m := by
      rw [← Nat.not_le, Nat.le_div_iff_mul_le (by omega), Nat.mul_comm]
      omega
    refine iff_of_true ⟨0, h, ?_, fun hp => absurd rfl hp⟩ (Or.inr (Or.inl (by omega)))
    rw [calloc, if_neg hzero, if_pos hover]

lemma realloc_provides_iff {live : List Nat} {p : Nat} (hr : Rep A h bs)
    (hi : BlockInv A.base (bs, live)) (hp : p ∈ live) (hlt : n < 2 ^ 64) :
    Provides (realloc h p n) n ↔ n ≤ 2 ^ 64 - 8 := by
  by_cases hn : n = 0
  · obtain ⟨h', hrun, -⟩ := free_reached hr hi (Or.inr hp)
    obtain ⟨pre, b, post, -, -, hpos⟩ := hi.split hp
    refine iff_of_true ⟨0, h', ?_, fun hne => absurd rfl hne⟩ (by omega)
    rw [realloc, if_neg (by omega), if_pos hn, hrun, Option.map_some]
  obtain ⟨q, h', hrun, hreached, hsize, hkept⟩ := realloc_reached hr hi hp hn
  constructor
  · rintro ⟨q', h'', hq, henough⟩
    rw [hrun] at hq
    cases hq
    by_contra hbig
    have hne := hkept (roundUp_eq_zero (by omega) hlt)
    obtain ⟨bs', hrep', hpath⟩ := hreached
    have hinv : HeapInv A ⟨h', if q = 0 then live else q :: live.erase p⟩ :=
      ⟨bs', hrep', blockInv_of_changes hpath hi⟩
    obtain ⟨headers, hwf⟩ := hinv.wellFormed
    have hinside := hwf.inside q (by simp [hne])
    have hlarge := henough hne
    have hsz := heapSize_eq
    unfold HeapArray.stop at hinside
    dsimp only at hinside
    omega
  · intro hsmall
    exact ⟨q, h', hrun, fun hq => Nat.le_trans (le_roundUp hsmall) (hsize hq)⟩

/-- In every state that permitted calls lead to from `heap_init`: a non-null result of `malloc`,
`calloc` and `realloc` heads a block as large as requested, but for the requests that round up
to 0; these fail to be met by `malloc` and `calloc` just where some block is free, and by
`realloc` always. -/
theorem sizes_provided_iff {A : HeapArray} {h : Heap} {calls : List Call} {s : Client}
    (hcalls : Along call Permitted ⟨heapInit h A.base, []⟩ calls)
    (hrun : Run call ⟨heapInit h A.base, []⟩ calls s) :
    (∀ n, n < 2 ^ 64 → (Provides (malloc s.heap n) n ↔ n ≤ 2 ^ 64 - 8 ∨ NoFree s.heap)) ∧
    (∀ k m, Provides (calloc s.heap k m) (k * m) ↔
      k * m ≤ 2 ^ 64 - 8 ∨ 2 ^ 64 ≤ k * m ∨ NoFree s.heap) ∧
    ∀ p ∈ s.live, ∀ n, n < 2 ^ 64 → (Provides (realloc s.heap p n) n ↔ n ≤ 2 ^ 64 - 8) := by
  obtain ⟨bs, hrep, hinv⟩ := HeapInv.of_run hcalls hrun
  exact ⟨fun n hn => malloc_provides_iff hrep hn, calloc_provides_iff hrep,
    fun p hp n hn => realloc_provides_iff hrep hinv hp hn⟩

end Calls

/-- The first request of a fresh heap. -/
theorem sizes_provided_fresh : Provides (malloc (heapInit zeroHeap lowHeap.base) 100) 100 := by
  have hrun : Run call ⟨heapInit zeroHeap lowHeap.base, []⟩ [] ⟨heapInit zeroHeap lowHeap.base, []⟩ :=
    .nil _
  have hcalls : Along call Permitted ⟨heapInit zeroHeap lowHeap.base, []⟩ [] := trivial
  exact ((sizes_provided_iff hcalls hrun).1 100 (by decide)).mpr (Or.inl (by decide))

/-- The largest request is answered with an empty block. -/
theorem not_sizes_provided_max :
    ¬ Provides (malloc (heapInit zeroHeap lowHeap.base) (2 ^ 64 - 1)) (2 ^ 64 - 1) := by
  have hempty : (malloc (heapInit zeroHeap lowHeap.base) (2 ^ 64 - 1)).map
      (fun r => (r.1, usable r.2.mem r.1)) = some (0x100018, 0) := by decide +kernel
  rintro ⟨p, h, hrun, hsize⟩
  rw [hrun, Option.map_some, Option.some.injEq, Prod.mk.injEq] at hempty
  obtain ⟨hp, hzero⟩ := hempty
  dsimp only at hp hzero
  have hlarge := hsize (by omega)
  omega

end FusionOS.Memory
