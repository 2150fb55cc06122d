import FusionOS.Fat.Calls

/-!
# The buffer of a file

`fat_read_file` reads a chain into a block of the kernel heap. It stops at the size of the file, so
that no walk of it is without end, and writes nothing outside the block.
-/

namespace FusionOS.Fat

section Reads
variable {st st' : Fs}

lemma HeapOnly.setHeap {st1 : Fs} (h : HeapOnly st st1) (heap : Memory.Heap) :
    HeapOnly st { st1 with heap := heap } := by
  obtain ⟨_, b, n, rfl⟩ := h
  exact ⟨heap, b, n, rfl⟩

lemma HeapOnly.fat {st1 : Fs} (h : HeapOnly st st1) : st1.fat = st.fat := by
  obtain ⟨_, _, _, rfl⟩ := h
  rfl

lemma readSectors_heapOnly (ptr size cluster n s offset : Nat) :
    HeapOnly st (readSectors ptr size cluster n s offset st).2 := by
  induction n generalizing st s offset with
  | zero => exact HeapOnly.refl st
  | succ n ih =>
    have hread := @blkRead_quiet st (u32 (clusterToLba st.vol cluster + s))
    rw [readSectors]
    split
    · split
      · next st1 h =>
        rw [h] at hread
        exact hread.heapOnly
      · next st1 h =>
        rw [h] at hread
        exact (hread.heapOnly.setHeap _).trans (ih _ _)
    · exact HeapOnly.refl st

lemma readChain_heapOnly (ptr size fuel : Nat) {cluster offset : Nat} {r : Bool}
    (h : readChain ptr size fuel cluster offset st = some (r, st')) : HeapOnly st st' := by
  induction fuel generalizing st cluster offset with
  | zero => cases h
  | succ fuel ih =>
    have hread := @readSectors_heapOnly st ptr size cluster st.vol.sectorsPerCluster 0 offset
    rw [readChain] at h
    split at h
    · split at h
      · next hrun =>
        rw [hrun] at hread
        cases h
        exact hread
      · next _ st1 hrun =>
        rw [hrun] at hread
        exact hread.trans ((@fatGetEntry_quiet st1 cluster).heapOnly.trans (ih h))
    · cases h
      exact HeapOnly.refl _

end Reads

/-- The blocks of the kernel heap are in order. -/
def HeapOk (h : Memory.Heap) : Prop := ∃ A bs, Memory.Rep A h bs

lemma free_filled {h h1 : Memory.Heap} {A : Memory.HeapArray} {bs : List Tiling.Blk}
    (hrep : Memory.Rep A h bs) {ptr size : Nat} (hsize : size < 2 ^ 32)
    (hmalloc : Memory.malloc h (u32 (size + 1)) = some (ptr, h1)) (hptr : ptr ≠ 0) :
    size < 2 ^ 28 ∧
      ∀ {m}, (∀ i, i < ptr ∨ ptr + (size + 1) ≤ i → m i = h1.mem i) →
        ∃ h', Memory.free { h1 with mem := m } ptr = some h' := by
  rcases Memory.malloc_cases hrep (u32 (size + 1)) with hnull |
    ⟨pre, b, post, c, rest, h', -, -, -, -, hc, hrun, hrep', -⟩
  · rw [hmalloc] at hnull
    cases hnull
    exact absurd rfl hptr
  rw [hmalloc] at hrun
  cases hrun
  have hn : u32 (size + 1) = size + 1 := by
    by_cases hmax : size + 1 = 2 ^ 32
    · rw [hmax, u32, Nat.mod_self, Memory.malloc, if_pos rfl] at hmalloc
      have hzero : ((0, h) : Nat × Memory.Heap).1 = _ := congrArg Prod.fst (Option.some.inj hmalloc)
      exact absurd hzero.symm hptr
    · exact u32_of_lt (by omega)
  rw [hn] at hc
  have hround := Memory.le_roundUp (n := size + 1) (by omega)
  obtain ⟨hend, -, -⟩ := hrep'.bounds
  rw [Memory.HeapArray.stop, Memory.heapSize_eq] at hend
  refine ⟨by omega, ?_⟩
  intro m hm
  obtain ⟨h', hfree, -⟩ := Memory.free_rep (hrep'.payload fun i hi => hm i (by omega))
  exact ⟨h', hfree⟩

section Reads
variable {st : Fs}

lemma fatReadFile_cases {st1 : Fs} (hspc : 0 < st1.vol.sectorsPerCluster) (hheap : HeapOk st1.heap)
    {d : Nat} {name : CString} {found : Option Found} (hfind : fatFindEntry st d name = some (found, st1)) :
    (∃ st', fatReadFile st d name = some (none, st')) ∨
      ∃ f ptr h1 st2, found = some f ∧
        Memory.malloc st1.heap (u32 (direntFileSize f.ent + 1)) = some (ptr, h1) ∧
        direntFileSize f.ent + 512 ≤ 2 ^ 32 ∧
        readChain ptr (direntFileSize f.ent) chainFuel (direntFirstCluster f.ent) 0
          { st1 with heap := h1 } = some (true, st2) ∧
        fatReadFile st d name = some (some (ptr, direntFileSize f.ent),
          st2.setMem (Function.update st2.heap.mem (ptr + direntFileSize f.ent) 0)) ∧
        ∃ h', Memory.free { st2.heap with
          mem := Function.update st2.heap.mem (ptr + direntFileSize f.ent) 0 } ptr = some h' := by
  obtain ⟨A, bs, hrep⟩ := hheap
  rw [fatReadFile, hfind]
  cases found with
  | none => exact .inl ⟨st1, rfl⟩
  | some f =>
    dsimp only
    split
    · exact .inl ⟨st1, rfl⟩
    obtain ⟨ptr, h1, hmalloc⟩ : ∃ ptr h1, Memory.malloc st1.heap (u32 (direntFileSize f.ent + 1)) =
        some (ptr, h1) := by
      rcases Memory.malloc_cases hrep (u32 (direntFileSize f.ent + 1)) with hnull |
        ⟨pre, b, post, c, rest, h', -, -, -, -, -, hrun, -⟩
      · exact ⟨_, _, hnull⟩
      · exact ⟨_, _, hrun⟩
    rw [hmalloc]
    dsimp only
    split
    · exact .inl ⟨_, rfl⟩
    next hptr =>
    obtain ⟨hsmall, hfree⟩ := free_filled hrep (fileSize_lt f.ent) hmalloc hptr
    have hsize : direntFileSize f.ent + 512 ≤ 2 ^ 32 := by omega
    have hfuel : direntFileSize f.ent < chainFuel := by
      unfold chainFuel
      exact hsmall
    obtain ⟨⟨ok, st2⟩, hchain⟩ := @readChain_ends { st1 with heap := h1 }
      (direntFirstCluster f.ent) _ hspc hsize ptr _ _ (Nat.zero_le _) hfuel
    obtain ⟨m, ⟨b, n, rfl⟩, hsame⟩ := readChain_spec hsize ptr (Nat.zero_le _) hchain
    rw [hchain]
    cases ok with
    | true =>
      refine .inr ⟨f, ptr, h1, _, rfl, hmalloc, hsize, hchain, rfl, hfree fun i hi => ?_⟩
      rw [Function.update_of_ne (by omega)]
      exact hsame i (by omega)
    | false =>
      obtain ⟨h', hfree⟩ := hfree fun i hi => hsame i (by omega)
      dsimp only
      rw [hfree]
      exact .inl ⟨_, rfl⟩

end Reads

end FusionOS.Fat
