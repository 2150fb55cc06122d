import FusionOS.Kernel.HeapOrder

/-!
# The block that `malloc` takes

Between the block list before a call of `malloc` and the one after it there is one difference: the
first of the smallest blocks that hold the request is in use, and what it has to spare is split off.
-/

namespace FusionOS.Memory

open Tiling

/-- The request rounded up to a multiple of 8, as a number that does not wrap. -/
def rounded (n : Nat) : Nat := (n + 7) / 8 * 8

/-- The block, given by address, size and flag, is free and holds `n` bytes. -/
def FreeFor (n : Nat) (b : Nat × Nat × Bool) : Prop := b.2.2 = true ∧ n ≤ b.2.1

/-- What becomes of a free block of `size` bytes at `a` from which `n` bytes are taken. -/
def carved (a size n : Nat) : List (Nat × Nat × Bool) :=
  if n + 32 ≤ size then [(a, n, false), (a + 24 + n, size - n - 24, true)] else [(a, size, false)]

/-- The block at `a` is the first of the smallest blocks that hold `n` bytes. -/
structure BestBlock (n : Nat) (pre : List (Nat × Nat × Bool)) (size : Nat)
    (post : List (Nat × Nat × Bool)) : Prop where
  fits : n ≤ size
  before : ∀ b ∈ pre, FreeFor n b → size < b.2.1
  behind : ∀ b ∈ post, FreeFor n b → size ≤ b.2.1

lemma roundUp_eq_rounded {n : Nat} (hn : n ≤ 2 ^ 64 - 8) : roundUp n = rounded n := by
  unfold roundUp rounded u64
  omega

/-- The blocks from address `a` on, as `blockList` gives them. -/
def entries (a : Nat) (bs : List Blk) : List (Nat × Nat × Bool) :=
  (located 24 a bs).map fun p => (p.1, p.2.size, p.2.free)

section Entries
variable {a n : Nat} {bs pre post : List Blk} {b : Blk}

lemma entries_append (a : Nat) (xs ys : List Blk) :
    entries a (xs ++ ys) = entries a xs ++ entries (a + span 24 xs) ys := by
  rw [entries, located_append, List.map_append]
  rfl

lemma entries_cons (a : Nat) (b : Blk) (bs : List Blk) :
    entries a (b :: bs) = (a, b.size, b.free) :: entries (a + 24 + b.size) bs := rfl

lemma forall_entries {P : Nat → Bool → Prop} :
    (∀ e ∈ entries a bs, P e.2.1 e.2.2) ↔ ∀ b ∈ bs, P b.size b.free := by
  induction bs generalizing a with
  | nil => exact iff_of_true (fun e he => absurd he List.not_mem_nil) fun b hb => absurd hb List.not_mem_nil
  | cons b bs ih => rw [entries_cons, List.forall_mem_cons, List.forall_mem_cons, ih]

lemma entries_trim (a n : Nat) (b : Blk) : entries a (trim n ⟨b.size, false⟩) = carved a b.size n := by
  unfold trim carved
  split
  · rfl
  · rfl

lemma entries_carved (a n : Nat) (pre post : List Blk) (b : Blk) :
    entries a (pre ++ (trim n ⟨b.size, false⟩ ++ post)) =
      entries a pre ++ (carved (a + span 24 pre) b.size n ++
        entries (a + span 24 pre + 24 + b.size) post) := by
  have hspan : a + span 24 pre + span 24 (trim n ⟨b.size, false⟩) = a + span 24 pre + 24 + b.size := by
    rw [trim_span, span, span]
    dsimp only
    omega
  rw [entries_append, entries_append, entries_trim, hspan]

lemma bestBlock_entries {x y : Nat} (h : FirstBest n pre b post) :
    BestBlock n (entries x pre) b.size (entries y post) where
  fits := h.fits
  before := (forall_entries (P := fun size free => free = true ∧ n ≤ size → b.size < size)).mpr
    fun c hc hfree => h.before c hc hfree.1 hfree.2
  behind := (forall_entries (P := fun size free => free = true ∧ n ≤ size → b.size ≤ size)).mpr
    fun c hc hfree => h.behind c hc hfree.1 hfree.2

end Entries

/-- In every state that permitted calls lead to from `heap_init`: `malloc` of `n` bytes fails, and
leaves the heap as it is, exactly where no free block holds the rounded request. Otherwise it takes the first
of the smallest blocks that do, and the blocks before and behind it stay as they are. -/
theorem malloc_best_fit {A : HeapArray} {h : Heap} {calls : List Call} {s : Client}
    (hcalls : Along call Permitted ⟨heapInit h A.base, []⟩ calls)
    (hrun : Run call ⟨heapInit h A.base, []⟩ calls s) {n : Nat} (hpos : 1 ≤ n) (hn : n ≤ 2 ^ 64 - 8) :
    ∃ blocks p h', blockList s.heap = some blocks ∧ malloc s.heap n = some (p, h') ∧
      (p = 0 ↔ ∀ b ∈ blocks, ¬ FreeFor (rounded n) b) ∧ (p = 0 → h' = s.heap) ∧
      (p ≠ 0 → ∃ pre a size post, blocks = pre ++ (a, size, true) :: post ∧ p = a + 24 ∧
        BestBlock (rounded n) pre size post ∧
        blockList h' = some (pre ++ (carved a size (rounded n) ++ post))) := by
  obtain ⟨bs, hrep, -⟩ := HeapInv.of_run hcalls hrun
  have hzero : n ≠ 0 := by omega
  have hnone : bestFit 24 (roundUp n) A.base bs none = none ↔
      ∀ b ∈ entries A.base bs, ¬ FreeFor (rounded n) b := by
    rw [bestFit_eq_none_iff, roundUp_eq_rounded hn, ← forall_entries (a := A.base)
      (P := fun size free => free = true → ¬ rounded n ≤ size)]
    exact forall_congr' fun b => forall_congr' fun _ => not_and.symm
  cases hfit : bestFit 24 (roundUp n) A.base bs none with
  | none =>
    refine ⟨_, 0, s.heap, hrep.blockList_eq, malloc_null hrep hzero hfit, ?_, fun _ => rfl, ?_⟩
    · exact iff_of_true rfl (hnone.mp hfit)
    · exact fun hp => absurd rfl hp
  | some p =>
    obtain ⟨pre, post, rfl, haddr, hbest, hmalloc⟩ := malloc_rep hrep hzero hfit
    have hp : p.1 + 24 ≠ 0 := by omega
    refine ⟨_, p.1 + 24, _, hrep.blockList_eq, hmalloc, ?_, fun h0 => absurd h0 hp, fun _ => ?_⟩
    · refine iff_of_false hp fun hall => ?_
      rw [hnone.mpr hall] at hfit
      cases hfit
    · have hafter := (takeBlock_rep hrep hbest.fits).1.blockList_eq
      rw [← haddr] at hafter
      refine ⟨entries A.base pre, p.1, p.2.size, entries (p.1 + 24 + p.2.size) post, ?_, rfl, ?_, ?_⟩
      · have hsplit := entries_append A.base pre (p.2 :: post)
        rw [entries_cons, ← haddr, hbest.free] at hsplit
        exact hsplit
      · rw [← roundUp_eq_rounded hn]
        exact bestBlock_entries hbest
      · rw [hafter, ← roundUp_eq_rounded hn, haddr, ← entries_carved]
        rfl

/-- Blocks of 104 and of 8 bytes are free again: 5 bytes are taken from the smaller one. -/
theorem malloc_best_fit_smaller :
    ∃ s blocks h' pre size post, Run call ⟨heapInit zeroHeap lowHeap.base, []⟩
        [.malloc 100, .malloc 16, .malloc 8, .malloc 16, .free 0x100018, .free 0x1000c0] s ∧
      blockList s.heap = some blocks ∧ malloc s.heap 5 = some (0x1000c0, h') ∧
      blocks = pre ++ (0x1000a8, size, true) :: post ∧ BestBlock 8 pre size post ∧
      blockList h' = some (pre ++ (carved 0x1000a8 size 8 ++ post)) := by
  have hcalls : Along call Permitted ⟨heapInit zeroHeap lowHeap.base, []⟩
      [.malloc 100, .malloc 16, .malloc 8, .malloc 16, .free 0x100018, .free 0x1000c0] := by
    decide +kernel
  have hexec : (exec call ⟨heapInit zeroHeap lowHeap.base, []⟩
      [.malloc 100, .malloc 16, .malloc 8, .malloc 16, .free 0x100018, .free 0x1000c0]).bind
        (fun s => (malloc s.heap 5).map Prod.fst) = some 0x1000c0 := by decide +kernel
  obtain ⟨s, hs, hptr⟩ := Option.bind_eq_some_iff.mp hexec
  have hrun := Run.of_exec hs
  obtain ⟨blocks, p, h', hblocks, hmalloc, -, -, htaken⟩ :=
    malloc_best_fit hcalls hrun (n := 5) (by decide) (by decide)
  rw [hmalloc] at hptr
  obtain rfl : p = 0x1000c0 := Option.some.inj hptr
  obtain ⟨pre, a, size, post, hlist, haddr, hbest, hafter⟩ := htaken (by decide)
  obtain rfl : a = 0x1000a8 := by omega
  exact ⟨s, blocks, h', pre, size, post, hrun, hblocks, hmalloc, hlist, hbest, hafter⟩

end FusionOS.Memory
