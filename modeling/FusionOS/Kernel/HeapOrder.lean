import FusionOS.Kernel.HeapRun

/-!
# The order of frees

Every `free` merges all free neighbours of the heap, so what is merged with what depends on the
order of the calls.
-/

namespace FusionOS.Memory

open Tiling

/-- Address, size and free flag of the blocks that following the next pointers visits. -/
def blockList (h : Heap) : Option (List (Nat × Nat × Bool)) :=
  (blockWalk h.mem heapSize h.heapStart).map fun headers =>
    headers.map fun a => (a, blkSize h.mem a, blkFree h.mem a)

section Frees
variable {A : HeapArray} {h : Heap} {bs : List Blk} {live : List Nat}

lemma Rep.blockList_eq (hr : Rep A h bs) :
    blockList h = some ((located 24 A.base bs).map fun p => (p.1, p.2.size, p.2.free)) := by
  have hwalk := blockWalk_eq A.pos (by rw [hr.tiles]; rfl) hr.headers hr.length_lt
  rw [hr.link_base] at hwalk
  rw [blockList, hwalk, Option.map_some, List.map_map]
  refine congrArg some (List.map_congr_left fun p hp => ?_)
  have hat := hr.headers p hp
  rw [Function.comp_apply, hat.size, hat.free]

lemma free_used {p : Nat} (hr : Rep A h bs) (hi : BlockInv A.base (bs, live)) (hp : p ∈ live) :
    ∃ h' bs', free h p = some h' ∧ Rep A h' bs' ∧ BlockInv A.base (bs', live.erase p) ∧
      used 24 A.base bs' = (used 24 A.base bs).filter (fun q => q.1 + 24 ≠ p) ∧
      h'.heapFreed = u64 (h.heapFreed + usable h.mem p) := by
  obtain ⟨pre, b, post, rfl, hused, rfl⟩ := hi.split hp
  obtain ⟨h', hrun, hrep, -, hfreed, -⟩ := free_rep hr
  refine ⟨h', _, hrun, hrep, Change.blockInv (.give hused) hi, ?_, ?_⟩
  · have hne : (used 24 A.base (pre ++ b :: post)).filter (fun q => q.1 ≠ A.base + span 24 pre) = _ :=
      used_filter_ne (by decide) hused
    simp only [ne_eq, Nat.add_right_cancel_iff] at hne ⊢
    rw [hne, coalesce_used, used_append, used_cons_free rfl]
  · rw [hfreed, hr.usable_eq (mem_located_middle _ _ _ _)]

lemma usable_of_used {h' : Heap} {bs' : List Blk} {r : Nat} (hr : Rep A h bs) (hr' : Rep A h' bs')
    (hi : BlockInv A.base (bs', live)) (hsub : ∀ p ∈ used 24 A.base bs', p ∈ used 24 A.base bs)
    (hlive : r ∈ live) : usable h'.mem r = usable h.mem r := by
  obtain ⟨p, hp, rfl⟩ := List.mem_map.mp (hi.live.mem_iff.mp hlive)
  rw [hr'.usable_eq (List.mem_of_mem_filter hp), hr.usable_eq (List.mem_of_mem_filter (hsub p hp))]

lemma frees_used {ps : List Nat} (hr : Rep A h bs) (hi : BlockInv A.base (bs, live))
    (hnodup : ps.Nodup) (hlive : ∀ p ∈ ps, p ∈ live) :
    ∃ h' bs', exec free h ps = some h' ∧ Rep A h' bs' ∧ NoAdjFree bs' ∧
      used 24 A.base bs' = (used 24 A.base bs).filter (fun q => q.1 + 24 ∉ ps) ∧
      h'.heapFreed = ps.foldl (fun freed p => u64 (freed + usable h.mem p)) h.heapFreed := by
  induction ps generalizing h bs live with
  | nil => exact ⟨h, bs, rfl, hr, hi.apart, by simp, rfl⟩
  | cons p ps ih =>
    obtain ⟨hp, hnodup⟩ := List.nodup_cons.mp hnodup
    obtain ⟨hhead, hlive⟩ := List.forall_mem_cons.mp hlive
    obtain ⟨h1, bs1, hfree, hrep1, hinv1, hused1, hfreed1⟩ := free_used hr hi hhead
    have hlive1 : ∀ r ∈ ps, r ∈ live.erase p := by
      intro r hmem
      have hne : r ≠ p := fun heq => hp (heq ▸ hmem)
      exact (List.mem_erase_of_ne hne).mpr (hlive r hmem)
    obtain ⟨h2, bs2, hrun, hrep2, hapart, hused2, hfreed2⟩ := ih hrep1 hinv1 hnodup hlive1
    refine ⟨h2, bs2, ?_, hrep2, hapart, ?_, ?_⟩
    · rw [exec, hfree]
      exact hrun
    · rw [hused2, hused1, List.filter_filter]
      refine List.filter_congr fun q _ => ?_
      rw [← Bool.decide_and]
      refine decide_eq_decide.mpr ?_
      rw [List.mem_cons, not_or, and_comm]
    · rw [hfreed2, List.foldl_cons, hfreed1]
      refine List.foldl_ext _ _ _ fun freed r hmem => ?_
      rw [usable_of_used hr hrep1 hinv1 _ (hlive1 r hmem)]
      intro q hq
      rw [hused1] at hq
      exact List.mem_of_mem_filter hq

end Frees

/-- In every state that permitted calls lead to from `heap_init`: freeing distinct live pointers in two
orders leaves the same blocks and the same counters, and freeing all of them leaves the single
block of a fresh heap. -/
theorem free_order_irrelevant {A : HeapArray} {h : Heap} {calls : List Call} {s : Client}
    (hcalls : Along call Permitted ⟨heapInit h A.base, []⟩ calls)
    (hrun : Run call ⟨heapInit h A.base, []⟩ calls s) {ps qs : List Nat} (hnodup : ps.Nodup)
    (hlive : ∀ p ∈ ps, p ∈ s.live) (hperm : ps.Perm qs) :
    ∃ h₁ h₂ blocks, exec free s.heap ps = some h₁ ∧ exec free s.heap qs = some h₂ ∧
      blockList h₁ = some blocks ∧ blockList h₂ = some blocks ∧
      h₁.heapBlocks = h₂.heapBlocks ∧ h₁.heapFreed = h₂.heapFreed ∧
      ((∀ p ∈ s.live, p ∈ ps) → blocks = [(A.base, heapSize - sizeofBlock, true)]) := by
  obtain ⟨bs, hrep, hinv⟩ := HeapInv.of_run hcalls hrun
  obtain ⟨h₁, bs₁, hrun₁, hrep₁, hapart₁, hused₁, hfreed₁⟩ := frees_used hrep hinv hnodup hlive
  obtain ⟨h₂, bs₂, hrun₂, hrep₂, hapart₂, hused₂, hfreed₂⟩ :=
    frees_used hrep hinv (hperm.nodup_iff.mp hnodup) fun p hp => hlive p (hperm.mem_iff.mpr hp)
  have hsame : used 24 A.base bs₁ = used 24 A.base bs₂ := by
    rw [hused₁, hused₂]
    exact List.filter_congr fun q _ => decide_eq_decide.mpr (not_congr hperm.mem_iff)
  obtain rfl := eq_of_used_eq (by decide) (hrep₁.tiles.trans hrep₂.tiles.symm) hapart₁ hapart₂ hsame
  refine ⟨h₁, h₂, _, hrun₁, hrun₂, hrep₁.blockList_eq, hrep₂.blockList_eq,
    hrep₁.blocks.trans hrep₂.blocks.symm, ?_, fun hall => ?_⟩
  · rw [hfreed₁, hfreed₂]
    refine hperm.foldl_eq' (fun p _ q _ freed => ?_) _
    unfold u64
    omega
  · have hnone : used 24 A.base bs₁ = [] := by
      rw [hused₁]
      refine List.filter_eq_nil_iff.mpr fun q hq => ?_
      have hmem : q.1 + 24 ∈ s.live := hinv.live.mem_iff.mpr (List.mem_map_of_mem hq)
      simpa using hall _ hmem
    have hsize := heapSize_eq
    have hfresh : bs₁ = [⟨heapSize - 24, true⟩] := by
      refine eq_of_used_eq (show 0 < 24 by decide) (a := A.base) ?_ hapart₁ (List.IsChain.singleton _) ?_
      · rw [hrep₁.tiles]
        simp only [span]
        omega
      · rw [hnone, used_cons_free rfl]
        rfl
    rw [hfresh]
    rfl

/-- Three blocks, freed from the middle outwards or from one end to the other. -/
theorem free_order_irrelevant_three :
    ∃ s h₁ h₂, Run call ⟨heapInit zeroHeap lowHeap.base, []⟩ [.malloc 100, .malloc 8, .malloc 40] s ∧
      exec free s.heap [0x100098, 0x100018, 0x1000b8] = some h₁ ∧
      exec free s.heap [0x100018, 0x100098, 0x1000b8] = some h₂ ∧
      blockList h₁ = some [(0x100000, heapSize - sizeofBlock, true)] ∧ blockList h₂ = blockList h₁ ∧
      h₁.heapFreed = h₂.heapFreed := by
  have hcalls : Along call Permitted ⟨heapInit zeroHeap lowHeap.base, []⟩
      [.malloc 100, .malloc 8, .malloc 40] := by decide +kernel
  have hexec : (exec call ⟨heapInit zeroHeap lowHeap.base, []⟩
      [.malloc 100, .malloc 8, .malloc 40]).map Client.live = some [0x1000b8, 0x100098, 0x100018] := by
    decide +kernel
  obtain ⟨s, hs, hlive⟩ := Option.map_eq_some_iff.mp hexec
  have hrun := Run.of_exec hs
  have hdistinct : [0x100098, 0x100018, 0x1000b8].Nodup := by decide
  have hperm : [0x100098, 0x100018, 0x1000b8].Perm [0x100018, 0x100098, 0x1000b8] := by decide
  obtain ⟨h₁, h₂, blocks, hrun₁, hrun₂, hblocks₁, hblocks₂, -, hfreed, hall⟩ :=
    free_order_irrelevant hcalls hrun hdistinct (by rw [hlive]; decide) hperm
  have hfresh := hall (by rw [hlive]; decide)
  rw [hfresh] at hblocks₁ hblocks₂
  exact ⟨s, h₁, h₂, hrun, hrun₁, hrun₂, hblocks₁, hblocks₂.trans hblocks₁.symm, hfreed⟩

end FusionOS.Memory
