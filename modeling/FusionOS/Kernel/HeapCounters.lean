import FusionOS.Kernel.HeapOrder

/-!
# The byte counters of the heap

`heap_allocated` and `heap_freed` are adjusted wherever a block is taken, given back, cut or grown;
their difference is what `heapinfo` shows as currently used.
-/

namespace FusionOS.Memory

open Tiling

/-- The figure `heap_allocated - heap_freed` of `heapinfo` and the About window. -/
def currentlyUsed (h : Heap) : Nat := u64 (h.heapAllocated + (2 ^ 64 - u64 h.heapFreed))

/-- The payload bytes of the blocks that are in use. -/
def inUse (h : Heap) : Option Nat :=
  (blockList h).map fun blocks => ((blocks.filter fun b => !b.2.2).map fun b => b.2.1).sum

def slack (s : Client) : Call → Nat
  | .realloc ptr size => (realloc s.heap ptr size).elim 0 fun r =>
      if ptr ≠ 0 ∧ r.1 = ptr ∧ usable s.heap.mem ptr < roundUp size then
        usable r.2.mem ptr - roundUp size
      else 0
  | _ => 0

def totalSlack : Client → List Call → Nat
  | _, [] => 0
  | s, c :: cs => slack s c + (call s c).elim 0 fun t => totalSlack t cs

/-- Between `h` and `h'` the bytes in use have gone from `x` to `y`, and the counters have
followed but for `k` bytes. -/
def Tallied (h h' : Heap) (x y k : Nat) : Prop :=
  u64 (h'.heapAllocated + k + h.heapFreed + x) = u64 (h.heapAllocated + h'.heapFreed + y)

lemma Tallied.refl (h : Heap) (x : Nat) : Tallied h h x x 0 := rfl

lemma Tallied.trans {h h1 h2 : Heap} {x y z k l : Nat} (hfst : Tallied h h1 x y k)
    (hsnd : Tallied h1 h2 y z l) : Tallied h h2 x z (k + l) := by
  unfold Tallied u64 at *
  omega

section Calls
variable {A : HeapArray} {h h' : Heap} {bs bs' : List Blk} {n p : Nat}

lemma Rep.inUse_eq (hr : Rep A h bs) : inUse h = some (usedBytes bs) := by
  rw [inUse, hr.blockList_eq, Option.map_some, usedBytes_eq 24 A.base, used, List.filter_map,
    List.map_map]
  rfl

lemma trim_rest {b c : Blk} {rest : List Blk} (htrim : trim n b = c :: rest) : usedBytes rest = 0 := by
  unfold trim at htrim
  split at htrim
  · cases htrim
    rfl
  · cases htrim
    rfl

lemma malloc_tallied (hr : Rep A h bs) (hrun : malloc h n = some (p, h')) (hr' : Rep A h' bs') :
    Tallied h h' (usedBytes bs) (usedBytes bs') 0 := by
  rcases malloc_cases hr n with
    hnull | ⟨pre, b, post, c, rest, h1, rfl, hfree, -, htrim, -, hrun1, hrep1, -, halloc, hfreed⟩
  · rw [hnull] at hrun
    cases hrun
    obtain rfl := hr.unique hr'
    exact .refl h _
  · rw [hrun1] at hrun
    cases hrun
    obtain rfl := hrep1.unique hr'
    have hc : c.free = false := trim_head_free htrim
    have hrest := trim_rest htrim
    rw [usedBytes_append, usedBytes_append, usedBytes_cons_free hfree, usedBytes_cons_used hc,
      usedBytes_append]
    unfold Tallied
    rw [halloc, hfreed]
    unfold u64
    omega

lemma free_tallied {pre post : List Blk} {b : Blk} (hr : Rep A h (pre ++ b :: post))
    (hused : b.free = false) (hrun : free h (A.base + span 24 pre + 24) = some h')
    (hr' : Rep A h' bs') : Tallied h h' (usedBytes (pre ++ b :: post)) (usedBytes bs') 0 := by
  obtain ⟨h1, hrun1, hrep1, halloc, hfreed, -⟩ := free_rep hr
  rw [hrun1] at hrun
  cases hrun
  obtain rfl := hrep1.unique hr'
  rw [coalesce_usedBytes, usedBytes_append, usedBytes_append, usedBytes_cons_used hused,
    usedBytes_cons_free rfl]
  unfold Tallied
  rw [halloc, hfreed]
  unfold u64
  omega

lemma Resized.tallied {pre post : List Blk} {b : Blk} {q : Nat}
    (hres : Resized A h pre b post n q h' bs') (hused : b.free = false) (hr' : Rep A h' bs') :
    Tallied h h' (usedBytes (pre ++ b :: post)) (usedBytes bs')
      (if q = A.base + span 24 pre + 24 ∧ b.size < n then
        usable h'.mem (A.base + span 24 pre + 24) - n else 0) := by
  cases hres with
  | keep hle _ =>
    rw [if_neg (by omega)]
    exact .refl h _
  | shrink hle halloc hfreed _ =>
    rw [if_neg (by omega), coalesce_usedBytes, usedBytes_append, usedBytes_append,
      usedBytes_cons_used hused, usedBytes_cons_used (b := ⟨n, b.free⟩) hused, usedBytes_cons_free rfl]
    unfold Tallied
    rw [halloc, hfreed]
    unfold u64
    dsimp only
    omega
  | @grow c d post' rest _ hpost hc hlt hle htrim halloc hfreed _ =>
    subst hpost
    have hd : d.free = false := (trim_head_free htrim).trans hused
    have hrest := trim_rest htrim
    have hsize := trim_head_le htrim hle
    rw [if_pos ⟨rfl, hlt⟩, hr'.usable_eq (mem_located_middle _ _ _ _), usedBytes_append,
      usedBytes_append, usedBytes_cons_used hused, usedBytes_cons_free hc, usedBytes_cons_used hd,
      usedBytes_append]
    unfold Tallied
    rw [halloc, hfreed]
    unfold u64
    dsimp only
    omega
  | null _ =>
    rw [if_neg (by omega)]
    exact .refl h _
  | @move pre' post' rest pre2 post2 d c _ hlist hfree hlt hle htrim hlist2 hspan halloc hfreed _ _ =>
    have hne : span 24 pre' ≠ span 24 pre := by
      intro heq
      have hb := mem_located_middle A.base pre post b
      have hd := mem_located_middle A.base pre' post' d
      rw [hlist, ← heq] at hb
      rcases located_disjoint hb hd with hsame | hapart | hapart
      · rw [← (Prod.mk.inj hsame).2, hused] at hfree
        cases hfree
      · dsimp only at hapart
        omega
      · dsimp only at hapart
        omega
    have hc : c.free = false := trim_head_free htrim
    have hrest := trim_rest htrim
    have hsum := congrArg usedBytes hlist2
    have hold := congrArg usedBytes hlist
    simp only [usedBytes_append, usedBytes_cons_used hc, usedBytes_cons_used hused,
      usedBytes_cons_free hfree] at hsum hold
    rw [if_neg (by omega), coalesce_usedBytes, usedBytes_append, usedBytes_append,
      usedBytes_cons_used hused, usedBytes_cons_free rfl]
    unfold Tallied
    rw [halloc, hfreed]
    unfold u64
    omega

lemma call_tallied {s t : Client} {c : Call} (hr : Rep A s.heap bs)
    (hi : BlockInv A.base (bs, s.live)) (hc : Permitted s c) (hcall : call s c = some t)
    (hr' : Rep A t.heap bs') : Tallied s.heap t.heap (usedBytes bs) (usedBytes bs') (slack s c) := by
  have hzero : (0 : Nat) ∉ s.live := fun hmem => by
    obtain ⟨pre, b, post, -, -, hp⟩ := hi.split hmem
    omega
  cases c with
  | malloc size =>
    obtain ⟨⟨p, h'⟩, hrun, rfl⟩ := Option.map_eq_some_iff.mp hcall
    exact malloc_tallied hr hrun hr'
  | calloc nmemb size =>
    obtain ⟨⟨p, h'⟩, hrun, rfl⟩ := Option.map_eq_some_iff.mp hcall
    rcases calloc_cases hr nmemb size hc.2.2 with hnull | ⟨q, h1, bs1, hmalloc, -, hrep1, hrun1, hclear⟩
    · rw [hrun] at hnull
      cases hnull
      obtain rfl := hr.unique hr'
      exact .refl _ _
    · rw [hrun] at hrun1
      cases hrun1
      obtain rfl := hclear.unique hr'
      have htally := malloc_tallied hr hmalloc hrep1
      exact htally
  | realloc ptr size =>
    obtain ⟨⟨q, h'⟩, hrun, rfl⟩ := Option.map_eq_some_iff.mp hcall
    rw [slack, hrun, Option.elim_some]
    dsimp only at hr' ⊢
    obtain ⟨-, rfl | hp⟩ := hc
    · rw [if_neg (fun h => h.1 rfl)]
      rw [realloc, if_pos rfl] at hrun
      exact malloc_tallied hr hrun hr'
    obtain ⟨pre, b, post, rfl, hused, rfl⟩ := hi.split hp
    rw [hr.usable_eq (mem_located_middle _ _ _ _)]
    by_cases hsize : size = 0
    · subst hsize
      rw [realloc, if_neg (by omega), if_pos rfl] at hrun
      obtain ⟨h1, hfree, heq⟩ := Option.map_eq_some_iff.mp hrun
      cases heq
      rw [if_neg (by omega)]
      exact free_tallied hr hused hfree hr'
    · obtain ⟨q1, h1, bs1, hrun1, hrep1, hres⟩ := realloc_cases hr hused hsize
      rw [hrun] at hrun1
      cases hrun1
      obtain rfl := hrep1.unique hr'
      have htally := hres.tallied hused hrep1
      have hptr : A.base + span 24 pre + 24 ≠ 0 := by omega
      simpa only [hptr, ne_eq, not_false_eq_true, true_and] using htally
  | free ptr =>
    obtain ⟨h', hrun, rfl⟩ := Option.map_eq_some_iff.mp hcall
    rcases hc with rfl | hp
    · cases hrun
      obtain rfl := hr.unique hr'
      exact .refl _ _
    · obtain ⟨pre, b, post, rfl, hused, rfl⟩ := hi.split hp
      exact free_tallied hr hused hrun hr'
  | write ptr offset value =>
    cases hcall
    obtain ⟨pre, b, post, rfl, -, rfl⟩ := hi.split hc.1
    have hoffset : offset < b.size := by
      have hlt := hc.2
      rwa [usable, ptr_sub_header, hr.headers.at.size] at hlt
    have hwritten := hr.payload (m := Function.update s.heap.mem (A.base + span 24 pre + 24 + offset) value)
      fun i hout => Function.update_of_ne (by omega) _ _
    obtain rfl := hwritten.unique hr'
    exact .refl _ _

lemma run_tallied {s t : Client} {calls : List Call} (hrun : Run call s calls t)
    (hcalls : Along call Permitted s calls) (hr : Rep A s.heap bs)
    (hi : BlockInv A.base (bs, s.live)) :
    ∃ bs', Rep A t.heap bs' ∧
      Tallied s.heap t.heap (usedBytes bs) (usedBytes bs') (totalSlack s calls) := by
  induction hrun generalizing bs with
  | nil s => exact ⟨bs, hr, .refl _ _⟩
  | @cons s u t c calls hstep _ ih =>
    obtain ⟨u', hcall, bs1, hr1, hpath⟩ := call_reached hr hi hcalls.1
    rw [hstep] at hcall
    cases hcall
    obtain ⟨bs', hr', htally⟩ := ih (hcalls.2 u hstep) hr1 (blockInv_of_changes hpath hi)
    refine ⟨bs', hr', ?_⟩
    rw [totalSlack, hstep, Option.elim_some]
    exact (call_tallied hr hi hcalls.1 hstep hr1).trans htally

end Calls

/-- The first block grows into the 16 bytes behind it and keeps 8 bytes too many; then all
blocks are freed. -/
def growAndFree : List Call :=
  [.malloc 64, .malloc 16, .malloc 8, .free 0x100070, .realloc 0x100018 96, .free 0x100018,
    .free 0x100098]

end FusionOS.Memory
