import FusionOS.Kernel.Heap
import FusionOS.Lib.Tiling
import Mathlib.Tactic.Set

/-!
# The heap memory represents a list of blocks

`Rep A h bs` says that the headers found by following the next pointers from `heap_start` are those
of the list `bs`, laid out without gaps over the array.
-/

namespace FusionOS.Memory

open Tiling

lemma heapSize_eq : heapSize = 33554432 := by unfold heapSize; rfl

/-- Where the array `heap` lies: above the null page and inside the address space. -/
structure HeapArray where
  base : Nat
  pos : 0 < base
  fits : base + heapSize < 2 ^ 64

/-- One past the last byte of the array. -/
def HeapArray.stop (A : HeapArray) : Nat := A.base + heapSize

/-- The next pointer of a block that ends at `x`. -/
def link (stop x : Nat) : Nat := if x = stop then 0 else x

structure HeaderAt (m : Mem) (stop a : Nat) (b : Blk) : Prop where
  size : blkSize m a = b.size
  free : blkFree m a = b.free
  next : blkNext m a = link stop (a + 24 + b.size)

def Headers (m : Mem) (stop a : Nat) (bs : List Blk) : Prop :=
  ∀ p ∈ located 24 a bs, HeaderAt m stop p.1 p.2

structure Rep (A : HeapArray) (h : Heap) (bs : List Blk) : Prop where
  start : h.heapStart = A.base
  headers : Headers h.mem A.stop A.base bs
  tiles : span 24 bs = heapSize
  blocks : h.heapBlocks = bs.length

section Fields
variable {m m' : Mem} {a b v : Nat} {f : Bool}

lemma blkSize_congr (h : ∀ i, a ≤ i → i < a + 24 → m i = m' i) : blkSize m a = blkSize m' a :=
  load_congr _ _ _ fun i h1 h2 => h i h1 (by omega)

lemma blkFree_congr (h : ∀ i, a ≤ i → i < a + 24 → m i = m' i) : blkFree m a = blkFree m' a := by
  unfold blkFree
  rw [h (a + 8) (by omega) (by omega)]

lemma blkNext_congr (h : ∀ i, a ≤ i → i < a + 24 → m i = m' i) : blkNext m a = blkNext m' a :=
  load_congr _ _ _ fun i h1 h2 => h i (by omega) (by omega)

lemma setSize_out {i : Nat} (h : i < a ∨ a + 8 ≤ i) : setSize m a v i = m i :=
  store_out _ _ _ _ h

lemma setNext_out {i : Nat} (h : i < a + 16 ∨ a + 24 ≤ i) : setNext m a v i = m i :=
  store_out _ _ _ _ (by omega)

lemma setFree_out {i : Nat} (h : i ≠ a + 8) : setFree m a f i = m i :=
  Function.update_of_ne h _ _

@[simp] lemma blkSize_setSize : blkSize (setSize m a v) a = v % 2 ^ 64 := load_store m a 8 v

@[simp] lemma blkNext_setNext : blkNext (setNext m a v) a = v % 2 ^ 64 := load_store m (a + 16) 8 v

@[simp] lemma blkFree_setFree : blkFree (setFree m a f) a = f := by
  cases f <;> simp [blkFree, setFree]

@[simp] lemma blkSize_setNext : blkSize (setNext m a v) a = blkSize m a :=
  load_store_disjoint _ _ _ _ (by omega)

@[simp] lemma blkFree_setNext : blkFree (setNext m a v) a = blkFree m a := by
  unfold blkFree
  rw [setNext_out (by omega)]

@[simp] lemma blkNext_setSize : blkNext (setSize m a v) a = blkNext m a :=
  load_store_disjoint _ _ _ _ (by omega)

@[simp] lemma blkFree_setSize : blkFree (setSize m a v) a = blkFree m a := by
  unfold blkFree
  rw [setSize_out (by omega)]

@[simp] lemma blkSize_setFree : blkSize (setFree m a f) a = blkSize m a :=
  load_congr _ _ _ fun i _ h2 => setFree_out (by omega)

@[simp] lemma blkNext_setFree : blkNext (setFree m a f) a = blkNext m a :=
  load_congr _ _ _ fun i h1 _ => setFree_out (by omega)

end Fields

lemma HeaderAt.congr {m m' : Mem} {stop a : Nat} {b : Blk} (h : HeaderAt m stop a b)
    (hm : ∀ i, a ≤ i → i < a + 24 → m' i = m i) : HeaderAt m' stop a b where
  size := (blkSize_congr hm).trans h.size
  free := (blkFree_congr hm).trans h.free
  next := (blkNext_congr hm).trans h.next

lemma Headers.replace {m m' : Mem} {stop a : Nat} {pre post : List Blk} (old mid : List Blk)
    (h : Headers m stop a (pre ++ (old ++ post))) (hspan : span 24 mid = span 24 old)
    (hout : ∀ i, i < a + span 24 pre ∨ a + span 24 pre + span 24 old ≤ i → m' i = m i)
    (hmid : ∀ p ∈ located 24 (a + span 24 pre) mid, HeaderAt m' stop p.1 p.2) :
    Headers m' stop a (pre ++ (mid ++ post)) := by
  intro p hp
  simp only [Headers, located_append, List.mem_append] at h hp
  rcases hp with hp | hp | hp
  · have hb := located_bounds hp
    exact (h p (Or.inl hp)).congr fun i _ h2 => hout i (by omega)
  · exact hmid p hp
  · rw [hspan] at hp
    have hb := located_bounds hp
    exact (h p (Or.inr (Or.inr hp))).congr fun i h1 _ => hout i (by omega)

section Walks
variable {m : Mem} {stop : Nat}

lemma Headers.at {a : Nat} {pre : List Blk} {b : Blk} {post : List Blk}
    (h : Headers m stop a (pre ++ b :: post)) : HeaderAt m stop (a + span 24 pre) b := by
  refine h (a + span 24 pre, b) ?_
  rw [located_append]
  exact List.mem_append_right _ List.mem_cons_self

lemma link_of_cons {a : Nat} {pre : List Blk} {b c : Blk} {post : List Blk}
    (hstop : a + span 24 (pre ++ b :: c :: post) = stop) :
    link stop (a + span 24 pre + 24 + b.size) = a + span 24 (pre ++ [b]) := by
  simp only [span_append, span] at hstop ⊢
  rw [link, if_neg (by omega)]
  omega

lemma link_of_last {a : Nat} {pre : List Blk} {b : Blk}
    (hstop : a + span 24 (pre ++ [b]) = stop) : link stop (a + span 24 pre + 24 + b.size) = 0 := by
  simp only [span_append, span] at hstop
  rw [link, if_pos (by omega)]

/-- The pointer `best` of the search loop stands for a candidate block. -/
def IsCand (m : Mem) (best : Nat) : Option (Nat × Blk) → Prop
  | none => best = 0
  | some p => best = p.1 ∧ best ≠ 0 ∧ blkSize m best = p.2.size

lemma mallocScan_eq {n fuel a best : Nat} {bs : List Blk} {cand : Option (Nat × Blk)}
    (ha : 0 < a) (hstop : a + span 24 bs = stop) (h : Headers m stop a bs) (hfuel : bs.length < fuel)
    (hbest : IsCand m best cand) :
    mallocScan m n fuel (link stop a) best =
      some ((bestFit 24 n a bs cand).elim 0 Prod.fst) := by
  induction bs generalizing fuel a best cand with
  | nil =>
    obtain ⟨fuel, rfl⟩ := Nat.exists_eq_add_one.mpr (Nat.zero_lt_of_lt hfuel)
    have hlink : link stop a = 0 := by
      rw [link, if_pos (by simpa [span] using hstop)]
    cases cand with
    | none => simp [mallocScan, hlink, bestFit, show best = 0 from hbest]
    | some p => simp [mallocScan, hlink, bestFit, hbest.1]
  | cons b bs ih =>
    obtain ⟨fuel, rfl⟩ := Nat.exists_eq_add_one.mpr (Nat.zero_lt_of_lt hfuel)
    have hb := h (a, b) List.mem_cons_self
    dsimp only at hb
    have hrest : Headers m stop (a + 24 + b.size) bs := fun p hp => h p (List.mem_cons_of_mem _ hp)
    have hstop' : a + 24 + b.size + span 24 bs = stop := by
      simp only [span] at hstop
      omega
    have hlink : link stop a = a := by
      simp only [span] at hstop
      rw [link, if_neg (by omega)]
    have hlen : bs.length < fuel := by simpa using hfuel
    have hguard : (decide (best = 0) || decide (b.size < blkSize m best)) =
        cand.all fun p => decide (b.size < p.2.size) := by
      cases cand with
      | none => simp [show best = 0 from hbest]
      | some p => simp [hbest.2.1, hbest.2.2]
    have hne : a ≠ 0 := by omega
    rw [hlink]
    simp only [mallocScan, if_neg hne, hb.free, hb.size, hb.next, hguard, bestFit]
    split
    · split
      · rfl
      · exact ih (by omega) hstop' hrest hlen ⟨rfl, hne, hb.size⟩
    · exact ih (by omega) hstop' hrest hlen hbest

end Walks

def OutsideHeaders (a : Nat) (bs : List Blk) (i : Nat) : Prop :=
  ∀ p ∈ located 24 a bs, i < p.1 ∨ p.1 + 24 ≤ i

lemma OutsideHeaders.merge {a i : Nat} {pre : List Blk} {cur b : Blk} {post : List Blk}
    (h : OutsideHeaders a (pre ++ cur :: b :: post) i) (f : Bool) :
    OutsideHeaders a (pre ++ ⟨cur.size + (24 + b.size), f⟩ :: post) i := by
  intro p hp
  have haddr : a + span 24 pre + 24 + cur.size + 24 + b.size =
      a + span 24 pre + 24 + (cur.size + (24 + b.size)) := by omega
  simp only [OutsideHeaders, located_append, located, List.mem_append, List.mem_cons, haddr] at h hp
  rcases hp with hp | rfl | hp
  · exact h p (Or.inl hp)
  · exact h (a + span 24 pre, cur) (Or.inr (Or.inl rfl))
  · exact h p (Or.inr (Or.inr (Or.inr hp)))

lemma OutsideHeaders.flag {a i : Nat} {pre : List Blk} {b : Blk} {post : List Blk}
    (h : OutsideHeaders a (pre ++ b :: post) i) (f : Bool) :
    OutsideHeaders a (pre ++ ⟨b.size, f⟩ :: post) i := by
  intro p hp
  simp only [OutsideHeaders, located_append, located, List.mem_append, List.mem_cons] at h hp
  rcases hp with hp | rfl | hp
  · exact h p (Or.inl hp)
  · exact h (a + span 24 pre, b) (Or.inr (Or.inl rfl))
  · exact h p (Or.inr (Or.inr hp))

lemma OutsideHeaders.at {a i : Nat} {pre : List Blk} {b : Blk} {post : List Blk}
    (h : OutsideHeaders a (pre ++ b :: post) i) : i < a + span 24 pre ∨ a + span 24 pre + 24 ≤ i :=
  h (a + span 24 pre, b) (by rw [located_append]; simp [located])

lemma OutsideHeaders.behind {a i : Nat} {pre : List Blk} {b c : Blk} {post : List Blk}
    (h : OutsideHeaders a (pre ++ b :: c :: post) i) :
    i < a + span 24 pre + 24 + b.size ∨ a + span 24 pre + 24 + b.size + 24 ≤ i :=
  h (a + span 24 pre + 24 + b.size, c) (by rw [located_append]; simp [located])

lemma OutsideHeaders.of_payload {a i : Nat} {bs : List Blk} {p : Nat × Blk}
    (hp : p ∈ located 24 a bs) (hlo : p.1 + 24 ≤ i) (hhi : i < p.1 + 24 + p.2.size) :
    OutsideHeaders a bs i := by
  intro q hq
  rcases located_disjoint hp hq with rfl | hpq | hqp
  · exact Or.inr hlo
  · exact Or.inl (by omega)
  · exact Or.inr (by omega)

lemma link_lt {stop x : Nat} (hx : x ≤ stop) (hlt : stop < 2 ^ 64) : link stop x < 2 ^ 64 := by
  unfold link
  split <;> omega

lemma mergeNext_out {m : Mem} {cur next i : Nat} (h : i < cur ∨ cur + 24 ≤ i) :
    mergeNext m cur next i = m i := by
  unfold mergeNext
  rw [setNext_out (by omega), setSize_out (by omega)]

lemma mergeNext_headers {m : Mem} {stop a : Nat} {pre : List Blk} {cur b : Blk} {post : List Blk}
    (hstop : a + span 24 (pre ++ cur :: b :: post) = stop) (hlt : stop < 2 ^ 64)
    (hh : Headers m stop a (pre ++ cur :: b :: post)) :
    Headers (mergeNext m (a + span 24 pre) (a + span 24 (pre ++ [cur]))) stop a
      (pre ++ ⟨cur.size + (24 + b.size), cur.free⟩ :: post) := by
  have hcur := hh.at
  have hb : HeaderAt m stop (a + span 24 (pre ++ [cur])) b :=
    (show Headers m stop a ((pre ++ [cur]) ++ b :: post) by simpa using hh).at
  have hy : a + span 24 (pre ++ [cur]) = a + span 24 pre + 24 + cur.size := by
    simp only [span_append, span]
    omega
  have hend : a + span 24 pre + 24 + cur.size + 24 + b.size ≤ stop := by
    simp only [span_append, span] at hstop
    omega
  have hspan : span 24 [⟨cur.size + (24 + b.size), cur.free⟩] = span 24 [cur, b] := by
    simp only [span]
    omega
  refine Headers.replace [cur, b] [⟨cur.size + (24 + b.size), cur.free⟩] hh hspan
    (fun i hi => mergeNext_out (by simp only [span] at hi; omega)) ?_
  intro p hp
  obtain rfl := List.mem_singleton.mp hp
  have hnext : blkNext (setSize m (a + span 24 pre) (cur.size + (24 + b.size)))
      (a + span 24 (pre ++ [cur])) = link stop (a + span 24 pre + 24 + cur.size + 24 + b.size) := by
    rw [← hy, ← hb.next]
    exact blkNext_congr fun i h1 _ => setSize_out (by omega)
  have hassoc : a + span 24 pre + 24 + (cur.size + (24 + b.size)) =
      a + span 24 pre + 24 + cur.size + 24 + b.size := by omega
  unfold mergeNext
  dsimp only [sizeofBlock]
  rw [hcur.size, hb.size, hnext]
  refine ⟨?_, ?_, ?_⟩
  · simp only [blkSize_setNext, blkSize_setSize]
    exact Nat.mod_eq_of_lt (by omega)
  · simp only [blkFree_setNext, blkFree_setSize]
    exact hcur.free
  · rw [blkNext_setNext, hassoc]
    exact Nat.mod_eq_of_lt (link_lt hend hlt)

lemma coalesceLoop_eq {stop a fuel : Nat} {h : Heap} (pre : List Blk) (cur : Blk)
    (post : List Blk) (ha : 0 < a) (hstop : a + span 24 (pre ++ cur :: post) = stop)
    (hlt : stop < 2 ^ 64) (hh : Headers h.mem stop a (pre ++ cur :: post))
    (hblocks : h.heapBlocks = (pre ++ cur :: post).length) (hfuel : post.length < fuel) :
    ∃ h', coalesceLoop fuel h (a + span 24 pre) = some h' ∧
      Headers h'.mem stop a (pre ++ coalesceFrom 24 cur post) ∧
      h'.heapBlocks = (pre ++ coalesceFrom 24 cur post).length ∧
      h' = { h with mem := h'.mem, heapBlocks := h'.heapBlocks } ∧
      ∀ i, OutsideHeaders a (pre ++ cur :: post) i → h'.mem i = h.mem i := by
  induction post generalizing fuel h pre cur with
  | nil =>
    obtain ⟨fuel, rfl⟩ := Nat.exists_eq_add_one.mpr (Nat.zero_lt_of_lt hfuel)
    have hnext := hh.at.next
    rw [link_of_last hstop] at hnext
    exact ⟨h, by simp [coalesceLoop, hnext], hh, hblocks, rfl, fun _ _ => rfl⟩
  | cons b post ih =>
    obtain ⟨fuel, rfl⟩ := Nat.exists_eq_add_one.mpr (Nat.zero_lt_of_lt hfuel)
    have hcur := hh.at
    have hnext := hcur.next
    rw [link_of_cons hstop] at hnext
    have hshift : pre ++ cur :: b :: post = (pre ++ [cur]) ++ b :: post := by simp
    have hb := (hshift ▸ hh).at
    have hpos : 0 < a + span 24 (pre ++ [cur]) := by omega
    have hx : a + span 24 pre ≠ 0 := by omega
    have hlen : post.length < fuel := by simpa using hfuel
    have hguard : a + span 24 pre ≠ 0 ∧ blkNext h.mem (a + span 24 pre) ≠ 0 := ⟨hx, by omega⟩
    rw [coalesceLoop, if_pos hguard]
    simp only [hnext, hcur.free, hb.free]
    by_cases hfree : cur.free = true ∧ b.free = true
    · -- the header of `cur` swallows the one of `b`
      have hmerge := mergeNext_headers hstop hlt hh
      have hcf : cur.free = true := hfree.1
      rw [hcf] at hmerge
      obtain ⟨h', hrun, hheaders, hlen', hrec, hframe⟩ := ih pre ⟨cur.size + (24 + b.size), true⟩
        (h := { h with
          mem := mergeNext h.mem (a + span 24 pre) (a + span 24 (pre ++ [cur]))
          heapBlocks := u64 (h.heapBlocks + (2 ^ 64 - 1)) })
        (by simp only [span_append, span] at hstop ⊢; omega) hmerge
        (by
          have hsmall : _ ≤ span 24 (pre ++ cur :: b :: post) := length_mul_le_span _
          simp only [List.length_append, List.length_cons, u64] at hblocks hsmall ⊢
          omega) hlen
      have hlist : coalesceFrom 24 cur (b :: post) =
          coalesceFrom 24 ⟨cur.size + (24 + b.size), true⟩ post := by
        simp [coalesceFrom, hfree]
      rw [if_pos (by simp [hfree]), hlist]
      refine ⟨h', hrun, hheaders, hlen', hrec, fun i hi => ?_⟩
      rw [hframe i (hi.merge true)]
      exact mergeNext_out hi.at
    · rw [if_neg (by simpa using hfree)]
      obtain ⟨h', hrun, hrest⟩ := ih (pre ++ [cur]) b
        (hshift ▸ hstop) (hshift ▸ hh) (hshift ▸ hblocks) hlen
      have hlist : pre ++ coalesceFrom 24 cur (b :: post) =
          (pre ++ [cur]) ++ coalesceFrom 24 b post := by
        simp [coalesceFrom, hfree]
      rw [hlist, hshift]
      exact ⟨h', hrun, hrest⟩

section Operations
variable {A : HeapArray} {h : Heap} {pre : List Blk} {b : Blk} {post : List Blk}

lemma Rep.bounds (hr : Rep A h (pre ++ b :: post)) :
    A.base + span 24 pre + 24 + b.size + span 24 post = A.stop ∧ A.stop < 2 ^ 64 ∧ 0 < A.base := by
  have hs := hr.tiles
  simp only [span_append, span] at hs
  exact ⟨by rw [HeapArray.stop]; omega, A.fits, A.pos⟩

lemma Rep.length_lt {bs : List Blk} (hr : Rep A h bs) : bs.length < heapSize := by
  have hs : _ ≤ span 24 bs := length_mul_le_span bs
  rw [hr.tiles, heapSize_eq] at hs
  rw [heapSize_eq]
  omega

lemma Rep.ne_nil {bs : List Blk} (hr : Rep A h bs) : bs ≠ [] := by
  rintro rfl
  have hs := hr.tiles
  rw [heapSize_eq] at hs
  cases hs

lemma Headers.unique {m : Mem} {stop a : Nat} {bs bs' : List Blk} (h : Headers m stop a bs)
    (h' : Headers m stop a bs') (hspan : span 24 bs = span 24 bs') : bs = bs' := by
  induction bs generalizing a bs' with
  | nil =>
    cases bs' with
    | nil => rfl
    | cons b' bs' =>
      simp only [span] at hspan
      omega
  | cons b bs ih =>
    cases bs' with
    | nil =>
      simp only [span] at hspan
      omega
    | cons b' bs' =>
      obtain ⟨hb, hrest⟩ := List.forall_mem_cons.mp h
      obtain ⟨hb', hrest'⟩ := List.forall_mem_cons.mp h'
      obtain ⟨size, free⟩ := b
      obtain ⟨size', free'⟩ := b'
      obtain rfl : size = size' := hb.size.symm.trans hb'.size
      obtain rfl : free = free' := hb.free.symm.trans hb'.free
      simp only [span] at hspan
      rw [ih hrest hrest' (by omega)]

lemma Rep.unique {bs bs' : List Blk} (hr : Rep A h bs) (hr' : Rep A h bs') : bs = bs' :=
  hr.headers.unique hr'.headers (hr.tiles.trans hr'.tiles.symm)

lemma heapCoalesce_rep {bs : List Blk} (hr : Rep A h bs) :
    ∃ h', heapCoalesce h = some h' ∧ Rep A h' (coalesce 24 bs) ∧
      h' = { h with mem := h'.mem, heapBlocks := h'.heapBlocks } ∧
      ∀ i, OutsideHeaders A.base bs i → h'.mem i = h.mem i := by
  cases bs with
  | nil => exact absurd rfl hr.ne_nil
  | cons b bs =>
    have hlen : bs.length < heapSize := Nat.lt_of_succ_lt hr.length_lt
    obtain ⟨h', hrun, hheaders, hblocks, hrec, hframe⟩ := coalesceLoop_eq [] b bs (a := A.base) A.pos
      (by rw [List.nil_append, hr.tiles]) A.fits hr.headers hr.blocks hlen
    refine ⟨h', ?_, ⟨?_, hheaders, ?_, hblocks⟩, hrec, hframe⟩
    · rw [heapCoalesce, hr.start]
      exact hrun
    · rw [hrec]
      exact hr.start
    · rw [coalesce, coalesceFrom_span, hr.tiles]

lemma Rep.counters {bs : List Blk} (hr : Rep A h bs) (allocated freed : Nat) :
    Rep A { h with heapAllocated := allocated, heapFreed := freed } bs :=
  ⟨hr.start, hr.headers, hr.tiles, hr.blocks⟩

lemma setFree_rep (hr : Rep A h (pre ++ b :: post)) (f : Bool) :
    Rep A { h with mem := setFree h.mem (A.base + span 24 pre) f }
      (pre ++ ⟨b.size, f⟩ :: post) := by
  have hb := hr.headers.at
  refine ⟨hr.start, ?_, ?_, ?_⟩
  · refine Headers.replace [b] [⟨b.size, f⟩] hr.headers rfl
      (fun i hi => setFree_out (by simp only [span] at hi; omega)) ?_
    intro p hp
    obtain rfl := List.mem_singleton.mp hp
    refine ⟨?_, ?_, ?_⟩
    · rw [blkSize_setFree]
      exact hb.size
    · exact blkFree_setFree
    · rw [blkNext_setFree]
      exact hb.next
  · have := hr.tiles
    simpa only [span_append, span] using this
  · have := hr.blocks
    simpa using this

lemma splitBlock_rep {n : Nat} (hr : Rep A h (pre ++ b :: post)) (hn : n + 32 ≤ b.size) :
    Rep A (splitBlock h (A.base + span 24 pre) n)
      (pre ++ ⟨n, b.free⟩ :: ⟨b.size - n - 24, true⟩ :: post) := by
  have hb := hr.headers.at
  obtain ⟨hend, hlt, -⟩ := hr.bounds
  have hlen := hr.length_lt
  have hblocks := hr.blocks
  set x := A.base + span 24 pre with hx
  have hnew : u64 (x + sizeofBlock + n) = x + 24 + n := Nat.mod_eq_of_lt (by
    simp only [sizeofBlock]
    omega)
  have hrest : u64 (blkSize h.mem x + (2 ^ 64 - n) + (2 ^ 64 - sizeofBlock)) = b.size - n - 24 := by
    rw [hb.size]
    simp only [u64, sizeofBlock]
    omega
  refine ⟨hr.start, ?_, ?_, ?_⟩
  · refine Headers.replace [b] [⟨n, b.free⟩, ⟨b.size - n - 24, true⟩] hr.headers
      (by simp only [span]; omega) ?_ ?_
    · intro i hi
      simp only [span] at hi
      simp only [splitBlock, hnew]
      rw [setSize_out (by omega), setNext_out (by omega), setNext_out (by omega),
        setFree_out (by omega), setSize_out (by omega)]
    · intro p hp
      simp only [located, List.mem_cons, List.not_mem_nil, or_false] at hp
      have hkeep : ∀ i, x ≤ i → i < x + 24 →
          setFree (setSize h.mem (x + 24 + n) (b.size - n - 24)) (x + 24 + n) true i = h.mem i :=
        fun i _ _ => by rw [setFree_out (by omega), setSize_out (by omega)]
      have hlink := link_lt (x := x + 24 + b.size) (by omega) hlt
      simp only [splitBlock, hnew, hrest, blkNext_congr hkeep, hb.next]
      rcases hp with rfl | rfl
      · refine ⟨?_, ?_, ?_⟩
        · rw [blkSize_setSize]
          exact Nat.mod_eq_of_lt (by omega)
        · rw [blkFree_setSize, blkFree_setNext, ← hb.free]
          refine blkFree_congr fun i h1 h2 => ?_
          rw [setNext_out (by omega)]
          exact hkeep i h1 h2
        · rw [blkNext_setSize, blkNext_setNext, link, if_neg (by dsimp only; omega)]
          exact Nat.mod_eq_of_lt (by omega)
      · -- the two stores into the first header miss the second one
        refine HeaderAt.congr (m := setNext (setFree (setSize h.mem (x + 24 + n) (b.size - n - 24))
          (x + 24 + n) true) (x + 24 + n) (link A.stop (x + 24 + b.size))) ⟨?_, ?_, ?_⟩
          fun i h1 _ => by rw [setSize_out (by dsimp only at h1; omega), setNext_out (by dsimp only at h1; omega)]
        · rw [blkSize_setNext, blkSize_setFree, blkSize_setSize]
          exact Nat.mod_eq_of_lt (by omega)
        · rw [blkFree_setNext, blkFree_setFree]
        · have hadd : x + 24 + n + 24 + (b.size - n - 24) = x + 24 + b.size := by omega
          rw [blkNext_setNext, Nat.mod_eq_of_lt hlink]
          exact (congrArg (link A.stop) hadd).symm
  · have := hr.tiles
    simp only [span_append, span] at this ⊢
    omega
  · rw [heapSize_eq] at hlen
    simp only [List.length_append, List.length_cons] at hlen hblocks ⊢
    simp only [splitBlock, u64]
    omega

/-- What is left of a block cut down to `n` bytes: the rest is split off if it is worth a block. -/
def trim (n : Nat) (b : Blk) : List Blk :=
  if n + 32 ≤ b.size then [⟨n, b.free⟩, ⟨b.size - n - 24, true⟩] else [b]

lemma Rep.split_guard {n : Nat} (hr : Rep A h (pre ++ b :: post)) (hn : n ≤ b.size) :
    u64 (n + sizeofBlock + 8) = n + 32 := by
  have hs := hr.tiles
  simp only [span_append, span, heapSize_eq] at hs
  exact Nat.mod_eq_of_lt (by simp only [sizeofBlock]; omega)

lemma splitIfLarge_rep {n : Nat} (hr : Rep A h (pre ++ b :: post)) (hn : n ≤ b.size) :
    Rep A (splitIfLarge h (A.base + span 24 pre) n) (pre ++ (trim n b ++ post)) := by
  have hu := hr.split_guard hn
  rw [splitIfLarge, hu, hr.headers.at.size, trim]
  split
  · rename_i hlarge
    exact splitBlock_rep hr hlarge
  · exact hr

lemma splitBlock_out {n i : Nat} (hr : Rep A h (pre ++ b :: post)) (hn : n ≤ b.size)
    (hhead : i < A.base + span 24 pre ∨ A.base + span 24 pre + 24 ≤ i)
    (hrest : i < A.base + span 24 pre + 24 + n ∨ A.base + span 24 pre + 24 + n + 24 ≤ i) :
    (splitBlock h (A.base + span 24 pre) n).mem i = h.mem i := by
  obtain ⟨hend, hlt, -⟩ := hr.bounds
  have hnew : u64 (A.base + span 24 pre + sizeofBlock + n) = A.base + span 24 pre + 24 + n :=
    Nat.mod_eq_of_lt (by simp only [sizeofBlock]; omega)
  simp only [splitBlock, hnew]
  rw [setSize_out (by omega), setNext_out (by omega), setNext_out (by omega),
    setFree_out (by omega), setSize_out (by omega)]

lemma splitIfLarge_out {n i : Nat} (hr : Rep A h (pre ++ b :: post)) (hn : n ≤ b.size)
    (hhead : i < A.base + span 24 pre ∨ A.base + span 24 pre + 24 ≤ i)
    (hrest : i < A.base + span 24 pre + 24 + n ∨ A.base + span 24 pre + 24 + b.size ≤ i) :
    (splitIfLarge h (A.base + span 24 pre) n).mem i = h.mem i := by
  have hu := hr.split_guard hn
  rw [splitIfLarge, hu, hr.headers.at.size]
  split
  · exact splitBlock_out hr hn hhead (by omega)
  · rfl

@[simp] lemma splitIfLarge_heapAllocated (h : Heap) (x n : Nat) :
    (splitIfLarge h x n).heapAllocated = h.heapAllocated := by
  unfold splitIfLarge
  split <;> rfl

@[simp] lemma splitIfLarge_heapFreed (h : Heap) (x n : Nat) :
    (splitIfLarge h x n).heapFreed = h.heapFreed := by
  unfold splitIfLarge
  split <;> rfl

lemma trim_flag (n : Nat) (b : Blk) (f : Bool) : ∃ size rest,
    trim n b = ⟨size, b.free⟩ :: rest ∧ trim n ⟨b.size, f⟩ = ⟨size, f⟩ :: rest := by
  unfold trim
  split
  · exact ⟨n, [⟨b.size - n - 24, true⟩], rfl, rfl⟩
  · exact ⟨b.size, [], rfl, rfl⟩

lemma Rep.link_base {bs : List Blk} (hr : Rep A h bs) : link A.stop A.base = h.heapStart := by
  have hsize := heapSize_eq
  rw [hr.start, link, if_neg]
  simp only [HeapArray.stop]
  omega

lemma mallocScan_rep {bs : List Blk} (hr : Rep A h bs) (n : Nat) :
    mallocScan h.mem n heapSize h.heapStart 0 = some ((bestFit 24 n A.base bs none).elim 0 Prod.fst) := by
  rw [← hr.link_base]
  exact mallocScan_eq A.pos (by rw [hr.tiles]; rfl) hr.headers hr.length_lt rfl

lemma malloc_null {bs : List Blk} {n : Nat} (hr : Rep A h bs) (hn : n ≠ 0)
    (hfit : bestFit 24 (roundUp n) A.base bs none = none) : malloc h n = some (0, h) := by
  simp [malloc, hn, mallocScan_rep hr, hfit]

lemma takeBlock_rep {n : Nat} (hr : Rep A h (pre ++ b :: post)) (hn : n ≤ b.size) :
    Rep A (takeBlock h (A.base + span 24 pre) n) (pre ++ (trim n ⟨b.size, false⟩ ++ post)) ∧
      ∀ i, i < A.base + span 24 pre ∨ A.base + span 24 pre + 24 + b.size ≤ i →
        (takeBlock h (A.base + span 24 pre) n).mem i = h.mem i := by
  obtain ⟨size, rest, htrim, htrim'⟩ := trim_flag n b false
  have hsplit := splitIfLarge_rep hr hn
  rw [htrim] at hsplit
  have hused := setFree_rep hsplit false
  rw [htrim']
  refine ⟨⟨hused.start, hused.headers, hused.tiles, hused.blocks⟩, fun i hi => ?_⟩
  exact (setFree_out (by omega)).trans (splitIfLarge_out hr hn (by omega) (by omega))

lemma takeBlock_counters {n : Nat} {c : Blk} {rest : List Blk} (hr : Rep A h (pre ++ b :: post))
    (hn : n ≤ b.size) (htrim : trim n ⟨b.size, false⟩ = c :: rest) :
    (takeBlock h (A.base + span 24 pre) n).heapAllocated = u64 (h.heapAllocated + c.size) ∧
      (takeBlock h (A.base + span 24 pre) n).heapFreed = h.heapFreed := by
  have hrep := (takeBlock_rep hr hn).1
  rw [htrim] at hrep
  have hsize : blkSize (takeBlock h (A.base + span 24 pre) n).mem (A.base + span 24 pre) = c.size :=
    hrep.headers.at.size
  unfold takeBlock at hsize ⊢
  dsimp only at hsize ⊢
  rw [hsize]
  exact ⟨by rw [splitIfLarge_heapAllocated], splitIfLarge_heapFreed _ _ _⟩

lemma malloc_rep {bs : List Blk} {n : Nat} {p : Nat × Blk} (hr : Rep A h bs) (hn : n ≠ 0)
    (hfit : bestFit 24 (roundUp n) A.base bs none = some p) :
    ∃ pre post, bs = pre ++ p.2 :: post ∧ p.1 = A.base + span 24 pre ∧
      FirstBest (roundUp n) pre p.2 post ∧ malloc h n = some (p.1 + 24, takeBlock h p.1 (roundUp n)) := by
  obtain ⟨pre, post, hlist, haddr, hbest⟩ := bestFit_split hfit
  rw [hlist] at hr
  obtain ⟨hend, hlt, hpos⟩ := hr.bounds
  have hx : p.1 ≠ 0 := by omega
  have hptr : u64 (p.1 + sizeofBlock) = p.1 + 24 :=
    Nat.mod_eq_of_lt (by simp only [sizeofBlock]; omega)
  rw [hlist] at hfit
  refine ⟨pre, post, hlist, haddr, hbest, ?_⟩
  simp only [malloc, if_neg hn, mallocScan_rep hr, hfit, Option.map_some, Option.elim_some, if_neg hx,
    hptr]

lemma ptr_sub_header (x : Nat) : x + 24 - sizeofBlock = x := Nat.add_sub_cancel _ _

lemma free_rep (hr : Rep A h (pre ++ b :: post)) :
    ∃ h', free h (A.base + span 24 pre + 24) = some h' ∧
      Rep A h' (coalesce 24 (pre ++ ⟨b.size, true⟩ :: post)) ∧
      h'.heapAllocated = h.heapAllocated ∧ h'.heapFreed = u64 (h.heapFreed + b.size) ∧
      ∀ i, OutsideHeaders A.base (pre ++ b :: post) i → h'.mem i = h.mem i := by
  have hp : A.base + span 24 pre + 24 ≠ 0 := by omega
  have hsize : blkSize (setFree h.mem (A.base + span 24 pre) true) (A.base + span 24 pre) = b.size := by
    rw [blkSize_setFree]
    exact hr.headers.at.size
  simp only [free, if_neg hp, ptr_sub_header, hsize]
  obtain ⟨h', hrun, hrep, hkept, hframe⟩ := heapCoalesce_rep ((setFree_rep hr true).counters
    h.heapAllocated (u64 (h.heapFreed + b.size)))
  refine ⟨h', hrun, hrep, by rw [hkept], by rw [hkept], fun i hi => ?_⟩
  refine (hframe i (hi.flag true)).trans (setFree_out ?_)
  have := hi.at
  omega

lemma Rep.payload {m : Mem} (hr : Rep A h (pre ++ b :: post))
    (hm : ∀ i, i < A.base + span 24 pre + 24 ∨ A.base + span 24 pre + 24 + b.size ≤ i → m i = h.mem i) :
    Rep A { h with mem := m } (pre ++ b :: post) := by
  refine ⟨hr.start, ?_, hr.tiles, hr.blocks⟩
  refine Headers.replace [b] [b] hr.headers rfl
    (fun i hi => hm i (by simp only [span] at hi; omega)) ?_
  intro p hp
  obtain rfl := List.mem_singleton.mp hp
  exact hr.headers.at.congr fun i _ h2 => hm i (Or.inl h2)

lemma roundUp_lt (n : Nat) : roundUp n < 2 ^ 64 := by
  unfold roundUp u64
  omega

lemma roundUp_dvd (n : Nat) : 8 ∣ roundUp n := Dvd.intro_left _ rfl

lemma roundUp_roundUp (n : Nat) : roundUp (roundUp n) = roundUp n := by
  have hlt := roundUp_lt n
  obtain ⟨k, hk⟩ := roundUp_dvd n
  rw [hk] at hlt ⊢
  unfold roundUp u64
  omega

lemma growBlock_rep {c : Blk} (hr : Rep A h (pre ++ b :: c :: post)) :
    Rep A (growBlock h (A.base + span 24 pre) (A.base + span 24 (pre ++ [b])))
      (pre ++ ⟨b.size + (24 + c.size), b.free⟩ :: post) := by
  have hlen := hr.length_lt
  have hblocks := hr.blocks
  refine ⟨hr.start, mergeNext_headers (by rw [hr.tiles]; rfl) A.fits hr.headers, ?_, ?_⟩
  · have htiles := hr.tiles
    simp only [span_append, span] at htiles ⊢
    omega
  · rw [heapSize_eq] at hlen
    simp only [List.length_append, List.length_cons] at hlen hblocks ⊢
    simp only [growBlock, u64]
    omega

section Realloc
variable {n : Nat}

lemma realloc_keep (hr : Rep A h (pre ++ b :: post)) (hn : n ≠ 0) (hle : roundUp n ≤ b.size)
    (hlt : b.size < roundUp n + 32) :
    realloc h (A.base + span 24 pre + 24) n = some (A.base + span 24 pre + 24, h) := by
  simp only [realloc, hn, ptr_sub_header, hr.headers.at.size, hr.split_guard hle, hle, if_true,
    if_false, Nat.add_eq_zero_iff, OfNat.ofNat_ne_zero, and_false, Nat.not_le.mpr hlt]

lemma realloc_shrink (hr : Rep A h (pre ++ b :: post)) (hn : n ≠ 0)
    (hle : roundUp n + 32 ≤ b.size) :
    ∃ h', realloc h (A.base + span 24 pre + 24) n = some (A.base + span 24 pre + 24, h') ∧
      Rep A h' (coalesce 24 (pre ++ ⟨roundUp n, b.free⟩ :: ⟨b.size - roundUp n - 24, true⟩ :: post)) ∧
      h'.heapAllocated = h.heapAllocated ∧ h'.heapFreed = u64 (h.heapFreed + (b.size - roundUp n)) ∧
      ∀ i, OutsideHeaders A.base
        (pre ++ ⟨roundUp n, b.free⟩ :: ⟨b.size - roundUp n - 24, true⟩ :: post) i →
        h'.mem i = h.mem i := by
  have hsmall : roundUp n ≤ b.size := by omega
  have hsplit := (splitBlock_rep hr hle).counters
    (splitBlock h (A.base + span 24 pre) (roundUp n)).heapAllocated
    (u64 ((splitBlock h (A.base + span 24 pre) (roundUp n)).heapFreed + (b.size - roundUp n)))
  obtain ⟨h', hrun, hrep, hkept, hframe⟩ := heapCoalesce_rep hsplit
  refine ⟨h', ?_, hrep, by rw [hkept]; rfl, by rw [hkept]; rfl, fun i hi => ?_⟩
  · simp only [realloc, hn, ptr_sub_header, hr.headers.at.size, hr.split_guard hsmall, hsmall, hle,
      if_true, if_false, Nat.add_eq_zero_iff, OfNat.ofNat_ne_zero, and_false, hrun, Option.map_some]
  · rw [hframe i hi]
    have hrest := hi.behind
    exact splitBlock_out hr hsmall hi.at (by dsimp only at hrest; omega)

lemma grow_guard (hr : Rep A h (pre ++ b :: post)) :
    (blkNext h.mem (A.base + span 24 pre) ≠ 0 ∧ blkFree h.mem (blkNext h.mem (A.base + span 24 pre)) ∧
      roundUp n ≤ u64 (b.size + sizeofBlock + blkSize h.mem (blkNext h.mem (A.base + span 24 pre)))) ↔
    ∃ c post', post = c :: post' ∧ c.free = true ∧ roundUp n ≤ b.size + (24 + c.size) := by
  obtain ⟨hend, hstop, hpos⟩ := hr.bounds
  have hnext := hr.headers.at.next
  cases post with
  | nil =>
    rw [link_of_last (by rw [hr.tiles]; rfl)] at hnext
    simp [hnext]
  | cons c post =>
    have hshift : pre ++ b :: c :: post = (pre ++ [b]) ++ c :: post := by simp
    have hc := (hshift ▸ hr).headers.at
    have hsum : u64 (b.size + sizeofBlock + c.size) = b.size + (24 + c.size) := by
      simp only [span] at hend
      simp only [u64, sizeofBlock]
      omega
    have hne : ¬ A.base + span 24 (pre ++ [b]) = 0 := by omega
    rw [link_of_cons (by rw [hr.tiles]; rfl)] at hnext
    simp only [hnext, hc.free, hc.size, hsum, ne_eq, hne, not_false_eq_true, true_and, List.cons.injEq]
    refine ⟨fun hcase => ⟨c, post, ⟨rfl, rfl⟩, hcase⟩, ?_⟩
    rintro ⟨c', post', ⟨rfl, rfl⟩, hcase⟩
    exact hcase

lemma realloc_grow {c : Blk} (hr : Rep A h (pre ++ b :: c :: post)) (hn : n ≠ 0)
    (hlt : b.size < roundUp n) (hc : c.free = true) (hle : roundUp n ≤ b.size + (24 + c.size)) :
    ∃ h', realloc h (A.base + span 24 pre + 24) n = some (A.base + span 24 pre + 24, h') ∧
      Rep A h' (pre ++ (trim (roundUp n) ⟨b.size + (24 + c.size), b.free⟩ ++ post)) ∧
      h'.heapAllocated = u64 (h.heapAllocated + (roundUp n - b.size)) ∧ h'.heapFreed = h.heapFreed ∧
      ∀ i, (i < A.base + span 24 pre ∨ A.base + span 24 pre + 24 ≤ i) →
        (i < A.base + span 24 pre + 24 + b.size ∨
          A.base + span 24 pre + 24 + (b.size + (24 + c.size)) ≤ i) →
        h'.mem i = h.mem i := by
  obtain ⟨hend, hstop, hpos⟩ := hr.bounds
  have hnext := hr.headers.at.next
  rw [link_of_cons (by rw [hr.tiles]; rfl)] at hnext
  have hgrow := (grow_guard hr).mpr ⟨c, post, rfl, hc, hle⟩
  rw [hnext] at hgrow
  have hptr : u64 (A.base + span 24 pre + sizeofBlock) = A.base + span 24 pre + 24 :=
    Nat.mod_eq_of_lt (by simp only [sizeofBlock]; omega)
  have hrep := splitIfLarge_rep (growBlock_rep hr) hle
  set grown := splitIfLarge (growBlock h (A.base + span 24 pre) (A.base + span 24 (pre ++ [b])))
    (A.base + span 24 pre) (roundUp n) with hgrown
  refine ⟨{ grown with heapAllocated := u64 (grown.heapAllocated + (roundUp n - b.size)) }, ?_,
    hrep.counters _ grown.heapFreed, ?_, ?_, fun i hhead hrest => ?_⟩
  · simp only [realloc, hn, ptr_sub_header, hr.headers.at.size, Nat.not_le.mpr hlt, hptr, hlt,
      Nat.add_eq_zero_iff, OfNat.ofNat_ne_zero, and_false, if_true, if_false, hnext, ← hgrown]
    exact if_pos hgrow
  · rw [hgrown, splitIfLarge_heapAllocated]
    rfl
  · rw [hgrown]
    exact splitIfLarge_heapFreed _ _ _
  · rw [hgrown]
    exact (splitIfLarge_out (growBlock_rep hr) hle hhead (by dsimp only; omega)).trans
      (mergeNext_out hhead)

lemma realloc_move (hr : Rep A h (pre ++ b :: post)) (hn : n ≠ 0) (hlt : b.size < roundUp n)
    (hgrow : ¬ ∃ c post', post = c :: post' ∧ c.free = true ∧ roundUp n ≤ b.size + (24 + c.size)) :
    realloc h (A.base + span 24 pre + 24) n =
      (malloc h (roundUp n)).bind fun r =>
        if r.1 = 0 then some r
        else (free { r.2 with mem := memcpy r.2.mem r.1 (A.base + span 24 pre + 24) b.size }
          (A.base + span 24 pre + 24)).map fun h => (r.1, h) := by
  rw [← grow_guard hr] at hgrow
  simp only [realloc, hn, ptr_sub_header, hr.headers.at.size, Nat.not_le.mpr hlt, if_neg hgrow,
    Nat.add_eq_zero_iff, OfNat.ofNat_ne_zero, and_false, if_false, Nat.min_eq_left hlt.le]

end Realloc

end Operations

end FusionOS.Memory
