import FusionOS.Kernel.HeapRealloc
import FusionOS.Lib.Run
import Mathlib.Data.List.Perm.Basic
import Mathlib.Logic.Relation

/-!
# Runs of the allocator

A client calls `malloc`, `calloc`, `realloc` and `free` in any order and keeps the list of the
pointers it holds.
-/

namespace FusionOS.Memory

open Tiling

inductive Call where
  | malloc (size : Nat)
  | calloc (nmemb size : Nat)
  | realloc (ptr size : Nat)
  | free (ptr : Nat)
  | write (ptr offset : Nat) (value : UInt8)

/-- The heap and the pointers that the client holds. -/
structure Client where
  heap : Heap
  live : List Nat

def call (s : Client) : Call → Option Client
  | .malloc size => (malloc s.heap size).map fun r =>
      ⟨r.2, if r.1 = 0 then s.live else r.1 :: s.live⟩
  | .calloc nmemb size => (calloc s.heap nmemb size).map fun r =>
      ⟨r.2, if r.1 = 0 then s.live else r.1 :: s.live⟩
  | .realloc ptr size => (realloc s.heap ptr size).map fun r =>
      -- a null result of a nonzero request leaves the old block with the client
      ⟨r.2, if r.1 = 0 then (if size = 0 then s.live.erase ptr else s.live)
        else r.1 :: s.live.erase ptr⟩
  | .free ptr => (free s.heap ptr).map fun h => ⟨h, s.live.erase ptr⟩
  | .write ptr offset value =>
      some ⟨{ s.heap with mem := Function.update s.heap.mem (ptr + offset) value }, s.live⟩

/-- The payload size of the block that a pointer heads. -/
def usable (m : Mem) (ptr : Nat) : Nat := blkSize m (ptr - sizeofBlock)

/-- Sizes are machine words, a pointer handed back is null or live, and the client writes
only into its blocks. The products that `malloc` would round up to 0 are left out for
`calloc`, which clears as many bytes as were asked for. -/
def Permitted (s : Client) : Call → Prop
  | .malloc size => size < 2 ^ 64
  | .calloc nmemb size => nmemb < 2 ^ 64 ∧ size < 2 ^ 64 ∧
      (nmemb * size ≤ 2 ^ 64 - 8 ∨ 2 ^ 64 ≤ nmemb * size)
  | .realloc ptr size => size < 2 ^ 64 ∧ (ptr = 0 ∨ ptr ∈ s.live)
  | .free ptr => ptr = 0 ∨ ptr ∈ s.live
  | .write ptr offset _ => ptr ∈ s.live ∧ offset < usable s.heap.mem ptr

instance (s : Client) : (c : Call) → Decidable (Permitted s c)
  | .malloc _ => inferInstanceAs (Decidable (_ < _))
  | .calloc _ _ => inferInstanceAs (Decidable (_ ∧ _ ∧ _))
  | .realloc _ _ => inferInstanceAs (Decidable (_ ∧ _))
  | .free _ => inferInstanceAs (Decidable (_ ∨ _))
  | .write _ _ _ => inferInstanceAs (Decidable (_ ∧ _))

/-- The headers that following the next pointers from `current` visits. -/
def blockWalk (m : Mem) : Nat → Nat → Option (List Nat)
  | 0, _ => none
  | fuel + 1, current =>
    if current = 0 then some []
    else (blockWalk m fuel (blkNext m current)).map fun rest => current :: rest

/-- A well formed heap with the headers `headers` and the live pointers of `s`. -/
structure WellFormed (A : HeapArray) (s : Client) (headers : List Nat) : Prop where
  walk : blockWalk s.heap.mem heapSize s.heap.heapStart = some headers
  start : s.heap.heapStart = A.base
  next : ∀ a ∈ headers, blkNext s.heap.mem a =
    if a + 24 + blkSize s.heap.mem a = A.stop then 0 else a + 24 + blkSize s.heap.mem a
  tiles : (headers.map fun a => 24 + blkSize s.heap.mem a).sum = heapSize
  aligned : ∀ a ∈ headers, 8 ∣ blkSize s.heap.mem a
  apart : headers.IsChain fun a b => ¬ (blkFree s.heap.mem a = true ∧ blkFree s.heap.mem b = true)
  blocks : s.heap.heapBlocks = headers.length
  live : ∀ ptr, ptr ∈ s.live ↔ ∃ a ∈ headers, blkFree s.heap.mem a = false ∧ ptr = a + 24
  inside : ∀ ptr ∈ s.live, A.base ≤ ptr ∧ ptr + usable s.heap.mem ptr ≤ A.stop
  disjoint : s.live.Pairwise fun p q =>
    p + usable s.heap.mem p ≤ q ∨ q + usable s.heap.mem q ≤ p

/-- The elementary changes of a block list and of the pointers held into it. -/
inductive Change (a : Nat) : List Blk × List Nat → List Blk × List Nat → Prop
  | reorder {bs : List Blk} {live live' : List Nat} : live.Perm live' →
      Change a (bs, live) (bs, live')
  | take {pre post : List Blk} {b : Blk} {n : Nat} {live : List Nat} :
      b.free = true → 8 ∣ n → n ≤ b.size →
      Change a (pre ++ b :: post, live)
        (pre ++ (trim n ⟨b.size, false⟩ ++ post), (a + span 24 pre + 24) :: live)
  | give {pre post : List Blk} {b : Blk} {live : List Nat} : b.free = false →
      Change a (pre ++ b :: post, live)
        (coalesce 24 (pre ++ ⟨b.size, true⟩ :: post), live.erase (a + span 24 pre + 24))
  | shrink {pre post : List Blk} {b : Blk} {n : Nat} {live : List Nat} :
      b.free = false → 8 ∣ n → n + 32 ≤ b.size →
      Change a (pre ++ b :: post, live)
        (coalesce 24 (pre ++ ⟨n, false⟩ :: ⟨b.size - n - 24, true⟩ :: post), live)
  | grow {pre post : List Blk} {b c : Blk} {n : Nat} {live : List Nat} :
      b.free = false → c.free = true → 8 ∣ n → n ≤ b.size + (24 + c.size) →
      Change a (pre ++ b :: c :: post, live)
        (pre ++ (trim n ⟨b.size + (24 + c.size), false⟩ ++ post), live)

structure BlockInv (a : Nat) (s : List Blk × List Nat) : Prop where
  aligned : ∀ b ∈ s.1, 8 ∣ b.size
  apart : NoAdjFree s.1
  live : s.2.Perm ((used 24 a s.1).map fun p => p.1 + 24)

section Changes
variable {a n : Nat} {pre post : List Blk} {b : Blk}

lemma forall_mem_middle {P : Blk → Prop} :
    (∀ c ∈ pre ++ b :: post, P c) ↔ (∀ c ∈ pre, P c) ∧ P b ∧ ∀ c ∈ post, P c := by
  simp only [List.forall_mem_append, List.forall_mem_cons]

lemma trim_used (hb : b.free = false) :
    ∃ size, ∀ bs, used 24 a (trim n b ++ bs) = (a, ⟨size, false⟩) :: used 24 (a + 24 + b.size) bs := by
  unfold trim
  split
  · rename_i hlarge
    refine ⟨n, fun bs => ?_⟩
    have haddr : a + 24 + n + 24 + (b.size - n - 24) = a + 24 + b.size := by omega
    rw [hb, List.cons_append, used_cons_used rfl, List.cons_append, used_cons_free rfl,
      List.nil_append, haddr]
  · refine ⟨b.size, fun bs => ?_⟩
    rw [List.cons_append, used_cons_used hb, List.nil_append, ← hb]

lemma trim_aligned (hn : 8 ∣ n) (hb : 8 ∣ b.size) : ∀ c ∈ trim n b, 8 ∣ c.size := by
  unfold trim
  split
  · intro c hc
    simp only [List.mem_cons, List.not_mem_nil, or_false] at hc
    rcases hc with rfl | rfl
    · exact hn
    · dsimp only
      omega
  · simpa using hb

lemma trim_apart {c : Blk} (hpre : NoAdjFree pre) (hb : b.free = false) (hc : c.free = true)
    (hpost : NoAdjFree (c :: post)) : NoAdjFree (pre ++ (trim n b ++ post)) := by
  unfold trim
  split
  · exact hpre.around hb (hpost.resize hc)
  · exact hpre.around hb hpost.tail

lemma Change.blockInv {s t : List Blk × List Nat} (hc : Change a s t) (hi : BlockInv a s) :
    BlockInv a t := by
  obtain ⟨haligned, hapart, hlive⟩ := hi
  cases hc with
  | reorder hperm => exact ⟨haligned, hapart, hperm.symm.trans hlive⟩
  | @take pre post b n live hfree hn hle =>
    obtain ⟨hpre, hb, hpost⟩ := forall_mem_middle.mp haligned
    refine ⟨?_, ?_, ?_⟩
    · exact List.forall_mem_append.mpr ⟨hpre, List.forall_mem_append.mpr ⟨trim_aligned hn hb, hpost⟩⟩
    · exact trim_apart hapart.left_of_append rfl hfree hapart.right_of_append
    · obtain ⟨size, htrim⟩ := trim_used (a := a + span 24 pre) (n := n) (b := ⟨b.size, false⟩) rfl
      rw [used_append, htrim, List.map_append, List.map_cons]
      rw [used_append, used_cons_free hfree, List.map_append] at hlive
      exact (hlive.cons _).trans List.perm_middle.symm
  | @give pre post b live hused =>
    obtain ⟨hpre, hb, hpost⟩ := forall_mem_middle.mp haligned
    refine ⟨?_, coalesce_noAdjFree _, ?_⟩
    · exact coalesce_dvd (by decide) (forall_mem_middle.mpr ⟨hpre, hb, hpost⟩)
    · rw [coalesce_used, used_append, used_cons_free rfl, List.map_append]
      rw [used_append, used_cons_used hused, List.map_append, List.map_cons] at hlive
      have herase := (hlive.trans List.perm_middle).erase (a + span 24 pre + 24)
      rwa [List.erase_cons_head] at herase
  | @shrink pre post b n live hused hn hle =>
    obtain ⟨hpre, hb, hpost⟩ := forall_mem_middle.mp haligned
    refine ⟨?_, coalesce_noAdjFree _, ?_⟩
    · have hrest : 8 ∣ b.size - n - 24 := by omega
      exact coalesce_dvd (by decide) (forall_mem_middle.mpr
        ⟨hpre, hn, List.forall_mem_cons.mpr ⟨hrest, hpost⟩⟩)
    · have haddr : a + span 24 pre + 24 + n + 24 + (b.size - n - 24) =
          a + span 24 pre + 24 + b.size := by omega
      rw [coalesce_used, used_append, used_cons_used rfl, used_cons_free rfl, haddr]
      rw [used_append, used_cons_used hused] at hlive
      simpa using hlive
  | @grow pre post b c n live hb hc hn hle =>
    obtain ⟨hpre, hbsize, hcpost⟩ := forall_mem_middle.mp haligned
    obtain ⟨hcsize, hpost⟩ := List.forall_mem_cons.mp hcpost
    refine ⟨?_, ?_, ?_⟩
    · exact List.forall_mem_append.mpr ⟨hpre,
        List.forall_mem_append.mpr ⟨trim_aligned hn (by dsimp only; omega), hpost⟩⟩
    · exact trim_apart hapart.left_of_append rfl hc hapart.right_of_append.tail
    · obtain ⟨size, htrim⟩ := trim_used (a := a + span 24 pre) (n := n)
        (b := ⟨b.size + (24 + c.size), false⟩) rfl
      have haddr : a + span 24 pre + 24 + b.size + 24 + c.size =
          a + span 24 pre + 24 + (b.size + (24 + c.size)) := by omega
      rw [used_append, htrim]
      rw [used_append, used_cons_used hb, used_cons_free hc, haddr] at hlive
      simpa using hlive

lemma blockInv_of_changes {s t : List Blk × List Nat}
    (hpath : Relation.ReflTransGen (Change a) s t) (hi : BlockInv a s) : BlockInv a t := by
  induction hpath with
  | refl => exact hi
  | tail _ hchange ih => exact hchange.blockInv ih

end Changes

section Calls
variable {A : HeapArray} {h : Heap} {bs : List Blk} {n p : Nat} {live : List Nat}

lemma BlockInv.split {a : Nat} (hi : BlockInv a (bs, live)) (hp : p ∈ live) :
    ∃ pre b post, bs = pre ++ b :: post ∧ b.free = false ∧ p = a + span 24 pre + 24 := by
  obtain ⟨⟨x, b⟩, hq, rfl⟩ := List.mem_map.mp (hi.live.mem_iff.mp hp)
  obtain ⟨hmem, hfree⟩ := List.mem_filter.mp hq
  obtain ⟨pre, post, rfl, rfl⟩ := mem_located_split hmem
  exact ⟨pre, b, post, rfl, by simpa using hfree, rfl⟩

lemma Rep.usable_eq {p : Nat × Blk} (hr : Rep A h bs) (hp : p ∈ located 24 A.base bs) :
    usable h.mem (p.1 + 24) = p.2.size := by
  rw [usable, ptr_sub_header]
  exact (hr.headers p hp).size

def Reached (A : HeapArray) (bs : List Blk) (live : List Nat) (s : Client) : Prop :=
  ∃ bs', Rep A s.heap bs' ∧ Relation.ReflTransGen (Change A.base) (bs, live) (bs', s.live)

lemma Reached.unchanged (hr : Rep A h bs) : Reached A bs live ⟨h, live⟩ := ⟨bs, hr, .refl⟩

lemma malloc_reached (hr : Rep A h bs) (n : Nat) (live : List Nat) :
    ∃ p h', malloc h n = some (p, h') ∧ Reached A bs live ⟨h', if p = 0 then live else p :: live⟩ := by
  rcases malloc_cases hr n with hnull | ⟨pre, b, post, c, rest, h', rfl, hfree, hle, htrim, -, hrun, hrep, -⟩
  · exact ⟨0, h, hnull, .unchanged hr⟩
  · have htake : Change A.base (pre ++ b :: post, live)
        (pre ++ (trim (roundUp n) ⟨b.size, false⟩ ++ post), (A.base + span 24 pre + 24) :: live) :=
      .take hfree (roundUp_dvd n) hle
    rw [htrim] at htake
    refine ⟨_, h', hrun, _, hrep, ?_⟩
    simpa using Relation.ReflTransGen.single htake

lemma calloc_cases (hr : Rep A h bs) (k n : Nat) (hfits : k * n ≤ 2 ^ 64 - 8 ∨ 2 ^ 64 ≤ k * n) :
    calloc h k n = some (0, h) ∨
    ∃ p h' bs', malloc h (k * n) = some (p, h') ∧ p ≠ 0 ∧ Rep A h' bs' ∧
      calloc h k n = some (p, { h' with mem := memset h'.mem p 0 (k * n) }) ∧
      Rep A { h' with mem := memset h'.mem p 0 (k * n) } bs' := by
  by_cases hz : k = 0 ∨ n = 0
  · exact Or.inl (if_pos hz)
  by_cases hover : (2 ^ 64 - 1) / k < n
  · exact Or.inl (by rw [calloc, if_neg hz, if_pos hover])
  have hround : k * n ≤ roundUp (k * n) := by
    have hk : 0 < k := by omega
    have hlt : n * k ≤ 2 ^ 64 - 1 := (Nat.le_div_iff_mul_le hk).mp (by omega)
    have hcomm := Nat.mul_comm k n
    unfold roundUp u64
    omega
  rcases malloc_cases hr (k * n) with
    hnull | ⟨pre, b, post, c, rest, h', rfl, hfree, hle, htrim, hc, hrun, hrep, -⟩
  · exact Or.inl (by rw [calloc, if_neg hz, if_neg hover, hnull]; rfl)
  · -- the bytes cleared lie in the payload of the block just taken
    have hclear := hrep.payload (m := memset h'.mem (A.base + span 24 pre + 24) 0 (k * n))
      fun i hi => memset_out (by omega)
    refine Or.inr ⟨_, h', _, hrun, by omega, hrep, ?_, hclear⟩
    rw [calloc, if_neg hz, if_neg hover, hrun]
    rfl

lemma calloc_reached (hr : Rep A h bs) (k n : Nat) (hfits : k * n ≤ 2 ^ 64 - 8 ∨ 2 ^ 64 ≤ k * n)
    (live : List Nat) :
    ∃ p h', calloc h k n = some (p, h') ∧ Reached A bs live ⟨h', if p = 0 then live else p :: live⟩ := by
  rcases calloc_cases hr k n hfits with hnull | ⟨p, h', bs', hmalloc, hp, hrep, hrun, hclear⟩
  · exact ⟨0, h, hnull, .unchanged hr⟩
  · obtain ⟨q, h2, hmalloc2, bs2, hrep2, hpath⟩ := malloc_reached hr (k * n) live
    rw [hmalloc] at hmalloc2
    cases hmalloc2
    obtain rfl := hrep.unique hrep2
    exact ⟨p, _, hrun, bs', hclear, hpath⟩

lemma free_reached (hr : Rep A h bs) (hi : BlockInv A.base (bs, live)) (hp : p = 0 ∨ p ∈ live) :
    ∃ h', free h p = some h' ∧ Reached A bs live ⟨h', live.erase p⟩ := by
  by_cases hlive : p ∈ live
  · obtain ⟨pre, b, post, rfl, hused, rfl⟩ := hi.split hlive
    obtain ⟨h', hrun, hrep, -⟩ := free_rep hr
    exact ⟨h', hrun, _, hrep, .single (.give hused)⟩
  · obtain rfl : p = 0 := hp.resolve_right hlive
    rw [List.erase_of_not_mem hlive]
    exact ⟨h, rfl, .unchanged hr⟩

lemma Resized.changes {pre post bs' : List Blk} {b : Blk} {q : Nat} {h' : Heap}
    (hres : Resized A h pre b post (roundUp n) q h' bs') (hused : b.free = false)
    (hp : A.base + span 24 pre + 24 ∈ live) :
    Relation.ReflTransGen (Change A.base) (pre ++ b :: post, live)
      (bs', if q = 0 then live else q :: live.erase (A.base + span 24 pre + 24)) := by
  have hperm := List.perm_cons_erase hp
  have hq : A.base + span 24 pre + 24 ≠ 0 := by omega
  cases hres with
  | keep hle hlt =>
    rw [if_neg hq]
    exact .single (.reorder hperm)
  | shrink hle _ _ _ =>
    rw [if_neg hq, hused]
    exact .tail (.single (.shrink hused (roundUp_dvd n) hle)) (.reorder hperm)
  | @grow c d post' rest _ hpost hc hlt hle htrim _ _ _ =>
    subst hpost
    have hgrow : Change A.base (pre ++ b :: c :: post', live)
        (pre ++ (trim (roundUp n) ⟨b.size + (24 + c.size), false⟩ ++ post'), live) :=
      .grow hused hc (roundUp_dvd n) hle
    rw [← hused, htrim] at hgrow
    rw [if_neg hq]
    exact .tail (.single hgrow) (.reorder hperm)
  | null hlt => exact .refl
  | @move pre' post' rest pre2 post2 d c _ hlist hfree hlt hle htrim hlist2 hspan _ _ _ _ =>
    have htake : Change A.base (pre' ++ d :: post', live)
        (pre' ++ (trim (roundUp n) ⟨d.size, false⟩ ++ post'), (A.base + span 24 pre' + 24) :: live) :=
      .take hfree (roundUp_dvd n) hle
    rw [htrim, List.cons_append, hlist2, ← hlist] at htake
    have hgive : Change A.base (pre2 ++ b :: post2, (A.base + span 24 pre' + 24) :: live) _ :=
      .give hused
    rw [hspan] at hgive
    refine .tail (.tail (.single htake) hgive) (.reorder ?_)
    rw [if_neg (by omega)]
    by_cases hsame : A.base + span 24 pre' + 24 = A.base + span 24 pre + 24
    · rw [hsame, List.erase_cons_head]
      exact hperm
    · rw [List.erase_cons_tail (by simpa using hsame)]

lemma Resized.sized {pre post bs' : List Blk} {b : Blk} {q : Nat} {h' : Heap}
    (hres : Resized A h pre b post n q h' bs') (hused : b.free = false) (hr : Rep A h' bs')
    (hq : q ≠ 0) : n ≤ usable h'.mem q := by
  obtain ⟨x, c, rfl, hmem, -, hle⟩ := hres.head hused hq
  rw [hr.usable_eq hmem]
  exact hle

lemma realloc_reached (hr : Rep A h bs) (hi : BlockInv A.base (bs, live)) (hp : p ∈ live) (hn : n ≠ 0) :
    ∃ q h', realloc h p n = some (q, h') ∧
      Reached A bs live ⟨h', if q = 0 then live else q :: live.erase p⟩ ∧
      (q ≠ 0 → roundUp n ≤ usable h'.mem q) ∧ (roundUp n = 0 → q ≠ 0) := by
  obtain ⟨pre, b, post, rfl, hused, rfl⟩ := hi.split hp
  obtain ⟨q, h', bs', hrun, hrep, hres⟩ := realloc_cases hr hused hn
  refine ⟨q, h', hrun, ⟨bs', hrep, hres.changes hused hp⟩, hres.sized hused hrep, fun hzero hq => ?_⟩
  have hlt := hres.null_lt hq
  omega

lemma call_reached {s : Client} {c : Call} (hr : Rep A s.heap bs) (hi : BlockInv A.base (bs, s.live))
    (hc : Permitted s c) : ∃ s', call s c = some s' ∧ Reached A bs s.live s' := by
  cases c with
  | malloc size =>
    obtain ⟨p, h', hrun, hs⟩ := malloc_reached hr size s.live
    exact ⟨_, by rw [call, hrun]; rfl, hs⟩
  | calloc nmemb size =>
    obtain ⟨p, h', hrun, hs⟩ := calloc_reached hr nmemb size hc.2.2 s.live
    exact ⟨_, by rw [call, hrun]; rfl, hs⟩
  | realloc ptr size =>
    have hzero : (0 : Nat) ∉ s.live := fun hmem => by
      obtain ⟨pre, b, post, -, -, hp⟩ := hi.split hmem
      omega
    obtain ⟨-, rfl | hp⟩ := hc
    · obtain ⟨p, h', hrun, hs⟩ := malloc_reached hr size s.live
      refine ⟨_, by rw [call, realloc, if_pos rfl, hrun]; rfl, ?_⟩
      simpa [List.erase_of_not_mem hzero] using hs
    · have hne : ptr ≠ 0 := fun h => hzero (h ▸ hp)
      by_cases hsize : size = 0
      · obtain ⟨h', hrun, hs⟩ := free_reached hr hi (Or.inr hp)
        have hnull : realloc s.heap ptr size = some (0, h') := by
          rw [realloc, if_neg hne, if_pos hsize, hrun]
          rfl
        refine ⟨_, by rw [call, hnull]; rfl, ?_⟩
        simpa [hsize] using hs
      · obtain ⟨q, h', hrun, hs, -⟩ := realloc_reached hr hi hp hsize
        refine ⟨_, by rw [call, hrun]; rfl, ?_⟩
        simpa [hsize] using hs
  | free ptr =>
    obtain ⟨h', hrun, hs⟩ := free_reached hr hi hc
    exact ⟨_, by rw [call, hrun]; rfl, hs⟩
  | write ptr offset value =>
    obtain ⟨pre, b, post, rfl, -, rfl⟩ := hi.split hc.1
    have hoffset : offset < b.size := by
      have hlt := hc.2
      rwa [usable, ptr_sub_header, hr.headers.at.size] at hlt
    refine ⟨_, rfl, _, hr.payload fun i hout => Function.update_of_ne (by omega) _ _, .refl⟩

end Calls

/-- What holds between calls: the heap represents a block list that keeps `BlockInv`. -/
def HeapInv (A : HeapArray) (s : Client) : Prop :=
  ∃ bs, Rep A s.heap bs ∧ BlockInv A.base (bs, s.live)

section Runs
variable {A : HeapArray}

lemma heapInv_call {s : Client} {c : Call} (hi : HeapInv A s) (hc : Permitted s c) :
    ∃ s', call s c = some s' ∧ HeapInv A s' := by
  obtain ⟨bs, hrep, hinv⟩ := hi
  obtain ⟨s', hrun, bs', hrep', hpath⟩ := call_reached hrep hinv hc
  exact ⟨s', hrun, bs', hrep', blockInv_of_changes hpath hinv⟩

lemma heapInit_rep (A : HeapArray) (h : Heap) :
    Rep A (heapInit h A.base) [⟨heapSize - 24, true⟩] := by
  have hsize := heapSize_eq
  have hfits := A.fits
  refine ⟨rfl, ?_, by simp only [span]; omega, rfl⟩
  intro p hp
  obtain rfl := List.mem_singleton.mp hp
  have hstop : A.base + 24 + (heapSize - 24) = A.stop := by
    rw [HeapArray.stop]
    omega
  simp only [heapInit, sizeofBlock]
  refine ⟨?_, ?_, ?_⟩
  · rw [blkSize_setNext, blkSize_setFree, blkSize_setSize]
    exact Nat.mod_eq_of_lt (by omega)
  · rw [blkFree_setNext, blkFree_setFree]
  · rw [blkNext_setNext, hstop, link, if_pos rfl]
    rfl

lemma heapInit_heapInv (A : HeapArray) (h : Heap) : HeapInv A ⟨heapInit h A.base, []⟩ := by
  have hsize := heapSize_eq
  refine ⟨_, heapInit_rep A h, ?_, List.IsChain.singleton _, ?_⟩
  · simp only [List.mem_singleton, forall_eq]
    omega
  · simp [used, located]

lemma HeapInv.of_run {h : Heap} {calls : List Call} {s : Client}
    (hcalls : Along call Permitted ⟨heapInit h A.base, []⟩ calls)
    (hrun : Run call ⟨heapInit h A.base, []⟩ calls s) : HeapInv A s := by
  apply hrun.invariant_along (HeapInv A) _ (heapInit_heapInv A h) hcalls
  intro u c t hu hc ht
  obtain ⟨t', ht', hit⟩ := heapInv_call hu hc
  rw [ht] at ht'
  cases ht'
  exact hit

lemma blockWalk_eq {m : Mem} {stop fuel a : Nat} {bs : List Blk} (ha : 0 < a)
    (hstop : a + span 24 bs = stop) (h : Headers m stop a bs) (hfuel : bs.length < fuel) :
    blockWalk m fuel (link stop a) = some ((located 24 a bs).map Prod.fst) := by
  induction bs generalizing fuel a with
  | nil =>
    obtain ⟨fuel, rfl⟩ := Nat.exists_eq_add_one.mpr (Nat.zero_lt_of_lt hfuel)
    rw [link, if_pos (by simpa [span] using hstop)]
    rfl
  | cons b bs ih =>
    obtain ⟨fuel, rfl⟩ := Nat.exists_eq_add_one.mpr (Nat.zero_lt_of_lt hfuel)
    have hb := h (a, b) List.mem_cons_self
    have hrest : Headers m stop (a + 24 + b.size) bs := fun p hp => h p (List.mem_cons_of_mem _ hp)
    simp only [span] at hstop
    have hlink : link stop a = a := by rw [link, if_neg (by omega)]
    rw [hlink, blockWalk, if_neg (by omega), hb.next,
      ih (by omega) (by omega) hrest (by simpa using hfuel)]
    rfl

lemma Headers.sum {m : Mem} {stop a : Nat} {bs : List Blk} (h : Headers m stop a bs) :
    (((located 24 a bs).map Prod.fst).map fun x => 24 + blkSize m x).sum = span 24 bs := by
  induction bs generalizing a with
  | nil => rfl
  | cons b bs ih =>
    have hb := h (a, b) List.mem_cons_self
    have hrest : Headers m stop (a + 24 + b.size) bs := fun p hp => h p (List.mem_cons_of_mem _ hp)
    simp only [located, List.map_cons, List.sum_cons, ih hrest, hb.size, span]

lemma HeapInv.wellFormed {s : Client} (hi : HeapInv A s) : ∃ headers, WellFormed A s headers := by
  obtain ⟨bs, hr, haligned, hapart, hlive⟩ := hi
  dsimp only at haligned hapart hlive
  have hstop : A.base + span 24 bs = A.stop := by rw [hr.tiles]; rfl
  have hlink : link A.stop A.base = s.heap.heapStart := hr.link_base
  have hat : ∀ {x}, x ∈ (located 24 A.base bs).map Prod.fst →
      ∃ b ∈ bs, (x, b) ∈ located 24 A.base bs ∧ HeaderAt s.heap.mem A.stop x b := by
    intro x hx
    obtain ⟨⟨x, b⟩, hp, rfl⟩ := List.mem_map.mp hx
    exact ⟨b, by rw [← located_map_snd A.base bs]; exact List.mem_map_of_mem hp, hp, hr.headers _ hp⟩
  have hptr : ∀ p ∈ used 24 A.base bs, usable s.heap.mem (p.1 + 24) = p.2.size := fun p hp =>
    hr.usable_eq (List.mem_of_mem_filter hp)
  refine ⟨(located 24 A.base bs).map Prod.fst, ?_, hr.start, ?_, ?_, ?_, ?_, ?_, ?_, ?_, ?_⟩
  · rw [← hlink]
    exact blockWalk_eq A.pos hstop hr.headers hr.length_lt
  · intro x hx
    obtain ⟨b, -, -, hb⟩ := hat hx
    rw [hb.next, hb.size, link]
  · exact hr.headers.sum.trans hr.tiles
  · intro x hx
    obtain ⟨b, hmem, -, hb⟩ := hat hx
    rw [hb.size]
    exact haligned b hmem
  · have hsnd : (located 24 A.base bs).map Prod.snd = bs := located_map_snd A.base bs
    rw [← hsnd] at hapart
    refine (List.isChain_map _).mpr (((List.isChain_map _).mp hapart).imp_of_mem_imp ?_)
    intro p q hp hq hpq
    rwa [(hr.headers p hp).free, (hr.headers q hq).free]
  · simpa using hr.blocks
  · intro ptr
    rw [hlive.mem_iff]
    constructor
    · intro hmem
      obtain ⟨p, hp, rfl⟩ := List.mem_map.mp hmem
      obtain ⟨hloc, hfree⟩ := List.mem_filter.mp hp
      exact ⟨p.1, List.mem_map_of_mem hloc, by rw [(hr.headers p hloc).free]; simpa using hfree, rfl⟩
    · rintro ⟨x, hx, hfree, rfl⟩
      obtain ⟨b, -, hloc, hb⟩ := hat hx
      refine List.mem_map_of_mem (f := fun p : Nat × Blk => p.1 + 24) (a := (x, b))
        (List.mem_filter.mpr ⟨hloc, ?_⟩)
      rw [← hb.free, hfree]
      rfl
  · intro ptr hmem
    obtain ⟨p, hp, rfl⟩ := List.mem_map.mp (hlive.mem_iff.mp hmem)
    have hbounds := located_bounds (List.mem_of_mem_filter hp)
    rw [hptr p hp]
    omega
  · refine hlive.symm.pairwise ?_ fun hpq => hpq.symm
    refine List.pairwise_map.mpr (((located_pairwise A.base bs).filter _).imp_of_mem ?_)
    intro p q hp hq hpq
    rw [hptr p hp, hptr q hq]
    omega

/-- From `heap_init` on, every sequence of permitted calls returns and leaves a well formed heap. -/
theorem heap_wellFormed (A : HeapArray) (h : Heap) (calls : List Call)
    (hcalls : Along call Permitted ⟨heapInit h A.base, []⟩ calls) :
    ∃ s, Run call ⟨heapInit h A.base, []⟩ calls s ∧ ∃ headers, WellFormed A s headers := by
  obtain ⟨s, hrun, hi⟩ := Run.exists_of_along (HeapInv A) (fun _ _ hi hc => heapInv_call hi hc)
    (heapInit_heapInv A h) hcalls
  exact ⟨s, hrun, hi.wellFormed⟩

end Runs

/-- The array at 1 MiB, over zeroed memory. -/
def lowHeap : HeapArray := ⟨0x100000, by decide, by rw [heapSize_eq]; decide⟩

def zeroHeap : Heap := ⟨fun _ => 0, 0, 0, 0, 0⟩

/-- The second request wraps round to 0 bytes; the third block moves behind the others. -/
theorem heap_wellFormed_realloc :
    ∃ s, Run call ⟨heapInit zeroHeap lowHeap.base, []⟩ [.malloc 100, .malloc (2 ^ 64 - 1),
        .write 0x100018 3 7, .realloc 0x100018 5000, .free 0x100098, .calloc 4 8] s ∧
      ∃ headers, WellFormed lowHeap s headers :=
  heap_wellFormed lowHeap zeroHeap _ (by decide +kernel)

end FusionOS.Memory
