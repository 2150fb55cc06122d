import FusionOS.Kernel.HeapSizes

/-!
# What realloc keeps

Each way of `realloc` writes headers into memory that was payload or free space.
-/

namespace FusionOS.Memory

open Tiling

section Frames
variable {A : HeapArray} {h h' : Heap} {pre post bs' : List Blk} {b : Blk} {n q : Nat}

lemma Resized.front (hres : Resized A h pre b post n q h' bs') (hq : q ≠ 0) {i : Nat}
    (hb : i < b.size) (hn : i < n) : h'.mem (q + i) = h.mem (A.base + span 24 pre + 24 + i) := by
  cases hres with
  | keep _ _ => rfl
  | shrink hle _ _ hframe =>
    apply hframe
    have hmem := mem_located_middle A.base pre (⟨b.size - n - 24, true⟩ :: post) ⟨n, b.free⟩
    exact OutsideHeaders.of_payload hmem (by dsimp only; omega) (by dsimp only; omega)
  | grow _ _ _ _ _ _ _ hframe => exact hframe _ (by omega) (by omega)
  | null _ => exact absurd rfl hq
  | move _ _ _ _ _ _ _ _ _ hcopy _ => exact hcopy i hb

lemma Resized.others (hres : Resized A h pre b post n q h' bs') {x : Nat} {c : Blk}
    (hc : (x, c) ∈ located 24 A.base (pre ++ b :: post)) (hused : c.free = false)
    (hne : x ≠ A.base + span 24 pre) :
    (x, c) ∈ located 24 A.base bs' ∧
      ∀ i, x + 24 ≤ i → i < x + 24 + c.size → h'.mem i = h.mem i := by
  have hnotb : (x, c) ∉ located 24 (A.base + span 24 pre) [b] := fun hmem =>
    hne (Prod.mk.inj (List.mem_singleton.mp hmem)).1
  cases hres with
  | keep _ _ => exact ⟨hc, fun _ _ _ => rfl⟩
  | shrink hle _ _ hframe =>
    have hspan : span 24 [⟨n, b.free⟩, ⟨b.size - n - 24, true⟩] = span 24 [b] := by
      simp only [span]
      omega
    have hmem := mem_located_replace _ hspan hnotb hc
    exact ⟨mem_located_coalesce hmem hused, fun i hlo hhi =>
      hframe i (OutsideHeaders.of_payload hmem hlo hhi)⟩
  | @grow e d post' rest _ hpost he _ hle htrim _ _ hframe =>
    subst hpost
    have hspan : span 24 (trim n ⟨b.size + (24 + e.size), b.free⟩) = span 24 [b, e] := by
      rw [trim_span]
      simp only [span]
      omega
    have hb := (located_disjoint hc (mem_located_middle A.base pre (e :: post') b)).resolve_left
      fun heq => hne (Prod.mk.inj heq).1
    have he' : (A.base + span 24 pre + 24 + b.size, e) ∈ located 24 A.base (pre ++ b :: e :: post') := by
      rw [located_append]
      simp [located]
    have hbehind := (located_disjoint hc he').resolve_left fun heq => by
      rw [← (Prod.mk.inj heq).2, hused] at he
      cases he
    dsimp only at hb hbehind
    have hmem := mem_located_replace [b, e] hspan ?_ hc
    · rw [htrim] at hmem
      exact ⟨hmem, fun i hlo hhi => hframe i (by omega) (by omega)⟩
    · intro hmem
      simp only [located, List.mem_cons, Prod.mk.injEq, List.not_mem_nil, or_false] at hmem
      omega
  | null _ => exact ⟨hc, fun _ _ _ => rfl⟩
  | @move pre' post' rest pre2 post2 d e _ hlist hfree _ hle htrim hlist2 hspan2 _ _ _ hframe =>
    have hd := mem_located_middle A.base pre' post' d
    rw [← hlist] at hd
    have hapart := (located_disjoint hc hd).resolve_left fun heq => by
      rw [← (Prod.mk.inj heq).2, hused] at hfree
      cases hfree
    dsimp only at hapart
    have hspan : span 24 (trim n ⟨d.size, false⟩) = span 24 [d] := trim_span _ _
    rw [hlist] at hc
    have hmem := mem_located_replace [d] hspan ?_ hc
    · rw [htrim, List.cons_append, hlist2] at hmem
      refine ⟨mem_located_coalesce (mem_located_flag hmem (by omega) true) hused, fun i hlo hhi => ?_⟩
      exact hframe i (OutsideHeaders.of_payload hmem hlo hhi) (by omega)
    · intro hmem
      have heq := (Prod.mk.inj (List.mem_singleton.mp hmem)).1
      omega

end Frames

/-- In every state that permitted calls lead to from `heap_init`: the pointer that `realloc`
returns heads the bytes of the old block, up to the smaller of its size and the request, and all other
payloads are as before. A null result leaves the heap as it was, with the block in use. -/
theorem realloc_keeps_contents {A : HeapArray} {h : Heap} {calls : List Call} {s : Client}
    (hcalls : Along call Permitted ⟨heapInit h A.base, []⟩ calls)
    (hrun : Run call ⟨heapInit h A.base, []⟩ calls s) {p n : Nat} (hp : p ∈ s.live) (hpos : 1 ≤ n)
    (hn : n ≤ 2 ^ 64 - 8) :
    ∃ q h', realloc s.heap p n = some (q, h') ∧
      (q ≠ 0 →
        slice h'.mem q (min (usable s.heap.mem p) n) = slice s.heap.mem p (min (usable s.heap.mem p) n) ∧
        ∀ r ∈ s.live, r ≠ p → usable h'.mem r = usable s.heap.mem r ∧
          slice h'.mem r (usable s.heap.mem r) = slice s.heap.mem r (usable s.heap.mem r)) ∧
      (q = 0 → h' = s.heap ∧ blkFree h'.mem (p - sizeofBlock) = false) := by
  obtain ⟨bs, hrep, hinv⟩ := HeapInv.of_run hcalls hrun
  obtain ⟨pre, b, post, rfl, hused, rfl⟩ := hinv.split hp
  obtain ⟨q, h', bs', hreturn, hrep', hres⟩ := realloc_cases hrep hused (n := n) (by omega)
  have hround := le_roundUp hn
  refine ⟨q, h', hreturn, fun hq => ⟨?_, fun r hr hne => ?_⟩, fun hq => ?_⟩
  · rw [hrep.usable_eq (mem_located_middle _ _ _ _)]
    exact slice_shift _ _ fun i hi => hres.front hq (by dsimp only at hi; omega) (by omega)
  · obtain ⟨pre', c, post', hlist, hc, rfl⟩ := hinv.split hr
    have hmem : (A.base + span 24 pre', c) ∈ located 24 A.base (pre ++ b :: post) := by
      rw [hlist]
      exact mem_located_middle _ _ _ _
    obtain ⟨hmem', hbytes⟩ := hres.others hmem hc (by omega)
    rw [hrep'.usable_eq hmem', hrep.usable_eq hmem]
    exact ⟨rfl, slice_congr _ _ hbytes⟩
  · have hsame := hres.null_heap hq
    rw [hsame, ptr_sub_header, hrep.headers.at.free]
    exact ⟨rfl, hused⟩

/-- A block of 104 bytes moves behind its neighbour. -/
theorem realloc_keeps_contents_moved :
    ∃ s q h', Run call ⟨heapInit zeroHeap lowHeap.base, []⟩
        [.malloc 100, .write 0x100018 3 7, .malloc 8, .write 0x100098 5 9] s ∧
      realloc s.heap 0x100018 5000 = some (q, h') ∧ q = 0x1000b8 ∧
      slice h'.mem q 104 = slice s.heap.mem 0x100018 104 := by
  have hcalls : Along call Permitted ⟨heapInit zeroHeap lowHeap.base, []⟩
      [.malloc 100, .write 0x100018 3 7, .malloc 8, .write 0x100098 5 9] := by decide +kernel
  have hexec : (exec call ⟨heapInit zeroHeap lowHeap.base, []⟩
      [.malloc 100, .write 0x100018 3 7, .malloc 8, .write 0x100098 5 9]).map (fun s =>
        (s.live, usable s.heap.mem 0x100018, (realloc s.heap 0x100018 5000).map Prod.fst)) =
      some ([0x100098, 0x100018], 104, some 0x1000b8) := by decide +kernel
  obtain ⟨s, hs, heq⟩ := Option.map_eq_some_iff.mp hexec
  obtain ⟨hlive, hsize, hmoved⟩ : s.live = [0x100098, 0x100018] ∧ usable s.heap.mem 0x100018 = 104 ∧
      (realloc s.heap 0x100018 5000).map Prod.fst = some 0x1000b8 := by
    simpa only [Prod.mk.injEq] using heq
  have hrun := Run.of_exec hs
  obtain ⟨q, h', hreturn, hkept, -⟩ := realloc_keeps_contents hcalls hrun (p := 0x100018) (n := 5000)
    (by rw [hlive]; decide) (by decide) (by decide)
  obtain rfl : q = 0x1000b8 := by
    rw [hreturn] at hmoved
    exact Option.some.inj hmoved
  have hfront := (hkept (by decide)).1
  rw [hsize] at hfront
  exact ⟨s, _, h', hrun, hreturn, rfl, hfront⟩

end FusionOS.Memory
