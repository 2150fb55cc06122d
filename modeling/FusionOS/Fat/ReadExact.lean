import FusionOS.Fat.Returns

/-!
# What a successful read has read

The copy loop of `fat_read_file` stops where the chain does: at its end, at a link that is no
cluster, and at a FAT sector that cannot be read.
-/

namespace FusionOS.Fat

/-- The byte at offset `i` of the chain from `c` on. -/
def Fs.byteAt (st : Fs) (c i : Nat) : Option UInt8 :=
  (st.clusterAt (i / clusterBytes st.vol) c).map fun x => st.data x (i % clusterBytes st.vol)

def findPath (st : Fs) (path : CString) : Option (Option Found × Fs) := withLeaf st none path fatFindEntry

/-- What is asked of `fs_read_file`: it returns, and a buffer that it returns holds the bytes of the
chain on the disk. -/
def ReadsChain (st : Fs) (path : CString) : Prop :=
  ∃ r st', fsReadFile st path = some (r, st') ∧ ∀ ptr n, r = some (ptr, n) →
    ∃ f st₁, findPath st path = some (some f, st₁) ∧ n = direntFileSize f.ent ∧
      ∀ i < n, st.byteAt (direntFirstCluster f.ent) i = some (st'.heap.mem (ptr + i))

/-! ## The walk along a path -/

section Walks
variable {st st' : Fs}

lemma sectorLoop_quiet {σ ρ : Type} (body : σ → Nat → Nat → Slot → Scan σ ρ) (c n s : Nat) (a : σ) :
    Quiet st (sectorLoop body c n s a st).2 := by
  induction n generalizing st s a with
  | zero => exact Quiet.refl st
  | succ n ih =>
    have hq := @blkRead_quiet st (u32 (clusterToLba st.vol c + s))
    rw [sectorLoop]
    cases hread : blkRead st (u32 (clusterToLba st.vol c + s)) with
    | mk ok st1 =>
      rw [hread] at hq
      cases ok with
      | false => exact hq
      | true =>
        dsimp only
        split
        · exact hq.trans (ih _ _)
        · exact hq

lemma chainLoop_quiet {σ ρ : Type} (enter : σ → σ) (body : σ → Nat → Nat → Slot → Scan σ ρ) {fuel c : Nat}
    {a : σ} {r : Scan σ (Option ρ)} (h : chainLoop enter body fuel c a st = some (r, st')) :
    Quiet st st' := by
  induction fuel generalizing st c a with
  | zero => cases h
  | succ fuel ih =>
    rw [chainLoop] at h
    split at h
    · have hq := @sectorLoop_quiet st _ _ body c st.vol.sectorsPerCluster 0 (enter a)
      cases hrun : sectorLoop body c st.vol.sectorsPerCluster 0 (enter a) st with
      | mk x st1 =>
        rw [hrun] at h hq
        cases x with
        | stop r =>
          cases h
          exact hq
        | next a => exact (hq.trans (fatGetEntry_quiet c)).trans (ih h)
    · cases h
      exact Quiet.refl _

lemma fatFindEntry_quiet {d : Nat} {name : CString} {found : Option Found}
    (h : fatFindEntry st d name = some (found, st')) : Quiet st st' := by
  rw [fatFindEntry] at h
  split at h
  · next hrun =>
    cases h
    exact chainLoop_quiet _ _ hrun
  · next hrun =>
    cases h
    exact chainLoop_quiet _ _ hrun
  · cases h

lemma pathLoop_quiet {fuel d : Nat} {p : CString} {r : Nat × CString}
    (h : pathLoop fuel d p st = some (r, st')) : Quiet st st' := by
  induction fuel generalizing st d p with
  | zero => cases h
  | succ fuel ih =>
    rw [pathLoop] at h
    split at h
    · cases h
      exact Quiet.refl _
    split at h
    · cases h
      exact Quiet.refl _
    cases hfind : fatFindEntry st d ((pathComp p).take 63) with
    | none =>
      rw [hfind] at h
      cases h
    | some x =>
      obtain ⟨found, st1⟩ := x
      have hq := fatFindEntry_quiet hfind
      rw [hfind] at h
      cases found with
      | none =>
        cases h
        exact hq
      | some f =>
        dsimp only at h
        split at h
        · cases h
          exact hq
        · exact hq.trans (ih h)

lemma fsReadFile_cases (hspc : 0 < st.vol.sectorsPerCluster) (hheap : HeapOk st.heap) (path : CString) :
    findPath st path = none ∧ fsReadFile st path = none ∨
      ∃ found st1, findPath st path = some (found, st1) ∧ Quiet st st1 ∧
        ((∃ st', fsReadFile st path = some (none, st')) ∨
          ∃ f ptr h1 st2, found = some f ∧
            Memory.malloc st1.heap (u32 (direntFileSize f.ent + 1)) = some (ptr, h1) ∧
            direntFileSize f.ent + 512 ≤ 2 ^ 32 ∧
            readChain ptr (direntFileSize f.ent) chainFuel (direntFirstCluster f.ent) 0
              { st1 with heap := h1 } = some (true, st2) ∧
            fsReadFile st path = some (some (ptr, direntFileSize f.ent),
              st2.setMem (Function.update st2.heap.mem (ptr + direntFileSize f.ent) 0))) := by
  unfold findPath fsReadFile withLeaf
  split
  case isFalse => exact .inr ⟨none, st, rfl, Quiet.refl st, .inl ⟨st, rfl⟩⟩
  cases hpath : pathDirCluster st path with
  | none => exact .inl ⟨rfl, rfl⟩
  | some x =>
    obtain ⟨⟨d, leaf⟩, st0⟩ := x
    have hq : Quiet st st0 := by
      rw [pathDirCluster] at hpath
      split at hpath
      · cases hpath
        exact Quiet.refl st
      · exact pathLoop_quiet hpath
    dsimp only
    split
    · exact .inr ⟨none, st0, rfl, hq, .inl ⟨st0, rfl⟩⟩
    cases hfind : fatFindEntry st0 d leaf with
    | none =>
      refine .inl ⟨rfl, ?_⟩
      rw [fatReadFile, hfind]
    | some x =>
      obtain ⟨found, st1⟩ := x
      have hq1 := hq.trans (fatFindEntry_quiet hfind)
      refine .inr ⟨found, st1, rfl, hq1, ?_⟩
      rcases fatReadFile_cases (by rw [hq1.vol]; exact hspc) (by rw [hq1.diskOnly.heap]; exact hheap) hfind with
        hnone | ⟨f, ptr, h1, st2, hf, hmalloc, hsize, hchain, hrun, -⟩
      · exact .inl hnone
      · exact .inr ⟨f, ptr, h1, st2, hf, hmalloc, hsize, hchain, hrun⟩

end Walks

/-! ## The bytes of a file -/

/-- The walk along the path ends. Where the file is then read with success, its chain has every
position of it, and no FAT read in front of the position has failed, or else the byte stood in the
buffer before. -/
def ReadsWhole (st : Fs) (path : CString) : Prop :=
  ∃ found st₁, findPath st path = some (found, st₁) ∧ ∀ f ptr h₁ st', found = some f →
    Memory.malloc st₁.heap (u32 (direntFileSize f.ent + 1)) = some (ptr, h₁) →
    fsReadFile st path = some (some (ptr, direntFileSize f.ent), st') →
    ∀ i < direntFileSize f.ent, ∃ b, st.byteAt (direntFirstCluster f.ent) i = some b ∧
      (LinksRead st₁ i ∨ h₁.mem (ptr + i) = b)

lemma read_bytes {st st1 st2 : Fs} (hg : Geometry st.vol) (hq : Quiet st st1) {ptr size c : Nat}
    {h1 : Memory.Heap} (hsize : size + 512 ≤ 2 ^ 32)
    (hchain : readChain ptr size chainFuel c 0 { st1 with heap := h1 } = some (true, st2)) {i : Nat}
    (hi : i < size) {b : UInt8} (hb : st.byteAt c i = some b) :
    (LinksRead st1 i → st2.heap.mem (ptr + i) = b) ∧
      (¬ LinksRead st1 i → st2.heap.mem (ptr + i) = h1.mem (ptr + i)) := by
  obtain ⟨buf, n, rfl⟩ := hq
  obtain ⟨x, hx, rfl⟩ := Option.map_eq_some_iff.mp hb
  have hg' : Geometry ({ st with sectorBuf := buf, ops := n, heap := h1 } : Fs).vol := hg
  have hsame := @clusterAt_congr st { st with sectorBuf := buf, ops := n, heap := h1 } rfl rfl
    (i / clusterBytes st.vol) c
  have hbytes := readChain_bytes hg' hsize hchain (k := i) (by omega) (hsame.trans hx)
  rw [Nat.zero_add] at hbytes
  exact hbytes

/-- A read that returns 1 has read the file just where the chain on the disk was long enough and the
loop has followed it to the end. -/
theorem reads_chain_iff (st : Fs) (hg : Geometry st.vol) (hheap : HeapOk st.heap) (path : CString) :
    ReadsChain st path ↔ ReadsWhole st path := by
  rcases fsReadFile_cases hg.spc_pos hheap path with ⟨hfind, hrun⟩ |
    ⟨found, st₁, hfind, hq, ⟨st', hrun⟩ | ⟨f, ptr, h₁, st₂, rfl, hmalloc, hsize, hchain, hrun⟩⟩
  · -- the walk along a directory does not end, and neither does the call
    refine iff_of_false ?_ ?_
    · rintro ⟨r, st', h, -⟩
      cases hrun.symm.trans h
    · rintro ⟨found, st₁, h, -⟩
      cases hfind.symm.trans h
  · refine iff_of_true ⟨none, st', hrun, fun _ _ h => by cases h⟩ ⟨found, st₁, hfind, ?_⟩
    intro f ptr h₁ st'' _ _ hsome
    cases hrun.symm.trans hsome
  have hbuf : ∀ i < direntFileSize f.ent, (st₂.setMem
      (Function.update st₂.heap.mem (ptr + direntFileSize f.ent) 0)).heap.mem (ptr + i) =
      st₂.heap.mem (ptr + i) := by
    intro i hi
    exact Function.update_of_ne (by omega) _ _
  constructor
  · rintro ⟨r, st', h, hbytes⟩
    cases hrun.symm.trans h
    obtain ⟨f', st₁', hfind', -, hbytes⟩ := hbytes ptr _ rfl
    cases hfind.symm.trans hfind'
    refine ⟨some f, st₁, hfind, ?_⟩
    rintro _ ptr' h₁' st'' ⟨⟩ hmalloc' hrun' i hi
    cases hmalloc.symm.trans hmalloc'
    have hb := hbytes i hi
    rw [hbuf i hi] at hb
    refine ⟨_, hb, ?_⟩
    by_cases hlinks : LinksRead st₁ i
    · exact .inl hlinks
    · exact .inr ((read_bytes hg hq hsize hchain hi hb).2 hlinks).symm
  · rintro ⟨found, st₁', hfind', hwhole⟩
    cases hfind.symm.trans hfind'
    refine ⟨_, _, hrun, ?_⟩
    rintro ptr' n ⟨⟩
    refine ⟨f, st₁, hfind, rfl, fun i hi => ?_⟩
    obtain ⟨b, hb, hcase⟩ := hwhole f ptr h₁ _ rfl hmalloc hrun i hi
    obtain ⟨hread, hstale⟩ := read_bytes hg hq hsize hchain hi hb
    rw [hb, hbuf i hi]
    by_cases hlinks : LinksRead st₁ i
    · rw [hread hlinks]
    · rw [hstale hlinks, hcase.resolve_left hlinks]

theorem reads_chain_oneFile : ReadsChain oneFile [0x2F, 97] := by
  apply (reads_chain_iff oneFile oneFile_wellFormed.ready.geometry freshHeap_rep _).mpr
  have hok : (findPath oneFile [0x2F, 97]).map (fun r => (r.1, r.2.vol)) =
      some (some ⟨slotOf [65] 0x20 3 2, 2, 0⟩, oneFile.vol) := by decide +kernel
  obtain ⟨⟨found, st₁⟩, hfind, heq⟩ := Option.map_eq_some_iff.mp hok
  obtain ⟨rfl, hvol⟩ := Prod.mk.inj heq
  refine ⟨_, st₁, hfind, ?_⟩
  rintro f ptr h₁ st' ⟨⟩ - - i hi
  have hbytes : ∀ i < 2, (oneFile.byteAt 3 i).isSome := by decide +kernel
  have hlt : i < 2 := hi
  obtain ⟨b, hb⟩ := Option.isSome_iff_exists.mp (hbytes i hlt)
  refine ⟨b, hb, .inl fun j hj => ?_⟩
  -- the file has no second cluster
  rw [hvol, Nat.div_eq_of_lt (Nat.lt_trans hlt (by decide))] at hj
  omega

/-- A file that records 600 bytes and has one cluster of 512. -/
def shortChain : Fs :=
  smallFs [(2, 0x0FFFFFFF), (3, 0x0FFFFFFF)] [(2, slotOf [65] 0x20 3 600), (3, [7, 8])]

/-- The file is read with success although there is nothing on the disk behind offset 512. -/
theorem not_reads_chain_short : Geometry shortChain.vol ∧ HeapOk shortChain.heap ∧
    (∃ ptr st', fsReadFile shortChain [0x2F, 97] = some (some (ptr, 600), st')) ∧
    shortChain.byteAt 3 512 = none ∧ ¬ ReadsChain shortChain [0x2F, 97] := by
  have hnone : shortChain.byteAt 3 512 = none := by decide +kernel
  have hok : (fsReadFile shortChain [0x2F, 97]).map (fun r => r.1.map Prod.snd) = some (some 600) := by
    decide +kernel
  have hentry : (findPath shortChain [0x2F, 97]).map (fun r => r.1.map fun f => direntFirstCluster f.ent) =
      some (some 3) := by decide +kernel
  obtain ⟨⟨r, st'⟩, hrun, hr⟩ := Option.map_eq_some_iff.mp hok
  obtain ⟨⟨ptr, n⟩, rfl, rfl⟩ := Option.map_eq_some_iff.mp hr
  refine ⟨(smallFs_ready _ _).geometry, freshHeap_rep, ⟨ptr, st', hrun⟩, hnone, ?_⟩
  rintro ⟨r, st'', hrun', hbytes⟩
  cases hrun.symm.trans hrun'
  obtain ⟨f, st₁, hfind, -, hbytes⟩ := hbytes ptr 600 rfl
  rw [hfind] at hentry
  have hfirst : direntFirstCluster f.ent = 3 := by simpa using hentry
  have hb := hbytes 512 (by decide)
  rw [hfirst, hnone] at hb
  cases hb

end FusionOS.Fat
