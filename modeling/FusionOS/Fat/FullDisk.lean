import FusionOS.Fat.Frame

/-!
# Writing to a full disk

A write that finds no cluster left returns 0 after it has released the old chain and linked
clusters that no entry leads to.
-/

namespace FusionOS.Fat

open List

/-- Cluster `c` belongs to the root directory or to an entry. -/
def Image.Reached (I : Image) (c : Nat) : Prop :=
  (∃ l, I.ChainAt I.vol.rootCluster l ∧ c ∈ l) ∨
    ∃ g l, I.Entry g ∧ I.ChainAt (direntFirstCluster g.ent) l ∧ c ∈ l

/-- After the call the file with the entry `f` has its old contents, its entry leads to allocated
clusters only, and every allocated cluster out of reach was so before. -/
structure AsBefore (st st' : Fs) (path : CString) (f : Found) (old : List UInt8) : Prop where
  read : old.length + 512 ≤ 2 ^ 32 → MallocFits st'.heap (old.length + 1) → Returns st' path old
  stored : ∃ l', FileAt st' path f l' old ∧ old.length ≤ l'.length * clusterBytes st'.vol ∧
    ∀ c ∈ l', st'.fat c ≠ 0
  noLeak : ∀ c, st'.fat c ≠ 0 → ¬ st'.image.Reached c → st.fat c ≠ 0 ∧ ¬ st.image.Reached c

def retaken (st : Fs) (l : List Nat) : List Nat := freeClusters st.vol (freeAll st.fat l)

/-- The file keeps its chain, or there was nothing to take, or the clusters taken begin with those of
the file and hold its contents. -/
def Survives (st : Fs) (f : Found) (l : List Nat) (old : List UInt8) (append : Bool) : Prop :=
  (append = true ∧ direntFirstCluster f.ent ≠ 0) ∨
  (direntFirstCluster f.ent = 0 ∧ freeClusters st.vol st.fat = []) ∨
  (append = false ∧ direntFirstCluster f.ent ≠ 0 ∧
    (retaken st l).head? = some (direntFirstCluster f.ent) ∧
    old.length ≤ (retaken st l).length * clusterBytes st.vol ∧
    fileBytes (clusterBytes st.vol) st.data (retaken st l) old.length = old)

/-! ## Directories that stay as they are -/

section Same
variable {I I' : Image}

lemma Image.Shadow.slots_id (h : I.Shadow I' id) {d p : Nat} {l : List Nat} (hd : I.Dir d p)
    (hl : I.ChainAt d l) : I'.slots l = I.slots l := by
  rw [h.slots hd hl, map_id]

lemma Image.Shadow.dir_of (h : I.Shadow I' id) (hs : I.Sound) (hg : Geometry I.vol) {d p : Nat}
    (hd : I'.Dir d p) : I.Dir d p := by
  induction hd with
  | root =>
    rw [h.vol]
    exact .root
  | sub _ hl hf he hdot hdir h0 ih =>
    obtain ⟨l, hl0⟩ := hs.dir_chain ih
    have hl' := h.chain ih hl0
    rw [Image.ChainAt, h.vol] at hl hl'
    rw [FatChain.unique hg hl hl', h.slots_id ih hl0] at hf
    exact .sub ih hl0 hf he hdot hdir h0

lemma Image.Shadow.dir_to (h : I.Shadow I' id) {d p : Nat} (hd : I.Dir d p) : I'.Dir d p := by
  induction hd with
  | root =>
    rw [← h.vol]
    exact .root
  | sub hd hl hf he hdot hdir h0 ih =>
    rw [← h.slots_id hd hl] at hf
    exact .sub ih (h.chain hd hl) hf he hdot hdir h0

lemma Image.Shadow.entry_iff (h : I.Shadow I' id) (hs : I.Sound) (hg : Geometry I.vol) {g : Found} :
    I'.Entry g ↔ I.Entry g := by
  constructor
  · rintro ⟨d, p, l, hd, hl, hf, he, hdot⟩
    have hd0 := h.dir_of hs hg hd
    obtain ⟨l0, hl0⟩ := hs.dir_chain hd0
    have hl' := h.chain hd0 hl0
    rw [Image.ChainAt, h.vol] at hl hl'
    rw [FatChain.unique hg hl hl', h.slots_id hd0 hl0] at hf
    exact ⟨d, p, l0, hd0, hl0, hf, he, hdot⟩
  · rintro ⟨d, p, l, hd, hl, hf, he, hdot⟩
    rw [← h.slots_id hd hl] at hf
    exact ⟨d, p, l, h.dir_to hd, h.chain hd hl, hf, he, hdot⟩

end Same

/-! ## A stranded write -/

section Strand
variable {st st' : Fs} {f : Found} {d p : Nat} {ld l : List Nat} {append : Bool}
  (h : Stranded st st' l (takenClusters st.vol st.fat l append)) (hw : WellFormed st)
  (ht : Target st f d p ld l)
include h

lemma Stranded.fat_kept {x : Nat} (hx : x ∉ l) (h0 : st.fat x ≠ 0) : st'.fat x = st.fat x := by
  rw [h.fat x fun hm => (mem_takenClusters hm).elim hx h0, freeAll, if_neg hx]

include hw ht

lemma Stranded.shadow : st.image.Shadow st'.image id := by
  have hvol : st'.image.vol = st.image.vol := h.disk.vol
  refine ⟨hvol, ?_, ?_, fun _ _ _ => ⟨Alike.refl _, fun _ => rfl⟩, fun _ _ _ _ => rfl⟩
  · intro d' p' l' hd hl
    rw [Image.ChainAt, hvol]
    apply Chain.congr hl
    intro x hx
    obtain ⟨hx', h0⟩ := ht.dir_outside hw.sound hd hl hx
    exact h.fat_kept hx' h0
  · intro d' p' l' _ _
    rw [map_id, Image.slots, hvol, show st'.image.data = st.image.data from h.data]

lemma Stranded.reached_other {g : Found} {lg : List Nat} (hg : st.image.Entry g) (hne : g ≠ f)
    (hl : st.image.ChainAt (direntFirstCluster g.ent) lg) :
    st'.image.ChainAt (direntFirstCluster g.ent) lg := by
  have hvol : st'.image.vol = st.image.vol := h.disk.vol
  have hentry := hw.sound.entry_of_file ht.dir ht.dirChain ht.mem ht.entry ht.file
  rw [Image.ChainAt, hvol]
  apply Chain.congr hl
  intro x hx
  refine h.fat_kept (fun hm => ?_) (FatChain.fat_ne_zero hl hx)
  rcases ht.chain with ⟨-, rfl⟩ | ⟨-, hch⟩
  · cases hm
  · exact hne (hw.sound.disjoint hg hentry hl hch hx hm)

lemma Stranded.reached_cases {c : Nat} (hc : st'.image.Reached c) :
    (c ∉ l ∧ st.fat c ≠ 0) ∨ ∃ l', st'.image.ChainAt (direntFirstCluster f.ent) l' ∧ c ∈ l' := by
  have hshadow := h.shadow hw ht
  have hgeo := hw.ready.geometry
  have hvol : st'.image.vol = st.image.vol := h.disk.vol
  rcases hc with ⟨l', hl', hc⟩ | ⟨g, l', hg, hl', hc⟩
  · left
    obtain ⟨l0, hl0⟩ := hw.sound.root
    have hkept := hshadow.chain .root hl0
    rw [Image.ChainAt, hvol] at hl' hkept
    rw [FatChain.unique hgeo hl' hkept] at hc
    exact ht.dir_outside hw.sound .root hl0 hc
  · have hg0 := (hshadow.entry_iff hw.sound hgeo).mp hg
    by_cases hne : g = f
    · subst hne
      exact .inr ⟨l', hl', hc⟩
    left
    have h0 : direntFirstCluster g.ent ≠ 0 := by
      have := hl'.node_head.1
      omega
    obtain ⟨l0, hl0⟩ := hw.sound.chain hg0 h0
    have hkept := h.reached_other hw ht hg0 hne hl0
    rw [Image.ChainAt, hvol] at hl' hkept
    rw [FatChain.unique hgeo hl' hkept] at hc
    refine ⟨fun hm => ?_, FatChain.fat_ne_zero hl0 hc⟩
    have hentry := hw.sound.entry_of_file ht.dir ht.dirChain ht.mem ht.entry ht.file
    rcases ht.chain with ⟨-, rfl⟩ | ⟨-, hch⟩
    · cases hm
    · exact hne (hw.sound.disjoint hg0 hentry hl0 hch hc hm)

lemma Stranded.noLeak (hreach : ∀ c ∈ takenClusters st.vol st.fat l append, st'.image.Reached c)
    (c : Nat) (hc : st'.fat c ≠ 0) (hout : ¬ st'.image.Reached c) :
    st.fat c ≠ 0 ∧ ¬ st.image.Reached c := by
  have hshadow := h.shadow hw ht
  have hfat := h.fat c fun hm => hout (hreach c hm)
  have hcl : c ∉ l := by
    intro hm
    rw [hfat, freeAll, if_pos hm] at hc
    exact hc rfl
  rw [freeAll, if_neg hcl] at hfat
  refine ⟨by rw [← hfat]; exact hc, ?_⟩
  rintro (⟨l0, hl0, hmem⟩ | ⟨g, l0, hg, hl0, hmem⟩)
  · have hroot := hshadow.chain .root hl0
    have hvol : st'.image.vol.rootCluster = st.image.vol.rootCluster :=
      congrArg Volume.rootCluster h.disk.vol
    rw [← hvol] at hroot
    exact hout (.inl ⟨l0, hroot, hmem⟩)
  · by_cases hne : g = f
    · subst hne
      rcases ht.chain with ⟨h0, -⟩ | ⟨-, hch⟩
      · have := hl0.node_head.1
        omega
      · rw [FatChain.unique hw.ready.geometry hl0 hch] at hmem
        exact hcl hmem
    · exact hout (.inr ⟨g, l0, (hshadow.entry_iff hw.sound hw.ready.geometry).mpr hg,
        h.reached_other hw ht hg hne hl0, hmem⟩)

variable {path : CString} {old : List UInt8} (hfile : FileAt st path f l old)
include hfile

omit ht in
lemma Stranded.fileAt {l' : List Nat} (hch : HasChain st.vol st'.fat (direntFirstCluster f.ent) l')
    (hbytes : fileBytes (clusterBytes st.vol) st.data l' old.length = old) :
    FileAt st' path f l' old := by
  obtain ⟨d, p, ld, ht⟩ := hfile.target hw.sound
  have hshadow := h.shadow hw ht
  have hlen : old.length = direntFileSize f.ent := by rw [hfile.contents, fileBytes_length]
  obtain ⟨d, ld, leaf, hnames, hl, hlook⟩ := hfile.named
  obtain ⟨q, hd⟩ := hw.sound.dir_of_names hnames
  refine ⟨⟨d, ld, leaf, hshadow.names hw.sound hnames, hshadow.chain hd hl, ?_⟩, hfile.file, ?_, ?_⟩
  · rw [hshadow.slots_id hd hl]
    exact hlook
  · rw [h.disk.vol]
    exact hch
  · rw [h.disk.vol, h.data, ← hlen, hbytes]

omit hw ht in
lemma Stranded.append_chain (happ : append = true) (h0 : direntFirstCluster f.ent ≠ 0) :
    FatChain st.vol st'.fat (direntFirstCluster f.ent) (l ++ freeClusters st.vol st.fat) := by
  have hch := (hfile.chain.resolve_left fun hz => h0 hz.1).2
  obtain ⟨t, heq⟩ := hch.eq_cons
  have htaken : takenClusters st.vol st.fat l append = l ++ freeClusters st.vol st.fat := by
    rw [takenClusters, if_pos happ]
  rw [htaken] at h
  apply h.chain
  rw [heq]
  exact rfl

lemma Stranded.survives (hsurv : Survives st f l old append) :
    (∃ l', FileAt st' path f l' old ∧ old.length ≤ l'.length * clusterBytes st'.vol ∧
      ∀ c ∈ l', st'.fat c ≠ 0) ∧
    ∀ c, st'.fat c ≠ 0 → ¬ st'.image.Reached c → st.fat c ≠ 0 ∧ ¬ st.image.Reached c := by
  have hshadow := h.shadow hw ht
  have hgeo := hw.ready.geometry
  have hvol : st'.image.vol = st.image.vol := h.disk.vol
  have hentry := hw.sound.entry_of_file ht.dir ht.dirChain ht.mem ht.entry ht.file
  have hentry' := (hshadow.entry_iff hw.sound hgeo).mpr hentry
  have hlen : old.length = direntFileSize f.ent := by rw [hfile.contents, fileBytes_length]
  have hroom : old.length ≤ l.length * clusterBytes st.vol := by
    rw [hlen]
    exact hw.sized hentry hfile.file hfile.chain
  have hold : fileBytes (clusterBytes st.vol) st.data l old.length = old := by
    rw [hlen]
    exact hfile.contents.symm
  -- a chain of the file that consists of the clusters taken keeps them in reach
  have hhang : ∀ {l'}, FatChain st.vol st'.fat (direntFirstCluster f.ent) l' →
      takenClusters st.vol st.fat l append = l' →
      ∀ c ∈ takenClusters st.vol st.fat l append, st'.image.Reached c := by
    rintro l' hch rfl c hc
    refine .inr ⟨f, _, hentry', ?_, hc⟩
    rw [Image.ChainAt, hvol]
    exact hch
  rcases hsurv with ⟨happ, h0⟩ | ⟨h0, hfree⟩ | ⟨happ, h0, hhead, hroom', hbytes⟩
  · have hch := h.append_chain hfile happ h0
    refine ⟨⟨_, h.fileAt hw hfile (.inr ⟨h0, hch⟩) ?_, ?_, fun c => FatChain.fat_ne_zero hch⟩,
      h.noLeak hw ht (hhang hch (by rw [takenClusters, if_pos happ]))⟩
    · rw [← hold, fileBytes_length]
      apply map_congr_left
      intro i hi
      have := mem_range.mp hi
      exact chainByte_append (by omega)
    · rw [h.disk.vol, length_append, Nat.add_mul]
      omega
  · obtain rfl : l = [] := by
      rcases hfile.chain with hz | hz
      · exact hz.2
      · exact absurd h0 hz.1
    have htaken : takenClusters st.vol st.fat [] append = [] := by
      unfold takenClusters
      have hnone : freeAll st.fat [] = st.fat := by
        funext x
        rw [freeAll, if_neg not_mem_nil]
      rw [hnone, hfree]
      split <;> rfl
    refine ⟨⟨[], h.fileAt hw hfile (.inl ⟨h0, rfl⟩) hold, ?_, fun c hc => by cases hc⟩,
      h.noLeak hw ht ?_⟩
    · rw [h.disk.vol]
      exact hroom
    · rw [htaken]
      intro c hc
      cases hc
  · have htaken : takenClusters st.vol st.fat l append = retaken st l := by
      rw [takenClusters, if_neg (by rw [happ]; decide), retaken]
    have hch := h.chain (direntFirstCluster f.ent) (by rw [htaken]; exact hhead)
    rw [htaken] at hch
    refine ⟨⟨_, h.fileAt hw hfile (.inr ⟨h0, hch⟩) hbytes, ?_, fun c => FatChain.fat_ne_zero hch⟩,
      h.noLeak hw ht (hhang hch htaken)⟩
    rw [h.disk.vol]
    exact hroom'

lemma Stranded.leak {c : Nat} (hc : c ∈ takenClusters st.vol st.fat l append)
    (hnot : ∀ l', st'.image.ChainAt (direntFirstCluster f.ent) l' → c ∉ l') :
    ¬ st'.image.Reached c ∧ ¬ (st.fat c ≠ 0 ∧ ¬ st.image.Reached c) := by
  constructor
  · intro hreach
    rcases h.reached_cases hw ht hreach with ⟨hcl, h0⟩ | ⟨l', hl', hm⟩
    · exact (mem_takenClusters hc).elim hcl h0
    · exact hnot l' hl' hm
  · rintro ⟨h0, hout⟩
    rcases mem_takenClusters hc with hm | hfree
    · rcases hfile.chain with ⟨-, rfl⟩ | ⟨-, hch⟩
      · cases hm
      · have hentry := hw.sound.entry_of_file ht.dir ht.dirChain ht.mem ht.entry ht.file
        exact hout (.inr ⟨f, l, hentry, hch, hm⟩)
    · exact h0 hfree

lemma Stranded.survives_of
    (hstored : ∃ l', FileAt st' path f l' old ∧ old.length ≤ l'.length * clusterBytes st'.vol ∧
      ∀ c ∈ l', st'.fat c ≠ 0)
    (hleak : ∀ c, st'.fat c ≠ 0 → ¬ st'.image.Reached c → st.fat c ≠ 0 ∧ ¬ st.image.Reached c) :
    Survives st f l old append := by
  have hgeo := hw.ready.geometry
  have hlen : old.length = direntFileSize f.ent := by rw [hfile.contents, fileBytes_length]
  -- every cluster taken is reached by the file
  have hall : ∀ c ∈ takenClusters st.vol st.fat l append,
      ∃ l', st'.image.ChainAt (direntFirstCluster f.ent) l' ∧ c ∈ l' := by
    intro c hc
    by_contra hnone
    obtain ⟨hout, hno⟩ := h.leak hw ht hfile hc fun l' hl' hm => hnone ⟨l', hl', hm⟩
    have hused : st'.fat c ≠ 0 := by
      cases htaken : takenClusters st.vol st.fat l append with
      | nil =>
        rw [htaken] at hc
        cases hc
      | cons a t => exact FatChain.fat_ne_zero (h.chain a (by rw [htaken]; rfl)) hc
    exact hno (hleak c hused hout)
  obtain ⟨l', hfile', hroom, -⟩ := hstored
  have hch' := hfile'.chain
  have hcontents := hfile'.contents
  rw [h.disk.vol] at hch' hcontents hroom
  by_cases h0 : direntFirstCluster f.ent = 0
  · refine .inr (.inl ⟨h0, ?_⟩)
    obtain rfl : l = [] := by
      rcases hfile.chain with hz | hz
      · exact hz.2
      · exact absurd h0 hz.1
    have htaken : takenClusters st.vol st.fat [] append = freeClusters st.vol st.fat := by
      have hnone : freeAll st.fat [] = st.fat := by
        funext x
        rw [freeAll, if_neg not_mem_nil]
      unfold takenClusters
      rw [hnone]
      split <;> rfl
    cases hfree : freeClusters st.vol st.fat with
    | nil => rfl
    | cons a t =>
      obtain ⟨l1, hl1, -⟩ := hall a (by rw [htaken, hfree]; exact mem_cons_self)
      have := hl1.node_head.1
      omega
  cases append with
  | true => exact .inl ⟨rfl, h0⟩
  | false =>
    obtain ⟨-, hch1⟩ := hch'.resolve_left fun hz => h0 hz.1
    have hstart : direntFirstCluster f.ent ∈ l := by
      obtain ⟨t, heq⟩ := (hfile.chain.resolve_left fun hz => h0 hz.1).2.eq_cons
      rw [heq]
      exact mem_cons_self
    have htaken : takenClusters st.vol st.fat l false = retaken st l := rfl
    -- the first cluster was released, so it has been taken again
    have hmem : direntFirstCluster f.ent ∈ retaken st l := by
      by_contra hno
      apply FatChain.fat_ne_zero hch1 (Chain.head_mem hch1)
      rw [h.fat _ (by rw [htaken]; exact hno), freeAll, if_pos hstart]
    rw [htaken] at hall
    cases hlist : retaken st l with
    | nil =>
      rw [hlist] at hmem
      cases hmem
    | cons a t =>
      have hwhole : FatChain st.vol st'.fat a (a :: t) := by
        have := h.chain a (by rw [htaken, hlist]; rfl)
        rwa [htaken, hlist] at this
      have hhead : a = direntFirstCluster f.ent := by
        by_contra hne
        rw [hlist] at hmem hall
        obtain ⟨l1, hl1, ha⟩ := hall a mem_cons_self
        rw [Image.ChainAt, show st'.image.vol = st.vol from h.disk.vol] at hl1
        obtain ⟨pre, suf, heq, hsuf⟩ := Chain.drop hwhole hmem
        rw [FatChain.unique hgeo hl1 hsuf] at ha
        have hnd := hwhole.nodup hgeo
        rw [heq] at hnd
        cases pre with
        | nil =>
          obtain ⟨t', hs⟩ := hsuf.eq_cons
          rw [nil_append, hs] at heq
          exact hne (List.cons.inj heq).1
        | cons b pre =>
          obtain ⟨rfl, -⟩ := List.cons.inj heq
          exact (nodup_append.mp hnd).2.2 a mem_cons_self a ha rfl
      subst hhead
      obtain rfl : l' = direntFirstCluster f.ent :: t := FatChain.unique hgeo hch1 hwhole
      refine .inr (.inr ⟨rfl, h0, by rw [hlist]; rfl, by rw [hlist]; exact hroom, ?_⟩)
      rw [hlist, hlen, ← h.data]
      exact hcontents.symm

end Strand

/-! ## The operations -/

/-- `st'` is `st` but for the kernel heap, the buffer and the count of transfers. -/
def HeapOnly (st st' : Fs) : Prop := ∃ h b n, st' = { st with heap := h, sectorBuf := b, ops := n }

section Operations
variable {st st' : Fs} {path : CString} {f : Found} {l : List Nat} {old : List UInt8}

lemma HeapOnly.wellFormed (h : HeapOnly st st') (hw : WellFormed st) : WellFormed st' := by
  obtain ⟨_, _, _, rfl⟩ := h
  exact ⟨⟨hw.ready.geometry, hw.ready.io⟩, hw.mounted, hw.sound, hw.sized, hw.tidy⟩

lemma HeapOnly.fileAt (h : HeapOnly st st') (hfile : FileAt st path f l old) :
    FileAt st' path f l old := by
  obtain ⟨_, _, _, rfl⟩ := h
  exact ⟨hfile.named, hfile.file, hfile.chain, hfile.contents⟩

lemma fsReadFile_fits (hw : WellFormed st) (hfile : FileAt st path f l old)
    (hfits : MallocFits st.heap (u32 (old.length + 1))) :
    ∃ ptr len st', fsReadFile st path = some (some (ptr, len), st') ∧ HeapOnly st st' := by
  obtain ⟨d, ld, leaf, hnames, hl, hlook⟩ := hfile.named
  have hlen : old.length = direntFileSize f.ent := by rw [hfile.contents, fileBytes_length]
  obtain ⟨ptr, h', hmalloc, hptr⟩ := hfits
  obtain ⟨st1, hwith, hq1⟩ := withLeaf_ok none fatReadFile hw.ready hw.mounted hnames
  have hl1 := hq1.chain hl
  obtain ⟨st2, hfind, hq2⟩ := fatFindEntry_ok (hq1.ready hw.ready) hl1 leaf
  rw [hq1.vol, hq1.data, show lookup leaf [] (dirSlots st.vol st.data ld) = some f from hlook] at hfind
  obtain ⟨b, n, rfl⟩ := hq1.trans hq2
  obtain ⟨m1, hchain⟩ := readHasChain_same (v := st.vol) ptr (direntFileSize f.ent) st.data l
    (direntFirstCluster f.ent) h'.mem
  obtain ⟨st3, hrun, b3, n3, rfl⟩ := hchain { st with sectorBuf := b, ops := n, heap := h' }
    ⟨hw.ready.geometry, hw.ready.io⟩ rfl (fun x _ => rfl) rfl hfile.chain
  rw [hlen] at hmalloc
  rw [fsReadFile, hwith, fatReadFile_read hfind hfile.file hmalloc hptr hrun]
  exact ⟨ptr, _, _, rfl, _, _, _, rfl⟩

lemma Stranded.asBefore_iff {append : Bool} {st'' : Fs}
    (h : Stranded st st' l (takenClusters st.vol st.fat l append)) (hw : WellFormed st)
    (hfile : FileAt st path f l old) (hheap : HeapOnly st' st'') :
    AsBefore st st'' path f old ↔ Survives st f l old append := by
  obtain ⟨d, p, ld, ht⟩ := hfile.target hw.sound
  constructor
  · intro hb
    obtain ⟨_, _, _, rfl⟩ := hheap
    obtain ⟨l', hf, hroom, hused⟩ := hb.stored
    exact h.survives_of hw ht hfile ⟨l', ⟨hf.named, hf.file, hf.chain, hf.contents⟩, hroom, hused⟩
      hb.noLeak
  · intro hsurv
    obtain ⟨⟨l', hf, hroom, hused⟩, hleak⟩ := h.survives hw ht hfile hsurv
    have hf' := hheap.fileAt hf
    have hr := h.disk.ready hw.ready
    have hm : st'.vol.mounted = true := by
      rw [h.disk.vol]
      exact hw.mounted
    obtain ⟨_, _, _, rfl⟩ := hheap
    refine ⟨?_, ⟨l', hf', hroom, hused⟩, hleak⟩
    intro hsize hfits
    exact (hf'.read ⟨hr.geometry, hr.io⟩ hm hsize hroom).1 hfits

lemma HeapOnly.refl (st : Fs) : HeapOnly st st := ⟨_, _, _, rfl⟩

lemma fsCopy_found (hr : Ready st) (hm : st.vol.mounted = true) {src dst : CString} {g : Found}
    {lg : List Nat} {bs : List UInt8} (hsrc : FileAt st src g lg bs) :
    ∃ st1, fsCopy st src dst = copyContents st1 src dst ∧ Quiet st st1 := by
  obtain ⟨d, ld, leaf, hnames, hl, hlook⟩ := hsrc.named
  unfold fsCopy
  generalize hk : (fun (st : Fs) (dir : Nat) (name : CString) => _) = k
  obtain ⟨st1, st2, hwith, -, hfind, hq⟩ := withLeaf_find false k hr hm (.inl hnames) hl
  refine ⟨st2, ?_, hq⟩
  rw [hwith, ← hk]
  dsimp only
  rw [hfind, hlook]
  exact if_neg (Bool.eq_false_iff.mp hsrc.file)

lemma copy_stranded (hw : WellFormed st) (hfile : FileAt st path f l old) {src : CString} {g : Found}
    {lg : List Nat} {bs : List UInt8} (hsrc : FileAt st src g lg bs)
    (hfits : MallocFits st.heap (u32 (bs.length + 1))) (hrun : fsCopy st src path = some (false, st')) :
    ∃ st1 st2, HeapOnly st st1 ∧ Stranded st1 st2 l (takenClusters st.vol st.fat l false) ∧
      HeapOnly st2 st' := by
  obtain ⟨st1, hcopy, b, n, rfl⟩ := @fsCopy_found st hw.ready hw.mounted src path g lg bs hsrc
  rw [hcopy] at hrun
  have hheap : HeapOnly st { st with sectorBuf := b, ops := n } := ⟨_, _, _, rfl⟩
  obtain ⟨ptr, len, st3, hread, hheap3⟩ := fsReadFile_fits (hheap.wellFormed hw) (hheap.fileAt hsrc) hfits
  have hheap3 : HeapOnly st st3 := by
    obtain ⟨h, b, n, rfl⟩ := hheap3
    exact ⟨h, b, n, rfl⟩
  have hout := write_outcome (hheap3.wellFormed hw) (hheap3.fileAt hfile)
    (slice st3.heap.mem ptr len) false
  have htaken : takenClusters st3.vol st3.fat l false = takenClusters st.vol st.fat l false := by
    obtain ⟨_, _, _, rfl⟩ := hheap3
    rfl
  rw [htaken] at hout
  rw [copyContents, hread] at hrun
  dsimp only at hrun
  rw [fsWriteFile] at hrun
  generalize withLeaf st3 false path
    (fun st dir name => fatWriteFile st dir name (slice st3.heap.mem ptr len) false) = r at hout hrun
  cases hout with
  | written =>
    obtain ⟨h, -, heq⟩ := Option.map_eq_some_iff.mp hrun
    cases heq
  | @stranded st4 hstr =>
    obtain ⟨h, -, heq⟩ := Option.map_eq_some_iff.mp hrun
    cases heq
    exact ⟨st3, st4, hheap3, hstr, _, _, _, rfl⟩

/-- A write, an append or a copy that returns 0 for lack of a cluster leaves everything as before
exactly where the file survives it. -/
theorem failed_write_as_before_iff (st : Fs) (hw : WellFormed st) (path : CString) (f : Found)
    (l : List Nat) (old : List UInt8) (hfile : FileAt st path f l old) :
    (∀ data st', fsWriteFile st path data = some (false, st') →
      (AsBefore st st' path f old ↔ Survives st f l old false)) ∧
    (∀ data st', fsAppendFile st path data = some (false, st') →
      (AsBefore st st' path f old ↔ Survives st f l old true)) ∧
    ∀ src g lg bs st', FileAt st src g lg bs → MallocFits st.heap (u32 (bs.length + 1)) →
      fsCopy st src path = some (false, st') →
      (AsBefore st st' path f old ↔ Survives st f l old false) := by
  have hwrite : ∀ append data st', withLeaf st false path
        (fun st dir name => fatWriteFile st dir name data append) = some (false, st') →
      (AsBefore st st' path f old ↔ Survives st f l old append) := by
    intro append data st' hrun
    have hout := write_outcome hw hfile data append
    rw [hrun] at hout
    cases hout with
    | stranded h => exact h.asBefore_iff hw hfile (HeapOnly.refl _)
  refine ⟨hwrite false, hwrite true, ?_⟩
  intro src g lg bs st' hsrc hfits hrun
  obtain ⟨st₁, st₂, hheap, hstr, hheap'⟩ := copy_stranded hw hfile hsrc hfits hrun
  have hiff : AsBefore st₁ st' path f old ↔ Survives st₁ f l old false := by
    apply Stranded.asBefore_iff _ (hheap.wellFormed hw) (hheap.fileAt hfile) hheap'
    obtain ⟨_, _, _, rfl⟩ := hheap
    exact hstr
  obtain ⟨_, _, _, rfl⟩ := hheap
  constructor
  · intro hb
    exact hiff.mp ⟨hb.read, hb.stored, hb.noLeak⟩
  · intro hsurv
    have hb := hiff.mpr hsurv
    exact ⟨hb.read, hb.stored, hb.noLeak⟩

end Operations

theorem failed_write_oneFile :
    WellFormed oneFile ∧
      ∃ st', fsWriteFile oneFile [0x2F, 97] (List.replicate 3000 1) = some (false, st') ∧
        AsBefore oneFile st' [0x2F, 97] ⟨slotOf [65] 0x20 3 2, 2, 0⟩ [7, 8] := by
  have hok : (fsWriteFile oneFile [0x2F, 97] (List.replicate 3000 1)).map (fun r => r.1) =
      some false := by decide +kernel
  obtain ⟨⟨ok, st'⟩, hrun, heq⟩ := Option.map_eq_some_iff.mp hok
  obtain rfl : ok = false := heq
  have hiff := (failed_write_as_before_iff oneFile oneFile_wellFormed [0x2F, 97] _ [3] [7, 8]
    oneFile_fileAt).1 _ st' hrun
  refine ⟨oneFile_wellFormed, st', hrun, hiff.mpr (.inr (.inr ?_))⟩
  decide +kernel

/-- A volume whose file `A` has the clusters 4 and 3, with a byte in each. -/
def backwards : Fs :=
  smallFs [(2, 0x0FFFFFFF), (3, 0x0FFFFFFF), (4, 3)]
    [(2, slotOf [65] 0x20 4 513), (3, [8]), (4, [7])]

lemma backwards_wellFormed : WellFormed backwards :=
  wellFormed_of_checked [(2, 2)] (smallFs_ready _ _) rfl (by decide +kernel)

lemma backwards_fileAt : FileAt backwards [0x2F, 97] ⟨slotOf [65] 0x20 4 513, 2, 0⟩ [4, 3]
    (7 :: List.replicate 511 0 ++ [8]) where
  named := ⟨2, [2], [97], ⟨by decide, by decide, .leaf (by decide) (by decide)⟩, by decide +kernel,
    by decide +kernel⟩
  file := by decide +kernel
  chain := .inr ⟨by decide +kernel, by decide +kernel⟩
  contents := by decide +kernel

/-- A write of seven sectors to the file fails, and the second sector of the file is lost. -/
theorem not_as_before_backwards :
    WellFormed backwards ∧ FileAt backwards [0x2F, 97] ⟨slotOf [65] 0x20 4 513, 2, 0⟩ [4, 3]
      (7 :: List.replicate 511 0 ++ [8]) ∧
    ∃ st', fsWriteFile backwards [0x2F, 97] (List.replicate 3000 1) = some (false, st') ∧
      ¬ AsBefore backwards st' [0x2F, 97] ⟨slotOf [65] 0x20 4 513, 2, 0⟩
        (7 :: List.replicate 511 0 ++ [8]) := by
  have hok : ((fsWriteFile backwards [0x2F, 97] (List.replicate 3000 1)).bind fun r =>
      (fsReadFile r.2 [0x2F, 97]).map fun q =>
        (r.1, decide (MallocFits r.2.heap 514), q.1.map fun x => q.2.heap.mem (x.1 + 512))) =
      some (false, true, some 0) := by decide +kernel
  obtain ⟨⟨ok, st'⟩, hrun, hread⟩ := Option.bind_eq_some_iff.mp hok
  obtain ⟨⟨r, st''⟩, hread, heq⟩ := Option.map_eq_some_iff.mp hread
  obtain ⟨rfl, hfits, hbyte⟩ : ok = false ∧ MallocFits st'.heap 514 ∧
      r.map (fun x => st''.heap.mem (x.1 + 512)) = some 0 := by simpa using heq
  refine ⟨backwards_wellFormed, backwards_fileAt, st', hrun, fun hb => ?_⟩
  have hlen : (7 :: List.replicate 511 0 ++ [8] : List UInt8).length = 513 := by
    rw [length_append, length_cons, length_replicate]
    rfl
  obtain ⟨ptr, st₃, hread', hslice⟩ := hb.read (by rw [hlen]; decide) (by rw [hlen]; exact hfits)
  rw [hread, hlen] at hread'
  rw [hlen] at hslice
  cases hread'
  have hlast := congrArg List.getLast? hslice
  rw [slice, range_succ, map_append, map_singleton, List.getLast?_concat,
    List.getLast?_concat] at hlast
  cases hlast.symm.trans hbyte

end FusionOS.Fat
