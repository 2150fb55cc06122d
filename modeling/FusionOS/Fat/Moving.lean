import FusionOS.Fat.Consistent
import FusionOS.Fat.EraseExact
import FusionOS.Fat.Returns

/-!
# Moving files

`fs_move` renames, and where that fails copies and deletes.
-/

namespace FusionOS.Fat

open List
open Function (update update_of_ne)

/-- The path names a file with the contents `bs`, and `fs_read_file` returns 1 with them on every heap
in order that has a buffer for them. -/
def Readable (st : Fs) (path : CString) (bs : List UInt8) : Prop :=
  (∃ f l, FileAt st path f l bs) ∧
    ∀ h, HeapOk h → MallocFits h (bs.length + 1) → Returns { st with heap := h } path bs

/-- What is asked of `fs_move`: it returns, the contents are readable at one of the two paths, and
where it returns 1 at the destination. -/
def KeepsContents (st : Fs) (src dst : CString) (bs : List UInt8) : Prop :=
  ∃ ok st', fsMove st src dst = some (ok, st') ∧ (Readable st' src bs ∨ Readable st' dst bs) ∧
    (ok = true → src ≠ dst → Readable st' dst bs)

/-! ## Files that stay where they are -/

structure Stored (st : Fs) (path : CString) (f : Found) (l : List Nat) (bs : List UInt8) : Prop
    extends FileAt st path f l bs where
  room : bs.length ≤ l.length * clusterBytes st.vol

section Kept
variable {st st' : Fs} {path : CString} {f : Found} {l : List Nat} {bs : List UInt8}

lemma FileAt.stored (h : FileAt st path f l bs) (hw : WellFormed st) : Stored st path f l bs := by
  refine ⟨h, ?_⟩
  rw [h.contents, fileBytes_length]
  exact h.size_le hw

lemma Stored.readable (h : Stored st path f l bs) (hr : Ready st) (hm : st.vol.mounted = true) :
    Readable st path bs := by
  refine ⟨⟨f, l, h.toFileAt⟩, ?_⟩
  rintro heap ⟨A, blocks, hrep⟩ hfits
  have hlen : bs.length < 2 ^ 32 := by
    rw [h.contents, fileBytes_length]
    exact fileSize_lt f.ent
  have hsmall := hfits.le hrep (by omega)
  have h' : FileAt { st with heap := heap } path f l bs := ⟨h.named, h.file, h.chain, h.contents⟩
  exact (h'.read ⟨hr.geometry, hr.io⟩ hm (by omega) h.room).1 hfits

lemma Stored.heapOnly (h : Stored st path f l bs) (hheap : HeapOnly st st') :
    Stored st' path f l bs := by
  refine ⟨hheap.fileAt h.toFileAt, ?_⟩
  obtain ⟨_, _, _, rfl⟩ := hheap
  exact h.room

lemma Stored.contents_congr (h : Stored st path f l bs) {data : Nat → Mem}
    (hdata : ∀ x ∈ l, data x = st.data x) :
    bs = fileBytes (clusterBytes st.vol) data l (direntFileSize f.ent) := by
  have hroom := h.room
  rw [h.contents, fileBytes_length] at hroom
  conv_lhs => rw [h.contents]
  apply map_congr_left
  intro i hi
  have hlt := mem_range.mp hi
  exact (chainByte_congr (by omega) hdata).symm

lemma Stored.kept (h : Stored st path f l bs) (hs : st.image.Sound) (hvol : st'.vol = st.vol)
    (hkeep : ∀ {d p m n g}, st.image.Dir d p → st.image.ChainAt d m →
      lookup n [] (st.image.slots m) = some g → direntIsDir g.ent = true ∨ g = f →
      ∃ m', st'.image.ChainAt d m' ∧ lookup n [] (st'.image.slots m') = some g)
    (hdata : ∀ x ∈ l, st'.fat x = st.fat x ∧ st'.data x = st.data x) : Stored st' path f l bs := by
  obtain ⟨d, ld, leaf, hnames, hl, hlook⟩ := h.named
  obtain ⟨p, hd⟩ := hs.dir_of_names hnames
  obtain ⟨m, hm, hlook'⟩ := hkeep hd hl hlook (.inr rfl)
  refine ⟨⟨⟨d, m, leaf, ⟨hnames.1, hnames.2.1, ?_⟩, hm, hlook'⟩, h.file, ?_, ?_⟩, ?_⟩
  · rw [show st'.image.vol = st.image.vol from hvol]
    exact hs.resolves_kept (fun hd hl hlook hdir => hkeep hd hl hlook (.inl hdir)) .root hnames.2.2
  · rw [hvol]
    rcases h.chain with h0 | ⟨h0, hch⟩
    · exact .inl h0
    · exact .inr ⟨h0, Chain.congr hch fun x hx => (hdata x hx).1⟩
  · rw [hvol]
    exact h.contents_congr fun x hx => (hdata x hx).2
  · rw [hvol]
    exact h.room

lemma Spares.stored {g : Found} (h : Spares st st' g) (hs : st.image.Sound)
    (hdir : direntIsDir g.ent = false) (hf : Stored st path f l bs) (hne : f ≠ g) :
    Stored st' path f l bs := by
  apply hf.kept hs h.disk.vol
  · intro d p m n x hd hm hlook hx
    refine ⟨m, h.chain hd hm, (h.lookup hd hm ?_).trans hlook⟩
    rw [hlook]
    rintro ⟨⟩
    rcases hx with hx | rfl
    · rw [hdir] at hx
      cases hx
    · exact hne rfl
  · obtain ⟨d, p, ld, ht⟩ := hf.target hs
    have hentry := hs.entry_of_file ht.dir ht.dirChain ht.mem ht.entry hf.file
    rcases hf.chain with ⟨-, rfl⟩ | ⟨-, hch⟩
    · intro x hx
      cases hx
    · exact h.file hentry hne hf.file hch

end Kept

section Attached
variable {st st' : Fs} {d p : Nat} {ld l₁ l' : List Nat} {name : CString} {attr : UInt8} {c i : Nat}
  {e : Slot} (h : Attached st st' d ld l₁ name attr c i e l') (hw : WellFormed st)
  (hd : st.image.Dir d p) (hl : st.image.ChainAt d ld)
include h hw hd hl

variable {f : Found} {l : List Nat}

lemma Attached.file_outside (hf : st.image.Entry f)
    (hfile : direntIsDir f.ent = false) (hch : HasChain st.vol st.fat (direntFirstCluster f.ent) l) :
    ∀ x ∈ l, x ∉ l₁ ∧ x ∉ l' := by
  rcases hch with ⟨-, rfl⟩ | ⟨-, hch⟩
  · intro x hx
    cases hx
  intro x hx
  have hused : x ∉ freeClusters st.vol st.fat := fun hfree =>
    FatChain.fat_ne_zero hch hx (mem_freeClusters.mp hfree).2
  refine ⟨fun hx1 => ?_, fun hx' => hused (h.fresh x hx').1⟩
  rcases h.grown x hx1 with hxd | hfree
  · exact hw.sound.file_dir_disjoint hf hfile hch hd hl hx hxd
  · exact hused hfree

lemma Attached.new_ne {od op : Nat} {lo : List Nat} (hod : st.image.Dir od op)
    (hlo : st.image.ChainAt od lo) (hf : f ∈ st.image.slots lo) (hent : IsEntry f.ent) :
    (⟨e, c, 32 * i⟩ : Found) ≠ f := by
  rintro rfl
  have hg := hw.ready.geometry
  have hcl := (mem_dirSlots.mp hf).1
  have hused := FatChain.fat_ne_zero hlo hcl
  have hcd : c ∈ ld := by
    rcases h.grown c h.mem with hcd | hfree
    · exact hcd
    · exact absurd (mem_freeClusters.mp hfree).2 hused
  obtain rfl := hw.sound.dir_chain_eq hg hod hlo hd hl hcl hcd
  obtain ⟨pre, run, post, zs, heq, -, hslots, -, hfree, -⟩ := h.slots
  -- it would stand before or behind the run, and in the place of the run
  have hnd : (dirSlots st.vol st'.data l₁).Nodup := by
    apply dirSlots_nodup
    exact FatChain.nodup hg h.chain
  have hnew : (⟨e, c, 32 * i⟩ : Found) ∈ placed c i (installed name attr e) := by
    rw [placed, installed, mapIdx_cons]
    exact mem_cons_self
  have hold : (⟨e, c, 32 * i⟩ : Found) ∈ pre ∨ (⟨e, c, 32 * i⟩ : Found) ∈ post := by
    have hmem : (⟨e, c, 32 * i⟩ : Found) ∈ dirSlots st.vol st.data lo ++ zs := mem_append_left zs hf
    rw [heq] at hmem
    rcases mem_append.mp hmem with hmem | hmem
    · rcases mem_append.mp hmem with hmem | hmem
      · exact .inl hmem
      · exact absurd ⟨hent.1, hent.2.1⟩ (hfree _ hmem)
    · exact .inr hmem
  rw [hslots, append_assoc, nodup_append] at hnd
  obtain ⟨-, hnd2, hpre⟩ := hnd
  rcases hold with hold | hold
  · exact hpre _ hold _ (mem_append_left _ hnew) rfl
  · exact (nodup_append.mp hnd2).2.2 _ hnew _ hold rfl

end Attached

/-! ## Copying -/

section Copies
variable {st : Fs} {src dst : CString} {f : Found} {l : List Nat} {bs : List UInt8}

lemma Stored.read_fits (h : Stored st src f l bs) (hw : WellFormed st) (hheap : HeapOk st.heap)
    (hfits : MallocFits st.heap (bs.length + 1)) :
    ∃ ptr st' heap, fsReadFile st src = some (some (ptr, bs.length), st') ∧
      slice st'.heap.mem ptr bs.length = bs ∧ HeapOnly st st' ∧
      Memory.free st'.heap ptr = some heap := by
  obtain ⟨ptr, st', hread, hslice⟩ := (h.readable hw.ready hw.mounted).2 st.heap hheap hfits
  obtain ⟨r, st'', hread', hfree⟩ := fsReadFile_returns hw.zoned hheap src
  cases hread.symm.trans hread'
  obtain ⟨heap, hfree⟩ := hfree ptr bs.length rfl
  exact ⟨ptr, st', heap, hread, hslice, fsReadFile_heapOnly hw.zoned hread, hfree⟩

lemma Stored.read_null (h : Stored st src f l bs) (hw : WellFormed st) (hheap : HeapOk st.heap)
    (hfits : ¬ MallocFits st.heap (bs.length + 1)) :
    ∃ st', fsReadFile st src = some (none, st') ∧ HeapOnly st st' := by
  obtain ⟨r, st', hread, -⟩ := fsReadFile_returns hw.zoned hheap src
  cases r with
  | none => exact ⟨st', hread, fsReadFile_heapOnly hw.zoned hread⟩
  | some x =>
    obtain ⟨ptr, len⟩ := x
    obtain ⟨d, ld, leaf, hnames, hl, hlook⟩ := h.named
    obtain ⟨g, heap, hg, hsize, -, -⟩ := fsReadFile_some hw.ready hw.mounted hnames hl hread
    cases hlook.symm.trans hg
    have hlen : len = bs.length := by rw [h.contents, fileBytes_length, hsize]
    subst hlen
    -- whatever the buffer holds, it has been allocated
    have hret : Returns st src (slice st'.heap.mem ptr bs.length) := by
      refine ⟨ptr, st', ?_, ?_⟩
      · rw [slice_length]
        exact hread
      · rw [slice_length]
    have hfits' := hret.fits hw.ready hw.mounted hnames hl
    rw [slice_length] at hfits'
    exact absurd hfits' hfits

lemma Stored.size_lt (h : Stored st src f l bs) (hw : WellFormed st) (hheap : HeapOk st.heap)
    (hfits : MallocFits st.heap (bs.length + 1)) : bs.length + clusterBytes st.vol < 2 ^ 32 := by
  obtain ⟨A, blocks, hrep⟩ := hheap
  have hlen : bs.length < 2 ^ 32 := by
    rw [h.contents, fileBytes_length]
    exact fileSize_lt f.ent
  have hsmall := hfits.le hrep (by omega)
  have hspc := hw.ready.geometry.spc_lt
  unfold clusterBytes
  omega

lemma Stored.copy_null (h : Stored st src f l bs) (hw : WellFormed st) (hheap : HeapOk st.heap)
    (hfits : ¬ MallocFits st.heap (bs.length + 1)) :
    ∃ st', fsCopy st src dst = some (false, st') ∧ HeapOnly st st' := by
  obtain ⟨st₁, hcopy, b, n, rfl⟩ := @fsCopy_found st hw.ready hw.mounted src dst f l bs h.toFileAt
  have hheap1 : HeapOnly st { st with sectorBuf := b, ops := n } := ⟨_, _, _, rfl⟩
  obtain ⟨st', hread, hheap'⟩ := (h.heapOnly hheap1).read_null (hheap1.wellFormed hw) hheap hfits
  refine ⟨st', ?_, hheap1.trans hheap'⟩
  rw [hcopy, copyContents, hread]

lemma Stored.copy_fits (h : Stored st src f l bs) (hw : WellFormed st) (hheap : HeapOk st.heap)
    (hfits : MallocFits st.heap (bs.length + 1)) :
    ∃ st₁, HeapOnly st st₁ ∧ ∀ {ok st₂}, fsWriteFile st₁ dst bs = some (ok, st₂) → DiskOnly st₁ st₂ →
      ∃ st', fsCopy st src dst = some (ok, st') ∧ HeapOnly st₂ st' := by
  obtain ⟨st0, hcopy, b, n, rfl⟩ := @fsCopy_found st hw.ready hw.mounted src dst f l bs h.toFileAt
  have hheap0 : HeapOnly st { st with sectorBuf := b, ops := n } := ⟨_, _, _, rfl⟩
  obtain ⟨ptr, st₁, heap, hread, hslice, hheap1, hfree⟩ :=
    (h.heapOnly hheap0).read_fits (hheap0.wellFormed hw) hheap hfits
  refine ⟨st₁, hheap0.trans hheap1, ?_⟩
  intro ok st₂ hwrite hdisk
  refine ⟨{ st₂ with heap := heap }, ?_, _, _, _, rfl⟩
  rw [hcopy, copyContents, hread]
  dsimp only
  rw [hslice, hwrite]
  dsimp only
  rw [hdisk.heap, hfree]
  rfl

def Duplicates (st : Fs) (src dst : CString) (f : Found) (l : List Nat) (bs : List UInt8) : Prop :=
  ∃ ok st', fsWriteFile st dst bs = some (ok, st') ∧ DiskOnly st st' ∧ Stored st' src f l bs ∧
    (ok = true → InOrder st' ∧ ∃ g lg, Stored st' dst g lg bs ∧ g ≠ f)

lemma HeapOnly.ready {st' : Fs} (h : HeapOnly st st') (hr : Ready st) : Ready st' := by
  obtain ⟨_, _, _, rfl⟩ := h
  exact ⟨hr.geometry, hr.io⟩

lemma HeapOnly.vol {st' : Fs} (h : HeapOnly st st') : st'.vol = st.vol := by
  obtain ⟨_, _, _, rfl⟩ := h
  rfl

lemma Stored.delete_source (h : Stored st src f l bs) (ho : InOrder st) {g : Found} {lg : List Nat}
    (hdst : Stored st dst g lg bs) (hne : g ≠ f) :
    ∃ st', fsDelete st src = some (true, st') ∧ Readable st' dst bs := by
  obtain ⟨d, p, ld, st₁, st', offs, ht, hdel, her, hdisk, hfat, hdata⟩ :=
    delete_erased ho.ready ho.mounted ho.sound ho.inside h.toFileAt
  have hspares := her.spares ho.sound ho.ready.geometry ht hdisk hfat hdata
  have hkept := hspares.stored ho.sound h.file hdst hne
  refine ⟨st', hdel, hkept.readable (hspares.disk.ready ho.ready) ?_⟩
  rw [hspares.disk.vol]
  exact ho.mounted

lemma Stored.move_copied (h : Stored st src f l bs) (hw : WellFormed st) (hheap : HeapOk st.heap)
    {st₁ : Fs} (hren : fsRename st src dst = some (false, st₁)) (hq : Quiet st st₁)
    (hdup : MallocFits st.heap (bs.length + 1) → ∀ st₂, HeapOnly st st₂ → Duplicates st₂ src dst f l bs) :
    KeepsContents st src dst bs := by
  have hheap1 := hq.heapOnly
  have hw1 := hheap1.wellFormed hw
  have hsame : st₁.heap = st.heap := hq.diskOnly.heap
  have hok1 : HeapOk st₁.heap := by
    rw [hsame]
    exact hheap
  by_cases hfits : MallocFits st.heap (bs.length + 1)
  · obtain ⟨st₂, hheap2, hcopy⟩ := @Stored.copy_fits _ _ dst _ _ _ (h.heapOnly hheap1) hw1 hok1
      (by rw [hsame]; exact hfits)
    have hheap2 := hheap1.trans hheap2
    have hw2 := hheap2.wellFormed hw
    obtain ⟨ok, st3, hwrite, hdisk, hsrc, hdst⟩ := hdup hfits st₂ hheap2
    obtain ⟨st4, hcopy, hheap4⟩ := hcopy hwrite hdisk
    have hsrc4 := hsrc.heapOnly hheap4
    cases ok with
    | false =>
      refine ⟨false, st4, by rw [fsMove, hren]; dsimp only; rw [hcopy], .inl ?_, fun hok => by cases hok⟩
      apply hsrc4.readable (hheap4.ready (hdisk.ready hw2.ready))
      rw [hheap4.vol, hdisk.vol]
      exact hw2.mounted
    | true =>
      obtain ⟨ho, g, lg, hg, hne⟩ := hdst rfl
      obtain ⟨st5, hdel, hread⟩ := hsrc4.delete_source (hheap4.inOrder ho) (hg.heapOnly hheap4) hne
      refine ⟨true, st5, ?_, .inr hread, fun _ _ => hread⟩
      rw [fsMove, hren]
      dsimp only
      rw [hcopy]
      exact hdel
  · obtain ⟨st₂, hcopy, hheap2⟩ := @Stored.copy_null _ _ dst _ _ _ (h.heapOnly hheap1) hw1 hok1
      (by rw [hsame]; exact hfits)
    have hw2 := (hheap1.trans hheap2).wellFormed hw
    refine ⟨false, st₂, by rw [fsMove, hren]; dsimp only; rw [hcopy], .inl ?_, fun hok => by cases hok⟩
    exact (h.heapOnly (hheap1.trans hheap2)).readable hw2.ready hw2.mounted

end Copies

/-! ## The write of the copy -/

section Writes
variable {st : Fs} {src dst : CString} {f : Found} {l : List Nat} {bs : List UInt8}

lemma Stored.duplicates_quiet (h : Stored st src f l bs) {st' : Fs}
    (hwrite : fsWriteFile st dst bs = some (false, st')) (hq : Quiet st st') :
    Duplicates st src dst f l bs :=
  ⟨false, st', hwrite, hq.diskOnly, h.heapOnly hq.heapOnly, fun hok => by cases hok⟩

lemma Stored.duplicates_nowhere (h : Stored st src f l bs) (hw : WellFormed st)
    (hno : ∀ d leaf, ¬ Leads st dst d leaf) : Duplicates st src dst f l bs := by
  rcases withLeaf_cases false (fun st dir name => fatWriteFile st dir name bs false) dst hw.ready
    hw.mounted hw.sound with ⟨d, p, leaf, -, hlead⟩ | ⟨st₁, hwith, hq⟩
  · exact absurd hlead (hno d leaf)
  · exact h.duplicates_quiet hwith hq

section Named
variable {d : Nat} {ld : List Nat} {leaf : CString} (hnames : st.image.Names dst d leaf)
  (hl : st.image.ChainAt d ld)
include hnames hl

lemma Stored.duplicates_dir (h : Stored st src f l bs) (hw : WellFormed st) {g : Found}
    (hlook : lookup leaf [] (st.image.slots ld) = some g) (hdir : direntIsDir g.ent = true) :
    Duplicates st src dst f l bs := by
  obtain ⟨st₁, st₂, hwith, -, hfind, hq⟩ := withLeaf_find false
    (fun st dir name => fatWriteFile st dir name bs false) hw.ready hw.mounted (.inl hnames) hl
  refine h.duplicates_quiet ?_ hq
  rw [fsWriteFile, hwith, fatWriteFile, hfind, hlook]
  exact if_pos hdir

lemma Stored.duplicates_full (h : Stored st src f l bs) (hw : WellFormed st)
    (hnone : lookup leaf [] (st.image.slots ld) = none) (hfull : Full st ld leaf) :
    Duplicates st src dst f l bs := by
  obtain ⟨st₁, st₂, hwith, -, hfind, hq⟩ := withLeaf_find false
    (fun st dir name => fatWriteFile st dir name bs false) hw.ready hw.mounted (.inl hnames) hl
  obtain ⟨b, n, rfl⟩ := hq
  have hr2 : Ready { st with sectorBuf := b, ops := n } := ⟨hw.ready.geometry, hw.ready.io⟩
  obtain ⟨st3, hcreate, hq3⟩ := fatCreateEntry_full hr2 hl 0x20 hnames.2.2.leaf_length hfull
  refine h.duplicates_quiet ?_ (Quiet.trans ⟨b, n, rfl⟩ hq3)
  rw [fsWriteFile, hwith, fatWriteFile, hfind, hnone]
  dsimp only
  rw [hcreate]

end Named

lemma Stored.duplicates_other (h : Stored st src f l bs) (hw : WellFormed st) (hin : RunsInside st)
    {g : Found} {lg : List Nat} {old : List UInt8} (hg : FileAt st dst g lg old) (hne : g ≠ f)
    (hsize : bs.length + clusterBytes st.vol < 2 ^ 32) : Duplicates st src dst f l bs := by
  obtain ⟨d, p, ld, ht⟩ := hg.target hw.sound
  obtain ⟨d', p', ld', hsrc⟩ := h.target hw.sound
  have hout := write_outcome hw hg bs false
  rw [Duplicates, fsWriteFile]
  generalize withLeaf st false dst (fun st dir name => fatWriteFile st dir name bs false) = r at hout
  cases hout with
  | @written st' l' first size hlink hrw =>
    have hrw : Rewritten st st' g lg l' first bs := hrw (by rw [if_neg Bool.false_ne_true]; omega)
    refine ⟨true, st', rfl, hlink.disk, (hlink.spares hw.sound ht).stored hw.sound hg.file h hne.symm, ?_⟩
    intro _
    refine ⟨hlink.inOrder (hw.inOrder hin) ht, _, l', ⟨hrw.fileAt hw hg, ?_⟩, ?_⟩
    · rw [hlink.disk.vol]
      exact hrw.room
    · -- the entries stand in different places
      rintro rfl
      exact hne (found_ext ht.mem hsrc.mem rfl rfl)
  | @stranded st' hstr =>
    exact ⟨false, st', rfl, hstr.disk, (hstr.spares hw.sound ht).stored hw.sound hg.file h hne.symm,
      fun hok => by cases hok⟩

end Writes

/-! ## Renaming -/

section Renaming
variable {st st₁ st' : Fs} {nd np od op : Nat} {ln l₁ m : List Nat} {name : CString} {attr : UInt8}
  {c i : Nat} {e : Slot} {g : Found} {offs : List Nat}
  (hat : Attached st st₁ nd ln l₁ name attr c i e []) (hw : WellFormed st) (hnd : st.image.Dir nd np)
  (hln : st.image.ChainAt nd ln)
include hat hw hnd hln

variable {l : List Nat} {d p : Nat}

lemma Attached.cluster_cases {x : Nat} (hd : st.image.Dir d p)
    (hl : st₁.image.ChainAt d l) (hx : x ∈ l) :
    (∃ l0, st.image.ChainAt d l0 ∧ x ∈ l0) ∨ d = nd ∧ x ∈ freeClusters st.vol st.fat := by
  have hg1 := (hat.disk.ready hw.ready).geometry
  by_cases heq : d = nd
  · subst heq
    obtain rfl := FatChain.unique hg1 hl hat.chainAt
    rcases hat.grown x hx with hold | hfree
    · exact .inl ⟨ln, hln, hold⟩
    · exact .inr ⟨rfl, hfree⟩
  · obtain ⟨l0, hl0⟩ := hw.sound.dir_chain hd
    have hsame := (hat.other_dir hw.sound hw.ready.geometry hnd hln hd hl0 heq).1
    obtain rfl := FatChain.unique hg1 hl hsame
    exact .inl ⟨l, hl0, hx⟩

lemma Attached.dir_eq {d' p' x : Nat} {l' : List Nat} (hd : st.image.Dir d p)
    (hd' : st.image.Dir d' p') (hl : st₁.image.ChainAt d l) (hl' : st₁.image.ChainAt d' l') (hx : x ∈ l)
    (hx' : x ∈ l') : d = d' := by
  have hfree : ∀ {a l0}, st.image.ChainAt a l0 → x ∈ l0 → x ∉ freeClusters st.vol st.fat :=
    fun hl0 hm hf => FatChain.fat_ne_zero hl0 hm (mem_freeClusters.mp hf).2
  rcases hat.cluster_cases hw hnd hln hd hl hx with ⟨l0, hl0, hx0⟩ | ⟨rfl, hx0⟩
  · rcases hat.cluster_cases hw hnd hln hd' hl' hx' with ⟨l0', hl0', hx0'⟩ | ⟨-, hx0'⟩
    · exact hw.sound.dir_eq hw.ready.geometry hd hl0 hd' hl0' hx0 hx0'
    · exact absurd hx0' (hfree hl0 hx0)
  · rcases hat.cluster_cases hw hnd hln hd' hl' hx' with ⟨l0', hl0', hx0'⟩ | ⟨rfl, -⟩
    · exact absurd hx0 (hfree hl0' hx0')
    · rfl

variable (hod : st.image.Dir od op) (hm : st₁.image.ChainAt od m) (hmem : g ∈ st₁.image.slots m)
  (her : Erased st₁ st' m g offs)
include hod hm hmem her

lemma Attached.erased_lookup (hd : st.image.Dir d p)
    (hl : st₁.image.ChainAt d l) :
    st'.image.ChainAt d l ∧ ∀ {n}, lookup n [] (st₁.image.slots l) ≠ some g →
      lookup n [] (st'.image.slots l) = lookup n [] (st₁.image.slots l) := by
  have hg1 := (hat.disk.ready hw.ready).geometry
  have hvol : st'.image.vol = st₁.image.vol := her.disk.vol
  constructor
  · rw [Image.ChainAt, hvol, show st'.image.fat = st₁.image.fat from her.fat]
    exact hl
  · intro n hne
    by_cases hc : g.cluster ∈ l
    · obtain rfl := hat.dir_eq hw hnd hln hod hd hm hl (mem_dirSlots.mp hmem).1 hc
      obtain rfl := FatChain.unique hg1 hm hl
      exact her.lookup (FatChain.nodup hg1 hm) hne
    · rw [Image.slots, Image.slots, hvol]
      congr 1
      apply dirSlots_congr
      intro x hx
      rw [show st'.image.data = _ from her.data, eraseAt, update_of_ne]
      · rfl
      · rintro rfl
        exact hc hx

end Renaming

section Renamed
variable {st : Fs} {src dst : CString} {f : Found} {l : List Nat} {bs : List UInt8}

lemma Stored.renamed {st₁ st' : Fs} {nd np od op c i : Nat} {ln l₁ m offs : List Nat} {name : CString}
    (h : Stored st src f l bs) (hw : WellFormed st) (hnames : st.image.Names dst nd name)
    (hnd : st.image.Dir nd np) (hln : st.image.ChainAt nd ln)
    (hnone : lookup name [] (st.image.slots ln) = none) (hplain : Plain name)
    (hat : Attached st st₁ nd ln l₁ name (direntAttr f.ent) c i
      (newSlot name (direntAttr f.ent) (direntFirstCluster f.ent) (direntFileSize f.ent)) [])
    (hod : st.image.Dir od op) (hm : st₁.image.ChainAt od m) (hmem : f ∈ st₁.image.slots m)
    (her : Erased st₁ st' m f offs) :
    Stored st' dst ⟨newSlot name (direntAttr f.ent) (direntFirstCluster f.ent) (direntFileSize f.ent),
      c, 32 * i⟩ l bs := by
  obtain ⟨d, p, ld, ht⟩ := h.target hw.sound
  have hentry := hw.sound.entry_of_file ht.dir ht.dirChain ht.mem ht.entry h.file
  have hattr : direntAttr f.ent ≠ 0x0F := ht.entry.2.2
  have halike := newSlot_alike name (direntAttr f.ent) (direntFirstCluster f.ent) (direntFileSize f.ent)
  have hvol : st'.vol = st.vol := her.disk.vol.trans hat.disk.vol
  have hfirst := newSlot_firstCluster name (direntAttr f.ent) (firstCluster_lt f.ent) (direntFileSize f.ent)
  have hsize := newSlot_fileSize name (direntAttr f.ent) (direntFirstCluster f.ent) (fileSize_lt f.ent)
  -- the clusters of the file are those of no directory
  have hkeep : ∀ x ∈ l, st'.fat x = st.fat x ∧ st'.data x = st.data x := by
    intro x hx
    obtain ⟨hx1, hx'⟩ := hat.file_outside hw hnd hln hentry h.file h.chain x hx
    have hxf : x ≠ f.cluster := by
      rintro rfl
      exact (ht.dir_outside hw.sound ht.dir ht.dirChain (mem_dirSlots.mp ht.mem).1).1 hx
    rw [her.fat, her.data, eraseAt, update_of_ne hxf]
    exact ⟨hat.fat x hx1 hx', hat.data x hx1 hx'⟩
  have hlook : lookup name [] (st₁.image.slots l₁) = some _ :=
    hat.lookup_new (hw.tidy hnd hln) hplain hattr halike hnone
  obtain ⟨hl1, hsame⟩ := hat.erased_lookup hw hnd hln hod hm hmem her hnd hat.chainAt
  refine ⟨⟨⟨nd, l₁, name, ⟨hnames.1, hnames.2.1, ?_⟩, hl1, ?_⟩, ?_, ?_, ?_⟩, ?_⟩
  · rw [show st'.image.vol = st.image.vol from hvol]
    apply hw.sound.resolves_kept _ .root hnames.2.2
    intro d' p' l' n x hd' hl' hlook' hdir
    obtain ⟨l2, hl2, hlook2⟩ := hat.lookup_dirs hw.sound hw.ready.geometry hnd hln
      (P := fun f r => r = some f) (fun _ => rfl)
      (fun n f hlook => hat.lookup_plain (hw.tidy hnd hln) hplain hattr halike hnone hlook) hd' hl' hlook'
    obtain ⟨hl2', hsame'⟩ := hat.erased_lookup hw hnd hln hod hm hmem her hd' hl2
    refine ⟨l2, hl2', (hsame' ?_).trans hlook2⟩
    rw [hlook2]
    rintro ⟨⟩
    rw [h.file] at hdir
    cases hdir
  · rw [hsame, hlook]
    rw [hlook]
    intro heq
    exact hat.new_ne hw hnd hln ht.dir ht.dirChain ht.mem ht.entry (Option.some.inj heq)
  · rw [halike.isDir, direntIsDir, newDirent_attr]
    exact h.file
  · rw [hfirst, hvol]
    rcases h.chain with h0 | ⟨h0, hch⟩
    · exact .inl h0
    · exact .inr ⟨h0, Chain.congr hch fun x hx => (hkeep x hx).1⟩
  · rw [hsize, hvol]
    exact h.contents_congr fun x hx => (hkeep x hx).2
  · rw [hvol]
    exact h.room

/-- `fs_rename` of the file `f` of the directory `od` to the new name `name` in the directory `nd`: the
second entry is attached, and then the entry `g` that the old name leads to is erased. -/
structure Renames (st st₁ st' : Fs) (f g : Found) (od nd : Nat) (lo ln l₁ m offs : List Nat)
    (old name : CString) (c i : Nat) : Prop where
  attached : Attached st st₁ nd ln l₁ name (direntAttr f.ent) c i
    (newSlot name (direntAttr f.ent) (direntFirstCluster f.ent) (direntFileSize f.ent)) []
  dir : ∃ op, st.image.Dir od op
  oldChain : st.image.ChainAt od lo
  oldFound : lookup old [] (st.image.slots lo) = some f
  chain : st₁.image.ChainAt od m
  found : lookup old [] (st₁.image.slots m) = some g
  case : od = nd ∧ m = l₁ ∧ lo = ln ∨ g = f
  erased : Erased st₁ st' m g offs

section RenameCall
variable {nd : Nat} {ln : List Nat} {name : CString} (h : Stored st src f l bs) (hw : WellFormed st)
  (hne : src ≠ dst) (hnames : st.image.Names dst nd name) (hln : st.image.ChainAt nd ln)
include h hw hne hnames hln

lemma Stored.rename_found {x : Found} (hlook : lookup name [] (st.image.slots ln) = some x) :
    ∃ st', fsRename st src dst = some (false, st') ∧ Quiet st st' := by
  obtain ⟨od, lo, old, hold, hlo, -⟩ := h.named
  obtain ⟨st₁, st₂, hq, -, hrun⟩ := fsRename_leads hw.ready hw.mounted hne (.inl hold) (.inl hnames) hlo hln
  rw [hlook] at hrun
  exact ⟨st₁, hrun, hq⟩

variable (hnone : lookup name [] (st.image.slots ln) = none)
include hnone

lemma Stored.rename_full (hfull : Full st ln name) :
    ∃ st', fsRename st src dst = some (false, st') ∧ Quiet st st' := by
  obtain ⟨od, lo, old, hold, hlo, hlook⟩ := h.named
  obtain ⟨st₁, st₂, -, ⟨b, n, rfl⟩, hrun⟩ := fsRename_leads hw.ready hw.mounted hne (.inl hold) (.inl hnames)
    hlo hln
  rw [hnone, hlook] at hrun
  have hr2 : Ready { st with sectorBuf := b, ops := n } := ⟨hw.ready.geometry, hw.ready.io⟩
  obtain ⟨st3, hcreate, hq⟩ := fatCreateEntry_full hr2 hln (direntAttr f.ent) hnames.2.2.leaf_length hfull
  refine ⟨st3, ?_, Quiet.trans ⟨b, n, rfl⟩ hq⟩
  rw [hrun]
  dsimp only
  rw [renameFound, if_neg fun hdir => Bool.eq_false_iff.mp h.file hdir.1, hcreate]

lemma Stored.rename_room (hin : RunsInside st) (h0 : 0 ∉ name) (hroom : ¬ Full st ln name) :
    ∃ st₁ st' g od lo l₁ m offs old c i, fsRename st src dst = some (true, st') ∧
      Renames st st₁ st' f g od nd lo ln l₁ m offs old name c i := by
  obtain ⟨od, lo, old, hold, hlo, hlook⟩ := h.named
  obtain ⟨op, hod⟩ := hw.sound.dir_of_names hold
  obtain ⟨np, hnd⟩ := hw.sound.dir_of_names hnames
  obtain ⟨-, hent⟩ := lookup_some hlook
  obtain ⟨st₁, st₂, -, hq, hrun⟩ := fsRename_leads hw.ready hw.mounted hne (.inl hold) (.inl hnames) hlo hln
  rw [hnone, hlook] at hrun
  have ho := (hw.inOrder hin).quiet hq
  have hquiet := hq
  obtain ⟨b, n, rfl⟩ := hq
  obtain ⟨st3, st4, l₁, c, i, hcreate, hgrown, hplaced⟩ := fatCreateEntry_created ho.ready hln
    (direntAttr f.ent) hnames.2.2.leaf_length hroom
  obtain ⟨st5, m, hat, hm, hcase, hinside, hren⟩ := renameFound_created ho hod hlo hnd hln hent
    (fun hdir => Bool.eq_false_iff.mp h.file hdir.1) hcreate hgrown hplaced old
  have halike := newSlot_alike name (direntAttr f.ent) (direntFirstCluster f.ent) (direntFileSize f.ent)
  obtain ⟨g, hfound, hg⟩ : ∃ g, lookup old [] (st5.image.slots m) = some g ∧
      (od = nd ∧ m = l₁ ∧ lo = ln ∨ g = f) := by
    rcases hcase with ⟨heq, rfl, rfl⟩ | ⟨-, hslots⟩
    · rcases hat.lookup_old hent.2.2 halike hlook with hf | ⟨-, x, hx, hzero⟩ | ⟨g, -, hf⟩
      · exact ⟨f, hf, .inr rfl⟩
      · exact absurd hzero (installed_ne_zero h0 hnames.2.2.leaf_length halike x hx)
      · exact ⟨g, hf, .inl ⟨heq, rfl, rfl⟩⟩
    · exact ⟨f, hslots ▸ hlook, .inr rfl⟩
  obtain ⟨st', offs, hdel, her⟩ := fatDeleteEntry_ok (hat.disk.ready ho.ready) hm hinside hfound
  refine ⟨st5, st', g, od, lo, l₁, m, offs, old, c, i, ?_, hat.of_quiet hquiet, ⟨op, hod⟩, hlo, hlook, hm,
    hfound, hg, her⟩
  rw [hrun]
  exact hren.trans hdel

lemma Stored.rename_plain (hin : RunsInside st) (h0 : 0 ∉ name) (hroom : ¬ Full st ln name)
    (hplain : Plain name) : ∃ st', fsRename st src dst = some (true, st') ∧ Readable st' dst bs := by
  obtain ⟨st₁, st', g, od, lo, l₁, m, offs, old, c, i, hrun, hre⟩ :=
    h.rename_room hw hne hnames hln hnone hin h0 hroom
  obtain ⟨op, hod⟩ := hre.dir
  obtain ⟨np, hnd⟩ := hw.sound.dir_of_names hnames
  obtain ⟨-, hent⟩ := lookup_some hre.oldFound
  have halike := newSlot_alike name (direntAttr f.ent) (direntFirstCluster f.ent) (direntFileSize f.ent)
  -- the old name still leads to the file
  obtain rfl : g = f := by
    rcases hre.case with ⟨-, hm, hlo⟩ | heq
    · have hsame := hre.attached.lookup_plain (hw.tidy hnd hln) hplain hent.2.2 halike hnone
        (hlo ▸ hre.oldFound)
      rw [← hm, hre.found] at hsame
      exact Option.some.inj hsame
    · exact heq
  have hstored := h.renamed hw hnames hnd hln hnone hplain hre.attached hod hre.chain
    (lookup_some hre.found).1 hre.erased
  have hdisk := hre.attached.disk.trans hre.erased.disk
  refine ⟨st', hrun, hstored.readable (hdisk.ready hw.ready) ?_⟩
  rw [hdisk.vol]
  exact hw.mounted

end RenameCall

end Renamed

/-! ## Moves that keep the contents -/

/-- The destination is spelled like the source, or it leads neither to the file itself, unless there is
no buffer for the copy, nor to a new name that is not plain, unless there is no room for it. -/
def MovesSafely (st : Fs) (src dst : CString) (f : Found) (bs : List UInt8) : Prop :=
  src = dst ∨ ∀ d ld leaf, st.image.Names dst d leaf → st.image.ChainAt d ld →
    (lookup leaf [] (st.image.slots ld) = some f → ¬ MallocFits st.heap (bs.length + 1)) ∧
    (lookup leaf [] (st.image.slots ld) = none → Plain leaf ∨ Full st ld leaf)

section Moves
variable {st : Fs} {src dst : CString} {f : Found} {l : List Nat} {bs : List UInt8}

variable {leaf : CString}

lemma Image.Names.not_mem_zero {d : Nat} (h : st.image.Names dst d leaf)
    (h0 : 0 ∉ dst) : 0 ∉ leaf := by
  intro hm
  have hstart := h.2.2.mem_leaf hm
  unfold pathStart at hstart
  split at hstart
  · exact h0 (mem_of_mem_tail hstart)
  · exact h0 hstart

lemma Stored.move_found (h : Stored st src f l bs) (hw : WellFormed st) (hin : RunsInside st)
    (hheap : HeapOk st.heap) (hne : src ≠ dst) {d : Nat} {ld : List Nat}
    (hnames : st.image.Names dst d leaf) (hl : st.image.ChainAt d ld) {g : Found}
    (hlook : lookup leaf [] (st.image.slots ld) = some g)
    (hother : MallocFits st.heap (bs.length + 1) → g ≠ f) : KeepsContents st src dst bs := by
  obtain ⟨st₁, hren, hq⟩ := h.rename_found hw hne hnames hl hlook
  apply h.move_copied hw hheap hren hq
  intro hfits st₂ hheap2
  have hw2 := hheap2.wellFormed hw
  have h2 := h.heapOnly hheap2
  have hsize := h.size_lt hw hheap hfits
  obtain ⟨_, _, _, rfl⟩ := hheap2
  cases hdir : direntIsDir g.ent with
  | true => exact h2.duplicates_dir hnames hl hw2 hlook hdir
  | false =>
    obtain ⟨p, hd⟩ := hw.sound.dir_of_names hnames
    obtain ⟨hmem, hent⟩ := lookup_some hlook
    obtain ⟨lg, hch⟩ := hw.sound.entry_chain (hw.sound.entry_of_file hd hl hmem hent hdir)
    exact h2.duplicates_other hw2 hin ⟨⟨d, ld, leaf, hnames, hl, hlook⟩, hdir, hch, rfl⟩ (hother hfits) hsize

lemma Stored.move_safe (h : Stored st src f l bs) (hw : WellFormed st) (hin : RunsInside st)
    (hheap : HeapOk st.heap) (hdst : dst ≠ []) (h0 : 0 ∉ dst) (hsafe : MovesSafely st src dst f bs) :
    KeepsContents st src dst bs := by
  by_cases heq : src = dst
  · refine ⟨true, st, ?_, .inl (h.readable hw.ready hw.mounted), fun _ hne => absurd heq hne⟩
    rw [fsMove, fsRename, if_neg (by rw [hw.mounted]; decide), if_pos heq]
  have hsafe := hsafe.resolve_left heq
  by_cases hnames : ∃ d leaf, st.image.Names dst d leaf
  swap
  · have hno : ∀ d leaf, ¬ Leads st dst d leaf := by
      rintro d leaf (hnames' | ⟨hnil, -⟩)
      · exact hnames ⟨d, leaf, hnames'⟩
      · exact hdst hnil
    obtain ⟨st₁, hren, hq⟩ := fsRename_nowhere (hw.inOrder hin) heq (.inr hno)
    apply h.move_copied hw hheap hren hq
    intro _ st₂ hheap2
    have hw2 := hheap2.wellFormed hw
    have h2 := h.heapOnly hheap2
    obtain ⟨_, _, _, rfl⟩ := hheap2
    exact h2.duplicates_nowhere hw2 hno
  obtain ⟨d, leaf, hnames⟩ := hnames
  obtain ⟨p, hd⟩ := hw.sound.dir_of_names hnames
  obtain ⟨ld, hl⟩ := hw.sound.dir_chain hd
  obtain ⟨hself, hnew⟩ := hsafe d ld leaf hnames hl
  cases hlook : lookup leaf [] (st.image.slots ld) with
  | some g =>
    apply h.move_found hw hin hheap heq hnames hl hlook
    rintro hfits rfl
    exact hself hlook hfits
  | none =>
    by_cases hfull : Full st ld leaf
    · obtain ⟨st₁, hren, hq⟩ := h.rename_full hw heq hnames hl hlook hfull
      apply h.move_copied hw hheap hren hq
      intro _ st₂ hheap2
      have hw2 := hheap2.wellFormed hw
      have h2 := h.heapOnly hheap2
      obtain ⟨_, _, _, rfl⟩ := hheap2
      exact h2.duplicates_full hnames hl hw2 hlook hfull
    · obtain ⟨st', hren, hread⟩ := h.rename_plain hw heq hnames hl hlook hin (hnames.not_mem_zero h0) hfull
        ((hnew hlook).resolve_right hfull)
      exact ⟨true, st', by rw [fsMove, hren], .inr hread, fun _ _ => hread⟩

end Moves

/-! ## Moves that lose the contents -/

section Lost
variable {st : Fs} {src dst : CString} {f : Found} {l : List Nat} {bs : List UInt8}

variable {leaf : CString} {st' : Fs} {ld : List Nat}

lemma not_readable_of_exists (hr : Ready st') (hm : st'.vol.mounted = true) {s : Fs}
    (h : fsExists st' dst = some (false, s)) : ¬ Readable st' dst bs := by
  rintro ⟨⟨g, lg, hg⟩, -⟩
  obtain ⟨d, ld, leaf, hnames, hl, hlook⟩ := hg.named
  obtain ⟨s', hexists⟩ := fsExists_ok hr hm hnames hl
  rw [hlook] at hexists
  cases h.symm.trans hexists

lemma Renames.not_readable {st₁ : Fs} {g : Found} {od nd c i : Nat} {lo ln l₁ m offs : List Nat}
    {old name : CString} (h : Renames st st₁ st' f g od nd lo ln l₁ m offs old name c i)
    (hw : WellFormed st) (hfile : direntIsDir f.ent = false) (hnames : st.image.Names dst nd name)
    (hln : st.image.ChainAt nd ln) (hnone : lookup name [] (st.image.slots ln) = none)
    (hplain : ¬ Plain name) : ¬ Readable st' dst bs := by
  have hg := hw.ready.geometry
  obtain ⟨op, hod⟩ := h.dir
  obtain ⟨np, hnd⟩ := hw.sound.dir_of_names hnames
  have hattr : direntAttr f.ent ≠ 0x0F := (lookup_some h.oldFound).2.2.2
  have halike := newSlot_alike name (direntAttr f.ent) (direntFirstCluster f.ent) (direntFileSize f.ent)
  have hbit : direntAttr f.ent &&& 0x10 = 0 := by simpa [direntIsDir] using hfile
  have hg1 := (h.attached.disk.ready hw.ready).geometry
  have hmem := (lookup_some h.found).1
  have hdisk := h.attached.disk.trans h.erased.disk
  have hm' : st'.vol.mounted = true := by
    rw [hdisk.vol]
    exact hw.mounted
  have hhide := h.attached.lookup_hidden (hw.tidy hnd hln) hattr halike hplain hnames.2.1
    hnames.2.2.leaf_length hnone
  obtain ⟨hl1, hsame⟩ := h.attached.erased_lookup hw hnd hln hod h.chain hmem h.erased hnd h.attached.chainAt
  obtain ⟨s, hexists⟩ := fsExists_blocked hw.sound (hdisk.ready hw.ready) hm' hdisk.vol (by
    intro d p l' n x hd hl' hlook hdir
    obtain ⟨l2, hl2, hcase⟩ := h.attached.lookup_blocked hw hnd hln hattr halike hbit hd hl' hlook
    obtain ⟨hl2', hsame⟩ := h.attached.erased_lookup hw hnd hln hod h.chain hmem h.erased hd hl2
    refine ⟨l2, hl2', ?_⟩
    rw [hsame]
    · exact hcase
    · -- otherwise the component and the old name are the same, and lead to the file
      intro heq
      obtain rfl := h.attached.dir_eq hw hnd hln hod hd h.chain hl2 (mem_dirSlots.mp hmem).1
        (mem_dirSlots.mp (lookup_some heq).1).1
      obtain rfl := FatChain.unique hg1 h.chain hl2
      obtain rfl := FatChain.unique hg h.oldChain hl'
      have hname := lookup_inj (dirSlots_nodup (FatChain.nodup hg1 h.chain)) h.found heq
      have hold := h.oldFound
      rw [lookup_name hname, hlook] at hold
      cases hold
      rw [hfile] at hdir
      cases hdir) hnames hl1 (by
    rw [hsame]
    · exact hhide
    · rw [hhide]
      rintro ⟨⟩)
  exact not_readable_of_exists (hdisk.ready hw.ready) hm' hexists

lemma Alone.replace {v : Volume} {data : Nat → Mem} {e : Slot}
    (hnd : ld.Nodup) (hmem : f ∈ dirSlots v data ld) (h : Alone (dirSlots v data ld) f leaf) :
    Alone ((dirSlots v data ld).map (f.replace e)) { f with ent := e } leaf := by
  have hslots : (dirSlots v data ld).Nodup := dirSlots_nodup hnd
  obtain ⟨pre, post, heq⟩ := append_of_mem hmem
  have hplace : ∀ x ∈ pre ++ f :: post, x ≠ f → ¬ (x.cluster = f.cluster ∧ x.offset = f.offset) := by
    rw [← heq]
    rintro x hx hne ⟨hc, ho⟩
    exact hne (found_ext hx hmem hc ho)
  rw [heq, nodup_append] at hslots
  have hpre : ∀ x ∈ pre, x ≠ f := by
    rintro x hx rfl
    exact hslots.2.2 x hx x mem_cons_self rfl
  have hpost : ∀ x ∈ post, x ≠ f := by
    rintro x hx rfl
    exact (nodup_cons.mp hslots.2.1).1 hx
  have hkeep : ∀ x ∈ post, f.replace e x = x := fun x hx =>
    if_neg (hplace x (mem_append_right pre (mem_cons_of_mem f hx)) (hpost x hx))
  have hnot : ∀ x ∈ pre.map (f.replace e), x ≠ { f with ent := e } := by
    rintro x hx rfl
    obtain ⟨y, hy, hxy⟩ := mem_map.mp hx
    have hout := hplace y (mem_append_left _ hy) (hpre y hy)
    rw [Found.replace, if_neg hout] at hxy
    exact hout (hxy ▸ ⟨rfl, rfl⟩)
  rw [Alone, heq, dropWhile_append_of_pos (fun x hx => decide_eq_true (hpre x hx)),
    dropWhile_cons_of_neg (by simp), tail_cons] at h
  rw [Alone, heq, map_append, map_cons, Found.replace_self,
    dropWhile_append_of_pos (fun x hx => decide_eq_true (hnot x hx)),
    dropWhile_cons_of_neg (by simp), tail_cons, map_congr_left hkeep, map_id']
  exact h

section Self
variable {st₁ st₂ st' : Fs} {d p d' p' : Nat} {ld ld' l' offs : List Nat} {e : Slot} (hw : WellFormed st)
  (ht : Target st f d p ld l) (hshadow : st.image.Shadow st₁.image (f.replace e)) (ho : InOrder st₁)
  (ht' : Target st₁ { f with ent := e } d' p' ld' l') (her : Erased st₁ st₂ ld' { f with ent := e } offs)
  (hdisk : DiskOnly st₂ st') (hfat : st'.fat = freeAll st₁.fat l') (hdata : st'.data = st₂.data)
include hw ht hshadow ho ht' her hdisk hfat hdata

lemma replaced_erased_gone {leaf : CString} (hnames : st.image.Names dst d leaf)
    (hlook : lookup leaf [] (st.image.slots ld) = some f) (halone : Alone (st.image.slots ld) f leaf) :
    ¬ Readable st' dst bs := by
  have hg1 := ho.ready.geometry
  have hspares := her.spares ho.sound hg1 ht' hdisk hfat hdata
  have hnames1 := hshadow.names hw.sound hnames
  have hl1 := hshadow.chain ht.dir ht.dirChain
  obtain ⟨p1, hd1⟩ := ho.sound.dir_of_names hnames1
  have hlook1 : lookup leaf [] (st₁.image.slots ld) = some { f with ent := e } := by
    rw [hshadow.lookup ht.dir ht.dirChain, hlook, Option.map_some, Found.replace_self]
  have hmem1 := (lookup_some hlook1).1
  obtain rfl := ho.sound.dir_chain_eq hg1 ht'.dir ht'.dirChain hd1 hl1 (mem_dirSlots.mp ht'.mem).1
    (mem_dirSlots.mp hmem1).1
  have halone1 : Alone (st₁.image.slots ld') { f with ent := e } leaf := by
    rw [hshadow.slots ht.dir ht.dirChain]
    exact Alone.replace (FatChain.nodup hw.ready.geometry ht.dirChain) ht.mem halone
  have hgone : lookup leaf [] (st'.image.slots ld') = none := by
    rw [Image.slots, show st'.image.vol = st₂.vol from hdisk.vol, show st'.image.data = st₂.data from hdata]
    exact her.lookup_alone (FatChain.nodup hg1 hl1) hlook1 halone1
  have hr' := hspares.disk.ready ho.ready
  have hm' : st'.vol.mounted = true := by
    rw [hspares.disk.vol]
    exact ho.mounted
  obtain ⟨s, hexists⟩ := fsExists_ok hr' hm' (hspares.names ho.sound ht'.file hnames1)
    (hspares.chain hd1 hl1)
  rw [hgone] at hexists
  exact not_readable_of_exists hr' hm' hexists

end Self

section OneEntry
variable {d : Nat} {ld : List Nat} {old leaf : CString} (hfile : direntIsDir f.ent = false)
  (hch : HasChain st.vol st.fat (direntFirstCluster f.ent) l)
  (hbs : bs = fileBytes (clusterBytes st.vol) st.data l (direntFileSize f.ent))
  (hold : st.image.Names src d old) (hnames : st.image.Names dst d leaf) (hl : st.image.ChainAt d ld)
  (hlook' : lookup old [] (st.image.slots ld) = some f)
  (hlook : lookup leaf [] (st.image.slots ld) = some f) (halone : Alone (st.image.slots ld) f leaf)
include hfile hch hbs hold hnames hl hlook' hlook halone

lemma written_self_gone (ho : InOrder st) (hw : WellFormed st)
    (hsize : bs.length + clusterBytes st.vol < 2 ^ 32) {st₁ st₂ st' : Fs}
    (hwrite : fsWriteFile st dst bs = some (true, st₁)) (hheap : HeapOnly st₁ st₂)
    (hdel : fsDelete st₂ src = some (true, st')) : ¬ Readable st' src bs ∧ ¬ Readable st' dst bs := by
  obtain ⟨p, hd⟩ := hw.sound.dir_of_names hnames
  obtain ⟨hmem, hent⟩ := lookup_some hlook
  have ht : Target st f d p ld l := ⟨hd, hl, hmem, hent, hfile, hch⟩
  have hname := lookup_inj (dirSlots_nodup (FatChain.nodup hw.ready.geometry hl)) hlook hlook'
  have halone' : Alone (st.image.slots ld) f old := by
    rw [Alone, ← lookup_name hname]
    exact halone
  have hout := write_outcome hw ⟨⟨d, ld, leaf, hnames, hl, hlook⟩, hfile, hch, hbs⟩ bs false
  rw [fsWriteFile] at hwrite
  rw [hwrite] at hout
  cases hout with
  | @written _ l' first size hlink hrw =>
    have hrw : Rewritten st st₁ f l l' first bs := hrw (by rw [if_neg Bool.false_ne_true]; omega)
    have hlink := hrw.toRelinked
    have ho1 := hlink.inOrder ho ht
    have hsrc : FileAt st src f l bs := ⟨⟨d, ld, old, hold, hl, hlook'⟩, hfile, hch, hbs⟩
    have hsrc1 := hrw.fileAt hw hsrc
    have ho2 := hheap.inOrder ho1
    obtain ⟨d', p', ld', st3, st4, offs, ht', hrun, her, hdisk, hfat, hdata⟩ :=
      delete_erased ho2.ready ho2.mounted ho2.sound ho2.inside (hheap.fileAt hsrc1)
    cases hdel.symm.trans hrun
    have hshadow := hlink.shadow hw.sound ht.dir ht.dirChain ht.mem ht.entry ht.file ht.chain
    rw [← hheap.image] at hshadow
    have hgone := fun {path n} => @replaced_erased_gone st path f l bs _ _ _ _ _ _ _ _ _ _ _ _ hw ht
      hshadow ho2 ht' her hdisk hfat hdata n
    exact ⟨hgone hold hlook' halone', hgone hnames hlook halone⟩

end OneEntry

lemma Stored.move_self (h : Stored st src f l bs) (hw : WellFormed st) (hin : RunsInside st)
    (hheap : HeapOk st.heap) (hne : src ≠ dst) {d : Nat}
    (hnames : st.image.Names dst d leaf) (hl : st.image.ChainAt d ld)
    (hlook : lookup leaf [] (st.image.slots ld) = some f) (halone : Alone (st.image.slots ld) f leaf)
    (hrun : fsMove st src dst = some (true, st')) :
    ¬ Readable st' src bs ∧ ¬ Readable st' dst bs := by
  have hg := hw.ready.geometry
  obtain ⟨p, hd⟩ := hw.sound.dir_of_names hnames
  -- the source names the same entry of the same directory
  obtain ⟨od, lo, old, hold, hlo, hlook'⟩ := h.named
  obtain ⟨op, hod⟩ := hw.sound.dir_of_names hold
  obtain rfl := hw.sound.dir_eq hg hod hlo hd hl (mem_dirSlots.mp (lookup_some hlook').1).1
    (mem_dirSlots.mp (lookup_some hlook).1).1
  obtain rfl := FatChain.unique hg hlo hl
  obtain ⟨st₁, hren, hq⟩ := h.rename_found hw hne hnames hl hlook
  rw [fsMove, hren] at hrun
  dsimp only at hrun
  have hheap1 := hq.heapOnly
  have hw1 := hheap1.wellFormed hw
  have h1 := h.heapOnly hheap1
  have hok1 : HeapOk st₁.heap := by
    rw [hq.diskOnly.heap]
    exact hheap
  by_cases hfits : MallocFits st₁.heap (bs.length + 1)
  swap
  · obtain ⟨st₂, hcopy, -⟩ := @Stored.copy_null _ _ dst _ _ _ h1 hw1 hok1 hfits
    rw [hcopy] at hrun
    cases hrun
  have hsize := h1.size_lt hw1 hok1 hfits
  obtain ⟨st₂, hheap2, hcopy⟩ := @Stored.copy_fits _ _ dst _ _ _ h1 hw1 hok1 hfits
  have hheap2 := hheap1.trans hheap2
  have hw2 := hheap2.wellFormed hw
  have ho2 := hheap2.inOrder (hw.inOrder hin)
  have h2 := h.heapOnly hheap2
  have himg := hheap2.image
  have hfile2 : FileAt st₂ dst f l bs :=
    ⟨⟨od, lo, leaf, himg ▸ hnames, himg ▸ hl, himg ▸ hlook⟩, h.file, h2.chain, h2.contents⟩
  obtain ⟨ok, st3, hwrite, hspares⟩ := write_spares hw2 hfile2 bs false
  obtain ⟨st4, hcopy, hheap4⟩ := hcopy hwrite hspares.disk
  rw [hcopy] at hrun
  cases ok with
  | false => cases hrun
  | true =>
    apply written_self_gone h.file h2.chain h2.contents (himg ▸ hold) (himg ▸ hnames) (himg ▸ hl)
      (himg ▸ hlook') (himg ▸ hlook) (himg ▸ halone) ho2 hw2 _ hwrite hheap4 hrun
    rw [hheap2.vol, ← hheap1.vol]
    exact hsize

lemma Stored.move_hidden (h : Stored st src f l bs) (hw : WellFormed st) (hin : RunsInside st)
    (hne : src ≠ dst) {d : Nat} (hnames : st.image.Names dst d leaf)
    (hl : st.image.ChainAt d ld) (hnone : lookup leaf [] (st.image.slots ld) = none) (h0 : 0 ∉ leaf)
    (hplain : ¬ Plain leaf) (hroom : ¬ Full st ld leaf) :
    ∃ st', fsMove st src dst = some (true, st') ∧ ¬ Readable st' dst bs := by
  obtain ⟨st₁, st', g, od, lo, l₁, m, offs, old, c, i, hren, hre⟩ :=
    h.rename_room hw hne hnames hl hnone hin h0 hroom
  refine ⟨st', by rw [fsMove, hren], ?_⟩
  exact hre.not_readable hw h.file hnames hl hnone hplain

end Lost

lemma oneFile_runsInside : RunsInside oneFile :=
  runsInside_of_checked [(2, 2)] (smallFs_ready _ _) oneFile_checked (by decide +kernel)

lemma oneFile_heapOk : HeapOk oneFile.heap := freshHeap_rep

end FusionOS.Fat
