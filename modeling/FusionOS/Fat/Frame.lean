import FusionOS.Fat.Erase
import FusionOS.Fat.ReadBack

/-!
# What an operation on one file leaves alone

`fs_read_file` depends on the directories on the way to the file, the entry of the file, the
clusters of its chain and the kernel heap.
-/

namespace FusionOS.Fat

/-! ## What a read depends on -/

lemma readHasChain_same {v : Volume} (ptr size : Nat) (data : Nat → Mem) (l : List Nat) (first : Nat) (m : Mem) :
    ∃ m1, ∀ st : Fs, Ready st → st.vol = v → (∀ x ∈ l, st.data x = data x) → st.heap.mem = m →
      HasChain v st.fat first l →
      ∃ st', readChain ptr size chainFuel first 0 st = some (true, st') ∧ HeapMem st st' m1 := by
  have hfuel : chainFuel = 2 ^ 28 - 1 + 1 := by unfold chainFuel; rfl
  by_cases h0 : first = 0
  · refine ⟨m, ?_⟩
    intro st _ _ _ hm _
    refine ⟨st, ?_, hm ▸ HeapMem.refl st⟩
    rw [hfuel, readChain, if_neg (by omega)]
  · by_cases hlen : l.length < chainFuel
    · obtain ⟨m1, hsame⟩ := readChain_same (v := v) ptr size data l first 0 chainFuel hlen m
      refine ⟨m1, ?_⟩
      intro st hr hv hdata hm hch
      exact hsame st hr hv hdata hm (hch.resolve_left fun hz => h0 hz.1).2
    · refine ⟨m, ?_⟩
      intro st hr hv _ _ hch
      have := FatChain.length_lt (hv ▸ hr.geometry) (hch.resolve_left fun hz => h0 hz.1).2
      omega

/-- The return value of `fs_read_file` and the heap it leaves, in which the buffer stands. -/
def readResult (st : Fs) (path : CString) : Option (Option (Nat × Nat) × Memory.Heap) :=
  (fsReadFile st path).map fun r => (r.1, r.2.heap)

lemma fatReadFile_same (v : Volume) (h : Memory.Heap) (data : Nat → Mem) (d : Nat) (name : CString)
    (g : Found) (hg : direntIsDir g.ent = false) (ld l : List Nat) :
    ∃ r, ∀ st : Fs, Ready st → st.vol = v → st.heap = h → FatChain v st.fat d ld →
      lookup name [] (dirSlots v st.data ld) = some g →
      HasChain v st.fat (direntFirstCluster g.ent) l → (∀ x ∈ l, st.data x = data x) →
      (fatReadFile st d name).map (fun r => (r.1, r.2.heap)) = r := by
  have hfile : ¬ direntIsDir g.ent = true := by
    rw [hg]
    decide
  cases hmalloc : Memory.malloc h (u32 (direntFileSize g.ent + 1)) with
  | none =>
    refine ⟨none, ?_⟩
    rintro st hr rfl rfl hd hlook - -
    obtain ⟨st1, hfind, hq⟩ := fatFindEntry_ok hr hd name
    rw [fatReadFile, hfind, hlook]
    dsimp only
    rw [if_neg hfile, hq.diskOnly.heap, hmalloc]
    rfl
  | some r =>
    obtain ⟨ptr, h'⟩ := r
    by_cases hptr : ptr = 0
    · subst hptr
      refine ⟨some (none, h'), ?_⟩
      rintro st hr rfl rfl hd hlook - -
      obtain ⟨st1, hfind, hq⟩ := fatFindEntry_ok hr hd name
      rw [hlook] at hfind
      rw [← hq.diskOnly.heap] at hmalloc
      rw [fatReadFile_null hfind hg hmalloc]
      rfl
    -- the chain is read to a memory that the chain and the heap determine
    obtain ⟨m1, hchain⟩ := readHasChain_same (v := v) ptr (direntFileSize g.ent) data l
      (direntFirstCluster g.ent) h'.mem
    refine ⟨some (some (ptr, direntFileSize g.ent),
      { h' with mem := Function.update m1 (ptr + direntFileSize g.ent) 0 }), ?_⟩
    rintro st hr rfl rfl hd hlook hch hdata
    obtain ⟨st1, hfind, hq⟩ := fatFindEntry_ok hr hd name
    have hr1 := hq.ready hr
    obtain ⟨st2, hrun, b, n, rfl⟩ := hchain { st1 with heap := h' } ⟨hr1.geometry, hr1.io⟩ hq.vol
      (fun x hx => (congrFun hq.data x).trans (hdata x hx)) rfl (hq.fat.symm ▸ hch)
    rw [hlook] at hfind
    rw [← hq.diskOnly.heap] at hmalloc
    rw [fatReadFile_read hfind hg hmalloc hptr hrun]
    rfl

/-! ## Operations on another file -/

/-- Every directory and every file but the one with the entry `f` is as it was. -/
structure Spares (st st' : Fs) (f : Found) : Prop where
  disk : DiskOnly st st'
  chain : ∀ {d p l}, st.image.Dir d p → st.image.ChainAt d l → st'.image.ChainAt d l
  lookup : ∀ {d p l name}, st.image.Dir d p → st.image.ChainAt d l →
    Fat.lookup name [] (st.image.slots l) ≠ some f →
    Fat.lookup name [] (st'.image.slots l) = Fat.lookup name [] (st.image.slots l)
  file : ∀ {g l}, st.image.Entry g → g ≠ f → direntIsDir g.ent = false →
    st.image.ChainAt (direntFirstCluster g.ent) l → ∀ x ∈ l, st'.fat x = st.fat x ∧ st'.data x = st.data x

section Spared
variable {st st' : Fs} {f : Found}

variable {leaf path : CString}

lemma Spares.resolves (h : Spares st st' f) (hs : st.image.Sound) (hdir : direntIsDir f.ent = false)
    {d d' p : Nat} (hd : st.image.Dir d p)
    (hp : st.image.Resolves d path d' leaf) : st'.image.Resolves d path d' leaf := by
  apply hs.resolves_kept _ hd hp
  intro d p l name g hd hl hlook hgdir
  refine ⟨l, h.chain hd hl, (h.lookup hd hl ?_).trans hlook⟩
  rw [hlook]
  rintro ⟨⟩
  rw [hdir] at hgdir
  cases hgdir

lemma Spares.names (h : Spares st st' f) (hs : st.image.Sound) (hdir : direntIsDir f.ent = false)
    {d : Nat} (hp : st.image.Names path d leaf) :
    st'.image.Names path d leaf := by
  refine ⟨hp.1, hp.2.1, ?_⟩
  have hroot : st'.image.vol.rootCluster = st.image.vol.rootCluster :=
    congrArg Volume.rootCluster h.disk.vol
  rw [hroot]
  exact h.resolves hs hdir .root hp.2.2

lemma Spares.read (h : Spares st st' f) (hw : WellFormed st) (hdir : direntIsDir f.ent = false)
    {g : Found} {l : List Nat} {bs : List UInt8} (hfile : FileAt st path g l bs)
    (hne : g ≠ f) : readResult st' path = readResult st path := by
  obtain ⟨d, ld, leaf, hnames, hl, hlook⟩ := hfile.named
  obtain ⟨hg, he⟩ := lookup_some hlook
  obtain ⟨p, hd⟩ := hw.sound.dir_of_names hnames
  have hentry := hw.sound.entry_of_file hd hl hg he hfile.file
  have hlook' : Fat.lookup leaf [] (st'.image.slots ld) = some g := by
    rw [h.lookup hd hl (by rw [hlook]; simpa using hne), hlook]
  have hkeep : ∀ x ∈ l, st'.fat x = st.fat x ∧ st'.data x = st.data x := by
    rcases hfile.chain with ⟨-, rfl⟩ | ⟨-, hch⟩
    · intro x hx
      cases hx
    · exact h.file hentry hne hfile.file hch
  have hch' : HasChain st.vol st'.fat (direntFirstCluster g.ent) l := by
    rcases hfile.chain with h0 | ⟨h0, hch⟩
    · exact .inl h0
    · exact .inr ⟨h0, Chain.congr hch fun x hx => (hkeep x hx).1⟩
  have hr' := h.disk.ready hw.ready
  have hm' : st'.vol.mounted = true := by
    rw [h.disk.vol]
    exact hw.mounted
  obtain ⟨st1, hwith, b, n, rfl⟩ := withLeaf_ok none fatReadFile hw.ready hw.mounted hnames
  obtain ⟨st2, hwith', b', n', rfl⟩ := withLeaf_ok none fatReadFile hr' hm'
    (h.names hw.sound hdir hnames)
  obtain ⟨r, hsame⟩ := fatReadFile_same st.vol st.heap st.data d leaf g hfile.file ld l
  have h1 := hsame { st with sectorBuf := b, ops := n } ⟨hw.ready.geometry, hw.ready.io⟩ rfl rfl hl
    hlook hfile.chain fun x _ => rfl
  have h2 := hsame { st' with sectorBuf := b', ops := n' } ⟨hr'.geometry, hr'.io⟩ h.disk.vol
    h.disk.heap (h.disk.vol ▸ h.chain hd hl) (h.disk.vol ▸ hlook') hch' fun x hx => (hkeep x hx).2
  unfold readResult fsReadFile
  rw [hwith, hwith', h1, h2]

end Spared

/-- What an operation on the file `f` of the directory `d` works on: the chain `l` of the file. -/
structure Target (st : Fs) (f : Found) (d p : Nat) (ld l : List Nat) : Prop where
  dir : st.image.Dir d p
  dirChain : st.image.ChainAt d ld
  mem : f ∈ st.image.slots ld
  entry : IsEntry f.ent
  file : direntIsDir f.ent = false
  chain : HasChain st.vol st.fat (direntFirstCluster f.ent) l

section Targets
variable {st st' : Fs} {f : Found} {d p : Nat} {ld l : List Nat}

variable {path : CString} {l' : List Nat} {bs : List UInt8} {x : Nat}

lemma FileAt.target (h : FileAt st path f l bs)
    (hs : st.image.Sound) : ∃ d p ld, Target st f d p ld l := by
  obtain ⟨d, ld, leaf, hnames, hl, hlook⟩ := h.named
  obtain ⟨hf, he⟩ := lookup_some hlook
  obtain ⟨p, hd⟩ := hs.dir_of_names hnames
  exact ⟨d, p, ld, hd, hl, hf, he, h.file, h.chain⟩

lemma FileAt.size_le (h : FileAt st path f l bs)
    (hw : WellFormed st) : direntFileSize f.ent ≤ l.length * clusterBytes st.vol := by
  obtain ⟨d, p, ld, ht⟩ := h.target hw.sound
  exact hw.sized (hw.sound.entry_of_file ht.dir ht.dirChain ht.mem ht.entry h.file) h.file h.chain

lemma Target.dir_outside (h : Target st f d p ld l) (hs : st.image.Sound) {d' p' : Nat}
    (hd : st.image.Dir d' p') (hl : st.image.ChainAt d' l') (hx : x ∈ l') :
    x ∉ l ∧ st.fat x ≠ 0 := by
  refine ⟨fun hm => ?_, FatChain.fat_ne_zero hl hx⟩
  rcases h.chain with ⟨-, rfl⟩ | ⟨-, hch⟩
  · cases hm
  · exact hs.file_dir_disjoint (hs.entry_of_file h.dir h.dirChain h.mem h.entry h.file) h.file hch hd hl
      hm hx

lemma Target.file_outside (h : Target st f d p ld l) (hs : st.image.Sound) {g : Found}
    (hg : st.image.Entry g) (hne : g ≠ f) (hgdir : direntIsDir g.ent = false)
    (hl : st.image.ChainAt (direntFirstCluster g.ent) l') (hx : x ∈ l') :
    (x ∉ l ∧ st.fat x ≠ 0) ∧ x ≠ f.cluster := by
  refine ⟨⟨fun hm => ?_, FatChain.fat_ne_zero hl hx⟩, ?_⟩
  · rcases h.chain with ⟨-, rfl⟩ | ⟨-, hch⟩
    · cases hm
    · exact hne (hs.disjoint hg (hs.entry_of_file h.dir h.dirChain h.mem h.entry h.file) hl hch hx hm)
  · rintro rfl
    exact hs.file_dir_disjoint hg hgdir hl h.dir h.dirChain hx (mem_dirSlots.mp h.mem).1

lemma mem_takenClusters {v : Volume} {fat : Nat → Nat} {append : Bool}
    (h : x ∈ takenClusters v fat l append) : x ∈ l ∨ fat x = 0 := by
  unfold takenClusters at h
  cases append with
  | true =>
    rcases List.mem_append.mp h with h | h
    · exact .inl h
    · exact .inr (mem_freeClusters.mp h).2
  | false =>
    have h0 := (mem_freeClusters.mp h).2
    unfold freeAll at h0
    split at h0
    · next hm => exact .inl hm
    · exact .inr h0

lemma Relinked.spares {first size : Nat} (h : Relinked st st' f l l' first size)
    (hs : st.image.Sound) (ht : Target st f d p ld l) : Spares st st' f := by
  have hshadow := h.shadow hs ht.dir ht.dirChain ht.mem ht.entry ht.file ht.chain
  have hout : ∀ x, x ∉ l ∧ st.fat x ≠ 0 → x ∉ l' := by
    rintro x ⟨hx, h0⟩ hx'
    rcases h.fresh x hx' with hm | hfree
    · exact hx hm
    · exact h0 (mem_freeClusters.mp hfree).2
  refine ⟨h.disk, hshadow.chain, ?_, ?_⟩
  · intro d' p' l' name hd hl hne
    rw [hshadow.lookup hd hl]
    cases hlook : Fat.lookup name [] (st.image.slots l') with
    | none => rfl
    | some g =>
      rw [hlook] at hne
      rw [Option.map_some, Found.replace, if_neg]
      rintro ⟨hc, ho⟩
      exact hne (congrArg some (found_ext (lookup_some hlook).1 ht.mem hc ho))
  · intro g lg hg hne hgdir hl x hx
    obtain ⟨hx', hc⟩ := ht.file_outside hs hg hne hgdir hl hx
    exact ⟨h.fat x hx'.1 (hout x hx'), h.other x (hout x hx') hc⟩

lemma Stranded.spares {append : Bool}
    (h : Stranded st st' l (takenClusters st.vol st.fat l append)) (hs : st.image.Sound)
    (ht : Target st f d p ld l) : Spares st st' f := by
  have hfat : ∀ x, x ∉ l ∧ st.fat x ≠ 0 → st'.fat x = st.fat x := by
    rintro x ⟨hx, h0⟩
    rw [h.fat x fun hm => (mem_takenClusters hm).elim hx h0, freeAll, if_neg hx]
  refine ⟨h.disk, ?_, ?_, ?_⟩
  · intro d' p' l' hd hl
    have hvol : st'.image.vol = st.image.vol := h.disk.vol
    rw [Image.ChainAt, hvol]
    exact Chain.congr hl fun x hx => hfat x (ht.dir_outside hs hd hl hx)
  · intro d' p' l' name _ _ _
    rw [Image.slots, Image.slots, show st'.image.vol = st.image.vol from h.disk.vol,
      show st'.image.data = st.image.data from h.data]
  · intro g lg hg hne hgdir hl x hx
    exact ⟨hfat x (ht.file_outside hs hg hne hgdir hl hx).1, by rw [h.data]⟩

lemma Erased.spares {st1 : Fs} {offs : List Nat} (h : Erased st st1 ld f offs) (hs : st.image.Sound)
    (hg : Geometry st.vol) (ht : Target st f d p ld l) (hd : DiskOnly st1 st')
    (hfat : st'.fat = freeAll st.fat l)
    (hdata : st'.data = st1.data) : Spares st st' f := by
  have hdisk := h.disk.trans hd
  have hkeep : ∀ x, x ∉ l → st'.fat x = st.fat x := by
    intro x hx
    rw [hfat, freeAll, if_neg hx]
  have hother : ∀ x, x ≠ f.cluster → st'.data x = st.data x := by
    intro x hx
    rw [hdata, h.data, eraseAt, Function.update_of_ne hx]
  have hvol : st'.image.vol = st.image.vol := hdisk.vol
  refine ⟨hdisk, ?_, ?_, ?_⟩
  · intro d' p' l' hd' hl'
    rw [Image.ChainAt, hvol]
    exact Chain.congr hl' fun x hx => hkeep x (ht.dir_outside hs hd' hl' hx).1
  · intro d' p' l' name hd' hl' hne
    by_cases hc : f.cluster ∈ l'
    · obtain rfl := hs.dir_chain_eq hg ht.dir ht.dirChain hd' hl' (mem_dirSlots.mp ht.mem).1 hc
      have := h.lookup (FatChain.nodup hg ht.dirChain) hne
      rw [Image.slots, hvol, show st'.image.data = st1.data from hdata]
      rwa [h.disk.vol] at this
    · rw [Image.slots, hvol]
      congr 1
      apply dirSlots_congr
      intro c hcl
      apply hother
      rintro rfl
      exact hc hcl
  · intro g lg hg' hne hgdir hl x hx
    obtain ⟨hx', hc⟩ := ht.file_outside hs hg' hne hgdir hl hx
    exact ⟨hkeep x hx'.1, hother x hc⟩

end Targets

/-! ## The operations -/

/-- No long name of the volume crosses the end of a cluster. -/
def RunsInside (st : Fs) : Prop :=
  ∀ {d p l}, st.image.Dir d p → st.image.ChainAt d l → Uncrossed st.vol st.data l

section Operations
variable {st : Fs} {path : CString} {f : Found} {l : List Nat} {old : List UInt8}

variable {leaf : CString}

lemma write_spares (hw : WellFormed st) (hfile : FileAt st path f l old) (data : List UInt8)
    (append : Bool) :
    ∃ ok st', withLeaf st false path (fun st dir name => fatWriteFile st dir name data append) =
      some (ok, st') ∧ Spares st st' f := by
  obtain ⟨d, p, ld, ht⟩ := hfile.target hw.sound
  have hout := write_outcome hw hfile data append
  generalize withLeaf st false path (fun st dir name => fatWriteFile st dir name data append) = r at hout
  cases hout with
  | written hlink _ => exact ⟨true, _, rfl, hlink.spares hw.sound ht⟩
  | stranded h => exact ⟨false, _, rfl, h.spares hw.sound ht⟩

lemma Image.Names.ne_root {I : Image} {d : Nat} (h : I.Names path d leaf) :
    path ≠ rootPath := by
  rintro rfl
  exact h.2.2.ne_nil rfl

/-- `fs_delete` behind the test for an empty directory. -/
def removeFound (st : Fs) (dir : Nat) (name : CString) (start : Nat) : Option (Bool × Fs) :=
  (fatDeleteEntry st dir name).bind fun r =>
    if r.1 then
      if start ≠ 0 then (fatFreeChain r.2 start).map fun s => (true, s.2) else some (true, r.2)
    else some (false, r.2)

lemma deleteFound_eq (st : Fs) (dir : Nat) (name : CString) (f : Found) :
    deleteFound st dir name f =
      (if direntIsDir f.ent then
        if direntFirstCluster f.ent = 0 then some (false, st)
        else fatDirIsEmpty st (direntFirstCluster f.ent)
      else some (true, st)).bind fun r =>
        if r.1 then removeFound r.2 dir name (direntFirstCluster f.ent) else some (false, r.2) := by
  unfold deleteFound removeFound
  dsimp only
  generalize (if direntIsDir f.ent = true then _ else _) = checked
  rcases checked with _ | ⟨_ | _, s⟩
  · rfl
  · rfl
  · rw [Option.bind_some, if_pos rfl]
    dsimp only
    rcases fatDeleteEntry s dir name with _ | ⟨_ | _, s'⟩
    · rfl
    · rfl
    · rw [Option.bind_some, if_pos rfl]

lemma deleteFound_cases (st : Fs) (dir : Nat) (name : CString) (f : Found) :
    (direntIsDir f.ent = false ∧
      deleteFound st dir name f = removeFound st dir name (direntFirstCluster f.ent)) ∨
    (direntIsDir f.ent = true ∧ direntFirstCluster f.ent = 0 ∧
      deleteFound st dir name f = some (false, st)) ∨
    (direntIsDir f.ent = true ∧ direntFirstCluster f.ent ≠ 0 ∧
      deleteFound st dir name f = (fatDirIsEmpty st (direntFirstCluster f.ent)).bind fun r =>
        if r.1 then removeFound r.2 dir name (direntFirstCluster f.ent) else some (false, r.2)) := by
  rw [deleteFound_eq]
  cases hdir : direntIsDir f.ent with
  | false =>
    left
    rw [if_neg Bool.false_ne_true, Option.bind_some, if_pos rfl]
    exact ⟨rfl, rfl⟩
  | true =>
    right
    rw [if_pos rfl]
    by_cases h0 : direntFirstCluster f.ent = 0
    · left
      rw [if_pos h0, Option.bind_some, if_neg Bool.false_ne_true]
      exact ⟨rfl, h0, rfl⟩
    · right
      rw [if_neg h0]
      exact ⟨rfl, h0, rfl⟩

lemma fsDelete_found (hr : Ready st) (hm : st.vol.mounted = true) {d : Nat} {ld : List Nat}
    (hnames : st.image.Names path d leaf) (hl : st.image.ChainAt d ld)
    (hlook : lookup leaf [] (st.image.slots ld) = some f) :
    ∃ st1, fsDelete st path = deleteFound st1 d leaf f ∧ Quiet st st1 := by
  rw [fsDelete, if_neg (not_or.mpr ⟨hnames.1, hnames.ne_root⟩)]
  generalize hk : (fun (st : Fs) (dir : Nat) (name : CString) => _) = k
  obtain ⟨st1, st2, hwith, -, hfind, hq⟩ := withLeaf_find false k hr hm (.inl hnames) hl
  refine ⟨st2, ?_, hq⟩
  rw [hwith, ← hk]
  dsimp only
  rw [hfind, hlook]

lemma removeFound_ok {st0 : Fs} (hr : Ready st) (hq : Quiet st st0) {d : Nat} {ld : List Nat}
    (hl : st.image.ChainAt d ld) (hcross : Uncrossed st.vol st.data ld)
    (hlook : lookup leaf [] (st.image.slots ld) = some f)
    (hch : HasChain st.vol st.fat (direntFirstCluster f.ent) l) :
    ∃ st1 st' offs, removeFound st0 d leaf (direntFirstCluster f.ent) = some (true, st') ∧
      Erased st st1 ld f offs ∧ DiskOnly st1 st' ∧ st'.fat = freeAll st.fat l ∧ st'.data = st1.data := by
  obtain ⟨b, n, rfl⟩ := hq
  have hr0 : Ready { st with sectorBuf := b, ops := n } := ⟨hr.geometry, hr.io⟩
  obtain ⟨st1, offs, hdel, her⟩ := fatDeleteEntry_ok hr0 hl hcross hlook
  have hentry : Erased st st1 ld f offs :=
    ⟨DiskOnly.trans ⟨_, _, _, rfl⟩ her.disk, her.fat, her.data, her.entry, her.split⟩
  rw [removeFound, hdel, Option.bind_some, if_pos rfl]
  rcases hch with ⟨h0, rfl⟩ | ⟨h0, hch⟩
  · rw [if_neg (not_not.mpr h0)]
    refine ⟨st1, st1, offs, rfl, hentry, DiskOnly.refl _, ?_, rfl⟩
    rw [hentry.fat]
    funext x
    rw [freeAll, if_neg List.not_mem_nil]
  · have hch1 : FatChain st1.vol st1.fat (direntFirstCluster f.ent) l := by
      rw [hentry.disk.vol, hentry.fat]
      exact hch
    obtain ⟨st', hfree, hd, hfat, hdata⟩ := fatFreeChain_ok (hentry.disk.ready hr) hch1
    rw [if_pos h0, hfree]
    exact ⟨st1, st', offs, rfl, hentry, hd.disk, by rw [hfat, hentry.fat], hdata⟩

lemma delete_erased (hr : Ready st) (hm : st.vol.mounted = true) (hs : st.image.Sound)
    (hcross : RunsInside st) (hfile : FileAt st path f l old) :
    ∃ d p ld st1 st' offs, Target st f d p ld l ∧ fsDelete st path = some (true, st') ∧
      Erased st st1 ld f offs ∧ DiskOnly st1 st' ∧ st'.fat = freeAll st.fat l ∧
      st'.data = st1.data := by
  obtain ⟨d, ld, leaf, hnames, hl, hlook⟩ := hfile.named
  obtain ⟨hf, he⟩ := lookup_some hlook
  obtain ⟨p, hd⟩ := hs.dir_of_names hnames
  obtain ⟨st0, hrun, hq⟩ := fsDelete_found hr hm hnames hl hlook
  obtain ⟨st1, st', offs, hrem, her⟩ := removeFound_ok hr hq hl (hcross hd hl) hlook hfile.chain
  refine ⟨d, p, ld, st1, st', offs, ⟨hd, hl, hf, he, hfile.file, hfile.chain⟩, ?_, her⟩
  rcases deleteFound_cases st0 d leaf f with ⟨-, heq⟩ | ⟨hdir, -⟩ | ⟨hdir, -⟩
  · rw [hrun, heq, hrem]
  · rw [hfile.file] at hdir
    cases hdir
  · rw [hfile.file] at hdir
    cases hdir

/-- A file keeps what `fs_read_file` returns for it when another file is written, appended to or
deleted, whether or not the call succeeds. -/
theorem other_file_kept (st : Fs) (hw : WellFormed st) (hcross : RunsInside st) (p q : CString)
    (f g : Found) (l lg : List Nat) (old bs data : List UInt8) (hp : FileAt st p f l old)
    (hq : FileAt st q g lg bs) (hne : g ≠ f) :
    (∃ ok st', fsWriteFile st p data = some (ok, st') ∧ readResult st' q = readResult st q) ∧
    (∃ ok st', fsAppendFile st p data = some (ok, st') ∧ readResult st' q = readResult st q) ∧
    ∃ ok st', fsDelete st p = some (ok, st') ∧ readResult st' q = readResult st q := by
  refine ⟨?_, ?_, ?_⟩
  · obtain ⟨ok, st', hrun, hspares⟩ := write_spares hw hp data false
    exact ⟨ok, st', hrun, hspares.read hw hp.file hq hne⟩
  · obtain ⟨ok, st', hrun, hspares⟩ := write_spares hw hp data true
    exact ⟨ok, st', hrun, hspares.read hw hp.file hq hne⟩
  · obtain ⟨d, p', ld, st₁, st', offs, ht, hrun, herased, hd, hfat, hdata⟩ :=
      delete_erased hw.ready hw.mounted hw.sound hcross hp
    exact ⟨true, st', hrun, (herased.spares hw.sound hw.ready.geometry ht hd hfat hdata).read hw hp.file hq hne⟩

end Operations

instance (v : Volume) (data : Nat → Mem) (l : List Nat) : Decidable (Uncrossed v data l) :=
  inferInstanceAs (Decidable (∀ c ∈ l, ∀ x ∈ (clusterSlots v data c).getLast?, ¬ IsLfn x.ent))

lemma runsInside_of_checked {st : Fs} (dirs : List (Nat × Nat)) (hr : Ready st)
    (h : st.image.Checked dirs)
    (hin : ∀ x ∈ dirs, Uncrossed st.vol st.data (st.image.chainOf x.1)) : RunsInside st := by
  intro d p l hd hl
  have hmem := h.dir hr.geometry hd
  rw [FatChain.unique hr.geometry hl (h.chains _ hmem).1]
  exact hin _ hmem

/-- A volume with the files `A` and `B` in its root directory. -/
def twoFiles : Fs :=
  smallFs [(2, 0x0FFFFFFF), (3, 0x0FFFFFFF), (4, 0x0FFFFFFF)]
    [(2, slotOf [65] 0x20 3 2 ++ slotOf [66] 0x20 4 1), (3, [7, 8]), (4, [9])]

lemma twoFiles_checked : twoFiles.image.Checked [(2, 2)] := by decide +kernel

lemma twoFiles_wellFormed : WellFormed twoFiles :=
  wellFormed_of_checked [(2, 2)] (smallFs_ready _ _) rfl twoFiles_checked

lemma twoFiles_runsInside : RunsInside twoFiles :=
  runsInside_of_checked [(2, 2)] (smallFs_ready _ _) twoFiles_checked (by decide +kernel)

lemma twoFiles_first : FileAt twoFiles [0x2F, 97] ⟨slotOf [65] 0x20 3 2, 2, 0⟩ [3] [7, 8] where
  named := ⟨2, [2], [97], ⟨by decide, by decide, .leaf (by decide) (by decide)⟩, by decide +kernel,
    by decide +kernel⟩
  file := by decide +kernel
  chain := .inr ⟨by decide +kernel, by decide +kernel⟩
  contents := by decide +kernel

lemma twoFiles_second : FileAt twoFiles [0x2F, 98] ⟨slotOf [66] 0x20 4 1, 2, 32⟩ [4] [9] where
  named := ⟨2, [2], [98], ⟨by decide, by decide, .leaf (by decide) (by decide)⟩, by decide +kernel,
    by decide +kernel⟩
  file := by decide +kernel
  chain := .inr ⟨by decide +kernel, by decide +kernel⟩
  contents := by decide +kernel

theorem other_file_kept_twoFiles :
    WellFormed twoFiles ∧ RunsInside twoFiles ∧ ∃ ok st', fsDelete twoFiles [0x2F, 97] = some (ok, st') ∧
      readResult st' [0x2F, 98] = readResult twoFiles [0x2F, 98] :=
  ⟨twoFiles_wellFormed, twoFiles_runsInside,
    (other_file_kept twoFiles twoFiles_wellFormed twoFiles_runsInside [0x2F, 97] [0x2F, 98] _ _ [3] [4]
      [7, 8] [9] [] twoFiles_first twoFiles_second (by decide +kernel)).2.2⟩

end FusionOS.Fat
