import FusionOS.Kernel.HeapSizes
import FusionOS.Fat.Attach

/-!
# New files and directories

What `fs_write_file` and `fs_mkdir` leave under a name that the directory did not have.
-/

namespace FusionOS.Fat

open List
open Function (update update_of_ne update_self)

section NewDirent
variable (name : CString) (attr : UInt8)

lemma newDirent_getD {j : Nat} (hj : 12 ≤ j) : (newDirent (nameToShort name) attr).getD j 0 = 0 := by
  obtain ⟨k, rfl⟩ : ∃ k, j = 12 + k := ⟨j - 12, by omega⟩
  rw [newDirent, getD_append_right _ _ _ _ (by rw [nameToShort_length]; omega), nameToShort_length,
    show 12 + k - 11 = k + 1 by omega, getD_cons_succ, getD_eq_getElem?_getD,
    List.getElem?_replicate]
  split <;> rfl

lemma newDirent_firstCluster : direntFirstCluster (newDirent (nameToShort name) attr) = 0 := by
  simp only [direntFirstCluster, le16At]
  rw [newDirent_getD _ _ (by omega), newDirent_getD _ _ (by omega), newDirent_getD _ _ (by omega),
    newDirent_getD _ _ (by omega)]
  rfl

lemma newDirent_fileSize : direntFileSize (newDirent (nameToShort name) attr) = 0 := by
  simp only [direntFileSize, le32At, le16At]
  rw [newDirent_getD _ _ (by omega), newDirent_getD _ _ (by omega), newDirent_getD _ _ (by omega),
    newDirent_getD _ _ (by omega)]
  rfl

def newSlot (first size : Nat) : Slot :=
  direntSetFileSize (direntSetFirstCluster (newDirent (nameToShort name) attr) first) size

lemma newSlot_length (first size : Nat) : (newSlot name attr first size).length = 32 := by
  rw [newSlot, setFields_length]
  exact newDirent_length name attr

lemma newSlot_alike (first size : Nat) :
    Alike (newDirent (nameToShort name) attr) (newSlot name attr first size) := take_setFields _ _

lemma fileSize_lt (e : Slot) : direntFileSize e < 2 ^ 32 := by
  have hbyte : ∀ i, (e.getD i 0).toNat < 256 := fun i => (e.getD i 0).toNat_lt
  have := hbyte 28
  have := hbyte (28 + 1)
  have := hbyte (28 + 2)
  have := hbyte (28 + 2 + 1)
  simp only [direntFileSize, le32At, le16At]
  omega

lemma newSlot_firstCluster {first : Nat} (h : first < 2 ^ 32) (size : Nat) :
    direntFirstCluster (newSlot name attr first size) = first := by
  have h32 : (newDirent (nameToShort name) attr).length = 32 := newDirent_length name attr
  rw [newSlot, firstCluster_setFileSize (by simp [direntSetFirstCluster, h32]),
    firstCluster_setFirstCluster h32 h]

lemma newSlot_fileSize (first : Nat) {size : Nat} (h : size < 2 ^ 32) :
    direntFileSize (newSlot name attr first size) = size := by
  have h32 : (newDirent (nameToShort name) attr).length = 32 := newDirent_length name attr
  rw [newSlot, fileSize_setFileSize (by simp [direntSetFirstCluster, h32]) h]

end NewDirent

/-! ## Writing to a new name -/

/-- What `fat_write_file` on a name that the directory does not have can end in. -/
inductive NewFile (st : Fs) (d : Nat) (ld : List Nat) (name : CString) (xs : List UInt8) :
    Option (Bool × Fs) → Prop where
  | full {st' : Fs} : Quiet st st' → NewFile st d ld name xs (some (false, st'))
  | stranded {st' : Fs} {l₁ l' : List Nat} {c i : Nat} {e : Slot} :
      entrySlots name 0x20 = installed name 0x20 e → Attached st st' d ld l₁ name 0x20 c i e l' →
      NewFile st d ld name xs (some (false, st'))
  | written {st' : Fs} {l₁ l' : List Nat} {c i first size : Nat} :
      Attached st st' d ld l₁ name 0x20 c i (newSlot name 0x20 first size) l' →
      (first = 0 ∧ l' = [] ∨ FatChain st.vol st'.fat first l') → first < 2 ^ 28 →
      (xs.length + clusterBytes st.vol < 2 ^ 32 →
        Attached st st' d ld l₁ name 0x20 c i (newSlot name 0x20 first xs.length) l' ∧
        xs.length ≤ l'.length * clusterBytes st.vol ∧
        fileBytes (clusterBytes st.vol) st'.data l' xs.length = xs) →
      l'.length = writtenClusters st.vol (u32 xs.length) → Spilled st ld name l₁ →
      NewFile st d ld name xs (some (true, st'))

section Writing
variable {st : Fs} {d : Nat} {ld : List Nat} {name : CString}

variable {path : CString} {l' l₁ : List Nat} {c i : Nat}

lemma Relinked.attached {st1 st2 st' : Fs} {first size : Nat}
    (hg : Grown st st1 d ld l₁) (hp : Placed st1 st2 l₁ name 0x20 c i)
    (h : Relinked st2 st' ⟨newDirent (nameToShort name) 0x20, c, 32 * i⟩ [] l' first size) :
    Attached st st' d ld l₁ name 0x20 c i (newSlot name 0x20 first size) l' := by
  apply attached_of hg hp h.disk (newSlot_length _ _ _ _)
  · exact fun x hx => h.fat x not_mem_nil hx
  · exact fun x hx => (h.fresh x hx).resolve_left not_mem_nil
  · exact h.entry
  · exact h.other

lemma fatWriteFile_new (hr : Ready st) (hl : FatChain st.vol st.fat d ld) (hname : name.length < 64)
    (hnone : lookup name [] (dirSlots st.vol st.data ld) = none) (xs : List UInt8) (append : Bool) :
    NewFile st d ld name xs (fatWriteFile st d name xs append) := by
  obtain ⟨st0, hfind, b, n, rfl⟩ := fatFindEntry_ok hr hl name
  rw [hnone] at hfind
  have hr0 : Ready { st with sectorBuf := b, ops := n } := ⟨hr.geometry, hr.io⟩
  have hcreate := fatCreateEntry_ok hr0 hl 0x20 hname
  rw [fatWriteFile, hfind]
  dsimp only
  generalize fatCreateEntry { st with sectorBuf := b, ops := n } d name 0x20 = r at hcreate
  cases hcreate with
  | full hq => exact .full (Quiet.trans ⟨_, _, rfl⟩ hq)
  | @created st1 st2 l₁ c i hgrown hplaced hspill =>
    dsimp only
    have hg : Grown st st1 d ld l₁ :=
      ⟨DiskOnly.trans ⟨_, _, _, rfl⟩ hgrown.disk, hgrown.chain, hgrown.fresh, hgrown.fat, hgrown.data,
        hgrown.slots⟩
    have hr1 := hg.disk.ready hr
    have hr2 := hplaced.disk.ready hr1
    have hvol2 : st2.vol = st.vol := hplaced.disk.vol.trans hg.disk.vol
    have hplace : Place st2.vol c (32 * i) := by
      rw [hplaced.disk.vol]
      exact hplaced.place
    have hused : st2.fat c ≠ 0 := by
      rw [hplaced.fat]
      exact FatChain.fat_ne_zero hg.chain hplaced.mem
    have h32 : (newDirent (nameToShort name) 0x20).length = 32 := newDirent_length name 0x20
    have hfile : direntIsDir (newDirent (nameToShort name) 0x20) = false := by
      rw [direntIsDir, newDirent_attr]
      decide
    have hout := fatWriteEntry_outcome (f := ⟨newDirent (nameToShort name) 0x20, c, 32 * i⟩) xs hr2 hplace
      h32 hfile (l := []) (.inl ⟨newDirent_firstCluster _ _, rfl⟩) not_mem_nil hused append
    generalize fatWriteEntry st2 _ xs append = r at hout
    cases hout with
    | @written st' l' first size hlink hrw hanew =>
      rw [hvol2] at hanew
      refine .written (hlink.attached hg hplaced) ?_ hlink.first_lt ?_
        (hanew fun h => h.2 (newDirent_firstCluster _ _)).1 hspill
      · rw [← hvol2]
        exact hlink.chain
      · intro hb
        obtain ⟨hlink', hroom, hbytes⟩ := hrw (by
          rw [newDirent_fileSize, hvol2, ite_self, Nat.zero_add]
          exact ⟨Nat.zero_le _, hb⟩)
        rw [newDirent_fileSize] at hroom hbytes hlink'
        have hbs : (if append then fileBytes (clusterBytes st2.vol) st2.data [] 0 ++ xs else xs) = xs := by
          cases append <;> rfl
        rw [hbs, hvol2] at hroom hbytes
        rw [hbs] at hlink'
        exact ⟨hlink'.attached hg hplaced, hroom, hbytes⟩
    | @stranded st' hstr =>
      have hfresh : ∀ x ∈ takenClusters st2.vol st2.fat [] append, x ∈ freeClusters st2.vol st2.fat := by
        intro x hx
        cases append with
        | true => exact hx
        | false =>
          have := mem_freeClusters.mp hx
          rw [freeAll, if_neg not_mem_nil] at this
          exact mem_freeClusters.mpr this
      obtain ⟨e, he, heq⟩ := entrySlots_cons name 0x20
      apply NewFile.stranded heq (attached_of hg hplaced hstr.disk he _ hfresh _ _)
      · intro x hx
        rw [hstr.fat x hx, freeAll, if_neg not_mem_nil]
      · -- the first slot is as it would be if it were written once more
        rw [hstr.data, hplaced.data, placeData, update_self, heq, flatten_cons,
          splice_overwrite _ _ _ rfl]
      · intro x _ _
        rw [hstr.data]

/-! ## Making a directory under a new name -/

/-- The bytes of a new directory: `.` and `..` at the start of every sector. -/
def dotCluster (v : Volume) (cluster parent : Nat) : Mem :=
  fun k => if k < clusterBytes v then dotSector cluster parent (k % 512) else 0

/-- What `fs_mkdir` on a name that the directory does not have can end in. -/
inductive NewDir (st : Fs) (d : Nat) (ld : List Nat) (name : CString) : Option (Bool × Fs) → Prop where
  | failed {st' : Fs} : DiskOnly st st' → NewDir st d ld name (some (false, st'))
  | made {st' : Fs} {l₁ : List Nat} {c i new : Nat} :
      Attached st st' d ld l₁ name 0x10 c i (newSlot name 0x10 new 0) [new] →
      st'.fat new = 0x0FFFFFFF → st'.data new = dotCluster st.vol new d →
      NewDir st d ld name (some (true, st'))

lemma makeDir_new {st1 st2 : Fs} (hr : Ready st)
    (hg : Grown st st1 d ld l₁) (hp : Placed st1 st2 l₁ name 0x10 c i) :
    NewDir st d ld name (makeDir st2 ⟨newDirent (nameToShort name) 0x10, c, 32 * i⟩ d) := by
  have hr2 := hp.disk.ready (hg.disk.ready hr)
  have hvol2 : st2.vol = st.vol := hp.disk.vol.trans hg.disk.vol
  unfold makeDir
  cases hfree : freeClusters st2.vol st2.fat with
  | nil =>
    obtain ⟨st3, halloc, hq⟩ := fatAllocCluster_none hr2 hfree
    rw [halloc]
    exact .failed ((hg.disk.trans hp.disk).trans hq.diskOnly)
  | cons new fs =>
    have hnew : new ∈ freeClusters st2.vol st2.fat := by
      rw [hfree]
      exact mem_cons_self
    have hne : c ≠ new := by
      rintro rfl
      have h0 := (mem_freeClusters.mp hnew).2
      rw [hp.fat] at h0
      exact FatChain.fat_ne_zero hg.chain hp.mem h0
    obtain ⟨st3, halloc, hd3, hfat3, hdata3⟩ := fatAllocCluster_some hr2 hfree
    have hplace : Place st3.vol c (32 * i) := by
      rw [hd3.vol, hp.disk.vol]
      exact hp.place
    obtain ⟨st4, hupd, hd4, hfat4, hdata4⟩ := fatUpdateDirent_ok (hd3.ready hr2) hplace
      (newSlot_length name 0x10 new 0)
    have hd4 := hd3.trans hd4
    have hbuf : DiskOnly st4 { st4 with sectorBuf := dotSector new d } := ⟨_, _, _, rfl⟩
    have hcl : st4.vol.IsCluster new := by
      rw [hd4.vol]
      exact isCluster_of_free hnew
    obtain ⟨st5, hfill, hd5, hfat5, hdata5⟩ := @fillCluster_whole { st4 with sectorBuf := dotSector new d }
      new (hbuf.ready (hd4.ready hr2)) hcl
    have hfat5 : st5.fat = update st2.fat new 0x0FFFFFFF := by
      rw [hfat5, ← hfat3, ← hfat4]
      rfl
    have hdata5 : st5.data = update (update st2.data c
        (splice (st2.data c) (32 * i) (newSlot name 0x10 new 0))) new (dotCluster st.vol new d) := by
      rw [hdata5, ← hdata3, ← hdata4, ← hvol2, ← hd4.vol]
      rfl
    rw [halloc]
    dsimp only
    unfold newSlot at hupd
    rw [hupd]
    dsimp only
    rw [hfill]
    refine .made (attached_of hg hp (hd4.disk.trans (hbuf.trans hd5.disk)) (newSlot_length _ _ new _) ?_ ?_ ?_ ?_)
      ?_ ?_
    · intro x hx
      rw [hfat5, update_of_ne (by simpa using hx)]
    · intro x hx
      rw [mem_singleton.mp hx]
      exact hnew
    · rw [hdata5, update_of_ne hne, update_self]
    · intro x hx hxc
      rw [hdata5, update_of_ne (by simpa using hx), update_of_ne hxc]
    · rw [hfat5, update_self]
    · rw [hdata5, update_self]

/-! ## From the call with a path on -/

lemma Attached.of_quiet {st0 st' : Fs} {attr : UInt8} {e : Slot}
    (hq : Quiet st st0) (h : Attached st0 st' d ld l₁ name attr c i e l') :
    Attached st st' d ld l₁ name attr c i e l' := by
  obtain ⟨b, n, rfl⟩ := hq
  obtain ⟨h1, h2, h3, h4, h5, h6, h7, h8, h9⟩ := h
  exact ⟨DiskOnly.trans ⟨_, _, _, rfl⟩ h1, h2, h3, h4, h5, h6, h7, h8, h9⟩

lemma write_new (hr : Ready st) (hm : st.vol.mounted = true)
    (hlead : Leads st path d name) (hlen : name.length < 64) (hl : st.image.ChainAt d ld)
    (hnone : lookup name [] (st.image.slots ld) = none) (xs : List UInt8) (append : Bool) :
    NewFile st d ld name xs
      (withLeaf st false path fun st dir name => fatWriteFile st dir name xs append) := by
  obtain ⟨st1, hwith, hq⟩ := withLeaf_leads false
    (fun st dir name => fatWriteFile st dir name xs append) hr hm hlead
  rw [hwith]
  have hl1 := hq.chain hl
  have hnone1 : lookup name [] (dirSlots st1.vol st1.data ld) = none := by
    rw [hq.vol, hq.data]
    exact hnone
  have hnew := fatWriteFile_new (hq.ready hr) hl1 hlen hnone1 xs append
  generalize fatWriteFile st1 d name xs append = r at hnew
  cases hnew with
  | full hq' => exact .full (hq.trans hq')
  | stranded hentry hat => exact .stranded hentry (hat.of_quiet hq)
  | written hat hch hlt hbytes hcount hspill =>
    rw [hq.vol] at hch hbytes hcount
    rw [Spilled, hq.vol, hq.data] at hspill
    refine .written (hat.of_quiet hq) hch hlt (fun hb => ?_) hcount hspill
    obtain ⟨hat', hroom, hbs⟩ := hbytes hb
    exact ⟨hat'.of_quiet hq, hroom, hbs⟩

lemma mkdir_found (hr : Ready st) (hm : st.vol.mounted = true)
    (hlead : Leads st path d name) (hl : st.image.ChainAt d ld) {f : Found}
    (hlook : lookup name [] (st.image.slots ld) = some f) :
    ∃ st', fsMkdir st path = some (false, st') ∧ Quiet st st' := by
  unfold fsMkdir
  generalize hk : (fun (st : Fs) (dir : Nat) (name : CString) => _) = k
  obtain ⟨st1, st2, hwith, -, hfind, hq⟩ := withLeaf_find false k hr hm hlead hl
  refine ⟨st2, ?_, hq⟩
  rw [hwith, ← hk]
  dsimp only
  rw [hfind, hlook]

lemma mkdir_new (hr : Ready st) (hm : st.vol.mounted = true)
    (hlead : Leads st path d name) (hlen : name.length < 64) (hl : st.image.ChainAt d ld)
    (hnone : lookup name [] (st.image.slots ld) = none) : NewDir st d ld name (fsMkdir st path) := by
  unfold fsMkdir
  generalize hk : (fun (st : Fs) (dir : Nat) (name : CString) => _) = k
  obtain ⟨st1, st2, hwith, -, hfind, hq⟩ := withLeaf_find false k hr hm hlead hl
  rw [hwith, ← hk]
  dsimp only
  rw [hfind, hnone]
  dsimp only
  have hr2 := hq.ready hr
  have hl2 := hq.chain hl
  have hcreate := fatCreateEntry_ok hr2 hl2 0x10 hlen
  generalize fatCreateEntry st2 d name 0x10 = r at hcreate
  cases hcreate with
  | full hq' => exact .failed (hq.trans hq').diskOnly
  | created hgrown hplaced =>
    have hnew := makeDir_new hr2 hgrown hplaced
    dsimp only
    generalize makeDir _ _ d = r at hnew
    cases hnew with
    | failed hdisk => exact .failed (hq.diskOnly.trans hdisk)
    | made hat hfat hdata =>
      rw [hq.vol] at hdata
      exact .made (hat.of_quiet hq) hfat hdata

end Writing

/-! ## What is found afterwards -/

section Finding
variable {st : Fs} {path leaf : CString} {d : Nat} {l : List Nat}

lemma fsExists_ok (hr : Ready st) (hm : st.vol.mounted = true) (hnames : st.image.Names path d leaf)
    (hl : st.image.ChainAt d l) :
    ∃ st', fsExists st path = some ((lookup leaf [] (st.image.slots l)).isSome, st') := by
  unfold fsExists
  rw [if_neg fun h => hnames.ne_root h.2, if_neg hnames.1]
  obtain ⟨st1, st2, hwith, -, hfind, -⟩ := withLeaf_find false
    (fun st dir name => (fatFindEntry st dir name).map fun r => (r.1.isSome, r.2)) hr hm
    (.inl hnames) hl
  rw [hwith, hfind]
  exact ⟨st2, rfl⟩

lemma fsReadFile_some (hr : Ready st) (hm : st.vol.mounted = true) (hnames : st.image.Names path d leaf)
    (hl : st.image.ChainAt d l) {ptr len : Nat} {st' : Fs}
    (hread : fsReadFile st path = some (some (ptr, len), st')) :
    ∃ f heap, lookup leaf [] (st.image.slots l) = some f ∧ direntFileSize f.ent = len ∧
      Memory.malloc st.heap (u32 (len + 1)) = some (ptr, heap) ∧ ptr ≠ 0 := by
  obtain ⟨st1, st2, hwith, -, hfind, hq⟩ := withLeaf_find none fatReadFile hr hm (.inl hnames) hl
  rw [fsReadFile, hwith, fatReadFile, hfind] at hread
  cases hlook : lookup leaf [] (st.image.slots l) with
  | none =>
    rw [hlook] at hread
    cases hread
  | some f =>
    rw [hlook] at hread
    dsimp only at hread
    split at hread
    · cases hread
    rw [hq.diskOnly.heap] at hread
    cases hmalloc : Memory.malloc st.heap (u32 (direntFileSize f.ent + 1)) with
    | none =>
      rw [hmalloc] at hread
      cases hread
    | some r =>
      obtain ⟨ptr', heap⟩ := r
      rw [hmalloc] at hread
      dsimp only at hread
      split at hread
      · cases hread
      next hne =>
      obtain ⟨rfl, rfl⟩ : ptr' = ptr ∧ direntFileSize f.ent = len := by
        split at hread
        · cases hread
        · injection hread with hread
          injection hread with hread
          injection hread with hread
          injection hread with hptr hlen
          exact ⟨hptr, hlen⟩
        · cases hfree : Memory.free _ ptr' with
          | none =>
            rw [hfree] at hread
            cases hread
          | some heap =>
            rw [hfree] at hread
            cases hread
      exact ⟨f, heap, rfl, rfl, hmalloc, hne⟩

lemma Returns.fits (hr : Ready st) (hm : st.vol.mounted = true) (hnames : st.image.Names path d leaf)
    (hl : st.image.ChainAt d l) {bs : List UInt8} (h : Returns st path bs) :
    MallocFits st.heap (bs.length + 1) := by
  obtain ⟨ptr, st', hread, -⟩ := h
  obtain ⟨f, heap, -, hsize, hmalloc, hne⟩ := fsReadFile_some hr hm hnames hl hread
  refine ⟨ptr, heap, ?_, hne⟩
  rw [← hmalloc]
  -- a request of 2^32 bytes wraps to one of none, which is refused
  have hlt := fileSize_lt f.ent
  by_cases hmax : bs.length + 1 < 2 ^ 32
  · rw [u32_of_lt hmax]
  · have h0 : u32 (bs.length + 1) = 0 := by
      unfold u32
      omega
    rw [h0, Memory.malloc, if_pos rfl] at hmalloc
    cases hmalloc
    exact absurd rfl hne

lemma MallocFits.le {A : Memory.HeapArray} {h : Memory.Heap} {bs : List Tiling.Blk} (hr : Memory.Rep A h bs)
    {n : Nat} (hn : n ≤ 2 ^ 64 - 8) (hfits : MallocFits h n) : n ≤ 33554432 := by
  obtain ⟨ptr, h', hmalloc, hne⟩ := hfits
  obtain ⟨p, h'', hsized, hle⟩ := Memory.malloc_sized hr n
  rw [hmalloc] at hsized
  cases hsized
  have hbig := hle hne
  rw [Memory.heapSize_eq] at hbig
  exact (Memory.le_roundUp hn).trans (hbig.1.trans hbig.2)

lemma pathLoop_blocked {I : Image} (hs : I.Sound) (hr : Ready st)
    (hkeep : ∀ {d p l name f}, I.Dir d p → I.ChainAt d l → lookup name [] (I.slots l) = some f →
      direntIsDir f.ent = true → ∃ l', st.image.ChainAt d l' ∧
        (lookup name [] (st.image.slots l') = some f ∨
          ∀ g, lookup name [] (st.image.slots l') = some g → direntIsDir g.ent = false))
    {d d' p : Nat} {path leaf : CString} (hd : I.Dir d p) (h : I.Resolves d path d' leaf) (fuel : Nat)
    (hf : path.length < fuel) :
    ∃ r st', pathLoop fuel d path st = some (r, st') ∧ Quiet st st' ∧ (r = (d', leaf) ∨ r.1 = 0) := by
  induction h generalizing p fuel st with
  | @leaf d path hne hrest =>
    obtain ⟨fuel, rfl⟩ := Nat.exists_eq_add_one.mpr (Nat.zero_lt_of_lt hf)
    rw [pathLoop, if_neg hne, if_pos hrest]
    exact ⟨_, st, rfl, Quiet.refl st, .inl rfl⟩
  | @step d d' path leaf l f hrest hl hlook hdir h0 _ ih =>
    obtain ⟨fuel, rfl⟩ := Nat.exists_eq_add_one.mpr (Nat.zero_lt_of_lt hf)
    have hne : path ≠ [] := by
      rintro rfl
      exact hrest rfl
    obtain ⟨hmem, he⟩ := lookup_some hlook
    obtain ⟨q, hq⟩ := hs.dir_of_entry hd hl hmem he hdir h0
    obtain ⟨l', hl', hlook'⟩ := hkeep hd hl hlook hdir
    obtain ⟨st1, hfind, hquiet⟩ := fatFindEntry_ok hr hl' ((pathComp path).take 63)
    have himg := hquiet.image
    rw [pathLoop, if_neg hne, if_neg hrest, hfind]
    rcases hlook' with hsame | hblocked
    · have hlt := pathRest_length_lt hne hrest
      obtain ⟨r, st2, hrun, hq2, hres⟩ := ih (hquiet.ready hr) (by rw [himg]; exact hkeep) hq fuel
        (by omega)
      rw [show lookup _ _ (dirSlots st.vol st.data l') = some f from hsame]
      dsimp only
      rw [if_neg (by rw [hdir]; simp [h0])]
      exact ⟨r, st2, hrun, hquiet.trans hq2, hres⟩
    · cases hcase : lookup ((pathComp path).take 63) [] (dirSlots st.vol st.data l') with
      | none => exact ⟨_, st1, rfl, hquiet, .inr rfl⟩
      | some g =>
        dsimp only
        rw [if_pos (.inl (hblocked g hcase))]
        exact ⟨_, st1, rfl, hquiet, .inr rfl⟩

lemma fsExists_blocked {st' : Fs} (hs : st.image.Sound) (hr : Ready st') (hm : st'.vol.mounted = true)
    (hvol : st'.vol = st.vol)
    (hkeep : ∀ {d p l name f}, st.image.Dir d p → st.image.ChainAt d l →
      lookup name [] (st.image.slots l) = some f → direntIsDir f.ent = true →
      ∃ l', st'.image.ChainAt d l' ∧ (lookup name [] (st'.image.slots l') = some f ∨
        ∀ g, lookup name [] (st'.image.slots l') = some g → direntIsDir g.ent = false))
    (hnames : st.image.Names path d leaf) (hl : st'.image.ChainAt d l)
    (hnone : lookup leaf [] (st'.image.slots l) = none) :
    ∃ st'', fsExists st' path = some (false, st'') := by
  have hroot : st'.vol.rootCluster = st.vol.rootCluster := by rw [hvol]
  obtain ⟨r, st1, hrun, hq, hr1⟩ := pathLoop_blocked hs hr hkeep .root hnames.2.2 (path.length + 1)
    (pathStart_length_lt path)
  have hwith : ∀ k : Fs → Nat → CString → Option (Bool × Fs), withLeaf st' false path k =
      if r.1 = 0 ∨ r.2 = [] then some (false, st1) else k st1 r.1 r.2 := by
    intro k
    rw [withLeaf, if_pos hm, pathDirCluster, if_neg hnames.1, hroot]
    rw [show pathLoop (path.length + 1) st.vol.rootCluster (pathStart path) st' = _ from hrun]
  unfold fsExists
  rw [if_neg fun h => hnames.ne_root h.2, if_neg hnames.1, hwith]
  rcases hr1 with rfl | h0
  · split
    · exact ⟨st1, rfl⟩
    · have hl1 := hq.chain hl
      obtain ⟨st2, hfind, -⟩ := fatFindEntry_ok (hq.ready hr) hl1 leaf
      rw [hq.vol, hq.data, show lookup _ _ (dirSlots st'.vol st'.data l) = none from hnone] at hfind
      rw [hfind]
      exact ⟨st2, rfl⟩
  · rw [if_pos (.inl h0)]
    exact ⟨st1, rfl⟩

end Finding

section Attached
variable {st st' : Fs} {d p : Nat} {ld l₁ l' : List Nat} {name path : CString} {attr : UInt8} {c i : Nat}
  {e : Slot} (h : Attached st st' d ld l₁ name attr c i e l') (hw : WellFormed st)
  (hd : st.image.Dir d p) (hl : st.image.ChainAt d ld) (hattr : attr ≠ 0x0F)
  (he : Alike (newDirent (nameToShort name) attr) e)
include h hw hd hl hattr he

lemma Attached.names_plain (hplain : Plain name) (hnone : lookup name [] (st.image.slots ld) = none)
    {d' : Nat} {leaf : CString} (hnames : st.image.Names path d' leaf) :
    st'.image.Names path d' leaf := by
  refine ⟨hnames.1, hnames.2.1, ?_⟩
  rw [show st'.image.vol = st.image.vol from h.disk.vol]
  apply hw.sound.resolves_kept _ .root hnames.2.2
  intro d' p' l n f hd' hl' hlook _
  apply h.lookup_dirs hw.sound hw.ready.geometry hd hl (P := fun f r => r = some f) (fun _ => rfl) _ hd'
    hl' hlook
  intro n f hlook
  exact h.lookup_plain (hw.tidy hd hl) hplain hattr he hnone hlook

lemma Attached.lookup_blocked (hfile : attr &&& 0x10 = 0) {d' p' : Nat} {l : List Nat} {n : CString}
    {f : Found} (hd' : st.image.Dir d' p') (hl' : st.image.ChainAt d' l)
    (hlook : lookup n [] (st.image.slots l) = some f) :
    ∃ l2, st'.image.ChainAt d' l2 ∧ (lookup n [] (st'.image.slots l2) = some f ∨
      ∀ g, lookup n [] (st'.image.slots l2) = some g → direntIsDir g.ent = false) := by
  apply h.lookup_dirs hw.sound hw.ready.geometry hd hl
    (P := fun f r => r = some f ∨ ∀ g, r = some g → direntIsDir g.ent = false) (fun _ => .inl rfl) _ hd'
    hl' hlook
  intro n f hlook
  rcases h.lookup_old hattr he hlook with hsame | ⟨hend, -⟩ | ⟨g, hg, hnew⟩
  · exact .inl hsame
  · right
    intro g hg
    cases hend.symm.trans hg
  · right
    intro g' hg'
    cases hnew.symm.trans hg'
    exact installed_isDir hfile he _ hg

lemma Attached.not_exists (hplain : ¬ Plain name) (hfile : attr &&& 0x10 = 0)
    (hnone : lookup name [] (st.image.slots ld) = none) (hnames : st.image.Names path d name) :
    ∃ st'', fsExists st' path = some (false, st'') := by
  have hm : st'.vol.mounted = true := by
    rw [h.disk.vol]
    exact hw.mounted
  apply fsExists_blocked hw.sound (h.disk.ready hw.ready) hm h.disk.vol _ hnames h.chainAt
  · exact h.lookup_hidden (hw.tidy hd hl) hattr he hplain hnames.2.1 hnames.2.2.leaf_length hnone
  · intro d' p' l n f hd' hl' hlook _
    exact h.lookup_blocked hw hd hl hattr he hfile hd' hl' hlook

end Attached

lemma Attached.fileAt {st st' : Fs} {d p : Nat} {ld l₁ l' : List Nat} {name path : CString}
    {c i first size : Nat} (h : Attached st st' d ld l₁ name 0x20 c i (newSlot name 0x20 first size) l')
    (hw : WellFormed st) (hd : st.image.Dir d p) (hl : st.image.ChainAt d ld) (hplain : Plain name)
    (hnone : lookup name [] (st.image.slots ld) = none) (hnames : st.image.Names path d name)
    (hch : first = 0 ∧ l' = [] ∨ FatChain st.vol st'.fat first l') (hlt : first < 2 ^ 28) :
    FileAt st' path ⟨newSlot name 0x20 first size, c, 32 * i⟩ l'
      (fileBytes (clusterBytes st'.vol) st'.data l' (direntFileSize (newSlot name 0x20 first size))) := by
  have halike := newSlot_alike name 0x20 first size
  have hlook := h.lookup_new (hw.tidy hd hl) hplain (by decide) halike hnone
  have hnames' := h.names_plain hw hd hl (by decide) halike hplain hnone hnames
  refine ⟨⟨d, l₁, name, hnames', h.chainAt, hlook⟩, ?_, ?_, rfl⟩
  · rw [halike.isDir, direntIsDir, newDirent_attr]
    decide
  · rw [newSlot_firstCluster _ _ (Nat.lt_trans hlt (by decide)), h.disk.vol]
    rcases hch with h0 | hch
    · exact .inl h0
    · exact .inr ⟨by have := hch.node_head.1; omega, hch⟩

/-- The path names a directory with the first cluster of a chain that was free before. -/
def MadeDir (st st' : Fs) (path : CString) (d : Nat) (leaf : CString) : Prop :=
  (∃ s, fsExists st' path = some (true, s)) ∧ st'.image.Names path d leaf ∧
    ∃ l f, st'.image.ChainAt d l ∧ lookup leaf [] (st'.image.slots l) = some f ∧
      direntIsDir f.ent = true ∧ direntFirstCluster f.ent ∈ freeClusters st.vol st.fat ∧
      st'.image.ChainAt (direntFirstCluster f.ent) [direntFirstCluster f.ent]

section Main
variable {st st' : Fs} {path leaf : CString} {d p : Nat} {ld : List Nat} (hw : WellFormed st)
  (hnames : st.image.Names path d leaf) (hd : st.image.Dir d p) (hl : st.image.ChainAt d ld)
  (hnone : lookup leaf [] (st.image.slots ld) = none)
include hw hnames hd hl hnone

lemma written_found_iff (hheap : ∃ A bs, Memory.Rep A st.heap bs) {xs : List UInt8}
    (hxs : xs.length < 2 ^ 32) (hrun : fsWriteFile st path xs = some (true, st')) :
    (∃ s, fsExists st' path = some (true, s)) ∧ Returns st' path xs ↔
      Plain leaf ∧ MallocFits st.heap (xs.length + 1) := by
  have hnew := write_new hw.ready hw.mounted (.inl hnames) hnames.2.2.leaf_length hl hnone xs false
  rw [fsWriteFile] at hrun
  rw [hrun] at hnew
  cases hnew with
  | @written _ l₁ l' c i first size hat hch hlt hbytes =>
    have hr' := hat.disk.ready hw.ready
    have hvol : st'.vol = st.vol := hat.disk.vol
    have hm' : st'.vol.mounted = true := by
      rw [hvol]
      exact hw.mounted
    have halike := newSlot_alike leaf 0x20 first size
    by_cases hplain : Plain leaf
    · have hnames' := hat.names_plain hw hd hl (by decide) halike hplain hnone hnames
      constructor
      · rintro ⟨-, hret⟩
        have hfits := hret.fits hr' hm' hnames' hat.chainAt
        rw [hat.disk.heap] at hfits
        exact ⟨hplain, hfits⟩
      · rintro ⟨-, hfits⟩
        obtain ⟨A, bs, hrep⟩ := hheap
        have hsmall := hfits.le hrep (by omega)
        have hcb : clusterBytes st.vol ≤ 255 * 512 := by
          have := hw.ready.geometry.spc_lt
          unfold clusterBytes
          omega
        have hcb' := clusterBytes_ge hw.ready.geometry
        obtain ⟨hat', hroom, hbs⟩ := hbytes (by omega)
        have hlook := hat'.lookup_new (hw.tidy hd hl) hplain (by decide)
          (newSlot_alike leaf 0x20 first xs.length) hnone
        constructor
        · obtain ⟨s, hex⟩ := fsExists_ok hr' hm' hnames' hat.chainAt
          rw [hlook] at hex
          exact ⟨s, hex⟩
        have hfile := hat'.fileAt hw hd hl hplain hnone hnames hch hlt
        rw [newSlot_fileSize _ _ _ hxs, hvol, hbs] at hfile
        apply (hfile.read hr' hm' (by omega) (by rw [hvol]; exact hroom)).1
        rw [hat.disk.heap]
        exact hfits
    · constructor
      · rintro ⟨⟨s, hex⟩, -⟩
        obtain ⟨s', hno⟩ := hat.not_exists hw hd hl (by decide) halike hplain (by decide) hnone hnames
        cases hno.symm.trans hex
      · rintro ⟨hyes, -⟩
        exact absurd hyes hplain

lemma made_found_iff (hrun : fsMkdir st path = some (true, st')) :
    MadeDir st st' path d leaf ↔ Plain leaf := by
  have hnew := mkdir_new hw.ready hw.mounted (.inl hnames) hnames.2.2.leaf_length hl hnone
  rw [hrun] at hnew
  cases hnew with
  | @made _ l₁ c i new hat hfat hdata =>
    have hr' := hat.disk.ready hw.ready
    have hvol : st'.vol = st.vol := hat.disk.vol
    have hm' : st'.vol.mounted = true := by
      rw [hvol]
      exact hw.mounted
    have halike := newSlot_alike leaf 0x10 new 0
    have ht := hw.tidy hd hl
    constructor
    · rintro ⟨-, -, l, f, hl', hlook, -⟩
      by_contra hplain
      obtain rfl := FatChain.unique hr'.geometry hl' hat.chainAt
      have hhide := hat.lookup_hidden ht (by decide) halike hplain hnames.2.1 hnames.2.2.leaf_length hnone
      cases hhide.symm.trans hlook
    · intro hplain
      have hnames' := hat.names_plain hw hd hl (by decide) halike hplain hnone hnames
      have hlook := hat.lookup_new ht hplain (by decide) halike hnone
      obtain ⟨s, hex⟩ := fsExists_ok hr' hm' hnames' hat.chainAt
      rw [hlook] at hex
      have hfree := (hat.fresh new mem_cons_self).1
      have hcl : st.vol.IsCluster new := isCluster_of_free hfree
      have hfirst : direntFirstCluster (newSlot leaf 0x10 new 0) = new := by
        apply newSlot_firstCluster
        have := (isCluster_guard hw.ready.geometry hcl).2
        unfold eoc at this
        omega
      refine ⟨⟨s, hex⟩, hnames', l₁, _, hat.chainAt, hlook, ?_, ?_, ?_⟩
      · rw [halike.isDir, direntIsDir, newDirent_attr]
        decide
      · rw [hfirst]
        exact hfree
      · rw [hfirst, Image.ChainAt, show st'.image.vol = st.vol from hvol]
        apply Chain.last hcl
        rw [show st'.image.fat new = _ from hfat]
        decide

end Main

/-- A file that was written with success under a new name is found with its contents, and a directory
that was made there is found with its cluster, exactly under a plain name; the file also needs a
buffer. -/
theorem new_entry_found_iff (st : Fs) (hw : WellFormed st) (hheap : ∃ A bs, Memory.Rep A st.heap bs)
    (path leaf : CString) (d : Nat) (ld : List Nat) (hnames : st.image.Names path d leaf)
    (hl : st.image.ChainAt d ld) (hnone : lookup leaf [] (st.image.slots ld) = none) :
    (∀ xs st', xs.length < 2 ^ 32 → fsWriteFile st path xs = some (true, st') →
      ((∃ s, fsExists st' path = some (true, s)) ∧ Returns st' path xs ↔
        Plain leaf ∧ MallocFits st.heap (xs.length + 1))) ∧
    ∀ st', fsMkdir st path = some (true, st') → (MadeDir st st' path d leaf ↔ Plain leaf) := by
  obtain ⟨p, hd⟩ := hw.sound.dir_of_names hnames
  constructor
  · intro xs st' hxs hrun
    exact written_found_iff hw hnames hd hl hnone hheap hxs hrun
  · intro st' hrun
    exact made_found_iff hw hnames hd hl hnone hrun

lemma freshHeap_rep : ∃ A bs, Memory.Rep A freshHeap bs := by
  have hfits : 4096 + Memory.heapSize < 2 ^ 64 := by
    rw [Memory.heapSize_eq]
    decide
  exact ⟨⟨4096, by decide, hfits⟩, _, Memory.heapInit_rep ⟨4096, by decide, hfits⟩ _⟩

theorem new_entry_found_oneFile :
    ∃ st' st'', fsWriteFile oneFile [0x2F, 98] [9] = some (true, st') ∧ Returns st' [0x2F, 98] [9] ∧
      fsMkdir oneFile [0x2F, 98] = some (true, st'') ∧ MadeDir oneFile st'' [0x2F, 98] 2 [98] := by
  have hwrite : (fsWriteFile oneFile [0x2F, 98] [9]).map Prod.fst = some true := by decide +kernel
  have hmake : (fsMkdir oneFile [0x2F, 98]).map Prod.fst = some true := by decide +kernel
  obtain ⟨⟨ok, st'⟩, hrun, rfl⟩ := Option.map_eq_some_iff.mp hwrite
  obtain ⟨⟨ok, st''⟩, hrun', rfl⟩ := Option.map_eq_some_iff.mp hmake
  have h := new_entry_found_iff oneFile oneFile_wellFormed freshHeap_rep [0x2F, 98] [98] 2 [2]
    ⟨by decide, by decide, .leaf (by decide) (by decide)⟩ (by decide +kernel) (by decide +kernel)
  refine ⟨st', st'', hrun, ?_, hrun', ?_⟩
  · exact ((h.1 [9] st' (by decide) hrun).mpr ⟨by decide, by decide +kernel⟩).2
  · exact (h.2 st'' hrun').mpr (by decide)

/-- The long name `letters.text`. -/
def longName : CString := [108, 101, 116, 116, 101, 114, 115, 46, 116, 101, 120, 116]

/-- A file that was written with success under a long name is not there. -/
theorem not_new_entry_found_longName :
    WellFormed oneFile ∧ oneFile.image.Names (0x2F :: longName) 2 longName ∧
      lookup longName [] (oneFile.image.slots [2]) = none ∧
      ∃ st' s, fsWriteFile oneFile (0x2F :: longName) [9] = some (true, st') ∧
        fsExists st' (0x2F :: longName) = some (false, s) := by
  have hok : ((fsWriteFile oneFile (0x2F :: longName) [9]).bind fun r =>
      (fsExists r.2 (0x2F :: longName)).map fun q => (r.1, q.1)) = some (true, false) := by
    decide +kernel
  obtain ⟨⟨ok, st'⟩, hrun, hread⟩ := Option.bind_eq_some_iff.mp hok
  obtain ⟨⟨found, s⟩, hread, heq⟩ := Option.map_eq_some_iff.mp hread
  obtain ⟨rfl, rfl⟩ : ok = true ∧ found = false := by simpa using heq
  refine ⟨oneFile_wellFormed, ⟨by decide, by decide, .leaf (by decide) (by decide)⟩, ?_, st', s, hrun,
    hread⟩
  decide +kernel

end FusionOS.Fat
