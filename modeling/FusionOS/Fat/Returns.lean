import FusionOS.Fat.Confined
import FusionOS.Fat.Mount

/-!
# The operations return

Every loop of `fs.c` that follows links goes on until a link ends it, and nothing counts its turns.
-/

namespace FusionOS.Fat

section Operations
variable {st : Fs} {D F : Nat → Prop}

lemma writeLeaf_returns (hz : Zoned st D F) (ht : Tight st F) (path : CString) (xs : List UInt8)
    (append : Bool) :
    ∃ r st', withLeaf st false path (fun st dir name => fatWriteFile st dir name xs append) =
      some (r, st') := by
  obtain ⟨r, st', hrun, -⟩ := writeLeaf_zoned hz ht path xs append
  exact ⟨r, st', hrun⟩

lemma fsMkdir_returns (hz : Zoned st D F) (ht : Tight st F) (path : CString) :
    ∃ r st', fsMkdir st path = some (r, st') := by
  obtain ⟨r, st', hrun, -⟩ := fsMkdir_held hz ht path
  exact ⟨r, st', hrun⟩

lemma fsDelete_returns (hz : Zoned st D F) (path : CString) : ∃ r st', fsDelete st path = some (r, st') := by
  obtain ⟨r, st', hrun, -⟩ := fsDelete_held hz path
  exact ⟨r, st', hrun⟩

lemma fsRename_returns (hz : Zoned st D F) (ht : Tight st F) (oldPath newPath : CString) :
    ∃ r st', fsRename st oldPath newPath = some (r, st') := by
  obtain ⟨r, st', hrun, -⟩ := fsRename_zoned hz ht oldPath newPath
  exact ⟨r, st', hrun⟩

lemma fsCopy_returns (hz : Zoned st D F) (ht : Tight st F) (hheap : HeapOk st.heap)
    (srcPath dstPath : CString) : ∃ r st', fsCopy st srcPath dstPath = some (r, st') :=
  (fsCopy_zoned hz ht srcPath dstPath).returns hheap

lemma fsMove_returns (hz : Zoned st D F) (ht : Tight st F) (hheap : HeapOk st.heap)
    (srcPath dstPath : CString) : ∃ r st', fsMove st srcPath dstPath = some (r, st') :=
  (fsMove_zoned hz ht srcPath dstPath).returns hheap

/-- A call that looks an entry up and goes on with what it finds. -/
lemma lookupLeaf_returns {α : Type} (hz : Zoned st D F) (fail : α) (path : CString)
    (k : CString → Option Found × Fs → α × Fs) :
    ∃ r st', (withLeaf st fail path fun st dir name => (fatFindEntry st dir name).map (k name)) =
      some (r, st') := by
  rcases withLeaf_zoned hz fail path fun st dir name => (fatFindEntry st dir name).map (k name) with
    ⟨st1, heq, -⟩ | ⟨st1, dir, name, heq, hq, hdir⟩
  · exact ⟨_, _, heq⟩
  · obtain ⟨found, st2, hfind, -⟩ := fatFindEntry_zoned (hz.same hq) hdir name
    rw [heq, hfind]
    exact ⟨_, _, rfl⟩

lemma fsExists_returns (hz : Zoned st D F) (path : CString) : ∃ r st', fsExists st path = some (r, st') := by
  rw [fsExists]
  split
  · exact ⟨_, _, rfl⟩
  split
  · exact ⟨_, _, rfl⟩
  · exact lookupLeaf_returns hz false path _

lemma fsStat_returns (hz : Zoned st D F) (path : CString) : ∃ r st', fsStat st path = some (r, st') := by
  rw [fsStat]
  split
  · exact ⟨_, _, rfl⟩
  split
  · exact ⟨_, _, rfl⟩
  · exact lookupLeaf_returns hz none path fun name r =>
      (r.1.map fun f => FsEntry.mk name (direntFileSize f.ent) (direntIsDir f.ent), r.2)

lemma fatReadDir_returns (hz : Zoned st D F) {d : Nat} (hd : D d) (maxEntries : Nat) :
    ∃ r st', fatReadDir st d maxEntries = some (r, st') := by
  obtain ⟨l, hl, -⟩ := hz.dirChain hd
  obtain ⟨st', hrun, -⟩ := chainLoop_ok hz.ready hl id (readDirSlot maxEntries) chainFuel
    (FatChain.lt_fuel hl hz.ready.geometry) ([], [])
  rw [fatReadDir, hrun]
  cases dirScan st.vol st.data id (readDirSlot maxEntries) l ([], []) with
  | next s => exact ⟨_, _, rfl⟩
  | stop x => exact ⟨_, _, rfl⟩

lemma fsListDir_returns (hz : Zoned st D F) (path : CString) (maxEntries : Nat) :
    ∃ r st', fsListDir st path maxEntries = some (r, st') := by
  rw [fsListDir]
  split
  · exact ⟨_, _, rfl⟩
  split
  · exact fatReadDir_returns hz hz.root maxEntries
  obtain ⟨dir, name, st1, hpath, hq, hdir⟩ := pathDirCluster_zoned hz path
  rw [hpath]
  dsimp only
  split
  · exact ⟨_, _, rfl⟩
  · next h0 => exact fatReadDir_returns (hz.same hq) (hdir.resolve_left h0) maxEntries

end Operations

/-- Every operation returns, whatever its arguments. -/
structure Terminates (st : Fs) : Prop where
  op : ∀ op : Op, ∃ r st', op.run st = some (r, st')
  readFile : ∀ path, ∃ r st', fsReadFile st path = some (r, st')
  listDir : ∀ path maxEntries, ∃ r st', fsListDir st path maxEntries = some (r, st')
  exist : ∀ path, ∃ r st', fsExists st path = some (r, st')
  stat : ∀ path, ∃ r st', fsStat st path = some (r, st')

/-- The clusters of directories and of files lie in zones of their own in which every walk ends, and
the blocks of the kernel heap are in order. -/
def Walkable (st : Fs) : Prop := (∃ D F, Zoned st D F ∧ Tight st F) ∧ HeapOk st.heap

lemma WellFormed.walkable {st : Fs} (hw : WellFormed st) (hheap : HeapOk st.heap) : Walkable st :=
  ⟨⟨_, _, hw.zoned, fileZone_tight st⟩, hheap⟩

lemma chainLoop_circle {σ ρ : Type} {enter : σ → σ} {body : σ → Nat → Nat → Slot → Scan σ ρ} {st : Fs}
    {c : Nat} (hr : Ready st) (hcl : st.vol.IsCluster c) (hself : st.fat c = c)
    (hpass : ∀ a, ∃ a', Scan.run (fun s f => body s f.cluster f.offset f.ent)
      (clusterSlots st.vol st.data c) a = .next a') (fuel : Nat) (a : σ) :
    chainLoop enter body fuel c a st = none := by
  induction fuel generalizing st a with
  | zero => rfl
  | succ fuel ih =>
    obtain ⟨st1, hsec, hq⟩ := sectorLoop_ok hr hcl body st.vol.sectorsPerCluster 0 (by omega) (enter a)
    obtain ⟨st2, hget, hq2⟩ := fatGetEntry_ok (hq.ready hr) (c := c) (by rw [hq.vol]; exact hcl.2)
    have hq2 := hq.trans hq2
    obtain ⟨a', hrun⟩ := hpass (enter a)
    rw [clusterSlots, Scan.run_map] at hrun
    rw [chainLoop, if_pos (isCluster_guard hr.geometry hcl), hsec, Nat.zero_mul, hrun]
    dsimp only [Scan.lift]
    rw [hget, hq.fat, hself]
    apply ih (hq2.ready hr)
    · rw [hq2.vol]
      exact hcl
    · rw [hq2.fat]
      exact hself
    · rw [hq2.vol, hq2.data]
      exact hpass

lemma run_findEntry_deleted (name : CString) {fs : List Found}
    (h : ∀ f ∈ fs, f.ent.getD 0 0 = 0xE5) (a : CString × Unit) :
    ∃ a', Scan.run (fun s f => findEntrySlot name s f.cluster f.offset f.ent) fs a = .next a' := by
  induction fs generalizing a with
  | nil => exact ⟨a, rfl⟩
  | cons f fs ih =>
    have h5 := h f List.mem_cons_self
    have hbody : findEntrySlot name a f.cluster f.offset f.ent = .next ([], a.2) := by
      rw [findEntrySlot, dirSlot, h5]
      rfl
    rw [Scan.run, hbody]
    exact ih (fun x hx => h x (List.mem_cons_of_mem _ hx)) _

/-- A mountable disk whose root directory links to itself and holds deleted slots only. -/
def circleFs : Fs :=
  { bootFs 1 with
    disk := fun lba =>
      if lba = 1 then store (fun _ => 0) 8 4 2
      else if lba = 2 then fun _ => 0xE5
      else (bootFs 1).disk lba }

lemma fsInit_ioOk (st : Fs) : (fsInit st).2.ioOk = st.ioOk := by
  have hread := @blkRead_quiet { st with vol := Volume.none } 0
  rw [fsInit]
  cases hrun : blkRead { st with vol := Volume.none } 0 with
  | mk ok st1 =>
    rw [hrun] at hread
    obtain ⟨b, n, rfl⟩ := hread
    cases ok with
    | false => rfl
    | true =>
      dsimp only
      generalize hst : ({ st with vol := Volume.none, sectorBuf := b, ops := n } : Fs) = st2
      have hio : st2.ioOk = st.ioOk := by rw [← hst]
      have hread2 := @blkRead_quiet st2 (partitionStart b)
      cases hrun2 : blkRead st2 (partitionStart b) with
      | mk ok st3 =>
        rw [hrun2] at hread2
        obtain ⟨b2, n2, rfl⟩ := hread2
        cases ok with
        | false => exact hio
        | true =>
          dsimp only
          split
          · exact hio
          · exact hio

end FusionOS.Fat
