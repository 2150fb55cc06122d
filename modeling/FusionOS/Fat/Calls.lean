import FusionOS.Fat.FullDisk
import FusionOS.Fat.Keep

/-!
# Calls with paths on a volume in order

What the public operations do to a volume in order, for any path: the operation returns, and the
volume is in order again where it returns 1.
-/

namespace FusionOS.Fat

section HeapOnly
variable {st st' : Fs}

lemma HeapOnly.trans {st'' : Fs} (h : HeapOnly st st') (h' : HeapOnly st' st'') : HeapOnly st st'' := by
  obtain ⟨_, _, _, rfl⟩ := h
  obtain ⟨h, b, n, rfl⟩ := h'
  exact ⟨h, b, n, rfl⟩

lemma Quiet.heapOnly (h : Quiet st st') : HeapOnly st st' := by
  obtain ⟨b, n, rfl⟩ := h
  exact ⟨_, b, n, rfl⟩

lemma HeapOnly.inOrder (h : HeapOnly st st') (ho : InOrder st) : InOrder st' := by
  obtain ⟨_, _, _, rfl⟩ := h
  exact ⟨⟨ho.ready.geometry, ho.ready.io⟩, ho.mounted, ho.sound, ho.inside⟩

lemma HeapOnly.image (h : HeapOnly st st') : st'.image = st.image := by
  obtain ⟨_, _, _, rfl⟩ := h
  rfl

lemma HeapOnly.stackName (h : HeapOnly st st') : st'.stackName = st.stackName := by
  obtain ⟨_, _, _, rfl⟩ := h
  rfl

end HeapOnly

/-! ## Reading -/

/-- What `fs_read_file` ends in: there is no file or no buffer, the allocator does not return, or the
buffer has been filled. -/
inductive ReadOut (st : Fs) : Option (Option (Nat × Nat) × Fs) → Prop where
  | failed {st' : Fs} : HeapOnly st st' →
      (st'.heap = st.heap ∨ ∃ n, Memory.malloc st.heap n = some (0, st'.heap)) →
      ReadOut st (some (none, st'))
  | stuck {n : Nat} : Memory.malloc st.heap n = none → ReadOut st none
  | read {st' : Fs} {ptr size : Nat} {h : Memory.Heap} {m : Mem} : HeapOnly st st' →
      Memory.malloc st.heap (u32 (size + 1)) = some (ptr, h) → ptr ≠ 0 → size < 2 ^ 32 →
      st'.heap = { h with mem := m } →
      (size + 512 ≤ 2 ^ 32 → ∀ i, i < ptr ∨ ptr + size < i → m i = h.mem i) →
      ReadOut st (some (some (ptr, size), st'))

lemma readHasChain_inside {st : Fs} (hr : Ready st) {first : Nat} {l : List Nat}
    (hch : HasChain st.vol st.fat first l) (ptr size : Nat) :
    ∃ st' m, readChain ptr size chainFuel first 0 st = some (true, st') ∧ HeapMem st st' m ∧
      (size + 512 ≤ 2 ^ 32 → ∀ i, i < ptr ∨ ptr + size ≤ i → m i = st.heap.mem i) := by
  obtain ⟨m, hsame⟩ := readHasChain_same (v := st.vol) ptr size st.data l first st.heap.mem
  obtain ⟨st', hrun, hmem⟩ := hsame st hr rfl (fun _ _ => rfl) rfl hch
  refine ⟨st', m, hrun, hmem, fun hsize i hi => ?_⟩
  obtain ⟨m', hmem', hkeep⟩ := readChain_spec hsize ptr (Nat.zero_le _) hrun
  rw [← hmem.mem, hmem'.mem]
  exact hkeep i hi

lemma ReadOut.of_quiet {st st1 : Fs} {r : Option (Option (Nat × Nat) × Fs)} (h : ReadOut st1 r)
    (hq : Quiet st st1) : ReadOut st r := by
  have hheap := hq.heapOnly
  have heq : st1.heap = st.heap := by
    obtain ⟨_, _, rfl⟩ := hq
    rfl
  cases h with
  | failed hheap' hcase => exact .failed (hheap.trans hheap') (heq ▸ hcase)
  | stuck hmalloc => exact .stuck (heq ▸ hmalloc)
  | read hheap' hmalloc hptr hsize hmem hinside =>
    exact .read (hheap.trans hheap') (heq ▸ hmalloc) hptr hsize hmem hinside

section Read
variable {st : Fs} (ho : InOrder st)
include ho

lemma fatReadFile_out {d p : Nat} {ld : List Nat} (hd : st.image.Dir d p) (hl : st.image.ChainAt d ld)
    (name : CString) : ReadOut st (fatReadFile st d name) := by
  obtain ⟨st1, hfind, hq⟩ := fatFindEntry_ok ho.ready hl name
  rw [fatReadFile, hfind]
  obtain ⟨b, n, rfl⟩ := hq
  cases hlook : lookup name [] (dirSlots st.vol st.data ld) with
  | none => exact .failed ⟨_, b, n, rfl⟩ (.inl rfl)
  | some f =>
    obtain ⟨hmem, hent⟩ := lookup_some hlook
    dsimp only
    cases hdir : direntIsDir f.ent with
    | true => exact .failed ⟨_, b, n, rfl⟩ (.inl rfl)
    | false =>
      obtain ⟨l, hch⟩ := ho.sound.entry_chain (ho.sound.entry_of_file hd hl hmem hent hdir)
      cases hmalloc : Memory.malloc st.heap (u32 (direntFileSize f.ent + 1)) with
      | none => exact .stuck hmalloc
      | some r =>
        obtain ⟨ptr, h⟩ := r
        dsimp only
        by_cases hptr : ptr = 0
        · subst hptr
          exact .failed ⟨_, b, n, rfl⟩ (.inr ⟨_, hmalloc⟩)
        · rw [if_neg hptr]
          have hr : Ready { st with heap := h, sectorBuf := b, ops := n } :=
            ⟨ho.ready.geometry, ho.ready.io⟩
          obtain ⟨st', m, hrun, hmem', hinside⟩ := readHasChain_inside hr hch ptr (direntFileSize f.ent)
          rw [hrun]
          obtain ⟨b', n', rfl⟩ := hmem'
          refine .read ⟨_, b', n', rfl⟩ hmalloc hptr (fileSize_lt _) rfl ?_
          intro hsize i hi
          rw [Function.update_of_ne (by omega)]
          exact hinside hsize i (by omega)

lemma fsReadFile_out (path : CString) : ReadOut st (fsReadFile st path) := by
  rcases withLeaf_cases none fatReadFile path ho.ready ho.mounted ho.sound with
    ⟨d, p, leaf, hd, hlead⟩ | ⟨st1, hwith, hq⟩
  · obtain ⟨st1, hwith, hq⟩ := withLeaf_leads none fatReadFile ho.ready ho.mounted hlead
    obtain ⟨l, hl⟩ := ho.sound.dir_chain hd
    rw [← hq.image] at hd hl
    rw [fsReadFile, hwith]
    exact (fatReadFile_out (ho.quiet hq) hd hl leaf).of_quiet hq
  · rw [fsReadFile, hwith]
    obtain ⟨b, n, rfl⟩ := hq
    exact .failed ⟨_, b, n, rfl⟩ (.inl rfl)

end Read

/-! ## Deleting -/

/-- The path does not lead to `.` or `..`. -/
def NoDot (st : Fs) (path : CString) : Prop :=
  ∀ {d l leaf f}, Leads st path d leaf → st.image.ChainAt d l →
    lookup leaf [] (st.image.slots l) = some f → ¬ IsDot f.ent

section Delete
variable {st : Fs} (ho : InOrder st)
include ho

lemma fsDelete_out (path : CString) :
    (∃ st', fsDelete st path = some (false, st') ∧ Quiet st st') ∨
      ∃ d p l leaf f st1, st.image.Dir d p ∧ st.image.ChainAt d l ∧ Leads st path d leaf ∧
        lookup leaf [] (st.image.slots l) = some f ∧ Quiet st st1 ∧
        fsDelete st path = deleteFound st1 d leaf f := by
  by_cases hpath : path = [] ∨ path = rootPath
  · exact .inl ⟨st, if_pos hpath, Quiet.refl st⟩
  rw [fsDelete, if_neg hpath]
  generalize hk : (fun (st : Fs) (dir : Nat) (name : CString) => _) = k
  rcases withLeaf_cases false k path ho.ready ho.mounted ho.sound with
    ⟨d, p, leaf, hd, hlead⟩ | ⟨st1, hwith, hq⟩
  · obtain ⟨l, hl⟩ := ho.sound.dir_chain hd
    obtain ⟨st1, st2, hwith, -, hfind, hq⟩ := withLeaf_find false k ho.ready ho.mounted hlead hl
    rw [hwith, ← hk]
    dsimp only
    rw [hfind]
    cases hlook : lookup leaf [] (st.image.slots l) with
    | none => exact .inl ⟨st2, rfl, hq⟩
    | some f => exact .inr ⟨d, p, l, leaf, f, st2, hd, hl, hlead, hlook, hq, rfl⟩
  · exact .inl ⟨st1, hwith, hq⟩

lemma fsDelete_kept (path : CString) :
    ∃ ok st', fsDelete st path = some (ok, st') ∧ DiskOnly st st' ∧
      (ok = true → NoDot st path → InOrder st') := by
  rcases fsDelete_out ho path with ⟨st', hrun, hq⟩ |
    ⟨d, p, l, leaf, f, st1, hd, hl, hlead, hlook, hq, hrun⟩
  · exact ⟨false, st', hrun, hq.diskOnly, fun h => by cases h⟩
  · have himg := hq.image
    obtain ⟨hmem, hent⟩ := lookup_some hlook
    obtain ⟨ok, st', hdel, hdisk, hkept⟩ := deleteFound_kept (ho.quiet hq) (himg ▸ hd) (himg ▸ hl)
      (himg ▸ hmem) hent (himg ▸ hlook)
    exact ⟨ok, st', hrun.trans hdel, hq.diskOnly.trans hdisk, fun hok hno => hkept hok (hno hlead hl hlook)⟩

end Delete

/-! ## Renaming -/

def ShortHere (st : Fs) (oldPath newPath : CString) : Prop :=
  ∀ {d oldName newName}, Leads st oldPath d oldName → Leads st newPath d newName → needsLfn newName = false

section Rename
variable {st : Fs} {oldPath newPath : CString}

lemma fsRename_leads (hr : Ready st) (hm : st.vol.mounted = true) (hne : oldPath ≠ newPath)
    {od nd : Nat} {lo ln : List Nat} {oldName newName : CString} (hold : Leads st oldPath od oldName)
    (hnew : Leads st newPath nd newName) (hlo : st.image.ChainAt od lo) (hln : st.image.ChainAt nd ln) :
    ∃ st1 st2, Quiet st st1 ∧ Quiet st st2 ∧ fsRename st oldPath newPath =
      match lookup newName [] (st.image.slots ln) with
      | some _ => some (false, st1)
      | none =>
        match lookup oldName [] (st.image.slots lo) with
        | none => some (false, st2)
        | some f => renameFound st2 od oldName nd newName f := by
  obtain ⟨st1, hrun1, hq1, hne1⟩ := pathDirCluster_leads hr hold
  obtain ⟨st2, hrun2, hq2, hne2⟩ := pathDirCluster_leads (hq1.ready hr) (hq1.leads hnew)
  obtain ⟨b, n, rfl⟩ := hq1.trans hq2
  have hr2 : Ready { st with sectorBuf := b, ops := n } := ⟨hr.geometry, hr.io⟩
  obtain ⟨st3, hfind3, hq3⟩ : ∃ st3, fatFindEntry { st with sectorBuf := b, ops := n } nd newName =
      some (lookup newName [] (st.image.slots ln), st3) ∧ Quiet st st3 := by
    obtain ⟨st3, hfind, hq⟩ := fatFindEntry_ok hr2 hln newName
    exact ⟨st3, hfind, Quiet.trans ⟨b, n, rfl⟩ hq⟩
  obtain ⟨st4, hfind4, hq4⟩ : ∃ st4, fatFindEntry st3 od oldName =
      some (lookup oldName [] (st.image.slots lo), st4) ∧ Quiet st st4 := by
    obtain ⟨b3, n3, rfl⟩ := hq3
    have hr3 : Ready { st with sectorBuf := b3, ops := n3 } := ⟨hr.geometry, hr.io⟩
    obtain ⟨st4, hfind, hq⟩ := fatFindEntry_ok hr3 hlo oldName
    exact ⟨st4, hfind, Quiet.trans ⟨b3, n3, rfl⟩ hq⟩
  refine ⟨st3, st4, hq3, hq4, ?_⟩
  rw [fsRename, if_neg (by rw [hm]; decide), if_neg hne, hrun1]
  dsimp only
  rw [hrun2]
  dsimp only
  rw [if_neg (by tauto), hfind3]
  cases lookup newName [] (st.image.slots ln) with
  | some g => rfl
  | none =>
    dsimp only
    rw [hfind4]
    cases lookup oldName [] (st.image.slots lo) with
    | none => rfl
    | some f => rfl

lemma fsRename_nowhere (ho : InOrder st) (hne : oldPath ≠ newPath)
    (hno : (∀ d leaf, ¬ Leads st oldPath d leaf) ∨ ∀ d leaf, ¬ Leads st newPath d leaf) :
    ∃ st', fsRename st oldPath newPath = some (false, st') ∧ Quiet st st' := by
  obtain ⟨r1, st1, hrun1, hq1, hcase1⟩ := pathDirCluster_cases oldPath ho.ready ho.sound
  obtain ⟨r2, st2, hrun2, hq2, hcase2⟩ := pathDirCluster_cases newPath (hq1.ready ho.ready)
    (hq1.image ▸ ho.sound)
  have hback : ∀ {path d leaf}, Leads st1 path d leaf → Leads st path d leaf := by
    intro path d leaf h
    obtain ⟨_, _, rfl⟩ := hq1
    exact h
  refine ⟨st2, ?_, hq1.trans hq2⟩
  rw [fsRename, if_neg (by rw [ho.mounted]; decide), if_neg hne, hrun1]
  dsimp only
  rw [hrun2]
  exact if_pos (by tauto)

lemma Image.Resolves.mem_leaf {I : Image} {d d' : Nat} {p leaf : CString} (h : I.Resolves d p d' leaf)
    {x : UInt8} (hx : x ∈ leaf) : x ∈ p := by
  induction h with
  | leaf => exact (List.takeWhile_sublist _).subset (List.mem_of_mem_take hx)
  | step _ _ _ _ _ _ ih =>
    exact List.mem_of_mem_drop ((List.dropWhile_sublist _).subset (ih hx))

lemma Leads.not_mem_zero {path leaf : CString} {d : Nat} (h : Leads st path d leaf) (hpath : 0 ∉ path)
    (hstack : 0 ∉ st.stackName) : 0 ∉ leaf := by
  rcases h with ⟨-, -, hres⟩ | ⟨-, -, rfl, -⟩
  · intro h0
    have hstart := hres.mem_leaf h0
    unfold pathStart at hstart
    split at hstart
    · exact hpath (List.mem_of_mem_tail hstart)
    · exact hpath hstart
  · exact hstack

lemma fsRename_kept (ho : InOrder st) (hstack : st.stackName.length < 64)
    (oldPath newPath : CString) :
    ∃ ok st', fsRename st oldPath newPath = some (ok, st') ∧ DiskOnly st st' ∧
      (ok = true → NoDot st oldPath → ShortHere st oldPath newPath → oldPath ≠ newPath → InOrder st') ∧
      (ok = false → 0 ∉ newPath → 0 ∉ st.stackName → Quiet st st') := by
  by_cases heq : oldPath = newPath
  · refine ⟨true, st, ?_, DiskOnly.refl st, fun _ _ _ hne => absurd heq hne, fun h => by cases h⟩
    rw [fsRename, if_neg (by rw [ho.mounted]; decide), if_pos heq]
  have hquiet : ∀ {st'}, fsRename st oldPath newPath = some (false, st') → Quiet st st' →
      ∃ ok st', fsRename st oldPath newPath = some (ok, st') ∧ DiskOnly st st' ∧
        (ok = true → NoDot st oldPath → ShortHere st oldPath newPath → oldPath ≠ newPath → InOrder st') ∧
        (ok = false → 0 ∉ newPath → 0 ∉ st.stackName → Quiet st st') := by
    intro st' hrun hq
    exact ⟨false, st', hrun, hq.diskOnly, (fun h => by cases h), fun _ _ _ => hq⟩
  by_cases hold : ∃ d leaf, Leads st oldPath d leaf
  swap
  · obtain ⟨st', hrun, hq⟩ := fsRename_nowhere ho heq (.inl fun d leaf h => hold ⟨d, leaf, h⟩)
    exact hquiet hrun hq
  by_cases hnew : ∃ d leaf, Leads st newPath d leaf
  swap
  · obtain ⟨st', hrun, hq⟩ := fsRename_nowhere ho heq (.inr fun d leaf h => hnew ⟨d, leaf, h⟩)
    exact hquiet hrun hq
  obtain ⟨od, oldName, hold⟩ := hold
  obtain ⟨nd, newName, hnew⟩ := hnew
  obtain ⟨op, hod⟩ := hold.dir ho.sound
  obtain ⟨np, hnd⟩ := hnew.dir ho.sound
  obtain ⟨lo, hlo⟩ := ho.sound.dir_chain hod
  obtain ⟨ln, hln⟩ := ho.sound.dir_chain hnd
  obtain ⟨st1, st2, hq1, hq2, hrun⟩ := fsRename_leads ho.ready ho.mounted heq hold hnew hlo hln
  cases hfree : lookup newName [] (st.image.slots ln) with
  | some g =>
    rw [hfree] at hrun
    exact hquiet hrun hq1
  | none =>
    rw [hfree] at hrun
    cases hlook : lookup oldName [] (st.image.slots lo) with
    | none =>
      rw [hlook] at hrun
      exact hquiet hrun hq2
    | some f =>
      rw [hlook] at hrun
      have himg := hq2.image
      obtain ⟨ok, st', hren, hdisk, hkept, hback⟩ := renameFound_kept (ho.quiet hq2) (himg ▸ hod)
        (himg ▸ hlo) (himg ▸ hnd) (himg ▸ hln) (himg ▸ hlook) (hnew.length hstack)
      refine ⟨ok, st', hrun.trans hren, hq2.diskOnly.trans hdisk, ?_, ?_⟩
      · intro hok hno hshort _
        apply hkept hok (hno hold hlo hlook)
        rintro rfl
        exact hshort hold hnew
      · intro hok h0 hst
        exact hq2.trans (hback hok (hnew.not_mem_zero h0 hst))

end Rename

end FusionOS.Fat
