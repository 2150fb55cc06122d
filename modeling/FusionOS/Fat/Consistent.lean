import FusionOS.Fat.Confined
import FusionOS.Fat.Listing
import FusionOS.Lib.Run

/-!
# The volume over whole runs

A volume is consistent if its entries refer to clusters in use, have chains with no cluster in
common, and its directories form a tree.
-/

namespace FusionOS.Fat

namespace Image
variable (I : Image)

/-- The entries on the way from the root to the directory `d`, the last one first. -/
inductive Branch : List Found → Nat → Prop where
  | root : Branch [] I.vol.rootCluster
  | sub {fs : List Found} {d : Nat} {l : List Nat} {f : Found} : Branch fs d → I.ChainAt d l →
      f ∈ I.slots l → IsEntry f.ent → ¬ IsDot f.ent → direntIsDir f.ent = true →
      direntFirstCluster f.ent ≠ 0 → Branch (f :: fs) (direntFirstCluster f.ent)

/-- No entry refers to a free cluster, no cluster belongs to two entries, and one way leads from the
root to each directory. -/
structure Consistent : Prop where
  used : ∀ {d p l f}, I.Dir d p → I.ChainAt d l → f ∈ I.slots l → IsEntry f.ent →
    direntFirstCluster f.ent ≠ 0 → I.fat (direntFirstCluster f.ent) ≠ 0
  chain : ∀ {f}, I.Entry f → direntFirstCluster f.ent ≠ 0 → ∃ l, I.ChainAt (direntFirstCluster f.ent) l
  apart : ∀ {f g l l' x}, I.Entry f → I.Entry g → I.ChainAt (direntFirstCluster f.ent) l →
    I.ChainAt (direntFirstCluster g.ent) l' → x ∈ l → x ∈ l' → f = g
  tree : ∀ {fs gs d}, I.Branch fs d → I.Branch gs d → fs = gs

end Image

section Sound
variable {I : Image} (hs : I.Sound)
include hs

omit hs in
lemma Image.Branch.dir {fs : List Found} {d : Nat} (h : I.Branch fs d) : ∃ p, I.Dir d p := by
  induction h with
  | root => exact ⟨_, .root⟩
  | sub _ hl hf he hdot hdir h0 ih =>
    obtain ⟨p, hd⟩ := ih
    exact ⟨_, .sub hd hl hf he hdot hdir h0⟩

lemma Image.Sound.entry_ne_root {f : Found} (hf : I.Entry f) (h0 : direntFirstCluster f.ent ≠ 0) :
    direntFirstCluster f.ent ≠ I.vol.rootCluster := by
  intro heq
  obtain ⟨l, hl⟩ := hs.chain hf h0
  apply hs.root_disjoint hf hl (heq ▸ hl) hl.head_mem
  exact hl.head_mem

lemma Image.Sound.dir_of_slot (hg : Geometry I.vol) {d d' p p' : Nat} {l l' : List Nat} {f : Found}
    (hd : I.Dir d p) (hl : I.ChainAt d l) (hd' : I.Dir d' p') (hl' : I.ChainAt d' l')
    (hf : f ∈ I.slots l) (hf' : f ∈ I.slots l') : d = d' :=
  hs.dir_eq hg hd hl hd' hl' (mem_dirSlots.mp hf).1 (mem_dirSlots.mp hf').1

lemma Image.Sound.branch_unique (hg : Geometry I.vol) {fs gs : List Found} {d d' : Nat}
    (h : I.Branch fs d) (h' : I.Branch gs d') (heq : d = d') : fs = gs := by
  induction h generalizing gs d' with
  | root =>
    cases h' with
    | root => rfl
    | sub hb hl hf he hdot _ h0 =>
      obtain ⟨p, hd⟩ := hb.dir
      exact absurd heq.symm (hs.entry_ne_root ⟨_, p, _, hd, hl, hf, he, hdot⟩ h0)
  | @sub fs d l f hb hl hf he hdot hdir h0 ih =>
    obtain ⟨p, hd⟩ := hb.dir
    have hentry : I.Entry f := ⟨d, p, l, hd, hl, hf, he, hdot⟩
    cases h' with
    | root => exact absurd heq (hs.entry_ne_root hentry h0)
    | @sub gs d' l' g hb' hl' hg' he' hdot' hdir' h0' =>
      obtain ⟨p', hd'⟩ := hb'.dir
      obtain ⟨m, hm⟩ := hs.chain hentry h0
      -- the two entries have one chain, so they are one, and one directory holds it
      obtain rfl : f = g := hs.disjoint hentry ⟨d', p', l', hd', hl', hg', he', hdot'⟩ hm (heq ▸ hm)
        hm.head_mem hm.head_mem
      rw [ih hb' (hs.dir_of_slot hg hd hl hd' hl' hf hg')]

lemma Image.Sound.consistent (hg : Geometry I.vol) : I.Consistent := by
  refine ⟨?_, hs.chain, hs.disjoint, fun h h' => hs.branch_unique hg h h' rfl⟩
  intro d p l f hd hl hf he h0
  obtain ⟨m, hm⟩ : ∃ m, I.ChainAt (direntFirstCluster f.ent) m := by
    by_cases hdot : IsDot f.ent
    · obtain ⟨q, hq⟩ := hs.dir_of_entry hd hl hf he (hs.dot hd hl hf he hdot).1 h0
      exact hs.dir_chain hq
    · exact hs.chain ⟨d, p, l, hd, hl, hf, he, hdot⟩ h0
  exact FatChain.fat_ne_zero hm hm.head_mem

end Sound

/-! ## What a written file leaves where it was -/

def Image.KeepsDirs (I I' : Image) : Prop :=
  ∀ ⦃d p l l' name f g⦄, I.Dir d p → I.ChainAt d l → lookup name [] (I.slots l) = some f →
    I'.ChainAt d l' → lookup name [] (I'.slots l') = some g → direntIsDir g.ent = true → g = f

lemma Image.KeepsDirs.resolves {I I' : Image} (h : I.KeepsDirs I') (hs : I.Sound) {d d1 d2 p : Nat}
    {path leaf1 leaf2 : CString} (hd : I.Dir d p) (h1 : I.Resolves d path d1 leaf1)
    (h2 : I'.Resolves d path d2 leaf2) : d2 = d1 ∧ leaf2 = leaf1 := by
  induction h1 generalizing p with
  | leaf hne hrest =>
    cases h2 with
    | leaf => exact ⟨rfl, rfl⟩
    | step hrest' => exact absurd hrest hrest'
  | step hrest hl hlook hdir h0 _ ih =>
    cases h2 with
    | leaf _ hrest' => exact absurd hrest' hrest
    | step _ hl' hlook' hdir' _ hres' =>
      obtain rfl := h hd hl hlook hl' hlook' hdir'
      obtain ⟨hf, he⟩ := lookup_some hlook
      obtain ⟨q, hq⟩ := hs.dir_of_entry hd hl hf he hdir h0
      exact ih hq hres'

section Writes
variable {st st' : Fs} {d p : Nat} {ld : List Nat}

lemma Attached.keepsDirs {l1 l' : List Nat} {name : CString} {attr : UInt8} {c i : Nat} {e : Slot}
    (h : Attached st st' d ld l1 name attr c i e l') (ho : InOrder st) (hd : st.image.Dir d p)
    (hl : st.image.ChainAt d ld) (hattr : attr ≠ 0x0F) (hfile : attr &&& 0x10 = 0)
    (he : Alike (newDirent (nameToShort name) attr) e) : st.image.KeepsDirs st'.image := by
  have hhere : ∀ n f, lookup n [] (st.image.slots ld) = some f → ∀ g,
      lookup n [] (st'.image.slots l1) = some g → direntIsDir g.ent = true → g = f := by
    intro n f hlook g hg hdir
    rcases h.lookup_old hattr he hlook with hf | ⟨hend, -⟩ | ⟨x, hx, hnew⟩
    · exact Option.some.inj (hg.symm.trans hf)
    · cases hend.symm.trans hg
    · cases hnew.symm.trans hg
      rw [installed_isDir hfile he _ hx] at hdir
      cases hdir
  intro d' p' l l2 n f g hd' hl' hlook hl2 hlook2 hdir
  obtain ⟨l3, hl3, hsame⟩ := h.lookup_dirs ho.sound ho.ready.geometry hd hl
    (P := fun f r => ∀ g, r = some g → direntIsDir g.ent = true → g = f)
    (fun f g hg _ => (Option.some.inj hg).symm) hhere hd' hl' hlook
  obtain rfl := FatChain.unique (h.disk.ready ho.ready).geometry hl3 hl2
  exact hsame g hlook2 hdir

lemma Image.Shadow.keepsDirs {I I' : Image} {k : Found → Found} (h : I.Shadow I' k)
    (hg : Geometry I.vol) : I.KeepsDirs I' := by
  intro d p l l' n f g hd hl hlook hl' hlook' hdir
  obtain rfl := FatChain.unique (h.vol ▸ hg) hl' (h.chain hd hl)
  have hf := (lookup_some hlook).1
  rw [h.lookup hd hl, hlook] at hlook'
  cases hlook'
  rw [(h.alike hd hl hf).1.isDir] at hdir
  exact h.dirs hd hl hf hdir

lemma fatWriteFile_keepsDirs (ho : InOrder st) (hd : st.image.Dir d p) (hl : st.image.ChainAt d ld)
    {name : CString} (hname : name.length < 64) {xs : List UInt8} {append : Bool}
    (h : fatWriteFile st d name xs append = some (true, st')) : st.image.KeepsDirs st'.image := by
  cases hlook : lookup name [] (st.image.slots ld) with
  | none =>
    have hnew := fatWriteFile_new ho.ready hl hname hlook xs append
    rw [h] at hnew
    cases hnew with
    | written hat _ _ _ =>
      exact hat.keepsDirs ho hd hl (by decide) (by decide) (newSlot_alike name 0x20 _ _)
  | some f =>
    obtain ⟨hmem, hent⟩ := lookup_some hlook
    obtain ⟨st1, hfind, hq⟩ := fatFindEntry_ok ho.ready hl name
    rw [show lookup name [] (dirSlots st.vol st.data ld) = some f from hlook] at hfind
    rw [fatWriteFile, hfind] at h
    dsimp only at h
    cases hdir : direntIsDir f.ent with
    | true =>
      rw [fatWriteEntry_dir xs hdir] at h
      cases h
    | false =>
      obtain ⟨b, n, rfl⟩ := hq
      have ho1 : InOrder { st with sectorBuf := b, ops := n } := ho.quiet ⟨b, n, rfl⟩
      obtain ⟨l, hch⟩ := ho.sound.entry_chain (ho.sound.entry_of_file hd hl hmem hent hdir)
      have hout := fatWriteEntry_outcome xs ho1.ready (place_of_mem hl hmem) (ent_length hmem) hdir hch
        (not_mem_of_file ho.sound hd hl hmem hent hdir hch) (used_of_mem hl hmem) append
      rw [h] at hout
      cases hout with
      | written hlink _ =>
        exact (hlink.shadow ho1.sound hd hl hmem hent hdir hch).keepsDirs ho.ready.geometry

lemma fsWriteFile_keepsDirs (ho : InOrder st) (hstack : st.stackName.length < 64) {path : CString}
    {xs : List UInt8} (h : fsWriteFile st path xs = some (true, st')) :
    st.image.KeepsDirs st'.image := by
  rw [fsWriteFile] at h
  rcases withLeaf_cases false (fun st dir name => fatWriteFile st dir name xs false) path ho.ready
    ho.mounted ho.sound with ⟨d, p, leaf, hd, hlead⟩ | ⟨st1, hwith, -⟩
  · obtain ⟨st1, hwith, hq⟩ := withLeaf_leads false
      (fun st dir name => fatWriteFile st dir name xs false) ho.ready ho.mounted hlead
    obtain ⟨l, hl⟩ := ho.sound.dir_chain hd
    rw [hwith] at h
    rw [← hq.image] at hd hl ⊢
    exact fatWriteFile_keepsDirs (ho.quiet hq) hd hl (hlead.length hstack) h
  · rw [hwith] at h
    cases h

end Writes

/-! ## Copying and moving -/

section Moves
variable {st st' : Fs} {srcPath dstPath : CString}

lemma Image.KeepsDirs.noDot (h : st.image.KeepsDirs st'.image) (hs : st.image.Sound)
    (ho' : InOrder st') (hvol : st'.vol = st.vol) (hstack : st'.stackName = st.stackName) {d : Nat}
    {l : List Nat} {leaf path : CString} {f : Found} (hlead : Leads st path d leaf)
    (hl : st.image.ChainAt d l) (hlook : lookup leaf [] (st.image.slots l) = some f)
    (hfile : direntIsDir f.ent = false) : NoDot st' path := by
  intro d' l' leaf' g hlead' hl' hlook' hdot
  obtain ⟨hg, he⟩ := lookup_some hlook'
  obtain ⟨q, hq⟩ := hlead'.dir ho'.sound
  have hdir := (ho'.sound.dot hq hl' hg he hdot).1
  obtain ⟨rfl, rfl⟩ : d' = d ∧ leaf' = leaf := by
    rcases hlead with ⟨hne, -, hres⟩ | ⟨rfl, rfl, rfl, -⟩
    · rcases hlead' with ⟨-, -, hres'⟩ | ⟨hnil, -⟩
      · have hroot : st'.image.vol.rootCluster = st.image.vol.rootCluster :=
          congrArg Volume.rootCluster hvol
        rw [hroot] at hres'
        exact h.resolves hs .root hres hres'
      · exact absurd hnil hne
    · rcases hlead' with ⟨hne, -⟩ | ⟨-, rfl, rfl, -⟩
      · exact absurd rfl hne
      · exact ⟨congrArg Volume.rootCluster hvol, hstack⟩
  obtain ⟨p, hd⟩ := hlead.dir hs
  rw [h hd hl hlook hl' hlook' hdir, hfile] at hdir
  cases hdir

lemma copyContents_kept (ho : InOrder st) (hstack : st.stackName.length < 64)
    (h : copyContents st srcPath dstPath = some (true, st')) :
    InOrder st' ∧ st.image.KeepsDirs st'.image ∧ st'.vol = st.vol ∧ st'.stackName = st.stackName := by
  have hread := fsReadFile_out ho srcPath
  rw [copyContents] at h
  generalize fsReadFile st srcPath = r at hread h
  cases hread with
  | failed => cases h
  | stuck => cases h
  | @read st1 ptr size _ _ hheap =>
    dsimp only at h
    have ho1 := hheap.inOrder ho
    have hstack1 : st1.stackName.length < 64 := by
      rw [hheap.stackName]
      exact hstack
    obtain ⟨ok, st2, hwrite, hdisk, hkept⟩ := write_kept ho1 hstack1 dstPath
      (slice st1.heap.mem ptr size) false
    rw [fsWriteFile, hwrite] at h
    obtain ⟨heap, -, heq⟩ := Option.map_eq_some_iff.mp h
    cases heq
    have hfree : HeapOnly st2 { st2 with heap := heap } := ⟨heap, _, _, rfl⟩
    refine ⟨hfree.inOrder (hkept rfl), ?_, ?_, ?_⟩
    · rw [hfree.image, ← hheap.image]
      exact fsWriteFile_keepsDirs ho1 hstack1 hwrite
    · obtain ⟨_, _, _, rfl⟩ := hheap
      exact hdisk.vol
    · exact hdisk.stackName.trans hheap.stackName

lemma fsCopy_kept (ho : InOrder st) (hstack : st.stackName.length < 64)
    (h : fsCopy st srcPath dstPath = some (true, st')) :
    InOrder st' ∧ NoDot st' srcPath ∧ st'.stackName = st.stackName := by
  rw [fsCopy] at h
  generalize hk : (fun (st : Fs) (dir : Nat) (name : CString) => _) = k at h
  rcases withLeaf_cases false k srcPath ho.ready ho.mounted ho.sound with
    ⟨d, p, leaf, hd, hlead⟩ | ⟨st1, hwith, -⟩
  · obtain ⟨l, hl⟩ := ho.sound.dir_chain hd
    obtain ⟨st1, st2, hwith, -, hfind, hq⟩ := withLeaf_find false k ho.ready ho.mounted hlead hl
    rw [hwith, ← hk] at h
    dsimp only at h
    rw [hfind] at h
    cases hlook : lookup leaf [] (st.image.slots l) with
    | none =>
      rw [hlook] at h
      cases h
    | some f =>
      rw [hlook] at h
      dsimp only at h
      cases hdir : direntIsDir f.ent with
      | true =>
        rw [if_pos hdir] at h
        cases h
      | false =>
        rw [if_neg (by rw [hdir]; decide)] at h
        have hname : st2.stackName = st.stackName := hq.diskOnly.stackName
        obtain ⟨ho', hkeeps, hvol, hstack'⟩ := copyContents_kept (ho.quiet hq) (by rw [hname]; exact hstack) h
        rw [hq.image] at hkeeps
        refine ⟨ho', ?_, hstack'.trans hname⟩
        exact hkeeps.noDot ho.sound ho' (hvol.trans hq.vol) (hstack'.trans hname) hlead hl hlook hdir
  · rw [hwith] at h
    cases h

lemma fsMove_kept (ho : InOrder st) (hstack : st.stackName.length < 64) (hzero : 0 ∉ st.stackName)
    (hno : NoDot st srcPath) (hshort : ShortHere st srcPath dstPath) (hdst : 0 ∉ dstPath)
    (h : fsMove st srcPath dstPath = some (true, st')) :
    InOrder st' ∧ st'.stackName = st.stackName := by
  by_cases heq : srcPath = dstPath
  · have hsame : fsMove st srcPath dstPath = some (true, st) := by
      rw [fsMove, fsRename, if_neg (by rw [ho.mounted]; decide), if_pos heq]
    cases hsame.symm.trans h
    exact ⟨ho, rfl⟩
  obtain ⟨ok, st1, hren, hdisk, hmoved, hfailed⟩ := fsRename_kept ho hstack srcPath dstPath
  rw [fsMove, hren] at h
  cases ok with
  | true =>
    cases h
    exact ⟨hmoved rfl hno hshort heq, hdisk.stackName⟩
  | false =>
    dsimp only at h
    have hq := hfailed rfl hdst hzero
    have hname1 : st1.stackName = st.stackName := hdisk.stackName
    cases hcopy : fsCopy st1 srcPath dstPath with
    | none =>
      rw [hcopy] at h
      cases h
    | some r =>
      obtain ⟨ok, st2⟩ := r
      rw [hcopy] at h
      cases ok with
      | false => cases h
      | true =>
        dsimp only at h
        obtain ⟨ho2, hno2, hname2⟩ := fsCopy_kept (ho.quiet hq) (by rw [hname1]; exact hstack) hcopy
        obtain ⟨ok, st3, hdel, hdisk3, hkept⟩ := fsDelete_kept ho2 srcPath
        cases hdel.symm.trans h
        exact ⟨hkept rfl hno2, hdisk3.stackName.trans (hname2.trans hname1)⟩

end Moves

/-! ## Runs -/

/-- A call that returns 1. -/
def Op.step (st : Fs) (op : Op) : Option Fs :=
  match op.run st with
  | some (true, st') => some st'
  | _ => none

/-- The source of a deletion, a renaming or a move does not lead to `.` or `..`, and an entry gets no
long name in its own directory. -/
def Op.Safe (st : Fs) : Op → Prop
  | .delete path => NoDot st path
  | .rename oldPath newPath => NoDot st oldPath ∧ ShortHere st oldPath newPath
  | .move srcPath dstPath => NoDot st srcPath ∧ ShortHere st srcPath dstPath ∧ 0 ∉ dstPath
  | _ => True

section Runs
variable {st st' : Fs}

lemma Op.step_run {op : Op} (h : op.step st = some st') : op.run st = some (true, st') := by
  unfold Op.step at h
  split at h
  next hrun =>
    cases h
    exact hrun
  · cases h

lemma Op.step_kept {name : CString} (hlen : name.length < 64) (hzero : 0 ∉ name) {op : Op}
    (h : InOrder st ∧ st.stackName = name) (hsafe : op.Safe st) (hstep : op.step st = some st') :
    InOrder st' ∧ st'.stackName = name := by
  obtain ⟨ho, rfl⟩ := h
  have hrun := Op.step_run hstep
  -- an operation that returns and keeps the order when it returns 1
  have hkept : ∀ {r : Option (Bool × Fs)}, r = some (true, st') →
      (∃ ok t, r = some (ok, t) ∧ DiskOnly st t ∧ (ok = true → InOrder t)) →
      InOrder st' ∧ st'.stackName = st.stackName := by
    rintro r rfl ⟨ok, t, heq, hdisk, hok⟩
    cases heq
    exact ⟨hok rfl, hdisk.stackName⟩
  cases op with
  | writeFile path data => exact hkept hrun (write_kept ho hlen path data false)
  | appendFile path data => exact hkept hrun (write_kept ho hlen path data true)
  | mkdir path => exact hkept hrun (mkdir_kept ho hlen path)
  | delete path =>
    apply hkept hrun
    obtain ⟨ok, t, hdel, hdisk, hok⟩ := fsDelete_kept ho path
    exact ⟨ok, t, hdel, hdisk, fun h => hok h hsafe⟩
  | rename oldPath newPath =>
    by_cases heq : oldPath = newPath
    · have hsame : fsRename st oldPath newPath = some (true, st) := by
        rw [fsRename, if_neg (by rw [ho.mounted]; decide), if_pos heq]
      exact hkept hrun ⟨true, st, hsame, DiskOnly.refl st, fun _ => ho⟩
    · apply hkept hrun
      obtain ⟨ok, t, hren, hdisk, hok, -⟩ := fsRename_kept ho hlen oldPath newPath
      exact ⟨ok, t, hren, hdisk, fun h => hok h hsafe.1 hsafe.2 heq⟩
  | copy srcPath dstPath =>
    obtain ⟨ho', -, hname⟩ := fsCopy_kept ho hlen hrun
    exact ⟨ho', hname⟩
  | move srcPath dstPath => exact fsMove_kept ho hlen hzero hsafe.1 hsafe.2.1 hsafe.2.2 hrun

end Runs

/-- In every run of calls that all return 1 and are safe where they are made, the volume is consistent
in every state reached. -/
theorem consistent_along (st : Fs) (hw : WellFormed st) (hin : RunsInside st)
    (hlen : st.stackName.length < 64) (hzero : 0 ∉ st.stackName) (ops : List Op) (st' : Fs)
    (hrun : Run Op.step st ops st') (hsafe : Along Op.step Op.Safe st ops) :
    st'.image.Consistent := by
  have hkept := hrun.invariant_along (G := Op.Safe) (fun s => InOrder s ∧ s.stackName = st.stackName)
    (fun s op t h hop hstep => Op.step_kept hlen hzero h hop hstep) ⟨hw.inOrder hin, rfl⟩ hsafe
  exact hkept.1.sound.consistent hkept.1.ready.geometry

lemma oneFile_checked : oneFile.image.Checked [(2, 2)] := by decide +kernel

lemma oneFile_noDot : NoDot oneFile [0x2F, 97] := by
  intro d l leaf f hlead hl hlook hdot
  have hd : d = 2 := by
    rcases hlead with ⟨-, -, hres⟩ | ⟨hnil, -⟩
    · cases hres with
      | leaf => rfl
      | step hrest => exact absurd rfl hrest
    · cases hnil
  subst hd
  obtain rfl := FatChain.unique oneFile_wellFormed.ready.geometry hl
    (oneFile_checked.chains _ List.mem_cons_self).1
  have hslots : ∀ f ∈ oneFile.image.slots (oneFile.image.chainOf 2), ¬ IsDot f.ent := by decide +kernel
  exact hslots f (lookup_some hlook).1 hdot

/-- A file is deleted, a directory made and a file written there. -/
theorem consistent_along_oneFile :
    ∃ st', Run Op.step oneFile [.delete [0x2F, 97], .mkdir [0x2F, 98], .writeFile [0x2F, 98, 0x2F, 99] [9]]
      st' ∧ st'.image.Consistent := by
  have hok : (exec Op.step oneFile [.delete [0x2F, 97], .mkdir [0x2F, 98],
      .writeFile [0x2F, 98, 0x2F, 99] [9]]).isSome = true := by decide +kernel
  obtain ⟨st', hexec⟩ := Option.isSome_iff_exists.mp hok
  have hrun := Run.of_exec hexec
  refine ⟨st', hrun, consistent_along oneFile oneFile_wellFormed ?_ (by decide) (by decide) _ st' hrun ?_⟩
  · exact runsInside_of_checked [(2, 2)] (smallFs_ready _ _) oneFile_checked (by decide +kernel)
  · exact ⟨oneFile_noDot, fun _ _ => ⟨trivial, fun _ _ => ⟨trivial, fun _ _ => trivial⟩⟩⟩

/-- Deleting `.` of an empty directory releases the directory, whose entry is left in the root. -/
theorem not_consistent_dot :
    WellFormed subDir ∧ ∃ st', Run Op.step subDir [.delete [0x44, 0x2F, 0x2E]] st' ∧
      ¬ st'.image.Consistent := by
  have hok : (exec Op.step subDir [.delete [0x44, 0x2F, 0x2E]]).map (fun st =>
      (decide (st.vol = subDir.vol), decide (st.image.ChainAt 2 [2]),
        decide (⟨slotOf [0x44] 0x10 3 0, 2, 0⟩ ∈ st.image.slots [2]), st.fat 3)) =
      some (true, true, true, 0) := by decide +kernel
  obtain ⟨st', hexec, heq⟩ := Option.map_eq_some_iff.mp hok
  simp only [Prod.mk.injEq, decide_eq_true_eq] at heq
  obtain ⟨hvol, hroot, hmem, hfree⟩ := heq
  refine ⟨subDir_wellFormed, st', Run.of_exec hexec, ?_⟩
  intro hcons
  have hdir : st'.image.Dir 2 2 := by
    have hroot : st'.image.vol.rootCluster = 2 := congrArg Volume.rootCluster hvol
    rw [← hroot]
    exact .root
  have hfirst : direntFirstCluster (slotOf [0x44] 0x10 3 0) = 3 := by decide +kernel
  apply hcons.used hdir hroot hmem (by decide +kernel) (by decide +kernel)
  rw [hfirst]
  exact hfree

end FusionOS.Fat
