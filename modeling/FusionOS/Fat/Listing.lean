import FusionOS.Fat.ReadBack

/-!
# Listing a directory

`fs_list_dir` passes its path to `path_dir_cluster`, which leads to the directory that holds the
last component, and lists that one.
-/

namespace FusionOS.Fat

open List

/-- What `fat_read_dir` sees in the slots of a directory, behind the long-name text `lfn`. -/
def listing : CString → List Found → List FsEntry
  | _, [] => []
  | lfn, f :: fs =>
    if f.ent.getD 0 0 = 0 then []
    else if f.ent.getD 0 0 = 0xE5 then listing [] fs
    else if direntAttr f.ent = 0x0F then listing (lfnStep lfn f.ent) fs
    else if direntAttr f.ent &&& 0x08 != 0 then listing [] fs
    else ⟨entryName lfn f.ent, le32At f.ent 28, direntIsDir f.ent⟩ :: listing [] fs

namespace Image
variable (I : Image)

/-- The path names the directory at `d`: it is the root, or all its components lead to a directory. -/
def NamesDir (path : CString) (d : Nat) : Prop :=
  ((path = [] ∨ path = rootPath) ∧ d = I.vol.rootCluster) ∨
    ∃ w leaf l f, I.Names path w leaf ∧ I.ChainAt w l ∧ lookup leaf [] (I.slots l) = some f ∧
      direntIsDir f.ent = true ∧ direntFirstCluster f.ent ≠ 0 ∧ d = direntFirstCluster f.ent

/-- The directory `d` has the entries `entries`. -/
def Lists (d : Nat) (entries : List FsEntry) : Prop :=
  ∃ l, I.ChainAt d l ∧ entries = listing [] (I.slots l)

/-- No directory of the tree has more than `n` entries. -/
def AtMost (n : Nat) : Prop := ∀ d p entries, I.Dir d p → I.Lists d entries → entries.length ≤ n

end Image

/-- `fs_list_dir` returns 1 with the entries of the directory that the path names, and 0 where it
names none. -/
def ListsNamed (st : Fs) (path : CString) (maxEntries : Nat) : Prop :=
  ∃ r st', fsListDir st path maxEntries = some (r, st') ∧
    (∀ d entries, st.image.NamesDir path d → st.image.Lists d entries → r = some entries) ∧
    ((∀ d, ¬ st.image.NamesDir path d) → r = none)

/-! ## Reading a directory -/

/-- What an entry is listed as; volume labels are not. -/
def listedAs (x : CString × Found) : Option FsEntry :=
  if direntAttr x.2.ent &&& 0x08 != 0 then none
  else some ⟨x.1, le32At x.2.ent 28, direntIsDir x.2.ent⟩

lemma listedAs_name {x : CString × Found} {e : FsEntry} (h : listedAs x = some e) : x.1 = e.name := by
  unfold listedAs at h
  split at h
  · cases h
  · cases h
    rfl

lemma listing_entries (lfn : CString) (fs : List Found) :
    listing lfn fs = (entries lfn fs).filterMap listedAs := by
  induction fs generalizing lfn with
  | nil => rfl
  | cons f fs ih =>
    rw [listing]
    rcases slot_cases f.ent with h0 | h | ⟨h0, h⟩
    · rw [entries_end h0, if_pos h0]
      rfl
    · rw [entries_entry h, if_neg h.1, if_neg h.2.1, if_neg h.2.2, filterMap_cons, ← ih, listedAs]
      dsimp only
      split <;> rfl
    · rw [entries_other h0 h, if_neg h0, ← ih]
      exact ite_other h0 h (fun t => listing t fs) _

lemma run_readDirSlot (maxEntries : Nat) (fs : List Found) (lfn : CString) :
    (Scan.run (fun s f => readDirSlot maxEntries s f.cluster f.offset f.ent) fs (lfn, [])).result
      Prod.snd = (listing lfn fs).take maxEntries := by
  -- along the entries, with those collected so far
  have hrun : ∀ (xs : List (CString × Found)) (acc : List FsEntry), acc.length ≤ maxEntries →
      (Scan.run (fun acc x => if direntAttr x.2.ent &&& 0x08 != 0 then Scan.next acc
        else if maxEntries ≤ acc.length then Scan.stop acc
        else Scan.next (acc ++ [⟨x.1, le32At x.2.ent 28, direntIsDir x.2.ent⟩])) xs acc).result id =
        acc ++ (xs.filterMap listedAs).take (maxEntries - acc.length) := by
    intro xs
    induction xs with
    | nil => exact fun acc _ => by simp [Scan.run, Scan.result]
    | cons x xs ih =>
      intro acc hacc
      rw [Scan.run, filterMap_cons, listedAs]
      by_cases hlabel : (direntAttr x.2.ent &&& 0x08 != 0) = true
      · rw [if_pos hlabel, if_pos hlabel]
        exact ih acc hacc
      rw [if_neg hlabel, if_neg hlabel]
      by_cases hfull : maxEntries ≤ acc.length
      · rw [if_pos hfull, Nat.sub_eq_zero_of_le hfull, take_zero, append_nil]
        rfl
      · rw [if_neg hfull]
        dsimp only
        rw [ih _ (by rw [length_append, length_singleton]; omega), append_assoc, length_append,
          show maxEntries - acc.length = maxEntries - (acc.length + 1) + 1 by omega, take_succ_cons]
        rfl
  rw [listing_entries]
  exact (run_dirSlot _ _ fs lfn []).trans (hrun _ [] (Nat.zero_le _))

lemma fatReadDir_ok {st : Fs} (hr : Ready st) {d : Nat} {l : List Nat} (h : FatChain st.vol st.fat d l)
    {maxEntries : Nat} (hmax : (listing [] (dirSlots st.vol st.data l)).length ≤ maxEntries) :
    ∃ st', fatReadDir st d maxEntries =
      some (some (listing [] (dirSlots st.vol st.data l)), st') := by
  obtain ⟨st', hrun, -⟩ := chainLoop_ok hr h id (readDirSlot maxEntries) chainFuel
    (FatChain.lt_fuel h hr.geometry) ([], [])
  refine ⟨st', ?_⟩
  have hlist := run_readDirSlot maxEntries (dirSlots st.vol st.data l) []
  rw [take_of_length_le hmax] at hlist
  rw [fatReadDir, hrun, dirScan_id, ← hlist]
  cases Scan.run (fun s f => readDirSlot maxEntries s f.cluster f.offset f.ent)
      (dirSlots st.vol st.data l) ([], []) with
  | next s => rfl
  | stop r => rfl

/-! ## Which directory is listed -/

section Listed
variable {st : Fs}

variable {path : CString} {I : Image} {d : Nat}

lemma fatReadDir_lists (hr : Ready st) (hs : st.image.Sound) {n : Nat} (hmax : st.image.AtMost n)
    {p : Nat} (hd : st.image.Dir d p) :
    ∃ entries st', fatReadDir st d n = some (some entries, st') ∧ st.image.Lists d entries := by
  obtain ⟨l, hl⟩ := hs.dir_chain hd
  have hlists : st.image.Lists d (listing [] (st.image.slots l)) := ⟨l, hl, rfl⟩
  obtain ⟨st', hrun⟩ := fatReadDir_ok hr hl (hmax d p _ hd hlists)
  exact ⟨_, st', hrun, hlists⟩

lemma Image.Lists.unique (hg : Geometry I.vol) {es es' : List FsEntry}
    (h : I.Lists d es) (h' : I.Lists d es') : es = es' := by
  obtain ⟨l, hl, rfl⟩ := h
  obtain ⟨l', hl', rfl⟩ := h'
  rw [FatChain.unique hg hl hl']

lemma pathStart_ne_nil (h : path ≠ []) (h' : path ≠ rootPath) : pathStart path ≠ [] := by
  unfold pathStart
  cases path with
  | nil => exact absurd rfl h
  | cons c cs =>
    split
    · rename_i hc
      rintro rfl
      cases hc
      exact h' rfl
    · exact h

lemma not_names_root {leaf : CString} (h : path = [] ∨ path = rootPath) :
    ¬ I.Names path d leaf := by
  rintro ⟨hne, -, hres⟩
  rcases h with rfl | rfl
  · exact hne rfl
  · exact hres.ne_nil rfl

lemma Image.NamesDir.root_iff (h : path = [] ∨ path = rootPath) :
    I.NamesDir path d ↔ d = I.vol.rootCluster := by
  constructor
  · rintro (⟨-, hd⟩ | ⟨w, leaf, l, f, hnames, -⟩)
    · exact hd
    · exact absurd hnames (not_names_root h)
  · exact fun hd => Or.inl ⟨h, hd⟩

lemma Image.Sound.namesDir (hs : I.Sound) (hg : Geometry I.vol)
    (h : I.NamesDir path d) :
    (∃ q, I.Dir d q) ∧ ∀ d', I.NamesDir path d' → d' = d := by
  rcases h with ⟨hroot, rfl⟩ | ⟨w, leaf, l, f, hnames, hl, hlook, hdir, h0, rfl⟩
  · exact ⟨⟨_, .root⟩, fun d' h' => (Image.NamesDir.root_iff hroot).mp h'⟩
  · obtain ⟨q, hq⟩ := hs.dir_of_names hnames
    obtain ⟨hf, he⟩ := lookup_some hlook
    refine ⟨hs.dir_of_entry hq hl hf he hdir h0, ?_⟩
    rintro d' (⟨hroot, -⟩ | ⟨w', leaf', l', f', hnames', hl', hlook', -, -, rfl⟩)
    · exact absurd hnames (not_names_root hroot)
    · obtain ⟨rfl, rfl⟩ := hnames.2.2.unique hg hnames'.2.2
      rw [FatChain.unique hg hl' hl, hlook] at hlook'
      cases hlook'
      rfl

end Listed

/-- A volume with the empty directory `D` in its root directory. -/
def subDir : Fs :=
  smallFs [(2, 0x0FFFFFFF), (3, 0x0FFFFFFF)]
    [(2, slotOf [0x44] 0x10 3 0),
      (3, direntSetFirstCluster (newDirent dotShort 0x10) 3 ++
        direntSetFirstCluster (newDirent dotdotShort 0x10) 2)]

lemma subDir_checked : subDir.image.Checked [(2, 2), (3, 2)] := by decide +kernel

lemma subDir_wellFormed : WellFormed subDir :=
  wellFormed_of_checked [(2, 2), (3, 2)] (smallFs_ready _ _) rfl subDir_checked

lemma subDir_atMost : subDir.image.AtMost 16 := by
  rintro d p entries hd ⟨l, hl, rfl⟩
  have hg := subDir_wellFormed.ready.geometry
  have hmem := subDir_checked.dir hg hd
  rw [FatChain.unique hg hl (subDir_checked.chains _ hmem).1]
  have hall : ∀ x ∈ [(2, 2), (3, 2)],
      (listing [] (subDir.image.slots (subDir.image.chainOf x.1))).length ≤ 16 := by decide +kernel
  exact hall _ hmem

end FusionOS.Fat
