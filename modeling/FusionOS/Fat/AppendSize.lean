import FusionOS.Fat.ChainLength

/-!
# The size of a file after an append

Old size plus new bytes, and that sum rounded up to clusters, are 32-bit sums.
-/

namespace FusionOS.Fat

/-- What is asked of an append to the file with the entry `f`, the chain `l` and the contents `old`:
one past 2 ^ 32 bytes is refused and changes nothing, and one that succeeds makes no file
smaller. -/
structure AppendSafe (st : Fs) (path : CString) (f : Found) (l : List Nat) (old data : List UInt8) :
    Prop where
  refused : 2 ^ 32 ≤ direntFileSize f.ent + data.length →
    ∃ st', fsAppendFile st path data = some (false, st') ∧ FileAt st' path f l old
  grows : ∀ st' f' l' bs, fsAppendFile st path data = some (true, st') →
    FileAt st' path f' l' bs → direntFileSize f.ent ≤ direntFileSize f'.ent

def appendedSize (v : Volume) (size len : Nat) : Nat :=
  if neededClusters v (u32 (size + len)) = 0 then 0 else u32 (size + len)

lemma neededClusters_le {v : Volume} (hg : Geometry v) {n k : Nat} (hn : n < 2 ^ 32)
    (h : n ≤ k * clusterBytes v) : neededClusters v n ≤ k := by
  have hcb := clusterBytes_ge hg
  by_cases hfit : n + clusterBytes v ≤ 2 ^ 32
  · rw [neededClusters_eq (by omega) hfit]
    apply Nat.le_of_lt_succ
    rw [Nat.div_lt_iff_lt_mul (by omega), Nat.succ_mul]
    omega
  · rw [neededClusters_wrap hg hn (by omega)]
    exact Nat.zero_le k

lemma le_appendedSize_iff {v : Volume} (hg : Geometry v) {size len : Nat} (hsize : size < 2 ^ 32)
    (hlen : len < 2 ^ 32) : size ≤ appendedSize v size len ↔
      size = 0 ∨ size + len + clusterBytes v ≤ 2 ^ 32 := by
  have hcb := clusterBytes_ge hg
  unfold appendedSize
  by_cases hwrap : 2 ^ 32 ≤ size + len
  · have hu : u32 (size + len) = size + len - 2 ^ 32 := by
      unfold u32
      omega
    refine iff_of_false ?_ (by omega)
    split <;> omega
  · rw [u32_of_lt (by omega)]
    by_cases hfit : size + len + clusterBytes v ≤ 2 ^ 32
    · have hle := le_neededClusters (by omega) hfit
      refine iff_of_true ?_ (.inr hfit)
      split
      · next h0 =>
        rw [h0, Nat.zero_mul] at hle
        omega
      · omega
    · rw [if_pos (neededClusters_wrap hg (by omega) (by omega))]
      omega

section Append
variable {st st' : Fs} {path : CString} {f : Found} {l : List Nat} {old data : List UInt8}

lemma append_cases (hr : Ready st) (hp : Place st.vol f.cluster f.offset) (h32 : f.ent.length = 32)
    (hdir : direntIsDir f.ent = false) (hne : direntFirstCluster f.ent ≠ 0)
    (hch : FatChain st.vol st.fat (direntFirstCluster f.ent) l) (hout : f.cluster ∉ l)
    (hused : st.fat f.cluster ≠ 0) (data : List UInt8) :
    ∃ ok st', fatWriteEntry st f data true = some (ok, st') ∧
      (ok = true → ∃ l' first,
        Relinked st st' f l l' first (appendedSize st.vol (direntFileSize f.ent) data.length)) ∧
      (neededClusters st.vol (u32 (direntFileSize f.ent + data.length)) ≤ l.length → ok = true) := by
  rw [fatWriteEntry_keep data hdir hne]
  unfold appendedSize
  split
  · obtain ⟨st', hupd, hrw⟩ := Rewritten.empty hr hp h32 l
    rw [hupd]
    exact ⟨true, st', rfl, fun _ => ⟨[], 0, hrw.toRelinked⟩, fun _ => rfl⟩
  · rcases Nat.lt_or_ge (freeClusters st.vol st.fat).length
        (neededClusters st.vol (u32 (direntFileSize f.ent + data.length)) - l.length) with hfull | hroom
    · obtain ⟨st', hfail, -⟩ := appendFile_full data hr hch hfull
      exact ⟨false, st', hfail, fun h => absurd h Bool.false_ne_true, fun h => by omega⟩
    · obtain ⟨st', l', hok, -, hlink, -⟩ := appendFile_ok data hr hp h32 hch hout hused hroom
      exact ⟨true, st', hok, fun _ => ⟨l', _, hlink⟩, fun _ => rfl⟩

lemma fsAppendFile_cases (hw : WellFormed st) (hfile : FileAt st path f l old)
    (hne : direntFirstCluster f.ent ≠ 0) (data : List UInt8) :
    ∃ ok st', fsAppendFile st path data = some (ok, st') ∧
      (ok = true → ∃ f' l' bs, FileAt st' path f' l' bs ∧ st'.vol = st.vol ∧
        direntFileSize f'.ent = appendedSize st.vol (direntFileSize f.ent) data.length) ∧
      (neededClusters st.vol (u32 (direntFileSize f.ent + data.length)) ≤ l.length → ok = true) := by
  obtain ⟨d, ld, leaf, hnames, hl, hlook⟩ := hfile.named
  obtain ⟨hmem, hent⟩ := lookup_some hlook
  obtain ⟨p, hd⟩ := hw.sound.dir_of_names hnames
  obtain ⟨st1, hq, hcall⟩ := write_entry hw hnames hl hlook data true
  have hch := (hfile.chain.resolve_left fun h => hne h.1).2
  have hr1 := hq.ready hw.ready
  have hcases := @append_cases st1 f l hr1
  rw [hq.vol, hq.fat] at hcases
  obtain ⟨ok, st', hrun, hlink, hroom⟩ := hcases (place_of_mem hl hmem) (ent_length hmem) hfile.file hne
    hch (not_mem_of_file hw.sound hd hl hmem hent hfile.file hfile.chain) (used_of_mem hl hmem) data
  refine ⟨ok, st', ?_, fun hok => ?_, hroom⟩
  · rw [fsAppendFile, hcall, hrun]
  · obtain ⟨l', first, hlink⟩ := hlink hok
    have hlink' := hlink.of_quiet hq
    have hfile' := hlink'.fileAt hw hfile
    refine ⟨_, l', _, hfile', hlink'.disk.vol, ?_⟩
    have hsize := congrArg List.length hfile'.contents
    rw [fileBytes_length, fileBytes_length] at hsize
    exact hsize.symm

/-- Old size and new bytes keep clear of 2 ^ 32, rounded up to clusters, or the file had no bytes. -/
def AppendFits (v : Volume) (size len : Nat) : Prop :=
  size + len < 2 ^ 32 ∧ (size = 0 ∨ size + len + clusterBytes v ≤ 2 ^ 32)

/-- An append does what is asked of it just where no sum of sizes wraps. -/
theorem append_safe_iff (st : Fs) (hw : WellFormed st) (path : CString) (f : Found) (l : List Nat)
    (old : List UInt8) (hfile : FileAt st path f l old) (data : List UInt8)
    (hlen : data.length < 2 ^ 32) :
    AppendSafe st path f l old data ↔ AppendFits st.vol (direntFileSize f.ent) data.length := by
  have hg := hw.ready.geometry
  have hsize := fileSize_lt f.ent
  have hroom := hfile.size_le hw
  by_cases hne : direntFirstCluster f.ent = 0
  · -- without a chain the file is empty
    have h0 : direntFileSize f.ent = 0 := by
      have hnil : l = [] := by
        rcases hfile.chain with ⟨-, hnil⟩ | ⟨h, -⟩
        · exact hnil
        · exact absurd hne h
      rw [hnil, List.length_nil, Nat.zero_mul] at hroom
      omega
    refine iff_of_true ⟨fun h => by omega, fun st' f' l' bs _ _ => by omega⟩ ⟨by omega, .inl h0⟩
  obtain ⟨ok, st', hrun, hok, hforce⟩ := fsAppendFile_cases hw hfile hne data
  constructor
  · rintro ⟨hrefused, hgrows⟩
    have hnowrap : direntFileSize f.ent + data.length < 2 ^ 32 := by
      by_contra hwrap
      obtain ⟨st₁, hfail, -⟩ := hrefused (by omega)
      -- what is left of the sum fits the chain, so the call succeeds
      have hsum : u32 (direntFileSize f.ent + data.length) ≤ l.length * clusterBytes st.vol := by
        refine Nat.le_trans ?_ hroom
        unfold u32
        omega
      have htrue := hforce (neededClusters_le hg (Nat.mod_lt _ (by decide)) hsum)
      rw [hrun, htrue] at hfail
      cases hfail
    refine ⟨hnowrap, ?_⟩
    by_contra hno
    rw [← le_appendedSize_iff hg hsize hlen] at hno
    have hwrap : neededClusters st.vol (u32 (direntFileSize f.ent + data.length)) = 0 := by
      by_contra hpos
      rw [appendedSize, if_neg hpos, u32_of_lt hnowrap] at hno
      omega
    have htrue := hforce (by rw [hwrap]; exact Nat.zero_le _)
    obtain ⟨f', l', bs, hfile', -, hsize'⟩ := hok htrue
    have hle := hgrows st' f' l' bs (by rw [hrun, htrue]) hfile'
    rw [hsize'] at hle
    exact hno hle
  · rintro ⟨hnowrap, hfit⟩
    refine ⟨fun h => by omega, ?_⟩
    intro st₁ f₁ l₁ bs₁ hrun₁ hfile₁
    rw [hrun] at hrun₁
    cases hrun₁
    obtain ⟨f', l', bs, hfile', hvol, hsize'⟩ := hok rfl
    obtain ⟨rfl, -⟩ := hfile₁.unique (hvol ▸ hg) hfile'
    rw [hsize']
    exact (le_appendedSize_iff hg hsize hlen).mpr hfit

end Append

theorem append_safe_byte : AppendSafe oneFile [0x2F, 97] ⟨slotOf [65] 0x20 3 2, 2, 0⟩ [3] [7, 8] [9] :=
  (append_safe_iff oneFile oneFile_wellFormed _ _ _ _ oneFile_fileAt [9] (by decide)).mpr
    ⟨by decide +kernel, .inr (by decide +kernel)⟩

/-- A file of two bytes is empty after an append of 2 ^ 32 - 2 bytes that succeeds. -/
theorem not_append_safe_wrap : WellFormed oneFile ∧
    FileAt oneFile [0x2F, 97] ⟨slotOf [65] 0x20 3 2, 2, 0⟩ [3] [7, 8] ∧
    ∃ data st' f' l' bs, data.length = 2 ^ 32 - 2 ∧
      fsAppendFile oneFile [0x2F, 97] data = some (true, st') ∧ FileAt st' [0x2F, 97] f' l' bs ∧
      direntFileSize f'.ent = 0 ∧
      ¬ AppendSafe oneFile [0x2F, 97] ⟨slotOf [65] 0x20 3 2, 2, 0⟩ [3] [7, 8] data := by
  obtain ⟨data, hdata⟩ : ∃ data : List UInt8, data.length = 2 ^ 32 - 2 :=
    ⟨List.replicate _ 0, List.length_replicate⟩
  have hsize : direntFileSize (slotOf [65] 0x20 3 2) = 2 := by decide +kernel
  have hne : direntFirstCluster (slotOf [65] 0x20 3 2) ≠ 0 := by decide +kernel
  have hsum : u32 (2 + data.length) = 0 := by
    rw [hdata]
    rfl
  have hnone : neededClusters oneFile.vol 0 = 0 := neededClusters_zero oneFile_wellFormed.ready.geometry
  obtain ⟨ok, st', hrun, hok, hforce⟩ := fsAppendFile_cases oneFile_wellFormed oneFile_fileAt hne data
  rw [hsize, hsum, hnone] at hforce
  obtain rfl := hforce (Nat.zero_le _)
  obtain ⟨f', l', bs, hfile, -, hsize'⟩ := hok rfl
  rw [hsize, appendedSize, hsum, hnone, if_pos rfl] at hsize'
  refine ⟨oneFile_wellFormed, oneFile_fileAt, data, st', f', l', bs, hdata, hrun, hfile, hsize', ?_⟩
  intro hsafe
  have hle := hsafe.grows st' f' l' bs hrun hfile
  rw [hsize'] at hle
  exact absurd (hsize.symm.trans_le hle) (by decide)

end FusionOS.Fat
