import FusionOS.Lib.Chain
import FusionOS.Fat.File

/-!
# The volume as a table and clusters

On a volume with a sound geometry the disk holds two things that the functions of `fs.c` work on:
the link table (the first copy of the FAT) and the bytes of the data clusters.
-/

namespace FusionOS.Fat

open Function (update update_of_ne update_self)

def Volume.limit (v : Volume) : Nat := v.totalClusters + 2

/-- The geometry of a mountable volume: at least one FAT, which covers all data clusters, and
a data area that 32-bit sector numbers reach. -/
structure Geometry (v : Volume) : Prop where
  spc_pos : 0 < v.sectorsPerCluster
  spc_lt : v.sectorsPerCluster < 256
  fats : 0 < v.fatCount
  dataStart : v.dataStartLba = v.fatStartLba + v.fatCount * v.fatSize
  covered : v.limit * 4 ≤ v.fatSize * 512
  room : v.dataStartLba + v.totalClusters * v.sectorsPerCluster ≤ 2 ^ 32
  small : v.limit ≤ eoc
  root_ge : 2 ≤ v.rootCluster
  root_lt : v.rootCluster < v.limit

def Volume.IsCluster (v : Volume) (c : Nat) : Prop := 2 ≤ c ∧ c < v.limit

instance (v : Volume) (c : Nat) : Decidable (v.IsCluster c) := inferInstanceAs (Decidable (_ ∧ _))

/-- The entry of cluster `c` in the first FAT. -/
def Fs.fat (st : Fs) (c : Nat) : Nat :=
  if c < st.vol.limit then
    load (st.disk (st.vol.fatStartLba + c * 4 / 512)) (c * 4 % 512) 4 % 2 ^ 28
  else 0

/-- The 32 bits of entry `c` in copy `k` of the table. -/
def Fs.fatEntry (st : Fs) (k c : Nat) : Nat :=
  load (st.disk (st.vol.fatStartLba + c * 4 / 512 + k * st.vol.fatSize)) (c * 4 % 512) 4

/-- Every copy holds `value` for `c` and the old entries for all other numbers. -/
def EntrySet (st st' : Fs) (c value : Nat) : Prop :=
  ∀ k < st.vol.fatCount, st'.fatEntry k c = value ∧
    ∀ x, x * 4 < st.vol.fatSize * 512 → x ≠ c → st'.fatEntry k x = st.fatEntry k x

/-- Every copy of the FAT lies on the disk and has an entry for `c`, which is no end mark. -/
structure Volume.Covers (v : Volume) (c : Nat) : Prop where
  onDisk : v.fatStartLba + v.fatCount * v.fatSize ≤ 2 ^ 32
  entry : c * 4 < v.fatSize * 512
  small : c < eoc

/-- The bytes of cluster `c`. -/
def Fs.data (st : Fs) (c : Nat) : Mem := fun i =>
  if st.vol.IsCluster c ∧ i < clusterBytes st.vol then
    st.disk (st.vol.dataStartLba + (c - 2) * st.vol.sectorsPerCluster + i / 512) (i % 512)
  else 0

/-- The volume has a sound geometry and every block transfer succeeds. -/
structure Ready (st : Fs) : Prop where
  geometry : Geometry st.vol
  io : ∀ n, st.ioOk n = true

/-- `st'` is `st` but for the buffer and the count of transfers. -/
def Quiet (st st' : Fs) : Prop := ∃ buf n, st' = { st with sectorBuf := buf, ops := n }

/-- `st'` is `st` but for the disk, the buffer and the count of transfers. -/
def DiskOnly (st st' : Fs) : Prop :=
  ∃ disk buf n, st' = { st with disk := disk, sectorBuf := buf, ops := n }

/-- A cluster with the sector `s` overwritten by `buf`. -/
def setSector (m : Mem) (s : Nat) (buf : Mem) : Mem := fun i =>
  if i / 512 = s then buf (i % 512) else m i

lemma Quiet.refl (st : Fs) : Quiet st st := ⟨_, _, rfl⟩

lemma Quiet.trans {st1 st2 st3 : Fs} (h : Quiet st1 st2) (h' : Quiet st2 st3) :
    Quiet st1 st3 := by
  obtain ⟨_, _, rfl⟩ := h
  obtain ⟨b, n, rfl⟩ := h'
  exact ⟨b, n, rfl⟩

lemma Quiet.diskOnly {st st' : Fs} (h : Quiet st st') : DiskOnly st st' := by
  obtain ⟨b, n, rfl⟩ := h
  exact ⟨_, b, n, rfl⟩

lemma DiskOnly.refl (st : Fs) : DiskOnly st st := ⟨_, _, _, rfl⟩

lemma DiskOnly.trans {st1 st2 st3 : Fs} (h : DiskOnly st1 st2) (h' : DiskOnly st2 st3) :
    DiskOnly st1 st3 := by
  obtain ⟨_, _, _, rfl⟩ := h
  obtain ⟨d, b, n, rfl⟩ := h'
  exact ⟨d, b, n, rfl⟩

section Frames
variable {st st' : Fs}

lemma DiskOnly.vol (h : DiskOnly st st') : st'.vol = st.vol := by
  obtain ⟨_, _, _, rfl⟩ := h
  rfl

lemma DiskOnly.heap (h : DiskOnly st st') : st'.heap = st.heap := by
  obtain ⟨_, _, _, rfl⟩ := h
  rfl

lemma DiskOnly.stackName (h : DiskOnly st st') : st'.stackName = st.stackName := by
  obtain ⟨_, _, _, rfl⟩ := h
  rfl

lemma DiskOnly.ready (h : DiskOnly st st') (hr : Ready st) : Ready st' := by
  obtain ⟨_, _, _, rfl⟩ := h
  exact ⟨hr.geometry, hr.io⟩

lemma Quiet.fat (h : Quiet st st') : st'.fat = st.fat := by
  obtain ⟨_, _, rfl⟩ := h
  rfl

lemma Quiet.data (h : Quiet st st') : st'.data = st.data := by
  obtain ⟨_, _, rfl⟩ := h
  rfl

lemma Quiet.vol (h : Quiet st st') : st'.vol = st.vol := h.diskOnly.vol

lemma Quiet.ready (h : Quiet st st') (hr : Ready st) : Ready st' := h.diskOnly.ready hr

end Frames

/-- All copies of the FAT hold the same bytes. -/
def Fs.Mirrored (st : Fs) : Prop :=
  ∀ k < st.vol.fatCount, ∀ j < st.vol.fatSize, ∀ i < 512,
    st.disk (st.vol.fatStartLba + j + k * st.vol.fatSize) i = st.disk (st.vol.fatStartLba + j) i

/-- A sector in front of the FATs or behind the last data cluster. -/
def Volume.Outside (v : Volume) (lba : Nat) : Prop :=
  lba < v.fatStartLba ∨ v.dataStartLba + v.totalClusters * v.sectorsPerCluster ≤ lba

/-- `st'` is `st` but for the disk, where copies that agree go on to agree and no sector outside
changes, the buffer and the count of transfers. -/
structure Held (st st' : Fs) : Prop where
  disk : DiskOnly st st'
  mirrored : st.Mirrored → st'.Mirrored
  outside : ∀ lba, st.vol.Outside lba → st'.disk lba = st.disk lba

lemma Quiet.buffer {st st1 : Fs} (h : Quiet st st1) (buf : Mem) :
    Quiet st { st1 with sectorBuf := buf } := by
  obtain ⟨_, n, rfl⟩ := h
  exact ⟨buf, n, rfl⟩

lemma Quiet.held {st st1 : Fs} (h : Quiet st st1) : Held st st1 := by
  obtain ⟨buf, n, rfl⟩ := h
  exact ⟨⟨_, buf, n, rfl⟩, fun hm => hm, fun _ _ => rfl⟩

namespace Held
variable {st st1 st2 : Fs}

lemma refl (st : Fs) : Held st st := (Quiet.refl st).held

lemma vol (h : Held st st1) : st1.vol = st.vol := h.disk.vol

lemma trans (h : Held st st1) (h' : Held st1 st2) : Held st st2 := by
  refine ⟨h.disk.trans h'.disk, fun hm => h'.mirrored (h.mirrored hm), ?_⟩
  intro lba hout
  rw [h'.outside lba (by rw [h.vol]; exact hout), h.outside lba hout]

lemma ready (h : Held st st1) (hr : Ready st) : Ready st1 := h.disk.ready hr

end Held

/-! ## Sector numbers -/

section Sectors
variable {v : Volume} {c s : Nat}

lemma u32_of_lt {x : Nat} (h : x < 2 ^ 32) : u32 x = x := Nat.mod_eq_of_lt h

lemma Geometry.fat_sector_lt (hg : Geometry v) (hc : c < v.limit) : c * 4 / 512 < v.fatSize := by
  have := hg.covered
  omega

lemma Volume.Covers.copy_lt (h : v.Covers c) {k : Nat} (hk : k < v.fatCount) :
    v.fatStartLba + c * 4 / 512 + k * v.fatSize < v.fatStartLba + v.fatCount * v.fatSize := by
  have hs := h.entry
  have hm : (k + 1) * v.fatSize ≤ v.fatCount * v.fatSize := Nat.mul_le_mul_right _ hk
  rw [Nat.add_mul] at hm
  omega

lemma Volume.Covers.sector_eq (h : v.Covers c) {k : Nat} (hk : k < v.fatCount) :
    u32 (c * 4) = c * 4 ∧ u32 (v.fatStartLba + c * 4 / 512 + k * v.fatSize) =
      v.fatStartLba + c * 4 / 512 + k * v.fatSize := by
  have hsmall := h.small
  have hlt := h.copy_lt hk
  have hdisk := h.onDisk
  unfold eoc at hsmall
  exact ⟨u32_of_lt (by omega), u32_of_lt (by omega)⟩

lemma Geometry.covers (hg : Geometry v) (hc : c < v.limit) : v.Covers c := by
  have hcov := hg.covered
  have hroom := hg.room
  have hdata := hg.dataStart
  exact ⟨by omega, by omega, Nat.lt_of_lt_of_le hc hg.small⟩

lemma Geometry.fat_copy_lt (hg : Geometry v) (hc : c < v.limit) {k : Nat} (hk : k < v.fatCount) :
    v.fatStartLba + c * 4 / 512 + k * v.fatSize < v.dataStartLba := by
  rw [hg.dataStart]
  exact (hg.covers hc).copy_lt hk

lemma Geometry.data_sector_lt (hg : Geometry v) (hc : v.IsCluster c)
    (hs : s < v.sectorsPerCluster) :
    v.dataStartLba + (c - 2) * v.sectorsPerCluster + s < 2 ^ 32 := by
  have hlt : c - 2 + 1 ≤ v.totalClusters := by
    have h2 := hc.1
    have hlim := hc.2
    unfold Volume.limit at hlim
    omega
  have hm : (c - 2 + 1) * v.sectorsPerCluster ≤ v.totalClusters * v.sectorsPerCluster :=
    Nat.mul_le_mul_right _ hlt
  rw [Nat.add_mul] at hm
  have := hg.room
  omega

lemma Geometry.lba_eq (hg : Geometry v) (hc : v.IsCluster c) (hs : s < v.sectorsPerCluster) :
    u32 (clusterToLba v c + s) = v.dataStartLba + (c - 2) * v.sectorsPerCluster + s := by
  have hlt := hg.data_sector_lt hc hs
  have hsplit : (c + (2 ^ 32 - 2)) * v.sectorsPerCluster =
      (c - 2) * v.sectorsPerCluster + 2 ^ 32 * v.sectorsPerCluster := by
    have h2 := hc.1
    rw [← Nat.add_mul]
    congr 1
    omega
  unfold clusterToLba u32
  rw [hsplit, ← Nat.add_assoc, Nat.add_mul_mod_self_left, Nat.mod_add_mod, Nat.mod_eq_of_lt hlt]

lemma sector_inj {k a b i j : Nat} (hi : i < k) (hj : j < k) (h : a * k + i = b * k + j) :
    a = b ∧ i = j := by
  have hk : 0 < k := by omega
  have ha : (a * k + i) / k = a := by
    rw [Nat.mul_comm, Nat.mul_add_div hk, Nat.div_eq_of_lt hi, Nat.add_zero]
  have hb : (b * k + j) / k = b := by
    rw [Nat.mul_comm, Nat.mul_add_div hk, Nat.div_eq_of_lt hj, Nat.add_zero]
  have hab : a = b := by rw [← ha, h, hb]
  subst hab
  exact ⟨rfl, by omega⟩

end Sectors

/-! ## Transfers -/

section Primitives
variable {st : Fs}

lemma blkRead_ok (hr : Ready st) (lba : Nat) :
    blkRead st lba = (true, { st with ops := st.ops + 1, sectorBuf := st.disk lba }) := by
  rw [blkRead, if_pos (hr.io _)]

lemma blkWrite_ok (hr : Ready st) (lba : Nat) :
    blkWrite st lba =
      (true, { st with ops := st.ops + 1, disk := update st.disk lba st.sectorBuf }) := by
  rw [blkWrite, if_pos (hr.io _)]

lemma fatGetEntry_covered (hfats : 0 < st.vol.fatCount) {c : Nat} (hc : st.vol.Covers c) :
    ∃ st', fatGetEntry st c = (if st.ioOk st.ops then st.fatEntry 0 c % 2 ^ 28 else 0x0FFFFFFF, st') ∧
      Quiet st st' ∧ st'.ops = st.ops + 1 := by
  obtain ⟨h4, hsec⟩ := hc.sector_eq hfats
  rw [Nat.zero_mul, Nat.add_zero] at hsec
  unfold fatGetEntry blkRead Fs.fatEntry
  dsimp only
  rw [h4, hsec, Nat.zero_mul, Nat.add_zero]
  by_cases hio : st.ioOk st.ops = true
  · rw [if_pos hio, if_pos hio]
    exact ⟨_, rfl, ⟨_, _, rfl⟩, rfl⟩
  · rw [if_neg hio, if_neg hio]
    exact ⟨_, rfl, ⟨_, _, rfl⟩, rfl⟩

lemma fat_eq_fatEntry {c : Nat} (hc : c < st.vol.limit) : st.fat c = st.fatEntry 0 c % 2 ^ 28 := by
  rw [Fs.fat, if_pos hc, Fs.fatEntry, Nat.zero_mul, Nat.add_zero]

lemma fatGetEntry_any (hg : Geometry st.vol) {c : Nat} (hc : c < st.vol.limit) :
    ∃ st', fatGetEntry st c = (if st.ioOk st.ops then st.fat c else 0x0FFFFFFF, st') ∧ Quiet st st' ∧
      st'.ops = st.ops + 1 := by
  rw [fat_eq_fatEntry hc]
  exact fatGetEntry_covered hg.fats (hg.covers hc)

lemma fatGetEntry_ok (hr : Ready st) {c : Nat} (hc : c < st.vol.limit) :
    ∃ st', fatGetEntry st c = (st.fat c, st') ∧ Quiet st st' := by
  obtain ⟨st', hget, hq, -⟩ := fatGetEntry_any hr.geometry hc
  rw [if_pos (hr.io _)] at hget
  exact ⟨st', hget, hq⟩

lemma setCopies_ok (hio : ∀ n, st.ioOk n = true) {c : Nat} (hc : st.vol.Covers c)
    (value n copy : Nat) (hn : copy + n ≤ st.vol.fatCount) :
    ∃ st', setCopies c value n copy st = (true, st') ∧ DiskOnly st st' ∧
      (∀ k, copy ≤ k → k < copy + n →
        st'.disk (st.vol.fatStartLba + c * 4 / 512 + k * st.vol.fatSize) =
          store (st.disk (st.vol.fatStartLba + c * 4 / 512 + k * st.vol.fatSize))
            (c * 4 % 512) 4 value) ∧
      ∀ lba, (∀ k, copy ≤ k → k < copy + n →
          lba ≠ st.vol.fatStartLba + c * 4 / 512 + k * st.vol.fatSize) →
        st'.disk lba = st.disk lba := by
  induction n generalizing st copy with
  | zero =>
    refine ⟨st, rfl, DiskOnly.refl st, ?_, ?_⟩
    · intro k h1 h2
      omega
    · intro lba _
      rfl
  | succ n ih =>
    obtain ⟨h4, hsec⟩ := hc.sector_eq (show copy < st.vol.fatCount by omega)
    set lba := st.vol.fatStartLba + c * 4 / 512 + copy * st.vol.fatSize with hlba
    set st1 : Fs := { st with
      ops := st.ops + 1 + 1
      sectorBuf := store (st.disk lba) (c * 4 % 512) 4 value
      disk := update st.disk lba (store (st.disk lba) (c * 4 % 512) 4 value) } with hst1
    obtain ⟨st', hrun, hframe, hhit, hmiss⟩ :=
      @ih st1 hio hc (copy + 1) (by show copy + 1 + n ≤ st.vol.fatCount; omega)
    have hpos : 0 < st.vol.fatSize := by
      have := hc.entry
      omega
    have hne : ∀ k, copy < k → lba ≠ st.vol.fatStartLba + c * 4 / 512 + k * st.vol.fatSize := by
      intro k hk
      have := Nat.mul_lt_mul_of_pos_right hk hpos
      omega
    refine ⟨st', ?_, ?_, ?_, ?_⟩
    · unfold setCopies
      dsimp only
      rw [h4, ← hlba, hsec, blkRead, if_pos (hio _)]
      dsimp only
      rw [blkWrite, if_pos (hio _)]
      exact hrun
    · apply DiskOnly.trans _ hframe
      exact ⟨_, _, _, rfl⟩
    · intro k h1 h2
      rcases Nat.lt_or_ge copy k with hk | hk
      · rw [hhit k (by omega) (by omega)]
        show store (update st.disk lba _ _) _ _ _ = _
        rw [update_of_ne (hne k hk).symm]
      · have hkc : k = copy := by omega
        subst hkc
        rw [hmiss _ fun j h1 _ => hne j (by omega)]
        exact update_self ..
    · intro x hx
      rw [hmiss x fun k h1 h2 => hx k (by omega) (by omega)]
      exact update_of_ne (hx copy (by omega) (by omega)) _ _

lemma fatSetEntry_covered (hio : ∀ n, st.ioOk n = true) {c : Nat} (hc : st.vol.Covers c) (value : Nat) :
    ∃ st', fatSetEntry st c value = (true, st') ∧ DiskOnly st st' ∧
      EntrySet st st' c (value % 2 ^ 32) ∧
      ∀ lba, (∀ k < st.vol.fatCount, lba ≠ st.vol.fatStartLba + c * 4 / 512 + k * st.vol.fatSize) →
        st'.disk lba = st.disk lba := by
  obtain ⟨st', hrun, hd, hhit, hmiss⟩ := setCopies_ok hio hc value st.vol.fatCount 0 (by omega)
  refine ⟨st', hrun, hd, fun k hk => ?_, fun lba h => hmiss lba fun k _ hk => h k (by omega)⟩
  have hcopy := hhit k (Nat.zero_le k) (by omega)
  have hsec := hc.entry
  unfold Fs.fatEntry
  rw [hd.vol]
  refine ⟨?_, fun x hx hne => ?_⟩
  · rw [hcopy]
    exact load_store _ _ _ _
  · by_cases hsame : x * 4 / 512 = c * 4 / 512
    · rw [hsame, hcopy]
      exact load_store_disjoint _ _ _ _ (by omega)
    · -- the sector of another entry is no sector of this one in any copy
      rw [hmiss]
      intro j _ _ heq
      exact hsame (sector_inj (k := st.vol.fatSize) (a := k) (b := j) (by omega) (by omega)
        (by omega)).2

lemma blkRead_quiet (lba : Nat) : Quiet st (blkRead st lba).2 := by
  rw [blkRead]
  split
  · exact ⟨_, _, rfl⟩
  · exact ⟨_, _, rfl⟩

lemma fatGetEntry_quiet (c : Nat) : Quiet st (fatGetEntry st c).2 := by
  have h := @blkRead_quiet st (u32 (st.vol.fatStartLba + u32 (c * 4) / 512))
  rw [fatGetEntry]
  split <;> simpa [*] using h

lemma blkWrite_held (hr : Ready st) {c s : Nat} (hc : st.vol.IsCluster c)
    (hs : s < st.vol.sectorsPerCluster) :
    Held st (blkWrite st (u32 (clusterToLba st.vol c + s))).2 := by
  have hg := hr.geometry
  have hdata := hg.dataStart
  rw [hg.lba_eq hc hs, blkWrite_ok hr]
  refine ⟨⟨_, _, _, rfl⟩, ?_, ?_⟩
  · intro hm k hk j hj i hi
    dsimp only at hk hj ⊢
    have hcopy : ∀ n < st.vol.fatCount, st.vol.fatStartLba + j + n * st.vol.fatSize <
        st.vol.dataStartLba := by
      intro n hn
      have hle : (n + 1) * st.vol.fatSize ≤ st.vol.fatCount * st.vol.fatSize :=
        Nat.mul_le_mul_right _ hn
      rw [Nat.add_mul] at hle
      omega
    have hk' := hcopy k hk
    have h0 := hcopy 0 hg.fats
    rw [update_of_ne (by omega), update_of_ne (by omega)]
    exact hm k hk j hj i hi
  · intro lba hout
    have hle : (c - 2 + 1) * st.vol.sectorsPerCluster ≤
        st.vol.totalClusters * st.vol.sectorsPerCluster := by
      apply Nat.mul_le_mul_right
      have h2 := hc.1
      have hlim := hc.2
      unfold Volume.limit at hlim
      omega
    rw [Nat.add_mul] at hle
    apply update_of_ne
    rcases hout with hout | hout <;> omega

lemma blkWrite_data (hr : Ready st) {c s : Nat} (hc : st.vol.IsCluster c)
    (hs : s < st.vol.sectorsPerCluster) :
    ∃ st', blkWrite st (u32 (clusterToLba st.vol c + s)) = (true, st') ∧ Held st st' ∧
      st'.sectorBuf = st.sectorBuf ∧ st'.fat = st.fat ∧
      st'.data = update st.data c (setSector (st.data c) s st.sectorBuf) := by
  have hg := hr.geometry
  have hheld := blkWrite_held hr hc hs
  rw [hg.lba_eq hc hs, blkWrite_ok hr] at hheld ⊢
  refine ⟨_, rfl, hheld, rfl, ?_, ?_⟩
  · funext x
    unfold Fs.fat
    dsimp only
    split
    · next hx =>
      have := hg.fat_copy_lt hx hg.fats
      rw [update_of_ne (by omega)]
    · rfl
  · funext x i
    have hdiv : i < clusterBytes st.vol → i / 512 < st.vol.sectorsPerCluster := by
      intro hi
      unfold clusterBytes at hi
      omega
    by_cases hx : x = c
    · subst hx
      rw [update_self]
      unfold Fs.data setSector
      dsimp only
      by_cases hi : i < clusterBytes st.vol
      · simp only [hc, hi, and_self, if_true]
        by_cases hsec : i / 512 = s
        · rw [if_pos hsec, hsec, update_self]
        · rw [if_neg hsec, update_of_ne (by omega)]
      · have hsec : i / 512 ≠ s := by
          unfold clusterBytes at hi
          omega
        simp only [hi, and_false, if_false, if_neg hsec]
    · rw [update_of_ne hx]
      unfold Fs.data
      dsimp only
      split
      · next h =>
        have hne : st.vol.dataStartLba + (x - 2) * st.vol.sectorsPerCluster + i / 512 ≠
            st.vol.dataStartLba + (c - 2) * st.vol.sectorsPerCluster + s := by
          intro heq
          have hj := sector_inj (a := x - 2) (b := c - 2) (hdiv h.2) hs (by omega)
          have h2 := h.1.1
          have h3 := hc.1
          omega
        rw [update_of_ne hne]
      · rfl

lemma blkRead_data (hr : Ready st) {c s : Nat} (hc : st.vol.IsCluster c)
    (hs : s < st.vol.sectorsPerCluster) :
    ∃ st', blkRead st (u32 (clusterToLba st.vol c + s)) = (true, st') ∧ Quiet st st' ∧
      ∀ i < 512, st'.sectorBuf i = st.data c (s * 512 + i) := by
  have hg := hr.geometry
  rw [hg.lba_eq hc hs, blkRead_ok hr]
  refine ⟨_, rfl, ⟨_, _, rfl⟩, fun i hi => ?_⟩
  have hlt : s * 512 + i < clusterBytes st.vol := by
    unfold clusterBytes
    omega
  unfold Fs.data
  rw [if_pos ⟨hc, hlt⟩]
  dsimp only
  congr 2 <;> omega

lemma modify_sector (hr : Ready st) {c s : Nat} (hc : st.vol.IsCluster c)
    (hs : s < st.vol.sectorsPerCluster) :
    ∃ st1, blkRead st (u32 (clusterToLba st.vol c + s)) = (true, st1) ∧ Quiet st st1 ∧
      (∀ i < 512, st1.sectorBuf i = st.data c (s * 512 + i)) ∧
      ∀ buf, ∃ st2,
        blkWrite { st1 with sectorBuf := buf } (u32 (clusterToLba st.vol c + s)) = (true, st2) ∧
        Held st st2 ∧ st2.fat = st.fat ∧
        st2.data = update st.data c (setSector (st.data c) s buf) := by
  obtain ⟨st1, hread, hq, hbuf⟩ := blkRead_data hr hc hs
  refine ⟨st1, hread, hq, hbuf, fun buf => ?_⟩
  obtain ⟨b, n, rfl⟩ := hq
  have hq' : Quiet st { st with sectorBuf := buf, ops := n } := ⟨_, _, rfl⟩
  obtain ⟨st2, hwrite, hd, -, hfat, hdata⟩ := blkWrite_data (hq'.ready hr) (c := c) (s := s) hc hs
  exact ⟨st2, hwrite, hq'.held.trans hd, hfat, hdata⟩

lemma fatSetEntry_held (hr : Ready st) {c : Nat} (hc : c < st.vol.limit) (value : Nat) :
    Held st (fatSetEntry st c value).2 := by
  obtain ⟨st', hrun, hd, hhit, hmiss⟩ := setCopies_ok hr.io (hr.geometry.covers hc) value
    st.vol.fatCount 0 (by omega)
  have hg := hr.geometry
  have hsec := hg.fat_sector_lt hc
  rw [fatSetEntry, hrun]
  obtain ⟨disk, buf, n, rfl⟩ := hd
  dsimp only at hhit hmiss
  refine ⟨⟨_, _, _, rfl⟩, ?_, ?_⟩
  · intro hm k hk j hj i hi
    dsimp only at hk hj ⊢
    have h0 := hg.fats
    by_cases hjc : j = c * 4 / 512
    · -- the sector of the entry, in its copy `k` and in the first
      have hfirst := hhit 0 (Nat.le_refl 0) (by omega)
      rw [Nat.zero_mul, Nat.add_zero] at hfirst
      rw [hjc, hhit k (Nat.zero_le k) (by omega), hfirst]
      exact store_congr _ _ _ _ (hm k hk _ hsec i hi)
    · -- another sector: no copy of it is written to
      have hother : ∀ n, disk (st.vol.fatStartLba + j + n * st.vol.fatSize) =
          st.disk (st.vol.fatStartLba + j + n * st.vol.fatSize) := by
        intro n
        apply hmiss
        intro k _ _ heq
        exact hjc (sector_inj (a := n) (b := k) hj hsec (by omega)).2
      have hfirst := hother 0
      rw [Nat.zero_mul, Nat.add_zero] at hfirst
      rw [hother k, hfirst]
      exact hm k hk j hj i hi
  · intro lba hout
    apply hmiss
    intro k _ hk
    have hlt := hg.fat_copy_lt hc (show k < st.vol.fatCount by omega)
    rcases hout with hout | hout <;> omega

lemma fatSetEntry_ok (hr : Ready st) {c : Nat} (hc : c < st.vol.limit)
    {value : Nat} (hv : value < 2 ^ 28) :
    ∃ st', fatSetEntry st c value = (true, st') ∧ Held st st' ∧
      st'.fat = update st.fat c value ∧ st'.data = st.data := by
  have hg := hr.geometry
  obtain ⟨st', hrun, hframe, hset, hmiss⟩ := fatSetEntry_covered hr.io (hg.covers hc) value
  obtain ⟨hhit, hother⟩ := hset 0 hg.fats
  have hheld := fatSetEntry_held hr hc value
  rw [hrun] at hheld
  refine ⟨st', hrun, hheld, ?_, ?_⟩
  · funext x
    by_cases hx : x < st.vol.limit
    · rw [fat_eq_fatEntry (by rw [hframe.vol]; exact hx)]
      by_cases hxc : x = c
      · subst hxc
        rw [update_self, hhit]
        omega
      · rw [update_of_ne hxc, hother x (hg.covers hx).entry hxc, fat_eq_fatEntry hx]
    · rw [update_of_ne (by omega), Fs.fat, Fs.fat, hframe.vol, if_neg hx, if_neg hx]
  · funext x i
    unfold Fs.data
    rw [hframe.vol]
    split
    · rw [hmiss]
      intro k hk heq
      have := hg.fat_copy_lt hc hk
      omega
    · rfl

end Primitives

end FusionOS.Fat
