import FusionOS.Fat.WellFormed

/-!
# The geometry that `fs_init` derives

`fs_init` checks the signature, the sector size and that two of the fields are not zero. The other
fields of the boot sector are taken as they are.
-/

namespace FusionOS.Fat

/-- Every access to the FAT and to the data area of the volume stays in its region. The sectors are
those that `fat_set_entry` and the users of `cluster_to_lba` compute. -/
structure SoundGeometry (v : Volume) : Prop where
  copies : 1 ≤ v.fatCount
  noWrap : v.reservedSectors + v.fatCount * v.fatSize ≤ v.totalSectors
  root : v.IsCluster v.rootCluster
  entry : ∀ c, v.IsCluster c → c * 4 + 4 ≤ v.fatSize * 512
  entrySector : ∀ c k, v.IsCluster c → k < v.fatCount →
    v.partLba + v.reservedSectors + k * v.fatSize ≤
        u32 (v.fatStartLba + u32 (c * 4) / 512 + k * v.fatSize) ∧
      u32 (v.fatStartLba + u32 (c * 4) / 512 + k * v.fatSize) <
        v.partLba + v.reservedSectors + (k + 1) * v.fatSize
  dataSector : ∀ c s, v.IsCluster c → s < v.sectorsPerCluster →
    v.partLba ≤ u32 (clusterToLba v c + s) ∧ u32 (clusterToLba v c + s) < v.partLba + v.totalSectors

/-- The boot sector's fields: `spc` sectors per cluster, `res` reserved sectors, `fats` copies of
`size` sectors, `total` sectors from `part` on, and the root directory at cluster `root`. -/
structure RegionsFit (spc res fats size total root part : Nat) : Prop where
  copies : 1 ≤ fats
  data : res + fats * size ≤ total
  root_ge : 2 ≤ root
  root_lt : root < (total - res - fats * size) / spc + 2
  table : ((total - res - fats * size) / spc + 2) * 4 ≤ size * 512
  last : part + res + fats * size + (total - res - fats * size) / spc * spc ≤ 2 ^ 32

instance (spc res fats size total root part : Nat) :
    Decidable (RegionsFit spc res fats size total root part) :=
  decidable_of_iff (1 ≤ fats ∧ res + fats * size ≤ total ∧ 2 ≤ root ∧
      root < (total - res - fats * size) / spc + 2 ∧
      ((total - res - fats * size) / spc + 2) * 4 ≤ size * 512 ∧
      part + res + fats * size + (total - res - fats * size) / spc * spc ≤ 2 ^ 32)
    ⟨fun ⟨h1, h2, h3, h4, h5, h6⟩ => ⟨h1, h2, h3, h4, h5, h6⟩,
      fun ⟨h1, h2, h3, h4, h5, h6⟩ => ⟨h1, h2, h3, h4, h5, h6⟩⟩

def BootFits (buf : Mem) (partLba : Nat) : Prop :=
  RegionsFit (buf 13).toNat (load buf 14 2) (buf 16).toNat (load buf 36 4) (load buf 32 4)
    (load buf 44 4) partLba

/-- What `fs_init` computes from the fields. -/
structure Derived (v : Volume) : Prop where
  part_lt : v.partLba < 2 ^ 32
  spc_pos : 0 < v.sectorsPerCluster
  total_lt : v.totalSectors < 2 ^ 32
  fatStart : v.fatStartLba = u32 (v.partLba + v.reservedSectors)
  dataStart : v.dataStartLba = u32 (v.fatStartLba + u32 (v.fatCount * v.fatSize))
  clusters : v.totalClusters = u32 (v.totalSectors + (2 ^ 32 - v.reservedSectors) +
    (2 ^ 32 - u32 (v.fatCount * v.fatSize))) / v.sectorsPerCluster

section Derived
variable {v : Volume}

lemma Derived.totalClusters (h : Derived v)
    (hdata : v.reservedSectors + v.fatCount * v.fatSize ≤ v.totalSectors) :
    v.totalClusters =
      (v.totalSectors - v.reservedSectors - v.fatCount * v.fatSize) / v.sectorsPerCluster := by
  have hlt := h.total_lt
  rw [h.clusters]
  congr 1
  unfold u32
  generalize v.fatCount * v.fatSize = fats at hdata ⊢
  omega

lemma Derived.sector_eq (h : Derived v) {c s : Nat} (hc : 2 ≤ c) :
    u32 (clusterToLba v c + s) = (v.partLba + v.reservedSectors + v.fatCount * v.fatSize +
      ((c - 2) * v.sectorsPerCluster + s)) % 2 ^ 32 := by
  have hsplit : (c + (2 ^ 32 - 2)) * v.sectorsPerCluster =
      (c - 2) * v.sectorsPerCluster + 2 ^ 32 * v.sectorsPerCluster := by
    rw [← Nat.add_mul]
    congr 1
    omega
  unfold clusterToLba
  rw [hsplit, h.dataStart, h.fatStart]
  unfold u32
  generalize v.fatCount * v.fatSize = fats
  generalize (c - 2) * v.sectorsPerCluster = off
  omega

lemma cluster_end_le {c n spc s : Nat} (h2 : 2 ≤ c) (hc : c < n + 2) (hs : s < spc) :
    (c - 2) * spc + s < n * spc := by
  have hmul : (c - 2 + 1) * spc ≤ n * spc := Nat.mul_le_mul_right _ (by omega)
  rw [Nat.add_mul] at hmul
  omega

lemma Derived.sound (h : Derived v) (hf : RegionsFit v.sectorsPerCluster v.reservedSectors v.fatCount
    v.fatSize v.totalSectors v.rootCluster v.partLba) : SoundGeometry v := by
  have hn := h.totalClusters hf.data
  have hroot := hf.root_lt
  have htable := hf.table
  have hlast := hf.last
  rw [← hn] at hroot htable hlast
  have htotal := h.total_lt
  have hin : v.totalClusters * v.sectorsPerCluster ≤
      v.totalSectors - v.reservedSectors - v.fatCount * v.fatSize := by
    rw [hn]
    exact Nat.div_mul_le_self _ _
  have hdata := hf.data
  refine ⟨hf.copies, hf.data, ⟨hf.root_ge, hroot⟩, ?_, ?_, ?_⟩
  · intro c hc
    have hlt : c < v.totalClusters + 2 := hc.2
    omega
  · intro c k hc hk
    have hlt : c < v.totalClusters + 2 := hc.2
    have hcopy : (k + 1) * v.fatSize ≤ v.fatCount * v.fatSize := Nat.mul_le_mul_right _ hk
    rw [Nat.add_mul, Nat.one_mul] at hcopy ⊢
    have hfatEnd : v.partLba + v.reservedSectors + v.fatCount * v.fatSize ≤ 2 ^ 32 := by omega
    have hsector : u32 (c * 4) / 512 < v.fatSize := by
      apply Nat.div_lt_of_lt_mul
      exact Nat.lt_of_le_of_lt (Nat.mod_le _ _) (by omega)
    generalize u32 (c * 4) / 512 = q at hsector ⊢
    have hstart : v.fatStartLba = v.partLba + v.reservedSectors := by
      rw [h.fatStart]
      exact u32_of_lt (by omega)
    rw [hstart, u32_of_lt (by omega)]
    constructor
    · omega
    · omega
  · intro c s hc hs
    have hend := cluster_end_le hc.1 hc.2 hs
    rw [h.sector_eq hc.1, Nat.mod_eq_of_lt (by omega)]
    constructor
    · omega
    · omega

lemma Derived.fits (h : Derived v) (hv : SoundGeometry v) :
    RegionsFit v.sectorsPerCluster v.reservedSectors v.fatCount
      v.fatSize v.totalSectors v.rootCluster v.partLba := by
  have hn := h.totalClusters hv.noWrap
  obtain ⟨hroot, hlim⟩ := hv.root
  unfold Volume.limit at hlim
  -- the last cluster and its last sector
  have hlastc : v.IsCluster (v.totalClusters + 1) := ⟨by omega, by unfold Volume.limit; omega⟩
  have hpos := h.spc_pos
  have hsec := hv.dataSector _ (v.sectorsPerCluster - 1) hlastc (by omega)
  have hentry := hv.entry _ hlastc
  rw [h.sector_eq hlastc.1] at hsec
  refine ⟨hv.copies, hv.noWrap, hroot, ?_, ?_, ?_⟩
  · rwa [← hn]
  · rw [← hn]
    omega
  · have hin : v.totalClusters * v.sectorsPerCluster ≤
        v.totalSectors - v.reservedSectors - v.fatCount * v.fatSize := by
      rw [hn]
      exact Nat.div_mul_le_self _ _
    have hmul : v.totalClusters * v.sectorsPerCluster =
        (v.totalClusters + 1 - 2) * v.sectorsPerCluster + v.sectorsPerCluster := by
      rw [← Nat.succ_mul]
      congr 1
      omega
    rw [← hn]
    have hwrap := hv.noWrap
    have hpart := h.part_lt
    have htotal := h.total_lt
    generalize (v.totalClusters + 1 - 2) * v.sectorsPerCluster = off at hsec hmul
    rw [hmul] at hin ⊢
    generalize v.fatCount * v.fatSize = fats at hsec hin hwrap ⊢
    omega

end Derived

lemma bootGeometry_some {buf : Mem} {partLba : Nat} {v : Volume} (hpart : partLba < 2 ^ 32)
    (h : bootGeometry buf partLba = some v) :
    Derived v ∧ v.partLba = partLba ∧ v.sectorsPerCluster = (buf 13).toNat ∧
      v.reservedSectors = load buf 14 2 ∧ v.fatCount = (buf 16).toNat ∧ v.fatSize = load buf 36 4 ∧
      v.totalSectors = load buf 32 4 ∧ v.rootCluster = load buf 44 4 := by
  unfold bootGeometry at h
  split at h
  · cases h
  dsimp only at h
  split at h
  · cases h
  rename_i hok
  cases h
  refine ⟨⟨hpart, ?_, load_lt _ _ _, rfl, rfl, rfl⟩, rfl, rfl, rfl, rfl, rfl, rfl, rfl⟩
  dsimp only
  omega

lemma partitionStart_lt (buf : Mem) : partitionStart buf < 2 ^ 32 := by
  unfold partitionStart
  split
  · split
    · exact load_lt _ _ _
    · exact Nat.two_pow_pos 32
  · exact Nat.two_pow_pos 32

lemma fsInit_true {st : Fs} (h : (fsInit st).1 = true) :
    bootGeometry (st.disk (partitionStart (st.disk 0))) (partitionStart (st.disk 0)) =
      some (fsInit st).2.vol := by
  unfold fsInit blkRead at h ⊢
  dsimp only at h ⊢
  by_cases h0 : st.ioOk st.ops = true
  · rw [if_pos h0] at h ⊢
    dsimp only at h ⊢
    by_cases h1 : st.ioOk (st.ops + 1) = true
    · rw [if_pos h1] at h ⊢
      dsimp only at h ⊢
      cases hv : bootGeometry (st.disk (partitionStart (st.disk 0))) (partitionStart (st.disk 0)) with
      | none =>
        rw [hv] at h
        cases h
      | some v => rfl
    · rw [if_neg h1] at h
      cases h
  · rw [if_neg h0] at h
    cases h

/-- The geometry of a mounted volume is sound exactly where the fields of its boot sector give
regions that fit into the partition and into 32-bit sector numbers. -/
theorem mount_sound_iff {st : Fs} (h : (fsInit st).1 = true) :
    SoundGeometry (fsInit st).2.vol ↔
      BootFits (st.disk (partitionStart (st.disk 0))) (partitionStart (st.disk 0)) := by
  obtain ⟨hd, hpart, hspc, hres, hfats, hsize, htotal, hroot⟩ :=
    bootGeometry_some (partitionStart_lt _) (fsInit_true h)
  unfold BootFits
  rw [← hspc, ← hres, ← hfats, ← hsize, ← htotal, ← hroot, ← hpart]
  exact ⟨hd.fits, hd.sound⟩

/-- A disk that starts with the boot sector of a small volume with `fats` copies of the FAT. -/
def bootFs (fats : UInt8) : Fs :=
  { smallFs [] [] with
    disk := fun lba =>
      if lba = 0 then
        splice (splice (fun _ => 0) 11 [0, 2, 1, 1, 0, fats]) 32
          ([10, 0, 0, 0, 1, 0, 0, 0, 0, 0, 0, 0, 2] ++ List.replicate 465 0 ++ [0x55, 0xAA])
      else fun _ => 0 }

theorem mount_sound_bootFs : (fsInit (bootFs 1)).1 = true ∧ SoundGeometry (fsInit (bootFs 1)).2.vol := by
  have h : (fsInit (bootFs 1)).1 = true := by decide +kernel
  exact ⟨h, (mount_sound_iff h).mpr (by unfold BootFits; decide +kernel)⟩

/-- A boot sector that gives no copy of the FAT is mounted. -/
theorem not_mount_sound_noFat :
    (fsInit (bootFs 0)).1 = true ∧ ¬ SoundGeometry (fsInit (bootFs 0)).2.vol := by
  refine ⟨by decide +kernel, fun h => ?_⟩
  have hnone : (fsInit (bootFs 0)).2.vol.fatCount = 0 := by decide +kernel
  have hsome := h.copies
  omega

end FusionOS.Fat
