import FusionOS.Fat.Names
import FusionOS.Kernel.Heap

/-!
# The mounted volume and its allocation table

The state of `fs.c` is the mounted geometry, the disk, the one sector buffer that all functions
share, and the kernel heap that `fs_read_file` allocates from. The `n`-th block transfer succeeds
where `ioOk n` holds; a failed one moves no data.
-/

namespace FusionOS.Fat

/-- `fat32_fs_t`. -/
structure Volume where
  sectorsPerCluster : Nat
  reservedSectors : Nat
  fatCount : Nat
  fatSize : Nat
  totalSectors : Nat
  rootCluster : Nat
  fatStartLba : Nat
  dataStartLba : Nat
  totalClusters : Nat
  partLba : Nat
  mounted : Bool
  deriving DecidableEq

structure Fs where
  vol : Volume
  disk : Nat → Mem
  sectorBuf : Mem
  ioOk : Nat → Bool
  ops : Nat
  heap : Memory.Heap
  /-- What an uninitialised `name` buffer on the stack reads as. -/
  stackName : CString

def u32 (x : Nat) : Nat := x % 2 ^ 32

def eoc : Nat := 0x0FFFFFF8

@[irreducible] def chainFuel : Nat := 2 ^ 28

def blkRead (st : Fs) (lba : Nat) : Bool × Fs :=
  if st.ioOk st.ops then
    (true, { st with ops := st.ops + 1, sectorBuf := st.disk lba })
  else (false, { st with ops := st.ops + 1 })

def blkWrite (st : Fs) (lba : Nat) : Bool × Fs :=
  if st.ioOk st.ops then
    (true, { st with ops := st.ops + 1, disk := Function.update st.disk lba st.sectorBuf })
  else (false, { st with ops := st.ops + 1 })

def clusterToLba (v : Volume) (cluster : Nat) : Nat :=
  u32 (v.dataStartLba + (cluster + (2 ^ 32 - 2)) * v.sectorsPerCluster)

def fatGetEntry (st : Fs) (cluster : Nat) : Nat × Fs :=
  let fatOffset := u32 (cluster * 4)
  match blkRead st (u32 (st.vol.fatStartLba + fatOffset / 512)) with
  | (false, st) => (0x0FFFFFFF, st)
  | (true, st) => (load st.sectorBuf (fatOffset % 512) 4 % 2 ^ 28, st)

/-- The loop of `fat_set_entry` over the copies of the table. -/
def setCopies (cluster value : Nat) : Nat → Nat → Fs → Bool × Fs
  | 0, _, st => (true, st)
  | n + 1, copy, st =>
    let fatOffset := u32 (cluster * 4)
    let sector := u32 (st.vol.fatStartLba + fatOffset / 512 + copy * st.vol.fatSize)
    match blkRead st sector with
    | (false, st) => (false, st)
    | (true, st) =>
      match blkWrite { st with sectorBuf := store st.sectorBuf (fatOffset % 512) 4 value } sector with
      | (false, st) => (false, st)
      | (true, st) => setCopies cluster value n (copy + 1) st

def fatSetEntry (st : Fs) (cluster value : Nat) : Bool × Fs :=
  setCopies cluster value st.vol.fatCount 0 st

/-- The search loop of `fat_alloc_cluster`. -/
def allocLoop : Nat → Nat → Fs → Option Nat × Fs
  | 0, _, st => (none, st)
  | n + 1, cluster, st =>
    match fatGetEntry st cluster with
    | (entry, st) =>
      if entry = 0 then
        match fatSetEntry st cluster 0x0FFFFFFF with
        | (true, st) => (some cluster, st)
        | (false, st) => (none, st)
      else allocLoop n (cluster + 1) st

def fatAllocCluster (st : Fs) : Option Nat × Fs := allocLoop (st.vol.totalClusters - 2) 2 st

/-- The loop of `fat_free_chain`. -/
def freeLoop : Nat → Nat → Fs → Option (Bool × Fs)
  | 0, _, _ => none
  | fuel + 1, cluster, st =>
    if 2 ≤ cluster ∧ cluster < eoc then
      match fatGetEntry st cluster with
      | (next, st) =>
        match fatSetEntry st cluster 0 with
        | (true, st) => freeLoop fuel next st
        | (false, st) => some (false, st)
    else some (true, st)

def fatFreeChain (st : Fs) (start : Nat) : Option (Bool × Fs) := freeLoop chainFuel start st

/-- The byte of the master boot record that marks a partition as FAT. -/
def isFatType (type : UInt8) : Bool := type == 0x0B || type == 0x0C || type == 0x0E

/-- The start of the first FAT partition in the boot record in the buffer, or 0. -/
def partitionStart (buf : Mem) : Nat :=
  if buf 510 = 0x55 ∧ buf 511 = 0xAA then
    match (List.range 4).find? fun i => isFatType (buf (0x1BE + i * 16 + 4)) with
    | some i => load buf (0x1BE + i * 16 + 8) 4
    | none => 0
  else 0

/-- The geometry that `fs_init` derives from a boot sector, where it accepts it. -/
def bootGeometry (buf : Mem) (partLba : Nat) : Option Volume :=
  if buf 510 ≠ 0x55 ∨ buf 511 ≠ 0xAA then none
  else
    let sectorsPerCluster := (buf 13).toNat
    let reserved := load buf 14 2
    let fatCount := (buf 16).toNat
    let fatSize := load buf 36 4
    let totalSectors := load buf 32 4
    if load buf 11 2 ≠ 512 ∨ sectorsPerCluster = 0 ∨ fatSize = 0 then none
    else
      let fatStartLba := u32 (partLba + reserved)
      let fatSectors := u32 (fatCount * fatSize)
      some
        { sectorsPerCluster := sectorsPerCluster
          reservedSectors := reserved
          fatCount := fatCount
          fatSize := fatSize
          totalSectors := totalSectors
          rootCluster := load buf 44 4
          fatStartLba := fatStartLba
          dataStartLba := u32 (fatStartLba + fatSectors)
          totalClusters :=
            u32 (totalSectors + (2 ^ 32 - reserved) + (2 ^ 32 - fatSectors)) / sectorsPerCluster
          partLba := partLba
          mounted := true }

/-- The geometry before the first and after every failed `fs_init`. -/
def Volume.none : Volume := ⟨0, 0, 0, 0, 0, 0, 0, 0, 0, 0, false⟩

/-- `fs_init`, on a disk whose driver is ready. -/
def fsInit (st : Fs) : Bool × Fs :=
  match blkRead { st with vol := Volume.none } 0 with
  | (false, st) => (false, st)
  | (true, st) =>
    let partLba := partitionStart st.sectorBuf
    match blkRead st partLba with
    | (false, st) => (false, st)
    | (true, st) =>
      match bootGeometry st.sectorBuf partLba with
      | Option.none => (false, st)
      | some vol => (true, { st with vol := vol })

end FusionOS.Fat
