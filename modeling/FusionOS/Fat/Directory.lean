import FusionOS.Fat.Disk
import FusionOS.Lib.Scan

/-!
# Directories

The scanners of `fs.c` walk the slots of a directory cluster by cluster, sector by sector.
-/

namespace FusionOS.Fat

section Loops
variable {σ ρ : Type}

/-- The loop over the slots of the sector in the buffer. -/
def slotLoop (body : σ → Nat → Slot → Scan σ ρ) (buf : Mem) : Nat → Nat → σ → Scan σ ρ
  | 0, _, s => .next s
  | n + 1, off, s =>
    match body s off (slice buf off 32) with
    | .next s => slotLoop body buf n (off + 32) s
    | .stop r => .stop r

/-- The loop over the sectors of a cluster; `none` is the result after a failed read. -/
def sectorLoop (body : σ → Nat → Nat → Slot → Scan σ ρ) (cluster : Nat) :
    Nat → Nat → σ → Fs → Scan σ (Option ρ) × Fs
  | 0, _, a, st => (.next a, st)
  | n + 1, s, a, st =>
    match blkRead st (u32 (clusterToLba st.vol cluster + s)) with
    | (false, st) => (.stop none, st)
    | (true, st) =>
      match slotLoop (fun a off => body a cluster (off + s * 512)) st.sectorBuf 16 0 a with
      | .next a => sectorLoop body cluster n (s + 1) a st
      | .stop r => (.stop (some r), st)

/-- The loop over the clusters of a directory; `enter` is applied at the start of each. -/
def chainLoop (enter : σ → σ) (body : σ → Nat → Nat → Slot → Scan σ ρ) :
    Nat → Nat → σ → Fs → Option (Scan σ (Option ρ) × Fs)
  | 0, _, _, _ => none
  | fuel + 1, cluster, a, st =>
    if 2 ≤ cluster ∧ cluster < eoc then
      match sectorLoop body cluster st.vol.sectorsPerCluster 0 (enter a) st with
      | (.stop r, st) => some (.stop r, st)
      | (.next a, st) =>
        match fatGetEntry st cluster with
        | (next, st) => chainLoop enter body fuel next a st
    else some (.next a, st)

end Loops

/-- A slot as a scanner that assembles long names sees it: the state is the long-name text and
the scanner's own. -/
def dirSlot {α ρ : Type} (atEnd : α → ρ) (atEntry : α → CString → Nat → Nat → Slot → Scan α ρ)
    (s : CString × α) (cluster offset : Nat) (e : Slot) : Scan (CString × α) ρ :=
  if e.getD 0 0 = 0 then .stop (atEnd s.2)
  else if e.getD 0 0 = 0xE5 then .next ([], s.2)
  else if direntAttr e = 0x0F then .next (lfnStep s.1 e, s.2)
  else
    match atEntry s.2 (entryName s.1 e) cluster offset e with
    | .next a => .next ([], a)
    | .stop r => .stop r

/-- A directory entry and where it stands. -/
structure Found where
  ent : Slot
  cluster : Nat
  offset : Nat
  deriving DecidableEq

def findEntrySlot (name : CString) : CString × Unit → Nat → Nat → Slot →
    Scan (CString × Unit) (Option Found) :=
  dirSlot (fun _ => none) fun _ nameBuf cluster offset e =>
    if nameEquals nameBuf name then .stop (some ⟨e, cluster, offset⟩) else .next ()

def fatFindEntry (st : Fs) (dirCluster : Nat) (name : CString) : Option (Option Found × Fs) :=
  match chainLoop id (findEntrySlot name) chainFuel dirCluster ([], ()) st with
  | some (.stop (some r), st) => some (r, st)
  | some (_, st) => some (none, st)
  | none => none

def fatMarkDeleted (st : Fs) (dirCluster offset : Nat) : Bool × Fs :=
  let lba := u32 (clusterToLba st.vol dirCluster + offset / 512)
  match blkRead st lba with
  | (false, st) => (false, st)
  | (true, st) =>
    blkWrite { st with sectorBuf := Function.update st.sectorBuf (offset % 512) 0xE5 } lba

/-- An entry that `fat_delete_entry` has found, with the offsets of its long-name slots. -/
structure Doomed where
  cluster : Nat
  offset : Nat
  lfnOffsets : List Nat

/-- The treatment of a slot in `fat_delete_entry`: besides the text it keeps the offsets of the
long-name slots, at most 20 of them. -/
def deleteEntrySlot (name : CString) (s : CString × List Nat) (cluster offset : Nat) (e : Slot) :
    Scan (CString × List Nat) (Option Doomed) :=
  if e.getD 0 0 = 0 then .stop none
  else if e.getD 0 0 = 0xE5 then .next ([], [])
  else if direntAttr e = 0x0F then
    let offsets := if e.getD 0 0 &&& 0x40 != 0 then [] else s.2
    .next (lfnStep s.1 e, if offsets.length < 20 then offsets ++ [offset] else offsets)
  else if nameEquals (entryName s.1 e) name then .stop (some ⟨cluster, offset, s.2⟩)
  else .next ([], [])

/-- The marking loop of `fat_delete_entry`. -/
def markLoop (cluster : Nat) : List Nat → Fs → Bool × Fs
  | [], st => (true, st)
  | offset :: offsets, st =>
    match fatMarkDeleted st cluster offset with
    | (false, st) => (false, st)
    | (true, st) => markLoop cluster offsets st

def fatDeleteEntry (st : Fs) (dirCluster : Nat) (name : CString) : Option (Bool × Fs) :=
  match chainLoop (fun _ => ([], [])) (deleteEntrySlot name) chainFuel dirCluster ([], []) st with
  | some (.stop (some (some d)), st) => some (markLoop d.cluster (d.lfnOffsets ++ [d.offset]) st)
  | some (_, st) => some (false, st)
  | none => none

def dotName : CString := [0x2E]
def dotdotName : CString := [0x2E, 0x2E]

def isEmptySlot : CString × Unit → Nat → Nat → Slot → Scan (CString × Unit) Bool :=
  dirSlot (fun _ => true) fun _ nameBuf _ _ e =>
    if direntAttr e &&& 0x08 != 0 then .next ()
    else if nameBuf = dotName ∨ nameBuf = dotdotName then .next ()
    else .stop false

def fatDirIsEmpty (st : Fs) (dirCluster : Nat) : Option (Bool × Fs) :=
  match chainLoop id isEmptySlot chainFuel dirCluster ([], ()) st with
  | some (.stop (some r), st) => some (r, st)
  | some (.stop none, st) => some (false, st)
  | some (.next _, st) => some (true, st)
  | none => none

/-- `fs_entry_t`. -/
structure FsEntry where
  name : CString
  size : Nat
  isDir : Bool
  deriving DecidableEq

def readDirSlot (maxEntries : Nat) : CString × List FsEntry → Nat → Nat → Slot →
    Scan (CString × List FsEntry) (List FsEntry) :=
  dirSlot id fun entries nameBuf _ _ e =>
    if direntAttr e &&& 0x08 != 0 then .next entries
    else if maxEntries ≤ entries.length then .stop entries
    else .next (entries ++ [⟨nameBuf, le32At e 28, direntIsDir e⟩])

/-- `fat_read_dir`; `none` inside is the return value 0. -/
def fatReadDir (st : Fs) (dirCluster maxEntries : Nat) : Option (Option (List FsEntry) × Fs) :=
  match chainLoop id (readDirSlot maxEntries) chainFuel dirCluster ([], []) st with
  | some (.stop r, st) => some (r, st)
  | some (.next s, st) => some (some s.2, st)
  | none => none

/-- The search of `fat_create_entry` in one sector for `total` free slots in a row; the result is
the offset of the first. -/
def freeRun (buf : Mem) (total : Nat) : Nat → Nat → Nat → Option Nat
  | 0, _, _ => none
  | n + 1, off, run =>
    let run := if buf off = 0 ∨ buf off = 0xE5 then run + 1 else 0
    if total ≤ run then some (off - (total - 1) * 32) else freeRun buf total n (off + 32) run

/-- The long-name slots of `name`, from order `i` down to 1. -/
def lfnSlots (name : CString) (short : List UInt8) (count : Nat) : Nat → List Slot
  | 0 => []
  | i + 1 =>
    fatWriteLfnEntries name short (i + 1) (i + 1 == count) :: lfnSlots name short count i

/-- The slots that `fat_create_entry` writes for a new entry, in disk order. -/
def entrySlots (name : CString) (attr : UInt8) : List Slot :=
  lfnSlots name (nameToShort name) (lfnCount name) (lfnCount name) ++
    [newDirent (nameToShort name) attr]

/-- The loop of `fat_create_entry` over the sectors of a cluster. A sector without a run is
written back as it is. -/
def createSectors (name : CString) (attr : UInt8) (cluster : Nat) :
    Nat → Nat → Fs → Scan Unit (Option Found) × Fs
  | 0, _, st => (.next (), st)
  | n + 1, s, st =>
    let lba := u32 (clusterToLba st.vol cluster + s)
    match blkRead st lba with
    | (false, st) => (.stop none, st)
    | (true, st) =>
      match freeRun st.sectorBuf (lfnCount name + 1) 16 0 0 with
      | some startOff =>
        match blkWrite { st with
            sectorBuf := splice st.sectorBuf startOff (entrySlots name attr).flatten } lba with
        | (false, st) => (.stop none, st)
        | (true, st) =>
          (.stop (some ⟨newDirent (nameToShort name) attr, cluster, startOff + s * 512⟩), st)
      | none =>
        match blkWrite st lba with
        | (false, st) => (.stop none, st)
        | (true, st) => createSectors name attr cluster n (s + 1) st

/-- The loop of `fat_create_entry` over the clusters of the directory; it goes on with the cluster
at which the walk ended. -/
def createChain (name : CString) (attr : UInt8) :
    Nat → Nat → Fs → Option (Scan Nat (Option Found) × Fs)
  | 0, _, _ => none
  | fuel + 1, cluster, st =>
    if 2 ≤ cluster ∧ cluster < eoc then
      match createSectors name attr cluster st.vol.sectorsPerCluster 0 st with
      | (.stop r, st) => some (.stop r, st)
      | (.next _, st) =>
        match fatGetEntry st cluster with
        | (next, st) =>
          if eoc ≤ next then some (.next cluster, st) else createChain name attr fuel next st
    else some (.next cluster, st)

/-- Writes the buffer to `n` sectors of a cluster, from sector `s` on. -/
def fillCluster (cluster : Nat) : Nat → Nat → Fs → Bool × Fs
  | 0, _, st => (true, st)
  | n + 1, s, st =>
    match blkWrite st (u32 (clusterToLba st.vol cluster + s)) with
    | (false, st) => (false, st)
    | (true, st) => fillCluster cluster n (s + 1) st

/-- The body of `fat_create_entry`; the first argument bounds its recursion into fresh clusters. -/
def createEntry (name : CString) (attr : UInt8) :
    Nat → Nat → Fs → Option (Option Found × Fs)
  | 0, _, _ => none
  | depth + 1, dirCluster, st =>
    match createChain name attr chainFuel dirCluster st with
    | none => none
    | some (.stop r, st) => some (r, st)
    | some (.next cluster, st) =>
      match fatAllocCluster st with
      | (none, st) => some (none, st)
      | (some new, st) =>
        match fatSetEntry st cluster new with
        | (_, st) =>
          match fatSetEntry st new 0x0FFFFFFF with
          | (_, st) =>
            match fillCluster new st.vol.sectorsPerCluster 0 { st with sectorBuf := fun _ => 0 } with
            | (false, st) => some (none, st)
            | (true, st) => createEntry name attr depth new st

def fatCreateEntry (st : Fs) (dirCluster : Nat) (name : CString) (attr : UInt8) :
    Option (Option Found × Fs) :=
  createEntry name attr chainFuel dirCluster st

def fatUpdateDirent (st : Fs) (dirCluster offset : Nat) (ent : Slot) : Bool × Fs :=
  let lba := u32 (clusterToLba st.vol dirCluster + offset / 512)
  match blkRead st lba with
  | (false, st) => (false, st)
  | (true, st) => blkWrite { st with sectorBuf := splice st.sectorBuf (offset % 512) ent } lba

/-- The first component of a path. -/
def pathComp (p : CString) : CString := p.takeWhile (· != 0x2F)

/-- What follows the first component and the slashes behind it. -/
def pathRest (p : CString) : CString := (p.drop (pathComp p).length).dropWhile (· == 0x2F)

/-- The path without one leading slash. -/
def pathStart (path : CString) : CString := if path.head? = some 0x2F then path.tail else path

/-- The loop of `path_dir_cluster` over the components of a path; the buffer for a component
holds 63 bytes. -/
def pathLoop : Nat → Nat → CString → Fs → Option ((Nat × CString) × Fs)
  | 0, _, _, _ => none
  | fuel + 1, dir, p, st =>
    if p = [] then some ((dir, []), st)
    else if pathRest p = [] then some ((dir, (pathComp p).take 63), st)
    else
      match fatFindEntry st dir ((pathComp p).take 63) with
      | none => none
      | some (none, st) => some ((0, []), st)
      | some (some f, st) =>
        if direntIsDir f.ent = false ∨ direntFirstCluster f.ent = 0 then some ((0, []), st)
        else pathLoop fuel (direntFirstCluster f.ent) (pathRest p) st

/-- `path_dir_cluster`: the directory, 0 where there is none, and the leaf. For the empty path
the leaf buffer stays as it was. -/
def pathDirCluster (st : Fs) (path : CString) : Option ((Nat × CString) × Fs) :=
  if path = [] then some ((st.vol.rootCluster, st.stackName), st)
  else pathLoop (path.length + 1) st.vol.rootCluster (pathStart path) st

end FusionOS.Fat
