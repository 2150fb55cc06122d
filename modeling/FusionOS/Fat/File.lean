import FusionOS.Fat.Directory

/-!
# Files and the public operations

`fat_read_file`, `fat_write_file` and the `fs_*` functions over them. An
operation returns `none` where one of its chain walks does not end; inside,
`false` is the return value 0. Paths are C strings, never the null pointer.
-/

namespace FusionOS.Fat

def Fs.setMem (st : Fs) (m : Mem) : Fs := { st with heap := { st.heap with mem := m } }

/-- The loop of `fat_read_file` over the sectors of a cluster; the result is the new offset. -/
def readSectors (ptr size cluster : Nat) : Nat → Nat → Nat → Fs → Option Nat × Fs
  | 0, _, offset, st => (some offset, st)
  | n + 1, s, offset, st =>
    if offset < size then
      match blkRead st (u32 (clusterToLba st.vol cluster + s)) with
      | (false, st) => (none, st)
      | (true, st) =>
        let toCopy := if size < u32 (offset + 512) then size - offset else 512
        readSectors ptr size cluster n (s + 1) (u32 (offset + toCopy))
          (st.setMem (splice st.heap.mem (ptr + offset) (slice st.sectorBuf 0 toCopy)))
    else (some offset, st)

/-- The loop of `fat_read_file` over the clusters of the file. -/
def readChain (ptr size : Nat) : Nat → Nat → Nat → Fs → Option (Bool × Fs)
  | 0, _, _, _ => none
  | fuel + 1, cluster, offset, st =>
    if (2 ≤ cluster ∧ cluster < eoc) ∧ offset < size then
      match readSectors ptr size cluster st.vol.sectorsPerCluster 0 offset st with
      | (none, st) => some (false, st)
      | (some offset, st) =>
        match fatGetEntry st cluster with
        | (next, st) => readChain ptr size fuel next offset st
    else some (true, st)

/-- `fat_read_file`: the buffer and the length, or `none` for the return value 0. -/
def fatReadFile (st : Fs) (dirCluster : Nat) (name : CString) :
    Option (Option (Nat × Nat) × Fs) :=
  match fatFindEntry st dirCluster name with
  | none => none
  | some (none, st) => some (none, st)
  | some (some f, st) =>
    if direntIsDir f.ent then some (none, st)
    else
      let size := direntFileSize f.ent
      match Memory.malloc st.heap (u32 (size + 1)) with
      | none => none
      | some (ptr, heap) =>
        let st := { st with heap := heap }
        if ptr = 0 then some (none, st)
        else
          match readChain ptr size chainFuel (direntFirstCluster f.ent) 0 st with
          | none => none
          | some (true, st) =>
            some (some (ptr, size), st.setMem (Function.update st.heap.mem (ptr + size) 0))
          | some (false, st) =>
            (Memory.free st.heap ptr).map fun heap => (none, { st with heap := heap })

/-- The walk of `fat_write_file` to the last cluster of a chain. -/
def lastLoop : Nat → Nat → Fs → Option (Nat × Fs)
  | 0, _, _ => none
  | fuel + 1, cur, st =>
    match fatGetEntry st cur with
    | (next, st) => if eoc ≤ next then some (cur, st) else lastLoop fuel next st

/-- The walk of `fat_write_file` that counts the clusters of a chain. -/
def countLoop : Nat → Nat → Nat → Fs → Option (Nat × Fs)
  | 0, _, _, _ => none
  | fuel + 1, cur, count, st =>
    if 2 ≤ cur ∧ cur < eoc then
      match fatGetEntry st cur with
      | (next, st) => countLoop fuel next (count + 1) st
    else some (count, st)

/-- The loop of `fat_write_file` that appends `n` clusters behind `last`. -/
def extendLoop : Nat → Nat → Fs → Option Nat × Fs
  | 0, last, st => (some last, st)
  | n + 1, last, st =>
    match fatAllocCluster st with
    | (none, st) => (none, st)
    | (some new, st) =>
      match fatSetEntry st last new with
      | (_, st) => extendLoop n new st

/-- Where in the sector at `pos` the data that go to `offset` begin. -/
def writeStart (offset pos : Nat) : Nat := if pos < offset then offset - pos else 0

/-- Where in the sector at `pos` the `len` bytes of data that go to `offset` end. -/
def writeEnd (offset len pos : Nat) : Nat :=
  if u32 (offset + len) < u32 (pos + 512) then u32 (offset + len + (2 ^ 32 - pos)) else 512

/-- The part of the data that goes to the sector at `pos`. -/
def writePiece (data : List UInt8) (offset pos : Nat) : List UInt8 :=
  (data.drop (u32 (pos + writeStart offset pos + (2 ^ 32 - offset)))).take
    (writeEnd offset data.length pos - writeStart offset pos)

/-- The loop of `fat_write_file` over the sectors of a cluster; the result is the new position. -/
def writeSectors (data : List UInt8) (offset needSize cluster : Nat) :
    Nat → Nat → Nat → Fs → Option Nat × Fs
  | 0, _, pos, st => (some pos, st)
  | n + 1, s, pos, st =>
    if pos < needSize then
      let lba := u32 (clusterToLba st.vol cluster + s)
      match blkRead st lba with
      | (false, st) => (none, st)
      | (true, st) =>
        if writeStart offset pos < writeEnd offset data.length pos then
          match blkWrite { st with
              sectorBuf := splice st.sectorBuf (writeStart offset pos) (writePiece data offset pos) }
              lba with
          | (false, st) => (none, st)
          | (true, st) =>
            writeSectors data offset needSize cluster n (s + 1) (u32 (pos + 512)) st
        else writeSectors data offset needSize cluster n (s + 1) (u32 (pos + 512)) st
    else (some pos, st)

/-- The loop of `fat_write_file` over the clusters of the file. -/
def writeChain (data : List UInt8) (offset needSize : Nat) :
    Nat → Nat → Nat → Fs → Option (Bool × Fs)
  | 0, _, _, _ => none
  | fuel + 1, cur, pos, st =>
    if (2 ≤ cur ∧ cur < eoc) ∧ pos < needSize then
      match writeSectors data offset needSize cur st.vol.sectorsPerCluster 0 pos st with
      | (none, st) => some (false, st)
      | (some pos, st) =>
        match fatGetEntry st cur with
        | (next, st) => writeChain data offset needSize fuel next pos st
    else some (true, st)

def clusterBytes (v : Volume) : Nat := v.sectorsPerCluster * 512

/-- The end of `fat_write_file`: ends the chain at `last`, writes the data along the chain from
`first` and updates the entry. -/
def writeData (st : Fs) (f : Found) (data : List UInt8) (offset first last : Nat) :
    Option (Bool × Fs) :=
  match fatSetEntry st last 0x0FFFFFFF with
  | (_, st) =>
    match writeChain data offset (u32 (offset + data.length)) chainFuel first 0 st with
    | none => none
    | some (false, st) => some (false, st)
    | some (true, st) =>
      some (fatUpdateDirent st f.cluster f.offset
        (direntSetFileSize (direntSetFirstCluster f.ent first) (u32 (offset + data.length))))

/-- `fat_write_file` where the entry keeps its chain, which begins at `start`. -/
def appendFile (st : Fs) (f : Found) (data : List UInt8) (start needed : Nat) :
    Option (Bool × Fs) :=
  match lastLoop chainFuel start st with
  | none => none
  | some (last, st) =>
    match countLoop chainFuel start 0 st with
    | none => none
    | some (existing, st) =>
      match extendLoop (needed - existing) last st with
      | (none, st) => some (false, st)
      | (some last, st) => writeData st f data (direntFileSize f.ent) start last

/-- `fat_write_file` where the entry has no chain, or no longer. The count of existing clusters
starts at 0 although the first one has been allocated. -/
def rewriteFile (st : Fs) (f : Found) (data : List UInt8) (needed : Nat) : Option (Bool × Fs) :=
  match fatAllocCluster st with
  | (none, st) => some (false, st)
  | (some first, st) =>
    match extendLoop needed first st with
    | (none, st) => some (false, st)
    | (some last, st) => writeData st f data 0 first last

/-- The number of clusters that `fat_write_file` asks for. -/
def neededClusters (v : Volume) (needSize : Nat) : Nat :=
  u32 (needSize + clusterBytes v + (2 ^ 32 - 1)) / clusterBytes v

/-- `fat_write_file` behind the lookup or creation of the entry. -/
def fatWriteEntry (st : Fs) (f : Found) (data : List UInt8) (append : Bool) :
    Option (Bool × Fs) :=
  let start := direntFirstCluster f.ent
  let emptied := direntSetFileSize (direntSetFirstCluster f.ent 0) 0
  if direntIsDir f.ent then some (false, st)
  else if append ∧ start ≠ 0 then
    let needed := neededClusters st.vol (u32 (direntFileSize f.ent + data.length))
    if needed = 0 then some (fatUpdateDirent st f.cluster f.offset emptied)
    else appendFile st f data start needed
  else
    match if start ≠ 0 then fatFreeChain st start else some (true, st) with
    | none => none
    | some (_, st) =>
      let needed := neededClusters st.vol (u32 data.length)
      if needed = 0 then some (fatUpdateDirent st f.cluster f.offset emptied)
      else rewriteFile st f data needed

def fatWriteFile (st : Fs) (dirCluster : Nat) (name : CString) (data : List UInt8)
    (append : Bool) : Option (Bool × Fs) :=
  match fatFindEntry st dirCluster name with
  | none => none
  | some (some f, st) => fatWriteEntry st f data append
  | some (none, st) =>
    match fatCreateEntry st dirCluster name 0x20 with
    | none => none
    | some (none, st) => some (false, st)
    | some (some f, st) => fatWriteEntry st f data append

section Operations
variable (st : Fs)

/-- What the operations share: the path is resolved, and where it names no leaf the operation
returns 0. -/
def withLeaf {α : Type} (fail : α) (path : CString) (k : Fs → Nat → CString → Option (α × Fs)) :
    Option (α × Fs) :=
  if st.vol.mounted then
    match pathDirCluster st path with
    | none => none
    | some ((dir, name), st) => if dir = 0 ∨ name = [] then some (fail, st) else k st dir name
  else some (fail, st)

def fsReadFile (path : CString) : Option (Option (Nat × Nat) × Fs) :=
  withLeaf st none path fatReadFile

def fsWriteFile (path : CString) (data : List UInt8) : Option (Bool × Fs) :=
  withLeaf st false path fun st dir name => fatWriteFile st dir name data false

def fsAppendFile (path : CString) (data : List UInt8) : Option (Bool × Fs) :=
  withLeaf st false path fun st dir name => fatWriteFile st dir name data true

def dotShort : List UInt8 := 0x2E :: List.replicate 10 0x20
def dotdotShort : List UInt8 := 0x2E :: 0x2E :: List.replicate 9 0x20

/-- The sector that `fs_mkdir` writes to every sector of a new directory. -/
def dotSector (cluster parent : Nat) : Mem :=
  splice (fun _ => 0) 0
    (direntSetFirstCluster (newDirent dotShort 0x10) cluster ++
      direntSetFirstCluster (newDirent dotdotShort 0x10) parent)

/-- `fs_mkdir` behind the creation of the entry. -/
def makeDir (st : Fs) (f : Found) (parent : Nat) : Option (Bool × Fs) :=
  match fatAllocCluster st with
  | (none, st) => some (false, st)
  | (some cluster, st) =>
    match fatUpdateDirent st f.cluster f.offset
        (direntSetFileSize (direntSetFirstCluster f.ent cluster) 0) with
    | (false, st) => some (false, st)
    | (true, st) =>
      some (fillCluster cluster st.vol.sectorsPerCluster 0
        { st with sectorBuf := dotSector cluster parent })

def fsMkdir (path : CString) : Option (Bool × Fs) :=
  withLeaf st false path fun st dir name =>
    match fatFindEntry st dir name with
    | none => none
    | some (some _, st) => some (false, st)
    | some (none, st) =>
      match fatCreateEntry st dir name 0x10 with
      | none => none
      | some (none, st) => some (false, st)
      | some (some f, st) => makeDir st f dir

def rootPath : CString := [0x2F]

def fsExists (path : CString) : Option (Bool × Fs) :=
  if st.vol.mounted ∧ path = rootPath then some (true, st)
  else if path = [] then some (false, st)
  else
    withLeaf st false path fun st dir name =>
      (fatFindEntry st dir name).map fun r => (r.1.isSome, r.2)

/-- `fs_delete` behind the lookup of the entry. -/
def deleteFound (st : Fs) (dir : Nat) (name : CString) (f : Found) : Option (Bool × Fs) :=
  let start := direntFirstCluster f.ent
  match if direntIsDir f.ent then
      if start = 0 then some (false, st) else fatDirIsEmpty st start
    else some (true, st) with
  | none => none
  | some (false, st) => some (false, st)
  | some (true, st) =>
    match fatDeleteEntry st dir name with
    | none => none
    | some (false, st) => some (false, st)
    | some (true, st) =>
      if start ≠ 0 then (fatFreeChain st start).map fun r => (true, r.2) else some (true, st)

def fsDelete (path : CString) : Option (Bool × Fs) :=
  if path = [] ∨ path = rootPath then some (false, st)
  else
    withLeaf st false path fun st dir name =>
      match fatFindEntry st dir name with
      | none => none
      | some (none, st) => some (false, st)
      | some (some f, st) => deleteFound st dir name f

/-- `fs_rename` behind the resolution of both paths and the two lookups. -/
def renameFound (st : Fs) (oldDir : Nat) (oldName : CString) (newDir : Nat) (newName : CString)
    (f : Found) : Option (Bool × Fs) :=
  if direntIsDir f.ent ∧ oldDir ≠ newDir then some (false, st)
  else
    match fatCreateEntry st newDir newName (direntAttr f.ent) with
    | none => none
    | some (none, st) => some (false, st)
    | some (some g, st) =>
      match fatUpdateDirent st g.cluster g.offset
          (direntSetFileSize (direntSetFirstCluster g.ent (direntFirstCluster f.ent))
            (direntFileSize f.ent)) with
      | (false, st) => some (false, st)
      | (true, st) => fatDeleteEntry st oldDir oldName

def fsRename (oldPath newPath : CString) : Option (Bool × Fs) :=
  if st.vol.mounted = false then some (false, st)
  else if oldPath = newPath then some (true, st)
  else
    match pathDirCluster st oldPath with
    | none => none
    | some ((oldDir, oldName), st) =>
      match pathDirCluster st newPath with
      | none => none
      | some ((newDir, newName), st) =>
        if (oldDir = 0 ∨ newDir = 0) ∨ oldName = [] ∨ newName = [] then some (false, st)
        else
          match fatFindEntry st newDir newName with
          | none => none
          | some (some _, st) => some (false, st)
          | some (none, st) =>
            match fatFindEntry st oldDir oldName with
            | none => none
            | some (none, st) => some (false, st)
            | some (some f, st) => renameFound st oldDir oldName newDir newName f

/-- `fs_copy` behind its own check of the source: the file is read, written and its buffer
released. -/
def copyContents (srcPath dstPath : CString) : Option (Bool × Fs) :=
  match fsReadFile st srcPath with
  | none => none
  | some (none, st) => some (false, st)
  | some (some (ptr, len), st) =>
    match fsWriteFile st dstPath (slice st.heap.mem ptr len) with
    | none => none
    | some (ok, st) => (Memory.free st.heap ptr).map fun heap => (ok, { st with heap := heap })

def fsCopy (srcPath dstPath : CString) : Option (Bool × Fs) :=
  withLeaf st false srcPath fun st dir name =>
    match fatFindEntry st dir name with
    | none => none
    | some (none, st) => some (false, st)
    | some (some f, st) =>
      if direntIsDir f.ent then some (false, st) else copyContents st srcPath dstPath

def fsMove (srcPath dstPath : CString) : Option (Bool × Fs) :=
  match fsRename st srcPath dstPath with
  | none => none
  | some (true, st) => some (true, st)
  | some (false, st) =>
    match fsCopy st srcPath dstPath with
    | none => none
    | some (false, st) => some (false, st)
    | some (true, st) => fsDelete st srcPath

def fsStat (path : CString) : Option (Option FsEntry × Fs) :=
  if st.vol.mounted ∧ path = rootPath then some (some ⟨rootPath, 0, true⟩, st)
  else if path = [] then some (none, st)
  else
    withLeaf st none path fun st dir name =>
      (fatFindEntry st dir name).map fun r =>
        (r.1.map fun f => ⟨name, direntFileSize f.ent, direntIsDir f.ent⟩, r.2)

def fsListDir (path : CString) (maxEntries : Nat) : Option (Option (List FsEntry) × Fs) :=
  if st.vol.mounted = false then some (none, st)
  else if path = [] ∨ path = rootPath then fatReadDir st st.vol.rootCluster maxEntries
  else
    match pathDirCluster st path with
    | none => none
    | some ((dir, _), st) => if dir = 0 then some (none, st) else fatReadDir st dir maxEntries

end Operations

end FusionOS.Fat
