import FusionOS.Kernel.MemOps

/-!
# The kernel heap

`malloc`, `calloc`, `realloc` and `free` over the static array `heap`. A block header is 24 bytes
of memory: the size at offset 0, the free flag at 8 and the next pointer at 16.
-/

namespace FusionOS.Memory

@[irreducible] def heapSize : Nat := 32 * 1024 * 1024

def sizeofBlock : Nat := 24

def u64 (x : Nat) : Nat := x % 2 ^ 64

structure Heap where
  mem : Mem
  heapStart : Nat
  heapAllocated : Nat
  heapFreed : Nat
  heapBlocks : Nat

def blkSize (m : Mem) (b : Nat) : Nat := load m b 8
def blkFree (m : Mem) (b : Nat) : Bool := m (b + 8) != 0
def blkNext (m : Mem) (b : Nat) : Nat := load m (b + 16) 8

def setSize (m : Mem) (b v : Nat) : Mem := store m b 8 v
def setFree (m : Mem) (b : Nat) (free : Bool) : Mem :=
  Function.update m (b + 8) (if free then 1 else 0)
def setNext (m : Mem) (b v : Nat) : Mem := store m (b + 16) 8 v

/-- `heap_init`; `base` is the address of the array `heap`. -/
def heapInit (h : Heap) (base : Nat) : Heap :=
  { h with
    mem := setNext (setFree (setSize h.mem base (heapSize - sizeofBlock)) base true) base 0
    heapStart := base
    heapBlocks := 1 }

/-- Absorbs the block `next` into `block`, which it follows. -/
def mergeNext (m : Mem) (block next : Nat) : Mem :=
  let m' := setSize m block (blkSize m block + (sizeofBlock + blkSize m next))
  setNext m' block (blkNext m' next)

/-- The loop of `heap_coalesce`. -/
def coalesceLoop : Nat → Heap → Nat → Option Heap
  | 0, _, _ => none
  | fuel + 1, h, current =>
    if current ≠ 0 ∧ blkNext h.mem current ≠ 0 then
      let next := blkNext h.mem current
      if blkFree h.mem current && blkFree h.mem next then
        coalesceLoop fuel
          { h with
            mem := mergeNext h.mem current next
            heapBlocks := u64 (h.heapBlocks + (2 ^ 64 - 1)) } current
      else coalesceLoop fuel h next
    else some h

def heapCoalesce (h : Heap) : Option Heap := coalesceLoop heapSize h h.heapStart

/-- Rounding of a request up to a multiple of 8, as `(size + 7) & ~7` does it. -/
def roundUp (size : Nat) : Nat := u64 (size + 7) / 8 * 8

/-- The search loop of `malloc`; it leaves at the first exact fit. -/
def mallocScan (m : Mem) (size : Nat) : Nat → Nat → Nat → Option Nat
  | 0, _, _ => none
  | fuel + 1, current, best =>
    if current = 0 then some best
    else if blkFree m current && decide (size ≤ blkSize m current) &&
        (decide (best = 0) || decide (blkSize m current < blkSize m best)) then
      if blkSize m current = size then some current
      else mallocScan m size fuel (blkNext m current) current
    else mallocScan m size fuel (blkNext m current) best

/-- The split that `malloc` and both growing and shrinking `realloc` perform: `block`
keeps `size` bytes and the rest becomes a free block behind it. -/
def splitBlock (h : Heap) (block size : Nat) : Heap :=
  let new := u64 (block + sizeofBlock + size)
  let m := setSize h.mem new (u64 (blkSize h.mem block + (2 ^ 64 - size) + (2 ^ 64 - sizeofBlock)))
  let m := setFree m new true
  let m := setNext m new (blkNext m block)
  let m := setNext m block new
  let m := setSize m block size
  { h with mem := m, heapBlocks := u64 (h.heapBlocks + 1) }

/-- Splits `block` where at least 32 bytes would be left over. -/
def splitIfLarge (h : Heap) (block size : Nat) : Heap :=
  if u64 (size + sizeofBlock + 8) ≤ blkSize h.mem block then splitBlock h block size else h

/-- What `malloc` does with the block `best` that it has found. -/
def takeBlock (h : Heap) (best size : Nat) : Heap :=
  let h := splitIfLarge h best size
  let m := setFree h.mem best false
  { h with mem := m, heapAllocated := u64 (h.heapAllocated + blkSize m best) }

def malloc (h : Heap) (size : Nat) : Option (Nat × Heap) :=
  if size = 0 then some (0, h)
  else
    let size := roundUp size
    (mallocScan h.mem size heapSize h.heapStart 0).map fun best =>
      if best = 0 then (0, h) else (u64 (best + sizeofBlock), takeBlock h best size)

def calloc (h : Heap) (nmemb size : Nat) : Option (Nat × Heap) :=
  if nmemb = 0 ∨ size = 0 then some (0, h)
  else if (2 ^ 64 - 1) / nmemb < size then some (0, h)
  else
    (malloc h (nmemb * size)).map fun r =>
      if r.1 = 0 then r else (r.1, { r.2 with mem := memset r.2.mem r.1 0 (nmemb * size) })

def free (h : Heap) (ptr : Nat) : Option Heap :=
  if ptr = 0 then some h
  else
    let block := ptr - sizeofBlock
    let m := setFree h.mem block true
    heapCoalesce { h with mem := m, heapFreed := u64 (h.heapFreed + blkSize m block) }

/-- The merge that a growing `realloc` performs with the free block behind. -/
def growBlock (h : Heap) (block next : Nat) : Heap :=
  { h with
    mem := mergeNext h.mem block next
    heapBlocks := u64 (h.heapBlocks + (2 ^ 64 - 1)) }

def realloc (h : Heap) (ptr size : Nat) : Option (Nat × Heap) :=
  if ptr = 0 then malloc h size
  else if size = 0 then (free h ptr).map fun h => (0, h)
  else
    let size := roundUp size
    let block := ptr - sizeofBlock
    let oldSize := blkSize h.mem block
    if size ≤ oldSize then
      if u64 (size + sizeofBlock + 8) ≤ oldSize then
        let h := splitBlock h block size
        (heapCoalesce { h with heapFreed := u64 (h.heapFreed + (oldSize - size)) }).map
          fun h => (ptr, h)
      else some (ptr, h)
    else
      let next := blkNext h.mem block
      if next ≠ 0 ∧ blkFree h.mem next ∧ size ≤ u64 (oldSize + sizeofBlock + blkSize h.mem next) then
        let h := splitIfLarge (growBlock h block next) block size
        some (u64 (block + sizeofBlock),
          { h with
            heapAllocated :=
              if oldSize < size then u64 (h.heapAllocated + (size - oldSize)) else h.heapAllocated })
      else
        (malloc h size).bind fun r =>
          if r.1 = 0 then some r
          else (free { r.2 with mem := memcpy r.2.mem r.1 ptr (min oldSize size) } ptr).map
            fun h => (r.1, h)

end FusionOS.Memory
