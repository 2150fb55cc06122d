import FusionOS.Lib.Mem

/-!
# The queue of the virtio disk

Driver and device share one queue in memory: a table of descriptors, the ring in which the driver
makes requests available, and the ring in which the device reports those it has used. Each side
computes the places of the two rings on its own.
-/

namespace FusionOS.Drivers

/-- The number of entries of a queue, and where its rings begin; the descriptors begin at 0. -/
structure Layout where
  size : Nat
  avail : Nat
  used : Nat
  deriving DecidableEq

/-- The layout that `virtio_blk_init` computes from the size that the device reports, or `none` where it
returns 0. -/
def virtioBlkInit (qsz : Nat) : Option Layout :=
  if qsz = 0 then none
  else
    let qsz := if 8 < qsz then 8 else qsz
    let descSz := 16 * qsz
    let availSz := 4 + 2 * qsz
    let availOff := (descSz + 1) / 2 * 2
    let usedOff := (availOff + availSz + 3) / 4 * 4
    some ⟨qsz, availOff, usedOff⟩

/-- The layout of a legacy device that reports `q` entries. -/
def legacyLayout (q : Nat) : Layout := ⟨q, 16 * q, (16 * q + (4 + 2 * q) + 4095) / 4096 * 4096⟩

/-- `struct virtq_desc`. -/
structure VirtqDesc where
  addr : Nat
  len : Nat
  flags : Nat
  next : Nat
  deriving DecidableEq

def readDesc (m : Mem) (i : Nat) : VirtqDesc :=
  ⟨load m (16 * i) 8, load m (16 * i + 8) 4, load m (16 * i + 12) 2, load m (16 * i + 14) 2⟩

def writeDesc (m : Mem) (i : Nat) (d : VirtqDesc) : Mem :=
  store (store (store (store m (16 * i) 8 d.addr) (16 * i + 8) 4 d.len) (16 * i + 12) 2 d.flags)
    (16 * i + 14) 2 d.next

/-- The descriptors that a device finds from `i` on, at most `n`. -/
def readChain (m : Mem) : Nat → Nat → List VirtqDesc
  | 0, _ => []
  | n + 1, i =>
    let d := readDesc m i
    d :: if d.flags % 2 = 1 then readChain m n d.next else []

/-- What a request says: the descriptors, `struct virtio_blk_req` and the bytes in the buffer. -/
structure Request where
  chain : List VirtqDesc
  type : Nat
  sector : Nat
  bounce : Mem

abbrev Serve := Request → UInt8 × Mem

/-- `virtio_blk_t` with the memory behind its pointers, and the device. -/
structure Blk where
  layout : Layout
  mem : Mem
  lastUsed : Nat
  reqPhys : Nat
  statusPhys : Nat
  bouncePhys : Nat
  type : Nat
  sector : Nat
  status : UInt8
  bounce : Mem
  /-- The layout of the device. -/
  device : Layout
  /-- The index up to which the device has taken requests. -/
  taken : Nat
  /-- The requests that the device has seen. -/
  seen : List Request

/-- The device takes the next request if there is one. -/
def deviceStep (serve : Serve) (s : Blk) : Blk :=
  let idx := load s.mem (s.device.avail + 2) 2
  if idx = s.taken then s
  else
    let head := load s.mem (s.device.avail + 4 + 2 * (s.taken % s.device.size)) 2
    let request := ⟨readChain s.mem s.device.size head, s.type, s.sector, s.bounce⟩
    let answer := serve request
    let elem := s.device.used + 4 + 8 * (s.taken % s.device.size)
    { s with
      mem := store (store (store s.mem elem 4 head) (elem + 4) 4 0) (s.device.used + 2) 2 (s.taken + 1)
      taken := (s.taken + 1) % 2 ^ 16
      seen := s.seen ++ [request]
      status := answer.1
      bounce := answer.2 }

/-- A request of the driver: `count` sectors from `lba` on, with the bytes to be written if it writes. -/
structure Submission where
  write : Bool
  lba : Nat
  count : Nat
  buffer : List UInt8

def Submission.bytes (r : Submission) : Nat := r.count * 512 % 2 ^ 32

def Submission.bounce (s : Blk) (r : Submission) : Mem :=
  if r.write then splice s.bounce 0 (r.buffer.take r.bytes) else s.bounce

/-- The three descriptors that `virtio_blk_submit` fills in. -/
def Submission.chain (s : Blk) (r : Submission) : List VirtqDesc :=
  [⟨s.reqPhys, 16, 1, 1⟩, ⟨s.bouncePhys, r.bytes, if r.write then 1 else 3, 2⟩, ⟨s.statusPhys, 1, 2, 0⟩]

def Submission.request (s : Blk) (r : Submission) : Request :=
  ⟨r.chain s, if r.write then 1 else 0, r.lba, r.bounce s⟩

/-- `virtio_blk_submit` up to the notification of the device. -/
def submitRequest (s : Blk) (r : Submission) : Blk :=
  let m := writeDesc s.mem 0 ⟨s.reqPhys, 16, 1, 1⟩
  let m := writeDesc m 1 ⟨s.bouncePhys, r.bytes, if r.write then 1 else 3, 2⟩
  let m := writeDesc m 2 ⟨s.statusPhys, 1, 2, 0⟩
  let idx := load m (s.layout.avail + 2) 2
  let m := store m (s.layout.avail + 4 + 2 * (idx % s.layout.size)) 2 0
  { s with
    mem := store m (s.layout.avail + 2) 2 (idx + 1)
    type := if r.write then 1 else 0
    sector := r.lba
    status := 0xFF
    bounce := r.bounce s }

/-- The loop that waits for the used ring to move on; with `n` turns left the device acts if `acts n`. -/
def waitUsed (serve : Serve) (acts : Nat → Bool) : Nat → Blk → Option Blk
  | 0, _ => none
  | n + 1, s =>
    if load s.mem (s.layout.used + 2) 2 = s.lastUsed then
      waitUsed serve acts n (if acts n then deviceStep serve s else s)
    else some { s with lastUsed := load s.mem (s.layout.used + 2) 2 }

/-- `virtio_blk_submit` on a disk that is ready; `none` where it still waits after `fuel` turns. -/
def virtioBlkSubmit (serve : Serve) (acts : Nat → Bool) (fuel : Nat) (s : Blk) (r : Submission) :
    Option (Bool × Blk) :=
  if r.count = 0 then some (false, s)
  else if 4096 < r.bytes then some (false, s)
  else (waitUsed serve acts fuel (submitRequest s r)).map fun t => (decide (t.status = 0), t)

/-- The loop of `virtio_blk_read` and `virtio_blk_write`, with at most `n` turns. -/
def transferLoop (serve : Serve) (acts : Nat → Bool) (fuel : Nat) :
    Nat → Blk → Submission → Option (Bool × Blk)
  | 0, s, r => if r.count = 0 then some (true, s) else none
  | n + 1, s, r =>
    if r.count = 0 then some (true, s)
    else
      let chunk := if 8 < r.count then 8 else r.count
      (virtioBlkSubmit serve acts fuel s { r with count := chunk }).bind fun a =>
        if a.1 then
          transferLoop serve acts fuel n a.2
            ⟨r.write, (r.lba + chunk) % 2 ^ 64, r.count - chunk, r.buffer.drop (chunk * 512)⟩
        else some (false, a.2)

def virtioBlkRead (serve : Serve) (acts : Nat → Bool) (fuel : Nat) (s : Blk) (lba count : Nat) :
    Option (Bool × Blk) :=
  transferLoop serve acts fuel count s ⟨false, lba, count, []⟩

def virtioBlkWrite (serve : Serve) (acts : Nat → Bool) (fuel : Nat) (s : Blk) (lba count : Nat)
    (buffer : List UInt8) : Option (Bool × Blk) :=
  transferLoop serve acts fuel count s ⟨true, lba, count, buffer⟩

/-- The disk behind `virtio_blk_init`. The device reports `q` entries and has taken no request; the
queue is zero as far as the driver has allocated it. -/
structure Started (q : Nat) (s : Blk) : Prop where
  layout : virtioBlkInit q = some s.layout
  device : s.device = legacyLayout q
  zero : ∀ i < s.layout.used + 4 + 8 * s.layout.size, s.mem i = 0
  lastUsed : s.lastUsed = 0
  taken : s.taken = 0
  seen : s.seen = []

/-- The states that calls of `virtio_blk_read` and `virtio_blk_write` lead to. -/
inductive Called (q : Nat) : Blk → Prop where
  | start {s : Blk} : Started q s → Called q s
  | read {s t : Blk} {serve : Serve} {acts : Nat → Bool} {fuel lba count : Nat} {ok : Bool} :
      Called q s → virtioBlkRead serve acts fuel s lba count = some (ok, t) → Called q t
  | write {s t : Blk} {serve : Serve} {acts : Nat → Bool} {fuel lba count : Nat} {buffer : List UInt8}
      {ok : Bool} : Called q s → virtioBlkWrite serve acts fuel s lba count buffer = some (ok, t) →
      Called q t

/-- Wherever the device acts while the driver waits, `virtio_blk_submit` returns with what the device
answered to this request, and the device has seen this request and no other. -/
def ServedOnce (s : Blk) : Prop :=
  ∀ (r : Submission) (serve : Serve) (acts : Nat → Bool) (fuel : Nat), 0 < r.count → r.count ≤ 8 →
    (∃ n < fuel, 0 < n ∧ acts n = true) →
    ∃ t, virtioBlkSubmit serve acts fuel s r = some (decide ((serve (r.request s)).1 = 0), t) ∧
      t.seen = s.seen ++ [r.request s] ∧ t.bounce = (serve (r.request s)).2

/-- For a device with `q` entries, both sides see the rings at the same places, and every request is
served once. -/
def QueueAgrees (q : Nat) : Prop := ∀ s, Called q s → s.layout = s.device ∧ ServedOnce s

section Queue
variable {q : Nat} {s t : Blk}

lemma virtioBlkInit_used {l : Layout} (h : virtioBlkInit q = some l) : l.used + 4 < 4096 := by
  unfold virtioBlkInit at h
  split at h
  · cases h
  · obtain rfl := Option.some.inj h
    dsimp only
    split <;> omega

lemma legacyLayout_used (q : Nat) : 4096 ≤ (legacyLayout q).used := by
  unfold legacyLayout
  dsimp only
  omega

def zeroBlk (l : Layout) (q : Nat) : Blk :=
  ⟨l, fun _ => 0, 0, 0, 0, 0, 0, 0, 0, fun _ => 0, legacyLayout q, 0, []⟩

lemma zeroBlk_started {l : Layout} (h : virtioBlkInit q = some l) : Started q (zeroBlk l q) :=
  ⟨h, rfl, fun _ _ => rfl, rfl, rfl, rfl⟩

lemma started_ne (h : Started q s) : s.layout ≠ s.device := by
  intro heq
  have hdriver := virtioBlkInit_used h.layout
  have hdevice := legacyLayout_used q
  rw [heq, h.device] at hdriver
  omega

lemma not_called_zero (h : Called 0 s) : False := by
  induction h with
  | start h => cases h.layout
  | read _ _ ih => exact ih
  | write _ _ ih => exact ih

/-! Nor does the driver notice: it waits for the used ring at a place where the device never writes. -/

lemma deviceStep_poll (serve : Serve) (happart : s.layout.used + 4 ≤ s.device.used) :
    load (deviceStep serve s).mem (s.layout.used + 2) 2 = load s.mem (s.layout.used + 2) 2 := by
  unfold deviceStep
  dsimp only
  split
  · rfl
  · rw [load_store_disjoint _ _ _ _ (by omega), load_store_disjoint _ _ _ _ (by omega),
      load_store_disjoint _ _ _ _ (by omega)]

lemma deviceStep_fields (serve : Serve) (s : Blk) : (deviceStep serve s).layout = s.layout ∧
    (deviceStep serve s).device = s.device ∧ (deviceStep serve s).lastUsed = s.lastUsed := by
  unfold deviceStep
  dsimp only
  split
  · exact ⟨rfl, rfl, rfl⟩
  · exact ⟨rfl, rfl, rfl⟩

lemma waitUsed_none (serve : Serve) (acts : Nat → Bool) (n : Nat)
    (happart : s.layout.used + 4 ≤ s.device.used)
    (hpoll : load s.mem (s.layout.used + 2) 2 = s.lastUsed) : waitUsed serve acts n s = none := by
  induction n generalizing s with
  | zero => rfl
  | succ n ih =>
    rw [waitUsed, if_pos hpoll]
    split
    · obtain ⟨hlayout, hdevice, hlast⟩ := deviceStep_fields serve s
      apply ih
      · rw [hlayout, hdevice]
        exact happart
      · rw [hlayout, hlast, deviceStep_poll serve happart]
        exact hpoll
    · exact ih happart hpoll

lemma writeDesc_load (m : Mem) (i : Nat) (d : VirtqDesc) {a n : Nat} (h : 16 * i + 16 ≤ a) :
    load (writeDesc m i d) a n = load m a n := by
  unfold writeDesc
  rw [load_store_disjoint _ _ _ _ (by omega), load_store_disjoint _ _ _ _ (by omega),
    load_store_disjoint _ _ _ _ (by omega), load_store_disjoint _ _ _ _ (by omega)]

lemma submitRequest_poll (r : Submission) (havail : 48 ≤ s.layout.avail) (hsize : 0 < s.layout.size)
    (hused : s.layout.avail + 4 + 2 * s.layout.size ≤ s.layout.used) :
    load (submitRequest s r).mem (s.layout.used + 2) 2 = load s.mem (s.layout.used + 2) 2 := by
  unfold submitRequest
  dsimp only
  generalize load _ (s.layout.avail + 2) 2 = idx
  have hidx := Nat.mod_lt idx hsize
  rw [load_store_disjoint _ _ _ _ (by omega), load_store_disjoint _ _ _ _ (by omega),
    writeDesc_load _ _ _ (by omega), writeDesc_load _ _ _ (by omega), writeDesc_load _ _ _ (by omega)]

lemma virtioBlkInit_places (hq : 3 ≤ q) {l : Layout} (h : virtioBlkInit q = some l) :
    48 ≤ l.avail ∧ 0 < l.size ∧ l.avail + 4 + 2 * l.size ≤ l.used := by
  unfold virtioBlkInit at h
  rw [if_neg (by omega)] at h
  obtain rfl := Option.some.inj h
  dsimp only
  split <;> omega

lemma submit_never_returns (hq : 3 ≤ q) (h : Started q s) (r : Submission) (hcount : 0 < r.count)
    (hmax : r.count ≤ 8) (serve : Serve) (acts : Nat → Bool) (fuel : Nat) :
    virtioBlkSubmit serve acts fuel s r = none := by
  obtain ⟨havail, hsize, hused⟩ := virtioBlkInit_places hq h.layout
  have hbytes : ¬4096 < r.bytes := by
    unfold Submission.bytes
    omega
  have hzero : load s.mem (s.layout.used + 2) 2 = s.lastUsed := by
    rw [h.lastUsed, load, load, load, h.zero _ (by omega), h.zero _ (by omega)]
    rfl
  have happart : s.layout.used + 4 ≤ s.device.used := by
    have hdriver := virtioBlkInit_used h.layout
    have hdevice := legacyLayout_used q
    rw [h.device]
    omega
  have hwait : waitUsed serve acts fuel (submitRequest s r) = none :=
    waitUsed_none serve acts fuel happart ((submitRequest_poll r havail hsize hused).trans hzero)
  rw [virtioBlkSubmit, if_neg (by omega), if_neg hbytes, hwait]
  rfl

end Queue

/-- Driver and device agree about the queue only where the device has none: the used ring of the
standard begins at a multiple of 4096 bytes, that of the driver before. -/
theorem queue_agrees_iff (q : Nat) : QueueAgrees q ↔ q = 0 := by
  constructor
  · intro h
    by_contra hq
    obtain ⟨l, hl⟩ : ∃ l, virtioBlkInit q = some l := by
      unfold virtioBlkInit
      rw [if_neg hq]
      exact ⟨_, rfl⟩
    have hstarted := zeroBlk_started hl
    exact started_ne hstarted (h _ (.start hstarted)).1
  · rintro rfl s hcalled
    exact (not_called_zero hcalled).elim

/-- A device with 8 entries. -/
theorem not_queue_agrees_eight : ¬QueueAgrees 8 := by
  intro h
  have hstarted : Started 8 (zeroBlk ⟨8, 128, 148⟩ 8) := zeroBlk_started rfl
  exact absurd (h _ (.start hstarted)).1 (by decide)

end FusionOS.Drivers
