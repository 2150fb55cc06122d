import FusionOS.Fat.WellFormed

/-!
# Reading back what was written

On a well-formed volume a rewritten file changes the view of the directories in one place only, its
own entry, so every path still leads where it led.
-/

namespace FusionOS.Fat

/-- The directories of `I` are still there in `I'`; their slots are the images of the old ones
under `g`, which changes no directory entry and no name. -/
structure Image.Shadow (I I' : Image) (g : Found → Found) : Prop where
  vol : I'.vol = I.vol
  chain : ∀ {d p l}, I.Dir d p → I.ChainAt d l → I'.ChainAt d l
  slots : ∀ {d p l}, I.Dir d p → I.ChainAt d l → I'.slots l = (I.slots l).map g
  alike : ∀ {d p l x}, I.Dir d p → I.ChainAt d l → x ∈ I.slots l →
    Alike x.ent (g x).ent ∧ (direntAttr x.ent = 0x0F → (g x).ent = x.ent)
  dirs : ∀ {d p l x}, I.Dir d p → I.ChainAt d l → x ∈ I.slots l → direntIsDir x.ent = true → g x = x

section Shadow
variable {I I' : Image} {g : Found → Found}

variable {leaf path : CString} {d : Nat}

lemma Image.Shadow.lookup (h : I.Shadow I' g) {p : Nat} {l : List Nat} (hd : I.Dir d p)
    (hl : I.ChainAt d l) (name : CString) :
    Fat.lookup name [] (I'.slots l) = (Fat.lookup name [] (I.slots l)).map g := by
  rw [h.slots hd hl]
  exact lookup_map (fun x hx => h.alike hd hl hx) name []

lemma Image.Shadow.resolves (h : I.Shadow I' g) (hs : I.Sound) {d' p : Nat} (hd : I.Dir d p)
    (hp : I.Resolves d path d' leaf) :
    I'.Resolves d path d' leaf := by
  apply hs.resolves_kept _ hd hp
  intro d p l name f hd hl hlook hdir
  refine ⟨l, h.chain hd hl, ?_⟩
  rw [h.lookup hd hl, hlook, Option.map_some, h.dirs hd hl (lookup_some hlook).1 hdir]

lemma Image.Shadow.names (h : I.Shadow I' g) (hs : I.Sound)
    (hp : I.Names path d leaf) : I'.Names path d leaf := by
  refine ⟨hp.1, hp.2.1, ?_⟩
  rw [h.vol]
  exact h.resolves hs .root hp.2.2

end Shadow

/-- A slot with the entry at the place of `f` replaced by `e`. -/
def Found.replace (f : Found) (e : Slot) (x : Found) : Found :=
  if x.cluster = f.cluster ∧ x.offset = f.offset then { x with ent := e } else x

variable {f : Found} {l : List Nat}

lemma Found.replace_self (f : Found) (e : Slot) : f.replace e f = { f with ent := e } :=
  if_pos ⟨rfl, rfl⟩

lemma dirSlots_setEntry {v : Volume} {data : Nat → Mem} {e : Slot}
    (he : e.length = 32) (ho : f.offset % 32 = 0) :
    dirSlots v (setEntry data f e) l = (dirSlots v data l).map (f.replace e) := by
  rw [setEntry, dirSlots_update]
  apply List.map_congr_left
  intro x hx
  obtain ⟨-, hal, -, hent⟩ := mem_dirSlots.mp hx
  unfold Found.replace
  by_cases hc : x.cluster = f.cluster
  · rw [if_pos hc, slice_splice_slot he ho hal]
    by_cases hoff : x.offset = f.offset
    · rw [if_pos hoff, if_pos ⟨hc, hoff⟩]
    · rw [if_neg hoff, if_neg (fun h => hoff h.2), ← hc, ← hent]
  · rw [if_neg hc, if_neg (fun h => hc h.1)]

section Located
variable {st : Fs} {d p : Nat} {ld : List Nat} {f : Found}

lemma place_of_mem (hl : st.image.ChainAt d ld) (hf : f ∈ st.image.slots ld) :
    Place st.vol f.cluster f.offset := by
  obtain ⟨hc, hal, hin, -⟩ := mem_dirSlots.mp hf
  exact ⟨Chain.node hl _ hc, hal, hin⟩

lemma used_of_mem (hl : st.image.ChainAt d ld) (hf : f ∈ st.image.slots ld) :
    st.fat f.cluster ≠ 0 := FatChain.fat_ne_zero hl (mem_dirSlots.mp hf).1

lemma not_mem_of_file (hs : st.image.Sound) (hd : st.image.Dir d p)
    (hl : st.image.ChainAt d ld) (hf : f ∈ st.image.slots ld) (he : IsEntry f.ent)
    (hdir : direntIsDir f.ent = false) {l : List Nat}
    (hch : HasChain st.vol st.fat (direntFirstCluster f.ent) l) : f.cluster ∉ l := by
  rcases hch with ⟨-, rfl⟩ | ⟨-, hch⟩
  · exact List.not_mem_nil
  · intro hm
    exact hs.file_dir_disjoint (hs.entry_of_file hd hl hf he hdir) hdir hch hd hl hm
      (mem_dirSlots.mp hf).1

end Located

lemma Relinked.shadow {st st' : Fs} {l' : List Nat} {first size : Nat}
    (h : Relinked st st' f l l' first size) (hs : st.image.Sound) {d p : Nat} {ld : List Nat}
    (hd : st.image.Dir d p) (hl : st.image.ChainAt d ld)
    (hf : f ∈ st.image.slots ld) (he : IsEntry f.ent) (hdir : direntIsDir f.ent = false)
    (hch : HasChain st.vol st.fat (direntFirstCluster f.ent) l) :
    st.image.Shadow st'.image (f.replace (f.withFields first size)) := by
  have h32 : (f.withFields first size).length = 32 := by
    rw [Found.withFields, setFields_length]
    exact ent_length hf
  have hentry := hs.entry_of_file hd hl hf he hdir
  -- a cluster of a directory is neither one of the file's nor one that was free
  have hkeep : ∀ {d p ld}, st.image.Dir d p → st.image.ChainAt d ld →
      ∀ x ∈ ld, x ∉ l ∧ x ∉ l' := by
    intro d p ld hd hl x hx
    have hxl : x ∉ l := by
      rcases hch with ⟨-, rfl⟩ | ⟨-, hch⟩
      · exact List.not_mem_nil
      · intro hm
        exact hs.file_dir_disjoint hentry hdir hch hd hl hm hx
    refine ⟨hxl, fun hx' => ?_⟩
    rcases h.fresh x hx' with hm | hfree
    · exact hxl hm
    · exact FatChain.fat_ne_zero hl hx (mem_freeClusters.mp hfree).2
  have hsame : ∀ {d p ld x}, st.image.Dir d p → st.image.ChainAt d ld → x ∈ st.image.slots ld →
      x.cluster = f.cluster ∧ x.offset = f.offset → x = f := by
    intro d p ld x _ _ hx heq
    exact found_ext hx hf heq.1 heq.2
  refine ⟨h.disk.vol, ?_, ?_, ?_, ?_⟩
  · intro d p ld hd hl
    show FatChain st'.vol st'.fat d ld
    rw [h.disk.vol]
    apply Chain.congr hl
    intro x hx
    exact h.fat x (hkeep hd hl x hx).1 (hkeep hd hl x hx).2
  · intro d p ld hd hl
    show dirSlots st'.vol st'.data ld = _
    rw [h.disk.vol, ← dirSlots_setEntry h32 (mem_dirSlots.mp hf).2.1]
    apply dirSlots_congr
    intro c hc
    by_cases hcf : c = f.cluster
    · rw [hcf, h.entry, setEntry, Function.update_self]
      rfl
    · rw [h.other c (hkeep hd hl c hc).2 hcf, setEntry_of_ne hcf]
      rfl
  · intro d p ld x hd hl hx
    unfold Found.replace
    split
    · next heq =>
      obtain rfl := hsame hd hl hx heq
      exact ⟨take_setFields _ _, fun hlfn => absurd hlfn he.2.2⟩
    · exact ⟨Alike.refl _, fun _ => rfl⟩
  · intro d p ld x hd hl hx hxdir
    unfold Found.replace
    split
    · next heq =>
      obtain rfl := hsame hd hl hx heq
      rw [hdir] at hxdir
      cases hxdir
    · rfl

/-! ## Reading -/

/-- `fs_read_file` returns 1 with a buffer that holds `bs`. -/
def Returns (st : Fs) (path : CString) (bs : List UInt8) : Prop :=
  ∃ ptr st', fsReadFile st path = some (some (ptr, bs.length), st') ∧
    slice st'.heap.mem ptr bs.length = bs

/-- The heap has a block for a request of `n` bytes. -/
def MallocFits (h : Memory.Heap) (n : Nat) : Prop :=
  ∃ ptr h', Memory.malloc h n = some (ptr, h') ∧ ptr ≠ 0

instance (h : Memory.Heap) (n : Nat) : Decidable (MallocFits h n) :=
  match hm : Memory.malloc h n with
  | none => isFalse fun ⟨_, _, h1, _⟩ => by simp [hm] at h1
  | some (ptr, h') =>
    if hp : ptr = 0 then isFalse fun ⟨_, _, h1, h2⟩ => by simp_all
    else isTrue ⟨ptr, h', hm, hp⟩

section Reading
variable {st : Fs}

variable {name : CString} {f : Found} {l ld : List Nat} {h' heap : Memory.Heap} {d : Nat}

lemma readChain_contents (hr : Ready st) {first : Nat}
    (h : HasChain st.vol st.fat first l) (ptr : Nat) {size : Nat} (hsize : size + 512 ≤ 2 ^ 32)
    (hroom : size ≤ l.length * clusterBytes st.vol) :
    ∃ st' m, readChain ptr size chainFuel first 0 st = some (true, st') ∧ HeapMem st st' m ∧
      slice m ptr size = fileBytes (clusterBytes st.vol) st.data l size := by
  rcases h with ⟨rfl, rfl⟩ | ⟨-, h⟩
  · have h0 : size = 0 := by simpa using hroom
    subst h0
    have hfuel : chainFuel = 2 ^ 28 - 1 + 1 := by unfold chainFuel; rfl
    refine ⟨st, st.heap.mem, ?_, HeapMem.refl st, rfl⟩
    rw [hfuel, readChain, if_neg (by omega)]
  · obtain ⟨m, hsame⟩ := readChain_same ptr size st.data l first 0 chainFuel
      (FatChain.lt_fuel h hr.geometry) st.heap.mem
    obtain ⟨st', hrun, hm⟩ := hsame st hr rfl (fun _ _ => rfl) rfl h
    refine ⟨st', m, hrun, hm, ?_⟩
    apply List.map_congr_left
    intro p hp
    have hlt := List.mem_range.mp hp
    have hk : p / clusterBytes st.vol < l.length :=
      Nat.div_lt_of_lt_mul (by rw [Nat.mul_comm]; omega)
    have hbyte := (readChain_bytes hr.geometry hsize hrun (k := p) (by omega) (h.clusterAt hk)).1
      fun j _ => hr.io _
    rw [hm.mem, Nat.zero_add] at hbyte
    exact hbyte

lemma fatReadFile_null {st1 : Fs}
    (hfind : fatFindEntry st d name = some (some f, st1)) (hdir : direntIsDir f.ent = false)
    (hm : Memory.malloc st1.heap (u32 (direntFileSize f.ent + 1)) = some (0, heap)) :
    fatReadFile st d name = some (none, { st1 with heap := heap }) := by
  rw [fatReadFile, hfind]
  dsimp only
  rw [if_neg (Bool.eq_false_iff.mp hdir), hm]
  exact if_pos rfl

lemma fatReadFile_read {st1 st2 : Fs} {ptr : Nat} (hfind : fatFindEntry st d name = some (some f, st1))
    (hdir : direntIsDir f.ent = false)
    (hm : Memory.malloc st1.heap (u32 (direntFileSize f.ent + 1)) = some (ptr, heap)) (hptr : ptr ≠ 0)
    (hrun : readChain ptr (direntFileSize f.ent) chainFuel (direntFirstCluster f.ent) 0
      { st1 with heap := heap } = some (true, st2)) :
    fatReadFile st d name = some (some (ptr, direntFileSize f.ent),
      st2.setMem (Function.update st2.heap.mem (ptr + direntFileSize f.ent) 0)) := by
  rw [fatReadFile, hfind]
  dsimp only
  rw [if_neg (Bool.eq_false_iff.mp hdir), hm]
  dsimp only
  rw [if_neg hptr, hrun]

lemma fatReadFile_ok (hr : Ready st)
    (hl : st.image.ChainAt d ld) (hlook : lookup name [] (st.image.slots ld) = some f)
    (hdir : direntIsDir f.ent = false) (hch : HasChain st.vol st.fat (direntFirstCluster f.ent) l)
    (hsize : direntFileSize f.ent + 512 ≤ 2 ^ 32)
    (hroom : direntFileSize f.ent ≤ l.length * clusterBytes st.vol) {ptr : Nat}
    (hm : Memory.malloc st.heap (direntFileSize f.ent + 1) = some (ptr, h')) (hptr : ptr ≠ 0) :
    ∃ st', fatReadFile st d name = some (some (ptr, direntFileSize f.ent), st') ∧
      slice st'.heap.mem ptr (direntFileSize f.ent) =
        fileBytes (clusterBytes st.vol) st.data l (direntFileSize f.ent) := by
  obtain ⟨st1, hfind, hq⟩ := fatFindEntry_ok hr hl name
  rw [show lookup name [] (dirSlots st.vol st.data ld) = some f from hlook] at hfind
  obtain ⟨b, n, rfl⟩ := hq
  have hr2 : Ready { st with sectorBuf := b, ops := n, heap := h' } := ⟨hr.geometry, hr.io⟩
  obtain ⟨st2, m, hrun, hmem, hslice⟩ := readChain_contents hr2 (l := l) hch ptr
    hsize hroom
  refine ⟨st2.setMem (Function.update st2.heap.mem (ptr + direntFileSize f.ent) 0), ?_, ?_⟩
  · refine fatReadFile_read hfind hdir ?_ hptr hrun
    rw [u32_of_lt (show direntFileSize f.ent + 1 < 2 ^ 32 by omega)]
    exact hm
  · show slice (Function.update st2.heap.mem (ptr + direntFileSize f.ent) 0) _ _ = _
    rw [hmem.mem, ← show _ = fileBytes _ st.data l _ from hslice]
    apply slice_congr
    intro i h1 h2
    exact Function.update_of_ne (by omega) _ _

lemma fatReadFile_noMem (hr : Ready st)
    (hl : st.image.ChainAt d ld) (hlook : lookup name [] (st.image.slots ld) = some f)
    (hdir : direntIsDir f.ent = false) (hsize : direntFileSize f.ent + 1 < 2 ^ 32)
    (hm : Memory.malloc st.heap (direntFileSize f.ent + 1) = some (0, h')) :
    ∃ st', fatReadFile st d name = some (none, st') := by
  obtain ⟨st1, hfind, hq⟩ := fatFindEntry_ok hr hl name
  rw [show lookup name [] (dirSlots st.vol st.data ld) = some f from hlook] at hfind
  rw [← u32_of_lt hsize, ← hq.diskOnly.heap] at hm
  exact ⟨_, fatReadFile_null hfind hdir hm⟩

end Reading

/-! ## Files -/

/-- The path names a file with the entry `f`, the chain `l` and the contents `old`. -/
structure FileAt (st : Fs) (path : CString) (f : Found) (l : List Nat) (old : List UInt8) : Prop where
  named : ∃ d ld leaf, st.image.Names path d leaf ∧ st.image.ChainAt d ld ∧
    lookup leaf [] (st.image.slots ld) = some f
  file : direntIsDir f.ent = false
  chain : HasChain st.vol st.fat (direntFirstCluster f.ent) l
  contents : old = fileBytes (clusterBytes st.vol) st.data l (direntFileSize f.ent)

lemma FileAt.read {st : Fs} {path : CString} {bs : List UInt8}
    (h : FileAt st path f l bs) (hr : Ready st) (hm : st.vol.mounted = true)
    (hsize : bs.length + 512 ≤ 2 ^ 32) (hroom : bs.length ≤ l.length * clusterBytes st.vol) :
    (MallocFits st.heap (bs.length + 1) → Returns st path bs) ∧
      ∀ h', Memory.malloc st.heap (bs.length + 1) = some (0, h') →
        ∃ st', fsReadFile st path = some (none, st') := by
  obtain ⟨d, ld, leaf, hnames, hl, hlook⟩ := h.named
  have hlen : bs.length = direntFileSize f.ent := by rw [h.contents, fileBytes_length]
  obtain ⟨st1, hwith, b, n, rfl⟩ := withLeaf_ok none fatReadFile hr hm hnames
  have hr1 : Ready { st with sectorBuf := b, ops := n } := ⟨hr.geometry, hr.io⟩
  rw [hlen] at hsize hroom ⊢
  constructor
  · rintro ⟨ptr, h', hmalloc, hptr⟩
    obtain ⟨st2, hread, hslice⟩ := fatReadFile_ok hr1 hl hlook h.file h.chain hsize hroom hmalloc hptr
    refine ⟨ptr, st2, ?_, ?_⟩
    · rw [fsReadFile, hwith, hread, hlen]
    · rw [hlen, hslice, h.contents]
      rfl
  · intro h' hmalloc
    obtain ⟨st2, hread⟩ := fatReadFile_noMem hr1 hl hlook h.file (by omega) hmalloc
    exact ⟨st2, by rw [fsReadFile, hwith, hread]⟩

/-! ## Writing, then reading -/

section WriteRead
variable {st st' : Fs} {path : CString} {f : Found} {l : List Nat} {old data : List UInt8}

variable {l' : List Nat} {bs : List UInt8} {first : Nat}

lemma Relinked.fileAt {size : Nat} (hw : WellFormed st)
    (hfile : FileAt st path f l old) (h : Relinked st st' f l l' first size) :
    FileAt st' path { f with ent := f.withFields first size } l'
      (fileBytes (clusterBytes st.vol) st'.data l' size) := by
  obtain ⟨d, ld, leaf, hnames, hl, hlook⟩ := hfile.named
  obtain ⟨hf, he⟩ := lookup_some hlook
  obtain ⟨p, hd⟩ := hw.sound.dir_of_names hnames
  have hshadow := h.shadow hw.sound hd hl hf he hfile.file hfile.chain
  have h32 := ent_length hf
  have hset : (direntSetFirstCluster f.ent first).length = 32 := by
    simp [direntSetFirstCluster, h32]
  have hfirst : direntFirstCluster (f.withFields first size) = first := by
    rw [Found.withFields, firstCluster_setFileSize hset,
      firstCluster_setFirstCluster h32 (Nat.lt_trans h.first_lt (by decide))]
  have hsize : direntFileSize (f.withFields first size) = size := by
    rw [Found.withFields, fileSize_setFileSize hset h.size_lt]
  refine ⟨⟨d, ld, leaf, hshadow.names hw.sound hnames, hshadow.chain hd hl, ?_⟩, ?_, ?_, ?_⟩
  · rw [hshadow.lookup hd hl, hlook, Option.map_some, Found.replace_self]
  · rw [← hfile.file]
    exact Alike.isDir (take_setFields _ _)
  · show HasChain st'.vol st'.fat (direntFirstCluster (f.withFields first size)) l'
    rw [hfirst, h.disk.vol]
    rcases h.chain with h0 | hch
    · exact .inl h0
    · exact .inr ⟨by have := hch.node_head.1; omega, hch⟩
  · show _ = fileBytes (clusterBytes st'.vol) st'.data l' (direntFileSize (f.withFields first size))
    rw [hsize, h.disk.vol]

lemma Rewritten.fileAt (hw : WellFormed st)
    (hfile : FileAt st path f l old) (h : Rewritten st st' f l l' first bs) :
    FileAt st' path { f with ent := f.withFields first bs.length } l' bs := by
  have hat := h.toRelinked.fileAt hw hfile
  rwa [h.bytes] at hat

lemma Relinked.of_quiet {st0 : Fs} (hq : Quiet st st0) {size : Nat}
    (h : Relinked st0 st' f l l' first size) : Relinked st st' f l l' first size := by
  obtain ⟨b, n, rfl⟩ := hq
  exact { h with disk := DiskOnly.trans ⟨_, _, _, rfl⟩ h.disk }

lemma Outcome.of_quiet {st0 : Fs} (hq : Quiet st st0) {taken : List Nat} {anew bound : Prop} {n : Nat}
    {r : Option (Bool × Fs)} (h : Outcome st0 f l taken anew n bound bs r) :
    Outcome st f l taken anew n bound bs r := by
  cases h with
  | written h hbytes hanew =>
    refine .written (h.of_quiet hq) (fun hb => ?_) hanew
    obtain ⟨h', hroom, hbs⟩ := hbytes hb
    rw [hq.vol] at hroom hbs
    exact ⟨h'.of_quiet hq, hroom, hbs⟩
  | stranded h =>
    obtain ⟨b, n, rfl⟩ := hq
    exact .stranded ⟨DiskOnly.trans ⟨_, _, _, rfl⟩ h.disk, h.data, h.chain, h.fat⟩

lemma write_entry (hw : WellFormed st) {d : Nat} {ld : List Nat} {leaf : CString}
    (hnames : st.image.Names path d leaf) (hl : st.image.ChainAt d ld)
    (hlook : lookup leaf [] (st.image.slots ld) = some f) (data : List UInt8) (append : Bool) :
    ∃ st1, Quiet st st1 ∧
      withLeaf st false path (fun st dir name => fatWriteFile st dir name data append) =
        fatWriteEntry st1 f data append := by
  obtain ⟨st1, st2, hwith, -, hfind, hq⟩ := withLeaf_find false
    (fun st dir name => fatWriteFile st dir name data append) hw.ready hw.mounted (.inl hnames) hl
  refine ⟨st2, hq, ?_⟩
  rw [hwith, fatWriteFile, hfind, hlook]

lemma write_outcome (hw : WellFormed st) (hfile : FileAt st path f l old) (data : List UInt8)
    (append : Bool) :
    Outcome st f l (takenClusters st.vol st.fat l append)
      (¬ (append = true ∧ direntFirstCluster f.ent ≠ 0)) (writtenClusters st.vol (u32 data.length))
      ((if append then old.length else 0) + data.length + clusterBytes st.vol < 2 ^ 32)
      (if append then old ++ data else data)
      (withLeaf st false path fun st dir name => fatWriteFile st dir name data append) := by
  obtain ⟨d, ld, leaf, hnames, hl, hlook⟩ := hfile.named
  obtain ⟨hf, he⟩ := lookup_some hlook
  obtain ⟨p, hd⟩ := hw.sound.dir_of_names hnames
  obtain ⟨st1, hq, hcall⟩ := write_entry hw hnames hl hlook data append
  have hlen : old.length = direntFileSize f.ent := by rw [hfile.contents, fileBytes_length]
  rw [hcall]
  apply Outcome.of_quiet hq
  obtain ⟨b, n, rfl⟩ := hq
  have hentry := hw.sound.entry_of_file hd hl hf he hfile.file
  have hout := fatWriteEntry_outcome data
    (show Ready { st with sectorBuf := b, ops := n } from ⟨hw.ready.geometry, hw.ready.io⟩)
    (place_of_mem hl hf) (ent_length hf) hfile.file (l := l) hfile.chain
    (not_mem_of_file hw.sound hd hl hf he hfile.file hfile.chain) (used_of_mem hl hf) append
  refine hout.mono (fun h => ⟨h, rfl⟩) fun hb => ?_
  refine ⟨⟨hw.sized hentry hfile.file hfile.chain, ?_⟩, ?_⟩
  · rw [← hlen]
    exact hb
  · rw [hfile.contents]
    rfl

lemma write_rewritten (hw : WellFormed st) (hfile : FileAt st path f l old) (append : Bool)
    (hbound : (if append then old.length else 0) + data.length + clusterBytes st.vol < 2 ^ 32)
    (hrun : withLeaf st false path (fun st dir name => fatWriteFile st dir name data append) =
      some (true, st')) :
    ∃ l' first, Rewritten st st' f l l' first (if append then old ++ data else data) := by
  have hout := write_outcome hw hfile data append
  rw [hrun] at hout
  cases hout with
  | written _ hrw => exact ⟨_, _, hrw hbound⟩

/-- A file that was written or appended to is read back with the new contents wherever the heap
has a buffer for them; otherwise `fs_read_file` returns 0. -/
theorem write_read (st : Fs) (hw : WellFormed st) (path : CString) (f : Found) (l : List Nat)
    (old data : List UInt8) (hfile : FileAt st path f l old)
    (hbound : old.length + data.length + clusterBytes st.vol < 2 ^ 32) :
    (∀ st', fsWriteFile st path data = some (true, st') →
      (MallocFits st'.heap (data.length + 1) → Returns st' path data) ∧
      ∀ h', Memory.malloc st'.heap (data.length + 1) = some (0, h') →
        ∃ st'', fsReadFile st' path = some (none, st'')) ∧
    (∀ st', fsAppendFile st path data = some (true, st') →
      (MallocFits st'.heap ((old ++ data).length + 1) → Returns st' path (old ++ data)) ∧
      ∀ h', Memory.malloc st'.heap ((old ++ data).length + 1) = some (0, h') →
        ∃ st'', fsReadFile st' path = some (none, st'')) := by
  have hcb512 : 512 ≤ clusterBytes st.vol := by
    have := hw.ready.geometry.spc_pos
    unfold clusterBytes
    omega
  have hread : ∀ st' l' first bs, Rewritten st st' f l l' first bs →
      bs.length + clusterBytes st.vol < 2 ^ 32 →
      (MallocFits st'.heap (bs.length + 1) → Returns st' path bs) ∧
      ∀ h', Memory.malloc st'.heap (bs.length + 1) = some (0, h') →
        ∃ st'', fsReadFile st' path = some (none, st'') := by
    intro st' l' first bs hrw hlen
    apply (hrw.fileAt hw hfile).read (hrw.disk.ready hw.ready)
    · rw [hrw.disk.vol]
      exact hw.mounted
    · omega
    · rw [hrw.disk.vol]
      exact hrw.room
  constructor
  · intro st' hrun
    have hsmall : 0 + data.length + clusterBytes st.vol < 2 ^ 32 := by omega
    obtain ⟨l', first, hrw⟩ := write_rewritten hw hfile false hsmall hrun
    exact hread st' l' first data hrw (by omega)
  · intro st' hrun
    obtain ⟨l', first, hrw⟩ := write_rewritten hw hfile true hbound hrun
    apply hread st' l' first (old ++ data) hrw
    rw [List.length_append]
    exact hbound

end WriteRead

/-- A volume with the file `A` of two bytes in its root directory. -/
def oneFile : Fs := smallFs [(2, 0x0FFFFFFF), (3, 0x0FFFFFFF)] [(2, slotOf [65] 0x20 3 2), (3, [7, 8])]

lemma oneFile_wellFormed : WellFormed oneFile :=
  wellFormed_of_checked [(2, 2)] (smallFs_ready _ _) rfl (by decide +kernel)

lemma oneFile_fileAt : FileAt oneFile [0x2F, 97] ⟨slotOf [65] 0x20 3 2, 2, 0⟩ [3] [7, 8] where
  named := ⟨2, [2], [97], ⟨by decide, by decide, .leaf (by decide) (by decide)⟩, by decide +kernel,
    by decide +kernel⟩
  file := by decide +kernel
  chain := .inr ⟨by decide +kernel, by decide +kernel⟩
  contents := by decide +kernel

theorem write_read_oneFile :
    WellFormed oneFile ∧ ∃ st', fsAppendFile oneFile [0x2F, 97] [9] = some (true, st') ∧
      Returns st' [0x2F, 97] [7, 8, 9] := by
  have hok : (fsAppendFile oneFile [0x2F, 97] [9]).map
      (fun r => (r.1, decide (MallocFits r.2.heap 4))) = some (true, true) := by decide +kernel
  obtain ⟨⟨ok, st'⟩, hrun, heq⟩ := Option.map_eq_some_iff.mp hok
  obtain ⟨rfl, hfits⟩ : ok = true ∧ MallocFits st'.heap 4 := by simpa using heq
  have h := write_read oneFile oneFile_wellFormed [0x2F, 97] _ [3] [7, 8] [9] oneFile_fileAt
    (by decide)
  exact ⟨oneFile_wellFormed, st', hrun, (h.2 st' hrun).1 hfits⟩

def fullHeap : Memory.Heap :=
  match Memory.malloc freshHeap (Memory.heapSize - Memory.sizeofBlock) with
  | some (_, h) => h
  | none => freshHeap

/-- On a full heap a file that was written with success is not read back. -/
theorem not_write_read_fullHeap :
    WellFormed { oneFile with heap := fullHeap } ∧
      FileAt { oneFile with heap := fullHeap } [0x2F, 97] ⟨slotOf [65] 0x20 3 2, 2, 0⟩ [3] [7, 8] ∧
      ∃ st', fsWriteFile { oneFile with heap := fullHeap } [0x2F, 97] [9] = some (true, st') ∧
        ¬ Returns st' [0x2F, 97] [9] := by
  have hok : ((fsWriteFile { oneFile with heap := fullHeap } [0x2F, 97] [9]).bind fun r =>
      (fsReadFile r.2 [0x2F, 97]).map fun q => (r.1, q.1)) = some (true, none) := by decide +kernel
  obtain ⟨⟨ok, st'⟩, hrun, hread⟩ := Option.bind_eq_some_iff.mp hok
  obtain ⟨⟨r, st''⟩, hread, heq⟩ := Option.map_eq_some_iff.mp hread
  obtain ⟨rfl, rfl⟩ : ok = true ∧ r = none := by simpa using heq
  obtain ⟨hw, hf⟩ := And.intro oneFile_wellFormed oneFile_fileAt
  refine ⟨⟨⟨hw.ready.geometry, hw.ready.io⟩, hw.mounted, hw.sound, hw.sized, hw.tidy⟩,
    ⟨hf.named, hf.file, hf.chain, hf.contents⟩, st', hrun, ?_⟩
  rintro ⟨ptr, st₃, h, -⟩
  rw [hread] at h
  cases h

end FusionOS.Fat
