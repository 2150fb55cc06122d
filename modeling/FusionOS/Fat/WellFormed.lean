import Mathlib.Data.List.Pairwise
import FusionOS.Fat.Tree

/-!
# Well-formed volumes

What is assumed of a volume, and a check of it that can be run: `Checked` takes
the directories of the volume with their parents and looks at their slots only,
so it is decidable, and a volume that passes is well-formed.
-/

namespace FusionOS.Fat

def InUse (e : Slot) : Prop := e.getD 0 0 ≠ 0 ∧ e.getD 0 0 ≠ 0xE5

def IsLfn (e : Slot) : Prop := InUse e ∧ direntAttr e = 0x0F

structure Tidy (fs : List Found) : Prop where
  ended : fs.Pairwise fun a b => a.ent.getD 0 0 = 0 → b.ent.getD 0 0 = 0
  named : fs.IsChain fun a b => IsLfn a.ent → InUse b.ent
  last : ∀ a ∈ fs.getLast?, ¬ IsLfn a.ent

/-- A mounted volume of sound geometry with working block transfers, whose entries form a tree
with chains of their own, long enough for the sizes they record. -/
structure WellFormed (st : Fs) : Prop where
  ready : Ready st
  mounted : st.vol.mounted = true
  sound : st.image.Sound
  sized : ∀ {f l}, st.image.Entry f → direntIsDir f.ent = false →
    HasChain st.vol st.fat (direntFirstCluster f.ent) l →
    direntFileSize f.ent ≤ l.length * clusterBytes st.vol
  tidy : ∀ {d p l}, st.image.Dir d p → st.image.ChainAt d l → Tidy (st.image.slots l)

/-! ## The check -/

/-- Follows the table from `c` on until a link leaves the clusters. -/
def walk (v : Volume) (fat : Nat → Nat) : Nat → Nat → List Nat
  | 0, _ => []
  | n + 1, c => if v.IsCluster c then c :: walk v fat n (fat c) else []

/-- Whether `l` is the chain of `c`. -/
def isChain (v : Volume) (fat : Nat → Nat) : Nat → List Nat → Bool
  | _, [] => false
  | c, a :: l =>
    a == c && decide (v.IsCluster a) &&
      (if l = [] then decide (eoc ≤ fat a) else isChain v fat (fat a) l)

lemma isChain_iff {v : Volume} {fat : Nat → Nat} {c : Nat} {l : List Nat} :
    isChain v fat c l = true ↔ FatChain v fat c l := by
  induction l generalizing c with
  | nil =>
    constructor
    · intro h
      cases h
    · intro h
      exact absurd rfl h.ne_nil
  | cons a l ih =>
    rw [isChain, Bool.and_eq_true, Bool.and_eq_true, beq_iff_eq, decide_eq_true_eq]
    constructor
    · rintro ⟨⟨rfl, hcl⟩, h⟩
      split at h
      · next hnil =>
        rw [hnil]
        exact .last hcl (of_decide_eq_true h)
      · exact .cons hcl (ih.mp h)
    · intro h
      cases h with
      | last hcl hs => exact ⟨⟨rfl, hcl⟩, by simpa using hs⟩
      | cons hcl ht => exact ⟨⟨rfl, hcl⟩, by rw [if_neg ht.ne_nil]; exact ih.mpr ht⟩

instance (v : Volume) (fat : Nat → Nat) (c : Nat) (l : List Nat) : Decidable (FatChain v fat c l) :=
  decidable_of_iff _ isChain_iff

instance (e : Slot) : Decidable (InUse e) := inferInstanceAs (Decidable (_ ∧ _))

instance (e : Slot) : Decidable (IsLfn e) := inferInstanceAs (Decidable (_ ∧ _))

instance (fs : List Found) : Decidable (Tidy fs) :=
  decidable_of_iff
    ((fs.Pairwise fun a b => a.ent.getD 0 0 = 0 → b.ent.getD 0 0 = 0) ∧
      (fs.IsChain fun a b => IsLfn a.ent → InUse b.ent) ∧ ∀ a ∈ fs.getLast?, ¬ IsLfn a.ent)
    ⟨fun h => ⟨h.1, h.2.1, h.2.2⟩, fun h => ⟨h.1, h.2, h.3⟩⟩

namespace Image
variable (I : Image)

/-- The chain of `c` as the table gives it. -/
def chainOf (c : Nat) : List Nat := walk I.vol I.fat I.vol.limit c

/-- The entries of the directory `d`. -/
def dirEntries (d : Nat) : List Found := (I.slots (I.chainOf d)).filter fun f => IsEntry f.ent

/-- The entries of the directories `dirs`, `.` and `..` left out. -/
def treeEntries (dirs : List (Nat × Nat)) : List Found :=
  dirs.flatMap fun x => (I.dirEntries x.1).filter fun f => ¬ IsDot f.ent

/-- The entries `f` and `g` have no cluster in common. -/
def Apart (f g : Found) : Prop :=
  ∀ x ∈ I.chainOf (direntFirstCluster f.ent), x ∉ I.chainOf (direntFirstCluster g.ent)

/-- What `.` and `..` of the directory `d` with the parent `p` are to be. -/
def DotOk (d p : Nat) (f : Found) : Prop :=
  direntIsDir f.ent = true ∧ (direntFirstCluster f.ent = 0 ∨ direntFirstCluster f.ent = d ∨
    direntFirstCluster f.ent = p)

/-- What another entry of the directory `d` is to be, if it has a chain. -/
def EntryOk (dirs : List (Nat × Nat)) (d : Nat) (f : Found) : Prop :=
  I.ChainAt (direntFirstCluster f.ent) (I.chainOf (direntFirstCluster f.ent)) ∧
    (direntIsDir f.ent = true → (direntFirstCluster f.ent, d) ∈ dirs)

def SizeOk (f : Found) : Prop :=
  direntIsDir f.ent = false → direntFileSize f.ent ≤
    (if direntFirstCluster f.ent = 0 then 0 else (I.chainOf (direntFirstCluster f.ent)).length) *
      clusterBytes I.vol

instance (f g : Found) : Decidable (I.Apart f g) := inferInstanceAs (Decidable (∀ _ ∈ _, _))

instance (d p : Nat) (f : Found) : Decidable (DotOk d p f) := inferInstanceAs (Decidable (_ ∧ _))

instance (dirs : List (Nat × Nat)) (d : Nat) (f : Found) : Decidable (I.EntryOk dirs d f) :=
  inferInstanceAs (Decidable (_ ∧ _))

instance (f : Found) : Decidable (I.SizeOk f) := inferInstanceAs (Decidable (_ → _))

/-- The directories `dirs`, each with its parent, are those of a well-formed tree. -/
structure Checked (dirs : List (Nat × Nat)) : Prop where
  root : (I.vol.rootCluster, I.vol.rootCluster) ∈ dirs
  chains : ∀ x ∈ dirs, I.ChainAt x.1 (I.chainOf x.1) ∧ Tidy (I.slots (I.chainOf x.1))
  dots : ∀ x ∈ dirs, ∀ f ∈ I.dirEntries x.1, IsDot f.ent → DotOk x.1 x.2 f
  entries : ∀ x ∈ dirs, ∀ f ∈ I.dirEntries x.1, ¬ IsDot f.ent → direntFirstCluster f.ent ≠ 0 →
    I.EntryOk dirs x.1 f
  apart : (I.treeEntries dirs).Pairwise I.Apart
  offRoot : ∀ f ∈ I.treeEntries dirs, ∀ x ∈ I.chainOf (direntFirstCluster f.ent),
    x ∉ I.chainOf I.vol.rootCluster
  sized : ∀ f ∈ I.treeEntries dirs, I.SizeOk f

instance (dirs : List (Nat × Nat)) : Decidable (I.Checked dirs) :=
  decidable_of_iff
    ((I.vol.rootCluster, I.vol.rootCluster) ∈ dirs ∧
      (∀ x ∈ dirs, I.ChainAt x.1 (I.chainOf x.1) ∧ Tidy (I.slots (I.chainOf x.1))) ∧
      (∀ x ∈ dirs, ∀ f ∈ I.dirEntries x.1, IsDot f.ent → DotOk x.1 x.2 f) ∧
      (∀ x ∈ dirs, ∀ f ∈ I.dirEntries x.1, ¬ IsDot f.ent → direntFirstCluster f.ent ≠ 0 →
        I.EntryOk dirs x.1 f) ∧
      (I.treeEntries dirs).Pairwise I.Apart ∧
      (∀ f ∈ I.treeEntries dirs, ∀ x ∈ I.chainOf (direntFirstCluster f.ent),
        x ∉ I.chainOf I.vol.rootCluster) ∧
      ∀ f ∈ I.treeEntries dirs, I.SizeOk f)
    (by
      constructor
      · rintro ⟨h1, h2, h3, h4, h5, h6, h7⟩
        exact ⟨h1, h2, h3, h4, h5, h6, h7⟩
      · rintro ⟨h1, h2, h3, h4, h5, h6, h7⟩
        exact ⟨h1, h2, h3, h4, h5, h6, h7⟩)

variable {I} {dirs : List (Nat × Nat)}

lemma Checked.dir (h : I.Checked dirs) (hg : Geometry I.vol) {d p : Nat} (hd : I.Dir d p) :
    (d, p) ∈ dirs := by
  induction hd with
  | root => exact h.root
  | sub hd hl hf he hdot hdir h0 ih =>
    rw [FatChain.unique hg hl (h.chains _ ih).1] at hf
    exact (h.entries _ ih _ (List.mem_filter.mpr ⟨hf, by simpa using he⟩) hdot h0).2 hdir

lemma Checked.entry (h : I.Checked dirs) (hg : Geometry I.vol) {f : Found} (hf : I.Entry f) :
    f ∈ I.treeEntries dirs ∧ (direntFirstCluster f.ent ≠ 0 →
      I.ChainAt (direntFirstCluster f.ent) (I.chainOf (direntFirstCluster f.ent))) := by
  obtain ⟨d, p, l, hd, hl, hf, he, hdot⟩ := hf
  have hmem := h.dir hg hd
  rw [FatChain.unique hg hl (h.chains _ hmem).1] at hf
  have hent : f ∈ I.dirEntries d := List.mem_filter.mpr ⟨hf, by simpa using he⟩
  refine ⟨?_, fun h0 => (h.entries _ hmem f hent hdot h0).1⟩
  exact List.mem_flatMap.mpr ⟨(d, p), hmem, List.mem_filter.mpr ⟨hent, by simpa using hdot⟩⟩

lemma Checked.sound (h : I.Checked dirs) (hg : Geometry I.vol) : I.Sound := by
  have hchain : ∀ {f l}, I.Entry f → I.ChainAt (direntFirstCluster f.ent) l →
      l = I.chainOf (direntFirstCluster f.ent) := by
    intro f l hf hl
    have h0 : direntFirstCluster f.ent ≠ 0 := by
      have := hl.node_head.1
      omega
    exact FatChain.unique hg hl ((h.entry hg hf).2 h0)
  refine ⟨⟨_, (h.chains _ h.root).1⟩, fun hf h0 => ⟨_, (h.entry hg hf).2 h0⟩, ?_, ?_, ?_⟩
  · intro f g l l' x hf hg' hl hl' hx hx'
    by_contra hne
    have hsymm : Std.Symm I.Apart := ⟨fun a b hab x hb ha => hab x ha hb⟩
    rw [hchain hf hl] at hx
    rw [hchain hg' hl'] at hx'
    exact h.apart.forall (h.entry hg hf).1 (h.entry hg hg').1 hne x hx hx'
  · intro f l l' x hf hl hl' hx hx'
    rw [hchain hf hl] at hx
    rw [FatChain.unique hg hl' (h.chains _ h.root).1] at hx'
    exact h.offRoot f (h.entry hg hf).1 x hx hx'
  · intro d p l f hd hl hf he hdot
    have hmem := h.dir hg hd
    rw [FatChain.unique hg hl (h.chains _ hmem).1] at hf
    exact h.dots _ hmem f (List.mem_filter.mpr ⟨hf, by simpa using he⟩) hdot

end Image

lemma wellFormed_of_checked {st : Fs} (dirs : List (Nat × Nat)) (hr : Ready st)
    (hm : st.vol.mounted = true) (h : st.image.Checked dirs) : WellFormed st := by
  refine ⟨hr, hm, h.sound hr.geometry, ?_, ?_⟩
  · intro f l hf hdir hch
    have hsized := h.sized f (h.entry hr.geometry hf).1 hdir
    rcases hch with ⟨h0, rfl⟩ | ⟨h0, hch⟩
    · rw [if_pos h0] at hsized
      exact hsized
    · rw [if_neg h0, ← FatChain.unique hr.geometry hch ((h.entry hr.geometry hf).2 h0)] at hsized
      exact hsized
  · intro d p l hd hl
    have hmem := h.dir hr.geometry hd
    rw [FatChain.unique hr.geometry hl (h.chains _ hmem).1]
    exact (h.chains _ hmem).2

instance (v : Volume) : Decidable (Geometry v) :=
  decidable_of_iff
    (0 < v.sectorsPerCluster ∧ v.sectorsPerCluster < 256 ∧ 0 < v.fatCount ∧
      v.dataStartLba = v.fatStartLba + v.fatCount * v.fatSize ∧
      v.limit * 4 ≤ v.fatSize * 512 ∧
      v.dataStartLba + v.totalClusters * v.sectorsPerCluster ≤ 2 ^ 32 ∧ v.limit ≤ eoc ∧
      2 ≤ v.rootCluster ∧ v.rootCluster < v.limit)
    ⟨fun ⟨h1, h2, h3, h4, h5, h6, h7, h8, h9⟩ => ⟨h1, h2, h3, h4, h5, h6, h7, h8, h9⟩,
      fun h => ⟨h.1, h.2, h.3, h.4, h.5, h.6, h.7, h.8, h.9⟩⟩

/-! ## Small volumes -/

/-- A volume of eight one-sector clusters; cluster `c` is sector `c`. -/
def smallVolume : Volume :=
  { sectorsPerCluster := 1, reservedSectors := 1, fatCount := 1, fatSize := 1, totalSectors := 10,
    rootCluster := 2, fatStartLba := 1, dataStartLba := 2, totalClusters := 8, partLba := 0,
    mounted := true }

def smallDisk (links : List (Nat × Nat)) (clusters : List (Nat × List UInt8)) : Nat → Mem :=
  fun lba =>
    if lba = 1 then links.foldr (fun x m => store m (x.1 * 4) 4 x.2) fun _ => 0
    else splice (fun _ => 0) 0 ((clusters.lookup lba).getD [])

def freshHeap : Memory.Heap := Memory.heapInit ⟨fun _ => 0, 0, 0, 0, 0⟩ 4096

def smallFs (links : List (Nat × Nat)) (clusters : List (Nat × List UInt8)) : Fs :=
  { vol := smallVolume, disk := smallDisk links clusters, sectorBuf := fun _ => 0,
    ioOk := fun _ => true, ops := 0, heap := freshHeap, stackName := [] }

/-- The slot of an 8.3 entry. -/
def slotOf (name : CString) (attr : UInt8) (first size : Nat) : Slot :=
  direntSetFileSize (direntSetFirstCluster (newDirent (nameToShort name) attr) first) size

lemma smallFs_ready (links : List (Nat × Nat)) (clusters : List (Nat × List UInt8)) :
    Ready (smallFs links clusters) :=
  ⟨show Geometry smallVolume by decide, fun _ => rfl⟩

end FusionOS.Fat
