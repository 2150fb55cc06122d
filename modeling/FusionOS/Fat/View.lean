import FusionOS.Fat.NewFile

/-!
# Views of the tree

A view of an image gives its directories, each with its parent and its clusters, and its entries,
each with its chain.
-/

namespace FusionOS.Fat

open List

/-- `D d p l`: `l` are the clusters of the directory `d` with the parent `p`. `E f l`: `l` is the chain
of the entry `f`. -/
structure Image.View (I : Image) (D : Nat → Nat → List Nat → Prop) (E : Found → List Nat → Prop) :
    Prop where
  root : ∃ l, D I.vol.rootCluster I.vol.rootCluster l
  dir : ∀ {d p l}, D d p l → I.ChainAt d l
  entry : ∀ {d p l f}, D d p l → f ∈ I.slots l → IsEntry f.ent → ¬ IsDot f.ent → ∃ m, E f m ∧
    (direntIsDir f.ent = true → direntFirstCluster f.ent ≠ 0 → D (direntFirstCluster f.ent) d m)
  dot : ∀ {d p l f}, D d p l → f ∈ I.slots l → IsEntry f.ent → IsDot f.ent → Image.DotOk d p f
  chain : ∀ {f l}, E f l → HasChain I.vol I.fat (direntFirstCluster f.ent) l
  offRoot : ∀ {f l m x}, E f l → D I.vol.rootCluster I.vol.rootCluster m → x ∈ l → x ∉ m
  inside : ∀ {d p l}, D d p l → Uncrossed I.vol I.data l

def ChainsApart (E : Found → List Nat → Prop) : Prop :=
  ∀ {f g l m x}, E f l → E g m → x ∈ l → x ∈ m → f = g

variable {l : List Nat} {c : Nat} {fat : Nat → Nat} {v : Volume}

lemma HasChain.unique {m : List Nat} (hg : Geometry v)
    (h : HasChain v fat c l) (h' : HasChain v fat c m) : l = m := by
  rcases h with ⟨h0, rfl⟩ | ⟨h0, h⟩
  · rcases h' with ⟨-, rfl⟩ | ⟨h0', -⟩
    · rfl
    · exact absurd h0 h0'
  · rcases h' with ⟨h0', -⟩ | ⟨-, h'⟩
    · exact absurd h0' h0
    · exact FatChain.unique hg h h'

lemma FatChain.hasChain
    (h : FatChain v fat c l) : HasChain v fat c l := by
  refine .inr ⟨?_, h⟩
  have := h.node_head.1
  omega

section Views
variable {I : Image} {D : Nat → Nat → List Nat → Prop} {E : Found → List Nat → Prop}

lemma Image.View.of_dir (hv : I.View D E) (hg : Geometry I.vol) {d p : Nat} (hd : I.Dir d p) :
    ∃ l, D d p l := by
  induction hd with
  | root => exact hv.root
  | sub _ hl hf he hdot hdir h0 ih =>
    obtain ⟨l, hD⟩ := ih
    rw [FatChain.unique hg hl (hv.dir hD)] at hf
    obtain ⟨m, -, hm⟩ := hv.entry hD hf he hdot
    exact ⟨m, hm hdir h0⟩

lemma Image.View.of_entry (hv : I.View D E) (hg : Geometry I.vol) {f : Found} (hf : I.Entry f) :
    ∃ m, E f m := by
  obtain ⟨d, p, l, hd, hl, hf, he, hdot⟩ := hf
  obtain ⟨l', hD⟩ := hv.of_dir hg hd
  rw [FatChain.unique hg hl (hv.dir hD)] at hf
  obtain ⟨m, hm, -⟩ := hv.entry hD hf he hdot
  exact ⟨m, hm⟩

lemma Image.View.of_chain (hv : I.View D E) (hg : Geometry I.vol) {f : Found} (hf : I.Entry f)
    {l : List Nat} (hl : I.ChainAt (direntFirstCluster f.ent) l) : E f l := by
  obtain ⟨m, hm⟩ := hv.of_entry hg hf
  rwa [HasChain.unique hg hl.hasChain (hv.chain hm)]

lemma Image.View.sound (hv : I.View D E) (hg : Geometry I.vol) (hap : ChainsApart E) : I.Sound := by
  refine ⟨?_, ?_, ?_, ?_, ?_⟩
  · obtain ⟨l, hD⟩ := hv.root
    exact ⟨l, hv.dir hD⟩
  · intro f hf h0
    obtain ⟨m, hm⟩ := hv.of_entry hg hf
    rcases hv.chain hm with ⟨h0', -⟩ | ⟨-, hch⟩
    · exact absurd h0' h0
    · exact ⟨m, hch⟩
  · intro f g l m x hf hg' hl hm hx hx'
    exact hap (hv.of_chain hg hf hl) (hv.of_chain hg hg' hm) hx hx'
  · intro f l m x hf hl hm hx
    obtain ⟨m', hD⟩ := hv.root
    rw [FatChain.unique hg hm (hv.dir hD)]
    exact hv.offRoot (hv.of_chain hg hf hl) hD hx
  · intro d p l f hd hl hf he hdot
    obtain ⟨l', hD⟩ := hv.of_dir hg hd
    rw [FatChain.unique hg hl (hv.dir hD)] at hf
    exact hv.dot hD hf he hdot

lemma Image.View.runsInside {st : Fs} (hv : st.image.View D E) (hg : Geometry st.vol) :
    RunsInside st := by
  intro d p l hd hl
  obtain ⟨l', hD⟩ := hv.of_dir hg hd
  rw [FatChain.unique hg hl (hv.dir hD)]
  exact hv.inside hD

end Views

structure InOrder (st : Fs) : Prop where
  ready : Ready st
  mounted : st.vol.mounted = true
  sound : st.image.Sound
  inside : RunsInside st

lemma WellFormed.inOrder {st : Fs} (hw : WellFormed st) (hin : RunsInside st) : InOrder st :=
  ⟨hw.ready, hw.mounted, hw.sound, hin⟩

section Canonical
variable {st : Fs}

lemma InOrder.view (h : InOrder st) :
    st.image.View (fun d p l => st.image.Dir d p ∧ st.image.ChainAt d l)
      (fun f l => st.image.Entry f ∧ HasChain st.vol st.fat (direntFirstCluster f.ent) l) := by
  have hg : Geometry st.image.vol := h.ready.geometry
  refine ⟨?_, And.right, ?_, ?_, And.right, ?_, ?_⟩
  · obtain ⟨l, hl⟩ := h.sound.root
    exact ⟨l, .root, hl⟩
  · rintro d p l f ⟨hd, hl⟩ hf he hdot
    have hentry : st.image.Entry f := ⟨d, p, l, hd, hl, hf, he, hdot⟩
    by_cases h0 : direntFirstCluster f.ent = 0
    · exact ⟨[], ⟨hentry, .inl ⟨h0, rfl⟩⟩, fun _ hne => absurd h0 hne⟩
    · obtain ⟨m, hm⟩ := h.sound.chain hentry h0
      exact ⟨m, ⟨hentry, .inr ⟨h0, hm⟩⟩, fun hdir _ => ⟨.sub hd hl hf he hdot hdir h0, hm⟩⟩
  · rintro d p l f ⟨hd, hl⟩ hf he hdot
    exact h.sound.dot hd hl hf he hdot
  · rintro f l m x ⟨hf, hch⟩ ⟨-, hm⟩ hx
    rcases hch with ⟨-, rfl⟩ | ⟨-, hch⟩
    · cases hx
    · exact h.sound.root_disjoint hf hch hm hx
  · rintro d p l ⟨hd, hl⟩
    exact h.inside hd hl

lemma InOrder.apart (h : InOrder st) :
    ChainsApart fun f l => st.image.Entry f ∧ HasChain st.vol st.fat (direntFirstCluster f.ent) l := by
  rintro f g l m x ⟨hf, hl⟩ ⟨hg, hm⟩ hx hx'
  rcases hl with ⟨-, rfl⟩ | ⟨-, hl⟩
  · cases hx
  rcases hm with ⟨-, rfl⟩ | ⟨-, hm⟩
  · cases hx'
  exact h.sound.disjoint hf hg hl hm hx hx'

lemma InOrder.of_view {st' : Fs} {D : Nat → Nat → List Nat → Prop} {E : Found → List Nat → Prop}
    (ho : InOrder st)
    (hdisk : DiskOnly st st') (hv : st'.image.View D E) (hap : ChainsApart E) : InOrder st' := by
  have hr' := hdisk.ready ho.ready
  refine ⟨hr', ?_, hv.sound hr'.geometry hap, hv.runsInside hr'.geometry⟩
  rw [hdisk.vol]
  exact ho.mounted

lemma InOrder.quiet {st' : Fs} (ho : InOrder st) (hq : Quiet st st') : InOrder st' := by
  obtain ⟨b, n, rfl⟩ := hq
  exact ⟨⟨ho.ready.geometry, ho.ready.io⟩, ho.mounted, ho.sound, ho.inside⟩

end Canonical

lemma uncrossed_iff {data : Nat → Mem} (hv : 0 < v.sectorsPerCluster) :
    Uncrossed v data l ↔
      ∀ x ∈ dirSlots v data l, x.offset + 32 = clusterBytes v → ¬ IsLfn x.ent := by
  have hlast : ∀ c, (clusterSlots v data c).getLast? =
      some ⟨slice (data c) (clusterBytes v - 32) 32, c, clusterBytes v - 32⟩ := by
    intro c
    rw [List.getLast?_eq_getElem?, clusterSlots_length, clusterSlots_getElem? (by omega),
      show 32 * (v.sectorsPerCluster * 16 - 1) = clusterBytes v - 32 by unfold clusterBytes; omega]
  have hcb : 512 ≤ clusterBytes v := by
    unfold clusterBytes
    omega
  constructor
  · intro h x hx hend
    obtain ⟨hc, -, -, hent⟩ := mem_dirSlots.mp hx
    rw [hent, show x.offset = clusterBytes v - 32 by omega]
    exact h x.cluster hc _ (hlast x.cluster)
  · intro h c hc x hx
    rw [hlast c] at hx
    cases hx
    apply h _ (mem_dirSlots.mpr ⟨hc, ?_, ?_, rfl⟩)
    · dsimp only
      omega
    · unfold clusterBytes
      dsimp only
      omega
    · dsimp only
      omega

/-! ## Erased entries and released chains -/

section Erasing
variable {st st' : Fs} {D : Nat → Nat → List Nat → Prop} {E : Found → List Nat → Prop}

variable {offs : List Nat}

lemma Found.erase_entry {c : Nat} {x : Found} (h32 : x.ent.length = 32)
    (he : IsEntry (x.erase c offs).ent) :
    x.erase c offs = x ∧ ¬ (x.cluster = c ∧ x.offset ∈ offs) := by
  by_cases hat : x.cluster = c ∧ x.offset ∈ offs
  · rw [Found.erase, if_pos hat] at he
    have h5 : (x.ent.set 0 0xE5).getD 0 0 = 0xE5 := by
      rw [getD_eq_getElem?_getD, List.getElem?_set_self (by omega)]
      rfl
    exact absurd h5 he.2.1
  · exact ⟨if_neg hat, hat⟩

lemma Found.erase_lfn {c : Nat} {x : Found} (h32 : x.ent.length = 32)
    (h : ¬ IsLfn x.ent) : ¬ IsLfn (x.erase c offs).ent := by
  unfold Found.erase
  split
  · intro hlfn
    apply hlfn.1.2
    rw [getD_eq_getElem?_getD, List.getElem?_set_self (by omega)]
    rfl
  · exact h

lemma Image.View.erase (hv : st.image.View D E) (hr : Ready st) {l : List Nat} {g : Found}
    (h : Erased st st' l g offs) :
    st'.image.View D fun f m => E f m ∧ f ≠ g := by
  have hvol : st'.image.vol = st.image.vol := h.disk.vol
  have hfat : st'.image.fat = st.image.fat := h.fat
  have hroot : st'.image.vol.rootCluster = st.image.vol.rootCluster := congrArg _ hvol
  -- an entry of the new image is one of the old image, and not the erased one
  have hold : ∀ {m f}, f ∈ st'.image.slots m → IsEntry f.ent → f ∈ st.image.slots m ∧ f ≠ g := by
    intro m f hf he
    rw [Image.slots, show dirSlots st'.image.vol st'.image.data m = _ from h.slots m] at hf
    obtain ⟨x, hx, rfl⟩ := mem_map.mp hf
    obtain ⟨heq, hat⟩ := Found.erase_entry (ent_length hx) he
    rw [heq]
    refine ⟨hx, ?_⟩
    rintro rfl
    exact hat ⟨rfl, mem_append_right _ mem_cons_self⟩
  refine ⟨?_, ?_, ?_, ?_, ?_, ?_, ?_⟩
  · rw [hroot]
    exact hv.root
  · intro d p m hD
    rw [Image.ChainAt, hvol, hfat]
    exact hv.dir hD
  · intro d p m f hD hf he hdot
    obtain ⟨hf, hne⟩ := hold hf he
    obtain ⟨k, hk, hdir⟩ := hv.entry hD hf he hdot
    exact ⟨k, ⟨hk, hne⟩, hdir⟩
  · intro d p m f hD hf he hdot
    exact hv.dot hD (hold hf he).1 he hdot
  · rintro f m ⟨hE, -⟩
    rw [hvol, hfat]
    exact hv.chain hE
  · rintro f m k x ⟨hE, -⟩ hD hx
    rw [hroot] at hD
    exact hv.offRoot hE hD hx
  · intro d p m hD
    have hin := (uncrossed_iff hr.geometry.spc_pos).mp (hv.inside hD)
    rw [uncrossed_iff (by rw [hvol]; exact hr.geometry.spc_pos)]
    intro x hx hend
    rw [show dirSlots st'.image.vol st'.image.data m = _ from h.slots m] at hx
    obtain ⟨y, hy, rfl⟩ := mem_map.mp hx
    apply Found.erase_lfn (ent_length hy)
    apply hin y hy
    rw [hvol] at hend
    refine Eq.trans ?_ hend
    unfold Found.erase
    split <;> rfl

lemma Image.View.free (hv : st.image.View D E) {lf : List Nat}
    (hd : DiskOnly st st') (hfat : st'.fat = freeAll st.fat lf) (hdata : st'.data = st.data)
    (hE : ∀ {f m}, E f m → ∀ x ∈ m, x ∉ lf)
    (hroot : ∀ {m}, D st.vol.rootCluster st.vol.rootCluster m → ∀ x ∈ m, x ∉ lf) :
    st'.image.View (fun d p l => D d p l ∧ ∀ x ∈ l, x ∉ lf) E := by
  have hvol : st'.image.vol = st.image.vol := hd.vol
  have hrootc : st'.image.vol.rootCluster = st.image.vol.rootCluster := congrArg _ hvol
  have hslots : ∀ m, st'.image.slots m = st.image.slots m := by
    intro m
    rw [Image.slots, Image.slots, hvol, show st'.image.data = st.image.data from hdata]
  have hkeep : ∀ x, x ∉ lf → st'.image.fat x = st.image.fat x := by
    intro x hx
    rw [show st'.image.fat = _ from hfat, freeAll, if_neg hx]
    rfl
  refine ⟨?_, ?_, ?_, ?_, ?_, ?_, ?_⟩
  · obtain ⟨m, hm⟩ := hv.root
    rw [hrootc]
    exact ⟨m, hm, hroot hm⟩
  · rintro d p m ⟨hD, hout⟩
    rw [Image.ChainAt, hvol]
    exact Chain.congr (hv.dir hD) fun x hx => hkeep x (hout x hx)
  · rintro d p m f ⟨hD, -⟩ hf he hdot
    rw [hslots] at hf
    obtain ⟨k, hk, hdir⟩ := hv.entry hD hf he hdot
    exact ⟨k, hk, fun h1 h2 => ⟨hdir h1 h2, hE hk⟩⟩
  · rintro d p m f ⟨hD, -⟩ hf he hdot
    rw [hslots] at hf
    exact hv.dot hD hf he hdot
  · intro f m hm
    rw [hvol]
    rcases hv.chain hm with h0 | ⟨h0, hch⟩
    · exact .inl h0
    · exact .inr ⟨h0, Chain.congr hch fun x hx => hkeep x (hE hm x hx)⟩
  · rintro f m k x hm ⟨hD, -⟩ hx
    rw [hrootc] at hD
    exact hv.offRoot hm hD hx
  · rintro d p m ⟨hD, -⟩
    rw [hvol, show st'.image.data = st.image.data from hdata]
    exact hv.inside hD

end Erasing

/-! ## Rewritten files -/

section Rewriting
variable {st st' : Fs} {f : Found} {d p : Nat} {ld l l' : List Nat} {first size : Nat}

lemma withFields_first (h32 : f.ent.length = 32) (h : first < 2 ^ 28) (size : Nat) :
    direntFirstCluster (f.withFields first size) = first := by
  rw [Found.withFields, firstCluster_setFileSize (by simp [direntSetFirstCluster, h32]),
    firstCluster_setFirstCluster h32 (Nat.lt_trans h (by decide))]

def Rewrote (st : Fs) (f f' : Found) (l' : List Nat) (g : Found) (m : List Nat) : Prop :=
  (st.image.Entry g ∧ HasChain st.vol st.fat (direntFirstCluster g.ent) m) ∧ g ≠ f ∨ g = f' ∧ m = l'

lemma Target.entry_outside (ht : Target st f d p ld l) (ho : InOrder st) {g : Found} {m : List Nat}
    (hg : st.image.Entry g) (hm : HasChain st.vol st.fat (direntFirstCluster g.ent) m) (hne : g ≠ f)
    {x : Nat} (hx : x ∈ m) : x ∉ l ∧ st.fat x ≠ 0 := by
  have hentry := ho.sound.entry_of_file ht.dir ht.dirChain ht.mem ht.entry ht.file
  refine ⟨fun hx' => hne (ho.apart ⟨hg, hm⟩ ⟨hentry, ht.chain⟩ hx hx'), ?_⟩
  rcases hm with ⟨-, rfl⟩ | ⟨-, hm⟩
  · cases hx
  · exact FatChain.fat_ne_zero hm hx

lemma Relinked.outside (h : Relinked st st' f l l' first size) {x : Nat} (hx : x ∉ l ∧ st.fat x ≠ 0) :
    x ∉ l' := by
  intro hx'
  rcases h.fresh x hx' with hm | hfree
  · exact hx.1 hm
  · exact hx.2 (mem_freeClusters.mp hfree).2

lemma Relinked.view (h : Relinked st st' f l l' first size) (ho : InOrder st)
    (ht : Target st f d p ld l) :
    st'.image.View (fun d p l => st.image.Dir d p ∧ st.image.ChainAt d l)
      (Rewrote st f { f with ent := f.withFields first size } l') := by
  have hv := ho.view
  have hshadow := h.shadow ho.sound ht.dir ht.dirChain ht.mem ht.entry ht.file ht.chain
  have hvol : st'.image.vol = st.image.vol := h.disk.vol
  have halike : Alike f.ent (f.withFields first size) := take_setFields _ _
  -- a slot is the file's with its new fields, or an old one of another entry
  have hcases : ∀ {d p m x}, st.image.Dir d p → st.image.ChainAt d m → x ∈ st'.image.slots m →
      x = { f with ent := f.withFields first size } ∨ x ∈ st.image.slots m ∧ x ≠ f := by
    intro d p m x hd hm hx
    rw [hshadow.slots hd hm] at hx
    obtain ⟨y, hy, rfl⟩ := mem_map.mp hx
    by_cases hat : y.cluster = f.cluster ∧ y.offset = f.offset
    · obtain rfl := found_ext hy ht.mem hat.1 hat.2
      exact .inl (Found.replace_self _ _)
    · rw [Found.replace, if_neg hat]
      refine .inr ⟨hy, ?_⟩
      rintro rfl
      exact hat ⟨rfl, rfl⟩
  refine ⟨?_, ?_, ?_, ?_, ?_, ?_, ?_⟩
  · obtain ⟨m, hm⟩ := hv.root
    rw [hvol]
    exact ⟨m, hm⟩
  · rintro d p m ⟨hd, hm⟩
    exact hshadow.chain hd hm
  · rintro d p m x ⟨hd, hm⟩ hx he hdot
    rcases hcases hd hm hx with rfl | ⟨hx, hne⟩
    · refine ⟨l', .inr ⟨rfl, rfl⟩, fun hdir => ?_⟩
      rw [halike.isDir, ht.file] at hdir
      cases hdir
    · obtain ⟨k, hk, hdir⟩ := hv.entry ⟨hd, hm⟩ hx he hdot
      exact ⟨k, .inl ⟨hk, hne⟩, hdir⟩
  · rintro d p m x ⟨hd, hm⟩ hx he hdot
    rcases hcases hd hm hx with rfl | ⟨hx, -⟩
    · have := (ho.sound.dot ht.dir ht.dirChain ht.mem ht.entry (halike.isDot.mp hdot)).1
      rw [ht.file] at this
      cases this
    · exact hv.dot ⟨hd, hm⟩ hx he hdot
  · rintro g m (⟨⟨hg, hm⟩, hne⟩ | ⟨rfl, rfl⟩)
    · have hout := fun x hx => ht.entry_outside ho hg hm hne (x := x) hx
      rw [hvol]
      rcases hm with h0 | ⟨h0, hm⟩
      · exact .inl h0
      · exact .inr ⟨h0, Chain.congr hm fun x hx => h.fat x (hout x hx).1 (h.outside (hout x hx))⟩
    · rw [hvol, withFields_first (ent_length ht.mem) h.first_lt]
      rcases h.chain with h0 | hch
      · exact .inl h0
      · exact hch.hasChain
  · rintro g m k x hg ⟨-, hk⟩ hx hxk
    rw [show st'.image.vol.rootCluster = st.image.vol.rootCluster from congrArg _ hvol] at hk
    rcases hg with ⟨hg, -⟩ | ⟨rfl, rfl⟩
    · exact hv.offRoot hg ⟨.root, hk⟩ hx hxk
    · exact h.outside (ht.dir_outside ho.sound .root hk hxk) hx
  · rintro d p m ⟨hd, hm⟩
    have hpos := ho.ready.geometry.spc_pos
    have hin := (uncrossed_iff hpos).mp (ho.inside hd hm)
    rw [uncrossed_iff (by rw [hvol]; exact hpos)]
    intro x hx hend
    rw [hvol] at hend
    rcases hcases hd hm hx with rfl | ⟨hx, -⟩
    · rintro ⟨-, hlfn⟩
      rw [halike.attr] at hlfn
      exact ht.entry.2.2 hlfn
    · exact hin x hx hend

lemma Relinked.apart (h : Relinked st st' f l l' first size) (ho : InOrder st)
    (ht : Target st f d p ld l) : ChainsApart (Rewrote st f { f with ent := f.withFields first size } l') := by
  have hcross : ∀ {g m x}, (st.image.Entry g ∧ HasChain st.vol st.fat (direntFirstCluster g.ent) m) ∧
      g ≠ f → x ∈ m → x ∉ l' := by
    rintro g m x ⟨⟨hg, hm⟩, hne⟩ hx
    exact h.outside (ht.entry_outside ho hg hm hne hx)
  rintro g1 g2 m1 m2 x (h1 | ⟨rfl, rfl⟩) (h2 | ⟨rfl, rfl⟩) hx1 hx2
  · exact ho.apart h1.1 h2.1 hx1 hx2
  · exact absurd hx2 (hcross h1 hx1)
  · exact absurd hx1 (hcross h2 hx2)
  · rfl

lemma Relinked.inOrder (h : Relinked st st' f l l' first size) (ho : InOrder st)
    (ht : Target st f d p ld l) : InOrder st' := by
  exact ho.of_view h.disk (h.view ho ht) (h.apart ho ht)

end Rewriting

/-! ## New entries -/

lemma newDirent_not_dot (name : CString) (attr : UInt8) : ¬ IsDot (newDirent (nameToShort name) attr) := by
  rintro (h | h)
  · rw [newDirent_short] at h
    exact nameToShort_ne_dot name (by rw [h]; rfl)
  · rw [newDirent_short] at h
    exact nameToShort_ne_dot name (by rw [h]; rfl)

lemma placed_end {i n : Nat} {es : List Slot} (hroom : ∀ y ∈ placed c i es, y.offset + 32 ≤ n)
    {x : Found} (hx : x ∈ placed c i es) (hend : x.offset + 32 = n) : x ∈ (placed c i es).getLast? := by
  obtain ⟨k, hk, rfl⟩ := mem_iff_getElem.mp hx
  have hoff : ∀ k (hk : k < (placed c i es).length), (placed c i es)[k].offset = 32 * (i + k) := by
    intro k hk
    simp only [placed, getElem_mapIdx]
  rw [hoff k hk] at hend
  by_cases hnext : k + 1 < (placed c i es).length
  · have := hroom _ (getElem_mem hnext)
    rw [hoff _ hnext] at this
    omega
  · rw [List.getLast?_eq_getElem?, show (placed c i es).length - 1 = k by omega,
      List.getElem?_eq_getElem hk]
    rfl

section Attaching
variable {st st' : Fs} {d p : Nat} {ld l₁ l' : List Nat} {name : CString} {attr : UInt8} {c i : Nat}
  {e : Slot} (h : Attached st st' d ld l₁ name attr c i e l') (ho : InOrder st)
  (hd : st.image.Dir d p) (hl : st.image.ChainAt d ld)
include h

variable {f : Found} {m : List Nat} {x : Nat}

lemma Attached.slot_cases {x : Found} (hx : x ∈ st'.image.slots l₁) :
    x ∈ st.image.slots ld ∨ x.ent.getD 0 0 = 0 ∨ x ∈ placed c i (installed name attr e) := by
  obtain ⟨pre, run, post, zs, heq, hzero, hslots, -⟩ := h.slots
  rw [Image.slots, show st'.image.vol = st.vol from h.disk.vol] at hx
  rw [show dirSlots st.vol st'.image.data l₁ = _ from hslots] at hx
  have hold : ∀ y, y ∈ pre ++ run ++ post → y ∈ st.image.slots ld ∨ y.ent.getD 0 0 = 0 := by
    intro y hy
    rw [← heq] at hy
    rcases mem_append.mp hy with hy | hy
    · exact .inl hy
    · exact .inr (hzero y hy)
  rcases mem_append.mp hx with hx | hx
  · rcases mem_append.mp hx with hx | hx
    · rcases hold x (mem_append_left _ (mem_append_left _ hx)) with h1 | h1
      · exact .inl h1
      · exact .inr (.inl h1)
    · exact .inr (.inr hx)
  · rcases hold x (mem_append_right _ hx) with h1 | h1
    · exact .inl h1
    · exact .inr (.inl h1)

lemma Attached.entry_cases {x : Found} (hx : x ∈ st'.image.slots l₁) (hent : IsEntry x.ent) :
    x ∈ st.image.slots ld ∨ x = ⟨e, c, 32 * i⟩ ∨ x.ent = newDirent (nameToShort name) attr := by
  rcases h.slot_cases hx with hx | h0 | hx
  · exact .inl hx
  · exact absurd h0 hent.1
  · rcases installed_cases hx with heq | ⟨order, -, heq⟩ | heq
    · exact .inr (.inl heq)
    · have hattr := hent.2.2
      rw [heq, lfnEntry_attr] at hattr
      exact absurd rfl hattr
    · exact .inr (.inr heq)

include ho hd hl

lemma Attached.dir_cases {d' p' : Nat} (hd' : st.image.Dir d' p')
    (hm : st'.image.ChainAt d' m) :
    d' = d ∧ m = l₁ ∨ d' ≠ d ∧ st.image.ChainAt d' m ∧ (∀ x ∈ m, x ∉ l₁ ∧ x ∉ l') ∧
      st'.image.slots m = st.image.slots m := by
  have hg := ho.ready.geometry
  have hg' : Geometry st'.image.vol := (h.disk.ready ho.ready).geometry
  by_cases hne : d' = d
  · subst hne
    exact .inl ⟨rfl, FatChain.unique hg' hm h.chainAt⟩
  · obtain ⟨l, hl'⟩ := ho.sound.dir_chain hd'
    obtain ⟨hch, hslots⟩ := h.other_dir ho.sound hg hd hl hd' hl' hne
    obtain rfl := FatChain.unique hg' hm hch
    exact .inr ⟨hne, hl', fun x hx => h.outside ho.sound hg hd hl hd' hl' hne hx, hslots⟩

lemma Attached.chain_outside (hf : st.image.Entry f)
    (hm : HasChain st.vol st.fat (direntFirstCluster f.ent) m) (hne : direntFirstCluster f.ent ≠ d) :
    ∀ x ∈ m, x ∉ l₁ ∧ x ∉ l' := by
  intro x hx
  rcases hm with ⟨-, rfl⟩ | ⟨-, hm⟩
  · cases hx
  have hused : x ∉ freeClusters st.vol st.fat := fun hfree =>
    FatChain.fat_ne_zero hm hx (mem_freeClusters.mp hfree).2
  refine ⟨fun hx1 => ?_, fun hx' => hused (h.fresh x hx').1⟩
  rcases h.grown x hx1 with hxd | hfree
  · exact hne (ho.sound.entry_dir_eq hf hm hd hl hx hxd)
  · exact hused hfree

lemma Attached.old_chain (hf : st.image.Entry f)
    (hm : HasChain st.vol st.fat (direntFirstCluster f.ent) m) :
    HasChain st.vol st'.fat (direntFirstCluster f.ent)
      (if direntFirstCluster f.ent = d then l₁ else m) := by
  split
  · next heq =>
    rw [heq]
    exact h.chain.hasChain
  · next hne =>
    have hout := h.chain_outside ho hd hl hf hm hne
    rcases hm with h0 | ⟨h0, hm⟩
    · exact .inl h0
    · exact .inr ⟨h0, Chain.congr hm fun x hx => h.fat x (hout x hx).1 (hout x hx).2⟩

lemma Attached.apart_old {g : Found} {n : List Nat} (hf : st.image.Entry f)
    (hg : st.image.Entry g) (hm : HasChain st.vol st'.fat (direntFirstCluster f.ent) m)
    (hn : HasChain st.vol st'.fat (direntFirstCluster g.ent) n) (hx : x ∈ m) (hx' : x ∈ n) : f = g := by
  obtain ⟨m0, hm0⟩ := ho.sound.entry_chain hf
  obtain ⟨n0, hn0⟩ := ho.sound.entry_chain hg
  have hgeo := ho.ready.geometry
  rw [HasChain.unique hgeo hm (h.old_chain ho hd hl hf hm0)] at hx
  rw [HasChain.unique hgeo hn (h.old_chain ho hd hl hg hn0)] at hx'
  by_cases h1 : direntFirstCluster f.ent = d
  · by_cases h2 : direntFirstCluster g.ent = d
    · -- both are the entry of the directory
      have hhead : ∀ {k}, st.image.Entry k → direntFirstCluster k.ent = d →
          st.image.Entry k ∧ HasChain st.vol st.fat (direntFirstCluster k.ent) ld := by
        intro k hk heq
        rw [heq]
        exact ⟨hk, FatChain.hasChain hl⟩
      exact ho.apart (hhead hf h1) (hhead hg h2) (Chain.head_mem hl) (Chain.head_mem hl)
    · rw [if_pos h1] at hx
      rw [if_neg h2] at hx'
      exact absurd hx (h.chain_outside ho hd hl hg hn0 h2 x hx').1
  · rw [if_neg h1] at hx
    have hout := h.chain_outside ho hd hl hf hm0 h1 x hx
    by_cases h2 : direntFirstCluster g.ent = d
    · rw [if_pos h2] at hx'
      exact absurd hx' hout.1
    · rw [if_neg h2] at hx'
      exact ho.apart ⟨hf, hm0⟩ ⟨hg, hn0⟩ hx hx'

lemma Attached.apart_fresh (hf : st.image.Entry f)
    (hm : HasChain st.vol st'.fat (direntFirstCluster f.ent) m) (hx : x ∈ m) : x ∉ l' := by
  obtain ⟨m0, hm0⟩ := ho.sound.entry_chain hf
  rw [HasChain.unique ho.ready.geometry hm (h.old_chain ho hd hl hf hm0)] at hx
  split at hx
  · exact fun hx' => (h.fresh x hx').2 hx
  · next hne => exact (h.chain_outside ho hd hl hf hm0 hne x hx).2

lemma Attached.old_offRoot {k : List Nat} (hf : st.image.Entry f)
    (hm : HasChain st.vol st'.fat (direntFirstCluster f.ent) m)
    (hk : st'.image.ChainAt st.vol.rootCluster k) (hx : x ∈ m) : x ∉ k := by
  intro hxk
  obtain ⟨m0, hm0⟩ := ho.sound.entry_chain hf
  rw [HasChain.unique ho.ready.geometry hm (h.old_chain ho hd hl hf hm0)] at hx
  rcases h.dir_cases ho hd hl .root hk with ⟨hroot, rfl⟩ | ⟨-, hk', hout, -⟩
  · -- the directory is the root, which is the directory of no entry
    have hne : direntFirstCluster f.ent ≠ d := by
      intro heq
      have hch : st.image.ChainAt (direntFirstCluster f.ent) ld := heq ▸ hl
      exact ho.sound.root_disjoint hf hch (hroot.symm ▸ hl) (Chain.head_mem hl) (Chain.head_mem hl)
    rw [if_neg hne] at hx
    exact (h.chain_outside ho hd hl hf hm0 hne x hx).1 hxk
  · split at hx
    · exact (hout x hxk).1 hx
    · rcases hm0 with ⟨-, rfl⟩ | ⟨-, hm0⟩
      · cases hx
      · exact ho.sound.root_disjoint hf hm0 hk' hx hxk

lemma Attached.old_inside (hattr : attr ≠ 0x0F) (he : Alike (newDirent (nameToShort name) attr) e)
    {d' p' : Nat} (hd' : st.image.Dir d' p') (hm : st'.image.ChainAt d' m) :
    Uncrossed st'.image.vol st'.image.data m := by
  have hpos := ho.ready.geometry.spc_pos
  have hvol : st'.image.vol = st.image.vol := h.disk.vol
  rw [uncrossed_iff (by rw [hvol]; exact hpos)]
  intro x hx hend
  rcases h.dir_cases ho hd hl hd' hm with ⟨rfl, rfl⟩ | ⟨-, hm', -, hslots⟩
  · rcases h.slot_cases hx with hx | h0 | hnew
    · rw [hvol] at hend
      exact (uncrossed_iff hpos).mp (ho.inside hd hl) x hx hend
    · exact fun hlfn => hlfn.1.1 h0
    · refine installed_last hattr he x (placed_end ?_ hnew hend)
      intro y hy
      obtain ⟨pre, run, post, zs, -, -, hslots, -⟩ := h.slots
      have hmem : y ∈ dirSlots st'.image.vol st'.image.data m := by
        rw [hvol, show dirSlots st.image.vol st'.image.data m = _ from hslots]
        exact mem_append_left _ (mem_append_right _ hy)
      exact (mem_dirSlots.mp hmem).2.2.1
  · rw [show dirSlots st'.image.vol st'.image.data m = _ from hslots] at hx
    rw [hvol] at hend
    exact (uncrossed_iff hpos).mp (ho.inside hd' hm') x hx hend

omit ho hd hl h in
def Gained (st st' : Fs) (f : Found) (le : List Nat) (g : Found) (m : List Nat) : Prop :=
  (st.image.Entry g ∧ HasChain st.vol st'.fat (direntFirstCluster g.ent) m) ∨ g = f ∧ m = le ∨
    direntFirstCluster g.ent = 0 ∧ m = []

lemma Attached.view (hattr : attr ≠ 0x0F) (he : Alike (newDirent (nameToShort name) attr) e)
    {le : List Nat} (hle : HasChain st.vol st'.fat (direntFirstCluster e) le)
    (hoff : ∀ {m x}, st'.image.ChainAt st.vol.rootCluster m → x ∈ le → x ∉ m)
    (X : Nat → Nat → List Nat → Prop)
    (hX : ∀ {d' p' m}, X d' p' m → (st'.image.ChainAt d' m ∧ d' ≠ st.vol.rootCluster) ∧
      (∀ f ∈ st'.image.slots m, IsEntry f.ent → IsDot f.ent ∧ Image.DotOk d' p' f) ∧
      ∀ f ∈ st'.image.slots m, ¬ IsLfn f.ent)
    (hdir : direntIsDir e = true → direntFirstCluster e ≠ 0 →
      st.image.Dir (direntFirstCluster e) d ∨ X (direntFirstCluster e) d le) :
    st'.image.View (fun d' p' m => (st.image.Dir d' p' ∧ st'.image.ChainAt d' m) ∨ X d' p' m)
      (Gained st st' ⟨e, c, 32 * i⟩ le) := by
  have hg := ho.ready.geometry
  have hvol : st'.image.vol = st.image.vol := h.disk.vol
  have hrootc : st'.image.vol.rootCluster = st.vol.rootCluster := congrArg _ hvol
  -- an entry from before with its chain, and with its clusters if it is a directory
  have hold : ∀ {d' p' l f}, st.image.Dir d' p' → st.image.ChainAt d' l → f ∈ st.image.slots l →
      IsEntry f.ent → ¬ IsDot f.ent → ∃ m, Gained st st' ⟨e, c, 32 * i⟩ le f m ∧
      (direntIsDir f.ent = true → direntFirstCluster f.ent ≠ 0 →
        (st.image.Dir (direntFirstCluster f.ent) d' ∧ st'.image.ChainAt (direntFirstCluster f.ent) m) ∨
          X (direntFirstCluster f.ent) d' m) := by
    intro d' p' l f hd' hl' hf hent hdot
    have hentry : st.image.Entry f := ⟨d', p', l, hd', hl', hf, hent, hdot⟩
    obtain ⟨m0, hm0⟩ := ho.sound.entry_chain hentry
    have hm := h.old_chain ho hd hl hentry hm0
    refine ⟨_, .inl ⟨hentry, hm⟩, fun hfdir h0 => .inl ⟨.sub hd' hl' hf hent hdot hfdir h0, ?_⟩⟩
    rw [Image.ChainAt, hvol]
    exact (hm.resolve_left fun hz => h0 hz.1).2
  refine ⟨?_, ?_, ?_, ?_, ?_, ?_, ?_⟩
  · obtain ⟨l, hlr⟩ := ho.sound.root
    rw [hrootc]
    by_cases heq : st.vol.rootCluster = d
    · exact ⟨l₁, .inl ⟨.root, heq ▸ h.chainAt⟩⟩
    · exact ⟨l, .inl ⟨.root, (h.other_dir ho.sound hg hd hl .root hlr heq).1⟩⟩
  · rintro d' p' m (⟨-, hm⟩ | hx)
    · exact hm
    · exact (hX hx).1.1
  · rintro d' p' m f (⟨hd', hm⟩ | hx) hf hent hdot
    · rcases h.dir_cases ho hd hl hd' hm with ⟨rfl, rfl⟩ | ⟨-, hm', -, hslots⟩
      · rcases h.entry_cases hf hent with hf | rfl | hnew
        · exact hold hd' hl hf hent hdot
        · refine ⟨le, .inr (.inl ⟨rfl, rfl⟩), fun h1 h2 => ?_⟩
          rcases hdir h1 h2 with hd'' | hx
          · refine .inl ⟨hd'', ?_⟩
            rw [Image.ChainAt, hvol]
            exact (hle.resolve_left fun hz => h2 hz.1).2
          · exact .inr hx
        · have h0 : direntFirstCluster f.ent = 0 := by
            rw [hnew]
            exact newDirent_firstCluster name attr
          exact ⟨[], .inr (.inr ⟨h0, rfl⟩), fun _ hne => absurd h0 hne⟩
      · rw [hslots] at hf
        exact hold hd' hm' hf hent hdot
    · exact absurd ((hX hx).2.1 f hf hent).1 hdot
  · rintro d' p' m f (⟨hd', hm⟩ | hx) hf hent hdot
    · rcases h.dir_cases ho hd hl hd' hm with ⟨rfl, rfl⟩ | ⟨-, hm', -, hslots⟩
      · rcases h.entry_cases hf hent with hf | rfl | hnew
        · exact ho.sound.dot hd' hl hf hent hdot
        · exact absurd (he.isDot.mp hdot) (newDirent_not_dot name attr)
        · rw [hnew] at hdot
          exact absurd hdot (newDirent_not_dot name attr)
      · rw [hslots] at hf
        exact ho.sound.dot hd' hm' hf hent hdot
    · exact ((hX hx).2.1 f hf hent).2
  · rintro f m (⟨-, hm⟩ | ⟨rfl, rfl⟩ | ⟨h0, rfl⟩)
    · rw [hvol]
      exact hm
    · rw [hvol]
      exact hle
    · exact .inl ⟨h0, rfl⟩
  · rintro f m k x hf (⟨-, hk⟩ | hx) hxm hxk
    · rw [hrootc] at hk
      rcases hf with ⟨hf, hm⟩ | ⟨rfl, rfl⟩ | ⟨-, rfl⟩
      · exact h.old_offRoot ho hd hl hf hm hk hxm hxk
      · exact hoff hk hxm hxk
      · cases hxm
    · exact (hX hx).1.2 hrootc
  · rintro d' p' m (⟨hd', hm⟩ | hx)
    · exact h.old_inside ho hd hl hattr he hd' hm
    · intro cl hcl x hxm
      apply (hX hx).2.2 x
      have := mem_of_getLast? hxm
      exact mem_flatMap.mpr ⟨cl, hcl, this⟩

end Attaching

section Kept
variable {st st' : Fs} {d p : Nat} {ld l₁ l' : List Nat} {name : CString} {attr : UInt8} {c i : Nat}
  {e : Slot}

lemma Attached.inOrder (h : Attached st st' d ld l₁ name attr c i e l') (ho : InOrder st)
    (hd : st.image.Dir d p) (hl : st.image.ChainAt d ld) (hattr : attr ≠ 0x0F)
    (he : Alike (newDirent (nameToShort name) attr) e)
    (hle : HasChain st.vol st'.fat (direntFirstCluster e) l') (X : Nat → Nat → List Nat → Prop)
    (hX : ∀ {d' p' m}, X d' p' m → (st'.image.ChainAt d' m ∧ d' ≠ st.vol.rootCluster) ∧
      (∀ f ∈ st'.image.slots m, IsEntry f.ent → IsDot f.ent ∧ Image.DotOk d' p' f) ∧
      ∀ f ∈ st'.image.slots m, ¬ IsLfn f.ent)
    (hdir : direntIsDir e = true → direntFirstCluster e ≠ 0 → X (direntFirstCluster e) d l') :
    InOrder st' := by
  have hv := h.view ho hd hl hattr he hle ?_ X hX fun h1 h2 => .inr (hdir h1 h2)
  · apply ho.of_view h.disk hv
    rintro f g m n x (⟨hf, hm⟩ | ⟨rfl, rfl⟩ | ⟨-, rfl⟩) hgn hx hx'
    · rcases hgn with ⟨hg, hn⟩ | ⟨rfl, rfl⟩ | ⟨-, rfl⟩
      · exact h.apart_old ho hd hl hf hg hm hn hx hx'
      · exact absurd hx' (h.apart_fresh ho hd hl hf hm hx)
      · cases hx'
    · rcases hgn with ⟨hg, hn⟩ | ⟨rfl, rfl⟩ | ⟨-, rfl⟩
      · exact absurd hx (h.apart_fresh ho hd hl hg hn hx')
      · rfl
      · cases hx'
    · cases hx
  · intro m x hm hx hxm
    rcases h.dir_cases ho hd hl .root hm with ⟨-, rfl⟩ | ⟨-, -, hout, -⟩
    · exact (h.fresh x hx).2 hxm
    · exact (hout x hxm).2 hx

end Kept

end FusionOS.Fat
