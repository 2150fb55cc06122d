import FusionOS.Fat.Write

/-!
# The directory tree

An image of a volume is its link table and its clusters.
-/

namespace FusionOS.Fat

open List

structure Image where
  vol : Volume
  fat : Nat → Nat
  data : Nat → Mem

def Fs.image (st : Fs) : Image := ⟨st.vol, st.fat, st.data⟩

lemma Quiet.image {st st' : Fs} (h : Quiet st st') : st'.image = st.image := by
  rw [Fs.image, Fs.image, h.vol, h.fat, h.data]

/-- The entries `.` and `..`, which `fs_mkdir` writes. -/
def IsDot (e : Slot) : Prop := e.take 11 = dotShort ∨ e.take 11 = dotdotShort

instance (e : Slot) : Decidable (IsDot e) := inferInstanceAs (Decidable (_ ∨ _))

lemma Alike.short {e e' : Slot} (h : Alike e e') : e'.take 11 = e.take 11 := by
  have := congrArg (List.take 11) (show e'.take 12 = e.take 12 from h)
  rwa [take_take, take_take] at this

lemma Alike.isDot {e e' : Slot} (h : Alike e e') : IsDot e' ↔ IsDot e := by
  rw [IsDot, IsDot, h.short]

namespace Image
variable (I : Image)

abbrev ChainAt (c : Nat) (l : List Nat) : Prop := FatChain I.vol I.fat c l

abbrev slots (l : List Nat) : List Found := dirSlots I.vol I.data l

/-- `I.Dir d p`: `d` is a directory and `p` the one that holds its entry; the root is its own
parent. -/
inductive Dir : Nat → Nat → Prop where
  | root : Dir I.vol.rootCluster I.vol.rootCluster
  | sub {d p : Nat} {l : List Nat} {f : Found} : Dir d p → I.ChainAt d l → f ∈ I.slots l →
      IsEntry f.ent → ¬ IsDot f.ent → direntIsDir f.ent = true → direntFirstCluster f.ent ≠ 0 →
      Dir (direntFirstCluster f.ent) d

/-- An entry of the tree other than `.` and `..`. -/
def Entry (f : Found) : Prop :=
  ∃ d p l, I.Dir d p ∧ I.ChainAt d l ∧ f ∈ I.slots l ∧ IsEntry f.ent ∧ ¬ IsDot f.ent

/-- Every entry has a chain of its own, the root has one, and `.` and `..` lead to the directory
itself and to its parent. -/
structure Sound : Prop where
  root : ∃ l, I.ChainAt I.vol.rootCluster l
  chain : ∀ {f}, I.Entry f → direntFirstCluster f.ent ≠ 0 → ∃ l, I.ChainAt (direntFirstCluster f.ent) l
  disjoint : ∀ {f g l l' x}, I.Entry f → I.Entry g → I.ChainAt (direntFirstCluster f.ent) l →
    I.ChainAt (direntFirstCluster g.ent) l' → x ∈ l → x ∈ l' → f = g
  root_disjoint : ∀ {f l l' x}, I.Entry f → I.ChainAt (direntFirstCluster f.ent) l →
    I.ChainAt I.vol.rootCluster l' → x ∈ l → x ∉ l'
  dot : ∀ {d p l f}, I.Dir d p → I.ChainAt d l → f ∈ I.slots l → IsEntry f.ent → IsDot f.ent →
    direntIsDir f.ent = true ∧ (direntFirstCluster f.ent = 0 ∨ direntFirstCluster f.ent = d ∨
      direntFirstCluster f.ent = p)

/-- From the directory `d` the path `p` leads to the leaf `leaf` of the directory `d'`; components
are cut to 63 bytes. -/
inductive Resolves : Nat → CString → Nat → CString → Prop where
  | leaf {d : Nat} {p : CString} : p ≠ [] → pathRest p = [] → Resolves d p d ((pathComp p).take 63)
  | step {d d' : Nat} {p leaf : CString} {l : List Nat} {f : Found} : pathRest p ≠ [] →
      I.ChainAt d l → lookup ((pathComp p).take 63) [] (I.slots l) = some f →
      direntIsDir f.ent = true → direntFirstCluster f.ent ≠ 0 →
      Resolves (direntFirstCluster f.ent) (pathRest p) d' leaf → Resolves d p d' leaf

/-- The path names the leaf `leaf` of the directory `d`. -/
def Names (path : CString) (d : Nat) (leaf : CString) : Prop :=
  path ≠ [] ∧ leaf ≠ [] ∧ I.Resolves I.vol.rootCluster (pathStart path) d leaf

end Image

section Tree
variable {I : Image} (hs : I.Sound)
include hs

variable {leaf path : CString} {f : Found} {l l' : List Nat} {d d' p x : Nat}

lemma Image.Sound.dir_chain (h : I.Dir d p) : ∃ l, I.ChainAt d l := by
  cases h with
  | root => exact hs.root
  | sub hd hl hf he hdot _ h0 => exact hs.chain ⟨_, _, _, hd, hl, hf, he, hdot⟩ h0

omit hs in
lemma Image.Dir.parent (h : I.Dir d p) : ∃ q, I.Dir p q := by
  cases h with
  | root => exact ⟨_, .root⟩
  | sub hd => exact ⟨_, hd⟩

lemma Image.Sound.dir_of_entry (h : I.Dir d p)
    (hl : I.ChainAt d l) (hf : f ∈ I.slots l) (he : IsEntry f.ent) (hdir : direntIsDir f.ent = true)
    (h0 : direntFirstCluster f.ent ≠ 0) : ∃ q, I.Dir (direntFirstCluster f.ent) q := by
  by_cases hdot : IsDot f.ent
  · rcases (hs.dot h hl hf he hdot).2 with h1 | h1 | h1
    · exact absurd h1 h0
    · rw [h1]
      exact ⟨p, h⟩
    · rw [h1]
      exact h.parent
  · exact ⟨d, .sub h hl hf he hdot hdir h0⟩

lemma Image.Sound.dir_of_resolves (h : I.Dir d p)
    (hp : I.Resolves d path d' leaf) : ∃ q, I.Dir d' q := by
  induction hp generalizing p with
  | leaf => exact ⟨p, h⟩
  | step _ hl hlook hdir h0 _ ih =>
    obtain ⟨hf, he⟩ := lookup_some hlook
    obtain ⟨q, hq⟩ := hs.dir_of_entry h hl hf he hdir h0
    exact ih hq

lemma Image.Sound.dir_of_names (h : I.Names path d leaf) :
    ∃ q, I.Dir d q := hs.dir_of_resolves .root h.2.2

lemma Image.Sound.entry_of_file (h : I.Dir d p)
    (hl : I.ChainAt d l) (hf : f ∈ I.slots l) (he : IsEntry f.ent) (hdir : direntIsDir f.ent = false) :
    I.Entry f := by
  refine ⟨d, p, l, h, hl, hf, he, fun hdot => ?_⟩
  have := (hs.dot h hl hf he hdot).1
  rw [hdir] at this
  cases this

lemma Image.Sound.entry_chain (hf : I.Entry f) :
    ∃ l, HasChain I.vol I.fat (direntFirstCluster f.ent) l := by
  by_cases h0 : direntFirstCluster f.ent = 0
  · exact ⟨[], .inl ⟨h0, rfl⟩⟩
  · obtain ⟨l, hl⟩ := hs.chain hf h0
    exact ⟨l, .inr ⟨h0, hl⟩⟩

lemma Image.Sound.file_dir_disjoint
    (hf : I.Entry f) (hdir : direntIsDir f.ent = false)
    (hl : I.ChainAt (direntFirstCluster f.ent) l) (hd : I.Dir d p) (hl' : I.ChainAt d l')
    (hx : x ∈ l) : x ∉ l' := by
  cases hd with
  | root => exact hs.root_disjoint hf hl hl' hx
  | sub hd' hl'' hg he hdot hgdir h0 =>
    intro hx'
    have heq := hs.disjoint hf ⟨_, _, _, hd', hl'', hg, he, hdot⟩ hl hl' hx hx'
    rw [heq, hgdir] at hdir
    cases hdir

lemma Image.Sound.entry_dir_eq (hf : I.Entry f)
    (hl : I.ChainAt (direntFirstCluster f.ent) l) (hd : I.Dir d p) (hl' : I.ChainAt d l') (hx : x ∈ l)
    (hx' : x ∈ l') : direntFirstCluster f.ent = d := by
  cases hd with
  | root => exact absurd hx' (hs.root_disjoint hf hl hl' hx)
  | sub hd' hl'' hg he hdot hgdir h0 =>
    rw [hs.disjoint hf ⟨_, _, _, hd', hl'', hg, he, hdot⟩ hl hl' hx hx']

lemma Image.Sound.dir_chain_eq (hg : Geometry I.vol) {p' : Nat}
    (hd : I.Dir d p) (hl : I.ChainAt d l) (hd' : I.Dir d' p') (hl' : I.ChainAt d' l') (hx : x ∈ l)
    (hx' : x ∈ l') : l = l' := by
  cases hd with
  | root =>
    cases hd' with
    | root => exact FatChain.unique hg hl hl'
    | sub hp hlp hf he hdot =>
      exact absurd hx (hs.root_disjoint ⟨_, _, _, hp, hlp, hf, he, hdot⟩ hl' hl hx')
  | sub hp hlp hf he hdot =>
    have hentry : I.Entry _ := ⟨_, _, _, hp, hlp, hf, he, hdot⟩
    cases hd' with
    | root => exact absurd hx' (hs.root_disjoint hentry hl hl' hx)
    | sub hp' hlp' hf' he' hdot' =>
      obtain rfl := hs.disjoint hentry ⟨_, _, _, hp', hlp', hf', he', hdot'⟩ hl hl' hx hx'
      exact FatChain.unique hg hl hl'

lemma Image.Sound.dir_eq (hg : Geometry I.vol) {p' : Nat}
    (hd : I.Dir d p) (hl : I.ChainAt d l) (hd' : I.Dir d' p') (hl' : I.ChainAt d' l') (hx : x ∈ l)
    (hx' : x ∈ l') : d = d' := by
  obtain rfl := hs.dir_chain_eq hg hd hl hd' hl' hx hx'
  obtain ⟨t, heq⟩ := hl.eq_cons
  obtain ⟨t', heq'⟩ := hl'.eq_cons
  exact (List.cons.inj (heq.symm.trans heq')).1

omit hs in
lemma Image.Sound.resolves_kept (hs : I.Sound) {I' : Image}
    (hkeep : ∀ {d p l name f}, I.Dir d p → I.ChainAt d l → lookup name [] (I.slots l) = some f →
      direntIsDir f.ent = true → ∃ l', I'.ChainAt d l' ∧ lookup name [] (I'.slots l') = some f) (hd :
    I.Dir d p) (h : I.Resolves d path d' leaf) :
    I'.Resolves d path d' leaf := by
  induction h generalizing p with
  | leaf hne hrest => exact .leaf hne hrest
  | step hrest hl hlook hdir h0 _ ih =>
    obtain ⟨hf, he⟩ := lookup_some hlook
    obtain ⟨q, hq⟩ := hs.dir_of_entry hd hl hf he hdir h0
    obtain ⟨l', hl', hlook'⟩ := hkeep hd hl hlook hdir
    exact .step hrest hl' hlook' hdir h0 (ih hq)

end Tree

/-! ## Path resolution -/

section Paths
variable {st : Fs}

variable {leaf p path : CString} {I : Image} {d d' : Nat} {α : Type}

lemma pathRest_length_lt (hp : p ≠ []) (h : pathRest p ≠ []) :
    (pathRest p).length < p.length := by
  have hdrop : (pathRest p).length ≤ (p.drop (pathComp p).length).length :=
    (dropWhile_sublist _).length_le
  rw [length_drop] at hdrop
  rcases Nat.eq_zero_or_pos (pathComp p).length with h0 | hpos
  · -- an empty component: the path begins with a slash, which is dropped
    cases p with
    | nil => exact absurd rfl hp
    | cons c cs =>
      have hc : c = 0x2F := by
        by_contra hne
        have : pathComp (c :: cs) = c :: pathComp cs := by
          unfold pathComp
          rw [takeWhile_cons, if_pos (by simpa using hne)]
        rw [this] at h0
        cases h0
      subst hc
      have hrest : pathRest (0x2F :: cs) = cs.dropWhile (· == 0x2F) := by
        unfold pathRest
        rw [eq_nil_of_length_eq_zero h0, length_nil, drop_zero, dropWhile_cons,
          if_pos (by decide)]
      rw [hrest, length_cons]
      exact Nat.lt_succ_of_le ((dropWhile_sublist _).length_le)
  · have : p.length ≠ 0 := fun h0 => hp (eq_nil_of_length_eq_zero h0)
    omega

lemma pathStart_length_lt (path : CString) : (pathStart path).length < path.length + 1 := by
  unfold pathStart
  split
  · rw [length_tail]
    omega
  · omega

lemma pathLoop_ok (hr : Ready st)
    (h : st.image.Resolves d p d' leaf) (fuel : Nat) (hf : p.length < fuel) :
    ∃ st', pathLoop fuel d p st = some ((d', leaf), st') ∧ Quiet st st' := by
  generalize hI : st.image = I at h
  induction h generalizing st fuel with
  | @leaf d p hp hrest =>
    obtain ⟨fuel, rfl⟩ := Nat.exists_eq_add_one.mpr (Nat.zero_lt_of_lt hf)
    refine ⟨st, ?_, Quiet.refl st⟩
    rw [pathLoop, if_neg hp, if_pos hrest]
  | @step d d' p leaf l f hrest hl hlook hdir h0 _ ih =>
    subst hI
    obtain ⟨fuel, rfl⟩ := Nat.exists_eq_add_one.mpr (Nat.zero_lt_of_lt hf)
    have hp : p ≠ [] := by
      rintro rfl
      exact hrest rfl
    obtain ⟨st1, hfind, hq⟩ := fatFindEntry_ok hr hl ((pathComp p).take 63)
    rw [show lookup _ _ (dirSlots st.vol st.data l) = some f from hlook] at hfind
    have himg := hq.image
    have hlt := pathRest_length_lt hp hrest
    obtain ⟨st2, hrun, hq2⟩ := ih (hq.ready hr) fuel (by omega) himg
    refine ⟨st2, ?_, hq.trans hq2⟩
    rw [pathLoop, if_neg hp, if_neg hrest, hfind]
    dsimp only
    rw [if_neg (by rw [hdir]; simp [h0])]
    exact hrun

lemma resolves_ne_zero (h : I.Resolves d p d' leaf)
    (hd : d ≠ 0) : d' ≠ 0 := by
  induction h with
  | leaf => exact hd
  | step _ _ _ _ h0 _ ih => exact ih h0

lemma Image.Resolves.ne_nil (h : I.Resolves d p d' leaf) :
    p ≠ [] := by
  cases h with
  | leaf hp _ => exact hp
  | step hrest =>
    rintro rfl
    exact hrest rfl

lemma Image.Resolves.unique (hg : Geometry I.vol) {d1 d2 : Nat} {leaf1 leaf2 : CString}
    (h1 : I.Resolves d p d1 leaf1) (h2 : I.Resolves d p d2 leaf2) : d1 = d2 ∧ leaf1 = leaf2 := by
  induction h1 with
  | leaf _ hrest =>
    cases h2 with
    | leaf => exact ⟨rfl, rfl⟩
    | step hrest' => exact absurd hrest hrest'
  | step hrest hl hlook _ _ _ ih =>
    cases h2 with
    | leaf _ hrest' => exact absurd hrest' hrest
    | step _ hl' hlook' _ _ hp' =>
      rw [FatChain.unique hg hl' hl, hlook] at hlook'
      cases hlook'
      exact ih hp'

lemma pathLoop_cases (hr : Ready st) (hs : st.image.Sound) {q : Nat} (hd : st.image.Dir d q)
    (hp : p ≠ []) (fuel : Nat) (hf : p.length < fuel) :
    ∃ r st', pathLoop fuel d p st = some (r, st') ∧ Quiet st st' ∧
      (st.image.Resolves d p r.1 r.2 ∨ r.1 = 0 ∧ ∀ d' leaf, ¬ st.image.Resolves d p d' leaf) := by
  induction fuel generalizing st d q p with
  | zero => omega
  | succ fuel ih =>
    rw [pathLoop, if_neg hp]
    by_cases hrest : pathRest p = []
    · rw [if_pos hrest]
      exact ⟨_, st, rfl, Quiet.refl st, Or.inl (.leaf hp hrest)⟩
    rw [if_neg hrest]
    obtain ⟨l, hl⟩ := hs.dir_chain hd
    obtain ⟨st1, hfind, hq⟩ := fatFindEntry_ok hr hl ((pathComp p).take 63)
    rw [hfind]
    -- a walk that leads on goes through the entry found here
    have honly : ∀ {d' leaf}, st.image.Resolves d p d' leaf → ∃ f,
        lookup ((pathComp p).take 63) [] (st.image.slots l) = some f ∧ direntIsDir f.ent = true ∧
        direntFirstCluster f.ent ≠ 0 ∧
        st.image.Resolves (direntFirstCluster f.ent) (pathRest p) d' leaf := by
      intro d' leaf h
      cases h with
      | leaf _ hrest' => exact absurd hrest' hrest
      | step _ hl' hlook hdir h0 hp' =>
        rw [FatChain.unique hr.geometry hl' hl] at hlook
        exact ⟨_, hlook, hdir, h0, hp'⟩
    cases hlook : lookup ((pathComp p).take 63) [] (dirSlots st.vol st.data l) with
    | none =>
      refine ⟨_, st1, rfl, hq, Or.inr ⟨rfl, fun d' leaf h => ?_⟩⟩
      obtain ⟨f, hf, -⟩ := honly h
      rw [show lookup _ _ (st.image.slots l) = none from hlook] at hf
      cases hf
    | some f =>
      dsimp only
      by_cases hno : direntIsDir f.ent = false ∨ direntFirstCluster f.ent = 0
      · rw [if_pos hno]
        refine ⟨_, st1, rfl, hq, Or.inr ⟨rfl, fun d' leaf h => ?_⟩⟩
        obtain ⟨g, hg, hdir, h0, -⟩ := honly h
        cases hlook.symm.trans hg
        rw [hdir] at hno
        simp [h0] at hno
      · rw [if_neg hno]
        rw [not_or, Bool.not_eq_false] at hno
        obtain ⟨hmem, he⟩ := lookup_some hlook
        obtain ⟨q', hd'⟩ := hs.dir_of_entry hd hl hmem he hno.1 hno.2
        have himg := hq.image
        have hlt := pathRest_length_lt hp hrest
        obtain ⟨r, st2, hrun, hq2, hres⟩ := ih (hq.ready hr) (by rw [himg]; exact hs)
          (by rw [himg]; exact hd') hrest (by omega)
        refine ⟨r, st2, hrun, hq.trans hq2, ?_⟩
        rw [himg] at hres
        rcases hres with hres | ⟨hzero, hnone⟩
        · exact Or.inl (.step hrest hl hlook hno.1 hno.2 hres)
        · refine Or.inr ⟨hzero, fun d' leaf h => ?_⟩
          obtain ⟨g, hg, -, -, hp'⟩ := honly h
          cases hlook.symm.trans hg
          exact hnone d' leaf hp'

def Leads (st : Fs) (path : CString) (d : Nat) (leaf : CString) : Prop :=
  st.image.Names path d leaf ∨ path = [] ∧ d = st.vol.rootCluster ∧ leaf = st.stackName ∧ leaf ≠ []

lemma Quiet.leads {st' : Fs} (h : Quiet st st')
    (hlead : Leads st path d leaf) : Leads st' path d leaf := by
  obtain ⟨_, _, rfl⟩ := h
  exact hlead

lemma pathDirCluster_leads (hr : Ready st)
    (h : Leads st path d leaf) :
    ∃ st1, pathDirCluster st path = some ((d, leaf), st1) ∧ Quiet st st1 ∧ ¬ (d = 0 ∨ leaf = []) := by
  have hroot : st.vol.rootCluster ≠ 0 := by
    have := hr.geometry.root_ge
    omega
  rcases h with ⟨hpath, hleaf, hres⟩ | ⟨rfl, rfl, rfl, hne⟩
  · obtain ⟨st1, hrun, hq⟩ := pathLoop_ok hr hres (path.length + 1) (pathStart_length_lt path)
    refine ⟨st1, ?_, hq, not_or.mpr ⟨resolves_ne_zero hres hroot, hleaf⟩⟩
    rw [pathDirCluster, if_neg hpath]
    exact hrun
  · exact ⟨st, if_pos rfl, Quiet.refl st, not_or.mpr ⟨hroot, hne⟩⟩

lemma withLeaf_leads (fail : α) (k : Fs → Nat → CString → Option (α × Fs)) (hr : Ready st)
    (hm : st.vol.mounted = true)
    (h : Leads st path d leaf) :
    ∃ st1, withLeaf st fail path k = k st1 d leaf ∧ Quiet st st1 := by
  obtain ⟨st1, hrun, hq, hne⟩ := pathDirCluster_leads hr h
  refine ⟨st1, ?_, hq⟩
  rw [withLeaf, if_pos hm, hrun]
  exact if_neg hne

lemma withLeaf_ok (fail : α) (k : Fs → Nat → CString → Option (α × Fs)) (hr : Ready st)
    (hm : st.vol.mounted = true)
    (h : st.image.Names path d leaf) :
    ∃ st1, withLeaf st fail path k = k st1 d leaf ∧ Quiet st st1 :=
  withLeaf_leads fail k hr hm (.inl h)

lemma withLeaf_find (fail : α) (k : Fs → Nat → CString → Option (α × Fs)) {l : List Nat} (hr : Ready st)
    (hm : st.vol.mounted = true)
    (h : Leads st path d leaf) (hl : st.image.ChainAt d l) :
    ∃ st1 st2, withLeaf st fail path k = k st1 d leaf ∧ Quiet st st1 ∧
      fatFindEntry st1 d leaf = some (lookup leaf [] (st.image.slots l), st2) ∧ Quiet st st2 := by
  obtain ⟨st1, hwith, hq1⟩ := withLeaf_leads fail k hr hm h
  have hl1 := hq1.chain hl
  obtain ⟨st2, hfind, hq2⟩ := fatFindEntry_ok (hq1.ready hr) hl1 leaf
  rw [hq1.vol, hq1.data] at hfind
  exact ⟨st1, st2, hwith, hq1, hfind, hq1.trans hq2⟩

lemma pathDirCluster_cases (path : CString) (hr : Ready st) (hs : st.image.Sound) :
    ∃ r st1, pathDirCluster st path = some (r, st1) ∧ Quiet st st1 ∧
      ((∃ p, st.image.Dir r.1 p) ∧ Leads st path r.1 r.2 ∨
        (r.1 = 0 ∨ r.2 = []) ∧ ∀ d leaf, ¬ Leads st path d leaf) := by
  unfold pathDirCluster
  by_cases hpath : path = []
  · subst hpath
    refine ⟨_, st, if_pos rfl, Quiet.refl st, ?_⟩
    by_cases hne : st.stackName = []
    · refine .inr ⟨.inr hne, ?_⟩
      rintro d leaf (hnames | ⟨-, -, rfl, hleaf⟩)
      · exact hnames.1 rfl
      · exact hleaf hne
    · exact .inl ⟨⟨_, .root⟩, .inr ⟨rfl, rfl, rfl, hne⟩⟩
  rw [if_neg hpath]
  have hleads : ∀ {d leaf}, Leads st path d leaf →
      st.image.Resolves st.vol.rootCluster (pathStart path) d leaf ∧ leaf ≠ [] := by
    rintro d leaf (hnames | ⟨h0, -⟩)
    · exact ⟨hnames.2.2, hnames.2.1⟩
    · exact absurd h0 hpath
  by_cases hstart : pathStart path = []
  · refine ⟨(st.vol.rootCluster, []), st, ?_, Quiet.refl st, .inr ⟨.inr rfl, ?_⟩⟩
    · rw [pathLoop, if_pos hstart]
    · intro d leaf h
      exact (hleads h).1.ne_nil hstart
  obtain ⟨r, st1, hrun, hq, hres⟩ := pathLoop_cases hr hs .root hstart (path.length + 1)
    (pathStart_length_lt path)
  refine ⟨r, st1, hrun, hq, ?_⟩
  rcases hres with hres | ⟨h0, hnone⟩
  · by_cases hleaf : r.2 = []
    · refine .inr ⟨.inr hleaf, ?_⟩
      intro d leaf h
      obtain ⟨hres', hne⟩ := hleads h
      exact hne ((hres'.unique hr.geometry hres).2.trans hleaf)
    · exact .inl ⟨hs.dir_of_resolves .root hres, .inl ⟨hpath, hleaf, hres⟩⟩
  · exact .inr ⟨.inl h0, fun d leaf h => hnone d leaf (hleads h).1⟩

lemma withLeaf_cases (fail : α) (k : Fs → Nat → CString → Option (α × Fs)) (path : CString)
    (hr : Ready st) (hm : st.vol.mounted = true) (hs : st.image.Sound) :
    (∃ d p leaf, st.image.Dir d p ∧ Leads st path d leaf) ∨
      ∃ st1, withLeaf st fail path k = some (fail, st1) ∧ Quiet st st1 := by
  obtain ⟨r, st1, hrun, hq, ⟨⟨p, hd⟩, hlead⟩ | ⟨hfail, -⟩⟩ := pathDirCluster_cases path hr hs
  · exact .inl ⟨r.1, p, r.2, hd, hlead⟩
  · refine .inr ⟨st1, ?_, hq⟩
    rw [withLeaf, if_pos hm, hrun]
    exact if_pos hfail

lemma Image.Resolves.leaf_length
    (h : I.Resolves d p d' leaf) : leaf.length < 64 := by
  induction h with
  | leaf =>
    rw [length_take]
    omega
  | step _ _ _ _ _ _ ih => exact ih

lemma Leads.length (h : Leads st path d leaf)
    (hstack : st.stackName.length < 64) : leaf.length < 64 := by
  rcases h with hnames | ⟨-, -, rfl, -⟩
  · exact hnames.2.2.leaf_length
  · exact hstack

lemma Leads.dir (h : Leads st path d leaf) (hs : st.image.Sound) :
    ∃ p, st.image.Dir d p := by
  rcases h with hnames | ⟨-, rfl, -, -⟩
  · exact hs.dir_of_names hnames
  · exact ⟨_, .root⟩

lemma Leads.ne_nil (h : Leads st path d leaf) : leaf ≠ [] := by
  rcases h with hnames | ⟨-, -, -, hne⟩
  · exact hnames.2.1
  · exact hne

end Paths

end FusionOS.Fat
