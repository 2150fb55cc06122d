import FusionOS.Fat.Keep

/-!
# The zones of the volume

For the questions where the operations write and whether they return it is enough to know of every
cluster whether directories or files use it.
-/

namespace FusionOS.Fat

open List
open Function (update update_apply update_of_ne update_self)

/-- If a walk follows the link `x`, it gets into the zone `Z`. -/
def LeadsTo (Z : Nat → Prop) (x : Nat) : Prop := 2 ≤ x → x < eoc → Z x

/-- The walk from `c` comes to an end. -/
def Ends (st : Fs) (c : Nat) : Prop := ∃ l, Walk st.vol st.fat c l

/-- The entry `e` leads into the zone of its kind. -/
def Refers (D F : Nat → Prop) (e : Slot) : Prop :=
  direntFirstCluster e ≠ 0 →
    if direntIsDir e = true then D (direntFirstCluster e) else F (direntFirstCluster e)

structure Zoned (st : Fs) (D F : Nat → Prop) : Prop where
  ready : Ready st
  root : D st.vol.rootCluster
  dirs : ∀ c, D c → st.vol.IsCluster c
  files : ∀ c, F c → st.vol.IsCluster c
  apart : ∀ c, D c → ¬ F c
  dirLink : ∀ c, D c → LeadsTo D (st.fat c)
  fileLink : ∀ c, F c → LeadsTo F (st.fat c)
  busy : ∀ c, D c → 2 ≤ st.fat c
  slots : ∀ c i, D c → i < st.vol.sectorsPerCluster * 16 → IsEntry (slice (st.data c) (32 * i) 32) →
    Refers D F (slice (st.data c) (32 * i) 32)
  dirEnds : ∀ c, D c → Ends st c
  fileEnds : ∀ c, F c → Ends st c

structure Spot (v : Volume) (D F : Nat → Prop) (f : Found) : Prop where
  dir : D f.cluster
  place : Place v f.cluster f.offset
  length : f.ent.length = 32
  refers : Refers D F f.ent

section Walks
variable {v : Volume} {fat : Nat → Nat} {c : Nat} {l : List Nat}

lemma Walk.length_lt (hg : Geometry v) (h : Walk v fat c l) : l.length + 1 < chainFuel :=
  clusters_length_lt hg (Chain.node h) (Chain.nodup hg.guard h)

lemma Walk.fatChain (h : Walk v fat c l) (h2 : ∀ x ∈ l, 2 ≤ fat x) : FatChain v fat c l := by
  induction h with
  | @last a hn hs =>
    have := h2 a mem_cons_self
    exact .last hn (by omega)
  | cons hn _ ih => exact .cons hn (ih fun x hx => h2 x (mem_cons_of_mem _ hx))

lemma Walk.stays (hg : Geometry v) {Z : Nat → Prop} (h : Walk v fat c l) (hc : Z c)
    (hZ : ∀ x, Z x → LeadsTo Z (fat x)) : ∀ x ∈ l, Z x := by
  apply Chain.stays h hc _ hg.guard
  intro x hx
  by_cases hx' : 2 ≤ fat x ∧ fat x < eoc
  · exact .inr (hZ x hx hx'.1 hx'.2)
  · exact .inl hx'

end Walks

section Changes
variable {st st' : Fs} {D F : Nat → Prop}

variable {c : Nat} {D' F' Z : Nat → Prop} {e : Slot}

lemma Ends.of_fat (h : Ends st c) (hvol : st'.vol = st.vol) (hfat : st'.fat = st.fat) :
    Ends st' c := by
  unfold Ends
  rw [hvol, hfat]
  exact h

lemma Ends.of_zone (h : Ends st c) (hg : Geometry st.vol) (hc : Z c)
    (hZ : ∀ x, Z x → LeadsTo Z (st.fat x)) (hvol : st'.vol = st.vol)
    (hfat : ∀ x, Z x → st'.fat x = st.fat x) : Ends st' c := by
  obtain ⟨l, hl⟩ := h
  refine ⟨l, ?_⟩
  rw [hvol]
  exact hl.congr fun x hx => hfat x (hl.stays hg hc hZ x hx)

lemma Ends.cut (h : Ends st c) (hvol : st'.vol = st.vol)
    (hfat : ∀ x, st'.fat x = st.fat x ∨ ¬ (2 ≤ st'.fat x ∧ st'.fat x < eoc)) : Ends st' c := by
  obtain ⟨l, hl⟩ := h
  obtain ⟨l', hl'⟩ := Chain.cut hl hfat
  refine ⟨l', ?_⟩
  rw [hvol]
  exact hl'

lemma cut_of_update {fat fat' : Nat → Nat} {a value : Nat} (h : fat' = update fat a value)
    (hv : ¬ (2 ≤ value ∧ value < eoc)) :
    ∀ x, fat' x = fat x ∨ ¬ (2 ≤ fat' x ∧ fat' x < eoc) := by
  intro x
  rw [h, update_apply]
  split
  · exact .inr hv
  · exact .inl rfl

lemma Ends.hook {a b : Nat} (h : Ends st c) (hg : Geometry st.vol) (hvol : st'.vol = st.vol)
    (ha : ¬ (2 ≤ st.fat a ∧ st.fat a < eoc)) (hb : st.vol.IsCluster b)
    (hb' : ¬ (2 ≤ st.fat b ∧ st.fat b < eoc)) (hne : a ≠ b)
    (hfat : st'.fat = update st.fat a b) : Ends st' c := by
  obtain ⟨l, hl⟩ := h
  obtain ⟨l', hl'⟩ := Chain.hook hg.guard hl ha hb hb' hne
  refine ⟨l', ?_⟩
  rw [hvol, hfat]
  exact hl'

lemma LeadsTo.mono {Z' : Nat → Prop} (h : ∀ c, Z c → Z' c) {x : Nat} (hx : LeadsTo Z x) :
    LeadsTo Z' x := fun h2 he => h x (hx h2 he)

lemma Refers.mono (hD : ∀ c, D c → D' c) (hF : ∀ c, F c → F' c)
    (h : Refers D F e) : Refers D' F' e := by
  intro h0
  have hz := h h0
  split
  · next hdir =>
    rw [if_pos hdir] at hz
    exact hD _ hz
  · next hdir =>
    rw [if_neg hdir] at hz
    exact hF _ hz

lemma Spot.mono {v : Volume} (hD : ∀ c, D c → D' c) (hF : ∀ c, F c → F' c)
    {f : Found} (h : Spot v D F f) : Spot v D' F' f :=
  ⟨hD _ h.dir, h.place, h.length, h.refers.mono hD hF⟩

lemma Refers.cases (h : Refers D F e) (h0 : direntFirstCluster e ≠ 0) :
    (direntIsDir e = true ∧ D (direntFirstCluster e)) ∨
      (direntIsDir e = false ∧ F (direntFirstCluster e)) := by
  have hz := h h0
  split at hz
  · next hdir => exact .inl ⟨hdir, hz⟩
  · next hdir => exact .inr ⟨Bool.eq_false_iff.mpr hdir, hz⟩

lemma Refers.dir (h : Refers D F e) (hdir : direntIsDir e = true)
    (h0 : direntFirstCluster e ≠ 0) : D (direntFirstCluster e) := by
  have hz := h h0
  rwa [if_pos hdir] at hz

lemma Refers.file (h : Refers D F e) (hfile : ¬ direntIsDir e = true)
    (h0 : direntFirstCluster e ≠ 0) : F (direntFirstCluster e) := by
  have hz := h h0
  rwa [if_neg hfile] at hz

lemma Zoned.change (hz : Zoned st D F) (h : Held st st') (hdir : ∀ c, D c → st'.fat c = st.fat c)
    (hfile : ∀ c, F c → LeadsTo F (st'.fat c)) (hends : ∀ c, F c → Ends st' c)
    (hslots : ∀ c i, D c → i < st.vol.sectorsPerCluster * 16 →
      IsEntry (slice (st'.data c) (32 * i) 32) → Refers D F (slice (st'.data c) (32 * i) 32)) :
    Zoned st' D F := by
  refine ⟨h.ready hz.ready, ?_, ?_, ?_, hz.apart, ?_, hfile, ?_, ?_, ?_, hends⟩
  · rw [h.vol]
    exact hz.root
  · rw [h.vol]
    exact hz.dirs
  · rw [h.vol]
    exact hz.files
  · intro c hc
    rw [hdir c hc]
    exact hz.dirLink c hc
  · intro c hc
    rw [hdir c hc]
    exact hz.busy c hc
  · rw [h.vol]
    exact hslots
  · intro c hc
    exact (hz.dirEnds c hc).of_zone hz.ready.geometry hc hz.dirLink h.vol hdir

lemma Zoned.withData (hz : Zoned st D F) (h : Held st st') (hfat : st'.fat = st.fat)
    (hslots : ∀ c i, D c → i < st.vol.sectorsPerCluster * 16 →
      IsEntry (slice (st'.data c) (32 * i) 32) → Refers D F (slice (st'.data c) (32 * i) 32)) :
    Zoned st' D F := by
  apply hz.change h (fun c _ => by rw [hfat]) _ (fun c hc => (hz.fileEnds c hc).of_fat h.vol hfat) hslots
  rw [hfat]
  exact hz.fileLink

lemma Zoned.withLinks (hz : Zoned st D F) (h : Held st st') (hdata : st'.data = st.data)
    (hdir : ∀ c, D c → st'.fat c = st.fat c) (hfile : ∀ c, F c → LeadsTo F (st'.fat c))
    (hends : ∀ c, F c → Ends st' c) : Zoned st' D F := by
  apply hz.change h hdir hfile hends
  rw [hdata]
  exact hz.slots

lemma Zoned.same (hz : Zoned st D F) (h : Quiet st st') : Zoned st' D F := by
  apply hz.withData h.held h.fat
  rw [h.data]
  exact hz.slots

end Changes

/-! ## Walks through directories -/

section Walks
variable {st st' : Fs} {D F : Nat → Prop}

variable {name path : CString} {d : Nat}

/-- A zone in which no link is 0 or 1 holds the whole chain of each of its clusters. -/
lemma Ends.chain {c : Nat} {Z : Nat → Prop} (h : Ends st c) (hg : Geometry st.vol) (hc : Z c)
    (hZ : ∀ x, Z x → LeadsTo Z (st.fat x)) (h2 : ∀ x, Z x → 2 ≤ st.fat x) :
    ∃ l, FatChain st.vol st.fat c l ∧ ∀ x ∈ l, Z x := by
  obtain ⟨l, hl⟩ := h
  have hin := hl.stays hg hc hZ
  exact ⟨l, hl.fatChain fun x hx => h2 x (hin x hx), hin⟩

lemma Zoned.dirChain (hz : Zoned st D F) (hd : D d) : ∃ l, FatChain st.vol st.fat d l ∧ ∀ x ∈ l, D x :=
  (hz.dirEnds d hd).chain hz.ready.geometry hd hz.dirLink hz.busy

lemma Zoned.spot (hz : Zoned st D F) {l : List Nat} (hl : ∀ x ∈ l, D x) {f : Found}
    (hf : f ∈ dirSlots st.vol st.data l) (he : IsEntry f.ent) : Spot st.vol D F f := by
  obtain ⟨hc, hal, hin, hent⟩ := mem_dirSlots.mp hf
  have hoff : f.offset = 32 * (f.offset / 32) := by omega
  refine ⟨hl _ hc, ⟨hz.dirs _ (hl _ hc), hal, hin⟩, ent_length hf, ?_⟩
  rw [hent, hoff] at he ⊢
  apply hz.slots _ _ (hl _ hc) _ he
  unfold clusterBytes at hin
  omega

lemma fatFindEntry_zoned (hz : Zoned st D F) (hd : D d) (name : CString) :
    ∃ r st', fatFindEntry st d name = some (r, st') ∧ Quiet st st' ∧ ∀ f ∈ r, Spot st.vol D F f := by
  obtain ⟨l, hl, hD⟩ := hz.dirChain hd
  obtain ⟨st', hrun, hq⟩ := fatFindEntry_ok hz.ready hl name
  refine ⟨_, st', hrun, hq, fun f hf => ?_⟩
  obtain ⟨hmem, he⟩ := lookup_some hf
  exact hz.spot hD hmem he

lemma pathLoop_zoned (fuel : Nat) {p : CString} (hz : Zoned st D F) (hd : D d) (hf : p.length < fuel) :
    ∃ dir name st', pathLoop fuel d p st = some ((dir, name), st') ∧ Quiet st st' ∧
      (dir = 0 ∨ D dir) := by
  induction fuel generalizing st d p with
  | zero => omega
  | succ fuel ih =>
    rw [pathLoop]
    split
    · exact ⟨_, _, _, rfl, Quiet.refl _, .inr hd⟩
    next hp =>
    split
    · exact ⟨_, _, _, rfl, Quiet.refl _, .inr hd⟩
    next hrest =>
    obtain ⟨r, st1, hfind, hq, hspot⟩ := fatFindEntry_zoned hz hd ((pathComp p).take 63)
    rw [hfind]
    cases r with
    | none => exact ⟨_, _, _, rfl, hq, .inl rfl⟩
    | some f =>
      dsimp only
      split
      · exact ⟨_, _, _, rfl, hq, .inl rfl⟩
      · next hsub =>
        rw [not_or, Bool.not_eq_false] at hsub
        have hlt := pathRest_length_lt hp hrest
        obtain ⟨dir, name, st', hrun, hq', hdir⟩ := ih (hz.same hq)
          ((hspot f rfl).refers.dir hsub.1 hsub.2) (p := pathRest p) (by omega)
        exact ⟨dir, name, st', hrun, hq.trans hq', hdir⟩

lemma pathDirCluster_zoned (hz : Zoned st D F) (path : CString) :
    ∃ dir name st', pathDirCluster st path = some ((dir, name), st') ∧ Quiet st st' ∧
      (dir = 0 ∨ D dir) := by
  rw [pathDirCluster]
  split
  · exact ⟨_, _, _, rfl, Quiet.refl _, .inr hz.root⟩
  · exact pathLoop_zoned (path.length + 1) hz hz.root (pathStart_length_lt path)

lemma withLeaf_zoned {α : Type} (hz : Zoned st D F) (fail : α) (path : CString)
    (k : Fs → Nat → CString → Option (α × Fs)) :
    (∃ st', withLeaf st fail path k = some (fail, st') ∧ Quiet st st') ∨
      ∃ st1 dir name, withLeaf st fail path k = k st1 dir name ∧ Quiet st st1 ∧ D dir := by
  rw [withLeaf]
  split
  · obtain ⟨dir, name, st1, hpath, hq, hdir⟩ := pathDirCluster_zoned hz path
    rw [hpath]
    dsimp only
    split
    · exact .inl ⟨st1, rfl, hq⟩
    · next hok =>
      rw [not_or] at hok
      exact .inr ⟨st1, dir, name, rfl, hq, hdir.resolve_left hok.1⟩
  · exact .inl ⟨st, rfl, Quiet.refl _⟩

end Walks

/-! ## Writes to directories -/

section Slots
variable {st st' : Fs} {D F : Nat → Prop}

lemma fatUpdateDirent_zoned (hz : Zoned st D F) {c off : Nat} (hc : D c) (hp : Place st.vol c off)
    {e : Slot} (he : e.length = 32) (href : Refers D F e) :
    Held st (fatUpdateDirent st c off e).2 ∧ Zoned (fatUpdateDirent st c off e).2 D F ∧
      (fatUpdateDirent st c off e).2.fat = st.fat := by
  obtain ⟨st1, hrun, hheld, hfat, hdata⟩ := fatUpdateDirent_ok hz.ready hp he
  rw [hrun]
  refine ⟨hheld, hz.withData hheld hfat fun x i hx hi hent => ?_, hfat⟩
  rw [hdata] at hent ⊢
  by_cases hxc : x = c
  · subst hxc
    rw [update_self, slice_splice_slot he hp.aligned (by omega)] at hent ⊢
    split at hent
    · next heq =>
      rw [if_pos heq]
      exact href
    · next hne =>
      rw [if_neg hne]
      exact hz.slots x i hx hi hent
  · rw [update_of_ne hxc] at hent ⊢
    exact hz.slots x i hx hi hent

lemma Zoned.erased (hz : Zoned st D F) {st' : Fs} (hheld : Held st st') {l offs : List Nat} {f : Found}
    (her : Erased st st' l f offs) : Zoned st' D F := by
  refine hz.withData hheld her.fat fun x i hx hi hent => ?_
  rw [her.data, eraseAt] at hent ⊢
  by_cases hxc : x = f.cluster
  · subst hxc
    rw [update_self, slice_erase (by omega) her.aligned] at hent ⊢
    split at hent
    · exact absurd hent (not_isEntry_erased (slice_length _ _ _))
    · next hne =>
      rw [if_neg hne]
      exact hz.slots _ i hx hi hent
  · rw [update_of_ne hxc] at hent ⊢
    exact hz.slots x i hx hi hent

lemma fatDeleteEntry_zoned (hz : Zoned st D F) {d : Nat} (hd : D d) (name : CString) :
    ∃ r st', fatDeleteEntry st d name = some (r, st') ∧ Held st st' ∧ Zoned st' D F ∧
      st'.fat = st.fat := by
  obtain ⟨l, hl, hD⟩ := hz.dirChain hd
  rcases fatDeleteEntry_cases hz.ready hl name with ⟨st1, hdel, hq⟩ | ⟨st1, f, offs, hdel, hheld, her⟩
  · exact ⟨false, st1, hdel, hq.held, hz.same hq, hq.fat⟩
  · exact ⟨true, st1, hdel, hheld, hz.erased hheld her, her.fat⟩

end Slots

/-! ## Allocation -/

section Allocation
variable {st st' : Fs} {new : Nat}

lemma fatAllocCluster_mem (hr : Ready st) (h : fatAllocCluster st = (some new, st')) :
    new ∈ freeClusters st.vol st.fat ∧ st'.fat = update st.fat new 0x0FFFFFFF ∧
      st'.data = st.data ∧ Held st st' := by
  cases hfree : freeClusters st.vol st.fat with
  | nil =>
    obtain ⟨st1, hnone, -⟩ := fatAllocCluster_none hr hfree
    rw [h] at hnone
    cases hnone
  | cons c fs =>
    obtain ⟨st1, hsome, hheld, hfat, hdata⟩ := fatAllocCluster_some hr hfree
    rw [h] at hsome
    cases hsome
    exact ⟨mem_cons_self, hfat, hdata, hheld⟩

lemma fatAllocCluster_taken (hr : Ready st) (h : fatAllocCluster st = (some new, st')) :
    st.vol.IsCluster new ∧ st.fat new = 0 ∧ st'.fat = update st.fat new 0x0FFFFFFF ∧
      st'.data = st.data ∧ Held st st' := by
  obtain ⟨hmem, hkept⟩ := fatAllocCluster_mem hr h
  exact ⟨isCluster_of_free hmem, (mem_freeClusters.mp hmem).2, hkept⟩

lemma fatAllocCluster_full (hr : Ready st) (h : fatAllocCluster st = (none, st')) : Quiet st st' := by
  cases hfree : freeClusters st.vol st.fat with
  | nil =>
    obtain ⟨st1, hnone, hq⟩ := fatAllocCluster_none hr hfree
    rw [h] at hnone
    cases hnone
    exact hq
  | cons c fs =>
    obtain ⟨st1, hsome, -⟩ := fatAllocCluster_some hr hfree
    rw [h] at hsome
    cases hsome

lemma fatSetEntry_links (hr : Ready st) {c value : Nat} {b : Bool} (hc : c < st.vol.limit)
    (hv : value < 2 ^ 28) (h : fatSetEntry st c value = (b, st')) :
    Held st st' ∧ st'.fat = update st.fat c value ∧ st'.data = st.data := by
  obtain ⟨st1, hset, hkept⟩ := fatSetEntry_ok hr hc hv
  rw [h] at hset
  cases hset
  exact hkept

end Allocation

/-! ## New entries -/

def Tight (st : Fs) (F : Nat → Prop) : Prop := ∀ c, F c → 2 ≤ st.fat c

lemma Tight.of_fat {st st' : Fs} {F : Nat → Prop} (ht : Tight st F) (h : st'.fat = st.fat) :
    Tight st' F := by
  intro c hc
  rw [h]
  exact ht c hc

section Creation
variable {st st' : Fs} {D F : Nat → Prop} {name : CString} {attr : UInt8}

variable {c : Nat}

lemma newDirent_refers : Refers D F (newDirent (nameToShort name) attr) :=
  fun h0 => absurd (newDirent_firstCluster name attr) h0

lemma entrySlots_refers {e : Slot} (he : e ∈ entrySlots name attr) (hent : IsEntry e) :
    Refers D F e := by
  rcases mem_append.mp he with he | he
  · obtain ⟨order, -, rfl⟩ := mem_lfnSlots he
    exact absurd (lfnEntry_attr _ _ _ _) hent.2.2
  · rw [mem_singleton.mp he]
    exact newDirent_refers

/-- `g` is a new entry, which has no chain yet. -/
structure Fresh (v : Volume) (D F : Nat → Prop) (name : CString) (attr : UInt8) (g : Found) : Prop where
  spot : Spot v D F g
  ent : g.ent = newDirent (nameToShort name) attr

lemma Zoned.placed {l : List Nat} {i : Nat} (hz : Zoned st D F) (hh : Held st st')
    (hp : Placed st st' l name attr c i) : Zoned st' D F := by
  refine hz.withData hh hp.fat fun x k hx hk hent => ?_
  rw [hp.data, placeData] at hent ⊢
  by_cases hxc : x = c
  · subst hxc
    rw [update_self, slice_splice_run entrySlots_slot] at hent ⊢
    split at hent
    · next hik =>
      rw [if_pos hik]
      cases hget : (entrySlots name attr)[k - i]? with
      | none =>
        rw [hget] at hent
        exact hz.slots x k hx hk hent
      | some e =>
        rw [hget] at hent
        exact entrySlots_refers (mem_of_getElem? hget) hent
    · next hik =>
      rw [if_neg hik]
      exact hz.slots x k hx hk hent
  · rw [update_of_ne hxc] at hent ⊢
    exact hz.slots x k hx hk hent

lemma Zoned.extended (hz : Zoned st D F) (ht : Tight st F) {new : Nat} (hc : D c)
    (hlast : eoc ≤ st.fat c) (hh : Held st st') (hnew : new ∈ freeClusters st.vol st.fat)
    (hfat : st'.fat = update (update st.fat new 0x0FFFFFFF) c new)
    (hdata : st'.data = update st.data new fun _ => 0) :
    Zoned st' (fun x => D x ∨ x = new) F ∧ Tight st' F := by
  have hcl := isCluster_of_free hnew
  have hfree := (mem_freeClusters.mp hnew).2
  have hne : c ≠ new := by
    rintro rfl
    have := hz.busy c hc
    omega
  have hat : ∀ x, st'.fat x = if x = c then new else if x = new then 0x0FFFFFFF else st.fat x := by
    intro x
    rw [hfat, update_apply, update_apply]
  have hfileFat : ∀ x, F x → st'.fat x = st.fat x := by
    intro x hF
    rw [hat, if_neg, if_neg]
    · rintro rfl
      have := ht x hF
      omega
    · rintro rfl
      exact hz.apart x hc hF
  refine ⟨⟨hh.ready hz.ready, ?_, ?_, ?_, ?_, ?_, ?_, ?_, ?_, ?_, ?_⟩, ?_⟩
  · rw [hh.vol]
    exact .inl hz.root
  · rw [hh.vol]
    rintro x (hx | rfl)
    · exact hz.dirs x hx
    · exact hcl
  · rw [hh.vol]
    exact hz.files
  · rintro x (hx | rfl) hF
    · exact hz.apart x hx hF
    · have := ht x hF
      omega
  · intro x hx
    rw [hat]
    split
    · exact fun _ _ => .inr rfl
    · split
      · intro _ he
        unfold eoc at he
        omega
      · next hxn => exact (hz.dirLink x (hx.resolve_right hxn)).mono fun _ => .inl
  · intro x hF
    rw [hfileFat x hF]
    exact hz.fileLink x hF
  · intro x hx
    rw [hat]
    split
    · exact hcl.1
    · split
      · decide
      · next hxn => exact hz.busy x (hx.resolve_right hxn)
  · intro x i hx hi hent
    rw [hdata] at hent ⊢
    rw [hh.vol] at hi
    by_cases hxn : x = new
    · subst hxn
      rw [update_self] at hent
      exact absurd (by simp [slice]) hent.1
    · rw [update_of_ne hxn] at hent ⊢
      exact (hz.slots x i (hx.resolve_right hxn) hi hent).mono (fun _ => .inl) fun _ h => h
  · rintro x (hx | rfl)
    · obtain ⟨l, hl⟩ := hz.dirEnds x hx
      obtain ⟨l1, hl1⟩ := Chain.cut hl
        (@cut_of_update st.fat (update st.fat new 0x0FFFFFFF) _ _ rfl (by decide))
      obtain ⟨l2, hl2⟩ := Chain.hook hz.ready.geometry.guard hl1
        (by rw [update_of_ne hne]; omega) hcl (by rw [update_self]; decide) hne
      refine ⟨l2, ?_⟩
      rw [hh.vol, hfat]
      exact hl2
    · refine ⟨[x], .last (by rw [hh.vol]; exact hcl) ?_⟩
      rw [hat, if_neg hne.symm, if_pos rfl]
      decide
  · intro x hF
    exact (hz.fileEnds x hF).of_zone hz.ready.geometry hF hz.fileLink hh.vol hfileFat
  · intro x hF
    rw [hfileFat x hF]
    exact ht x hF

lemma createEntry_zoned (depth : Nat) (hz : Zoned st D F) (ht : Tight st F) {d : Nat} (hd : D d)
    (hdepth : (freeClusters st.vol st.fat).length < depth) :
    ∃ r st', createEntry name attr depth d st = some (r, st') ∧
      ∃ D', (∀ c, D c → D' c) ∧ Held st st' ∧ Zoned st' D' F ∧ Tight st' F ∧
        ∀ g ∈ r, Fresh st.vol D' F name attr g := by
  induction depth generalizing st D d with
  | zero => omega
  | succ depth ih =>
    obtain ⟨l, hl, hD⟩ := hz.dirChain hd
    rw [createEntry]
    rcases createChain_ok hz.ready hl name attr chainFuel (hl.lt_fuel hz.ready.geometry).le with
      ⟨st1, hrun, hq, -⟩ | ⟨st1, c, i, hrun, hh, hp, -⟩
    · have hz1 := hz.same hq
      have ht1 := ht.of_fat hq.fat
      have hl1 := hq.chain hl
      rw [← hq.vol, ← hq.fat] at hdepth
      rw [hrun]
      dsimp only
      cases hfree : freeClusters st1.vol st1.fat with
      | nil =>
        obtain ⟨st2, halloc, hq2⟩ := fatAllocCluster_none hz1.ready hfree
        rw [halloc]
        exact ⟨_, _, rfl, D, fun _ h => h, hq.held.trans hq2.held, hz1.same hq2, ht1.of_fat hq2.fat, by simp⟩
      | cons new fs =>
        obtain ⟨sa, sb, sc, st2, halloc, hlink, hset, hfill, hh2, hfat2, hfs, hext⟩ :=
          extend_ok hz1.ready hl1 hfree
        obtain ⟨hz2, ht2⟩ := hz1.extended ht1 (hD _ (getLast_mem _)) (Chain.stop_getLast hl1) hh2
          hext.fresh hfat2 hext.data
        rw [halloc]
        dsimp only
        rw [hlink]
        dsimp only
        rw [hset]
        dsimp only
        rw [hfill]
        rw [hfree, length_cons] at hdepth
        rw [← hh2.vol] at hfs
        have hh2 := hq.held.trans hh2
        obtain ⟨r, st', hrun, D', hsub, hh', hz', ht', hfresh'⟩ := ih hz2 ht2 (.inr rfl)
          (by rw [hfs]; omega)
        rw [hh2.vol] at hfresh'
        exact ⟨r, st', hrun, D', fun x hx => hsub x (.inl hx), hh2.trans hh', hz', ht', hfresh'⟩
    · rw [hrun]
      refine ⟨_, _, rfl, D, fun _ h => h, hh, hz.placed hh hp, ht.of_fat hp.fat, ?_⟩
      rintro g ⟨⟩
      exact ⟨⟨hD _ hp.mem, hp.place, newDirent_length name attr, newDirent_refers⟩, rfl⟩

lemma fatCreateEntry_zoned (hz : Zoned st D F) (ht : Tight st F) {d : Nat} (hd : D d) (name : CString)
    (attr : UInt8) :
    ∃ r st', fatCreateEntry st d name attr = some (r, st') ∧
      ∃ D', (∀ c, D c → D' c) ∧ Held st st' ∧ Zoned st' D' F ∧ Tight st' F ∧
        ∀ g ∈ r, Fresh st.vol D' F name attr g := by
  apply createEntry_zoned chainFuel hz ht hd
  have := clusters_length_lt hz.ready.geometry (fun x hx => isCluster_of_free hx)
    (@freeClusters_nodup st.vol st.fat)
  omega

end Creation

end FusionOS.Fat
