import Mathlib.Data.Finset.Card
import Mathlib.Order.Interval.Finset.Nat
import FusionOS.Fat.View

/-!
# How many clusters a file takes

`fat_write_file` allocates the first cluster of a new chain before the loop that counts, so a file
that is not empty gets one cluster more than its size asks for.
-/

namespace FusionOS.Fat

open List

/-! ## Counting free clusters -/

def freeSet (v : Volume) (fat : Nat → Nat) : Finset Nat :=
  (Finset.Ico 2 v.limit).filter fun c => fat c = 0

/-- The number of free clusters of the volume. -/
def Fs.freeCount (st : Fs) : Nat := (freeSet st.vol st.fat).card

/-- The clusters `l` are different and in use. -/
structure Occupied (v : Volume) (fat : Nat → Nat) (l : List Nat) : Prop where
  nodup : l.Nodup
  cluster : ∀ x ∈ l, v.IsCluster x
  used : ∀ x ∈ l, fat x ≠ 0

section Counting
variable {v : Volume} {fat fat' : Nat → Nat} {c : Nat} {l l' : List Nat}

lemma mem_freeSet {x : Nat} : x ∈ freeSet v fat ↔ v.IsCluster x ∧ fat x = 0 := by
  rw [freeSet, Finset.mem_filter, Finset.mem_Ico]
  rfl

lemma FatChain.occupied (hg : Geometry v) (h : FatChain v fat c l) : Occupied v fat l :=
  ⟨h.nodup hg, Chain.node h, fun _ hx => h.fat_ne_zero hx⟩

lemma HasChain.occupied (hg : Geometry v) (h : HasChain v fat c l) : Occupied v fat l := by
  rcases h with ⟨-, rfl⟩ | ⟨-, h⟩
  · exact ⟨nodup_nil, fun _ hx => absurd hx not_mem_nil, fun _ hx => absurd hx not_mem_nil⟩
  · exact FatChain.occupied hg h

lemma Occupied.card_union (h : Occupied v fat l) :
    (freeSet v fat ∪ l.toFinset).card = (freeSet v fat).card + l.length := by
  rw [Finset.card_union_of_disjoint, toFinset_card_of_nodup h.nodup]
  rw [Finset.disjoint_left]
  intro x hfree hx
  exact h.used x (mem_toFinset.mp hx) (mem_freeSet.mp hfree).2

lemma card_freeSet_exchange (h : Occupied v fat l) (h' : Occupied v fat' l')
    (hsame : ∀ x, fat' x = 0 ∨ x ∈ l' ↔ fat x = 0 ∨ x ∈ l) :
    (freeSet v fat').card + l'.length = (freeSet v fat).card + l.length := by
  rw [← h.card_union, ← h'.card_union]
  congr 1
  ext x
  rw [Finset.mem_union, Finset.mem_union, mem_freeSet, mem_freeSet, mem_toFinset,
    mem_toFinset]
  constructor
  · rintro (⟨hx, h0⟩ | hm)
    · exact ((hsame x).mp (.inl h0)).imp_left fun h0 => ⟨hx, h0⟩
    · exact ((hsame x).mp (.inr hm)).imp_left fun h0 => ⟨h'.cluster x hm, h0⟩
  · rintro (⟨hx, h0⟩ | hm)
    · exact ((hsame x).mpr (.inl h0)).imp_left fun h0 => ⟨hx, h0⟩
    · exact ((hsame x).mpr (.inr hm)).imp_left fun h0 => ⟨h.cluster x hm, h0⟩

end Counting

/-! ## The length of a new chain -/

lemma neededClusters_zero {v : Volume} (hg : Geometry v) : neededClusters v 0 = 0 := by
  have hcb := clusterBytes_ge hg
  have hspc := hg.spc_lt
  have hle : clusterBytes v ≤ 2 ^ 32 := by
    unfold clusterBytes
    omega
  rw [neededClusters_eq (by omega) (by omega)]
  exact Nat.div_eq_of_lt (by omega)

lemma neededClusters_wrap {v : Volume} (hg : Geometry v) {n : Nat} (hn : n < 2 ^ 32)
    (h : 2 ^ 32 < n + clusterBytes v) : neededClusters v n = 0 := by
  have hspc := hg.spc_lt
  apply Nat.div_eq_of_lt
  unfold u32
  omega

lemma writtenClusters_eq_iff {v : Volume} (hg : Geometry v) {n : Nat} (hn : n < 2 ^ 32) :
    writtenClusters v n = (n + clusterBytes v - 1) / clusterBytes v ↔ n = 0 := by
  have hcb := clusterBytes_ge hg
  unfold writtenClusters
  constructor
  · intro heq
    by_contra hne
    have hpos : 0 < (n + clusterBytes v - 1) / clusterBytes v :=
      Nat.div_pos (by omega) (by omega)
    split at heq
    · omega
    · next hne0 =>
      by_cases hfit : n + clusterBytes v ≤ 2 ^ 32
      · rw [neededClusters_eq (by omega) hfit] at heq
        omega
      · exact hne0 (neededClusters_wrap hg hn (by omega))
  · rintro rfl
    rw [neededClusters_zero hg, if_pos rfl, Nat.zero_add]
    exact (Nat.div_eq_of_lt (by omega)).symm

lemma Attached.freeCount {st st' : Fs} {d c i first : Nat} {ld l1 l' : List Nat} {name : CString}
    {attr : UInt8} {e : Slot} (h : Attached st st' d ld l1 name attr c i e l') (hg : Geometry st.vol)
    (hl : FatChain st.vol st.fat d ld) (hch : first = 0 ∧ l' = [] ∨ FatChain st.vol st'.fat first l')
    (hspill : Spilled st ld name l1) :
    st'.freeCount + (l1.length + l'.length) = st.freeCount + ld.length := by
  have hchain : Occupied st.vol st'.fat l' := by
    rcases hch with ⟨-, rfl⟩ | hch
    · exact HasChain.occupied hg (.inl ⟨rfl, rfl⟩)
    · exact FatChain.occupied hg hch
  have hdir := FatChain.occupied hg h.chain
  have hsub : ∀ x ∈ ld, x ∈ l1 := by
    intro x hx
    rcases hspill with ⟨-, rfl⟩ | ⟨-, new, rfl⟩
    · exact hx
    · exact mem_append_left _ hx
  rw [← length_append, Fs.freeCount, Fs.freeCount, h.disk.vol]
  apply card_freeSet_exchange (FatChain.occupied hg hl)
  · refine ⟨nodup_append.mpr ⟨hdir.nodup, hchain.nodup, ?_⟩, ?_, ?_⟩
    · rintro x hx _ hx' rfl
      exact (h.fresh x hx').2 hx
    · intro x hx
      exact (mem_append.mp hx).elim (hdir.cluster x) (hchain.cluster x)
    · intro x hx
      exact (mem_append.mp hx).elim (hdir.used x) (hchain.used x)
  · intro x
    rw [mem_append]
    by_cases hx1 : x ∈ l1
    · refine iff_of_true (.inr (.inl hx1)) ?_
      exact (h.grown x hx1).symm.imp_left fun hfree => (mem_freeClusters.mp hfree).2
    by_cases hx' : x ∈ l'
    · exact iff_of_true (.inr (.inr hx')) (.inl (mem_freeClusters.mp (h.fresh x hx').1).2)
    · have hxd : x ∉ ld := fun hx => hx1 (hsub x hx)
      rw [h.fat x hx1 hx']
      simp only [hx1, hx', hxd, or_false]

/-! ## The whole call -/

def ChainBefore (st : Fs) (path : CString) (l : List Nat) : Prop :=
  (∃ f bs, FileAt st path f l bs) ∨ l = [] ∧ ∃ d ld leaf, st.image.Names path d leaf ∧
    st.image.ChainAt d ld ∧ lookup leaf [] (st.image.slots ld) = none

/-- What is asked of a write that returned 1: the file has as many clusters as its data fill, none
and no first cluster where there are no data, and the number of free clusters has changed by
the difference of the lengths of the chains. -/
def WritesExactly (st st' : Fs) (path : CString) (data : List UInt8) : Prop :=
  ∃ l f l' bs, ChainBefore st path l ∧ FileAt st' path f l' bs ∧
    l'.length = (data.length + clusterBytes st.vol - 1) / clusterBytes st.vol ∧
    (data = [] → direntFirstCluster f.ent = 0) ∧
    st'.freeCount + l'.length = st.freeCount + l.length

section Main
variable {st st' : Fs} {path : CString}

lemma Image.Names.unique {I : Image} (hg : Geometry I.vol) {d1 d2 : Nat} {leaf1 leaf2 : CString}
    (h1 : I.Names path d1 leaf1) (h2 : I.Names path d2 leaf2) : d1 = d2 ∧ leaf1 = leaf2 :=
  h1.2.2.unique hg h2.2.2

lemma FileAt.unique (hg : Geometry st.vol) {f g : Found} {l m : List Nat} {bs cs : List UInt8}
    (h : FileAt st path f l bs) (h' : FileAt st path g m cs) : f = g ∧ l = m := by
  obtain ⟨d, ld, leaf, hnames, hl, hlook⟩ := h.named
  obtain ⟨d', ld', leaf', hnames', hl', hlook'⟩ := h'.named
  obtain ⟨rfl, rfl⟩ := hnames.unique hg hnames'
  obtain rfl := FatChain.unique hg hl hl'
  cases hlook.symm.trans hlook'
  exact ⟨rfl, HasChain.unique hg h.chain h'.chain⟩

lemma fsWriteFile_found (hw : WellFormed st) {d : Nat} {ld : List Nat} {leaf : CString}
    (hnames : st.image.Names path d leaf) (hl : st.image.ChainAt d ld) {f : Found}
    (hlook : lookup leaf [] (st.image.slots ld) = some f) {xs : List UInt8}
    (hlen : xs.length < 2 ^ 32) (hrun : fsWriteFile st path xs = some (true, st')) :
    st'.vol = st.vol ∧ ∃ l old f' l' bs, FileAt st path f l old ∧ FileAt st' path f' l' bs ∧
      l'.length = writtenClusters st.vol xs.length ∧
      st'.freeCount + l'.length = st.freeCount + l.length := by
  obtain ⟨hmem, hent⟩ := lookup_some hlook
  obtain ⟨p, hd⟩ := hw.sound.dir_of_names hnames
  rw [fsWriteFile] at hrun
  have hdir : direntIsDir f.ent = false := by
    by_contra hdir
    obtain ⟨st1, -, hcall⟩ := write_entry hw hnames hl hlook xs false
    rw [hcall, fatWriteEntry_dir xs (Bool.not_eq_false _ ▸ hdir)] at hrun
    cases hrun
  obtain ⟨l, hch⟩ := hw.sound.entry_chain (hw.sound.entry_of_file hd hl hmem hent hdir)
  have hfile : FileAt st path f l _ := ⟨⟨d, ld, leaf, hnames, hl, hlook⟩, hdir, hch, rfl⟩
  have hout := write_outcome hw hfile xs false
  rw [hrun] at hout
  cases hout with
  | @written _ l' first size hlink _ hanew =>
    obtain ⟨hlen', hfreed⟩ := hanew fun h => Bool.false_ne_true h.1
    rw [u32_of_lt hlen] at hlen'
    have hfile' := hlink.fileAt hw hfile
    refine ⟨hlink.disk.vol, l, _, _, l', _, hfile, hfile', hlen', ?_⟩
    have hnew := hfile'.chain
    rw [Fs.freeCount, Fs.freeCount]
    rw [hlink.disk.vol] at hnew ⊢
    apply card_freeSet_exchange (HasChain.occupied hw.ready.geometry hch)
      (HasChain.occupied hw.ready.geometry hnew)
    intro x
    by_cases hx : x ∈ l'
    · refine iff_of_true (.inr hx) ?_
      exact (hlink.fresh x hx).symm.imp_left fun hfree => (mem_freeClusters.mp hfree).2
    by_cases hm : x ∈ l
    · exact iff_of_true (.inl (hfreed x hm hx)) (.inr hm)
    · rw [hlink.fat x hm hx]
      simp only [hx, hm, or_false, Fs.image]

lemma HasChain.first_eq_zero {v : Volume} {fat : Nat → Nat} {first : Nat} (h : HasChain v fat first []) :
    first = 0 := by
  rcases h with ⟨h0, -⟩ | ⟨-, hch⟩
  · exact h0
  · exact absurd rfl hch.ne_nil

lemma writesExactly_nil (hg : Geometry st.vol) {l l' : List Nat} {f : Found} {bs : List UInt8}
    (hbefore : ChainBefore st path l) (hafter : FileAt st' path f l' bs)
    (hlen : l'.length = writtenClusters st.vol 0)
    (hcount : st'.freeCount + l'.length = st.freeCount + l.length) : WritesExactly st st' path [] := by
  have hceil := (writtenClusters_eq_iff hg (by decide)).mpr (rfl : 0 = 0)
  refine ⟨l, f, l', bs, hbefore, hafter, hlen.trans hceil, fun _ => ?_, hcount⟩
  rw [writtenClusters, neededClusters_zero hg, if_pos rfl] at hlen
  obtain rfl := eq_nil_of_length_eq_zero hlen
  exact hafter.chain.first_eq_zero

section Cases
variable {d : Nat} {ld : List Nat} {leaf : CString} {data : List UInt8} (hw : WellFormed st)
  (hnames : st.image.Names path d leaf) (hl : st.image.ChainAt d ld) (hlen : data.length < 2 ^ 32)
  (hrun : fsWriteFile st path data = some (true, st'))
include hw hnames hl hlen hrun

lemma writesExactly_found_iff {f : Found} (hlook : lookup leaf [] (st.image.slots ld) = some f) :
    WritesExactly st st' path data ↔ data = [] := by
  obtain ⟨hvol, l, old, f', l', bs, hfile, hfile', hlen', hcount⟩ :=
    fsWriteFile_found hw hnames hl hlook hlen hrun
  have hg := hw.ready.geometry
  constructor
  · rintro ⟨m, g, m', cs, -, hafter, hceil, -⟩
    obtain ⟨-, rfl⟩ := hafter.unique (hvol ▸ hg) hfile'
    exact eq_nil_of_length_eq_zero
      ((writtenClusters_eq_iff hg hlen).mp (hlen'.symm.trans hceil))
  · rintro rfl
    exact writesExactly_nil hg (.inl ⟨f, old, hfile⟩) hfile' hlen' hcount

lemma writesExactly_new_iff (hnone : lookup leaf [] (st.image.slots ld) = none) :
    WritesExactly st st' path data ↔
      data = [] ∧ Plain leaf ∧ createPlace st.vol st.data (lfnCount leaf + 1) ld ≠ none := by
  obtain ⟨p, hd⟩ := hw.sound.dir_of_names hnames
  have hg := hw.ready.geometry
  rw [fsWriteFile] at hrun
  have hnew := write_new hw.ready hw.mounted (.inl hnames) hnames.2.2.leaf_length hl hnone data false
  rw [hrun] at hnew
  obtain _ | _ | @⟨_, l1, l', c, i, first, size, hat, hch, hlt, -, hlen', hspill⟩ := hnew
  have hvol : st'.vol = st.vol := hat.disk.vol
  have hcount := hat.freeCount hg hl hch hspill
  rw [u32_of_lt hlen] at hlen'
  constructor
  · rintro ⟨m, g, m', cs, hbefore, hafter, hceil, -, hcount'⟩
    have hplain : Plain leaf := by
      by_contra hplain
      obtain ⟨s, hno⟩ := hat.not_exists hw hd hl (by decide) (newSlot_alike leaf 0x20 first size) hplain
        (by decide) hnone hnames
      obtain ⟨d', ld', leaf', hnames', hl', hlook'⟩ := hafter.named
      obtain ⟨s', hyes⟩ := fsExists_ok (hat.disk.ready hw.ready) (by rw [hvol]; exact hw.mounted) hnames' hl'
      rw [hlook'] at hyes
      cases hno.symm.trans hyes
    have hfile := hat.fileAt hw hd hl hplain hnone hnames hch hlt
    obtain ⟨-, rfl⟩ := hafter.unique (hvol ▸ hg) hfile
    have hnil : data = [] := eq_nil_of_length_eq_zero
      ((writtenClusters_eq_iff hg hlen).mp (hlen'.symm.trans hceil))
    -- the file had no chain, so what else is missing went to the directory
    have hm : m = [] := by
      rcases hbefore with ⟨f, bs, hfile⟩ | ⟨rfl, -⟩
      · obtain ⟨d', ld', leaf', hnames', hl', hlook'⟩ := hfile.named
        obtain ⟨rfl, rfl⟩ := hnames.unique hg hnames'
        obtain rfl := FatChain.unique hg hl hl'
        cases hnone.symm.trans hlook'
      · rfl
    refine ⟨hnil, hplain, ?_⟩
    rcases hspill with ⟨hplace, -⟩ | ⟨-, new, rfl⟩
    · exact hplace
    · rw [length_append, length_singleton] at hcount
      omega
  · rintro ⟨rfl, hplain, hplace⟩
    have hfile := hat.fileAt hw hd hl hplain hnone hnames hch hlt
    apply writesExactly_nil hg (.inr ⟨rfl, d, ld, leaf, hnames, hl, hnone⟩) hfile hlen'
    rcases hspill with ⟨-, rfl⟩ | ⟨hno, -⟩
    · rw [length_nil]
      omega
    · exact absurd hno hplace

end Cases

/-- A write that returned 1 gives the file the chain that its data fill, and takes and releases no
cluster besides, just where there are no data and the entry is found again and needs no new
cluster of its directory. -/
theorem writes_exactly_iff (st : Fs) (hw : WellFormed st) (path : CString) (data : List UInt8)
    (hlen : data.length < 2 ^ 32) (st' : Fs) (hrun : fsWriteFile st path data = some (true, st')) :
    WritesExactly st st' path data ↔ path ≠ [] ∧ data = [] ∧
      ∀ d ld leaf, st.image.Names path d leaf → st.image.ChainAt d ld →
        lookup leaf [] (st.image.slots ld) = none →
        Plain leaf ∧ createPlace st.vol st.data (lfnCount leaf + 1) ld ≠ none := by
  by_cases hpath : path = []
  · -- the empty path names nothing
    refine iff_of_false ?_ fun h => h.1 hpath
    rintro ⟨l, f, l', bs, -, hafter, -⟩
    obtain ⟨d, ld, leaf, hnames, -⟩ := hafter.named
    exact hnames.1 hpath
  obtain ⟨d, ld, leaf, hnames, hl⟩ : ∃ d ld leaf, st.image.Names path d leaf ∧ st.image.ChainAt d ld := by
    rcases withLeaf_cases false (fun st dir name => fatWriteFile st dir name data false) path hw.ready
      hw.mounted hw.sound with ⟨d, p, leaf, hd, hlead⟩ | ⟨st₁, hwith, -⟩
    · obtain ⟨ld, hl⟩ := hw.sound.dir_chain hd
      exact ⟨d, ld, leaf, hlead.resolve_right fun h => hpath h.1, hl⟩
    · rw [fsWriteFile, hwith] at hrun
      cases hrun
  have honly : ∀ {d' ld' leaf'}, st.image.Names path d' leaf' → st.image.ChainAt d' ld' →
      leaf' = leaf ∧ ld' = ld := by
    intro d' ld' leaf' hnames' hl'
    obtain ⟨rfl, rfl⟩ := hnames.unique hw.ready.geometry hnames'
    exact ⟨rfl, FatChain.unique hw.ready.geometry hl' hl⟩
  cases hlook : lookup leaf [] (st.image.slots ld) with
  | none =>
    rw [writesExactly_new_iff hw hnames hl hlen hrun hlook]
    constructor
    · rintro ⟨hnil, hcond⟩
      refine ⟨hpath, hnil, ?_⟩
      intro d' ld' leaf' hnames' hl' _
      obtain ⟨rfl, rfl⟩ := honly hnames' hl'
      exact hcond
    · rintro ⟨-, hnil, hcond⟩
      exact ⟨hnil, hcond d ld leaf hnames hl hlook⟩
  | some f =>
    rw [writesExactly_found_iff hw hnames hl hlen hrun hlook]
    constructor
    · intro hnil
      refine ⟨hpath, hnil, ?_⟩
      intro d' ld' leaf' hnames' hl' hnone
      obtain ⟨rfl, rfl⟩ := honly hnames' hl'
      cases hlook.symm.trans hnone
    · exact fun h => h.2.1

end Main

/-- A file that is emptied gives its one cluster back. -/
theorem writes_exactly_emptied :
    ∃ st', fsWriteFile oneFile [0x2F, 97] [] = some (true, st') ∧
      WritesExactly oneFile st' [0x2F, 97] [] := by
  have hok : (fsWriteFile oneFile [0x2F, 97] []).map Prod.fst = some true := by decide +kernel
  obtain ⟨⟨ok, st'⟩, hrun, rfl⟩ := Option.map_eq_some_iff.mp hok
  refine ⟨st', hrun, (writes_exactly_iff oneFile oneFile_wellFormed _ [] (by decide) st' hrun).mpr
    ⟨by decide, rfl, ?_⟩⟩
  intro d ld leaf hnames hl hnone
  obtain ⟨d', ld', leaf', hnames', hl', hlook⟩ := oneFile_fileAt.named
  have hg := oneFile_wellFormed.ready.geometry
  obtain ⟨rfl, rfl⟩ := hnames.unique hg hnames'
  obtain rfl := FatChain.unique hg hl hl'
  cases hnone.symm.trans hlook

/-- A file of one cluster that is written with one byte has two clusters, and one cluster less is
free. -/
theorem not_writes_exactly_byte : WellFormed oneFile ∧
    FileAt oneFile [0x2F, 97] ⟨slotOf [65] 0x20 3 2, 2, 0⟩ [3] [7, 8] ∧
    ∃ st' f l' bs, fsWriteFile oneFile [0x2F, 97] [9] = some (true, st') ∧
      FileAt st' [0x2F, 97] f l' bs ∧ l'.length = 2 ∧ st'.freeCount + 1 = oneFile.freeCount ∧
      ¬ WritesExactly oneFile st' [0x2F, 97] [9] := by
  have hok : (fsWriteFile oneFile [0x2F, 97] [9]).map Prod.fst = some true := by decide +kernel
  obtain ⟨⟨ok, st'⟩, hrun, rfl⟩ := Option.map_eq_some_iff.mp hok
  obtain ⟨d, ld, leaf, hnames, hl, hlook⟩ := oneFile_fileAt.named
  have hlen : ([9] : List UInt8).length < 2 ^ 32 := by decide
  obtain ⟨-, l, old, f, l', bs, hfile, hfile', hlen', hcount⟩ :=
    fsWriteFile_found oneFile_wellFormed hnames hl hlook hlen hrun
  obtain ⟨-, rfl⟩ := hfile.unique oneFile_wellFormed.ready.geometry oneFile_fileAt
  have htwo : writtenClusters oneFile.vol 1 = 2 := by decide
  rw [show l'.length = 2 from hlen'.trans htwo, length_singleton] at hcount
  refine ⟨oneFile_wellFormed, oneFile_fileAt, st', f, l', bs, hrun, hfile', hlen'.trans htwo,
    by omega, ?_⟩
  rw [writesExactly_found_iff oneFile_wellFormed hnames hl hlen hrun hlook]
  exact cons_ne_nil _ _

end FusionOS.Fat
