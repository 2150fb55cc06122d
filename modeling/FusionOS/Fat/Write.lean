import FusionOS.Fat.Content
import FusionOS.Fat.Slots

/-!
# Writing a file

The effect of `fat_write_file` behind the lookup.
-/

namespace FusionOS.Fat

open List
open Function (update update_of_ne update_self)

/-- The entry `f` with another chain and size. -/
def Found.withFields (f : Found) (first size : Nat) : Slot :=
  direntSetFileSize (direntSetFirstCluster f.ent first) size

/-- The clusters after the entry `f` has been rewritten in its place. -/
def setEntry (data : Nat → Mem) (f : Found) (e : Slot) : Nat → Mem :=
  update data f.cluster (splice (data f.cluster) f.offset e)

section
variable {st : Fs} {f : Found} (xs : List UInt8)

variable {l l' : List Nat} {needed : Nat} {data : Nat → Mem}

lemma setEntry_of_ne {e : Slot} {c : Nat} (h : c ≠ f.cluster) :
    setEntry data f e c = data c := update_of_ne h _ _

lemma writeData_ok (hr : Ready st) (hp : Place st.vol f.cluster f.offset)
    (h32 : f.ent.length = 32) (offset : Nat) {first last : Nat}
    (h : FatChain st.vol st.fat first l) (hl : l.getLast? = some last) (hout : f.cluster ∉ l) :
    ∃ st', writeData st f xs offset first last = some (true, st') ∧ DiskOnly st st' ∧
      st'.fat = update st.fat last 0x0FFFFFFF ∧ FatChain st.vol st'.fat first l ∧
      st'.data f.cluster =
        splice (st.data f.cluster) f.offset (f.withFields first (u32 (offset + xs.length))) ∧
      (∀ c, c ∉ l → c ≠ f.cluster → st'.data c = st.data c) ∧
      (offset + xs.length + 512 < 2 ^ 32 → ∀ p < l.length * clusterBytes st.vol,
        chainByte (clusterBytes st.vol) st'.data l p =
          overlay xs offset p (chainByte (clusterBytes st.vol) st.data l p)) := by
  have hlast : l.getLast h.ne_nil = last := by
    rw [List.getLast?_eq_some_getLast h.ne_nil] at hl
    exact Option.some.inj hl
  have hmem : last ∈ l := hlast ▸ getLast_mem h.ne_nil
  have hfuel := FatChain.length_lt hr.geometry h
  obtain ⟨st₁, hset, hd1, hfat1, hdata1⟩ := fatSetEntry_ok hr (c := last)
    (Chain.node h _ hmem).2 (show 0x0FFFFFFF < 2 ^ 28 by decide)
  have hch1 : FatChain st₁.vol st₁.fat first l := by
    have := Chain.restop h (h.nodup hr.geometry) (c := 0x0FFFFFFF) (by decide)
    rw [hlast, ← hfat1] at this
    rw [hd1.vol]
    exact this
  obtain ⟨st₂, hrun, hd2, hfat2, hother, hbytes⟩ := writeChain_ok xs offset (hd1.ready hr) (FatChain.walk hch1)
    (u32 (offset + xs.length)) chainFuel 0 (by omega)
  have hd12 := hd1.trans hd2
  have hp2 : Place st₂.vol f.cluster f.offset := by
    rw [hd12.vol]
    exact hp
  obtain ⟨st₃, hupd, hd3, hfat3, hdata3⟩ := fatUpdateDirent_ok (hd12.ready hr) hp2
    (show (f.withFields first (u32 (offset + xs.length))).length = 32 by
      rw [Found.withFields, setFields_length, h32])
  rw [hdata1] at hother
  rw [hd1.vol] at hch1
  refine ⟨st₃, ?_, (hd12.trans hd3).disk, ?_, ?_, ?_, ?_, ?_⟩
  · rw [writeData, hset]
    dsimp only
    rw [hrun]
    exact congrArg some hupd
  · rw [hfat3, hfat2, hfat1]
  · rw [hfat3, hfat2]
    exact hch1
  · rw [hdata3, update_self, hother _ hout]
  · intro c hc hne
    rw [hdata3, update_of_ne hne, hother c hc]
  · intro hneed p hlt
    have hbytes := hbytes (u32_of_lt (by omega)) (by rw [u32_of_lt (by omega)]; exact hneed)
    rw [hd1.vol, hdata1] at hbytes
    have hsame : ∀ c ∈ l, st₃.data c = st₂.data c := by
      intro c hc
      rw [hdata3, update_of_ne]
      rintro rfl
      exact hout hc
    rw [chainByte_congr hlt hsame, hbytes p hlt, Nat.zero_add]

/-- The entry `f`, whose chain was `l`, now has the chain `l'` from `first` on and the size `size`;
nothing else has changed but links of free clusters and of `l`. -/
structure Relinked (st st' : Fs) (f : Found) (l l' : List Nat) (first size : Nat) : Prop where
  disk : DiskOnly st st'
  chain : first = 0 ∧ l' = [] ∨ FatChain st.vol st'.fat first l'
  first_lt : first < 2 ^ 28
  size_lt : size < 2 ^ 32
  entry : st'.data f.cluster = splice (st.data f.cluster) f.offset (f.withFields first size)
  other : ∀ c, c ∉ l' → c ≠ f.cluster → st'.data c = st.data c
  fat : ∀ x, x ∉ l → x ∉ l' → st'.fat x = st.fat x
  fresh : ∀ x ∈ l', x ∈ l ∨ x ∈ freeClusters st.vol st.fat

/-- Moreover the chain holds the contents `bs`. -/
structure Rewritten (st st' : Fs) (f : Found) (l l' : List Nat) (first : Nat) (bs : List UInt8) :
    Prop extends Relinked st st' f l l' first bs.length where
  room : bs.length ≤ l'.length * clusterBytes st.vol
  bytes : fileBytes (clusterBytes st.vol) st'.data l' bs.length = bs

/-- No cluster was left for the entry with the chain `l`: the clusters `taken` hang together, and
those of `l` that are not among them have been released. -/
structure Stranded (st st' : Fs) (l taken : List Nat) : Prop where
  disk : DiskOnly st st'
  data : st'.data = st.data
  chain : ∀ c ∈ taken.head?, FatChain st.vol st'.fat c taken
  fat : ∀ x, x ∉ taken → st'.fat x = freeAll st.fat l x

lemma fileBytes_overlay {cb offset : Nat} {data' : Nat → Mem} (l : List Nat)
    (hold : ∀ p < offset, chainByte cb data l' p = chainByte cb data l p)
    (h : ∀ p < offset + xs.length, chainByte cb data' l' p =
      overlay xs offset p (chainByte cb data l' p)) :
    fileBytes cb data' l' (offset + xs.length) = fileBytes cb data l offset ++ xs := by
  apply ext_getElem
  · simp
  · intro p h1 h2
    have hp : p < offset + xs.length := by simpa using h1
    rw [fileBytes_getElem, h p hp]
    by_cases hlt : p < offset
    · rw [getElem_append_left (by simpa using hlt), fileBytes_getElem, overlay,
        if_neg (by omega), hold p hlt]
    · rw [getElem_append_right (by simpa using hlt), overlay, if_pos (by omega),
        getD_eq_getElem _ _ (by omega)]
      simp only [fileBytes_length]

lemma chainByte_append {cb p : Nat}
    (hp : p < l.length * cb) : chainByte cb data (l ++ l') p = chainByte cb data l p := by
  have hlt : p / cb < l.length := Nat.div_lt_of_lt_mul (by rw [Nat.mul_comm]; exact hp)
  unfold chainByte
  rw [getD_append _ _ _ _ hlt]

lemma getLast?_append_ne_nil {α : Type} {l : List α} (l' : List α) (h : l ≠ []) :
    ∃ x, (l ++ l').getLast? = some x :=
  ⟨_, List.getLast?_eq_some_getLast (append_ne_nil_of_left_ne_nil h l')⟩

/-! ## Keeping the chain -/

section Append
-- `start` is a variable here: with the first cluster of an entry in its place the kernel computes the loops
variable {st₁ st₂ st₃ : Fs} {start last existing needed : Nat}
  (hlast : lastLoop chainFuel start st = some (last, st₁))
  (hcount : countLoop chainFuel start 0 st₁ = some (existing, st₂))
include hlast hcount

lemma appendFile_short (hext : extendLoop (needed - existing) last st₂ = (none, st₃)) :
    appendFile st f xs start needed = some (false, st₃) := by
  simp only [appendFile, hlast, hcount, hext]

lemma appendFile_long {last' : Nat} (hext : extendLoop (needed - existing) last st₂ = (some last', st₃)) :
    appendFile st f xs start needed = writeData st₃ f xs (direntFileSize f.ent) start last' := by
  simp only [appendFile, hlast, hcount, hext]

end Append

lemma appendFile_extend (hr : Ready st)
    (h : FatChain st.vol st.fat (direntFirstCluster f.ent) l) (needed : Nat) :
    ∃ st₁, Quiet st st₁ ∧
      (∀ st₂, extendLoop (needed - l.length) (l.getLast h.ne_nil) st₁ = (none, st₂) →
        appendFile st f xs (direntFirstCluster f.ent) needed = some (false, st₂)) ∧
      ∀ last st₂, extendLoop (needed - l.length) (l.getLast h.ne_nil) st₁ = (some last, st₂) →
        appendFile st f xs (direntFirstCluster f.ent) needed =
          writeData st₂ f xs (direntFileSize f.ent) (direntFirstCluster f.ent) last := by
  have hfuel := FatChain.length_lt hr.geometry h
  obtain ⟨st₁, hlast, hq1⟩ := lastLoop_ok hr h chainFuel (by omega)
  have h1 := hq1.chain h
  obtain ⟨st₂, hcount, hq2⟩ := countLoop_ok (hq1.ready hr) h1 chainFuel 0 (by omega)
  rw [Nat.zero_add] at hcount
  refine ⟨st₂, hq1.trans hq2, ?_, ?_⟩
  · intro st₃ hext
    exact appendFile_short xs hlast hcount hext
  · intro last st₃ hext
    exact appendFile_long xs hlast hcount hext

lemma appendFile_full (hr : Ready st)
    (h : FatChain st.vol st.fat (direntFirstCluster f.ent) l)
    (hfull : (freeClusters st.vol st.fat).length < needed - l.length) :
    ∃ st', appendFile st f xs (direntFirstCluster f.ent) needed = some (false, st') ∧
      Stranded st st' l (l ++ freeClusters st.vol st.fat) := by
  obtain ⟨st₁, hq, happ, -⟩ := appendFile_extend xs hr h needed
  have h1 := hq.chain h
  obtain ⟨st₂, hext, hd, hdata, hch, -, hfat⟩ := extendLoop_ok (hq.ready hr) h1
    (List.getLast?_eq_some_getLast h.ne_nil) (needed - l.length)
  rw [hq.vol, hq.fat] at hext hch hfat
  rw [take_of_length_le (Nat.le_of_lt hfull)] at hch hfat
  rw [if_neg (by omega)] at hext
  refine ⟨st₂, happ st₂ hext, hq.diskOnly.trans hd.disk, by rw [hdata, hq.data], ?_, ?_⟩
  · intro c hc
    obtain ⟨t, ht⟩ := hch.eq_cons
    rw [ht, List.head?_cons, Option.mem_some_iff] at hc
    rw [← hc]
    exact hch
  · intro x hx
    rw [mem_append, not_or] at hx
    rw [freeAll, if_neg hx.1, hfat x hx.2]
    rintro rfl
    exact hx.1 (getLast_mem _)

lemma appendFile_ok (hr : Ready st) (hp : Place st.vol f.cluster f.offset)
    (h32 : f.ent.length = 32)
    (h : FatChain st.vol st.fat (direntFirstCluster f.ent) l) (hout : f.cluster ∉ l)
    (hused : st.fat f.cluster ≠ 0)
    (hroom : needed - l.length ≤ (freeClusters st.vol st.fat).length) :
    ∃ st' l', appendFile st f xs (direntFirstCluster f.ent) needed = some (true, st') ∧
      l' = l ++ (freeClusters st.vol st.fat).take (needed - l.length) ∧
      Relinked st st' f l l' (direntFirstCluster f.ent) (u32 (direntFileSize f.ent + xs.length)) ∧
      (direntFileSize f.ent + xs.length + 512 < 2 ^ 32 → ∀ p < l'.length * clusterBytes st.vol,
        chainByte (clusterBytes st.vol) st'.data l' p =
          overlay xs (direntFileSize f.ent) p (chainByte (clusterBytes st.vol) st.data l' p)) := by
  obtain ⟨st₁, hq, -, happ⟩ := appendFile_extend xs hr h needed
  have h1 := hq.chain h
  obtain ⟨st₂, hext, hd, hdata, hch, -, hfat⟩ := extendLoop_ok (hq.ready hr) h1
    (List.getLast?_eq_some_getLast h.ne_nil) (needed - l.length)
  rw [hq.vol, hq.fat] at hext hch hfat
  rw [if_pos hroom] at hext
  set new := (freeClusters st.vol st.fat).take (needed - l.length) with hnew
  have hsub : ∀ x ∈ new, x ∈ freeClusters st.vol st.fat := fun x hx => mem_of_mem_take hx
  obtain ⟨last, hlast⟩ := getLast?_append_ne_nil new h.ne_nil
  have hd2 := hq.diskOnly.trans hd.disk
  have hout2 : f.cluster ∉ l ++ new := by
    intro hmem
    rcases mem_append.mp hmem with hm | hm
    · exact hout hm
    · exact hused (mem_freeClusters.mp (hsub _ hm)).2
  have hch2 : FatChain st₂.vol st₂.fat (direntFirstCluster f.ent) (l ++ new) := by
    rw [hd2.vol]
    exact hch
  obtain ⟨st₃, hw, hd3, hfat3, hch3, hent, hother, hbytes⟩ := writeData_ok xs (hd2.ready hr)
    (by rw [hd2.vol]; exact hp) h32 (direntFileSize f.ent) hch2 hlast hout2
  have hdata2 : st₂.data = st.data := hdata.trans hq.data
  rw [hd2.vol] at hch3 hbytes
  rw [hdata2] at hent hother hbytes
  rw [hlast] at hext
  refine ⟨st₃, l ++ new, (happ last st₂ hext).trans hw, rfl,
    ⟨hd2.trans hd3, .inr hch3, ?_, Nat.mod_lt _ (by decide), hent, hother, ?_, ?_⟩, hbytes⟩
  · have := (isCluster_guard hr.geometry h.node_head).2
    unfold eoc at this
    omega
  · intro x hx hx'
    rw [mem_append, not_or] at hx'
    rw [hfat3, update_of_ne, hfat x hx'.2]
    · rintro rfl
      exact hx (getLast_mem _)
    · rintro rfl
      rcases mem_append.mp (mem_of_getLast? hlast) with hm | hm
      · exact hx hm
      · exact hx'.2 hm
  · intro x hx
    rcases mem_append.mp hx with hm | hm
    · exact .inl hm
    · exact .inr (hsub x hm)

/-! ## A new chain -/

lemma rewriteFile_extend (hr : Ready st) {c : Nat} {fs : List Nat}
    (hfree : freeClusters st.vol st.fat = c :: fs) (needed : Nat) :
    ∃ st₁ st₂, fatAllocCluster st = (some c, st₁) ∧
      extendLoop needed c st₁ =
        (if needed ≤ fs.length then (c :: fs.take needed).getLast? else none, st₂) ∧
      DiskOnly st st₂ ∧ st₂.data = st.data ∧ FatChain st.vol st₂.fat c (c :: fs.take needed) ∧
      ∀ x, x ∉ c :: fs.take needed → st₂.fat x = st.fat x := by
  obtain ⟨st₁, halloc, hd1, hfat1, hdata1⟩ := fatAllocCluster_some hr hfree
  have hcl : st.vol.IsCluster c := isCluster_of_free (by rw [hfree]; exact mem_cons_self)
  have hfs : freeClusters st₁.vol st₁.fat = fs := by
    rw [hd1.vol, hfat1]
    exact freeClusters_take hfree (by decide)
  have hch1 : FatChain st₁.vol st₁.fat c [c] := by
    rw [hd1.vol]
    apply Chain.last hcl
    rw [hfat1, update_self]
    decide
  obtain ⟨st₂, hext, hd2, hdata2, hch2, -, hfat2⟩ := extendLoop_ok (hd1.ready hr) hch1 rfl needed
  rw [hfs] at hext hch2 hfat2
  rw [hd1.vol] at hch2
  refine ⟨st₁, st₂, halloc, hext, (hd1.trans hd2).disk, hdata2.trans hdata1, hch2, ?_⟩
  intro x hx
  rw [mem_cons, not_or] at hx
  rw [hfat2 x hx.2 hx.1, hfat1, update_of_ne hx.1]

lemma rewriteFile_full (hr : Ready st)
    (hfull : (freeClusters st.vol st.fat).length < needed + 1) :
    ∃ st', rewriteFile st f xs needed = some (false, st') ∧
      Stranded st st' [] (freeClusters st.vol st.fat) := by
  have hnil : ∀ x, freeAll st.fat [] x = st.fat x := fun x => if_neg not_mem_nil
  cases hfree : freeClusters st.vol st.fat with
  | nil =>
    obtain ⟨st', halloc, hq⟩ := fatAllocCluster_none hr hfree
    refine ⟨st', by rw [rewriteFile, halloc], hq.diskOnly, hq.data, nofun, ?_⟩
    intro x _
    rw [hq.fat, hnil]
  | cons c fs =>
    rw [hfree, length_cons] at hfull
    obtain ⟨st₁, st₂, halloc, hext, hd, hdata, hch, hfat⟩ := rewriteFile_extend hr hfree needed
    rw [if_neg (by omega)] at hext
    rw [take_of_length_le (by omega)] at hch hfat
    refine ⟨st₂, ?_, hd, hdata, ?_, fun x hx => by rw [hfat x hx, hnil]⟩
    · rw [rewriteFile, halloc]
      dsimp only
      rw [hext]
    · intro a ha
      rw [List.head?_cons, Option.mem_some_iff] at ha
      rw [← ha]
      exact hch

lemma rewriteFile_ok (hr : Ready st) (hp : Place st.vol f.cluster f.offset)
    (h32 : f.ent.length = 32) (hused : st.fat f.cluster ≠ 0)
    (hroom : needed + 1 ≤ (freeClusters st.vol st.fat).length) :
    ∃ first st' l', rewriteFile st f xs needed = some (true, st') ∧
      l' = (freeClusters st.vol st.fat).take (needed + 1) ∧
      Relinked st st' f [] l' first (u32 xs.length) ∧
      (xs.length + 512 < 2 ^ 32 → ∀ p < l'.length * clusterBytes st.vol,
        chainByte (clusterBytes st.vol) st'.data l' p =
          overlay xs 0 p (chainByte (clusterBytes st.vol) st.data l' p)) := by
  cases hfree : freeClusters st.vol st.fat with
  | nil =>
    rw [hfree, length_nil] at hroom
    omega
  | cons c fs =>
    rw [hfree, length_cons] at hroom
    obtain ⟨st₁, st₂, halloc, hext, hd, hdata, hch, hfat⟩ := rewriteFile_extend hr hfree needed
    have hsub : ∀ x ∈ c :: fs.take needed, x ∈ freeClusters st.vol st.fat := by
      intro x hx
      rw [hfree]
      rcases mem_cons.mp hx with rfl | hx
      · exact mem_cons_self
      · exact mem_cons_of_mem _ (mem_of_mem_take hx)
    have hout : f.cluster ∉ c :: fs.take needed := fun hm =>
      hused (mem_freeClusters.mp (hsub _ hm)).2
    obtain ⟨last, hlast⟩ : ∃ x, (c :: fs.take needed).getLast? = some x :=
      ⟨_, List.getLast?_eq_some_getLast (cons_ne_nil _ _)⟩
    have hch2 : FatChain st₂.vol st₂.fat c (c :: fs.take needed) := by
      rw [hd.vol]
      exact hch
    obtain ⟨st₃, hw, hd3, hfat3, hch3, hent, hother, hbytes⟩ := writeData_ok xs (hd.ready hr)
      (by rw [hd.vol]; exact hp) h32 0 hch2 hlast hout
    rw [hd.vol] at hch3 hbytes
    rw [hdata] at hent hother hbytes
    rw [Nat.zero_add] at hent hbytes
    rw [if_pos (by omega), hlast] at hext
    refine ⟨c, st₃, c :: fs.take needed, ?_, rfl,
      ⟨hd.trans hd3, .inr hch3, ?_, Nat.mod_lt _ (by decide), hent, hother, ?_, ?_⟩, hbytes⟩
    · rw [rewriteFile, halloc]
      dsimp only
      rw [hext]
      exact hw
    · have := (isCluster_guard hr.geometry hch.node_head).2
      unfold eoc at this
      omega
    · intro x _ hx
      rw [hfat3, update_of_ne, hfat x hx]
      rintro rfl
      exact hx (mem_of_getLast? hlast)
    · intro x hx
      exact .inr (hsub x hx)

end

/-! ## The whole call -/

def HasChain (v : Volume) (fat : Nat → Nat) (first : Nat) (l : List Nat) : Prop :=
  first = 0 ∧ l = [] ∨ first ≠ 0 ∧ FatChain v fat first l

/-- The clusters that a write without enough room takes, for a file with the chain `l`. -/
def takenClusters (v : Volume) (fat : Nat → Nat) (l : List Nat) (append : Bool) : List Nat :=
  if append then l ++ freeClusters v fat else freeClusters v (freeAll fat l)

/-- The number of clusters in the chain of a file of `n` bytes that has been written anew. -/
def writtenClusters (v : Volume) (n : Nat) : Nat :=
  if neededClusters v n = 0 then 0 else neededClusters v n + 1

/-- What a write on the entry `f` with the chain `l` can end in: the entry has a new chain, which
holds `bs` provided that `bound` keeps the sizes in range, or no cluster was left. A chain made
`anew` has `n` clusters, and those of `l` that are not among them are free. -/
inductive Outcome (st : Fs) (f : Found) (l taken : List Nat) (anew : Prop) (n : Nat) (bound : Prop)
    (bs : List UInt8) : Option (Bool × Fs) → Prop where
  | written {st' : Fs} {l' : List Nat} {first size : Nat} : Relinked st st' f l l' first size →
      (bound → Rewritten st st' f l l' first bs) →
      (anew → l'.length = n ∧ ∀ x ∈ l, x ∉ l' → st'.fat x = 0) →
      Outcome st f l taken anew n bound bs (some (true, st'))
  | stranded {st' : Fs} : Stranded st st' l taken →
      Outcome st f l taken anew n bound bs (some (false, st'))

variable {v : Volume}

lemma neededClusters_eq {n : Nat} (hcb : 0 < clusterBytes v)
    (h : n + clusterBytes v ≤ 2 ^ 32) :
    neededClusters v n = (n + clusterBytes v - 1) / clusterBytes v := by
  have hu : u32 (n + clusterBytes v + (2 ^ 32 - 1)) = n + clusterBytes v - 1 := by
    unfold u32
    omega
  rw [neededClusters, hu]

lemma le_neededClusters {n : Nat} (hcb : 0 < clusterBytes v)
    (h : n + clusterBytes v ≤ 2 ^ 32) : n ≤ neededClusters v n * clusterBytes v := by
  rw [neededClusters_eq hcb h]
  have := Nat.lt_mul_div_succ (n + clusterBytes v - 1) hcb
  rw [Nat.mul_add, Nat.mul_one, Nat.mul_comm] at this
  omega

section
variable {st st' : Fs} {f : Found}

variable {l : List Nat}

lemma Rewritten.empty (hr : Ready st) (hp : Place st.vol f.cluster f.offset)
    (h32 : f.ent.length = 32) (l : List Nat) :
    ∃ st', fatUpdateDirent st f.cluster f.offset (f.withFields 0 0) = (true, st') ∧
      Rewritten st st' f l [] 0 [] := by
  obtain ⟨st', hupd, hd, hfat, hdata⟩ := fatUpdateDirent_ok hr hp
    (show (f.withFields 0 0).length = 32 by rw [Found.withFields, setFields_length, h32])
  refine ⟨st', hupd, ⟨hd.disk, .inl ⟨rfl, rfl⟩, by decide, by decide, ?_, ?_, fun x _ _ => by rw [hfat], ?_⟩,
    Nat.zero_le _, rfl⟩
  · rw [hdata, update_self]
    rfl
  · intro c _ hne
    rw [hdata, update_of_ne hne]
  · intro x hx
    cases hx

section Freed
variable {st₁ : Fs} {l : List Nat} (hd : DiskOnly st st₁) (hfat : st₁.fat = freeAll st.fat l)
  (hdata : st₁.data = st.data)
include hd hfat hdata

lemma Relinked.of_freed {l' : List Nat} {first size : Nat}
    (h : Relinked st₁ st' f [] l' first size) : Relinked st st' f l l' first size := by
  have hvol := hd.vol
  refine ⟨hd.trans h.disk, ?_, h.first_lt, h.size_lt, ?_, ?_, ?_, ?_⟩
  · rw [← hvol]
    exact h.chain
  · rw [h.entry, hdata]
  · intro c hc hne
    rw [h.other c hc hne, hdata]
  · intro x hx hx'
    rw [h.fat x not_mem_nil hx', hfat, freeAll, if_neg hx]
  · intro x hx
    rcases h.fresh x hx with hn | hfree
    · cases hn
    · obtain ⟨hrange, h0⟩ := mem_freeClusters.mp hfree
      rw [hfat, freeAll] at h0
      rw [hvol] at hrange
      by_cases hxl : x ∈ l
      · exact .inl hxl
      · rw [if_neg hxl] at h0
        exact .inr (mem_freeClusters.mpr ⟨hrange, h0⟩)

lemma Outcome.of_freed {anew bound : Prop} {n : Nat} {bs : List UInt8} {r : Option (Bool × Fs)}
    (h : Outcome st₁ f [] (freeClusters st₁.vol st₁.fat) anew n bound bs r) :
    Outcome st f l (freeClusters st.vol (freeAll st.fat l)) anew n bound bs r := by
  cases h with
  | written hlink hbytes hanew =>
    refine .written (hlink.of_freed hd hfat hdata) (fun hb => ?_) fun ha => ⟨(hanew ha).1, ?_⟩
    · obtain ⟨hlink', hroom, hbytes⟩ := hbytes hb
      rw [hd.vol] at hroom hbytes
      exact ⟨hlink'.of_freed hd hfat hdata, hroom, hbytes⟩
    · intro x hx hx'
      rw [hlink.fat x not_mem_nil hx', hfat, freeAll, if_pos hx]
  | stranded h =>
    rw [← hd.vol, ← hfat]
    refine .stranded ⟨hd.trans h.disk, h.data.trans hdata, ?_, ?_⟩
    · rw [← hd.vol]
      exact h.chain
    · intro x hx
      rw [h.fat x hx, ← hfat, freeAll, if_neg not_mem_nil]

end Freed

variable (xs : List UInt8)

lemma rewrite_outcome (hr : Ready st) (hp : Place st.vol f.cluster f.offset)
    (h32 : f.ent.length = 32) (hused : st.fat f.cluster ≠ 0) :
    Outcome st f [] (freeClusters st.vol st.fat) True (writtenClusters st.vol (u32 xs.length))
      (xs.length + clusterBytes st.vol < 2 ^ 32) xs
      (if neededClusters st.vol (u32 xs.length) = 0 then
        some (fatUpdateDirent st f.cluster f.offset (f.withFields 0 0))
      else rewriteFile st f xs (neededClusters st.vol (u32 xs.length))) := by
  have hcb := clusterBytes_ge hr.geometry
  have hlen : xs.length + clusterBytes st.vol < 2 ^ 32 →
      xs.length ≤ neededClusters st.vol (u32 xs.length) * clusterBytes st.vol := by
    intro hb
    rw [u32_of_lt (show xs.length < 2 ^ 32 by omega)]
    exact le_neededClusters (by omega) (by omega)
  split
  · next h0 =>
    obtain ⟨st₁, hupd, hrw⟩ := Rewritten.empty hr hp h32 []
    rw [hupd]
    refine .written hrw.toRelinked (fun hb => ?_) fun _ => ⟨(if_pos h0).symm, fun _ hx => by cases hx⟩
    have hnil : xs = [] := by
      have := hlen hb
      rw [h0, Nat.zero_mul] at this
      exact eq_nil_of_length_eq_zero (by omega)
    rw [hnil]
    exact hrw
  · next h0 =>
    rcases Nat.lt_or_ge (freeClusters st.vol st.fat).length
        (neededClusters st.vol (u32 xs.length) + 1) with hlt | hge
    · obtain ⟨st₁, hfail, hstr⟩ := rewriteFile_full (f := f) xs hr hlt
      rw [hfail]
      exact .stranded hstr
    · obtain ⟨first, st₁, l', hok, hl', hlink, hbytes⟩ := rewriteFile_ok xs hr hp h32 hused hge
      rw [hok]
      have hcount : l'.length = neededClusters st.vol (u32 xs.length) + 1 := by
        rw [hl', length_take, Nat.min_eq_left hge]
      refine .written hlink (fun hb => ?_) fun _ => ⟨?_, fun _ hx => by cases hx⟩
      swap
      · rw [hcount, writtenClusters, if_neg h0]
      rw [u32_of_lt (show xs.length < 2 ^ 32 by omega)] at hlink
      have hroom : xs.length ≤ l'.length * clusterBytes st.vol := by
        refine Nat.le_trans (hlen hb) (Nat.mul_le_mul_right _ ?_)
        omega
      refine ⟨hlink, hroom, ?_⟩
      have := fileBytes_overlay xs [] (fun p hp => absurd hp (Nat.not_lt_zero p))
        (fun p hp => hbytes (by omega) p (by omega))
      rw [Nat.zero_add] at this
      exact this

lemma append_outcome (hr : Ready st) (hp : Place st.vol f.cluster f.offset)
    (h32 : f.ent.length = 32)
    (h : FatChain st.vol st.fat (direntFirstCluster f.ent) l) (hout : f.cluster ∉ l)
    (hused : st.fat f.cluster ≠ 0) :
    Outcome st f l (l ++ freeClusters st.vol st.fat) False 0
      (direntFileSize f.ent ≤ l.length * clusterBytes st.vol ∧
        direntFileSize f.ent + xs.length + clusterBytes st.vol < 2 ^ 32)
      (fileBytes (clusterBytes st.vol) st.data l (direntFileSize f.ent) ++ xs)
      (if neededClusters st.vol (u32 (direntFileSize f.ent + xs.length)) = 0 then
        some (fatUpdateDirent st f.cluster f.offset (f.withFields 0 0))
      else appendFile st f xs (direntFirstCluster f.ent)
        (neededClusters st.vol (u32 (direntFileSize f.ent + xs.length)))) := by
  have hcb := clusterBytes_ge hr.geometry
  set size := direntFileSize f.ent with hsize
  have hlen : size + xs.length + clusterBytes st.vol < 2 ^ 32 → size + xs.length ≤
      neededClusters st.vol (u32 (size + xs.length)) * clusterBytes st.vol := by
    intro hb
    rw [u32_of_lt (show size + xs.length < 2 ^ 32 by omega)]
    exact le_neededClusters (by omega) (by omega)
  split
  · next h0 =>
    obtain ⟨st₁, hupd, hrw⟩ := Rewritten.empty hr hp h32 l
    rw [hupd]
    refine .written hrw.toRelinked (fun hb => ?_) False.elim
    have hzero := hlen hb.2
    rw [h0, Nat.zero_mul] at hzero
    rw [show size = 0 by omega, eq_nil_of_length_eq_zero (show xs.length = 0 by omega)]
    exact hrw
  · rcases Nat.lt_or_ge (freeClusters st.vol st.fat).length
        (neededClusters st.vol (u32 (size + xs.length)) - l.length) with hlt | hge
    · obtain ⟨st₁, hfail, hstr⟩ := appendFile_full xs hr h hlt
      rw [hfail]
      exact .stranded hstr
    · obtain ⟨st₁, l', hok, hl', hlink, hbytes⟩ := appendFile_ok xs hr hp h32 h hout hused hge
      rw [hok]
      refine .written hlink (fun hb => ?_) False.elim
      have hbs : (fileBytes (clusterBytes st.vol) st.data l size ++ xs).length =
          size + xs.length := by simp
      rw [← hsize, u32_of_lt (show size + xs.length < 2 ^ 32 by omega), ← hbs] at hlink
      have hroom : size + xs.length ≤ l'.length * clusterBytes st.vol := by
        refine Nat.le_trans (hlen hb.2) (Nat.mul_le_mul_right _ ?_)
        rw [hl', length_append, length_take, Nat.min_eq_left hge]
        exact Nat.sub_le_iff_le_add'.mp (Nat.le_refl _)
      refine ⟨hlink, by rw [hbs]; exact hroom, ?_⟩
      rw [hbs]
      apply fileBytes_overlay
      · intro p hp
        rw [hl']
        exact chainByte_append (by omega)
      · intro p hp
        exact hbytes (by omega) p (by omega)

lemma Outcome.mono {taken : List Nat} {anew anew' bound bound' : Prop} {n n' : Nat} {bs bs' : List UInt8}
    {r : Option (Bool × Fs)} (h : Outcome st f l taken anew n bound bs r)
    (ha : anew' → anew ∧ n' = n) (hb : bound' → bound ∧ bs' = bs) :
    Outcome st f l taken anew' n' bound' bs' r := by
  cases h with
  | written hlink hbytes hanew =>
    refine .written hlink (fun hb' => ?_) fun ha' => ?_
    · rw [(hb hb').2]
      exact hbytes (hb hb').1
    · rw [(ha ha').2]
      exact hanew (ha ha').1
  | stranded h => exact .stranded h

lemma fatWriteEntry_dir (hdir : direntIsDir f.ent = true) (append : Bool) :
    fatWriteEntry st f xs append = some (false, st) := by
  rw [fatWriteEntry, if_pos hdir]

lemma fatWriteEntry_keep (hdir : direntIsDir f.ent = false) (hne : direntFirstCluster f.ent ≠ 0) :
    fatWriteEntry st f xs true =
      if neededClusters st.vol (u32 (direntFileSize f.ent + xs.length)) = 0 then
        some (fatUpdateDirent st f.cluster f.offset (f.withFields 0 0))
      else appendFile st f xs (direntFirstCluster f.ent)
        (neededClusters st.vol (u32 (direntFileSize f.ent + xs.length))) := by
  have hfile : ¬ direntIsDir f.ent = true := Bool.eq_false_iff.mp hdir
  rw [fatWriteEntry, if_neg hfile, if_pos ⟨rfl, hne⟩, Found.withFields]

lemma fatWriteEntry_rewrite (hdir : direntIsDir f.ent = false) {append : Bool}
    (h : ¬ (append = true ∧ direntFirstCluster f.ent ≠ 0)) :
    fatWriteEntry st f xs append =
      (if direntFirstCluster f.ent ≠ 0 then fatFreeChain st (direntFirstCluster f.ent)
        else some (true, st)).bind fun r =>
        if neededClusters r.2.vol (u32 xs.length) = 0 then
          some (fatUpdateDirent r.2 f.cluster f.offset (f.withFields 0 0))
        else rewriteFile r.2 f xs (neededClusters r.2.vol (u32 xs.length)) := by
  have hfile : ¬ direntIsDir f.ent = true := Bool.eq_false_iff.mp hdir
  rw [fatWriteEntry, if_neg hfile, if_neg h, Found.withFields]
  generalize (if direntFirstCluster f.ent ≠ 0 then fatFreeChain st (direntFirstCluster f.ent)
    else some (true, st)) = freed
  cases freed with
  | none => rw [Option.bind_none]
  | some r =>
    obtain ⟨b, st₁⟩ := r
    rw [Option.bind_some]

lemma fatWriteEntry_freed (hr : Ready st) (hdir : direntIsDir f.ent = false)
    (hch : HasChain st.vol st.fat (direntFirstCluster f.ent) l) {append : Bool}
    (h : ¬ (append = true ∧ direntFirstCluster f.ent ≠ 0)) :
    ∃ st₁, DiskOnly st st₁ ∧ st₁.fat = freeAll st.fat l ∧ st₁.data = st.data ∧
      fatWriteEntry st f xs append =
        if neededClusters st₁.vol (u32 xs.length) = 0 then
          some (fatUpdateDirent st₁ f.cluster f.offset (f.withFields 0 0))
        else rewriteFile st₁ f xs (neededClusters st₁.vol (u32 xs.length)) := by
  rw [fatWriteEntry_rewrite xs hdir h]
  rcases hch with ⟨h0, rfl⟩ | ⟨hne, hch⟩
  · refine ⟨st, DiskOnly.refl st, ?_, rfl, ?_⟩
    · funext x
      rw [freeAll, if_neg not_mem_nil]
    · rw [if_neg (not_not.mpr h0), Option.bind_some]
  · obtain ⟨st₁, hfreed, hd, hfat, hdata⟩ := fatFreeChain_ok hr hch
    refine ⟨st₁, hd.disk, hfat, hdata, ?_⟩
    rw [if_pos hne, hfreed, Option.bind_some]

lemma fatWriteEntry_outcome (hr : Ready st) (hp : Place st.vol f.cluster f.offset)
    (h32 : f.ent.length = 32) (hdir : direntIsDir f.ent = false)
    (hch : HasChain st.vol st.fat (direntFirstCluster f.ent) l) (hout : f.cluster ∉ l)
    (hused : st.fat f.cluster ≠ 0) (append : Bool) :
    Outcome st f l (takenClusters st.vol st.fat l append)
      (¬ (append = true ∧ direntFirstCluster f.ent ≠ 0)) (writtenClusters st.vol (u32 xs.length))
      (direntFileSize f.ent ≤ l.length * clusterBytes st.vol ∧
        (if append then direntFileSize f.ent else 0) + xs.length + clusterBytes st.vol < 2 ^ 32)
      (if append then
        fileBytes (clusterBytes st.vol) st.data l (direntFileSize f.ent) ++ xs else xs)
      (fatWriteEntry st f xs append) := by
  by_cases hkeep : append = true ∧ direntFirstCluster f.ent ≠ 0
  · obtain ⟨rfl, hne⟩ := hkeep
    rw [fatWriteEntry_keep xs hdir hne]
    exact (append_outcome xs hr hp h32 (hch.resolve_left fun h => hne h.1).2 hout hused).mono
      (fun h => absurd ⟨rfl, hne⟩ h) fun h => ⟨h, rfl⟩
  obtain ⟨st₁, hd, hfat, hdata, hrun⟩ := fatWriteEntry_freed xs hr hdir hch hkeep
  have hused1 : st₁.fat f.cluster ≠ 0 := by
    rw [hfat, freeAll, if_neg hout]
    exact hused
  have hnew := rewrite_outcome xs (hd.ready hr) (by rw [hd.vol]; exact hp) h32 hused1
  rw [← hrun] at hnew
  have hout := hnew.of_freed hd hfat hdata
  rw [hd.vol] at hout
  cases append with
  | false => exact hout.mono (fun _ => ⟨trivial, rfl⟩) fun hb => ⟨by have := hb.2; simpa using this, rfl⟩
  | true =>
    -- no chain: appending and rewriting are the same
    have h0 : direntFirstCluster f.ent = 0 := by
      by_contra hne
      exact hkeep ⟨rfl, hne⟩
    obtain rfl : l = [] := by
      rcases hch with ⟨-, hnil⟩ | ⟨hne, -⟩
      · exact hnil
      · exact absurd h0 hne
    have htaken : takenClusters st.vol st.fat [] true = freeClusters st.vol (freeAll st.fat []) :=
      (freeClusters_congr fun x _ _ => by rw [freeAll, if_neg not_mem_nil]).symm
    rw [htaken]
    refine hout.mono (fun _ => ⟨trivial, rfl⟩) fun hb => ⟨by have := hb.2; omega, ?_⟩
    have hs0 : direntFileSize f.ent = 0 := by simpa using hb.1
    rw [hs0]
    rfl

end

end FusionOS.Fat
