import Mathlib.Data.List.GetD
import FusionOS.Fat.Scan

/-!
# Changing slots

What a write to a cluster does to the slots of a directory, and the fields of a
directory entry under the setters of `fs.c`.
-/

namespace FusionOS.Fat

open List
open Function (update update_of_ne update_self)

/-! ## Fields -/

section Fields
variable {e : Slot}

@[simp] lemma setLe16_length (i v : Nat) : (setLe16 e i v).length = e.length := by
  simp [setLe16]

lemma setLe16_getD (i v j : Nat) (h : i + 1 < e.length) :
    (setLe16 e i v).getD j 0 =
      if j = i then UInt8.ofNat v else if j = i + 1 then UInt8.ofNat (v / 256) else e.getD j 0 := by
  unfold setLe16
  simp only [getD_eq_getElem?_getD, List.getElem?_set, length_set]
  by_cases hi : j = i
  · subst hi
    simp [show j < e.length by omega]
  · by_cases hj : j = i + 1
    · subst hj
      simp [h]
    · simp [hi, hj, Ne.symm hi, Ne.symm hj]

lemma le16At_setLe16 {i v : Nat} (h : i + 1 < e.length) : le16At (setLe16 e i v) i = v % 65536 := by
  rw [le16At, setLe16_getD _ _ _ h, setLe16_getD _ _ _ h, if_pos rfl, if_neg (by omega), if_pos rfl,
    UInt8.toNat_ofNat', UInt8.toNat_ofNat']
  omega

lemma le16At_setLe16_ne {i j v : Nat} (h : i + 1 < e.length) (hj : j + 1 < i ∨ i + 1 < j) :
    le16At (setLe16 e i v) j = le16At e j := by
  rw [le16At, le16At, setLe16_getD _ _ _ h, setLe16_getD _ _ _ h, if_neg (by omega),
    if_neg (by omega), if_neg (by omega), if_neg (by omega)]

variable (h32 : e.length = 32)
include h32

lemma firstCluster_setFirstCluster {c : Nat} (hc : c < 2 ^ 32) :
    direntFirstCluster (direntSetFirstCluster e c) = c := by
  unfold direntFirstCluster direntSetFirstCluster
  rw [le16At_setLe16_ne (by simp [h32]) (by omega), le16At_setLe16 (by simp [h32]),
    le16At_setLe16 (by simp [h32])]
  omega

lemma firstCluster_setFileSize (v : Nat) :
    direntFirstCluster (direntSetFileSize e v) = direntFirstCluster e := by
  unfold direntFirstCluster direntSetFileSize
  rw [le16At_setLe16_ne (by simp [h32]) (by omega), le16At_setLe16_ne (by simp [h32]) (by omega),
    le16At_setLe16_ne (by simp [h32]) (by omega), le16At_setLe16_ne (by simp [h32]) (by omega)]

lemma fileSize_setFileSize {v : Nat} (hv : v < 2 ^ 32) :
    direntFileSize (direntSetFileSize e v) = v := by
  unfold direntFileSize direntSetFileSize le32At
  rw [le16At_setLe16_ne (by simp [h32]) (by omega), le16At_setLe16 (by simp [h32]),
    le16At_setLe16 (by simp [h32])]
  omega

omit h32 in
lemma take_setLe16 {i v k : Nat} (hk : k ≤ i) : (setLe16 e i v).take k = e.take k := by
  unfold setLe16
  rw [take_set_of_le (by omega), take_set_of_le (by omega)]

omit h32 in
lemma take_setFields (c v : Nat) :
    (direntSetFileSize (direntSetFirstCluster e c) v).take 12 = e.take 12 := by
  unfold direntSetFileSize direntSetFirstCluster
  rw [take_setLe16 (by omega), take_setLe16 (by omega), take_setLe16 (by omega),
    take_setLe16 (by omega)]

omit h32 in
@[simp] lemma setFields_length (c v : Nat) :
    (direntSetFileSize (direntSetFirstCluster e c) v).length = e.length := by
  simp [direntSetFileSize, direntSetFirstCluster]

end Fields

def Alike (e e' : Slot) : Prop := e'.take 12 = e.take 12

section Alike
variable {e e' : Slot}

lemma getD_of_take {k i : Nat} (hi : i < k) : e.getD i 0 = (e.take k).getD i 0 := by
  simp [getD_eq_getElem?_getD, hi]

lemma Alike.getD (h : Alike e e') {i : Nat} (hi : i < 12) : e'.getD i 0 = e.getD i 0 := by
  rw [getD_of_take hi, h, ← getD_of_take hi]

lemma Alike.attr (h : Alike e e') : direntAttr e' = direntAttr e := h.getD (by decide)

lemma Alike.isDir (h : Alike e e') : direntIsDir e' = direntIsDir e := by
  rw [direntIsDir, direntIsDir, h.attr]

lemma Alike.isEntry (h : Alike e e') : IsEntry e' ↔ IsEntry e := by
  rw [IsEntry, IsEntry, h.attr, h.getD (by decide)]

lemma Alike.entryName (h : Alike e e') (lfn : CString) : entryName lfn e' = entryName lfn e := by
  have h8 : e'.take 8 = e.take 8 := by
    have := congrArg (List.take 8) h
    simpa [take_take] using this
  have h3 : (e'.drop 8).take 3 = (e.drop 8).take 3 := by
    have := congrArg (fun x => (List.drop 8 x).take 3) h
    simpa [drop_take, take_take] using this
  unfold FusionOS.Fat.entryName shortToName
  rw [h8, h3]

lemma Alike.refl (e : Slot) : Alike e e := rfl

end Alike

lemma lookup_map {g : Found → Found} {fs : List Found}
    (hg : ∀ f ∈ fs, Alike f.ent (g f).ent ∧ (direntAttr f.ent = 0x0F → (g f).ent = f.ent))
    (name lfn : CString) : lookup name lfn (fs.map g) = (lookup name lfn fs).map g := by
  induction fs generalizing lfn with
  | nil => rfl
  | cons f fs ih =>
    obtain ⟨ha, hl⟩ := hg f mem_cons_self
    have ih := ih fun x hx => hg x (mem_cons_of_mem _ hx)
    rw [map_cons, lookup, lookup, ha.getD (by decide), ha.attr, ha.entryName]
    split
    · rfl
    · split
      · exact ih []
      · split
        · next hlfn =>
          rw [hl hlfn]
          exact ih _
        · split
          · rfl
          · exact ih []

/-! ## Places -/

section Places
variable {v : Volume} {data : Nat → Mem} {l : List Nat} {f : Found}

lemma mem_clusterSlots {c : Nat} : f ∈ clusterSlots v data c ↔
    ∃ i < v.sectorsPerCluster * 16, f = ⟨slice (data c) (32 * i) 32, c, 32 * i⟩ := by
  unfold clusterSlots
  rw [mem_map]
  constructor
  · rintro ⟨off, hoff, rfl⟩
    obtain ⟨i, hi, rfl⟩ := mem_range'.mp hoff
    exact ⟨i, hi, by rw [Nat.zero_add]⟩
  · rintro ⟨i, hi, rfl⟩
    exact ⟨32 * i, mem_range'.mpr ⟨i, hi, by rw [Nat.zero_add]⟩, rfl⟩

lemma mem_dirSlots : f ∈ dirSlots v data l ↔
    f.cluster ∈ l ∧ f.offset % 32 = 0 ∧ f.offset + 32 ≤ clusterBytes v ∧
      f.ent = slice (data f.cluster) f.offset 32 := by
  unfold dirSlots clusterBytes
  rw [mem_flatMap]
  constructor
  · rintro ⟨c, hc, hf⟩
    obtain ⟨i, hi, rfl⟩ := mem_clusterSlots.mp hf
    exact ⟨hc, by dsimp only; omega, by dsimp only; omega, rfl⟩
  · rintro ⟨hc, hmod, hle, hent⟩
    refine ⟨f.cluster, hc, mem_clusterSlots.mpr ⟨f.offset / 32, by omega, ?_⟩⟩
    have hoff : 32 * (f.offset / 32) = f.offset := by omega
    rw [hoff, ← hent]

lemma ent_length (hf : f ∈ dirSlots v data l) : f.ent.length = 32 := by
  rw [(mem_dirSlots.mp hf).2.2.2, slice_length]

lemma found_ext {l' : List Nat} {g : Found} (hf : f ∈ dirSlots v data l)
    (hg : g ∈ dirSlots v data l') (hc : f.cluster = g.cluster) (ho : f.offset = g.offset) : f = g := by
  obtain ⟨-, -, -, he⟩ := mem_dirSlots.mp hf
  obtain ⟨-, -, -, he'⟩ := mem_dirSlots.mp hg
  cases f
  cases g
  dsimp only at *
  subst hc ho
  rw [he, he']

lemma dirSlots_update (c : Nat) (m : Mem) :
    dirSlots v (update data c m) l =
      (dirSlots v data l).map fun f =>
        if f.cluster = c then { f with ent := slice m f.offset 32 } else f := by
  unfold dirSlots
  rw [map_flatMap]
  congr 1
  funext x
  unfold clusterSlots
  rw [map_map]
  apply map_congr_left
  intro off _
  by_cases hx : x = c
  · subst hx
    simp
  · simp [hx]

lemma dirSlots_congr {data' : Nat → Mem} (h : ∀ c ∈ l, data' c = data c) :
    dirSlots v data' l = dirSlots v data l := by
  unfold dirSlots
  apply flatMap_congr
  intro c hc
  unfold clusterSlots
  rw [h c hc]

end Places

/-! ## Writes to a slot -/

lemma setSector_splice {m buf : Mem} {s o : Nat} {xs : List UInt8}
    (hbuf : ∀ i < 512, buf i = m (s * 512 + i)) (ho : o + xs.length ≤ 512) :
    setSector m s (splice buf o xs) = splice m (s * 512 + o) xs := by
  funext i
  unfold setSector
  by_cases hi : i / 512 = s
  · rw [if_pos hi]
    have hbi : buf (i % 512) = m i := by
      rw [hbuf _ (Nat.mod_lt _ (by decide))]
      congr 1
      omega
    by_cases hin : s * 512 + o ≤ i ∧ i < s * 512 + o + xs.length
    · have h1 := splice_in buf o xs (i := i % 512 - o) (by omega)
      have h2 := splice_in m (s * 512 + o) xs (i := i % 512 - o) (by omega)
      rw [show o + (i % 512 - o) = i % 512 by omega] at h1
      rw [show s * 512 + o + (i % 512 - o) = i by omega] at h2
      rw [h1, h2]
    · rw [splice_out _ _ _ (by omega), splice_out _ _ _ (by omega), hbi]
  · rw [if_neg hi, splice_out _ _ _ (by omega)]

lemma slice_splice_slot {m : Mem} {off off' : Nat} {e : Slot} (he : e.length = 32)
    (ho : off % 32 = 0) (ho' : off' % 32 = 0) :
    slice (splice m off e) off' 32 = if off' = off then e else slice m off' 32 := by
  split
  · next h =>
    rw [h, ← he]
    exact slice_splice m off e
  · apply slice_congr
    intro i h1 h2
    rw [splice_out _ _ _ (by omega)]

structure Place (v : Volume) (c off : Nat) : Prop where
  cluster : v.IsCluster c
  aligned : off % 32 = 0
  inside : off + 32 ≤ clusterBytes v

section Writes
variable {st : Fs} {c off : Nat}

lemma Place.sector_lt {v : Volume} (h : Place v c off) : off / 512 < v.sectorsPerCluster := by
  have := h.inside
  unfold clusterBytes at this
  omega

lemma fatUpdateDirent_ok (hr : Ready st) (hp : Place st.vol c off) {e : Slot}
    (he : e.length = 32) :
    ∃ st', fatUpdateDirent st c off e = (true, st') ∧ Held st st' ∧ st'.fat = st.fat ∧
      st'.data = update st.data c (splice (st.data c) off e) := by
  obtain ⟨st1, hread, -, hbuf, hback⟩ := modify_sector hr hp.cluster hp.sector_lt
  obtain ⟨st2, hwrite, hd, hfat, hdata⟩ := hback (splice st1.sectorBuf (off % 512) e)
  have hal := hp.aligned
  rw [setSector_splice hbuf (by rw [he]; omega), show off / 512 * 512 + off % 512 = off by omega]
    at hdata
  refine ⟨st2, ?_, hd, hfat, hdata⟩
  unfold fatUpdateDirent
  dsimp only
  rw [hread]
  exact hwrite

lemma splice_singleton (m : Mem) (i : Nat) (b : UInt8) : splice m i [b] = update m i b := by
  funext j
  by_cases hj : j = i
  · subst hj
    have := splice_in m j [b] (i := 0) (by simp)
    rw [update_self]
    exact this
  · rw [update_of_ne hj, splice_out]
    rw [length_singleton]
    omega

lemma fatMarkDeleted_ok (hr : Ready st) (hp : Place st.vol c off) :
    ∃ st', fatMarkDeleted st c off = (true, st') ∧ Held st st' ∧ st'.fat = st.fat ∧
      st'.data = update st.data c (update (st.data c) off 0xE5) := by
  obtain ⟨st1, hread, -, hbuf, hback⟩ := modify_sector hr hp.cluster hp.sector_lt
  obtain ⟨st2, hwrite, hd, hfat, hdata⟩ := hback (splice st1.sectorBuf (off % 512) [0xE5])
  have hal := hp.aligned
  rw [setSector_splice hbuf (by rw [length_singleton]; omega),
    show off / 512 * 512 + off % 512 = off by omega, splice_singleton] at hdata
  refine ⟨st2, ?_, hd, hfat, hdata⟩
  unfold fatMarkDeleted
  dsimp only
  rw [hread]
  dsimp only
  rw [← splice_singleton]
  exact hwrite

end Writes

end FusionOS.Fat
