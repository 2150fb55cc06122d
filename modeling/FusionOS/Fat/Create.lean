import FusionOS.Fat.WellFormed

/-!
# Creating an entry

`fat_create_entry` looks for a run of free slots in one sector after the other.
-/

namespace FusionOS.Fat

open List
open Function (update update_eq_iff update_eq_self update_eq_self_iff update_idem update_of_ne update_self)

/-! ## The search for free slots -/

section Search
variable {buf : Mem} {total : Nat}

/-- The byte `b` begins a free slot. -/
def FreeByte (b : UInt8) : Prop := b = 0 ∨ b = 0xE5

instance (b : UInt8) : Decidable (FreeByte b) := inferInstanceAs (Decidable (_ ∨ _))

lemma freeRun_succ (n off run : Nat) :
    freeRun buf total (n + 1) off run =
      if total ≤ (if FreeByte (buf off) then run + 1 else 0) then some (off - (total - 1) * 32)
      else freeRun buf total n (off + 32) (if FreeByte (buf off) then run + 1 else 0) := rfl

lemma freeRun_some (htotal : 0 < total) {n j run o : Nat} (hrun : run ≤ j)
    (hfree : ∀ k, j - run ≤ k → k < j → FreeByte (buf (32 * k))) (hlt : run < total)
    (h : freeRun buf total n (32 * j) run = some o) :
    ∃ i, o = 32 * i ∧ i + total ≤ j + n ∧ ∀ k, i ≤ k → k < i + total → FreeByte (buf (32 * k)) := by
  induction n generalizing j run with
  | zero => cases h
  | succ n ih =>
    rw [freeRun_succ] at h
    by_cases hb : FreeByte (buf (32 * j))
    · rw [if_pos hb] at h
      have hnext : ∀ k, j + 1 - (run + 1) ≤ k → k < j + 1 → FreeByte (buf (32 * k)) := by
        intro k h1 h2
        by_cases hk : k = j
        · rw [hk]
          exact hb
        · exact hfree k (by omega) (by omega)
      split at h
      · next hle =>
        cases h
        refine ⟨j - run, by omega, by omega, ?_⟩
        intro k h1 h2
        exact hnext k (by omega) (by omega)
      · obtain ⟨i, ho, hi, hall⟩ := @ih (j + 1) (run + 1) (by omega) hnext (by omega) h
        exact ⟨i, ho, by omega, hall⟩
    · rw [if_neg hb, if_neg (by omega)] at h
      obtain ⟨i, ho, hi, hall⟩ := @ih (j + 1) 0 (by omega) (by omega) htotal h
      exact ⟨i, ho, by omega, hall⟩

lemma freeRun_one {n j : Nat} :
    (freeRun buf 1 n (32 * j) 0 = none ∧ ∀ k, j ≤ k → k < j + n → ¬ FreeByte (buf (32 * k))) ∨
      ∃ i, freeRun buf 1 n (32 * j) 0 = some (32 * i) ∧ ∀ k, j ≤ k → k < i → ¬ FreeByte (buf (32 * k)) := by
  induction n generalizing j with
  | zero => exact .inl ⟨rfl, by omega⟩
  | succ n ih =>
    rw [freeRun_succ]
    by_cases hb : FreeByte (buf (32 * j))
    · rw [if_pos hb, if_pos (by omega)]
      exact .inr ⟨j, rfl, by omega⟩
    · rw [if_neg hb, if_neg (by omega)]
      have hcons : ∀ m, (∀ k, j + 1 ≤ k → k < m → ¬ FreeByte (buf (32 * k))) →
          ∀ k, j ≤ k → k < m → ¬ FreeByte (buf (32 * k)) := by
        intro m hm k h1 h2
        by_cases hk : k = j
        · rw [hk]
          exact hb
        · exact hm k (by omega) h2
      rcases @ih (j + 1) with ⟨hnone, hall⟩ | ⟨i, hsome, hall⟩
      · refine .inl ⟨hnone, ?_⟩
        rw [show j + (n + 1) = j + 1 + n by omega]
        exact hcons _ hall
      · exact .inr ⟨i, hsome, hcons _ hall⟩

lemma freeRun_free {n j run : Nat} (hall : ∀ k, j ≤ k → k < j + n → FreeByte (buf (32 * k)))
    (hrun : run ≤ j) (hlt : run < total) (hn : total ≤ run + n) :
    freeRun buf total n (32 * j) run = some (32 * (j - run)) := by
  induction n generalizing j run with
  | zero => omega
  | succ n ih =>
    rw [freeRun_succ, if_pos (hall j (by omega) (by omega))]
    split
    · next hle =>
      congr 1
      omega
    · have := @ih (j + 1) (run + 1) (fun k h1 h2 => hall k (by omega) (by omega)) (by omega)
        (by omega) (by omega)
      rw [show 32 * j + 32 = 32 * (j + 1) by omega, this]
      congr 1
      omega

end Search

/-! ## Slots of a cluster -/

lemma inUse_slice {m : Mem} {a : Nat} : InUse (slice m a 32) ↔ ¬ FreeByte (m a) := by
  have hget : (slice m a 32).getD 0 0 = m a := by
    rw [getD_eq_getElem?_getD, slice_getElem? m a (by decide)]
    rfl
  rw [InUse, FreeByte, hget, not_or]

lemma splice_append (m : Mem) (a : Nat) (xs ys : List UInt8) :
    splice m a (xs ++ ys) = splice (splice m a xs) (a + xs.length) ys := by
  funext i
  by_cases h1 : a ≤ i ∧ i < a + xs.length
  · have hin := splice_in m a (xs ++ ys) (i := i - a) (by rw [length_append]; omega)
    have hin' := splice_in m a xs (i := i - a) (by omega)
    rw [show a + (i - a) = i by omega] at hin hin'
    rw [hin, splice_out _ _ _ (by omega), hin', getElem_append_left (by omega)]
  · by_cases h2 : a + xs.length ≤ i ∧ i < a + xs.length + ys.length
    · have hin := splice_in m a (xs ++ ys) (i := i - a) (by rw [length_append]; omega)
      have hin' := splice_in (splice m a xs) (a + xs.length) ys (i := i - (a + xs.length)) (by omega)
      rw [show a + (i - a) = i by omega] at hin
      rw [show a + xs.length + (i - (a + xs.length)) = i by omega] at hin'
      rw [hin, hin', getElem_append_right (by omega)]
      congr 1
      omega
    · rw [splice_out _ _ _ (by rw [length_append]; omega), splice_out _ _ _ (by omega),
        splice_out _ _ _ (by omega)]

lemma slice_splice_run {es : List Slot} (hes : ∀ e ∈ es, e.length = 32) (m : Mem) (i k : Nat) :
    slice (splice m (32 * i) es.flatten) (32 * k) 32 =
      if i ≤ k then es[k - i]?.getD (slice m (32 * k) 32) else slice m (32 * k) 32 := by
  induction es generalizing m i with
  | nil =>
    have hnil : splice m (32 * i) [] = m := by
      funext x
      exact splice_out _ _ _ (by rw [length_nil]; omega)
    rw [flatten_nil, hnil]
    split <;> rfl
  | cons e es ih =>
    have he := hes e mem_cons_self
    rw [flatten_cons, splice_append, he, show 32 * i + 32 = 32 * (i + 1) by omega,
      ih (fun x hx => hes x (mem_cons_of_mem _ hx)), slice_splice_slot he (by omega) (by omega)]
    by_cases hk : k = i
    · subst hk
      rw [if_neg (by omega), if_pos rfl, if_pos (Nat.le_refl _), Nat.sub_self]
      rfl
    · rw [if_neg (show ¬ 32 * k = 32 * i by omega)]
      by_cases hlt : i ≤ k
      · rw [if_pos (by omega), if_pos hlt, show k - i = (k - (i + 1)) + 1 by omega]
        rfl
      · rw [if_neg (by omega), if_neg hlt]

/-- The slots `es` in cluster `c` from the slot number `i` on. -/
def placed (c i : Nat) (es : List Slot) : List Found := es.mapIdx fun k e => ⟨e, c, 32 * (i + k)⟩

section Clusters
variable {v : Volume} {data : Nat → Mem} {c i : Nat}

lemma clusterSlots_length : (clusterSlots v data c).length = v.sectorsPerCluster * 16 := by
  rw [clusterSlots, length_map, length_range']

lemma clusterSlots_getElem? {k : Nat} (hk : k < v.sectorsPerCluster * 16) :
    (clusterSlots v data c)[k]? = some ⟨slice (data c) (32 * k) 32, c, 32 * k⟩ := by
  rw [clusterSlots, List.getElem?_map, List.getElem?_range' hk, Option.map_some, Nat.zero_add]

lemma clusterSlots_getElem {k : Nat} (hk : k < (clusterSlots v data c).length) :
    (clusterSlots v data c)[k] = ⟨slice (data c) (32 * k) 32, c, 32 * k⟩ := by
  have h := List.getElem?_eq_getElem hk
  rw [clusterSlots_length] at hk
  rw [clusterSlots_getElem? hk] at h
  exact (Option.some.inj h).symm

lemma clusterSlots_splice {es : List Slot} (hes : ∀ e ∈ es, e.length = 32)
    (hroom : i + es.length ≤ v.sectorsPerCluster * 16) :
    clusterSlots v (update data c (splice (data c) (32 * i) es.flatten)) c =
      (clusterSlots v data c).take i ++ placed c i es ++
        (clusterSlots v data c).drop (i + es.length) := by
  apply ext_getElem?
  intro k
  have hlen : ((clusterSlots v data c).take i).length = i := by
    rw [length_take, clusterSlots_length]
    omega
  have hplaced : (placed c i es).length = es.length := by rw [placed, length_mapIdx]
  by_cases hk : k < v.sectorsPerCluster * 16
  · rw [clusterSlots_getElem? hk, update_self, slice_splice_run hes]
    rw [append_assoc]
    by_cases h1 : k < i
    · rw [List.getElem?_append_left (by omega), List.getElem?_take_of_lt h1, clusterSlots_getElem? hk,
        if_neg (by omega)]
    · rw [List.getElem?_append_right (by omega), hlen, if_pos (by omega)]
      by_cases h2 : k < i + es.length
      · rw [List.getElem?_append_left (by omega), placed, List.getElem?_mapIdx,
          List.getElem?_eq_getElem (show k - i < es.length by omega)]
        rw [Option.map_some, Option.getD_some, show i + (k - i) = k by omega]
      · rw [List.getElem?_append_right (by omega), hplaced, List.getElem?_drop,
          show i + es.length + (k - i - es.length) = k by omega, clusterSlots_getElem? hk,
          List.getElem?_eq_none (by omega), Option.getD_none]
  · rw [List.getElem?_eq_none (by rw [clusterSlots_length]; omega), List.getElem?_eq_none]
    rw [length_append, length_append, length_drop, hlen, hplaced, clusterSlots_length]
    omega

end Clusters

/-! ## The slots of a new entry -/

section NewSlots
variable {name : CString} {attr : UInt8}

lemma nameToShort_length (name : CString) : (nameToShort name).length = 11 := by
  rw [nameToShort, length_append, padTo_length, padTo_length]
  · rw [length_map, shortExt]
    exact length_take_le _ _
  · rw [length_map, shortBase]
    exact length_take_le _ _

lemma newDirent_length (name : CString) (attr : UInt8) :
    (newDirent (nameToShort name) attr).length = 32 := by
  rw [newDirent, length_append, length_cons, length_replicate, nameToShort_length]

lemma lfnGroup_length (start count : Nat) : (lfnGroup name start count).length = 2 * count := by
  simp [lfnGroup, length_flatMap, Nat.mul_comm]

lemma lfnEntry_length (short : List UInt8) (order : Nat) (isLast : Bool) :
    (fatWriteLfnEntries name short order isLast).length = 32 := by
  simp [fatWriteLfnEntries, lfnGroup_length]

lemma lfnSlots_length (short : List UInt8) (count i : Nat) :
    (lfnSlots name short count i).length = i := by
  induction i with
  | zero => rfl
  | succ i ih => rw [lfnSlots, length_cons, ih]

lemma entrySlots_length : (entrySlots name attr).length = lfnCount name + 1 := by
  rw [entrySlots, length_append, lfnSlots_length]
  rfl

lemma mem_lfnSlots {short : List UInt8} {count i : Nat} {e : Slot}
    (h : e ∈ lfnSlots name short count i) :
    ∃ order < i, e = fatWriteLfnEntries name short (order + 1) (order + 1 == count) := by
  induction i with
  | zero => cases h
  | succ i ih =>
    rcases mem_cons.mp h with rfl | h
    · exact ⟨i, by omega, rfl⟩
    · obtain ⟨order, hlt, heq⟩ := ih h
      exact ⟨order, by omega, heq⟩

lemma entrySlots_slot : ∀ e ∈ entrySlots name attr, e.length = 32 := by
  intro e he
  rcases mem_append.mp he with he | he
  · obtain ⟨order, -, rfl⟩ := mem_lfnSlots he
    exact lfnEntry_length _ _ _
  · rw [mem_singleton.mp he]
    exact newDirent_length name attr

lemma flatten_length {es : List Slot} (h : ∀ e ∈ es, e.length = 32) :
    es.flatten.length = 32 * es.length := by
  induction es with
  | nil => rfl
  | cons e es ih =>
    rw [flatten_cons, length_append, ih fun x hx => h x (mem_cons_of_mem _ hx),
      h e mem_cons_self, length_cons]
    omega

end NewSlots

/-! ## The search in a directory -/

/-- A free run for `name` in cluster `c` at the slot number `i`; for a name of a single slot all slots
in front of it from number `k₀` on are in use. -/
structure FreeAt (m : Mem) (name : CString) (k₀ i : Nat) : Prop where
  free : ∀ k, i ≤ k → k < i + (lfnCount name + 1) → ¬ InUse (slice m (32 * k) 32)
  first : lfnCount name = 0 → ∀ k, k₀ ≤ k → k < i → InUse (slice m (32 * k) 32)

section Sectors
variable {st : Fs} {c : Nat} (name : CString) (attr : UInt8)

lemma freeRun_sector {m buf : Mem} {s : Nat} (hbuf : ∀ i < 512, buf i = m (s * 512 + i)) :
    (freeRun buf (lfnCount name + 1) 16 0 0 = none ∧
      (lfnCount name = 0 → ∀ k, 16 * s ≤ k → k < 16 * (s + 1) → InUse (slice m (32 * k) 32)) ∧
      (lfnCount name < 16 → ∃ k, InUse (slice m (32 * k) 32))) ∨
    ∃ i, freeRun buf (lfnCount name + 1) 16 0 0 = some (32 * i) ∧ i + (lfnCount name + 1) ≤ 16 ∧
      FreeAt m name (16 * s) (16 * s + i) := by
  have hslot : ∀ k < 16, (InUse (slice m (32 * (16 * s + k)) 32) ↔ ¬ FreeByte (buf (32 * k))) := by
    intro k hk
    rw [inUse_slice, hbuf _ (by omega), show s * 512 + 32 * k = 32 * (16 * s + k) by omega]
  have hused : ∀ n ≤ 16, (∀ k, 0 ≤ k → k < n → ¬ FreeByte (buf (32 * k))) →
      ∀ k, 16 * s ≤ k → k < 16 * s + n → InUse (slice m (32 * k) 32) := by
    intro n hn hall k h1 h2
    have := (hslot (k - 16 * s) (by omega)).mpr (hall _ (by omega) (by omega))
    rwa [show 16 * s + (k - 16 * s) = k by omega] at this
  cases hrun : freeRun buf (lfnCount name + 1) 16 0 0 with
  | none =>
    refine .inl ⟨rfl, fun h0 => ?_, fun hlt => ?_⟩
    · rw [h0] at hrun
      rcases @freeRun_one buf 16 0 with ⟨-, hall⟩ | ⟨i, hsome, -⟩
      · have := hused 16 (by omega) hall
        rwa [show 16 * (s + 1) = 16 * s + 16 by omega]
      · cases hrun.symm.trans hsome
    · by_contra hnone
      have hall : ∀ k, 0 ≤ k → k < 0 + 16 → FreeByte (buf (32 * k)) := by
        intro k _ hk
        by_contra hb
        exact hnone ⟨_, (hslot k (by omega)).mpr hb⟩
      cases hrun.symm.trans (freeRun_free hall (Nat.le_refl 0) (Nat.succ_pos _) (by omega))
  | some o =>
    have hstart : ∀ k, 0 - 0 ≤ k → k < 0 → FreeByte (buf (32 * k)) := by omega
    obtain ⟨i, ho, hi, hall⟩ := freeRun_some (Nat.succ_pos _) (Nat.le_refl 0) hstart (Nat.succ_pos _) hrun
    subst ho
    refine .inr ⟨i, rfl, by omega, ?_, ?_⟩
    · intro k h1 h2
      have := (hslot (k - 16 * s) (by omega)).not.mpr (not_not.mpr (hall _ (by omega) (by omega)))
      rwa [show 16 * s + (k - 16 * s) = k by omega] at this
    · intro h0
      rw [h0] at hrun
      rcases @freeRun_one buf 16 0 with ⟨hnone, -⟩ | ⟨i', hsome, hbefore⟩
      · cases hrun.symm.trans hnone
      · have heq : i' = i := by
          have := Option.some.inj (hsome.symm.trans hrun)
          omega
        rw [heq] at hbefore
        exact hused i (by omega) hbefore

lemma freeRun_congr {buf buf' : Mem} {total n off run : Nat}
    (h : ∀ i, off ≤ i → i < off + 32 * n → buf i = buf' i) :
    freeRun buf total n off run = freeRun buf' total n off run := by
  induction n generalizing off run with
  | zero => rfl
  | succ n ih =>
    rw [freeRun_succ, freeRun_succ, h off (Nat.le_refl off) (by omega)]
    rw [ih fun i h1 h2 => h i (by omega) (by omega)]

/-- The place that the search for `total` free slots in a row finds in the sectors of a cluster
from `s` on. -/
def sectorsPlace (m : Mem) (total s n : Nat) : Option Nat :=
  (List.range' s n).findSome? fun s =>
    (freeRun (fun i => m (s * 512 + i)) total 16 0 0).map fun off => off + s * 512

lemma sectorsPlace_succ {m buf : Mem} {total s n : Nat} {r : Option Nat}
    (hbuf : ∀ i < 512, buf i = m (s * 512 + i)) (h : freeRun buf total 16 0 0 = r) :
    sectorsPlace m total s (n + 1) = (r.map fun off => off + s * 512).or (sectorsPlace m total (s + 1) n) := by
  have hsame : freeRun buf total 16 0 0 = freeRun (fun i => m (s * 512 + i)) total 16 0 0 :=
    freeRun_congr fun i _ hi => hbuf i (by omega)
  rw [hsame] at h
  unfold sectorsPlace
  rw [List.range'_succ, List.findSome?_cons, h]
  cases r <;> rfl

lemma writeBack_ok (hr : Ready st) (lba : Nat) {st1 : Fs} (h : blkRead st lba = (true, st1)) :
    ∃ st2, blkWrite st1 lba = (true, st2) ∧ Quiet st st2 := by
  rw [blkRead_ok hr] at h
  cases h
  have hr1 : Ready { st with ops := st.ops + 1, sectorBuf := st.disk lba } := ⟨hr.geometry, hr.io⟩
  rw [blkWrite_ok hr1]
  refine ⟨_, rfl, st.disk lba, st.ops + 1 + 1, ?_⟩
  rw [update_eq_self]

/-- The data after the slots of a new entry have been written to cluster `c`. -/
abbrev placeData (data : Nat → Mem) (c i : Nat) (es : List Slot) : Nat → Mem :=
  update data c (splice (data c) (32 * i) es.flatten)

lemma createSectors_ok (hr : Ready st) (hc : st.vol.IsCluster c) (n s : Nat)
    (hn : s + n ≤ st.vol.sectorsPerCluster) :
    (∃ st', createSectors name attr c n s st = (.next (), st') ∧ Quiet st st' ∧
      (lfnCount name = 0 → ∀ k, 16 * s ≤ k → k < 16 * (s + n) → InUse (slice (st.data c) (32 * k) 32)) ∧
      (lfnCount name < 16 → 0 < n → ∃ k, InUse (slice (st.data c) (32 * k) 32)) ∧
      sectorsPlace (st.data c) (lfnCount name + 1) s n = none) ∨
    ∃ st' i, createSectors name attr c n s st =
        (.stop (some ⟨newDirent (nameToShort name) attr, c, 32 * i⟩), st') ∧ Held st st' ∧
      st'.fat = st.fat ∧ st'.data = placeData st.data c i (entrySlots name attr) ∧
      i + (lfnCount name + 1) ≤ 16 * (s + n) ∧ FreeAt (st.data c) name (16 * s) i ∧
      sectorsPlace (st.data c) (lfnCount name + 1) s n = some (32 * i) := by
  induction n generalizing st s with
  | zero => exact .inl ⟨st, rfl, Quiet.refl st, fun _ => by omega, fun _ h => by omega, rfl⟩
  | succ n ih =>
    obtain ⟨st1, hread, hq, hbuf, hback⟩ := modify_sector hr hc (s := s) (by omega)
    rw [createSectors, hread]
    dsimp only
    rcases freeRun_sector name hbuf with ⟨hnone, hused, hbusy⟩ | ⟨i, hsome, hi, hat⟩
    · rw [hnone]
      dsimp only
      obtain ⟨st2, hwrite, hq2⟩ := writeBack_ok hr _ hread
      rw [hwrite]
      dsimp only
      rcases @ih st2 (hq2.ready hr) (by rw [hq2.vol]; exact hc) (s + 1) (by rw [hq2.vol]; omega) with
        ⟨st', hrun, hq', hall, -, hplace⟩ | ⟨st', i, hrun, hd, hfat, hdata, hroom, hat, hplace⟩
      · rw [hq2.data] at hall hplace
        refine .inl ⟨st', hrun, hq2.trans hq', fun h0 k h1 h2 => ?_, fun hlt _ => hbusy hlt, ?_⟩
        · by_cases hk : k < 16 * (s + 1)
          · exact hused h0 k h1 hk
          · exact hall h0 k (by omega) (by omega)
        · rw [sectorsPlace_succ hbuf hnone, hplace]
          rfl
      · rw [hq2.data] at hdata hat hplace
        refine .inr ⟨st', i, hrun, hq2.held.trans hd, hfat.trans hq2.fat, hdata, by omega,
          ⟨hat.free, ?_⟩, ?_⟩
        · intro h0 k h1 h2
          by_cases hk : k < 16 * (s + 1)
          · exact hused h0 k h1 hk
          · exact hat.first h0 k (by omega) h2
        · rw [sectorsPlace_succ hbuf hnone, hplace]
          rfl
    · rw [hsome]
      dsimp only
      obtain ⟨st2, hwrite, hd, hfat, hdata⟩ := hback
        (splice st1.sectorBuf (32 * i) (entrySlots name attr).flatten)
      rw [hq.vol] at *
      refine .inr ⟨st2, 16 * s + i, ?_, hd, hfat, ?_, by omega, hat, ?_⟩
      · rw [hwrite]
        dsimp only
        rw [show 32 * i + s * 512 = 32 * (16 * s + i) by omega]
      · rw [hdata, setSector_splice hbuf
          (by rw [flatten_length entrySlots_slot, entrySlots_length]; omega),
          show s * 512 + 32 * i = 32 * (16 * s + i) by omega]
      · rw [sectorsPlace_succ hbuf hsome, Option.map_some, Option.some_or,
          show 32 * i + s * 512 = 32 * (16 * s + i) by omega]

end Sectors

/-- The cluster and the offset that the search for `total` free slots in a row finds in the directory
with the clusters `l`. -/
def createPlace (v : Volume) (data : Nat → Mem) (total : Nat) (l : List Nat) : Option (Nat × Nat) :=
  l.findSome? fun c => (sectorsPlace (data c) total 0 v.sectorsPerCluster).map fun off => (c, off)

/-- The slots of `name` stand in cluster `c` of the directory with the clusters `l` from the slot number
`i` on, in place of slots that were free. -/
structure Placed (st st' : Fs) (l : List Nat) (name : CString) (attr : UInt8) (c i : Nat) : Prop where
  disk : DiskOnly st st'
  fat : st'.fat = st.fat
  data : st'.data = placeData st.data c i (entrySlots name attr)
  mem : c ∈ l
  place : Place st.vol c (32 * i)
  split : ∃ pre run post, dirSlots st.vol st.data l = pre ++ run ++ post ∧
    (∀ es : List Slot, (∀ e ∈ es, e.length = 32) → es.length = lfnCount name + 1 →
      dirSlots st.vol (placeData st.data c i es) l = pre ++ placed c i es ++ post) ∧
    run.length = lfnCount name + 1 ∧ (∀ x ∈ run, ¬ InUse x.ent) ∧
    (lfnCount name = 0 → ∀ x ∈ pre, InUse x.ent)

section Chains
variable {st st' : Fs} {c i : Nat} {l : List Nat} {name : CString} {attr : UInt8}

lemma mem_clusterSlots_between {v : Volume} {data : Nat → Mem} {n : Nat} {x : Found}
    (hx : x ∈ ((clusterSlots v data c).drop i).take n) :
    ∃ k, i ≤ k ∧ k < i + n ∧ x.ent = slice (data c) (32 * k) 32 := by
  obtain ⟨k, hk, rfl⟩ := mem_iff_getElem.mp hx
  rw [length_take, length_drop] at hk
  refine ⟨i + k, by omega, by omega, ?_⟩
  rw [getElem_take, getElem_drop, clusterSlots_getElem]

lemma mem_slot_inUse {v : Volume} {data : Nat → Mem} {n : Nat}
    (h : ∀ k, 0 ≤ k → k < n → InUse (slice (data c) (32 * k) 32)) :
    ∀ x ∈ (clusterSlots v data c).take n, InUse x.ent := by
  intro x hx
  rw [← drop_zero (l := clusterSlots v data c)] at hx
  obtain ⟨k, -, hk, heq⟩ := mem_clusterSlots_between hx
  rw [heq]
  exact h k (Nat.zero_le _) (by omega)

lemma placed_head {t : List Nat} (hnd : (c :: t).Nodup) (hc : st.vol.IsCluster c) (hd : DiskOnly st st')
    (hfat : st'.fat = st.fat) (hdata : st'.data = placeData st.data c i (entrySlots name attr))
    (hroom : i + (lfnCount name + 1) ≤ 16 * st.vol.sectorsPerCluster)
    (hat : FreeAt (st.data c) name 0 i) : Placed st st' (c :: t) name attr c i := by
  have hother : ∀ es, dirSlots st.vol (placeData st.data c i es) t = dirSlots st.vol st.data t := by
    intro es
    apply dirSlots_congr
    intro x hx
    apply update_of_ne
    rintro rfl
    exact (nodup_cons.mp hnd).1 hx
  have hcb : clusterBytes st.vol = st.vol.sectorsPerCluster * 512 := rfl
  refine ⟨hd, hfat, hdata, mem_cons_self, ⟨hc, by omega, by omega⟩,
    (clusterSlots st.vol st.data c).take i,
    ((clusterSlots st.vol st.data c).drop i).take (lfnCount name + 1),
    (clusterSlots st.vol st.data c).drop (i + (lfnCount name + 1)) ++ dirSlots st.vol st.data t,
    ?_, ?_, ?_, ?_, ?_⟩
  · rw [dirSlots_cons, ← append_assoc, append_assoc (List.take _ _), ← drop_drop,
      take_append_drop, take_append_drop]
  · intro es hes hlen
    rw [dirSlots_cons, hother, clusterSlots_splice hes (by omega), hlen]
    simp only [append_assoc]
  · rw [length_take, length_drop, clusterSlots_length]
    omega
  · intro x hx
    obtain ⟨k, h1, h2, heq⟩ := mem_clusterSlots_between hx
    rw [heq]
    exact hat.free k h1 h2
  · intro h0
    exact mem_slot_inUse (hat.first h0)

lemma Placed.append {st1 : Fs} {l0 : List Nat} (h : Placed st1 st' l name attr c i) (hq : Quiet st st1)
    (hc : c ∉ l0) (hused : lfnCount name = 0 → ∀ x ∈ dirSlots st.vol st.data l0, InUse x.ent) :
    Placed st st' (l0 ++ l) name attr c i := by
  obtain ⟨pre, run, post, hslots, hslots', hlen, hfree, hpre⟩ := h.split
  have hplace := h.place
  have hdata := h.data
  rw [hq.vol] at hslots hslots' hplace
  rw [hq.data] at hslots hslots' hdata
  have hhead : ∀ es, dirSlots st.vol (placeData st.data c i es) l0 = dirSlots st.vol st.data l0 := by
    intro es
    apply dirSlots_congr
    intro x hx
    apply update_of_ne
    rintro rfl
    exact hc hx
  refine ⟨hq.diskOnly.trans h.disk, h.fat.trans hq.fat, hdata, mem_append_right _ h.mem, hplace,
    dirSlots st.vol st.data l0 ++ pre, run, post, ?_, ?_, hlen, hfree, ?_⟩
  · rw [dirSlots_append, hslots]
    simp only [append_assoc]
  · intro es hes hes'
    rw [dirSlots_append, hslots' es hes hes', hhead]
    simp only [append_assoc]
  · intro h0 x hx
    rcases mem_append.mp hx with hx | hx
    · exact hused h0 x hx
    · exact hpre h0 x hx

lemma createChain_ok (hr : Ready st) {d : Nat} (h : FatChain st.vol st.fat d l) (name : CString)
    (attr : UInt8) (fuel : Nat) (hf : l.length ≤ fuel) :
    (∃ st', createChain name attr fuel d st = some (.next (l.getLast h.ne_nil), st') ∧ Quiet st st' ∧
      (lfnCount name = 0 → ∀ x ∈ dirSlots st.vol st.data l, InUse x.ent) ∧
      (lfnCount name < 16 → ∃ k, InUse (slice (st.data d) (32 * k) 32)) ∧
      createPlace st.vol st.data (lfnCount name + 1) l = none) ∨
    ∃ st' c i, createChain name attr fuel d st =
        some (.stop (some ⟨newDirent (nameToShort name) attr, c, 32 * i⟩), st') ∧
      Held st st' ∧ Placed st st' l name attr c i ∧
      createPlace st.vol st.data (lfnCount name + 1) l = some (c, 32 * i) := by
  induction l generalizing st d fuel with
  | nil => exact absurd rfl h.ne_nil
  | cons a t ih =>
    have hnd := h.nodup hr.geometry
    obtain rfl := h.head_eq
    obtain ⟨fuel, rfl⟩ := Nat.exists_eq_add_one.mpr (Nat.zero_lt_of_lt hf)
    have hcl := h.node_head
    rw [createChain, if_pos (isCluster_guard hr.geometry hcl)]
    rcases createSectors_ok name attr hr hcl st.vol.sectorsPerCluster 0 (by omega) with
      ⟨st1, hrun, hq, hused, hbusy, hnone⟩ | ⟨st1, i, hrun, hd, hfat, hdata, hroom, hat, hsome⟩
    · have hbusy' := fun hlt => hbusy hlt hr.geometry.spc_pos
      have hplace : createPlace st.vol st.data (lfnCount name + 1) (a :: t) =
          createPlace st.vol st.data (lfnCount name + 1) t := by
        rw [createPlace, List.findSome?_cons, hnone]
        rfl
      have hused' : lfnCount name = 0 → ∀ x ∈ dirSlots st.vol st.data [a], InUse x.ent := by
        intro h0 x hx
        rw [dirSlots, flatMap_singleton] at hx
        apply mem_slot_inUse (v := st.vol) (n := st.vol.sectorsPerCluster * 16) (fun k h1 h2 =>
          hused h0 k (by omega) (by omega))
        rw [take_of_length_le (by rw [clusterSlots_length])]
        exact hx
      obtain ⟨st2, hget, hq2⟩ := fatGetEntry_ok (hq.ready hr) (c := a) (by rw [hq.vol]; exact hcl.2)
      have hq2 := hq.trans hq2
      rw [hrun]
      dsimp only
      rw [hget, hq.fat]
      dsimp only
      cases h with
      | last _ hstop =>
        rw [if_pos hstop]
        exact .inl ⟨st2, rfl, hq2, hused', hbusy', hplace⟩
      | cons _ ht =>
        have hgo : ¬ eoc ≤ st.fat a := hr.geometry.not_eoc _ ht.node_head
        rw [if_neg hgo]
        have ht2 := hq2.chain ht
        have hat : a ∉ t := (nodup_cons.mp hnd).1
        rcases ih (hq2.ready hr) ht2 fuel (by rw [length_cons] at hf; omega) with
          ⟨st', hrun', hq', hall, -, hnone'⟩ | ⟨st', c, i, hrun', hheld, hplaced, hsome'⟩
        · rw [hq2.vol, hq2.data] at hnone'
          refine .inl ⟨st', ?_, hq2.trans hq', fun h0 x hx => ?_, hbusy', hplace.trans hnone'⟩
          · rw [hrun', getLast_cons ht.ne_nil]
          · rw [hq2.vol, hq2.data] at hall
            rw [← singleton_append, dirSlots_append] at hx
            rcases mem_append.mp hx with hx | hx
            · exact hused' h0 x hx
            · exact hall h0 x hx
        · rw [hq2.vol, hq2.data] at hsome'
          refine .inr ⟨st', c, i, hrun', hq2.held.trans hheld, hplaced.append hq2 ?_ hused',
            hplace.trans hsome'⟩
          rw [mem_singleton]
          rintro rfl
          exact hat hplaced.mem
    · rw [hrun]
      refine .inr ⟨st1, a, i, rfl, hd, placed_head hnd hcl hd.disk hfat hdata (by omega) hat, ?_⟩
      rw [createPlace, List.findSome?_cons, hsome]
      rfl

end Chains

/-! ## The creation -/

section Fill
variable {st : Fs} {c : Nat}

lemma data_outside {i : Nat} (h : clusterBytes st.vol ≤ i) : st.data c i = 0 :=
  if_neg fun hin => Nat.not_lt.mpr h hin.2

lemma fillCluster_ok (hr : Ready st) (hc : st.vol.IsCluster c) (n s : Nat)
    (hn : s + n ≤ st.vol.sectorsPerCluster) :
    ∃ st', fillCluster c n s st = (true, st') ∧ Held st st' ∧ st'.fat = st.fat ∧
      st'.data = update st.data c
        fun i => if s ≤ i / 512 ∧ i / 512 < s + n then st.sectorBuf (i % 512) else st.data c i := by
  induction n generalizing st s with
  | zero =>
    refine ⟨st, rfl, Held.refl st, rfl, ?_⟩
    rw [eq_comm, update_eq_iff]
    refine ⟨?_, fun _ _ => rfl⟩
    funext i
    rw [if_neg (by omega)]
  | succ n ih =>
    obtain ⟨st1, hwrite, hd, hbuf, hfat, hdata⟩ := blkWrite_data hr hc (s := s) (by omega)
    obtain ⟨st2, hrun, hd2, hfat2, hdata2⟩ := @ih st1 (hd.ready hr) (by rw [hd.vol]; exact hc) (s + 1)
      (by rw [hd.vol]; omega)
    refine ⟨st2, ?_, hd.trans hd2, hfat2.trans hfat, ?_⟩
    · rw [fillCluster, hwrite]
      exact hrun
    · rw [hdata2, hdata, hbuf, update_idem, update_self]
      congr 1
      funext i
      unfold setSector
      by_cases h1 : i / 512 = s
      · rw [if_neg (by omega), if_pos h1, if_pos (by omega)]
      · rw [if_neg h1]
        by_cases h2 : s + 1 ≤ i / 512 ∧ i / 512 < s + 1 + n
        · rw [if_pos h2, if_pos (by omega)]
        · rw [if_neg h2, if_neg (by omega)]

lemma fillCluster_whole (hr : Ready st) (hc : st.vol.IsCluster c) :
    ∃ st', fillCluster c st.vol.sectorsPerCluster 0 st = (true, st') ∧ Held st st' ∧
      st'.fat = st.fat ∧ st'.data = update st.data c
        fun i => if i < clusterBytes st.vol then st.sectorBuf (i % 512) else 0 := by
  obtain ⟨st', hrun, hd, hfat, hdata⟩ := fillCluster_ok hr hc st.vol.sectorsPerCluster 0 (by omega)
  refine ⟨st', hrun, hd, hfat, ?_⟩
  rw [hdata]
  congr 1
  funext i
  have hcb : clusterBytes st.vol = st.vol.sectorsPerCluster * 512 := rfl
  by_cases hi : i < clusterBytes st.vol
  · rw [if_pos hi, if_pos (by omega)]
  · rw [if_neg hi, if_neg (by omega), data_outside (by omega)]

end Fill

/-- The directory `d` with the clusters `l` has got the cluster `new`, which holds zeros. -/
structure Extended (st st' : Fs) (d : Nat) (l : List Nat) (new : Nat) : Prop where
  disk : DiskOnly st st'
  chain : FatChain st.vol st'.fat d (l ++ [new])
  fresh : new ∈ freeClusters st.vol st.fat
  fat : ∀ x, x ∉ l → x ≠ new → st'.fat x = st.fat x
  data : st'.data = update st.data new fun _ => 0

/-- The directory `d` has the clusters `l₁`: those of `l`, and perhaps a fresh one that holds zeros. -/
structure Grown (st st₁ : Fs) (d : Nat) (l l₁ : List Nat) : Prop where
  disk : DiskOnly st st₁
  chain : FatChain st.vol st₁.fat d l₁
  fresh : ∀ x ∈ l₁, x ∈ l ∨ x ∈ freeClusters st.vol st.fat
  fat : ∀ x, x ∉ l₁ → st₁.fat x = st.fat x
  data : ∀ x, x ∈ l ∨ x ∉ l₁ → st₁.data x = st.data x
  slots : ∃ zs, dirSlots st.vol st₁.data l₁ = dirSlots st.vol st.data l ++ zs ∧
    ∀ z ∈ zs, z.ent.getD 0 0 = 0

lemma Grown.refl {st : Fs} {d : Nat} {l : List Nat} (h : FatChain st.vol st.fat d l) :
    Grown st st d l l :=
  ⟨DiskOnly.refl st, h, fun _ hx => .inl hx, fun _ _ => rfl, fun _ _ => rfl, [],
    (append_nil _).symm, fun _ hz => by cases hz⟩

lemma Extended.grown {st st1 : Fs} {d : Nat} {l : List Nat} {new : Nat}
    (h : Extended st st1 d l new) (hg : Geometry st.vol) : Grown st st1 d l (l ++ [new]) := by
  have hnew : new ∉ l := fun hm =>
    (nodup_append.mp (h.chain.nodup hg)).2.2 new hm new mem_cons_self rfl
  have hdata : ∀ x, x ≠ new → st1.data x = st.data x := by
    intro x hx
    rw [h.data, update_of_ne hx]
  refine ⟨h.disk, h.chain, ?_, ?_, ?_, dirSlots st.vol st1.data [new], ?_, ?_⟩
  · intro x hx
    rcases mem_append.mp hx with hx | hx
    · exact .inl hx
    · rw [mem_singleton.mp hx]
      exact .inr h.fresh
  · intro x hx
    rw [mem_append, mem_singleton, not_or] at hx
    exact h.fat x hx.1 hx.2
  · intro x hx
    apply hdata
    rintro rfl
    rcases hx with hx | hx
    · exact hnew hx
    · exact hx (mem_append_right _ mem_cons_self)
  · rw [dirSlots_append]
    congr 1
    apply dirSlots_congr
    intro x hx
    apply hdata
    rintro rfl
    exact hnew hx
  · intro z hz
    obtain ⟨hc, -, -, hent⟩ := mem_dirSlots.mp hz
    rw [hent, mem_singleton.mp hc, h.data, update_self, getD_eq_getElem?_getD,
      slice_getElem? _ _ (by decide)]
    rfl

/-- The directory with the clusters `l` has got a cluster for the slots of `name` just where it had no
place for them. -/
def Spilled (st : Fs) (l : List Nat) (name : CString) (l₁ : List Nat) : Prop :=
  createPlace st.vol st.data (lfnCount name + 1) l ≠ none ∧ l₁ = l ∨
    createPlace st.vol st.data (lfnCount name + 1) l = none ∧ ∃ new, l₁ = l ++ [new]

/-- What `fat_create_entry` can end in. -/
inductive Creation (st : Fs) (d : Nat) (l : List Nat) (name : CString) (attr : UInt8) :
    Option (Option Found × Fs) → Prop where
  | full {st' : Fs} : Quiet st st' → Creation st d l name attr (some (none, st'))
  | created {st₁ st' : Fs} {l₁ : List Nat} {c i : Nat} : Grown st st₁ d l l₁ →
      Placed st₁ st' l₁ name attr c i → Spilled st l name l₁ → Creation st d l name attr
      (some (some ⟨newDirent (nameToShort name) attr, c, 32 * i⟩, st'))

section Creates
variable {st : Fs} {d : Nat} {l : List Nat}

lemma extend_ok (hr : Ready st) (h : FatChain st.vol st.fat d l) {new : Nat} {fs : List Nat}
    (hfree : freeClusters st.vol st.fat = new :: fs) :
    ∃ st1 st2 st3 st4, fatAllocCluster st = (some new, st1) ∧
      fatSetEntry st1 (l.getLast h.ne_nil) new = (true, st2) ∧
      fatSetEntry st2 new 0x0FFFFFFF = (true, st3) ∧
      fillCluster new st3.vol.sectorsPerCluster 0 { st3 with sectorBuf := fun _ => 0 } = (true, st4) ∧
      Held st st4 ∧ st4.fat = update (update st.fat new 0x0FFFFFFF) (l.getLast h.ne_nil) new ∧
      freeClusters st.vol st4.fat = fs ∧ Extended st st4 d l new := by
  obtain ⟨st1, st2, halloc, hlink, hd, hdata, hch, hrest, hfat⟩ := extend_step hr h
    (List.getLast?_eq_some_getLast h.ne_nil) hfree
  have hcl : st.vol.IsCluster new := Chain.node hch new (mem_append_right _ mem_cons_self)
  have hlt : new < st2.vol.limit := by
    rw [hd.vol]
    exact hcl.2
  have hne : new ≠ l.getLast h.ne_nil := fun heq =>
    (nodup_append.mp (hch.nodup hr.geometry)).2.2 _ (getLast_mem h.ne_nil) new mem_cons_self heq.symm
  obtain ⟨st3, hset, hd3, hfat3, hdata3⟩ := fatSetEntry_ok (hd.ready hr) hlt
    (show 0x0FFFFFFF < 2 ^ 28 by decide)
  have hd3 := hd.trans hd3
  -- the end mark stands there since the allocation
  rw [update_eq_self_iff.mpr (by rw [hfat, update_of_ne hne, update_self])] at hfat3
  have hzero : Quiet st3 { st3 with sectorBuf := fun _ => 0 } := (Quiet.refl st3).buffer _
  obtain ⟨st4, hfill, hd4, hfat4, hdata4⟩ := fillCluster_whole (c := new) (hzero.ready (hd3.ready hr))
    (by show st3.vol.IsCluster new; rw [hd3.vol]; exact hcl)
  have hfat4 : st4.fat = st2.fat := hfat4.trans hfat3
  have hd4 := hd3.trans (hzero.held.trans hd4)
  rw [← hfat4] at hch hrest hfat
  refine ⟨st1, st2, st3, st4, halloc, hlink, hset, hfill, hd4, hfat, hrest, hd4.disk, hch, ?_, ?_, ?_⟩
  · rw [hfree]
    exact mem_cons_self
  · intro x hx hxn
    rw [hfat, update_of_ne, update_of_ne hxn]
    rintro rfl
    exact hx (getLast_mem _)
  · rw [hdata4]
    show update st3.data new _ = _
    rw [hdata3, hdata]
    congr 1
    funext i
    split <;> rfl

/-- A new entry takes the place that the search finds, or the start of a fresh cluster. -/
inductive PlacedAt (st : Fs) (d : Nat) (l : List Nat) (name : CString) (attr : UInt8) :
    Option (Option Found × Fs) → Prop where
  | full {st' : Fs} : Quiet st st' → PlacedAt st d l name attr (some (none, st'))
  | here {st' : Fs} {c i : Nat} : createPlace st.vol st.data (lfnCount name + 1) l = some (c, 32 * i) →
      Placed st st' l name attr c i → PlacedAt st d l name attr
      (some (some ⟨newDirent (nameToShort name) attr, c, 32 * i⟩, st'))
  | behind {st₁ st' : Fs} {new : Nat} : createPlace st.vol st.data (lfnCount name + 1) l = none →
      Extended st st₁ d l new → Placed st₁ st' (l ++ [new]) name attr new 0 → PlacedAt st d l name attr
      (some (some ⟨newDirent (nameToShort name) attr, new, 32 * 0⟩, st'))

/-- The directory with the clusters `l` has no place for the slots of `name` and cannot grow. -/
def Full (st : Fs) (l : List Nat) (name : CString) : Prop :=
  createPlace st.vol st.data (lfnCount name + 1) l = none ∧ freeClusters st.vol st.fat = []

lemma createEntry_placedAt (hr : Ready st) (h : FatChain st.vol st.fat d l) {name : CString}
    (attr : UInt8) (hname : lfnCount name < 16) (depth : Nat) :
    PlacedAt st d l name attr (createEntry name attr (depth + 2) d st) ∧
      ∀ st', createEntry name attr (depth + 2) d st = some (none, st') → Full st l name := by
  rw [createEntry]
  rcases createChain_ok hr h name attr chainFuel
      (FatChain.lt_fuel h hr.geometry).le with
    ⟨st1, hrun, hq, hused, -, hnone⟩ | ⟨st1, c, i, hrun, -, hplaced, hsome⟩
  · rw [hrun]
    dsimp only
    have hr1 := hq.ready hr
    have h₁ := hq.chain h
    cases hfree : freeClusters st.vol st.fat with
    | nil =>
      obtain ⟨st2, halloc, hq2⟩ := fatAllocCluster_none hr1 (by rw [hq.vol, hq.fat]; exact hfree)
      rw [halloc]
      exact ⟨.full (hq.trans hq2), fun _ _ => ⟨hnone, hfree⟩⟩
    | cons new fs =>
      obtain ⟨sa, sb, sc, st2, halloc, hlink, hset, hfill, -, -, -, hext⟩ := extend_ok hr1 h₁
        (by rw [hq.vol, hq.fat]; exact hfree)
      rw [halloc]
      dsimp only
      rw [hlink]
      dsimp only
      rw [hset]
      dsimp only
      rw [hfill]
      dsimp only
      have hext' : Extended st st2 d l new := by
        obtain ⟨h1, h2, h3, h4, h5⟩ := hext
        rw [hq.vol] at h2 h3
        rw [hq.fat] at h3 h4
        rw [hq.data] at h5
        exact ⟨hq.diskOnly.trans h1, h2, h3, h4, h5⟩
      have hr2 := hext'.disk.ready hr
      have hcl : st2.vol.IsCluster new := by
        rw [hext'.disk.vol]
        exact isCluster_of_free hext'.fresh
      have hnd := hext'.chain.nodup hr.geometry
      have hstop : eoc ≤ st2.fat new := by
        have := Chain.stop_getLast hext'.chain
        rwa [getLast_concat] at this
      have hzero : ∀ k, ¬ InUse (slice (st2.data new) (32 * k) 32) := by
        intro k
        rw [inUse_slice, hext'.data, update_self]
        exact not_not.mpr (.inl rfl)
      rw [createEntry]
      -- the fresh cluster has room
      rcases createChain_ok hr2 (.last hcl hstop) name attr chainFuel
          (by have := FatChain.length_lt hr.geometry hext'.chain; simp; omega) with
        ⟨st3, -, -, -, hbusy, -⟩ | ⟨st3, c, i, hrun3, -, hplaced, hfirst⟩
      · obtain ⟨k, hk⟩ := hbusy hname
        exact absurd hk (hzero k)
      rw [hrun3]
      obtain rfl : c = new := mem_singleton.mp hplaced.mem
      obtain rfl : i = 0 := by
        have hbytes : ∀ k, 0 ≤ k → k < 0 + 16 → FreeByte ((fun i => st2.data c (0 * 512 + i)) (32 * k)) := by
          intro k _ _
          rw [hext'.data, update_self]
          exact .inl rfl
        have hrun0 : freeRun (fun i => st2.data c (0 * 512 + i)) (lfnCount name + 1) 16 (32 * 0) 0 =
            some (32 * (0 - 0)) :=
          freeRun_free hbytes (Nat.le_refl 0) (Nat.succ_pos _) (by omega)
        obtain ⟨n, hn⟩ : ∃ n, st2.vol.sectorsPerCluster = n + 1 :=
          ⟨st2.vol.sectorsPerCluster - 1, by have := hr2.geometry.spc_pos; omega⟩
        rw [createPlace, List.findSome?_cons, hn, sectorsPlace_succ (fun i _ => rfl) hrun0] at hfirst
        simp at hfirst
        omega
      refine ⟨?_, fun _ hfail => by cases hfail⟩
      apply PlacedAt.behind hnone hext'
      have hnew : c ∉ l := fun hm =>
        (nodup_append.mp hnd).2.2 c hm c mem_cons_self rfl
      apply hplaced.append (Quiet.refl _) hnew
      intro h0 x hx
      apply hused h0
      rwa [hext'.disk.vol, hext'.data, dirSlots_congr] at hx
      intro y hy
      apply update_of_ne
      rintro rfl
      exact hnew hy
  · rw [hrun]
    exact ⟨.here hsome hplaced, fun _ hfail => by cases hfail⟩

lemma PlacedAt.creation (hg : Geometry st.vol) (h : FatChain st.vol st.fat d l) {name : CString}
    {attr : UInt8} {r : Option (Option Found × Fs)} (hr : PlacedAt st d l name attr r) :
    Creation st d l name attr r := by
  cases hr with
  | full hq => exact .full hq
  | here hplace hplaced =>
    exact .created (Grown.refl h) hplaced (.inl ⟨hplace ▸ Option.some_ne_none _, rfl⟩)
  | behind hplace hext hplaced => exact .created (hext.grown hg) hplaced (.inr ⟨hplace, _, rfl⟩)

lemma lfnCount_lt {name : CString} (h : name.length < 64) : lfnCount name < 16 := by
  unfold lfnCount
  split <;> omega

lemma fatCreateEntry_placedAt (hr : Ready st) (h : FatChain st.vol st.fat d l) {name : CString}
    (attr : UInt8) (hname : name.length < 64) :
    PlacedAt st d l name attr (fatCreateEntry st d name attr) ∧
      ∀ st', fatCreateEntry st d name attr = some (none, st') → Full st l name := by
  have hfuel : chainFuel = 2 ^ 28 - 2 + 2 := by unfold chainFuel; rfl
  rw [fatCreateEntry, hfuel]
  exact createEntry_placedAt hr h attr (lfnCount_lt hname) _

lemma fatCreateEntry_ok (hr : Ready st) (h : FatChain st.vol st.fat d l) {name : CString}
    (attr : UInt8) (hname : name.length < 64) :
    Creation st d l name attr (fatCreateEntry st d name attr) :=
  (fatCreateEntry_placedAt hr h attr hname).1.creation hr.geometry h

lemma fatCreateEntry_full (hr : Ready st) (h : FatChain st.vol st.fat d l) {name : CString}
    (attr : UInt8) (hname : name.length < 64) (hfull : Full st l name) :
    ∃ st', fatCreateEntry st d name attr = some (none, st') ∧ Quiet st st' := by
  have hplaced := (fatCreateEntry_placedAt hr h attr hname).1
  generalize fatCreateEntry st d name attr = r at hplaced
  cases hplaced with
  | full hq => exact ⟨_, rfl, hq⟩
  | here hsome => cases hfull.1.symm.trans hsome
  | behind _ hext =>
    have hfree := hext.fresh
    rw [hfull.2] at hfree
    cases hfree

lemma fatCreateEntry_created (hr : Ready st) (h : FatChain st.vol st.fat d l) {name : CString}
    (attr : UInt8) (hname : name.length < 64) (hroom : ¬ Full st l name) :
    ∃ st1 st' l1 c i, fatCreateEntry st d name attr =
        some (some ⟨newDirent (nameToShort name) attr, c, 32 * i⟩, st') ∧ Grown st st1 d l l1 ∧
      Placed st1 st' l1 name attr c i := by
  obtain ⟨hplaced, hfail⟩ := fatCreateEntry_placedAt hr h attr hname
  have hcreate := hplaced.creation hr.geometry h
  generalize fatCreateEntry st d name attr = r at hcreate hfail
  cases hcreate with
  | full => exact absurd (hfail _ rfl) hroom
  | created hgrown hplaced => exact ⟨_, _, _, _, _, rfl, hgrown, hplaced⟩

end Creates

end FusionOS.Fat
