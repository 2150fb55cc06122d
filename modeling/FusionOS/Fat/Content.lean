import Mathlib.Data.List.GetD
import FusionOS.Fat.Table

/-!
# File contents

The bytes of a file are the bytes of its clusters, one cluster behind the other, up to the size in
its entry.
-/

namespace FusionOS.Fat

open List
open Function (update update_of_ne update_self)

/-- The byte at position `p` of the clusters `l` laid end to end. -/
def chainByte (cb : Nat) (data : Nat → Mem) (l : List Nat) (p : Nat) : UInt8 :=
  data (l.getD (p / cb) 0) (p % cb)

/-- The first `size` bytes of the clusters `l`. -/
def fileBytes (cb : Nat) (data : Nat → Mem) (l : List Nat) (size : Nat) : List UInt8 :=
  (List.range size).map (chainByte cb data l)

/-- The byte at position `p` of a file after `xs` has been written at `offset`. -/
def overlay (xs : List UInt8) (offset p : Nat) (old : UInt8) : UInt8 :=
  if offset ≤ p ∧ p < offset + xs.length then xs.getD (p - offset) 0 else old

section Bytes
variable {cb : Nat} {data : Nat → Mem} {a p : Nat} {t : List Nat}

variable {l : List Nat}

lemma chainByte_head (hp : p < cb) : chainByte cb data (a :: t) p = data a p := by
  rw [chainByte, Nat.div_eq_of_lt hp, Nat.mod_eq_of_lt hp, getD_cons_zero]

lemma chainByte_tail (hcb : 0 < cb) (hp : cb ≤ p) :
    chainByte cb data (a :: t) p = chainByte cb data t (p - cb) := by
  have hdiv : p / cb = (p - cb) / cb + 1 := by
    rw [Nat.div_eq_sub_div hcb hp]
  rw [chainByte, chainByte, hdiv, getD_cons_succ, Nat.mod_eq_sub_mod hp]

lemma chainByte_congr {data' : Nat → Mem} (hp : p < l.length * cb)
    (h : ∀ c ∈ l, data' c = data c) : chainByte cb data' l p = chainByte cb data l p := by
  have hlt : p / cb < l.length := Nat.div_lt_of_lt_mul (by rw [Nat.mul_comm]; exact hp)
  unfold chainByte
  rw [getD_eq_getElem _ _ hlt, h _ (getElem_mem hlt)]

@[simp] lemma fileBytes_length (l : List Nat) (size : Nat) :
    (fileBytes cb data l size).length = size := by simp [fileBytes]

lemma fileBytes_getElem {size : Nat} (h : p < (fileBytes cb data l size).length) :
    (fileBytes cb data l size)[p] = chainByte cb data l p := by simp [fileBytes]

lemma overlay_past {xs : List UInt8} {offset : Nat} {old : UInt8} (h : offset + xs.length ≤ p) :
    overlay xs offset p old = old := if_neg (by omega)

end Bytes

/-! ## Writing -/

section Write
variable {st : Fs} {xs : List UInt8} {offset : Nat}

variable {l : List Nat} {c : Nat}

lemma splice_overlay (buf : Mem) {pos i : Nat} (hi : i < 512)
    (hneed : offset + xs.length + 512 < 2 ^ 32) (hpos : pos < offset + xs.length) :
    (if writeStart offset pos < writeEnd offset xs.length pos then
      splice buf (writeStart offset pos) (writePiece xs offset pos) else buf) i =
      overlay xs offset (pos + i) (buf i) := by
  have hws : writeStart offset pos = offset - pos := by
    unfold writeStart
    split <;> omega
  have hwe : writeEnd offset xs.length pos =
      if offset + xs.length < pos + 512 then offset + xs.length - pos else 512 := by
    rw [writeEnd, u32_of_lt (show offset + xs.length < 2 ^ 32 by omega),
      u32_of_lt (show pos + 512 < 2 ^ 32 by omega)]
    congr 1
    unfold u32
    omega
  have hidx : u32 (pos + writeStart offset pos + (2 ^ 32 - offset)) =
      pos + writeStart offset pos - offset := by
    unfold u32
    omega
  rw [writePiece, hidx]
  generalize writeStart offset pos = ws at hws
  generalize writeEnd offset xs.length pos = we at hwe
  unfold overlay
  by_cases hw : ws < we
  · have hlen : ((xs.drop (pos + ws - offset)).take (we - ws)).length = we - ws := by
      rw [length_take, length_drop]
      split at hwe <;> omega
    rw [if_pos hw]
    by_cases hin : offset ≤ pos + i ∧ pos + i < offset + xs.length
    · have hj : i - ws < we - ws := by split at hwe <;> omega
      have hsplit : ws + (i - ws) = i := by omega
      have hget := splice_in buf ws ((xs.drop (pos + ws - offset)).take (we - ws)) (i := i - ws)
        (by rw [hlen]; exact hj)
      rw [hsplit, getElem_take, getElem_drop,
        ← getD_eq_getElem xs 0, show pos + ws - offset + (i - ws) = pos + i - offset by omega]
        at hget
      rw [if_pos hin, hget]
    · rw [if_neg hin, splice_out]
      rw [hlen]
      split at hwe <;> omega
  · rw [if_neg hw, if_neg]
    split at hwe <;> omega

variable (xs offset)

lemma writeSectors_step (hr : Ready st) (hc : st.vol.IsCluster c) {needSize pos s : Nat} (n : Nat)
    (hs : s < st.vol.sectorsPerCluster) (hpos : pos < needSize) :
    ∃ st', writeSectors xs offset needSize c (n + 1) s pos st =
        writeSectors xs offset needSize c n (s + 1) (u32 (pos + 512)) st' ∧
      Held st st' ∧ st'.fat = st.fat ∧ (∀ x, x ≠ c → st'.data x = st.data x) ∧
      (offset + xs.length + 512 < 2 ^ 32 → pos < offset + xs.length → ∀ i, st'.data c i =
        if i / 512 = s then overlay xs offset (pos + i % 512) (st.data c i) else st.data c i) := by
  obtain ⟨st1, hread, hq, hbuf, hback⟩ := modify_sector hr hc hs
  have hold : ∀ i, i / 512 = s → st1.sectorBuf (i % 512) = st.data c i := by
    intro i hi
    rw [hbuf _ (Nat.mod_lt _ (by decide))]
    congr 1
    omega
  have hover := fun i => @splice_overlay xs offset st1.sectorBuf pos _ (Nat.mod_lt i (by decide))
  rw [writeSectors, if_pos hpos]
  dsimp only
  rw [hread]
  dsimp only
  split
  · next hw =>
    simp only [if_pos hw] at hover
    obtain ⟨st2, hwrite, hd, hfat, hdata⟩ :=
      hback (splice st1.sectorBuf (writeStart offset pos) (writePiece xs offset pos))
    rw [hwrite]
    refine ⟨st2, rfl, hd, hfat, ?_, ?_⟩
    · intro x hx
      rw [hdata, update_of_ne hx]
    · intro hneed hlt i
      rw [hdata, update_self, setSector]
      split
      · next hi => rw [hover i hneed hlt, hold i hi]
      · rfl
  · next hw =>
    simp only [if_neg hw] at hover
    refine ⟨st1, rfl, hq.held, hq.fat, fun x _ => by rw [hq.data], ?_⟩
    intro hneed hlt i
    rw [hq.data]
    split
    · next hi => rw [← hold i hi, ← hover i hneed hlt]
    · rfl

lemma writeSectors_ok (hr : Ready st) (hc : st.vol.IsCluster c) (needSize n s pos : Nat)
    (hn : s + n ≤ st.vol.sectorsPerCluster) :
    ∃ pos' st', writeSectors xs offset needSize c n s pos st = (some pos', st') ∧
      Held st st' ∧ st'.fat = st.fat ∧ (∀ x, x ≠ c → st'.data x = st.data x) ∧
      (needSize = offset + xs.length → needSize + 512 < 2 ^ 32 → ∀ base, pos = base + s * 512 →
        (∀ i, i < s * 512 → st'.data c i = st.data c i) ∧
        (∀ i, s * 512 ≤ i → i < (s + n) * 512 →
          st'.data c i = overlay xs offset (base + i) (st.data c i)) ∧
        (pos' = base + (s + n) * 512 ∨ needSize ≤ pos' ∧ pos' ≤ base + (s + n) * 512)) := by
  induction n generalizing st s pos with
  | zero =>
    refine ⟨pos, st, rfl, Held.refl st, rfl, fun _ _ => rfl, fun _ _ base hb => ⟨fun _ _ => rfl, ?_, ?_⟩⟩
    · intro i h1 h2
      omega
    · left
      omega
  | succ n ih =>
    by_cases hpos : pos < needSize
    · obtain ⟨st1, hstep, hd, hfat, hother, hdata⟩ :=
        writeSectors_step xs offset hr hc n (s := s) (by omega) hpos
      obtain ⟨pos', st2, hrun, hd2, hfat2, hother2, hbytes⟩ := ih (hd.ready hr) (by rw [hd.vol]; exact hc)
        (s + 1) (u32 (pos + 512)) (by rw [hd.vol]; omega)
      refine ⟨pos', st2, hstep.trans hrun, hd.trans hd2, hfat2.trans hfat, ?_, ?_⟩
      · intro x hx
        rw [hother2 x hx, hother x hx]
      intro hneed hlt base hb
      have hdata := hdata (by omega) (by omega)
      obtain ⟨hlow, hhigh, hend⟩ := hbytes hneed hlt base (by rw [u32_of_lt (by omega)]; omega)
      rw [Nat.add_right_comm s 1 n] at hhigh hend
      refine ⟨fun i hi => ?_, fun i h1 h2 => ?_, hend⟩
      · rw [hlow i (Nat.lt_of_lt_of_le hi (by omega)), hdata i, if_neg (by omega)]
      · rcases Nat.lt_or_ge i ((s + 1) * 512) with hi | hi
        · rw [hlow i hi, hdata i, if_pos (by omega)]
          congr 1
          omega
        · rw [hhigh i hi h2, hdata i, if_neg (by omega)]
    · refine ⟨pos, st, ?_, Held.refl st, rfl, fun _ _ => rfl, fun hneed _ base hb => ⟨fun _ _ => rfl, ?_, ?_⟩⟩
      · rw [writeSectors, if_neg hpos]
      · intro i h1 h2
        rw [overlay_past (by omega)]
      · right
        omega

lemma clusterBytes_ge (hg : Geometry v) : 512 ≤ clusterBytes v := by
  have := hg.spc_pos
  unfold clusterBytes
  omega

lemma clusterBytes_pos (hr : Ready st) : 0 < clusterBytes st.vol :=
  Nat.mul_pos hr.geometry.spc_pos (by decide)

lemma writeChain_ok (hr : Ready st) (h : Walk st.vol st.fat c l) (needSize fuel pos : Nat)
    (hf : l.length < fuel) :
    ∃ st', writeChain xs offset needSize fuel c pos st = some (true, st') ∧
      Held st st' ∧ st'.fat = st.fat ∧ (∀ x, x ∉ l → st'.data x = st.data x) ∧
      (needSize = offset + xs.length → needSize + 512 < 2 ^ 32 → ∀ p < l.length * clusterBytes st.vol,
        chainByte (clusterBytes st.vol) st'.data l p =
          overlay xs offset (pos + p) (chainByte (clusterBytes st.vol) st.data l p)) := by
  induction l generalizing st c pos fuel with
  | nil => exact absurd rfl h.ne_nil
  | cons a t ih =>
    obtain rfl := h.head_eq
    obtain ⟨fuel, rfl⟩ := Nat.exists_eq_add_one.mpr (Nat.zero_lt_of_lt hf)
    have hcb := clusterBytes_pos hr
    have hcl := h.node_head
    have hout : a ∉ t := (nodup_cons.mp (Chain.nodup hr.geometry.guard h)).1
    by_cases hpos : pos < needSize
    swap
    · refine ⟨st, ?_, Held.refl st, rfl, fun _ _ => rfl, ?_⟩
      · rw [writeChain, if_neg (by omega)]
      · intro _ _ p _
        rw [overlay_past (by omega)]
    obtain ⟨pos', st1, hrun, hd, hfat, hother, hdata⟩ :=
      writeSectors_ok xs offset hr hcl needSize st.vol.sectorsPerCluster 0 pos (by omega)
    obtain ⟨st2, hget, hq⟩ := fatGetEntry_ok (hd.ready hr) (c := a) (by rw [hd.vol]; exact hcl.2)
    have hd2 := hd.trans hq.held
    rw [writeChain, if_pos ⟨isCluster_guard hr.geometry hcl, hpos⟩, hrun]
    dsimp only
    rw [hget, hfat]
    dsimp only
    -- what is left to do is the chain from `st.fat a` on, if there is one
    obtain ⟨st3, hrun3, hd3, hfat3, hother3, hbytes3⟩ :
        ∃ st', writeChain xs offset needSize fuel (st.fat a) pos' st2 = some (true, st') ∧
          Held st2 st' ∧ st'.fat = st.fat ∧ (∀ x, x ∉ t → st'.data x = st1.data x) ∧
          (needSize = offset + xs.length → needSize + 512 < 2 ^ 32 →
            ∀ p < t.length * clusterBytes st.vol, chainByte (clusterBytes st.vol) st'.data t p =
              overlay xs offset (pos' + p) (chainByte (clusterBytes st.vol) st1.data t p)) := by
      cases h with
      | last _ hstop =>
        obtain ⟨fuel, rfl⟩ := Nat.exists_eq_add_one.mpr (Nat.lt_of_succ_lt_succ hf)
        refine ⟨st2, ?_, Held.refl _, hq.fat.trans hfat, fun x _ => by rw [hq.data], ?_⟩
        · rw [writeChain, if_neg fun hx => hstop hx.1]
        · intro _ _ p hp
          rw [length_nil] at hp
          omega
      | cons _ ht =>
        have hih := ih (hd2.ready hr) (by rw [hd2.vol, hq.fat, hfat]; exact ht) fuel pos'
          (by rw [length_cons] at hf; omega)
        rw [hd2.vol, hq.fat, hfat, hq.data] at hih
        exact hih
    refine ⟨st3, hrun3, hd2.trans hd3, hfat3, ?_, ?_⟩
    · intro x hx
      rw [mem_cons, not_or] at hx
      rw [hother3 x hx.2, hother x hx.1]
    intro hneed hlt p hp
    obtain ⟨-, hdata, hend⟩ := hdata hneed hlt pos rfl
    rw [Nat.zero_add, show st.vol.sectorsPerCluster * 512 = clusterBytes st.vol from rfl] at hdata hend
    rcases Nat.lt_or_ge p (clusterBytes st.vol) with hp' | hge
    · rw [chainByte_head hp', chainByte_head hp', hother3 a hout, hdata p (by omega) hp']
    · rw [length_cons, Nat.add_mul, Nat.one_mul] at hp
      rw [chainByte_tail hcb hge, chainByte_tail hcb hge, hbytes3 hneed hlt _ (by omega)]
      have hsame : ∀ x ∈ t, st1.data x = st.data x := by
        intro x hx
        apply hother
        rintro rfl
        exact hout hx
      rw [chainByte_congr (l := t) (by omega) hsame]
      rcases hend with rfl | hend
      · congr 1
        omega
      · -- the data end within the cluster
        rw [overlay_past (by omega), overlay_past (by omega)]

end Write

/-! ## Reading -/

/-- `st'` is `st` with the heap memory `m`, but for the buffer and the count of transfers. -/
def HeapMem (st st' : Fs) (m : Mem) : Prop :=
  ∃ buf n, st' = { st with sectorBuf := buf, ops := n, heap := { st.heap with mem := m } }

/-- Memory with the bytes of `src` from `lo` up to `hi` at the same addresses. -/
def blit (m src : Mem) (lo hi : Nat) : Mem := fun x => if lo ≤ x ∧ x < hi then src x else m x

variable {hi lo : Nat}

lemma blit_empty (m src : Mem) (h : hi ≤ lo) : blit m src lo hi = m := by
  funext x
  exact if_neg (by omega)

lemma blit_blit (m src : Mem) {mid : Nat} (h1 : lo ≤ mid) (h2 : mid ≤ hi) :
    blit (blit m src lo mid) src mid hi = blit m src lo hi := by
  funext x
  unfold blit
  by_cases hmid : mid ≤ x ∧ x < hi
  · rw [if_pos hmid, if_pos (by omega)]
  · rw [if_neg hmid]
    by_cases hlo : lo ≤ x ∧ x < mid
    · rw [if_pos hlo, if_pos (by omega)]
    · rw [if_neg hlo, if_neg (by omega)]

section Read
variable {st st' : Fs} {m : Mem}

variable {c size : Nat}

lemma HeapMem.mem (h : HeapMem st st' m) : st'.heap.mem = m := by
  obtain ⟨_, _, rfl⟩ := h
  rfl

lemma HeapMem.vol (h : HeapMem st st' m) : st'.vol = st.vol := by
  obtain ⟨_, _, rfl⟩ := h
  rfl

lemma HeapMem.fat (h : HeapMem st st' m) : st'.fat = st.fat := by
  obtain ⟨_, _, rfl⟩ := h
  rfl

lemma HeapMem.data (h : HeapMem st st' m) : st'.data = st.data := by
  obtain ⟨_, _, rfl⟩ := h
  rfl

lemma HeapMem.ready (h : HeapMem st st' m) (hr : Ready st) : Ready st' := by
  obtain ⟨_, _, rfl⟩ := h
  exact ⟨hr.geometry, hr.io⟩

lemma HeapMem.trans {st'' : Fs} {m' : Mem} (h : HeapMem st st' m) (h' : HeapMem st' st'' m') :
    HeapMem st st'' m' := by
  obtain ⟨_, _, rfl⟩ := h
  obtain ⟨b, n, rfl⟩ := h'
  exact ⟨b, n, rfl⟩

lemma Quiet.setMem (h : Quiet st st') (m : Mem) : HeapMem st (st'.setMem m) m := by
  obtain ⟨b, n, rfl⟩ := h
  exact ⟨b, n, rfl⟩

lemma HeapMem.quiet {st'' : Fs} (h : HeapMem st st' m) (h' : Quiet st' st'') :
    HeapMem st st'' m := by
  obtain ⟨_, _, rfl⟩ := h
  obtain ⟨b, n, rfl⟩ := h'
  exact ⟨b, n, rfl⟩

lemma HeapMem.refl (st : Fs) : HeapMem st st st.heap.mem := ⟨_, _, rfl⟩

/-- The bytes of the sectors of `c`, the first of them at `base`. -/
def Fs.sectorBytes (st : Fs) (c base : Nat) : Mem := fun x =>
  st.disk (u32 (clusterToLba st.vol c + (x - base) / 512)) ((x - base) % 512)

lemma HeapMem.sectorBytes (h : HeapMem st st' m) : st'.sectorBytes = st.sectorBytes := by
  obtain ⟨_, _, rfl⟩ := h
  rfl

lemma HeapMem.io (h : HeapMem st st' m) : st'.ioOk = st.ioOk := by
  obtain ⟨_, _, rfl⟩ := h
  rfl

lemma sectorBytes_eq_data (hg : Geometry st.vol) (hc : st.vol.IsCluster c) (base : Nat) {i : Nat}
    (hi : i < clusterBytes st.vol) : st.sectorBytes c base (base + i) = st.data c i := by
  have hs : i / 512 < st.vol.sectorsPerCluster := by
    unfold clusterBytes at hi
    omega
  rw [Fs.sectorBytes, Nat.add_sub_cancel_left, hg.lba_eq hc hs, Fs.data, if_pos ⟨hc, hi⟩]

lemma splice_sector (ptr : Nat) {base s : Nat} (hlt : base + s * 512 < size) :
    splice st.heap.mem (ptr + (base + s * 512)) (slice (st.disk (u32 (clusterToLba st.vol c + s))) 0
        (min size (base + (s + 1) * 512) - (base + s * 512))) =
      blit st.heap.mem (st.sectorBytes c (ptr + base)) (ptr + (base + s * 512))
        (ptr + min size (base + (s + 1) * 512)) := by
  funext x
  unfold blit
  split
  · next hx =>
    obtain ⟨j, rfl⟩ : ∃ j, x = ptr + (base + s * 512) + j := ⟨x - (ptr + (base + s * 512)), by omega⟩
    have hj : j < 512 := by omega
    rw [splice_in _ _ _ (by rw [slice_length]; omega), slice_getElem, Nat.zero_add, Fs.sectorBytes,
      show ptr + (base + s * 512) + j - (ptr + base) = j + s * 512 by omega,
      Nat.add_mul_div_right _ _ (by decide), Nat.add_mul_mod_self_right, Nat.div_eq_of_lt hj,
      Nat.mod_eq_of_lt hj, Nat.zero_add]
  · next hx => rw [splice_out _ _ _ (by rw [slice_length]; omega)]

/-- The sectors are copied up to the first that cannot be read, and up to the size of the file. -/
lemma readSectors_spec (hsize : size + 512 ≤ 2 ^ 32) (ptr base n s : Nat) {r : Option Nat}
    (h : readSectors ptr size c n s (min size (base + s * 512)) st = (r, st')) :
    ∃ o, min size (base + s * 512) ≤ o ∧ o ≤ size ∧
      HeapMem st st' (blit st.heap.mem (st.sectorBytes c (ptr + base)) (ptr + min size (base + s * 512))
        (ptr + o)) ∧
      (r = none ∨ r = some o ∧ o = min size (base + (s + n) * 512) ∧
        (base + (s + n) * 512 ≤ size → st'.ops = st.ops + n)) := by
  induction n generalizing st s with
  | zero =>
    cases h
    refine ⟨_, le_rfl, Nat.min_le_left _ _, ?_, .inr ⟨rfl, rfl, fun _ => rfl⟩⟩
    rw [blit_empty _ _ le_rfl]
    exact HeapMem.refl _
  | succ n ih =>
    by_cases hlt : base + s * 512 < size
    · have hmin : min size (base + s * 512) = base + s * 512 := by omega
      rw [readSectors, hmin, if_pos hlt, blkRead] at h
      rw [hmin]
      cases hio : st.ioOk st.ops with
      | false =>
        rw [hio] at h
        cases h
        refine ⟨_, le_rfl, hlt.le, ?_, .inl rfl⟩
        rw [blit_empty _ _ le_rfl]
        exact ⟨_, _, rfl⟩
      | true =>
        have hcopy : (if size < u32 (base + s * 512 + 512) then size - (base + s * 512) else 512) =
            min size (base + (s + 1) * 512) - (base + s * 512) := by
          rw [u32_of_lt (by omega)]
          split <;> omega
        have hnext : u32 (base + s * 512 + (min size (base + (s + 1) * 512) - (base + s * 512))) =
            min size (base + (s + 1) * 512) := by
          rw [u32_of_lt] <;> omega
        rw [hio, if_pos rfl] at h
        dsimp only at h
        rw [hcopy, hnext, splice_sector ptr hlt] at h
        obtain ⟨st1, hm1, h1⟩ : ∃ st1, HeapMem st st1 (blit st.heap.mem (st.sectorBytes c (ptr + base))
            (ptr + (base + s * 512)) (ptr + min size (base + (s + 1) * 512))) ∧ st1.ops = st.ops + 1 ∧
            readSectors ptr size c n (s + 1) (min size (base + (s + 1) * 512)) st1 = (r, st') :=
          ⟨_, ⟨_, _, rfl⟩, rfl, h⟩
        obtain ⟨o, hge, hle, hm, hr⟩ := ih (s + 1) h1.2
        rw [Nat.succ_add_eq_add_succ] at hr
        rw [hm1.mem, hm1.sectorBytes, blit_blit _ _ (by omega) (by omega)] at hm
        refine ⟨o, by omega, hle, hm1.trans hm, ?_⟩
        rcases hr with rfl | ⟨rfl, ho, hops⟩
        · exact .inl rfl
        · refine .inr ⟨rfl, ho, fun hroom => ?_⟩
          rw [hops hroom, h1.1, Nat.succ_add_eq_add_succ]
    · have hmin : min size (base + s * 512) = size := by omega
      rw [readSectors, hmin, if_neg (Nat.lt_irrefl _)] at h
      obtain ⟨rfl, rfl⟩ := Prod.mk.inj h
      refine ⟨size, hmin.le, le_rfl, ?_, .inr ⟨rfl, by omega, fun _ => by omega⟩⟩
      rw [hmin, blit_empty _ _ le_rfl]
      exact HeapMem.refl _

lemma readSectors_from (hsize : size + 512 ≤ 2 ^ 32) (ptr n : Nat) {offset : Nat} (ho : offset ≤ size)
    {r : Option Nat} (h : readSectors ptr size c n 0 offset st = (r, st')) :
    ∃ o, offset ≤ o ∧ o ≤ size ∧
      HeapMem st st' (blit st.heap.mem (st.sectorBytes c (ptr + offset)) (ptr + offset) (ptr + o)) ∧
      (r = none ∨ r = some o ∧ o = min size (offset + n * 512) ∧
        (offset + n * 512 ≤ size → st'.ops = st.ops + n)) := by
  have hmin : min size (offset + 0 * 512) = offset := by omega
  have hspec := readSectors_spec hsize ptr offset n 0 (hmin.symm ▸ h)
  rw [hmin, Nat.zero_add] at hspec
  exact hspec

lemma readChain_spec (hsize : size + 512 ≤ 2 ^ 32) (ptr : Nat) {fuel offset : Nat} (ho : offset ≤ size)
    {r : Bool} (h : readChain ptr size fuel c offset st = some (r, st')) :
    ∃ m, HeapMem st st' m ∧ ∀ i, i < ptr + offset ∨ ptr + size ≤ i → m i = st.heap.mem i := by
  induction fuel generalizing st c offset with
  | zero => cases h
  | succ fuel ih =>
    rw [readChain] at h
    split at h
    · cases hrun : readSectors ptr size c st.vol.sectorsPerCluster 0 offset st with
      | mk x st1 =>
        rw [hrun] at h
        obtain ⟨o, hge, hle, hm, hx⟩ := readSectors_from hsize ptr _ ho hrun
        rcases hx with rfl | ⟨rfl, -⟩
        · cases h
          exact ⟨_, hm, fun i hi => if_neg (by omega)⟩
        · have hm2 := hm.quiet (@fatGetEntry_quiet st1 c)
          dsimp only at h
          generalize fatGetEntry st1 c = next at h hm2
          obtain ⟨m, hm3, hkeep⟩ := ih hle h
          refine ⟨m, hm2.trans hm3, fun i hi => ?_⟩
          rw [hkeep i (by omega), hm2.mem]
          exact if_neg (by omega)
    · cases h
      exact ⟨_, HeapMem.refl _, fun _ _ => rfl⟩

lemma readChain_ends (hspc : 0 < st.vol.sectorsPerCluster) (hsize : size + 512 ≤ 2 ^ 32) (ptr : Nat)
    {fuel offset : Nat} (ho : offset ≤ size) (hf : size - offset < fuel) :
    ∃ r, readChain ptr size fuel c offset st = some r := by
  induction fuel generalizing st c offset with
  | zero => omega
  | succ fuel ih =>
    rw [readChain]
    split
    · next hguard =>
      cases hrun : readSectors ptr size c st.vol.sectorsPerCluster 0 offset st with
      | mk x st1 =>
        obtain ⟨o, -, hle, hm, hx⟩ := readSectors_from hsize ptr _ ho hrun
        rcases hx with rfl | ⟨rfl, hstep, -⟩
        · exact ⟨_, rfl⟩
        · have hm2 := hm.quiet (@fatGetEntry_quiet st1 c)
          dsimp only
          generalize fatGetEntry st1 c = next at hm2
          -- a sector has been read, so the rest of the file is shorter
          apply ih _ hle (by omega)
          rw [hm2.vol]
          exact hspc
    · exact ⟨_, rfl⟩

end Read

/-! ## What is read -/

/-- The cluster number `k` of the chain from `c` on, as the first FAT on the disk has it. -/
def Fs.clusterAt (st : Fs) : Nat → Nat → Option Nat
  | 0, c => if st.vol.IsCluster c then some c else none
  | k + 1, c => if st.vol.IsCluster c then st.clusterAt k (st.fat c) else none

/-- The FAT is read behind every cluster in front of the one with offset `i`, without a failure. The
read behind a cluster follows those of its sectors. -/
def LinksRead (st : Fs) (i : Nat) : Prop :=
  ∀ j < i / clusterBytes st.vol,
    st.ioOk (st.ops + j * (st.vol.sectorsPerCluster + 1) + st.vol.sectorsPerCluster) = true

section Exact
variable {st st' : Fs} {ptr size c : Nat}

lemma clusterAt_congr {st2 : Fs} (hvol : st2.vol = st.vol) (hfat : st2.fat = st.fat) (k c : Nat) :
    st2.clusterAt k c = st.clusterAt k c := by
  induction k generalizing c with
  | zero => rw [Fs.clusterAt, Fs.clusterAt, hvol]
  | succ k ih => rw [Fs.clusterAt, Fs.clusterAt, hvol, hfat, ih]

lemma clusterAt_isCluster {k x : Nat} (h : st.clusterAt k c = some x) : st.vol.IsCluster c := by
  by_contra hc
  cases k with
  | zero =>
    rw [Fs.clusterAt, if_neg hc] at h
    cases h
  | succ k =>
    rw [Fs.clusterAt, if_neg hc] at h
    cases h

lemma FatChain.clusterAt {l : List Nat} (h : FatChain st.vol st.fat c l) {k : Nat} (hk : k < l.length) :
    st.clusterAt k c = some (l.getD k 0) := by
  induction h generalizing k with
  | last hc _ =>
    obtain rfl : k = 0 := Nat.lt_one_iff.mp hk
    rw [Fs.clusterAt, if_pos hc, getD_cons_zero]
  | cons hc _ ih =>
    cases k with
    | zero => rw [Fs.clusterAt, if_pos hc, getD_cons_zero]
    | succ k => rw [Fs.clusterAt, if_pos hc, getD_cons_succ, ih (Nat.lt_of_succ_lt_succ hk)]

lemma linksRead_succ {st2 : Fs} {k : Nat} (hvol : st2.vol = st.vol) (hio : st2.ioOk = st.ioOk)
    (hops : st2.ops = st.ops + st.vol.sectorsPerCluster + 1) (hcb : 0 < clusterBytes st.vol) :
    LinksRead st (k + clusterBytes st.vol) ↔
      st.ioOk (st.ops + st.vol.sectorsPerCluster) = true ∧ LinksRead st2 k := by
  unfold LinksRead
  rw [hvol, hio, hops, Nat.add_div_right _ hcb]
  have hshift : ∀ j, st.ops + (j + 1) * (st.vol.sectorsPerCluster + 1) =
      st.ops + st.vol.sectorsPerCluster + 1 + j * (st.vol.sectorsPerCluster + 1) := by
    intro j
    rw [Nat.succ_mul]
    omega
  constructor
  · intro h
    constructor
    · have h0 := h 0 (Nat.succ_pos _)
      rwa [Nat.zero_mul, Nat.add_zero] at h0
    · intro j hj
      rw [← hshift]
      exact h (j + 1) (Nat.succ_lt_succ hj)
  · rintro ⟨h0, h⟩ j hj
    cases j with
    | zero =>
      rw [Nat.zero_mul, Nat.add_zero]
      exact h0
    | succ j =>
      rw [hshift]
      exact h j (Nat.lt_of_succ_lt_succ hj)

lemma readChain_bytes (hg : Geometry st.vol) (hsize : size + 512 ≤ 2 ^ 32) {fuel offset : Nat}
    (h : readChain ptr size fuel c offset st = some (true, st')) {k x : Nat}
    (hk : offset + k < size) (hx : st.clusterAt (k / clusterBytes st.vol) c = some x) :
    (LinksRead st k → st'.heap.mem (ptr + (offset + k)) = st.data x (k % clusterBytes st.vol)) ∧
      (¬ LinksRead st k → st'.heap.mem (ptr + (offset + k)) = st.heap.mem (ptr + (offset + k))) := by
  induction fuel generalizing st c offset k with
  | zero => cases h
  | succ fuel ih =>
    have hcl := clusterAt_isCluster hx
    have hcb := clusterBytes_ge hg
    rw [readChain, if_pos ⟨isCluster_guard hg hcl, by omega⟩] at h
    cases hrun : readSectors ptr size c st.vol.sectorsPerCluster 0 offset st with
    | mk r st1 =>
      obtain ⟨o, -, hle, hm, hr⟩ := readSectors_from hsize ptr _ (by omega) hrun
      rw [hrun] at h
      rcases hr with rfl | ⟨rfl, ho, hops1⟩
      · cases h
      rw [← clusterBytes] at ho hops1
      obtain ⟨st2, hget, hq, hops⟩ := fatGetEntry_any (hm.vol ▸ hg) (c := c) (by rw [hm.vol]; exact hcl.2)
      have hm2 := hm.quiet hq
      dsimp only at h
      rw [hget, hm.fat, hm.io] at h
      dsimp only at h
      by_cases hfirst : k < clusterBytes st.vol
      · -- the position lies in the cluster that has just been copied
        rw [Nat.div_eq_of_lt hfirst, Fs.clusterAt, if_pos hcl] at hx
        cases hx
        have hall : LinksRead st k := by
          intro j hj
          rw [Nat.div_eq_of_lt hfirst] at hj
          omega
        refine ⟨fun _ => ?_, fun hno => absurd hall hno⟩
        obtain ⟨m, hm3, hkeep⟩ := readChain_spec hsize ptr hle h
        rw [hm3.mem, hkeep _ (by omega), hm2.mem, blit, if_pos (by omega), ← Nat.add_assoc,
          sectorBytes_eq_data hg hcl _ hfirst, Nat.mod_eq_of_lt hfirst]
      · obtain ⟨k, rfl⟩ : ∃ k', k = k' + clusterBytes st.vol := ⟨k - clusterBytes st.vol, by omega⟩
        obtain rfl : o = offset + clusterBytes st.vol := by omega
        rw [hops1 (by omega)] at hops h
        have hlinks := linksRead_succ hm2.vol hm2.io (k := k) hops (by omega)
        rw [Nat.add_div_right _ (by omega), Fs.clusterAt, if_pos hcl] at hx
        have hkeep : st2.heap.mem (ptr + (offset + (k + clusterBytes st.vol))) =
            st.heap.mem (ptr + (offset + (k + clusterBytes st.vol))) := by
          rw [hm2.mem, blit, if_neg (by omega)]
        by_cases hok : st.ioOk (st.ops + st.vol.sectorsPerCluster) = true
        · rw [if_pos hok] at h
          have hsame := clusterAt_congr hm2.vol hm2.fat (k / clusterBytes st.vol) (st.fat c)
          have hih := ih (k := k) (by rw [hm2.vol]; exact hg) h (by omega)
            (by rw [hm2.vol, hsame]; exact hx)
          rw [hm2.vol, hm2.data, Nat.add_right_comm, Nat.add_assoc offset, hkeep] at hih
          rw [hlinks, Nat.add_mod_right]
          exact ⟨fun hl => hih.1 hl.2, fun hno => hih.2 fun hl => hno ⟨hok, hl⟩⟩
        · -- the FAT read failed, and the loop ends here
          rw [if_neg hok] at h
          refine ⟨fun hl => absurd (hlinks.mp hl).1 hok, fun _ => ?_⟩
          cases fuel with
          | zero => cases h
          | succ fuel =>
            rw [readChain, if_neg fun hx => absurd hx.1.2 (by decide)] at h
            cases h
            exact hkeep

end Exact

section Reads
variable {v : Volume} (ptr size : Nat)

lemma readSectors_same {c : Nat} (hc : v.IsCluster c) (m' : Mem) (n s offset : Nat)
    (hn : s + n ≤ v.sectorsPerCluster) (m : Mem) :
    ∃ r m1, ∀ st : Fs, Ready st → st.vol = v → st.data c = m' → st.heap.mem = m →
      ∃ st', readSectors ptr size c n s offset st = (some r, st') ∧ HeapMem st st' m1 := by
  induction n generalizing s offset m with
  | zero =>
    refine ⟨offset, m, ?_⟩
    rintro st - - - rfl
    exact ⟨st, rfl, HeapMem.refl st⟩
  | succ n ih =>
    by_cases hlt : offset < size
    · set toCopy := if size < u32 (offset + 512) then size - offset else 512 with hcopy
      have hle : toCopy ≤ 512 := by
        have : u32 (offset + 512) ≤ offset + 512 := Nat.mod_le _ _
        rw [hcopy]
        split <;> omega
      obtain ⟨r, m1, ih⟩ := ih (s + 1) (u32 (offset + toCopy)) (by omega)
        (splice m (ptr + offset) (slice m' (s * 512) toCopy))
      refine ⟨r, m1, ?_⟩
      rintro st hr rfl rfl rfl
      obtain ⟨st1, hread, hq, hbuf⟩ := blkRead_data hr hc (s := s) (by omega)
      have hslice : slice st1.sectorBuf 0 toCopy = slice (st.data c) (s * 512) toCopy := by
        apply slice_shift
        intro i hi
        rw [Nat.zero_add]
        exact hbuf i (by omega)
      have hset := hq.setMem (splice st.heap.mem (ptr + offset) (slice (st.data c) (s * 512) toCopy))
      obtain ⟨st2, hrun, hm⟩ := ih _ (hset.ready hr) hset.vol (by rw [hset.data]) hset.mem
      refine ⟨st2, ?_, hset.trans hm⟩
      rw [readSectors, if_pos hlt, hread]
      dsimp only
      rw [← hcopy, hslice, hq.diskOnly.heap]
      exact hrun
    · refine ⟨offset, m, ?_⟩
      rintro st - - - rfl
      exact ⟨st, by rw [readSectors, if_neg hlt], HeapMem.refl st⟩

lemma readChain_same (data : Nat → Mem) (l : List Nat) (c offset fuel : Nat) (hf : l.length < fuel)
    (m : Mem) :
    ∃ m1, ∀ st : Fs, Ready st → st.vol = v → (∀ x ∈ l, st.data x = data x) → st.heap.mem = m →
      FatChain v st.fat c l →
      ∃ st', readChain ptr size fuel c offset st = some (true, st') ∧ HeapMem st st' m1 := by
  induction l generalizing c offset fuel m with
  | nil => exact ⟨m, fun st _ _ _ _ h => absurd rfl h.ne_nil⟩
  | cons a t ih =>
    obtain ⟨fuel, rfl⟩ := Nat.exists_eq_add_one.mpr (Nat.zero_lt_of_lt hf)
    by_cases hcl : v.IsCluster a ∧ offset < size
    · obtain ⟨r, m1, hsec⟩ := readSectors_same ptr size hcl.1 (data a) v.sectorsPerCluster 0 offset
        (by omega) m
      -- the chain goes on with the head of `t`, or ends
      obtain ⟨m2, ih⟩ := ih (t.headD 0) r fuel (by rw [List.length_cons] at hf; omega) m1
      refine ⟨if t = [] then m1 else m2, ?_⟩
      intro st hr hv hdata hm h
      obtain rfl := h.head_eq
      subst hv
      obtain ⟨st1, hrun, hmem⟩ := hsec st hr rfl (hdata a List.mem_cons_self) hm
      obtain ⟨st2, hget, hq⟩ := fatGetEntry_ok (hmem.ready hr) (c := a)
        (by rw [hmem.vol]; exact hcl.1.2)
      have hmem2 := hmem.quiet hq
      have hguard := isCluster_guard hr.geometry hcl.1
      rw [readChain, if_pos ⟨hguard, hcl.2⟩, hrun]
      dsimp only
      rw [hget, hmem.fat]
      dsimp only
      cases h with
      | last _ hstop =>
        obtain ⟨fuel, rfl⟩ := Nat.exists_eq_add_one.mpr (Nat.lt_of_succ_lt_succ hf)
        refine ⟨st2, ?_, ?_⟩
        · rw [readChain, if_neg (by omega)]
        · rw [if_pos rfl]
          exact hmem2
      | cons _ ht =>
        obtain ⟨t'', rfl⟩ := ht.eq_cons
        obtain ⟨st3, hrun3, hmem3⟩ := ih st2 (hmem2.ready hr) hmem2.vol
          (fun x hx => by rw [hmem2.data]; exact hdata x (List.mem_cons_of_mem _ hx)) hmem2.mem
          (by rw [hmem2.fat]; exact ht)
        refine ⟨st3, hrun3, ?_⟩
        rw [if_neg (List.cons_ne_nil _ _)]
        exact hmem2.trans hmem3
    · refine ⟨m, ?_⟩
      intro st hr hv _ hm h
      obtain rfl := h.head_eq
      refine ⟨st, ?_, hm ▸ HeapMem.refl st⟩
      rw [readChain, if_neg]
      intro hgo
      exact hcl ⟨h.node_head, hgo.2⟩

end Reads

end FusionOS.Fat
