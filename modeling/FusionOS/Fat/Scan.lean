import FusionOS.Fat.Table

/-!
# Scanning a directory

A directory is the list of the slots of its clusters. The nested loops of the
scanners run along this list, and lookup and deletion are recursions on it.
-/

namespace FusionOS.Fat

/-- The slots of cluster `c`, each with its place. -/
def clusterSlots (v : Volume) (data : Nat → Mem) (c : Nat) : List Found :=
  (List.range' 0 (v.sectorsPerCluster * 16) 32).map fun off => ⟨slice (data c) off 32, c, off⟩

/-- The slots of the directory with the clusters `l`. -/
def dirSlots (v : Volume) (data : Nat → Mem) (l : List Nat) : List Found :=
  l.flatMap (clusterSlots v data)

lemma dirSlots_cons (v : Volume) (data : Nat → Mem) (c : Nat) (l : List Nat) :
    dirSlots v data (c :: l) = clusterSlots v data c ++ dirSlots v data l := List.flatMap_cons

lemma dirSlots_append (v : Volume) (data : Nat → Mem) (l l' : List Nat) :
    dirSlots v data (l ++ l') = dirSlots v data l ++ dirSlots v data l' := List.flatMap_append

section Loops
variable {σ ρ : Type} {st : Fs}

/-- A scan of the clusters `l` that applies `enter` at the start of each. -/
def dirScan (v : Volume) (data : Nat → Mem) (enter : σ → σ)
    (body : σ → Nat → Nat → Slot → Scan σ ρ) : List Nat → σ → Scan σ ρ
  | [], s => .next s
  | c :: l, s =>
    (Scan.run (fun s f => body s f.cluster f.offset f.ent) (clusterSlots v data c) (enter s)).andThen
      (dirScan v data enter body l)

lemma dirScan_id (v : Volume) (data : Nat → Mem) (body : σ → Nat → Nat → Slot → Scan σ ρ)
    (l : List Nat) (s : σ) : dirScan v data id body l s =
      Scan.run (fun s f => body s f.cluster f.offset f.ent) (dirSlots v data l) s := by
  induction l generalizing s with
  | nil => rfl
  | cons c l ih =>
    rw [dirSlots, List.flatMap_cons, Scan.run_append, dirScan, id_eq]
    congr 1
    funext s
    exact ih s

def Scan.lift : Scan σ ρ → Scan σ (Option ρ)
  | .next s => .next s
  | .stop r => .stop (some r)

lemma slotLoop_eq (body : σ → Nat → Slot → Scan σ ρ) (buf : Mem) (n off : Nat) (s : σ) :
    slotLoop body buf n off s =
      Scan.run (fun s off => body s off (slice buf off 32)) (List.range' off n 32) s := by
  induction n generalizing off s with
  | zero => rfl
  | succ n ih =>
    rw [slotLoop, List.range'_succ, Scan.run]
    cases body s off (slice buf off 32) with
    | next s => exact ih (off + 32) s
    | stop r => rfl

lemma sectorLoop_ok (hr : Ready st) {c : Nat} (hc : st.vol.IsCluster c)
    (body : σ → Nat → Nat → Slot → Scan σ ρ) (n s : Nat) (hn : s + n ≤ st.vol.sectorsPerCluster)
    (a : σ) :
    ∃ st', sectorLoop body c n s a st =
        (Scan.lift (Scan.run (fun a off => body a c off (slice (st.data c) off 32))
          (List.range' (s * 512) (n * 16) 32) a), st') ∧ Quiet st st' := by
  induction n generalizing st s a with
  | zero => exact ⟨st, by rw [sectorLoop, Nat.zero_mul]; rfl, Quiet.refl st⟩
  | succ n ih =>
    obtain ⟨st1, hread, hq, hbuf⟩ := blkRead_data hr hc (s := s) (by omega)
    have hsector : slotLoop (fun a off => body a c (off + s * 512)) st1.sectorBuf 16 0 a =
        Scan.run (fun a off => body a c off (slice (st.data c) off 32))
          (List.range' (s * 512) 16 32) a := by
      have hshift : List.range' (s * 512) 16 32 = (List.range' 0 16 32).map (· + s * 512) := by
        simp only [Nat.add_comm _ (s * 512), List.map_add_range', Nat.add_zero]
      rw [slotLoop_eq, hshift, Scan.run_map]
      apply Scan.run_congr
      intro off hoff a
      have hlt : off + 32 ≤ 512 := by
        obtain ⟨k, hk, rfl⟩ := List.mem_range'.mp hoff
        omega
      have hslot : slice st1.sectorBuf off 32 = slice (st.data c) (off + s * 512) 32 := by
        apply slice_shift
        intro i hi
        rw [hbuf _ (by omega)]
        congr 1
        omega
      rw [hslot]
    have hrange : List.range' (s * 512) ((n + 1) * 16) 32 =
        List.range' (s * 512) 16 32 ++ List.range' ((s + 1) * 512) (n * 16) 32 := by
      rw [show (s + 1) * 512 = s * 512 + 32 * 16 by omega, List.range'_append]
      congr 1
      omega
    rw [sectorLoop, hread]
    dsimp only
    rw [hsector, hrange, Scan.run_append]
    cases Scan.run (fun a off => body a c off (slice (st.data c) off 32))
        (List.range' (s * 512) 16 32) a with
    | stop r => exact ⟨st1, rfl, hq⟩
    | next a =>
      obtain ⟨st2, hrun, hq2⟩ := ih (hq.ready hr) (by rw [hq.vol]; exact hc) (s + 1)
        (by rw [hq.vol]; omega) a
      rw [hq.data] at hrun
      exact ⟨st2, hrun, hq.trans hq2⟩

lemma chainLoop_ok (hr : Ready st) {c : Nat} {l : List Nat} (h : FatChain st.vol st.fat c l)
    (enter : σ → σ) (body : σ → Nat → Nat → Slot → Scan σ ρ) (fuel : Nat) (hf : l.length < fuel)
    (a : σ) :
    ∃ st', chainLoop enter body fuel c a st =
        some (Scan.lift (dirScan st.vol st.data enter body l a), st') ∧ Quiet st st' := by
  induction l generalizing st c fuel a with
  | nil => exact absurd rfl h.ne_nil
  | cons b t ih =>
    obtain rfl := h.head_eq
    obtain ⟨fuel, rfl⟩ := Nat.exists_eq_add_one.mpr (Nat.zero_lt_of_lt hf)
    have hcl := h.node_head
    obtain ⟨st1, hsec, hq⟩ := sectorLoop_ok hr hcl body st.vol.sectorsPerCluster 0 (by omega) (enter a)
    have hslots : Scan.run (fun s f => body s f.cluster f.offset f.ent)
          (clusterSlots st.vol st.data b) (enter a) =
        Scan.run (fun a off => body a b off (slice (st.data b) off 32))
          (List.range' (0 * 512) (st.vol.sectorsPerCluster * 16) 32) (enter a) := by
      rw [clusterSlots, Scan.run_map, Nat.zero_mul]
    rw [chainLoop, if_pos (isCluster_guard hr.geometry hcl), hsec, dirScan, hslots]
    cases Scan.run (fun a off => body a b off (slice (st.data b) off 32))
        (List.range' (0 * 512) (st.vol.sectorsPerCluster * 16) 32) (enter a) with
    | stop r => exact ⟨st1, rfl, hq⟩
    | next a =>
      obtain ⟨st2, hget, hq2⟩ := fatGetEntry_ok (hq.ready hr) (c := b) (by rw [hq.vol]; exact hcl.2)
      have hq2 := hq.trans hq2
      dsimp only [Scan.lift]
      rw [hget, hq.fat]
      dsimp only
      cases h with
      | last _ hstop =>
        obtain ⟨fuel, rfl⟩ := Nat.exists_eq_add_one.mpr (Nat.lt_of_succ_lt_succ hf)
        refine ⟨st2, ?_, hq2⟩
        rw [chainLoop, if_neg (by omega)]
        rfl
      | cons _ ht =>
        obtain ⟨st3, hrun, hq3⟩ := ih (hq2.ready hr) (c := st.fat b)
          (by rw [hq2.vol, hq2.fat]; exact ht) fuel (by rw [List.length_cons] at hf; omega) a
        refine ⟨st3, ?_, hq2.trans hq3⟩
        rw [hrun, hq2.vol, hq2.data]
        rfl

end Loops

def IsEntry (e : Slot) : Prop := e.getD 0 0 ≠ 0 ∧ e.getD 0 0 ≠ 0xE5 ∧ direntAttr e ≠ 0x0F

instance (e : Slot) : Decidable (IsEntry e) := inferInstanceAs (Decidable (_ ∧ _))

/-- The slot in which `fat_find_entry` finds `name`, behind the long-name text `lfn`. -/
def lookup (name : CString) : CString → List Found → Option Found
  | _, [] => none
  | lfn, f :: fs =>
    if f.ent.getD 0 0 = 0 then none
    else if f.ent.getD 0 0 = 0xE5 then lookup name [] fs
    else if direntAttr f.ent = 0x0F then lookup name (lfnStep lfn f.ent) fs
    else if nameEquals (entryName lfn f.ent) name then some f
    else lookup name [] fs

/-! ## The entries of a directory -/

def textAfter (lfn : CString) (e : Slot) : CString :=
  if e.getD 0 0 ≠ 0xE5 ∧ direntAttr e = 0x0F then lfnStep lfn e else []

/-- The entries up to the end mark, each with the name that the scanners assemble for it, behind the
long-name text `lfn`. -/
def entries : CString → List Found → List (CString × Found)
  | _, [] => []
  | lfn, f :: fs =>
    if f.ent.getD 0 0 = 0 then []
    else (if IsEntry f.ent then [(entryName lfn f.ent, f)] else []) ++ entries (textAfter lfn f.ent) fs

def Ended (fs : List Found) : Prop := ∃ x ∈ fs, x.ent.getD 0 0 = 0

instance (fs : List Found) : Decidable (Ended fs) := inferInstanceAs (Decidable (∃ x ∈ fs, _))

def pendingText (t : CString) (fs : List Found) : CString := fs.foldl (fun t x => textAfter t x.ent) t

section Entries
variable {f : Found} {lfn : CString} {fs pre : List Found}

lemma entries_end (h : f.ent.getD 0 0 = 0) : entries lfn (f :: fs) = [] := if_pos h

lemma entries_entry (h : IsEntry f.ent) :
    entries lfn (f :: fs) = (entryName lfn f.ent, f) :: entries [] fs := by
  rw [entries, if_neg h.1, if_pos h, textAfter, if_neg fun hlfn => h.2.2 hlfn.2]
  rfl

lemma entries_other (h0 : f.ent.getD 0 0 ≠ 0) (h : ¬ IsEntry f.ent) :
    entries lfn (f :: fs) = entries (textAfter lfn f.ent) fs := by
  rw [entries, if_neg h0, if_neg h, List.nil_append]

/-- A slot ends the directory, is an entry, or leaves a text and nothing else. -/
lemma slot_cases (e : Slot) : e.getD 0 0 = 0 ∨ IsEntry e ∨ e.getD 0 0 ≠ 0 ∧ ¬ IsEntry e := by
  by_cases h0 : e.getD 0 0 = 0
  · exact .inl h0
  by_cases h : IsEntry e
  · exact .inr (.inl h)
  · exact .inr (.inr ⟨h0, h⟩)

lemma ite_other {γ : Type} {e : Slot} (h0 : e.getD 0 0 ≠ 0) (h : ¬ IsEntry e) (k : CString → γ) (z : γ) :
    (if e.getD 0 0 = 0xE5 then k [] else if direntAttr e = 0x0F then k (lfnStep lfn e) else z) =
      k (textAfter lfn e) := by
  rw [textAfter]
  by_cases h5 : e.getD 0 0 = 0xE5
  · rw [if_pos h5, if_neg fun hlfn => hlfn.1 h5]
  · have hlfn : direntAttr e = 0x0F := by
      by_contra hlfn
      exact h ⟨h0, h5, hlfn⟩
    rw [if_neg h5, if_pos hlfn, if_pos ⟨h5, hlfn⟩]

lemma dirSlot_other {α ρ : Type} {atEnd : α → ρ} {atEntry : α → CString → Nat → Nat → Slot → Scan α ρ}
    {e : Slot} (h0 : e.getD 0 0 ≠ 0) (h : ¬ IsEntry e) (s : CString × α) (c off : Nat) :
    dirSlot atEnd atEntry s c off e = .next (textAfter s.1 e, s.2) := by
  rw [dirSlot, if_neg h0]
  exact ite_other h0 h (fun t => Scan.next (t, s.2)) _

lemma run_dirSlot {α ρ : Type} (atEnd : α → ρ) (atEntry : α → CString → Nat → Nat → Slot → Scan α ρ)
    (fs : List Found) (lfn : CString) (a : α) :
    (Scan.run (fun s f => dirSlot atEnd atEntry s f.cluster f.offset f.ent) fs (lfn, a)).result
        (fun s => atEnd s.2) =
      (Scan.run (fun a x => atEntry a x.1 x.2.cluster x.2.offset x.2.ent) (entries lfn fs) a).result
        atEnd := by
  induction fs generalizing lfn a with
  | nil => rfl
  | cons f fs ih =>
    rw [Scan.run]
    rcases slot_cases f.ent with h0 | h | ⟨h0, h⟩
    · rw [entries_end h0, dirSlot, if_pos h0]
      rfl
    · rw [entries_entry h, dirSlot, if_neg h.1, if_neg h.2.1, if_neg h.2.2, Scan.run]
      dsimp only
      cases atEntry a (entryName lfn f.ent) f.cluster f.offset f.ent with
      | next a => exact ih [] a
      | stop r => rfl
    · rw [entries_other h0 h, dirSlot_other h0 h]
      exact ih _ a

lemma lookup_entry {name : CString} (h : IsEntry f.ent) : lookup name lfn (f :: fs) =
    if nameEquals (entryName lfn f.ent) name then some f else lookup name [] fs := by
  rw [lookup, if_neg h.1, if_neg h.2.1, if_neg h.2.2]

lemma lookup_other {name : CString} (h0 : f.ent.getD 0 0 ≠ 0) (h : ¬ IsEntry f.ent) :
    lookup name lfn (f :: fs) = lookup name (textAfter lfn f.ent) fs := by
  rw [lookup, if_neg h0]
  exact ite_other h0 h (fun t => lookup name t fs) _

lemma lookup_entries (name lfn : CString) (fs : List Found) :
    lookup name lfn fs = ((entries lfn fs).find? fun x => nameEquals x.1 name).map Prod.snd := by
  induction fs generalizing lfn with
  | nil => rfl
  | cons f fs ih =>
    rcases slot_cases f.ent with h0 | h | ⟨h0, h⟩
    · rw [entries_end h0, lookup, if_pos h0]
      rfl
    · rw [entries_entry h, lookup_entry h, List.find?_cons, ih]
      dsimp only
      cases nameEquals (entryName lfn f.ent) name <;> rfl
    · rw [entries_other h0 h, lookup_other h0 h]
      exact ih _

lemma ended_cons : Ended (f :: fs) ↔ f.ent.getD 0 0 = 0 ∨ Ended fs := by
  unfold Ended
  rw [List.exists_mem_cons_iff]

lemma entries_append (lfn : CString) (pre rest : List Found) :
    entries lfn (pre ++ rest) =
      entries lfn pre ++ if Ended pre then [] else entries (pendingText lfn pre) rest := by
  induction pre generalizing lfn with
  | nil =>
    rw [if_neg (by rintro ⟨x, hx, -⟩; cases hx)]
    rfl
  | cons x pre ih =>
    rw [List.cons_append]
    by_cases h0 : x.ent.getD 0 0 = 0
    · rw [entries_end h0, entries_end h0, if_pos (ended_cons.mpr (.inl h0))]
      rfl
    · rw [entries, entries, if_neg h0, if_neg h0, ih, List.append_assoc]
      congr 2
      apply if_congr _ rfl rfl
      rw [ended_cons, or_iff_right h0]

lemma entries_slots (lfn : CString) (fs : List Found) :
    (entries lfn fs).map Prod.snd =
      (fs.takeWhile fun x => x.ent.getD 0 0 ≠ 0).filter fun x => IsEntry x.ent := by
  induction fs generalizing lfn with
  | nil => rfl
  | cons f fs ih =>
    by_cases h0 : f.ent.getD 0 0 = 0
    · rw [entries_end h0, List.takeWhile_cons_of_neg (by simpa using h0)]
      rfl
    · rw [List.takeWhile_cons_of_pos (by simpa using h0), entries, if_neg h0, List.map_append, ih,
        List.filter_cons]
      by_cases h : IsEntry f.ent
      · rw [if_pos h, if_pos (decide_eq_true h)]
        rfl
      · rw [if_neg h, if_neg (by simpa using h)]
        rfl

lemma mem_entries {x : CString × Found} (h : x ∈ entries lfn fs) : x.2 ∈ fs ∧ IsEntry x.2.ent := by
  have hmem := List.mem_map_of_mem (f := Prod.snd) h
  rw [entries_slots, List.mem_filter] at hmem
  exact ⟨(List.takeWhile_sublist _).subset hmem.1, of_decide_eq_true hmem.2⟩

lemma lookup_some {name : CString} (h : lookup name lfn fs = some f) : f ∈ fs ∧ IsEntry f.ent := by
  rw [lookup_entries] at h
  obtain ⟨x, hx, rfl⟩ := Option.map_eq_some_iff.mp h
  exact mem_entries (List.mem_of_find?_eq_some hx)

lemma lookup_append (name lfn : CString) (pre rest : List Found) :
    lookup name lfn (pre ++ rest) = (lookup name lfn pre).or
      (if Ended pre then none else lookup name (pendingText lfn pre) rest) := by
  rw [lookup_entries, lookup_entries, lookup_entries, entries_append, List.find?_append, Option.map_or]
  split <;> rfl

end Entries

lemma run_findEntrySlot (name lfn : CString) (fs : List Found) :
    (Scan.run (fun s f => findEntrySlot name s f.cluster f.offset f.ent) fs (lfn, ())).result
      (fun _ => none) = lookup name lfn fs := by
  rw [lookup_entries]
  exact (run_dirSlot _ _ fs lfn ()).trans (Scan.run_find (fun x => nameEquals x.1 name) Prod.snd _)

lemma fatFindEntry_ok {st : Fs} (hr : Ready st) {d : Nat} {l : List Nat}
    (h : FatChain st.vol st.fat d l) (name : CString) :
    ∃ st', fatFindEntry st d name = some (lookup name [] (dirSlots st.vol st.data l), st') ∧
      Quiet st st' := by
  obtain ⟨st', hrun, hq⟩ := chainLoop_ok hr h id (findEntrySlot name) chainFuel
    (FatChain.lt_fuel h hr.geometry) ([], ())
  refine ⟨st', ?_, hq⟩
  rw [fatFindEntry, hrun, ← run_findEntrySlot, dirScan_id]
  cases Scan.run (fun s f => findEntrySlot name s f.cluster f.offset f.ent)
      (dirSlots st.vol st.data l) ([], ()) with
  | next s => rfl
  | stop r => rfl

end FusionOS.Fat
