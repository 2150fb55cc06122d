import FusionOS.Fat.WellFormed

/-!
# The buffers for names

The four scanners assemble the long name of an entry from the slots in front of it, in a buffer of
256 bytes, and copy it with `strcpy` to one of 64 bytes.
-/

namespace FusionOS.Fat

open List

def runText : List Slot → Nat
  | [] => 0
  | e :: es =>
    if IsLfn e then (lfnExtractPart e).length + if e.getD 0 0 &&& 0x40 != 0 then 0 else runText es
    else 0

section Copies
variable {α ρ : Type}

/-- The scanner comes to an entry for which it fills `name_buf`, and fills in `n`. Its loops run along
the slots of the directory by `chainLoop_ok`. -/
def Copies (body : CString × α → Nat → Nat → Slot → Scan (CString × α) ρ) (copies : α → Slot → Prop)
    (s₀ : CString × α) (slots : List Found) (n : CString) : Prop :=
  ∃ pre f post s, slots = pre ++ f :: post ∧
    Scan.run (fun s f => body s f.cluster f.offset f.ent) pre s₀ = .next s ∧ IsEntry f.ent ∧
    copies s.2 f.ent ∧ n = entryName s.1 f.ent

end Copies

/-- `fat_delete_entry` begins anew with every cluster. -/
def DeleteCopies (v : Volume) (data : Nat → Mem) (l : List Nat) (name n : CString) : Prop :=
  ∃ l₁ c l₂ s, l = l₁ ++ c :: l₂ ∧
    dirScan v data (fun _ => ([], [])) (deleteEntrySlot name) l₁ ([], []) = .next s ∧
    Copies (deleteEntrySlot name) (fun _ _ => True) ([], []) (clusterSlots v data c) n

/-- Every name that the scanners copy from the directory with the clusters `l` fits a buffer of 64
bytes. `fat_dir_is_empty` and `fat_read_dir` pass over volume labels, and the latter stops when
its array is full. -/
structure NamesFit (v : Volume) (data : Nat → Mem) (l : List Nat) : Prop where
  find : ∀ name n, Copies (findEntrySlot name) (fun _ _ => True) ([], ()) (dirSlots v data l) n →
    n.length ≤ 63
  delete : ∀ name n, DeleteCopies v data l name n → n.length ≤ 63
  isEmpty : ∀ n, Copies isEmptySlot (fun _ e => direntAttr e &&& 0x08 = 0) ([], ())
    (dirSlots v data l) n → n.length ≤ 63
  readDir : ∀ maxEntries n, Copies (readDirSlot maxEntries)
    (fun entries e => direntAttr e &&& 0x08 = 0 ∧ entries.length < maxEntries) ([], [])
    (dirSlots v data l) n → n.length ≤ 63

/-- The slots in front of every entry before the end of the directory hold at most 63 characters. -/
def RunsFit (slots : List Found) : Prop :=
  ∀ pre f post, slots = pre ++ f :: post → (∀ g ∈ pre, g.ent.getD 0 0 ≠ 0) → IsEntry f.ent →
    runText (pre.map Found.ent).reverse ≤ 63

/-! ## The text in front of an entry -/

lemma lfnPrepend_length_le (dst part : CString) :
    (lfnPrepend dst part).length ≤ part.length + dst.length := by
  unfold lfnPrepend
  rw [length_append, length_take]
  omega

lemma le_lfnPrepend_length (dst part : CString) :
    min 255 (part.length + dst.length) ≤ (lfnPrepend dst part).length := by
  unfold lfnPrepend
  rw [length_append, length_take]
  split <;> omega

lemma lfnPrepend_length_le_255 {dst : CString} (part : CString) (h : dst.length ≤ 255) :
    (lfnPrepend dst part).length ≤ 255 := by
  unfold lfnPrepend
  rw [length_append, length_take]
  split <;> omega

lemma runText_le_append (es fs : List Slot) : runText es ≤ runText (es ++ fs) := by
  induction es with
  | nil => exact Nat.zero_le _
  | cons e es ih =>
    rw [cons_append, runText, runText]
    split
    · split
      · exact le_rfl
      · omega
    · exact le_rfl

section Text
variable {lfn : CString} {e : Slot} {es : List Slot}

lemma textAfter_length_le (h0 : e.getD 0 0 ≠ 0) (h : lfn.length ≤ runText es) :
    (textAfter lfn e).length ≤ runText (e :: es) := by
  unfold textAfter
  split
  · rename_i hlfn
    rw [runText, if_pos ⟨⟨h0, hlfn.1⟩, hlfn.2⟩, lfnStep]
    apply Nat.le_trans (lfnPrepend_length_le _ _)
    split
    · exact le_rfl
    · omega
  · exact Nat.zero_le _

lemma le_textAfter_length (h : min 255 (runText es) ≤ lfn.length) :
    min 255 (runText (e :: es)) ≤ (textAfter lfn e).length := by
  rw [runText]
  by_cases hlfn : IsLfn e
  · have hpart : e.getD 0 0 ≠ 0xE5 ∧ direntAttr e = 0x0F := ⟨hlfn.1.2, hlfn.2⟩
    rw [if_pos hlfn, textAfter, if_pos hpart, lfnStep]
    apply Nat.le_trans _ (le_lfnPrepend_length _ _)
    split
    · exact le_rfl
    · omega
  · rw [if_neg hlfn, Nat.min_zero]
    exact Nat.zero_le _

lemma textAfter_length_le_255 (h : lfn.length ≤ 255) : (textAfter lfn e).length ≤ 255 := by
  unfold textAfter lfnStep
  split
  · apply lfnPrepend_length_le_255
    split
    · exact Nat.zero_le _
    · exact h
  · exact Nat.zero_le _

lemma entryName_length_le (h : lfn.length ≤ runText es) (hes : runText es ≤ 63) :
    (entryName lfn e).length ≤ 63 := by
  unfold entryName
  split
  · exact Nat.le_trans (shortToName_length e) (by decide)
  · omega

end Text

/-! ## The scanners -/

section Tracking
variable {α ρ : Type} {body : CString × α → Nat → Nat → Slot → Scan (CString × α) ρ}

def Tracks (body : CString × α → Nat → Nat → Slot → Scan (CString × α) ρ) : Prop :=
  ∀ s cluster offset e s', body s cluster offset e = .next s' →
    e.getD 0 0 ≠ 0 ∧ s'.1 = textAfter s.1 e

lemma dirSlot_tracks (atEnd : α → ρ) (atEntry : α → CString → Nat → Nat → Slot → Scan α ρ) :
    Tracks (dirSlot atEnd atEntry) := by
  intro s cluster offset e s' h
  rcases slot_cases e with h0 | he | ⟨h0, he⟩
  · rw [dirSlot, if_pos h0] at h
    cases h
  · refine ⟨he.1, ?_⟩
    rw [textAfter, if_neg fun hlfn => he.2.2 hlfn.2]
    rw [dirSlot, if_neg he.1, if_neg he.2.1, if_neg he.2.2] at h
    split at h
    · cases h
      rfl
    · cases h
  · rw [dirSlot_other h0 he] at h
    cases h
    exact ⟨h0, rfl⟩

lemma deleteEntrySlot_tracks (name : CString) : Tracks (deleteEntrySlot name) := by
  intro s cluster offset e s' h
  unfold deleteEntrySlot at h
  unfold textAfter
  split at h
  · cases h
  rename_i h0
  refine ⟨h0, ?_⟩
  split at h
  · rename_i h5
    cases h
    rw [if_neg fun hlfn => hlfn.1 h5]
  rename_i h5
  split at h
  · rename_i hlfn
    cases h
    exact (if_pos ⟨h5, hlfn⟩).symm
  · rename_i hlfn
    rw [if_neg fun h => hlfn h.2]
    split at h
    · cases h
    · cases h
      rfl

lemma Tracks.run_alive (ht : Tracks body) {pre : List Found} {s0 s : CString × α}
    (hrun : Scan.run (fun s f => body s f.cluster f.offset f.ent) pre s0 = .next s) :
    ∀ g ∈ pre, g.ent.getD 0 0 ≠ 0 := by
  induction pre generalizing s0 with
  | nil => exact fun _ hg => absurd hg not_mem_nil
  | cons f pre ih =>
    rw [Scan.run] at hrun
    split at hrun
    · rename_i s1 hbody
      exact forall_mem_cons.mpr ⟨(ht _ _ _ _ _ hbody).1, ih hrun⟩
    · cases hrun

lemma Tracks.run_length_le (ht : Tracks body) {pre : List Found} {s0 s : CString × α} (es : List Slot)
    (h₀ : s0.1.length ≤ runText es)
    (hrun : Scan.run (fun s f => body s f.cluster f.offset f.ent) pre s0 = .next s) :
    s.1.length ≤ runText ((pre.map Found.ent).reverse ++ es) := by
  induction pre generalizing s0 es with
  | nil =>
    cases hrun
    exact h₀
  | cons f pre ih =>
    rw [Scan.run] at hrun
    split at hrun
    · rename_i s1 hbody
      obtain ⟨h0, htext⟩ := ht _ _ _ _ _ hbody
      have h1 : s1.1.length ≤ runText (f.ent :: es) := by
        rw [htext]
        exact textAfter_length_le h0 h₀
      rw [map_cons, reverse_cons, append_assoc, singleton_append]
      exact ih _ h1 hrun
    · cases hrun

lemma RunsFit.copies {slots front : List Found} {copies : α → Slot → Prop} {s0 : CString × α}
    {n : CString} (h : RunsFit (front ++ slots)) (hfront : ∀ g ∈ front, g.ent.getD 0 0 ≠ 0)
    (ht : Tracks body) (h0 : s0.1 = []) (hc : Copies body copies s0 slots n) : n.length ≤ 63 := by
  obtain ⟨pre, f, post, s, rfl, hrun, hf, -, rfl⟩ := hc
  have hlen := ht.run_length_le [] (by rw [h0]; exact Nat.zero_le _) hrun
  have hfit := h (front ++ pre) f post (by rw [append_assoc])
    (forall_mem_append.mpr ⟨hfront, ht.run_alive hrun⟩) hf
  rw [append_nil] at hlen
  rw [map_append, reverse_append] at hfit
  exact entryName_length_le hlen (Nat.le_trans (runText_le_append _ _) hfit)

lemma dirScan_alive {v : Volume} {data : Nat → Mem} {enter : CString × α → CString × α}
    (ht : Tracks body) {l : List Nat} {s0 s : CString × α} (h : dirScan v data enter body l s0 = .next s) :
    ∀ g ∈ dirSlots v data l, g.ent.getD 0 0 ≠ 0 := by
  induction l generalizing s0 with
  | nil => exact fun _ hg => absurd hg not_mem_nil
  | cons c l ih =>
    rw [dirScan] at h
    cases hrun : Scan.run (fun s f => body s f.cluster f.offset f.ent) (clusterSlots v data c)
        (enter s0) with
    | stop r =>
      rw [hrun] at h
      cases h
    | next s1 =>
      rw [hrun] at h
      rw [dirSlots, flatMap_cons]
      exact forall_mem_append.mpr ⟨ht.run_alive hrun, ih h⟩

end Tracking

/-! ## The whole directory -/

lemma find_run_long {name : CString} (hname : 255 < name.length) {pre : List Found}
    (hpre : ∀ g ∈ pre, g.ent.getD 0 0 ≠ 0) (lfn : CString) (h255 : lfn.length ≤ 255) (es : List Slot)
    (hes : min 255 (runText es) ≤ lfn.length) :
    ∃ s, Scan.run (fun s f => findEntrySlot name s f.cluster f.offset f.ent) pre (lfn, ()) = .next s ∧
      min 255 (runText ((pre.map Found.ent).reverse ++ es)) ≤ s.1.length := by
  induction pre generalizing lfn es with
  | nil => exact ⟨(lfn, ()), rfl, hes⟩
  | cons f pre ih =>
    obtain ⟨h0, hpre⟩ := forall_mem_cons.mp hpre
    have hno : nameEquals (entryName lfn f.ent) name = false := by
      rw [Bool.eq_false_iff]
      intro heq
      have hlen := nameEquals_length heq
      have hshort := shortToName_length f.ent
      unfold entryName at hlen
      split at hlen <;> omega
    have hbody : findEntrySlot name (lfn, ()) f.cluster f.offset f.ent =
        .next (textAfter lfn f.ent, ()) := by
      unfold findEntrySlot dirSlot textAfter
      rw [if_neg h0]
      dsimp only
      rw [hno]
      by_cases h5 : f.ent.getD 0 0 = 0xE5
      · rw [if_pos h5, if_neg fun hlfn => hlfn.1 h5]
      · rw [if_neg h5]
        by_cases hlfn : direntAttr f.ent = 0x0F
        · rw [if_pos hlfn, if_pos ⟨h5, hlfn⟩]
        · rw [if_neg hlfn, if_neg Bool.false_ne_true, if_neg fun h => hlfn h.2]
    obtain ⟨s, hrun, hs⟩ := ih hpre _ (textAfter_length_le_255 h255) _ (le_textAfter_length (e := f.ent) hes)
    refine ⟨s, ?_, ?_⟩
    · rw [Scan.run, hbody]
      exact hrun
    · rw [map_cons, reverse_cons, append_assoc, singleton_append]
      exact hs

lemma runsFit_of_find {slots : List Found}
    (h : ∀ name n, Copies (findEntrySlot name) (fun _ _ => True) ([], ()) slots n → n.length ≤ 63) :
    RunsFit slots := by
  intro pre f post hslots hpre hf
  have hlong : 255 < (List.replicate 256 (0x61 : UInt8)).length := by
    rw [length_replicate]
    decide
  obtain ⟨s, hrun, hlen⟩ := find_run_long hlong hpre [] (Nat.zero_le _) [] (Nat.zero_le _)
  rw [append_nil] at hlen
  have hcopy := h _ _ ⟨pre, f, post, s, hslots, hrun, hf, trivial, rfl⟩
  unfold entryName at hcopy
  split at hcopy
  · rename_i hnil
    rw [hnil, length_nil] at hlen
    omega
  · omega

/-- All names that the scanners copy to their 64-byte buffers fit exactly where every entry before the
end of the directory comes behind long-name slots with at most 63 characters. -/
theorem names_fit_iff (v : Volume) (data : Nat → Mem) (l : List Nat) :
    NamesFit v data l ↔ RunsFit (dirSlots v data l) := by
  constructor
  · intro h
    exact runsFit_of_find h.find
  · intro h
    have hall : RunsFit ([] ++ dirSlots v data l) := h
    have hnil : ∀ g ∈ ([] : List Found), g.ent.getD 0 0 ≠ 0 := fun _ hg => absurd hg not_mem_nil
    refine ⟨?_, ?_, ?_, ?_⟩
    · exact fun name n hc => hall.copies hnil (dirSlot_tracks _ _) rfl hc
    · rintro name n ⟨l₁, c, l₂, s, rfl, hscan, hc⟩
      have ht := deleteEntrySlot_tracks name
      have hfront : RunsFit (dirSlots v data l₁ ++ clusterSlots v data c) := by
        intro pre f post hslots
        refine h pre f (post ++ dirSlots v data l₂) ?_
        unfold dirSlots at hslots ⊢
        rw [flatMap_append, flatMap_cons, ← append_assoc, hslots, append_assoc,
          cons_append]
      exact hfront.copies (dirScan_alive ht hscan) ht rfl hc
    · exact fun n hc => hall.copies hnil (dirSlot_tracks _ _) rfl hc
    · exact fun maxEntries n hc => hall.copies hnil (dirSlot_tracks _ _) rfl hc

/-- A root directory with one entry whose name has 65 characters. -/
def longNameFs : Fs := smallFs [] [(2, (entrySlots (List.replicate 65 0x61) 0x20).flatten)]

theorem not_names_fit_longName : ¬ NamesFit longNameFs.vol longNameFs.data [2] := by
  intro h
  have hget : (dirSlots longNameFs.vol longNameFs.data [2])[5]? =
      some ⟨newDirent (nameToShort (List.replicate 65 0x61)) 0x20, 2, 160⟩ := by decide +kernel
  obtain ⟨hlt, hentry⟩ := List.getElem?_eq_some_iff.mp hget
  have hslots : dirSlots longNameFs.vol longNameFs.data [2] =
      (dirSlots longNameFs.vol longNameFs.data [2]).take 5 ++
        ⟨newDirent (nameToShort (List.replicate 65 0x61)) 0x20, 2, 160⟩ ::
          (dirSlots longNameFs.vol longNameFs.data [2]).drop 6 := by
    rw [← hentry, ← drop_eq_getElem_cons hlt, take_append_drop]
  have htext : (match Scan.run (fun s f => findEntrySlot [] s f.cluster f.offset f.ent)
      ((dirSlots longNameFs.vol longNameFs.data [2]).take 5) ([], ()) with
    | .next s => s.1.length
    | .stop _ => 0) = 65 := by decide +kernel
  cases hrun : Scan.run (fun s f => findEntrySlot [] s f.cluster f.offset f.ent)
      ((dirSlots longNameFs.vol longNameFs.data [2]).take 5) ([], ()) with
  | stop r =>
    rw [hrun] at htext
    cases htext
  | next s =>
    rw [hrun] at htext
    dsimp only at htext
    have hcopy := h.find [] _ ⟨_, _, _, s, hslots, hrun, by decide +kernel, trivial, rfl⟩
    have hne : s.1 ≠ [] := ne_nil_of_length_pos (by omega)
    rw [entryName, if_neg hne] at hcopy
    omega

end FusionOS.Fat
