import FusionOS.Fat.NewEntry

/-!
# Long names read back

`fat_create_entry` cuts a long name into pieces of 13 characters, last piece first.
-/

namespace FusionOS.Fat

open List

variable {name : CString}

/-! ## One slot -/

variable {t : CString} {count i : Nat}

lemma lfnChar_lt (name : CString) (i : Nat) : lfnChar name i < 65536 := by
  unfold lfnChar
  split
  · have := (name.getD i 0).toNat_lt
    omega
  · split <;> omega

lemma le16_bytes {n : Nat} (h : n < 65536) :
    (UInt8.ofNat n).toNat + 256 * (UInt8.ofNat (n / 256)).toNat = n := by
  rw [UInt8.toNat_ofNat', UInt8.toNat_ofNat']
  omega

lemma takeWhile_lfnChar (h0 : 0 ∉ name) (start count : Nat) :
    ((((List.range count).map fun i => lfnChar name (start + i)).takeWhile
      fun ch => ch != 0 && ch != 0xFFFF).map UInt8.ofNat) = (name.drop start).take count := by
  induction count generalizing start with
  | zero => rfl
  | succ count ih =>
    have hshift : ∀ i, lfnChar name (start + (i + 1)) = lfnChar name (start + 1 + i) := by
      intro i
      congr 1
      omega
    rw [range_succ_eq_map, map_cons, map_map]
    by_cases h : start < name.length
    · have hchar : lfnChar name (start + 0) = name[start].toNat := by
        rw [lfnChar, Nat.add_zero, if_pos h, getD_eq_getElem _ _ h]
      have hne : name[start] ≠ 0 := fun heq => h0 (heq ▸ getElem_mem h)
      have hlt := name[start].toNat_lt
      have hgood : (name[start].toNat != 0 && name[start].toNat != 0xFFFF) = true := by
        have : name[start].toNat ≠ 0 := fun heq => hne (UInt8.toNat_inj.mp heq)
        simp only [Bool.and_eq_true, bne_iff_ne]
        omega
      rw [hchar, takeWhile_cons, if_pos hgood, map_cons, drop_eq_getElem_cons h,
        take_succ_cons, UInt8.ofNat_toNat]
      congr 1
      rw [← ih (start + 1)]
      simp only [Function.comp_def, Nat.succ_eq_add_one, hshift]
    · have hbad : (lfnChar name (start + 0) != 0 && lfnChar name (start + 0) != 0xFFFF) = false := by
        rw [lfnChar, Nat.add_zero, if_neg h]
        split <;> rfl
      rw [takeWhile_cons, hbad, drop_of_length_le (by omega)]
      rfl

lemma lfnGroup_succ (name : CString) (start count : Nat) :
    lfnGroup name start (count + 1) = [UInt8.ofNat (lfnChar name start),
      UInt8.ofNat (lfnChar name start / 256)] ++ lfnGroup name (start + 1) count := by
  rw [lfnGroup, range_succ_eq_map, flatMap_cons, flatMap_map, Nat.add_zero, lfnGroup]
  simp only [Nat.succ_eq_add_one, Nat.add_assoc, Nat.add_comm 1]

lemma le16At_append (front e : List UInt8) (i : Nat) :
    le16At (front ++ e) (front.length + i) = le16At e i := by
  unfold le16At
  rw [Nat.add_assoc, getD_append_right _ _ _ _ (by omega), getD_append_right _ _ _ _ (by omega),
    Nat.add_sub_cancel_left, Nat.add_sub_cancel_left]

lemma le16At_lfnGroup (hi : i < count) (start : Nat) (back : List UInt8) :
    le16At (lfnGroup name start count ++ back) (2 * i) = lfnChar name (start + i) := by
  obtain ⟨count, rfl⟩ := Nat.exists_eq_add_one.mpr (Nat.zero_lt_of_lt hi)
  rw [lfnGroup_succ, append_assoc]
  induction i generalizing start count with
  | zero => exact le16_bytes (lfnChar_lt name start)
  | succ i ih =>
    obtain ⟨count, rfl⟩ := Nat.exists_eq_add_one.mpr (Nat.zero_lt_of_lt (Nat.lt_of_succ_lt_succ hi))
    have hstart : start + (i + 1) = start + 1 + i := by omega
    have hindex : 2 * (i + 1) = [UInt8.ofNat (lfnChar name start),
        UInt8.ofNat (lfnChar name start / 256)].length + 2 * i := Nat.add_comm (2 * i) 2
    rw [hindex, le16At_append, hstart, lfnGroup_succ, append_assoc,
      ih (start + 1) count (Nat.lt_of_succ_lt_succ hi)]

lemma lfnChars_group (h0 : 0 ∉ name) {e front back : List UInt8} {a start : Nat}
    (he : e = front ++ (lfnGroup name start count ++ back)) (ha : front.length = a) :
    lfnChars e a count = (name.drop start).take count := by
  rw [lfnChars, ← takeWhile_lfnChar h0 start count]
  congr 2
  refine map_congr_left fun i hi => ?_
  rw [he, ← ha, le16At_append, le16At_lfnGroup (mem_range.mp hi)]

lemma lfnExtractPart_entry (h0 : 0 ∉ name) (short : List UInt8) (order : Nat) (isLast : Bool) :
    lfnExtractPart (fatWriteLfnEntries name short order isLast) =
      (name.drop ((order - 1) * 13)).take 13 := by
  have hentry : fatWriteLfnEntries name short order isLast =
      [UInt8.ofNat order ||| if isLast then 0x40 else 0] ++ lfnGroup name ((order - 1) * 13) 5 ++
        [0x0F, 0, fatShortChecksum short] ++ lfnGroup name ((order - 1) * 13 + 5) 6 ++ [0, 0] ++
        (lfnGroup name ((order - 1) * 13 + 11) 2 ++ []) := by
    rw [append_nil]
    rfl
  have h3 := lfnChars_group h0 hentry (a := 28) (by simp [lfnGroup_length])
  rw [append_assoc, append_assoc] at hentry
  have h2 := lfnChars_group h0 hentry (a := 14) (by simp [lfnGroup_length])
  rw [append_assoc, append_assoc] at hentry
  have h1 := lfnChars_group h0 hentry (a := 1) rfl
  have hjoin : ∀ l : CString, l.take 5 ++ (l.drop 5).take 6 ++ (l.drop 11).take 2 = l.take 13 := by
    intro l
    rw [← take_add, ← take_add]
  rw [lfnExtractPart, h1, h2, h3, ← drop_drop, ← drop_drop, hjoin, cstr]
  apply takeWhile_eq_self_iff.mpr
  intro x hx
  rw [bne_iff_ne]
  rintro rfl
  exact h0 (mem_of_mem_drop (mem_of_mem_take hx))

/-! ## The slots of a name -/

lemma lfnEntry_order (short : List UInt8) (order : Nat) (isLast : Bool) :
    (fatWriteLfnEntries name short order isLast).getD 0 0 =
      UInt8.ofNat order ||| if isLast then 0x40 else 0 := rfl

lemma lfnEntry_mark (isLast : Bool) :
    ∀ order < 64, ((UInt8.ofNat order ||| if isLast then 0x40 else 0) &&& 0x40 != 0) = isLast := by
  cases isLast <;> decide

lemma lfnPrepend_short {dst part : CString} (h : part.length + dst.length < 256) :
    lfnPrepend dst part = part ++ dst := by
  rw [lfnPrepend, if_neg (by omega), take_length]

lemma lfnStep_entry (h0 : 0 ∉ name) (hlen : name.length < 256) (short : List UInt8)
    (hi : i < count) (hcount : count < 64) (hend : name.length ≤ 13 * count)
    (ht : i + 1 < count → t = name.drop (13 * (i + 1))) :
    lfnStep t (fatWriteLfnEntries name short (i + 1) (i + 1 == count)) = name.drop (13 * i) := by
  have htext : (if (fatWriteLfnEntries name short (i + 1) (i + 1 == count)).getD 0 0 &&& 0x40 != 0
      then [] else t) = name.drop (13 * (i + 1)) := by
    rw [lfnEntry_order, lfnEntry_mark _ (i + 1) (by omega)]
    by_cases hlast : i + 1 = count
    · rw [if_pos (beq_iff_eq.mpr hlast), drop_of_length_le (by omega)]
    · rw [if_neg (by rwa [beq_iff_eq]), ht (by omega)]
  have hpart := lfnExtractPart_entry h0 short (i + 1) (i + 1 == count)
  rw [lfnStep, htext, hpart, Nat.add_sub_cancel, Nat.mul_comm i 13, lfnPrepend_short]
  · rw [Nat.mul_succ, ← drop_drop, take_append_drop]
  · rw [length_take, length_drop, length_drop]
    omega

lemma foldl_lfnSlots (h0 : 0 ∉ name) (hlen : name.length < 256) (short : List UInt8)
    (hi : i ≤ count) (hcount : count < 64) (hend : name.length ≤ 13 * count) (hpos : 0 < i)
    (ht : i < count → t = name.drop (13 * i)) :
    (lfnSlots name short count i).foldl lfnStep t = name := by
  induction i generalizing t with
  | zero => omega
  | succ i ih =>
    rw [lfnSlots, foldl_cons, lfnStep_entry h0 hlen short (by omega) hcount hend ht]
    cases i with
    | zero => rfl
    | succ i => exact ih (by omega) (Nat.succ_pos i) fun _ => rfl

/-- The slots that are written for a name give the name back, whatever text the scanner holds when it
comes to them. -/
theorem lfn_round_trip (name : CString) (h0 : 0 ∉ name) (hne : name ≠ []) (hlen : name.length ≤ 255)
    (short : List UInt8) (t : CString) :
    (lfnSlots name short ((name.length + 12) / 13) ((name.length + 12) / 13)).foldl lfnStep t = name := by
  have hpos : 0 < name.length := length_pos_iff.mpr hne
  exact foldl_lfnSlots h0 (by omega) short le_rfl (by omega) (by omega) (by omega)
    fun h => absurd h (Nat.lt_irrefl _)

/-- A name of 13 bytes has a slot of its own for all of them, and no terminator. -/
theorem lfn_round_trip_thirteen :
    (lfnSlots (List.replicate 13 97) (nameToShort (List.replicate 13 97)) 1 1).foldl lfnStep [] =
      List.replicate 13 97 :=
  lfn_round_trip (List.replicate 13 97) (by decide) (by decide) (by decide) _ []

lemma lfnSlots_lfn (short : List UInt8) (hcount : count < 16) :
    ∀ e ∈ lfnSlots name short count count, IsLfn e := by
  intro e he
  obtain ⟨order, horder, rfl⟩ := mem_lfnSlots he
  refine ⟨?_, lfnEntry_attr name short _ _⟩
  by_cases hlast : order + 1 = count
  · have hbyte : ∀ n < 16, (UInt8.ofNat n ||| 0x40) ≠ 0 ∧ (UInt8.ofNat n ||| 0x40) ≠ 0xE5 := by decide
    rw [InUse, lfnEntry_order, if_pos (beq_iff_eq.mpr hlast)]
    exact hbyte (order + 1) (by omega)
  · exact lfnEntry_first (Nat.succ_pos order) (by omega) hcount name short

end FusionOS.Fat
