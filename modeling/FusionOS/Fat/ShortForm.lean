import Mathlib.Data.List.TakeWhile
import FusionOS.Fat.Names

/-!
# Names of eight and three bytes

`name_to_short` and `short_to_name` treat dots and spaces by different rules. `fat_create_entry`
writes no long name where the two give the name back.
-/

namespace FusionOS.Fat

open List

/-- A base, with a dot and an extension behind it where there is one. -/
def dotted (base ext : List UInt8) : CString := base ++ if ext = [] then [] else 0x2E :: ext

/-- A base of 1 to 8 bytes and an extension of at most 3, each padded with spaces, without spaces,
dots, lower case letters and zeros in them. -/
def CanonicalShort (e : List UInt8) : Prop :=
  ∃ base ext, e = padTo 8 base ++ padTo 3 ext ∧ base ≠ [] ∧ base.length ≤ 8 ∧ ext.length ≤ 3 ∧
    ∀ x ∈ base ++ ext, x ≠ 0 ∧ x ≠ 0x20 ∧ x ≠ 0x2E ∧ ¬ (0x61 ≤ x ∧ x ≤ 0x7A)

/-- A base of at most 8 bytes without dots and spaces, alone or in front of a dot and an extension of
at most 3 bytes without spaces. -/
def ShortForm (name : CString) : Prop :=
  ∃ base ext, name = dotted base ext ∧ base.length ≤ 8 ∧ ext.length ≤ 3 ∧ 0x2E ∉ base ∧ 0x20 ∉ base ∧
    0x20 ∉ ext

section Conversions
variable {base ext name : List UInt8} {b : UInt8}

lemma toLower_toUpper (x : UInt8) : toLower (toUpper x) = toLower x := by
  have hall : ∀ n < 256, toLower (toUpper (UInt8.ofNat n)) = toLower (UInt8.ofNat n) := by decide +kernel
  have hx := hall x.toNat x.toNat_lt
  rwa [UInt8.ofNat_toNat] at hx

lemma takeWhile_eq_of_not_mem (h : b ∉ base) : base.takeWhile (· != b) = base := by
  apply takeWhile_eq_self_iff.mpr
  intro x hx
  rw [bne_iff_ne]
  rintro rfl
  exact h hx

lemma filter_eq_of_not_mem (h : b ∉ ext) : ext.filter (· != b) = ext := by
  apply filter_eq_self.mpr
  intro x hx
  rw [bne_iff_ne]
  rintro rfl
  exact h hx

lemma shortToName_pad (hb : base.length ≤ 8) (hx : ext.length ≤ 3) (h0 : 0 ∉ base ++ ext) :
    shortToName (padTo 8 base ++ padTo 3 ext) =
      dotted (base.takeWhile (· != 0x20)) (ext.filter (· != 0x20)) := by
  have hbase : (padTo 8 base).takeWhile (· != 0x20) = base.takeWhile (· != 0x20) := by
    rw [padTo, takeWhile_append, takeWhile_replicate]
    split
    · next h => simpa using ((takeWhile_sublist _).eq_of_length h).symm
    · rfl
  have hext : (padTo 3 ext).filter (· != 0x20) = ext.filter (· != 0x20) := by
    rw [padTo, filter_append, filter_replicate, if_neg (by decide), append_nil]
  have hlen := padTo_length hb
  rw [shortToName, take_append_of_le_length hlen.ge, take_of_length_le hlen.le,
    drop_append_of_le_length hlen.ge, drop_of_length_le hlen.le, nil_append,
    take_of_length_le (padTo_length hx).le, hbase, hext, ← dotted, cstr]
  apply takeWhile_eq_of_not_mem
  intro hmem
  rcases mem_append.mp hmem with hmem | hmem
  · exact h0 (mem_append_left _ ((takeWhile_sublist _).subset hmem))
  · split at hmem
    · cases hmem
    · rcases mem_cons.mp hmem with hmem | hmem
      · cases hmem
      · exact h0 (mem_append_right _ (mem_filter.mp hmem).1)

lemma shortBase_dotted (hb : base.length ≤ 8) (hdot : 0x2E ∉ base) : shortBase (dotted base ext) = base := by
  have htake : (dotted base ext).takeWhile (· != 0x2E) = base := by
    rw [dotted, takeWhile_append, takeWhile_eq_of_not_mem hdot, if_pos rfl]
    split
    · rw [takeWhile_nil, append_nil]
    · rw [takeWhile_cons_of_neg (by decide), append_nil]
  rw [shortBase, htake, take_of_length_le hb]

lemma shortExt_dotted (hb : base.length ≤ 8) (hx : ext.length ≤ 3) (hdot : 0x2E ∉ base) :
    shortExt (dotted base ext) = ext := by
  rw [shortExt, shortBase_dotted hb hdot, dotted, drop_left]
  split
  · next h =>
    rw [h]
    rfl
  · rw [head?_cons, if_pos rfl, tail_cons, take_of_length_le hx]

lemma nameToShort_dotted (hb : base.length ≤ 8) (hx : ext.length ≤ 3) (hdot : 0x2E ∉ base) :
    nameToShort (dotted base ext) = padTo 8 (base.map toUpper) ++ padTo 3 (ext.map toUpper) := by
  rw [nameToShort, shortBase_dotted hb hdot, shortExt_dotted hb hx hdot]

lemma toUpper_space : ((· != 0x20) ∘ toUpper : UInt8 → Bool) = (· != 0x20) := by
  funext x
  apply Bool.eq_iff_iff.mpr
  rw [Function.comp_apply, bne_iff_ne, bne_iff_ne]
  refine not_congr ⟨toUpper_eq (.inl (by decide)), ?_⟩
  rintro rfl
  rfl

lemma dotted_map (f : UInt8 → UInt8) (hf : f 0x2E = 0x2E) :
    (dotted base ext).map f = dotted (base.map f) (ext.map f) := by
  rw [dotted, dotted, map_append]
  by_cases h : ext = []
  · rw [h]
    rfl
  · rw [if_neg h, if_neg (by rwa [map_eq_nil_iff]), map_cons, hf]

lemma needsLfn_iff (h0 : 0 ∉ name) : needsLfn name = false ↔
    (dotted ((shortBase name).takeWhile (· != 0x20)) ((shortExt name).filter (· != 0x20))).map toLower =
      name.map toLower := by
  have hbase : ∀ x ∈ shortBase name, x ∈ name :=
    fun x hx => (takeWhile_sublist _).subset (mem_of_mem_take hx)
  have hext : ∀ x ∈ shortExt name, x ∈ name := by
    intro x hx
    have hx := mem_of_mem_take hx
    split at hx
    · exact mem_of_mem_drop (mem_of_mem_tail hx)
    · exact mem_of_mem_drop hx
  have hzero : 0 ∉ (shortBase name).map toUpper ++ (shortExt name).map toUpper := by
    rw [← map_append]
    intro hmem
    obtain ⟨x, hx, heq⟩ := mem_map.mp hmem
    obtain rfl := toUpper_eq (.inl (by decide)) heq
    rcases mem_append.mp hx with hx | hx
    · exact h0 (hbase _ hx)
    · exact h0 (hext _ hx)
  have hback : (shortToName (nameToShort name)).map toLower =
      (dotted ((shortBase name).takeWhile (· != 0x20)) ((shortExt name).filter (· != 0x20))).map
        toLower := by
    rw [nameToShort, shortToName_pad (by rw [length_map]; exact length_take_le _ _)
      (by rw [length_map]; exact length_take_le _ _) hzero, takeWhile_map, filter_map, toUpper_space,
      dotted_map _ (by decide), dotted_map _ (by decide), map_map, map_map]
    simp only [Function.comp_def, toLower_toUpper]
  rw [← hback, ← nameEquals_iff, needsLfn, Bool.not_eq_false']

lemma shortBase_split (name : CString) : ∃ rest, name = shortBase name ++ rest ∧
    shortExt name = (if rest.head? = some 0x2E then rest.tail else rest).take 3 := by
  obtain ⟨rest, hname⟩ := ( take_prefix 8 _).trans ( takeWhile_prefix (l := name) (· != 0x2E))
  refine ⟨rest, hname.symm, ?_⟩
  have hdrop := congrArg (List.drop (shortBase name).length) hname
  rw [← shortBase, drop_left] at hdrop
  rw [shortExt, hdrop]

lemma shortForm_of_not_needsLfn (h0 : 0 ∉ name) (h : needsLfn name = false) : ShortForm name := by
  rw [needsLfn_iff h0] at h
  have hb : (shortBase name).length ≤ 8 := length_take_le _ _
  have hdot : 0x2E ∉ shortBase name := fun hx => absurd (mem_takeWhile_imp (mem_of_mem_take hx)) (by decide)
  obtain ⟨rest, hname, hext⟩ := shortBase_split name
  generalize shortBase name = base at h hb hdot hname
  generalize shortExt name = ext at h hext
  have hbase := (takeWhile_sublist (l := base) (· != 0x20)).length_le
  have hfilter := length_filter_le (· != 0x20) ext
  have hspace : (base.takeWhile (· != 0x20)).length = base.length → 0x20 ∉ base := by
    intro heq hmem
    rw [← (takeWhile_sublist _).eq_of_length heq] at hmem
    exact absurd (mem_takeWhile_imp hmem) (by decide)
  have hlen := congrArg List.length h
  rw [length_map, length_map, hname, length_append, dotted, length_append] at hlen
  by_cases hnone : ext.filter (· != 0x20) = []
  · -- there is no dot, so all of the name is its base
    rw [if_pos hnone, length_nil] at hlen
    obtain rfl : rest = [] := length_eq_zero_iff.mp (by omega)
    exact ⟨base, [], hname, hb, Nat.zero_le _, hdot, hspace (by omega), not_mem_nil⟩
  · rw [if_neg hnone, length_cons] at hlen
    have hat : (base ++ rest)[(base.takeWhile (· != 0x20)).length]? = some 0x2E := by
      have hget := congrArg (fun l => l[(base.takeWhile (· != 0x20)).length]?) h
      rw [getElem?_map, getElem?_map, dotted, if_neg hnone, getElem?_append_right (Nat.le_refl _),
        Nat.sub_self, getElem?_cons_zero, Option.map_some, hname] at hget
      obtain ⟨y, hy, hlow⟩ := Option.map_eq_some_iff.mp hget.symm
      rw [hy, toLower_eq (.inl (by decide)) (hlow.trans (by decide : toLower 0x2E = 0x2E))]
    -- the base has no dot in it, so the dot is the byte behind it
    have hend : (base.takeWhile (· != 0x20)).length = base.length := by
      by_contra hne
      rw [getElem?_append_left (by omega)] at hat
      exact hdot (mem_of_getElem? hat)
    rw [hend, getElem?_append_right (Nat.le_refl _), Nat.sub_self] at hat
    cases rest with
    | nil => cases hat
    | cons c rest =>
      obtain rfl := Option.some.inj hat
      rw [head?_cons, if_pos rfl, tail_cons] at hext
      rw [length_cons, hend] at hlen
      have htake := length_take_le 3 rest
      have hle := (take_sublist 3 rest).length_le
      rw [← hext] at htake hle
      obtain rfl : ext = rest := hext.trans (take_of_length_le (by omega))
      have hkept : ext.filter (· != 0x20) = ext := filter_sublist.eq_of_length (by omega)
      rw [hkept] at hnone
      refine ⟨base, ext, ?_, hb, htake, hdot, hspace hend, fun hmem => ?_⟩
      · rw [hname, dotted, if_neg hnone]
      · rw [← hkept] at hmem
        exact absurd (mem_filter.mp hmem).2 (by decide)

end Conversions

/-- Canonical short names survive the way through `short_to_name`, and a name has no long name
exactly if it has the form of a short one. -/
theorem short_names :
    (∀ e, CanonicalShort e → nameToShort (shortToName e) = e) ∧
      ∀ name : CString, 0 ∉ name → (needsLfn name = false ↔ ShortForm name) := by
  constructor
  · rintro _ ⟨base, ext, rfl, -, hb, hx, hall⟩
    have hno : ∀ b, b = 0 ∨ b = 0x20 ∨ b = 0x2E → b ∉ base ++ ext := by
      rintro b hcase hmem
      obtain ⟨h1, h2, h3, -⟩ := hall b hmem
      rcases hcase with h | h | h
      · exact h1 h
      · exact h2 h
      · exact h3 h
    have hupper : ∀ l : List UInt8, l ⊆ base ++ ext → l.map toUpper = l := by
      intro l hl
      rw [map_congr_left (f := toUpper) (g := id) fun x hx => if_neg (hall x (hl hx)).2.2.2, map_id]
    have hspace := hno 0x20 (.inr (.inl rfl))
    have hdot := hno 0x2E (.inr (.inr rfl))
    rw [mem_append, not_or] at hspace hdot
    rw [shortToName_pad hb hx (hno 0 (.inl rfl)), takeWhile_eq_of_not_mem hspace.1,
      filter_eq_of_not_mem hspace.2, nameToShort_dotted hb hx hdot.1, hupper _ (subset_append_left _ _),
      hupper _ (subset_append_right _ _)]
  · intro name h0
    refine ⟨shortForm_of_not_needsLfn h0, ?_⟩
    rintro ⟨base, ext, rfl, hb, hx, hdot, hspace, hspace'⟩
    rw [needsLfn_iff h0, shortBase_dotted hb hdot, shortExt_dotted hb hx hdot,
      takeWhile_eq_of_not_mem hspace, filter_eq_of_not_mem hspace']

theorem short_names_txt :
    nameToShort (shortToName (padTo 8 [65] ++ padTo 3 [84])) = padTo 8 [65] ++ padTo 3 [84] ∧
      (needsLfn [97, 46, 116] = false ↔ ShortForm [97, 46, 116]) :=
  ⟨short_names.1 _ ⟨[65], [84], rfl, by decide, by decide, by decide, by simp⟩,
    short_names.2 [97, 46, 116] (by decide)⟩

end FusionOS.Fat
