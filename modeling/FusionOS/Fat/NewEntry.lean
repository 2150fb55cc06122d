import Mathlib.Data.List.Chain
import Mathlib.Data.List.TakeWhile
import FusionOS.Fat.Create

/-!
# Finding a new entry

What lookup makes of the slots of a new entry.
-/

namespace FusionOS.Fat

open List

/-- The name is stored in a single slot, and one that does not count as deleted. -/
def Plain (name : CString) : Prop := needsLfn name = false ∧ (nameToShort name).getD 0 0 ≠ 0xE5

instance (name : CString) : Decidable (Plain name) := inferInstanceAs (Decidable (_ ∧ _))

/-! ## Names -/

section Names
variable {a b : CString}

lemma nameEquals_trans {c : CString} (h : nameEquals a b = true) (h' : nameEquals b c = true) :
    nameEquals a c = true := by
  rw [nameEquals_iff] at *
  exact h.trans h'

lemma nameEquals_symm (h : nameEquals a b = true) : nameEquals b a = true := by
  rw [nameEquals_iff] at *
  exact h.symm

lemma toLower_ne_zero {x : UInt8} (h : x ≠ 0) : toLower x ≠ 0 :=
  fun h0 => h (toLower_eq (.inl (by decide)) h0)

lemma toUpper_ne_zero {x : UInt8} (h : x ≠ 0) : toUpper x ≠ 0 :=
  fun h0 => h (toUpper_eq (.inl (by decide)) h0)

lemma not_mem_zero_of_short (h : needsLfn a = false) : 0 ∉ a := by
  have heq : nameEquals (shortToName (nameToShort a)) a = true := by simpa [needsLfn] using h
  rw [nameEquals_iff] at heq
  have hno : ∀ x ∈ (shortToName (nameToShort a)).map toLower, x ≠ 0 := by
    intro x hx
    obtain ⟨y, hy, rfl⟩ := mem_map.mp hx
    apply toLower_ne_zero
    have := mem_takeWhile_imp hy
    simpa using this
  intro h0
  exact hno 0 (by rw [heq]; exact mem_map.mpr ⟨0, h0, rfl⟩) rfl

lemma nameToShort_first (a : CString) :
    (nameToShort a).getD 0 0 = ((shortBase a).map toUpper).headD 0x20 := by
  unfold nameToShort padTo
  cases (shortBase a).map toUpper with
  | nil => rfl
  | cons x bytes => rfl

lemma nameToShort_first_of {P : UInt8 → Prop} (hspace : P 0x20)
    (hbase : ∀ x ∈ a, x ≠ 0x2E → P (toUpper x)) : P ((nameToShort a).getD 0 0) := by
  rw [nameToShort_first]
  cases hb : (shortBase a).map toUpper with
  | nil => exact hspace
  | cons y bytes =>
    obtain ⟨x, hx, rfl⟩ := mem_map.mp (hb ▸ mem_cons_self : y ∈ (shortBase a).map toUpper)
    have hx := mem_of_mem_take hx
    apply hbase x ((takeWhile_sublist _).subset hx)
    simpa using mem_takeWhile_imp hx

lemma nameToShort_ne_zero (h : 0 ∉ a) : (nameToShort a).getD 0 0 ≠ 0 := by
  apply nameToShort_first_of (P := fun b => b ≠ 0) (by decide)
  intro x hx _
  apply toUpper_ne_zero
  rintro rfl
  exact h hx

lemma nameToShort_ne_dot (a : CString) : (nameToShort a).getD 0 0 ≠ 0x2E := by
  apply nameToShort_first_of (P := fun b => b ≠ 0x2E) (by decide)
  intro x _ hx heq
  exact hx (toUpper_eq (.inl (by decide)) heq)

end Names

lemma lookup_name {a b : CString} (h : nameEquals a b = true) (lfn : CString) (fs : List Found) :
    lookup a lfn fs = lookup b lfn fs := by
  have hsame : ∀ n, nameEquals n a = nameEquals n b := by
    intro n
    rw [Bool.eq_iff_iff]
    exact ⟨fun hn => nameEquals_trans hn h, fun hn => nameEquals_trans hn (nameEquals_symm h)⟩
  rw [lookup_entries, lookup_entries]
  simp only [hsame]

lemma lookup_inj {a b : CString} {fs : List Found} {f : Found} (hnd : fs.Nodup)
    (ha : lookup a [] fs = some f) (hb : lookup b [] fs = some f) : nameEquals a b = true := by
  rw [lookup_entries] at ha hb
  obtain ⟨x, hx, rfl⟩ := Option.map_eq_some_iff.mp ha
  obtain ⟨y, hy, heq⟩ := Option.map_eq_some_iff.mp hb
  have hslots : ((entries [] fs).map Prod.snd).Nodup := by
    rw [entries_slots]
    exact (filter_sublist.trans (takeWhile_sublist _)).nodup hnd
  obtain rfl := inj_on_of_nodup_map hslots (mem_of_find?_eq_some hy) (mem_of_find?_eq_some hx) heq
  have hna := List.find?_some hx
  have hnb := List.find?_some hy
  exact nameEquals_trans (nameEquals_symm hna) hnb

/-! ## Lookup in slots that have been written -/

section Front
variable {name : CString} {pre run run' post : List Found}

lemma pendingText_last {fs : List Found} {t : CString} (h : ¬ Ended fs) {x : Found}
    (hx : x ∈ fs.getLast?) (hlfn : ¬ IsLfn x.ent) : pendingText t fs = [] := by
  obtain ⟨fs, rfl⟩ := List.getLast?_eq_some_iff.mp hx
  rw [pendingText, foldl_append]
  apply if_neg
  rintro ⟨h5, hattr⟩
  exact hlfn ⟨⟨fun h0 => h ⟨x, mem_append_right _ mem_cons_self, h0⟩, h5⟩, hattr⟩

lemma lookup_front (name lfn : CString) (pre : List Found) :
    (∃ g ∈ pre, ∀ rest, lookup name lfn (pre ++ rest) = some g) ∨
    ((∃ x ∈ pre, x.ent.getD 0 0 = 0) ∧ ∀ rest, lookup name lfn (pre ++ rest) = none) ∨
    ∃ t, (∀ rest, lookup name lfn (pre ++ rest) = lookup name t rest) ∧
      (pre = [] → t = lfn) ∧ ∀ x ∈ pre.getLast?, ¬ IsLfn x.ent → t = [] := by
  have happend := lookup_append name lfn pre
  cases hlook : lookup name lfn pre with
  | some g =>
    simp only [hlook, Option.some_or] at happend
    exact .inl ⟨g, (lookup_some hlook).1, happend⟩
  | none =>
    simp only [hlook, Option.none_or] at happend
    by_cases hend : Ended pre
    · simp only [if_pos hend] at happend
      exact .inr (.inl ⟨hend, happend⟩)
    · simp only [if_neg hend] at happend
      refine .inr (.inr ⟨pendingText lfn pre, happend, ?_, fun x => pendingText_last hend⟩)
      rintro rfl
      rfl

lemma entries_free (hfree : ∀ x ∈ run, ¬ InUse x.ent) (hne : run ≠ []) (t : CString)
    (fs : List Found) : entries t (run ++ fs) = if Ended run then [] else entries [] fs := by
  have hnone : entries t run = [] := by
    apply map_eq_nil_iff.mp
    rw [entries_slots, filter_eq_nil_iff]
    intro x hx hent
    have hent := of_decide_eq_true hent
    exact hfree x ((takeWhile_sublist _).subset hx) ⟨hent.1, hent.2.1⟩
  rw [entries_append, hnone, nil_append]
  split
  · rfl
  · next hend =>
    rw [pendingText_last hend (List.getLast?_eq_some_getLast hne) fun hlfn =>
      hfree _ (getLast_mem hne) hlfn.1]

/-- The slots of a directory in which some free ones stand between the slots `pre` and `post`. -/
structure Gap (pre run post : List Found) : Prop where
  tidy : Tidy (pre ++ run ++ post)
  ne_nil : run ≠ []
  free : ∀ x ∈ run, ¬ InUse x.ent

lemma entries_zeros {zs : List Found} (hz : ∀ z ∈ zs, z.ent.getD 0 0 = 0) (t : CString) :
    entries t zs = [] := by
  cases zs with
  | nil => rfl
  | cons z zs => exact entries_end (hz z mem_cons_self)

lemma entries_append_zeros {zs : List Found} (hz : ∀ z ∈ zs, z.ent.getD 0 0 = 0) (t : CString)
    (fs : List Found) : entries t (fs ++ zs) = entries t fs := by
  rw [entries_append, entries_zeros hz, ite_self, append_nil]

lemma lookup_append_zeros {zs : List Found} (hz : ∀ z ∈ zs, z.ent.getD 0 0 = 0) (fs : List Found) :
    lookup name [] (fs ++ zs) = lookup name [] fs := by
  rw [lookup_entries, lookup_entries, entries_append_zeros hz]

lemma Tidy.append_zeros {fs zs : List Found} (h : Tidy fs) (hz : ∀ z ∈ zs, z.ent.getD 0 0 = 0) :
    Tidy (fs ++ zs) := by
  have hfree : ∀ z ∈ zs, ¬ IsLfn z.ent := fun z hm hlfn => hlfn.1.1 (hz z hm)
  refine ⟨?_, ?_, ?_⟩
  · rw [pairwise_append]
    refine ⟨h.ended, ?_, fun a _ b hb _ => hz b hb⟩
    exact pairwise_of_forall_mem_list fun a _ b hb _ => hz b hb
  · rw [isChain_append]
    refine ⟨h.named, ?_, fun a ha b _ hlfn => absurd hlfn (h.last a ha)⟩
    apply List.Pairwise.isChain
    exact pairwise_of_forall_mem_list fun a ha b _ hlfn => absurd hlfn (hfree a ha)
  · intro a ha
    rw [List.getLast?_append] at ha
    cases hlast : zs.getLast? with
    | none =>
      rw [hlast] at ha
      exact h.last a ha
    | some z =>
      rw [hlast] at ha
      cases ha
      exact hfree a (mem_of_getLast? hlast)

lemma Gap.lookup_run (h : Gap pre run post) (t : CString) :
    lookup name t (run ++ post) = lookup name [] post := by
  rw [lookup_entries, lookup_entries, entries_free h.free h.ne_nil]
  split
  · next hend =>
    obtain ⟨x, hx, h0⟩ := hend
    have hended := h.tidy.ended
    rw [append_assoc] at hended
    have hpost := (pairwise_append.mp (pairwise_append.mp hended).2.1).2.2
    rw [entries_zeros fun z hz => hpost x hx z hz h0]
  · rfl

lemma Gap.last (h : Gap pre run post) : ∀ x ∈ pre.getLast?, ¬ IsLfn x.ent := by
  intro x hx hlfn
  obtain ⟨pre', rfl⟩ := List.getLast?_eq_some_iff.mp hx
  obtain ⟨z, run, rfl⟩ := exists_cons_of_ne_nil h.ne_nil
  have hch := h.tidy.named
  rw [append_assoc, append_assoc, singleton_append, cons_append,
    isChain_append_cons_cons] at hch
  exact h.free z mem_cons_self (hch.2.1 hlfn)

lemma Gap.lookup_cases (h : Gap pre run post) (name : CString) :
    ((∃ g ∈ pre, ∀ rest, lookup name [] (pre ++ rest) = some g) ∨
      ((∃ x ∈ pre, x.ent.getD 0 0 = 0) ∧ ∀ rest, lookup name [] (pre ++ rest) = none)) ∨
    ((∀ rest, lookup name [] (pre ++ rest) = lookup name [] rest) ∧
      lookup name [] (pre ++ run ++ post) = lookup name [] post) := by
  rcases lookup_front name [] pre with hg | hend | ⟨t, hall, hnil, hlast⟩
  · exact .inl (.inl hg)
  · exact .inl (.inr hend)
  · have ht : t = [] := by
      cases hpre : pre.getLast? with
      | none => exact hnil (List.getLast?_eq_none_iff.mp hpre)
      | some x => exact hlast x hpre (h.last x hpre)
    subst ht
    refine .inr ⟨hall, ?_⟩
    rw [append_assoc, hall, h.lookup_run]

lemma Gap.lookup_other (h : Gap pre run post) {x : Found} (hx : IsEntry x.ent)
    (hno : nameEquals (shortToName x.ent) name = false) :
    lookup name [] (pre ++ [x] ++ post) = lookup name [] (pre ++ run ++ post) := by
  rw [append_assoc, append_assoc]
  rcases h.lookup_cases name with (⟨g, -, hall⟩ | ⟨-, hall⟩) | ⟨hall, hpost⟩
  · rw [hall, hall]
  · rw [hall, hall]
  · rw [append_assoc] at hpost
    rw [hall, hpost, singleton_append, lookup_entry hx, entryName, if_pos rfl, if_neg (by rw [hno]; decide)]

lemma Gap.lookup_new (h : Gap pre run post) {x : Found} (hx : IsEntry x.ent)
    (hname : nameEquals (shortToName x.ent) name = true) (hpre : ∀ y ∈ pre, InUse y.ent)
    (hnone : lookup name [] (pre ++ run ++ post) = none) :
    lookup name [] (pre ++ [x] ++ post) = some x := by
  rw [append_assoc] at hnone ⊢
  rcases h.lookup_cases name with (⟨g, -, hall⟩ | ⟨⟨y, hy, hno⟩, -⟩) | ⟨hall, -⟩
  · cases (hall _).symm.trans hnone
  · exact absurd hno (hpre y hy).1
  · rw [hall, singleton_append, lookup_entry hx, entryName, if_pos rfl, if_pos hname]

def Hides (name : CString) (run : List Found) : Prop :=
  ∀ post, lookup name [] post = none → lookup name [] (run ++ post) = none

lemma Gap.lookup_hidden (h : Gap pre run post) (hhide : Hides name run')
    (hnone : lookup name [] (pre ++ run ++ post) = none) :
    lookup name [] (pre ++ run' ++ post) = none := by
  rcases h.lookup_cases name with (⟨g, -, hall⟩ | ⟨-, hall⟩) | ⟨hall, hpost⟩
  · rw [append_assoc] at hnone
    cases (hall _).symm.trans hnone
  · rw [append_assoc, hall]
  · rw [append_assoc, hall]
    exact hhide post (hpost.symm.trans hnone)

end Front

/-! ## The slots of a new entry -/

section Hidden
variable {name : CString} {attr : UInt8} {post : List Found}

lemma lfnChars_length_le (e : Slot) (start count : Nat) : (lfnChars e start count).length ≤ count := by
  unfold lfnChars
  rw [length_map]
  apply Nat.le_trans (takeWhile_sublist _).length_le
  simp

lemma lfnExtractPart_length_le (e : Slot) : (lfnExtractPart e).length ≤ 13 := by
  have h1 := lfnChars_length_le e 1 5
  have h2 := lfnChars_length_le e 14 6
  have h3 := lfnChars_length_le e 28 2
  apply Nat.le_trans (takeWhile_sublist _).length_le
  rw [length_append, length_append]
  omega

lemma lfnEntry_attr (name : CString) (short : List UInt8) (order : Nat) (isLast : Bool) :
    direntAttr (fatWriteLfnEntries name short order isLast) = 0x0F := rfl

lemma lfnEntry_first {order count : Nat} (horder : 0 < order) (hlt : order < count) (hcount : count < 16)
    (name : CString) (short : List UInt8) :
    InUse (fatWriteLfnEntries name short order (order == count)) := by
  have hne : (order == count) = false := by
    rw [beq_eq_false_iff_ne]
    omega
  have hfirst : (fatWriteLfnEntries name short order (order == count)).getD 0 0 = UInt8.ofNat order := by
    rw [hne]
    exact UInt8.or_zero
  rw [InUse, hfirst]
  constructor
  · intro h
    have := congrArg UInt8.toNat h
    rw [UInt8.toNat_ofNat'] at this
    simp at this
    omega
  · intro h
    have := congrArg UInt8.toNat h
    rw [UInt8.toNat_ofNat'] at this
    simp at this
    omega

lemma lookup_lfnSlots {short : List UInt8} {count i : Nat} (hi : i < count) (hcount : count < 16)
    {xs : List Found} (hxs : xs.map Found.ent = lfnSlots name short count i) (post : List Found)
    (n t : CString) : ∃ t', lookup n t (xs ++ post) = lookup n t' post ∧ t'.length ≤ t.length + 13 * i := by
  induction i generalizing xs t with
  | zero =>
    rw [lfnSlots, map_eq_nil_iff] at hxs
    subst hxs
    exact ⟨t, rfl, by omega⟩
  | succ i ih =>
    rw [lfnSlots] at hxs
    obtain ⟨x, xs', rfl, hx, hxs'⟩ := map_eq_cons_iff.mp hxs
    have huse := lfnEntry_first (Nat.succ_pos i) hi hcount name short
    have hattr := lfnEntry_attr name short (i + 1) (i + 1 == count)
    rw [← hx] at huse hattr
    obtain ⟨t', heq, hlen⟩ := ih (by omega) hxs' (lfnStep t x.ent)
    refine ⟨t', ?_, ?_⟩
    · rw [cons_append, lookup, if_neg huse.1, if_neg huse.2, if_pos hattr, heq]
    · have hpart := lfnExtractPart_length_le x.ent
      have hstep : (lfnStep t x.ent).length ≤ 13 + t.length := by
        unfold lfnStep lfnPrepend
        rw [length_append, length_take]
        split <;> simp <;> omega
      omega

lemma lookup_entry_other {x : Found} {n t : CString} (hattr : direntAttr x.ent ≠ 0x0F)
    (hno : nameEquals (entryName t x.ent) n = false) (hpost : lookup n [] post = none) :
    lookup n t (x :: post) = none := by
  rw [lookup]
  split
  · rfl
  · split
    · exact hpost
    · rw [if_neg (by rw [hno]; decide)]
      exact hpost

/-- The slots of a new entry, the first of which has been overwritten with `e`. -/
def installed (name : CString) (attr : UInt8) (e : Slot) : List Slot := e :: (entrySlots name attr).tail

lemma installed_cases {e : Slot} {c i : Nat} {x : Found} (hx : x ∈ placed c i (installed name attr e)) :
    x = ⟨e, c, 32 * i⟩ ∨ (∃ order, order + 1 < lfnCount name ∧
      x.ent = fatWriteLfnEntries name (nameToShort name) (order + 1) (order + 1 == lfnCount name)) ∨
    x.ent = newDirent (nameToShort name) attr := by
  obtain ⟨k, hk, rfl⟩ := mem_mapIdx.mp hx
  cases k with
  | zero => exact .inl rfl
  | succ k =>
    have hmem : (installed name attr e)[k + 1] ∈ (entrySlots name attr).tail :=
      getElem_mem (l := (entrySlots name attr).tail) _
    dsimp only
    generalize (installed name attr e)[k + 1] = y at hmem
    cases hcount : lfnCount name with
    | zero =>
      rw [entrySlots, hcount] at hmem
      cases hmem
    | succ n =>
      rw [entrySlots, hcount, lfnSlots, cons_append, tail_cons] at hmem
      rcases mem_append.mp hmem with hmem | hmem
      · obtain ⟨order, horder, heq⟩ := mem_lfnSlots hmem
        exact .inr (.inl ⟨order, by omega, heq⟩)
      · exact .inr (.inr (mem_singleton.mp hmem))

lemma lfnCount_pos (h : needsLfn name = true) (hne : name ≠ []) : 0 < lfnCount name := by
  have := length_pos_of_ne_nil hne
  rw [lfnCount, if_pos h]
  omega

lemma shortToName_alike {e e' : Slot} (h : Alike e e') : shortToName e' = shortToName e := by
  have := h.entryName []
  rwa [entryName, entryName, if_pos rfl, if_pos rfl] at this

lemma newDirent_attr (name : CString) (attr : UInt8) :
    direntAttr (newDirent (nameToShort name) attr) = attr := by
  rw [direntAttr, newDirent, getD_append_right _ _ _ _ (by rw [nameToShort_length])]
  simp [nameToShort_length]

lemma newDirent_name (name : CString) (attr : UInt8) :
    shortToName (newDirent (nameToShort name) attr) = shortToName (nameToShort name) := by
  unfold shortToName newDirent
  rw [take_append_of_le_length (by rw [nameToShort_length]; decide),
    drop_append_of_le_length (by rw [nameToShort_length]; decide),
    take_append_of_le_length (by rw [length_drop, nameToShort_length])]

lemma newDirent_first (name : CString) (attr : UInt8) :
    (newDirent (nameToShort name) attr).getD 0 0 = (nameToShort name).getD 0 0 :=
  getD_append _ _ _ _ (by rw [nameToShort_length]; decide)

lemma newDirent_short (name : CString) (attr : UInt8) :
    (newDirent (nameToShort name) attr).take 11 = nameToShort name := by
  rw [newDirent, take_append_of_le_length (by rw [nameToShort_length]),
    take_of_length_le (by rw [nameToShort_length])]

lemma Plain.isEntry (h : Plain name) (hattr : attr ≠ 0x0F) {e : Slot}
    (he : Alike (newDirent (nameToShort name) attr) e) :
    IsEntry e ∧ nameEquals (shortToName e) name = true := by
  constructor
  · rw [he.isEntry, IsEntry, newDirent_first, newDirent_attr]
    exact ⟨nameToShort_ne_zero (not_mem_zero_of_short h.1), h.2, hattr⟩
  · rw [shortToName_alike he, newDirent_name]
    simpa [needsLfn] using h.1

lemma hides_installed (hname : ¬ Plain name) (hne : name ≠ []) (hlen : name.length < 64)
    (hattr : attr ≠ 0x0F) {e : Slot} (he : Alike (newDirent (nameToShort name) attr) e) {xs : List Found}
    (hxs : xs.map Found.ent = installed name attr e) : Hides name xs := by
  intro post hpost
  have hnew := newDirent_attr name attr
  have hshort := newDirent_name name attr
  obtain ⟨x, xs', rfl, hx, hxs'⟩ := map_eq_cons_iff.mp hxs
  rw [cons_append]
  by_cases hlfn : needsLfn name = true
  · have hno : nameEquals (shortToName (nameToShort name)) name = false := by simpa [needsLfn] using hlfn
    have hcount := lfnCount_lt hlen
    have hpos := lfnCount_pos hlfn hne
    obtain ⟨k, hk⟩ : ∃ k, lfnCount name = k + 1 := ⟨lfnCount name - 1, by omega⟩
    -- the rest of the run: the other long-name slots and the slot of the entry
    have htail : (entrySlots name attr).tail = lfnSlots name (nameToShort name) (k + 1) k ++
        [newDirent (nameToShort name) attr] := by
      rw [entrySlots, hk, lfnSlots]
      rfl
    rw [htail] at hxs'
    obtain ⟨ys, zs, rfl, hys, hzs⟩ := map_eq_append_iff.mp hxs'
    obtain ⟨z, zs', rfl, hz, hnil⟩ := map_eq_cons_iff.mp hzs
    rw [map_eq_nil_iff] at hnil
    subst hnil
    apply lookup_entry_other
    · rw [hx, he.attr, hnew]
      exact hattr
    · rw [entryName, if_pos rfl, hx, shortToName_alike he, hshort]
      exact hno
    · obtain ⟨t, heq, htlen⟩ := lookup_lfnSlots (Nat.lt_succ_self k) (by omega) hys (z :: post) name []
      rw [append_assoc, singleton_append, heq]
      apply lookup_entry_other
      · rw [hz, hnew]
        exact hattr
      · unfold entryName
        split
        · rw [hz, hshort]
          exact hno
        · -- the text left is shorter than the name
          rw [Bool.eq_false_iff]
          intro heq
          have hl := nameEquals_length heq
          rw [lfnCount, if_pos hlfn] at hk
          simp at htlen
          omega
      · exact hpost
  · -- a single slot that counts as deleted
    have h5 : (nameToShort name).getD 0 0 = 0xE5 := by
      by_contra h5
      exact hname ⟨by simpa using hlfn, h5⟩
    have hcount : lfnCount name = 0 := if_neg hlfn
    have htail : (entrySlots name attr).tail = [] := by
      rw [entrySlots, hcount]
      rfl
    rw [htail, map_eq_nil_iff] at hxs'
    subst hxs'
    have hfirst : x.ent.getD 0 0 = 0xE5 := by
      rw [hx, he.getD (by decide), newDirent_first]
      exact h5
    rw [nil_append, lookup, if_neg (by rw [hfirst]; decide), if_pos hfirst]
    exact hpost

end Hidden

end FusionOS.Fat
