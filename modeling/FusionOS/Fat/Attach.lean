import FusionOS.Fat.NewEntry
import FusionOS.Fat.Frame

/-!
# The volume with a new entry

What is left where it was when a directory gets a new entry: the other directories, the files,
and in the directory itself every name that the slots of the new entry do not have.
-/

namespace FusionOS.Fat

open List
open Function (update update_of_ne update_self)

/-- The directory `d` with the clusters `ld` has got the slots of the entry `name`, the first of them
overwritten with `e`; its clusters are now `l₁`. Of the other clusters only `l'`, which were free,
have changed. -/
structure Attached (st st' : Fs) (d : Nat) (ld l₁ : List Nat) (name : CString) (attr : UInt8)
    (c i : Nat) (e : Slot) (l' : List Nat) : Prop where
  disk : DiskOnly st st'
  chain : FatChain st.vol st'.fat d l₁
  grown : ∀ x ∈ l₁, x ∈ ld ∨ x ∈ freeClusters st.vol st.fat
  fresh : ∀ x ∈ l', x ∈ freeClusters st.vol st.fat ∧ x ∉ l₁
  fat : ∀ x, x ∉ l₁ → x ∉ l' → st'.fat x = st.fat x
  data : ∀ x, x ∉ l₁ → x ∉ l' → st'.data x = st.data x
  mem : c ∈ l₁
  place : Place st.vol c (32 * i)
  slots : ∃ pre run post zs, dirSlots st.vol st.data ld ++ zs = pre ++ run ++ post ∧
    (∀ z ∈ zs, z.ent.getD 0 0 = 0) ∧
    dirSlots st.vol st'.data l₁ = pre ++ placed c i (installed name attr e) ++ post ∧
    run.length = lfnCount name + 1 ∧ (∀ x ∈ run, ¬ InUse x.ent) ∧
    (lfnCount name = 0 → ∀ x ∈ pre, InUse x.ent)

lemma splice_overwrite (m : Mem) (a : Nat) {xs ys : List UInt8} (zs : List UInt8)
    (h : ys.length = xs.length) : splice (splice m a (xs ++ zs)) a ys = splice m a (ys ++ zs) := by
  rw [splice_append, splice_append, ← h]
  funext j
  by_cases h1 : a ≤ j ∧ j < a + ys.length
  · have hin := splice_in (splice (splice m a xs) (a + ys.length) zs) a ys (i := j - a) (by omega)
    have hin' := splice_in m a ys (i := j - a) (by omega)
    rw [show a + (j - a) = j by omega] at hin hin'
    rw [hin, splice_out _ _ _ (by omega), hin']
  · rw [splice_out _ _ _ (by omega)]
    by_cases h2 : a + ys.length ≤ j ∧ j < a + ys.length + zs.length
    · have hin := splice_in (splice m a xs) (a + ys.length) zs (i := j - (a + ys.length)) (by omega)
      have hin' := splice_in (splice m a ys) (a + ys.length) zs (i := j - (a + ys.length)) (by omega)
      rw [show a + ys.length + (j - (a + ys.length)) = j by omega] at hin hin'
      rw [hin, hin']
    · rw [splice_out _ _ _ (by omega), splice_out _ _ _ (by omega), splice_out _ _ _ (by omega),
        splice_out _ _ _ (by omega)]

lemma entrySlots_cons (name : CString) (attr : UInt8) :
    ∃ e0, e0.length = 32 ∧ entrySlots name attr = e0 :: (entrySlots name attr).tail := by
  cases h : entrySlots name attr with
  | nil =>
    have := congrArg List.length h
    rw [entrySlots_length] at this
    cases this
  | cons e0 es => exact ⟨e0, entrySlots_slot e0 (by rw [h]; exact mem_cons_self), rfl⟩

lemma installed_slot {name : CString} {attr : UInt8} {e : Slot} (he : e.length = 32) :
    ∀ x ∈ installed name attr e, x.length = 32 := by
  intro x hx
  rcases mem_cons.mp hx with rfl | hx
  · exact he
  · exact entrySlots_slot x (mem_of_mem_tail hx)

lemma installed_length (name : CString) (attr : UInt8) (e : Slot) :
    (installed name attr e).length = lfnCount name + 1 := by
  rw [installed, length_cons, length_tail, entrySlots_length]
  omega

section Attach
variable {st st₁ st₂ st' : Fs} {d : Nat} {ld l₁ : List Nat} {name : CString} {attr : UInt8} {c i : Nat}
  {e : Slot} {l' : List Nat}

variable {n : CString} {f : Found}

lemma attached_of (hg : Grown st st₁ d ld l₁) (hp : Placed st₁ st₂ l₁ name attr c i)
    (hd : DiskOnly st₂ st') (he : e.length = 32)
    (hfat : ∀ x, x ∉ l' → st'.fat x = st₂.fat x)
    (hfresh : ∀ x ∈ l', x ∈ freeClusters st₂.vol st₂.fat)
    (hentry : st'.data c = splice (st₂.data c) (32 * i) e)
    (hother : ∀ x, x ∉ l' → x ≠ c → st'.data x = st₂.data x) :
    Attached st st' d ld l₁ name attr c i e l' := by
  have hvol2 : st₂.vol = st.vol := hp.disk.vol.trans hg.disk.vol
  have hout : ∀ x ∈ l', x ∉ l₁ := by
    intro x hx hx1
    have h0 := (mem_freeClusters.mp (hfresh x hx)).2
    rw [hp.fat] at h0
    exact FatChain.fat_ne_zero hg.chain hx1 h0
  obtain ⟨pre, run, post, hslots, hslots', hlen, hfree, hpre⟩ := hp.split
  obtain ⟨zs, hzs, hzero⟩ := hg.slots
  rw [hg.disk.vol] at hslots hslots'
  rw [hzs] at hslots
  refine ⟨(hg.disk.trans hp.disk).trans hd, ?_, hg.fresh, ?_, ?_, ?_, hp.mem, ?_, pre, run, post, zs,
    hslots, hzero, ?_, hlen, hfree, hpre⟩
  · apply Chain.congr hg.chain
    intro x hx
    rw [hfat x fun hm => hout x hm hx, hp.fat]
  · intro x hx
    have hmem := mem_freeClusters.mp (hfresh x hx)
    rw [hvol2, hp.fat, hg.fat x (hout x hx)] at hmem
    exact ⟨mem_freeClusters.mpr hmem, hout x hx⟩
  · intro x hx hx'
    rw [hfat x hx', hp.fat, hg.fat x hx]
  · intro x hx hx'
    have hxc : x ≠ c := by
      rintro rfl
      exact hx hp.mem
    rw [hother x hx' hxc, hp.data, placeData, update_of_ne hxc, hg.data x (.inr hx)]
  · have := hp.place
    rwa [hg.disk.vol] at this
  · rw [← hslots' _ (installed_slot he) (installed_length name attr e)]
    apply dirSlots_congr
    intro x hx
    by_cases hxc : x = c
    · subst hxc
      obtain ⟨e0, he0, heq⟩ := entrySlots_cons name attr
      rw [hentry, hp.data, placeData, placeData, update_self, update_self, heq,
        flatten_cons, splice_overwrite _ _ _ (he.trans he0.symm), installed, flatten_cons]
    · rw [hother x (fun hm => hout x hm hx) hxc, hp.data, placeData, placeData,
        update_of_ne hxc, update_of_ne hxc]

/-! ## What is left where it was -/

section Kept
variable (h : Attached st st' d ld l₁ name attr c i e l') (hs : st.image.Sound) (hg : Geometry st.vol)
  {p : Nat} (hd : st.image.Dir d p) (hl : st.image.ChainAt d ld)
include h hs hg hd hl

variable {l : List Nat} {d' p' : Nat}

lemma Attached.outside (hd' : st.image.Dir d' p')
    (hl' : st.image.ChainAt d' l) (hne : d' ≠ d) {x : Nat} (hx : x ∈ l) : x ∉ l₁ ∧ x ∉ l' := by
  have hused : x ∉ freeClusters st.vol st.fat := fun hfree =>
    FatChain.fat_ne_zero hl' hx (mem_freeClusters.mp hfree).2
  refine ⟨fun hx1 => ?_, fun hx' => hused (h.fresh x hx').1⟩
  have hxd : x ∈ ld := (h.grown x hx1).resolve_right hused
  exact hne (hs.dir_eq hg hd' hl' hd hl hx hxd)

lemma Attached.other_dir (hd' : st.image.Dir d' p')
    (hl' : st.image.ChainAt d' l) (hne : d' ≠ d) :
    st'.image.ChainAt d' l ∧ st'.image.slots l = st.image.slots l := by
  have hout := fun x hx => h.outside hs hg hd hl hd' hl' hne (x := x) hx
  have hvol : st'.image.vol = st.image.vol := h.disk.vol
  constructor
  · rw [Image.ChainAt, hvol]
    exact Chain.congr hl' fun x hx => h.fat x (hout x hx).1 (hout x hx).2
  · rw [Image.slots, hvol]
    exact dirSlots_congr fun x hx => h.data x (hout x hx).1 (hout x hx).2

omit hs hg hd hl in
lemma Attached.chainAt : st'.image.ChainAt d l₁ := by
  rw [Image.ChainAt, show st'.image.vol = st.vol from h.disk.vol]
  exact h.chain

lemma Attached.lookup_dirs {P : Found → Option Found → Prop} (hsame : ∀ f, P f (some f))
    (hdir : ∀ n f, lookup n [] (st.image.slots ld) = some f → P f (lookup n [] (st'.image.slots l₁)))
    {n : CString} {f : Found} (hd' : st.image.Dir d' p')
    (hl' : st.image.ChainAt d' l) (hlook : lookup n [] (st.image.slots l) = some f) :
    ∃ l2, st'.image.ChainAt d' l2 ∧ P f (lookup n [] (st'.image.slots l2)) := by
  by_cases hne : d' = d
  · subst hne
    obtain rfl := FatChain.unique hg hl' hl
    exact ⟨l₁, h.chainAt, hdir n f hlook⟩
  · obtain ⟨hch, hslots⟩ := h.other_dir hs hg hd hl hd' hl' hne
    refine ⟨l, hch, ?_⟩
    rw [hslots, hlook]
    exact hsame f

end Kept

lemma Attached.gap (h : Attached st st' d ld l₁ name attr c i e l') (ht : Tidy (st.image.slots ld)) :
    ∃ pre run post, Gap pre run post ∧
      (∀ n, lookup n [] (st.image.slots ld) = lookup n [] (pre ++ run ++ post)) ∧
      st'.image.slots l₁ = pre ++ placed c i (installed name attr e) ++ post ∧
      (lfnCount name = 0 → ∀ x ∈ pre, InUse x.ent) := by
  obtain ⟨pre, run, post, zs, heq, hzero, hslots, hlen, hfree, hpre⟩ := h.slots
  refine ⟨pre, run, post, ⟨?_, ?_, hfree⟩, ?_, ?_, hpre⟩
  · rw [← heq]
    exact ht.append_zeros hzero
  · intro hnil
    rw [hnil] at hlen
    cases hlen
  · intro n
    rw [← heq, lookup_append_zeros hzero]
    rfl
  · rw [Image.slots, show st'.image.vol = st.vol from h.disk.vol]
    exact hslots

lemma placed_short (hshort : needsLfn name = false) :
    placed c i (installed name attr e) = [⟨e, c, 32 * i⟩] := by
  rw [installed, entrySlots, show lfnCount name = 0 from if_neg (by rw [hshort]; decide)]
  rfl

section Plain
variable (h : Attached st st' d ld l₁ name attr c i e l') (ht : Tidy (st.image.slots ld))
  (hplain : Plain name) (hattr : attr ≠ 0x0F) (he : Alike (newDirent (nameToShort name) attr) e)
  (hnone : lookup name [] (st.image.slots ld) = none)
include h ht hplain hattr he hnone

lemma Attached.lookup_new : lookup name [] (st'.image.slots l₁) = some ⟨e, c, 32 * i⟩ := by
  obtain ⟨pre, run, post, hgap, hold, hslots, hpre⟩ := h.gap ht
  obtain ⟨hent, hname⟩ := hplain.isEntry hattr he
  rw [hslots, placed_short hplain.1]
  apply hgap.lookup_new hent hname
  · exact hpre (if_neg (by rw [hplain.1]; decide))
  · rw [← hold]
    exact hnone

lemma Attached.lookup_plain {n : CString} {f : Found}
    (hlook : lookup n [] (st.image.slots ld) = some f) :
    lookup n [] (st'.image.slots l₁) = some f := by
  obtain ⟨pre, run, post, hgap, hold, hslots, -⟩ := h.gap ht
  obtain ⟨hent, hname⟩ := hplain.isEntry hattr he
  rw [hslots, placed_short hplain.1, hgap.lookup_other hent, ← hold, hlook]
  rw [Bool.eq_false_iff]
  intro hn
  have hsame := lookup_name (nameEquals_trans (nameEquals_symm hname) hn) [] (st.image.slots ld)
  rw [hnone, hlook] at hsame
  cases hsame

end Plain

lemma placed_ent (es : List Slot) : (placed c i es).map Found.ent = es := by
  apply ext_getElem
  · rw [length_map, placed, length_mapIdx]
  · intro k h1 h2
    rw [getElem_map]
    simp only [placed, getElem_mapIdx]

lemma installed_last (hattr : attr ≠ 0x0F) (he : Alike (newDirent (nameToShort name) attr) e) :
    ∀ x ∈ (placed c i (installed name attr e)).getLast?, ¬ IsLfn x.ent := by
  intro x hx hlfn
  have hlast : x.ent ∈ (installed name attr e).getLast? := by
    have hmap := congrArg List.getLast? (@placed_ent c i (installed name attr e))
    rw [List.getLast?_map] at hmap
    rw [← hmap]
    exact Option.mem_map_of_mem _ hx
  have halike : Alike (newDirent (nameToShort name) attr) x.ent := by
    rw [installed, entrySlots] at hlast
    cases hslots : lfnSlots name (nameToShort name) (lfnCount name) (lfnCount name) with
    | nil =>
      rw [hslots] at hlast
      cases hlast
      exact he
    | cons y ys =>
      rw [hslots, cons_append, tail_cons, ← cons_append, List.getLast?_concat] at hlast
      rw [← Option.some.inj hlast]
      exact Alike.refl _
  rw [IsLfn, halike.attr, newDirent_attr] at hlfn
  exact hattr hlfn.2

lemma installed_isDir (hattr : attr &&& 0x10 = 0) (he : Alike (newDirent (nameToShort name) attr) e) :
    ∀ x ∈ placed c i (installed name attr e), direntIsDir x.ent = false := by
  intro x hx
  have hnew : direntIsDir (newDirent (nameToShort name) attr) = false := by
    rw [direntIsDir, newDirent_attr, hattr]
    rfl
  rcases installed_cases hx with rfl | ⟨order, -, heq⟩ | heq
  · rw [he.isDir, hnew]
  · rw [heq, direntIsDir, lfnEntry_attr]
    rfl
  · rw [heq, hnew]

lemma installed_ne_zero (h0 : 0 ∉ name) (hlen : name.length < 64)
    (he : Alike (newDirent (nameToShort name) attr) e) :
    ∀ x ∈ placed c i (installed name attr e), x.ent.getD 0 0 ≠ 0 := by
  intro x hx
  have hnew : (newDirent (nameToShort name) attr).getD 0 0 ≠ 0 := by
    rw [newDirent_first]
    exact nameToShort_ne_zero h0
  rcases installed_cases hx with rfl | ⟨order, horder, heq⟩ | heq
  · rw [he.getD (by decide)]
    exact hnew
  · rw [heq]
    exact (lfnEntry_first (Nat.succ_pos order) horder (lfnCount_lt hlen) _ _).1
  · rw [heq]
    exact hnew

lemma lookup_free {run : List Found} (hfree : ∀ x ∈ run, ¬ InUse x.ent) (hne : run ≠ []) {t : CString}
    {post : List Found} (h : lookup n t (run ++ post) = some f) :
    lookup n [] post = some f := by
  rw [lookup_entries, entries_free hfree hne] at h
  rw [lookup_entries]
  split at h
  · cases h
  · exact h

lemma Attached.lookup_old (h : Attached st st' d ld l₁ name attr c i e l') (hattr : attr ≠ 0x0F)
    (he : Alike (newDirent (nameToShort name) attr) e)
    (hlook : lookup n [] (st.image.slots ld) = some f) :
    lookup n [] (st'.image.slots l₁) = some f ∨
      (lookup n [] (st'.image.slots l₁) = none ∧
        ∃ x ∈ placed c i (installed name attr e), x.ent.getD 0 0 = 0) ∨
      ∃ g ∈ placed c i (installed name attr e), lookup n [] (st'.image.slots l₁) = some g := by
  obtain ⟨pre, run, post, zs, heq, hzero, hslots, hlen, hfree, -⟩ := h.slots
  rw [Image.slots, ← lookup_append_zeros hzero,
    show dirSlots st.image.vol st.image.data ld ++ zs = _ from heq, append_assoc] at hlook
  rw [Image.slots, show st'.image.vol = st.vol from h.disk.vol,
    show dirSlots st.vol st'.image.data l₁ = _ from hslots, append_assoc]
  rcases lookup_front n [] pre with ⟨g, -, hall⟩ | ⟨-, hall⟩ | ⟨t, hall, -⟩
  · rw [hall] at hlook ⊢
    exact .inl hlook
  · rw [hall] at hlook
    cases hlook
  rw [hall] at hlook ⊢
  have hpost := lookup_free hfree (ne_nil_of_length_pos (by omega)) hlook
  rcases lookup_front n t (placed c i (installed name attr e)) with
    ⟨g, hg, hall'⟩ | ⟨hend, hall'⟩ | ⟨t', hall', -, hlast⟩
  · exact .inr (.inr ⟨g, hg, hall' post⟩)
  · exact .inr (.inl ⟨hall' post, hend⟩)
  · obtain ⟨x, hx⟩ : ∃ x, (placed c i (installed name attr e)).getLast? = some x :=
      ⟨_, List.getLast?_eq_some_getLast (ne_nil_of_length_pos (by
        rw [placed, length_mapIdx, installed_length]; omega))⟩
    have hnil : t' = [] := hlast x hx (installed_last hattr he x hx)
    rw [hall', hnil]
    exact .inl hpost

lemma Attached.lookup_hidden (h : Attached st st' d ld l₁ name attr c i e l')
    (ht : Tidy (st.image.slots ld)) (hattr : attr ≠ 0x0F)
    (he : Alike (newDirent (nameToShort name) attr) e) (hplain : ¬ Plain name) (hne : name ≠ [])
    (hlen : name.length < 64) (hnone : lookup name [] (st.image.slots ld) = none) :
    lookup name [] (st'.image.slots l₁) = none := by
  obtain ⟨pre, run, post, hgap, hold, hslots, -⟩ := h.gap ht
  rw [hold] at hnone
  rw [hslots]
  exact hgap.lookup_hidden (hides_installed hplain hne hlen hattr he (placed_ent _)) hnone

lemma Attached.lookup_single (h : Attached st st' d ld l₁ name attr c i e l')
    (hshort : needsLfn name = false) (hlen : name.length < 64) (hattr : attr ≠ 0x0F)
    (he : Alike (newDirent (nameToShort name) attr) e)
    (hlook : lookup n [] (st.image.slots ld) = some f) :
    lookup n [] (st'.image.slots l₁) = some f ∨
      lookup n [] (st'.image.slots l₁) = some ⟨e, c, 32 * i⟩ := by
  rcases h.lookup_old hattr he hlook with hf | ⟨-, x, hx, hzero⟩ | ⟨g, hg, hf⟩
  · exact .inl hf
  · exact absurd hzero (installed_ne_zero (not_mem_zero_of_short hshort) hlen he x hx)
  · rw [placed_short hshort] at hg
    rw [mem_singleton.mp hg] at hf
    exact .inr hf

end Attach

end FusionOS.Fat
