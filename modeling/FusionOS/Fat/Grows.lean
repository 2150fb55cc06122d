import FusionOS.Fat.LongName
import FusionOS.Fat.Listing
import FusionOS.Fat.Attach
import FusionOS.Fat.NameBuf
import Mathlib.Data.List.Perm.Basic

/-!
# What a new entry adds to the listing

`fat_create_entry` takes the first free slots in a row that it finds in one sector, be they deleted
or never used. The scanners stop at the first slot that was never used.
-/

namespace FusionOS.Fat

open List
open Function (update update_of_ne update_self)

/-! ## The listing of slots in a row -/

variable {x : Found} {pre xs : List Found} {l : List Nat} {data : Nat → Mem}

/-- The entry that a slot behind the long-name text `t` is listed as. -/
def listed (t : CString) (e : Slot) : List FsEntry :=
  if e.getD 0 0 = 0xE5 ∨ direntAttr e = 0x0F ∨ direntAttr e &&& 0x08 ≠ 0 then []
  else [⟨entryName t e, le32At e 28, direntIsDir e⟩]

lemma listing_cons (h0 : x.ent.getD 0 0 ≠ 0) (t : CString) (xs : List Found) :
    listing t (x :: xs) = listed t x.ent ++ listing (textAfter t x.ent) xs := by
  rw [listing, if_neg h0, listed, textAfter]
  generalize x.ent.getD 0 0 = first
  by_cases h5 : first = 0xE5
  · simp [h5]
  by_cases hlfn : direntAttr x.ent = 0x0F
  · simp [h5, hlfn]
  by_cases hlabel : direntAttr x.ent &&& 0x08 = 0
  · simp [h5, hlfn, hlabel]
  · simp [h5, hlfn, hlabel]

lemma listing_append (h : ¬ Ended pre) (t : CString) (fs : List Found) :
    listing t (pre ++ fs) = listing t pre ++ listing (pendingText t pre) fs := by
  simp only [listing_entries, entries_append, if_neg h, filterMap_append]

lemma listing_ended (h : Ended pre) (t : CString) (fs : List Found) :
    listing t (pre ++ fs) = listing t pre := by
  rw [listing_entries, listing_entries, entries_append, if_pos h, append_nil]

lemma listing_free {run : List Found} (hfree : ∀ x ∈ run, ¬ InUse x.ent) (hne : run ≠ [])
    (t : CString) (fs : List Found) :
    listing t (run ++ fs) = if Ended run then [] else listing [] fs := by
  rw [listing_entries, listing_entries, entries_free hfree hne]
  split <;> rfl

lemma listing_zeros {zs : List Found} (hz : ∀ z ∈ zs, z.ent.getD 0 0 = 0) (t : CString) :
    listing t zs = [] := by
  rw [listing_entries, entries_zeros hz]
  rfl

lemma lookup_of_listed {name : CString} {e : FsEntry} (hname : nameEquals e.name name = true)
    {fs : List Found} {t : CString} (h : e ∈ listing t fs) : ∃ f, lookup name t fs = some f := by
  rw [listing_entries] at h
  obtain ⟨x, hx, he⟩ := mem_filterMap.mp h
  rw [← listedAs_name he] at hname
  rw [← Option.isSome_iff_exists, lookup_entries, Option.isSome_map, List.find?_isSome]
  exact ⟨x, hx, hname⟩

/-! ## The slots of a new entry -/

lemma listing_lfns (h : ∀ x ∈ xs, IsLfn x.ent) (t : CString) (fs : List Found) :
    listing t (xs ++ fs) = listing ((xs.map Found.ent).foldl lfnStep t) fs := by
  induction xs generalizing t with
  | nil => rfl
  | cons x xs ih =>
    obtain ⟨⟨h0, h5⟩, hlfn⟩ := h x mem_cons_self
    rw [cons_append, listing, if_neg h0, if_neg h5, if_pos hlfn]
    exact ih (fun y hy => h y (mem_cons_of_mem _ hy)) _

/-- What a new entry behind the long-name text `t` is listed as. -/
def newListed (t name : CString) (attr : UInt8) : List FsEntry :=
  listed (if needsLfn name then name else t) (newDirent (nameToShort name) attr)

section New
variable {name : CString} {attr : UInt8}

variable {new post pre run : List Found}

lemma listing_entrySlots (hne : name ≠ []) (h0 : 0 ∉ name) (hlen : name.length < 64)
    (hattr : attr ≠ 0x0F) {xs : List Found} (hxs : xs.map Found.ent = entrySlots name attr)
    (t : CString) (fs : List Found) :
    listing t (xs ++ fs) = newListed t name attr ++ listing [] fs := by
  obtain ⟨ls, ys, rfl, hls, hys⟩ := map_eq_append_iff.mp hxs
  obtain ⟨x, zs, rfl, hx, hzs⟩ := map_eq_cons_iff.mp hys
  obtain rfl := map_eq_nil_iff.mp hzs
  have hcount := lfnCount_lt hlen
  have hlfn : ∀ y ∈ ls, IsLfn y.ent := by
    intro y hy
    apply lfnSlots_lfn (nameToShort name) hcount
    rw [← hls]
    exact mem_map_of_mem hy
  have htext : (lfnSlots name (nameToShort name) (lfnCount name) (lfnCount name)).foldl lfnStep t =
      if needsLfn name then name else t := by
    by_cases hneeds : needsLfn name = true
    · have hpos := lfnCount_pos hneeds hne
      have hend : name.length ≤ 13 * lfnCount name := by
        rw [lfnCount, if_pos hneeds]
        omega
      rw [if_pos hneeds, foldl_lfnSlots h0 (by omega) _ (Nat.le_refl _) (by omega) hend hpos]
      omega
    · rw [if_neg hneeds, lfnCount, if_neg hneeds]
      rfl
  have hfirst : x.ent.getD 0 0 ≠ 0 := by
    rw [hx, newDirent_first]
    exact nameToShort_ne_zero h0
  have hafter : ∀ t, textAfter t x.ent = [] := by
    intro t
    rw [textAfter, hx, newDirent_attr]
    exact if_neg fun h => hattr h.2
  rw [append_assoc, listing_lfns hlfn, hls, htext, singleton_append, listing_cons hfirst,
    hafter, hx, newListed]

/-- The entries that come to be listed when a new entry replaces the free slots `run`, behind the
long-name text `t` and in front of the slots `post`. -/
def gained (t name : CString) (attr : UInt8) (run post : List Found) : List FsEntry :=
  newListed t name attr ++ if Ended run then listing [] post else []

lemma listing_gained (hfree : ∀ x ∈ run, ¬ InUse x.ent)
    (hrun : run ≠ []) (hpre : ¬ Ended pre)
    (hnew : ∀ t, listing t (new ++ post) = newListed t name attr ++ listing [] post) :
    (listing [] (pre ++ new ++ post)).Perm
      (gained (pendingText [] pre) name attr run post ++ listing [] (pre ++ run ++ post)) := by
  rw [append_assoc, append_assoc, listing_append hpre, listing_append hpre, hnew,
    listing_free hfree hrun, gained]
  split
  · rw [append_nil]
    exact perm_append_comm
  · rw [append_nil]
    exact perm_append_comm_assoc _ _ _

lemma listing_grows_iff (hfree : ∀ x ∈ run, ¬ InUse x.ent)
    (hrun : run ≠ [])
    (hnew : ∀ t, listing t (new ++ post) = newListed t name attr ++ listing [] post) :
    (∃ e : FsEntry, (listing [] (pre ++ new ++ post)).Perm (e :: listing [] (pre ++ run ++ post)) ∧
        nameEquals e.name name = true) ↔
      ¬ Ended pre ∧ ∃ e : FsEntry, gained (pendingText [] pre) name attr run post = [e] ∧
        nameEquals e.name name = true := by
  constructor
  · rintro ⟨e, hperm, hname⟩
    have hpre : ¬ Ended pre := by
      intro hpre
      rw [append_assoc, append_assoc, listing_ended hpre, listing_ended hpre] at hperm
      have := hperm.length_eq
      rw [length_cons] at this
      omega
    refine ⟨hpre, e, ?_, hname⟩
    have hboth := (listing_gained hfree hrun hpre hnew).symm.trans hperm
    rw [← singleton_append] at hboth
    exact perm_singleton.mp ((perm_append_right_iff _).mp hboth)
  · rintro ⟨hpre, e, hgained, hname⟩
    have hperm := listing_gained hfree hrun hpre hnew
    rw [hgained] at hperm
    exact ⟨e, hperm, hname⟩

end New

/-! ## The place of a new entry -/

def Found.place (x : Found) : Nat × Nat := (x.cluster, x.offset)

lemma dirSlots_places (v : Volume) (data data' : Nat → Mem) (l : List Nat) :
    (dirSlots v data l).map Found.place = (dirSlots v data' l).map Found.place := by
  unfold dirSlots
  rw [map_flatMap, map_flatMap]
  apply flatMap_congr
  intro c _
  unfold clusterSlots
  rw [map_map, map_map]
  rfl

lemma dirSlots_places_nodup {v : Volume} (hl : l.Nodup) :
    ((dirSlots v data l).map Found.place).Nodup := by
  apply List.Nodup.map_on _ (dirSlots_nodup hl)
  intro x hx y hy heq
  exact found_ext hx hy (Prod.mk.inj heq).1 (Prod.mk.inj heq).2

/-- The slots in front of the place `p`, or all. -/
def slotsBefore (p : Option (Nat × Nat)) (fs : List Found) : List Found :=
  fs.takeWhile fun x => some x.place != p

lemma slotsBefore_none (fs : List Found) : slotsBefore none fs = fs :=
  takeWhile_eq_self_iff.mpr fun _ _ => rfl

lemma slotsBefore_some {rest : List Found} (h : ∀ y ∈ pre, y.place ≠ x.place) :
    slotsBefore (some x.place) (pre ++ x :: rest) = pre := by
  unfold slotsBefore
  rw [takeWhile_append_of_pos, takeWhile_cons, if_neg, append_nil]
  · simp
  · intro y hy
    simpa using h y hy

lemma slotsBefore_fresh {v : Volume} {new : Nat}
    (hv : 0 < v.sectorsPerCluster) (hnd : (l ++ [new]).Nodup) :
    slotsBefore (some (new, 32 * 0)) (dirSlots v data (l ++ [new])) = dirSlots v data l := by
  have hne : clusterSlots v data new ≠ [] := clusterSlots_ne_nil hv new
  obtain ⟨x, xs, hxs⟩ := exists_cons_of_ne_nil hne
  have hx : x.place = (new, 32 * 0) := by
    have hfirst := @clusterSlots_getElem? v data new 0 (by omega)
    rw [hxs] at hfirst
    cases hfirst
    rfl
  rw [dirSlots_append, ← hx, show dirSlots v data [new] = x :: xs from (flatMap_singleton _ _).trans hxs]
  apply slotsBefore_some
  intro y hy heq
  obtain ⟨hyl, -⟩ := mem_dirSlots.mp hy
  have hyc : y.cluster = new := (Prod.mk.inj (heq.trans hx)).1
  exact (nodup_append.mp hnd).2.2 _ hyl _ mem_cons_self hyc

section Places
variable {st st' : Fs} {l : List Nat} {name : CString} {attr : UInt8} {c i : Nat}

lemma Placed.at_place (h : Placed st st' l name attr c i) (hl : l.Nodup) :
    ∃ run post, dirSlots st.vol st.data l =
        slotsBefore (some (c, 32 * i)) (dirSlots st.vol st.data l) ++ run ++ post ∧
      dirSlots st.vol st'.data l = slotsBefore (some (c, 32 * i)) (dirSlots st.vol st.data l) ++
        placed c i (entrySlots name attr) ++ post ∧
      run.length = lfnCount name + 1 ∧ ∀ x ∈ run, ¬ InUse x.ent := by
  obtain ⟨pre, run, post, hslots, hslots', hlen, hfree, -⟩ := h.split
  have hafter := hslots' (entrySlots name attr) entrySlots_slot entrySlots_length
  have hplaces := dirSlots_places st.vol st.data (placeData st.data c i (entrySlots name attr)) l
  have hnd : ((dirSlots st.vol st.data l).map Found.place).Nodup := dirSlots_places_nodup hl
  rw [hslots, hafter, append_assoc, append_assoc, map_append, map_append,
    map_append, map_append] at hplaces
  have hrun := append_cancel_right (append_cancel_left hplaces)
  obtain ⟨x, run', rfl⟩ := exists_cons_of_length_eq_add_one hlen
  obtain ⟨e, es, hes⟩ := exists_cons_of_length_eq_add_one (@entrySlots_length name attr)
  have hx : x.place = (c, 32 * i) := by
    rw [hes, placed, mapIdx_cons] at hrun
    exact (List.cons.inj hrun).1
  have hbefore : slotsBefore (some (c, 32 * i)) (dirSlots st.vol st.data l) = pre := by
    rw [hslots, append_assoc, map_append] at hnd
    rw [hslots, append_assoc, ← hx]
    apply slotsBefore_some
    intro y hy heq
    exact (nodup_append.mp hnd).2.2 _ (mem_map_of_mem hy) _
      (mem_map_of_mem mem_cons_self) heq
  rw [hbefore, h.data]
  exact ⟨x :: run', post, hslots, hafter, hlen, hfree⟩

end Places

/-! ## The creation -/

/-- `fat_read_dir` with a large enough buffer returns 1 with the entries `es`. -/
def Reads (st : Fs) (d : Nat) (es : List FsEntry) : Prop :=
  ∀ maxEntries, es.length ≤ maxEntries → ∃ st', fatReadDir st d maxEntries = some (some es, st')

/-- From `st` to `st'` the listing of the directory `d` has grown by one entry, and it is one under
`name`, which is found. -/
def GrowsBy (st st' : Fs) (d : Nat) (name : CString) : Prop :=
  ∃ es es' e, Reads st d es ∧ Reads st' d es' ∧ es'.Perm (e :: es) ∧ nameEquals e.name name = true ∧
    ∃ f st₂, fatFindEntry st' d name = some (some f, st₂)

/-- The first free slots that are many enough for `name` have no end mark in front, and with the
name in them there is one more entry to list: the new one under its name, with no old entry
behind an end mark that it covers. -/
def Opens (st : Fs) (l : List Nat) (name : CString) (attr : UInt8) : Prop :=
  let slots := dirSlots st.vol st.data l
  let pre := slotsBefore (createPlace st.vol st.data (lfnCount name + 1) l) slots
  let rest := slots.drop pre.length
  ¬ Ended pre ∧ ∃ e : FsEntry, gained (pendingText [] pre) name attr (rest.take (lfnCount name + 1))
    (rest.drop (lfnCount name + 1)) = [e] ∧ nameEquals e.name name = true

lemma reads_iff {st : Fs} (hr : Ready st) {d : Nat}
    (h : FatChain st.vol st.fat d l) {es : List FsEntry} :
    Reads st d es ↔ es = listing [] (dirSlots st.vol st.data l) := by
  constructor
  · intro hes
    obtain ⟨st1, h1⟩ := hes _ (Nat.le_max_left _ (listing [] (dirSlots st.vol st.data l)).length)
    obtain ⟨st2, h2⟩ := fatReadDir_ok hr h (Nat.le_max_right es.length _)
    rw [h1] at h2
    cases h2
    rfl
  · rintro rfl maxEntries hmax
    exact fatReadDir_ok hr h hmax

section Creation
variable {st st' : Fs} {d : Nat} {l l' : List Nat} {name : CString}

lemma growsBy_iff (hr : Ready st) (h : FatChain st.vol st.fat d l) (hr' : Ready st')
    (h' : FatChain st'.vol st'.fat d l') :
    GrowsBy st st' d name ↔ ∃ e : FsEntry, (listing [] (dirSlots st'.vol st'.data l')).Perm
      (e :: listing [] (dirSlots st.vol st.data l)) ∧ nameEquals e.name name = true := by
  constructor
  · rintro ⟨es, es', e, hes, hes', hperm, hname, -⟩
    obtain rfl := (reads_iff hr h).mp hes
    obtain rfl := (reads_iff hr' h').mp hes'
    exact ⟨e, hperm, hname⟩
  · rintro ⟨e, hperm, hname⟩
    refine ⟨_, _, e, (reads_iff hr h).mpr rfl, (reads_iff hr' h').mpr rfl, hperm, hname, ?_⟩
    obtain ⟨f, hf⟩ := lookup_of_listed hname (hperm.symm.subset mem_cons_self)
    obtain ⟨st2, hfind, -⟩ := fatFindEntry_ok hr' h' name
    rw [hf] at hfind
    exact ⟨f, st2, hfind⟩

lemma listing_append_zeros {fs zs : List Found} (hz : ∀ z ∈ zs, z.ent.getD 0 0 = 0) :
    listing [] (fs ++ zs) = listing [] fs := by
  rw [listing_entries, listing_entries, entries_append_zeros hz]

lemma Placed.ready {l1 : List Nat} {attr : UInt8} {c i : Nat} (h : Placed st st' l1 name attr c i)
    (hr : Ready st) : Ready st' := h.disk.ready hr

variable {attr : UInt8}

lemma growsBy_here (hr : Ready st) (h : FatChain st.vol st.fat d l) (hne : name ≠ []) (h0 : 0 ∉ name)
    (hlen : name.length < 64) (hattr : attr ≠ 0x0F) {c i : Nat}
    (hplace : createPlace st.vol st.data (lfnCount name + 1) l = some (c, 32 * i))
    (hplaced : Placed st st' l name attr c i) : GrowsBy st st' d name ↔ Opens st l name attr := by
  have h' : FatChain st'.vol st'.fat d l := by
    rw [hplaced.disk.vol, hplaced.fat]
    exact h
  obtain ⟨run, post, hslots, hafter, hrun, hfree⟩ := hplaced.at_place (h.nodup hr.geometry)
  rw [growsBy_iff hr h (hplaced.ready hr) h', hplaced.disk.vol, hafter, Opens, hplace]
  generalize slotsBefore (some (c, 32 * i)) (dirSlots st.vol st.data l) = pre at hslots
  have hrest : (pre ++ (run ++ post)).drop pre.length = run ++ post := drop_left
  rw [hslots, append_assoc pre run post, hrest, ← hrun, take_left, drop_left,
    ← append_assoc]
  apply listing_grows_iff hfree
  · rintro rfl
    cases hrun
  · intro t
    exact listing_entrySlots hne h0 hlen hattr (placed_ent _) t post

lemma growsBy_behind (hr : Ready st) (h : FatChain st.vol st.fat d l) (hne : name ≠ []) (h0 : 0 ∉ name)
    (hlen : name.length < 64) (hattr : attr ≠ 0x0F) {st1 : Fs} {new : Nat}
    (hplace : createPlace st.vol st.data (lfnCount name + 1) l = none)
    (hext : Extended st st1 d l new) (hplaced : Placed st1 st' (l ++ [new]) name attr new 0) :
    GrowsBy st st' d name ↔ Opens st l name attr := by
  have hr1 := hext.disk.ready hr
  have hvol : st'.vol = st.vol := hplaced.disk.vol.trans hext.disk.vol
  have hnd := hext.chain.nodup hr.geometry
  have h' : FatChain st'.vol st'.fat d (l ++ [new]) := by
    rw [hvol, hplaced.fat]
    exact hext.chain
  -- the fresh cluster holds zeros
  have hold : dirSlots st.vol st1.data l = dirSlots st.vol st.data l := by
    apply dirSlots_congr
    intro c hc
    rw [hext.data, update_of_ne]
    rintro rfl
    exact (nodup_append.mp hnd).2.2 c hc c mem_cons_self rfl
  have hzero : ∀ z ∈ dirSlots st.vol st1.data [new], z.ent.getD 0 0 = 0 := by
    intro z hz
    obtain ⟨hc, -, -, hent⟩ := mem_dirSlots.mp hz
    rw [hent, mem_singleton.mp hc, hext.data, update_self]
    rfl
  obtain ⟨run, post, hslots, hafter, hrun, hfree⟩ := hplaced.at_place hnd
  rw [hext.disk.vol] at hslots hafter
  rw [slotsBefore_fresh hr.geometry.spc_pos hnd, hold] at hslots hafter
  have hzeros : run ++ post = dirSlots st.vol st1.data [new] := by
    rw [dirSlots_append, hold, append_assoc] at hslots
    exact (append_cancel_left hslots).symm
  have hrunne : run ≠ [] := by
    rintro rfl
    cases hrun
  have hended : Ended run := by
    obtain ⟨x, run, rfl⟩ := exists_cons_of_ne_nil hrunne
    exact ⟨x, mem_cons_self, hzero x (hzeros ▸ mem_cons_self)⟩
  have hpost : listing [] post = [] :=
    listing_zeros (fun z hz => hzero z (hzeros ▸ mem_append_right _ hz)) []
  have hbefore : listing [] (dirSlots st.vol st.data l) =
      listing [] (dirSlots st.vol st.data l ++ run ++ post) := by
    rw [append_assoc, hzeros, listing_append_zeros hzero]
  rw [growsBy_iff hr h (hplaced.ready hr1) h', hvol, hafter, Opens, hplace, slotsBefore_none, hbefore,
    listing_grows_iff hfree hrunne fun t => listing_entrySlots hne h0 hlen hattr (placed_ent _) t post]
  rw [gained, if_pos hended, hpost]
  simp only [drop_length, take_nil, drop_nil, gained]
  rw [listing, ite_self]

/-- After a successful creation the listing has grown by one entry of the name, which is found,
exactly if the free slots that the search takes open on it. -/
theorem create_grows_iff (hr : Ready st) (h : FatChain st.vol st.fat d l) (hne : name ≠ [])
    (h0 : 0 ∉ name) (hlen : name.length < 64) (hattr : attr &&& 0x08 = 0) {f : Found}
    (hrun : fatCreateEntry st d name attr = some (some f, st')) :
    GrowsBy st st' d name ↔ Opens st l name attr := by
  have hlfn : attr ≠ 0x0F := by
    rintro rfl
    cases hattr
  have hcases := (fatCreateEntry_placedAt hr h attr hlen).1
  rw [hrun] at hcases
  cases hcases with
  | here hplace hplaced => exact growsBy_here hr h hne h0 hlen hlfn hplace hplaced
  | behind hplace hext hplaced => exact growsBy_behind hr h hne h0 hlen hlfn hplace hext hplaced

end Creation

/-- The root directory holds 15 files; the last slot of its cluster was never used. -/
def fifteenFiles : Fs :=
  smallFs [(2, 0x0FFFFFFF)] [(2, (List.range 15).flatMap fun i => slotOf [UInt8.ofNat (65 + i)] 0x20 0 0)]

lemma fifteenFiles_wellFormed : WellFormed fifteenFiles :=
  wellFormed_of_checked [(2, 2)] (smallFs_ready _ _) rfl (by decide +kernel)

/-- The two slots of `abcdefghi` go to a fresh cluster behind the end mark: the creation succeeds,
and the entry is neither listed nor found. -/
theorem not_create_grows_fifteenFiles :
    WellFormed fifteenFiles ∧
      (fatFindEntry fifteenFiles 2 [97, 98, 99, 100, 101, 102, 103, 104, 105]).map (fun r => r.1.isSome) =
        some false ∧
      (fatReadDir fifteenFiles 2 100).map (fun r => r.1.map List.length) = some (some 15) ∧
      (fatCreateEntry fifteenFiles 2 [97, 98, 99, 100, 101, 102, 103, 104, 105] 0x20).map (fun r =>
          (r.1.isSome, (fatReadDir r.2 2 100).map (fun s => s.1.map List.length),
            (fatFindEntry r.2 2 [97, 98, 99, 100, 101, 102, 103, 104, 105]).map (fun s => s.1.isSome))) =
        some (true, some (some 15), some false) := by
  refine ⟨fifteenFiles_wellFormed, ?_, ?_, ?_⟩
  · decide +kernel
  · decide +kernel
  · decide +kernel

/-- The name `p` fits into the last slot. -/
theorem create_grows_fifteenFiles :
    ∃ f st', fatCreateEntry fifteenFiles 2 [112] 0x20 = some (some f, st') ∧
      GrowsBy fifteenFiles st' 2 [112] := by
  have hr : Ready fifteenFiles := smallFs_ready _ _
  have hchain : FatChain fifteenFiles.vol fifteenFiles.fat 2 [2] :=
    .last (by decide) (by decide +kernel)
  have hsome : (fatCreateEntry fifteenFiles 2 [112] 0x20).map (fun r => r.1.isSome) = some true := by
    decide +kernel
  obtain ⟨⟨r, st'⟩, hrun, hr'⟩ := Option.map_eq_some_iff.mp hsome
  obtain ⟨f, rfl⟩ := Option.isSome_iff_exists.mp hr'
  have hiff := create_grows_iff hr hchain (by decide) (by decide) (by decide) (by decide) hrun
  refine ⟨f, st', hrun, hiff.mpr ⟨by decide +kernel, ⟨[80], 0, false⟩, by decide +kernel, by decide⟩⟩

end FusionOS.Fat
