import FusionOS.Fat.WellFormed

/-!
# Deleting an entry

`fat_delete_entry` scans a directory once more and marks the slot of the entry and the
long-name slots in front of it. It forgets the long name at the start of every cluster, so it
finds what `fat_find_entry` finds only where no long name crosses the end of a cluster.
-/

namespace FusionOS.Fat

open List
open Function (update update_of_ne update_self)

/-- Cluster `c` with the slots at `offs` marked as deleted. -/
def eraseAt (data : Nat → Mem) (c : Nat) (offs : List Nat) : Nat → Mem :=
  update data c fun i => if i ∈ offs then 0xE5 else data c i

/-- A slot of a directory after those of cluster `c` at `offs` have been marked. -/
def Found.erase (c : Nat) (offs : List Nat) (x : Found) : Found :=
  if x.cluster = c ∧ x.offset ∈ offs then { x with ent := x.ent.set 0 0xE5 } else x

variable {d : Doomed} {fs : List Found} {l offs : List Nat} {data : Nat → Mem} {v : Volume}

lemma slice_erase {m : Mem} {off : Nat} (ho : off % 32 = 0)
    (hoffs : ∀ o ∈ offs, o % 32 = 0) :
    slice (fun i => if i ∈ offs then 0xE5 else m i) off 32 =
      if off ∈ offs then (slice m off 32).set 0 0xE5 else slice m off 32 := by
  have hother : ∀ i, off < i → i < off + 32 → i ∉ offs := by
    intro i h1 h2 hi
    have := hoffs i hi
    omega
  split
  · next hin =>
    apply ext_getElem
    · rw [length_set, slice_length, slice_length]
    · intro i h1 h2
      rw [slice_length] at h1
      rw [getElem_set]
      by_cases h0 : i = 0
      · subst h0
        simp [slice, hin]
      · have hnot := hother (off + i) (by omega) (by omega)
        simp [slice, hnot, Ne.symm h0]
  · next hout =>
    apply slice_congr
    intro i h1 h2
    by_cases h0 : i = off
    · rw [h0, if_neg hout]
    · rw [if_neg (hother i (by omega) (by omega))]

lemma not_isEntry_erased {e : Slot} (he : e.length = 32) : ¬ IsEntry (e.set 0 0xE5) := by
  intro h
  apply h.2.1
  rw [getD_eq_getElem?_getD, List.getElem?_set_self (by omega)]
  rfl

lemma dirSlots_eraseAt {c : Nat}
    (hoffs : ∀ o ∈ offs, o % 32 = 0) (l : List Nat) :
    dirSlots v (eraseAt data c offs) l = (dirSlots v data l).map (Found.erase c offs) := by
  rw [eraseAt, dirSlots_update]
  apply map_congr_left
  intro x hx
  obtain ⟨-, hal, -, hent⟩ := mem_dirSlots.mp hx
  unfold Found.erase
  by_cases hc : x.cluster = c
  · rw [if_pos hc, slice_erase hal hoffs, ← hc, ← hent]
    by_cases hin : x.offset ∈ offs
    · rw [if_pos hin, if_pos ⟨rfl, hin⟩]
    · rw [if_neg hin, if_neg (fun h => hin h.2)]
  · rw [if_neg hc, if_neg (fun h => hc h.1)]

lemma eraseAt_cons (data : Nat → Mem) (c o : Nat) (offs : List Nat) :
    eraseAt (eraseAt data c [o]) c offs = eraseAt data c (o :: offs) := by
  funext x i
  unfold eraseAt
  by_cases hx : x = c
  · subst hx
    simp only [update_self, mem_cons, not_mem_nil, or_false]
    by_cases hi : i ∈ offs
    · rw [if_pos hi, if_pos (.inr hi)]
    · rw [if_neg hi]
      simp only [hi, or_false]
  · rw [update_of_ne hx, update_of_ne hx, update_of_ne hx]

section Marking
variable {st : Fs}

lemma markLoop_ok (hr : Ready st) {c : Nat} {offs : List Nat}
    (hp : ∀ o ∈ offs, Place st.vol c o) :
    ∃ st', markLoop c offs st = (true, st') ∧ Held st st' ∧ st'.fat = st.fat ∧
      st'.data = eraseAt st.data c offs := by
  induction offs generalizing st with
  | nil =>
    refine ⟨st, rfl, Held.refl st, rfl, ?_⟩
    funext x
    unfold eraseAt
    by_cases hx : x = c
    · subst hx
      simp
    · rw [update_of_ne hx]
  | cons o offs ih =>
    obtain ⟨st1, hmark, hd, hfat, hdata⟩ := fatMarkDeleted_ok hr (hp o mem_cons_self)
    have hdata1 : st1.data = eraseAt st.data c [o] := by
      rw [hdata, eraseAt]
      congr 1
      funext i
      by_cases hi : i = o
      · rw [hi, update_self, if_pos mem_cons_self]
      · rw [update_of_ne hi, if_neg (by simpa using hi)]
    obtain ⟨st2, hrun, hd2, hfat2, hdata2⟩ := ih (hd.ready hr) fun x hx => by
      rw [hd.vol]
      exact hp x (mem_cons_of_mem _ hx)
    refine ⟨st2, ?_, hd.trans hd2, hfat2.trans hfat, ?_⟩
    · rw [markLoop, hmark]
      exact hrun
    · rw [hdata2, hdata1, eraseAt_cons]

end Marking

/-! ## The scan -/

/-- What `fat_delete_entry` does at a slot. -/
abbrev deleteBody (name : CString) (s : CString × List Nat) (x : Found) :
    Scan (CString × List Nat) (Option Doomed) := deleteEntrySlot name s x.cluster x.offset x.ent

/-- An entry and the long-name slots that belong to it. -/
structure Named where
  slot : Found
  lfns : List Found

def joinLfn (run : List Found) (x : Found) : List Found :=
  (if x.ent.getD 0 0 &&& 0x40 != 0 then [] else run) ++ [x]

/-- The entries of a directory up to its end mark, behind the long-name slots `run`. -/
def named : List Found → List Found → List Named
  | _, [] => []
  | run, x :: xs =>
    if x.ent.getD 0 0 = 0 then []
    else if x.ent.getD 0 0 = 0xE5 then named [] xs
    else if direntAttr x.ent = 0x0F then named (joinLfn run x) xs
    else ⟨x, run⟩ :: named [] xs

def lfnText (run : List Found) : CString := run.foldl (fun t x => lfnStep t x.ent) []

namespace Named

def name (n : Named) : CString := entryName (lfnText n.lfns) n.slot.ent

def own (n : Named) : List Found := n.lfns.filter fun x => x.cluster = n.slot.cluster

def ownName (n : Named) : CString := entryName (lfnText n.own) n.slot.ent

end Named

section Names
variable {x : Found} {fs run xs : List Found} {l : List Nat} {n : Named} {c : Nat}

lemma lfnText_join (run : List Found) (x : Found) :
    lfnText (joinLfn run x) = lfnStep (lfnText run) x.ent := by
  unfold joinLfn
  split
  · next h =>
    rw [nil_append, lfnText, foldl_cons, foldl_nil, lfnStep, lfnStep, if_pos h, if_pos h]
  · rw [lfnText, foldl_append]
    rfl

lemma filter_join (run : List Found) (hx : x.cluster = c) :
    (joinLfn run x).filter (fun y => y.cluster = c) =
      joinLfn (run.filter fun y => y.cluster = c) x := by
  unfold joinLfn
  rw [filter_append]
  congr 1
  · split <;> rfl
  · rw [filter_cons_of_pos (by simpa using hx), filter_nil]

lemma entries_named (run fs : List Found) :
    entries (lfnText run) fs = (named run fs).map fun n => (n.name, n.slot) := by
  induction fs generalizing run with
  | nil => rfl
  | cons x fs ih =>
    rw [named]
    by_cases h0 : x.ent.getD 0 0 = 0
    · rw [entries_end h0, if_pos h0]
      rfl
    rw [if_neg h0]
    by_cases h5 : x.ent.getD 0 0 = 0xE5
    · rw [entries_other h0 fun h => h.2.1 h5, textAfter, if_neg fun h => h.1 h5, if_pos h5]
      exact ih []
    rw [if_neg h5]
    by_cases hlfn : direntAttr x.ent = 0x0F
    · rw [entries_other h0 fun h => h.2.2 hlfn, textAfter, if_pos ⟨h5, hlfn⟩, if_pos hlfn, ← lfnText_join]
      exact ih _
    rw [entries_entry ⟨h0, h5, hlfn⟩, if_neg hlfn]
    exact congrArg (_ :: ·) (ih [])

lemma lookup_named (name : CString) (run fs : List Found) :
    lookup name (lfnText run) fs =
      ((named run fs).find? fun n => nameEquals n.name name).map Named.slot := by
  rw [lookup_entries, entries_named, List.find?_map, Option.map_map]
  rfl

lemma joinLfn_sublist (run : List Found) (x : Found) : (joinLfn run x).Sublist (run ++ [x]) := by
  unfold joinLfn
  apply List.Sublist.append_right
  split
  · exact nil_sublist run
  · exact List.Sublist.refl run

lemma mem_joinLfn {y : Found} (h : y ∈ joinLfn run x) : y ∈ run ∨ y = x := by
  rcases mem_append.mp ((joinLfn_sublist run x).subset h) with h | h
  · exact Or.inl h
  · exact Or.inr (mem_singleton.mp h)

lemma named_split (gap : List Found) (hgap : ∀ x ∈ gap, IsLfn x.ent) (hrun : ∀ x ∈ run, x ∈ gap)
    (h : n ∈ named run fs) :
    IsEntry n.slot.ent ∧ ∃ pre lfns post, gap ++ fs = pre ++ lfns ++ n.slot :: post ∧
      (∀ x ∈ lfns, IsLfn x.ent) ∧ ∀ x ∈ n.lfns, x ∈ lfns := by
  have hnil : ∀ p : Found → Prop, ∀ x ∈ ([] : List Found), p x := fun p x hx => absurd hx not_mem_nil
  fun_induction named run fs generalizing gap with
  | case1 => cases h
  | case2 => cases h
  | case3 run x xs h0 h5 ih =>
    obtain ⟨hentry, pre, lfns, post, heq, hlfns⟩ := ih [] (hnil _) (hnil _) h
    refine ⟨hentry, gap ++ x :: pre, lfns, post, ?_, hlfns⟩
    rw [← nil_append xs, heq]
    simp only [append_assoc, cons_append]
  | case4 run x xs h0 h5 hlfn ih =>
    have hsplit := ih (gap ++ [x]) (fun y hy => ?_) (fun y hy => ?_) h
    · rw [append_assoc] at hsplit
      exact hsplit
    · rcases mem_append.mp hy with hy | hy
      · exact hgap y hy
      · rw [mem_singleton.mp hy]
        exact ⟨⟨h0, h5⟩, hlfn⟩
    · rcases mem_joinLfn hy with hy | rfl
      · exact mem_append_left _ (hrun y hy)
      · exact mem_append_right _ mem_cons_self
  | case5 run x xs h0 h5 hlfn ih =>
    rcases mem_cons.mp h with rfl | h
    · exact ⟨⟨h0, h5, hlfn⟩, [], gap, xs, rfl, hgap, hrun⟩
    · obtain ⟨hentry, pre, lfns, post, heq, hlfns⟩ := ih [] (hnil _) (hnil _) h
      refine ⟨hentry, gap ++ x :: pre, lfns, post, ?_, hlfns⟩
      rw [← nil_append xs, heq]
      simp only [append_assoc, cons_append]

lemma mem_named (h : n ∈ named [] fs) : IsEntry n.slot.ent ∧ ∀ x ∈ n.lfns, IsLfn x.ent := by
  obtain ⟨hentry, -, lfns, -, -, hlfns, hmem⟩ := named_split [] (by simp) (by simp) h
  exact ⟨hentry, fun x hx => hlfns x (hmem x hx)⟩

lemma named_lfns_sublist (h : n ∈ named run fs) :
    n.lfns.Sublist (run ++ fs) := by
  fun_induction named run fs with
  | case1 => cases h
  | case2 => cases h
  | case3 run x xs h0 h5 ih =>
    exact (ih h).trans ((sublist_cons_self x xs).trans (sublist_append_right run _))
  | case4 run x xs h0 h5 hlfn ih =>
    have hjoin := (joinLfn_sublist run x).append_right xs
    rw [append_assoc] at hjoin
    exact (ih h).trans hjoin
  | case5 run x xs h0 h5 hlfn ih =>
    rcases mem_cons.mp h with rfl | h
    · exact sublist_append_left run _
    · exact (ih h).trans ((sublist_cons_self x xs).trans (sublist_append_right run _))

lemma named_slots_sublist (run fs : List Found) : ((named run fs).map Named.slot).Sublist fs := by
  have hslots := congrArg (map Prod.snd) (entries_named run fs)
  rw [map_map, entries_slots] at hslots
  rw [show (named run fs).map Named.slot = _ from hslots.symm]
  exact filter_sublist.trans (takeWhile_sublist _)

def keptOffsets (run : List Found) : List Nat := (run.take 20).map Found.offset

lemma keptOffsets_join (run : List Found) (x : Found) :
    keptOffsets (joinLfn run x) =
      (let offs := if x.ent.getD 0 0 &&& 0x40 != 0 then [] else keptOffsets run
       if offs.length < 20 then offs ++ [x.offset] else offs) := by
  have hconcat : ∀ run : List Found, keptOffsets (run ++ [x]) =
      if (keptOffsets run).length < 20 then keptOffsets run ++ [x.offset] else keptOffsets run := by
    intro run
    unfold keptOffsets
    rw [length_map, length_take]
    by_cases h : run.length < 20
    · rw [if_pos (by omega), take_of_length_le (by rw [length_append]; simp; omega),
        take_of_length_le (by omega), map_append]
      rfl
    · rw [if_neg (by omega), take_append_of_le_length (by omega)]
  unfold joinLfn
  split
  · exact hconcat []
  · exact hconcat run

def Named.doomed (n : Named) : Doomed := ⟨n.slot.cluster, n.slot.offset, keptOffsets n.own⟩

/-- The slots of `run` in the cluster `c`. -/
abbrev within (c : Nat) (run : List Found) : List Found := run.filter fun x => x.cluster = c

/-- The first entry that deletion takes for `name`. -/
def firstOwn (name : CString) (ns : List Named) : Option Named :=
  ns.find? fun n => nameEquals n.ownName name

/-- What the scan of the slots `fs` of a cluster says about the entries there and behind. -/
def Searches (name : CString) (c : Nat) (run fs : List Found) :
    Scan (CString × List Nat) (Option Doomed) → Prop
  | .stop r => ∀ rest, (firstOwn name (named run (fs ++ rest))).map Named.doomed = r
  | .next s => ∃ run', s = (lfnText (within c run'), keptOffsets (within c run')) ∧
      (∀ x ∈ run', x ∈ run ∨ x ∈ fs) ∧
      ∀ rest, firstOwn name (named run (fs ++ rest)) = firstOwn name (named run' rest)

lemma firstOwn_cons_of_ne {name : CString} {ns : List Named}
    (h : ¬ nameEquals n.ownName name) : firstOwn name (n :: ns) = firstOwn name ns :=
  List.find?_cons_of_neg h

lemma run_delete_named (name : CString)
    (hc : ∀ x ∈ fs, x.cluster = c) (run : List Found) :
    Searches name c run fs
      (Scan.run (deleteBody name) fs (lfnText (within c run), keptOffsets (within c run))) := by
  induction fs generalizing run with
  | nil => exact ⟨run, rfl, fun x hx => Or.inl hx, fun rest => rfl⟩
  | cons x fs ih =>
    have hx : x.cluster = c := hc x mem_cons_self
    have hcfs : ∀ y ∈ fs, y.cluster = c := fun y hy => hc y (mem_cons_of_mem _ hy)
    -- behind `x` the scan goes on with the slots `run'`
    have hgo : ∀ run' : List Found, (∀ y ∈ run', y ∈ run ∨ y = x) →
        (∀ rest, firstOwn name (named run (x :: fs ++ rest)) =
          firstOwn name (named run' (fs ++ rest))) →
        Searches name c run (x :: fs) (Scan.run (deleteBody name) fs
          (lfnText (within c run'), keptOffsets (within c run'))) := by
      intro run' hmem heq
      have h := ih hcfs run'
      cases hrun : Scan.run (deleteBody name) fs
          (lfnText (within c run'), keptOffsets (within c run')) with
      | stop r =>
        rw [hrun] at h
        intro rest
        rw [heq rest]
        exact h rest
      | next s =>
        rw [hrun] at h
        obtain ⟨run2, hs, hmem2, heq2⟩ := h
        refine ⟨run2, hs, fun y hy => ?_, fun rest => (heq rest).trans (heq2 rest)⟩
        rcases hmem2 y hy with hy | hy
        · rcases hmem y hy with hy | rfl
          · exact Or.inl hy
          · exact Or.inr mem_cons_self
        · exact Or.inr (mem_cons_of_mem _ hy)
    have hnil : ∀ y ∈ ([] : List Found), y ∈ run ∨ y = x := fun y hy => absurd hy not_mem_nil
    rw [Scan.run, deleteBody, deleteEntrySlot]
    by_cases h0 : x.ent.getD 0 0 = 0
    · rw [if_pos h0]
      intro rest
      rw [cons_append, named, if_pos h0]
      rfl
    by_cases h5 : x.ent.getD 0 0 = 0xE5
    · rw [if_neg h0, if_pos h5]
      apply hgo [] hnil
      intro rest
      rw [cons_append, named, if_neg h0, if_pos h5]
    by_cases hlfn : direntAttr x.ent = 0x0F
    · rw [if_neg h0, if_neg h5, if_pos hlfn]
      have hgoal := hgo (joinLfn run x) (fun y hy => mem_joinLfn hy) (by
        intro rest
        rw [cons_append, named, if_neg h0, if_neg h5, if_pos hlfn])
      rw [within, filter_join run hx, lfnText_join, keptOffsets_join] at hgoal
      exact hgoal
    rw [if_neg h0, if_neg h5, if_neg hlfn]
    have hown : Named.own ⟨x, run⟩ = within c run := by rw [Named.own, hx]
    by_cases hname : nameEquals (entryName (lfnText (within c run)) x.ent) name
    · rw [if_pos hname]
      intro rest
      rw [cons_append, named, if_neg h0, if_neg h5, if_neg hlfn, firstOwn,
        List.find?_cons_of_pos (by rw [Named.ownName, hown]; exact hname), Option.map_some,
        Named.doomed, hown]
    · rw [if_neg hname]
      apply hgo [] hnil
      intro rest
      rw [cons_append, named, if_neg h0, if_neg h5, if_neg hlfn]
      exact firstOwn_cons_of_ne (by rw [Named.ownName, hown]; exact hname)

lemma dirScan_delete_named (v : Volume) (data : Nat → Mem) (name : CString)
    (hl : l.Nodup) (hrun : ∀ x ∈ run, x.cluster ∉ l) (s : CString × List Nat) :
    (dirScan v data (fun _ => ([], [])) (deleteEntrySlot name) l s).result (fun _ => none) =
      (firstOwn name (named run (dirSlots v data l))).map Named.doomed := by
  induction l generalizing run s with
  | nil => rfl
  | cons c l ih =>
    have hc : ∀ x ∈ clusterSlots v data c, x.cluster = c := by
      intro x hx
      obtain ⟨i, -, rfl⟩ := mem_clusterSlots.mp hx
      rfl
    obtain ⟨hcl, hl⟩ := nodup_cons.mp hl
    -- the slots of earlier clusters are forgotten
    have hnone : within c run = [] := by
      apply filter_eq_nil_iff.mpr
      intro x hx hxc
      exact hrun x hx (mem_cons.mpr (Or.inl (of_decide_eq_true hxc)))
    have h := run_delete_named name hc run
    rw [hnone] at h
    rw [dirScan, dirSlots_cons]
    cases hscan : Scan.run (deleteBody name) (clusterSlots v data c) ([], []) with
    | stop r =>
      rw [show (lfnText [], keptOffsets []) = (([], []) : CString × List Nat) from rfl, hscan] at h
      exact (h _).symm
    | next s' =>
      rw [show (lfnText [], keptOffsets []) = (([], []) : CString × List Nat) from rfl, hscan] at h
      obtain ⟨run', -, hmem, heq⟩ := h
      rw [heq]
      apply ih hl
      intro x hx hxl
      rcases hmem x hx with hx | hx
      · exact hrun x hx (mem_cons_of_mem _ hxl)
      · exact hcl (hc x hx ▸ hxl)

/-! ## Names that cross the end of a cluster -/

/-- No long name crosses the end of one of the clusters `l`. A long-name slot is followed by a slot
in use, so one that ends a cluster would be a name that does. -/
def Uncrossed (v : Volume) (data : Nat → Mem) (l : List Nat) : Prop :=
  ∀ c ∈ l, ∀ x ∈ (clusterSlots v data c).getLast?, ¬ IsLfn x.ent

lemma clusterSlots_ne_nil (hv : 0 < v.sectorsPerCluster) (c : Nat) : clusterSlots v data c ≠ [] := by
  unfold clusterSlots
  rw [Ne, map_eq_nil_iff, List.range'_eq_nil_iff]
  omega

lemma mem_named_append (hne : fs ≠ []) (hlast : ∀ x ∈ fs.getLast?, ¬ IsLfn x.ent)
    (h : n ∈ named run (fs ++ xs)) : n ∈ named run fs ∨ n ∈ named [] xs := by
  induction fs generalizing run with
  | nil => exact absurd rfl hne
  | cons x fs ih =>
    -- behind `x` there are more slots in front of `xs`, or none and no long name
    have hgo : ∀ run', (fs = [] → run' = []) → n ∈ named run' (fs ++ xs) →
        n ∈ named run' fs ∨ n ∈ named [] xs := by
      intro run' hrun' h
      cases fs with
      | nil =>
        rw [hrun' rfl] at h
        exact .inr h
      | cons y fs => exact ih (cons_ne_nil _ _) (fun z hz => hlast z hz) h
    rw [cons_append, named] at h
    rw [named]
    by_cases h0 : x.ent.getD 0 0 = 0
    · rw [if_pos h0] at h
      cases h
    rw [if_neg h0] at h ⊢
    by_cases h5 : x.ent.getD 0 0 = 0xE5
    · rw [if_pos h5] at h ⊢
      exact hgo [] (fun _ => rfl) h
    rw [if_neg h5] at h ⊢
    by_cases hlfn : direntAttr x.ent = 0x0F
    · rw [if_pos hlfn] at h ⊢
      refine hgo _ (fun hfs => ?_) h
      rw [hfs] at hlast
      exact absurd ⟨⟨h0, h5⟩, hlfn⟩ (hlast x rfl)
    rw [if_neg hlfn] at h ⊢
    rcases mem_cons.mp h with rfl | h
    · exact .inl mem_cons_self
    · exact (hgo [] (fun _ => rfl) h).imp_left (mem_cons_of_mem _)

lemma named_uncrossed (hv : 0 < v.sectorsPerCluster) (hcross : Uncrossed v data l)
    (h : n ∈ named [] (dirSlots v data l)) : n.own = n.lfns := by
  apply filter_eq_self.mpr
  intro x hx
  apply decide_eq_true
  induction l with
  | nil => cases h
  | cons c l ih =>
    rw [dirSlots_cons] at h
    rcases mem_named_append (clusterSlots_ne_nil hv c) (hcross c mem_cons_self) h with h | h
    · have hc : ∀ y ∈ clusterSlots v data c, y.cluster = c := by
        intro y hy
        obtain ⟨i, -, rfl⟩ := mem_clusterSlots.mp hy
        rfl
      rw [hc x ((named_lfns_sublist h).subset hx),
        hc n.slot ((named_slots_sublist _ _).subset (mem_map_of_mem h))]
    · exact ih (fun y hy => hcross y (mem_cons_of_mem _ hy)) h

end Names

/-! ## The deletion -/

/-- The slot of `f` in the directory with the clusters `l` has been marked, and with it the slots at
`offs`, which belong to its long name. -/
structure Erased (st st' : Fs) (l : List Nat) (f : Found) (offs : List Nat) : Prop where
  disk : DiskOnly st st'
  fat : st'.fat = st.fat
  data : st'.data = eraseAt st.data f.cluster (offs ++ [f.offset])
  entry : IsEntry f.ent
  split : ∃ pre run post, dirSlots st.vol st.data l = pre ++ run ++ f :: post ∧
    (∀ x ∈ run, IsLfn x.ent) ∧ ∀ o ∈ offs, ∃ x ∈ run, x.cluster = f.cluster ∧ x.offset = o

section Deletion
variable {st : Fs} {c : Nat} {l : List Nat} {name : CString}

lemma fatDeleteEntry_named (hr : Ready st) (h : FatChain st.vol st.fat c l) (name : CString) :
    match firstOwn name (named [] (dirSlots st.vol st.data l)) with
    | none => ∃ st', fatDeleteEntry st c name = some (false, st') ∧ Quiet st st'
    | some n => ∃ st', fatDeleteEntry st c name = some (true, st') ∧ Held st st' ∧
        Erased st st' l n.slot (keptOffsets n.own) := by
  have hfound := dirScan_delete_named st.vol st.data name (FatChain.nodup hr.geometry h)
    (fun x hx => absurd hx not_mem_nil) ([], [])
  obtain ⟨st1, hloop, hq⟩ := chainLoop_ok hr h (fun _ => ([], [])) (deleteEntrySlot name)
    chainFuel (FatChain.lt_fuel h hr.geometry) ([], [])
  rw [fatDeleteEntry, hloop]
  cases hfirst : firstOwn name (named [] (dirSlots st.vol st.data l)) with
  | none =>
    rw [hfirst] at hfound
    refine ⟨st1, ?_, hq⟩
    cases hscan : dirScan st.vol st.data (fun _ => ([], [])) (deleteEntrySlot name) l ([], []) with
    | next s => rfl
    | stop r =>
      rw [hscan] at hfound
      cases hfound
      rfl
  | some n =>
    rw [hfirst] at hfound
    obtain ⟨hentry, pre, lfns, post, heq, hlfns, hmem⟩ := named_split [] (by simp) (by simp)
      (mem_of_find?_eq_some hfirst)
    rw [nil_append] at heq
    have hown : ∀ o ∈ keptOffsets n.own, ∃ x ∈ lfns, x.cluster = n.slot.cluster ∧ x.offset = o := by
      intro o ho
      obtain ⟨x, hx, rfl⟩ := mem_map.mp ho
      obtain ⟨hx, hc⟩ := mem_filter.mp (mem_of_mem_take hx)
      exact ⟨x, hmem x hx, of_decide_eq_true hc, rfl⟩
    have hplace : ∀ x ∈ dirSlots st.vol st.data l, Place st1.vol x.cluster x.offset := by
      intro x hx
      obtain ⟨hxl, hal, hin, -⟩ := mem_dirSlots.mp hx
      rw [hq.vol]
      exact ⟨Chain.node h _ hxl, hal, hin⟩
    rw [heq] at hplace
    have hplaces : ∀ o ∈ keptOffsets n.own ++ [n.slot.offset], Place st1.vol n.slot.cluster o := by
      intro o ho
      rcases mem_append.mp ho with ho | ho
      · obtain ⟨x, hx, hc, rfl⟩ := hown o ho
        rw [← hc]
        exact hplace x (mem_append_left _ (mem_append_right _ hx))
      · rw [mem_singleton.mp ho]
        exact hplace _ (mem_append_right _ mem_cons_self)
    obtain ⟨st2, hmark, hheld, hfat, hdata⟩ := markLoop_ok (hq.ready hr) hplaces
    refine ⟨st2, ?_, hq.held.trans hheld, hq.diskOnly.trans hheld.disk, hfat.trans hq.fat, ?_, hentry,
      pre, lfns, post, heq, hlfns, hown⟩
    · cases hscan : dirScan st.vol st.data (fun _ => ([], [])) (deleteEntrySlot name) l ([], []) with
      | next s =>
        rw [hscan] at hfound
        cases hfound
      | stop r =>
        rw [hscan] at hfound
        cases hfound
        dsimp only [Scan.lift, Named.doomed]
        rw [hmark]
    · rw [hdata, hq.data]

lemma fatDeleteEntry_cases (hr : Ready st) (h : FatChain st.vol st.fat c l) (name : CString) :
    (∃ st', fatDeleteEntry st c name = some (false, st') ∧ Quiet st st') ∨
      ∃ st' f offs, fatDeleteEntry st c name = some (true, st') ∧ Held st st' ∧
        Erased st st' l f offs := by
  have hdel := fatDeleteEntry_named hr h name
  split at hdel
  · exact .inl hdel
  · obtain ⟨st', hdel⟩ := hdel
    exact .inr ⟨st', _, _, hdel⟩

lemma fatDeleteEntry_ok (hr : Ready st) (h : FatChain st.vol st.fat c l)
    (hcross : Uncrossed st.vol st.data l) {f : Found}
    (hlook : lookup name [] (dirSlots st.vol st.data l) = some f) :
    ∃ st' offs, fatDeleteEntry st c name = some (true, st') ∧ Erased st st' l f offs := by
  rw [show ([] : CString) = lfnText [] from rfl, lookup_named] at hlook
  obtain ⟨n, hn, rfl⟩ := Option.map_eq_some_iff.mp hlook
  -- every entry has the slots of its name in its own cluster
  have hsame : firstOwn name (named [] (dirSlots st.vol st.data l)) = some n := by
    rw [← hn, firstOwn, ← head?_filter, ← head?_filter]
    congr 1
    apply filter_congr
    intro m hm
    rw [Named.ownName, named_uncrossed hr.geometry.spc_pos hcross hm, Named.name]
  have hdel := fatDeleteEntry_named hr h name
  rw [hsame] at hdel
  obtain ⟨st', hdel, -, her⟩ := hdel
  exact ⟨st', _, hdel, her⟩

end Deletion

/-! ## Lookup after a deletion -/

section Lookup
variable {name lfn : CString} {pre run run' post : List Found} {f f' : Found}

def Passed (e : Slot) : Prop := e.getD 0 0 ≠ 0 ∧ (e.getD 0 0 = 0xE5 ∨ direntAttr e = 0x0F)

lemma lookup_passed (hrun : ∀ x ∈ run, Passed x.ent) (name lfn : CString) (fs : List Found) :
    lookup name lfn (run ++ fs) = lookup name (pendingText lfn run) fs := by
  induction run generalizing lfn with
  | nil => rfl
  | cons x run ih =>
    obtain ⟨h0, h⟩ := hrun x mem_cons_self
    rw [cons_append, lookup_other h0 fun he => h.elim he.2.1 he.2.2]
    exact ih (fun y hy => hrun y (mem_cons_of_mem _ hy)) _

section Gone
variable (hrun' : ∀ x ∈ run', Passed x.ent) (hf' : f'.ent.getD 0 0 = 0xE5)
include hrun' hf'

lemma lookup_gone : lookup name lfn (pre ++ (run' ++ f' :: post)) =
    (lookup name lfn pre).or (if Ended pre then none else lookup name [] post) := by
  have h0 : f'.ent.getD 0 0 ≠ 0 := by
    rw [hf']
    decide
  rw [lookup_append, lookup_passed hrun', lookup, if_neg h0, if_pos hf']

lemma lookup_erased (hrun : ∀ x ∈ run, Passed x.ent) (hf : IsEntry f.ent)
    (h : lookup name lfn (pre ++ (run ++ f :: post)) ≠ some f) :
    lookup name lfn (pre ++ (run' ++ f' :: post)) = lookup name lfn (pre ++ (run ++ f :: post)) := by
  rw [lookup_append, lookup_passed hrun, lookup_entry hf] at h
  rw [lookup_gone hrun' hf', lookup_append, lookup_passed hrun, lookup_entry hf]
  cases hpre : lookup name lfn pre with
  | some g => rfl
  | none =>
    rw [hpre, Option.none_or] at h
    by_cases hend : Ended pre
    · rw [if_pos hend, if_pos hend]
    · rw [if_neg hend] at h ⊢
      rw [if_neg hend]
      split at h
      · exact absurd rfl h
      · next hname => rw [if_neg hname]

lemma lookup_erased_self (hpre : f ∉ pre) (h : lookup name lfn (pre ++ (run ++ f :: post)) = some f) :
    lookup name lfn (pre ++ (run' ++ f' :: post)) = lookup name [] post := by
  rw [lookup_append] at h
  rw [lookup_gone hrun' hf']
  cases hlook : lookup name lfn pre with
  | some g =>
    rw [hlook] at h
    cases h
    exact absurd (lookup_some hlook).1 hpre
  | none =>
    rw [hlook, Option.none_or] at h
    split at h
    · cases h
    · next hend =>
      rw [if_neg hend]
      rfl

end Gone

end Lookup

lemma dirSlots_nodup (hl : l.Nodup) :
    (dirSlots v data l).Nodup := by
  unfold dirSlots
  rw [nodup_flatMap]
  constructor
  · intro c _
    unfold clusterSlots
    apply List.Nodup.map
    · intro a b hab
      exact (Found.mk.inj hab).2.2
    · exact nodup_range' 32
  · refine hl.imp_of_mem fun {a b} _ _ hab => ?_
    intro x ha hb
    obtain ⟨_, -, rfl⟩ := mem_clusterSlots.mp ha
    obtain ⟨_, -, heq⟩ := mem_clusterSlots.mp hb
    exact hab (congrArg Found.cluster heq)

section Erased
variable {st st' : Fs} {l : List Nat} {f : Found} {offs : List Nat}

variable {name : CString}

lemma Erased.aligned (h : Erased st st' l f offs) : ∀ o ∈ offs ++ [f.offset], o % 32 = 0 := by
  obtain ⟨pre, run, post, heq, -, hoffs⟩ := h.split
  have hal : ∀ x ∈ pre ++ run ++ f :: post, x.offset % 32 = 0 := by
    rw [← heq]
    intro x hx
    exact (mem_dirSlots.mp hx).2.1
  intro o ho
  rcases mem_append.mp ho with ho | ho
  · obtain ⟨x, hx, -, rfl⟩ := hoffs o ho
    exact hal x (mem_append_left _ (mem_append_right _ hx))
  · rw [mem_singleton.mp ho]
    exact hal f (mem_append_right _ mem_cons_self)

lemma Erased.slots (h : Erased st st' l f offs) (l' : List Nat) :
    dirSlots st'.vol st'.data l' =
      (dirSlots st.vol st.data l').map (Found.erase f.cluster (offs ++ [f.offset])) := by
  rw [h.disk.vol, h.data, dirSlots_eraseAt h.aligned]

lemma erase_passed {c : Nat} {x : Found} (hx : IsLfn x.ent) (h32 : x.ent.length = 32) :
    Passed (x.erase c offs).ent := by
  unfold Found.erase
  split
  · have h5 : (x.ent.set 0 0xE5).getD 0 0 = 0xE5 := by
      rw [getD_eq_getElem?_getD, List.getElem?_set_self (by omega)]
      rfl
    exact ⟨by rw [h5]; decide, .inl h5⟩
  · exact ⟨hx.1.1, .inr hx.2⟩

lemma Erased.parts (h : Erased st st' l f offs) (hl : l.Nodup) :
    ∃ pre run run' f' post, dirSlots st.vol st.data l = pre ++ (run ++ f :: post) ∧
      dirSlots st'.vol st'.data l = pre ++ (run' ++ f' :: post) ∧ (∀ x ∈ run, Passed x.ent) ∧
      (∀ x ∈ run', Passed x.ent) ∧ f'.ent.getD 0 0 = 0xE5 := by
  obtain ⟨pre, run, post, heq, hrun, hoffs⟩ := h.split
  have hslots := h.slots l
  have hnd : (dirSlots st.vol st.data l).Nodup := dirSlots_nodup hl
  have hmem : ∀ x ∈ pre ++ run ++ f :: post, x ∈ dirSlots st.vol st.data l := by
    rw [← heq]
    exact fun x hx => hx
  rw [heq] at hnd hslots
  -- a slot outside the long name and the entry stands at another place
  have hkeep : ∀ x, x ∈ pre ∨ x ∈ post → x.erase f.cluster (offs ++ [f.offset]) = x := by
    intro x hx
    apply if_neg
    rintro ⟨hc, ho⟩
    have hxmem : x ∈ dirSlots st.vol st.data l := by
      apply hmem
      rcases hx with hx | hx
      · exact mem_append_left _ (mem_append_left _ hx)
      · exact mem_append_right _ (mem_cons_of_mem _ hx)
    have hdisj : ∀ y, y ∈ run ∨ y = f → x ≠ y := by
      rintro y hy rfl
      rw [append_assoc, nodup_append] at hnd
      obtain ⟨-, hnd2, hpre⟩ := hnd
      rcases hx with hx | hx
      · refine hpre x hx x ?_ rfl
        rcases hy with hy | rfl
        · exact mem_append_left _ hy
        · exact mem_append_right _ mem_cons_self
      · rw [nodup_append] at hnd2
        rcases hy with hy | rfl
        · exact hnd2.2.2 x hy x (mem_cons_of_mem _ hx) rfl
        · exact (nodup_cons.mp hnd2.2.1).1 hx
    rcases mem_append.mp ho with ho | ho
    · obtain ⟨y, hy, hyc, hyo⟩ := hoffs _ ho
      apply hdisj y (.inl hy)
      exact found_ext hxmem (hmem y (mem_append_left _ (mem_append_right _ hy)))
        (hc.trans hyc.symm) hyo.symm
    · apply hdisj f (.inr rfl)
      exact found_ext hxmem (hmem f (mem_append_right _ mem_cons_self)) hc
        (mem_singleton.mp ho)
  have hpre : pre.map (Found.erase f.cluster (offs ++ [f.offset])) = pre := by
    rw [map_congr_left fun x hx => hkeep x (.inl hx), map_id']
  have hpost : post.map (Found.erase f.cluster (offs ++ [f.offset])) = post := by
    rw [map_congr_left fun x hx => hkeep x (.inr hx), map_id']
  rw [map_append, map_append, map_cons, hpre, hpost, append_assoc] at hslots
  refine ⟨pre, run, _, _, post, heq.trans (append_assoc _ _ _), hslots, ?_, ?_, ?_⟩
  · intro x hx
    exact ⟨(hrun x hx).1.1, .inr (hrun x hx).2⟩
  · intro x hx
    obtain ⟨y, hy, rfl⟩ := mem_map.mp hx
    exact erase_passed (hrun y hy)
      (ent_length (hmem y (mem_append_left _ (mem_append_right _ hy))))
  · have hlen := ent_length (hmem f (mem_append_right _ mem_cons_self))
    rw [Found.erase, if_pos ⟨rfl, mem_append_right _ mem_cons_self⟩,
      getD_eq_getElem?_getD, List.getElem?_set_self (by omega)]
    rfl

lemma Erased.lookup (h : Erased st st' l f offs) (hl : l.Nodup)
    (hne : Fat.lookup name [] (dirSlots st.vol st.data l) ≠ some f) :
    Fat.lookup name [] (dirSlots st'.vol st'.data l) =
      Fat.lookup name [] (dirSlots st.vol st.data l) := by
  obtain ⟨pre, run, run', f', post, hold, hnew, hrun, hrun', hf'⟩ := h.parts hl
  rw [hold] at hne
  rw [hold, hnew]
  exact lookup_erased hrun' hf' hrun h.entry hne

/-- No entry behind `f` goes by the name. -/
def Alone (fs : List Found) (f : Found) (name : CString) : Prop :=
  Fat.lookup name [] (fs.dropWhile fun x => x ≠ f).tail = none

lemma Erased.lookup_alone (h : Erased st st' l f offs) (hl : l.Nodup)
    (hlook : Fat.lookup name [] (dirSlots st.vol st.data l) = some f)
    (halone : Alone (dirSlots st.vol st.data l) f name) :
    Fat.lookup name [] (dirSlots st'.vol st'.data l) = none := by
  obtain ⟨pre, run, run', f', post, hold, hnew, hrun, hrun', hf'⟩ := h.parts hl
  have hnd : (dirSlots st.vol st.data l).Nodup := dirSlots_nodup hl
  rw [Alone, hold, ← append_assoc] at halone
  rw [hold] at hlook hnd
  rw [← append_assoc, nodup_append] at hnd
  have hout : ∀ x ∈ pre ++ run, x ≠ f := by
    rintro x hx rfl
    exact hnd.2.2 x hx x mem_cons_self rfl
  rw [dropWhile_append_of_pos (fun x hx => decide_eq_true (hout x hx)), dropWhile_cons_of_neg,
    tail_cons] at halone
  · rw [hnew, lookup_erased_self hrun' hf' (fun hm => hout f (mem_append_left run hm) rfl) hlook]
    exact halone
  · simp

end Erased

end FusionOS.Fat
