import FusionOS.Fat.ReadExact

/-!
# What is on the disk

A block transfer may fail, and a search that is cut short finds nothing.
-/

namespace FusionOS.Fat

def Fs.steady (st : Fs) : Fs := { st with sectorBuf := fun _ => 0, ioOk := fun _ => true, ops := 0 }

/-- The first cluster of the directory that a path names on the disk. -/
def dirAt (st : Fs) (path : CString) : Option Nat :=
  if path = rootPath then some st.vol.rootCluster
  else
    match findPath st.steady path with
    | some (some f, _) => if direntIsDir f.ent then some (direntFirstCluster f.ent) else none
    | _ => none

lemma Quiet.steady {st st' : Fs} (h : Quiet st st') : st'.steady = st.steady := by
  obtain ⟨_, _, rfl⟩ := h
  rfl

lemma Quiet.dirAt {st st' : Fs} (h : Quiet st st') (path : CString) : dirAt st' path = dirAt st path := by
  rw [Fat.dirAt, Fat.dirAt, h.steady, h.vol]

/-! ## A search without failures -/

/-- `t` has the disk of `st`, and its transfers succeed. -/
structure Steadies (st t : Fs) : Prop where
  vol : t.vol = st.vol
  disk : t.disk = st.disk
  io : ∀ n, t.ioOk n = true

lemma steadies_steady (st : Fs) : Steadies st st.steady := ⟨rfl, rfl, fun _ => rfl⟩

section Search
variable {st t st' : Fs}

variable {leaf path : CString} {f : Found} {r : Option FsEntry}

lemma Steadies.blkRead (h : Steadies st t) {lba : Nat} (hread : blkRead st lba = (true, st')) :
    ∃ t', Fat.blkRead t lba = (true, t') ∧ t'.sectorBuf = st'.sectorBuf ∧ Steadies st' t' := by
  unfold Fat.blkRead at hread ⊢
  rw [if_pos (h.io _)]
  split at hread
  · cases hread
    exact ⟨_, rfl, by rw [h.disk], h.vol, h.disk, h.io⟩
  · cases hread

lemma Steadies.sectorLoop {σ ρ : Type} (body : σ → Nat → Nat → Slot → Scan σ ρ) (c : Nat) (h : Steadies st t)
    {n s : Nat} {a : σ} {r : Scan σ (Option ρ)} (hrun : sectorLoop body c n s a st = (r, st'))
    (hr : r ≠ .stop none) : ∃ t', Fat.sectorLoop body c n s a t = (r, t') ∧ Steadies st' t' := by
  induction n generalizing st t s a with
  | zero =>
    cases hrun
    exact ⟨t, rfl, h⟩
  | succ n ih =>
    rw [Fat.sectorLoop] at hrun ⊢
    rw [h.vol]
    cases hread : Fat.blkRead st (u32 (clusterToLba st.vol c + s)) with
    | mk ok st1 =>
      rw [hread] at hrun
      cases ok with
      | false =>
        cases hrun
        exact absurd rfl hr
      | true =>
        obtain ⟨t1, hread', hbuf, h1⟩ := h.blkRead hread
        rw [hread']
        dsimp only at hrun ⊢
        rw [hbuf]
        cases hslots : slotLoop (fun a off => body a c (off + s * 512)) st1.sectorBuf 16 0 a with
        | next b =>
          rw [hslots] at hrun
          exact ih h1 hrun
        | stop b =>
          rw [hslots] at hrun
          cases hrun
          exact ⟨t1, rfl, h1⟩

lemma Steadies.fatGetEntry (h : Steadies st t) {c e : Nat} (hget : fatGetEntry st c = (e, st')) :
    e = 0x0FFFFFFF ∨ ∃ t', Fat.fatGetEntry t c = (e, t') ∧ Steadies st' t' := by
  cases hread : Fat.blkRead st (u32 (st.vol.fatStartLba + u32 (c * 4) / 512)) with
  | mk ok st1 =>
    rw [Fat.fatGetEntry, hread] at hget
    cases ok with
    | false =>
      cases hget
      exact .inl rfl
    | true =>
      obtain ⟨t1, hread', hbuf, h1⟩ := h.blkRead hread
      cases hget
      rw [Fat.fatGetEntry, h.vol, hread', ← hbuf]
      exact .inr ⟨t1, rfl, h1⟩

lemma Steadies.chainLoop {σ ρ : Type} (enter : σ → σ) (body : σ → Nat → Nat → Slot → Scan σ ρ)
    (h : Steadies st t) {fuel c : Nat} {a : σ} {r : ρ}
    (hrun : chainLoop enter body fuel c a st = some (.stop (some r), st')) :
    ∃ t', Fat.chainLoop enter body fuel c a t = some (.stop (some r), t') ∧ Steadies st' t' := by
  induction fuel generalizing st t c a with
  | zero => cases hrun
  | succ fuel ih =>
    rw [Fat.chainLoop] at hrun ⊢
    split at hrun
    · rename_i hc
      rw [if_pos hc, h.vol]
      cases hsec : Fat.sectorLoop body c st.vol.sectorsPerCluster 0 (enter a) st with
      | mk x st1 =>
        rw [hsec] at hrun
        cases x with
        | stop y =>
          cases hrun
          obtain ⟨t1, hsec', h1⟩ := h.sectorLoop body c hsec (by simp)
          exact ⟨t1, by rw [hsec'], h1⟩
        | next b =>
          obtain ⟨t1, hsec', h1⟩ := h.sectorLoop body c hsec (by simp)
          rw [hsec']
          dsimp only at hrun ⊢
          cases hget : Fat.fatGetEntry st1 c with
          | mk e st2 =>
            rw [hget] at hrun
            dsimp only at hrun
            rcases h1.fatGetEntry hget with rfl | ⟨t2, hget', h2⟩
            · cases fuel with
              | zero => cases hrun
              | succ fuel =>
                rw [Fat.chainLoop, if_neg (by decide)] at hrun
                cases hrun
            · rw [hget']
              exact ih h2 hrun
    · cases hrun

lemma Steadies.fatFindEntry (h : Steadies st t) {d : Nat} {name : CString}
    (hrun : fatFindEntry st d name = some (some f, st')) :
    ∃ t', Fat.fatFindEntry t d name = some (some f, t') ∧ Steadies st' t' := by
  rw [Fat.fatFindEntry] at hrun
  split at hrun
  · rename_i r st1 hchain
    cases hrun
    obtain ⟨t', hchain', h'⟩ := h.chainLoop _ _ hchain
    exact ⟨t', by rw [Fat.fatFindEntry, hchain'], h'⟩
  · cases hrun
  · cases hrun

lemma Steadies.pathLoop (h : Steadies st t) {fuel d dir : Nat} {p : CString}
    (hrun : pathLoop fuel d p st = some ((dir, leaf), st')) (hdir : dir ≠ 0) :
    ∃ t', Fat.pathLoop fuel d p t = some ((dir, leaf), t') ∧ Steadies st' t' := by
  induction fuel generalizing st t d p with
  | zero => cases hrun
  | succ fuel ih =>
    rw [Fat.pathLoop] at hrun ⊢
    split at hrun
    · rename_i hp
      cases hrun
      exact ⟨t, if_pos hp, h⟩
    rename_i hp
    rw [if_neg hp]
    split at hrun
    · rename_i hrest
      cases hrun
      exact ⟨t, if_pos hrest, h⟩
    rename_i hrest
    rw [if_neg hrest]
    cases hfind : Fat.fatFindEntry st d ((pathComp p).take 63) with
    | none =>
      rw [hfind] at hrun
      cases hrun
    | some x =>
      obtain ⟨found, st1⟩ := x
      rw [hfind] at hrun
      cases found with
      | none =>
        cases hrun
        exact absurd rfl hdir
      | some f =>
        obtain ⟨t1, hfind', h1⟩ := h.fatFindEntry hfind
        rw [hfind']
        dsimp only at hrun ⊢
        split at hrun
        · cases hrun
          exact absurd rfl hdir
        · rename_i hgo
          rw [if_neg hgo]
          exact ih h1 hrun

lemma Steadies.findLeaf (h : Steadies st t) {dir : Nat}
    (hrun : (if dir = 0 ∨ leaf = [] then some (none, st) else Fat.fatFindEntry st dir leaf) =
      some (some f, st')) :
    ∃ t', (if dir = 0 ∨ leaf = [] then some (none, t) else Fat.fatFindEntry t dir leaf) =
      some (some f, t') := by
  split at hrun
  · cases hrun
  · rename_i hne
    rw [if_neg hne]
    obtain ⟨t', ht', -⟩ := h.fatFindEntry hrun
    exact ⟨t', ht'⟩

lemma findPath_steady (h : findPath st path = some (some f, st')) :
    ∃ t', findPath st.steady path = some (some f, t') := by
  unfold findPath withLeaf at h ⊢
  split at h
  · rename_i hm
    have hm' : st.steady.vol.mounted = true := hm
    rw [if_pos hm']
    unfold pathDirCluster at h ⊢
    by_cases hpath : path = []
    · rw [if_pos hpath] at h ⊢
      exact (steadies_steady st).findLeaf h
    · rw [if_neg hpath] at h ⊢
      cases hrun : pathLoop (path.length + 1) st.vol.rootCluster (pathStart path) st with
      | none =>
        rw [hrun] at h
        cases h
      | some x =>
        obtain ⟨⟨dir, leaf⟩, st1⟩ := x
        rw [hrun] at h
        dsimp only at h
        by_cases hdir : dir = 0
        · rw [if_pos (.inl hdir)] at h
          cases h
        · obtain ⟨t1, hrun', h1⟩ := (steadies_steady st).pathLoop hrun hdir
          have hroot : st.steady.vol.rootCluster = st.vol.rootCluster := rfl
          rw [hroot, hrun']
          exact h1.findLeaf h
  · cases h

lemma fsStat_cases (h : fsStat st path = some (r, st')) :
    (path = rootPath ∨ r = none) ∧ st' = st ∨
      ∃ found, findPath st path = some (found, st') ∧
        r.map FsEntry.isDir = found.map fun f => direntIsDir f.ent := by
  unfold fsStat at h
  split at h
  · rename_i hroot
    cases h
    exact .inl ⟨.inl hroot.2, rfl⟩
  split at h
  · cases h
    exact .inl ⟨.inr rfl, rfl⟩
  unfold findPath withLeaf at *
  split at h
  · rename_i hm
    rw [if_pos hm]
    cases hrun : pathDirCluster st path with
    | none =>
      rw [hrun] at h
      cases h
    | some x =>
      obtain ⟨⟨dir, leaf⟩, st1⟩ := x
      rw [hrun] at h
      dsimp only at h ⊢
      split at h
      · rename_i hfail
        cases h
        exact .inr ⟨none, if_pos hfail, rfl⟩
      · rename_i hgo
        obtain ⟨⟨found, st2⟩, hfind, heq⟩ := Option.map_eq_some_iff.mp h
        cases heq
        refine .inr ⟨found, (if_neg hgo).trans hfind, ?_⟩
        cases found <;> rfl
  · cases h
    exact .inl ⟨.inr rfl, rfl⟩

lemma findPath_quiet {found : Option Found} (h : findPath st path = some (found, st')) :
    Quiet st st' := by
  unfold findPath withLeaf at h
  split at h
  · cases hrun : pathDirCluster st path with
    | none =>
      rw [hrun] at h
      cases h
    | some x =>
      obtain ⟨⟨dir, leaf⟩, st1⟩ := x
      have hq : Quiet st st1 := by
        unfold pathDirCluster at hrun
        split at hrun
        · cases hrun
          exact Quiet.refl _
        · exact pathLoop_quiet hrun
      rw [hrun] at h
      dsimp only at h
      split at h
      · cases h
        exact hq
      · exact hq.trans (fatFindEntry_quiet h)
  · cases h
    exact Quiet.refl _

lemma fsStat_quiet (h : fsStat st path = some (r, st')) :
    Quiet st st' := by
  rcases fsStat_cases h with ⟨-, rfl⟩ | ⟨found, hfind, -⟩
  · exact Quiet.refl _
  · exact findPath_quiet hfind

lemma fsStat_dirAt {e : FsEntry} (h : fsStat st path = some (some e, st'))
    (hdir : e.isDir = true) : ∃ c, dirAt st path = some c := by
  unfold dirAt
  by_cases hroot : path = rootPath
  · exact ⟨_, if_pos hroot⟩
  rw [if_neg hroot]
  rcases fsStat_cases h with ⟨hroot' | hnone, -⟩ | ⟨found, hfind, heq⟩
  · exact absurd hroot' hroot
  · cases hnone
  · cases found with
    | none => cases heq
    | some f =>
      have hf : direntIsDir f.ent = true := by
        rw [← hdir]
        exact (Option.some_inj.mp heq).symm
      obtain ⟨t', ht'⟩ := findPath_steady hfind
      rw [ht']
      exact ⟨_, if_pos hf⟩

end Search

end FusionOS.Fat
