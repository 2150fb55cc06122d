import FusionOS.Fat.View

/-!
# Operations on a volume in order

Each operation on a directory of a volume in order returns, and leaves the volume in order where it
returns 1.
-/

namespace FusionOS.Fat

/-! ## Writing and making directories -/

section Dots
variable {v : Volume} {cluster parent : Nat}

lemma dotSlot_ent {data : Nat → Mem} (hdata : data cluster = dotCluster v cluster parent) {x : Found}
    (hx : x ∈ dirSlots v data [cluster]) :
    x.ent = ([direntSetFirstCluster (newDirent dotShort 0x10) cluster,
      direntSetFirstCluster (newDirent dotdotShort 0x10) parent][x.offset % 512 / 32]?).getD
        (slice (fun _ => 0) (32 * (x.offset % 512 / 32)) 32) := by
  obtain ⟨hc, hal, hin, hent⟩ := mem_dirSlots.mp hx
  rw [List.mem_singleton.mp hc, hdata] at hent
  have hsec : x.ent = slice (dotSector cluster parent) (32 * (x.offset % 512 / 32)) 32 := by
    rw [hent]
    apply slice_shift
    intro k hk
    rw [dotCluster, if_pos (by omega)]
    congr 1
    omega
  have hes : ∀ e ∈ [direntSetFirstCluster (newDirent dotShort 0x10) cluster,
      direntSetFirstCluster (newDirent dotdotShort 0x10) parent], e.length = 32 := by
    intro e he
    simp only [List.mem_cons, List.not_mem_nil, or_false] at he
    rcases he with rfl | rfl <;> simp [direntSetFirstCluster, setLe16, newDirent, dotShort, dotdotShort]
  have hflat : dotSector cluster parent = splice (fun _ => 0) (32 * 0)
      [direntSetFirstCluster (newDirent dotShort 0x10) cluster,
        direntSetFirstCluster (newDirent dotdotShort 0x10) parent].flatten := by
    simp [dotSector]
  rwa [hflat, slice_splice_run hes, if_pos (Nat.zero_le _), Nat.sub_zero] at hsec

lemma dotSlot_cases {data : Nat → Mem} (hdata : data cluster = dotCluster v cluster parent) {x : Found}
    (hx : x ∈ dirSlots v data [cluster]) :
    x.ent = direntSetFirstCluster (newDirent dotShort 0x10) cluster ∨
      x.ent = direntSetFirstCluster (newDirent dotdotShort 0x10) parent ∨ x.ent.getD 0 0 = 0 := by
  have hsec := dotSlot_ent hdata hx
  rcases hk : x.offset % 512 / 32 with _ | _ | k
  · left
    rw [hsec, hk]
    rfl
  · right
    left
    rw [hsec, hk]
    rfl
  · right
    right
    rw [hsec, hk]
    rfl

lemma dot_entry {short : List UInt8} (hlen : short.length = 11) {first : Nat} (hfirst : first < 2 ^ 32) :
    (direntSetFirstCluster (newDirent short 0x10) first).take 11 = short ∧
      direntAttr (direntSetFirstCluster (newDirent short 0x10) first) = 0x10 ∧
      direntFirstCluster (direntSetFirstCluster (newDirent short 0x10) first) = first := by
  have h32 : (newDirent short 0x10).length = 32 := by
    rw [newDirent, List.length_append, List.length_cons, List.length_replicate, hlen]
  have htake : ∀ k ≤ 20, (direntSetFirstCluster (newDirent short 0x10) first).take k =
      (newDirent short 0x10).take k := by
    intro k hk
    rw [direntSetFirstCluster, take_setLe16 (by omega), take_setLe16 hk]
  refine ⟨?_, ?_, firstCluster_setFirstCluster h32 hfirst⟩
  · rw [htake 11 (by decide), newDirent, List.take_append_of_le_length (by omega),
      List.take_of_length_le (by omega)]
  · rw [direntAttr, getD_of_take (show 11 < 12 by decide), htake 12 (by decide),
      ← getD_of_take (show 11 < 12 by decide), newDirent, List.getD_append_right _ _ _ _ (by omega), hlen]
    rfl

end Dots

section Kept
variable {st st' : Fs} {d p : Nat} {ld : List Nat} {name : CString} (ho : InOrder st)
  (hd : st.image.Dir d p) (hl : st.image.ChainAt d ld)
include ho hd hl

lemma NewDir.inOrder (h : NewDir st d ld name (some (true, st'))) : InOrder st' := by
  cases h with
  | @made _ l₁ c i new hat hfat hdata =>
    have hg := ho.ready.geometry
    have hvol : st'.image.vol = st.image.vol := hat.disk.vol
    have hfree := (hat.fresh new List.mem_cons_self).1
    have hcl : st.vol.IsCluster new := isCluster_of_free hfree
    have hsmall : ∀ {x}, st.vol.IsCluster x → x < 2 ^ 28 := by
      intro x hx
      have := (isCluster_guard hg hx).2
      unfold eoc at this
      omega
    have hchain : FatChain st.vol st'.fat new [new] := by
      apply Chain.last hcl
      rw [hfat]
      decide
    have hfirst : direntFirstCluster (newSlot name 0x10 new 0) = new := newSlot_firstCluster _ _
      (Nat.lt_trans (hsmall hcl) (by decide)) _
    have hroot : new ≠ st.vol.rootCluster := by
      rintro rfl
      obtain ⟨lr, hlr⟩ := ho.sound.root
      exact FatChain.fat_ne_zero hlr (Chain.head_mem hlr) (mem_freeClusters.mp hfree).2
    have hdd : d < 2 ^ 32 := Nat.lt_trans (hsmall (Chain.node hl d (Chain.head_mem hl))) (by decide)
    have hdot := dot_entry (show dotShort.length = 11 by decide) (Nat.lt_trans (hsmall hcl) (by decide))
    have hdotdot := dot_entry (show dotdotShort.length = 11 by decide) hdd
    have hdotSlot : ∀ {x : Found}, direntAttr x.ent = 0x10 → direntIsDir x.ent = true ∧ ¬ IsLfn x.ent := by
      intro x hattr
      constructor
      · rw [direntIsDir, hattr]
        decide
      · rintro ⟨-, hlfn⟩
        rw [hattr] at hlfn
        cases hlfn
    have hcases : ∀ x ∈ st'.image.slots [new],
        (IsEntry x.ent → IsDot x.ent ∧ Image.DotOk new d x) ∧ ¬ IsLfn x.ent := by
      intro x hx
      rw [Image.slots, hvol] at hx
      rcases dotSlot_cases (show st'.image.data new = dotCluster st.image.vol new d from hdata) hx with
        heq | heq | h0
      · rw [← heq] at hdot
        obtain ⟨hname, hattr, hfst⟩ := hdot
        exact ⟨fun _ => ⟨.inl hname, (hdotSlot hattr).1, .inr (.inl hfst)⟩, (hdotSlot hattr).2⟩
      · rw [← heq] at hdotdot
        obtain ⟨hname, hattr, hfst⟩ := hdotdot
        exact ⟨fun _ => ⟨.inr hname, (hdotSlot hattr).1, .inr (.inr hfst)⟩, (hdotSlot hattr).2⟩
      · exact ⟨fun hent => absurd h0 hent.1, fun hlfn => hlfn.1.1 h0⟩
    apply hat.inOrder ho hd hl (by decide) (newSlot_alike name 0x10 new 0)
      (by rw [hfirst]; exact hchain.hasChain) (fun d' p' m => (d' = new ∧ p' = d) ∧ m = [new])
    · rintro d' p' m ⟨⟨rfl, rfl⟩, rfl⟩
      refine ⟨⟨?_, hroot⟩, fun x hx => (hcases x hx).1, fun x hx => (hcases x hx).2⟩
      rw [Image.ChainAt, hvol]
      exact hchain
    · intro _ _
      exact ⟨⟨hfirst, rfl⟩, rfl⟩

lemma NewFile.inOrder {xs : List UInt8} (h : NewFile st d ld name xs (some (true, st'))) :
    InOrder st' := by
  cases h with
  | @written _ l₁ l' c i first size hat hch hlt _ =>
    have hchain : HasChain st.vol st'.fat (direntFirstCluster (newSlot name 0x20 first size)) l' := by
      rw [newSlot_firstCluster _ _ (Nat.lt_trans hlt (by decide))]
      rcases hch with h0 | hch
      · exact .inl h0
      · exact hch.hasChain
    apply hat.inOrder ho hd hl (by decide) (newSlot_alike name 0x20 first size) hchain
      (fun _ _ _ => False)
    · rintro _ _ _ ⟨⟩
    · intro hdir
      rw [(newSlot_alike name 0x20 first size).isDir, direntIsDir, newDirent_attr] at hdir
      cases hdir

lemma fatWriteFile_kept (hname : name.length < 64) (xs : List UInt8) (append : Bool) :
    ∃ ok st', fatWriteFile st d name xs append = some (ok, st') ∧ DiskOnly st st' ∧
      (ok = true → InOrder st') := by
  have hr := ho.ready
  obtain ⟨st₁, hfind, hq⟩ := fatFindEntry_ok hr hl name
  cases hlook : lookup name [] (st.image.slots ld) with
  | none =>
    have hnew := fatWriteFile_new hr hl hname hlook xs append
    generalize hrun : fatWriteFile st d name xs append = r at hnew
    cases hnew with
    | full hq' => exact ⟨false, _, rfl, hq'.diskOnly, fun h => by cases h⟩
    | stranded _ hat => exact ⟨false, _, rfl, hat.disk, fun h => by cases h⟩
    | written hat hch hlt hb hcount hspill =>
      exact ⟨true, _, rfl, hat.disk,
        fun _ => (NewFile.written hat hch hlt hb hcount hspill).inOrder ho hd hl⟩
  | some f =>
    rw [show lookup name [] (dirSlots st.vol st.data ld) = some f from hlook] at hfind
    rw [fatWriteFile, hfind]
    dsimp only
    obtain ⟨hmem, hent⟩ := lookup_some hlook
    cases hdir : direntIsDir f.ent with
    | true =>
      exact ⟨false, st₁, fatWriteEntry_dir xs hdir append, hq.diskOnly, fun h => by cases h⟩
    | false =>
      have hdisk := hq.diskOnly
      obtain ⟨b, n, rfl⟩ := hq
      have ho1 : InOrder { st with sectorBuf := b, ops := n } := ho.quiet ⟨b, n, rfl⟩
      obtain ⟨l, hch⟩ := ho.sound.entry_chain (ho.sound.entry_of_file hd hl hmem hent hdir)
      have hout := fatWriteEntry_outcome xs ho1.ready (place_of_mem hl hmem) (ent_length hmem) hdir hch
        (not_mem_of_file ho.sound hd hl hmem hent hdir hch) (used_of_mem hl hmem) append
      generalize fatWriteEntry { st with sectorBuf := b, ops := n } f xs append = r at hout
      cases hout with
      | written hlink _ =>
        exact ⟨true, _, rfl, hdisk.trans hlink.disk,
          fun _ => hlink.inOrder ho1 ⟨hd, hl, hmem, hent, hdir, hch⟩⟩
      | stranded hstr => exact ⟨false, _, rfl, hdisk.trans hstr.disk, fun h => by cases h⟩

end Kept

/-! ## Deleting -/

lemma fatDirIsEmpty_ok {st : Fs} {c : Nat} {l : List Nat} (hr : Ready st)
    (h : FatChain st.vol st.fat c l) : ∃ r st', fatDirIsEmpty st c = some (r, st') ∧ Quiet st st' := by
  obtain ⟨st', hrun, hq⟩ := chainLoop_ok hr h id isEmptySlot chainFuel
    (FatChain.lt_fuel h hr.geometry) ([], ())
  rw [fatDirIsEmpty, hrun]
  cases dirScan st.vol st.data id isEmptySlot l ([], ()) with
  | stop r => exact ⟨r, st', rfl, hq⟩
  | next s => exact ⟨true, st', rfl, hq⟩

section Deleted
variable {st st₁ st' : Fs} {d p : Nat} {ld l : List Nat} {f : Found} {offs : List Nat} (ho : InOrder st)
  (hd : st.image.Dir d p) (hl : st.image.ChainAt d ld) (hmem : f ∈ st.image.slots ld)
  (hent : IsEntry f.ent)
include ho hd hl hmem hent

lemma InOrder.found_chain : ∃ l, HasChain st.vol st.fat (direntFirstCluster f.ent) l := by
  by_cases hdot : IsDot f.ent
  · by_cases h0 : direntFirstCluster f.ent = 0
    · exact ⟨[], .inl ⟨h0, rfl⟩⟩
    · obtain ⟨q, hq⟩ := ho.sound.dir_of_entry hd hl hmem hent (ho.sound.dot hd hl hmem hent hdot).1 h0
      obtain ⟨l, hl'⟩ := ho.sound.dir_chain hq
      exact ⟨l, .inr ⟨h0, hl'⟩⟩
  · exact ho.sound.entry_chain ⟨d, p, ld, hd, hl, hmem, hent, hdot⟩

lemma Erased.inOrder (h : Erased st st₁ ld f offs) (hdot : ¬ IsDot f.ent)
    (hch : HasChain st.vol st.fat (direntFirstCluster f.ent) l) (hdisk : DiskOnly st₁ st')
    (hfat : st'.fat = freeAll st.fat l) (hdata : st'.data = st₁.data) : InOrder st' := by
  have hentry : st.image.Entry f := ⟨d, p, ld, hd, hl, hmem, hent, hdot⟩
  have hv := ho.view.erase ho.ready h
  apply ho.of_view (h.disk.trans hdisk) (hv.free hdisk (hfat.trans (by rw [h.fat])) hdata _ _)
  · rintro a b m n x ⟨ha, -⟩ ⟨hb, -⟩ hx hx'
    exact ho.apart ha hb hx hx'
  · rintro g m ⟨hg, hne⟩ x hx hx'
    exact hne (ho.apart hg ⟨hentry, hch⟩ hx hx')
  · rintro m ⟨-, hm⟩ x hx hx'
    rcases hch with ⟨-, rfl⟩ | ⟨-, hch⟩
    · cases hx'
    · rw [h.disk.vol] at hm
      exact ho.sound.root_disjoint hentry hch hm hx' hx

lemma deleteFound_kept {name : CString} (hlook : lookup name [] (st.image.slots ld) = some f) :
    ∃ ok st', deleteFound st d name f = some (ok, st') ∧ DiskOnly st st' ∧
      (ok = true → ¬ IsDot f.ent → InOrder st') := by
  obtain ⟨l, hch⟩ := ho.found_chain hd hl hmem hent
  -- behind the check for an empty directory
  have hgo : ∀ st0, Quiet st st0 → ∃ ok st',
      removeFound st0 d name (direntFirstCluster f.ent) = some (ok, st') ∧ DiskOnly st st' ∧
      (ok = true → ¬ IsDot f.ent → InOrder st') := by
    intro st0 hq
    obtain ⟨st₁, st', offs, hrun, her, hdisk, hfat, hdata⟩ :=
      removeFound_ok ho.ready hq hl (ho.inside hd hl) hlook hch
    exact ⟨true, st', hrun, her.disk.trans hdisk,
      fun _ hdot => her.inOrder ho hd hl hmem hent hdot hch hdisk hfat hdata⟩
  rcases deleteFound_cases st d name f with ⟨-, heq⟩ | ⟨-, -, heq⟩ | ⟨-, h0, heq⟩
  · rw [heq]
    exact hgo st (Quiet.refl st)
  · exact ⟨false, st, heq, DiskOnly.refl st, fun h => by cases h⟩
  · obtain ⟨empty, st0, hempty, hq⟩ := fatDirIsEmpty_ok ho.ready (hch.resolve_left fun hz => h0 hz.1).2
    rw [heq, hempty, Option.bind_some]
    cases empty with
    | false => exact ⟨false, st0, rfl, hq.diskOnly, fun h => by cases h⟩
    | true => exact hgo st0 hq

end Deleted

/-! ## Renaming -/

lemma firstCluster_lt (e : Slot) : direntFirstCluster e < 2 ^ 32 := by
  have hbyte : ∀ i, (e.getD i 0).toNat < 256 := fun i => (e.getD i 0).toNat_lt
  have := hbyte 20
  have := hbyte (20 + 1)
  have := hbyte 26
  have := hbyte (26 + 1)
  simp only [direntFirstCluster, le16At]
  omega

lemma fatUpdateDirent_attached {st st₁ st2 : Fs} {d : Nat} {ld l₁ : List Nat} {name : CString}
    {attr : UInt8} {c i : Nat} (hr : Ready st) (hg : Grown st st₁ d ld l₁)
    (hp : Placed st₁ st2 l₁ name attr c i) (first size : Nat) :
    ∃ st', fatUpdateDirent st2 c (32 * i) (newSlot name attr first size) = (true, st') ∧
      Attached st st' d ld l₁ name attr c i (newSlot name attr first size) [] := by
  have hplace : Place st2.vol c (32 * i) := by
    rw [hp.disk.vol]
    exact hp.place
  obtain ⟨st', hupd, hd, hfat, hdata⟩ := fatUpdateDirent_ok (hp.disk.ready (hg.disk.ready hr)) hplace
    (newSlot_length name attr first size)
  refine ⟨st', hupd, attached_of hg hp hd.disk (newSlot_length _ _ _ _) ?_ ?_ ?_ ?_⟩
  · intro x _
    rw [hfat]
  · intro x hx
    cases hx
  · rw [hdata, Function.update_self]
  · intro x _ hx
    rw [hdata, Function.update_of_ne hx]

section Renamed
variable {st st₁ st' : Fs} {od op nd np : Nat} {lo ln l₁ : List Nat} {f : Found} {name : CString}
  {c i : Nat} {offs : List Nat} (ho : InOrder st) (hod : st.image.Dir od op) (hlo : st.image.ChainAt od lo)
  (hnd : st.image.Dir nd np) (hln : st.image.ChainAt nd ln) (hmem : f ∈ st.image.slots lo)
  (hent : IsEntry f.ent) (hdot : ¬ IsDot f.ent) (hdir : direntIsDir f.ent = true → od = nd)
  (hat : Attached st st₁ nd ln l₁ name (direntAttr f.ent) c i
    (newSlot name (direntAttr f.ent) (direntFirstCluster f.ent) (direntFileSize f.ent)) [])
include ho hod hlo hnd hln hmem hent hdot hdir hat

lemma Attached.renamed {l : List Nat} {g : Found} (her : Erased st₁ st' l g offs)
    (hg : g = f ∨ g = ⟨newSlot name (direntAttr f.ent) (direntFirstCluster f.ent) (direntFileSize f.ent),
      c, 32 * i⟩) : InOrder st' := by
  have hentry : st.image.Entry f := ⟨od, op, lo, hod, hlo, hmem, hent, hdot⟩
  obtain ⟨lf, hlf⟩ := ho.sound.entry_chain hentry
  have hle := hat.old_chain ho hnd hln hentry hlf
  generalize (if direntFirstCluster f.ent = nd then l₁ else lf) = le at hle
  have halike := newSlot_alike name (direntAttr f.ent) (direntFirstCluster f.ent) (direntFileSize f.ent)
  have hfirst := newSlot_firstCluster name (direntAttr f.ent) (firstCluster_lt f.ent)
    (direntFileSize f.ent)
  have hv := hat.view ho hnd hln hent.2.2 halike (hfirst.symm ▸ hle)
    (fun hm hx => hat.old_offRoot ho hnd hln hentry hle hm hx) (fun _ _ _ => False)
    (by rintro _ _ _ ⟨⟩) (by
      intro h1 h2
      rw [hfirst] at h2 ⊢
      rw [halike.isDir, direntIsDir, newDirent_attr] at h1
      rw [← hdir h1]
      exact .inl (.sub hod hlo hmem hent hdot h1 h2))
  apply ho.of_view (hat.disk.trans her.disk) (hv.erase (hat.disk.ready ho.ready) her)
  -- a cluster of both names is one of the erased name
  rintro a b m n x ⟨ha, hne⟩ ⟨hb, hne'⟩ hx hx'
  have hold := fun {a b m n} => hat.apart_old ho hnd hln (f := a) (g := b) (m := m) (n := n) (x := x)
  rcases ha with ⟨ha, hm⟩ | ⟨rfl, rfl⟩ | ⟨-, rfl⟩
  · rcases hb with ⟨hb, hn⟩ | ⟨rfl, rfl⟩ | ⟨-, rfl⟩
    · exact hold ha hb hm hn hx hx'
    · rcases hg with rfl | rfl
      · exact absurd (hold ha hentry hm hle hx hx') hne
      · exact absurd rfl hne'
    · cases hx'
  · rcases hb with ⟨hb, hn⟩ | ⟨rfl, rfl⟩ | ⟨-, rfl⟩
    · rcases hg with rfl | rfl
      · exact absurd (hold hb hentry hn hle hx' hx) hne'
      · exact absurd rfl hne
    · rfl
    · cases hx'
  · cases hx

end Renamed

section Renames
variable {st : Fs} {od op nd np : Nat} {lo ln : List Nat} {f : Found} {oldName newName : CString}

lemma renameFound_created (ho : InOrder st) (hod : st.image.Dir od op) (hlo : st.image.ChainAt od lo)
    (hnd : st.image.Dir nd np) (hln : st.image.ChainAt nd ln) (hent : IsEntry f.ent)
    (hmove : ¬ (direntIsDir f.ent = true ∧ od ≠ nd)) {st₁ st2 : Fs} {l₁ : List Nat} {c i : Nat}
    (hcreate : fatCreateEntry st nd newName (direntAttr f.ent) =
      some (some ⟨newDirent (nameToShort newName) (direntAttr f.ent), c, 32 * i⟩, st2))
    (hgrown : Grown st st₁ nd ln l₁) (hplaced : Placed st₁ st2 l₁ newName (direntAttr f.ent) c i)
    (oldName : CString) :
    ∃ st3 m, Attached st st3 nd ln l₁ newName (direntAttr f.ent) c i
        (newSlot newName (direntAttr f.ent) (direntFirstCluster f.ent) (direntFileSize f.ent)) [] ∧
      st3.image.ChainAt od m ∧
      (od = nd ∧ m = l₁ ∧ lo = ln ∨ od ≠ nd ∧ st3.image.slots m = st.image.slots lo) ∧
      Uncrossed st3.vol st3.data m ∧
      renameFound st od oldName nd newName f = fatDeleteEntry st3 od oldName := by
  have hg := ho.ready.geometry
  obtain ⟨st3, hupd, hat⟩ := fatUpdateDirent_attached ho.ready hgrown hplaced
    (direntFirstCluster f.ent) (direntFileSize f.ent)
  have halike := newSlot_alike newName (direntAttr f.ent) (direntFirstCluster f.ent)
    (direntFileSize f.ent)
  obtain ⟨m, hm, hcase⟩ : ∃ m, st3.image.ChainAt od m ∧ (od = nd ∧ m = l₁ ∧ lo = ln ∨
      od ≠ nd ∧ st3.image.slots m = st.image.slots lo) := by
    by_cases heq : od = nd
    · subst heq
      exact ⟨l₁, hat.chainAt, .inl ⟨rfl, rfl, FatChain.unique hg hlo hln⟩⟩
    · obtain ⟨hch, hslots⟩ := hat.other_dir ho.sound hg hnd hln hod hlo heq
      exact ⟨lo, hch, .inr ⟨heq, hslots⟩⟩
  refine ⟨st3, m, hat, hm, hcase, hat.old_inside ho hnd hln hent.2.2 halike hod hm, ?_⟩
  unfold renameFound
  rw [if_neg hmove, hcreate]
  dsimp only
  rw [newSlot] at hupd
  rw [hupd]

lemma renameFound_kept (ho : InOrder st) (hod : st.image.Dir od op) (hlo : st.image.ChainAt od lo)
    (hnd : st.image.Dir nd np) (hln : st.image.ChainAt nd ln)
    (hlook : lookup oldName [] (st.image.slots lo) = some f) (hlen : newName.length < 64) :
    ∃ ok st', renameFound st od oldName nd newName f = some (ok, st') ∧ DiskOnly st st' ∧
      (ok = true → ¬ IsDot f.ent → (od = nd → needsLfn newName = false) → InOrder st') ∧
      (ok = false → 0 ∉ newName → Quiet st st') := by
  obtain ⟨hmem, hent⟩ := lookup_some hlook
  by_cases hmove : direntIsDir f.ent = true ∧ od ≠ nd
  · refine ⟨false, st, ?_, DiskOnly.refl st, (fun h => by cases h), fun _ _ => Quiet.refl st⟩
    rw [renameFound, if_pos hmove]
  have hdir : direntIsDir f.ent = true → od = nd := fun h1 => by_contra fun h2 => hmove ⟨h1, h2⟩
  have hcreate := fatCreateEntry_ok ho.ready hln (direntAttr f.ent) hlen
  generalize hres : fatCreateEntry st nd newName (direntAttr f.ent) = r at hcreate
  cases hcreate with
  | full hq =>
    refine ⟨false, _, ?_, hq.diskOnly, (fun h => by cases h), fun _ _ => hq⟩
    rw [renameFound, if_neg hmove, hres]
  | @created st₁ st2 l₁ c i hgrown hplaced =>
    obtain ⟨st3, m, hat, hm, hcase, hinside, hrun⟩ := renameFound_created ho hod hlo hnd hln hent hmove
      hres hgrown hplaced oldName
    rw [hrun]
    have halike := newSlot_alike newName (direntAttr f.ent) (direntFirstCluster f.ent)
      (direntFileSize f.ent)
    have hr3 := hat.disk.ready ho.ready
    -- where the scan finds an entry it is erased
    have herase : ∀ {g}, lookup oldName [] (st3.image.slots m) = some g →
        ∃ st' offs, fatDeleteEntry st3 od oldName = some (true, st') ∧ Erased st3 st' m g offs :=
      fun hg => fatDeleteEntry_ok hr3 hm hinside hg
    obtain ⟨ok, st', hdel, hdisk⟩ : ∃ ok st', fatDeleteEntry st3 od oldName = some (ok, st') ∧
        DiskOnly st3 st' := by
      rcases fatDeleteEntry_cases hr3 hm oldName with ⟨st', hdel, hq⟩ | ⟨st', g, offs, hdel, -, her⟩
      · exact ⟨false, st', hdel, hq.diskOnly⟩
      · exact ⟨true, st', hdel, her.disk⟩
    refine ⟨ok, st', hdel, hat.disk.trans hdisk, ?_, ?_⟩
    · rintro rfl hdot hshort
      rcases hcase with ⟨heq, rfl, rfl⟩ | ⟨-, hslots⟩
      · rcases hat.lookup_single (hshort heq) hlen hent.2.2 halike hlook with hf | hf
        · obtain ⟨st'', offs, hdel', her⟩ := herase hf
          cases hdel.symm.trans hdel'
          exact hat.renamed ho hod hlo hnd hln hmem hent hdot hdir her (.inl rfl)
        · obtain ⟨st'', offs, hdel', her⟩ := herase hf
          cases hdel.symm.trans hdel'
          exact hat.renamed ho hod hlo hnd hln hmem hent hdot hdir her (.inr rfl)
      · obtain ⟨st'', offs, hdel', her⟩ := herase (hslots ▸ hlook)
        cases hdel.symm.trans hdel'
        exact hat.renamed ho hod hlo hnd hln hmem hent hdot hdir her (.inl rfl)
    · rintro rfl h0
      -- the old name leads to an entry, so the deletion has not failed
      obtain ⟨g, hfound⟩ : ∃ g, lookup oldName [] (st3.image.slots m) = some g := by
        rcases hcase with ⟨-, rfl, rfl⟩ | ⟨-, hslots⟩
        · rcases hat.lookup_old hent.2.2 halike hlook with hf | ⟨-, x, hx, hzero⟩ | ⟨g, -, hf⟩
          · exact ⟨_, hf⟩
          · exact absurd hzero (installed_ne_zero h0 hlen halike x hx)
          · exact ⟨_, hf⟩
        · exact ⟨f, hslots ▸ hlook⟩
      obtain ⟨st'', offs, hdel', -⟩ := herase hfound
      cases hdel.symm.trans hdel'

end Renames

section Calls
variable {st : Fs} (ho : InOrder st) (hstack : st.stackName.length < 64)
include ho hstack

lemma write_kept (path : CString) (xs : List UInt8) (append : Bool) :
    ∃ ok st', withLeaf st false path (fun st dir name => fatWriteFile st dir name xs append) =
      some (ok, st') ∧ DiskOnly st st' ∧ (ok = true → InOrder st') := by
  rcases withLeaf_cases false (fun st dir name => fatWriteFile st dir name xs append) path ho.ready
    ho.mounted ho.sound with ⟨d, p, leaf, hd, hlead⟩ | ⟨st₁, hwith, hq⟩
  · obtain ⟨st₁, hwith, hq⟩ := withLeaf_leads false
      (fun st dir name => fatWriteFile st dir name xs append) ho.ready ho.mounted hlead
    obtain ⟨l, hl⟩ := ho.sound.dir_chain hd
    rw [← hq.image] at hd hl
    obtain ⟨ok, st', hrun, hdisk, hkept⟩ := fatWriteFile_kept (ho.quiet hq) hd hl (hlead.length hstack) xs
      append
    exact ⟨ok, st', hwith.trans hrun, hq.diskOnly.trans hdisk, hkept⟩
  · exact ⟨false, st₁, hwith, hq.diskOnly, fun h => by cases h⟩

lemma mkdir_kept (path : CString) :
    ∃ ok st', fsMkdir st path = some (ok, st') ∧ DiskOnly st st' ∧ (ok = true → InOrder st') := by
  unfold fsMkdir
  generalize hk : (fun (st : Fs) (dir : Nat) (name : CString) => _) = k
  rcases withLeaf_cases false k path ho.ready ho.mounted ho.sound with
    ⟨d, p, leaf, hd, hlead⟩ | ⟨st₁, hwith, hq⟩
  · rw [← hk, ← fsMkdir]
    obtain ⟨l, hl⟩ := ho.sound.dir_chain hd
    cases hlook : lookup leaf [] (st.image.slots l) with
    | none =>
      have hnew := mkdir_new ho.ready ho.mounted hlead (hlead.length hstack) hl hlook
      generalize fsMkdir st path = r at hnew
      cases hnew with
      | failed hdisk => exact ⟨false, _, rfl, hdisk, fun h => by cases h⟩
      | made hat hfat hdata =>
        exact ⟨true, _, rfl, hat.disk, fun _ => (NewDir.made hat hfat hdata).inOrder ho hd hl⟩
    | some f =>
      obtain ⟨st', hrun, hq⟩ := mkdir_found ho.ready ho.mounted hlead hl hlook
      exact ⟨false, st', hrun, hq.diskOnly, fun h => by cases h⟩
  · exact ⟨false, st₁, hwith, hq.diskOnly, fun h => by cases h⟩

end Calls

end FusionOS.Fat
