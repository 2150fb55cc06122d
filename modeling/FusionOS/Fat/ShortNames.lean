import FusionOS.Fat.Calls

/-!
# The short names of a directory

FAT wants the short names of a directory to be different. `name_to_short` cuts a name that does not
fit and puts no number behind it, and the entry of a long name is stored twice: behind its long-name
slots, and over the first of them, where its fields are written.
-/

namespace FusionOS.Fat

open List

def shortNames (es : List Slot) : List (List UInt8) := (es.filter fun e => IsEntry e).map (List.take 11)

abbrev Image.shorts (I : Image) (l : List Nat) : List (List UInt8) :=
  shortNames ((I.slots l).map Found.ent)

def newShorts (name : CString) : List (List UInt8) :=
  if InUse (nameToShort name) then
    if needsLfn name then [nameToShort name, nameToShort name] else [nameToShort name]
  else []

section Slots

variable {name : CString} {offs : List Nat} {e : Slot} {attr : UInt8}

lemma shortNames_append (es es' : List Slot) :
    shortNames (es ++ es') = shortNames es ++ shortNames es' := by
  rw [shortNames, filter_append, map_append]
  rfl

lemma shortNames_eq_nil {es : List Slot} (h : ∀ e ∈ es, ¬ IsEntry e) : shortNames es = [] := by
  rw [shortNames, filter_eq_nil_iff.mpr (by simpa using h)]
  rfl

lemma shortNames_new (hattr : attr ≠ 0x0F)
    (he : Alike (newDirent (nameToShort name) attr) e) :
    shortNames [e] = if InUse (nameToShort name) then [nameToShort name] else [] := by
  have hent : IsEntry e ↔ InUse (nameToShort name) := by
    rw [he.isEntry, IsEntry, newDirent_first, newDirent_attr, InUse]
    exact ⟨fun h => ⟨h.1, h.2.1⟩, fun h => ⟨h.1, h.2, hattr⟩⟩
  have htake : e.take 11 = nameToShort name := by
    rw [he.short, newDirent_short]
  by_cases hin : InUse (nameToShort name)
  · simp [shortNames, hent, hin, htake]
  · simp [shortNames, hent, hin]

lemma shortNames_lfnSlots (name : CString) (short : List UInt8) (count i : Nat) :
    shortNames (lfnSlots name short count i) = [] := by
  apply shortNames_eq_nil
  intro e he hent
  obtain ⟨order, -, rfl⟩ := mem_lfnSlots he
  exact hent.2.2 (lfnEntry_attr name short _ _)

lemma shortNames_installed (hne : name ≠ [])
    (hattr : attr ≠ 0x0F) (he : Alike (newDirent (nameToShort name) attr) e) :
    shortNames (installed name attr e) = newShorts name := by
  have hfirst := shortNames_new hattr he
  have hlast := shortNames_new hattr (Alike.refl (newDirent (nameToShort name) attr))
  rw [installed, ← singleton_append, shortNames_append, hfirst, newShorts]
  by_cases hlong : needsLfn name = true
  · obtain ⟨n, hn⟩ := Nat.exists_eq_succ_of_ne_zero (lfnCount_pos hlong hne).ne'
    rw [entrySlots, hn, lfnSlots, cons_append, tail_cons, shortNames_append,
      shortNames_lfnSlots, hlast, if_pos hlong]
    split
    · rfl
    · rfl
  · have hcount : lfnCount name = 0 := if_neg hlong
    rw [entrySlots, hcount, lfnSlots, if_neg hlong]
    exact append_nil _

lemma Attached.shorts_perm {st st' : Fs} {d : Nat} {ld l₁ l' : List Nat} {c i : Nat}
    (h : Attached st st' d ld l₁ name attr c i e l')
    (hne : name ≠ []) (hattr : attr ≠ 0x0F) (he : Alike (newDirent (nameToShort name) attr) e) :
    (st'.image.shorts l₁).Perm (newShorts name ++ st.image.shorts ld) := by
  obtain ⟨pre, run, post, zs, hold, hzero, hnew, -, hfree, -⟩ := h.slots
  have hzs : shortNames (zs.map Found.ent) = [] := by
    apply shortNames_eq_nil
    intro x hx hent
    obtain ⟨z, hz, rfl⟩ := mem_map.mp hx
    exact hent.1 (hzero z hz)
  have hrun : shortNames (run.map Found.ent) = [] := by
    apply shortNames_eq_nil
    intro x hx hent
    obtain ⟨z, hz, rfl⟩ := mem_map.mp hx
    exact hfree z hz ⟨hent.1, hent.2.1⟩
  have hbefore := congrArg (fun fs => shortNames (fs.map Found.ent)) hold
  have hafter := congrArg (fun fs => shortNames (fs.map Found.ent)) hnew
  simp only [map_append, shortNames_append, hzs, hrun, append_nil, placed_ent,
    shortNames_installed hne hattr he] at hbefore hafter
  rw [← h.disk.vol] at hafter
  rw [show st'.image.shorts l₁ = _ from hafter, show st.image.shorts ld = _ from hbefore,
    ← append_assoc]
  exact perm_append_comm.append_right _

lemma shortNames_erase_sublist {c : Nat} {fs : List Found}
    (h32 : ∀ x ∈ fs, x.ent.length = 32) :
    (shortNames ((fs.map (Found.erase c offs)).map Found.ent)).Sublist (shortNames (fs.map Found.ent)) := by
  induction fs with
  | nil => exact List.Sublist.refl _
  | cons x fs ih =>
    have hsplit : ∀ (e : Slot) (es : List Slot), shortNames (e :: es) = shortNames [e] ++ shortNames es :=
      fun e es => shortNames_append [e] es
    rw [map_cons, map_cons, map_cons, hsplit, hsplit x.ent]
    apply List.Sublist.append _ (ih fun y hy => h32 y (mem_cons_of_mem _ hy))
    unfold Found.erase
    split
    · rw [shortNames_eq_nil]
      · exact nil_sublist _
      · intro e he
        rw [mem_singleton.mp he]
        exact not_isEntry_erased (h32 x mem_cons_self)
    · exact List.Sublist.refl _

lemma Erased.shorts_sublist {st st' : Fs} {m : List Nat} {f : Found}
    (h : Erased st st' m f offs) (l : List Nat) :
    (st'.image.shorts l).Sublist (st.image.shorts l) := by
  have hslots : st'.image.slots l = (st.image.slots l).map _ := h.slots l
  rw [Image.shorts, hslots]
  apply shortNames_erase_sublist
  intro x hx
  rw [(mem_dirSlots.mp hx).2.2.2, slice_length]

end Slots

/-! ## Creating entries -/

/-- The calls that create an entry. -/
inductive NewCall where
  | write (path : CString) (data : List UInt8)
  | mkdir (path : CString)
  | rename (oldPath newPath : CString)

namespace NewCall

/-- The path of the new entry. -/
def path : NewCall → CString
  | write path _ => path
  | mkdir path => path
  | rename _ newPath => newPath

def isRename : NewCall → Bool
  | rename _ _ => true
  | _ => false

def run (st : Fs) : NewCall → Option (Bool × Fs)
  | write path data => fsWriteFile st path data
  | mkdir path => fsMkdir st path
  | rename oldPath newPath => fsRename st oldPath newPath

/-- The state after a call that has succeeded. -/
def step (st : Fs) (call : NewCall × CString) : Option Fs :=
  match call.1.run st with
  | some (true, st') => some st'
  | _ => none

lemma step_eq {st st' : Fs} {call : NewCall × CString} (h : step st call = some st') :
    call.1.run st = some (true, st') := by
  unfold step at h
  split at h
  · next hrun =>
    cases h
    exact hrun
  · cases h

/-- The call is for the entry `name` of the directory `dir`, and the entry is to be a new one. A
renamed entry comes from a directory with a chain. -/
def Enters (dir : Nat) (st : Fs) (name : CString) (call : NewCall) : Prop :=
  Leads st call.path dir name ∧
    match call with
    | write _ _ => ∃ l, st.image.ChainAt dir l ∧ lookup name [] (st.image.slots l) = none
    | mkdir _ => True
    | rename oldPath newPath =>
      oldPath ≠ newPath ∧ ∃ d oldName l, Leads st oldPath d oldName ∧ st.image.ChainAt d l

end NewCall

section Steps
variable {st st' : Fs} {dir : Nat} {l : List Nat}

/-- What a new entry `name` does to the short names of its directory, which had the clusters `l`:
it brings its own, and if `whole` nothing is taken away. -/
def Gains (name : CString) (whole : Bool) (st st' : Fs) (dir : Nat) (l : List Nat) : Prop :=
  DiskOnly st st' ∧ ∃ l', st'.image.ChainAt dir l' ∧
    (st'.image.shorts l').Subperm (newShorts name ++ st.image.shorts l) ∧
    (whole = true → (st'.image.shorts l').Perm (newShorts name ++ st.image.shorts l))

variable {name oldName path : CString} {l₁ m : List Nat} {d : Nat}

lemma Attached.gains {l' : List Nat} {attr : UInt8} {c i : Nat} {e : Slot}
    (h : Attached st st' dir l l₁ name attr c i e l') (hne : name ≠ []) (hattr : attr ≠ 0x0F)
    (he : Alike (newDirent (nameToShort name) attr) e) : Gains name true st st' dir l := by
  have hperm := h.shorts_perm hne hattr he
  exact ⟨h.disk, l₁, h.chainAt, hperm.subperm, fun _ => hperm⟩

lemma Attached.chain_kept {ld : List Nat} {attr : UInt8} {c i : Nat}
    {e : Slot} (h : Attached st st' dir ld l₁ name attr c i e []) (hm : st.image.ChainAt d m) :
    ∃ m', st'.image.ChainAt d m' := by
  have hjoin : ∀ {x}, x ∈ l₁ → ∃ m', st'.image.ChainAt x m' := by
    intro x hx
    obtain ⟨-, m', -, hm'⟩ := Chain.drop h.chainAt hx
    exact ⟨m', hm'⟩
  induction hm with
  | @last x hn hs =>
    by_cases hx : x ∈ l₁
    · exact hjoin hx
    · refine ⟨[x], .last ?_ ?_⟩
      · rw [show st'.image.vol = st.vol from h.disk.vol]
        exact hn
      · rw [show st'.image.fat x = st.fat x from h.fat x hx not_mem_nil]
        exact hs
  | @cons x m hn _ ih =>
    by_cases hx : x ∈ l₁
    · exact hjoin hx
    · obtain ⟨m', hm'⟩ := ih
      refine ⟨x :: m', .cons ?_ ?_⟩
      · rw [show st'.image.vol = st.vol from h.disk.vol]
        exact hn
      · rw [show st'.image.fat x = st.fat x from h.fat x hx not_mem_nil]
        exact hm'

variable (hr : Ready st) (hl : st.image.ChainAt dir l)
include hr hl

lemma write_gains (hm : st.vol.mounted = true) (hlead : Leads st path dir name)
    (hlen : name.length < 64) (hnone : lookup name [] (st.image.slots l) = none) {data : List UInt8}
    (h : fsWriteFile st path data = some (true, st')) : Gains name true st st' dir l := by
  have hnew := write_new hr hm hlead hlen hl hnone data false
  rw [← fsWriteFile, h] at hnew
  cases hnew with
  | written hat => exact hat.gains hlead.ne_nil (by decide) (newSlot_alike _ _ _ _)

lemma mkdir_gains (hm : st.vol.mounted = true) (hlead : Leads st path dir name)
    (hlen : name.length < 64) (h : fsMkdir st path = some (true, st')) :
    Gains name true st st' dir l := by
  cases hlook : lookup name [] (st.image.slots l) with
  | some f =>
    obtain ⟨st1, hrun, -⟩ := mkdir_found hr hm hlead hl hlook
    cases h.symm.trans hrun
  | none =>
    have hnew := mkdir_new hr hm hlead hlen hl hlook
    rw [h] at hnew
    cases hnew with
    | made hat => exact hat.gains hlead.ne_nil (by decide) (newSlot_alike _ _ _ _)

lemma renameFound_gains (hd : st.image.ChainAt d m)
    (hne : name ≠ []) (hlen : name.length < 64) {f : Found} (hent : IsEntry f.ent)
    (h : renameFound st d oldName dir name f = some (true, st')) : Gains name false st st' dir l := by
  unfold renameFound at h
  split at h
  · cases h
  have hcreate := fatCreateEntry_ok hr hl (direntAttr f.ent) hlen
  generalize fatCreateEntry st dir name (direntAttr f.ent) = r at hcreate h
  cases hcreate with
  | full hq => cases h
  | @created st1 st2 l₁ c i hgrown hplaced =>
    obtain ⟨st3, hupd, hat⟩ := fatUpdateDirent_attached hr hgrown hplaced (direntFirstCluster f.ent)
      (direntFileSize f.ent)
    dsimp only at h
    rw [newSlot] at hupd
    rw [hupd] at h
    obtain ⟨m', hm'⟩ := hat.chain_kept hd
    have hperm := hat.shorts_perm hne hent.2.2 (newSlot_alike _ _ _ _)
    rcases fatDeleteEntry_cases (hat.disk.ready hr) hm' oldName with
      ⟨st4, hdel, -⟩ | ⟨st4, g, offs, hdel, -, her⟩
    · cases h.symm.trans hdel
    · cases h.symm.trans hdel
      refine ⟨hat.disk.trans her.disk, l₁, ?_, ?_, fun hf => absurd hf Bool.false_ne_true⟩
      · rw [Image.ChainAt, show st'.image.fat = st3.fat from her.fat,
          show st'.image.vol = st3.vol from her.disk.vol]
        exact hat.chainAt
      · exact (her.shorts_sublist l₁).subperm.trans hperm.subperm

omit hr hl in
lemma Gains.of_quiet {st1 : Fs} (hq : Quiet st st1) {whole : Bool}
    (h : Gains name whole st1 st' dir l) : Gains name whole st st' dir l := by
  obtain ⟨hdisk, l', hl', hsub, hperm⟩ := h
  rw [hq.image] at hsub hperm
  exact ⟨hq.diskOnly.trans hdisk, l', hl', hsub, hperm⟩

lemma rename_gains (hm : st.vol.mounted = true) {oldPath newPath : CString} (hne : oldPath ≠ newPath)
    (hold : Leads st oldPath d oldName)
    (hd : st.image.ChainAt d m) (hlead : Leads st newPath dir name) (hlen : name.length < 64)
    (h : fsRename st oldPath newPath = some (true, st')) : Gains name false st st' dir l := by
  obtain ⟨st1, st2, -, hq, hrun⟩ := fsRename_leads hr hm hne hold hlead hd hl
  rw [h] at hrun
  cases hnew : lookup name [] (st.image.slots l) with
  | some g =>
    rw [hnew] at hrun
    cases hrun
  | none =>
    rw [hnew] at hrun
    cases hfind : lookup oldName [] (st.image.slots m) with
    | none =>
      rw [hfind] at hrun
      cases hrun
    | some f =>
      rw [hfind] at hrun
      have hl2 : st2.image.ChainAt dir l := by
        rw [hq.image]
        exact hl
      have hd2 : st2.image.ChainAt d m := by
        rw [hq.image]
        exact hd
      exact (renameFound_gains (hq.ready hr) hl2 hd2 hlead.ne_nil hlen (lookup_some hfind).2
        hrun.symm).of_quiet hq

lemma NewCall.step_gains (hm : st.vol.mounted = true) (hstack : st.stackName.length < 64)
    {call : NewCall × CString} (hin : call.1.Enters dir st call.2) (h : step st call = some st') :
    Gains call.2 (!call.1.isRename) st st' dir l := by
  obtain ⟨c, name⟩ := call
  obtain ⟨hlead, hnew⟩ := hin
  have hlen := hlead.length hstack
  have hrun := step_eq h
  cases c with
  | write path data =>
    obtain ⟨l0, hl0, hnone⟩ := hnew
    rw [FatChain.unique hr.geometry hl0 hl] at hnone
    exact write_gains hr hl hm hlead hlen hnone hrun
  | mkdir path => exact mkdir_gains hr hl hm hlead hlen hrun
  | rename oldPath newPath =>
    obtain ⟨hne, d, oldName, m, hold, hd⟩ := hnew
    exact rename_gains hr hl hm hne hold hd hlead hlen hrun

end Steps

variable {name : CString}

lemma run_gains {st st' : Fs} {dir : Nat} {l : List Nat} {calls : List (NewCall × CString)}
    (hrun : Run NewCall.step st calls st') (hr : Ready st) (hm : st.vol.mounted = true)
    (hstack : st.stackName.length < 64) (hl : st.image.ChainAt dir l)
    (hin : Along NewCall.step (fun st call => call.1.Enters dir st call.2) st calls) :
    ∃ l', st'.vol = st.vol ∧ st'.image.ChainAt dir l' ∧
      (st'.image.shorts l').Subperm ((calls.map Prod.snd).flatMap newShorts ++ st.image.shorts l) ∧
      ((∀ call ∈ calls, call.1.isRename = false) →
        (st'.image.shorts l').Perm ((calls.map Prod.snd).flatMap newShorts ++ st.image.shorts l)) := by
  induction hrun generalizing l with
  | nil => exact ⟨l, rfl, hl, List.Subperm.refl _, fun _ => List.Perm.refl _⟩
  | @cons st st1 st' call calls hstep _ ih =>
    obtain ⟨hdisk, l₁, hl1, hsub1, hperm1⟩ := NewCall.step_gains hr hl hm hstack hin.1 hstep
    obtain ⟨b, n, k, rfl⟩ := hdisk
    obtain ⟨l', hvol, hl', hsub, hperm⟩ := ih ⟨hr.geometry, hr.io⟩ hm hstack hl1 (hin.2 _ hstep)
    -- the names of the later calls and that of this one, in the order of the sequence
    have hswap : ((calls.map Prod.snd).flatMap newShorts ++ (newShorts call.2 ++ st.image.shorts l)).Perm
        (((call :: calls).map Prod.snd).flatMap newShorts ++ st.image.shorts l) := by
      rw [map_cons, flatMap_cons, ← append_assoc]
      exact perm_append_comm.append_right _
    refine ⟨l', hvol, hl', ?_, ?_⟩
    · exact (hsub.trans ((List.Subperm.refl _).append hsub1)).trans hswap.subperm
    · intro hno
      have hfirst : (!call.1.isRename) = true := by
        rw [hno call mem_cons_self]
        rfl
      exact ((hperm fun c hc => hno c (mem_cons_of_mem _ hc)).trans
        ((hperm1 hfirst).append_left _)).trans hswap

/-! ## When they are different -/

lemma nameEquals_of_short {a b : CString} (ha : needsLfn a = false) (hb : needsLfn b = false)
    (h : nameToShort a = nameToShort b) : nameEquals a b = true := by
  have ha' : nameEquals (shortToName (nameToShort a)) a = true := by simpa [needsLfn] using ha
  have hb' : nameEquals (shortToName (nameToShort b)) b = true := by simpa [needsLfn] using hb
  rw [h] at ha'
  exact nameEquals_trans (nameEquals_symm ha') hb'

lemma mem_newShorts {x : List UInt8} (h : x ∈ newShorts name) :
    x = nameToShort name ∧ InUse (nameToShort name) := by
  unfold newShorts at h
  split at h
  · next hin =>
    split at h
    · exact ⟨by simpa using h, hin⟩
    · exact ⟨mem_singleton.mp h, hin⟩
  · cases h

/-- The short names `used` are different, and the new names that do not count as deleted are 8.3
names whose short names are not among them. -/
def ShortsFit (used : List (List UInt8)) (names : List CString) : Prop :=
  used.Nodup ∧
    ∀ name ∈ names, InUse (nameToShort name) → needsLfn name = false ∧ nameToShort name ∉ used

instance (used : List (List UInt8)) (names : List CString) : Decidable (ShortsFit used names) :=
  inferInstanceAs (Decidable (_ ∧ _))

lemma newShorts_nodup_iff {names : List CString} {used : List (List UInt8)}
    (hnames : names.Pairwise fun a b => nameEquals a b = false) :
    (names.flatMap newShorts ++ used).Nodup ↔ ShortsFit used names := by
  induction names with
  | nil => exact ⟨fun h => ⟨h, fun _ hn => by cases hn⟩, And.left⟩
  | cons name names ih =>
    obtain ⟨hother, hnames⟩ := pairwise_cons.mp hnames
    rw [flatMap_cons, append_assoc, nodup_append, ih hnames]
    constructor
    · rintro ⟨hnew, hfit, hdisj⟩
      refine ⟨hfit.1, forall_mem_cons.mpr ⟨fun hin => ?_, hfit.2⟩⟩
      rw [newShorts, if_pos hin] at hnew hdisj
      cases hlong : needsLfn name with
      | true =>
        rw [hlong, if_pos rfl] at hnew
        exact absurd hnew (by simp)
      | false =>
        rw [hlong, if_neg Bool.false_ne_true] at hdisj
        exact ⟨rfl, fun hused => hdisj _ mem_cons_self _ (mem_append_right _ hused) rfl⟩
    · rintro ⟨hused, hfit⟩
      obtain ⟨hname, hfit⟩ := forall_mem_cons.mp hfit
      refine ⟨?_, ⟨hused, hfit⟩, ?_⟩
      · unfold newShorts
        split
        · next hin =>
          rw [(hname hin).1]
          exact nodup_singleton _
        · exact nodup_nil
      · rintro x hx y hy rfl
        obtain ⟨rfl, hin⟩ := mem_newShorts hx
        rcases mem_append.mp hy with hy | hy
        · obtain ⟨b, hb, hxb⟩ := mem_flatMap.mp hy
          obtain ⟨hshort, hin'⟩ := mem_newShorts hxb
          have heq := nameEquals_of_short (hname hin).1 (hfit b hb hin').1 hshort
          rw [hother b hb] at heq
          cases heq
        · exact (hname hin).2 hy

/-- The short names in the directory `dir` are different. -/
def ShortsDistinct (st : Fs) (dir : Nat) : Prop :=
  ∃ l, st.image.ChainAt dir l ∧ (st.image.shorts l).Nodup

section Runs
variable {st st' : Fs} {dir : Nat} {l : List Nat} {calls : List (NewCall × CString)} (hr : Ready st)
  (hm : st.vol.mounted = true) (hstack : st.stackName.length < 64) (hl : st.image.ChainAt dir l)
  (hrun : Run NewCall.step st calls st')
  (hin : Along NewCall.step (fun st call => call.1.Enters dir st call.2) st calls)
  (hnames : (calls.map Prod.snd).Pairwise fun a b => nameEquals a b = false)
include hr hm hstack hl hrun hin hnames

lemma run_distinct (hfit : ShortsFit (st.image.shorts l) (calls.map Prod.snd)) :
    ShortsDistinct st' dir := by
  obtain ⟨l', -, hl', ⟨xs, hxs, hsub⟩, -⟩ := run_gains hrun hr hm hstack hl hin
  have hnd := hsub.nodup ((newShorts_nodup_iff hnames).mpr hfit)
  exact ⟨l', hl', hxs.nodup_iff.mp hnd⟩

lemma shortsFit_of_distinct (hno : ∀ call ∈ calls, call.1.isRename = false)
    (h : ShortsDistinct st' dir) : ShortsFit (st.image.shorts l) (calls.map Prod.snd) := by
  obtain ⟨l', hvol, hl', -, hperm⟩ := run_gains hrun hr hm hstack hl hin
  obtain ⟨l'', hl'', hnd⟩ := h
  have hg : Geometry st'.vol := by
    rw [hvol]
    exact hr.geometry
  rw [FatChain.unique hg hl'' hl', (hperm hno).nodup_iff] at hnd
  exact (newShorts_nodup_iff hnames).mp hnd

end Runs

/-- After a sequence of calls that have created entries in a directory, under names that differ by more
than case, its short names are different if they were and the names are 8.3 names whose short names
were free; without renames only then. -/
theorem short_names_distinct_iff (st st' : Fs) (hr : Ready st) (hm : st.vol.mounted = true)
    (hstack : st.stackName.length < 64) (dir : Nat) (l : List Nat) (hl : st.image.ChainAt dir l)
    (calls : List (NewCall × CString)) (hrun : Run NewCall.step st calls st')
    (hin : Along NewCall.step (fun st call => call.1.Enters dir st call.2) st calls)
    (hnames : (calls.map Prod.snd).Pairwise fun a b => nameEquals a b = false) :
    (ShortsFit (st.image.shorts l) (calls.map Prod.snd) → ShortsDistinct st' dir) ∧
      ((∀ call ∈ calls, call.1.isRename = false) →
        (ShortsDistinct st' dir ↔ ShortsFit (st.image.shorts l) (calls.map Prod.snd))) := by
  have hfits := run_distinct hr hm hstack hl hrun hin hnames
  exact ⟨hfits, fun hno => ⟨shortsFit_of_distinct hr hm hstack hl hrun hin hnames hno, hfits⟩⟩

/-! ## On the volume with one file -/

lemma oneFile_root : oneFile.image.ChainAt 2 [2] := by decide +kernel

lemma oneFile_leads {st : Fs} (hvol : st.vol = oneFile.vol) (hne : name ≠ [])
    (hrest : pathRest name = []) (hcomp : (pathComp name).take 63 = name) :
    Leads st (0x2F :: name) 2 name := by
  have hroot : st.image.vol.rootCluster = 2 := by
    rw [show st.image.vol = oneFile.vol from hvol]
    rfl
  refine .inl ⟨cons_ne_nil _ _, hne, ?_⟩
  rw [hroot]
  have hres : st.image.Resolves 2 name 2 ((pathComp name).take 63) := .leaf hne hrest
  rwa [hcomp] at hres

lemma oneFile_along {call : NewCall} {other : CString} (hnew : call.Enters 2 oneFile name)
    (hne : other ≠ []) (hrest : pathRest other = []) (hcomp : (pathComp other).take 63 = other) :
    Along NewCall.step (fun st call => call.1.Enters 2 st call.2) oneFile
      [(call, name), (.mkdir (0x2F :: other), other)] := by
  refine ⟨hnew, fun t ht => ⟨⟨?_, trivial⟩, fun _ _ => trivial⟩⟩
  have hgains := NewCall.step_gains oneFile_wellFormed.ready oneFile_root rfl (by decide) hnew ht
  exact oneFile_leads hgains.1.vol hne hrest hcomp

theorem short_names_distinct_oneFile :
    ∃ st', Run NewCall.step oneFile [(.write [0x2F, 98] [9], [98]), (.mkdir [0x2F, 99], [99])] st' ∧
      ShortsDistinct st' 2 := by
  have hok : (exec NewCall.step oneFile
      [(.write [0x2F, 98] [9], [98]), (.mkdir [0x2F, 99], [99])]).isSome = true := by decide +kernel
  obtain ⟨st', hexec⟩ := Option.isSome_iff_exists.mp hok
  have hrun := Run.of_exec hexec
  have hnew : NewCall.Enters 2 oneFile [98] (.write [0x2F, 98] [9]) :=
    ⟨oneFile_leads rfl (by decide) (by decide) (by decide), [2], oneFile_root, by decide +kernel⟩
  have hdistinct := short_names_distinct_iff oneFile st' oneFile_wellFormed.ready rfl (by decide) 2 [2]
    oneFile_root _ hrun (oneFile_along hnew (by decide) (by decide) (by decide)) (by decide)
  exact ⟨st', hrun, hdistinct.1 (by decide +kernel)⟩

/-- The names `abcdefghi` and `abcdefghj`, which differ behind their first eight bytes. -/
def nineLetters (last : UInt8) : CString := [97, 98, 99, 100, 101, 102, 103, 104, last]

def nineCalls : List (NewCall × CString) :=
  [(.mkdir (0x2F :: nineLetters 105), nineLetters 105), (.mkdir (0x2F :: nineLetters 106), nineLetters 106)]

/-- Two new directories whose names differ get the same short name. -/
theorem not_short_names_distinct_nine :
    oneFile.image.ChainAt 2 [2] ∧ (oneFile.image.shorts [2]).Nodup ∧
      Along NewCall.step (fun st call => call.1.Enters 2 st call.2) oneFile nineCalls ∧
      (nineCalls.map Prod.snd).Pairwise (fun a b => nameEquals a b = false) ∧
      ∃ st', Run NewCall.step oneFile nineCalls st' ∧ ¬ ShortsDistinct st' 2 := by
  have hok : (exec NewCall.step oneFile nineCalls).isSome = true := by decide +kernel
  obtain ⟨st', hexec⟩ := Option.isSome_iff_exists.mp hok
  have hrun := Run.of_exec hexec
  have hnew : NewCall.Enters 2 oneFile (nineLetters 105) (.mkdir (0x2F :: nineLetters 105)) :=
    ⟨oneFile_leads rfl (by decide) (by decide) (by decide), trivial⟩
  have hin : Along NewCall.step (fun st call => call.1.Enters 2 st call.2) oneFile nineCalls :=
    oneFile_along hnew (by decide) (by decide) (by decide)
  refine ⟨oneFile_root, by decide +kernel, hin, by decide, st', hrun, fun h => ?_⟩
  have hfit := shortsFit_of_distinct oneFile_wellFormed.ready rfl (by decide) oneFile_root hrun hin
    (by decide) (by decide) h
  revert hfit
  decide +kernel

end FusionOS.Fat
