import FusionOS.Fat.Grows
import FusionOS.Fat.Keep

/-!
# Files in a fresh directory

`fs_mkdir` writes `.` and `..` to the start of every sector of the new cluster. The copies in the
later sectors are hidden behind the free slots of the first sector, until it is full.
-/

namespace FusionOS.Fat

open List

/-! ## Creating a file with an 8.3 name -/

/-- The calls that create a file in a directory. -/
inductive FileCall where
  | entry (name : CString) (attr : UInt8)
  | write (name : CString) (data : List UInt8) (append : Bool)

namespace FileCall

def name : FileCall → CString
  | entry name _ => name
  | write name _ _ => name

/-- The state after a call in the directory `dir` that has created a file. -/
def step (dir : Nat) (st : Fs) : FileCall → Option Fs
  | entry name attr =>
    match fatCreateEntry st dir name attr with
    | some (some _, st) => some st
    | _ => none
  | write name data append =>
    match fatFindEntry st dir name, fatWriteFile st dir name data append with
    | some (none, _), some (true, st) => some st
    | _, _ => none

/-- The call is for an 8.3 name, and not for a label. -/
def Short : FileCall → Prop
  | entry name attr => needsLfn name = false ∧ attr &&& 0x08 = 0
  | write name _ _ => needsLfn name = false

instance (c : FileCall) : Decidable c.Short := by
  cases c
  · exact inferInstanceAs (Decidable (_ ∧ _))
  · exact inferInstanceAs (Decidable (_ = _))

lemma Short.needsLfn {c : FileCall} (h : c.Short) : Fat.needsLfn c.name = false := by
  cases c with
  | entry name attr => exact h.1
  | write name data append => exact h

end FileCall

/-- The slots `fs` of a directory, with zeros behind them perhaps, have got the entry `name` in the
first free one. -/
def AddsEntry (name : CString) (fs fs' : List Found) : Prop :=
  ∃ zs pre x y post attr, (∀ z ∈ zs, z.ent.getD 0 0 = 0) ∧ fs ++ zs = pre ++ x :: post ∧
    (∀ w ∈ pre, InUse w.ent) ∧ ¬ InUse x.ent ∧ fs' = pre ++ y :: post ∧ attr &&& 0x08 = 0 ∧
    Alike (newDirent (nameToShort name) attr) y.ent

lemma short_length {name : CString} (h : needsLfn name = false) : name.length < 64 := by
  have heq : nameEquals (shortToName (nameToShort name)) name = true := by simpa [needsLfn] using h
  rw [← nameEquals_length heq]
  exact Nat.lt_of_le_of_lt (shortToName_length _) (by decide)

/-- The directory `dir` has the clusters `l`. -/
structure DirOf (st : Fs) (dir : Nat) (l : List Nat) : Prop where
  ready : Ready st
  chain : FatChain st.vol st.fat dir l

section Steps
variable {st st' : Fs} {dir : Nat} {l : List Nat} {name : CString}

lemma Attached.adds {l1 l' : List Nat} {attr : UInt8} {c i : Nat} {e : Slot}
    (h : Attached st st' dir l l1 name attr c i e l') (hshort : needsLfn name = false)
    (hattr : attr &&& 0x08 = 0) (he : Alike (newDirent (nameToShort name) attr) e) :
    AddsEntry name (dirSlots st.vol st.data l) (dirSlots st'.vol st'.data l1) := by
  have hcount : lfnCount name = 0 := if_neg (by rw [hshort]; decide)
  obtain ⟨pre, run, post, zs, heq, hzero, hslots, hlen, hfree, hpre⟩ := h.slots
  rw [hcount] at hlen
  obtain ⟨x, rfl⟩ := length_eq_one_iff.mp hlen
  rw [append_assoc, singleton_append] at heq
  rw [placed_short hshort, append_assoc, singleton_append] at hslots
  refine ⟨zs, pre, x, ⟨e, c, 32 * i⟩, post, attr, hzero, heq, hpre hcount, hfree x mem_cons_self, ?_,
    hattr, he⟩
  rw [h.disk.vol, hslots]

lemma Placed.adds {st₁ : Fs} {l1 : List Nat} {attr : UInt8} {c i : Nat}
    (hg : Grown st st₁ dir l l1) (h : Placed st₁ st' l1 name attr c i) (hshort : needsLfn name = false)
    (hattr : attr &&& 0x08 = 0) :
    AddsEntry name (dirSlots st.vol st.data l) (dirSlots st'.vol st'.data l1) := by
  have hcount : lfnCount name = 0 := if_neg (by rw [hshort]; decide)
  have hslot : entrySlots name attr = [newDirent (nameToShort name) attr] := by
    rw [entrySlots, hcount]
    rfl
  obtain ⟨pre, run, post, heq, hslots, hlen, hfree, hpre⟩ := h.split
  obtain ⟨zs, hzs, hzero⟩ := hg.slots
  rw [hcount] at hlen
  obtain ⟨x, rfl⟩ := length_eq_one_iff.mp hlen
  have hafter := hslots (entrySlots name attr) entrySlots_slot entrySlots_length
  rw [hg.disk.vol, hzs, append_assoc, singleton_append] at heq
  refine ⟨zs, pre, x, ⟨newDirent (nameToShort name) attr, c, 32 * (i + 0)⟩, post, attr, hzero, heq,
    hpre hcount, hfree x mem_cons_self, ?_, hattr, rfl⟩
  rw [h.disk.vol, h.data, hafter, hslot, append_assoc]
  rfl

lemma FileCall.step_adds {call : FileCall} (hshort : call.Short) (hdir : DirOf st dir l)
    (h : call.step dir st = some st') :
    st'.vol = st.vol ∧ ∃ l', DirOf st' dir l' ∧
      AddsEntry call.name (dirSlots st.vol st.data l) (dirSlots st'.vol st'.data l') := by
  cases call with
  | entry name attr =>
    have hcreate := fatCreateEntry_ok hdir.ready hdir.chain attr (short_length hshort.1)
    rw [step] at h
    generalize fatCreateEntry st dir name attr = r at h hcreate
    cases hcreate with
    | full hq => cases h
    | @created st₁ st2 l1 c i hgrown hplaced =>
      cases h
      have hdisk := hgrown.disk.trans hplaced.disk
      refine ⟨hdisk.vol, l1, ⟨hdisk.ready hdir.ready, ?_⟩, Placed.adds hgrown hplaced hshort.1 hshort.2⟩
      rw [hdisk.vol, hplaced.fat]
      exact hgrown.chain
  | write name data append =>
    obtain ⟨st0, hfind, -⟩ := fatFindEntry_ok hdir.ready hdir.chain name
    rw [step, hfind] at h
    cases hlook : lookup name [] (dirSlots st.vol st.data l) with
    | some f =>
      rw [hlook] at h
      cases h
    | none =>
      rw [hlook] at h
      have hnew := fatWriteFile_new hdir.ready hdir.chain (short_length hshort) hlook data append
      generalize fatWriteFile st dir name data append = r at h hnew
      cases hnew with
      | full hq => cases h
      | stranded _ _ => cases h
      | @written st₁ l1 l' c i first size hat hch hlt hbytes =>
        cases h
        refine ⟨hat.disk.vol, l1, ⟨hat.disk.ready hdir.ready, ?_⟩,
          hat.adds hshort (by decide) (newSlot_alike name 0x20 first size)⟩
        rw [hat.disk.vol]
        exact hat.chain

lemma run_adds (Ok : CString → Prop) (P : List CString → List Found → Prop) (names : List CString)
    (hstep : ∀ {names n fs fs'}, Ok n → P names fs → AddsEntry n fs fs' → P (names ++ [n]) fs')
    {calls : List FileCall} (hrun : Run (FileCall.step dir) st calls st')
    (hshort : ∀ c ∈ calls, c.Short) (hok : ∀ c ∈ calls, Ok c.name) (hdir : DirOf st dir l)
    (h : P names (dirSlots st.vol st.data l)) :
    ∃ l', DirOf st' dir l' ∧ P (names ++ calls.map FileCall.name) (dirSlots st'.vol st'.data l') := by
  induction hrun generalizing names l with
  | nil s => exact ⟨l, hdir, by rw [map_nil, append_nil]; exact h⟩
  | @cons s t u call calls hcall _ ih =>
    obtain ⟨-, l1, hdir1, hadds⟩ := FileCall.step_adds (hshort call mem_cons_self) hdir hcall
    have hnext := hstep (hok call mem_cons_self) h hadds
    obtain ⟨l', hdir', hP⟩ := ih _ (fun c hc => hshort c (mem_cons_of_mem _ hc))
      (fun c hc => hok c (mem_cons_of_mem _ hc)) hdir1 hnext
    rw [append_assoc, singleton_append] at hP
    exact ⟨l', hdir', hP⟩

end Steps

/-! ## The slots in use -/

def lowered (name : CString) : CString := name.map toLower

/-- The slots `fs` are entries, which are listed under `names`. -/
def Enters (fs : List Found) (names : List CString) : Prop :=
  (∀ x ∈ fs, IsEntry x.ent ∧ direntAttr x.ent &&& 0x08 = 0) ∧
    fs.map (fun x => lowered (shortToName x.ent)) = names.map lowered

section Lists
variable {name : CString} {names : List CString} {fs fs' U F : List Found}

lemma Enters.inUse (h : Enters U names) : ∀ x ∈ U, InUse x.ent := by
  intro x hx
  obtain ⟨⟨h0, h5, -⟩, -⟩ := h.1 x hx
  exact ⟨h0, h5⟩

lemma Enters.listing (h : Enters U names) (F : List Found) :
    ∃ es : List FsEntry, Fat.listing [] (U ++ F) = es ++ Fat.listing [] F ∧
      es.map (fun e => lowered e.name) = names.map lowered := by
  refine ⟨U.map fun x => ⟨shortToName x.ent, le32At x.ent 28, direntIsDir x.ent⟩, ?_, ?_⟩
  · rw [listing_entries, listing_entries]
    have hall := h.1
    clear h
    induction U with
    | nil => rfl
    | cons x U ih =>
      obtain ⟨hent, hlabel⟩ := hall x mem_cons_self
      rw [cons_append, entries_entry hent, filterMap_cons, listedAs, hlabel,
        ih fun y hy => hall y (mem_cons_of_mem _ hy)]
      rfl
  · rw [map_map]
    exact h.2

lemma Enters.snoc (h : Enters U names) (hname : Plain name) {y : Found} {attr : UInt8}
    (hattr : attr &&& 0x08 = 0) (hy : Alike (newDirent (nameToShort name) attr) y.ent) :
    Enters (U ++ [y]) (names ++ [name]) := by
  have hlfn : attr ≠ 0x0F := by
    rintro rfl
    cases hattr
  obtain ⟨hentry, hequal⟩ := hname.isEntry hlfn hy
  constructor
  · intro x hx
    rcases mem_append.mp hx with hx | hx
    · exact h.1 x hx
    · rw [mem_singleton.mp hx]
      refine ⟨hentry, ?_⟩
      rw [hy.attr, newDirent_attr]
      exact hattr
  · have hsame : lowered (shortToName y.ent) = lowered name := nameEquals_iff.mp hequal
    rw [map_append, map_append, h.2, map_singleton, map_singleton, hsame]

lemma AddsEntry.front (h : AddsEntry name (U ++ F) fs') (hU : ∀ x ∈ U, InUse x.ent) :
    ∃ zs pre x y post attr, (∀ z ∈ zs, z.ent.getD 0 0 = 0) ∧ F ++ zs = pre ++ x :: post ∧
      (∀ w ∈ pre, InUse w.ent) ∧ ¬ InUse x.ent ∧ fs' = U ++ (pre ++ y :: post) ∧ attr &&& 0x08 = 0 ∧
      Alike (newDirent (nameToShort name) attr) y.ent := by
  obtain ⟨zs, pre, x, y, post, attr, hzero, heq, hpre, hx, rfl, hattr, hy⟩ := h
  rw [append_assoc] at heq
  rcases append_eq_append_iff.mp heq with ⟨pre', rfl, htail⟩ | ⟨mid, rfl, htail⟩
  · refine ⟨zs, pre', x, y, post, attr, hzero, htail, ?_, hx, append_assoc _ _ _, hattr, hy⟩
    exact fun w hw => hpre w (mem_append_right _ hw)
  · -- the free slot would be one of those in use
    cases mid with
    | nil =>
      have hnone : ∀ w ∈ ([] : List Found), InUse w.ent := fun w hw => absurd hw not_mem_nil
      refine ⟨zs, [], x, y, post, attr, hzero, htail.symm, hnone, hx, ?_, hattr, hy⟩
      rw [append_nil]
      rfl
    | cons w mid =>
      obtain ⟨rfl, -⟩ := List.cons.inj htail
      exact absurd (hU x (mem_append_right _ mem_cons_self)) hx

lemma AddsEntry.first (h : AddsEntry name (U ++ F) fs') (hU : Enters U names) (hname : Plain name)
    (hF : ∀ x ∈ F.head?, ¬ InUse x.ent) :
    ∃ zs x y post, (∀ z ∈ zs, z.ent.getD 0 0 = 0) ∧ F ++ zs = x :: post ∧ fs' = (U ++ [y]) ++ post ∧
      Enters (U ++ [y]) (names ++ [name]) := by
  obtain ⟨zs, pre, x, y, post, attr, hzero, heq, hpre, hx, rfl, hattr, hy⟩ := h.front hU.inUse
  obtain rfl : pre = [] := by
    cases pre with
    | nil => rfl
    | cons w pre =>
      have hw := hpre w mem_cons_self
      cases F with
      | nil =>
        rw [nil_append] at heq
        exact absurd (hzero w (heq ▸ mem_cons_self)) hw.1
      | cons z F =>
        obtain ⟨rfl, -⟩ := List.cons.inj heq
        exact absurd hw (hF z rfl)
  refine ⟨zs, x, y, post, hzero, heq, ?_, hU.snoc hname hattr hy⟩
  rw [append_assoc]
  rfl

/-- Behind the entries `names` there are only slots that were never used. -/
def Tailed (names : List CString) (fs : List Found) : Prop :=
  ∃ U F, fs = U ++ F ∧ Enters U names ∧ ∀ z ∈ F, z.ent.getD 0 0 = 0

lemma Tailed.adds (hname : Plain name) (h : Tailed names fs) (hadds : AddsEntry name fs fs') :
    Tailed (names ++ [name]) fs' := by
  obtain ⟨U, F, rfl, hU, hF⟩ := h
  have hhead : ∀ x ∈ F.head?, ¬ InUse x.ent := fun x hx huse => huse.1 (hF x (mem_of_head? hx))
  obtain ⟨zs, x, y, post, hzero, heq, rfl, henters⟩ := hadds.first hU hname hhead
  refine ⟨U ++ [y], post, rfl, henters, fun z hz => ?_⟩
  rcases mem_append.mp (heq ▸ mem_cons_of_mem x hz : z ∈ F ++ zs) with hz | hz
  · exact hF z hz
  · exact hzero z hz

/-- The first sector holds the first of the entries `names`, and then slots that were never used; the
sector behind it begins with `.` once more. -/
def Doubled (names : List CString) (fs : List Found) : Prop :=
  ∃ U Z x R, fs = U ++ (Z ++ x :: R) ∧ Enters U (names.take 16) ∧ (∀ z ∈ Z, z.ent.getD 0 0 = 0) ∧
    Z.length + (names.take 16).length = 16 ∧ Enters [x] [dotName]

lemma Doubled.adds (hname : Plain name) (h : Doubled names fs) (hadds : AddsEntry name fs fs') :
    Doubled (names ++ [name]) fs' := by
  obtain ⟨U, Z, x, R, rfl, hU, hZ, hlen, hx⟩ := h
  rw [length_take] at hlen
  cases Z with
  | nil =>
    -- the sector is full
    have hfull : 16 ≤ names.length := by
      rw [length_nil] at hlen
      omega
    have hUx : ∀ w ∈ U ++ [x], InUse w.ent := by
      intro w hw
      rcases mem_append.mp hw with hw | hw
      · exact hU.inUse w hw
      · exact hx.inUse w hw
    rw [nil_append, ← singleton_append, ← append_assoc] at hadds
    obtain ⟨zs, pre, z, y, post, attr, -, -, -, -, rfl, -, -⟩ := hadds.front hUx
    have htake : (names ++ [name]).take 16 = names.take 16 := take_append_of_le_length hfull
    refine ⟨U, [], x, pre ++ y :: post, ?_, ?_, hZ, ?_, hx⟩
    · rw [append_assoc]
      rfl
    · rw [htake]
      exact hU
    · rw [htake, length_take]
      exact hlen
  | cons z Z =>
    have hroom : names.length < 16 := by
      rw [length_cons] at hlen
      omega
    have hhead : ∀ w ∈ (z :: Z ++ x :: R).head?, ¬ InUse w.ent := by
      intro w hw huse
      cases hw
      exact huse.1 (hZ z mem_cons_self)
    obtain ⟨zs, w, y, post, -, heq, rfl, henters⟩ := hadds.first hU hname hhead
    rw [take_of_length_le (by omega)] at henters
    have htake : (names ++ [name]).take 16 = names ++ [name] := by
      apply take_of_length_le
      rw [length_append, length_singleton]
      omega
    refine ⟨U ++ [y], Z, x, R ++ zs, ?_, ?_, fun v hv => hZ v (mem_cons_of_mem _ hv), ?_, hx⟩
    · have hpost : Z ++ x :: R ++ zs = post := (List.cons.inj heq).2
      rw [← hpost, append_assoc Z, cons_append]
    · rw [htake]
      exact henters
    · rw [htake, length_append, length_singleton]
      rw [length_cons] at hlen
      omega

lemma AddsEntry.no_lfn (hadds : AddsEntry name fs fs') (h : ∀ x ∈ fs, ¬ IsLfn x.ent) :
    ∀ x ∈ fs', ¬ IsLfn x.ent := by
  obtain ⟨zs, pre, x, y, post, attr, hzero, heq, -, -, rfl, hattr, hy⟩ := hadds
  have hold : ∀ w ∈ pre ++ x :: post, ¬ IsLfn w.ent := by
    intro w hw hlfn
    rw [← heq] at hw
    rcases mem_append.mp hw with hw | hw
    · exact h w hw hlfn
    · exact hlfn.1.1 (hzero w hw)
  intro w hw
  rcases mem_append.mp hw with hw | hw
  · exact hold w (mem_append_left _ hw)
  rcases mem_cons.mp hw with rfl | hw
  · intro hlfn
    have hbits := hlfn.2
    rw [hy.attr, newDirent_attr] at hbits
    rw [hbits] at hattr
    cases hattr
  · exact hold w (mem_append_right _ (mem_cons_of_mem _ hw))

end Lists

/-! ## What is listed -/

section Names
variable {name : CString} {names : List CString} {fs : List Found}

lemma short_ne_dot (h : needsLfn name = false) : lowered name ≠ lowered dotName := by
  intro heq
  obtain ⟨b, rfl⟩ : ∃ b, name = [b] := by
    apply length_eq_one_iff.mp
    have := congrArg List.length heq
    rwa [lowered, lowered, length_map, length_map] at this
  obtain rfl : b = 0x2E := toLower_eq (.inl (by decide)) (List.cons.inj heq).1
  revert h
  decide

lemma shortToName_head {short : List UInt8} (h : (shortToName short).head? = some 0xE5) :
    short.getD 0 0 = 0xE5 := by
  cases short with
  | nil => cases h
  | cons b short =>
    unfold shortToName cstr at h
    dsimp only at h
    by_cases hb : b = 0x20
    · -- the base is empty, and the name is its extension
      subst hb
      rw [take_succ_cons, takeWhile_cons_of_neg (by decide), nil_append] at h
      split at h <;> cases h
    · rw [take_succ_cons, takeWhile_cons_of_pos (by simpa using hb), cons_append,
        takeWhile_cons] at h
      split at h
      · exact Option.some.inj h
      · cases h

lemma head_of_not_plain (h : needsLfn name = false) (hno : ¬ Plain name) :
    (lowered name).head? = some 0xE5 := by
  have hfirst : (nameToShort name).getD 0 0 = 0xE5 := by
    by_contra hne
    exact hno ⟨h, hne⟩
  rw [nameToShort_first] at hfirst
  cases name with
  | nil => cases hfirst
  | cons b name =>
    by_cases hb : b = 0x2E
    · subst hb
      cases hfirst
    · have hbase : shortBase (b :: name) = b :: (name.takeWhile (· != 0x2E)).take 7 := by
        rw [shortBase, takeWhile_cons_of_pos (by simpa using hb), take_succ_cons]
      rw [hbase] at hfirst
      obtain rfl : b = 0xE5 := toUpper_eq (.inr (by decide)) hfirst
      rfl

lemma entries_short (h : ∀ x ∈ fs, ¬ IsLfn x.ent) {x : CString × Found} (hx : x ∈ entries [] fs) :
    x.1 = shortToName x.2.ent := by
  induction fs with
  | nil => cases hx
  | cons y fs ih =>
    have ih := ih fun z hz => h z (mem_cons_of_mem _ hz)
    rcases slot_cases y.ent with h0 | hy | ⟨h0, hy⟩
    · rw [entries_end h0] at hx
      cases hx
    · rw [entries_entry hy] at hx
      rcases mem_cons.mp hx with rfl | hx
      · exact (if_pos rfl : entryName [] y.ent = _)
      · exact ih hx
    · rw [entries_other h0 hy, textAfter, if_neg fun hlfn => h y mem_cons_self ⟨⟨h0, hlfn.1⟩, hlfn.2⟩] at hx
      exact ih hx

lemma listing_head (h : ∀ x ∈ fs, ¬ IsLfn x.ent) {e : FsEntry} (he : e ∈ listing [] fs) :
    (lowered e.name).head? ≠ some 0xE5 := by
  rw [listing_entries] at he
  obtain ⟨x, hx, he⟩ := mem_filterMap.mp he
  rw [← listedAs_name he, entries_short h hx, lowered, List.head?_map]
  intro hhead
  obtain ⟨b, hb, hlow⟩ := Option.map_eq_some_iff.mp hhead
  rw [toLower_eq (.inr (by decide)) hlow] at hb
  exact (mem_entries hx).2.2.1 (shortToName_head hb)

end Names

/-- `fat_read_dir` lists the entries `names` and no others, each as often as it stands there. -/
def ListsExactly (st : Fs) (dir : Nat) (names : List CString) : Prop :=
  ∃ es : List FsEntry, Reads st dir es ∧ (es.map fun e => lowered e.name).Perm (names.map lowered)

section Listed
variable {st : Fs} {dir : Nat} {l : List Nat} {names : List CString}

lemma DirOf.listsExactly (h : DirOf st dir l) : ListsExactly st dir names ↔
    ((listing [] (dirSlots st.vol st.data l)).map fun e => lowered e.name).Perm (names.map lowered) := by
  constructor
  · rintro ⟨es, hes, hperm⟩
    rw [(reads_iff h.ready h.chain).mp hes] at hperm
    exact hperm
  · exact fun hperm => ⟨_, (reads_iff h.ready h.chain).mpr rfl, hperm⟩

lemma listing_perm_of_zeros {fs U F : List Found} (hU : Enters U names) (hfs : fs = U ++ F)
    (hF : listing [] F = []) : ((listing [] fs).map fun e => lowered e.name).Perm (names.map lowered) := by
  obtain ⟨es, heq, hes⟩ := hU.listing F
  rw [hfs, heq, hF, append_nil, hes]

lemma Tailed.listed {fs : List Found} (h : Tailed names fs) :
    ((listing [] fs).map fun e => lowered e.name).Perm (names.map lowered) := by
  obtain ⟨U, F, hfs, hU, hF⟩ := h
  exact listing_perm_of_zeros hU hfs (listing_zeros hF [])

lemma Doubled.listed {fs : List Found} (h : Doubled names fs) (hlen : names.length < 16) :
    ((listing [] fs).map fun e => lowered e.name).Perm (names.map lowered) := by
  obtain ⟨U, Z, x, R, hfs, hU, hZ, hroom, -⟩ := h
  rw [take_of_length_le (by omega)] at hU hroom
  cases Z with
  | nil =>
    rw [length_nil] at hroom
    omega
  | cons z Z =>
    apply listing_perm_of_zeros hU hfs
    rw [cons_append, listing, if_pos (hZ z mem_cons_self)]

lemma Doubled.not_listed {fs : List Found} (h : Doubled names fs) (hlen : 16 ≤ names.length)
    (hdot : ∀ n ∈ names.drop 16, lowered n ≠ lowered dotName) :
    ¬ ((listing [] fs).map fun e => lowered e.name).Perm (names.map lowered) := by
  intro hperm
  obtain ⟨U, Z, x, R, rfl, hU, -, hroom, hx⟩ := h
  obtain rfl : Z = [] := by
    apply length_eq_zero_iff.mp
    rw [length_take] at hroom
    omega
  obtain ⟨es, heq, hes⟩ := hU.listing ([] ++ x :: R)
  obtain ⟨ds, hdeq, hds⟩ := hx.listing R
  have hsplit : names.map lowered = (names.take 16).map lowered ++ (names.drop 16).map lowered := by
    rw [← map_append, take_append_drop]
  rw [heq, show listing [] ([] ++ x :: R) = ds ++ listing [] R from hdeq, map_append, hes,
    map_append, hds, hsplit, perm_append_left_iff] at hperm
  obtain ⟨n, hn, hlow⟩ := mem_map.mp
    (hperm.subset (mem_append_left _ (mem_cons_self : lowered dotName ∈ [dotName].map lowered)))
  exact hdot n hn hlow

end Listed

/-! ## The fresh directory -/

section Fresh
variable {v : Volume} {data : Nat → Mem} {new parent : Nat}

lemma setFirstCluster_alike (e : Slot) (first : Nat) : Alike e (direntSetFirstCluster e first) := by
  rw [Alike, direntSetFirstCluster, take_setLe16 (by decide), take_setLe16 (by decide)]

lemma dot_enters {short : List UInt8} {first : Nat} {name : CString} {x : Found}
    (hx : x.ent = direntSetFirstCluster (newDirent short 0x10) first)
    (hent : IsEntry (newDirent short 0x10)) (hattr : direntAttr (newDirent short 0x10) &&& 0x08 = 0)
    (hname : shortToName (newDirent short 0x10) = name) : Enters [x] [name] := by
  have halike : Alike (newDirent short 0x10) x.ent := hx ▸ setFirstCluster_alike _ first
  constructor
  · intro y hy
    rw [mem_singleton.mp hy]
    refine ⟨halike.isEntry.mpr hent, ?_⟩
    rw [halike.attr]
    exact hattr
  · rw [map_singleton, map_singleton, shortToName_alike halike, hname]

lemma Enters.append {U U' : List Found} {names names' : List CString} (h : Enters U names)
    (h' : Enters U' names') : Enters (U ++ U') (names ++ names') := by
  constructor
  · intro x hx
    rcases mem_append.mp hx with hx | hx
    · exact h.1 x hx
    · exact h'.1 x hx
  · rw [map_append, map_append, h.2, h'.2]

lemma fresh_slots (hdata : data new = dotCluster v new parent) {m : Nat}
    (hv : v.sectorsPerCluster = m + 1) :
    ∃ U Z R, dirSlots v data [new] = U ++ (Z ++ R) ∧ Enters U [dotName, dotdotName] ∧
      (∀ z ∈ Z, z.ent.getD 0 0 = 0) ∧ Z.length = 14 ∧ R.length = 16 * m ∧
      ∀ x ∈ R.head?, Enters [x] [dotName] := by
  have hsplit : List.range' 0 (v.sectorsPerCluster * 16) 32 =
      [0, 32] ++ (List.range' 64 14 32 ++ List.range' 512 (16 * m) 32) := by
    rw [hv, show (m + 1) * 16 = 2 + (14 + 16 * m) by omega, ← List.range'_append, ← List.range'_append]
    rfl
  have hslots : dirSlots v data [new] = clusterSlots v data new := flatMap_singleton _ _
  have hent : ∀ off ∈ List.range' 0 (v.sectorsPerCluster * 16) 32,
      slice (data new) off 32 = ([direntSetFirstCluster (newDirent dotShort 0x10) new,
        direntSetFirstCluster (newDirent dotdotShort 0x10) parent][off % 512 / 32]?).getD
          (slice (fun _ => 0) (32 * (off % 512 / 32)) 32) := by
    intro off hoff
    have hmem : (⟨slice (data new) off 32, new, off⟩ : Found) ∈ dirSlots v data [new] := by
      rw [hslots]
      exact mem_map_of_mem hoff
    exact dotSlot_ent hdata hmem
  have hdot : ∀ off ∈ List.range' 0 (v.sectorsPerCluster * 16) 32, off % 512 / 32 = 0 →
      Enters [⟨slice (data new) off 32, new, off⟩] [dotName] := by
    intro off hoff h0
    have hoff := hent off hoff
    rw [h0] at hoff
    exact dot_enters hoff (by decide) (by decide) (by decide)
  refine ⟨[⟨slice (data new) 0 32, new, 0⟩] ++ [⟨slice (data new) 32 32, new, 32⟩],
    (List.range' 64 14 32).map fun off => ⟨slice (data new) off 32, new, off⟩,
    (List.range' 512 (16 * m) 32).map fun off => ⟨slice (data new) off 32, new, off⟩, ?_, ?_, ?_, ?_, ?_, ?_⟩
  · rw [hslots, clusterSlots, hsplit, map_append, map_append]
    rfl
  · rw [hsplit] at hdot hent
    have hdotdot : Enters [⟨slice (data new) 32 32, new, 32⟩] [dotdotName] :=
      dot_enters (hent 32 (by simp)) (by decide) (by decide) (by decide)
    exact (hdot 0 (by simp) rfl).append hdotdot
  · rw [hsplit] at hent
    intro z hz
    obtain ⟨off, hoff, rfl⟩ := mem_map.mp hz
    obtain ⟨i, hi, rfl⟩ := mem_range'.mp hoff
    dsimp only
    rw [hent _ (mem_append_right _ (mem_append_left _ hoff)),
      show (64 + 32 * i) % 512 / 32 = i + 2 by omega]
    rfl
  · rw [length_map, length_range']
  · rw [length_map, length_range']
  · intro x hx
    cases m with
    | zero => cases hx
    | succ m =>
      cases hx
      rw [hsplit] at hdot
      apply hdot 512 _ rfl
      exact mem_append_right _ (mem_append_right _ (mem_range'.mpr ⟨0, by omega, rfl⟩))

lemma fresh_tailed (hdata : data new = dotCluster v new parent) (hv : v.sectorsPerCluster = 1) :
    Tailed [dotName, dotdotName] (dirSlots v data [new]) := by
  obtain ⟨U, Z, R, heq, hU, hZ, -, hR, -⟩ := fresh_slots hdata hv
  rw [length_eq_zero_iff.mp hR, append_nil] at heq
  exact ⟨U, Z, heq, hU, hZ⟩

lemma fresh_doubled (hdata : data new = dotCluster v new parent) (hv : 1 < v.sectorsPerCluster) :
    Doubled [dotName, dotdotName] (dirSlots v data [new]) := by
  obtain ⟨m, hm⟩ : ∃ m, v.sectorsPerCluster = m + 1 + 1 := ⟨v.sectorsPerCluster - 2, by omega⟩
  obtain ⟨U, Z, R, heq, hU, hZ, hlen, hR, hhead⟩ := fresh_slots hdata hm
  cases R with
  | nil =>
    rw [length_nil] at hR
    omega
  | cons x R =>
    refine ⟨U, Z, x, R, heq, hU, hZ, ?_, hhead x rfl⟩
    rw [hlen]
    rfl

lemma fresh_no_lfn (hdata : data new = dotCluster v new parent) :
    ∀ x ∈ dirSlots v data [new], ¬ IsLfn x.ent := by
  intro x hx hlfn
  have hbits := hlfn.2
  rcases dotSlot_cases hdata hx with hx | hx | hx
  · rw [hx, (setFirstCluster_alike _ _).attr] at hbits
    revert hbits
    decide
  · rw [hx, (setFirstCluster_alike _ _).attr] at hbits
    revert hbits
    decide
  · exact hlfn.1.1 hx

end Fresh

/-- `fs_mkdir` has made the directory at the cluster `dir`, which was free, for the leaf of the path. -/
def MadeAt (st st' : Fs) (path : CString) (dir : Nat) : Prop :=
  dir ∈ freeClusters st.vol st.fat ∧ st'.fat dir = 0x0FFFFFFF ∧
    ∃ d leaf l f, Leads st path d leaf ∧ DirOf st' d l ∧ f ∈ dirSlots st'.vol st'.data l ∧
      f.ent = newSlot leaf 0x10 dir 0

section Main
variable {st st₁ : Fs} {path : CString}

lemma fsMkdir_made (hw : WellFormed st) (hstack : st.stackName.length < 64)
    (hmk : fsMkdir st path = some (true, st₁)) :
    ∃ dir parent, MadeAt st st₁ path dir ∧ DirOf st₁ dir [dir] ∧ st₁.vol = st.vol ∧
      st₁.data dir = dotCluster st₁.vol dir parent := by
  have hr := hw.ready
  -- the path leads to a name that its directory did not have
  obtain ⟨d, leaf, l, hlead, hl, hnone⟩ : ∃ d leaf l, Leads st path d leaf ∧ st.image.ChainAt d l ∧
      lookup leaf [] (st.image.slots l) = none := by
    have hmk' := hmk
    unfold fsMkdir at hmk'
    rcases withLeaf_cases false _ path hr hw.mounted hw.sound with
      ⟨d, p, leaf, hd, hlead⟩ | ⟨st2, hwith, -⟩
    · obtain ⟨l, hl⟩ := hw.sound.dir_chain hd
      refine ⟨d, leaf, l, hlead, hl, ?_⟩
      cases hlook : lookup leaf [] (st.image.slots l) with
      | none => rfl
      | some f =>
        obtain ⟨st2, hrun, -⟩ := mkdir_found hr hw.mounted hlead hl hlook
        cases hmk.symm.trans hrun
    · cases hmk'.symm.trans hwith
  have hnew := mkdir_new hr hw.mounted hlead (hlead.length hstack) hl hnone
  rw [hmk] at hnew
  cases hnew with
  | @made _ l1 c i new hat hfat hdata =>
    have hvol : st₁.vol = st.vol := hat.disk.vol
    have hr1 := hat.disk.ready hr
    have hfree := (hat.fresh new mem_cons_self).1
    have hdir : DirOf st₁ new [new] := by
      refine ⟨hr1, .last ?_ ?_⟩
      · rw [hvol]
        exact isCluster_of_free hfree
      · rw [hfat]
        decide
    have hparent : DirOf st₁ d l1 := ⟨hr1, by rw [hvol]; exact hat.chain⟩
    obtain ⟨pre, run, post, zs, -, -, hslots, -, -, -⟩ := hat.slots
    have hslot : (⟨newSlot leaf 0x10 new 0, c, 32 * i⟩ : Found) ∈ dirSlots st₁.vol st₁.data l1 := by
      rw [hvol, hslots]
      apply mem_append_left
      apply mem_append_right
      rw [installed, placed, mapIdx_cons]
      exact mem_cons_self
    have hmade : MadeAt st st₁ path new := ⟨hfree, hfat, d, leaf, l1, _, hlead, hparent, hslot, rfl⟩
    refine ⟨new, d, hmade, hdir, hvol, ?_⟩
    rw [hvol]
    exact hdata

end Main

section Runs
variable {st st' : Fs} {dir parent : Nat} {calls : List FileCall} (hdir : DirOf st dir [dir])
  (hdata : st.data dir = dotCluster st.vol dir parent)
  (hrun : Run (FileCall.step dir) st calls st') (hshort : ∀ c ∈ calls, c.Short)
include hdir hdata hrun hshort

lemma one_sector_lists (hplain : ∀ c ∈ calls, Plain c.name) (hv : st.vol.sectorsPerCluster = 1) :
    ListsExactly st' dir (dotName :: dotdotName :: calls.map FileCall.name) := by
  obtain ⟨l', hdir', htail⟩ := run_adds Plain Tailed [dotName, dotdotName] Tailed.adds hrun hshort hplain
    hdir (fresh_tailed hdata hv)
  rw [hdir'.listsExactly]
  exact htail.listed

lemma sectors_list_iff (hplain : ∀ c ∈ calls, Plain c.name) (hv : 1 < st.vol.sectorsPerCluster) :
    ListsExactly st' dir (dotName :: dotdotName :: calls.map FileCall.name) ↔ calls.length < 14 := by
  obtain ⟨l', hdir', hdouble⟩ := run_adds Plain Doubled [dotName, dotdotName] Doubled.adds hrun hshort hplain
    hdir (fresh_doubled hdata hv)
  rw [cons_append, cons_append, nil_append] at hdouble
  rw [hdir'.listsExactly]
  have hlen : (dotName :: dotdotName :: calls.map FileCall.name).length = calls.length + 2 := by
    rw [length_cons, length_cons, length_map]
  constructor
  · intro hlist
    by_contra hmany
    refine hdouble.not_listed (by omega) (fun n hn => ?_) hlist
    obtain ⟨c, hc, rfl⟩ := mem_map.mp (mem_of_mem_drop (i := 14) hn)
    exact short_ne_dot (hplain c hc).1
  · intro hfew
    exact hdouble.listed (by omega)

lemma not_lists_deleted {c : FileCall} (hc : c ∈ calls) (hbad : ¬ Plain c.name) :
    ¬ ListsExactly st' dir (dotName :: dotdotName :: calls.map FileCall.name) := by
  obtain ⟨l', hdir', hno⟩ := run_adds (fun _ => True) (fun _ fs => ∀ x ∈ fs, ¬ IsLfn x.ent) []
    (fun _ h hadds => hadds.no_lfn h) hrun hshort (fun _ _ => trivial) hdir (fresh_no_lfn hdata)
  rw [hdir'.listsExactly]
  intro hlist
  have hmem : lowered c.name ∈ (dotName :: dotdotName :: calls.map FileCall.name).map lowered :=
    mem_map_of_mem (mem_cons_of_mem _ (mem_cons_of_mem _ (mem_map_of_mem hc)))
  obtain ⟨e, he, heq⟩ := mem_map.mp (hlist.symm.subset hmem)
  apply listing_head hno he
  rw [heq]
  exact head_of_not_plain (hshort c hc).needsLfn hbad

end Runs

/-- After the creation of files with 8.3 names a fresh directory lists `.`, `..` and these names
exactly if none of them begins with the byte of deleted slots, and the clusters have one sector or
the files do not fill the first sector. -/
theorem fresh_directory_lists_iff {st st₁ : Fs} {path : CString} (hw : WellFormed st)
    (hstack : st.stackName.length < 64) (hmk : fsMkdir st path = some (true, st₁)) :
    ∃ dir, MadeAt st st₁ path dir ∧ ∀ calls st', Run (FileCall.step dir) st₁ calls st' →
      (∀ c ∈ calls, c.Short) →
      (ListsExactly st' dir (dotName :: dotdotName :: calls.map FileCall.name) ↔
        (∀ c ∈ calls, Plain c.name) ∧ (st.vol.sectorsPerCluster = 1 ∨ calls.length < 14)) := by
  obtain ⟨dir, parent, hmade, hdir, hvol, hdata⟩ := fsMkdir_made hw hstack hmk
  refine ⟨dir, hmade, fun calls st' hrun hshort => ?_⟩
  rw [← hvol]
  by_cases hplain : ∀ c ∈ calls, Plain c.name
  · rcases Nat.eq_or_lt_of_le hdir.ready.geometry.spc_pos with h1 | h2
    · have hlists := one_sector_lists hdir hdata hrun hshort hplain h1.symm
      exact ⟨fun _ => ⟨hplain, .inl h1.symm⟩, fun _ => hlists⟩
    · rw [sectors_list_iff hdir hdata hrun hshort hplain h2]
      constructor
      · exact fun hfew => ⟨hplain, .inr hfew⟩
      · rintro ⟨-, hone | hfew⟩
        · omega
        · exact hfew
  · constructor
    · intro hlists
      exfalso
      push Not at hplain
      obtain ⟨c, hc, hbad⟩ := hplain
      exact not_lists_deleted hdir hdata hrun hshort hc hbad hlists
    · exact fun h => absurd h.1 hplain

/-- An empty volume with two sectors in a cluster. -/
def wideFs : Fs :=
  { smallFs [(2, 0x0FFFFFFF)] [] with
    vol := { smallVolume with sectorsPerCluster := 2, totalSectors := 18 } }

lemma wideFs_wellFormed : WellFormed wideFs :=
  wellFormed_of_checked [(2, 2)] ⟨by decide, fun _ => rfl⟩ rfl (by decide +kernel)

/-- The files `A` to `N`. -/
def fourteenCalls : List FileCall := (List.range 14).map fun i => .entry [UInt8.ofNat (65 + i)] 0x20

/-- With 14 files in the fresh directory `D` at cluster 3 there are 18 entries listed, `.` and `..` twice. -/
theorem not_fresh_directory_lists_wide :
    WellFormed wideFs ∧ (∀ c ∈ fourteenCalls, c.Short) ∧
      (fsMkdir wideFs [0x2F, 0x44]).map (fun r => r.1) = some true ∧
      ((fsMkdir wideFs [0x2F, 0x44]).bind fun r => (fatFindEntry r.2 2 [0x44]).bind fun s =>
        s.1.map fun f => direntFirstCluster f.ent) = some 3 ∧
      ((fsMkdir wideFs [0x2F, 0x44]).bind fun r => (exec (FileCall.step 3) r.2 fourteenCalls).bind fun st' =>
        (fatReadDir st' 3 100).bind fun s => s.1.map fun es => es.map FsEntry.name) =
        some (dotName :: dotdotName :: fourteenCalls.map FileCall.name ++ [dotName, dotdotName]) := by
  refine ⟨wideFs_wellFormed, by decide, ?_, ?_, ?_⟩
  · decide +kernel
  · decide +kernel
  · decide +kernel

/-- A file `X` in the fresh directory `D` of a volume with one sector in a cluster. -/
theorem fresh_directory_lists_oneFile :
    ∃ st₁ dir st', fsMkdir oneFile [0x2F, 0x44] = some (true, st₁) ∧ MadeAt oneFile st₁ [0x2F, 0x44] dir ∧
      Run (FileCall.step dir) st₁ [.entry [0x58] 0x20] st' ∧
      ListsExactly st' dir [dotName, dotdotName, [0x58]] := by
  have hmade : (fsMkdir oneFile [0x2F, 0x44]).map (fun r => (r.1,
      (freeClusters oneFile.vol oneFile.fat).filter fun c => r.2.fat c = 0x0FFFFFFF,
      (exec (FileCall.step 4) r.2 [.entry [0x58] 0x20]).isSome)) = some (true, [4], true) := by
    decide +kernel
  obtain ⟨⟨ok, st₁⟩, hmk, heq⟩ := Option.map_eq_some_iff.mp hmade
  obtain ⟨rfl, hclusters, hexec⟩ : ok = true ∧ _ ∧ _ := by
    simpa only [Prod.mk.injEq] using heq
  obtain ⟨st', hst'⟩ := Option.isSome_iff_exists.mp hexec
  obtain ⟨dir, hat, hlists⟩ := fresh_directory_lists_iff oneFile_wellFormed (by decide) hmk
  obtain rfl : dir = 4 := by
    apply mem_singleton.mp
    rw [← hclusters]
    exact mem_filter.mpr ⟨hat.1, decide_eq_true hat.2.1⟩
  have hrun := Run.of_exec hst'
  refine ⟨st₁, 4, st', hmk, hat, hrun, (hlists _ st' hrun ?_).mpr ⟨?_, .inr (by decide)⟩⟩
  · decide
  · decide

end FusionOS.Fat
