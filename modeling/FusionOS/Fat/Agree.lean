import FusionOS.Fat.Listing

/-!
# Scanners that see the same directory

`fat_find_entry`, `fat_dir_is_empty` and `fat_read_dir` are separately written loops. They read the
same sectors in the same order as long as none of them has stopped, on any volume and with any
failed transfer.
-/

namespace FusionOS.Fat

/-! ## One scanner follows another -/

section Follow
variable {σ₁ σ₂ ρ₁ ρ₂ : Type}

/-- The second scanner stops no later than the first does with a proper result. `R` relates the
state of the first to the second, which is still going on or has its result, and `E` relates their
results. -/
structure Follows (body₁ : σ₁ → Nat → Nat → Slot → Scan σ₁ ρ₁) (body₂ : σ₂ → Nat → Nat → Slot → Scan σ₂ ρ₂)
    (proper : ρ₁ → Prop) (R : σ₁ → Scan σ₂ ρ₂ → Prop) (E : ρ₁ → ρ₂ → Prop) : Prop where
  next : ∀ {s x c off e s'}, R s x → body₁ s c off e = .next s' →
    R s' (x.andThen fun a => body₂ a c off e)
  stop : ∀ {s x c off e r}, R s x → body₁ s c off e = .stop r → proper r →
    ∃ r₂, (x.andThen fun a => body₂ a c off e) = .stop r₂ ∧ E r r₂

namespace Follows

def Done (proper : ρ₁ → Prop) : Scan σ₁ (Option ρ₁) → Prop
  | .next _ => True
  | .stop (some r) => proper r
  | .stop none => False

def Out (R : σ₁ → Scan σ₂ ρ₂ → Prop) (E : ρ₁ → ρ₂ → Prop) :
    Scan σ₁ (Option ρ₁) → Scan σ₂ ρ₂ → Prop
  | .next s, x => R s x
  | .stop (some r), x => ∃ r₂, x = .stop r₂ ∧ E r r₂
  | .stop none, _ => True

end Follows

variable {body₁ : σ₁ → Nat → Nat → Slot → Scan σ₁ ρ₁} {body₂ : σ₂ → Nat → Nat → Slot → Scan σ₂ ρ₂}
variable {proper : ρ₁ → Prop} {R : σ₁ → Scan σ₂ ρ₂ → Prop} {E : ρ₁ → ρ₂ → Prop}

variable {st st' : Fs} {c : Nat} {ρ σ : Type} {a : σ₁}

lemma Scan.andThen_assoc (x : Scan σ ρ) (f g : σ → Scan σ ρ) :
    (x.andThen f).andThen g = x.andThen fun a => (f a).andThen g := by
  cases x <;> rfl

lemma Scan.andThen_stop {x : Scan σ ρ} {f g : σ → Scan σ ρ} {r : ρ}
    (h : x.andThen f = .stop r) : x.andThen (fun a => (f a).andThen g) = .stop r := by
  rw [← Scan.andThen_assoc, h]
  rfl

lemma slotLoop_andThen (body : σ → Nat → Slot → Scan σ ρ) (buf : Mem) (n off : Nat)
    (s : σ) : slotLoop body buf (n + 1) off s =
      (body s off (slice buf off 32)).andThen (slotLoop body buf n (off + 32)) := by
  rw [slotLoop]
  cases body s off (slice buf off 32) <;> rfl

lemma Follows.slotLoop (h : Follows body₁ body₂ proper R E) (buf : Mem) (c k n off : Nat) {s : σ₁}
    {x : Scan σ₂ ρ₂} (hR : R s x)
    (hdone : Follows.Done proper
      (Scan.lift (slotLoop (fun a off => body₁ a c (off + k)) buf n off s))) :
    Follows.Out R E
      (Scan.lift (slotLoop (fun a off => body₁ a c (off + k)) buf n off s))
      (x.andThen (slotLoop (fun a off => body₂ a c (off + k)) buf n off)) := by
  induction n generalizing off s x with
  | zero =>
    have hx : x.andThen (Fat.slotLoop (fun a off => body₂ a c (off + k)) buf 0 off) = x := by
      cases x <;> rfl
    rw [hx]
    exact hR
  | succ n ih =>
    have hbody : (fun a => Fat.slotLoop (fun a off => body₂ a c (off + k)) buf (n + 1) off a) =
        fun a => (body₂ a c (off + k) (slice buf off 32)).andThen
          (Fat.slotLoop (fun a off => body₂ a c (off + k)) buf n (off + 32)) := by
      funext a
      exact slotLoop_andThen ..
    rw [show Fat.slotLoop (fun a off => body₂ a c (off + k)) buf (n + 1) off = _ from hbody]
    rw [slotLoop_andThen] at hdone ⊢
    cases hb : body₁ s c (off + k) (slice buf off 32) with
    | next s' =>
      rw [hb] at hdone
      rw [← Scan.andThen_assoc]
      exact ih (off + 32) (h.next hR hb) hdone
    | stop r =>
      rw [hb] at hdone
      obtain ⟨r2, hstop, hE⟩ := h.stop hR hb hdone
      exact ⟨r2, Scan.andThen_stop hstop, hE⟩

lemma Follows.sectorLoop_stopped (h : Follows body₁ body₂ proper R E) {n s : Nat} {r2 : ρ₂}
    {o : Scan σ₁ (Option ρ₁)} (hR : R a (.stop r2))
    (hrun : sectorLoop body₁ c n s a st = (o, st')) (hdone : Follows.Done proper o) :
    Follows.Out R E o (.stop r2) := by
  induction n generalizing s a st with
  | zero =>
    cases hrun
    exact hR
  | succ n ih =>
    rw [sectorLoop] at hrun
    split at hrun
    · cases hrun
      trivial
    · rename_i st1 _
      have hslots := h.slotLoop st1.sectorBuf c (s * 512) 16 0 hR
      split at hrun
      · rename_i a' ha'
        rw [ha'] at hslots
        exact ih (hslots trivial) hrun
      · rename_i r hr
        rw [hr] at hslots
        cases hrun
        exact hslots hdone

lemma Follows.sectorLoop (h : Follows body₁ body₂ proper R E) {n s : Nat} {b : σ₂}
    {o : Scan σ₁ (Option ρ₁)} (hR : R a (.next b))
    (hrun : sectorLoop body₁ c n s a st = (o, st')) (hdone : Follows.Done proper o) :
    ∃ x st2, Fat.sectorLoop body₂ c n s b st = (Scan.lift x, st2) ∧ Follows.Out R E o x ∧
      ∀ b', x = .next b' → st2 = st' := by
  induction n generalizing s a b st with
  | zero =>
    cases hrun
    exact ⟨.next b, st', rfl, hR, fun _ _ => rfl⟩
  | succ n ih =>
    rw [Fat.sectorLoop] at hrun ⊢
    cases hread : blkRead st (u32 (clusterToLba st.vol c + s)) with
    | mk ok st1 =>
      rw [hread] at hrun
      cases ok with
      | false =>
        cases hrun
        exact hdone.elim
      | true =>
        have hslots := h.slotLoop st1.sectorBuf c (s * 512) 16 0 hR
        dsimp only at hrun ⊢
        cases hb : Fat.slotLoop (fun a off => body₂ a c (off + s * 512)) st1.sectorBuf 16 0 b with
        | next b' =>
          rw [show (Scan.next b).andThen (Fat.slotLoop (fun a off => body₂ a c (off + s * 512))
            st1.sectorBuf 16 0) = .next b' from hb] at hslots
          split at hrun
          · rename_i a' ha'
            rw [ha'] at hslots
            exact ih (hslots trivial) hrun
          · rename_i r hr
            rw [hr] at hslots
            cases hrun
            obtain ⟨r2, hr2, -⟩ := hslots hdone
            cases hr2
        | stop r2 =>
          rw [show (Scan.next b).andThen (Fat.slotLoop (fun a off => body₂ a c (off + s * 512))
            st1.sectorBuf 16 0) = .stop r2 from hb] at hslots
          refine ⟨.stop r2, st1, rfl, ?_, fun b' hb' => by cases hb'⟩
          split at hrun
          · rename_i a' ha'
            rw [ha'] at hslots
            exact h.sectorLoop_stopped (hslots trivial) hrun hdone
          · rename_i r hr
            rw [hr] at hslots
            cases hrun
            exact hslots hdone

lemma Follows.chainLoop_stopped (h : Follows body₁ body₂ proper R E) {fuel : Nat} {r2 : ρ₂}
    {o : Scan σ₁ (Option ρ₁)} (hR : R a (.stop r2))
    (hrun : chainLoop id body₁ fuel c a st = some (o, st')) (hdone : Follows.Done proper o) :
    Follows.Out R E o (.stop r2) := by
  induction fuel generalizing c a st with
  | zero => cases hrun
  | succ fuel ih =>
    rw [chainLoop] at hrun
    split at hrun
    · cases hsec : Fat.sectorLoop body₁ c st.vol.sectorsPerCluster 0 (id a) st with
      | mk o1 st1 =>
        rw [hsec] at hrun
        have hout := h.sectorLoop_stopped hR hsec
        cases o1 with
        | stop r =>
          cases hrun
          exact hout hdone
        | next a' => exact ih (hout trivial) hrun
    · cases hrun
      exact hR

lemma Follows.chainLoop (h : Follows body₁ body₂ proper R E) {fuel : Nat} {b : σ₂}
    {o : Scan σ₁ (Option ρ₁)} (hR : R a (.next b))
    (hrun : chainLoop id body₁ fuel c a st = some (o, st')) (hdone : Follows.Done proper o) :
    ∃ x st2, Fat.chainLoop id body₂ fuel c b st = some (Scan.lift x, st2) ∧ Follows.Out R E o x := by
  induction fuel generalizing c a b st with
  | zero => cases hrun
  | succ fuel ih =>
    rw [Fat.chainLoop] at hrun ⊢
    split at hrun
    · rename_i hc
      rw [if_pos hc]
      cases hsec : Fat.sectorLoop body₁ c st.vol.sectorsPerCluster 0 (id a) st with
      | mk o1 st1 =>
        rw [hsec] at hrun
        have hdone1 : Follows.Done proper o1 := by
          cases o1 with
          | next a' => trivial
          | stop r =>
            cases hrun
            exact hdone
        obtain ⟨x, st2, hsec2, hout, hst⟩ := h.sectorLoop hR hsec hdone1
        rw [show Fat.sectorLoop body₂ c st.vol.sectorsPerCluster 0 (id b) st = _ from hsec2]
        cases x with
        | stop r2 =>
          refine ⟨.stop r2, st2, rfl, ?_⟩
          cases o1 with
          | stop r =>
            cases hrun
            exact hout
          | next a' => exact h.chainLoop_stopped hout hrun hdone
        | next b' =>
          obtain rfl := hst b' rfl
          cases o1 with
          | stop r =>
            cases r with
            | none => exact hdone1.elim
            | some r =>
              obtain ⟨r2, hr2, -⟩ := hout
              cases hr2
          | next a' => exact ih hout hrun
    · rename_i hc
      rw [if_neg hc]
      cases hrun
      exact ⟨.next b, st', rfl, hR⟩

end Follow

/-! ## The slots that a scan reads -/

def collectSlot (fs : List Found) (c off : Nat) (e : Slot) : Scan (List Found) (List Found) :=
  if e.getD 0 0 = 0 then .stop (fs ++ [⟨e, c, off⟩]) else .next (fs ++ [⟨e, c, off⟩])

variable {maxEntries : Nat}

lemma run_concat {σ ρ : Type} (body : σ → Nat → Nat → Slot → Scan σ ρ) (fs : List Found) (c off : Nat)
    (e : Slot) (a : σ) :
    Scan.run (fun s f => body s f.cluster f.offset f.ent) (fs ++ [⟨e, c, off⟩]) a =
      (Scan.run (fun s f => body s f.cluster f.offset f.ent) fs a).andThen
        fun s => body s c off e := by
  rw [Scan.run_append]
  congr 1
  funext s
  rw [Scan.run]
  cases body s c off e <;> rfl

lemma follows_collect {σ ρ : Type} {body : σ → Nat → Nat → Slot → Scan σ ρ}
    (hend : ∀ s c off e, e.getD 0 0 = 0 → ∃ r, body s c off e = .stop r) (a : σ) :
    Follows collectSlot body (fun _ => True)
      (fun fs x => x = Scan.run (fun s f => body s f.cluster f.offset f.ent) fs a)
      (fun fs r => Scan.run (fun s f => body s f.cluster f.offset f.ent) fs a = .stop r) := by
  constructor
  · intro fs x c off e fs' hx hnext
    unfold collectSlot at hnext
    split at hnext
    · cases hnext
    · cases hnext
      rw [hx, run_concat]
  · intro fs x c off e fs' hx hstop _
    unfold collectSlot at hstop
    split at hstop
    · rename_i h0
      cases hstop
      rw [run_concat, ← hx]
      cases x with
      | stop r => exact ⟨r, rfl, rfl⟩
      | next s =>
        obtain ⟨r, hr⟩ := hend s c off e h0
        exact ⟨r, hr, hr⟩
    · cases hstop

lemma readDirSlot_stop {s : CString × List FsEntry} {c off : Nat} {e : Slot}
    {r : List FsEntry} (h : readDirSlot maxEntries s c off e = .stop r) (hr : r.length < maxEntries) :
    e.getD 0 0 = 0 := by
  unfold readDirSlot dirSlot at h
  split at h
  · assumption
  · split at h
    · cases h
    · split at h
      · cases h
      · split at h
        · cases h
        · rename_i r' hr'
          dsimp only at hr'
          split at hr'
          · cases hr'
          · split at hr'
            · cases hr'
              cases h
              omega
            · cases hr'

lemma readDirSlot_next {s s' : CString × List FsEntry} {c off : Nat} {e : Slot}
    (h : readDirSlot maxEntries s c off e = .next s') : e.getD 0 0 ≠ 0 := by
  intro h0
  unfold readDirSlot dirSlot at h
  rw [if_pos h0] at h
  cases h

lemma follows_readDir (maxEntries : Nat) :
    Follows (readDirSlot maxEntries) collectSlot (fun r => r.length < maxEntries)
      (fun s x => ∃ fs, x = .next fs ∧
        Scan.run (fun s f => readDirSlot maxEntries s f.cluster f.offset f.ent) fs ([], []) = .next s)
      (fun r fs => Scan.run (fun s f => readDirSlot maxEntries s f.cluster f.offset f.ent) fs ([], []) =
        .stop r) := by
  constructor
  · rintro s x c off e s' ⟨fs, rfl, hfs⟩ hnext
    refine ⟨fs ++ [⟨e, c, off⟩], ?_, ?_⟩
    · exact if_neg (readDirSlot_next hnext)
    · rw [run_concat, hfs]
      exact hnext
  · rintro s x c off e r ⟨fs, rfl, hfs⟩ hstop hr
    refine ⟨fs ++ [⟨e, c, off⟩], ?_, ?_⟩
    · exact if_pos (readDirSlot_stop hstop hr)
    · rw [run_concat, hfs]
      exact hstop

lemma listing_of_run {fs : List Found} {r : List FsEntry}
    (hrun : (Scan.run (fun s f => readDirSlot maxEntries s f.cluster f.offset f.ent) fs ([], [])).result
      Prod.snd = r) (hlt : r.length < maxEntries) : r = listing [] fs := by
  rw [run_readDirSlot] at hrun
  rw [← hrun, List.length_take] at hlt
  rw [← hrun, List.take_of_length_le (by omega)]

section Directory
variable {st st' : Fs} {d maxEntries : Nat} {entries : List FsEntry}

lemma fatReadDir_slots (h : fatReadDir st d maxEntries = some (some entries, st'))
    (hlt : entries.length < maxEntries) :
    ∃ fs, entries = listing [] fs ∧
      ∀ {σ ρ : Type} (body : σ → Nat → Nat → Slot → Scan σ ρ),
        (∀ s c off e, e.getD 0 0 = 0 → ∃ r, body s c off e = .stop r) → ∀ a, ∃ st2,
          chainLoop id body chainFuel d a st =
            some (Scan.lift (Scan.run (fun s f => body s f.cluster f.offset f.ent) fs a), st2) := by
  unfold fatReadDir at h
  split at h
  · rename_i r st1 hrun
    cases h
    obtain ⟨x, st2, hcollect, r2, rfl, hr2⟩ := (follows_readDir maxEntries).chainLoop (b := [])
      ⟨[], rfl, rfl⟩ hrun hlt
    refine ⟨r2, listing_of_run (by rw [hr2]; rfl) hlt, fun body hend a => ?_⟩
    obtain ⟨x, st3, hbody, r3, rfl, hr3⟩ := (follows_collect hend a).chainLoop (b := a) rfl hcollect trivial
    exact ⟨st3, by rw [hbody, hr3]⟩
  · rename_i s st1 hrun
    cases h
    obtain ⟨x, st2, hcollect, fs, rfl, hfs⟩ := (follows_readDir maxEntries).chainLoop (b := [])
      ⟨[], rfl, rfl⟩ hrun trivial
    refine ⟨fs, listing_of_run (by rw [hfs]; rfl) hlt, fun body hend a => ?_⟩
    obtain ⟨x, st3, hbody, hx⟩ := (follows_collect hend a).chainLoop (b := a) rfl hcollect trivial
    exact ⟨st3, by rw [hbody, hx]⟩
  · cases h

lemma dirSlot_end {α ρ : Type} (atEnd : α → ρ)
    (atEntry : α → CString → Nat → Nat → Slot → Scan α ρ) (s : CString × α) (c off : Nat) (e : Slot)
    (h0 : e.getD 0 0 = 0) : ∃ r, dirSlot atEnd atEntry s c off e = .stop r :=
  ⟨atEnd s.2, by rw [dirSlot, if_pos h0]⟩

end Directory

/-! ## Looking up and listing -/

/-- A volume label, which `fat_read_dir` skips. -/
def IsLabel (e : Slot) : Prop := (direntAttr e &&& 0x08 != 0) = true

instance (e : Slot) : Decidable (IsLabel e) := inferInstanceAs (Decidable (_ = _))

/-- The first listed entry with the name. -/
def firstListed (name : CString) (entries : List FsEntry) : Option FsEntry :=
  entries.find? fun e => nameEquals e.name name

section Lists
variable {name : CString}

variable {lfn : CString} {fs : List Found}

lemma firstListed_none (h : lookup name lfn fs = none) :
    firstListed name (listing lfn fs) = none := by
  rw [lookup_entries, Option.map_eq_none_iff, List.find?_eq_none] at h
  rw [firstListed, listing_entries, List.find?_eq_none]
  intro e he
  obtain ⟨x, hx, he⟩ := List.mem_filterMap.mp he
  rw [← listedAs_name he]
  exact h x hx

lemma firstListed_some {f : Found}
    (h : lookup name lfn fs = some f) (hlabel : ¬ IsLabel f.ent) :
    ∃ e, firstListed name (listing lfn fs) = some e ∧ e.size = direntFileSize f.ent ∧
      e.isDir = direntIsDir f.ent := by
  rw [lookup_entries] at h
  obtain ⟨x, hx, rfl⟩ := Option.map_eq_some_iff.mp h
  obtain ⟨hname, pre, post, heq, hpre⟩ := List.find?_eq_some_iff_append.mp hx
  have hx : listedAs x = some ⟨x.1, le32At x.2.ent 28, direntIsDir x.2.ent⟩ := if_neg hlabel
  refine ⟨⟨x.1, le32At x.2.ent 28, direntIsDir x.2.ent⟩, ?_, rfl, rfl⟩
  rw [firstListed, listing_entries, heq, List.filterMap_append, List.filterMap_cons, hx]
  apply List.find?_eq_some_iff_append.mpr
  refine ⟨hname, _, _, rfl, fun e he => ?_⟩
  obtain ⟨y, hy, he⟩ := List.mem_filterMap.mp he
  rw [← listedAs_name he]
  exact hpre y hy

lemma run_isEmptySlot (fs : List Found) (lfn : CString) :
    (Scan.run (fun s f => isEmptySlot s f.cluster f.offset f.ent) fs (lfn, ())).result (fun _ => true) =
      (listing lfn fs).all fun e => e.name = dotName ∨ e.name = dotdotName := by
  rw [listing_entries]
  refine (run_dirSlot _ _ fs lfn ()).trans ?_
  induction entries lfn fs with
  | nil => rfl
  | cons x xs ih =>
    rw [Scan.run, List.filterMap_cons, listedAs]
    by_cases hlabel : (direntAttr x.2.ent &&& 0x08 != 0) = true
    · rw [if_pos hlabel, if_pos hlabel]
      exact ih
    rw [if_neg hlabel, if_neg hlabel, List.all_cons]
    by_cases hdot : x.1 = dotName ∨ x.1 = dotdotName
    · rw [if_pos hdot, decide_eq_true hdot, Bool.true_and]
      exact ih
    · rw [if_neg hdot, decide_eq_false hdot, Bool.false_and]
      rfl

end Lists

section Directory
variable {st st' : Fs} {d maxEntries : Nat} {entries : List FsEntry}

/-- The entry found by `fat_find_entry` is there exactly if an entry of that name is listed, and the
first such entry has its size and its directory flag. -/
def FoundAsListed (name : CString) (found : Option Found) (entries : List FsEntry) : Prop :=
  (found.isSome = true ↔ ∃ e ∈ entries, nameEquals e.name name = true) ∧
    ∀ f e, found = some f → firstListed name entries = some e →
      e.size = direntFileSize f.ent ∧ e.isDir = direntIsDir f.ent

/-- `fat_dir_is_empty` returns 1 exactly if `fat_read_dir` lists nothing but `.` and `..`. -/
theorem dir_is_empty_iff (h : fatReadDir st d maxEntries = some (some entries, st'))
    (hlt : entries.length < maxEntries) :
    ∃ empty st₂, fatDirIsEmpty st d = some (empty, st₂) ∧
      (empty = true ↔ ∀ e ∈ entries, e.name = dotName ∨ e.name = dotdotName) := by
  obtain ⟨fs, rfl, hscan⟩ := fatReadDir_slots h hlt
  obtain ⟨st₂, hempty⟩ := hscan isEmptySlot (dirSlot_end _ _) ([], ())
  refine ⟨(listing [] fs).all fun e => e.name = dotName ∨ e.name = dotdotName, st₂, ?_, ?_⟩
  · rw [fatDirIsEmpty, hempty, ← run_isEmptySlot]
    cases Scan.run (fun s f => isEmptySlot s f.cluster f.offset f.ent) fs ([], ()) with
    | next s => rfl
    | stop r => rfl
  · rw [List.all_eq_true]
    exact forall₂_congr fun e _ => decide_eq_true_iff

end Directory

/-- The root directory holds the label `X` only. -/
def labelled : Fs := smallFs [(2, 0x0FFFFFFF)] [(2, slotOf [0x58] 0x08 0 0)]

theorem dir_is_empty_label :
    ∃ st₂, fatDirIsEmpty labelled 2 = some (true, st₂) := by
  have hread : (fatReadDir labelled 2 10).map (fun r => r.1) = some (some []) := by decide +kernel
  obtain ⟨⟨r, st'⟩, hrun, rfl⟩ := Option.map_eq_some_iff.mp hread
  obtain ⟨empty, st₂, hempty, hiff⟩ := dir_is_empty_iff hrun (by decide)
  obtain rfl := hiff.mpr fun e he => absurd he List.not_mem_nil
  exact ⟨st₂, hempty⟩

end FusionOS.Fat
