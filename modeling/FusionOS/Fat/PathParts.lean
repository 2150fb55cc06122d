import Mathlib.Data.List.Forall2
import FusionOS.Fat.EraseExact
import FusionOS.Fat.Listing
import FusionOS.Fat.NewFile

/-!
# Paths and their components

`path_dir_cluster` goes through a path slash by slash. It should come to where the components that
are not empty lead one after the other. It skips one slash at the start only, so that a second one
makes an empty component, and its buffer keeps 63 bytes of a component.
-/

namespace FusionOS.Fat

open List

/-- The components of a path that are not empty. -/
def components (path : CString) : List CString := (path.splitOn 0x2F).filter fun c => c ≠ []

/-- The directory that the names in `cs` lead to one after the other. -/
def walkDirs : Nat → List CString → Fs → Option (Option Nat × Fs)
  | dir, [], st => some (some dir, st)
  | dir, c :: cs, st =>
    match fatFindEntry st dir c with
    | none => none
    | some (none, st) => some (none, st)
    | some (some f, st) =>
      if direntIsDir f.ent = false ∨ direntFirstCluster f.ent = 0 then some (none, st)
      else walkDirs (direntFirstCluster f.ent) cs st

/-- What resolving a list of components from the directory `dir` gives: the directory that all but
the last of them lead to, 0 where there is none, and the last one. -/
def resolveFrom (dir : Nat) (cs : List CString) (st : Fs) : Option ((Nat × CString) × Fs) :=
  (walkDirs dir cs.dropLast st).map fun r => ((r.1.getD 0, if r.1.isSome then cs.getLastD [] else []), r.2)

def resolveComponents (st : Fs) (cs : List CString) : Option ((Nat × CString) × Fs) :=
  resolveFrom st.vol.rootCluster cs st

/-! ## Components -/

section Components

lemma components_slash (p q : CString) : components (p ++ 0x2F :: q) = components p ++ components q := by
  unfold components List.splitOn
  rw [splitOnP_append_cons (p := fun x : UInt8 => x == 0x2F) p q rfl, filter_append]

lemma components_cons_slash (q : CString) : components (0x2F :: q) = components q :=
  components_slash [] q

lemma components_single {p : CString} (h : 0x2F ∉ p) : components p = [p].filter fun c => c ≠ [] := by
  unfold components List.splitOn
  rw [splitOnP_eq_singleton fun x hx => by
    rw [beq_eq_false_iff_ne]
    rintro rfl
    exact h hx]

lemma components_dropWhile (p : CString) : components (p.dropWhile (· == 0x2F)) = components p := by
  induction p with
  | nil => rfl
  | cons c p ih =>
    by_cases hc : c = 0x2F
    · subst hc
      rw [components_cons_slash, ← ih]
      rfl
    · rw [dropWhile_cons, if_neg (by simpa using hc)]

lemma not_mem_pathComp (p : CString) : 0x2F ∉ pathComp p := by
  intro h
  have hslash := all_eq_true.mp all_takeWhile 0x2F h
  exact absurd hslash (by decide)

lemma components_pathRest (p : CString) :
    components p = ([pathComp p].filter fun c => c ≠ []) ++ components (pathRest p) := by
  have hsplit : p = pathComp p ++ p.dropWhile (· != 0x2F) := takeWhile_append_dropWhile.symm
  have hdrop : p.drop (pathComp p).length = p.dropWhile (· != 0x2F) :=
    (congrArg (List.drop (pathComp p).length) hsplit).trans drop_left
  rw [pathRest, hdrop, components_dropWhile, ← components_single (not_mem_pathComp p)]
  cases hq : p.dropWhile (· != 0x2F) with
  | nil =>
    rw [hq, append_nil] at hsplit
    rw [← hsplit]
    exact (append_nil _).symm
  | cons c q =>
    have hc : c = 0x2F := by
      have := List.head?_dropWhile_not (fun x : UInt8 => x != 0x2F) p
      rw [hq] at this
      simpa using this
    subst hc
    conv_lhs => rw [hsplit, hq]
    rw [components_slash, components_cons_slash]

lemma ne_nil_of_mem_components {path c : CString} (h : c ∈ components path) : c ≠ [] := by
  simpa using (mem_filter.mp h).2

end Components

/-! ## What the loop makes of a path -/

/-- The components that the loop of `path_dir_cluster` goes through from `p` on: the first one may be
empty. -/
def loopParts (p : CString) : List CString := if p = [] then [] else pathComp p :: components (pathRest p)

/-- The components that `path_dir_cluster` goes through: two slashes at the start have an empty one
between them. -/
def pathParts (path : CString) : List CString :=
  if path.take 2 = [0x2F, 0x2F] then [] :: components path else components path

section Loop
variable {st : Fs}

variable {p : CString}

lemma loopParts_of_comp (h : pathComp p ≠ []) : loopParts p = components p := by
  have hp : p ≠ [] := by
    rintro rfl
    exact h rfl
  rw [loopParts, if_neg hp, components_pathRest p]
  simp [h]

lemma pathComp_ne_nil {c : UInt8} (h : c ≠ 0x2F) : pathComp (c :: p) ≠ [] := by
  rw [pathComp, takeWhile_cons, if_pos (by simpa using h)]
  exact cons_ne_nil _ _

lemma loopParts_pathRest (p : CString) : loopParts (pathRest p) = components (pathRest p) := by
  cases hrest : pathRest p with
  | nil => rfl
  | cons c q =>
    apply loopParts_of_comp (pathComp_ne_nil _)
    have hhead := List.head?_dropWhile_not (fun x : UInt8 => x == 0x2F) (p.drop (pathComp p).length)
    rw [show List.dropWhile _ _ = c :: q from hrest] at hhead
    simpa using hhead

lemma getLastD_cons {c : CString} {cs : List CString} (hne : cs ≠ []) :
    (c :: cs).getLastD [] = cs.getLastD [] := by
  cases cs with
  | nil => exact absurd rfl hne
  | cons _ _ => rfl

lemma pathLoop_parts (fuel : Nat) (hf : p.length < fuel) (d : Nat) :
    pathLoop fuel d p st = resolveFrom d ((loopParts p).map (List.take 63)) st := by
  induction fuel generalizing p d st with
  | zero => omega
  | succ fuel ih =>
    rw [pathLoop]
    by_cases hp : p = []
    · subst hp
      rfl
    rw [if_neg hp]
    by_cases hrest : pathRest p = []
    · rw [if_pos hrest, loopParts, if_neg hp, hrest]
      rfl
    · rw [if_neg hrest, loopParts, if_neg hp, map_cons]
      have hlt := pathRest_length_lt hp hrest
      have hparts := loopParts_pathRest p
      have hne : (components (pathRest p)).map (List.take 63) ≠ [] := by
        rw [← hparts, loopParts, if_neg hrest]
        exact cons_ne_nil _ _
      rw [resolveFrom, dropLast_cons_of_ne_nil hne, getLastD_cons hne, walkDirs]
      cases fatFindEntry st d ((pathComp p).take 63) with
      | none => rfl
      | some r =>
        obtain ⟨found, st1⟩ := r
        cases found with
        | none => rfl
        | some f =>
          dsimp only
          rw [ih (by omega), hparts, resolveFrom]
          split
          · rfl
          · rfl

lemma loopParts_pathStart {path : CString} (h : path ≠ []) (hroot : path ≠ [0x2F]) :
    loopParts (pathStart path) = pathParts path := by
  cases path with
  | nil => exact absurd rfl h
  | cons c q =>
    by_cases hc : c = 0x2F
    · subst hc
      rw [pathStart, if_pos List.head?_cons, tail_cons]
      cases q with
      | nil => exact absurd rfl hroot
      | cons c' q =>
        by_cases hc' : c' = 0x2F
        · subst hc'
          have hempty : pathComp (0x2F :: q) = [] := rfl
          have htwo : (0x2F :: 0x2F :: q).take 2 = [0x2F, 0x2F] := rfl
          rw [pathParts, if_pos htwo, loopParts, if_neg (cons_ne_nil _ _), hempty,
            components_cons_slash (0x2F :: q), components_pathRest (0x2F :: q), hempty]
          rfl
        · rw [loopParts_of_comp (pathComp_ne_nil hc'), pathParts,
            if_neg (by simp [hc']), components_cons_slash]
    · rw [pathStart, if_neg (by simpa using hc), loopParts_of_comp (pathComp_ne_nil hc), pathParts,
        if_neg (by simp [hc])]

lemma pathDirCluster_parts (path : CString) (h : path ≠ []) :
    pathDirCluster st path = resolveComponents st ((pathParts path).map (List.take 63)) := by
  rw [pathDirCluster, if_neg h, pathLoop_parts _ (pathStart_length_lt path), resolveComponents]
  by_cases hroot : path = [0x2F]
  · subst hroot
    rfl
  · rw [loopParts_pathStart h hroot]

end Loop

/-- The path is not empty, its components fit the buffer, and it does not begin with two slashes, unless
there is nothing else in it. -/
def PathOk (path : CString) : Prop :=
  path ≠ [] ∧ (path.take 2 = [0x2F, 0x2F] → components path = []) ∧ ∀ c ∈ components path, c.length ≤ 63

instance (path : CString) : Decidable (PathOk path) := inferInstanceAs (Decidable (_ ∧ _ ∧ _))

variable {cs : List CString}

lemma PathOk.resolved {path : CString} (h : PathOk path) (st : Fs) :
    pathDirCluster st path = resolveComponents st (components path) := by
  obtain ⟨hne, hslash, hlen⟩ := h
  have hcut : (components path).map (List.take 63) = components path := by
    conv_rhs => rw [← map_id (components path)]
    exact map_congr_left fun c hc => take_of_length_le (hlen c hc)
  rw [pathDirCluster_parts path hne, pathParts]
  split
  · next htwo =>
    rw [hslash htwo]
    rfl
  · rw [hcut]

/-! ## Where different components lead -/

/-- From the directory `d` the names lead to `d'`, through entries other than `.` and `..`. -/
inductive Image.Reaches (I : Image) (d : Nat) : List CString → Nat → Prop where
  | nil : Reaches I d [] d
  | snoc {cs : List CString} {c : CString} {e : Nat} {l : List Nat} {f : Found} : Reaches I d cs e →
      I.ChainAt e l → lookup c [] (I.slots l) = some f → ¬ IsDot f.ent → direntIsDir f.ent = true →
      direntFirstCluster f.ent ≠ 0 → Reaches I d (cs ++ [c]) (direntFirstCluster f.ent)

section Reaching
variable {I : Image}

variable {f : Found} {cs : List CString} {d d' : Nat}

lemma Image.Reaches.cons {e : Nat} {c : CString} {l : List Nat}
    (hl : I.ChainAt d l) (hlook : lookup c [] (I.slots l) = some f) (hdot : ¬ IsDot f.ent)
    (hdir : direntIsDir f.ent = true) (h0 : direntFirstCluster f.ent ≠ 0)
    (he : direntFirstCluster f.ent = e) (h : I.Reaches e cs d') : I.Reaches d (c :: cs) d' := by
  subst he
  induction h with
  | nil => exact .snoc .nil hl hlook hdot hdir h0
  | snoc _ hl' hlook' hdot' hdir' h0' ih => exact .snoc ih hl' hlook' hdot' hdir' h0'

lemma Image.Reaches.dir {p : Nat} (hd : I.Dir d p) (h : I.Reaches d cs d') :
    ∃ q, I.Dir d' q := by
  induction h with
  | nil => exact ⟨p, hd⟩
  | snoc _ hl hlook hdot hdir h0 ih =>
    obtain ⟨q, hq⟩ := ih
    obtain ⟨hmem, hent⟩ := lookup_some hlook
    exact ⟨_, .sub hq hl hmem hent hdot hdir h0⟩

lemma Image.Reaches.cases_last (h : I.Reaches d cs d') :
    cs = [] ∧ d' = d ∨ ∃ cs' c e l f, cs = cs' ++ [c] ∧ I.Reaches d cs' e ∧ I.ChainAt e l ∧
      lookup c [] (I.slots l) = some f ∧ ¬ IsDot f.ent ∧ direntIsDir f.ent = true ∧
      direntFirstCluster f.ent ≠ 0 ∧ direntFirstCluster f.ent = d' := by
  cases h with
  | nil => exact .inl ⟨rfl, rfl⟩
  | snoc h hl hlook hdot hdir h0 => exact .inr ⟨_, _, _, _, _, rfl, h, hl, hlook, hdot, hdir, h0, rfl⟩

lemma Image.Sound.first_ne_root (hs : I.Sound) (hf : I.Entry f)
    (h0 : direntFirstCluster f.ent ≠ 0) : direntFirstCluster f.ent ≠ I.vol.rootCluster := by
  intro heq
  obtain ⟨l, hl⟩ := hs.chain hf h0
  have hroot : I.ChainAt I.vol.rootCluster l := by
    rw [← heq]
    exact hl
  exact hs.root_disjoint hf hl hroot hl.head_mem hl.head_mem

lemma Image.Reaches.unique (hs : I.Sound) (hg : Geometry I.vol) {cs' : List CString}
    (h : I.Reaches I.vol.rootCluster cs d) (h' : I.Reaches I.vol.rootCluster cs' d) :
    List.Forall₂ (fun a b => nameEquals a b = true) cs cs' := by
  have hentry : ∀ {e : Nat} {ds : List CString} {c : CString} {l : List Nat} {f : Found},
      I.Reaches I.vol.rootCluster ds e → I.ChainAt e l → lookup c [] (I.slots l) = some f →
      ¬ IsDot f.ent → I.Entry f := by
    intro e ds c l f hreach hl hlook hdot
    obtain ⟨q, hq⟩ := hreach.dir .root
    exact ⟨e, q, l, hq, hl, (lookup_some hlook).1, (lookup_some hlook).2, hdot⟩
  induction h generalizing cs' with
  | nil =>
    rcases h'.cases_last with ⟨rfl, -⟩ | ⟨_, _, _, _, f, rfl, hreach, hl, hlook, hdot, -, h0, hroot⟩
    · exact .nil
    · exact absurd hroot (hs.first_ne_root (hentry hreach hl hlook hdot) h0)
  | @snoc cs c e l f hreach hl hlook hdot hdir h0 ih =>
    have hf := hentry hreach hl hlook hdot
    rcases h'.cases_last with ⟨-, hroot⟩ | ⟨cs2, c2, e2, l2, f2, rfl, hreach2, hl2, hlook2, hdot2, -, h02, heq⟩
    · exact absurd hroot (hs.first_ne_root hf h0)
    · -- the two last entries lead to one chain, so they are one entry of one directory
      obtain ⟨m, hm⟩ := hs.chain hf h0
      have hm2 : I.ChainAt (direntFirstCluster f2.ent) m := by
        rw [heq]
        exact hm
      obtain rfl := hs.disjoint hf (hentry hreach2 hl2 hlook2 hdot2) hm hm2 hm.head_mem hm.head_mem
      obtain ⟨q, hq⟩ := hreach.dir .root
      obtain ⟨q2, hq2⟩ := hreach2.dir .root
      have hin := (mem_dirSlots.mp (lookup_some hlook).1).1
      have hin2 := (mem_dirSlots.mp (lookup_some hlook2).1).1
      obtain rfl := hs.dir_eq hg hq hl hq2 hl2 hin hin2
      obtain rfl := FatChain.unique hg hl hl2
      have hname := lookup_inj (dirSlots_nodup (FatChain.nodup hg hl)) hlook hlook2
      exact rel_append (ih hreach2) (.cons hname .nil)

end Reaching

/-- The entries through which the names in `cs` lead one after the other. -/
def walkFound : Nat → List CString → Fs → List Found
  | _, [], _ => []
  | dir, c :: cs, st =>
    match fatFindEntry st dir c with
    | some (some f, st) => f :: walkFound (direntFirstCluster f.ent) cs st
    | _ => []

/-- On the way to its last component the path goes through neither `.` nor `..`. -/
def NoDots (st : Fs) (path : CString) : Prop :=
  ∀ f ∈ walkFound st.vol.rootCluster (components path).dropLast st, ¬ IsDot f.ent

instance (st : Fs) (path : CString) : Decidable (NoDots st path) :=
  inferInstanceAs
    (Decidable (∀ f ∈ walkFound st.vol.rootCluster (components path).dropLast st, ¬ IsDot f.ent))

lemma walkDirs_reaches {st st' : Fs} {d d' p : Nat} (hr : Ready st)
    (hs : st.image.Sound) (hd : st.image.Dir d p) (hdots : ∀ f ∈ walkFound d cs st, ¬ IsDot f.ent)
    (h : walkDirs d cs st = some (some d', st')) : st.image.Reaches d cs d' := by
  induction cs generalizing st d p with
  | nil =>
    cases h
    exact .nil
  | cons c cs ih =>
    obtain ⟨l, hl⟩ := hs.dir_chain hd
    obtain ⟨st1, hfind, hq⟩ := fatFindEntry_ok hr hl c
    rw [walkDirs, hfind] at h
    rw [walkFound, hfind] at hdots
    cases hlook : lookup c [] (dirSlots st.vol st.data l) with
    | none =>
      rw [hlook] at h
      cases h
    | some f =>
      rw [hlook] at h hdots
      dsimp only at h hdots
      split at h
      · cases h
      next hno =>
      rw [not_or, Bool.not_eq_false] at hno
      obtain ⟨hmem, hent⟩ := lookup_some hlook
      obtain ⟨hdot, hdots⟩ := forall_mem_cons.mp hdots
      have hsub : st1.image.Dir (direntFirstCluster f.ent) d := by
        rw [hq.image]
        exact .sub hd hl hmem hent hdot hno.1 hno.2
      have hreach := ih (hq.ready hr) (hq.image ▸ hs) hsub hdots h
      rw [hq.image] at hreach
      exact .cons hl hlook hdot hno.1 hno.2 rfl hreach

lemma resolveComponents_some {st st' : Fs} {d : Nat} {leaf : CString} (hd : d ≠ 0)
    (h : resolveComponents st cs = some ((d, leaf), st')) :
    walkDirs st.vol.rootCluster cs.dropLast st = some (some d, st') ∧ leaf = cs.getLastD [] := by
  obtain ⟨⟨x, st1⟩, hwalk, heq⟩ := Option.map_eq_some_iff.mp h
  cases x with
  | none =>
    cases heq
    exact absurd rfl hd
  | some e =>
    cases heq
    exact ⟨hwalk, rfl⟩

lemma forall₂_of_last {cs' : List CString} (hcs : ∀ c ∈ cs, c ≠ []) (hcs' : ∀ c ∈ cs', c ≠ [])
    (h : List.Forall₂ (fun a b => nameEquals a b = true) cs.dropLast cs'.dropLast)
    (hlast : nameEquals (cs.getLastD []) (cs'.getLastD []) = true) :
    List.Forall₂ (fun a b => nameEquals a b = true) cs cs' := by
  have hlen := nameEquals_length hlast
  rcases eq_nil_or_concat cs with rfl | ⟨ds, c, rfl⟩
  · rcases eq_nil_or_concat cs' with rfl | ⟨ds', c', rfl⟩
    · exact .nil
    · rw [concat_eq_append] at hlen hcs'
      rw [getLastD_concat] at hlen
      exact absurd (eq_nil_of_length_eq_zero hlen.symm) (hcs' c' (by simp))
  · rw [concat_eq_append] at *
    rcases eq_nil_or_concat cs' with rfl | ⟨ds', c', rfl⟩
    · rw [getLastD_concat] at hlen
      exact absurd (eq_nil_of_length_eq_zero hlen) (hcs c (by simp))
    · rw [concat_eq_append] at *
      rw [getLastD_concat, getLastD_concat] at hlast
      rw [dropLast_concat, dropLast_concat] at h
      exact rel_append h (.cons hlast .nil)

end FusionOS.Fat
