import Mathlib.Data.List.Chain
import Mathlib.Algebra.Group.Nat.Even
import Mathlib.Algebra.GroupWithZero.Nat

/-!
# Blocks that tile an interval

A heap of contiguous blocks, each behind a header of `hdr` bytes, is a list of sizes and free
flags: the address of a block is determined by what stands before it. Merging neighbours and
choosing a block are functions on such lists.
-/

namespace FusionOS.Tiling

open List

structure Blk where
  size : Nat
  free : Bool
  deriving DecidableEq, Repr

variable (hdr : Nat)

def span : List Blk → Nat
  | [] => 0
  | b :: bs => hdr + b.size + span bs

/-- The blocks with the addresses of their headers, the first one at `a`. -/
def located : Nat → List Blk → List (Nat × Blk)
  | _, [] => []
  | a, b :: bs => (a, b) :: located (a + hdr + b.size) bs

def used (a : Nat) (bs : List Blk) : List (Nat × Blk) :=
  (located hdr a bs).filter fun p => !p.2.free

def usedBytes (bs : List Blk) : Nat := ((bs.filter fun b => !b.free).map Blk.size).sum

def NoAdjFree (bs : List Blk) : Prop :=
  bs.IsChain fun a b => ¬ (a.free = true ∧ b.free = true)

/-- Merges the free neighbours of a list whose first block is `cur`. -/
def coalesceFrom (cur : Blk) : List Blk → List Blk
  | [] => [cur]
  | b :: bs =>
    if cur.free && b.free then coalesceFrom ⟨cur.size + (hdr + b.size), true⟩ bs
    else cur :: coalesceFrom b bs

def coalesce : List Blk → List Blk
  | [] => []
  | b :: bs => coalesceFrom hdr b bs

def bestFit (n : Nat) : Nat → List Blk → Option (Nat × Blk) → Option (Nat × Blk)
  | _, [], best => best
  | a, b :: bs, best =>
    if b.free && decide (n ≤ b.size) && (best.all fun p => decide (b.size < p.2.size)) then
      if b.size = n then some (a, b)
      else bestFit n (a + hdr + b.size) bs (some (a, b))
    else bestFit n (a + hdr + b.size) bs best

variable {hdr}

variable {b : Blk} {bs post pre : List Blk} {a n : Nat}

lemma span_append (xs ys : List Blk) : span hdr (xs ++ ys) = span hdr xs + span hdr ys := by
  induction xs with
  | nil => simp [span]
  | cons b xs ih =>
    simp only [cons_append, span, ih]
    omega

lemma located_append (a : Nat) (xs ys : List Blk) :
    located hdr a (xs ++ ys) = located hdr a xs ++ located hdr (a + span hdr xs) ys := by
  induction xs generalizing a with
  | nil => simp [located, span]
  | cons b xs ih =>
    have hadd : a + hdr + b.size + span hdr xs = a + span hdr (b :: xs) := by
      simp only [span]
      omega
    simp only [cons_append, located, ih, hadd]

lemma length_mul_le_span (bs : List Blk) : bs.length * hdr ≤ span hdr bs := by
  induction bs with
  | nil => simp
  | cons b bs ih =>
    simp only [length_cons, span, Nat.add_mul]
    omega

@[simp] lemma located_length (a : Nat) (bs : List Blk) : (located hdr a bs).length = bs.length := by
  induction bs generalizing a with
  | nil => rfl
  | cons b bs ih => simp [located, ih]

lemma located_bounds {p : Nat × Blk} (h : p ∈ located hdr a bs) :
    a ≤ p.1 ∧ p.1 + hdr + p.2.size ≤ a + span hdr bs := by
  induction bs generalizing a with
  | nil => simp [located] at h
  | cons b bs ih =>
    simp only [span]
    rcases mem_cons.mp h with rfl | h
    · dsimp only
      omega
    · have := ih h
      omega

lemma located_pairwise (a : Nat) (bs : List Blk) :
    (located hdr a bs).Pairwise fun p q => p.1 + hdr + p.2.size ≤ q.1 := by
  induction bs generalizing a with
  | nil => exact .nil
  | cons b bs ih =>
    refine List.Pairwise.cons (fun q hq => ?_) (ih _)
    exact (located_bounds hq).1

lemma located_disjoint {p q : Nat × Blk} (hp : p ∈ located hdr a bs)
    (hq : q ∈ located hdr a bs) :
    p = q ∨ p.1 + hdr + p.2.size ≤ q.1 ∨ q.1 + hdr + q.2.size ≤ p.1 := by
  induction bs generalizing a with
  | nil => simp [located] at hp
  | cons b bs ih =>
    rcases mem_cons.mp hp with rfl | hp
    · rcases mem_cons.mp hq with rfl | hq
      · exact Or.inl rfl
      · exact Or.inr (Or.inl (located_bounds hq).1)
    · rcases mem_cons.mp hq with rfl | hq
      · exact Or.inr (Or.inr (located_bounds hp).1)
      · exact ih hp hq

lemma mem_located_split {x : Nat}
    (h : (x, b) ∈ located hdr a bs) :
    ∃ pre post, bs = pre ++ b :: post ∧ x = a + span hdr pre := by
  induction bs generalizing a with
  | nil => simp [located] at h
  | cons c bs ih =>
    rcases mem_cons.mp h with heq | h
    · obtain ⟨rfl, rfl⟩ := Prod.mk.inj heq
      exact ⟨[], bs, rfl, by simp [span]⟩
    · obtain ⟨pre, post, rfl, rfl⟩ := ih h
      refine ⟨c :: pre, post, rfl, ?_⟩
      simp only [span]
      omega

lemma mem_located_replace (old : List Blk) {mid : List Blk} {p : Nat × Blk}
    (hspan : span hdr mid = span hdr old) (hold : p ∉ located hdr (a + span hdr pre) old)
    (hp : p ∈ located hdr a (pre ++ (old ++ post))) :
    p ∈ located hdr a (pre ++ (mid ++ post)) := by
  simp only [located_append, mem_append, hspan] at hp ⊢
  rcases hp with hp | hp | hp
  · exact Or.inl hp
  · exact absurd hp hold
  · exact Or.inr (Or.inr hp)

variable (hdr) in
lemma coalesceFrom_head (c : Blk) (bs : List Blk) :
    ∃ x xs, coalesceFrom hdr c bs = x :: xs ∧ x.free = c.free := by
  induction bs generalizing c with
  | nil => exact ⟨c, [], rfl, rfl⟩
  | cons b bs ih =>
    by_cases hfree : c.free = true ∧ b.free = true
    · obtain ⟨x, xs, hx, hxf⟩ := ih ⟨c.size + (hdr + b.size), true⟩
      exact ⟨x, xs, by simp [coalesceFrom, hfree, hx], by simp [hxf, hfree.1]⟩
    · exact ⟨c, coalesceFrom hdr b bs, by simp [coalesceFrom, hfree], rfl⟩

lemma coalesceFrom_noAdjFree (c : Blk) (bs : List Blk) : NoAdjFree (coalesceFrom hdr c bs) := by
  induction bs generalizing c with
  | nil => exact List.IsChain.singleton c
  | cons b bs ih =>
    by_cases hfree : c.free = true ∧ b.free = true
    · simpa [coalesceFrom, hfree] using ih ⟨c.size + (hdr + b.size), true⟩
    · obtain ⟨x, xs, hx, hxf⟩ := coalesceFrom_head hdr b bs
      have hrest := ih b
      rw [hx] at hrest
      have hcons : coalesceFrom hdr c (b :: bs) = c :: x :: xs := by
        simp [coalesceFrom, hfree, hx]
      rw [hcons]
      exact isChain_cons_cons.mpr ⟨by rw [hxf]; exact hfree, hrest⟩

lemma coalesceFrom_span (c : Blk) (bs : List Blk) :
    span hdr (coalesceFrom hdr c bs) = span hdr (c :: bs) := by
  induction bs generalizing c with
  | nil => rfl
  | cons b bs ih =>
    by_cases hfree : c.free = true ∧ b.free = true
    · have h := ih ⟨c.size + (hdr + b.size), true⟩
      simp only [span] at h ⊢
      simp only [coalesceFrom, hfree.1, hfree.2, Bool.and_self, if_true, h]
      omega
    · have h := ih b
      simp only [span] at h ⊢
      simp [coalesceFrom, hfree, span, h]

lemma coalesceFrom_used (a : Nat) (c : Blk) (bs : List Blk) :
    used hdr a (coalesceFrom hdr c bs) = used hdr a (c :: bs) := by
  induction bs generalizing a c with
  | nil => rfl
  | cons b bs ih =>
    by_cases hfree : c.free = true ∧ b.free = true
    · have h := ih a ⟨c.size + (hdr + b.size), true⟩
      have haddr : a + hdr + (c.size + (hdr + b.size)) = a + hdr + c.size + hdr + b.size := by omega
      simp only [used, located, haddr] at h ⊢
      simpa [coalesceFrom, hfree, filter_cons] using h
    · have h := ih (a + hdr + c.size) b
      simp only [used, located] at h ⊢
      simp [coalesceFrom, hfree, located, filter_cons, h]

lemma coalesceFrom_dvd {k : Nat} (hk : k ∣ hdr) {c : Blk} (hc : k ∣ c.size)
    (hbs : ∀ b ∈ bs, k ∣ b.size) : ∀ b ∈ coalesceFrom hdr c bs, k ∣ b.size := by
  induction bs generalizing c with
  | nil => simpa [coalesceFrom] using hc
  | cons b bs ih =>
    have hb := hbs b mem_cons_self
    have hrest : ∀ x ∈ bs, k ∣ x.size := fun x hx => hbs x (mem_cons_of_mem b hx)
    by_cases hfree : c.free = true ∧ b.free = true
    · have h := ih (c := ⟨c.size + (hdr + b.size), true⟩)
        (Nat.dvd_add hc (Nat.dvd_add hk hb)) hrest
      simpa [coalesceFrom, hfree] using h
    · intro x hx
      simp only [coalesceFrom, Bool.and_eq_true, hfree, if_false, mem_cons] at hx
      rcases hx with rfl | hx
      · exact hc
      · exact ih hb hrest x hx

/-- The block `b` fits, is smaller than every fitting block before it, and no larger than one behind. -/
structure FirstBest (n : Nat) (pre : List Blk) (b : Blk) (post : List Blk) : Prop where
  free : b.free = true
  fits : n ≤ b.size
  before : ∀ c ∈ pre, c.free = true → n ≤ c.size → b.size < c.size
  behind : ∀ c ∈ post, c.free = true → n ≤ c.size → b.size ≤ c.size

lemma bestFit_cases {best : Option (Nat × Blk)} {p : Nat × Blk}
    (h : bestFit hdr n a bs best = some p) :
    (best = some p ∧ ∀ c ∈ bs, c.free = true → n ≤ c.size → p.2.size ≤ c.size) ∨
    ∃ pre post, bs = pre ++ p.2 :: post ∧ p.1 = a + span hdr pre ∧ FirstBest n pre p.2 post ∧
      ∀ q, best = some q → p.2.size < q.2.size := by
  induction bs generalizing a best with
  | nil => exact Or.inl ⟨h, fun c hc => absurd hc not_mem_nil⟩
  | cons b bs ih =>
    rw [bestFit] at h
    split at h
    · rename_i hb
      simp only [Bool.and_eq_true, decide_eq_true_eq] at hb
      obtain ⟨⟨hfree, hfits⟩, hall⟩ := hb
      have hbetter : ∀ q, best = some q → b.size < q.2.size := by
        rintro q rfl
        simpa using hall
      right
      split at h
      · rename_i hexact
        cases h
        refine ⟨[], bs, rfl, rfl, ⟨hfree, hfits, ?_, ?_⟩, hbetter⟩
        · exact fun c hc => absurd hc not_mem_nil
        · intro c _ _ hc
          exact hexact ▸ hc
      · rcases ih h with ⟨hp, hleast⟩ | ⟨pre, post, hlist, haddr, hbest, hless⟩
        · cases hp
          refine ⟨[], bs, rfl, rfl, ⟨hfree, hfits, ?_, hleast⟩, hbetter⟩
          exact fun c hc => absurd hc not_mem_nil
        · have hlt : p.2.size < b.size := hless (a, b) rfl
          refine ⟨b :: pre, post, by rw [hlist]; rfl, by rw [haddr, span]; omega, ?_, ?_⟩
          · exact ⟨hbest.free, hbest.fits, forall_mem_cons.mpr ⟨fun _ _ => hlt, hbest.before⟩,
              hbest.behind⟩
          · exact fun q hq => hlt.trans (hbetter q hq)
    · rename_i hb
      simp only [Bool.and_eq_true, decide_eq_true_eq] at hb
      -- a block that fits and is passed over is no better than the candidate
      have hworse : b.free = true → n ≤ b.size → ∃ q, best = some q ∧ q.2.size ≤ b.size := by
        intro hfree hfits
        cases best with
        | none => exact absurd ⟨⟨hfree, hfits⟩, rfl⟩ hb
        | some q => exact ⟨q, rfl, Nat.le_of_not_lt fun hlt => hb ⟨⟨hfree, hfits⟩, by simpa using hlt⟩⟩
      rcases ih h with ⟨hp, hleast⟩ | ⟨pre, post, hlist, haddr, hbest, hless⟩
      · refine Or.inl ⟨hp, forall_mem_cons.mpr ⟨fun hfree hfits => ?_, hleast⟩⟩
        obtain ⟨q, hq, hle⟩ := hworse hfree hfits
        rw [hp] at hq
        cases hq
        exact hle
      · refine Or.inr ⟨b :: pre, post, by rw [hlist]; rfl, by rw [haddr, span]; omega, ?_, hless⟩
        refine ⟨hbest.free, hbest.fits, forall_mem_cons.mpr ⟨fun hfree hfits => ?_, hbest.before⟩,
          hbest.behind⟩
        obtain ⟨q, hq, hle⟩ := hworse hfree hfits
        exact (hless q hq).trans_le hle

lemma bestFit_split {p : Nat × Blk}
    (h : bestFit hdr n a bs none = some p) :
    ∃ pre post, bs = pre ++ p.2 :: post ∧ p.1 = a + span hdr pre ∧ FirstBest n pre p.2 post := by
  rcases bestFit_cases h with ⟨hnone, -⟩ | ⟨pre, post, hlist, haddr, hbest, -⟩
  · cases hnone
  · exact ⟨pre, post, hlist, haddr, hbest⟩

lemma bestFit_some_ne_none (n a : Nat) (bs : List Blk) (p : Nat × Blk) :
    bestFit hdr n a bs (some p) ≠ none := by
  induction bs generalizing a p with
  | nil => exact Option.some_ne_none p
  | cons b bs ih =>
    simp only [bestFit]
    split
    · split
      · exact Option.some_ne_none _
      · exact ih _ _
    · exact ih _ _

lemma bestFit_eq_none_iff :
    bestFit hdr n a bs none = none ↔ ∀ b ∈ bs, b.free = true → ¬ n ≤ b.size := by
  induction bs generalizing a with
  | nil => simp [bestFit]
  | cons b bs ih =>
    rw [forall_mem_cons, bestFit, Option.all_none, Bool.and_true]
    by_cases hb : b.free = true ∧ n ≤ b.size
    · rw [if_pos (by simpa using hb)]
      constructor
      · intro h
        split at h
        · cases h
        · exact absurd h (bestFit_some_ne_none _ _ _ _)
      · intro h
        exact absurd hb.2 (h.1 hb.1)
    · rw [if_neg (by simpa using hb), ih]
      constructor
      · intro h
        exact ⟨fun hf hn => hb ⟨hf, hn⟩, h⟩
      · exact And.right

lemma located_map_snd (a : Nat) (bs : List Blk) : (located hdr a bs).map Prod.snd = bs := by
  induction bs generalizing a with
  | nil => rfl
  | cons b bs ih => simp [located, ih]

lemma used_append (a : Nat) (xs ys : List Blk) :
    used hdr a (xs ++ ys) = used hdr a xs ++ used hdr (a + span hdr xs) ys := by
  simp [used, located_append]

lemma used_cons_free (hb : b.free = true) (bs : List Blk) :
    used hdr a (b :: bs) = used hdr (a + hdr + b.size) bs := by
  simp [used, located, hb]

lemma used_cons_used (hb : b.free = false) (bs : List Blk) :
    used hdr a (b :: bs) = (a, b) :: used hdr (a + hdr + b.size) bs := by
  simp [used, located, hb]

lemma mem_used_bounds {p : Nat × Blk} (h : p ∈ used hdr a bs) :
    a ≤ p.1 ∧ p.1 + hdr + p.2.size ≤ a + span hdr bs :=
  located_bounds (mem_of_mem_filter h)

lemma used_filter_ne (hpos : 0 < hdr) (hb : b.free = false) :
    (used hdr a (pre ++ b :: post)).filter (fun p => p.1 ≠ a + span hdr pre) =
      used hdr a pre ++ used hdr (a + span hdr pre + hdr + b.size) post := by
  rw [used_append, used_cons_used hb, filter_append, filter_cons_of_neg (by simp)]
  congr 1
  · refine filter_eq_self.mpr fun p hp => ?_
    have hbounds := mem_used_bounds hp
    simp only [ne_eq, decide_not, Bool.not_eq_eq_eq_not, Bool.not_true, decide_eq_false_iff_not]
    omega
  · refine filter_eq_self.mpr fun p hp => ?_
    have hbounds := mem_used_bounds hp
    simp only [ne_eq, decide_not, Bool.not_eq_eq_eq_not, Bool.not_true, decide_eq_false_iff_not]
    omega

lemma NoAdjFree.used_behind (h : NoAdjFree (b :: bs)) (hb : b.free = true) :
    bs = [] ∨ ∃ c cs, bs = c :: cs ∧ c.free = false := by
  cases bs with
  | nil => exact Or.inl rfl
  | cons c cs =>
    have hnot := (isChain_cons_cons.mp h).1
    exact Or.inr ⟨c, cs, rfl, by simpa [hb] using hnot⟩

lemma eq_of_used_eq (hpos : 0 < hdr) {cs : List Blk}
    (hspan : span hdr bs = span hdr cs) (hbs : NoAdjFree bs) (hcs : NoAdjFree cs)
    (hused : used hdr a bs = used hdr a cs) : bs = cs := by
  induction bs generalizing a cs with
  | nil =>
    cases cs with
    | nil => rfl
    | cons c cs =>
      simp only [span] at hspan
      omega
  | cons b bs ih =>
    cases cs with
    | nil =>
      simp only [span] at hspan
      omega
    | cons c cs =>
      have hrest : b = c → used hdr (a + hdr + b.size) bs = used hdr (a + hdr + c.size) cs →
          b :: bs = c :: cs := by
        rintro rfl htail
        have hspan' : span hdr bs = span hdr cs := by
          simp only [span] at hspan
          omega
        exact congrArg _ (ih hspan' hbs.tail hcs.tail htail)
      cases hb : b.free with
      | false =>
        rw [used_cons_used hb] at hused
        cases hc : c.free with
        | false =>
          rw [used_cons_used hc] at hused
          obtain ⟨hhead, htail⟩ := List.cons.inj hused
          exact hrest (Prod.mk.inj hhead).2 htail
        | true =>
          rw [used_cons_free hc] at hused
          have hbounds := mem_used_bounds (hused ▸ mem_cons_self)
          dsimp only at hbounds
          omega
      | true =>
        rw [used_cons_free hb] at hused
        cases hc : c.free with
        | false =>
          rw [used_cons_used hc] at hused
          have hbounds := mem_used_bounds (hused.symm ▸ mem_cons_self)
          dsimp only at hbounds
          omega
        | true =>
          rw [used_cons_free hc] at hused
          -- the used block behind, or the end of the interval, fixes the size
          have hsize : b.size = c.size := by
            rcases hbs.used_behind hb with rfl | ⟨d, ds, rfl, hd⟩
            · rcases hcs.used_behind hc with rfl | ⟨e, es, rfl, he⟩
              · simp only [span] at hspan
                omega
              · rw [used_cons_used he] at hused
                cases hused
            · rw [used_cons_used hd] at hused
              rcases hcs.used_behind hc with rfl | ⟨e, es, rfl, he⟩
              · cases hused
              · rw [used_cons_used he] at hused
                have haddr := (Prod.mk.inj (List.cons.inj hused).1).1
                omega
          have hbc : b = c := by
            cases b
            cases c
            simp_all
          exact hrest hbc hused

lemma coalesce_used (a : Nat) (bs : List Blk) : used hdr a (coalesce hdr bs) = used hdr a bs := by
  cases bs with
  | nil => rfl
  | cons b bs => exact coalesceFrom_used a b bs

@[simp] lemma usedBytes_append (xs ys : List Blk) :
    usedBytes (xs ++ ys) = usedBytes xs + usedBytes ys := by
  simp [usedBytes]

lemma usedBytes_cons_used (hb : b.free = false) (bs : List Blk) :
    usedBytes (b :: bs) = b.size + usedBytes bs := by
  simp [usedBytes, hb]

lemma usedBytes_cons_free (hb : b.free = true) (bs : List Blk) :
    usedBytes (b :: bs) = usedBytes bs := by
  simp [usedBytes, hb]

lemma usedBytes_eq (hdr a : Nat) (bs : List Blk) :
    usedBytes bs = ((used hdr a bs).map fun p => p.2.size).sum := by
  induction bs generalizing a with
  | nil => rfl
  | cons b bs ih =>
    cases hb : b.free with
    | false => rw [usedBytes_cons_used hb, used_cons_used hb, map_cons, sum_cons, ← ih]
    | true => rw [usedBytes_cons_free hb, used_cons_free hb, ← ih]

lemma coalesce_usedBytes (bs : List Blk) : usedBytes (coalesce hdr bs) = usedBytes bs := by
  rw [usedBytes_eq hdr 0, usedBytes_eq hdr 0, coalesce_used]

lemma usedBytes_le_span (bs : List Blk) : usedBytes bs ≤ span hdr bs := by
  induction bs with
  | nil => exact Nat.le_refl _
  | cons b bs ih =>
    rw [span]
    cases hb : b.free with
    | false =>
      rw [usedBytes_cons_used hb]
      omega
    | true =>
      rw [usedBytes_cons_free hb]
      omega

lemma coalesce_noAdjFree (bs : List Blk) : NoAdjFree (coalesce hdr bs) := by
  cases bs with
  | nil => exact List.IsChain.nil
  | cons b bs => exact coalesceFrom_noAdjFree b bs

lemma coalesce_dvd {k : Nat} (hk : k ∣ hdr) (hbs : ∀ b ∈ bs, k ∣ b.size) :
    ∀ b ∈ coalesce hdr bs, k ∣ b.size := by
  cases bs with
  | nil => exact hbs
  | cons b bs =>
    exact coalesceFrom_dvd hk (hbs b mem_cons_self) fun c hc => hbs c (mem_cons_of_mem b hc)

lemma NoAdjFree.around {xs ys : List Blk} (hxs : NoAdjFree xs) (hb : b.free = false)
    (hys : NoAdjFree ys) : NoAdjFree (xs ++ b :: ys) := by
  have hcons : NoAdjFree (b :: ys) := by
    cases ys with
    | nil => exact List.IsChain.singleton b
    | cons c ys => exact isChain_cons_cons.mpr ⟨by simp [hb], hys⟩
  refine List.IsChain.append hxs hcons ?_
  intro x _ y hy
  obtain rfl : b = y := by simpa using hy
  simp [hb]

lemma NoAdjFree.resize {c : Blk} (h : NoAdjFree (b :: bs))
    (hflag : b.free = c.free) : NoAdjFree (c :: bs) :=
  h.imp_head fun hbz => by rwa [← hflag]

end FusionOS.Tiling
