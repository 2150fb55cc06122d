import FusionOS.Kernel.Memmap
import FusionOS.Lib.Run

/-!
# The physical allocator

`phys_alloc` rounds its bump pointer up and advances it, on 64 bits, before it compares the result
with the end of its range.
-/

namespace FusionOS.Memory

open List

def physToVirt (p : PhysMem) (phys : Nat) : Nat := u64 (phys + p.hhdmOffset)

/-- The pointer returned, what is stored in `*out_phys`, and the allocator after the call. -/
structure PhysResult where
  ptr : Nat
  outPhys : Option Nat
  mem : PhysMem

/-- The alignment in force: 8 where 0 is passed. -/
def alignVal (align : Nat) : Nat := if align = 0 then 8 else align

def physAlloc (p : PhysMem) (size align : Nat) : PhysResult :=
  if size = 0 ∨ p.physAllocStop ≤ p.physAllocBase then ⟨0, none, p⟩
  else
    let next := alignUp p.physAllocNext (alignVal align)
    if p.physAllocStop < u64 (next + size) then ⟨0, none, p⟩
    else ⟨physToVirt p next, some next, { p with physAllocNext := u64 (next + size) }⟩

/-- Arguments of a call: a size and an alignment that is 0 or a power of two. -/
structure AllocCall where
  size : Nat
  align : Nat
  word : size < 2 ^ 64
  shape : align = 0 ∨ ∃ k < 64, align = 2 ^ k

def AllocCall.run (c : AllocCall) (p : PhysMem) : PhysResult := physAlloc p c.size c.align

def allocStep (p : PhysMem) (c : AllocCall) : Option PhysMem := some (c.run p).mem

structure Grant where
  phys : Nat
  size : Nat
  align : Nat

def AllocCall.grant (c : AllocCall) (p : PhysMem) : List Grant :=
  if (c.run p).ptr = 0 then [] else (c.run p).outPhys.toList.map fun phys => ⟨phys, c.size, c.align⟩

/-- The ranges of the successful ones of a sequence of calls. -/
def grants : PhysMem → List AllocCall → List Grant
  | _, [] => []
  | p, c :: cs => c.grant p ++ grants (c.run p).mem cs

def Grant.Placed (p : PhysMem) (g : Grant) : Prop :=
  alignVal g.align ∣ g.phys ∧ p.physAllocBase ≤ g.phys ∧ g.phys + g.size ≤ p.physAllocStop

def Grant.Apart (g g' : Grant) : Prop := g.phys + g.size ≤ g'.phys ∨ g'.phys + g'.size ≤ g.phys

def QuietFailure (p : PhysMem) (c : AllocCall) : Prop :=
  (c.run p).ptr = 0 → (c.run p).outPhys = none ∧ (c.run p).mem = p

/-- What is expected of a sequence of calls. -/
structure AllocsSound (p : PhysMem) (calls : List AllocCall) : Prop where
  placed : ∀ g ∈ grants p calls, g.Placed p
  apart : (grants p calls).Pairwise Grant.Apart
  failures : Along allocStep QuietFailure p calls

/-- A call that gets past both tests: neither the rounding nor the end of the range wraps, and the
pointer to the range is not null. -/
def NoWrap (p : PhysMem) (c : AllocCall) : Prop :=
  ∀ phys, (c.run p).outPhys = some phys → p.physAllocNext + (alignVal c.align - 1) < 2 ^ 64 ∧
    phys + c.size < 2 ^ 64 ∧ physToVirt p phys ≠ 0

instance (p : PhysMem) (c : AllocCall) : Decidable (NoWrap p c) :=
  inferInstanceAs (Decidable (∀ phys, _ = some phys → _))

section Call
variable {p : PhysMem} {c : AllocCall}

lemma alignVal_two_pow (c : AllocCall) : ∃ k ≤ 64, alignVal c.align = 2 ^ k := by
  unfold alignVal
  rcases c.shape with hzero | ⟨k, hk, hpow⟩
  · exact ⟨3, by decide, by rw [if_pos hzero]; rfl⟩
  · have hpos := Nat.two_pow_pos k
    exact ⟨k, Nat.le_of_lt hk, by rw [if_neg (by omega), hpow]⟩

lemma run_cases (p : PhysMem) (c : AllocCall) :
    c.run p = ⟨0, none, p⟩ ∨
    ∃ phys, phys = alignUp p.physAllocNext (alignVal c.align) ∧ 0 < c.size ∧
      u64 (phys + c.size) ≤ p.physAllocStop ∧
      c.run p = ⟨physToVirt p phys, some phys, { p with physAllocNext := u64 (phys + c.size) }⟩ := by
  unfold AllocCall.run physAlloc
  split
  · exact Or.inl rfl
  · rename_i hrange
    dsimp only
    split
    · exact Or.inl rfl
    · rename_i hroom
      exact Or.inr ⟨_, rfl, by omega, by omega, rfl⟩

lemma alignUp_wrap (h : 2 ^ 64 ≤ p.physAllocNext + (alignVal c.align - 1))
    (hnext : p.physAllocNext < 2 ^ 64) : alignUp p.physAllocNext (alignVal c.align) = 0 := by
  obtain ⟨k, hk, hpow⟩ := alignVal_two_pow c
  rw [hpow] at h ⊢
  rw [alignUp_two_pow hk]
  have hle : 2 ^ k ≤ 2 ^ 64 := Nat.pow_le_pow_right (by decide) hk
  refine floorTo_eq_zero ?_
  rw [u64]
  omega

lemma alignUp_noWrap (h : p.physAllocNext + (alignVal c.align - 1) < 2 ^ 64) :
    alignVal c.align ∣ alignUp p.physAllocNext (alignVal c.align) ∧
      p.physAllocNext ≤ alignUp p.physAllocNext (alignVal c.align) := by
  obtain ⟨k, hk, hpow⟩ := alignVal_two_pow c
  rw [hpow] at h ⊢
  rw [alignUp_eq_ceilTo hk h]
  exact ⟨dvd_ceilTo _ _, le_ceilTo (Nat.two_pow_pos k) _⟩

lemma grant_refused (h : c.run p = ⟨0, none, p⟩) : c.grant p = [] := by
  rw [AllocCall.grant, h]
  rfl

lemma grant_given {phys : Nat} {q : PhysMem} (h : c.run p = ⟨physToVirt p phys, some phys, q⟩)
    (hptr : physToVirt p phys ≠ 0) : c.grant p = [⟨phys, c.size, c.align⟩] := by
  rw [AllocCall.grant, h, if_neg hptr]
  rfl

end Call

/-! ## Runs -/

/-- The allocator after the ranges `prior` have been handed out. -/
structure Bumped (p : PhysMem) (prior : List Grant) : Prop where
  base_le : p.physAllocBase ≤ p.physAllocNext
  le_stop : p.physAllocNext ≤ p.physAllocStop
  word : p.physAllocStop < 2 ^ 64
  below : ∀ g ∈ prior, g.phys + g.size ≤ p.physAllocNext
  origin : p.physAllocNext = p.physAllocBase ∨
    (p.physAllocBase = 0 → ∃ g ∈ prior, g.phys = 0 ∧ 0 < g.size)

/-- What is expected of the calls that follow those which have returned `prior`. -/
structure SoundAfter (prior : List Grant) (p : PhysMem) (calls : List AllocCall) : Prop where
  placed : ∀ g ∈ grants p calls, g.Placed p
  outside : ∀ g ∈ prior, ∀ g' ∈ grants p calls, g.Apart g'
  apart : (grants p calls).Pairwise Grant.Apart
  failures : Along allocStep QuietFailure p calls

section Runs
variable {p : PhysMem} {c : AllocCall} {prior : List Grant} {phys : Nat}

lemma Bumped.placed (h : Bumped p prior) (hphys : phys = alignUp p.physAllocNext (alignVal c.align))
    (hround : p.physAllocNext + (alignVal c.align - 1) < 2 ^ 64) (hsum : phys + c.size < 2 ^ 64)
    (hroom : u64 (phys + c.size) ≤ p.physAllocStop) : (Grant.mk phys c.size c.align).Placed p := by
  obtain ⟨hdvd, hle⟩ := alignUp_noWrap hround
  rw [u64, Nat.mod_eq_of_lt hsum] at hroom
  rw [← hphys] at hdvd hle
  exact ⟨hdvd, h.base_le.trans hle, hroom⟩

lemma Bumped.step (h : Bumped p prior) (hphys : phys = alignUp p.physAllocNext (alignVal c.align))
    (hpos : 0 < c.size) (hround : p.physAllocNext + (alignVal c.align - 1) < 2 ^ 64)
    (hsum : phys + c.size < 2 ^ 64) (hroom : u64 (phys + c.size) ≤ p.physAllocStop) :
    Bumped { p with physAllocNext := u64 (phys + c.size) } (prior ++ [⟨phys, c.size, c.align⟩]) := by
  have hle := (alignUp_noWrap hround).2
  rw [← hphys] at hle
  rw [u64, Nat.mod_eq_of_lt hsum] at hroom ⊢
  have hbase := h.base_le
  refine ⟨?_, hroom, h.word, ?_, Or.inr fun hzero => ?_⟩
  · dsimp only
    omega
  · refine forall_mem_append.mpr ⟨fun g hg => ?_, forall_mem_singleton.mpr (Nat.le_refl _)⟩
    have hbelow := h.below g hg
    dsimp only
    omega
  · dsimp only at hzero
    rcases h.origin with hfirst | hlater
    · -- the first range of memory that begins at 0 begins there as well
      refine ⟨_, mem_append_right _ (mem_singleton_self _), ?_, hpos⟩
      dsimp only
      obtain ⟨k, hk, hpow⟩ := alignVal_two_pow c
      rw [hphys, hfirst, hzero, hpow, alignUp_two_pow hk]
      rw [hfirst, hzero, hpow, Nat.zero_add] at hround
      rw [Nat.zero_add, u64, Nat.mod_eq_of_lt hround]
      exact floorTo_eq_zero (by have := Nat.two_pow_pos k; omega)
    · obtain ⟨g, hg, hfirst⟩ := hlater hzero
      exact ⟨g, mem_append_left _ hg, hfirst⟩

lemma Bumped.noWrap_of_sound {cs : List AllocCall} (h : Bumped p prior)
    (hphys : phys = alignUp p.physAllocNext (alignVal c.align)) (hpos : 0 < c.size)
    (hrun : c.run p = ⟨physToVirt p phys, some phys, { p with physAllocNext := u64 (phys + c.size) }⟩)
    (hsound : SoundAfter prior p (c :: cs)) :
    p.physAllocNext + (alignVal c.align - 1) < 2 ^ 64 ∧ phys + c.size < 2 ^ 64 ∧
      physToVirt p phys ≠ 0 := by
  have hptr : physToVirt p phys ≠ 0 := by
    intro hnull
    have hquiet := hsound.failures.1 (by rw [hrun]; exact hnull)
    rw [hrun] at hquiet
    cases hquiet.1
  have hgrant : Grant.mk phys c.size c.align ∈ grants p (c :: cs) := by
    rw [grants, grant_given hrun hptr]
    exact mem_cons_self
  obtain ⟨-, hbase, hstop⟩ := hsound.placed _ hgrant
  dsimp only at hbase hstop
  have hword := h.word
  have hle := h.le_stop
  refine ⟨?_, by omega, hptr⟩
  by_contra hround
  have hzero : phys = 0 := hphys.trans (alignUp_wrap (by omega) (by omega))
  -- a range at 0 is in memory that begins at 0, and the first range handed out is there already
  rcases h.origin with hfirst | hlater
  · obtain ⟨k, hk, hpow⟩ := alignVal_two_pow c
    have hpow' : 2 ^ k ≤ 2 ^ 64 := Nat.pow_le_pow_right (by decide) hk
    have hkpos := Nat.two_pow_pos k
    omega
  · obtain ⟨g, hg, hgzero, hgpos⟩ := hlater (by omega)
    have hapart := hsound.outside g hg _ hgrant
    simp only [Grant.Apart] at hapart
    omega

lemma soundAfter_refused {cs : List AllocCall} (hrun : c.run p = ⟨0, none, p⟩) :
    SoundAfter prior p (c :: cs) ↔ SoundAfter prior p cs := by
  have hgrants : grants p (c :: cs) = grants p cs := by
    rw [grants, grant_refused hrun, hrun]
    rfl
  have hstep : allocStep p c = some p := by rw [allocStep, hrun]
  have hquiet : QuietFailure p c := by
    intro _
    rw [hrun]
    exact ⟨rfl, rfl⟩
  constructor
  · rintro ⟨hplaced, houtside, hapart, hfail⟩
    rw [hgrants] at hplaced houtside hapart
    exact ⟨hplaced, houtside, hapart, ((along_cons_iff hstep).mp hfail).2⟩
  · rintro ⟨hplaced, houtside, hapart, hfail⟩
    rw [← hgrants] at hplaced houtside hapart
    exact ⟨hplaced, houtside, hapart, (along_cons_iff hstep).mpr ⟨hquiet, hfail⟩⟩

lemma soundAfter_granted {cs : List AllocCall} {q : PhysMem}
    (hrun : c.run p = ⟨physToVirt p phys, some phys, q⟩) (hptr : physToVirt p phys ≠ 0)
    (hbase : q.physAllocBase = p.physAllocBase) (hstop : q.physAllocStop = p.physAllocStop)
    (hplaced : (Grant.mk phys c.size c.align).Placed p)
    (hbehind : ∀ g ∈ prior, g.Apart ⟨phys, c.size, c.align⟩) :
    SoundAfter prior p (c :: cs) ↔ SoundAfter (prior ++ [⟨phys, c.size, c.align⟩]) q cs := by
  have hgrants : grants p (c :: cs) = ⟨phys, c.size, c.align⟩ :: grants q cs := by
    rw [grants, grant_given hrun hptr, hrun]
    rfl
  have hstep : allocStep p c = some q := by rw [allocStep, hrun]
  have hquiet : QuietFailure p c := by
    intro hnull
    rw [hrun] at hnull
    exact absurd hnull hptr
  have hsame : ∀ g : Grant, g.Placed q ↔ g.Placed p := by
    intro g
    rw [Grant.Placed, Grant.Placed, hbase, hstop]
  constructor
  · rintro ⟨hall, houtside, hapart, hfail⟩
    rw [hgrants] at hall houtside hapart
    obtain ⟨hhead, htail⟩ := pairwise_cons.mp hapart
    refine ⟨?_, ?_, htail, ((along_cons_iff hstep).mp hfail).2⟩
    · exact fun g hg => (hsame g).mpr (hall g (mem_cons_of_mem _ hg))
    · refine forall_mem_append.mpr ⟨?_, forall_mem_singleton.mpr hhead⟩
      exact fun g hg g' hg' => houtside g hg g' (mem_cons_of_mem _ hg')
  · rintro ⟨hall, houtside, htail, hfail⟩
    obtain ⟨hprior, hhead⟩ := forall_mem_append.mp houtside
    refine ⟨?_, ?_, ?_, (along_cons_iff hstep).mpr ⟨hquiet, hfail⟩⟩
    · rw [hgrants]
      exact forall_mem_cons.mpr ⟨hplaced, fun g hg => (hsame g).mp (hall g hg)⟩
    · rw [hgrants]
      exact fun g hg => forall_mem_cons.mpr ⟨hbehind g hg, hprior g hg⟩
    · rw [hgrants]
      exact pairwise_cons.mpr ⟨forall_mem_singleton.mp hhead, htail⟩

lemma soundAfter_iff {calls : List AllocCall} (h : Bumped p prior) :
    SoundAfter prior p calls ↔ Along allocStep NoWrap p calls := by
  induction calls generalizing p prior with
  | nil =>
    refine iff_of_true ⟨?_, ?_, .nil, trivial⟩ trivial
    · exact fun g hg => absurd hg not_mem_nil
    · exact fun _ _ g hg => absurd hg not_mem_nil
  | cons c cs ih =>
    rcases run_cases p c with hrun | ⟨phys, hphys, hpos, hroom, hrun⟩
    · have hstep : allocStep p c = some p := by rw [allocStep, hrun]
      have hnone : NoWrap p c := by
        intro phys hphys
        rw [hrun] at hphys
        cases hphys
      rw [soundAfter_refused hrun, along_cons_iff hstep, ih h]
      exact (and_iff_right hnone).symm
    · have hstep : allocStep p c = some { p with physAllocNext := u64 (phys + c.size) } := by
        rw [allocStep, hrun]
      have hnoWrap : NoWrap p c ↔ p.physAllocNext + (alignVal c.align - 1) < 2 ^ 64 ∧
          phys + c.size < 2 ^ 64 ∧ physToVirt p phys ≠ 0 := by
        unfold NoWrap
        rw [hrun]
        refine ⟨fun hall => hall phys rfl, fun hno q hq => ?_⟩
        cases hq
        exact hno
      rw [along_cons_iff hstep, hnoWrap]
      -- a sound call does not wrap, and without a wrap its range joins `prior`
      have hjoin : p.physAllocNext + (alignVal c.align - 1) < 2 ^ 64 ∧ phys + c.size < 2 ^ 64 ∧
          physToVirt p phys ≠ 0 → (SoundAfter prior p (c :: cs) ↔
            Along allocStep NoWrap { p with physAllocNext := u64 (phys + c.size) } cs) := by
        rintro ⟨hround, hsum, hptr⟩
        have hle := (alignUp_noWrap hround).2
        rw [← hphys] at hle
        rw [soundAfter_granted hrun hptr rfl rfl (h.placed hphys hround hsum hroom)
          fun g hg => Or.inl ((h.below g hg).trans hle)]
        exact ih (h.step hphys hpos hround hsum hroom)
      constructor
      · intro hsound
        have hno := h.noWrap_of_sound hphys hpos hrun hsound
        exact ⟨hno, (hjoin hno).mp hsound⟩
      · rintro ⟨hno, hrest⟩
        exact (hjoin hno).mpr hrest

end Runs

/-- The allocator over the map of three entries, behind a kernel that ends at `0x180400`. -/
def threeEntriesMem : PhysMem :=
  memorySetMemmap ⟨0xFFFF800000000000, 0, 0, 0⟩ (some threeEntries) 0x100000 0x180400

/-- A size that wraps the end of its range round to `0x180000` is granted; the next range is the last
page of the kernel. -/
def wrappedCalls : List AllocCall :=
  [⟨0xFFFFFFFFFFFFF000, 16, by decide, Or.inr ⟨4, by decide⟩⟩,
    ⟨0x1000, 4096, by decide, Or.inr ⟨12, by decide⟩⟩]

end FusionOS.Memory
