import FusionOS.Kernel.Heap
import FusionOS.Lib.Align

/-!
# The range of physical memory that the kernel allocates from

`memory_set_memmap` looks through the memory map of the boot loader for the longest usable range of
whole pages, with the image of the kernel cut out of each entry, and keeps it for `phys_alloc`. All
values are 64-bit words; sums wrap.
-/

namespace FusionOS.Memory

def pageSize : Nat := 4096

/-- `LIMINE_MEMMAP_USABLE`. -/
def memmapUsable : Nat := 0

structure MemmapEntry where
  base : Nat
  length : Nat
  type : Nat
  deriving DecidableEq, Repr

/-- The variables of the physical allocator; `physAllocStop` is `phys_alloc_end`. -/
structure PhysMem where
  hhdmOffset : Nat
  physAllocBase : Nat
  physAllocStop : Nat
  physAllocNext : Nat
  deriving DecidableEq, Repr

def alignUp (value align : Nat) : Nat :=
  if align = 0 then value else u64 (value + (align - 1)) &&& (2 ^ 64 - 1 - (align - 1))

def alignDown (value align : Nat) : Nat :=
  if align = 0 then value else value &&& (2 ^ 64 - 1 - (align - 1))

def rangesOverlap (a₀ a₁ b₀ b₁ : Nat) : Bool := decide (a₀ < b₁) && decide (b₀ < a₁)

/-- The part of an entry that is kept where the kernel overlaps it: what lies behind the kernel, else
what lies before it. -/
def cutKernel (kernelBase kernelStop base stop : Nat) : Option (Nat × Nat) :=
  if kernelBase < kernelStop ∧ rangesOverlap base stop kernelBase kernelStop then
    if kernelStop < stop then some (kernelStop, stop)
    else if base < kernelBase then some (base, kernelBase)
    else none
  else some (base, stop)

/-- The pages that the loop body finds in an entry; `none` where it goes on to the next one. -/
def usablePages (kernelBase kernelStop : Nat) (entry : MemmapEntry) : Option (Nat × Nat) :=
  if entry.type ≠ memmapUsable then none
  else
    (cutKernel kernelBase kernelStop entry.base (u64 (entry.base + entry.length))).bind fun r =>
      let base := alignUp r.1 pageSize
      let stop := alignDown r.2 pageSize
      if stop ≤ base then none else some (base, stop)

/-- The loop over the entries; `best` holds `best_base` and `best_len`. -/
def bestRange (kernelBase kernelStop : Nat) : List MemmapEntry → Nat × Nat → Nat × Nat
  | [], best => best
  | entry :: rest, best =>
    match usablePages kernelBase kernelStop entry with
    | none => bestRange kernelBase kernelStop rest best
    | some (base, stop) =>
      bestRange kernelBase kernelStop rest
        (if best.2 < stop - base then (base, stop - base) else best)

/-- The memory map is `none` where the boot loader gave no response. -/
def memorySetMemmap (p : PhysMem) (memmap : Option (List MemmapEntry)) (kernelBase kernelStop : Nat) :
    PhysMem :=
  let p := { p with physAllocBase := 0, physAllocStop := 0, physAllocNext := 0 }
  match memmap with
  | none => p
  | some entries =>
    let best := bestRange kernelBase kernelStop entries (0, 0)
    if 0 < best.2 then
      { p with
        physAllocBase := best.1, physAllocStop := u64 (best.1 + best.2), physAllocNext := best.1 }
    else p

/-! ## Rounding -/

lemma alignUp_two_pow {k : Nat} (hk : k ≤ 64) (value : Nat) :
    alignUp value (2 ^ k) = floorTo (2 ^ k) (u64 (value + (2 ^ k - 1))) := by
  have hpos := Nat.two_pow_pos k
  rw [alignUp, if_neg (by omega)]
  exact land_clear_low hk (Nat.mod_lt _ (by decide))

lemma alignUp_eq_ceilTo {k value : Nat} (hk : k ≤ 64) (h : value + (2 ^ k - 1) < 2 ^ 64) :
    alignUp value (2 ^ k) = ceilTo (2 ^ k) value := by
  rw [alignUp_two_pow hk, u64, Nat.mod_eq_of_lt h]
  rfl

lemma alignDown_two_pow {k value : Nat} (hk : k ≤ 64) (h : value < 2 ^ 64) :
    alignDown value (2 ^ k) = floorTo (2 ^ k) value := by
  have hpos := Nat.two_pow_pos k
  rw [alignDown, if_neg (by omega)]
  exact land_clear_low hk h

lemma alignDown_le (value align : Nat) : alignDown value align ≤ value := by
  unfold alignDown
  split
  · exact Nat.le_refl _
  · exact Nat.and_le_left

lemma alignUp_page {value : Nat} (h : value + 4096 ≤ 2 ^ 64) :
    alignUp value pageSize = ceilTo pageSize value :=
  alignUp_eq_ceilTo (k := 12) (by decide) (by omega)

lemma alignDown_page {value : Nat} (h : value < 2 ^ 64) :
    alignDown value pageSize = floorTo pageSize value :=
  alignDown_two_pow (k := 12) (by decide) h

/-! ## One entry -/

/-- The kernel lies outside the range. -/
def ApartFrom (kernelBase kernelStop base stop : Nat) : Prop :=
  ∀ x, base ≤ x → x < stop → ¬ (kernelBase ≤ x ∧ x < kernelStop)

def HoldsPage (base stop : Nat) : Prop := ∃ page, pageSize ∣ page ∧ base ≤ page ∧ page + pageSize ≤ stop

section Entry
variable {kernelBase kernelStop base stop : Nat} {r : Nat × Nat} {entry : MemmapEntry}

lemma cutKernel_inside (h : cutKernel kernelBase kernelStop base stop = some r) :
    base ≤ r.1 ∧ r.2 ≤ stop ∧ ApartFrom kernelBase kernelStop r.1 r.2 := by
  unfold cutKernel at h
  split at h
  · rename_i hcut
    simp only [rangesOverlap, Bool.and_eq_true, decide_eq_true_eq] at hcut
    split at h
    · cases h
      refine ⟨by omega, Nat.le_refl _, fun x hx _ => ?_⟩
      omega
    · split at h
      · cases h
        refine ⟨Nat.le_refl _, by omega, fun x _ hx => ?_⟩
        omega
      · cases h
  · rename_i hcut
    simp only [rangesOverlap, Bool.and_eq_true, decide_eq_true_eq] at hcut
    cases h
    refine ⟨Nat.le_refl _, Nat.le_refl _, fun x hlo hhi => ?_⟩
    dsimp only at hlo hhi
    omega

lemma cutKernel_le (hle : base ≤ stop) (h : cutKernel kernelBase kernelStop base stop = some r) :
    r.1 ≤ stop := by
  unfold cutKernel at h
  split at h
  · split at h
    · cases h
      dsimp only
      omega
    · split at h
      · cases h
        exact hle
      · cases h
  · cases h
    exact hle

lemma holdsPage_iff : HoldsPage base stop ↔ ceilTo pageSize base < floorTo pageSize stop := by
  constructor
  · rintro ⟨page, hdvd, hlo, hhi⟩
    have hup := ceilTo_le hdvd hlo
    have hdown := le_floorTo (Nat.dvd_add hdvd (Nat.dvd_refl _)) hhi
    have hpos : 0 < pageSize := by decide
    omega
  · intro hlt
    refine ⟨ceilTo pageSize base, dvd_ceilTo _ _, le_ceilTo (by decide) _, ?_⟩
    have hstep : pageSize * (ceilTo pageSize base / pageSize + 1) ≤
        pageSize * (floorTo pageSize stop / pageSize) := by
      refine Nat.mul_le_mul_left _ (Nat.div_lt_div_of_lt_of_dvd (dvd_floorTo _ _) hlt)
    rw [Nat.mul_add, Nat.mul_one, Nat.mul_div_cancel' (dvd_ceilTo _ _),
      Nat.mul_div_cancel' (dvd_floorTo _ _)] at hstep
    exact hstep.trans (floorTo_le _ _)

lemma usablePages_eq (h : entry.base + entry.length ≤ 2 ^ 64 - 4096) (htype : entry.type = memmapUsable) :
    usablePages kernelBase kernelStop entry =
      (cutKernel kernelBase kernelStop entry.base (entry.base + entry.length)).bind fun r =>
        if floorTo pageSize r.2 ≤ ceilTo pageSize r.1 then none
        else some (ceilTo pageSize r.1, floorTo pageSize r.2) := by
  have hstop : u64 (entry.base + entry.length) = entry.base + entry.length :=
    Nat.mod_eq_of_lt (by omega)
  rw [usablePages, if_neg (not_not.mpr htype), hstop]
  refine Option.bind_congr fun r hr => ?_
  have hfirst := cutKernel_le (Nat.le_add_right _ _) hr
  have hlast := (cutKernel_inside hr).2.1
  rw [alignUp_page (by omega), alignDown_page (by omega)]

lemma usablePages_some (h : entry.base + entry.length ≤ 2 ^ 64 - 4096)
    (hr : usablePages kernelBase kernelStop entry = some r) :
    entry.type = memmapUsable ∧ pageSize ∣ r.1 ∧ pageSize ∣ r.2 ∧ entry.base ≤ r.1 ∧ r.1 < r.2 ∧
      r.2 ≤ entry.base + entry.length ∧ ApartFrom kernelBase kernelStop r.1 r.2 := by
  have htype : entry.type = memmapUsable := by
    by_contra hne
    rw [usablePages, if_pos hne] at hr
    cases hr
  rw [usablePages_eq h htype] at hr
  obtain ⟨c, hc, hr⟩ := Option.bind_eq_some_iff.mp hr
  obtain ⟨hlo, hhi, hapart⟩ := cutKernel_inside hc
  split at hr
  · cases hr
  · rename_i hlt
    cases hr
    have hup := le_ceilTo (a := pageSize) (by decide) c.1
    have hdown := floorTo_le pageSize c.2
    refine ⟨htype, dvd_ceilTo _ _, dvd_floorTo _ _, by omega, by omega, by omega, fun x hx hx' => ?_⟩
    dsimp only at hx hx'
    exact hapart x (by omega) (by omega)

lemma usablePages_none (h : entry.base + entry.length ≤ 2 ^ 64 - 4096)
    (htype : entry.type = memmapUsable) (hnone : usablePages kernelBase kernelStop entry = none)
    (hr : cutKernel kernelBase kernelStop entry.base (entry.base + entry.length) = some r) :
    ¬ HoldsPage r.1 r.2 := by
  rw [usablePages_eq h htype, hr, Option.bind_some] at hnone
  split at hnone
  · rw [holdsPage_iff]
    omega
  · cases hnone

end Entry

/-! ## The loop -/

section Loop
variable {kernelBase kernelStop : Nat}

lemma bestRange_spec (kernelBase kernelStop : Nat) (entries : List MemmapEntry) (best : Nat × Nat) :
    (bestRange kernelBase kernelStop entries best = best ∨
      ∃ entry ∈ entries, ∃ r, usablePages kernelBase kernelStop entry = some r ∧
        bestRange kernelBase kernelStop entries best = (r.1, r.2 - r.1)) ∧
    best.2 ≤ (bestRange kernelBase kernelStop entries best).2 ∧
    ∀ entry ∈ entries, ∀ r, usablePages kernelBase kernelStop entry = some r →
      r.2 - r.1 ≤ (bestRange kernelBase kernelStop entries best).2 := by
  induction entries generalizing best with
  | nil => exact ⟨Or.inl rfl, Nat.le_refl _, fun entry he => absurd he List.not_mem_nil⟩
  | cons entry rest ih =>
    rw [bestRange]
    cases hpages : usablePages kernelBase kernelStop entry with
    | none =>
      obtain ⟨hfrom, hle, hall⟩ := ih best
      refine ⟨hfrom.imp_right ?_, hle, List.forall_mem_cons.mpr ⟨fun r hr => ?_, hall⟩⟩
      · rintro ⟨e, he, hr⟩
        exact ⟨e, List.mem_cons_of_mem _ he, hr⟩
      · rw [hpages] at hr
        cases hr
    | some r =>
      obtain ⟨base, stop⟩ := r
      dsimp only
      obtain ⟨hfrom, hle, hall⟩ := ih (if best.2 < stop - base then (base, stop - base) else best)
      have hlonger : best.2 ≤ (if best.2 < stop - base then (base, stop - base) else best).2 ∧
          stop - base ≤ (if best.2 < stop - base then (base, stop - base) else best).2 := by
        split
        · rename_i hlt
          exact ⟨Nat.le_of_lt hlt, Nat.le_refl _⟩
        · rename_i hlt
          exact ⟨Nat.le_refl _, Nat.le_of_not_lt hlt⟩
      refine ⟨?_, hlonger.1.trans hle, List.forall_mem_cons.mpr ⟨fun r hr => ?_, hall⟩⟩
      · rcases hfrom with hsame | ⟨e, he, hr⟩
        · rw [hsame]
          split
          · exact Or.inr ⟨entry, List.mem_cons_self, (base, stop), hpages, rfl⟩
          · exact Or.inl rfl
        · exact Or.inr ⟨e, List.mem_cons_of_mem _ he, hr⟩
      · rw [hpages] at hr
        cases hr
        exact hlonger.2.trans hle

lemma usablePages_lt {entry : MemmapEntry} {r : Nat × Nat}
    (hr : usablePages kernelBase kernelStop entry = some r) :
    r.1 < r.2 ∧ r.2 < 2 ^ 64 := by
  unfold usablePages at hr
  split at hr
  · cases hr
  · obtain ⟨c, hc, hr⟩ := Option.bind_eq_some_iff.mp hr
    have hstop : u64 (entry.base + entry.length) < 2 ^ 64 := Nat.mod_lt _ (by decide)
    have hlast := (cutKernel_inside hc).2.1
    have hdown := alignDown_le c.2 pageSize
    dsimp only at hr
    split at hr
    · cases hr
    · cases hr
      dsimp only
      omega

lemma memorySetMemmap_cases (p : PhysMem) (entries : List MemmapEntry) :
    (memorySetMemmap p (some entries) kernelBase kernelStop =
        { p with physAllocBase := 0, physAllocStop := 0, physAllocNext := 0 } ∧
      ∀ entry ∈ entries, usablePages kernelBase kernelStop entry = none) ∨
    ∃ entry ∈ entries, ∃ r, usablePages kernelBase kernelStop entry = some r ∧
      memorySetMemmap p (some entries) kernelBase kernelStop =
        { p with physAllocBase := r.1, physAllocStop := r.2, physAllocNext := r.1 } := by
  obtain ⟨hfrom, -, hall⟩ := bestRange_spec kernelBase kernelStop entries (0, 0)
  rcases hfrom with hnone | ⟨entry, he, r, hr, hbest⟩
  · refine Or.inl ⟨?_, fun entry he => ?_⟩
    · rw [memorySetMemmap]
      dsimp only
      rw [hnone, if_neg (Nat.lt_irrefl 0)]
    · cases hpages : usablePages kernelBase kernelStop entry with
      | none => rfl
      | some r =>
        have hlt := (usablePages_lt hpages).1
        have hle := hall entry he r hpages
        rw [hnone] at hle
        dsimp only at hle
        omega
  · have hlt := usablePages_lt hr
    refine Or.inr ⟨entry, he, r, hr, ?_⟩
    have hsum : u64 (r.1 + (r.2 - r.1)) = r.2 := by
      rw [Nat.add_sub_cancel' (Nat.le_of_lt hlt.1)]
      exact Nat.mod_eq_of_lt hlt.2
    rw [memorySetMemmap]
    dsimp only
    rw [hbest, if_pos (by dsimp only; omega), hsum]

lemma memorySetMemmap_bounds (p : PhysMem) (memmap : Option (List MemmapEntry))
    (kernelBase kernelStop : Nat) :
    ∃ base stop, memorySetMemmap p memmap kernelBase kernelStop =
        { p with physAllocBase := base, physAllocStop := stop, physAllocNext := base } ∧
      base ≤ stop ∧ stop < 2 ^ 64 := by
  cases memmap with
  | none => exact ⟨0, 0, rfl, Nat.le_refl 0, by decide⟩
  | some entries =>
    rcases memorySetMemmap_cases p entries with ⟨hsame, -⟩ | ⟨entry, -, r, hr, hsame⟩
    · exact ⟨0, 0, hsame, Nat.le_refl 0, by decide⟩
    · have hlt := usablePages_lt hr
      exact ⟨r.1, r.2, hsame, Nat.le_of_lt hlt.1, hlt.2⟩

end Loop

/-- A memory map whose entries end a page before the end of the address space: the range kept is made
of whole pages of one usable entry, without the kernel, and it is empty only if no usable
entry holds a page once the kernel is cut out. -/
theorem memmap_selects_usable (p : PhysMem) (entries : List MemmapEntry)
    (hfits : ∀ entry ∈ entries, entry.base + entry.length ≤ 2 ^ 64 - 4096) (kernelBase kernelStop : Nat) :
    ∃ base stop, memorySetMemmap p (some entries) kernelBase kernelStop =
        { p with physAllocBase := base, physAllocStop := stop, physAllocNext := base } ∧
      base ≤ stop ∧ pageSize ∣ base ∧ pageSize ∣ stop ∧
      (base < stop → ∃ entry ∈ entries, entry.type = memmapUsable ∧ entry.base ≤ base ∧
        stop ≤ entry.base + entry.length ∧ ApartFrom kernelBase kernelStop base stop) ∧
      (base = stop → ∀ entry ∈ entries, entry.type = memmapUsable → ∀ r,
        cutKernel kernelBase kernelStop entry.base (entry.base + entry.length) = some r →
          ¬ HoldsPage r.1 r.2) := by
  rcases memorySetMemmap_cases p entries with ⟨hsame, hnone⟩ | ⟨entry, he, r, hr, hsame⟩
  · refine ⟨0, 0, hsame, Nat.le_refl 0, Nat.dvd_zero _, Nat.dvd_zero _, ?_, ?_⟩
    · exact fun hlt => absurd hlt (Nat.lt_irrefl 0)
    · exact fun _ e he htype r hr => usablePages_none (hfits e he) htype (hnone e he) hr
  · obtain ⟨htype, hbase, hstop, hlo, hlt, hhi, hapart⟩ := usablePages_some (hfits entry he) hr
    refine ⟨r.1, r.2, hsame, Nat.le_of_lt hlt, hbase, hstop, ?_, ?_⟩
    · exact fun _ => ⟨entry, he, htype, hlo, hhi, hapart⟩
    · exact fun heq => absurd heq (Nat.ne_of_lt hlt)

/-- Three entries of which the last is reserved; the kernel stands at the start of the second, and what
lies behind it is the longest range. -/
def threeEntries : List MemmapEntry :=
  [⟨0x1000, 0x9E000, 0⟩, ⟨0x100000, 0x700800, 0⟩, ⟨0x900000, 0x1000000, 1⟩]

theorem memmap_selects_usable_three :
    memorySetMemmap ⟨0, 0, 0, 0⟩ (some threeEntries) 0x100000 0x180400 =
      ⟨0, 0x181000, 0x800000, 0x181000⟩ ∧
    ∃ entry ∈ threeEntries, entry.type = memmapUsable ∧ entry.base ≤ 0x181000 ∧
      0x800000 ≤ entry.base + entry.length ∧ ApartFrom 0x100000 0x180400 0x181000 0x800000 := by
  have heval : memorySetMemmap ⟨0, 0, 0, 0⟩ (some threeEntries) 0x100000 0x180400 =
      ⟨0, 0x181000, 0x800000, 0x181000⟩ := by decide
  obtain ⟨base, stop, hsame, -, -, -, hsome, -⟩ := memmap_selects_usable ⟨0, 0, 0, 0⟩ threeEntries
    (by decide) 0x100000 0x180400
  rw [heval] at hsame
  cases hsame
  exact ⟨heval, hsome (by decide)⟩

end FusionOS.Memory
