import Mathlib.Order.Interval.Finset.Nat
import FusionOS.Fat.Image
import FusionOS.Lib.Chain

/-!
# Chains that are given up

`fat_free_chain` clears an entry before it follows the link that stood there. So it comes to an end
on any table, also where the links go round in a circle: every turn but the last takes a link away.
-/

namespace FusionOS.Fat

open Function (update update_of_ne update_self)

/-- The loops along the table go on at the link `x`. -/
abbrev Followed (x : Nat) : Prop := 2 ≤ x ∧ x < eoc

/-- The link in entry `c` of the first FAT, or 0 where the FAT has no such entry. -/
def Fs.link (st : Fs) (c : Nat) : Nat :=
  if c * 4 < st.vol.fatSize * 512 then st.fatEntry 0 c % 2 ^ 28 else 0

/-- The numbers that `fat_free_chain` visits from `start` on. -/
abbrev Fs.Reached (st : Fs) (start : Nat) : Nat → Prop := Reach Followed st.link start

def Fs.linked (st : Fs) : Finset Nat := (Finset.Ico 2 eoc).filter fun c => st.link c ≠ 0

section Release
variable {st st' : Fs} {c : Nat}

lemma link_of_entrySet (hfats : 0 < st.vol.fatCount) (hc : st.vol.Covers c) (hvol : st'.vol = st.vol)
    (h : EntrySet st st' c 0) : st'.link = update st.link c 0 := by
  obtain ⟨hhit, hother⟩ := h 0 hfats
  funext x
  unfold Fs.link
  rw [hvol]
  by_cases hx : x = c
  · subst hx
    rw [update_self, hhit, Nat.zero_mod, ite_self]
  · rw [update_of_ne hx]
    split
    · next hcov => rw [hother x hcov hx]
    · rfl

lemma linked_card_lt (hlink : st'.link = update st.link c 0) (hc : Followed c) :
    st'.linked.card + (if 2 ≤ st.link c then 1 else 0) < st.linked.card + 1 := by
  have hsub : st'.linked = st.linked.erase c := by
    ext x
    by_cases hx : x = c
    · simp [Fs.linked, hlink, hx]
    · simp [Fs.linked, hlink, hx]
  rw [hsub]
  by_cases h0 : st.link c = 0
  · have hle := Finset.card_le_card (Finset.erase_subset c st.linked)
    rw [h0, if_neg (by decide)]
    omega
  · have hmem : c ∈ st.linked := Finset.mem_filter.mpr ⟨Finset.mem_Ico.mpr hc, h0⟩
    have hlt := Finset.card_erase_lt_of_mem hmem
    split <;> omega

/-- What holds at the start and is kept when a reached entry is cleared holds at the end. -/
lemma freeLoop_clears {S : Nat → Prop} {P : Fs → Prop} (fuel : Nat) (hio : ∀ n, st.ioOk n = true)
    (hfats : 0 < st.vol.fatCount) (hS : ∀ x, S x → st.vol.Covers x)
    (hreach : ∀ x, st.Reached c x → S x) (hquiet : ∀ s s', P s → Quiet s s' → P s')
    (hset : ∀ s x, P s → S x → P (fatSetEntry s x 0).2) (h0 : P st)
    (hf : st.linked.card + (if 2 ≤ c then 1 else 0) < fuel) :
    ∃ st', freeLoop fuel c st = some (true, st') ∧ P st' ∧ st'.vol = st.vol ∧
      ∀ k < st.vol.fatCount, ∀ x, x * 4 < st.vol.fatSize * 512 →
        (st.Reached c x → st'.fatEntry k x = 0) ∧
          (¬ st.Reached c x → st'.fatEntry k x = st.fatEntry k x) := by
  induction fuel generalizing st c with
  | zero => omega
  | succ fuel ih =>
    rw [freeLoop]
    by_cases hgo : Followed c
    · have hc := hS c (hreach c (.start hgo))
      obtain ⟨st1, hget, hq, -⟩ := fatGetEntry_covered hfats hc
      rw [if_pos (hio _)] at hget
      have hlink1 : st.fatEntry 0 c % 2 ^ 28 = st.link c := by rw [Fs.link, if_pos hc.entry]
      have hP := hset st1 c (hquiet st st1 h0 hq) (hreach c (.start hgo))
      obtain ⟨b, n, rfl⟩ := hq
      obtain ⟨st2, hrun, hd, hentry, -⟩ := @fatSetEntry_covered { st with sectorBuf := b, ops := n } hio c
        hc 0
      have hvol : st2.vol = st.vol := hd.vol
      have hlink : st2.link = update st.link c 0 := @link_of_entrySet st _ _ hfats hc hvol hentry
      have hiff : ∀ x, st.Reached c x ↔ x = c ∨ st2.Reached (st.link c) x := by
        intro x
        rw [Fs.Reached, Fs.Reached, hlink]
        exact reach_iff_cleared hgo (by decide)
      rw [hrun] at hP
      rw [if_pos hgo, hget, hlink1]
      dsimp only
      rw [hrun]
      have hless := linked_card_lt hlink hgo
      rw [if_pos hgo.1] at hf
      obtain ⟨st', hend, hP', hvol', hall⟩ := @ih st2 (st.link c)
        (by obtain ⟨_, _, _, rfl⟩ := hd; exact hio) (by rw [hvol]; exact hfats)
        (by rw [hvol]; exact hS) (fun x hx => hreach x ((hiff x).mpr (.inr hx))) hP (by omega)
      rw [hvol] at hvol' hall
      refine ⟨st', hend, hP', hvol', fun k hk x hx => ?_⟩
      obtain ⟨hzero, hkept⟩ := hall k hk x hx
      obtain ⟨hhit, hother⟩ := hentry k hk
      rw [hiff]
      by_cases hx' : st2.Reached (st.link c) x
      · exact ⟨fun _ => hzero hx', fun hno => absurd (.inr hx') hno⟩
      · refine ⟨?_, fun hno => ?_⟩
        · rintro (rfl | h)
          · rw [hkept hx']
            exact hhit
          · exact absurd h hx'
        · rw [hkept hx']
          exact hother x hx fun h => hno (.inl h)
    · rw [if_neg hgo]
      refine ⟨st, rfl, h0, rfl, fun k _ x _ => ⟨fun hx => ?_, fun _ => rfl⟩⟩
      exact absurd (hx.stays (Z := fun _ => Followed c) id fun _ h _ => h) hgo

lemma linked_card_lt_fuel (st : Fs) : st.linked.card + 1 < chainFuel := by
  have hle : st.linked.card ≤ eoc - 2 :=
    (Finset.card_filter_le _ _).trans (Nat.card_Ico 2 eoc).le
  unfold eoc at hle
  unfold chainFuel
  omega

lemma link_eq_fat (hg : Geometry st.vol) {x : Nat} (hx : x < st.vol.limit) : st.link x = st.fat x := by
  rw [Fs.link, if_pos (hg.covers hx).entry, fat_eq_fatEntry hx]

/-- In a set of clusters that no link leaves, `fat_free_chain` returns and clears what it reaches. -/
lemma fatFreeChain_clears {Z : Nat → Prop} (hr : Ready st) (hZ : ∀ x, Z x → st.vol.IsCluster x)
    (hlink : ∀ x, Z x → Followed (st.fat x) → Z (st.fat x)) (hc : Z c) :
    (∀ x, st.Reached c x → Z x) ∧ ∃ st', fatFreeChain st c = some (true, st') ∧ Held st st' ∧
      st'.data = st.data ∧
      ∀ x, (st.Reached c x → st'.fat x = 0) ∧ (¬ st.Reached c x → st'.fat x = st.fat x) := by
  have hg := hr.geometry
  have hreach : ∀ x, st.Reached c x → Z x := by
    intro x hx
    apply hx.stays fun _ => hc
    intro y hy
    rw [link_eq_fat hg (hZ y hy).2]
    exact hlink y hy
  have hfuel := linked_card_lt_fuel st
  obtain ⟨st', hrun, ⟨hh, hdata⟩, -, hall⟩ := freeLoop_clears
    (P := fun s => Held st s ∧ s.data = st.data) chainFuel hr.io hg.fats
    (fun x hx => hg.covers (hZ x hx).2) hreach
    (fun s s' hs hq => ⟨hs.1.trans hq.held, hq.data.trans hs.2⟩)
    (fun s x hs hx => by
      obtain ⟨s', hset, hh, -, hdata⟩ := fatSetEntry_ok (hs.1.ready hr) (c := x)
        (by rw [hs.1.vol]; exact (hZ x hx).2) (show 0 < 2 ^ 28 by decide)
      rw [hset]
      exact ⟨hs.1.trans hh, hdata.trans hs.2⟩)
    ⟨Held.refl st, rfl⟩ (by split <;> omega)
  refine ⟨hreach, st', hrun, hh, hdata, fun x => ?_⟩
  by_cases hx : x < st.vol.limit
  · obtain ⟨hzero, hkept⟩ := hall 0 hg.fats x (hg.covers hx).entry
    rw [fat_eq_fatEntry hx, fat_eq_fatEntry (by rw [hh.vol]; exact hx)]
    refine ⟨fun h => ?_, fun h => ?_⟩
    · rw [hzero h, Nat.zero_mod]
    · rw [hkept h]
  · rw [Fs.fat, Fs.fat, hh.vol, if_neg hx, if_neg hx]
    exact ⟨fun _ => rfl, fun _ => rfl⟩

end Release

/-- Where every link stays in the FAT or ends the walk, `fat_free_chain` returns, clears exactly the
entries that the links lead to, in every copy, and leaves all other entries as they are. -/
theorem fatFreeChain_exact (st : Fs) (start : Nat) (hio : ∀ n, st.ioOk n = true)
    (hfats : 0 < st.vol.fatCount) (hdisk : st.vol.fatStartLba + st.vol.fatCount * st.vol.fatSize ≤ 2 ^ 32)
    (hlinks : ∀ c, c * 4 < st.vol.fatSize * 512 → Followed (st.link c) →
      st.link c * 4 < st.vol.fatSize * 512)
    (hstart : start * 4 < st.vol.fatSize * 512) :
    ∃ st', fatFreeChain st start = some (true, st') ∧
      ∀ k < st.vol.fatCount, ∀ x, x * 4 < st.vol.fatSize * 512 →
        (st.Reached start x → st'.fatEntry k x = 0) ∧
          (¬ st.Reached start x → st'.fatEntry k x = st.fatEntry k x) := by
  have hreach : ∀ x, st.Reached start x → st.vol.Covers x := by
    intro x hx
    apply hx.stays fun h => ⟨hdisk, hstart, h.2⟩
    intro y hy h
    exact ⟨hdisk, hlinks y hy.entry h, h.2⟩
  have hfuel := linked_card_lt_fuel st
  obtain ⟨st', hrun, -, -, hall⟩ := freeLoop_clears (P := fun _ => True) chainFuel hio hfats
    (fun _ h => h) hreach (fun _ _ _ _ => trivial) (fun _ _ _ _ => trivial) trivial
    (by split <;> omega)
  exact ⟨st', hrun, hall⟩

/-- Two FATs in which the links of the clusters 3 and 4 go round in a circle. -/
def ringFs : Fs :=
  { vol :=
      { sectorsPerCluster := 1, reservedSectors := 1, fatCount := 2, fatSize := 1, totalSectors := 10,
        rootCluster := 2, fatStartLba := 1, dataStartLba := 3, totalClusters := 7, partLba := 0,
        mounted := true }
    disk := fun _ => store (store (store (store (fun _ => 0) 8 4 3) 12 4 4) 16 4 3) 20 4 0x0FFFFFFF
    sectorBuf := fun _ => 0
    ioOk := fun _ => true
    ops := 0
    heap := ⟨fun _ => 0, 0, 0, 0, 0⟩
    stackName := [] }

theorem fatFreeChain_exact_ring :
    ∃ st', fatFreeChain ringFs 2 = some (true, st') ∧
      ∀ k < 2, st'.fatEntry k 3 = 0 ∧ st'.fatEntry k 4 = 0 ∧ st'.fatEntry k 5 = 0x0FFFFFFF := by
  have hlinks : ∀ c < 128, ringFs.link c < 6 ∨ ringFs.link c = 0x0FFFFFFF := by decide +kernel
  obtain ⟨st', hrun, hall⟩ := fatFreeChain_exact ringFs 2 (fun _ => rfl) (by decide) (by decide)
    (fun c hc hgo => by
      have hc : c * 4 < 512 := hc
      show ringFs.link c * 4 < 512
      have := hlinks c (by omega)
      have := hgo.2
      unfold eoc at this
      omega)
    (by decide)
  have hl2 : ringFs.link 2 = 3 := by decide +kernel
  have hl3 : ringFs.link 3 = 4 := by decide +kernel
  have h3 : ringFs.Reached 2 3 := by
    rw [← hl2]
    exact .step (.start (by decide)) (by rw [hl2]; decide)
  have h4 : ringFs.Reached 2 4 := by
    rw [← hl3]
    exact .step h3 (by rw [hl3]; decide)
  have h5 : ¬ ringFs.Reached 2 5 := by
    intro h
    have hin : (5 : Nat) ∈ [2, 3, 4] := h.stays (by decide) (by decide +kernel)
    exact absurd hin (by decide)
  refine ⟨st', hrun, fun k hk => ⟨(hall k hk 3 (by decide)).1 h3, (hall k hk 4 (by decide)).1 h4, ?_⟩⟩
  have hlast : ∀ k < 2, ringFs.fatEntry k 5 = 0x0FFFFFFF := by decide +kernel
  rw [(hall k hk 5 (by decide)).2 h5]
  exact hlast k hk

end FusionOS.Fat
