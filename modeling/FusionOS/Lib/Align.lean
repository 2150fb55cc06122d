import Mathlib.Data.Nat.Bitwise

/-!
# Rounding to multiples

`floorTo a x` and `ceilTo a x` are the multiples of `a` next to `x` from below and from above.
-/

namespace FusionOS

def floorTo (a x : Nat) : Nat := x / a * a

def ceilTo (a x : Nat) : Nat := floorTo a (x + (a - 1))

section Rounding
variable {a x y : Nat}

lemma dvd_floorTo (a x : Nat) : a ∣ floorTo a x := Nat.dvd_mul_left a (x / a)

lemma floorTo_le (a x : Nat) : floorTo a x ≤ x := Nat.div_mul_le_self x a

lemma lt_floorTo_add (ha : 0 < a) (x : Nat) : x < floorTo a x + a := Nat.lt_div_mul_add ha

lemma le_floorTo (hy : a ∣ y) (h : y ≤ x) : y ≤ floorTo a x := by
  obtain ⟨q, rfl⟩ := hy
  rcases Nat.eq_zero_or_pos a with rfl | ha
  · rw [Nat.zero_mul]
    exact Nat.zero_le _
  · rw [floorTo, Nat.mul_comm a q]
    exact Nat.mul_le_mul_right a ((Nat.le_div_iff_mul_le ha).mpr (by rwa [Nat.mul_comm q a]))

lemma floorTo_eq_zero (h : x < a) : floorTo a x = 0 := by
  rw [floorTo, Nat.div_eq_of_lt h, Nat.zero_mul]

lemma dvd_ceilTo (a x : Nat) : a ∣ ceilTo a x := dvd_floorTo a _

lemma le_ceilTo (ha : 0 < a) (x : Nat) : x ≤ ceilTo a x := by
  have hlt := lt_floorTo_add ha (x + (a - 1))
  unfold ceilTo
  omega

lemma ceilTo_le (hy : a ∣ y) (h : x ≤ y) : ceilTo a x ≤ y := by
  rcases Nat.eq_zero_or_pos a with rfl | ha
  · rw [ceilTo, floorTo, Nat.mul_zero]
    exact Nat.zero_le y
  -- otherwise the next multiple behind `y` would be no larger than the rounded value
  by_contra hlt
  obtain ⟨q, rfl⟩ := hy
  have hnext : a * (q + 1) ≤ ceilTo a x := by
    obtain ⟨r, hr⟩ := dvd_ceilTo a x
    rw [hr] at hlt ⊢
    exact Nat.mul_le_mul_left a (Nat.lt_of_mul_lt_mul_left (Nat.lt_of_not_le hlt))
  have hle := floorTo_le a (x + (a - 1))
  rw [ceilTo, Nat.mul_add, Nat.mul_one] at hnext
  omega

end Rounding

lemma land_clear_low {w k x : Nat} (hk : k ≤ w) (hx : x < 2 ^ w) :
    x &&& (2 ^ w - 1 - (2 ^ k - 1)) = floorTo (2 ^ k) x := by
  have hmask : 2 ^ w - 1 - (2 ^ k - 1) = (2 ^ (w - k) - 1) * 2 ^ k := by
    have hpow : 2 ^ (w - k) * 2 ^ k = 2 ^ w := by rw [← Nat.pow_add, Nat.sub_add_cancel hk]
    have hpos := Nat.two_pow_pos k
    rw [Nat.sub_mul, hpow, Nat.one_mul]
    omega
  apply Nat.eq_of_testBit_eq
  intro i
  rw [hmask, floorTo, Nat.testBit_and, Nat.testBit_mul_two_pow, Nat.testBit_mul_two_pow,
    Nat.testBit_two_pow_sub_one, Nat.testBit_div_two_pow]
  by_cases hi : k ≤ i
  · rw [Nat.sub_add_cancel hi]
    by_cases hw : i < w
    · simp [hi, show i - k < w - k by omega]
    · have hzero : x.testBit i = false :=
        Nat.testBit_lt_two_pow (hx.trans_le (Nat.pow_le_pow_right (by decide) (by omega)))
      simp [hzero]
  · simp [hi]

end FusionOS
