import FusionOS.Lib.Mem

/-!
# Byte operations

`memset` and `memcpy`. The latter copies byte by byte up to an address
aligned to eight, then in words of eight bytes, then the bytes that remain.
-/

namespace FusionOS.Memory

/-- Byte loop of `memset`. -/
def memset (m : Mem) (s : Nat) (c : UInt8) : Nat → Mem
  | 0 => m
  | n + 1 => memset (Function.update m s c) (s + 1) c n

/-- The byte loops at the head and at the tail of `memcpy`. -/
def copyBytes (m : Mem) (d s : Nat) : Nat → Mem
  | 0 => m
  | n + 1 => copyBytes (Function.update m d (m s)) (d + 1) (s + 1) n

/-- The loop over eight-byte words in the middle of `memcpy`. -/
def copyWords (m : Mem) (d s : Nat) : Nat → Mem
  | 0 => m
  | k + 1 => copyWords (store m d 8 (load m s 8)) (d + 8) (s + 8) k

def memcpy (m : Mem) (d s n : Nat) : Mem :=
  if n = 0 ∨ d = s then m
  else
    let head := min n ((8 - d % 8) % 8)
    let words := (n - head) / 8
    let m₁ := copyBytes m d s head
    let m₂ := copyWords m₁ (d + head) (s + head) words
    copyBytes m₂ (d + head + 8 * words) (s + head + 8 * words) (n - head - 8 * words)

lemma memset_out {m : Mem} {s i n : Nat} {c : UInt8} (hi : i < s ∨ s + n ≤ i) :
    memset m s c n i = m i := by
  induction n generalizing m s with
  | zero => rfl
  | succ n ih =>
    rw [memset, ih (by omega)]
    exact Function.update_of_ne (by omega) _ _

lemma copyBytes_out {m : Mem} {d s i n : Nat} (hi : i < d ∨ d + n ≤ i) :
    copyBytes m d s n i = m i := by
  induction n generalizing m d s with
  | zero => rfl
  | succ n ih =>
    rw [copyBytes, ih (by omega)]
    exact Function.update_of_ne (by omega) _ _

lemma copyWords_out {m : Mem} {d s i k : Nat} (hi : i < d ∨ d + 8 * k ≤ i) :
    copyWords m d s k i = m i := by
  induction k generalizing m d s with
  | zero => rfl
  | succ k ih =>
    rw [copyWords, ih (by omega)]
    exact store_out _ _ _ _ (by omega)

lemma memcpy_out {m : Mem} {d s i n : Nat} (hi : i < d ∨ d + n ≤ i) : memcpy m d s n i = m i := by
  unfold memcpy
  split
  · rfl
  · dsimp only
    have hhead : min n ((8 - d % 8) % 8) ≤ n := Nat.min_le_left _ _
    generalize min n ((8 - d % 8) % 8) = head at hhead
    rw [copyBytes_out (by omega), copyWords_out (by omega), copyBytes_out (by omega)]

/-! Every loop runs upwards, so a destination below its source is as good as a disjoint one. -/

section Copied
variable {m : Mem} {d s i : Nat}

lemma copyBytes_in {n : Nat} (hdisj : d ≤ s ∨ s + n ≤ d) (hi : i < n) :
    copyBytes m d s n (d + i) = m (s + i) := by
  induction n generalizing m d s i with
  | zero => omega
  | succ n ih =>
    rw [copyBytes]
    cases i with
    | zero =>
      rw [copyBytes_out (by omega)]
      exact Function.update_self _ _ _
    | succ i =>
      -- the source byte lies behind the one just overwritten
      have hstep := ih (m := Function.update m d (m s)) (d := d + 1) (s := s + 1) (i := i)
        (by omega) (by omega)
      rw [Function.update_of_ne (by omega)] at hstep
      rwa [Nat.add_assoc, Nat.add_assoc, Nat.add_comm 1 i] at hstep

lemma copyWords_in {k : Nat} (hdisj : d ≤ s ∨ s + 8 * k ≤ d) (hi : i < 8 * k) :
    copyWords m d s k (d + i) = m (s + i) := by
  induction k generalizing m d s i with
  | zero => omega
  | succ k ih =>
    rw [copyWords]
    by_cases hword : i < 8
    · rw [copyWords_out (by omega)]
      exact store_load _ _ _ hword
    · have hstep := ih (m := store m d 8 (load m s 8)) (d := d + 8) (s := s + 8) (i := i - 8)
        (by omega) (by omega)
      have haddr : d + 8 + (i - 8) = d + i := by omega
      rw [haddr, store_out _ _ _ _ (by omega)] at hstep
      rw [hstep]
      congr 1
      omega

lemma memcpy_in {n : Nat} (hdisj : d ≤ s ∨ s + n ≤ d) (hi : i < n) :
    memcpy m d s n (d + i) = m (s + i) := by
  unfold memcpy
  split
  · rename_i hnone
    obtain rfl : d = s := by omega
    rfl
  dsimp only
  have hhead : min n ((8 - d % 8) % 8) ≤ n := Nat.min_le_left _ _
  generalize min n ((8 - d % 8) % 8) = head at hhead
  have hwords : 8 * ((n - head) / 8) ≤ n - head := Nat.mul_div_le _ _
  generalize (n - head) / 8 = words at hwords
  by_cases hfirst : i < head
  · rw [copyBytes_out (by omega), copyWords_out (by omega)]
    exact copyBytes_in (by omega) hfirst
  by_cases hmid : i < head + 8 * words
  · have hword := copyWords_in (m := copyBytes m d s head) (d := d + head) (s := s + head)
      (i := i - head) (k := words) (by omega) (by omega)
    have haddr : d + head + (i - head) = d + i := by omega
    have hsrc : s + head + (i - head) = s + i := by omega
    rw [haddr, hsrc, copyBytes_out (by omega)] at hword
    rw [copyBytes_out (by omega)]
    exact hword
  · have hlast := copyBytes_in
      (m := copyWords (copyBytes m d s head) (d + head) (s + head) words)
      (d := d + head + 8 * words) (s := s + head + 8 * words) (i := i - head - 8 * words)
      (n := n - head - 8 * words) (by omega) (by omega)
    have haddr : d + head + 8 * words + (i - head - 8 * words) = d + i := by omega
    have hsrc : s + head + 8 * words + (i - head - 8 * words) = s + i := by omega
    have hkept : copyWords (copyBytes m d s head) (d + head) (s + head) words (s + i) = m (s + i) := by
      rw [copyWords_out (by omega), copyBytes_out (by omega)]
    rw [haddr, hsrc] at hlast
    exact hlast.trans hkept

end Copied

end FusionOS.Memory
