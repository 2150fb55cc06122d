import FusionOS.Kernel.MemOps

/-!
# Overlapping copies

`memmove` runs upwards where the destination lies below the source and downwards otherwise, so it
never reads a byte that it has overwritten.
-/

namespace FusionOS.Memory

/-- The loop `while (n--) *--d = *--s`; `d` and `s` point behind what is still to be copied. -/
def copyBytesDown (m : Mem) (d s : Nat) : Nat → Mem
  | 0 => m
  | n + 1 => copyBytesDown (Function.update m (d - 1) (m (s - 1))) (d - 1) (s - 1) n

def memmove (m : Mem) (d s n : Nat) : Mem :=
  if d = s ∨ n = 0 then m
  else if d < s then copyBytes m d s n
  else copyBytesDown m (d + n) (s + n) n

/-! ## The loops of `memcpy` one by one -/

/-- What a loop of `memcpy` leaves: the memory, both pointers and the count. -/
structure CopyState where
  mem : Mem
  d : Nat
  s : Nat
  n : Nat

/-- The loop up to an aligned destination. -/
def memcpyHead (m : Mem) (d s : Nat) : Nat → CopyState
  | 0 => ⟨m, d, s, 0⟩
  | n + 1 =>
    if d % 8 ≠ 0 then memcpyHead (Function.update m d (m s)) (d + 1) (s + 1) n else ⟨m, d, s, n + 1⟩

/-- The loop over words. -/
def memcpyWords (c : CopyState) : CopyState :=
  if 8 ≤ c.n then memcpyWords ⟨store c.mem c.d 8 (load c.mem c.s 8), c.d + 8, c.s + 8, c.n - 8⟩ else c
termination_by c.n

lemma memcpyHead_eq (m : Mem) (d s n : Nat) :
    memcpyHead m d s n = ⟨copyBytes m d s (min n ((8 - d % 8) % 8)), d + min n ((8 - d % 8) % 8),
      s + min n ((8 - d % 8) % 8), n - min n ((8 - d % 8) % 8)⟩ := by
  induction n generalizing m d s with
  | zero =>
    rw [Nat.zero_min]
    rfl
  | succ n ih =>
    rw [memcpyHead]
    split
    · rename_i hd
      have hstep : min (n + 1) ((8 - d % 8) % 8) = min n ((8 - (d + 1) % 8) % 8) + 1 := by omega
      rw [ih, hstep, copyBytes]
      congr 1 <;> omega
    · rename_i hd
      have hnone : min (n + 1) ((8 - d % 8) % 8) = 0 := by omega
      rw [hnone]
      rfl

lemma memcpyWords_eq (m : Mem) (d s n : Nat) :
    memcpyWords ⟨m, d, s, n⟩ =
      ⟨copyWords m d s (n / 8), d + 8 * (n / 8), s + 8 * (n / 8), n - 8 * (n / 8)⟩ := by
  induction hk : n / 8 generalizing m d s n with
  | zero =>
    rw [memcpyWords, if_neg (by dsimp only; omega)]
    rfl
  | succ k ih =>
    rw [memcpyWords, if_pos (by dsimp only; omega)]
    dsimp only
    rw [ih _ _ _ (n - 8) (by omega), copyWords]
    congr 1 <;> omega

lemma memcpy_eq_loops (m : Mem) (d s n : Nat) :
    memcpy m d s n =
      if n = 0 ∨ d = s then m
      else
        copyBytes (memcpyWords (memcpyHead m d s n)).mem (memcpyWords (memcpyHead m d s n)).d
          (memcpyWords (memcpyHead m d s n)).s (memcpyWords (memcpyHead m d s n)).n := by
  rw [memcpyHead_eq, memcpyWords_eq]
  rfl

/-! ## Copies -/

section Move
variable {m : Mem} {d s i n : Nat}

lemma copyBytesDown_out (hi : i < d ∨ d + n ≤ i) : copyBytesDown m (d + n) (s + n) n i = m i := by
  induction n generalizing m with
  | zero => rfl
  | succ n ih =>
    rw [copyBytesDown]
    exact (ih (by omega)).trans (Function.update_of_ne (by omega) _ _)

lemma copyBytesDown_in (hle : s ≤ d) (hi : i < n) :
    copyBytesDown m (d + n) (s + n) n (d + i) = m (s + i) := by
  induction n generalizing m with
  | zero => omega
  | succ n ih =>
    rw [copyBytesDown]
    rcases Nat.lt_succ_iff_lt_or_eq.mp hi with hlt | rfl
    · -- the source byte lies below the one just overwritten
      exact (ih hlt).trans (Function.update_of_ne (by omega) _ _)
    · exact (copyBytesDown_out (by omega)).trans (Function.update_self _ _ _)

lemma memmove_in (hi : i < n) : memmove m d s n (d + i) = m (s + i) := by
  unfold memmove
  split
  · rename_i hnone
    obtain rfl : d = s := by omega
    rfl
  · split
    · exact copyBytes_in (by omega) hi
    · exact copyBytesDown_in (by omega) hi

lemma memmove_out (hi : i < d ∨ d + n ≤ i) : memmove m d s n i = m i := by
  unfold memmove
  split
  · rfl
  · split
    · exact copyBytes_out hi
    · exact copyBytesDown_out hi

lemma memcpy_eq_memmove (h : d ≤ s ∨ s + n ≤ d) : memcpy m d s n = memmove m d s n := by
  funext a
  by_cases hout : a < d ∨ d + n ≤ a
  · rw [memcpy_out hout, memmove_out hout]
  · obtain ⟨i, rfl⟩ : ∃ i, a = d + i := ⟨a - d, by omega⟩
    rw [memcpy_in h (by omega), memmove_in (by omega)]

end Move

/-- `memmove` copies whatever the overlap and touches nothing else; `memcpy` does the same where the ranges
are disjoint or the destination is not above the source. -/
theorem memmove_copies (m : Mem) (d s n : Nat) :
    slice (memmove m d s n) d n = slice m s n ∧
    (∀ a, a < d ∨ d + n ≤ a → memmove m d s n a = m a) ∧
    ((d + n ≤ s ∨ s + n ≤ d) ∨ d ≤ s → memcpy m d s n = memmove m d s n) := by
  refine ⟨slice_shift _ _ fun i hi => memmove_in hi, fun a ha => memmove_out ha, fun h => ?_⟩
  exact memcpy_eq_memmove (by omega)

/-- Twenty bytes moved down by three, between addresses that are not aligned alike. -/
theorem memmove_copies_overlap :
    slice (memcpy (fun a => UInt8.ofNat a) 4102 4105 20) 4102 20 =
      slice (fun a => UInt8.ofNat a) 4105 20 := by
  obtain ⟨hcopied, -, hsame⟩ := memmove_copies (fun a => UInt8.ofNat a) 4102 4105 20
  rw [hsame (Or.inr (by decide))]
  exact hcopied

end FusionOS.Memory
