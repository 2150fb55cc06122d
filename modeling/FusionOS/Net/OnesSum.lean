import FusionOS.Net.Checksum

/-!
# Checksums as one's complement sums

`checksum16` and `checksum_tcp` each have a loop over words and a loop that folds the carries.
-/

namespace FusionOS.Net

/-- The values that the loop over words gives to `sum`, before they are cut to 32 bits. -/
def wordSums : Nat → List UInt8 → List Nat
  | sum, a :: b :: rest =>
    (sum + (a.toNat * 256 + b.toNat)) :: wordSums ((sum + (a.toNat * 256 + b.toNat)) % 2 ^ 32) rest
  | sum, [a] => [sum + a.toNat * 256]
  | _, [] => []

/-- The values of `sum` in `checksum_tcp`, over the pseudo header and over the segment. -/
def tcpSums (src dst : Nat) (tcp : List UInt8) : List Nat :=
  wordSums 0 (pseudoHeader src dst tcp.length) ++
    wordSums (sumWords 0 (pseudoHeader src dst tcp.length)) tcp

/-- The loop that folds the carries, with a bound on its turns. -/
def foldLoop : Nat → Nat → Option Nat
  | 0, _ => none
  | fuel + 1, sum =>
    if sum / 65536 = 0 then some sum else foldLoop fuel ((sum % 65536 + sum / 65536) % 2 ^ 32)

lemma foldCarries_value (sum : Nat) : OnesValue sum (foldCarries sum) := by
  obtain ⟨hres, hle, hzero⟩ := foldCarries_spec sum
  refine ⟨hle, hres, hzero, ?_⟩
  rintro rfl
  rw [foldCarries, if_pos rfl]

lemma foldLoop_eq {sum : Nat} (h : sum < 2 ^ 32) : foldLoop 3 sum = some (foldCarries sum) := by
  have hturn : ∀ fuel s, s < 2 ^ 32 → s / 65536 ≠ 0 →
      foldLoop (fuel + 1) s = foldLoop fuel (s % 65536 + s / 65536) ∧
        foldCarries s = foldCarries (s % 65536 + s / 65536) := by
    intro fuel s hs hcarry
    rw [foldLoop, if_neg hcarry, Nat.mod_eq_of_lt (by omega)]
    constructor
    · rfl
    · rw [foldCarries, if_neg hcarry]
  have hend : ∀ fuel s, s / 65536 = 0 → foldLoop (fuel + 1) s = some (foldCarries s) := by
    intro fuel s hcarry
    rw [foldLoop, if_pos hcarry, foldCarries, if_pos hcarry]
  by_cases h1 : sum / 65536 = 0
  · exact hend 2 sum h1
  · obtain ⟨hloop, hfold⟩ := hturn 2 sum h h1
    rw [hloop, hfold]
    by_cases h2 : (sum % 65536 + sum / 65536) / 65536 = 0
    · exact hend 1 _ h2
    · obtain ⟨hloop, hfold⟩ := hturn 1 (sum % 65536 + sum / 65536) (by omega) h2
      rw [hloop, hfold]
      exact hend 0 _ (by omega)

lemma wordSums_le {sum : Nat} {data : List UInt8} (h : sum + wordSum data < 2 ^ 32) :
    ∀ x ∈ wordSums sum data, x ≤ sum + wordSum data := by
  induction sum, data using wordSums.induct with
  | case1 sum a b rest ih =>
    have hsum : sum + wordSum (a :: b :: rest) = sum + (a.toNat * 256 + b.toNat) + wordSum rest := by
      rw [wordSum]
      exact (Nat.add_assoc _ _ _).symm
    rw [hsum] at h ⊢
    have hmod := Nat.mod_eq_of_lt (Nat.lt_of_le_of_lt (Nat.le_add_right _ _) h)
    rw [hmod] at ih
    rw [wordSums, hmod]
    intro x hx
    rcases List.mem_cons.mp hx with rfl | hx
    · exact Nat.le_add_right _ _
    · exact ih h x hx
  | case2 sum a =>
    intro x hx
    obtain rfl := List.mem_singleton.mp hx
    exact Nat.le_refl _
  | case3 sum => exact fun x hx => absurd hx List.not_mem_nil

section Sums
variable (src dst : Nat) {tcp : List UInt8}

lemma wordSum_pseudoHeader_append (tcp : List UInt8) :
    wordSum (pseudoHeader src dst tcp.length ++ tcp) =
      wordSum (pseudoHeader src dst tcp.length) + wordSum tcp :=
  wordSum_append (by rw [pseudoHeader_length])

lemma wordSum_pseudoHeader_lt (hlen : tcp.length ≤ 65535) :
    wordSum (pseudoHeader src dst tcp.length) + wordSum tcp < 2 ^ 32 := by
  have hpseudo := wordSum_pseudoHeader_le src dst tcp.length
  have htcp := wordSum_le tcp
  omega

lemma sumWords_of_lt {sum : Nat} {data : List UInt8} (h : sum + wordSum data < 2 ^ 32) :
    sumWords sum data = sum + wordSum data := by
  rw [sumWords_eq data (by omega), Nat.mod_eq_of_lt h]

lemma sumWords_pseudoHeader (hlen : tcp.length ≤ 65535) :
    sumWords (sumWords 0 (pseudoHeader src dst tcp.length)) tcp =
      wordSum (pseudoHeader src dst tcp.length ++ tcp) := by
  have hlt := wordSum_pseudoHeader_lt src dst hlen
  have hfirst : sumWords 0 (pseudoHeader src dst tcp.length) =
      0 + wordSum (pseudoHeader src dst tcp.length) := sumWords_of_lt (by omega)
  rw [hfirst, Nat.zero_add, sumWords_of_lt hlt, wordSum_pseudoHeader_append]

lemma sumWords_zero_append (hlen : tcp.length ≤ 65535) :
    sumWords 0 (pseudoHeader src dst tcp.length ++ tcp) =
      wordSum (pseudoHeader src dst tcp.length ++ tcp) := by
  have hlt := wordSum_pseudoHeader_lt src dst hlen
  rw [← wordSum_pseudoHeader_append] at hlt
  rw [sumWords_of_lt (by omega), Nat.zero_add]

lemma tcpSums_lt (hlen : tcp.length ≤ 65535) : ∀ x ∈ tcpSums src dst tcp, x < 2 ^ 32 := by
  have hlt := wordSum_pseudoHeader_lt src dst hlen
  intro x hx
  rcases List.mem_append.mp hx with hx | hx
  · have := wordSums_le (by omega) x hx
    omega
  · rw [sumWords_of_lt (by omega), Nat.zero_add] at hx
    have := wordSums_le hlt x hx
    omega

end Sums

/-- The checksum of a segment is that of the pseudo header with the segment behind it, which is the
complement of the one's complement sum; no sum is cut, and the loops that fold it end. -/
theorem checksum_tcp_eq (src dst : Nat) (tcp : List UInt8) (hlen : tcp.length ≤ 65535) :
    checksumTcp src dst tcp = checksum16 (pseudoHeader src dst tcp.length ++ tcp) ∧
    checksum16 (pseudoHeader src dst tcp.length ++ tcp) =
      65535 - onesSum (pseudoHeader src dst tcp.length ++ tcp) ∧
    (∀ x ∈ tcpSums src dst tcp, x < 2 ^ 32) ∧
    (∀ x ∈ wordSums 0 (pseudoHeader src dst tcp.length ++ tcp), x < 2 ^ 32) ∧
    ∀ sum, sum < 2 ^ 32 → foldLoop 3 sum = some (foldCarries sum) := by
  have hlt := wordSum_pseudoHeader_lt src dst hlen
  rw [← wordSum_pseudoHeader_append] at hlt
  have hsum := sumWords_zero_append src dst hlen
  refine ⟨?_, ?_, tcpSums_lt src dst hlen, ?_, fun sum => foldLoop_eq⟩
  · rw [checksum16, hsum, ← sumWords_pseudoHeader src dst hlen]
    rfl
  · rw [checksum16, hsum]
    congr 1
    exact (foldCarries_value _).unique (onesSum_value _)
  · intro x hx
    have := wordSums_le (by omega) x hx
    omega

/-- A segment of one byte, whose checksum is that of seven words. -/
theorem checksum_tcp_eq_odd :
    checksumTcp 0x0F02000A 0x0202000A [0xAB] =
      65535 - onesSum (pseudoHeader 0x0F02000A 0x0202000A 1 ++ [0xAB]) := by
  obtain ⟨h1, h2, -⟩ := checksum_tcp_eq 0x0F02000A 0x0202000A [0xAB] (by decide)
  exact h1.trans h2

end FusionOS.Net
