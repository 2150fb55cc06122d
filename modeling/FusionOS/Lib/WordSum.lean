import Mathlib.Data.Nat.Basic
import Mathlib.Data.List.Basic

/-!
# Sums of big-endian words

The Internet checksum is a sum of 16-bit words modulo 65535.
-/

namespace FusionOS

open List

def wordSum : List UInt8 → Nat
  | a :: b :: rest => a.toNat * 256 + b.toNat + wordSum rest
  | [a] => a.toNat * 256
  | [] => 0

def swapWord (c : Nat) : Nat := c % 256 * 256 + c / 256

section Words
variable {xs ys : List UInt8}

lemma wordSum_append (h : xs.length % 2 = 0) : wordSum (xs ++ ys) = wordSum xs + wordSum ys := by
  induction xs using wordSum.induct with
  | case1 a b rest ih =>
    rw [length_cons, length_cons] at h
    rw [cons_append, cons_append, wordSum, wordSum, ih (by omega)]
    omega
  | case2 a => simp at h
  | case3 => rw [nil_append, wordSum, Nat.zero_add]

lemma wordSum_field (h : xs.length % 2 = 0) {c : Nat} (hc : c < 65536) :
    wordSum (xs ++ ([UInt8.ofNat c, UInt8.ofNat (c / 256)] ++ ys)) =
      wordSum (xs ++ ([0, 0] ++ ys)) + swapWord c := by
  rw [wordSum_append h, wordSum_append h, cons_append, cons_append, cons_append,
    cons_append, nil_append, wordSum, wordSum, UInt8.toNat_ofNat', UInt8.toNat_ofNat']
  unfold swapWord
  rw [show c / 256 % 2 ^ 8 = c / 256 by omega]
  simp only [UInt8.toNat_zero]
  omega

lemma dvd_add_swapWord {sum r c : Nat} (hr : r % 65535 = sum % 65535) (hc : c + r = 65535) :
    65535 ∣ sum + swapWord c ↔ c % 256 = c / 256 := by
  have hlow : c % 256 + 256 * (c / 256) = c := by omega
  have hhigh : c / 256 < 256 := by omega
  have hlt : c % 256 < 256 := by omega
  unfold swapWord
  generalize c % 256 = lo at *
  generalize c / 256 = hi at *
  rw [Nat.dvd_iff_mod_eq_zero]
  constructor
  · intro h
    omega
  · intro h
    omega

end Words

/-! ## The one's complement sum -/

def words : List UInt8 → List Nat
  | a :: b :: rest => (a.toNat * 256 + b.toNat) :: words rest
  | [a] => [a.toNat * 256]
  | [] => []

def onesAdd (a b : Nat) : Nat := if a + b < 65536 then a + b else a + b - 65535

def onesSum (data : List UInt8) : Nat := (words data).foldl onesAdd 0

structure OnesValue (sum r : Nat) : Prop where
  le : r ≤ 65535
  residue : r % 65535 = sum % 65535
  zero : r = 0 ↔ sum = 0

lemma OnesValue.unique {sum r r' : Nat} (h : OnesValue sum r) (h' : OnesValue sum r') : r = r' := by
  have hle := h.le
  have hle' := h'.le
  have hres := h.residue.trans h'.residue.symm
  have hzero := h.zero.trans h'.zero.symm
  omega

lemma OnesValue.add {sum r a : Nat} (h : OnesValue sum r) (ha : a < 65536) :
    OnesValue (sum + a) (onesAdd r a) := by
  have hle := h.le
  have hres := h.residue
  have hzero := h.zero
  unfold onesAdd
  constructor <;> split <;> omega

lemma words_lt (data : List UInt8) : ∀ w ∈ words data, w < 65536 := by
  induction data using words.induct with
  | case1 a b rest ih =>
    have ha := a.toNat_lt
    have hb := b.toNat_lt
    intro w hw
    rcases mem_cons.mp hw with rfl | hw
    · omega
    · exact ih w hw
  | case2 a =>
    have ha := a.toNat_lt
    intro w hw
    obtain rfl := mem_singleton.mp hw
    omega
  | case3 => exact fun w hw => nomatch hw

lemma foldl_onesAdd {ws : List Nat} (hws : ∀ w ∈ ws, w < 65536) {sum r : Nat} (h : OnesValue sum r) :
    OnesValue (ws.foldl (· + ·) sum) (ws.foldl onesAdd r) := by
  induction ws generalizing sum r with
  | nil => exact h
  | cons w ws ih =>
    apply ih
    · exact fun v hv => hws v (mem_cons_of_mem w hv)
    · exact h.add (hws w mem_cons_self)

lemma foldl_words (data : List UInt8) (sum : Nat) :
    (words data).foldl (· + ·) sum = sum + wordSum data := by
  induction data using words.induct generalizing sum with
  | case1 a b rest ih =>
    rw [words, foldl_cons, ih, wordSum]
    omega
  | case2 a => rfl
  | case3 => rfl

lemma onesSum_value (data : List UInt8) : OnesValue (wordSum data) (onesSum data) := by
  have hzero : OnesValue 0 0 := ⟨by omega, rfl, Iff.rfl⟩
  have hfold := foldl_onesAdd (words_lt data) hzero
  rw [foldl_words, Nat.zero_add] at hfold
  exact hfold

end FusionOS
