import Mathlib.Data.Nat.Basic
import Mathlib.Algebra.Group.Nat.Defs
import Mathlib.Algebra.Group.Int.Defs
import Mathlib.Data.Option.Basic

/-!
# Checked reads from a byte buffer

A buffer is a list of bytes. A read at an index outside it fails, so a function
that reads a buffer only through these operations and returns a value has read
only bytes of the buffer. Multi-byte fields exist in both byte orders.
-/

namespace FusionOS

abbrev Buf := List UInt8

def rd8 (f : Buf) (i : Nat) : Option Nat := f[i]?.map UInt8.toNat

def rd16be (f : Buf) (i : Nat) : Option Nat :=
  (rd8 f i).bind fun a => (rd8 f (i + 1)).map fun b => a * 256 + b

def rd32be (f : Buf) (i : Nat) : Option Nat :=
  (rd16be f i).bind fun a => (rd16be f (i + 2)).map fun b => a * 65536 + b

def rd32le (f : Buf) (i : Nat) : Option Nat :=
  (rd8 f i).bind fun a => (rd8 f (i + 1)).bind fun b => (rd8 f (i + 2)).bind fun c =>
    (rd8 f (i + 3)).map fun d => a + b * 256 + c * 65536 + d * 16777216

/-- The `n` bytes from index `i` on; reading no byte never fails. -/
def rdBytes (f : Buf) (i n : Nat) : Option (List UInt8) :=
  if n = 0 ∨ i + n ≤ f.length then some ((f.drop i).take n) else none

def u16be (v : Nat) : List UInt8 := [UInt8.ofNat (v / 256), UInt8.ofNat v]
def u16le (v : Nat) : List UInt8 := [UInt8.ofNat v, UInt8.ofNat (v / 256)]
def u32be (v : Nat) : List UInt8 := u16be (v / 65536) ++ u16be v
def u32le (v : Nat) : List UInt8 := u16le v ++ u16le (v / 65536)

/-! ## Functions that return -/

section Returns
variable {α β : Type} {x y : Option α}

lemma isSome_bind {k : α → Option β} {a : α} (hx : x = some a) (hk : (k a).isSome = true) :
    (x.bind k).isSome = true := by
  rw [hx]
  exact hk

lemma isSome_ite {c : Prop} [Decidable c] (hx : c → x.isSome = true) (hy : ¬ c → y.isSome = true) :
    (if c then x else y).isSome = true := by
  split
  · exact hx ‹_›
  · exact hy ‹_›

end Returns

section Reads
variable {f : Buf} {i n : Nat}

lemma rd8_of_lt (h : i < f.length) : ∃ v, rd8 f i = some v ∧ v < 256 :=
  ⟨f[i].toNat, by simp [rd8, h], f[i].toNat_lt⟩

lemma rd8_none (h : f.length ≤ i) : rd8 f i = none := by simp [rd8, h]

lemma rd16be_of_lt (h : i + 1 < f.length) : ∃ v, rd16be f i = some v ∧ v < 65536 := by
  obtain ⟨a, ha, hlt⟩ := rd8_of_lt (f := f) (i := i) (by omega)
  obtain ⟨b, hb, hlt'⟩ := rd8_of_lt h
  exact ⟨a * 256 + b, by simp [rd16be, ha, hb], by omega⟩

lemma rd16be_none (h : f.length ≤ i + 1) : rd16be f i = none := by
  cases ha : rd8 f i with
  | none => simp [rd16be, ha]
  | some a => simp [rd16be, ha, rd8_none h]

lemma rd8_lt {v : Nat} (h : rd8 f i = some v) : v < 256 := by
  obtain ⟨b, -, rfl⟩ := Option.map_eq_some_iff.mp h
  exact b.toNat_lt

lemma rd16be_lt {v : Nat} (h : rd16be f i = some v) : v < 65536 := by
  obtain ⟨a, ha, hrest⟩ := Option.bind_eq_some_iff.mp h
  obtain ⟨b, hb, rfl⟩ := Option.map_eq_some_iff.mp hrest
  have := rd8_lt ha
  have := rd8_lt hb
  omega

lemma rd32be_lt {v : Nat} (h : rd32be f i = some v) : v < 2 ^ 32 := by
  obtain ⟨a, ha, hrest⟩ := Option.bind_eq_some_iff.mp h
  obtain ⟨b, hb, rfl⟩ := Option.map_eq_some_iff.mp hrest
  have := rd16be_lt ha
  have := rd16be_lt hb
  omega

lemma rd32be_of_lt (h : i + 3 < f.length) : ∃ v, rd32be f i = some v ∧ v < 2 ^ 32 := by
  obtain ⟨a, ha, hlt⟩ := rd16be_of_lt (f := f) (i := i) (by omega)
  obtain ⟨b, hb, hlt'⟩ := rd16be_of_lt (f := f) (i := i + 2) (by omega)
  exact ⟨a * 65536 + b, by simp [rd32be, ha, hb], by omega⟩

lemma rd32le_of_lt (h : i + 3 < f.length) : ∃ v, rd32le f i = some v ∧ v < 2 ^ 32 := by
  obtain ⟨a, ha, hlta⟩ := rd8_of_lt (f := f) (i := i) (by omega)
  obtain ⟨b, hb, hltb⟩ := rd8_of_lt (f := f) (i := i + 1) (by omega)
  obtain ⟨c, hc, hltc⟩ := rd8_of_lt (f := f) (i := i + 2) (by omega)
  obtain ⟨d, hd, hltd⟩ := rd8_of_lt h
  refine ⟨a + b * 256 + c * 65536 + d * 16777216, ?_, by omega⟩
  simp [rd32le, ha, hb, hc, hd]

lemma rd32le_cons (a b c d : UInt8) (rest : List UInt8) :
    rd32le (a :: b :: c :: d :: rest) 0 =
      some (a.toNat + b.toNat * 256 + c.toNat * 65536 + d.toNat * 16777216) := rfl

lemma rdBytes_of_le (h : i + n ≤ f.length) :
    rdBytes f i n = some ((f.drop i).take n) := by simp [rdBytes, h]

end Reads

/-! ## Cursors

What a cursor `p` points at is `f.drop p`: a read at `p` is a read at the start of it. -/

section Cursor
variable {f : Buf} {p : Nat} {xs rest : List UInt8}

lemma rd8_drop (f : Buf) (p i : Nat) : rd8 (f.drop p) i = rd8 f (p + i) := by
  rw [rd8, rd8, List.getElem?_drop]

lemma rd16be_drop (f : Buf) (p i : Nat) : rd16be (f.drop p) i = rd16be f (p + i) := by
  rw [rd16be, rd16be, rd8_drop, rd8_drop, Nat.add_assoc]

lemma rd32le_drop (f : Buf) (p i : Nat) : rd32le (f.drop p) i = rd32le f (p + i) := by
  simp only [rd32le, rd8_drop, Nat.add_assoc]

lemma drop_add_of_drop (h : f.drop p = xs ++ rest) : f.drop (p + xs.length) = rest := by
  rw [← List.drop_drop, h, List.drop_left]

lemma drop_succ_of_drop {b : UInt8} (h : f.drop p = b :: rest) : f.drop (p + 1) = rest := by
  rw [← List.drop_drop, h, List.drop_one, List.tail_cons]

lemma rd8_of_drop {b : UInt8} (h : f.drop p = b :: rest) : rd8 f p = some b.toNat := by
  rw [← Nat.add_zero p, ← rd8_drop, h]
  rfl

lemma rd16be_of_drop {v : Nat} (h : f.drop p = u16be v ++ rest) (hv : v < 65536) :
    rd16be f p = some v := by
  have hhigh : (UInt8.ofNat (v / 256)).toNat = v / 256 := by
    rw [UInt8.toNat_ofNat']
    omega
  have hlow : (UInt8.ofNat v).toNat = v % 256 := UInt8.toNat_ofNat'
  rw [← Nat.add_zero p, ← rd16be_drop, h]
  change some ((UInt8.ofNat (v / 256)).toNat * 256 + (UInt8.ofNat v).toNat) = some v
  rw [hhigh, hlow, Nat.div_add_mod']

lemma rd8_append {i : Nat} (hi : i < xs.length) : rd8 (xs ++ rest) i = rd8 xs i := by
  rw [rd8, rd8, List.getElem?_append_left hi]

lemma rd32le_append {i : Nat} (hi : i + 3 < xs.length) : rd32le (xs ++ rest) i = rd32le xs i := by
  unfold rd32le
  rw [rd8_append (by omega), rd8_append (by omega), rd8_append (by omega), rd8_append hi]

end Cursor

end FusionOS
