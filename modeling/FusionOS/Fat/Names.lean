import FusionOS.Lib.Mem

/-!
# Names and directory slots

The byte-level part of `fs.c`: 8.3 names, long-name slots and the fields of a directory entry. A C
string is the list of the bytes before its terminator, and a directory slot is a list of 32 bytes.
-/

namespace FusionOS.Fat

abbrev CString := List UInt8
abbrev Slot := List UInt8

def cstr (bytes : List UInt8) : CString := bytes.takeWhile (· != 0)

def toUpper (c : UInt8) : UInt8 := if 0x61 ≤ c ∧ c ≤ 0x7A then c - 0x20 else c

def toLower (c : UInt8) : UInt8 := if 0x41 ≤ c ∧ c ≤ 0x5A then c + 0x20 else c

/-- Pads with spaces to `n` bytes. -/
def padTo (n : Nat) (bytes : List UInt8) : List UInt8 :=
  bytes ++ List.replicate (n - bytes.length) 0x20

/-- The base that `name_to_short` takes: at most eight bytes before the first dot. -/
def shortBase (name : CString) : List UInt8 := (name.takeWhile (· != 0x2E)).take 8

/-- The extension that `name_to_short` takes: three bytes behind the base and the dot after it. -/
def shortExt (name : CString) : List UInt8 :=
  let rest := name.drop (shortBase name).length
  (if rest.head? = some 0x2E then rest.tail else rest).take 3

def nameToShort (name : CString) : List UInt8 :=
  padTo 8 ((shortBase name).map toUpper) ++ padTo 3 ((shortExt name).map toUpper)

/-- `short_to_name`. The capacity of its buffer never cuts the at most 12 bytes off. -/
def shortToName (short : List UInt8) : CString :=
  let base := (short.take 8).takeWhile (· != 0x20)
  let ext := ((short.drop 8).take 3).filter (· != 0x20)
  cstr (base ++ if ext = [] then [] else 0x2E :: ext)

def nameEquals : CString → CString → Bool
  | a :: as, b :: bs => toLower a == toLower b && nameEquals as bs
  | [], [] => true
  | _, _ => false

def le16At (e : List UInt8) (i : Nat) : Nat := (e.getD i 0).toNat + 256 * (e.getD (i + 1) 0).toNat

def le32At (e : List UInt8) (i : Nat) : Nat := le16At e i + 65536 * le16At e (i + 2)

def setLe16 (e : List UInt8) (i v : Nat) : List UInt8 :=
  (e.set i (UInt8.ofNat v)).set (i + 1) (UInt8.ofNat (v / 256))

/-- The low bytes of the `count` characters from byte `start` on, up to a terminator or filler. -/
def lfnChars (e : Slot) (start count : Nat) : List UInt8 :=
  (((List.range count).map fun i => le16At e (start + 2 * i)).takeWhile
    fun ch => ch != 0 && ch != 0xFFFF).map UInt8.ofNat

/-- `lfn_extract_part`: a terminator ends only the group of characters it stands in. -/
def lfnExtractPart (e : Slot) : CString :=
  cstr (lfnChars e 1 5 ++ lfnChars e 14 6 ++ lfnChars e 28 2)

/-- `lfn_prepend` on a buffer of 256 bytes. -/
def lfnPrepend (dst part : CString) : CString :=
  part.take (if 256 ≤ part.length + dst.length then 255 - dst.length else part.length) ++ dst

def fatShortChecksum (short : List UInt8) : UInt8 :=
  short.foldl (fun sum b => ((sum >>> 1) ||| (sum <<< 7)) + b) 0

/-- The character of a long name at index `i`: the name, its terminator, then filler. -/
def lfnChar (name : CString) (i : Nat) : Nat :=
  if i < name.length then (name.getD i 0).toNat else if i = name.length then 0 else 0xFFFF

def lfnGroup (name : CString) (start count : Nat) : List UInt8 :=
  (List.range count).flatMap fun i =>
    [UInt8.ofNat (lfnChar name (start + i)), UInt8.ofNat (lfnChar name (start + i) / 256)]

/-- The slot that `fat_write_lfn_entries` fills in. -/
def fatWriteLfnEntries (name : CString) (short : List UInt8) (order : Nat) (isLast : Bool) : Slot :=
  let start := (order - 1) * 13
  [UInt8.ofNat order ||| if isLast then 0x40 else 0] ++ lfnGroup name start 5 ++
    [0x0F, 0, fatShortChecksum short] ++ lfnGroup name (start + 5) 6 ++ [0, 0] ++
    lfnGroup name (start + 11) 2

def direntAttr (e : Slot) : UInt8 := e.getD 11 0

def direntIsDir (e : Slot) : Bool := direntAttr e &&& 0x10 != 0

def direntFirstCluster (e : Slot) : Nat := le16At e 20 * 65536 + le16At e 26

def direntFileSize (e : Slot) : Nat := le32At e 28

def direntSetFirstCluster (e : Slot) (cluster : Nat) : Slot :=
  setLe16 (setLe16 e 20 (cluster / 65536)) 26 cluster

def direntSetFileSize (e : Slot) (size : Nat) : Slot :=
  setLe16 (setLe16 e 28 size) 30 (size / 65536)

/-- The entry that `fat_create_entry` writes: a name and an attribute, all else zero. -/
def newDirent (short : List UInt8) (attr : UInt8) : Slot := short ++ attr :: List.replicate 20 0

/-- The name under which the scanners see an entry behind the long-name text `lfn`. -/
def entryName (lfn : CString) (e : Slot) : CString := if lfn = [] then shortToName e else lfn

/-- The long-name text behind a long-name slot; the slot marked 0x40 starts it afresh. -/
def lfnStep (lfn : CString) (e : Slot) : CString :=
  lfnPrepend (if e.getD 0 0 &&& 0x40 != 0 then [] else lfn) (lfnExtractPart e)

/-- Whether `fat_create_entry` writes long-name slots for `name`. -/
def needsLfn (name : CString) : Bool := !nameEquals (shortToName (nameToShort name)) name

def lfnCount (name : CString) : Nat := if needsLfn name then (name.length + 12) / 13 else 0

lemma padTo_length {n : Nat} {bytes : List UInt8} (h : bytes.length ≤ n) : (padTo n bytes).length = n := by
  rw [padTo, List.length_append, List.length_replicate]
  omega

section
variable {a b : CString}

lemma nameEquals_iff : nameEquals a b = true ↔ a.map toLower = b.map toLower := by
  induction a generalizing b with
  | nil =>
    cases b with
    | nil => simp [nameEquals]
    | cons y b => simp [nameEquals]
  | cons x a ih =>
    cases b with
    | nil => simp [nameEquals]
    | cons y b => simp [nameEquals, ih]

lemma nameEquals_length (h : nameEquals a b = true) : a.length = b.length := by
  rw [nameEquals_iff] at h
  have := congrArg List.length h
  rwa [List.length_map, List.length_map] at this

lemma toLower_eq {x b : UInt8} (hb : b < 0x61 ∨ 0x7A < b) (h : toLower x = b) : x = b := by
  unfold toLower at h
  split at h
  · next hx =>
    exfalso
    have h1 : 0x41 ≤ x.toNat := hx.1
    have h2 : x.toNat ≤ 0x5A := hx.2
    have hsum : b.toNat = x.toNat + 0x20 := by
      rw [← h, UInt8.toNat_add]
      exact Nat.mod_eq_of_lt (by change x.toNat + 0x20 < 256; omega)
    rcases hb with hb | hb
    · have : b.toNat < 0x61 := hb
      omega
    · have : 0x7A < b.toNat := hb
      omega
  · exact h

lemma toUpper_eq {x b : UInt8} (hb : b < 0x41 ∨ 0x5A < b) (h : toUpper x = b) : x = b := by
  unfold toUpper at h
  split at h
  · next hx =>
    exfalso
    have h1 : 0x61 ≤ x.toNat := hx.1
    have h2 : x.toNat ≤ 0x7A := hx.2
    have hdiff : b.toNat = x.toNat - 0x20 := by
      rw [← h, UInt8.toNat_sub_of_le _ _ (show 0x20 ≤ x.toNat by omega)]
      rfl
    rcases hb with hb | hb
    · have : b.toNat < 0x41 := hb
      omega
    · have : 0x5A < b.toNat := hb
      omega
  · exact h

lemma shortToName_length (e : Slot) : (shortToName e).length ≤ 12 := by
  unfold shortToName cstr
  apply Nat.le_trans ( List.takeWhile_prefix _).length_le
  have hbase := ( List.takeWhile_prefix (l := e.take 8) (· != 0x20)).length_le
  have hext := List.length_filter_le (· != 0x20) ((e.drop 8).take 3)
  rw [List.length_take] at hbase hext
  rw [List.length_append]
  split
  · rw [List.length_nil]
    omega
  · rw [List.length_cons]
    omega

end

end FusionOS.Fat
