import Mathlib.Data.List.Basic
import Mathlib.Data.List.TakeWhile
import Mathlib.Data.List.Infix
import Mathlib.Algebra.Group.Nat.Defs
import Mathlib.Algebra.Group.Int.Defs

/-!
# The response of a web server

What `browser_fetch` makes of the bytes it has received, up to the text that it passes to
`browser_html_to_text`. The response is a list of bytes, a pointer into it is the list of the bytes
that follow, and a C string is a list without the terminating zero.
-/

namespace FusionOS.Browser

open List

/-! ## The response as the source reads it -/

/-- The download loop: a segment that does not fit the buffer is dropped. -/
def download (contentCap : Nat) (segments : List (List UInt8)) : List UInt8 :=
  segments.foldl (fun raw got => if raw.length + got.length < contentCap then raw ++ got else raw) []

/-- What follows the first blank line. -/
def headerEnd : List UInt8 → Option (List UInt8)
  | [] => none
  | c :: cs =>
    if [c, cs.getD 0 0, cs.getD 1 0, cs.getD 2 0] = [13, 10, 13, 10] then some (cs.drop 3)
    else headerEnd cs

def lower (c : UInt8) : UInt8 := if 0x41 ≤ c ∧ c ≤ 0x5A then c + 0x20 else c

/-- `browser_strncasecmp` answers 0 for the first bytes of a string and the whole of `key`. -/
def startsWith (s key : List UInt8) : Bool := (s.take key.length).map lower == key.map lower

/-- A line and what follows the CR LF behind it. -/
def splitLine : List UInt8 → List UInt8 × List UInt8
  | [] => ([], [])
  | c :: cs =>
    if c = 13 ∧ cs.head? = some 10 then ([], cs.tail)
    else ((c :: (splitLine cs).1), (splitLine cs).2)

/-- The loop of `browser_find_header` over the lines of the response. -/
def findHeaderLoop (key : List UInt8) : Nat → List UInt8 → Option (List UInt8)
  | 0, _ => none
  | fuel + 1, p =>
    if p = [] then none
    else if key.length ≤ (splitLine p).1.length ∧ startsWith p key ∧ p[key.length]? = some 0x3A then
      some ((p.drop (key.length + 1)).dropWhile fun c => c == 0x20 || c == 0x09)
    else findHeaderLoop key fuel (splitLine p).2

/-- The lines of the body are searched as well, up to the first zero byte. -/
def findHeader (raw key : List UInt8) : Option (List UInt8) :=
  let headers := raw.takeWhile (· != 0)
  findHeaderLoop key (headers.length + 1) headers

/-- `Transfer-Encoding`. -/
def transferEncoding : List UInt8 :=
  [0x54, 0x72, 0x61, 0x6E, 0x73, 0x66, 0x65, 0x72, 0x2D,
    0x45, 0x6E, 0x63, 0x6F, 0x64, 0x69, 0x6E, 0x67]

/-- `chunked`. -/
def chunkedName : List UInt8 := [0x63, 0x68, 0x75, 0x6E, 0x6B, 0x65, 0x64]

/-- `Content-Length`. -/
def contentLengthName : List UInt8 :=
  [0x43, 0x6F, 0x6E, 0x74, 0x65, 0x6E, 0x74, 0x2D, 0x4C, 0x65, 0x6E, 0x67, 0x74, 0x68]

def isChunked (raw : List UInt8) : Bool :=
  match findHeader raw transferEncoding with
  | some val => startsWith val chunkedName
  | none => false

/-- The decimal value of a header, as an `int`; -1 without the header. -/
def contentLength (raw : List UInt8) : Int :=
  match findHeader raw contentLengthName with
  | some val =>
    (val.takeWhile fun c => 0x30 ≤ c && c ≤ 0x39).foldl
      (fun value c => Int.bmod (value * 10 + (c.toNat - 0x30)) (2 ^ 32)) 0
  | none => -1

def browserHexDigit (c : UInt8) : Option Nat :=
  if 0x30 ≤ c ∧ c ≤ 0x39 then some (c.toNat - 0x30)
  else if 0x61 ≤ c ∧ c ≤ 0x66 then some (10 + (c.toNat - 0x61))
  else if 0x41 ≤ c ∧ c ≤ 0x46 then some (10 + (c.toNat - 0x41))
  else none

/-- The loop of `browser_parse_hex`, on 32 bits. -/
def parseHexFrom (value : Nat) : List UInt8 → Nat
  | [] => value
  | c :: cs =>
    match browserHexDigit c with
    | none => value
    | some d => parseHexFrom (value * 16 % 2 ^ 32 + d) cs

def browserParseHex (s : List UInt8) : Nat := parseHexFrom 0 s

def isLineEnd (c : UInt8) : Bool := c == 13 || c == 10

/-- The decoding loop: `p` is what is left of the response, `out` what has been stored. -/
def chunkLoop (contentCap : Nat) : Nat → List UInt8 → List UInt8 → Option (List UInt8)
  | 0, _, _ => none
  | fuel + 1, p, out =>
    if p ≠ [] ∧ out.length + 1 < contentCap then
      let p := p.dropWhile isLineEnd
      let sizeBuf := (p.takeWhile fun c => !isLineEnd c).take 15
      let p := p.drop sizeBuf.length
      if browserParseHex sizeBuf = 0 then some out
      else
        let p := p.dropWhile isLineEnd
        let chunk := min (browserParseHex sizeBuf) p.length
        let chunk := if contentCap ≤ out.length + chunk then contentCap - out.length - 1 else chunk
        chunkLoop contentCap fuel (p.drop chunk) (out ++ p.take chunk)
    else some out

/-- The branch for a response that is not chunked. -/
def plainContent (contentCap : Nat) (raw body : List UInt8) : List UInt8 :=
  let bodyLen :=
    if 0 ≤ contentLength raw ∧ contentLength raw < body.length then (contentLength raw).toNat
    else body.length
  body.take (if contentCap ≤ bodyLen then contentCap - 1 else bodyLen)

/-- The text that `browser_fetch` stores in `br->content`, with its length as `content_len`, before
it turns HTML into text; `none` if the decoding loop does not end. -/
def fetchContent (contentCap : Nat) (segments : List (List UInt8)) : Option (List UInt8) :=
  let raw := download contentCap segments
  match headerEnd raw with
  | some body =>
    if isChunked raw then chunkLoop contentCap (body.length + 1) body []
    else some (plainContent contentCap raw body)
  | none => some (raw.take (if contentCap ≤ raw.length then contentCap - 1 else raw.length))

/-! ## The chunked encoding -/

def hexValue (ds : List UInt8) : Nat :=
  ds.foldl (fun value c => value * 16 + (browserHexDigit c).getD 0) 0

/-- A size line for `n` bytes, as long as the buffer of the decoder takes. -/
structure SizeLine (ds : List UInt8) (n : Nat) : Prop where
  ne_nil : ds ≠ []
  length_le : ds.length ≤ 15
  digits : ∀ c ∈ ds, (browserHexDigit c).isSome = true
  value : hexValue ds = n

/-- A chunk: its size line and its data. -/
structure Chunk where
  size : List UInt8
  data : List UInt8

def Chunk.encode (c : Chunk) : List UInt8 := c.size ++ ([13, 10] ++ (c.data ++ [13, 10]))

/-- The chunks, the size line of the last chunk, and what may follow it. -/
def encode (chunks : List Chunk) (last trailer : List UInt8) : List UInt8 :=
  chunks.flatMap Chunk.encode ++ (last ++ ([13, 10] ++ trailer))

/-- The chunk has data, and its size line tells how many bytes. -/
def Chunk.WellFormed (c : Chunk) : Prop := SizeLine c.size c.data.length ∧ c.data ≠ []

/-- The data of the chunk do not begin with a CR or LF. -/
def Chunk.Plain (c : Chunk) : Prop := ∀ b, c.data.head? = some b → isLineEnd b = false

/-! ### Size lines -/

lemma browserHexDigit_lineEnd {c : UInt8} (h : (browserHexDigit c).isSome = true) :
    isLineEnd c = false := by
  by_contra hend
  rw [Bool.not_eq_false, isLineEnd, Bool.or_eq_true, beq_iff_eq, beq_iff_eq] at hend
  rcases hend with rfl | rfl
  · exact absurd h (by decide)
  · exact absurd h (by decide)

lemma browserHexDigit_lt {c : UInt8} {d : Nat} (h : browserHexDigit c = some d) : d < 16 := by
  unfold browserHexDigit at h
  split at h
  · rename_i hc
    have hhigh : c.toNat ≤ 57 := hc.2
    cases h
    omega
  · split at h
    · rename_i hc
      have hhigh : c.toNat ≤ 102 := hc.2
      cases h
      omega
    · split at h
      · rename_i hc
        have hhigh : c.toNat ≤ 70 := hc.2
        cases h
        omega
      · cases h

lemma parseHexFrom_eq {ds : List UInt8} (h : ∀ c ∈ ds, (browserHexDigit c).isSome = true)
    (value : Nat) : parseHexFrom (value % 2 ^ 32) ds =
      ds.foldl (fun value c => value * 16 + (browserHexDigit c).getD 0) value % 2 ^ 32 := by
  induction ds generalizing value with
  | nil => rfl
  | cons c cs ih =>
    obtain ⟨d, hd⟩ := Option.isSome_iff_exists.mp (h c mem_cons_self)
    have hlt := browserHexDigit_lt hd
    have hstep : value % 2 ^ 32 * 16 % 2 ^ 32 + d = (value * 16 + d) % 2 ^ 32 := by omega
    rw [parseHexFrom, hd]
    dsimp only
    rw [hstep, ih fun b hb => h b (mem_cons_of_mem c hb)]
    rw [foldl_cons, hd, Option.getD_some]

lemma SizeLine.parse {ds : List UInt8} {n : Nat} (h : SizeLine ds n) (hn : n < 2 ^ 32) :
    browserParseHex ds = n := by
  have heq := parseHexFrom_eq h.digits 0
  rw [Nat.zero_mod] at heq
  rw [browserParseHex, heq]
  have hvalue := h.value
  unfold hexValue at hvalue
  rw [hvalue, Nat.mod_eq_of_lt hn]

lemma SizeLine.scan {ds : List UInt8} {n : Nat} (h : SizeLine ds n) {gap : List UInt8}
    (hgap : ∀ c ∈ gap, isLineEnd c = true) (tail : List UInt8) :
    (gap ++ (ds ++ ([13, 10] ++ tail))).dropWhile isLineEnd = ds ++ ([13, 10] ++ tail) ∧
      ((ds ++ ([13, 10] ++ tail)).takeWhile fun c => !isLineEnd c).take 15 = ds := by
  have hdigit : ∀ c ∈ ds, isLineEnd c = false := fun c hc => browserHexDigit_lineEnd (h.digits c hc)
  constructor
  · rw [dropWhile_append_of_pos hgap]
    obtain ⟨d, ds', rfl⟩ := exists_cons_of_ne_nil h.ne_nil
    rw [cons_append, dropWhile_cons_of_neg]
    rw [hdigit d mem_cons_self]
    exact Bool.false_ne_true
  · rw [takeWhile_append_of_pos fun c hc => by rw [hdigit c hc]; rfl]
    have hstop : ([13, 10] ++ tail).takeWhile (fun c => !isLineEnd c) = [] := rfl
    rw [hstop, append_nil]
    exact take_of_length_le h.length_le

/-! ### The loop -/

section Loop
variable {contentCap fuel : Nat} {out tail gap : List UInt8} {ds : List UInt8}

lemma chunkLoop_last (h : SizeLine ds 0) (hgap : ∀ c ∈ gap, isLineEnd c = true) :
    chunkLoop contentCap (fuel + 1) (gap ++ (ds ++ ([13, 10] ++ tail))) out = some out := by
  obtain ⟨hdrop, htake⟩ := h.scan hgap tail
  rw [chunkLoop]
  split
  · dsimp only
    rw [hdrop, htake, if_pos (h.parse (by omega))]
  · rfl

lemma chunkLoop_turn {n : Nat} (h : SizeLine ds n) (hgap : ∀ c ∈ gap, isLineEnd c = true)
    (hn : 0 < n) (hlt : n < 2 ^ 32) (hcap : out.length + 1 < contentCap)
    (hfit : out.length + (tail.dropWhile isLineEnd).length < contentCap) :
    chunkLoop contentCap (fuel + 1) (gap ++ (ds ++ ([13, 10] ++ tail))) out =
      chunkLoop contentCap fuel ((tail.dropWhile isLineEnd).drop n)
        (out ++ (tail.dropWhile isLineEnd).take n) := by
  obtain ⟨hdrop, htake⟩ := h.scan hgap tail
  have hne : gap ++ (ds ++ ([13, 10] ++ tail)) ≠ [] := by simp
  have hline : ([13, 10] ++ tail).dropWhile isLineEnd = tail.dropWhile isLineEnd := rfl
  rw [chunkLoop, if_pos ⟨hne, hcap⟩]
  dsimp only
  rw [hdrop, htake, h.parse hlt, if_neg (by omega), drop_left, hline]
  rw [if_neg (by omega)]
  rcases Nat.le_total n (tail.dropWhile isLineEnd).length with hle | hle
  · rw [Nat.min_eq_left hle]
  · rw [Nat.min_eq_right hle]
    rw [drop_of_length_le hle, drop_length, take_of_length_le hle, take_length]

lemma chunkLoop_extends {p r : List UInt8} (h : chunkLoop contentCap fuel p out = some r) :
    out <+: r := by
  induction fuel generalizing p out with
  | zero => cases h
  | succ fuel ih =>
    rw [chunkLoop] at h
    split at h
    · dsimp only at h
      split at h
      · cases h
        exact prefix_refl _
      · exact (prefix_append out _).trans (ih h)
    · cases h
      exact prefix_refl _

end Loop

section Decode
variable {contentCap : Nat} {last trailer : List UInt8}

lemma encode_cons (c : Chunk) (cs : List Chunk) (last trailer : List UInt8) :
    encode (c :: cs) last trailer =
      c.size ++ ([13, 10] ++ (c.data ++ ([13, 10] ++ encode cs last trailer))) := by
  simp only [encode, flatMap_cons, Chunk.encode, append_assoc]

lemma Chunk.Plain.dropWhile {c : Chunk} (h : c.Plain) (hne : c.data ≠ []) (rest : List UInt8) :
    (c.data ++ rest).dropWhile isLineEnd = c.data ++ rest := by
  obtain ⟨b, bs, hb⟩ := exists_cons_of_ne_nil hne
  have hhead : isLineEnd b = false := h b (by rw [hb]; rfl)
  rw [hb, cons_append, dropWhile_cons_of_neg]
  rw [hhead]
  exact Bool.false_ne_true

lemma dropWhile_encode (hlast : SizeLine last 0) (pre trailer : List UInt8) (cs : List Chunk) :
    ∃ b bs, (pre ++ encode cs last trailer).dropWhile isLineEnd = b :: bs ∧ isLineEnd b = false := by
  have hne : (pre ++ encode cs last trailer).dropWhile isLineEnd ≠ [] := by
    rw [ne_eq, dropWhile_eq_nil_iff]
    intro hall
    obtain ⟨d, ds, hd⟩ := exists_cons_of_ne_nil hlast.ne_nil
    have hdigit := browserHexDigit_lineEnd (hlast.digits d (by rw [hd]; exact mem_cons_self))
    have hmem : d ∈ pre ++ encode cs last trailer := by
      rw [encode, hd]
      simp
    rw [hall d hmem] at hdigit
    cases hdigit
  obtain ⟨b, bs, hb⟩ := exists_cons_of_ne_nil hne
  refine ⟨b, bs, hb, ?_⟩
  have hhead := head_dropWhile_not isLineEnd hne
  simp only [hb, head_cons] at hhead
  exact hhead

lemma chunkLoop_encode (hlast : SizeLine last 0) (hword : contentCap ≤ 2 ^ 32)
    (chunks : List Chunk) (hwf : ∀ c ∈ chunks, c.WellFormed) {fuel : Nat} (gap out : List UInt8)
    (hgap : ∀ c ∈ gap, isLineEnd c = true) (hfuel : chunks.length < fuel)
    (hfit : out.length + (encode chunks last trailer).length < contentCap) :
    chunkLoop contentCap fuel (gap ++ encode chunks last trailer) out =
        some (out ++ chunks.flatMap Chunk.data) ↔ ∀ c ∈ chunks, c.Plain := by
  induction chunks generalizing fuel gap out with
  | nil =>
    obtain ⟨fuel, rfl⟩ := Nat.exists_eq_add_one.mpr (Nat.zero_lt_of_lt hfuel)
    have hloop : chunkLoop contentCap (fuel + 1) (gap ++ encode [] last trailer) out = some out := by
      exact chunkLoop_last hlast hgap
    rw [hloop, flatMap_nil, append_nil]
    exact iff_of_true rfl fun c hc => absurd hc not_mem_nil
  | cons c cs ih =>
    obtain ⟨fuel, rfl⟩ := Nat.exists_eq_add_one.mpr (Nat.zero_lt_of_lt hfuel)
    obtain ⟨hsize, hne⟩ := hwf c mem_cons_self
    have hpos : 0 < c.data.length := length_pos_of_ne_nil hne
    rw [encode_cons] at hfit ⊢
    simp only [length_append, length_cons, length_nil] at hfit
    have hdropped := length_dropWhile_le isLineEnd
      (c.data ++ ([13, 10] ++ encode cs last trailer))
    simp only [length_append, length_cons, length_nil] at hdropped
    rw [chunkLoop_turn hsize hgap hpos (by omega) (by omega) (by omega)]
    rw [forall_mem_cons, flatMap_cons]
    by_cases hplain : c.Plain
    · -- the data are stored, and the line end behind them is skipped in the next turn
      rw [hplain.dropWhile hne, drop_left, take_left, ← append_assoc out]
      have hends : ∀ b ∈ ([13, 10] : List UInt8), isLineEnd b = true :=
        forall_mem_cons.mpr ⟨rfl, forall_mem_singleton.mpr rfl⟩
      rw [ih (fun c' hc' => hwf c' (mem_cons_of_mem c hc')) [13, 10] _ hends
        (by rw [length_cons] at hfuel; omega) (by rw [length_append]; omega)]
      exact (and_iff_right hplain).symm
    · -- the byte stored in place of the first line end is none
      refine iff_of_false (fun hloop => hplain fun b hb => ?_) fun h => hplain h.1
      obtain ⟨b', bs, hdrop, hb'⟩ := dropWhile_encode hlast (c.data ++ [13, 10]) trailer cs
      rw [append_assoc] at hdrop
      have hpre := chunkLoop_extends hloop
      rw [hdrop, prefix_append_right_inj] at hpre
      obtain ⟨b0, data, hdata⟩ := exists_cons_of_ne_nil hne
      obtain ⟨n, hn⟩ : ∃ n, c.data.length = n + 1 := ⟨c.data.length - 1, by omega⟩
      rw [hn, take_succ_cons, hdata, cons_append, cons_prefix_cons] at hpre
      rw [hdata] at hb
      cases hb
      rw [← hpre.1]
      exact hb'

end Decode

lemma download_eq {contentCap : Nat} (segments : List (List UInt8))
    (h : segments.flatten.length < contentCap) : download contentCap segments = segments.flatten := by
  have hfold : ∀ (segs : List (List UInt8)) (raw : List UInt8),
      raw.length + segs.flatten.length < contentCap →
      segs.foldl (fun raw got => if raw.length + got.length < contentCap then raw ++ got else raw) raw =
        raw ++ segs.flatten := by
    intro segs
    induction segs with
    | nil => exact fun raw _ => (append_nil raw).symm
    | cons got segs ih =>
      intro raw hraw
      rw [flatten_cons, length_append] at hraw
      rw [foldl_cons, if_pos (by omega), ih _ (by rw [length_append]; omega)]
      rw [flatten_cons, append_assoc]
  exact hfold segments [] (by rw [length_nil]; omega)

lemma length_lt_encode (chunks : List Chunk) (last trailer : List UInt8) :
    chunks.length < (encode chunks last trailer).length + 1 := by
  induction chunks with
  | nil => exact Nat.succ_pos _
  | cons c cs ih =>
    rw [encode_cons]
    simp only [length_append, length_cons, length_nil]
    omega

lemma headerEnd_length {raw body : List UInt8} (h : headerEnd raw = some body) :
    body.length + 4 ≤ raw.length := by
  induction raw with
  | nil => cases h
  | cons c cs ih =>
    rw [headerEnd] at h
    split at h
    · rename_i hend
      cases h
      -- The fourth byte of the blank line is there, since it is not zero.
      have hlen : 2 < cs.length := by
        by_contra hshort
        rw [getD_eq_getElem?_getD (i := 2), List.getElem?_eq_none (Nat.le_of_not_lt hshort)] at hend
        simp at hend
      rw [length_drop, length_cons]
      omega
    · exact Nat.le_succ_of_le (ih h)

/-- A response with the chunked encoding of the given chunks that fits the buffer is stored as the
data of the chunks exactly where the data of no chunk begin with a CR or LF. -/
theorem chunked_content_iff {contentCap : Nat} (hword : contentCap < 2 ^ 32)
    {segments : List (List UInt8)} (hfit : segments.flatten.length ≤ contentCap - 1)
    (chunks : List Chunk) (hwf : ∀ c ∈ chunks, c.WellFormed) (last trailer : List UInt8)
    (hlast : SizeLine last 0) (hchunked : isChunked segments.flatten = true)
    (hbody : headerEnd segments.flatten = some (encode chunks last trailer)) :
    fetchContent contentCap segments = some (chunks.flatMap Chunk.data) ↔ ∀ c ∈ chunks, c.Plain := by
  have hlen := headerEnd_length hbody
  unfold fetchContent
  rw [download_eq segments (by omega)]
  dsimp only
  rw [hbody]
  dsimp only
  rw [if_pos hchunked]
  exact chunkLoop_encode hlast (Nat.le_of_lt hword) chunks hwf [] []
    (fun c hc => absurd hc not_mem_nil) (length_lt_encode chunks last trailer)
    (by rw [length_nil]; omega)

/-- The status line and the header of a chunked response. -/
def chunkedHead : List UInt8 :=
  [0x48, 0x54, 0x54, 0x50, 0x2F, 0x31, 0x2E, 0x31, 0x20, 0x32, 0x30, 0x30, 0x20, 0x4F, 0x4B, 0x0D,
    0x0A, 0x54, 0x72, 0x61, 0x6E, 0x73, 0x66, 0x65, 0x72, 0x2D, 0x45, 0x6E, 0x63, 0x6F, 0x64, 0x69,
    0x6E, 0x67, 0x3A, 0x20, 0x63, 0x68, 0x75, 0x6E, 0x6B, 0x65, 0x64, 0x0D, 0x0A, 0x0D, 0x0A]

/-- A chunk with a size line of one digit. -/
def shortChunk (digit : UInt8) (data : List UInt8) : Chunk := ⟨[digit], data⟩

lemma shortChunk_size {digit : UInt8} {n : Nat} (h : browserHexDigit digit = some n) :
    SizeLine [digit] n := by
  refine ⟨cons_ne_nil _ _, ?_, forall_mem_singleton.mpr ?_, ?_⟩
  · rw [length_singleton]
    omega
  · rw [h]
    rfl
  · rw [hexValue, foldl_cons, foldl_nil, h, Nat.zero_mul, Nat.zero_add]
    rfl

theorem chunked_content_two_chunks :
    fetchContent (64 * 1024)
        [chunkedHead, encode [shortChunk 0x32 [0x61, 0x0A], shortChunk 0x31 [0x62]] [0x30] [13, 10]] =
      some [0x61, 0x0A, 0x62] := by
  refine (chunked_content_iff (by decide) (by decide +kernel)
    [shortChunk 0x32 [0x61, 0x0A], shortChunk 0x31 [0x62]] ?_ [0x30] [13, 10]
    (shortChunk_size rfl) (by decide +kernel) (by decide +kernel)).mpr ?_
  · intro c hc
    rcases mem_pair.mp hc with rfl | rfl
    · exact ⟨shortChunk_size rfl, by decide⟩
    · exact ⟨shortChunk_size rfl, by decide⟩
  · intro c hc b hb
    rcases mem_pair.mp hc with rfl | rfl
    · cases hb
      rfl
    · cases hb
      rfl

/-- The line feed at the start of the chunk is lost, and a byte of the framing is stored at its end. -/
theorem chunked_content_line_feed :
    (shortChunk 0x32 [0x0A, 0x78]).WellFormed ∧ SizeLine [0x30] 0 ∧
    fetchContent (64 * 1024) [chunkedHead, encode [shortChunk 0x32 [0x0A, 0x78]] [0x30] [13, 10]] =
      some [0x78, 0x0D] ∧
    [shortChunk 0x32 [0x0A, 0x78]].flatMap Chunk.data = [0x0A, 0x78] := by
  refine ⟨⟨shortChunk_size rfl, by decide⟩, shortChunk_size rfl, ?_, rfl⟩
  decide +kernel

end FusionOS.Browser
