import FusionOS.Apps.Browser

/-!
# Which bytes frame a response

`browser_fetch` decides from the headers whether a body is chunked and how long it is. The search for
a header runs over the lines of the whole response, so a header that the header section does not have
is looked for in the body.
-/

namespace FusionOS.Browser

open List

/-- A header section with the blank line at its end. -/
def HeaderSection (h : List UInt8) : Prop := headerEnd h = some []

/-- The two decisions. -/
def framing (raw : List UInt8) : Bool × Int := (isChunked raw, contentLength raw)

/-- The search for the header ends in the header section: the header is there, or a zero byte is. -/
def SettledIn (h key : List UInt8) : Prop := (findHeader h key).isSome ∨ 0 ∈ h

def EndsLine (p : List UInt8) : Prop := ∃ q, p = q ++ [13, 10]

/-! ## Lines -/

section Lines
variable {p b key : List UInt8}

lemma splitLine_length (hp : p ≠ []) : (splitLine p).2.length < p.length := by
  induction p with
  | nil => exact absurd rfl hp
  | cons c cs ih =>
    rw [splitLine]
    split
    · rw [length_tail, length_cons]
      omega
    · cases cs with
      | nil => simp [splitLine]
      | cons d ds => simpa using (ih (cons_ne_nil _ _)).trans_le (Nat.le_succ _)

lemma EndsLine.cons_cases {c : UInt8} (h : EndsLine (c :: p)) :
    (c = 13 ∧ p = [10]) ∨ EndsLine p := by
  obtain ⟨q, hq⟩ := h
  cases q with
  | nil =>
    cases hq
    exact .inl ⟨rfl, rfl⟩
  | cons d q =>
    cases hq
    exact .inr ⟨q, rfl⟩

lemma splitLine_append (hp : EndsLine p) (b : List UInt8) :
    splitLine (p ++ b) = ((splitLine p).1, (splitLine p).2 ++ b) ∧
      p = (splitLine p).1 ++ 13 :: 10 :: (splitLine p).2 ∧
      ((splitLine p).2 = [] ∨ EndsLine (splitLine p).2) := by
  induction p with
  | nil =>
    obtain ⟨q, hq⟩ := hp
    simp at hq
  | cons c cs ih =>
    by_cases hend : c = 13 ∧ cs.head? = some 10
    · obtain ⟨rfl, hhead⟩ := hend
      cases cs with
      | nil => simp at hhead
      | cons d ds =>
        have hd : d = 10 := by simpa using hhead
        subst hd
        refine ⟨by simp [splitLine], by simp [splitLine], ?_⟩
        simp only [splitLine, List.head?_cons, and_self, if_true, tail_cons]
        rcases hp.cons_cases with ⟨-, h⟩ | h
        · exact .inl (by simpa using h)
        · rcases h.cons_cases with ⟨h, -⟩ | h
          · exact absurd h (by decide)
          · exact .inr h
    · rcases hp.cons_cases with ⟨rfl, rfl⟩ | hcs
      · exact absurd ⟨rfl, rfl⟩ hend
      · obtain ⟨happ, heq, hrest⟩ := ih hcs
        have hhead : (cs ++ b).head? = cs.head? := by
          obtain ⟨q, rfl⟩ := hcs
          cases q <;> rfl
        simp only [cons_append, splitLine, hhead, if_neg hend, happ]
        refine ⟨trivial, ?_, hrest⟩
        rw [← heq]

def searchLines (key p : List UInt8) : Option (List UInt8) := findHeaderLoop key (p.length + 1) p

/-- The first line of `p` is the header `key`. -/
def IsHeader (key p : List UInt8) : Prop :=
  key.length ≤ (splitLine p).1.length ∧ startsWith p key ∧ p[key.length]? = some 0x3A

instance : Decidable (IsHeader key p) := inferInstanceAs (Decidable (_ ∧ _ ∧ _))

def headerValue (key p : List UInt8) : List UInt8 :=
  (p.drop (key.length + 1)).dropWhile fun c => c == 0x20 || c == 0x09

lemma findHeaderLoop_bound (key : List UInt8) {f g : Nat} (hf : p.length < f) (hg : p.length < g) :
    findHeaderLoop key f p = findHeaderLoop key g p := by
  induction f generalizing g p with
  | zero => exact absurd hf (Nat.not_lt_zero _)
  | succ f ih =>
    obtain ⟨g, rfl⟩ := Nat.exists_eq_succ_of_ne_zero (Nat.ne_zero_of_lt hg)
    unfold findHeaderLoop
    by_cases hp : p = []
    · rw [if_pos hp, if_pos hp]
    · have hlt := splitLine_length hp
      have hrest : findHeaderLoop key f (splitLine p).2 = findHeaderLoop key g (splitLine p).2 :=
        ih (by omega) (by omega)
      rw [if_neg hp, if_neg hp, hrest]

lemma searchLines_eq (key : List UInt8) (hp : p ≠ []) :
    searchLines key p =
      if IsHeader key p then some (headerValue key p) else searchLines key (splitLine p).2 := by
  have hrest := findHeaderLoop_bound key (splitLine_length hp) (Nat.lt_succ_self _)
  rw [searchLines]
  unfold findHeaderLoop
  rw [if_neg hp, hrest]
  rfl

lemma isHeader_append (hp : EndsLine p) (b : List UInt8) : IsHeader key (p ++ b) ↔ IsHeader key p := by
  obtain ⟨happ, heq, -⟩ := splitLine_append hp b
  have hline : (splitLine (p ++ b)).1 = (splitLine p).1 := by rw [happ]
  have hlen := congrArg List.length heq
  simp only [length_append, length_cons] at hlen
  unfold IsHeader
  rw [hline]
  constructor
  · intro ⟨hle, hkey, hcolon⟩
    refine ⟨hle, ?_, ?_⟩
    · rwa [startsWith, take_append_of_le_length (by omega)] at hkey
    · rwa [List.getElem?_append_left (by omega)] at hcolon
  · intro ⟨hle, hkey, hcolon⟩
    refine ⟨hle, ?_, ?_⟩
    · rwa [startsWith, take_append_of_le_length (by omega)]
    · rwa [List.getElem?_append_left (by omega)]

lemma dropWhile_append_of_mem {q : UInt8 → Bool} {c : UInt8} {v : List UInt8} (hc : c ∈ v)
    (hq : q c = false) (b : List UInt8) : c ∈ v.dropWhile q ∧ (v ++ b).dropWhile q = v.dropWhile q ++ b := by
  induction v with
  | nil => cases hc
  | cons d v ih =>
    rw [cons_append, dropWhile_cons, dropWhile_cons]
    split
    · rename_i hd
      rcases mem_cons.mp hc with rfl | hc
      · rw [hq] at hd
        cases hd
      · exact ih hc
    · exact ⟨hc, rfl⟩

lemma headerValue_append (hp : EndsLine p) (h : IsHeader key p) (b : List UInt8) :
    13 ∈ headerValue key p ∧ headerValue key (p ++ b) = headerValue key p ++ b := by
  obtain ⟨hle, -, hcolon⟩ := h
  obtain ⟨-, heq, -⟩ := splitLine_append hp []
  generalize (splitLine p).1 = line at hle heq
  generalize (splitLine p).2 = rest at heq
  subst heq
  have hlt : key.length < line.length := by
    rcases Nat.lt_or_ge key.length line.length with hlt | hge
    · exact hlt
    · rw [Nat.le_antisymm hle hge] at hcolon
      simp at hcolon
  have hdrop : (line ++ 13 :: 10 :: rest).drop (key.length + 1) =
      line.drop (key.length + 1) ++ 13 :: 10 :: rest := drop_append_of_le_length hlt
  have hmem : (13 : UInt8) ∈ (line ++ 13 :: 10 :: rest).drop (key.length + 1) := by
    rw [hdrop]
    simp
  have hlen : key.length + 1 ≤ (line ++ 13 :: 10 :: rest).length := by
    rw [length_append]
    omega
  unfold headerValue
  rw [drop_append_of_le_length hlen]
  exact dropWhile_append_of_mem hmem (by decide) b

lemma searchLines_append (hp : p = [] ∨ EndsLine p) (key b : List UInt8) :
    (∀ val, searchLines key p = some val → 13 ∈ val ∧ searchLines key (p ++ b) = some (val ++ b)) ∧
      (searchLines key p = none → searchLines key (p ++ b) = searchLines key b) := by
  generalize hn : p.length = n
  induction n using Nat.strong_induction_on generalizing p with
  | _ n ih =>
    rcases hp with rfl | hp
    · exact ⟨fun val h => by simp [searchLines, findHeaderLoop] at h, fun _ => rfl⟩
    · have hne : p ≠ [] := by
        obtain ⟨q, rfl⟩ := hp
        simp
      have hne' : p ++ b ≠ [] := by simp [hne]
      obtain ⟨happ, -, hrest⟩ := splitLine_append hp b
      rw [searchLines_eq key hne, searchLines_eq key hne', happ]
      by_cases h : IsHeader key p
      · rw [if_pos h, if_pos ((isHeader_append hp b).mpr h)]
        obtain ⟨hcr, hval⟩ := headerValue_append hp h b
        constructor
        · rintro val ⟨rfl⟩
          exact ⟨hcr, by rw [hval]⟩
        · intro h
          cases h
      · rw [if_neg h, if_neg fun h' => h ((isHeader_append hp b).mp h')]
        exact ih _ (hn ▸ splitLine_length hne) hrest rfl

end Lines

/-! ## The values -/

section Values
variable {val : List UInt8} (hcr : 13 ∈ val)
include hcr

lemma startsWith_append {key : List UInt8} (hkey : 13 ∉ key.map lower) (b : List UInt8) :
    startsWith (val ++ b) key = startsWith val key := by
  -- A first part that contains the CR is not the key.
  have hno : ∀ s : List UInt8, 13 ∈ s.take key.length → startsWith s key = false := by
    intro s hs
    rw [startsWith, beq_eq_false_iff_ne]
    intro heq
    rw [← heq] at hkey
    exact hkey (mem_map.mpr ⟨13, hs, rfl⟩)
  rcases Nat.lt_or_ge val.length key.length with hlt | hge
  · have hval : 13 ∈ val.take key.length := by rwa [take_of_length_le hlt.le]
    rw [hno _ hval, hno]
    rw [take_append]
    exact mem_append_left _ hval
  · rw [startsWith, take_append_of_le_length hge, startsWith]

lemma takeWhile_digits_append (b : List UInt8) :
    ((val ++ b).takeWhile fun c => 0x30 ≤ c && c ≤ 0x39) = val.takeWhile fun c => 0x30 ≤ c && c ≤ 0x39 := by
  rw [takeWhile_append, if_neg]
  intro hall
  have heq := ( takeWhile_prefix fun c : UInt8 => 0x30 ≤ c && c ≤ 0x39).eq_of_length hall
  have := mem_takeWhile_imp (heq.symm ▸ hcr)
  exact absurd this (by decide)

end Values

/-! ## The header section -/

section Header
variable {h : List UInt8}

lemma headerEnd_append {body : List UInt8} (hh : headerEnd h = some body) (b : List UInt8) :
    headerEnd (h ++ b) = some (body ++ b) := by
  induction h with
  | nil => cases hh
  | cons c cs ih =>
    have hlen : 3 ≤ cs.length := by
      have := headerEnd_length hh
      simp only [length_cons] at this
      omega
    obtain ⟨d, e, f, ds, rfl⟩ : ∃ d e f ds, cs = d :: e :: f :: ds := by
      match cs, hlen with
      | d :: e :: f :: ds, _ => exact ⟨d, e, f, ds, rfl⟩
    simp only [headerEnd, cons_append, getD_cons_zero, getD_cons_succ] at hh ih ⊢
    split at hh
    · rename_i hend
      cases hh
      rw [if_pos hend]
      rfl
    · rename_i hend
      rw [if_neg hend]
      exact ih hh

lemma HeaderSection.endsLine (hh : HeaderSection h) : EndsLine h := by
  unfold HeaderSection at hh
  induction h with
  | nil => cases hh
  | cons c cs ih =>
    rw [headerEnd] at hh
    split at hh
    · rename_i hend
      rcases cs with _ | ⟨d, _ | ⟨e, _ | ⟨f, _ | ⟨g, cs⟩⟩⟩⟩
      · simp at hend
      · simp at hend
      · simp at hend
      · obtain ⟨rfl, rfl, rfl, rfl⟩ := hend
        exact ⟨[13, 10], rfl⟩
      · cases hh
    · obtain ⟨q, rfl⟩ := ih hh
      exact ⟨c :: q, rfl⟩

lemma findHeader_append (hh : HeaderSection h) (key b : List UInt8) :
    (0 ∈ h ∧ findHeader (h ++ b) key = findHeader h key) ∨
    (0 ∉ h ∧ ∃ val, findHeader h key = some val ∧ 13 ∈ val ∧
      findHeader (h ++ b) key = some (val ++ b.takeWhile (· != 0))) ∨
    (0 ∉ h ∧ findHeader h key = none ∧ findHeader (h ++ b) key = findHeader b key) := by
  by_cases hz : 0 ∈ h
  · refine .inl ⟨hz, ?_⟩
    have hstop : (h ++ b).takeWhile (· != 0) = h.takeWhile (· != 0) := by
      rw [takeWhile_append, if_neg]
      intro hall
      have heq := ( takeWhile_prefix (· != (0 : UInt8))).eq_of_length hall
      have := mem_takeWhile_imp (heq.symm ▸ hz)
      exact absurd this (by decide)
    rw [findHeader, hstop]
    rfl
  · have hall : ∀ c ∈ h, (c != 0) = true := by
      intro c hc
      rw [bne_iff_ne]
      exact fun h0 => hz (h0 ▸ hc)
    have hself : h.takeWhile (· != 0) = h := takeWhile_eq_self_iff.mpr hall
    have hfind : findHeader h key = searchLines key h := by
      rw [findHeader, hself]
      rfl
    have happ : findHeader (h ++ b) key = searchLines key (h ++ b.takeWhile (· != 0)) := by
      rw [findHeader, takeWhile_append_of_pos hall]
      rfl
    obtain ⟨hsome, hnone⟩ := searchLines_append (.inr hh.endsLine) key (b.takeWhile (· != 0))
    rw [hfind, happ]
    cases hs : searchLines key h with
    | some val => exact .inr (.inl ⟨hz, val, rfl, hsome val hs⟩)
    | none => exact .inr (.inr ⟨hz, rfl, hnone hs⟩)

lemma SettledIn.isChunked_eq (hh : HeaderSection h) (hs : SettledIn h transferEncoding) (b : List UInt8) :
    isChunked (h ++ b) = isChunked h := by
  rcases findHeader_append hh transferEncoding b with ⟨-, heq⟩ | ⟨-, val, hval, hcr, heq⟩ | ⟨hz, hnone, -⟩
  · rw [isChunked, heq, isChunked]
  · rw [isChunked, isChunked, heq, hval]
    exact startsWith_append hcr (by decide) _
  · rcases hs with hs | hs
    · rw [hnone] at hs
      cases hs
    · exact absurd hs hz

lemma SettledIn.contentLength_eq (hh : HeaderSection h) (hs : SettledIn h contentLengthName)
    (b : List UInt8) : contentLength (h ++ b) = contentLength h := by
  rcases findHeader_append hh contentLengthName b with ⟨-, heq⟩ | ⟨-, val, hval, hcr, heq⟩ | ⟨hz, hnone, -⟩
  · rw [contentLength, heq, contentLength]
  · simp only [contentLength, heq, hval, takeWhile_digits_append hcr]
  · rcases hs with hs | hs
    · rw [hnone] at hs
      cases hs
    · exact absurd hs hz

lemma findHeader_of_not_settled (hh : HeaderSection h) {key : List UInt8} (hs : ¬ SettledIn h key)
    (b : List UInt8) : findHeader (h ++ b) key = findHeader b key := by
  rw [SettledIn, not_or] at hs
  rcases findHeader_append hh key b with ⟨hz, -⟩ | ⟨-, val, hval, -, -⟩ | ⟨-, -, heq⟩
  · exact absurd hz hs.2
  · exact absurd (by rw [hval]; rfl) hs.1
  · exact heq

end Header

/-- The framing of a response depends on its header section alone exactly where both headers are settled
there; otherwise two bodies are framed in different ways. -/
theorem framing_body_iff (h : List UInt8) (hh : HeaderSection h) :
    (∀ b, headerEnd (h ++ b) = some b) ∧
    ((∀ b b', framing (h ++ b) = framing (h ++ b')) ↔
      SettledIn h transferEncoding ∧ SettledIn h contentLengthName) := by
  refine ⟨fun b => headerEnd_append hh b, ?_, ?_⟩
  · intro hsame
    constructor
    · by_contra hs
      have := congrArg Prod.fst (hsame [] (transferEncoding ++ 0x3A :: chunkedName))
      simp only [framing, isChunked, findHeader_of_not_settled hh hs] at this
      exact absurd this (by decide)
    · by_contra hs
      have := congrArg Prod.snd (hsame [] (contentLengthName ++ [0x3A, 0x35]))
      simp only [framing, contentLength, findHeader_of_not_settled hh hs] at this
      exact absurd this (by decide)
  · intro ⟨hte, hcl⟩ b b'
    rw [framing, hte.isChunked_eq hh, hcl.contentLength_eq hh, framing, hte.isChunked_eq hh,
      hcl.contentLength_eq hh]

/-- A header section with both headers. -/
def bothHeaders : List UInt8 :=
  transferEncoding ++ [0x3A, 13, 10] ++ contentLengthName ++ [0x3A, 0x35, 13, 10, 13, 10]

theorem framing_body_bothHeaders :
    HeaderSection bothHeaders ∧ ∀ b b', framing (bothHeaders ++ b) = framing (bothHeaders ++ b') := by
  have hh : HeaderSection bothHeaders := by
    unfold HeaderSection
    decide
  refine ⟨hh, (framing_body_iff bothHeaders hh).2.mpr ⟨.inl ?_, .inl ?_⟩⟩
  · decide
  · decide

/-- `HTTP/1.1 200 OK` and the blank line: a line of the body sets the length. -/
theorem not_framing_header_only : ∃ h b b', HeaderSection h ∧
    framing (h ++ b) = (false, -1) ∧ framing (h ++ b') = (false, 5) := by
  refine ⟨[0x48, 0x54, 0x54, 0x50, 0x2F, 0x31, 0x2E, 0x31, 0x20, 0x32, 0x30, 0x30, 0x20, 0x4F, 0x4B,
    13, 10, 13, 10], [0x61], 0x61 :: 13 :: 10 :: (contentLengthName ++ [0x3A, 0x35]), ?_, ?_, ?_⟩
  · unfold HeaderSection
    decide
  · decide
  · decide

end FusionOS.Browser
