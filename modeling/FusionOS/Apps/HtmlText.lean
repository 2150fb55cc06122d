import FusionOS.Apps.Browser
import FusionOS.Lib.Mem

/-!
# HTML as text

`browser_html_to_text` reads a string and writes another one, and `browser_fetch` gives it the same
buffer for both. The model keeps a list of the bytes that are read and written; a byte that is read
several times in a row stands there once.
-/

namespace FusionOS.Browser

open List
open Function (update update_of_ne)

inductive Access where
  | read (a : Nat)
  | write (a : Nat)
  deriving DecidableEq

/-- The entities, without the ampersand, and what they stand for. -/
def entities : List (List UInt8 × UInt8) :=
  [([0x61, 0x6D, 0x70, 0x3B], 0x26), ([0x6C, 0x74, 0x3B], 0x3C), ([0x67, 0x74, 0x3B], 0x3E),
    ([0x71, 0x75, 0x6F, 0x74, 0x3B], 0x22), ([0x61, 0x70, 0x6F, 0x73, 0x3B], 0x27),
    ([0x6E, 0x62, 0x73, 0x70, 0x3B], 0x20)]

/-- The tags that end a line: br, p, div, li, h1, h2 and h3. -/
def lineTags : List (List UInt8) :=
  [[0x62, 0x72], [0x70], [0x64, 0x69, 0x76], [0x6C, 0x69], [0x68, 0x31], [0x68, 0x32], [0x68, 0x33]]

/-- `in_tag` and the first `tag_len` bytes of `tag`. -/
structure TagState where
  inTag : Bool
  tag : List UInt8

/-- One turn of the loop for the byte `c`: what is written, the tag behind it, and the bytes that are
skipped. `entity` is the entity that follows an ampersand. -/
def turn (t : TagState) (c : UInt8) (entity : Option (List UInt8 × UInt8)) : Option UInt8 × TagState × Nat :=
  if t.inTag = false then
    if c = 0x3C then (none, ⟨true, []⟩, 0)
    else if c = 0x26 then
      match entity with
      | some e => (some e.2, t, e.1.length)
      | none => (some c, t, 0)
    else (some c, t, 0)
  else if c = 0x3E then
    let tag := if t.tag.head? = some 0x2F then t.tag.tail else t.tag
    (if tag ∈ lineTags then some 0x0A else none, ⟨false, tag⟩, 0)
  else if t.tag.length < 15 then
    if c = 0x20 ∨ c = 0x09 ∨ c = 0x0D ∨ c = 0x0A ∨ c = 0x2F then (none, t, 0)
    else (none, ⟨true, t.tag ++ [lower c]⟩, 0)
  else (none, t, 0)

/-- `strncmp` of the string at `s` with the whole of a key answers 0. -/
def matchAt (m : Mem) : Nat → List UInt8 → Bool × List Access
  | _, [] => (true, [])
  | s, k :: ks =>
    if m s ≠ 0 ∧ m s = k then ((matchAt m (s + 1) ks).1, .read s :: (matchAt m (s + 1) ks).2)
    else (false, [.read s])

/-- The entity at `s`: the keys are tried one after the other. -/
def findEntity (m : Mem) (s : Nat) : List (List UInt8 × UInt8) → Option (List UInt8 × UInt8) × List Access
  | [] => (none, [])
  | e :: es =>
    if (matchAt m s e.1).1 then (some e, (matchAt m s e.1).2)
    else ((findEntity m s es).1, (matchAt m s e.1).2 ++ (findEntity m s es).2)

/-- The variables of the loop; `src` is the pointer `in`. -/
structure HtmlState where
  mem : Mem
  src : Nat
  o : Nat
  tag : TagState

/-- The body of the loop. -/
def htmlBody (out : Nat) (st : HtmlState) : HtmlState × List Access :=
  let c := st.mem st.src
  let e := if st.tag.inTag = false ∧ c = 0x26 then findEntity st.mem (st.src + 1) entities else (none, [])
  let r := turn st.tag c e.1
  match r.1 with
  | some b =>
    (⟨update st.mem (out + st.o) b, st.src + 1 + r.2.2, st.o + 1, r.2.1⟩, e.2 ++ [.write (out + st.o)])
  | none => (⟨st.mem, st.src + 1 + r.2.2, st.o, r.2.1⟩, e.2)

/-- The loop; `none` where the bound on its turns is too small. -/
def htmlLoop (out outCap : Nat) : Nat → HtmlState → Option (HtmlState × List Access)
  | 0, _ => none
  | fuel + 1, st =>
    if st.mem st.src ≠ 0 ∧ st.o + 1 < outCap then
      (htmlLoop out outCap fuel (htmlBody out st).1).map fun r =>
        (r.1, .read st.src :: ((htmlBody out st).2 ++ r.2))
    else some (st, [.read st.src])

def browserHtmlToText (m : Mem) (src out outCap fuel : Nat) : Option (Mem × List Access) :=
  (htmlLoop out outCap fuel ⟨m, src, 0, ⟨false, []⟩⟩).map fun r =>
    (update r.1.mem (out + r.1.o) 0, r.2 ++ [.write (out + r.1.o)])

/-! ## The text without memory -/

def lookupEntity (rest : List UInt8) : Option (List UInt8 × UInt8) :=
  entities.find? fun e => e.1.isPrefixOf rest

def htmlTextFrom : Nat → TagState → List UInt8 → List UInt8
  | 0, _, _ => []
  | _, _, [] => []
  | n + 1, t, c :: rest =>
    (turn t c (lookupEntity rest)).1.toList ++
      htmlTextFrom n (turn t c (lookupEntity rest)).2.1 (rest.drop (turn t c (lookupEntity rest)).2.2)

def htmlText (text : List UInt8) : List UInt8 := htmlTextFrom text.length ⟨false, []⟩ text

/-- The string at `s`, with its terminator. -/
def HoldsText (m : Mem) (s : Nat) (text : List UInt8) : Prop := BytesAt m s (text ++ [0])

/-- No byte is read once it has been written. -/
def Fresh (x y : Access) : Prop := ∀ a, x = .write a → y ≠ .read a

/-! ## One turn -/

section Turn
variable {m : Mem} {s : Nat} {rest : List UInt8}

lemma matchAt_eq (hm : HoldsText m s rest) (hrest : ∀ c ∈ rest, c ≠ 0) (key : List UInt8) :
    (matchAt m s key).1 = key.isPrefixOf rest := by
  induction key generalizing s rest with
  | nil => simp [matchAt]
  | cons k ks ih =>
    cases rest with
    | nil =>
      have hz : m s = 0 := hm.1
      simp [matchAt, hz]
    | cons c rest =>
      have hc : m s = c := hm.1
      have hne : c ≠ 0 := hrest c (by simp)
      have htail := ih hm.2 fun d hd => hrest d (by simp [hd])
      by_cases h : c = k
      · subst h
        simp [matchAt, hc, hne, htail]
      · simp [matchAt, hc, h, List.isPrefixOf, beq_eq_false_iff_ne.mpr (Ne.symm h)]

lemma matchAt_reads (hm : HoldsText m s rest) (key : List UInt8) :
    ∀ x ∈ (matchAt m s key).2, ∃ j ≤ rest.length, x = .read (s + j) := by
  induction key generalizing s rest with
  | nil => simp [matchAt]
  | cons k ks ih =>
    intro x hx
    simp only [matchAt] at hx
    split at hx
    · rename_i hsame
      rcases mem_cons.mp hx with rfl | hx
      · exact ⟨0, Nat.zero_le _, rfl⟩
      · cases rest with
        | nil => exact absurd hm.1 hsame.1
        | cons c rest =>
          obtain ⟨j, hj, rfl⟩ := ih hm.2 x hx
          exact ⟨j + 1, by simpa using hj, by rw [Nat.add_comm j 1, Nat.add_assoc]⟩
    · exact ⟨0, Nat.zero_le _, mem_singleton.mp hx⟩

lemma findEntity_eq (hm : HoldsText m s rest) (hrest : ∀ c ∈ rest, c ≠ 0)
    (es : List (List UInt8 × UInt8)) :
    (findEntity m s es).1 = es.find? fun e => e.1.isPrefixOf rest := by
  induction es with
  | nil => rfl
  | cons e es ih =>
    have he := matchAt_eq hm hrest e.1
    simp only [findEntity, List.find?_cons, he]
    split
    · rename_i h
      rw [h]
    · rename_i h
      rw [Bool.not_eq_true] at h
      rw [h]
      exact ih

lemma findEntity_reads (hm : HoldsText m s rest) (es : List (List UInt8 × UInt8)) :
    ∀ x ∈ (findEntity m s es).2, ∃ j ≤ rest.length, x = .read (s + j) := by
  induction es with
  | nil => simp [findEntity]
  | cons e es ih =>
    intro x hx
    simp only [findEntity] at hx
    split at hx
    · exact matchAt_reads hm _ x hx
    · rcases mem_append.mp hx with hx | hx
      · exact matchAt_reads hm _ x hx
      · exact ih x hx

lemma entities_ne_zero : ∀ e ∈ entities, e.2 ≠ 0 := by decide

lemma lookupEntity_length {e : List UInt8 × UInt8} (h : lookupEntity rest = some e) :
    e ∈ entities ∧ e.1.length ≤ rest.length := by
  refine ⟨mem_of_find?_eq_some h, ?_⟩
  have := List.find?_some h
  exact ( isPrefixOf_iff_prefix.mp this).length_le

lemma turn_entity (t : TagState) (c : UInt8) (e : Option (List UInt8 × UInt8))
    (h : ¬ (t.inTag = false ∧ c = 0x26)) : turn t c none = turn t c e := by
  unfold turn
  split
  · rename_i ht
    rw [if_neg fun hc => h ⟨ht, hc⟩, if_neg fun hc => h ⟨ht, hc⟩]
  · rfl

lemma turn_lookup (t : TagState) {c : UInt8} (hc : c ≠ 0) :
    (∀ b ∈ (turn t c (lookupEntity rest)).1, b ≠ 0) ∧
      (turn t c (lookupEntity rest)).2.2 ≤ rest.length := by
  by_cases h : t.inTag = false ∧ c = 0x26
  · obtain ⟨ht, rfl⟩ := h
    cases he : lookupEntity rest with
    | none => simp [turn, ht]
    | some e =>
      obtain ⟨hmem, hlen⟩ := lookupEntity_length he
      simpa [turn, ht] using ⟨entities_ne_zero e hmem, hlen⟩
  · rw [← turn_entity t c _ h]
    unfold turn
    split
    · split
      · simp
      · split <;> simp [hc]
    · split
      · split <;> simp
      · split
        · split <;> simp
        · simp

end Turn

lemma htmlBody_eq (out : Nat) {st : HtmlState} {c : UInt8} {rest : List UInt8}
    (hm : HoldsText st.mem st.src (c :: rest)) (hrest : ∀ d ∈ rest, d ≠ 0)
    {r : Option UInt8 × TagState × Nat} (hr : turn st.tag c (lookupEntity rest) = r) :
    ∃ reads : List Access, (∀ x ∈ reads, ∃ j ≤ rest.length, x = .read (st.src + 1 + j)) ∧
      (∀ b, r.1 = some b → htmlBody out st =
        (⟨update st.mem (out + st.o) b, st.src + 1 + r.2.2, st.o + 1, r.2.1⟩,
          reads ++ [.write (out + st.o)])) ∧
      (r.1 = none → htmlBody out st = (⟨st.mem, st.src + 1 + r.2.2, st.o, r.2.1⟩, reads)) := by
  have hc : st.mem st.src = c := hm.1
  subst hr
  by_cases h : st.tag.inTag = false ∧ c = 0x26
  · refine ⟨(findEntity st.mem (st.src + 1) entities).2, findEntity_reads hm.2 _, ?_, ?_⟩
    · intro b hb
      simp only [htmlBody, hc, if_pos h, findEntity_eq hm.2 hrest]
      simp only [lookupEntity] at hb
      rw [hb]
      rfl
    · intro hb
      simp only [htmlBody, hc, if_pos h, findEntity_eq hm.2 hrest]
      simp only [lookupEntity] at hb
      rw [hb]
      rfl
  · refine ⟨[], by simp, ?_, ?_⟩
    · intro b hb
      rw [← turn_entity _ _ _ h] at hb ⊢
      simp [htmlBody, hc, if_neg h, hb]
    · intro hb
      rw [← turn_entity _ _ _ h] at hb ⊢
      simp [htmlBody, hc, if_neg h, hb]

/-! ## The loop -/

section Loop
variable {a n out outCap : Nat}

/-- The state of the loop where `rest` is left of a text of `n` bytes at `a`, and `done` is written. The
write position has not passed the read position. -/
structure Reading (a n out : Nat) (rest done : List UInt8) (st : HtmlState) : Prop where
  holds : HoldsText st.mem st.src rest
  nonzero : ∀ c ∈ rest, c ≠ 0
  left : st.src + rest.length = a + n
  behind : st.o + rest.length ≤ n
  written : BytesAt st.mem out done
  count : done.length = st.o

variable {st : HtmlState} {done rest : List UInt8}

lemma Reading.body (hapart : ∀ q y, a + q < y → y ≤ a + n → out + q ≠ y) {c : UInt8}
    (h : Reading a n out (c :: rest) done st)
    {r : Option UInt8 × TagState × Nat} (hturn : turn st.tag c (lookupEntity rest) = r) :
    Reading a n out (rest.drop r.2.2) (done ++ r.1.toList) (htmlBody out st).1 ∧
      (htmlBody out st).1.tag = r.2.1 ∧ st.src + 1 ≤ (htmlBody out st).1.src := by
  have hne : ∀ d ∈ rest, d ≠ 0 := fun d hd => h.nonzero d (by simp [hd])
  obtain ⟨reads, -, hsome, hnone⟩ := htmlBody_eq out h.holds hne hturn
  have hskip : r.2.2 ≤ rest.length := by
    rw [← hturn]
    exact (turn_lookup st.tag (h.nonzero c (by simp))).2
  have hleft := h.left
  have hbehind := h.behind
  rw [length_cons] at hleft hbehind
  have hdrop : BytesAt st.mem (st.src + 1 + r.2.2) (rest.drop r.2.2 ++ [0]) := by
    rw [← drop_append_of_le_length hskip]
    apply BytesAt.drop h.holds.2
    simp only [append_eq, length_append]
    omega
  have hnonzero : ∀ d ∈ rest.drop r.2.2, d ≠ 0 := fun d hd => hne d (mem_of_mem_drop hd)
  cases hr : r.1 with
  | none =>
    rw [hnone hr]
    refine ⟨⟨hdrop, hnonzero, ?_, ?_, ?_, ?_⟩, rfl, Nat.le_add_right _ _⟩
    · simp only [length_drop]; omega
    · simp only [length_drop]; omega
    · simpa using h.written
    · simpa using h.count
  | some b =>
    rw [hsome b hr]
    refine ⟨⟨?_, hnonzero, ?_, ?_, ?_, ?_⟩, rfl, Nat.le_add_right _ _⟩
    · apply hdrop.congr
      intro j hj
      apply update_of_ne
      apply Ne.symm
      simp only [length_append, length_drop, length_singleton] at hj
      apply hapart <;> omega
    · simp only [length_drop]; omega
    · simp only [length_drop]; omega
    · rw [← h.count]
      exact h.written.snoc b
    · simp [h.count]

lemma Reading.body_log {c : UInt8}
    (h : Reading a n out (c :: rest) done st) :
    (∀ y, .read y ∈ (htmlBody out st).2 → st.src ≤ y ∧ y ≤ a + n) ∧
      (∀ y, .write y ∈ (htmlBody out st).2 → y = out + st.o) ∧ (htmlBody out st).2.Pairwise Fresh := by
  have hne : ∀ d ∈ rest, d ≠ 0 := fun d hd => h.nonzero d (by simp [hd])
  obtain ⟨reads, hreads, hsome, hnone⟩ := htmlBody_eq out h.holds hne rfl
  have hleft := h.left
  rw [length_cons] at hleft
  have hread : ∀ y, Access.read y ∈ reads → st.src ≤ y ∧ y ≤ a + n := by
    intro y hy
    obtain ⟨j, hj, heq⟩ := hreads _ hy
    cases heq
    omega
  have hnowrite : ∀ y, Access.write y ∉ reads := by
    intro y hy
    obtain ⟨j, -, heq⟩ := hreads _ hy
    cases heq
  have hbefore : ∀ x ∈ reads, ∀ y, Fresh x y := fun x hx y z hz => absurd (hz ▸ hx) (hnowrite z)
  have hfresh : reads.Pairwise Fresh :=
    pairwise_of_forall_mem_list fun x hx y _ => hbefore x hx y
  cases hr : (turn st.tag c (lookupEntity rest)).1 with
  | none =>
    rw [hnone hr]
    exact ⟨hread, fun y hy => absurd hy (hnowrite y), hfresh⟩
  | some b =>
    rw [hsome b hr]
    refine ⟨fun y hy => hread y (by simpa using hy), fun y hy => by simpa [hnowrite] using hy, ?_⟩
    exact pairwise_append.mpr ⟨hfresh, pairwise_singleton _ _, fun x hx y _ => hbefore x hx y⟩

lemma htmlTextFrom_nil (f : Nat) (t : TagState) : htmlTextFrom f t [] = [] := by
  cases f <;> rfl

/-- What the loop leaves behind once `text` is written: it has read nothing before `src`, and nothing
that it had written. -/
structure Finished (a n out src : Nat) (text : List UInt8) (r : HtmlState) (log : List Access) : Prop where
  count : r.o = text.length
  written : BytesAt r.mem out text
  reads : ∀ y, .read y ∈ log → src ≤ y ∧ y ≤ a + n
  fresh : log.Pairwise Fresh

lemma Reading.stop (h : Reading a n out [] done st) (f : Nat) :
    htmlLoop out outCap (f + 1) st = some (st, [.read st.src]) ∧
      Finished a n out st.src (done ++ htmlTextFrom f st.tag []) st [.read st.src] := by
  have hz : st.mem st.src = 0 := h.holds.1
  have hleft := h.left
  rw [htmlTextFrom_nil, append_nil]
  refine ⟨by simp [htmlLoop, hz], h.count.symm, h.written, ?_, pairwise_singleton _ _⟩
  simpa using hleft.le

lemma Reading.loop (hapart : ∀ q y, a + q < y → y ≤ a + n → out + q ≠ y) (hcap : n < outCap) (f : Nat)
    (h : Reading a n out rest done st) (hf : rest.length ≤ f) :
    ∃ r log, htmlLoop out outCap (f + 1) st = some (r, log) ∧
      Finished a n out st.src (done ++ htmlTextFrom f st.tag rest) r log := by
  induction f generalizing rest done st with
  | zero =>
    obtain rfl := length_eq_zero_iff.mp (Nat.le_zero.mp hf)
    exact ⟨_, _, h.stop 0⟩
  | succ f ih =>
    cases rest with
    | nil => exact ⟨_, _, h.stop (f + 1)⟩
    | cons c rest =>
      have hc : st.mem st.src = c := h.holds.1
      have hne : c ≠ 0 := h.nonzero c (by simp)
      have hleft := h.left
      have hbehind := h.behind
      rw [length_cons] at hleft hbehind hf
      obtain ⟨hbody, htag, hsrc⟩ := h.body hapart rfl
      obtain ⟨hread, hwrite, hfresh⟩ := h.body_log
      obtain ⟨r, log, hrun, hfin⟩ := ih hbody (by rw [length_drop]; omega)
      rw [htag, append_assoc] at hfin
      refine ⟨r, .read st.src :: ((htmlBody out st).2 ++ log), ?_, hfin.count, hfin.written, ?_, ?_⟩
      · rw [htmlLoop, if_pos ⟨hc ▸ hne, by omega⟩, hrun]
        rfl
      · intro y hy
        rcases mem_cons.mp hy with hy | hy
        · cases hy
          omega
        · rcases mem_append.mp hy with hy | hy
          · exact hread y hy
          · have := hfin.reads y hy
            omega
      · rw [pairwise_cons, pairwise_append]
        refine ⟨fun _ _ z hz => (by cases hz), hfresh, hfin.fresh, ?_⟩
        -- What is read later lies behind the byte at `st.src`, and so behind the byte written.
        intro x hx y hy z hxz hyz
        subst hxz hyz
        have hz := hwrite z hx
        have hlater := hfin.reads z hy
        exact hapart st.o z (by omega) hlater.2 hz.symm

lemma htmlTextFrom_length (f : Nat) (t : TagState) (rest : List UInt8) :
    (htmlTextFrom f t rest).length ≤ rest.length := by
  induction f generalizing t rest with
  | zero => simp [htmlTextFrom]
  | succ f ih =>
    cases rest with
    | nil => simp [htmlTextFrom]
    | cons c rest =>
      have hone : ∀ o : Option UInt8, o.toList.length ≤ 1 := by
        intro o
        cases o <;> simp
      have htail := ih (turn t c (lookupEntity rest)).2.1 (rest.drop (turn t c (lookupEntity rest)).2.2)
      rw [length_drop] at htail
      rw [htmlTextFrom, length_append, length_cons]
      have := hone (turn t c (lookupEntity rest)).1
      omega

lemma htmlTextFrom_ne_zero (f : Nat) (t : TagState) (hrest : ∀ c ∈ rest, c ≠ 0) :
    ∀ b ∈ htmlTextFrom f t rest, b ≠ 0 := by
  induction f generalizing t rest with
  | zero => simp [htmlTextFrom]
  | succ f ih =>
    cases rest with
    | nil => simp [htmlTextFrom]
    | cons c rest =>
      intro b hb
      rw [htmlTextFrom, mem_append, Option.mem_toList] at hb
      rcases hb with hb | hb
      · exact (turn_lookup t (hrest c (by simp))).1 b hb
      · refine ih _ (fun d hd => hrest d ?_) b hb
        exact mem_cons_of_mem _ (mem_of_mem_drop hd)

end Loop

lemma browserHtmlToText_spec {m : Mem} {text : List UInt8} (a out outCap : Nat)
    (htext : ∀ c ∈ text, c ≠ 0) (hm : HoldsText m a text) (hcap : text.length < outCap)
    (hapart : ∀ q y, a + q < y → y ≤ a + text.length → out + q ≠ y) :
    ∃ m' log, browserHtmlToText m a out outCap (text.length + 1) = some (m', log) ∧
      HoldsText m' out (htmlText text) ∧ log.Pairwise Fresh := by
  have h : Reading a text.length out text [] ⟨m, a, 0, ⟨false, []⟩⟩ :=
    ⟨hm, htext, rfl, by simp, trivial, rfl⟩
  obtain ⟨r, log, hrun, hfin⟩ := h.loop hapart hcap text.length le_rfl
  refine ⟨_, _, by rw [browserHtmlToText, hrun]; rfl, ?_, ?_⟩
  · rw [hfin.count]
    exact hfin.written.snoc 0
  · rw [pairwise_append]
    refine ⟨hfin.fresh, pairwise_singleton _ _, ?_⟩
    intro x _ y hy z _
    rw [mem_singleton.mp hy]
    exact Access.noConfusion

/-- The conversion of a page in its own buffer gives the text that separate buffers give. It ends, the
terminator lies within the capacity, and no byte is read after it has been overwritten. -/
theorem htmlToText_inPlace (text : List UInt8) (htext : ∀ c ∈ text, c ≠ 0) (m : Mem) (a outCap : Nat)
    (hm : HoldsText m a text) (hcap : text.length + 1 ≤ outCap) :
    (htmlText text).length ≤ text.length ∧ (∀ c ∈ htmlText text, c ≠ 0) ∧
    (∃ m' log, browserHtmlToText m a a outCap (text.length + 1) = some (m', log) ∧
      HoldsText m' a (htmlText text) ∧
      ∀ before x after, log = before ++ .read x :: after → .write x ∉ before) ∧
    ∀ (m₂ : Mem) (b out : Nat), HoldsText m₂ b text →
      (∀ q j, q < outCap → j ≤ text.length → out + q ≠ b + j) →
      ∃ m₂' log, browserHtmlToText m₂ b out outCap (text.length + 1) = some (m₂', log) ∧
        HoldsText m₂' out (htmlText text) := by
  refine ⟨htmlTextFrom_length _ _ _, htmlTextFrom_ne_zero _ _ htext, ?_, ?_⟩
  · obtain ⟨m', log, hrun, hholds, hfresh⟩ :=
      browserHtmlToText_spec a a outCap htext hm hcap fun q y hlt _ => hlt.ne
    refine ⟨m', log, hrun, hholds, ?_⟩
    intro before x after hlog hx
    rw [hlog, pairwise_append] at hfresh
    exact hfresh.2.2 _ hx (.read x) (by simp) x rfl rfl
  · intro m₂ b out hm₂ hsep
    have hapart : ∀ q y, b + q < y → y ≤ b + text.length → out + q ≠ y := by
      intro q y hlt hle heq
      exact hsep q (y - b) (by omega) (by omega) (by omega)
    obtain ⟨m', log, hrun, hholds, -⟩ := browserHtmlToText_spec b out outCap htext hm₂ hcap hapart
    exact ⟨m', log, hrun, hholds⟩

/-- The page `<p>&lt;` in a buffer of eight bytes. -/
theorem htmlToText_inPlace_page :
    htmlText [0x3C, 0x70, 0x3E, 0x26, 0x6C, 0x74, 0x3B] = [0x0A, 0x3C] ∧
    ∃ m' log, browserHtmlToText (splice (fun _ => 0) 0 [0x3C, 0x70, 0x3E, 0x26, 0x6C, 0x74, 0x3B])
      0 0 8 8 = some (m', log) ∧ HoldsText m' 0 [0x0A, 0x3C] := by
  have hpage : htmlText [0x3C, 0x70, 0x3E, 0x26, 0x6C, 0x74, 0x3B] = [0x0A, 0x3C] := by decide
  have hm : HoldsText (splice (fun _ => 0) 0 [0x3C, 0x70, 0x3E, 0x26, 0x6C, 0x74, 0x3B]) 0
      [0x3C, 0x70, 0x3E, 0x26, 0x6C, 0x74, 0x3B] := by
    repeat' constructor
  obtain ⟨-, -, ⟨m', log, hrun, hholds, -⟩, -⟩ :=
    htmlToText_inPlace [0x3C, 0x70, 0x3E, 0x26, 0x6C, 0x74, 0x3B] (by simp) _ 0 8 hm (by simp)
  exact ⟨hpage, m', log, hrun, hholds⟩

end FusionOS.Browser
