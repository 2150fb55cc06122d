import FusionOS.Net.Stack

/-!
# DNS responses

A response is a header, questions and records; a name in it is a sequence of labels that ends with a zero
byte or with a pointer to an earlier name. `dns_handle` reads every such message in step with its
structure, whatever records stand before the one it looks for.
-/

namespace FusionOS.Net

/-! ## Messages -/

structure DnsLabel where
  bytes : List UInt8
  ne_nil : bytes ≠ []
  short : bytes.length ≤ 63

inductive NameEnd where
  | root
  | pointer (offset : Fin 16384)

structure DnsName where
  labels : List DnsLabel
  ending : NameEnd

structure DnsQuestion where
  name : DnsName
  type : UInt16
  cls : UInt16

structure DnsRecord where
  name : DnsName
  type : UInt16
  cls : UInt16
  ttl : UInt32
  rdata : List UInt8
  short : rdata.length < 65536

/-- `rest` holds the sections behind the answers. -/
structure DnsMessage where
  id : UInt16
  flags : UInt16
  questions : List DnsQuestion
  answers : List DnsRecord
  nscount : UInt16
  arcount : UInt16
  rest : List UInt8

def DnsLabel.encode (l : DnsLabel) : List UInt8 := UInt8.ofNat l.bytes.length :: l.bytes

def NameEnd.encode : NameEnd → List UInt8
  | .root => [0]
  | .pointer offset => u16be (0xC000 + offset)

def DnsName.encode (n : DnsName) : List UInt8 := n.labels.flatMap DnsLabel.encode ++ n.ending.encode

def DnsQuestion.encode (q : DnsQuestion) : List UInt8 :=
  q.name.encode ++ (u16be q.type.toNat ++ u16be q.cls.toNat)

def DnsRecord.encode (r : DnsRecord) : List UInt8 :=
  r.name.encode ++ (u16be r.type.toNat ++ (u16be r.cls.toNat ++ (u32be r.ttl.toNat ++
    (u16be r.rdata.length ++ r.rdata))))

def DnsMessage.encode (m : DnsMessage) : List UInt8 :=
  u16be m.id.toNat ++ (u16be m.flags.toNat ++ (u16be m.questions.length ++ (u16be m.answers.length ++
    (u16be m.nscount.toNat ++ (u16be m.arcount.toNat ++ (m.questions.flatMap DnsQuestion.encode ++
      (m.answers.flatMap DnsRecord.encode ++ m.rest)))))))

def DnsRecord.isAddress (r : DnsRecord) : Bool := r.type == 1 && r.cls == 1 && r.rdata.length == 4

/-- The four bytes, as `memcpy` into a `u32` stores them. -/
def DnsRecord.address (r : DnsRecord) : Nat := (rd32le r.rdata 0).getD 0

def firstAddress (answers : List DnsRecord) : Option Nat :=
  (answers.find? DnsRecord.isAddress).map DnsRecord.address

/-! ## Names -/

section Names
variable {f : Buf} {stop p : Nat} {rest : List UInt8}

lemma dnsSkipName_bytes {bytes : List UInt8} (hne : bytes ≠ []) (hlt : bytes.length < 192)
    (hdrop : f.drop p = UInt8.ofNat bytes.length :: (bytes ++ rest))
    (hstop : p + (bytes.length + 1) ≤ stop) :
    dnsSkipName f stop p = dnsSkipName f stop (p + (bytes.length + 1)) := by
  have hpos := List.length_pos_iff.mpr hne
  have hlen : (UInt8.ofNat bytes.length).toNat = bytes.length := by
    rw [UInt8.toNat_ofNat']
    omega
  rw [dnsSkipName, if_pos (by omega), rd8_of_drop hdrop, Option.bind_some, hlen, if_neg (by omega),
    if_neg (by omega), if_neg (by omega), Nat.add_assoc p 1, Nat.add_comm 1]

lemma dnsSkipName_label {l : DnsLabel} (hdrop : f.drop p = l.encode ++ rest)
    (hstop : p + l.encode.length ≤ stop) :
    dnsSkipName f stop p = dnsSkipName f stop (p + l.encode.length) :=
  dnsSkipName_bytes l.ne_nil (Nat.lt_of_le_of_lt l.short (by decide)) hdrop hstop

lemma dnsSkipName_end {e : NameEnd} (hdrop : f.drop p = e.encode ++ rest)
    (hstop : p + e.encode.length ≤ stop) : dnsSkipName f stop p = some (some (p + e.encode.length)) := by
  cases e with
  | root =>
    have hlt : p + 1 ≤ stop := hstop
    rw [dnsSkipName, if_pos (by omega), rd8_of_drop hdrop, Option.bind_some, if_pos (by decide)]
    rfl
  | pointer offset =>
    have hlt : p + 2 ≤ stop := hstop
    have hhigh : 192 ≤ (UInt8.ofNat ((0xC000 + offset) / 256)).toNat := by
      have := offset.isLt
      rw [UInt8.toNat_ofNat']
      omega
    rw [dnsSkipName, if_pos (by omega), rd8_of_drop hdrop, Option.bind_some, if_neg (by omega),
      if_pos hhigh, if_neg (by omega)]
    rfl

lemma dnsSkipName_encode {n : DnsName} (hdrop : f.drop p = n.encode ++ rest)
    (hstop : p + n.encode.length ≤ stop) : dnsSkipName f stop p = some (some (p + n.encode.length)) := by
  obtain ⟨labels, e⟩ := n
  unfold DnsName.encode at hdrop hstop ⊢
  dsimp only at hdrop hstop ⊢
  induction labels generalizing p with
  | nil => exact dnsSkipName_end hdrop hstop
  | cons l ls ih =>
    have hcons : (l :: ls).flatMap DnsLabel.encode ++ e.encode =
        l.encode ++ (ls.flatMap DnsLabel.encode ++ e.encode) := by
      rw [List.flatMap_cons, List.append_assoc]
    rw [hcons, List.append_assoc] at hdrop
    rw [hcons, List.length_append] at hstop ⊢
    rw [dnsSkipName_label hdrop (by omega), ih (drop_add_of_drop hdrop) (by omega), Nat.add_assoc]

end Names

/-! ## Questions and answers -/

section Sections
variable {f : Buf} {stop p : Nat} {rest : List UInt8}

lemma dnsQuestions_encode (qs : List DnsQuestion)
    (hdrop : f.drop p = qs.flatMap DnsQuestion.encode ++ rest)
    (hstop : p + (qs.flatMap DnsQuestion.encode).length ≤ stop) :
    dnsQuestions f stop qs.length p = some (some (p + (qs.flatMap DnsQuestion.encode).length)) := by
  induction qs generalizing p with
  | nil => rfl
  | cons q qs ih =>
    have hq : q.encode.length = q.name.encode.length + 4 := by
      rw [DnsQuestion.encode, List.length_append]
      rfl
    rw [List.flatMap_cons, List.append_assoc] at hdrop
    rw [List.flatMap_cons, List.length_append] at hstop ⊢
    have hname : f.drop p = q.name.encode ++ (u16be q.type.toNat ++ u16be q.cls.toNat ++
        (qs.flatMap DnsQuestion.encode ++ rest)) := by
      rw [hdrop, DnsQuestion.encode, List.append_assoc]
    rw [List.length_cons, dnsQuestions, dnsSkipName_encode hname (by omega), Option.bind_some]
    dsimp only
    rw [if_neg (by omega), Nat.add_assoc, ← hq, ih (drop_add_of_drop hdrop) (by omega), Nat.add_assoc]

def answerOf (answers : List DnsRecord) : DnsAnswer :=
  (firstAddress answers).elim .noAddress .address

lemma answerOf_cons (r : DnsRecord) (rs : List DnsRecord) :
    answerOf (r :: rs) = if r.isAddress then .address r.address else answerOf rs := by
  rw [answerOf, firstAddress, List.find?_cons]
  cases r.isAddress with
  | true => rfl
  | false => rfl

lemma DnsRecord.fields {r : DnsRecord} (hdrop : f.drop p = u16be r.type.toNat ++ (u16be r.cls.toNat ++
      (u32be r.ttl.toNat ++ (u16be r.rdata.length ++ (r.rdata ++ rest))))) :
    rd16be f p = some r.type.toNat ∧ rd16be f (p + 2) = some r.cls.toNat ∧
      rd16be f (p + 8) = some r.rdata.length ∧ f.drop (p + 10) = r.rdata ++ rest := by
  have hcls : f.drop (p + 2) = _ := drop_add_of_drop hdrop
  have httl : f.drop (p + 4) = _ := drop_add_of_drop hcls
  have hlen : f.drop (p + 8) = _ := drop_add_of_drop httl
  have hdata : f.drop (p + 10) = _ := drop_add_of_drop hlen
  exact ⟨rd16be_of_drop hdrop r.type.toNat_lt, rd16be_of_drop hcls r.cls.toNat_lt,
    rd16be_of_drop hlen r.short, hdata⟩

lemma DnsRecord.isAddress_iff {r : DnsRecord} :
    r.isAddress = true ↔ r.type.toNat = 1 ∧ r.cls.toNat = 1 ∧ r.rdata.length = 4 := by
  simp only [isAddress, Bool.and_eq_true, beq_iff_eq, and_assoc, ← UInt16.toNat_inj, UInt16.reduceToNat]

lemma DnsRecord.rd_address {r : DnsRecord} (hdrop : f.drop p = r.rdata ++ rest)
    (hlen : r.rdata.length = 4) : rd32le f p = some r.address := by
  obtain ⟨v, hv, -⟩ := rd32le_of_lt (f := r.rdata) (i := 0) (by omega)
  rw [← Nat.add_zero p, ← rd32le_drop, hdrop, rd32le_append (by omega), address, hv]
  rfl

lemma dnsAnswers_encode (rs : List DnsRecord)
    (hdrop : f.drop p = rs.flatMap DnsRecord.encode ++ rest)
    (hstop : p + (rs.flatMap DnsRecord.encode).length ≤ stop) :
    dnsAnswers f stop rs.length p = some (answerOf rs) := by
  induction rs generalizing p with
  | nil => rfl
  | cons r rs ih =>
    have hr : r.encode.length = r.name.encode.length + (10 + r.rdata.length) := by
      simp only [DnsRecord.encode, List.length_append, u16be, u32be, List.length_cons, List.length_nil]
      omega
    rw [List.flatMap_cons, List.append_assoc] at hdrop
    rw [List.flatMap_cons, List.length_append] at hstop
    have hname := hdrop
    simp only [DnsRecord.encode, List.append_assoc] at hname
    obtain ⟨htype, hcls, hlen, hdata⟩ := DnsRecord.fields (drop_add_of_drop hname)
    have hnext : p + r.name.encode.length + 10 + r.rdata.length = p + r.encode.length := by omega
    rw [List.length_cons, dnsAnswers, dnsSkipName_encode hname (by omega), Option.bind_some, answerOf_cons]
    dsimp only
    rw [if_neg (by omega), htype, hcls, hlen]
    simp only [Option.bind_eq_bind, Option.bind_some, Option.pure_def]
    rw [if_neg (by omega), hnext]
    by_cases haddr : r.isAddress = true
    · have hfields := DnsRecord.isAddress_iff.mp haddr
      rw [if_pos hfields, if_pos haddr, DnsRecord.rd_address hdata hfields.2.2, Option.bind_some]
    · rw [if_neg fun hfields => haddr (DnsRecord.isAddress_iff.mpr hfields), if_neg haddr]
      exact ih (drop_add_of_drop hdrop) (by omega)

lemma length_le_flatMap {α : Type} (encode : α → List UInt8) (hpos : ∀ a, 0 < (encode a).length)
    (xs : List α) : xs.length ≤ (xs.flatMap encode).length := by
  induction xs with
  | nil => exact Nat.le_refl _
  | cons x xs ih =>
    have hx := hpos x
    rw [List.flatMap_cons, List.length_append, List.length_cons]
    omega

lemma DnsName.encode_pos (n : DnsName) : 0 < n.encode.length := by
  rw [encode, List.length_append]
  cases n.ending with
  | root => exact Nat.succ_pos _
  | pointer offset => exact Nat.succ_pos _

end Sections

lemma DnsQuestion.encode_pos (q : DnsQuestion) : 0 < q.encode.length := by
  rw [encode, List.length_append]
  exact Nat.lt_add_right _ q.name.encode_pos

lemma DnsRecord.encode_pos (r : DnsRecord) : 0 < r.encode.length := by
  rw [encode, List.length_append]
  exact Nat.lt_add_right _ r.name.encode_pos

lemma DnsMessage.length_encode (m : DnsMessage) :
    m.encode.length = 12 + (m.questions.flatMap DnsQuestion.encode).length +
      (m.answers.flatMap DnsRecord.encode).length + m.rest.length := by
  simp only [encode, List.length_append, u16be, List.length_cons, List.length_nil]
  omega

lemma DnsMessage.header {m : DnsMessage} (hlen : m.encode.length < 65536) :
    rd16be m.encode 0 = some m.id.toNat ∧ rd16be m.encode 2 = some m.flags.toNat ∧
      rd16be m.encode 4 = some m.questions.length ∧ rd16be m.encode 6 = some m.answers.length ∧
      m.encode.drop 12 = m.questions.flatMap DnsQuestion.encode ++
        (m.answers.flatMap DnsRecord.encode ++ m.rest) := by
  have hquestions := length_le_flatMap DnsQuestion.encode DnsQuestion.encode_pos m.questions
  have hanswers := length_le_flatMap DnsRecord.encode DnsRecord.encode_pos m.answers
  rw [m.length_encode] at hlen
  have hid : m.encode.drop 0 = _ := rfl
  have hflags : m.encode.drop 2 = _ := drop_add_of_drop hid
  have hqdcount : m.encode.drop 4 = _ := drop_add_of_drop hflags
  have hancount : m.encode.drop 6 = _ := drop_add_of_drop hqdcount
  have hnscount : m.encode.drop 8 = _ := drop_add_of_drop hancount
  have harcount : m.encode.drop 10 = _ := drop_add_of_drop hnscount
  have hsections : m.encode.drop 12 = _ := drop_add_of_drop harcount
  exact ⟨rd16be_of_drop hid m.id.toNat_lt, rd16be_of_drop hflags m.flags.toNat_lt,
    rd16be_of_drop hqdcount (by omega), rd16be_of_drop hancount (by omega), hsections⟩

/-- A response with the id of the pending query and the QR bit set, as the payload of a packet: the
first address of class IN among the answers is stored and the query is done; without one
`dns_result_ip` stays, and the query is done only if there are no answers at all. -/
theorem dns_handle_stores_first {s : NetState} (m : DnsMessage) (hpending : s.dnsPending = true)
    (hid : m.id.toNat = s.dnsTxid) (hqr : 0x8000 ≤ m.flags.toNat) (hlen : m.encode.length < 65536) :
    dnsHandle s m.encode 0 m.encode.length = some ((firstAddress m.answers).elim
      (if m.answers.isEmpty then { s with dnsPending := false } else s)
      fun ip => { s with dnsResultIp := ip, dnsPending := false }) := by
  obtain ⟨hrdid, hrdflags, hqdcount, hancount, hsections⟩ := DnsMessage.header hlen
  have hlength := m.length_encode
  have hqr' : m.flags.toNat / 32768 % 2 ≠ 0 := by
    have := m.flags.toNat_lt
    omega
  have hanswers : m.encode.drop (12 + (m.questions.flatMap DnsQuestion.encode).length) =
      m.answers.flatMap DnsRecord.encode ++ m.rest := drop_add_of_drop hsections
  have hguard : (!s.dnsPending || decide (m.encode.length < 12)) = false := by
    rw [hpending]
    simp only [Bool.not_true, Bool.false_or, decide_eq_false_iff_not]
    omega
  rw [dnsHandle, hguard]
  simp only [Nat.zero_add, hrdid, hrdflags, hqdcount, hancount, hid, Option.bind_eq_bind,
    Option.bind_some, Option.pure_def, ne_eq, not_true_eq_false, if_false, hqr', Bool.false_eq_true]
  rw [dnsQuestions_encode m.questions hsections (by omega), Option.bind_some]
  dsimp only
  rw [dnsAnswers_encode m.answers hanswers (by omega), Option.bind_some, answerOf]
  cases firstAddress m.answers with
  | none =>
    simp only [Option.elim_none, List.isEmpty_iff, List.length_eq_zero_iff]
  | some ip => rfl

/-- A question for `a.b`, an alias and the address of what it stands for. -/
def aliasResponse : DnsMessage where
  id := 0x1234
  flags := 0x8180
  questions := [⟨⟨[⟨[0x61], by decide, by decide⟩, ⟨[0x62], by decide, by decide⟩], .root⟩, 1, 1⟩]
  answers := [⟨⟨[], .pointer 12⟩, 5, 1, 300, [1, 0x63, 0xC0, 0x0E], by decide⟩,
    ⟨⟨[⟨[0x63], by decide, by decide⟩], .pointer 14⟩, 1, 1, 300, [93, 184, 216, 34], by decide⟩]
  nscount := 0
  arcount := 0
  rest := []

theorem dns_handle_stores_first_alias :
    dnsHandle { NetState.zero with dnsPending := true, dnsTxid := 0x1234 } aliasResponse.encode 0
        aliasResponse.encode.length =
      some { NetState.zero with dnsPending := false, dnsTxid := 0x1234, dnsResultIp := 0x22D8B85D } := by
  have haddress : firstAddress aliasResponse.answers = some 0x22D8B85D := by decide
  have hstored := dns_handle_stores_first (s := { NetState.zero with dnsPending := true, dnsTxid := 0x1234 })
    aliasResponse rfl (by decide) (by decide) (by decide)
  rw [haddress] at hstored
  exact hstored

end FusionOS.Net
