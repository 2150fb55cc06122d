import FusionOS.Net.Stack

/-!
# Received frames are read inside their bounds

Every handler stays inside the payload it is given, whatever the payload says
about itself. What it is given is decided by `ipv4_handle`, which subtracts the
header length from the total length of the packet without comparing the two.
-/

namespace FusionOS.Net

section Handlers
variable {f : Buf} {stop len payload : Nat}

lemma dhcpOption_isSome (tag : Nat) {olen opt : Nat} (h : opt + olen ≤ f.length) (o : DhcpOptions) :
    (dhcpOption f tag olen opt o).isSome = true := by
  unfold dhcpOption
  split
  · obtain ⟨v, hv, -⟩ := rd8_of_lt (f := f) (i := opt) (by omega)
    simp [hv]
  repeat' split
  all_goals first
    | rfl
    | obtain ⟨v, hv, -⟩ := rd32le_of_lt (f := f) (i := opt) (by omega)
      simp [hv]

lemma dhcpOptions_isSome (hstop : stop ≤ f.length) (opt : Nat) (o : DhcpOptions) :
    (dhcpOptions f stop opt o).isSome = true := by
  induction hk : stop - opt using Nat.strong_induction_on generalizing opt o with
  | _ k ih =>
    rw [dhcpOptions]
    split
    · rename_i hlt
      obtain ⟨tag, htag, -⟩ := rd8_of_lt (f := f) (i := opt) (by omega)
      rw [htag, Option.bind_some]
      split
      · rfl
      split
      · exact ih _ (by omega) (opt + 1) o rfl
      split
      · rfl
      obtain ⟨olen, holen, -⟩ := rd8_of_lt (f := f) (i := opt + 1) (by omega)
      rw [holen, Option.bind_some]
      split
      · rfl
      have hdata : opt + 2 + olen ≤ f.length := by omega
      obtain ⟨o', ho'⟩ := Option.isSome_iff_exists.mp (dhcpOption_isSome tag hdata o)
      rw [ho', Option.bind_some]
      exact ih _ (by omega) (opt + 2 + olen) o' rfl
    · rfl

lemma dhcpHandle_isSome (h : payload + len ≤ f.length) (s : NetState) :
    (dhcpHandle s f payload len).isSome = true := by
  refine isSome_ite (fun _ => rfl) fun hlen => ?_
  obtain ⟨op, hop, -⟩ := rd8_of_lt (f := f) (i := payload) (by omega)
  obtain ⟨xid, hxid, -⟩ := rd32be_of_lt (f := f) (i := payload + 4) (by omega)
  obtain ⟨magic, hmagic, -⟩ := rd32be_of_lt (f := f) (i := payload + 236) (by omega)
  obtain ⟨yiaddr, hyiaddr, -⟩ := rd32le_of_lt (f := f) (i := payload + 16) (by omega)
  obtain ⟨o, ho⟩ := Option.isSome_iff_exists.mp (dhcpOptions_isSome h (payload + 240) ⟨0, 0, 0, 0, 0⟩)
  refine isSome_bind hop (isSome_ite (fun _ => rfl) fun _ => ?_)
  refine isSome_bind hxid (isSome_ite (fun _ => rfl) fun _ => ?_)
  refine isSome_bind hmagic (isSome_ite (fun _ => rfl) fun _ => ?_)
  refine isSome_bind ho (isSome_ite (fun _ => isSome_bind hyiaddr rfl) fun _ => ?_)
  exact isSome_ite (fun _ => isSome_bind hyiaddr rfl) fun _ => rfl

lemma dnsSkipName_le (hstop : stop ≤ f.length) (p : Nat) :
    ∃ r, dnsSkipName f stop p = some r ∧ ∀ q, r = some q → q ≤ stop := by
  induction hk : stop - p using Nat.strong_induction_on generalizing p with
  | _ k ih =>
    rw [dnsSkipName]
    split
    · obtain ⟨n, hn, -⟩ := rd8_of_lt (f := f) (i := p) (by omega)
      rw [hn, Option.bind_some]
      split
      · refine ⟨_, rfl, ?_⟩
        rintro q ⟨rfl⟩
        omega
      split
      · split
        · exact ⟨none, rfl, by simp⟩
        · refine ⟨_, rfl, ?_⟩
          rintro q ⟨rfl⟩
          omega
      split
      · exact ⟨none, rfl, by simp⟩
      · exact ih _ (by omega) (p + 1 + n) rfl
    · exact ⟨none, rfl, by simp⟩

lemma dnsQuestions_isSome (hstop : stop ≤ f.length) (n p : Nat) :
    (dnsQuestions f stop n p).isSome = true := by
  induction n generalizing p with
  | zero => rfl
  | succ n ih =>
    obtain ⟨r, hr, -⟩ := dnsSkipName_le hstop p
    rw [dnsQuestions, hr, Option.bind_some]
    cases r with
    | none => rfl
    | some q =>
      dsimp only
      split
      · rfl
      · exact ih (q + 4)

lemma dnsAnswers_isSome (hstop : stop ≤ f.length) (n p : Nat) :
    (dnsAnswers f stop n p).isSome = true := by
  induction n generalizing p with
  | zero => rfl
  | succ n ih =>
    obtain ⟨r, hr, -⟩ := dnsSkipName_le hstop p
    rw [dnsAnswers, hr, Option.bind_some]
    cases r with
    | none => rfl
    | some q =>
      refine isSome_ite (fun _ => rfl) fun hfields => ?_
      obtain ⟨type, htype, -⟩ := rd16be_of_lt (f := f) (i := q) (by omega)
      obtain ⟨cls, hcls, -⟩ := rd16be_of_lt (f := f) (i := q + 2) (by omega)
      obtain ⟨rdlen, hrdlen, -⟩ := rd16be_of_lt (f := f) (i := q + 8) (by omega)
      refine isSome_bind htype (isSome_bind hcls (isSome_bind hrdlen ?_))
      refine isSome_ite (fun _ => rfl) fun hdata => isSome_ite (fun haddress => ?_) fun _ => ih _
      obtain ⟨ip, hip, -⟩ := rd32le_of_lt (f := f) (i := q + 10) (by omega)
      exact isSome_bind hip rfl

lemma dnsHandle_isSome (h : payload + len ≤ f.length) (s : NetState) :
    (dnsHandle s f payload len).isSome = true := by
  refine isSome_ite (fun _ => rfl) fun hguard => ?_
  have hlen : 12 ≤ len := by
    simp only [Bool.or_eq_true, decide_eq_true_eq, not_or] at hguard
    omega
  obtain ⟨id, hid, -⟩ := rd16be_of_lt (f := f) (i := payload) (by omega)
  obtain ⟨flags, hflags, -⟩ := rd16be_of_lt (f := f) (i := payload + 2) (by omega)
  obtain ⟨qdcount, hqd, -⟩ := rd16be_of_lt (f := f) (i := payload + 4) (by omega)
  obtain ⟨ancount, han, -⟩ := rd16be_of_lt (f := f) (i := payload + 6) (by omega)
  obtain ⟨q, hq⟩ := Option.isSome_iff_exists.mp (dnsQuestions_isSome h qdcount (payload + 12))
  refine isSome_bind hid (isSome_ite (fun _ => rfl) fun _ => ?_)
  refine isSome_bind hflags (isSome_ite (fun _ => rfl) fun _ => ?_)
  refine isSome_bind hqd (isSome_bind han (isSome_bind hq ?_))
  cases q with
  | none => rfl
  | some q =>
    obtain ⟨a, ha⟩ := Option.isSome_iff_exists.mp (dnsAnswers_isSome h ancount q)
    refine isSome_bind ha ?_
    cases a <;> rfl

lemma rdSegment_of_le (h : payload + 20 ≤ f.length) : ∃ g, rdSegment f payload = some g := by
  obtain ⟨srcPort, h1, -⟩ := rd16be_of_lt (f := f) (i := payload) (by omega)
  obtain ⟨dstPort, h2, -⟩ := rd16be_of_lt (f := f) (i := payload + 2) (by omega)
  obtain ⟨seq, h3, -⟩ := rd32be_of_lt (f := f) (i := payload + 4) (by omega)
  obtain ⟨ack, h4, -⟩ := rd32be_of_lt (f := f) (i := payload + 8) (by omega)
  obtain ⟨offFlags, h5, -⟩ := rd16be_of_lt (f := f) (i := payload + 12) (by omega)
  exact ⟨_, by simp only [rdSegment, h1, h2, h3, h4, h5, Option.bind_eq_bind, Option.bind_some]; rfl⟩

lemma takeData_isSome {data n : Nat} (h : data + n ≤ f.length) (s : NetState) (seq : Nat) :
    ∃ r, takeData s f data n seq = some r := by
  unfold takeData
  split
  · dsimp only
    rw [rdBytes_of_le (by omega)]
    exact ⟨_, rfl⟩
  · exact ⟨_, rfl⟩

lemma tcpHandle_isSome (h : payload + len ≤ f.length) (s : NetState) (srcIp : Nat) :
    (tcpHandle s f payload len srcIp).isSome = true := by
  unfold tcpHandle
  split
  · rfl
  have hhdr : payload + 20 ≤ f.length := by omega
  obtain ⟨g, hg⟩ := rdSegment_of_le hhdr
  rw [hg, Option.bind_some]
  split
  · rfl
  have hopen : (tcpHandleOpen s f payload len g srcIp).isSome = true := by
    have hdata : payload + g.hdrLen + (len - g.hdrLen) ≤ f.length := by omega
    obtain ⟨r, hr⟩ := takeData_isSome hdata { s with tcpConn := takeAck s.tcpConn g } g.seq
    unfold tcpHandleOpen
    split
    · rw [hr]
      rfl
    · rfl
  split
  · rfl
  · exact hopen
  · exact hopen
  · rfl
  · rfl

lemma arpHandle_isSome (h : payload + len ≤ f.length) (s : NetState) :
    (arpHandle s f payload len).isSome = true := by
  refine isSome_ite (fun _ => rfl) fun hlen => ?_
  obtain ⟨htype, h1, -⟩ := rd16be_of_lt (f := f) (i := payload) (by omega)
  obtain ⟨ptype, h2, -⟩ := rd16be_of_lt (f := f) (i := payload + 2) (by omega)
  obtain ⟨hlen, h3, -⟩ := rd8_of_lt (f := f) (i := payload + 4) (by omega)
  obtain ⟨plen, h4, -⟩ := rd8_of_lt (f := f) (i := payload + 5) (by omega)
  obtain ⟨oper, h5, -⟩ := rd16be_of_lt (f := f) (i := payload + 6) (by omega)
  obtain ⟨spa, h6, -⟩ := rd32le_of_lt (f := f) (i := payload + 14) (by omega)
  obtain ⟨tpa, h7, -⟩ := rd32le_of_lt (f := f) (i := payload + 24) (by omega)
  have h8 := rdBytes_of_le (f := f) (i := payload + 8) (n := 6) (by omega)
  refine isSome_bind h1 (isSome_ite (fun _ => rfl) fun _ => ?_)
  refine isSome_bind h2 (isSome_ite (fun _ => rfl) fun _ => ?_)
  refine isSome_bind h3 (isSome_ite (fun _ => rfl) fun _ => ?_)
  refine isSome_bind h4 (isSome_ite (fun _ => rfl) fun _ => ?_)
  refine isSome_bind h5 (isSome_ite (fun _ => isSome_bind h6 (isSome_bind h8 rfl)) fun _ => ?_)
  refine isSome_ite (fun _ => ?_) fun _ => rfl
  exact isSome_bind h7 (isSome_ite (fun _ => isSome_bind h8 (isSome_bind h6 rfl)) fun _ => rfl)

end Handlers

/-- Given a payload and its length, the handlers come to an end without a read outside the payload,
whatever lengths, pointers, counts and offsets stand in it; a name that `dns_skip_name` accepts ends
inside the payload. -/
theorem handlers_read_inside (s : NetState) (payload : Buf) (srcIp : Nat) :
    (dhcpHandle s payload 0 payload.length).isSome = true ∧
      (dnsHandle s payload 0 payload.length).isSome = true ∧
      (∀ p, ∃ r, dnsSkipName payload payload.length p = some r ∧ ∀ q, r = some q → q ≤ payload.length) ∧
      (tcpHandle s payload 0 payload.length srcIp).isSome = true := by
  have hinside : 0 + payload.length ≤ payload.length := (Nat.zero_add _).le
  exact ⟨dhcpHandle_isSome hinside s, dnsHandle_isSome hinside s, dnsSkipName_le (Nat.le_refl _),
    tcpHandle_isSome hinside s srcIp⟩

/-- The payload handed on lies inside a frame of `len` bytes. -/
def Upper.Inside (len : Nat) : Upper → Prop
  | .dhcp payload n => payload + n ≤ len
  | .dns payload n => payload + n ≤ len
  | .tcp payload n _ => payload + n ≤ len
  | .nothing => True

lemma Upper.handle_isSome {f : Buf} {u : Upper} (h : u.Inside f.length) (s : NetState) :
    (u.handle s f).isSome = true := by
  cases u with
  | dhcp payload n => exact dhcpHandle_isSome h s
  | dns payload n => exact dnsHandle_isSome h s
  | tcp payload n srcIp => exact tcpHandle_isSome h s srcIp
  | nothing => rfl

/-- `ipv4_handle` is reached by the frame and hands `u` on. -/
def HandsOn (f : Buf) (u : Upper) : Prop :=
  14 ≤ f.length ∧ rd16be f 12 = some 0x0800 ∧ ipv4Upper f 14 (f.length - 14) = some u

/-- No read outside the frame, and no length handed on that reaches past its end. -/
def FrameSafe (s : NetState) (f : Buf) : Prop :=
  (netRxFrame s f f.length).isSome = true ∧ ∀ u, HandsOn f u → u.Inside f.length

def byteAt (f : Buf) (i : Nat) : Nat := (rd8 f i).getD 0
def wordAt (f : Buf) (i : Nat) : Nat := byteAt f i * 256 + byteAt f (i + 1)

def ipHdrLen (f : Buf) : Nat := byteAt f 14 % 16 * 4

/-- An IPv4 header that passes the checks of `ipv4_handle`. -/
def ValidIpv4 (f : Buf) : Prop :=
  34 ≤ f.length ∧ wordAt f 12 = 0x0800 ∧ byteAt f 14 / 16 = 4 ∧ 20 ≤ ipHdrLen f ∧
    14 + ipHdrLen f ≤ f.length

def ForService (f : Buf) : Prop :=
  byteAt f 23 = 6 ∨
    (byteAt f 23 = 17 ∧ (f.length < 14 + ipHdrLen f + 4 ∨
      wordAt f (14 + ipHdrLen f + 2) = 68 ∨ wordAt f (14 + ipHdrLen f + 2) = 49152))

/-- The packet claims to be shorter than its own header, and it is looked into further. -/
def ShortTotal (f : Buf) : Prop :=
  ValidIpv4 f ∧ wordAt f 16 < ipHdrLen f ∧ ForService f

instance (f : Buf) : Decidable (ShortTotal f) :=
  inferInstanceAs (Decidable ((_ ∧ _ ∧ _ ∧ _ ∧ _) ∧ _ ∧ (_ ∨ (_ ∧ (_ ∨ _ ∨ _)))))

section Dispatch
variable {f : Buf}

lemma rd8_eq_byteAt {i : Nat} (h : i < f.length) : rd8 f i = some (byteAt f i) := by
  obtain ⟨v, hv, -⟩ := rd8_of_lt h
  rw [byteAt, hv]
  rfl

lemma rd16be_eq_wordAt {i : Nat} (h : i + 1 < f.length) : rd16be f i = some (wordAt f i) := by
  rw [rd16be, rd8_eq_byteAt (by omega), rd8_eq_byteAt h]
  rfl

lemma byteAt_lt (f : Buf) (i : Nat) : byteAt f i < 256 := by
  unfold byteAt rd8
  cases f[i]? with
  | none => decide
  | some v => exact v.toNat_lt

lemma wordAt_lt (f : Buf) (i : Nat) : wordAt f i < 65536 := by
  have h1 := byteAt_lt f i
  have h2 := byteAt_lt f (i + 1)
  unfold wordAt
  omega

def upperLen (f : Buf) : Nat := (min (wordAt f 16) (f.length - 14) + 65536 - ipHdrLen f) % 65536

lemma upperLen_of_le (h : ipHdrLen f ≤ wordAt f 16) (hlen : 14 + ipHdrLen f ≤ f.length) :
    14 + ipHdrLen f + upperLen f ≤ f.length := by
  have hword := wordAt_lt f 16
  unfold upperLen
  omega

lemma upperLen_of_lt (h : wordAt f 16 < ipHdrLen f) (hlen : f.length < 65536) :
    8 ≤ upperLen f ∧ f.length < 14 + ipHdrLen f + upperLen f := by
  have hbyte := byteAt_lt f 14
  have hhdr : ipHdrLen f ≤ 60 := by
    unfold ipHdrLen
    omega
  unfold upperLen
  omega

lemma ipv4Upper_eq (hv : ValidIpv4 f) :
    ipv4Upper f 14 (f.length - 14) =
      if byteAt f 23 = 17 then
        if upperLen f < 8 then some .nothing
        else (rd16be f (14 + ipHdrLen f + 2)).map fun dstPort =>
          if dstPort = 68 then .dhcp (14 + ipHdrLen f + 8) (upperLen f - 8)
          else if dstPort = 49152 then .dns (14 + ipHdrLen f + 8) (upperLen f - 8)
          else .nothing
      else if byteAt f 23 = 6 then
        (rd32le f 26).map fun src => .tcp (14 + ipHdrLen f) (upperLen f) src
      else some .nothing := by
  obtain ⟨hlen, -, hver, hmin, hmax⟩ := hv
  have h1 : ¬ f.length - 14 < 20 := by omega
  have h2 : ¬ (ipHdrLen f < 20 ∨ f.length - 14 < ipHdrLen f) := by omega
  have hr1 := rd8_eq_byteAt (f := f) (i := 14) (by omega)
  have hr2 := rd16be_eq_wordAt (f := f) (i := 14 + 2) (by omega)
  have hr3 := rd8_eq_byteAt (f := f) (i := 14 + 9) (by omega)
  rw [ipv4Upper, if_neg h1, hr1, Option.bind_eq_bind, Option.bind_some, if_neg (not_not.mpr hver)]
  dsimp only [Option.bind_eq_bind]
  rw [if_neg (show ¬ (byteAt f 14 % 16 * 4 < 20 ∨ f.length - 14 < byteAt f 14 % 16 * 4) from h2), hr2,
    Option.bind_some, hr3, Option.bind_some]
  refine if_congr Iff.rfl (if_congr Iff.rfl rfl ?_) (if_congr Iff.rfl ?_ rfl)
  · rw [Option.map_eq_bind]
    refine congrArg _ (funext fun port => ?_)
    rw [Function.comp_apply, apply_ite some, apply_ite some]
    rfl
  · rw [Option.map_eq_bind]
    rfl

lemma ipv4Upper_invalid (hlen : 14 ≤ f.length) (htype : rd16be f 12 = some 0x0800)
    (hv : ¬ ValidIpv4 f) : ipv4Upper f 14 (f.length - 14) = some .nothing := by
  unfold ipv4Upper
  split
  · rfl
  rename_i hmin
  have hword : wordAt f 12 = 0x0800 := by
    rw [rd16be_eq_wordAt (by omega)] at htype
    exact Option.some.inj htype
  rw [rd8_eq_byteAt (by omega), Option.bind_eq_bind, Option.bind_some]
  by_cases hver : byteAt f 14 / 16 = 4
  · rw [if_neg (not_not.mpr hver)]
    refine if_pos ?_
    by_contra hhdr
    refine hv ⟨by omega, hword, hver, ?_, ?_⟩
    · unfold ipHdrLen
      omega
    · unfold ipHdrLen
      omega
  · rw [if_pos hver]
    rfl

lemma ipv4Upper_of_le (hv : ValidIpv4 f) (hle : ipHdrLen f ≤ wordAt f 16) :
    ∃ u, ipv4Upper f 14 (f.length - 14) = some u ∧ u.Inside f.length := by
  have hfits := upperLen_of_le hle hv.2.2.2.2
  have hmin := hv.1
  rw [ipv4Upper_eq hv]
  split
  · split
    · exact ⟨_, rfl, trivial⟩
    rw [rd16be_eq_wordAt (by omega), Option.map_some]
    refine ⟨_, rfl, ?_⟩
    split
    · change 14 + ipHdrLen f + 8 + (upperLen f - 8) ≤ f.length
      omega
    split
    · change 14 + ipHdrLen f + 8 + (upperLen f - 8) ≤ f.length
      omega
    · trivial
  split
  · obtain ⟨src, hsrc, -⟩ := rd32le_of_lt (f := f) (i := 26) (by omega)
    rw [hsrc, Option.map_some]
    exact ⟨_, rfl, hfits⟩
  · exact ⟨_, rfl, trivial⟩

lemma ipv4Upper_not_forService (hv : ValidIpv4 f) (hs : ¬ ForService f) :
    ipv4Upper f 14 (f.length - 14) = some .nothing := by
  rw [ipv4Upper_eq hv]
  simp only [ForService, not_or, not_and] at hs
  obtain ⟨htcp, hudp⟩ := hs
  split
  · rename_i hproto
    obtain ⟨hport, hdhcp, hdns⟩ := hudp hproto
    split
    · rfl
    rw [rd16be_eq_wordAt (by omega), Option.map_some, if_neg hdhcp, if_neg hdns]
  · rfl

lemma ipv4Upper_inside (hlen : 14 ≤ f.length) (htype : rd16be f 12 = some 0x0800)
    (hshort : ¬ ShortTotal f) : ∃ u, ipv4Upper f 14 (f.length - 14) = some u ∧ u.Inside f.length := by
  by_cases hv : ValidIpv4 f
  · by_cases hle : ipHdrLen f ≤ wordAt f 16
    · exact ipv4Upper_of_le hv hle
    · have hs : ¬ ForService f := fun hs => hshort ⟨hv, by omega, hs⟩
      exact ⟨_, ipv4Upper_not_forService hv hs, trivial⟩
  · exact ⟨_, ipv4Upper_invalid hlen htype hv, trivial⟩

lemma ipv4Upper_of_short (hshort : ShortTotal f) (hlen : f.length < 65536) :
    ipv4Upper f 14 (f.length - 14) = none ∨
      ∃ u, ipv4Upper f 14 (f.length - 14) = some u ∧ ¬ u.Inside f.length := by
  obtain ⟨hv, hlt, hs⟩ := hshort
  obtain ⟨hbig, hpast⟩ := upperLen_of_lt hlt hlen
  have hmin := hv.1
  rw [ipv4Upper_eq hv]
  rcases hs with htcp | ⟨hudp, hport⟩
  · -- the length of the segment has wrapped
    obtain ⟨src, hsrc, -⟩ := rd32le_of_lt (f := f) (i := 26) (by omega)
    rw [if_neg (by omega), if_pos htcp, hsrc, Option.map_some]
    exact Or.inr ⟨_, rfl, Nat.not_le.mpr hpast⟩
  · rw [if_pos hudp, if_neg (by omega)]
    by_cases hread : f.length < 14 + ipHdrLen f + 4
    · exact Or.inl (by rw [rd16be_none (by omega), Option.map_none])
    · -- the port is in the frame, the data length has wrapped
      right
      rw [rd16be_eq_wordAt (by omega), Option.map_some]
      refine ⟨_, rfl, ?_⟩
      split
      · change ¬ 14 + ipHdrLen f + 8 + (upperLen f - 8) ≤ f.length
        omega
      split
      · change ¬ 14 + ipHdrLen f + 8 + (upperLen f - 8) ≤ f.length
        omega
      · omega

lemma netRxFrame_ipv4 (hlen : 14 ≤ f.length) (htype : rd16be f 12 = some 0x0800) (s : NetState) :
    netRxFrame s f f.length = ipv4Handle s f 14 (f.length - 14) := by
  rw [netRxFrame, if_neg (by omega), htype]
  rfl

lemma netRxFrame_isSome (s : NetState) (hshort : ¬ ShortTotal f) :
    (netRxFrame s f f.length).isSome = true := by
  by_cases hlen : f.length < 14
  · rw [netRxFrame, if_pos hlen]
    rfl
  obtain ⟨type, htype, -⟩ := rd16be_of_lt (f := f) (i := 12) (by omega)
  by_cases hip : type = 0x0800
  · rw [hip] at htype
    obtain ⟨u, hu, hinside⟩ := ipv4Upper_inside (by omega) htype hshort
    rw [netRxFrame_ipv4 (by omega) htype, ipv4Handle, hu]
    exact Upper.handle_isSome hinside s
  · rw [netRxFrame, if_neg hlen, htype]
    simp only [Option.bind_eq_bind, Option.bind_some, Option.pure_def, hip, if_false]
    split
    · exact arpHandle_isSome (by omega) s
    · rfl

end Dispatch

/-- A frame is read inside its bounds, and only its own bytes are handed on, exactly when it is
not an IPv4 packet for the service with a total length below its header length. -/
theorem frameSafe_iff (s : NetState) (f : Buf) (hlen : f.length < 65536) :
    FrameSafe s f ↔ ¬ ShortTotal f := by
  constructor
  · rintro ⟨hreads, hinside⟩ hshort
    have hmin : 34 ≤ f.length := hshort.1.1
    have htype : rd16be f 12 = some 0x0800 := by
      rw [rd16be_eq_wordAt (by omega), hshort.1.2.1]
    rcases ipv4Upper_of_short hshort hlen with hnone | ⟨u, hu, hout⟩
    · rw [netRxFrame_ipv4 (by omega) htype, ipv4Handle, hnone] at hreads
      cases hreads
    · exact hout (hinside u ⟨by omega, htype, hu⟩)
  · intro hshort
    refine ⟨netRxFrame_isSome s hshort, ?_⟩
    rintro u ⟨hmin, htype, hu⟩
    obtain ⟨v, hv, hinside⟩ := ipv4Upper_inside hmin htype hshort
    rw [hu] at hv
    cases hv
    exact hinside

/-- A TCP packet of 20 bytes that gives its total length as `total`. -/
def bareTcpFrame (total : UInt8) : Buf :=
  List.replicate 12 0 ++ [8, 0] ++ [0x45, 0, 0, total, 0, 0, 0, 0, 64, 6] ++ List.replicate 10 0

theorem frameSafe_total_20 : FrameSafe NetState.zero (bareTcpFrame 20) :=
  (frameSafe_iff _ _ (by decide)).mpr (by decide)

/-- A total length of 0 makes `ipv4_handle` hand on a segment of 65516 bytes. -/
theorem not_frameSafe_total_0 :
    ¬ ∀ (s : NetState) (f : Buf), f.length < 65536 → FrameSafe s f := by
  intro h
  have hinside := (h NetState.zero (bareTcpFrame 0) (by decide)).2 (.tcp 34 65516 0)
    ⟨by decide, by decide, by decide⟩
  exact absurd hinside (by unfold Upper.Inside; decide)

end FusionOS.Net
