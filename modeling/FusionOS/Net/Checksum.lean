import FusionOS.Lib.WordSum
import FusionOS.Net.TcpSession

/-!
# Checksums of sent packets

Both checksums are computed with the high byte of each word first and stored as a native `u16`,
which puts the low byte first.
-/

namespace FusionOS.Net

open List

/-! ## The two loops -/

variable {data post pre : List UInt8} {sum : Nat}

lemma sumWords_eq (data : List UInt8) (h : sum < 2 ^ 32) :
    sumWords sum data = (sum + wordSum data) % 2 ^ 32 := by
  induction sum, data using sumWords.induct with
  | case1 sum a b rest ih =>
    rw [sumWords, ih (Nat.mod_lt _ (by decide)), wordSum, Nat.mod_add_mod]
    congr 1
    omega
  | case2 sum a => rw [sumWords, wordSum]
  | case3 sum => rw [sumWords, wordSum, Nat.add_zero, Nat.mod_eq_of_lt h]

lemma foldCarries_spec (sum : Nat) : foldCarries sum % 65535 = sum % 65535 ∧
    foldCarries sum ≤ 65535 ∧ (foldCarries sum = 0 → sum = 0) := by
  induction sum using foldCarries.induct with
  | case1 sum h =>
    rw [foldCarries, if_pos h]
    exact ⟨rfl, by omega, fun h0 => h0⟩
  | case2 sum h ih =>
    rw [foldCarries, if_neg h]
    refine ⟨?_, ih.2.1, fun h0 => ?_⟩
    · rw [ih.1]
      omega
    · have := ih.2.2 h0
      omega

lemma complement_eq_zero : 65535 - foldCarries sum = 0 ↔ 65535 ∣ sum ∧ sum ≠ 0 := by
  obtain ⟨hmod, hle, hzero⟩ := foldCarries_spec sum
  constructor
  · intro h
    have heq : foldCarries sum = 65535 := by omega
    rw [heq] at hmod
    refine ⟨Nat.dvd_of_mod_eq_zero hmod.symm, ?_⟩
    rintro rfl
    rw [foldCarries, if_pos rfl] at heq
    cases heq
  · rintro ⟨hdvd, hne⟩
    have hpos : foldCarries sum ≠ 0 := fun h0 => hne (hzero h0)
    rw [Nat.mod_eq_zero_of_dvd hdvd] at hmod
    omega

/-- A value whose high byte equals its low byte. -/
def Palindromic (c : Nat) : Prop := c % 256 = c / 256

instance (c : Nat) : Decidable (Palindromic c) := inferInstanceAs (Decidable (_ = _))

lemma complement_swapped (sum : Nat) :
    65535 - foldCarries (sum + swapWord (65535 - foldCarries sum)) = 0 ↔
      Palindromic (65535 - foldCarries sum) := by
  obtain ⟨hmod, hle, -⟩ := foldCarries_spec sum
  rw [complement_eq_zero, dvd_add_swapWord hmod (by omega)]
  refine ⟨And.left, fun h => ⟨h, fun h0 => ?_⟩⟩
  -- the empty sum has the checksum 65535, which is not lost
  have hsum : sum = 0 := by omega
  rw [hsum, foldCarries, if_pos rfl, Nat.zero_add] at h0
  exact absurd h0 (by decide)

lemma wordSum_le (data : List UInt8) : wordSum data ≤ 65535 * ((data.length + 1) / 2) := by
  induction data using wordSum.induct with
  | case1 a b rest ih =>
    have ha := a.toNat_lt
    have hb := b.toNat_lt
    rw [wordSum, length_cons, length_cons]
    omega
  | case2 a =>
    have ha := a.toNat_lt
    rw [wordSum, length_singleton]
    omega
  | case3 => exact Nat.le_refl 0

lemma sumWords_short
    (h : sum + 65535 * ((data.length + 1) / 2) < 2 ^ 32) :
    sumWords sum data = sum + wordSum data := by
  have := wordSum_le data
  rw [sumWords_eq data (by omega), Nat.mod_eq_of_lt (by omega)]

/-! ## The packets -/

lemma checksum16_stored (heven : pre.length % 2 = 0)
    (hlen : pre.length + post.length < 60000) {c : Nat}
    (hc : checksum16 (pre ++ ([0, 0] ++ post)) = c) :
    checksum16 (pre ++ (u16le c ++ post)) = 0 ↔ Palindromic c := by
  have hlt : c < 65536 := by
    rw [← hc, checksum16]
    omega
  have hshort : ∀ x : List UInt8, x.length = 2 →
      0 + 65535 * (((pre ++ (x ++ post)).length + 1) / 2) < 2 ^ 32 := by
    intro x hx
    rw [length_append, length_append]
    omega
  rw [checksum16, sumWords_short (hshort [0, 0] rfl), Nat.zero_add] at hc
  rw [checksum16, sumWords_short (hshort (u16le c) rfl), Nat.zero_add, u16le, wordSum_field heven hlt,
    ← hc]
  exact complement_swapped _

def ipv4Front (s : NetState) (proto len : Nat) : List UInt8 :=
  [0x45, 0] ++ u16be (20 + len) ++ u16be (s.ipId % 65536) ++ u16be 0x4000 ++ [64, UInt8.ofNat proto]

lemma ipv4Header_eq (s : NetState) (destIp proto len c : Nat) :
    ipv4Header s destIp proto len c =
      ipv4Front s proto len ++ (u16le c ++ (u32le s.localIp ++ u32le destIp)) := by
  simp only [ipv4Header, ipv4Front, append_assoc]

lemma drop_ipv4Header (s : NetState) (destIp proto len c : Nat) (payload : List UInt8) :
    (ipv4Header s destIp proto len c ++ payload).drop 20 = payload := drop_left' rfl

lemma checksum16_ipv4Header (s : NetState) (destIp proto len : Nat) :
    checksum16 (ipv4Header s destIp proto len (checksum16 (ipv4Header s destIp proto len 0))) = 0 ↔
      Palindromic (checksum16 (ipv4Header s destIp proto len 0)) := by
  have hfront : (ipv4Front s proto len).length = 10 := rfl
  have hback : (u32le s.localIp ++ u32le destIp).length = 8 := rfl
  rw [ipv4Header_eq s destIp proto len (checksum16 (ipv4Header s destIp proto len 0))]
  apply checksum16_stored
  · rw [hfront]
  · rw [hfront, hback]
    decide
  · rw [ipv4Header_eq]
    rfl

def tcpFront (c : TcpConn) (flags : Nat) : List UInt8 :=
  u16be c.srcPort ++ u16be c.destPort ++ u32be c.sndNxt ++ u32be c.rcvNxt ++
    u16be (5 * 4096 + flags) ++ u16be 4096

lemma tcpHeader_append (c : TcpConn) (flags checksum : Nat) (data : List UInt8) :
    tcpHeader c flags checksum ++ data = tcpFront c flags ++ (u16le checksum ++ ([0, 0] ++ data)) := by
  simp only [tcpHeader, tcpFront, append_assoc]

/-- The struct `pseudo` of `checksum_tcp`. -/
def pseudoHeader (src dst len : Nat) : List UInt8 := u32le src ++ u32le dst ++ [0, 6] ++ u16be len

lemma pseudoHeader_length (src dst len : Nat) : (pseudoHeader src dst len).length = 12 := rfl

lemma wordSum_pseudoHeader_le (src dst len : Nat) : wordSum (pseudoHeader src dst len) ≤ 65535 * 6 := by
  have hle := wordSum_le (pseudoHeader src dst len)
  rw [pseudoHeader_length] at hle
  exact hle

lemma checksumTcp_stored (src dst : Nat) (heven : pre.length % 2 = 0)
    (hlen : pre.length + post.length < 60000) {c : Nat}
    (hc : checksumTcp src dst (pre ++ ([0, 0] ++ post)) = c) :
    checksumTcp src dst (pre ++ (u16le c ++ post)) = 0 ↔ Palindromic c := by
  have hlt : c < 65536 := by
    rw [← hc, checksumTcp]
    omega
  have hlength : ∀ x : List UInt8, x.length = 2 → (pre ++ (x ++ post)).length = pre.length + 2 + post.length := by
    intro x hx
    rw [length_append, length_append, hx, Nat.add_assoc]
  have hpseudo : ∀ n, sumWords 0 (pseudoHeader src dst n) = wordSum (pseudoHeader src dst n) := by
    intro n
    rw [sumWords_short (by rw [pseudoHeader_length]; decide), Nat.zero_add]
  have hsum : ∀ x : List UInt8, x.length = 2 → checksumTcp src dst (pre ++ (x ++ post)) =
      65535 - foldCarries (wordSum (pseudoHeader src dst (pre.length + 2 + post.length)) +
        wordSum (pre ++ (x ++ post))) := by
    intro x hx
    have hw := wordSum_pseudoHeader_le src dst (pre.length + 2 + post.length)
    rw [checksumTcp, hlength x hx, ← pseudoHeader, hpseudo, sumWords_short]
    rw [hlength x hx]
    omega
  rw [hsum [0, 0] rfl] at hc
  rw [hsum (u16le c) rfl, u16le, wordSum_field heven hlt, ← Nat.add_assoc, ← hc]
  exact complement_swapped _

lemma checksumTcp_segment (src dst : Nat) (c : TcpConn) (flags : Nat)
    (hlen : data.length ≤ 1480) :
    checksumTcp src dst
        (tcpHeader c flags (checksumTcp src dst (tcpHeader c flags 0 ++ data)) ++ data) = 0 ↔
      Palindromic (checksumTcp src dst (tcpHeader c flags 0 ++ data)) := by
  have hfront : (tcpFront c flags).length = 16 := rfl
  rw [tcpHeader_append c flags (checksumTcp src dst (tcpHeader c flags 0 ++ data))]
  apply checksumTcp_stored
  · rw [hfront]
  · rw [hfront, length_append, length_cons, length_singleton]
    omega
  · rw [tcpHeader_append]
    rfl

/-! ## The frames -/

/-- Addresses of the hardware are arrays of six bytes. -/
structure MacSized (s : NetState) : Prop where
  own : s.localMac.length = 6
  cached : ∀ e ∈ s.arpCache, e.mac.length = 6

/-- `net_send_ipv4` accepts a payload of `len` bytes: it knows the next hop and the packet fits. -/
def Accepted (s : NetState) (destIp len : Nat) : Prop :=
  (destIp = 0xFFFFFFFF ∨ s.localIp = 0 ∨ (arpCacheLookup s (nextHop s destIp)).isSome) ∧
    20 + len ≤ 1500

instance (s : NetState) (destIp len : Nat) : Decidable (Accepted s destIp len) :=
  inferInstanceAs (Decidable (_ ∧ _))

def newFrames (s s' : NetState) : List (List UInt8) := s'.sent.drop s.sent.length

def IsIpv4 (frame : List UInt8) : Prop := (frame.drop 12).take 2 = u16be 0x0800

/-- Every IPv4 header that was sent sums up to 0. -/
def HeadersVerify (s s' : NetState) : Prop :=
  ∀ frame ∈ newFrames s s', IsIpv4 frame → checksum16 ((frame.drop 14).take 20) = 0

/-- Every TCP segment that was sent sums up to 0 with its pseudo header. -/
def SegmentsVerify (s s' : NetState) : Prop :=
  ∀ frame ∈ newFrames s s', IsIpv4 frame →
    checksumTcp s.localIp s.tcpConn.destIp (frame.drop 34) = 0

section Frames
variable {s : NetState}

variable {mac : List UInt8}

lemma arpCacheLookup_length (hm : MacSized s) {ip : Nat}
    (h : arpCacheLookup s ip = some mac) : mac.length = 6 := by
  obtain ⟨e, he, rfl⟩ := Option.map_eq_some_iff.mp h
  exact hm.cached e (mem_of_find?_eq_some he)

lemma frame_parts (hm : MacSized s) (hmac : mac.length = 6) (type : Nat)
    (payload : List UInt8) : ((mac ++ s.localMac ++ u16be type ++ payload).drop 12).take 2 = u16be type ∧
      ∀ n, (mac ++ s.localMac ++ u16be type ++ payload).drop (14 + n) = payload.drop n := by
  have haddr : (mac ++ s.localMac).length = 12 := by rw [length_append, hmac, hm.own]
  have hfull : (mac ++ s.localMac ++ u16be type).length = 14 := by rw [length_append, haddr]; rfl
  constructor
  · rw [append_assoc, ← haddr, drop_left]
    rfl
  · intro n
    rw [← hfull, drop_length_add_append]

lemma netSendIpv4_sent (hm : MacSized s) (destIp proto : Nat) (payload : List UInt8) :
    (Accepted s destIp payload.length → ∃ mac, mac.length = 6 ∧
      newFrames s (netSendIpv4 s destIp proto payload) = [mac ++ s.localMac ++ u16be 0x0800 ++
        (ipv4Header s destIp proto payload.length
          (checksum16 (ipv4Header s destIp proto payload.length 0)) ++ payload)]) ∧
    (¬ Accepted s destIp payload.length →
      ∀ frame ∈ newFrames s (netSendIpv4 s destIp proto payload), ¬ IsIpv4 frame) := by
  have hto : ∀ mac, 20 + payload.length ≤ 1500 →
      newFrames s (netSendIpv4To s mac destIp proto payload) = [mac ++ s.localMac ++ u16be 0x0800 ++
        (ipv4Header s destIp proto payload.length
          (checksum16 (ipv4Header s destIp proto payload.length 0)) ++ payload)] := by
    intro mac hfits
    unfold netSendIpv4To netSendFrame
    rw [if_neg (by omega)]
    dsimp only
    have hhead : ∀ c, (ipv4Header s destIp proto payload.length c).length = 20 := fun c => rfl
    rw [if_neg (by rw [length_append, hhead]; omega), newFrames, drop_left]
  have hlarge : ∀ mac, ¬ 20 + payload.length ≤ 1500 →
      newFrames s (netSendIpv4To s mac destIp proto payload) = [] := by
    intro mac hfits
    rw [netSendIpv4To, if_pos (by omega), newFrames, drop_length]
  unfold netSendIpv4
  split
  · rename_i hbroad
    refine ⟨fun h => ⟨broadcastMac, rfl, hto _ h.2⟩, fun h frame hframe => ?_⟩
    have hfits : ¬ 20 + payload.length ≤ 1500 := fun hf => h ⟨hbroad.imp_right Or.inl, hf⟩
    rw [hlarge _ hfits] at hframe
    cases hframe
  · rename_i hdirect
    split
    · rename_i mac hlook
      refine ⟨fun h => ⟨mac, arpCacheLookup_length hm hlook, hto _ h.2⟩, fun h frame hframe => ?_⟩
      have hfits : ¬ 20 + payload.length ≤ 1500 := fun hf =>
        h ⟨Or.inr (Or.inr (by rw [hlook]; rfl)), hf⟩
      rw [hlarge _ hfits] at hframe
      cases hframe
    · rename_i hlook
      constructor
      · rintro ⟨hknown, -⟩
        rw [hlook] at hknown
        rcases hknown with h | h | h
        · exact absurd (Or.inl h) hdirect
        · exact absurd (Or.inr h) hdirect
        · cases h
      · intro _ frame hframe hip
        unfold arpSendRequest netSendFrame newFrames at hframe
        split at hframe
        · rw [drop_length] at hframe
          cases hframe
        · rw [drop_left, mem_singleton] at hframe
          subst hframe
          have htype := (frame_parts hm (show broadcastMac.length = 6 from rfl) 0x0806
            (arpPacket s 1 (List.replicate 6 0) (nextHop s destIp))).1
          rw [IsIpv4, htype] at hip
          exact absurd hip (by decide)

lemma headersVerify_iff (hm : MacSized s) (destIp proto : Nat) (payload : List UInt8) :
    HeadersVerify s (netSendIpv4 s destIp proto payload) ↔
      (Accepted s destIp payload.length →
        Palindromic (checksum16 (ipv4Header s destIp proto payload.length 0))) := by
  obtain ⟨hsent, hnone⟩ := netSendIpv4_sent hm destIp proto payload
  by_cases hacc : Accepted s destIp payload.length
  · obtain ⟨mac, hmac, hframes⟩ := hsent hacc
    set c := checksum16 (ipv4Header s destIp proto payload.length 0) with hc
    obtain ⟨htype, hdrop⟩ := frame_parts hm hmac 0x0800
      (ipv4Header s destIp proto payload.length c ++ payload)
    have hhead : (ipv4Header s destIp proto payload.length c ++ payload).take 20 =
        ipv4Header s destIp proto payload.length c := take_left' rfl
    have hbytes := hdrop 0
    rw [drop_zero] at hbytes
    rw [HeadersVerify, hframes, forall_mem_singleton, IsIpv4, htype, hbytes, hhead,
      checksum16_ipv4Header]
    simp [hacc, hc]
  · refine ⟨fun _ h => absurd h hacc, fun _ frame hframe hip => ?_⟩
    exact absurd hip (hnone hacc frame hframe)

lemma segmentsVerify_iff (hm : MacSized s) (flags : Nat) (data : List UInt8) :
    SegmentsVerify s (tcpSendSegment s flags data) ↔
      (Accepted s s.tcpConn.destIp (20 + data.length) →
        Palindromic (checksumTcp s.localIp s.tcpConn.destIp (tcpHeader s.tcpConn flags 0 ++ data))) := by
  set c := checksumTcp s.localIp s.tcpConn.destIp (tcpHeader s.tcpConn flags 0 ++ data) with hc
  have hlen : (tcpHeader s.tcpConn flags c ++ data).length = 20 + data.length := by
    rw [length_append]
    rfl
  obtain ⟨hsent, hnone⟩ := netSendIpv4_sent hm s.tcpConn.destIp 6 (tcpHeader s.tcpConn flags c ++ data)
  rw [hlen] at hsent hnone
  by_cases hfits : 1500 < 20 + data.length
  · have hnot : ¬ Accepted s s.tcpConn.destIp (20 + data.length) := fun h => by have := h.2; omega
    rw [tcpSendSegment, if_pos hfits, SegmentsVerify, newFrames, drop_length]
    exact ⟨fun _ h => absurd h hnot, fun _ frame hframe => nomatch hframe⟩
  · have hframes : newFrames s (tcpSendSegment s flags data) =
        newFrames s (netSendIpv4 s s.tcpConn.destIp 6 (tcpHeader s.tcpConn flags c ++ data)) := by
      rw [tcpSendSegment, if_neg hfits]
      rfl
    rw [SegmentsVerify, hframes]
    by_cases hacc : Accepted s s.tcpConn.destIp (20 + data.length)
    · obtain ⟨mac, hmac, hone⟩ := hsent hacc
      have hshort : data.length ≤ 1480 := by have := hacc.2; omega
      obtain ⟨htype, hdrop⟩ := frame_parts hm hmac 0x0800 (ipv4Header s s.tcpConn.destIp 6
        (20 + data.length) (checksum16 (ipv4Header s s.tcpConn.destIp 6 (20 + data.length) 0)) ++
          (tcpHeader s.tcpConn flags c ++ data))
      have hbytes := hdrop 20
      rw [drop_ipv4Header] at hbytes
      rw [hone, forall_mem_singleton, IsIpv4, htype, hbytes, hc,
        checksumTcp_segment _ _ _ _ hshort]
      simp [hacc]
    · refine ⟨fun _ h => absurd h hacc, fun _ frame hframe hip => ?_⟩
      exact absurd hip (hnone hacc frame hframe)

/-- Headers and segments that are sent sum up to 0 exactly where the computed checksum has two
equal bytes. -/
theorem checksums_verify_iff (s : NetState) (hm : MacSized s) :
    (∀ destIp proto payload, HeadersVerify s (netSendIpv4 s destIp proto payload) ↔
      (Accepted s destIp payload.length →
        Palindromic (checksum16 (ipv4Header s destIp proto payload.length 0)))) ∧
    ∀ flags data, SegmentsVerify s (tcpSendSegment s flags data) ↔
      (Accepted s s.tcpConn.destIp (20 + data.length) →
        Palindromic (checksumTcp s.localIp s.tcpConn.destIp (tcpHeader s.tcpConn flags 0 ++ data))) :=
  ⟨headersVerify_iff hm, segmentsVerify_iff hm⟩

end Frames

/-- The state in which the header of an empty datagram has the checksum 0x2222. -/
def luckyNet : NetState := { onlineNet with ipId := 167 }

lemma luckyNet_macSized : MacSized luckyNet := ⟨rfl, by decide⟩

theorem checksums_verify_luckyNet :
    Accepted luckyNet serverIp 0 ∧ HeadersVerify luckyNet (netSendIpv4 luckyNet serverIp 17 []) :=
  ⟨by decide +kernel,
    ((checksums_verify_iff luckyNet luckyNet_macSized).1 serverIp 17 []).mpr fun _ => by decide +kernel⟩

/-- The first datagram and the first segment to the server go out with wrong checksums. -/
theorem not_checksums_verify_first : MacSized onlineNet ∧
    ¬ HeadersVerify onlineNet (netSendIpv4 onlineNet serverIp 17 []) ∧
    ¬ SegmentsVerify onlineSession.net (tcpSendSegment onlineSession.net 0x10 []) := by
  refine ⟨⟨rfl, by decide⟩, ?_, ?_⟩
  · intro h
    exact absurd (h _ mem_cons_self rfl) (by decide +kernel)
  · intro h
    exact absurd (h _ mem_cons_self rfl) (by decide +kernel)

end FusionOS.Net
