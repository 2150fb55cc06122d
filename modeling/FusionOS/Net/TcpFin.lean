import FusionOS.Net.TcpReceive

/-!
# The end of the received stream

The peer's stream `S` ends with a FIN behind its last byte. The client takes a FIN wherever it
stands: the test that guards the data does not guard the FIN, and data that did not fit are counted
as taken.
-/

namespace FusionOS.Net

open List

/-- A segment of a peer that ends the stream `S` with a FIN: its data are bytes of the stream at
their sequence number, and a FIN follows the last byte. -/
def CarriesEnd (S : List UInt8) (isn : Nat) (g : Segment) (data : List UInt8) : Prop :=
  if hasFlag g.flags flagSyn then g.seq = isn ∧ hasFlag g.flags flagFin = false
  else data ≠ [] ∨ hasFlag g.flags flagFin = true → ∃ off, g.seq = (isn + 1 + off) % 2 ^ 32 ∧
    data <+: S.drop off ∧ (hasFlag g.flags flagFin = true → off + data.length = S.length)

/-- Whatever comes from the peer's address and port is part of the stream or its end. -/
def PeerEnds (S : List UInt8) (isn : Nat) (s : Session) : Event → Prop
  | .segment f srcIp => ∀ g, rdSegment f 0 = some g → fromPeer s.net.tcpConn g srcIp = true →
      CarriesEnd S isn g (f.drop g.hdrLen)
  | _ => True

def TcpConn.Open (c : TcpConn) : Prop := c.state = .established ∨ c.state = .finWait

/-- If the event ends the receiving direction, all of the stream has been stored. -/
def StoresAll (S : List UInt8) (s : Session) (e : Event) : Prop :=
  ∀ t, s.step e = some t → s.net.tcpConn.Open →
    t.net.tcpConn.state = .closeWait ∨ t.net.tcpConn.state = .closed → t.net.tcpConn.recvBuf = S

/-- A FIN comes when the stream is stored, or in order at the end of a stream that fits the buffer. -/
def FinInOrder (S : List UInt8) (s : Session) : Event → Prop
  | .segment f srcIp =>
    match peerSegment s.net.tcpConn f srcIp with
    | some g => hasFlag g.flags flagFin = true → s.net.tcpConn.recvBuf = S ∨
        g.seq = s.net.tcpConn.rcvNxt ∧ S.length ≤ tcpBufSize
    | none => True
  | _ => True

instance (c : TcpConn) : Decidable c.Open :=
  inferInstanceAs (Decidable (c.state = .established ∨ c.state = .finWait))

instance (S : List UInt8) (s : Session) (e : Event) : Decidable (StoresAll S s e) :=
  match h : s.step e with
  | none => isTrue fun t ht => by cases h.symm.trans ht
  | some t =>
    decidable_of_iff (s.net.tcpConn.Open →
      t.net.tcpConn.state = .closeWait ∨ t.net.tcpConn.state = .closed → t.net.tcpConn.recvBuf = S)
      ⟨fun hall u hu => by cases h.symm.trans hu; exact hall, fun hall => hall t h⟩

variable {S : List UInt8} {s : Session}

lemma finInOrder_segment {f : Buf} {srcIp : Nat} :
    FinInOrder S s (.segment f srcIp) ↔ ∀ g, peerSegment s.net.tcpConn f srcIp = some g →
      hasFlag g.flags flagFin = true → s.net.tcpConn.recvBuf = S ∨
        g.seq = s.net.tcpConn.rcvNxt ∧ S.length ≤ tcpBufSize := by
  unfold FinInOrder
  dsimp only
  split
  · rename_i g hg
    simp only [hg, Option.some.injEq, forall_eq']
  · rename_i hg
    simp [hg]

instance (S : List UInt8) (s : Session) : (e : Event) → Decidable (FinInOrder S s e)
  | .segment _ _ => decidable_of_iff _ finInOrder_segment.symm
  | .send _ => isTrue trivial
  | .recv _ => isTrue trivial
  | .close => isTrue trivial
  | .tick _ => isTrue trivial
  | .timers => isTrue trivial

section Segment
variable {S : List UInt8} {isn : Nat}

variable {data : List UInt8} {g : Segment} {c : TcpConn}

lemma CarriesEnd.carriesStream (h : CarriesEnd S isn g data) :
    CarriesStream S isn g data := by
  unfold CarriesEnd at h
  unfold CarriesStream
  split at h
  · rename_i hsyn
    rw [if_pos hsyn]
    exact h.1
  · rename_i hsyn
    rw [if_neg hsyn]
    intro hdata
    obtain ⟨off, hseq, hbegins, -⟩ := h (Or.inl hdata)
    exact ⟨off, hseq, hbegins⟩

lemma PeerEnds.peerSends {s : Session} {e : Event} (h : PeerEnds S isn s e) :
    PeerSends S isn s e := by
  cases e with
  | segment f srcIp => exact fun g hg hfrom => (h g hg hfrom).carriesStream
  | _ => trivial

lemma CarriesEnd.fin (h : CarriesEnd S isn g data)
    (hfin : hasFlag g.flags flagFin = true) :
    ∃ off, g.seq = (isn + 1 + off) % 2 ^ 32 ∧ off + data.length = S.length ∧ data = S.drop off := by
  unfold CarriesEnd at h
  split at h
  · rw [h.2] at hfin
    cases hfin
  · obtain ⟨off, hseq, hbegins, hend⟩ := h (Or.inr hfin)
    have hlen := hend hfin
    refine ⟨off, hseq, hlen, hbegins.eq_of_length ?_⟩
    rw [length_drop]
    omega

lemma afterData_eq_stream (hS : S.length < 2 ^ 32) (hc : ConnReceives S isn c)
    (hopen : c.Open) (ticks : Nat) (hg : CarriesEnd S isn g data)
    (hfin : hasFlag g.flags flagFin = true) :
    (afterData c ticks g.seq data).1.recvBuf = S ↔
      c.recvBuf = S ∨ g.seq = c.rcvNxt ∧ S.length ≤ tcpBufSize := by
  obtain ⟨off, hseq, hlen, hdata⟩ := hg.fin hfin
  obtain ⟨rest, hrest⟩ := hc.stored
  have hfits : c.recvBuf.length ≤ 65536 := hc.fits
  have hsize := congrArg List.length hrest
  rw [length_append] at hsize
  rw [hc.expects hopen]
  -- in order, the data start where the buffer ends
  have hnext : g.seq = (isn + 1 + c.recvBuf.length) % 2 ^ 32 → off = c.recvBuf.length := by
    intro h
    omega
  unfold afterData
  rw [hc.expects hopen, space_eq hc.fits]
  by_cases htake : 0 < data.length ∧ g.seq = (isn + 1 + c.recvBuf.length) % 2 ^ 32
  · rw [if_pos htake]
    have hoff := hnext htake.2
    have hwhole : c.recvBuf ++ data = S := by
      rw [hdata, hoff, ← hrest, drop_left]
    constructor
    · intro h
      refine Or.inr ⟨htake.2, ?_⟩
      have h' := congrArg List.length h
      simp only [recordSegment, length_append, length_take] at h'
      unfold tcpBufSize at h' ⊢
      omega
    · rintro (h | ⟨-, h⟩)
      · have h' := congrArg List.length h
        omega
      · have hmin : min data.length (tcpBufSize - c.recvBuf.length) = data.length := by omega
        simp only [hmin, recordSegment, take_length]
        exact hwhole
  · rw [if_neg htake]
    constructor
    · exact Or.inl
    · rintro (h | ⟨h, -⟩)
      · exact h
      · have hoff := hnext h
        have hnil : rest = [] := by
          apply eq_nil_of_length_eq_zero
          have : ¬ 0 < data.length := fun hpos => htake ⟨hpos, h⟩
          omega
        rw [← hrest, hnil, append_nil]

lemma afterSegment_recvBuf (c : TcpConn) (ticks : Nat) (g : Segment) (data : List UInt8) :
    (afterSegment c ticks g data).recvBuf = (afterData (takeAck c g) ticks g.seq data).1.recvBuf := by
  unfold afterSegment afterFin
  split <;> rfl

lemma afterSegment_fits (h : c.recvBuf.length ≤ tcpBufSize) (ticks : Nat) (g : Segment)
    (data : List UInt8) : (afterSegment c ticks g data).recvBuf.length ≤ tcpBufSize := by
  have hack := (sameReceive_takeAck c g).recvBuf
  rw [afterSegment_recvBuf]
  unfold afterData
  rw [hack, space_eq h]
  split
  · simp only [recordSegment, length_append, length_take]
    omega
  · rwa [hack]

lemma afterSegment_closes (hopen : c.Open) (ticks : Nat) (g : Segment) (data : List UInt8) :
    ((afterSegment c ticks g data).state = .closeWait ∨ (afterSegment c ticks g data).state = .closed) ↔
      hasFlag g.flags flagFin = true := by
  have hstate : (afterData (takeAck c g) ticks g.seq data).1.state = c.state := by
    rw [afterData_state, takeAck_state]
  unfold afterSegment afterFin
  split
  · rename_i hfin
    rw [iff_true_right hfin]
    dsimp only
    split
    · exact Or.inl rfl
    · exact Or.inr rfl
  · rename_i hfin
    rw [iff_false_right hfin, hstate]
    rcases hopen with h | h
    · simp [h]
    · simp [h]

end Segment

section Run
variable {S : List UInt8} {isn : Nat} {s t : Session}

variable {e : Event} {g : Segment}

lemma step_receive (hstep : s.step e = some t) :
    (∃ f srcIp g, e = .segment f srcIp ∧ peerSegment s.net.tcpConn f srcIp = some g ∧
      t.net.tcpConn = afterSegment s.net.tcpConn s.net.ticks g (f.drop g.hdrLen)) ∨
    ((∀ f srcIp, e = .segment f srcIp → peerSegment s.net.tcpConn f srcIp = none) ∧
      t.net.tcpConn.recvBuf = s.net.tcpConn.recvBuf ∧ (s.net.tcpConn.Open → t.net.tcpConn.Open)) := by
  have hsame : SameReceive s.net.tcpConn t.net.tcpConn → (∀ f srcIp, e ≠ .segment f srcIp) →
      (∀ f srcIp, e = .segment f srcIp → peerSegment s.net.tcpConn f srcIp = none) ∧
        t.net.tcpConn.recvBuf = s.net.tcpConn.recvBuf ∧ (s.net.tcpConn.Open → t.net.tcpConn.Open) := by
    intro h hne
    refine ⟨fun f srcIp he => absurd he (hne f srcIp), h.recvBuf, ?_⟩
    unfold TcpConn.Open
    rw [h.state]
    exact id
  cases e with
  | segment f srcIp =>
    obtain ⟨net, hrun, rfl⟩ := Option.map_eq_some_iff.mp hstep
    rcases tcpHandle_cases hrun with ⟨rfl, hno⟩ | ⟨g, hsyn, hno, -, -, -, -, -, hconn⟩ | ⟨g, hg, hconn⟩
    · refine Or.inr ⟨?_, rfl, id⟩
      rintro _ _ ⟨⟩
      exact hno
    · refine Or.inr ⟨?_, ?_, ?_⟩
      · rintro _ _ ⟨⟩
        exact hno
      · rw [hconn]
        rfl
      · intro hopen
        rcases hopen with h | h
        · rw [hsyn] at h
          cases h
        · rw [hsyn] at h
          cases h
    · exact Or.inl ⟨f, srcIp, g, rfl, hg, hconn⟩
  | send data =>
    cases hstep
    exact Or.inr (hsame (netTcpSend_same _ _) (fun _ _ h => by cases h))
  | recv max =>
    cases hstep
    exact Or.inr ⟨(fun _ _ h => by cases h), rfl, id⟩
  | close =>
    cases hstep
    refine Or.inr ⟨(fun _ _ h => by cases h), ?_⟩
    dsimp only
    unfold netTcpClose
    split
    · exact ⟨(tcpSendSegment_same s.net (flagFin + flagAck) []).recvBuf, fun _ => Or.inr rfl⟩
    · exact ⟨rfl, id⟩
  | tick n =>
    cases hstep
    exact Or.inr ⟨(fun _ _ h => by cases h), rfl, id⟩
  | timers =>
    cases hstep
    exact Or.inr (hsame (netTimers_same s.net) (fun _ _ h => by cases h))

/-- What holds of the receive side all along: a stream of 2 ^ 32 bytes and more wraps around the
sequence numbers, and of those only the bound of the buffer is known. -/
structure Collects (S : List UInt8) (isn : Nat) (s : Session) : Prop where
  fits : s.net.tcpConn.recvBuf.length ≤ tcpBufSize
  receives : S.length < 2 ^ 32 → Receives S isn s

lemma collects_step (h : Collects S isn s) (hpeer : PeerEnds S isn s e)
    (hstep : s.step e = some t) : Collects S isn t := by
  refine ⟨?_, fun hS => receives_step hS (h.receives hS) hpeer.peerSends hstep⟩
  rcases step_receive hstep with ⟨f, srcIp, g, -, -, hconn⟩ | ⟨-, hbuf, -⟩
  · rw [hconn]
    exact afterSegment_fits h.fits _ _ _
  · rw [hbuf]
    exact h.fits

lemma connect_collects {net : NetState} {destIp destPort : Nat}
    (hconn : (netTcpConnect net destIp destPort).2 = true) :
    Collects S isn (Session.connect net destIp destPort) := by
  refine ⟨?_, fun _ => connect_receives hconn⟩
  have hempty : Receives [] isn (Session.connect net destIp destPort) := connect_receives hconn
  exact hempty.conn.fits

lemma afterSegment_eq_stream {f : Buf} {srcIp : Nat} (h : Collects S isn s)
    (hpeer : PeerEnds S isn s (.segment f srcIp)) (hg : peerSegment s.net.tcpConn f srcIp = some g)
    (hfin : hasFlag g.flags flagFin = true) :
    (afterSegment s.net.tcpConn s.net.ticks g (f.drop g.hdrLen)).recvBuf = S ↔
      s.net.tcpConn.recvBuf = S ∨ g.seq = s.net.tcpConn.rcvNxt ∧ S.length ≤ tcpBufSize := by
  obtain ⟨hrd, hopen, -, -, hfrom⟩ := peerSegment_some.mp hg
  by_cases hS : S.length < 2 ^ 32
  · have hack := sameReceive_takeAck s.net.tcpConn g
    have hopen' : (takeAck s.net.tcpConn g).Open := by
      unfold TcpConn.Open
      rwa [hack.state]
    have hbuf := afterData_eq_stream hS ((h.receives hS).conn.of_same hack) hopen' s.net.ticks
      (hpeer g hrd hfrom) hfin
    rw [hack.recvBuf, hack.rcvNxt] at hbuf
    rw [afterSegment_recvBuf]
    exact hbuf
  · -- such a stream is longer than the buffer
    have hafter := afterSegment_fits h.fits s.net.ticks g (f.drop g.hdrLen)
    have hbefore := h.fits
    unfold tcpBufSize at hafter hbefore ⊢
    constructor
    · intro heq
      rw [heq] at hafter
      omega
    · rintro (heq | ⟨-, hle⟩)
      · rw [heq] at hbefore
        omega
      · omega

lemma step_peerSegment {f : Buf} {srcIp : Nat}
    (hg : peerSegment s.net.tcpConn f srcIp = some g) : ∃ t, s.step (.segment f srcIp) = some t := by
  obtain ⟨hrd, hopen, hmin, hmax, hfrom⟩ := peerSegment_some.mp hg
  obtain ⟨net, n, hdata, -, -⟩ := takeData_eq (g := g)
    (s := { s.net with tcpConn := takeAck s.net.tcpConn g }) hmax
  have hrun : tcpHandleOpen s.net f 0 f.length g srcIp = some (takeFin net g n) := by
    rw [tcpHandleOpen, if_pos hfrom, Nat.zero_add, hdata, Option.map_some]
  refine ⟨{ s with net := takeFin net g n, acked := s.ackedBy f srcIp }, ?_⟩
  apply Option.map_eq_some_iff.mpr
  refine ⟨takeFin net g n, ?_, rfl⟩
  rw [tcpHandle, if_neg (by omega), hrd, Option.bind_some, if_neg (by omega)]
  rcases hopen with hstate | hstate
  · rw [hstate]
    exact hrun
  · rw [hstate]
    exact hrun

lemma storesAll_iff_finInOrder (h : Collects S isn s) (hpeer : PeerEnds S isn s e) :
    StoresAll S s e ↔ FinInOrder S s e := by
  constructor
  · intro hall
    cases e with
    | segment f srcIp =>
      apply finInOrder_segment.mpr
      intro g hg hfin
      obtain ⟨t, ht⟩ := step_peerSegment hg
      have hopen := (peerSegment_some.mp hg).2.1
      apply (afterSegment_eq_stream h hpeer hg hfin).mp
      rcases step_receive ht with ⟨f', srcIp', g', ⟨⟩, hg', hconn⟩ | ⟨hno, -⟩
      · cases hg.symm.trans hg'
        rw [← hconn]
        apply hall t ht hopen
        rw [hconn]
        exact (afterSegment_closes hopen _ _ _).mpr hfin
      · rw [hno f srcIp rfl] at hg
        cases hg
    | _ => trivial
  · intro horder t hstep hopen hclosed
    rcases step_receive hstep with ⟨f, srcIp, g, rfl, hg, hconn⟩ | ⟨-, -, hstays⟩
    · rw [hconn] at hclosed ⊢
      have hfin := (afterSegment_closes hopen _ _ _).mp hclosed
      apply (afterSegment_eq_stream h hpeer hg hfin).mpr
      exact finInOrder_segment.mp horder g hg hfin
    · rcases hstays hopen with hstate | hstate
      · rw [hstate] at hclosed
        simp at hclosed
      · rw [hstate] at hclosed
        simp at hclosed

variable (S isn) in
/-- In a run after `net_tcp_connect` whose peer sends the stream `S` with a FIN behind it, the
connection leaves its open states only with all of `S` stored just when every FIN comes when the
stream is stored, or in order at the end of a stream that fits the receive buffer. -/
theorem stores_all_iff {net : NetState} {destIp destPort : Nat} {events : List Event}
    (hconn : (netTcpConnect net destIp destPort).2 = true)
    (hpeer : Along Session.step (PeerEnds S isn) (Session.connect net destIp destPort) events) :
    Along Session.step (StoresAll S) (Session.connect net destIp destPort) events ↔
      Along Session.step (FinInOrder S) (Session.connect net destIp destPort) events :=
  hpeer.iff_of_invariant (Collects S isn) (fun _ _ _ hi hp _ hstep => collects_step hi hp hstep)
    (fun _ _ hi hp => storesAll_iff_finInOrder hi hp) (connect_collects hconn)

end Run

lemma peerEnds_segment {isn : Nat} {f : Buf} {srcIp : Nat} {g : Segment}
    (hg : rdSegment f 0 = some g) (hc : CarriesEnd S isn g (f.drop g.hdrLen)) :
    PeerEnds S isn s (.segment f srcIp) := by
  intro g' hg' _
  rw [hg] at hg'
  cases hg'
  exact hc

/-- The stream and its FIN in one segment. -/
def streamWithFin : List Event :=
  [.segment (serverSegment 500 0xA5A5C4 0x12 []) serverIp,
    .segment (serverSegment 501 0xA5A5C4 0x11 [1, 2, 3]) serverIp]

theorem stores_all_streamWithFin :
    Along Session.step (StoresAll [1, 2, 3]) onlineSession streamWithFin := by
  have hfin : rdSegment (serverSegment 501 0xA5A5C4 0x11 [1, 2, 3]) 0 =
      some ⟨80, 1024, 501, 0xA5A5C4, 0x11, 20⟩ := by decide +kernel
  apply (stores_all_iff [1, 2, 3] 500 (by decide) ?_).mpr
  · decide +kernel
  · refine ⟨peerEnds_segment rdSegment_synAck ⟨rfl, rfl⟩, fun _ _ =>
      ⟨peerEnds_segment hfin ?_, fun _ _ => trivial⟩⟩
    exact fun _ => ⟨0, by decide, by decide, by decide⟩

/-- The FIN overtakes the data. -/
def finFirst : List Event :=
  [.segment (serverSegment 500 0xA5A5C4 0x12 []) serverIp,
    .segment (serverSegment 504 0xA5A5C4 0x11 []) serverIp]

theorem not_stores_all_finFirst :
    Along Session.step (PeerEnds [1, 2, 3] 500) onlineSession finFirst ∧
      ¬ Along Session.step (StoresAll [1, 2, 3]) onlineSession finFirst := by
  have hfin : rdSegment (serverSegment 504 0xA5A5C4 0x11 []) 0 =
      some ⟨80, 1024, 504, 0xA5A5C4, 0x11, 20⟩ := by decide +kernel
  refine ⟨?_, by decide +kernel⟩
  refine ⟨peerEnds_segment rdSegment_synAck ⟨rfl, rfl⟩, fun _ _ =>
    ⟨peerEnds_segment hfin ?_, fun _ _ => trivial⟩⟩
  exact fun _ => ⟨3, by decide, by decide, by decide⟩

end FusionOS.Net
