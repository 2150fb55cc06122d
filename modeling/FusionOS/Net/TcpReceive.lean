import FusionOS.Net.TcpSession
import Mathlib.Data.List.Infix

/-!
# The received byte stream

The peer sends a stream `S` in segments that may be lost, repeated, reordered and cut anew.
-/

namespace FusionOS.Net

open List

/-- A segment of the peer with initial sequence number `isn`: its data, if any, are bytes of the
stream at their sequence number. -/
def CarriesStream (S : List UInt8) (isn : Nat) (g : Segment) (data : List UInt8) : Prop :=
  if hasFlag g.flags flagSyn then g.seq = isn
  else data ≠ [] → ∃ off, g.seq = (isn + 1 + off) % 2 ^ 32 ∧ data <+: S.drop off

/-- Whatever comes from the peer's address and port carries the stream. Other segments and all
calls are free. -/
def PeerSends (S : List UInt8) (isn : Nat) (s : Session) : Event → Prop
  | .segment f srcIp => ∀ g, rdSegment f 0 = some g → fromPeer s.net.tcpConn g srcIp = true →
      CarriesStream S isn g (f.drop g.hdrLen)
  | _ => True

structure ConnReceives (S : List UInt8) (isn : Nat) (c : TcpConn) : Prop where
  stored : c.recvBuf <+: S
  fits : c.recvBuf.length ≤ tcpBufSize
  read : c.recvRead ≤ c.recvBuf.length
  expects : c.state = .established ∨ c.state = .finWait →
    c.rcvNxt = (isn + 1 + c.recvBuf.length) % 2 ^ 32
  fresh : c.state = .synSent → c.recvBuf = []

structure Receives (S : List UInt8) (isn : Nat) (s : Session) : Prop where
  conn : ConnReceives S isn s.net.tcpConn
  delivered : s.delivered = s.net.tcpConn.recvBuf.take s.net.tcpConn.recvRead

section Conn
variable {S : List UInt8} {isn : Nat} {c d : TcpConn}

variable {data : List UInt8} {n ticks : Nat} {g : Segment}

lemma ConnReceives.of_same (h : ConnReceives S isn c) (hd : SameReceive c d) :
    ConnReceives S isn d := by
  obtain ⟨hstate, hnxt, hbuf, hread⟩ := hd
  constructor
  · rw [hbuf]
    exact h.stored
  · rw [hbuf]
    exact h.fits
  · rw [hbuf, hread]
    exact h.read
  · rw [hbuf, hstate, hnxt]
    exact h.expects
  · rw [hbuf, hstate]
    exact h.fresh

lemma sameReceive_takeAck (c : TcpConn) (g : Segment) : SameReceive c (takeAck c g) := by
  unfold takeAck
  split <;> exact ⟨rfl, rfl, rfl, rfl⟩

lemma space_eq (h : n ≤ tcpBufSize) :
    (tcpBufSize + (2 ^ 32 - n)) % 2 ^ 32 = tcpBufSize - n := by
  unfold tcpBufSize at h ⊢
  omega

lemma available_eq (hfits : c.recvBuf.length ≤ tcpBufSize) (hread : c.recvRead ≤ c.recvBuf.length) :
    (c.recvBuf.length + (2 ^ 32 - c.recvRead)) % 2 ^ 32 = c.recvBuf.length - c.recvRead := by
  unfold tcpBufSize at hfits
  omega

lemma CarriesStream.at_next (hg : CarriesStream S isn g data)
    (hS : S.length < 2 ^ 32) (hdata : data ≠ []) (hn : n ≤ tcpBufSize)
    (hseq : g.seq = (isn + 1 + n) % 2 ^ 32) : data <+: S.drop n := by
  unfold CarriesStream at hg
  unfold tcpBufSize at hn
  split at hg
  · omega
  · obtain ⟨off, hoff, hbegins⟩ := hg hdata
    have hlen : off < S.length := by
      apply Nat.lt_of_not_le
      intro hge
      rw [drop_eq_nil_of_le hge] at hbegins
      exact hdata (prefix_nil.mp hbegins)
    have heq : off = n := by omega
    rwa [heq] at hbegins

lemma prefix_append_take {xs : List UInt8} (n : Nat) (hxs : xs <+: S)
    (hdata : data <+: S.drop xs.length) : xs ++ data.take n <+: S := by
  obtain ⟨rest, rfl⟩ := hxs
  rw [drop_left] at hdata
  exact (prefix_append_right_inj xs).mpr (( take_prefix n data).trans hdata)

lemma afterData_receives
    (h : ConnReceives S isn c) (hopen : c.state = .established ∨ c.state = .finWait)
    (hg : CarriesStream S isn g data) (hS : S.length < 2 ^ 32) :
    ConnReceives S isn (afterData c ticks g.seq data).1 := by
  unfold afterData
  split
  · rename_i htake
    have hdata : data ≠ [] := ne_nil_of_length_pos htake.1
    have hnext := h.expects hopen
    have hbegins := hg.at_next hS hdata h.fits (htake.2.trans hnext)
    apply ConnReceives.of_same _ (sameReceive_record _ _ _ _)
    rw [space_eq h.fits]
    have hlen : (data.take (min data.length (tcpBufSize - c.recvBuf.length))).length =
        min data.length (tcpBufSize - c.recvBuf.length) := by
      rw [length_take]
      omega
    have hfits := h.fits
    constructor
    · exact prefix_append_take _ h.stored hbegins
    · rw [length_append, hlen]
      omega
    · rw [length_append]
      exact Nat.le_add_right_of_le h.read
    · intro _
      rw [length_append, hlen]
      dsimp only
      omega
    · intro hsyn
      rcases hopen with hstate | hstate
      · rw [hstate] at hsyn
        cases hsyn
      · rw [hstate] at hsyn
        cases hsyn
  · exact h

lemma afterFin_receives (h : ConnReceives S isn c) :
    ConnReceives S isn (afterFin c ticks g n) := by
  unfold afterFin
  split
  · have hclosed : ∀ t : TcpState, (if c.state = .established then TcpState.closeWait else .closed) = t →
        t = .closeWait ∨ t = .closed := by
      intro t ht
      split at ht
      · exact Or.inl ht.symm
      · exact Or.inr ht.symm
    refine ⟨h.stored, h.fits, h.read, ?_, ?_⟩
    · rintro (hstate | hstate)
      · rcases hclosed _ hstate with ht | ht <;> cases ht
      · rcases hclosed _ hstate with ht | ht <;> cases ht
    · intro hstate
      rcases hclosed _ hstate with ht | ht <;> cases ht
  · exact h

lemma afterSegment_receives
    (h : ConnReceives S isn c) (hopen : c.state = .established ∨ c.state = .finWait)
    (hg : CarriesStream S isn g data) (hS : S.length < 2 ^ 32) :
    ConnReceives S isn (afterSegment c ticks g data) := by
  have hack := sameReceive_takeAck c g
  apply afterFin_receives
  apply afterData_receives (h.of_same hack) _ hg hS
  rwa [hack.state]

lemma afterSynAck_receives (h : ConnReceives S isn c)
    (hsyn : c.state = .synSent) (hseq : g.seq = isn) : ConnReceives S isn (afterSynAck c ticks g) := by
  apply ConnReceives.of_same _ (sameReceive_record _ _ _ _)
  refine ⟨h.stored, h.fits, h.read, ?_, ?_⟩
  · intro _
    rw [h.fresh hsyn, hseq]
    rfl
  · intro hstate
    cases hstate

end Conn

section Run
variable {S : List UInt8} {isn : Nat} {s t : Session}

variable {net : NetState}

lemma Receives.of_same (h : Receives S isn s) (hd : SameReceive s.net.tcpConn t.net.tcpConn)
    (hdel : t.delivered = s.delivered) : Receives S isn t := by
  refine ⟨h.conn.of_same hd, ?_⟩
  rw [hdel, hd.recvBuf, hd.recvRead]
  exact h.delivered

lemma afterSegment_appends (c : TcpConn) (ticks : Nat) (g : Segment) (data : List UInt8) :
    ∃ bytes, (afterSegment c ticks g data).recvBuf = c.recvBuf ++ bytes ∧
      (afterSegment c ticks g data).recvRead = c.recvRead := by
  have hfin : ∀ d n, (afterFin d ticks g n).recvBuf = d.recvBuf ∧
      (afterFin d ticks g n).recvRead = d.recvRead := by
    intro d n
    unfold afterFin
    split <;> exact ⟨rfl, rfl⟩
  obtain ⟨hbuf, hread⟩ := hfin (afterData (takeAck c g) ticks g.seq data).1
    (afterData (takeAck c g) ticks g.seq data).2
  have hack := sameReceive_takeAck c g
  rw [afterSegment, hbuf, hread]
  unfold afterData
  split
  · exact ⟨_, by rw [← hack.recvBuf]; rfl, hack.recvRead⟩
  · exact ⟨[], by rw [hack.recvBuf, append_nil], hack.recvRead⟩

lemma receives_segment {f : Buf} {srcIp : Nat} (hS : S.length < 2 ^ 32)
    (h : Receives S isn s) (hpeer : PeerSends S isn s (.segment f srcIp))
    (hrun : tcpHandle s.net f 0 f.length srcIp = some net) (acked : Nat) :
    Receives S isn { s with net := net, acked := acked } := by
  rcases tcpHandle_cases hrun with ⟨rfl, -⟩ | ⟨g, hsyn, -, hg, hfrom, hflag, -, -, hconn⟩ | ⟨g, hg, hconn⟩
  · exact ⟨h.conn, h.delivered⟩
  · have hseq : g.seq = isn := by
      have hcarries := hpeer g hg hfrom
      rwa [CarriesStream, if_pos hflag] at hcarries
    constructor
    · rw [hconn]
      exact afterSynAck_receives h.conn hsyn hseq
    · rw [hconn]
      exact h.delivered
  · obtain ⟨hrd, hopen, -, -, hfrom⟩ := peerSegment_some.mp hg
    constructor
    · rw [hconn]
      exact afterSegment_receives h.conn hopen (hpeer g hrd hfrom) hS
    · obtain ⟨bytes, hbuf, hread⟩ := afterSegment_appends s.net.tcpConn s.net.ticks g (f.drop g.hdrLen)
      dsimp only
      rw [hconn, hbuf, hread, take_append_of_le_length h.conn.read]
      exact h.delivered

lemma receives_recv (h : Receives S isn s) (max : Nat) :
    Receives S isn { s with
      net := (netTcpRecv s.net max).1, delivered := s.delivered ++ (netTcpRecv s.net max).2 } := by
  have hread := h.conn.read
  simp only [netTcpRecv, available_eq h.conn.fits hread]
  constructor
  · refine ⟨h.conn.stored, h.conn.fits, ?_, h.conn.expects, h.conn.fresh⟩
    dsimp only
    omega
  · dsimp only
    rw [h.delivered, ← take_add]

lemma receives_close (h : Receives S isn s) : Receives S isn { s with net := netTcpClose s.net } := by
  unfold netTcpClose
  split
  · rename_i hstate
    obtain ⟨-, hnxt, hbuf, hread⟩ := tcpSendSegment_same s.net (flagFin + flagAck) []
    have hconn : ConnReceives S isn
        { (tcpSendSegment s.net (flagFin + flagAck) []).tcpConn with state := .finWait } := by
      constructor
      · dsimp only
        rw [hbuf]
        exact h.conn.stored
      · dsimp only
        rw [hbuf]
        exact h.conn.fits
      · dsimp only
        rw [hbuf, hread]
        exact h.conn.read
      · intro _
        dsimp only
        rw [hbuf, hnxt]
        exact h.conn.expects (Or.inl hstate)
      · intro hsyn
        cases hsyn
    refine ⟨hconn, ?_⟩
    dsimp only
    rw [hbuf, hread]
    exact h.delivered
  · exact h

lemma receives_step (hS : S.length < 2 ^ 32) {e : Event} (h : Receives S isn s)
    (hpeer : PeerSends S isn s e) (hstep : s.step e = some t) : Receives S isn t := by
  cases e with
  | segment f srcIp =>
    obtain ⟨net, hrun, rfl⟩ := Option.map_eq_some_iff.mp hstep
    exact receives_segment hS h hpeer hrun _
  | send data =>
    cases hstep
    exact h.of_same (netTcpSend_same _ _) rfl
  | recv max =>
    cases hstep
    exact receives_recv h max
  | close =>
    cases hstep
    exact receives_close h
  | tick n =>
    cases hstep
    exact ⟨h.conn, h.delivered⟩
  | timers =>
    cases hstep
    exact h.of_same (netTimers_same s.net) rfl

lemma connect_receives {destIp destPort : Nat}
    (hconn : (netTcpConnect net destIp destPort).2 = true) :
    Receives S isn (Session.connect net destIp destPort) := by
  unfold netTcpConnect at hconn
  split at hconn
  · rename_i hup
    unfold Session.connect netTcpConnect
    rw [if_pos hup]
    dsimp only
    refine ⟨?_, ?_⟩
    · rw [tcpSendSegment_nil_tcpConn]
      apply ConnReceives.of_same _ (sameReceive_record _ _ _ _)
      refine ⟨ nil_prefix, Nat.zero_le _, le_rfl, ?_, fun _ => rfl⟩
      rintro (hstate | hstate)
      · cases hstate
      · cases hstate
    · rw [tcpSendSegment_nil_tcpConn]
      rfl
  · cases hconn

variable (S isn) in
/-- In every run after `net_tcp_connect` in which the peer's segments carry bytes of the stream `S`
at their sequence numbers, the application has read a beginning of `S`. -/
theorem delivered_prefix {net : NetState} {destIp destPort : Nat} {events : List Event}
    (hconn : (netTcpConnect net destIp destPort).2 = true) (hS : S.length < 2 ^ 32)
    (hpeer : Along Session.step (PeerSends S isn) (Session.connect net destIp destPort) events)
    (hrun : Run Session.step (Session.connect net destIp destPort) events s) :
    s.delivered <+: S ∧ s.net.tcpConn.recvRead ≤ s.net.tcpConn.recvBuf.length ∧
      s.net.tcpConn.recvBuf.length ≤ 65536 := by
  have hend : Receives S isn s := hrun.invariant_along (Receives S isn)
    (fun _ _ _ hi hsends hstep => receives_step hS hi hsends hstep) (connect_receives hconn) hpeer
  refine ⟨?_, hend.conn.read, hend.conn.fits⟩
  rw [hend.delivered]
  exact ( take_prefix _ _).trans hend.conn.stored

end Run

lemma peerSends_segment {S : List UInt8} {isn : Nat} {s : Session} {f : Buf} {srcIp : Nat} {g : Segment}
    (hg : rdSegment f 0 = some g) (hc : CarriesStream S isn g (f.drop g.hdrLen)) :
    PeerSends S isn s (.segment f srcIp) := by
  intro g' hg' _
  rw [hg] at hg'
  cases hg'
  exact hc

/-- The second half of the stream arrives first and is dropped. -/
def reordered : List Event :=
  [.segment (serverSegment 500 0xA5A5C4 0x12 []) serverIp,
    .segment (serverSegment 503 0xA5A5C4 0x10 [3, 4, 5]) serverIp,
    .segment (serverSegment 501 0xA5A5C4 0x10 [1, 2, 3]) serverIp, .recv 2]

theorem delivered_prefix_reordered :
    ∃ s, exec Session.step onlineSession reordered = some s ∧ s.delivered <+: [1, 2, 3, 4, 5] := by
  obtain ⟨s, hs, hrun⟩ := onlineSession_exec reordered (by decide +kernel)
  have hlate : rdSegment (serverSegment 503 0xA5A5C4 0x10 [3, 4, 5]) 0 =
      some ⟨80, 1024, 503, 0xA5A5C4, 0x10, 20⟩ := by decide +kernel
  have hfirst : rdSegment (serverSegment 501 0xA5A5C4 0x10 [1, 2, 3]) 0 =
      some ⟨80, 1024, 501, 0xA5A5C4, 0x10, 20⟩ := by decide +kernel
  refine ⟨s, hs, ( delivered_prefix [1, 2, 3, 4, 5] 500 (by decide) (by decide) ?_ hrun).1⟩
  refine ⟨peerSends_segment rdSegment_synAck rfl, fun _ _ => ⟨peerSends_segment hlate ?_, fun _ _ =>
    ⟨peerSends_segment hfirst ?_, fun _ _ => ⟨trivial, fun _ _ => trivial⟩⟩⟩⟩
  · exact fun _ => ⟨2, by decide, by decide⟩
  · exact fun _ => ⟨0, by decide, by decide⟩

end FusionOS.Net
