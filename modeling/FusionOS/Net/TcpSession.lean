import FusionOS.Net.Stack
import FusionOS.Lib.Run

/-!
# Runs of the TCP client

A session is the network state after `net_tcp_connect` with a record of what the application and
the peer have done: the bytes that `net_tcp_send` accepted, how many of them the peer has
acknowledged, and the bytes that `net_tcp_recv` returned.
-/

namespace FusionOS.Net

inductive Event where
  | segment (f : Buf) (srcIp : Nat)
  | send (data : List UInt8)
  | recv (max : Nat)
  | close
  | tick (n : Nat)
  | timers

/-- `base` is the sequence number of the first byte that the application sends. -/
structure Session where
  net : NetState
  base : Nat
  accepted : List UInt8
  acked : Nat
  delivered : List UInt8

def peerSegment (c : TcpConn) (f : Buf) (srcIp : Nat) : Option Segment :=
  (rdSegment f 0).filter fun g =>
    decide (c.state = .established ∨ c.state = .finWait) && decide (20 ≤ g.hdrLen) &&
      decide (g.hdrLen ≤ f.length) && fromPeer c g srcIp

def Session.ackedBy (s : Session) (f : Buf) (srcIp : Nat) : Nat :=
  match peerSegment s.net.tcpConn f srcIp with
  | some g =>
    let n := (g.ack + (2 ^ 32 - s.base)) % 2 ^ 32
    if hasFlag g.flags flagAck && decide (s.acked ≤ n) && decide (n ≤ s.accepted.length) then n
    else s.acked
  | none => s.acked

def Session.connect (s : NetState) (destIp destPort : Nat) : Session :=
  let net := (netTcpConnect s destIp destPort).1
  ⟨net, net.tcpConn.sndNxt, [], 0, []⟩

def Session.step (s : Session) : Event → Option Session
  | .segment f srcIp => (tcpHandle s.net f 0 f.length srcIp).map fun net =>
      { s with net := net, acked := s.ackedBy f srcIp }
  | .send data =>
      let r := netTcpSend s.net data
      some { s with net := r.1, accepted := if r.2 then s.accepted ++ data else s.accepted }
  | .recv max =>
      let r := netTcpRecv s.net max
      some { s with net := r.1, delivered := s.delivered ++ r.2 }
  | .close => some { s with net := netTcpClose s.net }
  | .tick n => some { s with net := { s.net with ticks := (s.net.ticks + n) % 2 ^ 64 } }
  | .timers => some { s with net := netTimers s.net }

/-! ## What the senders leave alone -/

section Senders
variable (s : NetState)

@[simp] lemma netSendFrame_tcpConn (dst : List UInt8) (type : Nat) (payload : List UInt8) :
    (netSendFrame s dst type payload).tcpConn = s.tcpConn := by
  unfold netSendFrame
  split <;> rfl

@[simp] lemma netSendFrame_ticks (dst : List UInt8) (type : Nat) (payload : List UInt8) :
    (netSendFrame s dst type payload).ticks = s.ticks := by
  unfold netSendFrame
  split <;> rfl

@[simp] lemma netSendIpv4To_tcpConn (mac : List UInt8) (ip proto : Nat) (payload : List UInt8) :
    (netSendIpv4To s mac ip proto payload).tcpConn = s.tcpConn := by
  unfold netSendIpv4To
  split
  · rfl
  · simp

@[simp] lemma netSendIpv4To_ticks (mac : List UInt8) (ip proto : Nat) (payload : List UInt8) :
    (netSendIpv4To s mac ip proto payload).ticks = s.ticks := by
  unfold netSendIpv4To
  split
  · rfl
  · simp

@[simp] lemma netSendIpv4_tcpConn (ip proto : Nat) (payload : List UInt8) :
    (netSendIpv4 s ip proto payload).tcpConn = s.tcpConn := by
  unfold netSendIpv4
  split
  · simp
  · split <;> simp [arpSendRequest]

@[simp] lemma netSendIpv4_ticks (ip proto : Nat) (payload : List UInt8) :
    (netSendIpv4 s ip proto payload).ticks = s.ticks := by
  unfold netSendIpv4
  split
  · simp
  · split <;> simp [arpSendRequest]

lemma tcpSendSegment_tcpConn {flags : Nat} {data : List UInt8} (h : data.length ≤ 1480) :
    (tcpSendSegment s flags data).tcpConn = recordSegment s.tcpConn s.ticks flags data := by
  unfold tcpSendSegment
  rw [if_neg (by omega)]
  simp

@[simp] lemma tcpSendSegment_nil_tcpConn (flags : Nat) :
    (tcpSendSegment s flags []).tcpConn = recordSegment s.tcpConn s.ticks flags [] :=
  tcpSendSegment_tcpConn s (by decide)

@[simp] lemma tcpSendSegment_nil_ticks (flags : Nat) : (tcpSendSegment s flags []).ticks = s.ticks := by
  unfold tcpSendSegment
  rw [if_neg (by decide)]
  simp

@[simp] lemma dhcpTimer_tcpConn : (dhcpTimer s).tcpConn = s.tcpConn := by
  unfold dhcpTimer
  split
  · unfold dhcpSendDiscover netSendUdp
    dsimp only
    split <;> simp
  · rfl

end Senders

/-! ## What sending leaves alone on the receive side -/

structure SameReceive (c d : TcpConn) : Prop where
  state : d.state = c.state
  rcvNxt : d.rcvNxt = c.rcvNxt
  recvBuf : d.recvBuf = c.recvBuf
  recvRead : d.recvRead = c.recvRead

lemma sameReceive_record (c : TcpConn) (ticks flags : Nat) (data : List UInt8) :
    SameReceive c (recordSegment c ticks flags data) := ⟨rfl, rfl, rfl, rfl⟩

lemma tcpSendSegment_same (s : NetState) (flags : Nat) (data : List UInt8) :
    SameReceive s.tcpConn (tcpSendSegment s flags data).tcpConn := by
  unfold tcpSendSegment
  split
  · exact ⟨rfl, rfl, rfl, rfl⟩
  · exact sameReceive_record _ _ _ _

lemma netTcpSend_same (s : NetState) (data : List UInt8) :
    SameReceive s.tcpConn (netTcpSend s data).1.tcpConn := by
  unfold netTcpSend
  split
  · exact ⟨rfl, rfl, rfl, rfl⟩
  split
  · exact ⟨rfl, rfl, rfl, rfl⟩
  · exact tcpSendSegment_same _ _ _

lemma netTimers_same (s : NetState) : SameReceive s.tcpConn (netTimers s).tcpConn := by
  unfold netTimers tcpTimer
  rw [dhcpTimer_tcpConn]
  dsimp only
  have hresend : ∀ data, SameReceive s.tcpConn (tcpSendSegment
      { s with tcpConn := { s.tcpConn with sndNxt := s.tcpConn.lastSeq } } s.tcpConn.lastFlags
      data).tcpConn := by
    intro data
    obtain ⟨h1, h2, h3, h4⟩ := tcpSendSegment_same
      { s with tcpConn := { s.tcpConn with sndNxt := s.tcpConn.lastSeq } } s.tcpConn.lastFlags data
    exact ⟨h1, h2, h3, h4⟩
  split
  · split
    · exact hresend []
    · split
      · exact hresend _
      · exact ⟨rfl, rfl, rfl, rfl⟩
  · exact ⟨rfl, rfl, rfl, rfl⟩

/-! ## What a segment does to the connection -/

/-- The connection after data and, as `data_len`, how much of it was taken. -/
def afterData (c : TcpConn) (ticks seq : Nat) (data : List UInt8) : TcpConn × Nat :=
  if 0 < data.length ∧ seq = c.rcvNxt then
    let n := min data.length ((tcpBufSize + (2 ^ 32 - c.recvBuf.length)) % 2 ^ 32)
    (recordSegment { c with
      recvBuf := c.recvBuf ++ data.take n, rcvNxt := (c.rcvNxt + n) % 2 ^ 32 } ticks flagAck [], n)
  else (c, data.length)

def afterFin (c : TcpConn) (ticks : Nat) (g : Segment) (dataLen : Nat) : TcpConn :=
  if hasFlag g.flags flagFin then
    { recordSegment { c with rcvNxt := (g.seq + dataLen + 1) % 2 ^ 32 } ticks flagAck [] with
      state := if c.state = .established then .closeWait else .closed }
  else c

def afterSegment (c : TcpConn) (ticks : Nat) (g : Segment) (data : List UInt8) : TcpConn :=
  let r := afterData (takeAck c g) ticks g.seq data
  afterFin r.1 ticks g r.2

lemma takeAck_state (c : TcpConn) (g : Segment) : (takeAck c g).state = c.state := by
  unfold takeAck
  split <;> rfl

lemma afterData_state (c : TcpConn) (ticks seq : Nat) (data : List UInt8) :
    (afterData c ticks seq data).1.state = c.state := by
  unfold afterData
  split <;> rfl

lemma afterFin_state (c : TcpConn) (ticks : Nat) (g : Segment) (n : Nat) :
    (afterFin c ticks g n).state = c.state ∨ (afterFin c ticks g n).state = .closeWait ∨
      (afterFin c ticks g n).state = .closed := by
  unfold afterFin
  split
  · dsimp only
    split
    · exact Or.inr (Or.inl rfl)
    · exact Or.inr (Or.inr rfl)
  · exact Or.inl rfl

def afterSynAck (c : TcpConn) (ticks : Nat) (g : Segment) : TcpConn :=
  recordSegment { c with
    rcvNxt := (g.seq + 1) % 2 ^ 32, sndUna := g.ack, waitingAck := false, state := .established }
    ticks flagAck []

section Handle
variable {s s' : NetState} {f : Buf} {srcIp : Nat}

lemma takeData_eq {g : Segment} (hle : g.hdrLen ≤ f.length) :
    ∃ s' n, takeData s f g.hdrLen (f.length - g.hdrLen) g.seq = some (s', n) ∧
      (s'.tcpConn, n) = afterData s.tcpConn s.ticks g.seq (f.drop g.hdrLen) ∧ s'.ticks = s.ticks := by
  unfold takeData afterData
  simp only [List.length_drop]
  split
  · rw [rdBytes_of_le (by omega)]
    refine ⟨_, _, rfl, ?_, ?_⟩
    · simp
    · simp
  · exact ⟨s, _, rfl, rfl, rfl⟩

lemma takeFin_tcpConn (g : Segment) (n : Nat) :
    (takeFin s g n).tcpConn = afterFin s.tcpConn s.ticks g n := by
  unfold takeFin afterFin
  split
  · simp [recordSegment]
  · rfl

lemma peerSegment_some {c : TcpConn} {g : Segment} : peerSegment c f srcIp = some g ↔
    rdSegment f 0 = some g ∧ (c.state = .established ∨ c.state = .finWait) ∧ 20 ≤ g.hdrLen ∧
      g.hdrLen ≤ f.length ∧ fromPeer c g srcIp = true := by
  simp only [peerSegment, Option.filter_eq_some_iff, Bool.and_eq_true, decide_eq_true_eq, and_assoc]

lemma peerSegment_none {c : TcpConn} {g : Segment} (hg : rdSegment f 0 = some g)
    (h : ¬ ((c.state = .established ∨ c.state = .finWait) ∧ 20 ≤ g.hdrLen ∧ g.hdrLen ≤ f.length ∧
      fromPeer c g srcIp = true)) : peerSegment c f srcIp = none := by
  apply Option.eq_none_iff_forall_ne_some.mpr
  intro g' hg'
  obtain ⟨hrd, hrest⟩ := peerSegment_some.mp hg'
  rw [hg] at hrd
  cases hrd
  exact h hrest

lemma tcpHandle_short (srcIp : Nat) (hlen : f.length < 20) : tcpHandle s f 0 f.length srcIp = some s ∧
    peerSegment s.tcpConn f srcIp = none := by
  refine ⟨if_pos hlen, ?_⟩
  apply Option.eq_none_iff_forall_ne_some.mpr
  intro g hg
  obtain ⟨-, -, hmin, hmax, -⟩ := peerSegment_some.mp hg
  omega

lemma tcpHandle_cases (h : tcpHandle s f 0 f.length srcIp = some s') :
    (s' = s ∧ peerSegment s.tcpConn f srcIp = none) ∨
    (∃ g, s.tcpConn.state = .synSent ∧ peerSegment s.tcpConn f srcIp = none ∧
      rdSegment f 0 = some g ∧ fromPeer s.tcpConn g srcIp = true ∧ hasFlag g.flags flagSyn = true ∧
      hasFlag g.flags flagAck = true ∧ g.ack = s.tcpConn.sndNxt ∧
      s'.tcpConn = afterSynAck s.tcpConn s.ticks g) ∨
    (∃ g, peerSegment s.tcpConn f srcIp = some g ∧
      s'.tcpConn = afterSegment s.tcpConn s.ticks g (f.drop g.hdrLen)) := by
  by_cases hlen : f.length < 20
  · obtain ⟨hrun, hnone⟩ := tcpHandle_short (s := s) srcIp hlen
    rw [hrun] at h
    cases h
    exact Or.inl ⟨rfl, hnone⟩
  rw [tcpHandle, if_neg hlen] at h
  obtain ⟨g, hg, h⟩ := Option.bind_eq_some_iff.mp h
  split at h
  · rename_i hhdr
    exact Or.inl ⟨(Option.some.inj h).symm, peerSegment_none hg (by omega)⟩
  rename_i hhdr
  have hopen : (s.tcpConn.state = .established ∨ s.tcpConn.state = .finWait) →
      tcpHandleOpen s f 0 f.length g srcIp = some s' →
      (s' = s ∧ peerSegment s.tcpConn f srcIp = none) ∨
        (∃ g, peerSegment s.tcpConn f srcIp = some g ∧
          s'.tcpConn = afterSegment s.tcpConn s.ticks g (f.drop g.hdrLen)) := by
    intro hstate hrun
    unfold tcpHandleOpen at hrun
    split at hrun
    · rename_i hpeer
      obtain ⟨t, n, hdata, hconn, hticks⟩ := takeData_eq
        (s := { s with tcpConn := takeAck s.tcpConn g }) (f := f) (g := g) (by omega)
      rw [Nat.zero_add, hdata, Option.map_some] at hrun
      cases hrun
      refine Or.inr ⟨g, peerSegment_some.mpr ⟨hg, hstate, by omega, by omega, hpeer⟩, ?_⟩
      rw [takeFin_tcpConn, afterSegment, ← hconn, hticks]
    · rename_i hpeer
      exact Or.inl ⟨(Option.some.inj hrun).symm, peerSegment_none hg (by simp [hpeer])⟩
  cases hstate : s.tcpConn.state with
  | closed =>
    rw [hstate] at h
    exact Or.inl ⟨(Option.some.inj h).symm, peerSegment_none hg (by simp [hstate])⟩
  | closeWait =>
    rw [hstate] at h
    exact Or.inl ⟨(Option.some.inj h).symm, peerSegment_none hg (by simp [hstate])⟩
  | synSent =>
    rw [hstate] at h
    have hno : peerSegment s.tcpConn f srcIp = none := peerSegment_none hg (by simp [hstate])
    obtain rfl := Option.some.inj h
    unfold tcpHandleSynSent
    dsimp only
    split
    · rename_i hsyn
      simp only [Bool.and_eq_true, beq_iff_eq] at hsyn
      exact Or.inr (Or.inl ⟨g, rfl, hno, hg, hsyn.1.2, hsyn.1.1.1, hsyn.1.1.2, hsyn.2, by simp [afterSynAck]⟩)
    · exact Or.inl ⟨rfl, hno⟩
  | established =>
    rw [hstate] at h
    exact (hopen (Or.inl hstate) h).imp_right Or.inr
  | finWait =>
    rw [hstate] at h
    exact (hopen (Or.inr hstate) h).imp_right Or.inr

end Handle

/-! ## A concrete session -/

/-- An address from DHCP, and a server in the cache. -/
def onlineNet : NetState :=
  { NetState.zero with
    localIp := 0x0F02000A, netmask := 0x00FFFFFF, netReady := true, dhcpState := .bound
    arpCache := ⟨0x0202000A, List.replicate 6 2, 0, true⟩ :: List.replicate 7 ⟨0, List.replicate 6 0, 0, false⟩ }

def serverIp : Nat := 0x0202000A

/-- A segment from the server's port 80 to the client's port 1024. -/
def serverSegment (seq ack flags : Nat) (data : List UInt8) : Buf :=
  u16be 80 ++ u16be 1024 ++ u32be seq ++ u32be ack ++ u16be (5 * 4096 + flags) ++ u16be 4096 ++
    List.replicate 4 0 ++ data

lemma rdSegment_synAck : rdSegment (serverSegment 500 0xA5A5C4 0x12 []) 0 =
    some ⟨80, 1024, 500, 0xA5A5C4, 0x12, 20⟩ := by decide +kernel

def onlineSession : Session := Session.connect onlineNet serverIp 80

lemma onlineSession_exec (events : List Event)
    (h : (exec Session.step onlineSession events).isSome = true) :
    ∃ s, exec Session.step onlineSession events = some s ∧ Run Session.step onlineSession events s := by
  obtain ⟨s, hs⟩ := Option.isSome_iff_exists.mp h
  exact ⟨s, hs, Run.of_exec hs⟩

end FusionOS.Net
