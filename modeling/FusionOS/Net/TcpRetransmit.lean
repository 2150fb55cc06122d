import FusionOS.Net.TcpSession

/-!
# The segment kept for retransmission

The connection keeps one record of the last segment it sent. The record holds the
bytes that the peer has not acknowledged only as long as nothing else is sent before
they are: an acknowledgement of received data, a FIN or a further `net_tcp_send`
overwrites it.
-/

namespace FusionOS.Net

open List

def Session.unacked (s : Session) : List UInt8 := s.accepted.drop s.acked

/-- What `net_poll` would send again is exactly `bytes`, the ones from `snd_una` to `snd_nxt`. -/
structure Retransmits (c : TcpConn) (bytes : List UInt8) : Prop where
  waiting : c.waitingAck = true
  plain : (hasFlag c.lastFlags flagSyn || hasFlag c.lastFlags flagFin) = false
  seq : c.lastSeq = c.sndUna
  len : c.lastLen = bytes.length
  payload : slice c.lastPayload 0 c.lastLen = bytes
  next : c.sndNxt = (c.lastSeq + c.lastLen) % 2 ^ 32

/-- Unacknowledged bytes are kept for retransmission. -/
def Covered (s : Session) : Prop :=
  s.unacked ≠ [] →
    Retransmits s.net.tcpConn s.unacked ∧ s.net.tcpConn.lastSeq = (s.base + s.acked) % 2 ^ 32

def AcksAll (c : TcpConn) (g : Segment) : Prop :=
  hasFlag g.flags flagAck = true ∧ g.ack = c.sndNxt

instance (c : TcpConn) (g : Segment) : Decidable (AcksAll c g) := inferInstanceAs (Decidable (_ ∧ _))

/-- Nothing is sent while a segment is outstanding, buffers fit one segment, and sequence numbers do
not wrap. An acknowledgement is for the whole of the outstanding segment or for nothing new. -/
def KeepsRecord (s : Session) : Event → Prop
  | .send data =>
    s.net.tcpConn.state = .established → s.net.tcpConn.sndUna = s.net.tcpConn.sndNxt ∧
      data.length ≤ tcpMss ∧ s.net.tcpConn.sndNxt + data.length < 2 ^ 32
  | .close => s.net.tcpConn.state = .established → s.net.tcpConn.sndUna = s.net.tcpConn.sndNxt
  | .segment f srcIp => s.net.tcpConn.state = .established →
      ∀ g ∈ peerSegment s.net.tcpConn f srcIp,
      (hasFlag g.flags flagAck = true → g.ack ≤ s.net.tcpConn.sndUna ∨ g.ack = s.net.tcpConn.sndNxt) ∧
      (s.net.tcpConn.sndUna ≠ s.net.tcpConn.sndNxt → ¬ AcksAll s.net.tcpConn g →
        hasFlag g.flags flagFin = false ∧ (g.hdrLen < f.length → g.seq ≠ s.net.tcpConn.rcvNxt))
  | _ => True

instance (s : Session) : (e : Event) → Decidable (KeepsRecord s e)
  | .send _ => inferInstanceAs (Decidable (_ → _ ∧ _ ∧ _))
  | .close => inferInstanceAs (Decidable (_ → _))
  | .segment _ _ => inferInstanceAs (Decidable (_ → ∀ g ∈ _, (_ → _ ∨ _) ∧ (_ → ¬ _ → _ ∧ (_ → _))))
  | .recv _ => isTrue trivial
  | .tick _ => isTrue trivial
  | .timers => isTrue trivial

structure EstInv (c : TcpConn) (base acked : Nat) (accepted : List UInt8) : Prop where
  una : c.sndUna = base + acked
  nxt : c.sndNxt = base + accepted.length
  small : base + accepted.length < 2 ^ 32
  le : acked ≤ accepted.length
  fits : accepted.length - acked ≤ tcpMss
  idle : acked = accepted.length → c.waitingAck = false
  kept : acked < accepted.length → Retransmits c (accepted.drop acked)

structure RecordInv (s : Session) : Prop where
  syn : s.net.tcpConn.state = .synSent → s.net.tcpConn.sndNxt = s.base ∧ s.base < 2 ^ 32 ∧
    s.accepted = [] ∧ s.net.tcpConn.lastFlags = flagSyn ∧
    (s.net.tcpConn.lastSeq + 1) % 2 ^ 32 = s.base
  est : s.net.tcpConn.state = .established → EstInv s.net.tcpConn s.base s.acked s.accepted
  done : s.net.tcpConn.state ≠ .established → s.acked = s.accepted.length

lemma RecordInv.covered {s : Session} (h : RecordInv s) : Covered s := by
  intro hne
  have hlt : s.acked < s.accepted.length := by
    apply Nat.lt_of_not_le
    intro hle
    exact hne (drop_eq_nil_of_le hle)
  have hstate : s.net.tcpConn.state = .established := by
    apply Decidable.byContradiction
    intro hstate
    have := h.done hstate
    omega
  have hest := h.est hstate
  refine ⟨hest.kept hlt, ?_⟩
  rw [(hest.kept hlt).seq, hest.una, Nat.mod_eq_of_lt]
  have := hest.small
  omega

section Ack
variable {c : TcpConn} {base acked : Nat} {accepted : List UInt8} {g : Segment}

variable {data : List UInt8} {ticks : Nat}

lemma takeAck_acksAll (h : EstInv c base acked accepted) (hack : AcksAll c g) :
    takeAck c g = { c with sndUna := c.sndNxt, waitingAck := false } := by
  have hle : c.sndUna ≤ c.sndNxt := by
    have := h.una
    have := h.nxt
    have := h.le
    omega
  rw [takeAck, if_pos hack.1, hack.2, if_pos (le_refl c.sndNxt)]
  congr 1
  split <;> omega

lemma takeAck_old (h : EstInv c base acked accepted) (hall : ¬ AcksAll c g)
    (hold : hasFlag g.flags flagAck = true → g.ack ≤ c.sndUna ∨ g.ack = c.sndNxt) :
    takeAck c g = c := by
  unfold takeAck
  split
  · rename_i hflag
    have hne : g.ack ≠ c.sndNxt := fun heq => hall ⟨hflag, heq⟩
    have hle : g.ack ≤ c.sndUna := (hold hflag).resolve_right hne
    have hlt : c.sndUna ≤ c.sndNxt := by
      have := h.una
      have := h.nxt
      have := h.le
      omega
    rw [if_neg (by omega), if_neg (by omega)]
  · rfl

structure Idle (c : TcpConn) (base n : Nat) : Prop where
  una : c.sndUna = base + n
  nxt : c.sndNxt = base + n
  small : base + n < 2 ^ 32
  idle : c.waitingAck = false

lemma Idle.estInv (h : Idle c base accepted.length) :
    EstInv c base accepted.length accepted where
  una := h.una
  nxt := h.nxt
  small := h.small
  le := le_rfl
  fits := by omega
  idle := fun _ => h.idle
  kept := fun hlt => absurd hlt (lt_irrefl _)

lemma EstInv.toIdle (h : EstInv c base acked accepted) (hacked : acked = accepted.length) :
    Idle c base accepted.length :=
  ⟨by rw [h.una, hacked], h.nxt, h.small, h.idle hacked⟩

lemma Idle.record {n : Nat} (h : Idle c base n) : Idle (recordSegment c ticks flagAck []) base n := by
  refine ⟨h.una, ?_, h.small, h.idle⟩
  have hnxt := h.nxt
  have hsmall := h.small
  change (c.sndNxt + 0) % 2 ^ 32 = base + n
  omega

lemma Idle.afterData {n seq : Nat} (h : Idle c base n) :
    Idle (afterData c ticks seq data).1 base n := by
  unfold FusionOS.Net.afterData
  split
  · exact Idle.record ⟨h.una, h.nxt, h.small, h.idle⟩
  · exact h

lemma recordSegment_sndNxt {flags : Nat}
    (hplain : (hasFlag flags flagSyn || hasFlag flags flagFin) = false) :
    (recordSegment c ticks flags data).sndNxt = (c.sndNxt + data.length) % 2 ^ 32 := by
  simp [recordSegment, hplain]

lemma recordSegment_retransmits {flags : Nat}
    (hplain : (hasFlag flags flagSyn || hasFlag flags flagFin) = false) (hpos : 0 < data.length)
    (hfits : data.length ≤ tcpMss) (hseq : c.sndNxt = c.sndUna) :
    Retransmits (recordSegment c ticks flags data) data := by
  constructor
  · simp [recordSegment, hpos]
  · exact hplain
  · exact hseq
  · rfl
  · simp [recordSegment, hpos, hfits]
  · exact recordSegment_sndNxt hplain

end Ack

section Steps
variable {s : Session}

variable {f : Buf} {data : List UInt8} {srcIp : Nat} {net : NetState} {g : Segment} {c : TcpConn}

lemma ackedBy_none (hg : peerSegment s.net.tcpConn f srcIp = none) :
    s.ackedBy f srcIp = s.acked := by
  rw [Session.ackedBy, hg]

lemma ackedBy_all
    (hg : peerSegment s.net.tcpConn f srcIp = some g) (hle : s.acked = s.accepted.length) :
    s.ackedBy f srcIp = s.accepted.length := by
  rw [Session.ackedBy, hg]
  dsimp only
  split
  · rename_i hn
    simp only [Bool.and_eq_true, decide_eq_true_eq] at hn
    omega
  · exact hle

lemma ackedBy_acksAll
    (hg : peerSegment s.net.tcpConn f srcIp = some g)
    (h : EstInv s.net.tcpConn s.base s.acked s.accepted) (hall : AcksAll s.net.tcpConn g) :
    s.ackedBy f srcIp = s.accepted.length := by
  have hnxt := h.nxt
  have hsmall := h.small
  have hle := h.le
  have hn : (g.ack + (2 ^ 32 - s.base)) % 2 ^ 32 = s.accepted.length := by
    rw [hall.2]
    omega
  rw [Session.ackedBy, hg]
  dsimp only
  rw [hn, hall.1]
  simp [hle]

lemma ackedBy_old
    (hg : peerSegment s.net.tcpConn f srcIp = some g)
    (h : EstInv s.net.tcpConn s.base s.acked s.accepted) (hall : ¬ AcksAll s.net.tcpConn g)
    (hold : hasFlag g.flags flagAck = true →
      g.ack ≤ s.net.tcpConn.sndUna ∨ g.ack = s.net.tcpConn.sndNxt) :
    s.ackedBy f srcIp = s.acked := by
  rw [Session.ackedBy, hg]
  dsimp only
  split
  · rename_i hn
    simp only [Bool.and_eq_true, decide_eq_true_eq] at hn
    have hle : g.ack ≤ s.net.tcpConn.sndUna :=
      (hold hn.1.1).resolve_right fun heq => hall ⟨hn.1.1, heq⟩
    have := h.una
    have := h.small
    have := h.le
    omega
  · rfl

lemma afterFin_of_fin (c : TcpConn) (ticks n : Nat) (hfin : hasFlag g.flags flagFin = true) :
    (afterFin c ticks g n).state = .closeWait ∨ (afterFin c ticks g n).state = .closed := by
  rw [afterFin, if_pos hfin]
  dsimp only
  split
  · exact Or.inl rfl
  · exact Or.inr rfl

lemma afterFin_of_not {ticks n : Nat} (hfin : hasFlag g.flags flagFin = false) :
    afterFin c ticks g n = c := by
  rw [afterFin, hfin]
  rfl

lemma recordInv_idle {ticks acked : Nat} (hidle : Idle c s.base s.accepted.length)
    (hacked : acked = s.accepted.length)
    (hstate : c.state = .established)
    (hconn : net.tcpConn = afterFin (afterData c ticks g.seq data).1 ticks g
      (afterData c ticks g.seq data).2) : RecordInv { s with net := net, acked := acked } := by
  have hdata : (afterData c ticks g.seq data).1.state = .established :=
    (afterData_state c ticks g.seq data).trans hstate
  cases hfin : hasFlag g.flags flagFin with
  | true =>
    have hclosed := afterFin_of_fin (afterData c ticks g.seq data).1 ticks
      (afterData c ticks g.seq data).2 hfin
    rw [← hconn] at hclosed
    refine ⟨?_, ?_, fun _ => hacked⟩
    · intro hsyn
      rcases hclosed with ht | ht <;> rw [ht] at hsyn <;> cases hsyn
    · intro hest
      rcases hclosed with ht | ht <;> rw [ht] at hest <;> cases hest
  | false =>
    rw [afterFin_of_not hfin] at hconn
    refine ⟨?_, ?_, fun _ => hacked⟩
    · intro hsyn
      rw [hconn, hdata] at hsyn
      cases hsyn
    · intro _
      rw [hconn, hacked]
      exact hidle.afterData.estInv

lemma recordInv_segment (h : RecordInv s)
    (hkeep : KeepsRecord s (.segment f srcIp))
    (hrun : tcpHandle s.net f 0 f.length srcIp = some net) :
    RecordInv { s with net := net, acked := s.ackedBy f srcIp } := by
  rcases tcpHandle_cases hrun with ⟨rfl, hno⟩ | ⟨g, hsyn, hno, -, -, -, -, hack, hconn⟩ | ⟨g, hg, hconn⟩
  · rw [ackedBy_none hno]
    exact ⟨h.syn, h.est, h.done⟩
  · -- the handshake is complete
    obtain ⟨hnxt, hbase, hempty, -, -⟩ := h.syn hsyn
    have hacked : s.ackedBy f srcIp = s.accepted.length := by
      rw [ackedBy_none hno]
      exact h.done (by rw [hsyn]; decide)
    have hidle : Idle net.tcpConn s.base s.accepted.length := by
      rw [hconn, hempty]
      exact Idle.record ⟨by rw [hack]; exact hnxt, hnxt, hbase, rfl⟩
    refine ⟨?_, ?_, fun _ => hacked⟩
    · intro hstate
      rw [hconn] at hstate
      cases hstate
    · intro _
      rw [hacked]
      exact hidle.estInv
  · obtain ⟨-, hopen, -, hhdr, -⟩ := peerSegment_some.mp hg
    rcases hopen with hest | hfin
    · have hinv := h.est hest
      obtain ⟨hold, hquiet⟩ := hkeep hest g hg
      by_cases hall : AcksAll s.net.tcpConn g
      · have hacked := ackedBy_acksAll hg hinv hall
        rw [afterSegment, takeAck_acksAll hinv hall] at hconn
        exact recordInv_idle (c := { s.net.tcpConn with
          sndUna := s.net.tcpConn.sndNxt, waitingAck := false })
          ⟨hinv.nxt, hinv.nxt, hinv.small, rfl⟩ hacked hest hconn
      · have hacked := ackedBy_old hg hinv hall hold
        rw [afterSegment, takeAck_old hinv hall hold] at hconn
        by_cases hout : s.acked = s.accepted.length
        · exact recordInv_idle (hinv.toIdle hout) (hacked.trans hout) hest hconn
        · -- a segment is outstanding: nothing is sent in reply
          have hne : s.net.tcpConn.sndUna ≠ s.net.tcpConn.sndNxt := by
            rw [hinv.una, hinv.nxt]
            omega
          obtain ⟨hfin, hdata⟩ := hquiet hne hall
          have hskip : ¬ (0 < (f.drop g.hdrLen).length ∧ g.seq = s.net.tcpConn.rcvNxt) := by
            rw [length_drop]
            intro htake
            exact hdata (by omega) htake.2
          rw [afterData, if_neg hskip, afterFin_of_not hfin] at hconn
          refine ⟨?_, ?_, ?_⟩
          · intro hsyn
            rw [hconn, hest] at hsyn
            cases hsyn
          · intro _
            rw [hacked, hconn]
            exact hinv
          · intro hstate
            rw [hconn] at hstate
            exact absurd hest hstate
    · have hacked := ackedBy_all hg (h.done (by rw [hfin]; decide))
      have hstate := afterFin_state (afterData (takeAck s.net.tcpConn g) s.net.ticks g.seq
        (f.drop g.hdrLen)).1 s.net.ticks g
        (afterData (takeAck s.net.tcpConn g) s.net.ticks g.seq (f.drop g.hdrLen)).2
      rw [afterData_state, takeAck_state, hfin] at hstate
      rw [afterSegment] at hconn
      rw [← hconn] at hstate
      refine ⟨?_, ?_, fun _ => hacked⟩
      · intro hsyn
        rcases hstate with ht | ht | ht <;> rw [ht] at hsyn <;> cases hsyn
      · intro hest
        rcases hstate with ht | ht | ht <;> rw [ht] at hest <;> cases hest

lemma recordInv_send (h : RecordInv s) (hkeep : KeepsRecord s (.send data)) :
    RecordInv { s with
      net := (netTcpSend s.net data).1
      accepted := if (netTcpSend s.net data).2 then s.accepted ++ data else s.accepted } := by
  unfold netTcpSend
  split
  · exact h
  rename_i hest
  have hest : s.net.tcpConn.state = .established := by simpa using hest
  split
  · exact h
  rename_i hne
  obtain ⟨hidle, hlen, hsmall⟩ := hkeep hest
  have hinv := h.est hest
  have hacked : s.acked = s.accepted.length := by
    have := hinv.una
    have := hinv.nxt
    omega
  have htake : data.take tcpMss = data := take_of_length_le hlen
  have hconn : (tcpSendSegment s.net (flagAck + flagPsh) data).tcpConn =
      recordSegment s.net.tcpConn s.net.ticks (flagAck + flagPsh) data :=
    tcpSendSegment_tcpConn s.net (by unfold tcpMss at hlen; omega)
  dsimp only
  rw [htake, if_pos rfl]
  refine ⟨?_, ?_, ?_⟩
  · intro hsyn
    rw [hconn] at hsyn
    exact absurd (hest.symm.trans hsyn) (by decide)
  · intro _
    dsimp only
    rw [hconn]
    have hpos : 0 < data.length := Nat.pos_of_ne_zero hne
    have hnxt := hinv.nxt
    constructor
    · exact hinv.una
    · rw [length_append, recordSegment_sndNxt (by decide)]
      omega
    · rw [length_append]
      omega
    · rw [length_append]
      omega
    · rw [length_append]
      omega
    · rw [length_append]
      omega
    · intro _
      rw [hacked, drop_left]
      exact recordSegment_retransmits (by decide) hpos hlen hidle.symm
  · intro hstate
    rw [hconn] at hstate
    exact absurd hest hstate

lemma recordInv_close (h : RecordInv s) (hkeep : KeepsRecord s .close) :
    RecordInv { s with net := netTcpClose s.net } := by
  unfold netTcpClose
  split
  · rename_i hest
    have hinv := h.est hest
    have hidle := hkeep hest
    refine ⟨?_, ?_, ?_⟩
    · intro hsyn
      cases hsyn
    · intro hstate
      cases hstate
    · intro _
      have := hinv.una
      have := hinv.nxt
      dsimp only
      omega
  · exact h

lemma tcpTimer_established (hest : s.net.tcpConn.state = .established)
    (hinv : EstInv s.net.tcpConn s.base s.acked s.accepted) :
    EstInv (tcpTimer s.net).tcpConn s.base s.acked s.accepted := by
  by_cases hout : s.acked = s.accepted.length
  · have hidle := hinv.idle hout
    unfold tcpTimer
    dsimp only
    rw [if_neg (by simp [hest, hidle])]
    exact hinv
  have hlt : s.acked < s.accepted.length := by
    have := hinv.le
    omega
  obtain ⟨hwait, hplain, hseq, hlen, hpayload, hnext⟩ := hinv.kept hlt
  have hfits := hinv.fits
  have hsize : (s.accepted.drop s.acked).length = s.accepted.length - s.acked := length_drop
  unfold tcpTimer
  dsimp only
  split
  · rw [if_neg (by simp [hplain]), if_pos (by omega), hpayload]
    rw [tcpSendSegment_tcpConn _ (by unfold tcpMss at hfits; omega)]
    constructor
    · exact hinv.una
    · rw [recordSegment_sndNxt hplain, ← hinv.nxt, hnext, hlen]
    · exact hinv.small
    · exact hinv.le
    · exact hinv.fits
    · intro heq
      exact absurd heq hout
    · intro _
      exact recordSegment_retransmits hplain (by omega) (by omega) hseq
  · exact hinv

lemma tcpTimer_synSent (hsyn : s.net.tcpConn.state = .synSent) (h : RecordInv s) :
    (tcpTimer s.net).tcpConn.sndNxt = s.base ∧ (tcpTimer s.net).tcpConn.lastFlags = flagSyn ∧
      ((tcpTimer s.net).tcpConn.lastSeq + 1) % 2 ^ 32 = s.base := by
  obtain ⟨hnxt, hbase, -, hflags, hseq⟩ := h.syn hsyn
  unfold tcpTimer
  dsimp only
  rw [hflags, if_pos (show (hasFlag flagSyn flagSyn || hasFlag flagSyn flagFin) = true from rfl)]
  split
  · rw [tcpSendSegment_nil_tcpConn]
    exact ⟨hseq, rfl, hseq⟩
  · exact ⟨hnxt, hflags, hseq⟩

lemma recordInv_timers (h : RecordInv s) : RecordInv { s with net := netTimers s.net } := by
  have hstate := (netTimers_same s.net).state
  have hconn : (netTimers s.net).tcpConn = (tcpTimer s.net).tcpConn := dhcpTimer_tcpConn _
  refine ⟨?_, ?_, ?_⟩
  · intro hsyn
    rw [hstate] at hsyn
    obtain ⟨-, hbase, hempty, -, -⟩ := h.syn hsyn
    obtain ⟨hnxt, hflags, hseq⟩ := tcpTimer_synSent hsyn h
    dsimp only
    rw [hconn]
    exact ⟨hnxt, hbase, hempty, hflags, hseq⟩
  · intro hest
    rw [hstate] at hest
    dsimp only
    rw [hconn]
    exact tcpTimer_established hest (h.est hest)
  · intro hno
    rw [hstate] at hno
    exact h.done hno

lemma recordInv_step {t : Session} {e : Event} (h : RecordInv s) (hkeep : KeepsRecord s e)
    (hstep : s.step e = some t) : RecordInv t := by
  cases e with
  | segment f srcIp =>
    obtain ⟨net, hrun, rfl⟩ := Option.map_eq_some_iff.mp hstep
    exact recordInv_segment h hkeep hrun
  | send data =>
    cases hstep
    exact recordInv_send h hkeep
  | recv max =>
    cases hstep
    refine ⟨h.syn, ?_, h.done⟩
    intro hest
    obtain ⟨h1, h2, h3, h4, h5, h6, h7⟩ := h.est hest
    refine ⟨h1, h2, h3, h4, h5, h6, ?_⟩
    intro hlt
    obtain ⟨k1, k2, k3, k4, k5, k6⟩ := h7 hlt
    exact ⟨k1, k2, k3, k4, k5, k6⟩
  | close =>
    cases hstep
    exact recordInv_close h hkeep
  | tick n =>
    cases hstep
    exact ⟨h.syn, h.est, h.done⟩
  | timers =>
    cases hstep
    exact recordInv_timers h

lemma connect_recordInv {destIp destPort : Nat}
    (hconn : (netTcpConnect net destIp destPort).2 = true) :
    RecordInv (Session.connect net destIp destPort) := by
  unfold netTcpConnect at hconn
  split at hconn
  · rename_i hup
    unfold Session.connect netTcpConnect
    rw [if_pos hup]
    dsimp only
    rw [tcpSendSegment_nil_tcpConn]
    refine ⟨?_, ?_, fun _ => rfl⟩
    · intro _
      rw [tcpSendSegment_nil_tcpConn]
      exact ⟨rfl, Nat.mod_lt _ (by decide), rfl, rfl, rfl⟩
    · intro hest
      rw [tcpSendSegment_nil_tcpConn] at hest
      cases hest
  · cases hconn

end Steps

/-- In every run after `net_tcp_connect` whose events all keep the record, the unacknowledged bytes
are exactly what `net_poll` would send again. -/
theorem unacked_covered {net : NetState} {destIp destPort : Nat} {events : List Event} {s : Session}
    (hconn : (netTcpConnect net destIp destPort).2 = true)
    (hkeeps : Along Session.step KeepsRecord (Session.connect net destIp destPort) events)
    (hrun : Run Session.step (Session.connect net destIp destPort) events s) : Covered s :=
  RecordInv.covered (hrun.invariant_along RecordInv (fun _ _ _ hi hk hstep => recordInv_step hi hk hstep)
    (connect_recordInv hconn) hkeeps)

/-- One byte is sent, sent again by the timer, and acknowledged together with data of the server. -/
def sentAndAcked : List Event :=
  [.segment (serverSegment 500 0xA5A5C4 0x12 []) serverIp, .send [65], .tick 61, .timers,
    .segment (serverSegment 501 0xA5A5C5 0x10 [1]) serverIp, .send [66, 67]]

theorem unacked_covered_sentAndAcked :
    ∃ s, exec Session.step onlineSession sentAndAcked = some s ∧ Covered s := by
  obtain ⟨s, hs, hrun⟩ := onlineSession_exec sentAndAcked (by decide +kernel)
  exact ⟨s, hs, unacked_covered (by decide) (by decide +kernel) hrun⟩

def dataBeforeAck : List Event :=
  [.segment (serverSegment 500 0xA5A5C4 0x12 []) serverIp, .send [65],
    .segment (serverSegment 501 0xA5A5C4 0x10 [1]) serverIp]

theorem not_covered_dataBeforeAck :
    ¬ ∀ (net : NetState) (destIp destPort : Nat) (events : List Event) (s : Session),
      (netTcpConnect net destIp destPort).2 = true →
      Run Session.step (Session.connect net destIp destPort) events s → Covered s := by
  intro h
  obtain ⟨s, hs, hrun⟩ := onlineSession_exec dataBeforeAck (by decide +kernel)
  have hlost : (exec Session.step onlineSession dataBeforeAck).map
      (fun s => (s.unacked, s.net.tcpConn.lastLen)) = some ([65], 0) := by decide +kernel
  rw [hs, Option.map_some, Option.some.injEq, Prod.mk.injEq] at hlost
  have hcovered := h onlineNet serverIp 80 dataBeforeAck s (by decide) hrun (by rw [hlost.1]; decide)
  have hlen := hcovered.1.len
  rw [hlost.1, hlost.2] at hlen
  cases hlen

end FusionOS.Net
