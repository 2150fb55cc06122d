import FusionOS.Net.FrameBounds
import FusionOS.Net.TcpSession

/-!
# Acknowledgement numbers

`snd_una` and `snd_nxt` are sequence numbers and wrap, but `tcp_handle` compares an acknowledgement
number with them as plain integers and does not ask whether what it acknowledges was ever sent.
-/

namespace FusionOS.Net

/-- How far `b` is ahead of `a` on the circle of sequence numbers. -/
def ahead (a b : Nat) : Nat := (b + (2 ^ 32 - a)) % 2 ^ 32

def newlySent (c : TcpConn) : Event → Nat
  | .send data => if c.state = .established then (data.take tcpMss).length else 0
  | .close => if c.state = .established then 1 else 0
  | _ => 0

/-- A session with its initial sequence number and the two counters. -/
structure Tracked where
  session : Session
  isn : Nat
  sent : Nat
  acked : Nat

def Tracked.conn (t : Tracked) : TcpConn := t.session.net.tcpConn

/-- The SYN is the first thing sent. -/
def Tracked.connect (net : NetState) (destIp destPort : Nat) : Tracked :=
  ⟨Session.connect net destIp destPort, (net.ticks ^^^ 0xA5A5C3) % 2 ^ 32, 1, 0⟩

/-- The counters after a step of the session to `s`. -/
def Tracked.next (t : Tracked) (e : Event) (s : Session) : Tracked :=
  { t with
    session := s
    sent := t.sent + newlySent t.conn e
    acked := t.acked + ahead t.conn.sndUna s.net.tcpConn.sndUna }

def Tracked.step (t : Tracked) (e : Event) : Option Tracked := (t.session.step e).map (t.next e)

/-- `snd_una` lies between the initial sequence number and `snd_nxt`. -/
structure InWindow (t : Tracked) : Prop where
  le : t.acked ≤ t.sent
  una : t.conn.sndUna = (t.isn + t.acked) % 2 ^ 32
  nxt : t.conn.sndNxt = (t.isn + t.sent) % 2 ^ 32

def AcksEverything (c : TcpConn) : Event → Prop
  | .segment f srcIp => ∃ g, rdSegment f 0 = some g ∧ fromPeer c g srcIp = true ∧
      hasFlag g.flags flagAck = true ∧ g.ack = c.sndNxt
  | _ => False

structure AckSound (t : Tracked) (e : Event) (t' : Tracked) : Prop where
  window : InWindow t'
  forward : ahead t.conn.sndUna t'.conn.sndUna ≤ ahead t.conn.sndUna t.conn.sndNxt
  cleared : t.conn.waitingAck = true → t'.conn.waitingAck = false → AcksEverything t.conn e

/-- The step leaves `snd_una` in the window, moves it forward only, and clears `waiting_ack` only for
an acknowledgement of everything. -/
def SoundStep (t : Tracked) (e : Event) : Prop := ∀ t', t.step e = some t' → AckSound t e t'

/-- An acknowledgement of the peer is at most `snd_nxt` as a plain integer. Others do no harm only where
nothing is outstanding and `snd_una` has been left behind by a wrap. -/
def AcksPlain (t : Tracked) : Event → Prop
  | .segment f srcIp => ∀ g ∈ peerSegment t.conn f srcIp, hasFlag g.flags flagAck = true →
      g.ack ≤ t.conn.sndNxt ∨ (t.conn.sndNxt < t.conn.sndUna ∧ t.conn.waitingAck = false)
  | _ => True

instance (t : Tracked) : (e : Event) → Decidable (AcksPlain t e)
  | .segment _ _ => inferInstanceAs (Decidable (∀ g ∈ _, _ → _ ∨ _))
  | .send _ => isTrue trivial
  | .recv _ => isTrue trivial
  | .close => isTrue trivial
  | .tick _ => isTrue trivial
  | .timers => isTrue trivial

/-! ## The segment sent last -/

def seqSpan (flags len : Nat) : Nat := if hasFlag flags flagSyn || hasFlag flags flagFin then 1 else len

/-- The record of the last segment ends at `snd_nxt`, so that sending it again leads there again. -/
structure LastSent (c : TcpConn) : Prop where
  nxt : c.sndNxt = (c.lastSeq + seqSpan c.lastFlags c.lastLen) % 2 ^ 32
  len : c.lastLen ≤ 1480

lemma LastSent.lt {c : TcpConn} (h : LastSent c) : c.sndNxt < 2 ^ 32 := by
  rw [h.nxt]
  exact Nat.mod_lt _ (by decide)

/-- `n` sequence numbers are sent and none is acknowledged. -/
structure Advances (c d : TcpConn) (n : Nat) : Prop where
  una : d.sndUna = c.sndUna
  nxt : d.sndNxt = (c.sndNxt + n) % 2 ^ 32
  waiting : c.waitingAck = true → d.waitingAck = true
  last : LastSent d

section Sending
variable {c d : TcpConn} {s : NetState}

lemma LastSent.advances (h : LastSent c) : Advances c c 0 where
  una := rfl
  nxt := (Nat.mod_eq_of_lt h.lt).symm
  waiting := id
  last := h

lemma advances_record (c : TcpConn) (ticks flags : Nat) (data : List UInt8) (hlen : data.length ≤ 1480) :
    Advances c (recordSegment c ticks flags data) (seqSpan flags data.length) := by
  have hnxt : (recordSegment c ticks flags data).sndNxt =
      (c.sndNxt + seqSpan flags data.length) % 2 ^ 32 := by
    unfold recordSegment seqSpan
    dsimp only
    split <;> rfl
  refine ⟨rfl, hnxt, ?_, hnxt, hlen⟩
  intro hwaiting
  unfold recordSegment
  dsimp only
  split
  · rfl
  · exact hwaiting

lemma advances_send (h : LastSent s.tcpConn) (data : List UInt8) :
    Advances s.tcpConn (netTcpSend s data).1.tcpConn (newlySent s.tcpConn (.send data)) := by
  have hlen : (data.take tcpMss).length ≤ 1480 := by
    rw [List.length_take, tcpMss]
    omega
  have hsent : newlySent s.tcpConn (.send data) =
      if s.tcpConn.state = .established then (data.take tcpMss).length else 0 := rfl
  unfold netTcpSend
  rw [hsent]
  split
  · exact h.advances
  · rename_i hstate
    rw [if_pos (not_not.mp hstate)]
    split
    · rename_i hempty
      rw [List.length_eq_zero_iff.mp hempty, List.take_nil]
      exact h.advances
    · dsimp only
      rw [tcpSendSegment_tcpConn s hlen]
      exact advances_record s.tcpConn s.ticks (flagAck + flagPsh) _ hlen

lemma advances_close (h : LastSent s.tcpConn) :
    Advances s.tcpConn (netTcpClose s).tcpConn (newlySent s.tcpConn .close) := by
  unfold netTcpClose newlySent
  split
  · dsimp only
    rw [tcpSendSegment_nil_tcpConn]
    obtain ⟨huna, hnxt, hwaiting, hlast⟩ :=
      advances_record s.tcpConn s.ticks (flagFin + flagAck) [] (by decide)
    exact ⟨huna, hnxt, hwaiting, hlast.nxt, hlast.len⟩
  · exact h.advances

lemma advances_resend (h : LastSent c) {ticks : Nat} {data : List UInt8} (hlen : data.length ≤ 1480)
    (hspan : seqSpan c.lastFlags data.length = seqSpan c.lastFlags c.lastLen) :
    Advances c (recordSegment { c with sndNxt := c.lastSeq } ticks c.lastFlags data) 0 := by
  obtain ⟨huna, hnxt, hwaiting, hlast⟩ :=
    advances_record { c with sndNxt := c.lastSeq } ticks c.lastFlags data hlen
  refine ⟨huna, ?_, hwaiting, hlast⟩
  rw [hnxt, hspan, Nat.add_zero, Nat.mod_eq_of_lt h.lt, h.nxt]

lemma advances_timers (h : LastSent s.tcpConn) : Advances s.tcpConn (netTimers s).tcpConn 0 := by
  unfold netTimers
  rw [dhcpTimer_tcpConn]
  unfold tcpTimer
  dsimp only
  split
  · split
    · rename_i hflags
      rw [tcpSendSegment_nil_tcpConn]
      refine advances_resend h (by decide) ?_
      unfold seqSpan
      rw [if_pos hflags, if_pos hflags]
    · split
      · have hlen : (slice s.tcpConn.lastPayload 0 s.tcpConn.lastLen).length = s.tcpConn.lastLen :=
          slice_length ..
        have hle := hlen.trans_le h.len
        rw [tcpSendSegment_tcpConn _ hle]
        exact advances_resend h hle (by rw [hlen])
      · exact h.advances
  · exact h.advances

end Sending

/-! ## Segments -/

section Receiving
variable {c : TcpConn}

structure SameSend (c d : TcpConn) : Prop where
  una : d.sndUna = c.sndUna
  nxt : d.sndNxt = c.sndNxt
  waiting : d.waitingAck = c.waitingAck
  last : LastSent d

lemma LastSent.same (h : LastSent c) : SameSend c c := ⟨rfl, rfl, rfl, h⟩

lemma SameSend.trans {d e : TcpConn} (h : SameSend c d) (h' : SameSend d e) : SameSend c e :=
  ⟨h'.una.trans h.una, h'.nxt.trans h.nxt, h'.waiting.trans h.waiting, h'.last⟩

lemma LastSent.afterData (h : LastSent c) (ticks seq : Nat) (data : List UInt8) :
    SameSend c (afterData c ticks seq data).1 := by
  unfold Net.afterData
  split
  · exact ⟨rfl, Nat.mod_eq_of_lt h.lt, rfl, (advances_record _ ticks flagAck [] (by decide)).last⟩
  · exact h.same

lemma LastSent.afterFin (h : LastSent c) (ticks : Nat) (g : Segment) (n : Nat) :
    SameSend c (afterFin c ticks g n) := by
  unfold Net.afterFin
  split
  · have hlast := (advances_record { c with rcvNxt := (g.seq + n + 1) % 2 ^ 32 } ticks flagAck [] (by decide)).last
    exact ⟨rfl, Nat.mod_eq_of_lt h.lt, rfl, hlast.nxt, hlast.len⟩
  · exact h.same

lemma LastSent.takeAck (h : LastSent c) (g : Segment) : LastSent (takeAck c g) := by
  unfold Net.takeAck
  split
  · exact ⟨h.nxt, h.len⟩
  · exact h

lemma LastSent.afterSegment (h : LastSent c) (ticks : Nat) (g : Segment) (data : List UInt8) :
    SameSend (Net.takeAck c g) (afterSegment c ticks g data) := by
  have hdata := (h.takeAck g).afterData ticks g.seq data
  exact hdata.trans (hdata.last.afterFin ticks g _)

lemma rdSegment_ack_lt {f : Buf} {p : Nat} {g : Segment} (h : rdSegment f p = some g) : g.ack < 2 ^ 32 := by
  simp only [rdSegment, Option.bind_eq_bind, Option.bind_eq_some_iff, Option.pure_def,
    Option.some.injEq] at h
  obtain ⟨-, -, -, -, -, -, ack, hack, -, -, rfl⟩ := h
  exact rd32be_lt hack

end Receiving

/-! ## One step -/

structure AckInv (t : Tracked) : Prop where
  window : InWindow t
  last : LastSent t.conn

lemma InWindow.una_lt {t : Tracked} (h : InWindow t) : t.conn.sndUna < 2 ^ 32 := by
  rw [h.una]
  exact Nat.mod_lt _ (by decide)

lemma ahead_self {a : Nat} (h : a < 2 ^ 32) : ahead a a = 0 := by
  unfold ahead
  omega

section Step
variable {t : Tracked} {e : Event} {s : Session}

lemma InWindow.next (h : InWindow t) (huna : s.net.tcpConn.sndUna < 2 ^ 32)
    (hnxt : s.net.tcpConn.sndNxt = (t.conn.sndNxt + newlySent t.conn e) % 2 ^ 32)
    (hforward : ahead t.conn.sndUna s.net.tcpConn.sndUna ≤ ahead t.conn.sndUna t.conn.sndNxt) :
    InWindow (t.next e s) := by
  have hle := h.le
  have huna' := h.una
  have hnxt' := h.nxt
  -- the counters may be several turns of the circle apart
  have hroom : ahead t.conn.sndUna t.conn.sndNxt ≤ t.sent - t.acked := by
    unfold ahead
    omega
  refine ⟨?_, ?_, ?_⟩
  · dsimp only [Tracked.next]
    omega
  · dsimp only [Tracked.next, Tracked.conn] at huna' ⊢
    unfold ahead
    omega
  · dsimp only [Tracked.next, Tracked.conn] at hnxt hnxt' ⊢
    omega

lemma session_step_cases (h : LastSent t.conn) (hstep : t.session.step e = some s) :
    (Advances t.conn s.net.tcpConn (newlySent t.conn e) ∧ AcksPlain t e) ∨
    (AcksEverything t.conn e ∧ AcksPlain t e ∧ newlySent t.conn e = 0 ∧ LastSent s.net.tcpConn ∧
      s.net.tcpConn.sndUna = t.conn.sndNxt ∧ s.net.tcpConn.sndNxt = t.conn.sndNxt) ∨
    (∃ f srcIp g, e = .segment f srcIp ∧ peerSegment t.conn f srcIp = some g ∧
      SameSend (takeAck t.conn g) s.net.tcpConn) := by
  cases e with
  | segment f srcIp =>
    obtain ⟨net, hrun, rfl⟩ := Option.map_eq_some_iff.mp hstep
    have hplain : peerSegment t.conn f srcIp = none → AcksPlain t (.segment f srcIp) := by
      intro hno g hg
      rw [hno] at hg
      cases hg
    rcases tcpHandle_cases hrun with
      ⟨rfl, hno⟩ | ⟨g, -, hno, hg, hpeer, -, hflag, hack, hconn⟩ | ⟨g, hg, hconn⟩
    · exact Or.inl ⟨h.advances, hplain hno⟩
    · have hlast : LastSent net.tcpConn := by
        rw [hconn]
        exact (advances_record _ _ flagAck [] (by decide)).last
      refine Or.inr (Or.inl ⟨⟨g, hg, hpeer, hflag, hack⟩, hplain hno, rfl, hlast, ?_, ?_⟩)
      · dsimp only
        rw [hconn]
        exact hack
      · dsimp only
        rw [hconn]
        exact Nat.mod_eq_of_lt h.lt
    · refine Or.inr (Or.inr ⟨f, srcIp, g, rfl, hg, ?_⟩)
      dsimp only
      rw [hconn]
      exact h.afterSegment t.session.net.ticks g (f.drop g.hdrLen)
  | send data =>
    cases hstep
    exact Or.inl ⟨advances_send h data, trivial⟩
  | recv max =>
    cases hstep
    obtain ⟨huna, hnxt, hwaiting, hlast⟩ := h.advances
    exact Or.inl ⟨⟨huna, hnxt, hwaiting, hlast.nxt, hlast.len⟩, trivial⟩
  | close =>
    cases hstep
    exact Or.inl ⟨advances_close h, trivial⟩
  | tick n =>
    cases hstep
    exact Or.inl ⟨h.advances, trivial⟩
  | timers =>
    cases hstep
    exact Or.inl ⟨advances_timers h, trivial⟩

lemma session_step_isSome (s : Session) (e : Event) : (s.step e).isSome = true := by
  cases e with
  | segment f srcIp =>
    rw [Session.step, Option.isSome_map]
    exact tcpHandle_isSome (Nat.zero_add _).le s.net srcIp
  | _ => rfl

lemma takeAck_sound_iff {c : TcpConn} {g : Segment} (huna : c.sndUna < 2 ^ 32) (hnxt : c.sndNxt < 2 ^ 32)
    (hack : g.ack < 2 ^ 32) (hflag : hasFlag g.flags flagAck = true) :
    (ahead c.sndUna (takeAck c g).sndUna ≤ ahead c.sndUna c.sndNxt ∧
      (c.waitingAck = true → (takeAck c g).waitingAck = false → g.ack = c.sndNxt)) ↔
    g.ack ≤ c.sndNxt ∨ (c.sndNxt < c.sndUna ∧ c.waitingAck = false) := by
  rw [takeAck, if_pos hflag]
  dsimp only
  unfold ahead
  by_cases hle : g.ack ≤ c.sndNxt
  · refine iff_of_true ⟨?_, ?_⟩ (Or.inl hle)
    · split <;> omega
    · intro hwaiting hcleared
      split at hcleared
      · omega
      · exact absurd hwaiting (Bool.eq_false_iff.mp hcleared)
  · -- beyond `snd_nxt` as a plain integer, the acknowledgement always clears `waiting_ack`
    rw [if_pos (show c.sndNxt ≤ g.ack by omega), or_iff_right hle]
    constructor
    · rintro ⟨hforward, hcleared⟩
      refine ⟨?_, Bool.eq_false_iff.mpr fun hwaiting => ?_⟩
      · split at hforward <;> omega
      · have := hcleared hwaiting rfl
        omega
    · rintro ⟨hwrapped, hidle⟩
      refine ⟨?_, fun hwaiting => absurd hwaiting (Bool.eq_false_iff.mp hidle)⟩
      split <;> omega

lemma soundStep_of_advances (h : AckInv t) (hadv : Advances t.conn s.net.tcpConn (newlySent t.conn e)) :
    AckSound t e (t.next e s) := by
  have hlt := h.window.una_lt
  have hstill : ahead t.conn.sndUna s.net.tcpConn.sndUna = 0 := by
    rw [hadv.una]
    exact ahead_self hlt
  refine ⟨h.window.next (hadv.una ▸ hlt) hadv.nxt (hstill ▸ Nat.zero_le _), hstill ▸ Nat.zero_le _, ?_⟩
  intro hwaiting hcleared
  exact absurd (hadv.waiting hwaiting) (Bool.eq_false_iff.mp hcleared)

lemma SameSend.advances {c d : TcpConn} (h : SameSend c d) (hnxt : c.sndNxt < 2 ^ 32) : Advances c d 0 where
  una := h.una
  nxt := h.nxt.trans (Nat.mod_eq_of_lt hnxt).symm
  waiting := fun hwaiting => h.waiting.trans hwaiting
  last := h.last

lemma ackSound_segment_iff {f : Buf} {srcIp : Nat} {g : Segment} (h : AckInv t)
    (hg : peerSegment t.conn f srcIp = some g) (hflag : hasFlag g.flags flagAck = true)
    (hsame : SameSend (takeAck t.conn g) s.net.tcpConn) :
    AckSound t (.segment f srcIp) (t.next (.segment f srcIp) s) ↔
      g.ack ≤ t.conn.sndNxt ∨ (t.conn.sndNxt < t.conn.sndUna ∧ t.conn.waitingAck = false) := by
  obtain ⟨hrd, -, -, -, hpeer⟩ := peerSegment_some.mp hg
  have hack := rdSegment_ack_lt hrd
  have huna : s.net.tcpConn.sndUna < 2 ^ 32 := by
    rw [hsame.una, takeAck, if_pos hflag]
    dsimp only
    split
    · exact hack
    · exact h.window.una_lt
  have hnxt : s.net.tcpConn.sndNxt = (t.conn.sndNxt + 0) % 2 ^ 32 := by
    rw [hsame.nxt, takeAck, if_pos hflag]
    exact (Nat.mod_eq_of_lt h.last.lt).symm
  rw [← takeAck_sound_iff h.window.una_lt h.last.lt hack hflag, ← hsame.una, ← hsame.waiting]
  constructor
  · intro hsound
    refine ⟨hsound.forward, fun hwaiting hcleared => ?_⟩
    obtain ⟨g', hrd', -, -, hall⟩ := hsound.cleared hwaiting hcleared
    rw [hrd] at hrd'
    cases hrd'
    exact hall
  · rintro ⟨hforward, hcleared⟩
    exact ⟨h.window.next huna hnxt hforward, hforward,
      fun hwaiting hclear => ⟨g, hrd, hpeer, hflag, hcleared hwaiting hclear⟩⟩

lemma soundStep_iff (h : AckInv t) : SoundStep t e ↔ AcksPlain t e := by
  obtain ⟨s, hs⟩ := Option.isSome_iff_exists.mp (session_step_isSome t.session e)
  have hnext : ∀ t', t.step e = some t' ↔ t' = t.next e s := by
    intro t'
    rw [Tracked.step, hs, Option.map_some, Option.some.injEq, eq_comm]
  have hsound : SoundStep t e ↔ AckSound t e (t.next e s) :=
    ⟨fun hall => hall _ ((hnext _).mpr rfl), fun hone t' ht' => (hnext t').mp ht' ▸ hone⟩
  rw [hsound]
  rcases session_step_cases h.last hs with
    ⟨hadv, hplain⟩ | ⟨hall, hplain, hsent, hlast, huna, hnxt⟩ | ⟨f, srcIp, g, rfl, hg, hsame⟩
  · exact iff_of_true (soundStep_of_advances h hadv) hplain
  · have hforward : ahead t.conn.sndUna s.net.tcpConn.sndUna ≤ ahead t.conn.sndUna t.conn.sndNxt :=
      huna ▸ Nat.le_refl _
    refine iff_of_true ⟨h.window.next (huna ▸ h.last.lt) ?_ hforward, hforward, fun _ _ => hall⟩ hplain
    rw [hnxt, hsent, Nat.add_zero, Nat.mod_eq_of_lt h.last.lt]
  · have hplain : AcksPlain t (.segment f srcIp) ↔ (hasFlag g.flags flagAck = true →
        g.ack ≤ t.conn.sndNxt ∨ (t.conn.sndNxt < t.conn.sndUna ∧ t.conn.waitingAck = false)) := by
      rw [AcksPlain, hg]
      constructor
      · exact fun hall => hall g rfl
      · rintro hone _ ⟨⟩
        exact hone
    rw [hplain]
    by_cases hflag : hasFlag g.flags flagAck = true
    · rw [ackSound_segment_iff h hg hflag hsame]
      exact (imp_iff_right hflag).symm
    · rw [takeAck, if_neg hflag] at hsame
      exact iff_of_true (soundStep_of_advances h (hsame.advances h.last.lt)) fun hset => absurd hset hflag

lemma ackInv_step {t' : Tracked} (h : AckInv t) (hsound : SoundStep t e) (hstep : t.step e = some t') :
    AckInv t' := by
  refine ⟨(hsound t' hstep).window, ?_⟩
  obtain ⟨s, hs, rfl⟩ := Option.map_eq_some_iff.mp hstep
  rcases session_step_cases h.last hs with ⟨hadv, -⟩ | ⟨-, -, -, hlast, -, -⟩ | ⟨_, _, _, -, -, hsame⟩
  · exact hadv.last
  · exact hlast
  · exact hsame.last

end Step

/-! ## Runs -/

lemma connect_conn {net : NetState} {destIp destPort : Nat}
    (hconn : (netTcpConnect net destIp destPort).2 = true) :
    ∃ c, c.sndUna = (net.ticks ^^^ 0xA5A5C3) % 2 ^ 32 ∧ c.sndNxt = (net.ticks ^^^ 0xA5A5C3) % 2 ^ 32 ∧
      (Tracked.connect net destIp destPort).conn = recordSegment c net.ticks flagSyn [] := by
  unfold netTcpConnect at hconn
  split at hconn
  · rename_i hup
    unfold Tracked.connect Tracked.conn Session.connect netTcpConnect
    rw [if_pos hup]
    exact ⟨_, rfl, rfl, tcpSendSegment_nil_tcpConn _ _⟩
  · cases hconn

lemma connect_ackInv {net : NetState} {destIp destPort : Nat}
    (hconn : (netTcpConnect net destIp destPort).2 = true) : AckInv (Tracked.connect net destIp destPort) := by
  obtain ⟨c, huna, hnxt, hrun⟩ := connect_conn hconn
  have hadv := advances_record c net.ticks flagSyn [] (by decide)
  rw [← hrun] at hadv
  refine ⟨⟨Nat.zero_le _, ?_, ?_⟩, hadv.last⟩
  · rw [hadv.una, huna]
    exact (Nat.mod_mod _ _).symm
  · rw [hadv.nxt, hnxt]
    rfl

lemma AckInv.along_iff {t : Tracked} (h : AckInv t) (events : List Event) :
    Along Tracked.step SoundStep t events ↔ Along Tracked.step AcksPlain t events :=
  Along.iff_of_invariant AckInv (fun _ _ _ hinv _ hsound hstep => ackInv_step hinv hsound hstep)
    (fun _ _ hinv _ => soundStep_iff hinv) h (Along.of_forall (fun _ _ => trivial) _ _)

/-- Whatever is acknowledged to a connection: in every step `snd_una` stays between the initial sequence
number and `snd_nxt`, moves forward only, and `waiting_ack` is cleared only by an acknowledgement of
everything sent, if and only if every acknowledgement number is at most `snd_nxt` as a plain integer, or
comes while nothing is outstanding and `snd_nxt` has wrapped below `snd_una`. -/
theorem acks_sound_iff {net : NetState} {destIp destPort : Nat}
    (hconn : (netTcpConnect net destIp destPort).2 = true) (events : List Event) :
    Along Tracked.step SoundStep (Tracked.connect net destIp destPort) events ↔
      Along Tracked.step AcksPlain (Tracked.connect net destIp destPort) events :=
  (connect_ackInv hconn).along_iff events

/-- Two bytes are sent and acknowledged one after the other. -/
def ackedInTurn : List Event :=
  [.segment (serverSegment 500 0xA5A5C4 0x12 []) serverIp, .send [65, 66],
    .segment (serverSegment 501 0xA5A5C5 0x10 []) serverIp, .segment (serverSegment 501 0xA5A5C6 0x10 []) serverIp]

theorem acks_sound_inTurn :
    Along Tracked.step SoundStep (Tracked.connect onlineNet serverIp 80) ackedInTurn :=
  (acks_sound_iff (by decide) ackedInTurn).mpr (by decide +kernel)

/-- The server acknowledges 1000 bytes where nothing but the SYN was sent. -/
def neverSent : List Event :=
  [.segment (serverSegment 500 0xA5A5C4 0x12 []) serverIp,
    .segment (serverSegment 501 (0xA5A5C4 + 1000) 0x10 []) serverIp]

/-- The clock for which the initial sequence number is `0xFFFFFFC3` and the port 1024. -/
def lateNet : NetState := { onlineNet with ticks := 0xD7FF5A5A00 }

/-- Of 100 bytes, which wrap `snd_nxt` to `0x28`, the server acknowledges the first. -/
def firstOfHundred : List Event :=
  [.segment (serverSegment 500 0xFFFFFFC4 0x12 []) serverIp, .send (List.replicate 100 65),
    .segment (serverSegment 501 0xFFFFFFC5 0x10 []) serverIp]

theorem not_acks_sound :
    ¬ Along Tracked.step SoundStep (Tracked.connect onlineNet serverIp 80) neverSent ∧
      ¬ Along Tracked.step SoundStep (Tracked.connect lateNet serverIp 80) firstOfHundred := by
  refine ⟨fun hsound => ?_, fun hsound => ?_⟩
  · have hplain := ((connect_ackInv (by decide)).along_iff neverSent).mp hsound
    exact absurd hplain (by decide +kernel)
  · have hplain := ((connect_ackInv (by decide)).along_iff firstOfHundred).mp hsound
    exact absurd hplain (by decide +kernel)

end FusionOS.Net
