import FusionOS.Net.TcpFin
import FusionOS.Apps.Browser

/-!
# The download loop

`browser_fetch` polls the network and takes at most 512 bytes in a turn, and it looks for the end
of the connection before each turn. What waits behind those 512 bytes when the peer's FIN arrives
stays in the receive buffer.
-/

namespace FusionOS.Net

def netTcpIsClosed (s : NetState) : Prop := s.tcpConn.state = .closed ∨ s.tcpConn.state = .closeWait

instance (s : NetState) : Decidable (netTcpIsClosed s) := inferInstanceAs (Decidable (_ ∨ _))

/-- `net_poll` where the driver has received the given segments, each with its sender. -/
def netPoll (s : NetState) (segments : List (Buf × Nat)) : Option NetState :=
  (segments.foldlM (fun s g => tcpHandle s g.1 0 g.1.length g.2) s).map netTimers

/-- The ticks since `start`. -/
def ticksSince (s : NetState) (start : Nat) : Nat := (s.ticks + 2 ^ 64 - start) % 2 ^ 64

def cpuSleepTicks (s : NetState) (n : Nat) : NetState := { s with ticks := (s.ticks + n) % 2 ^ 64 }

structure Grows (c d : TcpConn) : Prop where
  recvBuf : c.recvBuf <+: d.recvBuf
  recvRead : d.recvRead = c.recvRead
  fits : c.recvBuf.length ≤ tcpBufSize → d.recvBuf.length ≤ tcpBufSize

variable {s s' : NetState} {c d : TcpConn}

lemma Grows.refl (c : TcpConn) : Grows c c := ⟨List.prefix_rfl, rfl, id⟩

lemma Grows.trans {e : TcpConn} (h : Grows c d) (h' : Grows d e) : Grows c e :=
  ⟨h.recvBuf.trans h'.recvBuf, h'.recvRead.trans h.recvRead, fun hc => h'.fits (h.fits hc)⟩

lemma SameReceive.grows (h : SameReceive c d) : Grows c d := by
  obtain ⟨-, -, hbuf, hread⟩ := h
  refine ⟨?_, hread, ?_⟩
  · rw [hbuf]
  · rw [hbuf]
    exact id

lemma tcpHandle_grows {f : Buf} {srcIp : Nat}
    (h : tcpHandle s f 0 f.length srcIp = some s') : Grows s.tcpConn s'.tcpConn := by
  rcases tcpHandle_cases h with ⟨rfl, -⟩ | ⟨g, -, -, -, -, -, -, -, hconn⟩ | ⟨g, -, hconn⟩
  · exact Grows.refl _
  · rw [hconn]
    exact ⟨List.prefix_rfl, rfl, id⟩
  · rw [hconn]
    obtain ⟨bytes, hbuf, hread⟩ := afterSegment_appends s.tcpConn s.ticks g (f.drop g.hdrLen)
    refine ⟨⟨bytes, hbuf.symm⟩, hread, ?_⟩
    intro hfits
    exact afterSegment_fits hfits _ _ _

lemma netPoll_grows {segments : List (Buf × Nat)} (h : netPoll s segments = some s') :
    Grows s.tcpConn s'.tcpConn := by
  obtain ⟨t, ht, rfl⟩ := Option.map_eq_some_iff.mp h
  apply Grows.trans _ (netTimers_same t).grows
  clear h
  induction segments generalizing s with
  | nil =>
    cases ht
    exact Grows.refl _
  | cons g segments ih =>
    obtain ⟨u, hu, hrest⟩ := Option.bind_eq_some_iff.mp ht
    exact (tcpHandle_grows hu).trans (ih hrest)

end FusionOS.Net

namespace FusionOS.Browser

open Net

/-- The segments that a call of `net_poll` finds, and the ticks until the next turn. -/
structure Poll where
  segments : List (Buf × Nat)
  sleep : Nat

/-- One turn of the loop that waits for the connection; `none` where the loop has ended. -/
def connectStep (start : Nat) (s : NetState) (p : Poll) : Option NetState :=
  if s.tcpConn.state = .established then none
  else (netPoll s p.segments).bind fun s =>
    if pitHz * 5 < ticksSince s start then none else some (cpuSleepTicks s p.sleep)

/-- `BROWSER_CONTENT_CAP`. -/
def contentCap : Nat := 64 * 1024

/-- The variables of the download loop. -/
structure Download where
  net : NetState
  raw : List UInt8
  lastRx : Nat

/-- What a turn does behind `net_poll`: bytes that do not fit are dropped. -/
def Download.receive (d : Download) (net : NetState) : Download :=
  let (net, got) := netTcpRecv net 512
  { net := net
    raw := if 0 < got.length ∧ d.raw.length + got.length < contentCap then d.raw ++ got else d.raw
    lastRx := if 0 < got.length then net.ticks else d.lastRx }

/-- One turn of the download loop; `none` where the loop has ended. -/
def Download.step (d : Download) (p : Poll) : Option Download :=
  if netTcpIsClosed d.net then none
  else (netPoll d.net p.segments).bind fun net =>
    let d := d.receive net
    if pitHz * 5 < ticksSince d.net d.lastRx then none
    else some { d with net := cpuSleepTicks d.net p.sleep }

/-- The loop starts once the connection is established and the request is sent. -/
def Download.start (s : NetState) (req : List UInt8) : Download :=
  ⟨(netTcpSend s req).1, [], (netTcpSend s req).1.ticks⟩

def taken (c : TcpConn) : Nat := min (c.recvBuf.length - c.recvRead) 512

def TakesRest (c : TcpConn) : Prop :=
  c.state = .closed ∨ c.state = .closeWait → c.recvBuf.length ≤ c.recvRead + 512 ∨
    (c.recvBuf.length = contentCap ∧ c.recvRead + 512 = contentCap - 1)

def TakesLastAlone (c : TcpConn) : Prop := c.recvRead + taken c = contentCap → taken c ≤ 1

/-- The turn loses nothing. -/
def Download.Lossless (d : Download) (p : Poll) : Prop :=
  ∀ net, netPoll d.net p.segments = some net → TakesRest net.tcpConn ∧ TakesLastAlone net.tcpConn

/-! ## One turn -/

/-- What holds before and after every turn. -/
structure Received (d : Download) : Prop where
  fits : d.net.tcpConn.recvBuf.length ≤ tcpBufSize
  read : d.net.tcpConn.recvRead ≤ d.net.tcpConn.recvBuf.length
  stored : d.raw <+: d.net.tcpConn.recvBuf
  count : d.net.tcpConn.recvRead < contentCap → d.raw.length = d.net.tcpConn.recvRead
  room : d.raw.length < contentCap

def Kept (d : Download) : Prop := d.net.tcpConn.recvRead = contentCap → d.raw.length = contentCap - 1

section Turn
variable {d d' : Download} {p : Poll}

/-- A turn in terms of the connection behind `net_poll`, of which it takes `n` bytes. -/
structure Turn (d : Download) (net : NetState) (n : Nat) (d' : Download) : Prop where
  grows : Grows d.net.tcpConn net.tcpConn
  taken : n = taken net.tcpConn
  count : n = min (net.tcpConn.recvBuf.length - d.net.tcpConn.recvRead) 512
  state : d'.net.tcpConn.state = net.tcpConn.state
  recvBuf : d'.net.tcpConn.recvBuf = net.tcpConn.recvBuf
  recvRead : d'.net.tcpConn.recvRead = d.net.tcpConn.recvRead + n
  raw : d'.raw = if 0 < n ∧ d.raw.length + n < contentCap then
    d.raw ++ (net.tcpConn.recvBuf.drop d.net.tcpConn.recvRead).take n else d.raw

variable {n : Nat} {net : NetState}

lemma Download.step_turn (hi : Received d) (h : d.step p = some d') :
    ¬ netTcpIsClosed d.net ∧ ∃ net n, netPoll d.net p.segments = some net ∧ Turn d net n d' := by
  unfold Download.step at h
  split at h
  · cases h
  rename_i hopen
  obtain ⟨net, hnet, h⟩ := Option.bind_eq_some_iff.mp h
  have hgrows := netPoll_grows hnet
  have hread : net.tcpConn.recvRead ≤ net.tcpConn.recvBuf.length := by
    rw [hgrows.recvRead]
    exact hi.read.trans hgrows.recvBuf.length_le
  have hlen : ((net.tcpConn.recvBuf.drop net.tcpConn.recvRead).take (taken net.tcpConn)).length =
      taken net.tcpConn := by
    rw [List.length_take, List.length_drop, taken]
    omega
  refine ⟨hopen, net, taken net.tcpConn, hnet, ?_⟩
  dsimp only at h
  split at h
  · cases h
  · cases h
    simp only [Download.receive, netTcpRecv, available_eq (hgrows.fits hi.fits) hread, cpuSleepTicks]
    rw [← taken, hlen, hgrows.recvRead]
    exact ⟨hgrows, rfl, by rw [taken, hgrows.recvRead], rfl, rfl, rfl, rfl⟩

lemma Turn.raw_of_room (hi : Received d) (h : Turn d net n d')
    (hadd : 0 < n ∧ d.raw.length + n < contentCap) :
    d.raw.length = d.net.tcpConn.recvRead ∧
      d'.raw = net.tcpConn.recvBuf.take (d.net.tcpConn.recvRead + n) := by
  have hfits := h.grows.fits hi.fits
  have hn := h.count
  have hall : d.raw.length = d.net.tcpConn.recvRead := by
    apply hi.count
    rw [tcpBufSize] at hfits
    rw [contentCap]
    omega
  have hbegins : d.raw = net.tcpConn.recvBuf.take d.net.tcpConn.recvRead := by
    rw [← hall]
    exact List.prefix_iff_eq_take.mp (hi.stored.trans h.grows.recvBuf)
  have hraw := h.raw
  rw [if_pos hadd, hbegins, ← List.take_add] at hraw
  exact ⟨hall, hraw⟩

lemma Turn.received (hi : Received d) (h : Turn d net n d') : Received d' := by
  have hfits := h.grows.fits hi.fits
  have hlen := h.grows.recvBuf.length_le
  have hread := hi.read
  have hn := h.count
  have hmore : d.net.tcpConn.recvRead + n ≤ net.tcpConn.recvBuf.length := by omega
  refine ⟨by rwa [h.recvBuf], by rwa [h.recvBuf, h.recvRead], ?_, ?_, ?_⟩
  all_goals by_cases hadd : 0 < n ∧ d.raw.length + n < contentCap
  · rw [h.recvBuf, (h.raw_of_room hi hadd).2]
    exact List.take_prefix _ _
  · rw [h.recvBuf, h.raw, if_neg hadd]
    exact hi.stored.trans h.grows.recvBuf
  · rw [h.recvRead, (h.raw_of_room hi hadd).2, List.length_take, Nat.min_eq_left hmore]
    exact fun _ => rfl
  · rw [h.recvRead, h.raw, if_neg hadd]
    intro hlt
    have := hi.count (by omega)
    omega
  · obtain ⟨hall, hraw⟩ := h.raw_of_room hi hadd
    rw [hraw, List.length_take, Nat.min_eq_left hmore, ← hall]
    exact hadd.2
  · rw [h.raw, if_neg hadd]
    exact hi.room

lemma Turn.kept_iff (hi : Received d) (h : Turn d net n d') :
    Kept d' ↔ Kept d ∧ TakesLastAlone net.tcpConn := by
  have hfits := h.grows.fits hi.fits
  have hcount := hi.count
  have hn := h.count
  have hraw := h.raw
  unfold Kept TakesLastAlone
  rw [← h.taken, h.grows.recvRead, h.recvRead]
  rcases Nat.eq_zero_or_pos n with hzero | hpos
  · -- Nothing is taken.
    rw [hraw, hzero]
    simp
  · rw [contentCap] at *
    rw [tcpBufSize] at hfits
    constructor
    · intro hkept
      refine ⟨by omega, ?_⟩
      intro hend
      rw [if_neg (by omega)] at hraw
      have := hkept hend
      rw [hraw] at this
      omega
    · intro hone hend
      rw [if_neg (by omega)] at hraw
      rw [hraw]
      omega

def Complete (d : Download) : Prop := d.raw = d.net.tcpConn.recvBuf.take (contentCap - 1)

lemma complete_iff_length (hi : Received d) :
    Complete d ↔ min (contentCap - 1) d.net.tcpConn.recvBuf.length ≤ d.raw.length := by
  have hroom := hi.room
  have hbegins := List.prefix_iff_eq_take.mp hi.stored
  unfold Complete
  constructor
  · intro h
    have hlen := congrArg List.length h
    rw [List.length_take] at hlen
    exact hlen.ge
  · intro h
    rcases Nat.lt_or_ge d.net.tcpConn.recvBuf.length contentCap with hlt | hge
    · rw [hbegins, List.take_of_length_le (by omega), List.take_of_length_le (by omega)]
    · rw [hbegins, show d.raw.length = contentCap - 1 by omega]

lemma Turn.complete_iff (hi : Received d) (h : Turn d net n d')
    (hclosed : netTcpIsClosed d'.net) : Complete d' ↔ Kept d' ∧ TakesRest net.tcpConn := by
  have hi' := h.received hi
  have hfits := hi'.fits
  have hread := hi'.read
  have hcount := hi'.count
  have hroom := hi'.room
  have hn := h.count
  rw [netTcpIsClosed, h.state] at hclosed
  rw [complete_iff_length hi', Kept, TakesRest, iff_true_intro hclosed, true_imp_iff, h.grows.recvRead]
  rw [h.recvBuf, h.recvRead] at *
  rw [contentCap] at *
  rw [tcpBufSize] at hfits
  by_cases hend : d.net.tcpConn.recvRead + n = 64 * 1024
  · omega
  · omega

lemma lossless_iff (hnet : netPoll d.net p.segments = some net) :
    d.Lossless p ↔ TakesRest net.tcpConn ∧ TakesLastAlone net.tcpConn := by
  constructor
  · intro h
    exact h net hnet
  · intro h net' hnet'
    cases hnet.symm.trans hnet'
    exact h

instance (c : TcpConn) : Decidable (TakesRest c) := inferInstanceAs (Decidable (_ → _))

instance (c : TcpConn) : Decidable (TakesLastAlone c) := inferInstanceAs (Decidable (_ → _))

instance : Decidable (d.Lossless p) :=
  match hnet : netPoll d.net p.segments with
  | some _ => decidable_of_iff _ (lossless_iff hnet).symm
  | none => isTrue fun net h => by
    rw [hnet] at h
    cases h

/-! ## The loop -/

lemma run_complete_iff {polls : List Poll} (hrun : Run Download.step d polls d') (hi : Received d)
    (hopen : ¬ netTcpIsClosed d.net) (hclosed : netTcpIsClosed d'.net) :
    d'.raw <+: d'.net.tcpConn.recvBuf ∧
      (Complete d' ↔ Kept d ∧ Along Download.step Download.Lossless d polls) := by
  induction hrun with
  | nil => exact absurd hclosed hopen
  | @cons d e d' p polls hstep hrest ih =>
    obtain ⟨-, net, n, hnet, hturn⟩ := d.step_turn hi hstep
    have hi' := hturn.received hi
    rw [along_cons_iff hstep, lossless_iff hnet]
    by_cases hend : netTcpIsClosed e.net
    · -- The connection is closed behind this turn, so it is the last one.
      cases hrest with
      | nil =>
        refine ⟨hi'.stored, ?_⟩
        rw [hturn.complete_iff hi hend, hturn.kept_iff hi]
        tauto
      | cons hnext _ =>
        rw [Download.step, if_pos hend] at hnext
        cases hnext
    · have htakes : TakesRest net.tcpConn := by
        intro hstate
        rw [← hturn.state] at hstate
        exact absurd hstate hend
      obtain ⟨hbegins, hiff⟩ := ih hi' hend hclosed
      refine ⟨hbegins, ?_⟩
      rw [hiff, hturn.kept_iff hi]
      tauto

end Turn

/-! ## From the connection on -/

section Start
variable {net s : NetState} {destIp : Nat}

structure Unread (c : TcpConn) : Prop where
  fits : c.recvBuf.length ≤ tcpBufSize
  recvRead : c.recvRead = 0

lemma Unread.grows {c d : TcpConn} (h : Unread c) (hg : Grows c d) : Unread d :=
  ⟨hg.fits h.fits, hg.recvRead.trans h.recvRead⟩

lemma connect_unread (h : (netTcpConnect net destIp 80).2 = true) :
    Unread (netTcpConnect net destIp 80).1.tcpConn := by
  unfold netTcpConnect at h ⊢
  split at h
  · rename_i hup
    rw [if_pos hup]
    apply Unread.grows _ (tcpSendSegment_same _ _ _).grows
    exact ⟨Nat.zero_le _, rfl⟩
  · cases h

lemma connectStep_unread {start : Nat} {p : Poll} {t : NetState} (hi : Unread s.tcpConn)
    (h : connectStep start s p = some t) : Unread t.tcpConn := by
  unfold connectStep at h
  split at h
  · cases h
  · obtain ⟨u, hu, h⟩ := Option.bind_eq_some_iff.mp h
    split at h
    · cases h
    · cases h
      have hgrows := netPoll_grows hu
      exact hi.grows hgrows

lemma start_received (hi : Unread s.tcpConn) (req : List UInt8) : Received (Download.start s req) := by
  have h := hi.grows (netTcpSend_same s req).grows
  refine ⟨h.fits, ?_, List.nil_prefix, fun _ => h.recvRead.symm, ?_⟩
  · exact h.recvRead.le.trans (Nat.zero_le _)
  · exact Nat.lt_of_sub_eq_succ rfl

end Start

/-- Where the download ends since the connection is closed, the raw buffer is a first part of what the
connection received. It is all of it, up to the room of the buffer, exactly where the last poll left no
more than one turn takes, and the last byte of a full receive buffer was taken alone. -/
theorem download_complete_iff (net s : NetState) (destIp : Nat) (waits polls : List Poll)
    (req : List UInt8) (d : Download) (hconn : (netTcpConnect net destIp 80).2 = true)
    (hwait : Run (connectStep (netTcpConnect net destIp 80).1.ticks) (netTcpConnect net destIp 80).1
      waits s) (hestablished : s.tcpConn.state = .established)
    (hrun : Run Download.step (Download.start s req) polls d) (hclosed : netTcpIsClosed d.net) :
    d.raw <+: d.net.tcpConn.recvBuf ∧
      (d.raw = d.net.tcpConn.recvBuf.take (contentCap - 1) ↔
        Along Download.step Download.Lossless (Download.start s req) polls) := by
  have hs : Unread s.tcpConn :=
    hwait.invariant_along (fun t => Unread t.tcpConn) (fun _ _ _ hi _ h => connectStep_unread hi h)
      (connect_unread hconn) (Along.of_forall (fun _ _ => trivial) _ _)
  have hopen : ¬ netTcpIsClosed (Download.start s req).net := by
    rw [netTcpIsClosed, Download.start, (netTcpSend_same s req).state, hestablished]
    simp
  obtain ⟨hbegins, hiff⟩ := run_complete_iff hrun (start_received hs req) hopen hclosed
  refine ⟨hbegins, hiff.trans ?_⟩
  -- At the start nothing is read, so nothing is dropped.
  have hkept : Kept (Download.start s req) := by
    intro hread
    have hzero : (Download.start s req).net.tcpConn.recvRead = 0 :=
      (netTcpSend_same s req).recvRead.trans hs.recvRead
    rw [hzero] at hread
    exact absurd hread (by decide)
  exact and_iff_right hkept

/-! ## A server that closes behind its answer -/

def onlineEstablished : Option NetState :=
  exec (connectStep (netTcpConnect onlineNet serverIp 80).1.ticks) (netTcpConnect onlineNet serverIp 80).1
    [⟨[(serverSegment 500 0xA5A5C4 0x12 [], serverIp)], 1⟩]

def answer (data : List UInt8) : List Poll := [⟨[(serverSegment 501 0xA5A5C4 0x11 data, serverIp)], 1⟩]

def onlineDownload (data : List UInt8) : Option Download :=
  onlineEstablished.bind fun s => exec Download.step (Download.start s [0x47]) (answer data)

lemma onlineDownload_run {data : List UInt8} {d : Download} (h : onlineDownload data = some d) :
    ∃ s, Run (connectStep (netTcpConnect onlineNet serverIp 80).1.ticks)
      (netTcpConnect onlineNet serverIp 80).1 [⟨[(serverSegment 500 0xA5A5C4 0x12 [], serverIp)], 1⟩] s ∧
      onlineEstablished = some s ∧ Run Download.step (Download.start s [0x47]) (answer data) d := by
  obtain ⟨s, hs, hd⟩ := Option.bind_eq_some_iff.mp h
  exact ⟨s, Run.of_exec hs, hs, Run.of_exec hd⟩

/-- An answer of three bytes is stored. -/
theorem download_complete_short : ∃ d, onlineDownload [1, 2, 3] = some d ∧ netTcpIsClosed d.net ∧
    d.raw = d.net.tcpConn.recvBuf.take (contentCap - 1) := by
  have hend : ((onlineDownload [1, 2, 3]).map fun d => decide (netTcpIsClosed d.net)) = some true := by
    decide +kernel
  have hstart : (onlineEstablished.map fun s => decide (s.tcpConn.state = .established ∧
      Along Download.step Download.Lossless (Download.start s [0x47]) (answer [1, 2, 3]))) = some true := by
    decide +kernel
  obtain ⟨d, hd, hclosed⟩ := Option.map_eq_some_iff.mp hend
  obtain ⟨s, hwait, hs, hrun⟩ := onlineDownload_run hd
  rw [hs, Option.map_some, Option.some_inj, decide_eq_true_eq] at hstart
  rw [decide_eq_true_eq] at hclosed
  refine ⟨d, hd, hclosed, ?_⟩
  exact (download_complete_iff onlineNet s serverIp _ _ [0x47] d (by decide) hwait hstart.1 hrun
    hclosed).2.mpr hstart.2

/-- Of an answer of 513 bytes the last one is not read. -/
theorem not_download_complete_513 : ∃ d, onlineDownload (List.replicate 513 1) = some d ∧
    netTcpIsClosed d.net ∧ d.raw.length = 512 ∧ d.net.tcpConn.recvBuf.length = 513 ∧
    d.raw ≠ d.net.tcpConn.recvBuf.take (contentCap - 1) := by
  have hend : ((onlineDownload (List.replicate 513 1)).map fun d => decide (netTcpIsClosed d.net ∧
      d.raw.length = 512 ∧ d.net.tcpConn.recvBuf.length = 513)) = some true := by decide +kernel
  obtain ⟨d, hd, h⟩ := Option.map_eq_some_iff.mp hend
  obtain ⟨hclosed, hraw, hbuf⟩ := of_decide_eq_true h
  refine ⟨d, hd, hclosed, hraw, hbuf, ?_⟩
  intro heq
  have hlen := congrArg List.length heq
  rw [List.length_take, hraw, hbuf] at hlen
  exact absurd hlen (by decide)

end FusionOS.Browser
