import FusionOS.Lib.Run
import FusionOS.Net.DhcpOptions
import FusionOS.Net.FrameBounds

/-!
# The DHCP client

The client sends a DISCOVER, answers the first OFFER with a REQUEST and is bound by an ACK. The
timer of `net_poll` begins anew with the same transaction id, so a message of an earlier round is
taken for one of the current round.
-/

namespace FusionOS.Net

open List

/-- `net_init`, where `e1000_init` has found a card with the address `mac`. -/
def netInit (s : NetState) (mac : List UInt8) : NetState :=
  let s : NetState := { s with
    arpCache := s.arpCache.map fun e => { e with valid := false }
    netReady := false
    dhcpState := .init
    dhcpOfferIp := 0
    dhcpServer := 0
    dhcpLastSend := 0
    localMac := mac }
  let s := dhcpSendDiscover { s with dhcpXid := (s.ticks ^^^ 0xA5A5A5A5) % 2 ^ 32 }
  { s with tcpConn := { s.tcpConn with state := .closed, recvBuf := [], recvRead := 0 } }

def netIsUp (s : NetState) : Bool := s.netReady && s.localIp != 0

/-- What the client meets: a UDP payload for its port, the timer part of `net_poll`, and the clock. -/
inductive DhcpEvent where
  | message (m : Buf)
  | poll
  | tick (n : Nat)

def dhcpStep (s : NetState) : DhcpEvent → Option NetState
  | .message m => dhcpHandle s m 0 m.length
  | .poll => some (dhcpTimer s)
  | .tick n => some { s with ticks := (s.ticks + n) % 2 ^ 64 }

def dhcpReply (s : NetState) (m : Buf) : Option (DhcpOptions × Nat) :=
  if 240 ≤ m.length ∧ rd8 m 0 = some 2 ∧ rd32be m 4 = some s.dhcpXid ∧
      rd32be m 236 = some 0x63825363 then
    (dhcpOptions m m.length 240 ⟨0, 0, 0, 0, 0⟩).bind fun o => (rd32le m 16).map fun y => (o, y)
  else none

def takeReply (s : NetState) (o : DhcpOptions) (yiaddr : Nat) : NetState :=
  if o.msgType = 2 ∧ s.dhcpState = .discoverSent then
    dhcpSendRequest { s with dhcpOfferIp := yiaddr, dhcpServer := o.serverId }
  else if o.msgType = 5 ∧ s.dhcpState = .requestSent then
    { s with
      localIp := yiaddr, netmask := o.subnet, gateway := o.router, dnsServer := o.dns
      dhcpState := .bound, netReady := true }
  else s

/-- Where the event binds the client, it is an ACK of the server and for the address last requested,
and the network is up. -/
def BoundAfter (s : NetState) (e : DhcpEvent) : Prop :=
  ∀ t, dhcpStep s e = some t → s.dhcpState ≠ .bound → t.dhcpState = .bound →
    ∃ m o yiaddr, e = .message m ∧ dhcpReply s m = some (o, yiaddr) ∧
      o.serverId = t.dhcpServer ∧ yiaddr = t.dhcpOfferIp ∧ t.localIp ≠ 0 ∧ netIsUp t = true

/-- An ACK that comes while one is awaited is from the server last requested and for the address last
requested, and that is not 0. -/
def AckMatches (s : NetState) : DhcpEvent → Prop
  | .message m => ∀ o yiaddr, dhcpReply s m = some (o, yiaddr) → o.msgType = 5 →
      s.dhcpState = .requestSent → o.serverId = s.dhcpServer ∧ yiaddr = s.dhcpOfferIp ∧ yiaddr ≠ 0
  | _ => True

/-- An OFFER or ACK of the current transaction is from `server` and for the address `ip`. -/
def FromOne (server ip : Nat) (s : NetState) : DhcpEvent → Prop
  | .message m => ∀ o yiaddr, dhcpReply s m = some (o, yiaddr) → o.msgType = 2 ∨ o.msgType = 5 →
      o.serverId = server ∧ yiaddr = ip
  | _ => True

section Steps
variable {s t : NetState} {m : Buf}

lemma dhcpHandle_eq (s : NetState) (m : Buf) :
    dhcpHandle s m 0 m.length =
      some (match dhcpReply s m with
        | none => s
        | some (o, yiaddr) => takeReply s o yiaddr) := by
  unfold dhcpHandle dhcpReply
  by_cases hlen : m.length < 240
  · rw [if_pos hlen, if_neg (by omega)]
  rw [if_neg hlen]
  obtain ⟨op, hop, -⟩ := rd8_of_lt (f := m) (i := 0) (by omega)
  obtain ⟨xid, hxid, -⟩ := rd32be_of_lt (f := m) (i := 4) (by omega)
  obtain ⟨magic, hmagic, -⟩ := rd32be_of_lt (f := m) (i := 236) (by omega)
  obtain ⟨yiaddr, hyiaddr, -⟩ := rd32le_of_lt (f := m) (i := 16) (by omega)
  obtain ⟨o, ho⟩ := Option.isSome_iff_exists.mp (dhcpOptions_isSome (f := m) (le_refl _) 240 ⟨0, 0, 0, 0, 0⟩)
  simp only [Nat.zero_add, hop, hxid, hmagic, hyiaddr, ho, Option.bind_eq_bind, Option.bind_some,
    Option.map_some, Option.pure_def, Option.some.injEq]
  have hlen' : 240 ≤ m.length := Nat.le_of_not_lt hlen
  by_cases hreply : op = 2 ∧ xid = s.dhcpXid ∧ magic = 0x63825363
  · rw [if_neg (not_not.mpr hreply.1), if_neg (not_not.mpr hreply.2.1), if_neg (not_not.mpr hreply.2.2),
      if_pos (⟨hlen', hreply⟩ : 240 ≤ m.length ∧ _)]
    unfold takeReply
    dsimp only
    split_ifs
    all_goals rfl
  · have hnone : ¬(240 ≤ m.length ∧ op = 2 ∧ xid = s.dhcpXid ∧ magic = 0x63825363) :=
      fun h => hreply h.2
    rw [if_neg hnone]
    split_ifs with hop' hxid' hmagic'
    · rfl
    · rfl
    · rfl
    all_goals exact absurd ⟨not_not.mp hop', not_not.mp hxid', not_not.mp hmagic'⟩ hreply

def Sends (s t : NetState) : Prop := ∃ sent ipId, t = { s with sent := sent, ipId := ipId }

lemma netSendFrame_sends (s : NetState) (dst : List UInt8) (type : Nat) (payload : List UInt8) :
    Sends s (netSendFrame s dst type payload) := by
  unfold netSendFrame
  split
  · exact ⟨s.sent, s.ipId, rfl⟩
  · exact ⟨_, s.ipId, rfl⟩

lemma netSendIpv4To_sends (s : NetState) (mac : List UInt8) (ip proto : Nat) (payload : List UInt8) :
    Sends s (netSendIpv4To s mac ip proto payload) := by
  unfold netSendIpv4To
  split
  · exact ⟨s.sent, s.ipId, rfl⟩
  · obtain ⟨sent, ipId, hframe⟩ := netSendFrame_sends { s with ipId := (s.ipId + 1) % 2 ^ 32 } mac 0x0800
      (ipv4Header s ip proto payload.length (checksum16 (ipv4Header s ip proto payload.length 0)) ++ payload)
    exact ⟨sent, ipId, hframe⟩

lemma netSendUdp_sends (s : NetState) (ip src dst : Nat) (data : List UInt8) :
    Sends s (netSendUdp s ip src dst data) := by
  unfold netSendUdp
  split
  · exact ⟨s.sent, s.ipId, rfl⟩
  unfold netSendIpv4
  split
  · exact netSendIpv4To_sends _ _ _ _ _
  split
  · exact netSendIpv4To_sends _ _ _ _ _
  · exact netSendFrame_sends _ _ _ _

lemma dhcpSendRequest_eq (s : NetState) : ∃ sent ipId, dhcpSendRequest s =
    { s with sent := sent, ipId := ipId, dhcpLastSend := s.ticks, dhcpState := .requestSent } := by
  obtain ⟨sent, ipId, hsends⟩ := netSendUdp_sends s 0xFFFFFFFF 68 67
    (dhcpHeader s ++ [53, 1, 3, 50, 4] ++ u32le s.dhcpOfferIp ++ [54, 4] ++ u32le s.dhcpServer ++
      [55, 3, 1, 3, 6, 255])
  refine ⟨sent, ipId, ?_⟩
  unfold dhcpSendRequest
  rw [hsends]

lemma dhcpSendDiscover_eq (s : NetState) : ∃ sent ipId, dhcpSendDiscover s =
    { s with sent := sent, ipId := ipId, dhcpLastSend := s.ticks, dhcpState := .discoverSent } := by
  obtain ⟨sent, ipId, hsends⟩ := netSendUdp_sends s 0xFFFFFFFF 68 67
    (dhcpHeader s ++ [53, 1, 1, 55, 3, 1, 3, 6, 255])
  refine ⟨sent, ipId, ?_⟩
  unfold dhcpSendDiscover
  rw [hsends]

lemma dhcpTimer_cases (s : NetState) : dhcpTimer s = s ∨ (dhcpTimer s).dhcpState = .discoverSent := by
  unfold dhcpTimer
  split
  · exact .inr rfl
  · exact .inl rfl

/-- What a reply leaves behind: a REQUEST for an OFFER, a binding by an ACK, or nothing. -/
inductive ReplyOut (s : NetState) (o : DhcpOptions) (yiaddr : Nat) : NetState → Prop
  | offer {t : NetState} (htype : o.msgType = 2) (hstate : t.dhcpState = .requestSent)
      (hserver : t.dhcpServer = o.serverId) (hip : t.dhcpOfferIp = yiaddr) : ReplyOut s o yiaddr t
  | ack {t : NetState} (htype : o.msgType = 5) (hwaiting : s.dhcpState = .requestSent)
      (hstate : t.dhcpState = .bound) (hserver : t.dhcpServer = s.dhcpServer)
      (hip : t.dhcpOfferIp = s.dhcpOfferIp) (hlocal : t.localIp = yiaddr) (hready : t.netReady = true) :
      ReplyOut s o yiaddr t
  | ignored (h : ¬(o.msgType = 5 ∧ s.dhcpState = .requestSent)) : ReplyOut s o yiaddr s

lemma takeReply_out (s : NetState) (o : DhcpOptions) (yiaddr : Nat) :
    ReplyOut s o yiaddr (takeReply s o yiaddr) := by
  unfold takeReply
  split
  next hoffer =>
    obtain ⟨sent, ipId, hrequest⟩ :=
      dhcpSendRequest_eq { s with dhcpOfferIp := yiaddr, dhcpServer := o.serverId }
    rw [hrequest]
    exact .offer hoffer.1 rfl rfl rfl
  split
  next hack => exact .ack hack.1 hack.2 rfl rfl rfl rfl rfl
  next hack => exact .ignored hack

lemma dhcpStep_message {t : NetState} (h : dhcpStep s (.message m) = some t) :
    t = s ∧ dhcpReply s m = none ∨
      ∃ o yiaddr, dhcpReply s m = some (o, yiaddr) ∧ ReplyOut s o yiaddr t := by
  rw [dhcpStep, dhcpHandle_eq] at h
  cases hreply : dhcpReply s m with
  | none =>
    rw [hreply] at h
    exact .inl ⟨(Option.some.inj h).symm, rfl⟩
  | some r =>
    rw [hreply] at h
    obtain rfl := Option.some.inj h
    exact .inr ⟨r.1, r.2, rfl, takeReply_out s r.1 r.2⟩

lemma boundAfter_message (s : NetState) (m : Buf) :
    BoundAfter s (.message m) ↔ AckMatches s (.message m) := by
  constructor
  · intro hafter o yiaddr hreply htype hwaiting
    have hstep : dhcpStep s (.message m) = some (takeReply s o yiaddr) := by
      rw [dhcpStep, dhcpHandle_eq, hreply]
    have hout := takeReply_out s o yiaddr
    have hbound := hafter _ hstep
    generalize takeReply s o yiaddr = t at hout hbound
    cases hout with
    | offer htype' => omega
    | ack _ _ hstate hserver hip hlocal _ =>
      obtain ⟨m', o', y', hm, hreply', hid, hy, hne, -⟩ := hbound (by rw [hwaiting]; decide) hstate
      cases hm
      cases hreply.symm.trans hreply'
      exact ⟨hid.trans hserver, hy.trans hip, hlocal ▸ hne⟩
    | ignored h => exact absurd ⟨htype, hwaiting⟩ h
  · intro hmatch t hstep hbefore hafter
    rcases dhcpStep_message hstep with ⟨rfl, -⟩ | ⟨o, yiaddr, hreply, hout⟩
    · exact absurd hafter hbefore
    cases hout with
    | offer _ hstate =>
      rw [hstate] at hafter
      cases hafter
    | ack htype hwaiting _ hserver hip hlocal hready =>
      obtain ⟨hid, hy, hne⟩ := hmatch o yiaddr hreply htype hwaiting
      refine ⟨m, o, yiaddr, rfl, hreply, hid.trans hserver.symm, hy.trans hip.symm, hlocal ▸ hne, ?_⟩
      rw [netIsUp, hready, hlocal, Bool.true_and]
      exact bne_iff_ne.mpr hne
    | ignored _ => exact absurd hafter hbefore

lemma boundAfter_iff (s : NetState) (e : DhcpEvent) : BoundAfter s e ↔ AckMatches s e := by
  cases e with
  | message m => exact boundAfter_message s m
  | poll =>
    refine iff_of_true ?_ trivial
    rintro t ⟨⟩ hbefore hafter
    rcases dhcpTimer_cases s with heq | hsent
    · rw [heq] at hafter
      exact absurd hafter hbefore
    · rw [hsent] at hafter
      cases hafter
  | tick n =>
    refine iff_of_true ?_ trivial
    rintro t ⟨⟩ hbefore hafter
    exact absurd hafter hbefore

end Steps

def Requests (server ip : Nat) (s : NetState) : Prop :=
  s.dhcpState = .requestSent → s.dhcpServer = server ∧ s.dhcpOfferIp = ip

lemma Requests.step {server ip : Nat} {s t : NetState} {e : DhcpEvent} (h : Requests server ip s)
    (hone : FromOne server ip s e) (hstep : dhcpStep s e = some t) : Requests server ip t := by
  cases e with
  | message m =>
    rcases dhcpStep_message hstep with ⟨rfl, -⟩ | ⟨o, yiaddr, hreply, hout⟩
    · exact h
    cases hout with
    | offer htype _ hserver hip =>
      obtain ⟨hid, hy⟩ := hone o yiaddr hreply (.inl htype)
      exact fun _ => ⟨hserver.trans hid, hip.trans hy⟩
    | ack _ _ hstate =>
      intro hwaiting
      rw [hstate] at hwaiting
      cases hwaiting
    | ignored _ => exact h
  | poll =>
    cases hstep
    rcases dhcpTimer_cases s with heq | hsent
    · rw [heq]
      exact h
    · intro hwaiting
      rw [hsent] at hwaiting
      cases hwaiting
  | tick n =>
    cases hstep
    exact h

lemma dhcp_bound_one_server {server ip : Nat} (hip : ip ≠ 0) (s : NetState) (mac : List UInt8)
    (es : List DhcpEvent) (hone : Along dhcpStep (FromOne server ip) (netInit s mac) es) :
    Along dhcpStep BoundAfter (netInit s mac) es := by
  have hinit : Requests server ip (netInit s mac) := fun h => by cases h
  refine (Along.iff_of_invariant (P := fun _ _ => True) (Requests server ip) ?_ ?_ hinit hone).mp
    (.of_forall (fun _ _ => trivial) _ _)
  · exact fun _ _ _ hr hone _ hstep => hr.step hone hstep
  · intro s e hr hone
    rw [boundAfter_iff]
    refine iff_of_true trivial ?_
    cases e with
    | message m =>
      intro o yiaddr hreply htype hwaiting
      obtain ⟨hserver, hoffer⟩ := hr hwaiting
      obtain ⟨hid, hy⟩ := hone o yiaddr hreply (.inr htype)
      exact ⟨hid.trans hserver.symm, hy.trans hoffer.symm, hy ▸ hip⟩
    | poll => trivial
    | tick n => trivial

/-- A reply with the transaction id of a start at time 0, of type `type`, from 10.0.0.`b` and for
10.0.0.`a`. -/
def replyMessage (type a b : UInt8) : Buf :=
  [2, 1, 6, 0] ++ u32be 0xA5A5A5A5 ++ List.replicate 8 0 ++ [10, 0, 0, a] ++ List.replicate 216 0 ++
    u32be 0x63825363 ++ [53, 1, type, 54, 4, 10, 0, 0, b, 255]

def replyItems (type b : UInt8) : List OptItem :=
  [.opt ⟨53, [type], by decide, Nat.le_of_ble_eq_true rfl⟩, .opt (serverIdOpt 10 0 0 b)]

lemma dhcpOptions_replyMessage (type a b : UInt8) :
    dhcpOptions (replyMessage type a b) 250 240 ⟨0, 0, 0, 0, 0⟩ =
      some ⟨type.toNat, 10 + b.toNat * 16777216, 0, 0, 0⟩ := by
  have hdrop : (replyMessage type a b).drop 240 = encodeOptions (replyItems type b) (.mark []) ++ [] := by
    rw [replyMessage, drop_left']
    · rfl
    · simp only [u32be, u16be, length_append, length_replicate, length_cons,
        length_nil]
  have hserver : firstWord (some [10, 0, 0, b]) = 10 + b.toNat * 16777216 := by
    rw [firstWord, Option.bind_some, rd32le_cons, Option.getD_some]
    rfl
  have hvalues : optionsOf (replyItems type b) = ⟨type.toNat, 10 + b.toNat * 16777216, 0, 0, 0⟩ := by
    rw [← hserver]
    rfl
  have hloop := dhcpOptions_items (replyItems type b) [] hdrop rfl
  rw [nil_append, hvalues] at hloop
  exact hloop

lemma dhcpReply_replyMessage {s : NetState} (hxid : s.dhcpXid = 0xA5A5A5A5) (type a b : UInt8) :
    dhcpReply s (replyMessage type a b) =
      some (⟨type.toNat, 10 + b.toNat * 16777216, 0, 0, 0⟩, 10 + a.toNat * 16777216) := by
  have hlength : (replyMessage type a b).length = 250 := by
    simp only [replyMessage, u32be, u16be, length_append, length_replicate, length_cons,
      length_nil]
  have haddress : rd32le (replyMessage type a b) 16 = some (10 + a.toNat * 16777216) := rfl
  rw [dhcpReply, if_pos ⟨by rw [hlength]; decide, rfl, by rw [hxid]; rfl, rfl⟩, hlength,
    dhcpOptions_replyMessage, haddress]
  rfl

lemma dhcpStep_replyMessage {s : NetState} (hxid : s.dhcpXid = 0xA5A5A5A5) (type a b : UInt8) :
    dhcpStep s (.message (replyMessage type a b)) =
      some (takeReply s ⟨type.toNat, 10 + b.toNat * 16777216, 0, 0, 0⟩ (10 + a.toNat * 16777216)) := by
  rw [dhcpStep, dhcpHandle_eq, dhcpReply_replyMessage hxid]

/-- A client started at time 0, in the given state, that has sent its last message at time `last`. -/
structure StartedAtZero (s : NetState) (state : DhcpState) (ticks last : Nat) : Prop where
  xid : s.dhcpXid = 0xA5A5A5A5
  state : s.dhcpState = state
  ticks : s.ticks = ticks
  last : s.dhcpLastSend = last

lemma netInit_startedAtZero (mac : List UInt8) :
    StartedAtZero (netInit NetState.zero mac) .discoverSent 0 0 := by
  unfold netInit
  dsimp only
  generalize hs : ({ NetState.zero with
    arpCache := _, netReady := _, dhcpState := _, dhcpOfferIp := _, dhcpServer := _, dhcpLastSend := _,
    localMac := _, dhcpXid := _ } : NetState) = s
  obtain ⟨sent, ipId, hinit⟩ := dhcpSendDiscover_eq s
  rw [hinit, ← hs]
  exact ⟨rfl, rfl, rfl, rfl⟩

lemma StartedAtZero.offer {s : NetState} {ticks last : Nat} (h : StartedAtZero s .discoverSent ticks last)
    (a b : UInt8) : ∃ t, dhcpStep s (.message (replyMessage 2 a b)) = some t ∧
      StartedAtZero t .requestSent ticks ticks ∧ t.dhcpServer = 10 + b.toNat * 16777216 := by
  refine ⟨_, dhcpStep_replyMessage h.xid 2 a b, ?_⟩
  rw [takeReply, if_pos ⟨rfl, h.state⟩]
  obtain ⟨sent, ipId, hrequest⟩ := dhcpSendRequest_eq
    { s with dhcpOfferIp := 10 + a.toNat * 16777216, dhcpServer := 10 + b.toNat * 16777216 }
  rw [hrequest]
  exact ⟨⟨h.xid, rfl, h.ticks, h.ticks⟩, rfl⟩

lemma StartedAtZero.late {s : NetState} (h : StartedAtZero s .requestSent 121 0) :
    StartedAtZero (dhcpTimer s) .discoverSent 121 121 := by
  have hlate : s.dhcpState ≠ .bound ∧ pitHz * 2 < (s.ticks + 2 ^ 64 - s.dhcpLastSend) % 2 ^ 64 := by
    rw [h.state, h.ticks, h.last]
    decide
  obtain ⟨sent, ipId, hdiscover⟩ := dhcpSendDiscover_eq s
  rw [dhcpTimer, if_pos hlate, hdiscover]
  exact ⟨h.xid, rfl, h.ticks, h.ticks⟩

end FusionOS.Net
