import FusionOS.Lib.Buf
import FusionOS.Lib.Mem

/-!
# The network service

The state of the service and every function that a received frame can reach, with the senders they
use. A received frame is a buffer, read at absolute indices; `none` stands for a read outside the
frame.
-/

namespace FusionOS.Net

def pitHz : Nat := 60

inductive DhcpState where
  | init | discoverSent | requestSent | bound
  deriving DecidableEq, Repr

inductive TcpState where
  | closed | synSent | established | finWait | closeWait
  deriving DecidableEq, Repr

structure ArpEntry where
  ip : Nat
  mac : List UInt8
  lastSeen : Nat
  valid : Bool
  deriving DecidableEq, Repr

/-- `recvBuf` holds the `recv_len` bytes stored so far of the array `recv_buf`. -/
structure TcpConn where
  state : TcpState
  destIp : Nat
  destPort : Nat
  srcPort : Nat
  sndNxt : Nat
  sndUna : Nat
  rcvNxt : Nat
  recvBuf : List UInt8
  recvRead : Nat
  lastPayload : Mem
  lastLen : Nat
  lastFlags : Nat
  lastSeq : Nat
  lastSendTick : Nat
  waitingAck : Bool

structure NetState where
  localMac : List UInt8
  localIp : Nat
  netmask : Nat
  gateway : Nat
  dnsServer : Nat
  netReady : Bool
  arpCache : List ArpEntry
  ipId : Nat
  dhcpState : DhcpState
  dhcpXid : Nat
  dhcpServer : Nat
  dhcpOfferIp : Nat
  dhcpLastSend : Nat
  tcpConn : TcpConn
  dnsPending : Bool
  dnsTxid : Nat
  dnsResultIp : Nat
  ticks : Nat
  sent : List (List UInt8)

/-- The service as it starts, before any frame. -/
def NetState.zero : NetState :=
  { localMac := List.replicate 6 0, localIp := 0, netmask := 0, gateway := 0, dnsServer := 0
    netReady := false, arpCache := List.replicate 8 ⟨0, List.replicate 6 0, 0, false⟩, ipId := 1
    dhcpState := .init, dhcpXid := 0, dhcpServer := 0, dhcpOfferIp := 0, dhcpLastSend := 0
    tcpConn :=
      { state := .closed, destIp := 0, destPort := 0, srcPort := 0, sndNxt := 0, sndUna := 0
        rcvNxt := 0, recvBuf := [], recvRead := 0, lastPayload := fun _ => 0, lastLen := 0
        lastFlags := 0, lastSeq := 0, lastSendTick := 0, waitingAck := false }
    dnsPending := false, dnsTxid := 0, dnsResultIp := 0, ticks := 0, sent := [] }

def flagFin : Nat := 0x01
def flagSyn : Nat := 0x02
def flagPsh : Nat := 0x08
def flagAck : Nat := 0x10

def tcpBufSize : Nat := 65536
def tcpMss : Nat := 1460

/-! ## Checksums -/

/-- The loop over pairs of bytes, with the odd byte at the end. -/
def sumWords : Nat → List UInt8 → Nat
  | sum, a :: b :: rest => sumWords ((sum + (a.toNat * 256 + b.toNat)) % 2 ^ 32) rest
  | sum, [a] => (sum + a.toNat * 256) % 2 ^ 32
  | sum, [] => sum

/-- The loop that adds the carries back. -/
def foldCarries (sum : Nat) : Nat :=
  if sum / 65536 = 0 then sum else foldCarries (sum % 65536 + sum / 65536)
termination_by sum
decreasing_by omega

def checksum16 (data : List UInt8) : Nat := 65535 - foldCarries (sumWords 0 data)

def checksumTcp (src dst : Nat) (tcp : List UInt8) : Nat :=
  let pseudo := u32le src ++ u32le dst ++ [0, 6] ++ u16be tcp.length
  65535 - foldCarries (sumWords (sumWords 0 pseudo) tcp)

/-! ## Sending -/

/-- The slot that an update of `ip` writes: its own, else the first free one, else slot 0. -/
def arpSlot (ip : Nat) : List ArpEntry → Nat → Option Nat → Nat
  | [], _, slot => slot.getD 0
  | e :: rest, i, slot =>
    if e.valid && e.ip == ip then i
    else arpSlot ip rest (i + 1) (if !e.valid && slot.isNone then some i else slot)

def arpCacheUpdate (s : NetState) (ip : Nat) (mac : List UInt8) : NetState :=
  { s with arpCache := s.arpCache.set (arpSlot ip s.arpCache 0 none) ⟨ip, mac, s.ticks, true⟩ }

def arpCacheLookup (s : NetState) (ip : Nat) : Option (List UInt8) :=
  (s.arpCache.find? fun e => e.valid && e.ip == ip).map ArpEntry.mac

def broadcastMac : List UInt8 := List.replicate 6 0xFF

def netSendFrame (s : NetState) (dst : List UInt8) (ethType : Nat) (payload : List UInt8) : NetState :=
  if 1514 < payload.length + 14 then s
  else { s with sent := s.sent ++ [dst ++ s.localMac ++ u16be ethType ++ payload] }

def arpPacket (s : NetState) (oper : Nat) (tha : List UInt8) (tpa : Nat) : List UInt8 :=
  u16be 1 ++ u16be 0x0800 ++ [6, 4] ++ u16be oper ++ s.localMac ++ u32le s.localIp ++ tha ++ u32le tpa

def arpSendRequest (s : NetState) (targetIp : Nat) : NetState :=
  netSendFrame s broadcastMac 0x0806 (arpPacket s 1 (List.replicate 6 0) targetIp)

def arpSendReply (s : NetState) (targetMac : List UInt8) (targetIp : Nat) : NetState :=
  netSendFrame s targetMac 0x0806 (arpPacket s 2 targetMac targetIp)

/-- The header before its checksum field is filled in. -/
def ipv4Header (s : NetState) (destIp proto len checksum : Nat) : List UInt8 :=
  [0x45, 0] ++ u16be (20 + len) ++ u16be (s.ipId % 65536) ++ u16be 0x4000 ++
    [64, UInt8.ofNat proto] ++ u16le checksum ++ u32le s.localIp ++ u32le destIp

def netSendIpv4To (s : NetState) (dstMac : List UInt8) (destIp proto : Nat) (payload : List UInt8) : NetState :=
  if 1500 < 20 + payload.length then s
  else
    let checksum := checksum16 (ipv4Header s destIp proto payload.length 0)
    let packet := ipv4Header s destIp proto payload.length checksum ++ payload
    netSendFrame { s with ipId := (s.ipId + 1) % 2 ^ 32 } dstMac 0x0800 packet

/-- The next hop: the gateway for a destination outside the local network. -/
def nextHop (s : NetState) (destIp : Nat) : Nat :=
  if s.netmask ≠ 0 ∧ s.gateway ≠ 0 ∧ s.localIp &&& s.netmask ≠ destIp &&& s.netmask then s.gateway
  else destIp

def netSendIpv4 (s : NetState) (destIp proto : Nat) (payload : List UInt8) : NetState :=
  if destIp = 0xFFFFFFFF ∨ s.localIp = 0 then netSendIpv4To s broadcastMac destIp proto payload
  else
    match arpCacheLookup s (nextHop s destIp) with
    | some mac => netSendIpv4To s mac destIp proto payload
    | none => arpSendRequest s (nextHop s destIp)

def netSendUdp (s : NetState) (destIp srcPort dstPort : Nat) (data : List UInt8) : NetState :=
  if 1500 < 28 + data.length then s
  else
    netSendIpv4 s destIp 17
      (u16be srcPort ++ u16be dstPort ++ u16be (8 + data.length) ++ [0, 0] ++ data)

/-! ## DHCP -/

/-- The 240 bytes before the options. -/
def dhcpHeader (s : NetState) : List UInt8 :=
  [1, 1, 6, 0] ++ u32be s.dhcpXid ++ [0, 0] ++ u16be 0x8000 ++ List.replicate 16 0 ++
    s.localMac ++ List.replicate (10 + 64 + 128) 0 ++ u32be 0x63825363

def dhcpSendDiscover (s : NetState) : NetState :=
  let s := netSendUdp s 0xFFFFFFFF 68 67 (dhcpHeader s ++ [53, 1, 1, 55, 3, 1, 3, 6, 255])
  { s with dhcpLastSend := s.ticks, dhcpState := .discoverSent }

def dhcpSendRequest (s : NetState) : NetState :=
  let s := netSendUdp s 0xFFFFFFFF 68 67
    (dhcpHeader s ++ [53, 1, 3, 50, 4] ++ u32le s.dhcpOfferIp ++ [54, 4] ++ u32le s.dhcpServer ++
      [55, 3, 1, 3, 6, 255])
  { s with dhcpLastSend := s.ticks, dhcpState := .requestSent }

structure DhcpOptions where
  msgType : Nat
  serverId : Nat
  subnet : Nat
  router : Nat
  dns : Nat

/-- One option with its `olen` bytes of data at `opt`. -/
def dhcpOption (f : Buf) (tag olen opt : Nat) (o : DhcpOptions) : Option DhcpOptions :=
  if tag = 53 ∧ olen = 1 then (rd8 f opt).map fun v => { o with msgType := v }
  else if tag = 54 ∧ olen = 4 then (rd32le f opt).map fun v => { o with serverId := v }
  else if tag = 1 ∧ olen = 4 then (rd32le f opt).map fun v => { o with subnet := v }
  else if tag = 3 ∧ 4 ≤ olen then (rd32le f opt).map fun v => { o with router := v }
  else if tag = 6 ∧ 4 ≤ olen then (rd32le f opt).map fun v => { o with dns := v }
  else some o

/-- The option loop of `dhcp_handle`; `stop` is the pointer `end`. -/
def dhcpOptions (f : Buf) (stop opt : Nat) (o : DhcpOptions) : Option DhcpOptions :=
  if opt < stop then
    (rd8 f opt).bind fun tag =>
      if tag = 255 then some o
      else if tag = 0 then dhcpOptions f stop (opt + 1) o
      else if stop ≤ opt + 1 then some o
      else
        (rd8 f (opt + 1)).bind fun olen =>
          if stop < opt + 2 + olen then some o
          else (dhcpOption f tag olen (opt + 2) o).bind fun o =>
            dhcpOptions f stop (opt + 2 + olen) o
  else some o
termination_by stop - opt

def dhcpHandle (s : NetState) (f : Buf) (payload len : Nat) : Option NetState :=
  if len < 240 then some s
  else do
    let op ← rd8 f payload
    if op ≠ 2 then return s
    let xid ← rd32be f (payload + 4)
    if xid ≠ s.dhcpXid then return s
    let magic ← rd32be f (payload + 236)
    if magic ≠ 0x63825363 then return s
    let o ← dhcpOptions f (payload + len) (payload + 240) ⟨0, 0, 0, 0, 0⟩
    if o.msgType = 2 ∧ s.dhcpState = .discoverSent then
      let yiaddr ← rd32le f (payload + 16)
      return dhcpSendRequest { s with dhcpOfferIp := yiaddr, dhcpServer := o.serverId }
    if o.msgType = 5 ∧ s.dhcpState = .requestSent then
      let yiaddr ← rd32le f (payload + 16)
      return { s with
        localIp := yiaddr, netmask := o.subnet, gateway := o.router, dnsServer := o.dns
        dhcpState := .bound, netReady := true }
    return s

/-! ## DNS -/

/-- `dns_skip_name`: the cursor after the name, or `some none` where the name is cut off. -/
def dnsSkipName (f : Buf) (stop p : Nat) : Option (Option Nat) :=
  if p < stop then
    (rd8 f p).bind fun len =>
      if len = 0 then some (some (p + 1))
      else if 192 ≤ len then (if stop ≤ p + 1 then some none else some (some (p + 2)))
      else if stop < p + 1 + len then some none
      else dnsSkipName f stop (p + 1 + len)
  else some none
termination_by stop - p

/-- The loop over the questions. -/
def dnsQuestions (f : Buf) (stop : Nat) : Nat → Nat → Option (Option Nat)
  | 0, p => some (some p)
  | n + 1, p => (dnsSkipName f stop p).bind fun r =>
    match r with
    | none => some none
    | some p => if stop < p + 4 then some none else dnsQuestions f stop n (p + 4)

inductive DnsAnswer where
  | malformed
  | address (ip : Nat)
  | noAddress
  deriving DecidableEq, Repr

/-- The loop over the answers, which ends at the first address of class IN. -/
def dnsAnswers (f : Buf) (stop : Nat) : Nat → Nat → Option DnsAnswer
  | 0, _ => some .noAddress
  | n + 1, p => (dnsSkipName f stop p).bind fun r =>
    match r with
    | none => some .malformed
    | some p =>
      if stop < p + 10 then some .malformed
      else do
        let type ← rd16be f p
        let cls ← rd16be f (p + 2)
        let rdlen ← rd16be f (p + 8)
        if stop < p + 10 + rdlen then return .malformed
        if type = 1 ∧ cls = 1 ∧ rdlen = 4 then
          let ip ← rd32le f (p + 10)
          return .address ip
        dnsAnswers f stop n (p + 10 + rdlen)

def dnsHandle (s : NetState) (f : Buf) (payload len : Nat) : Option NetState :=
  if !s.dnsPending || decide (len < 12) then some s
  else do
    let id ← rd16be f payload
    if id ≠ s.dnsTxid then return s
    let flags ← rd16be f (payload + 2)
    if flags / 32768 % 2 = 0 then return s
    let qdcount ← rd16be f (payload + 4)
    let ancount ← rd16be f (payload + 6)
    match ← dnsQuestions f (payload + len) qdcount (payload + 12) with
    | none => return s
    | some p =>
      match ← dnsAnswers f (payload + len) ancount p with
      | .malformed => return s
      | .address ip => return { s with dnsResultIp := ip, dnsPending := false }
      | .noAddress => return if ancount = 0 then { s with dnsPending := false } else s

/-! ## TCP -/

/-- The header in front of the data, its checksum field as given. -/
def tcpHeader (c : TcpConn) (flags checksum : Nat) : List UInt8 :=
  u16be c.srcPort ++ u16be c.destPort ++ u32be c.sndNxt ++ u32be c.rcvNxt ++
    u16be (5 * 4096 + flags) ++ u16be 4096 ++ u16le checksum ++ [0, 0]

def hasFlag (flags flag : Nat) : Bool := flags / flag % 2 == 1

/-- The connection's record of the segment just sent. -/
def recordSegment (c : TcpConn) (ticks flags : Nat) (data : List UInt8) : TcpConn :=
  { c with
    lastSendTick := ticks
    lastFlags := flags
    lastSeq := c.sndNxt
    lastLen := data.length
    lastPayload :=
      if 0 < data.length ∧ data.length ≤ tcpMss then splice c.lastPayload 0 data
      else c.lastPayload
    sndNxt :=
      if hasFlag flags flagSyn || hasFlag flags flagFin then (c.sndNxt + 1) % 2 ^ 32
      else (c.sndNxt + data.length) % 2 ^ 32
    waitingAck :=
      if hasFlag flags flagSyn || hasFlag flags flagFin || decide (0 < data.length) then true
      else c.waitingAck }

def tcpSendSegment (s : NetState) (flags : Nat) (data : List UInt8) : NetState :=
  if 1500 < 20 + data.length then s
  else
    let c := s.tcpConn
    let checksum := checksumTcp s.localIp c.destIp (tcpHeader c flags 0 ++ data)
    let s := netSendIpv4 s c.destIp 6 (tcpHeader c flags checksum ++ data)
    { s with tcpConn := recordSegment c s.ticks flags data }

structure Segment where
  srcPort : Nat
  dstPort : Nat
  seq : Nat
  ack : Nat
  flags : Nat
  hdrLen : Nat
  deriving DecidableEq, Repr

/-- The header fields that `tcp_handle` reads. -/
def rdSegment (f : Buf) (payload : Nat) : Option Segment := do
  let srcPort ← rd16be f payload
  let dstPort ← rd16be f (payload + 2)
  let seq ← rd32be f (payload + 4)
  let ack ← rd32be f (payload + 8)
  let offFlags ← rd16be f (payload + 12)
  return ⟨srcPort, dstPort, seq, ack, offFlags % 64, offFlags / 4096 % 16 * 4⟩

def fromPeer (c : TcpConn) (g : Segment) (srcIp : Nat) : Bool :=
  srcIp == c.destIp && g.srcPort == c.destPort && g.dstPort == c.srcPort

/-- The acknowledgement of a segment; the comparisons are on plain unsigned values. -/
def takeAck (c : TcpConn) (g : Segment) : TcpConn :=
  if hasFlag g.flags flagAck then
    { c with
      sndUna := if c.sndUna < g.ack then g.ack else c.sndUna
      waitingAck := if c.sndNxt ≤ g.ack then false else c.waitingAck }
  else c

/-- Stores data that starts at `rcv_nxt`; returns `data_len` as the code leaves it. -/
def takeData (s : NetState) (f : Buf) (data dataLen seq : Nat) : Option (NetState × Nat) :=
  if 0 < dataLen ∧ seq = s.tcpConn.rcvNxt then
    let space := (tcpBufSize + (2 ^ 32 - s.tcpConn.recvBuf.length)) % 2 ^ 32
    let n := min dataLen space
    (rdBytes f data n).map fun bytes =>
      let c := { s.tcpConn with
        recvBuf := s.tcpConn.recvBuf ++ bytes
        rcvNxt := (s.tcpConn.rcvNxt + n) % 2 ^ 32 }
      (tcpSendSegment { s with tcpConn := c } flagAck [], n)
  else some (s, dataLen)

def takeFin (s : NetState) (g : Segment) (dataLen : Nat) : NetState :=
  if hasFlag g.flags flagFin then
    let c := { s.tcpConn with rcvNxt := (g.seq + dataLen + 1) % 2 ^ 32 }
    let s := tcpSendSegment { s with tcpConn := c } flagAck []
    { s with tcpConn := { s.tcpConn with
        state := if s.tcpConn.state = .established then .closeWait else .closed } }
  else s

/-- `tcp_handle` while the answer to the SYN is awaited. -/
def tcpHandleSynSent (s : NetState) (g : Segment) (srcIp : Nat) : NetState :=
  let c := s.tcpConn
  if hasFlag g.flags flagSyn && hasFlag g.flags flagAck && fromPeer c g srcIp && g.ack == c.sndNxt then
    let c := { c with
      rcvNxt := (g.seq + 1) % 2 ^ 32, sndUna := g.ack, waitingAck := false, state := .established }
    tcpSendSegment { s with tcpConn := c } flagAck []
  else s

/-- `tcp_handle` on a connection that is established or waits for the end of the peer's data. -/
def tcpHandleOpen (s : NetState) (f : Buf) (payload len : Nat) (g : Segment) (srcIp : Nat) :
    Option NetState :=
  if fromPeer s.tcpConn g srcIp then
    (takeData { s with tcpConn := takeAck s.tcpConn g } f (payload + g.hdrLen) (len - g.hdrLen)
      g.seq).map fun r => takeFin r.1 g r.2
  else some s

def tcpHandle (s : NetState) (f : Buf) (payload len srcIp : Nat) : Option NetState :=
  if len < 20 then some s
  else (rdSegment f payload).bind fun g =>
    if g.hdrLen < 20 ∨ len < g.hdrLen then some s
    else
      match s.tcpConn.state with
      | .synSent => some (tcpHandleSynSent s g srcIp)
      | .established => tcpHandleOpen s f payload len g srcIp
      | .finWait => tcpHandleOpen s f payload len g srcIp
      | .closed => some s
      | .closeWait => some s

/-! ## Receiving -/

def arpHandle (s : NetState) (f : Buf) (payload len : Nat) : Option NetState :=
  if len < 28 then some s
  else do
    let htype ← rd16be f payload
    if htype ≠ 1 then return s
    let ptype ← rd16be f (payload + 2)
    if ptype ≠ 0x0800 then return s
    let hlen ← rd8 f (payload + 4)
    if hlen ≠ 6 then return s
    let plen ← rd8 f (payload + 5)
    if plen ≠ 4 then return s
    let oper ← rd16be f (payload + 6)
    if oper = 2 then
      let spa ← rd32le f (payload + 14)
      let sha ← rdBytes f (payload + 8) 6
      return arpCacheUpdate s spa sha
    if oper = 1 ∧ s.localIp ≠ 0 then
      let tpa ← rd32le f (payload + 24)
      if tpa = s.localIp then
        let sha ← rdBytes f (payload + 8) 6
        let spa ← rd32le f (payload + 14)
        return arpSendReply s sha spa
      return s
    return s

/-- What `ipv4_handle` hands on: a handler with the offset and the length of its payload. -/
inductive Upper where
  | dhcp (payload len : Nat)
  | dns (payload len : Nat)
  | tcp (payload len srcIp : Nat)
  | nothing
  deriving DecidableEq, Repr

/-- The part of `ipv4_handle` before the call of a handler. Lengths are `u16`: the difference of
`total_len` and `hdr_len` wraps. -/
def ipv4Upper (f : Buf) (payload len : Nat) : Option Upper :=
  if len < 20 then some .nothing
  else do
    let verIhl ← rd8 f payload
    if verIhl / 16 ≠ 4 then return .nothing
    let hdrLen := verIhl % 16 * 4
    if hdrLen < 20 ∨ len < hdrLen then return .nothing
    let total ← rd16be f (payload + 2)
    let totalLen := min total len
    let proto ← rd8 f (payload + 9)
    let upperLen := (totalLen + 65536 - hdrLen) % 65536
    if proto = 17 then
      if upperLen < 8 then return .nothing
      let dstPort ← rd16be f (payload + hdrLen + 2)
      if dstPort = 68 then return .dhcp (payload + hdrLen + 8) (upperLen - 8)
      if dstPort = 49152 then return .dns (payload + hdrLen + 8) (upperLen - 8)
      return .nothing
    if proto = 6 then
      let src ← rd32le f (payload + 12)
      return .tcp (payload + hdrLen) upperLen src
    return .nothing

def Upper.handle (s : NetState) (f : Buf) : Upper → Option NetState
  | .dhcp payload len => dhcpHandle s f payload len
  | .dns payload len => dnsHandle s f payload len
  | .tcp payload len srcIp => tcpHandle s f payload len srcIp
  | .nothing => some s

def ipv4Handle (s : NetState) (f : Buf) (payload len : Nat) : Option NetState :=
  (ipv4Upper f payload len).bind fun u => u.handle s f

/-- The callback of the driver; the frame is `f` and its length is `len`. -/
def netRxFrame (s : NetState) (f : Buf) (len : Nat) : Option NetState :=
  if len < 14 then some s
  else do
    let type ← rd16be f 12
    if type = 0x0806 then arpHandle s f 14 (len - 14)
    else if type = 0x0800 then ipv4Handle s f 14 (len - 14)
    else return s

/-! ## Timers and the TCP interface -/

/-- The retransmission part of `net_poll`. -/
def tcpTimer (s : NetState) : NetState :=
  let c := s.tcpConn
  if (c.state = .synSent ∨ c.waitingAck = true) ∧
      pitHz < (s.ticks + 2 ^ 64 - c.lastSendTick) % 2 ^ 64 then
    if hasFlag c.lastFlags flagSyn || hasFlag c.lastFlags flagFin then
      tcpSendSegment { s with tcpConn := { c with sndNxt := c.lastSeq } } c.lastFlags []
    else if 0 < c.lastLen then
      tcpSendSegment { s with tcpConn := { c with sndNxt := c.lastSeq } } c.lastFlags
        (slice c.lastPayload 0 c.lastLen)
    else s
  else s

/-- The DHCP part of `net_poll`. -/
def dhcpTimer (s : NetState) : NetState :=
  if s.dhcpState ≠ .bound ∧ pitHz * 2 < (s.ticks + 2 ^ 64 - s.dhcpLastSend) % 2 ^ 64 then
    dhcpSendDiscover s
  else s

/-- The part of `net_poll` behind the poll of the driver. -/
def netTimers (s : NetState) : NetState := dhcpTimer (tcpTimer s)

def netTcpConnect (s : NetState) (destIp destPort : Nat) : NetState × Bool :=
  if s.netReady && s.localIp != 0 then
    let isn := (s.ticks ^^^ 0xA5A5C3) % 2 ^ 32
    let c := { s.tcpConn with
      destIp := destIp, destPort := destPort, srcPort := 1024 + s.ticks % 40000
      sndNxt := isn, sndUna := isn, rcvNxt := 0, recvBuf := [], recvRead := 0
      waitingAck := false, state := .synSent }
    (tcpSendSegment { s with tcpConn := c } flagSyn [], true)
  else (s, false)

def netTcpSend (s : NetState) (data : List UInt8) : NetState × Bool :=
  if s.tcpConn.state ≠ .established then (s, false)
  else if data.length = 0 then (s, false)
  else (tcpSendSegment s (flagAck + flagPsh) (data.take tcpMss), true)

def netTcpRecv (s : NetState) (max : Nat) : NetState × List UInt8 :=
  let c := s.tcpConn
  let available := (c.recvBuf.length + (2 ^ 32 - c.recvRead)) % 2 ^ 32
  let n := min available max
  ({ s with tcpConn := { c with recvRead := c.recvRead + n } }, (c.recvBuf.drop c.recvRead).take n)

def netTcpClose (s : NetState) : NetState :=
  if s.tcpConn.state = .established then
    let s := tcpSendSegment s (flagFin + flagAck) []
    { s with tcpConn := { s.tcpConn with state := .finWait } }
  else s

end FusionOS.Net
