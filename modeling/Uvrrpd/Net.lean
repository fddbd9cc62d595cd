import Uvrrpd.Adv

/-! `vrrp_net_recv`: reception and the checks that decide what a datagram is. -/
namespace Uvrrpd

def vrrpNetInvalidateBuffer (vnet : VrrpNet) : VrrpNet :=
  { vnet with pkt := { vnet.pkt with adv := { vnet.pkt.adv with versionType := 0 } } }

/-- `unsigned int payload_size`, so a negative difference becomes huge. -/
def payloadSize (header : VrrpIpxHeader) : Nat := ((header.totlen - header.len) % 2 ^ 32).toNat

def checkHeader (vrrp : Vrrp) (header : VrrpIpxHeader) (hdr : Vrrphdr) : Option VrrpEvent :=
  if header.proto ≠ IPPROTO_VRRP.toNat then some .invalid
  else if hdr.versionType >>> 4 ≠ vrrp.version.code then some .invalid
  else if header.ttl ≠ VRRP_TTL then some .invalid
  else if hdr.vrid ≠ vrrp.vrid then some .vridMismatch
  else none

/-- Authentication of version 2: equal types, and for a simple password as many
octets as the local one has. -/
def checkAuth (vrrp : Vrrp) (hdr : Vrrphdr) (pkt : Octets) : Except Fault Bool :=
  if vrrp.version = .rfc5798 then .ok true
  else if hdr.authType ≠ vrrp.authType.code then .ok false
  else if hdr.authType = VrrpAuthtype.simple.code then do
    let password ← deref vrrp.authData
    let auth ← load pkt (VRRP_PKTHDR_SIZE + vrrp.naddr.toNat * 4) password.length
    return auth == password
  else .ok true

def vipsDiffer (vnet : VrrpNet) (vrrp : Vrrp) (hdr : Vrrphdr) (pkt : Octets) : Except Fault Bool :=
  if hdr.naddr ≠ vrrp.naddr then .ok true
  else do
    let ndiff ← vipCompare vnet pkt
    return ndiff != 0

/-- Same count and same VIPs, or announced by the owner, or version 3. The list is
compared in every version. -/
def checkVips (vnet : VrrpNet) (vrrp : Vrrp) (hdr : Vrrphdr) (pkt : Octets) : Except Fault Bool := do
  let differs ← vipsDiffer vnet vrrp hdr pkt
  return !(differs && hdr.priority != PRIO_OWNER && vrrp.version == .rfc3768)

/-- The 8-bit member of the version 2 layout against the 16-bit local interval. -/
def checkAdvInt (vrrp : Vrrp) (hdr : Vrrphdr) : Bool := hdr.advInt.toNat == vrrp.advInt.toNat

def checkContent (vnet : VrrpNet) (vrrp : Vrrp) (hdr : Vrrphdr) (pkt : Octets) :
    Except Fault Bool := do
  if vrrp.priority = PRIO_OWNER then return false
  else if !(← checkAuth vrrp hdr pkt) then return false
  else if !(← checkVips vnet vrrp hdr pkt) then return false
  else return checkAdvInt vrrp hdr

/-- The checks on the VRRP packet itself; on success also the header to keep. The packet
is left as it was, but for a checksum that did not match. -/
def inspectPacket (host : ByteOrder) (vnet : VrrpNet) (vrrp : Vrrp) (pkt : Octets) :
    Except Fault (VrrpEvent × Option Vrrphdr × Octets) := do
  let hdr ← loadHdr pkt 0
  match checkHeader vrrp vnet.pkt.header hdr with
  | some event => return (event, none, pkt)
  | none =>
    let chksum ← load16 host pkt 6
    let (sum, pkt) ← advChecksum host vnet pkt (some vnet.pkt.sIpx) (some vnet.pkt.dIpx)
    if sum ≠ chksum then return (.invalid, none, pkt)
    else
      let pkt ← store pkt 6 (octets16 host chksum)
      if ← checkContent vnet vrrp hdr pkt then return (.pkt, some (← loadHdr pkt 0), pkt)
      else return (.invalid, none, pkt)

def checkPacket (host : ByteOrder) (vnet : VrrpNet) (vrrp : Vrrp) (pkt : Octets) :
    Except Fault (VrrpEvent × Option Vrrphdr) := do
  let (event, adv, _) ← inspectPacket host vnet vrrp pkt
  return (event, adv)

/-- `stack` is what the receive buffer, an automatic array, held before the call. The
buffer is returned as the call leaves it. -/
def vrrpNetRecvBuf (host : ByteOrder) (vnet : VrrpNet) (vrrp : Vrrp) (sock : Option Datagram)
    (stack : Octets) : Except Fault (VrrpEvent × VrrpNet × Octets) := do
  let r ← pktReceive host vnet.family sock vnet.pkt stack
  let vnet := { vnet with pkt := r.recv }
  match r.len with
  | none => return (.invalid, vnet, r.buf)
  | some len =>
    if (len : Int) > vnet.vif.mtu ∨ len < advGetsize vnet then return (.invalid, vnet, r.buf)
    else
      let vnet := vrrpNetInvalidateBuffer vnet
      let size := payloadSize vnet.pkt.header
      if size < VRRP_PKT_MINSIZE ∨ size > VRRP_PKT_MAXSIZE then return (.invalid, vnet, r.buf)
      else
        let (event, adv, pkt) ← inspectPacket host vnet vrrp (r.buf.drop r.payloadPos)
        let buf := r.buf.take r.payloadPos ++ pkt
        match adv with
        | none => return (event, vnet, buf)
        | some adv => return (event, { vnet with pkt := { vnet.pkt with adv := adv } }, buf)

def vrrpNetRecv (host : ByteOrder) (vnet : VrrpNet) (vrrp : Vrrp) (sock : Option Datagram)
    (stack : Octets) : Except Fault (VrrpEvent × VrrpNet) := do
  let (event, vnet, _) ← vrrpNetRecvBuf host vnet vrrp sock stack
  return (event, vnet)

end Uvrrpd
