import Uvrrpd.Vrrp

/-! The two address families, `vrrp_ip4.c` and `vrrp_ip6.c`, behind the helper
table `struct vrrp_ipx`. The table entry is selected by the family, so each
helper call is a case distinction here. A packet is the memory from its first
octet on. -/
namespace Uvrrpd

def vrrpIp4Getsize (vnet : VrrpNet) : Nat :=
  VRRP_PKTHDR_SIZE + vnet.naddr.toNat * 4 + VRRP_AUTH_SIZE

def vrrpIp6Getsize (vnet : VrrpNet) : Nat := VRRP_PKTHDR_SIZE + vnet.naddr.toNat * 16

def advGetsize (vnet : VrrpNet) : Nat :=
  match vnet.family with
  | .inet => vrrpIp4Getsize vnet
  | .inet6 => vrrpIp6Getsize vnet

def deref : Iovec → Except Fault Octets
  | some mem => .ok mem
  | none => .error .badAccess

def pshdrIp4 (host : ByteOrder) (saddr daddr : Octets) (protocol : UInt8) (len : Nat) : Octets :=
  saddr ++ daddr ++ [0, protocol] ++ octets16 host (htons host len)

/-- `struct pshdr_ip6`. The 16-bit result of `htons` goes into a 32-bit member. -/
def pshdrIp6 (host : ByteOrder) (saddr daddr : Octets) (nextHeader : UInt8) (len : Nat) : Octets :=
  saddr ++ daddr ++ octets32 host (htons host len) ++ [0, 0, 0, nextHeader]

/-- `addr ? addr : iph->field`, where a NULL argument counts as zero. -/
def addrOr (addr : Option IpxAddr) (iph : Octets) (field : Nat) : Except Fault Octets :=
  match addr with
  | some a => if a.addr = IpxAddr.zero.addr then load iph field 4 else .ok a.addr.toList
  | none => load iph field 4

/-- The value, and the packet with its checksum field reset. -/
def vrrpIp4Chksum (host : ByteOrder) (vnet : VrrpNet) (pkt : Octets)
    (saddr daddr : Option IpxAddr) : Except Fault (Nat × Octets) := do
  let pkt ← store pkt 6 [0, 0]
  let versionType ← load8 pkt 0
  if versionType >>> 4 = VrrpVersion.rfc3768.code then
    let sum ← cksum host pkt (vrrpIp4Getsize vnet)
    return (sum, pkt)
  else if versionType >>> 4 = VrrpVersion.rfc5798.code then
    let iph ← deref vnet.adv.ip
    let s ← addrOr saddr iph 12
    let d ← addrOr daddr iph 16
    let protocol ← load8 iph 9
    let body ← load pkt 0 (vrrpIp4Getsize vnet)
    let psh := pshdrIp4 host s d protocol (vrrpIp4Getsize vnet)
    let sum ← cksum host (psh ++ body) (psh.length + vrrpIp4Getsize vnet)
    return (sum, pkt)
  else return (0, pkt)

/-- The addresses passed in when both are given, else those of the own IP header. -/
def ip6Addrs (vnet : VrrpNet) : Option IpxAddr → Option IpxAddr → Except Fault (Octets × Octets)
  | some s, some d => .ok (s.addr6.toList, d.addr6.toList)
  | _, _ => do
    let iph ← deref vnet.adv.ip
    let s ← load iph 8 16
    let d ← load iph 24 16
    return (s, d)

def vrrpIp6Chksum (host : ByteOrder) (vnet : VrrpNet) (pkt : Octets)
    (saddr daddr : Option IpxAddr) : Except Fault (Nat × Octets) := do
  let pkt ← store pkt 6 [0, 0]
  let (s, d) ← ip6Addrs vnet saddr daddr
  let psh := pshdrIp6 host s d IPPROTO_VRRP (vrrpIp6Getsize vnet)
  let body ← load pkt 0 (vrrpIp6Getsize vnet)
  let sum ← cksum host (psh ++ body) (psh.length + vrrpIp6Getsize vnet)
  return (sum, pkt)

def advChecksum (host : ByteOrder) (vnet : VrrpNet) (pkt : Octets)
    (saddr daddr : Option IpxAddr) : Except Fault (Nat × Octets) :=
  match vnet.family with
  | .inet => vrrpIp4Chksum host vnet pkt saddr daddr
  | .inet6 => vrrpIp6Chksum host vnet pkt saddr daddr

def searchVip (family : Family) (vipList : List VrrpIp) (addr : Octets) : Bool :=
  vipList.reverse.any (fun vip => vip.ipx.octets family == addr)

/-- The loop of the two list comparisons, with `left` addresses still to be read. -/
def viplistCmpLoop (family : Family) (vipList : List VrrpIp) (pkt : Octets) :
    Nat → Nat → Nat → Except Fault Nat
  | 0, _, ndiff => .ok ndiff
  | left + 1, naddr, ndiff => do
    let addr ← load pkt (VRRP_PKTHDR_SIZE + naddr * family.addrSize) family.addrSize
    viplistCmpLoop family vipList pkt left (naddr + 1)
      (if searchVip family vipList addr then ndiff else ndiff + 1)

def vrrpIp4ViplistCmp (vnet : VrrpNet) (pkt : Octets) : Except Fault Nat :=
  viplistCmpLoop .inet vnet.vipList pkt vnet.naddr.toNat 0 0

def vrrpIp6ViplistCmp (vnet : VrrpNet) (pkt : Octets) : Except Fault Nat :=
  viplistCmpLoop .inet6 vnet.vipList pkt vnet.naddr.toNat 0 0

def vipCompare (vnet : VrrpNet) (pkt : Octets) : Except Fault Nat :=
  match vnet.family with
  | .inet => vrrpIp4ViplistCmp vnet pkt
  | .inet6 => vrrpIp6ViplistCmp vnet pkt

def bigValue (octets : Octets) : Nat := octets.foldl (fun n b => 256 * n + b.toNat) 0

/-- An unsigned 32-bit difference, returned as `int`. -/
def vrrpIp4Cmp (s₁ s₂ : IpxAddr) : Int :=
  ((bigValue s₁.addr.toList : Int) - bigValue s₂.addr.toList).bmod (2 ^ 32)

def memcmp : Octets → Octets → Int
  | a :: as, b :: bs => if a < b then -1 else if b < a then 1 else memcmp as bs
  | _, _ => 0

def vrrpIp6Cmp (s₁ s₂ : IpxAddr) : Int := memcmp s₁.addr6.toList s₂.addr6.toList

def ipxCmp (family : Family) (s₁ s₂ : IpxAddr) : Int :=
  match family with
  | .inet => vrrpIp4Cmp s₁ s₂
  | .inet6 => vrrpIp6Cmp s₁ s₂

/-- What the kernel hands over for one datagram: the octets (in IPv4 with the IP
header), and for IPv6 the source address and the ancillary data. -/
structure Datagram where
  octets : Octets
  saddr6 : In6Addr
  hoplimit : Option Int
  pktinfo : Option In6Addr
  deriving DecidableEq

/-- Length returned (absent for -1), filled `vrrp_recv`, buffer, and `payload_pos`. -/
structure Received where
  len : Option Nat
  recv : VrrpRecv
  buf : Octets
  payloadPos : Nat

def loadAddr (mem : Octets) (i n : Nat) : Except Fault (List.Vector UInt8 n) :=
  if h : i + n ≤ mem.length then
    .ok ⟨(mem.drop i).take n, by rw [List.length_take, List.length_drop]; omega⟩
  else .error .badAccess

/-- The system call fills the front of the buffer; the rest keeps its old contents. -/
def fill (got buf : Octets) : Octets := got ++ buf.drop got.length

/-- The header members are read even when `read` has failed. -/
def vrrpIp4Recv (host : ByteOrder) (sock : Option Datagram) (recv : VrrpRecv) (buf : Octets) :
    Except Fault Received := do
  let got := sock.map (fun d => d.octets.take IP_MAXPACKET)
  let buf := match got with
    | some octets => fill octets buf
    | none => buf
  let versionIhl ← load8 buf 0
  let totLen ← load16 host buf 2
  let ttl ← load8 buf 8
  let protocol ← load8 buf 9
  let saddr ← loadAddr buf 12 4
  let daddr ← loadAddr buf 16 4
  let len := versionIhl.toNat % 16 * 4
  let header : VrrpIpxHeader := ⟨(len : Int), (protocol.toNat : Int), (ntohs host totLen : Int), (ttl.toNat : Int)⟩
  return ⟨got.map List.length,
    { recv with
      sIpx := { recv.sIpx with addr := saddr }
      dIpx := { recv.dIpx with addr := daddr }
      header := header }, buf, len⟩

/-- Three failure exits, each after the writes that precede it. -/
def vrrpIp6Recv (sock : Option Datagram) (recv : VrrpRecv) (buf : Octets) : Received :=
  match sock with
  | none => ⟨none, recv, buf, 0⟩
  | some d =>
    let got := d.octets.take IP_MAXPACKET
    let buf := fill got buf
    let recv := { recv with sIpx := { recv.sIpx with addr6 := d.saddr6 } }
    match d.hoplimit with
    | none => ⟨none, recv, buf, 0⟩
    | some ttl =>
      let recv := { recv with header := { recv.header with ttl := ttl } }
      match d.pktinfo with
      | none => ⟨none, recv, buf, 0⟩
      | some daddr6 =>
        let header : VrrpIpxHeader :=
          ⟨(IP6HDR_SIZE : Int), (IPPROTO_VRRP.toNat : Int), (IP6HDR_SIZE + got.length : Nat), ttl⟩
        ⟨some got.length, { recv with
          dIpx := { recv.dIpx with addr6 := daddr6 }
          header := header }, buf, 0⟩

def pktReceive (host : ByteOrder) (family : Family) (sock : Option Datagram) (recv : VrrpRecv)
    (buf : Octets) : Except Fault Received :=
  match family with
  | .inet => vrrpIp4Recv host sock recv buf
  | .inet6 => .ok (vrrpIp6Recv sock recv buf)

end Uvrrpd
