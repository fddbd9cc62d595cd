import Uvrrpd.Ipx

/-! `vrrp_adv.c` and `vrrp_adv.h`: the advertisement frame is built once into
three `iovec` buffers and patched in place afterwards. -/
namespace Uvrrpd

def VRRP_TYPE_ADV : UInt8 := 1
def ETHDR_SIZE : Nat := 14
def ETH_P_IP : Nat := 0x0800
def ETH_P_IPV6 : Nat := 0x86DD

def INADDR_VRRP_GROUP : Octets := [0xe0, 0x00, 0x00, 0x12]

def IN6ADDR_VRRP_GROUP : Octets :=
  [0xff, 0x02, 0, 0, 0, 0, 0, 0, 0, 0, 0, 0, 0, 0, 0, 0x12]

def vrrpAdvEth : Octets :=
  [0x01, 0x00, 0x5e, 0x00, 0x00, 0x12, 0x00, 0x00, 0x5e, 0x00, 0x01, 0x00, 0x00, 0x00]

def storeFields (mem : Octets) (fields : List (Nat × Octets)) : Except Fault Octets :=
  fields.foldlM (fun m f => store m f.1 f.2) mem

/-- What a call of `malloc` finds: nothing, or memory with arbitrary contents. -/
abbrev Junk := Option (Nat → UInt8)

def malloc (mem : Junk) (size : Nat) : Iovec := mem.map (fun contents => (List.range size).map contents)

/-- `true` for the return value 0. -/
abbrev Built := Bool × Iovec

def vrrpAdvEthBuild (host : ByteOrder) (mem : Junk) (vrid : UInt8) (family : Family) :
    Except Fault Built :=
  match malloc mem ETHDR_SIZE with
  | none => .ok (false, none)
  | some hdr => do
    let type := match family with
      | .inet => ETH_P_IP
      | .inet6 => ETH_P_IPV6
    let hdr ← storeFields hdr [(0, vrrpAdvEth), (11, [vrid]), (12, octets16 host (htons host type))]
    return (true, some hdr)

/-- `ihl` and `version` share octet 0. -/
def vrrpAdvIp4Build (host : ByteOrder) (mem : Junk) (vnet : VrrpNet) : Except Fault Built :=
  match malloc mem IPHDR_SIZE with
  | none => .ok (false, none)
  | some iph => do
    let iph ← storeFields iph [(0, [0x45]), (1, [0x00]),
      (2, octets16 host (htons host (IPHDR_SIZE + advGetsize vnet))),
      (4, octets16 host (htons host 0xdead)), (8, [0xff]), (6, [0x00, 0x00]), (9, [IPPROTO_VRRP]),
      (12, vnet.vif.ipx.addr.toList), (16, INADDR_VRRP_GROUP), (10, [0, 0])]
    let check ← cksum host iph IPHDR_SIZE
    let iph ← store iph 10 (octets16 host check)
    return (true, some iph)

def vrrpAdvIp6Build (host : ByteOrder) (mem : Junk) (vnet : VrrpNet) : Except Fault Built :=
  match malloc mem IP6HDR_SIZE with
  | none => .ok (false, none)
  | some ip6h => do
    let ip6h ← storeFields ip6h [(0, [0x60, 0, 0, 0]),
      (4, octets16 host (htons host (advGetsize vnet))), (6, [IPPROTO_VRRP]), (7, [0xff]),
      (8, vnet.vif.ipx.addr6.toList), (24, IN6ADDR_VRRP_GROUP)]
    return (true, some ip6h)

def vrrpAdvIpBuild (host : ByteOrder) (mem : Junk) (vnet : VrrpNet) : Except Fault Built :=
  match vnet.family with
  | .inet => vrrpAdvIp4Build host mem vnet
  | .inet6 => vrrpAdvIp6Build host mem vnet

/-- The loop over the VIPs, from the position of the next address. It gives up,
after the write, when the list is longer than `naddr`; otherwise it returns the
packet and the position behind the last address. -/
def writeVips (family : Family) (limit : Nat) :
    List VrrpIp → Octets → Nat → Nat → Except Fault (Octets × Option Nat)
  | [], pkt, pos, _ => .ok (pkt, some pos)
  | vip :: rest, pkt, pos, naddr => do
    let pkt ← store pkt pos (vip.ipx.octets family)
    if naddr + 1 > limit then return (pkt, none)
    else writeVips family limit rest pkt (pos + family.addrSize) (naddr + 1)

def chksumUpdate (host : ByteOrder) (vnet : VrrpNet) (pkt : Octets) : Except Fault Octets := do
  let (sum, pkt) ← advChecksum host vnet pkt none none
  store pkt 6 (octets16 host sum)

def intervalFields (host : ByteOrder) (vrrp : Vrrp) : List (Nat × Octets) :=
  match vrrp.version with
  | .rfc3768 => [(4, [vrrp.authType.code]), (5, [vrrp.advInt.toUInt8])]
  | .rfc5798 => [(4, octets16 host (htons host vrrp.advInt.toNat))]

/-- Password of version 2, copied without its terminator and without padding. -/
def writeAuth (vrrp : Vrrp) (pkt : Octets) (pos : Nat) : Except Fault Octets :=
  match vrrp.version, vrrp.authType, vrrp.authData with
  | .rfc3768, .simple, some password => store pkt pos password
  | _, _, _ => .ok pkt

def vrrpAdvBuild (host : ByteOrder) (mem : Junk) (vnet : VrrpNet) (vrrp : Vrrp) :
    Except Fault Built :=
  match malloc mem (advGetsize vnet) with
  | none => .ok (false, none)
  | some pkt => do
    let pkt ← storeFields pkt ([(0, [vrrp.version.code <<< 4 ||| VRRP_TYPE_ADV]), (1, [vnet.vrid]),
      (2, [vrrp.priority]), (3, [vrrp.naddr])] ++ intervalFields host vrrp)
    match ← writeVips vnet.family vrrp.naddr.toNat vnet.vipList.reverse pkt VRRP_PKTHDR_SIZE 0 with
    | (pkt, none) => return (false, some pkt)
    | (pkt, some pos) =>
      let pkt ← writeAuth vrrp pkt pos
      let pkt ← chksumUpdate host vnet pkt
      return (true, some pkt)

structure Mallocs where
  eth : Junk
  ip : Junk
  data : Junk

/-- All three builders run whatever the earlier ones returned. -/
def vrrpAdvInit (host : ByteOrder) (mem : Mallocs) (vnet : VrrpNet) (vrrp : Vrrp) :
    Except Fault (Bool × VrrpNet) := do
  let (ok₀, eth) ← vrrpAdvEthBuild host mem.eth vnet.vrid vnet.family
  let vnet := { vnet with adv := { vnet.adv with eth := eth } }
  let (ok₁, ip) ← vrrpAdvIpBuild host mem.ip vnet
  let vnet := { vnet with adv := { vnet.adv with ip := ip } }
  let (ok₂, data) ← vrrpAdvBuild host mem.data vnet vrrp
  return (ok₀ && ok₁ && ok₂, { vnet with adv := { vnet.adv with data := data } })

/-- The frame handed to `vrrp_net_send`, and the buffer afterwards: priority and
checksum are replaced for the call and put back. -/
def vrrpAdvSendZero (host : ByteOrder) (vnet : VrrpNet) : Except Fault (Frame × VrrpNet) := do
  let pkt ← deref vnet.adv.data
  let priority ← load8 pkt 2
  let pkt ← store pkt 2 [0]
  let chksum ← load pkt 6 2
  let pkt ← chksumUpdate host vnet pkt
  let sent := { vnet.adv with data := some pkt }
  let pkt ← store pkt 2 [priority]
  let pkt ← store pkt 6 chksum
  return (sent, { vnet with adv := { vnet.adv with data := some pkt } })

def vrrpAdvSetPriority (host : ByteOrder) (vnet : VrrpNet) (prio : UInt8) :
    Except Fault VrrpNet := do
  let pkt ← deref vnet.adv.data
  let pkt ← store pkt 2 [prio]
  let pkt ← chksumUpdate host vnet pkt
  return { vnet with adv := { vnet.adv with data := some pkt } }

def vrrpAdvGetVersion (vnet : VrrpNet) : UInt8 := vnet.pkt.adv.versionType
def vrrpAdvGetPriority (vnet : VrrpNet) : UInt8 := vnet.pkt.adv.priority

def vrrpAdvAddrCmp (vnet : VrrpNet) : Int := ipxCmp vnet.family vnet.pkt.sIpx vnet.vif.ipx

/-- The decoding of the interval, by the version nibble of the header itself. -/
def Vrrphdr.getAdvint (host : ByteOrder) (h : Vrrphdr) : Nat :=
  if h.versionType >>> 4 = VrrpVersion.rfc5798.code then ntohs host (h.maxAdvInt host)
  else h.advInt.toNat

def vrrpAdvGetAdvint (host : ByteOrder) (vnet : VrrpNet) : UInt16 :=
  UInt16.ofNat (vnet.pkt.adv.getAdvint host)

end Uvrrpd
