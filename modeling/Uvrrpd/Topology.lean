import Uvrrpd.Adv
import Uvrrpd.Packet

/-! `vrrp_arp.c` and `vrrp_na.c`: a gratuitous ARP request or an unsolicited
neighbour advertisement for each VIP, built once into its `__topology`. -/
namespace Uvrrpd
open Library.Memory (bind_eq_ok)

def ETHERTYPE_ARP : Nat := 0x0806
def ARPHRD_ETHER : Nat := 1
def ARPOP_REQUEST : Nat := 1
def ETH_ALEN : Nat := 6
def IP_ALEN : Nat := 4
def ARPHDR_SIZE : Nat := 8
def ARPHDR_ETH_SIZE : Nat := 20
def IPPROTO_ICMPV6 : UInt8 := 58
def ND_NEIGHBOR_ADVERT : UInt8 := 136
def NEIGHBOR_ADVERT_SIZE : Nat := 24

/-- `ND_NA_FLAG_ROUTER | ND_NA_FLAG_OVERRIDE` in memory, on either kind of host. -/
def NA_FLAGS : Octets := [0xa0, 0x00, 0x00, 0x00]

def vrrpArpEth : Octets :=
  [0xff, 0xff, 0xff, 0xff, 0xff, 0xff, 0x00, 0x00, 0x5e, 0x00, 0x01, 0x00, 0x00, 0x00]

def vrrpNaEth : Octets :=
  [0x33, 0x33, 0x00, 0x00, 0x00, 0x01, 0x00, 0x00, 0x52, 0x00, 0x01, 0x00, 0x00, 0x00]

def topologyEthBuild (host : ByteOrder) (mem : Junk) (template : Octets) (vrid : UInt8) (type : Nat) :
    Except Fault Built :=
  match malloc mem ETHDR_SIZE with
  | none => .ok (false, none)
  | some hdr => do
    let hdr ← storeFields hdr [(0, template), (11, [vrid]), (12, octets16 host (htons host type))]
    return (true, some hdr)

def vrrpArpEthBuild (host : ByteOrder) (mem : Junk) (vrid : UInt8) : Except Fault Built :=
  topologyEthBuild host mem vrrpArpEth vrid ETHERTYPE_ARP

def vrrpArpBuild (host : ByteOrder) (mem : Junk) : Except Fault Built :=
  match malloc mem ARPHDR_SIZE with
  | none => .ok (false, none)
  | some arph => do
    let arph ← storeFields arph [(0, octets16 host (htons host ARPHRD_ETHER)),
      (2, octets16 host (htons host ETH_P_IP)), (4, [UInt8.ofNat ETH_ALEN]), (5, [UInt8.ofNat IP_ALEN]),
      (6, octets16 host (htons host ARPOP_REQUEST))]
    return (true, some arph)

/-- `struct arphdr_eth`; the target address is copied from the sender address. -/
def vrrpArpVrrpBuild (mem : Junk) (vip : VrrpIp) (vnet : VrrpNet) : Except Fault Built :=
  match malloc mem ARPHDR_ETH_SIZE with
  | none => .ok (false, none)
  | some arpeth => do
    let arpeth ← storeFields arpeth [(0, [0x00, 0x00, 0x5e, 0x00, 0x01, vnet.vrid]),
      (6, vip.ipx.addr.toList), (10, List.replicate ETH_ALEN 0xff)]
    let sip ← load arpeth 6 IP_ALEN
    let arpeth ← store arpeth 16 sip
    return (true, some arpeth)

def vrrpArpVip (host : ByteOrder) (vnet : VrrpNet) (mem : Mallocs) (vip : VrrpIp) :
    Except Fault (Bool × Frame) := do
  let (ok₀, eth) ← vrrpArpEthBuild host mem.eth vnet.vrid
  let (ok₁, arp) ← vrrpArpBuild host mem.ip
  let (ok₂, data) ← vrrpArpVrrpBuild mem.data vip vnet
  return (ok₀ && ok₁ && ok₂, ⟨eth, arp, data⟩)

/-- What the calls for one VIP are answered with: the memory, and `inet_pton` of
`IN6ADDR_MCAST`, ff02::1. -/
structure NaAnswers extends Mallocs where
  mcast : Option In6Addr

def vrrpNaEthBuild (host : ByteOrder) (mem : Junk) (vrid : UInt8) : Except Fault Built :=
  topologyEthBuild host mem vrrpNaEth vrid ETH_P_IPV6

def vrrpNaIp6Build (host : ByteOrder) (mem : Junk) (mcast : Option In6Addr) (vip : VrrpIp) :
    Except Fault Built :=
  match malloc mem IP6HDR_SIZE with
  | none => .ok (false, none)
  | some ip6h => do
    let ip6h ← storeFields ip6h [(0, [0x60, 0, 0, 0]),
      (4, octets16 host (htons host NEIGHBOR_ADVERT_SIZE)), (6, [IPPROTO_ICMPV6]), (7, [0xff]),
      (8, vip.ipx.addr6.toList)]
    match mcast with
    | none => return (false, some ip6h)
    | some dst =>
      let ip6h ← store ip6h 24 dst.toList
      return (true, some ip6h)

/-- The value, and the advertisement with its checksum field reset. -/
def vrrpNaChksum (host : ByteOrder) (ip6 : Iovec) (na : Octets) : Except Fault (Nat × Octets) := do
  let na ← store na 2 [0, 0]
  let iph ← deref ip6
  let s ← load iph 8 16
  let d ← load iph 24 16
  let psh := pshdrIp6 host s d IPPROTO_ICMPV6 NEIGHBOR_ADVERT_SIZE
  let body ← load na 0 NEIGHBOR_ADVERT_SIZE
  let sum ← cksum host (psh ++ body) (psh.length + NEIGHBOR_ADVERT_SIZE)
  return (sum, na)

/-- The IP header of the VIP is read for the checksum, built or not. -/
def vrrpNaBuild (host : ByteOrder) (mem : Junk) (ip6 : Iovec) (vip : VrrpIp) : Except Fault Built :=
  match malloc mem NEIGHBOR_ADVERT_SIZE with
  | none => .ok (false, none)
  | some na => do
    let na ← storeFields na [(0, [ND_NEIGHBOR_ADVERT]), (1, [0]), (2, [0, 0]), (4, NA_FLAGS),
      (8, vip.ipx.addr6.toList)]
    let (sum, na) ← vrrpNaChksum host ip6 na
    let na ← store na 2 (octets16 host sum)
    return (true, some na)

def vrrpNaVip (host : ByteOrder) (vnet : VrrpNet) (mem : NaAnswers) (vip : VrrpIp) :
    Except Fault (Bool × Frame) := do
  let (ok₀, eth) ← vrrpNaEthBuild host mem.eth vnet.vrid
  let (ok₁, ip) ← vrrpNaIp6Build host mem.ip mem.mcast vip
  let (ok₂, data) ← vrrpNaBuild host mem.data ip vip
  return (ok₀ && ok₁ && ok₂, ⟨eth, ip, data⟩)

/-- The VIPs from the `k`-th on, with the status so far. Each VIP overwrites it. -/
def topologyLoop {α : Type} (build : α → VrrpIp → Except Fault (Bool × Frame)) (mem : Nat → α) :
    Nat → Bool → List VrrpIp → Except Fault (Bool × List VrrpIp)
  | _, status, [] => .ok (status, [])
  | k, _, vip :: rest => do
    let (ok, topology) ← build (mem k) vip
    let (status, rest) ← topologyLoop build mem (k + 1) ok rest
    return (status, { vip with topology := topology } :: rest)

def vrrpArpInit (host : ByteOrder) (mem : Nat → Mallocs) (vnet : VrrpNet) :
    Except Fault (Bool × VrrpNet) := do
  let (status, vips) ← topologyLoop (vrrpArpVip host vnet) mem 0 false vnet.vipList.reverse
  return (status, { vnet with vipList := vips.reverse })

def vrrpNaInit (host : ByteOrder) (mem : Nat → NaAnswers) (vnet : VrrpNet) :
    Except Fault (Bool × VrrpNet) := do
  let (status, vips) ← topologyLoop (vrrpNaVip host vnet) mem 0 false vnet.vipList.reverse
  return (status, { vnet with vipList := vips.reverse })

def topologyInit (host : ByteOrder) (mem : Nat → NaAnswers) (vnet : VrrpNet) :
    Except Fault (Bool × VrrpNet) :=
  match vnet.family with
  | .inet => vrrpArpInit host (fun k => (mem k).toMallocs) vnet
  | .inet6 => vrrpNaInit host mem vnet

def VrrpIp.bare (vip : VrrpIp) : VrrpIp := { vip with topology := ⟨none, none, none⟩ }

private theorem topologyLoop_bare {α : Type} {build : α → VrrpIp → Except Fault (Bool × Frame)}
    {mem : Nat → α} {k : Nat} {status status' : Bool} {vips vips' : List VrrpIp}
    (h : topologyLoop build mem k status vips = .ok (status', vips')) :
    vips'.map VrrpIp.bare = vips.map VrrpIp.bare := by
  induction vips generalizing k status status' vips' with
  | nil =>
    obtain ⟨-, rfl⟩ := Prod.mk.inj (Except.ok.inj h)
    rfl
  | cons vip rest ih =>
    obtain ⟨⟨ok, topology⟩, -, h⟩ := bind_eq_ok.mp h
    obtain ⟨⟨status'', rest'⟩, hrest, h⟩ := bind_eq_ok.mp h
    obtain ⟨-, rfl⟩ := Prod.mk.inj (Except.ok.inj h)
    rw [List.map_cons, List.map_cons, ih hrest]
    rfl

/-- Where there is no VIP the initial status is returned, and it is a failure. -/
private theorem topologyLoop_spec {α : Type} {build : α → VrrpIp → Except Fault (Bool × Frame)}
    {mem : Nat → α} {vnet vnet' : VrrpNet}
    (h : (do
      let (status, vips) ← topologyLoop build mem 0 false vnet.vipList.reverse
      return (status, { vnet with vipList := vips.reverse })) = .ok (true, vnet')) :
    vnet.vipList ≠ [] ∧ ∃ vips, vips.map VrrpIp.bare = vnet.vipList.map VrrpIp.bare ∧
      vnet' = { vnet with vipList := vips } := by
  obtain ⟨⟨status, vips⟩, hloop, h⟩ := bind_eq_ok.mp h
  obtain ⟨rfl, rfl⟩ := Prod.mk.inj (Except.ok.inj h)
  constructor
  · intro hnil
    rw [hnil] at hloop
    cases hloop
  · refine ⟨vips.reverse, ?_, rfl⟩
    rw [List.map_reverse, topologyLoop_bare hloop, List.map_reverse, List.reverse_reverse]

/-- A successful start has seen a VIP, and has built frames and nothing else. -/
theorem topologyInit_spec {host : ByteOrder} {mem : Nat → NaAnswers} {vnet vnet' : VrrpNet}
    (h : topologyInit host mem vnet = .ok (true, vnet')) :
    vnet.vipList ≠ [] ∧ ∃ vips, vips.map VrrpIp.bare = vnet.vipList.map VrrpIp.bare ∧
      vnet' = { vnet with vipList := vips } := by
  rw [topologyInit] at h
  split at h
  · exact topologyLoop_spec h
  · exact topologyLoop_spec h

end Uvrrpd
