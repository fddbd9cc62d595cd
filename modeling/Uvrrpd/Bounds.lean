import Uvrrpd.Extent
import Uvrrpd.AdvBuffer

/-! How far `vrrp_net_recv` reads. Its first test compares the length returned by
the system call with the size of the VRRP part. In IPv6 that is the length of the
VRRP part; in IPv4 it counts the IP header too, and a datagram may then be summed,
and searched for its password and addresses, beyond its end. -/
namespace Uvrrpd
open Library.Memory (bind_eq_ok)
open Library.Runs

/-- The address that goes into the pseudo-header for a received one: in IPv4 the own
header stands in for a zero address. -/
def takenAddr (family : Family) (own addr : Octets) : Octets :=
  if family = .inet ∧ addr = IpxAddr.zero.octets .inet then own else addr

theorem OwnHeader.resolves_taken {vnet : VrrpNet} (h : OwnHeader vnet) (a b : IpxAddr) :
    Resolves vnet (some a) (some b)
      (takenAddr vnet.family (vnet.vif.ipx.octets vnet.family) (a.octets vnet.family))
      (takenAddr vnet.family (vrrpGroup vnet.family) (b.octets vnet.family)) := by
  obtain ⟨hs, hd, hr⟩ := h.resolves
  rw [Resolves]
  cases hf : vnet.family with
  | inet =>
    simp only [hf] at hr hs hd ⊢
    obtain ⟨iph, hip, hproto, hsrc, hdst⟩ := hr
    have htaken (x : IpxAddr) (i : Nat) {own : Octets} (hown : own.length = Family.addrSize .inet)
        (hl : addrOr none iph i = .ok own) :
        (takenAddr .inet own (x.octets .inet)).length = Family.addrSize .inet ∧
          addrOr (some x) iph i = .ok (takenAddr .inet own (x.octets .inet)) := by
      rw [takenAddr, addrOr]
      by_cases hz : x.addr = IpxAddr.zero.addr
      · rw [if_pos hz, if_pos ⟨rfl, congrArg List.Vector.toList hz⟩]
        exact ⟨hown, hl⟩
      · rw [if_neg hz, if_neg (fun he => hz (List.Vector.toList_injective he.2))]
        exact ⟨x.addr.toList_length, rfl⟩
    obtain ⟨hs', hs⟩ := htaken a 12 hs hsrc
    obtain ⟨hd', hd⟩ := htaken b 16 hd hdst
    exact ⟨hs', hd', iph, hip, hproto, hs, hd⟩
  | inet6 => exact ⟨a.addr6.toList_length, b.addr6.toList_length, rfl⟩

/-- Whatever addresses were received, the pseudo-header can be filled in. -/
theorem OwnHeader.resolves_any {vnet : VrrpNet} (h : OwnHeader vnet) (a b : IpxAddr) :
    ∃ s d, Resolves vnet (some a) (some b) s d := ⟨_, _, h.resolves_taken a b⟩

private theorem viplistCmpLoop_ok {family : Family} (vipList : List VrrpIp) {pkt : Octets}
    (left naddr ndiff : Nat) (h : VRRP_PKTHDR_SIZE + (naddr + left) * family.addrSize ≤ pkt.length) :
    ∃ n, viplistCmpLoop family vipList pkt left naddr ndiff = .ok n := by
  induction left generalizing naddr ndiff with
  | zero => exact ⟨ndiff, rfl⟩
  | succ left ih =>
    have hle : VRRP_PKTHDR_SIZE + naddr * family.addrSize + family.addrSize ≤ pkt.length := by
      have hmul : naddr * family.addrSize + family.addrSize ≤ (naddr + (left + 1)) * family.addrSize := by
        rw [← Nat.succ_mul]
        exact Nat.mul_le_mul_right _ (by omega)
      omega
    obtain ⟨addr, ha⟩ : ∃ addr, load pkt (VRRP_PKTHDR_SIZE + naddr * family.addrSize) family.addrSize =
        .ok addr := ⟨_, load_eq_ok.mpr (Library.Memory.read_eq_some.mpr ⟨hle, rfl⟩)⟩
    rw [viplistCmpLoop]
    rw [ha, ok_bind]
    exact ih _ _ (by rwa [Nat.add_assoc, Nat.add_comm 1 left])

structure Passworded (vrrp : Vrrp) : Prop where
  known : vrrp.authType = .simple → vrrp.authData ≠ none
  short : ∀ password ∈ vrrp.authData, password.length ≤ VRRP_AUTH_PASS_LEN

theorem Configured.passworded {c : Config} {d : Daemon} (h : Configured c d) : Passworded d.vrrp := by
  refine ⟨?_, ?_⟩
  · intro ht hn
    rw [h.authType, Config.authType, ← h.authData, hn] at ht
    simp at ht
  · rw [h.authData]
    exact c.password_le

theorem VrrpVersion.code_inj {v w : VrrpVersion} (h : v.code = w.code) : v = w := by
  cases v <;> cases w <;> first | rfl | exact absurd h (by decide)

theorem authType_code_inj {a b : VrrpAuthtype} (h : a.code = b.code) : a = b := by
  cases a <;> cases b <;> first | rfl | exact absurd h (by decide)

/-- A whole packet has room for the password and the addresses. -/
theorem getsize_room {vnet : VrrpNet} (hn : 1 ≤ vnet.naddr.toNat) :
    VRRP_PKTHDR_SIZE + vnet.naddr.toNat * 4 + VRRP_AUTH_PASS_LEN ≤ advGetsize vnet ∧
    VRRP_PKTHDR_SIZE + vnet.naddr.toNat * vnet.family.addrSize ≤ advGetsize vnet := by
  rw [advGetsize]
  cases vnet.family <;>
    simp only [vrrpIp4Getsize, vrrpIp6Getsize, VRRP_PKTHDR_SIZE, VRRP_AUTH_PASS_LEN, VRRP_AUTH_SIZE,
      Family.addrSize] <;> omega

private theorem checkAuth_ok {vrrp : Vrrp} (h : Passworded vrrp) (hdr : Vrrphdr) {pkt : Octets}
    (hl : VRRP_PKTHDR_SIZE + vrrp.naddr.toNat * 4 + VRRP_AUTH_PASS_LEN ≤ pkt.length) :
    ∃ r, checkAuth vrrp hdr pkt = .ok r := by
  rw [checkAuth]
  split
  · exact ⟨true, rfl⟩
  split
  · exact ⟨false, rfl⟩
  next ht =>
  split
  · next hs =>
    have hsimple : vrrp.authType = .simple := authType_code_inj ((not_not.mp ht).symm.trans hs)
    obtain ⟨password, hp⟩ := Option.ne_none_iff_exists'.mp (h.known hsimple)
    have hshort := h.short password hp
    have hload : load pkt (VRRP_PKTHDR_SIZE + vrrp.naddr.toNat * 4) password.length =
        .ok ((pkt.drop (VRRP_PKTHDR_SIZE + vrrp.naddr.toNat * 4)).take password.length) :=
      load_eq_ok.mpr (Library.Memory.read_eq_some.mpr ⟨by omega, rfl⟩)
    rw [hp]
    simp only [deref, ok_bind, hload]
    exact ⟨_, rfl⟩
  · exact ⟨true, rfl⟩

theorem vipCompare_ok {vnet : VrrpNet} (hpos : 1 ≤ vnet.naddr.toNat) {pkt : Octets}
    (hl : advGetsize vnet ≤ pkt.length) : ∃ n, vipCompare vnet pkt = .ok n := by
  have hloop := viplistCmpLoop_ok vnet.vipList vnet.naddr.toNat 0 0
    (by rw [Nat.zero_add]; exact (getsize_room hpos).2.trans hl)
  rw [vipCompare]
  cases hf : vnet.family <;> rw [hf] at hloop <;> exact hloop

private theorem checkContent_ok {vnet : VrrpNet} {vrrp : Vrrp} (hp : Passworded vrrp)
    (hn : vnet.naddr = vrrp.naddr) (hpos : 1 ≤ vnet.naddr.toNat) (hdr : Vrrphdr) {pkt : Octets}
    (hl : advGetsize vnet ≤ pkt.length) : ∃ r, checkContent vnet vrrp hdr pkt = .ok r := by
  obtain ⟨hauth, -⟩ := getsize_room hpos
  have hroom : VRRP_PKTHDR_SIZE + vrrp.naddr.toNat * 4 + VRRP_AUTH_PASS_LEN ≤ pkt.length := by
    rw [← hn]
    omega
  obtain ⟨auth, ha⟩ := checkAuth_ok hp hdr hroom
  obtain ⟨ndiff, hc⟩ := vipCompare_ok hpos hl
  obtain ⟨vips, hv⟩ : ∃ r, checkVips vnet vrrp hdr pkt = .ok r := by
    rw [checkVips, vipsDiffer]
    split
    · exact ⟨_, rfl⟩
    · rw [hc]
      exact ⟨_, rfl⟩
  rw [checkContent]
  split
  · exact ⟨_, rfl⟩
  rw [ha, ok_bind]
  split
  · exact ⟨_, rfl⟩
  rw [hv, ok_bind]
  split
  · exact ⟨_, rfl⟩
  · exact ⟨_, rfl⟩

/-- What reception relies on, in every state of a daemon. -/
structure Ready (vnet : VrrpNet) (vrrp : Vrrp) : Prop where
  own : OwnHeader vnet
  naddr : vnet.naddr = vrrp.naddr
  pos : 1 ≤ vnet.naddr.toNat
  password : Passworded vrrp

theorem History.ready {host : ByteOrder} {c : Config} {fresh : Fresh}
    {h : List (Entry Daemon Input Output)} {d : Daemon} (run : History host c fresh h d) :
    Ready d.vnet d.vrrp := by
  obtain ⟨contents, -, hco⟩ := run.coherent
  have hcfg := run.configured
  refine ⟨hco.prepared.own, hco.prepared.naddr, ?_, hcfg.passworded⟩
  rw [hcfg.netNaddr, Config.naddr_toNat]
  exact c.vips_pos

/-- The packet stays within its length when it is refused for its header, or whole. -/
theorem checkPacket_ok (host : ByteOrder) {vnet : VrrpNet} {vrrp : Vrrp} (h : Ready vnet vrrp)
    (hdr : Vrrphdr) {rest : Octets}
    (hl : checkHeader vrrp vnet.pkt.header hdr = none → advGetsize vnet ≤ 8 + rest.length) :
    ∃ r, checkPacket host vnet vrrp (hdr.octets ++ rest) = .ok r := by
  rw [checkPacket_eq]
  cases hh : checkHeader vrrp vnet.pkt.header hdr with
  | some event => exact ⟨_, rfl⟩
  | none =>
    have hlen := hl hh
    obtain ⟨-, hver, -⟩ := checkHeader_none hh
    obtain ⟨s, d, hres⟩ := h.own.resolves_any vnet.pkt.sIpx vnet.pkt.dIpx
    obtain ⟨sum, -, hc, -⟩ := advChecksum_spec host hdr rest hver hres hlen
    obtain ⟨accepted, ha⟩ := checkContent_ok h.password h.naddr h.pos hdr
      (show advGetsize vnet ≤ (hdr.octets ++ rest).length by
        rw [List.length_append, Vrrphdr.octets_length]; exact hlen)
    simp only [hc, ok_bind, ha]
    split
    · exact ⟨_, rfl⟩
    · exact ⟨_, rfl⟩

/-- In IPv4, a shorter packet with a good header is summed beyond its end. -/
theorem checkPacket_short (host : ByteOrder) {vnet : VrrpNet} {vrrp : Vrrp} {hdr : Vrrphdr} {rest : Octets}
    (h : OwnHeader vnet) (hf : vnet.family = .inet) (hh : checkHeader vrrp vnet.pkt.header hdr = none)
    (hl : 8 + rest.length < advGetsize vnet) :
    checkPacket host vnet vrrp (hdr.octets ++ rest) = .error .badAccess := by
  obtain ⟨s, d, -, -, hres⟩ := h.resolves_any vnet.pkt.sIpx vnet.pkt.dIpx
  obtain ⟨-, hver, -⟩ := checkHeader_none hh
  have hst : store (hdr.octets ++ rest) 6 [0, 0] = .ok (hdr.reset.octets ++ rest) :=
    store_chksum hdr rest 0 0
  have hvt : load8 (hdr.reset.octets ++ rest) 0 = .ok hdr.versionType := rfl
  have hg : advGetsize vnet = vrrpIp4Getsize vnet := by rw [advGetsize, hf]
  have hshort : (hdr.reset.octets ++ rest).length < vrrpIp4Getsize vnet := by
    rw [List.length_append, Vrrphdr.octets_length, ← hg]
    exact hl
  have hsum : advChecksum host vnet (hdr.octets ++ rest) (some vnet.pkt.sIpx) (some vnet.pkt.dIpx) =
      .error .badAccess := by
    rw [hf] at hres
    obtain ⟨iph, hip, hproto, hs, hd⟩ := hres
    simp only [advChecksum, hf, vrrpIp4Chksum, hst, hvt, ok_bind]
    rw [hver]
    cases vrrp.version with
    | rfc3768 =>
      rw [if_pos rfl, cksum, cksumSum_short host _ _ _ hshort]
      rfl
    | rfc5798 =>
      have hload : load (hdr.reset.octets ++ rest) 0 (vrrpIp4Getsize vnet) = .error .badAccess := by
        rw [load, Library.Memory.read_eq_none.mpr (by omega)]
      rw [if_neg (by decide), if_pos rfl, hip]
      simp only [deref, hs, hd, hproto, hload, ok_bind]
      rfl
  rw [checkPacket_eq, hh, hsum]
  rfl

def headerLength (octets : Octets) : Nat := (octets.getD 0 0).toNat % 16 * 4

/-- What a system call delivers: on the IPv4 socket as many octets as the total
length says, among them a whole IP header; on the IPv6 socket the payload. -/
def FromKernel (family : Family) (octets : Octets) : Prop :=
  match family with
  | .inet => octets.length = word .big (octets.getD 2 0) (octets.getD 3 0) ∧
      IPHDR_SIZE ≤ headerLength octets ∧ headerLength octets ≤ octets.length
  | .inet6 => True

instance (family : Family) (octets : Octets) : Decidable (FromKernel family octets) :=
  match family with
  | .inet => inferInstanceAs (Decidable (_ ∧ _ ∧ _))
  | .inet6 => inferInstanceAs (Decidable True)

private theorem load8_getD (mem : Octets) (i : Nat) (h : i < mem.length) :
    load8 mem i = .ok (mem.getD i 0) := by
  apply load8_eq_ok.mpr
  rw [List.getD_eq_getElem?_getD, List.getElem?_eq_getElem h]
  rfl

/-- The IPv4 helper on a buffer that ends with the datagram. -/
theorem pktReceive_ip4 (host : ByteOrder) {datagram : Datagram} (hk : FromKernel .inet datagram.octets)
    (recv : VrrpRecv) :
    ∃ r, pktReceive host .inet (some datagram) recv [] = .ok r ∧
      r.len = some datagram.octets.length ∧ r.buf = datagram.octets ∧
      r.payloadPos = headerLength datagram.octets ∧
      r.recv.header = ⟨headerLength datagram.octets, (datagram.octets.getD 9 0).toNat,
        datagram.octets.length, (datagram.octets.getD 8 0).toNat⟩ ∧
      r.recv.sIpx.octets .inet = (datagram.octets.drop 12).take 4 ∧
      r.recv.dIpx.octets .inet = (datagram.octets.drop 16).take 4 := by
  obtain ⟨octets, saddr6, hoplimit, pktinfo⟩ := datagram
  obtain ⟨htotal, hmin, hle⟩ := hk
  simp only at htotal hmin hle ⊢
  have hword := word_lt .big (octets.getD 2 0) (octets.getD 3 0)
  rw [← htotal] at hword
  simp only [IPHDR_SIZE] at hmin
  have htake : octets.take IP_MAXPACKET = octets :=
    List.take_of_length_le (by simp only [IP_MAXPACKET]; omega)
  have hbuf : received (some ⟨octets, saddr6, hoplimit, pktinfo⟩) [] = octets := by
    simp only [received, htake, fill, List.drop_nil, List.append_nil]
  have h16 : load16 host octets 2 = .ok (word host (octets.getD 2 0) (octets.getD 3 0)) := by
    simp only [load16, load8_getD octets 2 (by omega),
      load8_getD octets 3 (by omega), ok_bind, pure_eq_ok]
  have hs : 12 + 4 ≤ octets.length := by omega
  have hd : 16 + 4 ≤ octets.length := by omega
  rw [pktReceive, vrrpIp4Recv_eq, hbuf]
  simp only [load8_getD octets 0 (by omega), h16,
    load8_getD octets 8 (by omega), load8_getD octets 9 (by omega),
    loadAddr, dif_pos hs, dif_pos hd, ok_bind, pure_eq_ok, ntohs_word, ← htotal]
  refine ⟨_, rfl, ?_, rfl, rfl, rfl, rfl, rfl⟩
  simp only [Option.map_some, htake]

/-- The IPv6 helper, when both ancillary messages are there. -/
theorem pktReceive_ip6 (host : ByteOrder) (octets : Octets) (saddr6 : In6Addr) (ttl : Int)
    (daddr6 : In6Addr) (recv : VrrpRecv) :
    ∃ r, pktReceive host .inet6 (some ⟨octets, saddr6, some ttl, some daddr6⟩) recv [] = .ok r ∧
      r.len = some (octets.take IP_MAXPACKET).length ∧ r.buf = octets.take IP_MAXPACKET ∧
      r.payloadPos = 0 ∧
      r.recv.header = ⟨IP6HDR_SIZE, IPPROTO_VRRP.toNat,
        (IP6HDR_SIZE + (octets.take IP_MAXPACKET).length : Nat), ttl⟩ ∧
      r.recv.sIpx.octets .inet6 = saddr6.toList ∧ r.recv.dIpx.octets .inet6 = daddr6.toList := by
  have hfill : fill (octets.take IP_MAXPACKET) [] = octets.take IP_MAXPACKET := by
    rw [fill, List.drop_nil, List.append_nil]
  exact ⟨_, rfl, rfl, hfill, rfl, rfl, rfl, rfl⟩

/-- An IPv4 datagram that passes every test before the checksum, although its VRRP
part is shorter than the advertisement that is expected. -/
def Overreads (d : Daemon) (octets : Octets) : Prop :=
  d.vnet.family = .inet ∧ (octets.length : Int) ≤ d.vnet.vif.mtu ∧
  advGetsize d.vnet ≤ octets.length ∧ VRRP_PKT_MINSIZE ≤ octets.length - headerLength octets ∧
  octets.length - headerLength octets < advGetsize d.vnet ∧
  octets.getD 9 0 = IPPROTO_VRRP ∧ octets.getD 8 0 = 255 ∧
  octets.getD (headerLength octets) 0 >>> 4 = d.vrrp.version.code ∧
  octets.getD (headerLength octets + 1) 0 = d.vrrp.vrid

instance (d : Daemon) (octets : Octets) : Decidable (Overreads d octets) :=
  inferInstanceAs (Decidable (_ ∧ _ ∧ _ ∧ _ ∧ _ ∧ _ ∧ _ ∧ _ ∧ _))

/-- Reception stays within the octets received: it also succeeds on a buffer that
ends with them. -/
def StaysWithin (host : ByteOrder) (d : Daemon) (datagram : Datagram) : Prop :=
  ∃ r, vrrpNetRecv host d.vnet d.vrrp (some datagram) [] = .ok r

theorem payloadSize_eq {len total : Nat} {proto ttl : Int} (h : len ≤ total)
    (ht : total < 65536 + 40) : payloadSize ⟨len, proto, total, ttl⟩ = total - len := by
  simp only [payloadSize]
  omega

private theorem hdr_getD {octets rest : Octets} {hdr : Vrrphdr} {i : Nat}
    (h : octets.drop i = hdr.octets ++ rest) :
    octets.getD i 0 = hdr.versionType ∧ octets.getD (i + 1) 0 = hdr.vrid := by
  have h₀ : (octets.drop i)[0]? = some hdr.versionType := by rw [h]; rfl
  have h₁ : (octets.drop i)[1]? = some hdr.vrid := by rw [h]; rfl
  rw [List.getElem?_drop] at h₀ h₁
  simp only [List.getD_eq_getElem?_getD, h₁]
  rw [Nat.add_zero] at h₀
  simp only [h₀, Option.getD_some, and_self]

/-- The header test in terms of the octets. -/
private theorem checkHeader_octets {vrrp : Vrrp} {hdr : Vrrphdr} {len total : Int} {proto ttl : UInt8} :
    checkHeader vrrp ⟨len, (proto.toNat : Int), total, (ttl.toNat : Int)⟩ hdr = none ↔
      proto = IPPROTO_VRRP ∧ ttl = 255 ∧ hdr.versionType >>> 4 = vrrp.version.code ∧
        hdr.vrid = vrrp.vrid := by
  constructor
  · intro h
    obtain ⟨hp, hv, ht, hi⟩ := checkHeader_none h
    refine ⟨UInt8.toNat_inj.mp (Int.ofNat_inj.mp hp), UInt8.toNat_inj.mp (Int.ofNat_inj.mp ht), hv, hi⟩
  · rintro ⟨rfl, rfl, hv, hi⟩
    exact checkHeader_eq_none rfl hv rfl hi

private theorem getsize_le_max {vnet : VrrpNet} (hf : vnet.family = .inet) :
    advGetsize vnet ≤ VRRP_PKT_MAXSIZE := by
  have hn := vnet.naddr.toNat_lt
  simp only [advGetsize, hf, vrrpIp4Getsize, VRRP_PKT_MAXSIZE, VRRP_PKTHDR_SIZE, VRRP_AUTH_SIZE, VIP_MAX]
  omega

/-- Behind the tests of the length, reception stays within the datagram exactly
when the checks on the packet do. -/
private theorem staysWithin_checked {host : ByteOrder} {d : Daemon} {datagram : Datagram} {r : Received}
    {len : Nat} (hr : pktReceive host d.vnet.family (some datagram) d.vnet.pkt [] = .ok r)
    (hlen : r.len = some len) (hfit : ¬ ((len : Int) > d.vnet.vif.mtu ∨ len < advGetsize d.vnet))
    (hsize : ¬ (payloadSize r.recv.header < VRRP_PKT_MINSIZE ∨
      payloadSize r.recv.header > VRRP_PKT_MAXSIZE)) :
    StaysWithin host d datagram ↔
      ∃ v, checkPacket host (vrrpNetInvalidateBuffer { d.vnet with pkt := r.recv }) d.vrrp
        (r.buf.drop r.payloadPos) = .ok v := by
  rw [StaysWithin]
  rw [vrrpNetRecv_checked d.vrrp hr hlen hfit hsize]
  cases checkPacket host (vrrpNetInvalidateBuffer { d.vnet with pkt := r.recv }) d.vrrp
      (r.buf.drop r.payloadPos) with
  | error e => simp
  | ok v =>
    obtain ⟨event, adv⟩ := v
    cases adv <;> simp

/-- The tests of the length that come first. -/
private theorem staysWithin_unfit {host : ByteOrder} {d : Daemon} {datagram : Datagram} {r : Received}
    {len : Nat} (hr : pktReceive host d.vnet.family (some datagram) d.vnet.pkt [] = .ok r)
    (hlen : r.len = some len) (hunfit : ((len : Int) > d.vnet.vif.mtu ∨ len < advGetsize d.vnet) ∨
      (payloadSize r.recv.header < VRRP_PKT_MINSIZE ∨
        payloadSize r.recv.header > VRRP_PKT_MAXSIZE)) : StaysWithin host d datagram := by
  rw [StaysWithin, vrrpNetRecv_def]
  rw [hr, ok_bind]
  simp only [hlen]
  by_cases hfit : (len : Int) > d.vnet.vif.mtu ∨ len < advGetsize d.vnet
  · exact ⟨_, if_pos hfit⟩
  · exact ⟨_, (if_neg hfit).trans (if_pos (hunfit.resolve_left hfit))⟩

theorem staysWithin_ip4 (host : ByteOrder) {d : Daemon} (hready : Ready d.vnet d.vrrp)
    (hf : d.vnet.family = .inet) {datagram : Datagram} (hk : FromKernel .inet datagram.octets) :
    StaysWithin host d datagram ↔ ¬ Overreads d datagram.octets := by
  obtain ⟨r, hr, hlen, hbuf, hpos, hheader, -, -⟩ := pktReceive_ip4 host hk d.vnet.pkt
  obtain ⟨htotal, hmin, hle⟩ := hk
  have hword := word_lt .big (datagram.octets.getD 2 0) (datagram.octets.getD 3 0)
  rw [← htotal] at hword
  rw [← hf] at hr
  have hsize : payloadSize r.recv.header =
      datagram.octets.length - headerLength datagram.octets := by
    rw [hheader]
    exact payloadSize_eq hle (by omega)
  by_cases hunfit : ((datagram.octets.length : Int) > d.vnet.vif.mtu ∨
      datagram.octets.length < advGetsize d.vnet) ∨ (payloadSize r.recv.header < VRRP_PKT_MINSIZE ∨
        payloadSize r.recv.header > VRRP_PKT_MAXSIZE)
  · apply iff_of_true (staysWithin_unfit hr hlen hunfit)
    rintro ⟨-, hmtu, hg, hlow, hshort, -⟩
    have hmax := getsize_le_max hf
    omega
  obtain ⟨hfit, hwindow⟩ := not_or.mp hunfit
  rw [staysWithin_checked hr hlen hfit hwindow, hbuf, hpos]
  have height : 8 ≤ (datagram.octets.drop (headerLength datagram.octets)).length := by
    rw [List.length_drop]
    simp only [VRRP_PKT_MINSIZE, VRRP_PKTHDR_SIZE] at hwindow
    omega
  obtain ⟨hdr, rest, hpkt⟩ := exists_hdr height
  have hrest : 8 + rest.length = datagram.octets.length - headerLength datagram.octets := by
    have hl := congrArg List.length hpkt
    rw [List.length_drop, List.length_append, Vrrphdr.octets_length] at hl
    exact hl.symm
  obtain ⟨hvt, hvrid⟩ := hdr_getD hpkt
  have hready' : Ready (vrrpNetInvalidateBuffer { d.vnet with pkt := r.recv }) d.vrrp :=
    ⟨hready.own, hready.naddr, hready.pos, hready.password⟩
  have hheader' : checkHeader d.vrrp (vrrpNetInvalidateBuffer { d.vnet with pkt := r.recv }).pkt.header hdr =
      none ↔ datagram.octets.getD 9 0 = IPPROTO_VRRP ∧ datagram.octets.getD 8 0 = 255 ∧
        hdr.versionType >>> 4 = d.vrrp.version.code ∧ hdr.vrid = d.vrrp.vrid := by
    have he : (vrrpNetInvalidateBuffer { d.vnet with pkt := r.recv }).pkt.header = r.recv.header := rfl
    rw [he, hheader]
    exact checkHeader_octets
  rw [hpkt]
  by_cases hwhole : checkHeader d.vrrp (vrrpNetInvalidateBuffer { d.vnet with pkt := r.recv }).pkt.header
      hdr = none → advGetsize d.vnet ≤ 8 + rest.length
  · apply iff_of_true (checkPacket_ok host hready' hdr hwhole)
    rintro ⟨-, -, -, -, hshort, hproto, httl, hver, hid⟩
    have hg := hwhole (hheader'.mpr ⟨hproto, httl, hvt ▸ hver, hvrid ▸ hid⟩)
    omega
  · obtain ⟨hh, hshort⟩ := Classical.not_imp.mp hwhole
    rw [checkPacket_short host hready'.own hf hh (by exact Nat.lt_of_not_le hshort)]
    refine iff_of_false ?_ (not_not.mpr ?_)
    · rintro ⟨_, h⟩
      cases h
    obtain ⟨hproto, httl, hver, hid⟩ := hheader'.mp hh
    exact ⟨hf, by omega, by omega, by omega, by omega, hproto, httl, hvt ▸ hver, hvrid ▸ hid⟩

/-- The length that is tested in IPv6 is that of the VRRP part. -/
theorem staysWithin_ip6 (host : ByteOrder) {d : Daemon} (hready : Ready d.vnet d.vrrp)
    (hf : d.vnet.family = .inet6) (datagram : Datagram) : StaysWithin host d datagram := by
  obtain ⟨octets, saddr6, hoplimit, pktinfo⟩ := datagram
  cases hoplimit with
  | none =>
    rw [StaysWithin, vrrpNetRecv_def]
    rw [hf]
    exact ⟨_, rfl⟩
  | some ttl =>
    cases pktinfo with
    | none =>
      rw [StaysWithin, vrrpNetRecv_def]
      rw [hf]
      exact ⟨_, rfl⟩
    | some daddr6 =>
      obtain ⟨r, hr, hlen, hbuf, hpos, hheader, -, -⟩ :=
        pktReceive_ip6 host octets saddr6 ttl daddr6 d.vnet.pkt
      rw [← hf] at hr
      by_cases hunfit : (((octets.take IP_MAXPACKET).length : Int) > d.vnet.vif.mtu ∨
          (octets.take IP_MAXPACKET).length < advGetsize d.vnet) ∨
          (payloadSize r.recv.header < VRRP_PKT_MINSIZE ∨ payloadSize r.recv.header > VRRP_PKT_MAXSIZE)
      · exact staysWithin_unfit hr hlen hunfit
      obtain ⟨hfit, hwindow⟩ := not_or.mp hunfit
      rw [staysWithin_checked hr hlen hfit hwindow, hbuf, hpos, List.drop_zero]
      have hwhole : advGetsize d.vnet ≤ (octets.take IP_MAXPACKET).length := by omega
      have height : 8 ≤ (octets.take IP_MAXPACKET).length := by
        have hroom := (getsize_room hready.pos).2
        simp only [VRRP_PKTHDR_SIZE] at hroom
        omega
      obtain ⟨hdr, rest, hpkt⟩ := exists_hdr height
      rw [hpkt, List.length_append, Vrrphdr.octets_length] at hwhole
      have hready' : Ready (vrrpNetInvalidateBuffer { d.vnet with pkt := r.recv }) d.vrrp :=
        ⟨hready.own, hready.naddr, hready.pos, hready.password⟩
      rw [hpkt]
      exact checkPacket_ok host hready' hdr (fun _ => hwhole)

/-- Reception depends on what was received, and on nothing behind it, for every
datagram but those IPv4 datagrams whose VRRP part is too short and yet gets as far
as the checksum. -/
theorem reception_within_datagram_iff {host : ByteOrder} {c : Config} {fresh : Fresh}
    {h : List (Entry Daemon Input Output)} {d : Daemon} (run : History host c fresh h d)
    (datagram : Datagram) (hk : FromKernel c.family datagram.octets) :
    (StaysWithin host d datagram ∧
      ∀ stack stack' : List.Vector UInt8 IP_MAXPACKET,
        ∃ event vnet, vrrpNetRecv host d.vnet d.vrrp (some datagram) stack.toList = .ok (event, vnet) ∧
          vrrpNetRecv host d.vnet d.vrrp (some datagram) stack'.toList = .ok (event, vnet)) ↔
    ¬ Overreads d datagram.octets := by
  have hfam := run.configured.family
  have hwithin : StaysWithin host d datagram ↔ ¬ Overreads d datagram.octets := by
    cases hf : c.family with
    | inet =>
      rw [hf] at hfam hk
      exact staysWithin_ip4 host run.ready hfam hk
    | inet6 =>
      rw [hf] at hfam
      apply iff_of_true (staysWithin_ip6 host run.ready hfam datagram)
      rintro ⟨hinet, -⟩
      rw [hfam] at hinet
      cases hinet
  rw [← hwithin]
  refine ⟨And.left, fun hstays => ⟨hstays, ?_⟩⟩
  intro stack stack'
  obtain ⟨⟨event, vnet⟩, hr⟩ := hstays
  exact ⟨event, vnet, vrrpNetRecv_extend hr stack.toList, vrrpNetRecv_extend hr stack'.toList⟩

def stunted : Datagram where
  octets := [0x45, 0, 0, 32, 0, 0, 0, 0, 255, 112, 0, 0, 192, 0, 2, 2, 224, 0, 0, 18,
    0x21, 7, 200, 1, 0, 1, 0x54, 0xeb, 192, 0, 2, 10]
  saddr6 := IpxAddr.zero.addr6
  hoplimit := none
  pktinfo := none

def grown : Datagram :=
  { stunted with octets := [0x45, 0, 0, 40, 0, 0, 0, 0, 255, 112, 0, 0, 192, 0, 2, 2, 224, 0, 0, 18,
      0x21, 7, 200, 1, 0, 1, 0x54, 0xeb, 192, 0, 2, 10, 0, 0, 0, 0, 0, 0, 0, 0] }

def waiting : Daemon := (lab.runOn [.quiet ⟨1, 0⟩]).2

theorem reception_within_datagram_grown :
    ¬ Overreads waiting grown.octets ∧ FromKernel .inet grown.octets ∧
    ∃ event vnet,
      vrrpNetRecv .little waiting.vnet waiting.vrrp (some grown)
        (List.Vector.replicate IP_MAXPACKET 0).toList = .ok (event, vnet) ∧
      vrrpNetRecv .little waiting.vnet waiting.vrrp (some grown)
        (List.Vector.replicate IP_MAXPACKET 1).toList = .ok (event, vnet) := by
  have run : History .little lab (.filled 0) _ waiting := history_runOn (.inl rfl) [.quiet ⟨1, 0⟩]
  have hok : ¬ Overreads waiting grown.octets := by decide +kernel
  have hk : FromKernel lab.family grown.octets := by decide
  exact ⟨hok, hk, ((reception_within_datagram_iff run grown hk).mpr hok).2 _ _⟩

/-- A verdict reached on the front of a buffer of one value. -/
theorem vrrpNetRecv_replicate {n : Nat} (b : UInt8) {host : ByteOrder} {d : Daemon}
    {datagram : Datagram} {event : VrrpEvent} (hn : n ≤ IP_MAXPACKET)
    (h : (vrrpNetRecv host d.vnet d.vrrp (some datagram) (List.replicate n b)).map Prod.fst = .ok event) :
    ∃ vnet, vrrpNetRecv host d.vnet d.vrrp (some datagram)
      (List.Vector.replicate IP_MAXPACKET b).toList = .ok (event, vnet) := by
  obtain ⟨vnet, hr⟩ := exists_of_map_fst h
  have hext := vrrpNetRecv_extend hr (List.replicate (IP_MAXPACKET - n) b)
  rw [List.replicate_append_replicate, Nat.add_sub_cancel' hn] at hext
  exact ⟨vnet, hext⟩

/-- A datagram that reaches a router while it waits for the master is judged by
reception; the verdict and the header are those found on the front of the buffer. -/
theorem vrrpListen_packet {n : Nat} {host : ByteOrder} {d : Daemon} {now : Timespec} {datagram : Datagram}
    {event : VrrpEvent} {hdr : Vrrphdr} (hid : runningTimer d.vrrp = some .masterdown)
    (hup : (vrrpTimerUpdate (some now) d.vrrp.masterdownTimer).1 = false)
    (hexp : (vrrpTimerIsExpired (some now) (vrrpTimerUpdate (some now) d.vrrp.masterdownTimer).2).1 = false)
    (hn : n ≤ IP_MAXPACKET)
    (hr : (vrrpNetRecv host d.vnet d.vrrp (some datagram) (List.replicate n 0)).map
      (fun r => (r.1, r.2.pkt.adv)) = .ok (event, hdr)) :
    ∃ d₁, vrrpListen host (.packet now datagram) d = .ok (event, d₁) ∧ d₁.vnet.pkt.adv = hdr := by
  obtain ⟨⟨verdict, vnet⟩, hrecv, heq⟩ : ∃ r, vrrpNetRecv host d.vnet d.vrrp (some datagram)
      (List.replicate n 0) = .ok r ∧ (r.1, r.2.pkt.adv) = (event, hdr) := by
    cases hv : vrrpNetRecv host d.vnet d.vrrp (some datagram) (List.replicate n 0) with
    | error e => rw [hv] at hr; cases hr
    | ok r => rw [hv] at hr; exact ⟨r, rfl, Except.ok.inj hr⟩
  obtain ⟨rfl, rfl⟩ := Prod.mk.inj heq
  have hext := vrrpNetRecv_extend hrecv (List.replicate (IP_MAXPACKET - n) 0)
  rw [List.replicate_append_replicate, Nat.add_sub_cancel' hn] at hext
  obtain ⟨t, ht⟩ : ∃ t, vrrpTimerUpdate (some now) d.vrrp.masterdownTimer = (false, t) := ⟨_, Prod.ext hup rfl⟩
  rw [ht] at hexp
  obtain ⟨t', ht'⟩ : ∃ t', vrrpTimerIsExpired (some now) t = (false, t') := ⟨_, Prod.ext hexp rfl⟩
  obtain ⟨buf, hbuf⟩ := exists_buf hext
  refine ⟨⟨{ d.vrrp with masterdownTimer := t' }, vnet, d.reg, buf⟩, ?_, rfl⟩
  have hready : vrrpListenReady host (.packet now datagram) true false
      { d with vrrp := { d.vrrp with masterdownTimer := t' } } =
      .ok (verdict, ⟨{ d.vrrp with masterdownTimer := t' }, vnet, d.reg, buf⟩) := congrArg (· >>= _) hbuf
  rw [vrrpListen, hid]
  simp only [Input.packet, Input.quiet, Vrrp.timer, ht, Vrrp.setTimer, ht']
  exact hready

/-- The old contents of the stack decide whether an advertisement that lacks its
last eight octets passes for a valid one. -/
theorem reception_beyond_datagram :
    History .little lab (.filled 0) (lab.runOn [.quiet ⟨1, 0⟩]).1 waiting ∧
    FromKernel lab.family stunted.octets ∧
    (∃ vnet, vrrpNetRecv .little waiting.vnet waiting.vrrp (some stunted)
      (List.Vector.replicate IP_MAXPACKET 0).toList = .ok (.pkt, vnet)) ∧
    (∃ vnet, vrrpNetRecv .little waiting.vnet waiting.vrrp (some stunted)
      (List.Vector.replicate IP_MAXPACKET 1).toList = .ok (.invalid, vnet)) :=
  ⟨history_runOn (.inl rfl) [.quiet ⟨1, 0⟩], by decide,
    vrrpNetRecv_replicate (n := 40) 0 (by decide) (by decide +kernel),
    vrrpNetRecv_replicate (n := 40) 1 (by decide) (by decide +kernel)⟩

end Uvrrpd
