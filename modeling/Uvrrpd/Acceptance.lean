import Uvrrpd.OwnExtent
import Uvrrpd.Safety
import Uvrrpd.VipLists

/-! Which datagrams `vrrp_net_recv` takes for an advertisement, said of the octets
received and of the command line. -/
namespace Uvrrpd
open Library.Memory (bind_eq_ok exists_pieces)
open Library.Runs

/-- The octets that a router sums, and expects: those of its own advertisement. -/
def Config.advSize (c : Config) : Nat :=
  match c.family with
  | .inet => VRRP_PKTHDR_SIZE + c.vips.length * 4 + VRRP_AUTH_SIZE
  | .inet6 => VRRP_PKTHDR_SIZE + c.vips.length * 16

def Datagram.Direct (family : Family) (g : Datagram) : Prop :=
  match family with
  | .inet => g.octets.getD 9 0 = IPPROTO_VRRP ∧ g.octets.getD 8 0 = 255
  | .inet6 => g.hoplimit = some VRRP_TTL ∧ g.pktinfo ≠ none

/-- An advertisement as a router of a configuration wants it: a header, as many
addresses as it has itself, and some octets behind them. -/
structure Admissible (c : Config) (g : Datagram) (hdr : Vrrphdr) (addrs : List Octets) (tail : Octets) : Prop where
  payload : g.payload c.family = hdr.octets ++ (addrs.flatten ++ tail)
  count : addrs.length = c.vips.length
  sizes : ∀ addr ∈ addrs, addr.length = c.family.addrSize
  mtu : (g.octets.length : Int) ≤ c.vif.mtu
  room : c.advSize ≤ (g.payload c.family).length
  window : (g.payload c.family).length ≤ VRRP_PKT_MAXSIZE
  direct : g.Direct c.family
  nibble : hdr.versionType >>> 4 = c.version.code
  vrid : hdr.vrid = c.vrid
  checksum : [hdr.chksum₀, hdr.chksum₁] = packetChecksum c.family c.version
    (takenAddr c.family (c.vif.ipx.octets c.family) (g.source c.family))
    (takenAddr c.family (vrrpGroup c.family) (g.dest c.family)) c.advSize hdr (addrs.flatten ++ tail)
  auth : c.version = .rfc3768 → hdr.authType = c.authType.code ∧ ∀ password ∈ c.password,
    ((addrs.flatten ++ tail).drop (c.vips.length * 4)).take password.length = password
  vips : c.version = .rfc3768 → hdr.priority = PRIO_OWNER ∨
    hdr.naddr = c.naddr ∧ ∀ addr ∈ addrs, addr ∈ c.vips.map (fun vip => vip.ipx.octets c.family)
  advInt : hdr.advInt.toNat = c.advInt.toNat

section Content
variable {c : Config} {d : Daemon} {hdr : Vrrphdr} {rest : Octets}

theorem Configured.getsize (hc : Configured c d) : advGetsize d.vnet = c.advSize := by
  cases hf : c.family <;>
    simp [advGetsize, Config.advSize, hc.family, hf, vrrpIp4Getsize, vrrpIp6Getsize, hc.netNaddr, c.naddr_toNat]

private theorem checkAuth_iff (hc : Configured c d) (hroom : c.advSize ≤ 8 + rest.length) :
    checkAuth d.vrrp hdr (hdr.octets ++ rest) = .ok true ↔ (c.version = .rfc3768 →
      hdr.authType = c.authType.code ∧ ∀ password ∈ c.password,
        (rest.drop (c.vips.length * 4)).take password.length = password) := by
  rw [checkAuth, hc.version, hc.authType, hc.authData, hc.naddr, c.naddr_toNat]
  cases hv : c.version with
  | rfc5798 => simp
  | rfc3768 =>
    rw [if_neg (by decide)]
    by_cases ht : hdr.authType = c.authType.code
    swap
    · simp [ht]
    rw [if_neg (not_not.mpr ht), ht]
    cases hp : c.password with
    | none => simp [Config.authType, hp, VrrpAuthtype.code]
    | some password =>
      have hle := c.password_le password hp
      have hspan : VRRP_PKTHDR_SIZE + c.vips.length * 4 + password.length ≤ (hdr.octets ++ rest).length := by
        have hpos := c.vips_pos
        rw [Config.advSize] at hroom
        rw [List.length_append, Vrrphdr.octets_length]
        simp only [VRRP_PKTHDR_SIZE, VRRP_AUTH_SIZE, VRRP_AUTH_PASS_LEN] at *
        split at hroom <;> omega
      have hload : load (hdr.octets ++ rest) (VRRP_PKTHDR_SIZE + c.vips.length * 4) password.length =
          .ok ((rest.drop (c.vips.length * 4)).take password.length) := by
        rw [load_eq_ok, Library.Memory.read_eq_some]
        refine ⟨hspan, ?_⟩
        rw [List.drop_append, List.drop_eq_nil_of_le (by rw [Vrrphdr.octets_length, VRRP_PKTHDR_SIZE]; omega),
          Vrrphdr.octets_length, VRRP_PKTHDR_SIZE, Nat.add_sub_cancel_left]
        rfl
      have hsimple : c.authType.code = VrrpAuthtype.simple.code := by rw [Config.authType, hp]; rfl
      rw [if_pos hsimple, deref, ok_bind, hload, ok_bind]
      simp

private theorem checkVips_iff (hc : Configured c d) {addrs : List Octets} {tail : Octets}
    (hcount : addrs.length = c.vips.length) (hsizes : ∀ addr ∈ addrs, addr.length = c.family.addrSize) :
    checkVips d.vnet d.vrrp hdr (hdr.octets ++ (addrs.flatten ++ tail)) = .ok true ↔ (c.version = .rfc3768 →
      hdr.priority = PRIO_OWNER ∨
        hdr.naddr = c.naddr ∧ ∀ addr ∈ addrs, addr ∈ c.vips.map (fun vip => vip.ipx.octets c.family)) := by
  have hl : addrs.length = d.vnet.naddr.toNat := by rw [hc.netNaddr, c.naddr_toNat, hcount]
  have ha : ∀ addr ∈ addrs, addr.length = d.vnet.family.addrSize := by rwa [hc.family]
  have hzero := vipCompare_eq_zero hl ha hdr tail
  rw [VrrpNet.vips, hc.vips, hc.family] at hzero
  rw [← hzero, vipCompare_spec hl ha, checkVips, vipsDiffer, hc.naddr, hc.version]
  by_cases hn : hdr.naddr = c.naddr
  · rw [if_neg (not_not.mpr hn), vipCompare_spec hl ha]
    cases c.version <;> simp [hn, or_comm]
  · rw [if_pos hn]
    cases c.version <;> simp [hn]

theorem checkContent_iff (hc : Configured c d) {addrs : List Octets} {tail : Octets}
    (hcount : addrs.length = c.vips.length) (hsizes : ∀ addr ∈ addrs, addr.length = c.family.addrSize)
    (hroom : c.advSize ≤ 8 + (addrs.flatten ++ tail).length) :
    checkContent d.vnet d.vrrp hdr (hdr.octets ++ (addrs.flatten ++ tail)) = .ok true ↔
      d.vrrp.priority ≠ PRIO_OWNER ∧
      (c.version = .rfc3768 → hdr.authType = c.authType.code ∧ ∀ password ∈ c.password,
        ((addrs.flatten ++ tail).drop (c.vips.length * 4)).take password.length = password) ∧
      (c.version = .rfc3768 → hdr.priority = PRIO_OWNER ∨
        hdr.naddr = c.naddr ∧ ∀ addr ∈ addrs, addr ∈ c.vips.map (fun vip => vip.ipx.octets c.family)) ∧
      hdr.advInt.toNat = c.advInt.toNat := by
  rw [← checkAuth_iff hc hroom, ← checkVips_iff hc hcount hsizes, ← hc.advInt]
  have hadv : checkAdvInt d.vrrp hdr = true ↔ hdr.advInt.toNat = d.vrrp.advInt.toNat := by
    rw [checkAdvInt, beq_iff_eq]
  rw [← hadv]
  constructor
  · exact checkContent_true
  · rintro ⟨hp, hauth, hvips, hint⟩
    rw [checkContent, if_neg hp, hauth, ok_bind, hvips, ok_bind, hint]
    rfl

end Content

private theorem Vrrphdr.octets_inj {a b : Vrrphdr} {xs ys : Octets} (h : a.octets ++ xs = b.octets ++ ys) : a = b := by
  have ho := List.append_inj_left h (by rw [Vrrphdr.octets_length, Vrrphdr.octets_length])
  obtain ⟨a₀, a₁, a₂, a₃, a₄, a₅, a₆, a₇⟩ := a
  obtain ⟨b₀, b₁, b₂, b₃, b₄, b₅, b₆, b₇⟩ := b
  simpa [Vrrphdr.octets] using ho

section Verdict
variable {host : ByteOrder} {d : Daemon} {sock : Option Datagram} {stack : Octets} {r : Received} {len : Nat}
  {hdr : Vrrphdr} {rest : Octets}

/-- Behind the tests of the length, three checks make up the verdict. -/
theorem vrrpNetRecv_pkt_iff (hready : Ready d.vnet d.vrrp)
    (hr : pktReceive host d.vnet.family sock d.vnet.pkt stack = .ok r) (hlen : r.len = some len)
    (hfit : ¬ ((len : Int) > d.vnet.vif.mtu ∨ len < advGetsize d.vnet))
    (hsize : ¬ (payloadSize r.recv.header < VRRP_PKT_MINSIZE ∨
      payloadSize r.recv.header > VRRP_PKT_MAXSIZE))
    (hpkt : r.buf.drop r.payloadPos = hdr.octets ++ rest) (hroom : advGetsize d.vnet ≤ 8 + rest.length) :
    (∃ vnet, vrrpNetRecv host d.vnet d.vrrp sock stack = .ok (.pkt, vnet)) ↔
      checkHeader d.vrrp r.recv.header hdr = none ∧
      Verifies host d.vnet (hdr.octets ++ rest) (some r.recv.sIpx) (some r.recv.dIpx) ∧
      checkContent d.vnet d.vrrp hdr (hdr.octets ++ rest) = .ok true := by
  cases hheader : checkHeader d.vrrp r.recv.header hdr with
  | some event =>
    have hcheck := checkPacket_eq host (vrrpNetInvalidateBuffer { d.vnet with pkt := r.recv }) d.vrrp hdr rest
    have hheader' : checkHeader d.vrrp (vrrpNetInvalidateBuffer { d.vnet with pkt := r.recv }).pkt.header hdr =
        some event := hheader
    rw [hheader'] at hcheck
    rw [vrrpNetRecv_checked d.vrrp hr hlen hfit hsize, hpkt, hcheck]
    rcases checkHeader_some hheader with rfl | rfl <;> simp
  | none =>
    by_cases hcontent : checkContent d.vnet d.vrrp hdr (hdr.octets ++ rest) = .ok true
    · rw [vrrpNetRecv_verifies hready.own hr hlen hfit hsize hpkt hroom hheader hcontent]
      simp [hcontent]
    · refine iff_of_false ?_ (fun h => hcontent h.2.2)
      rintro ⟨vnet, h⟩
      obtain ⟨r', rest', hr', -, hpkt', hcontent'⟩ := vrrpNetRecv_pkt h
      obtain rfl := Except.ok.inj (hr'.symm.trans hr)
      rw [hpkt] at hpkt' hcontent'
      rw [← Vrrphdr.octets_inj hpkt'] at hcontent'
      exact hcontent hcontent'

end Verdict

structure Arrives (family : Family) (g : Datagram) (r : Received) : Prop where
  len : r.len = some g.octets.length
  size : payloadSize r.recv.header = (g.payload family).length
  payload : r.buf.drop r.payloadPos = g.payload family
  source : r.recv.sIpx.octets family = g.source family
  dest : r.recv.dIpx.octets family = g.dest family
  direct : r.recv.header.proto = IPPROTO_VRRP.toNat ∧ r.recv.header.ttl = VRRP_TTL ↔ g.Direct family

def Datagram.Whole (family : Family) (g : Datagram) : Prop :=
  family = .inet6 → g.octets.length ≤ IP_MAXPACKET ∧ g.hoplimit ≠ none ∧ g.pktinfo ≠ none

theorem arrives_ip4 (host : ByteOrder) {g : Datagram} (hk : FromKernel .inet g.octets) (recv : VrrpRecv) :
    ∃ r, pktReceive host .inet (some g) recv [] = .ok r ∧ Arrives .inet g r := by
  obtain ⟨r, hr, hlen, hbuf, hpos, hheader, hs, ht⟩ := pktReceive_ip4 host hk recv
  refine ⟨r, hr, hlen, ?_, ?_, hs, ht, ?_⟩
  · have hword := word_lt .big (g.octets.getD 2 0) (g.octets.getD 3 0)
    rw [hheader, Datagram.payload, List.length_drop]
    exact payloadSize_eq hk.2.2 (by have := hk.1; omega)
  · rw [hbuf, hpos, Datagram.payload]
  · have hoctet (a b : UInt8) : (a.toNat : Int) = b.toNat ↔ a = b := by
      rw [Int.ofNat_inj, UInt8.toNat_inj]
    have httl : VRRP_TTL = ((255 : UInt8).toNat : Int) := rfl
    simp only [hheader, httl, hoctet]
    rfl

theorem arrives_ip6 (host : ByteOrder) {g : Datagram} (h : g.Whole .inet6) (recv : VrrpRecv) :
    ∃ r, pktReceive host .inet6 (some g) recv [] = .ok r ∧ Arrives .inet6 g r := by
  obtain ⟨octets, saddr6, hoplimit, pktinfo⟩ := g
  obtain ⟨hl, hhop, hinfo⟩ := h rfl
  obtain ⟨ttl, rfl⟩ := Option.ne_none_iff_exists'.mp hhop
  obtain ⟨daddr6, rfl⟩ := Option.ne_none_iff_exists'.mp hinfo
  obtain ⟨r, hr, hlen, hbuf, hpos, hheader, hs, ht⟩ := pktReceive_ip6 host octets saddr6 ttl daddr6 recv
  have htake : octets.take IP_MAXPACKET = octets := List.take_of_length_le hl
  rw [htake] at hlen hbuf hheader
  refine ⟨r, hr, hlen, ?_, ?_, hs, ht, ?_⟩
  · have hroom : IP6HDR_SIZE + octets.length < 65536 + 40 := by
      have hle : octets.length ≤ IP_MAXPACKET := hl
      simp only [IP_MAXPACKET, IP6HDR_SIZE] at *
      omega
    rw [hheader, payloadSize_eq (Nat.le_add_right _ _) hroom, Nat.add_sub_cancel_left]
    rfl
  · rw [hbuf, hpos, List.drop_zero, Datagram.payload]
  · simp [hheader, Datagram.Direct]

theorem arrives (host : ByteOrder) {family : Family} {g : Datagram} (hk : FromKernel family g.octets)
    (hw : g.Whole family) (recv : VrrpRecv) :
    ∃ r, pktReceive host family (some g) recv [] = .ok r ∧ Arrives family g r := by
  cases family with
  | inet => exact arrives_ip4 host hk recv
  | inet6 => exact arrives_ip6 host hw recv

/-- Neither the helper nor the window for the size lets anything less pass. -/
theorem LengthsPass.whole {host : ByteOrder} {vnet : VrrpNet} {g : Datagram} {stack : Octets}
    (h : LengthsPass host vnet (some g) stack) : g.Whole vnet.family := by
  intro hf
  obtain ⟨r, len, hr, hlen, -, hsize⟩ := h
  rw [hf] at hr
  obtain ⟨octets, saddr6, hoplimit, pktinfo⟩ := g
  obtain rfl := Except.ok.inj hr
  cases hoplimit with
  | none => simp [vrrpIp6Recv] at hlen
  | some ttl =>
    cases pktinfo with
    | none => simp [vrrpIp6Recv] at hlen
    | some daddr6 =>
      refine ⟨?_, by simp, by simp⟩
      simp only [vrrpIp6Recv, payloadSize, VRRP_PKT_MAXSIZE, VRRP_PKTHDR_SIZE, VIP_MAX, VRRP_AUTH_SIZE,
        List.length_take] at hsize
      rw [IP_MAXPACKET] at hsize ⊢
      simp only
      omega

section Whole
variable {host : ByteOrder} {c : Config} {d : Daemon} {g : Datagram} {r : Received}

private theorem Arrives.checkHeader_iff (ha : Arrives d.vnet.family g r) {vrrp : Vrrp} {hdr : Vrrphdr} :
    checkHeader vrrp r.recv.header hdr = none ↔
      g.Direct d.vnet.family ∧ hdr.versionType >>> 4 = vrrp.version.code ∧ hdr.vrid = vrrp.vrid := by
  rw [← ha.direct]
  constructor
  · intro h
    obtain ⟨hp, hv, ht, hi⟩ := checkHeader_none h
    exact ⟨⟨hp, ht⟩, hv, hi⟩
  · rintro ⟨⟨hp, ht⟩, hv, hi⟩
    exact checkHeader_eq_none hp hv ht hi

private theorem payload_le (family : Family) (g : Datagram) : (g.payload family).length ≤ g.octets.length := by
  cases family with
  | inet =>
    rw [Datagram.payload, List.length_drop]
    exact Nat.sub_le _ _
  | inet6 => exact le_rfl

/-- The tests of the length, for a datagram with room for an advertisement of the
local size. -/
private theorem Arrives.lengthsPass_iff (ha : Arrives d.vnet.family g r)
    (hr : pktReceive host d.vnet.family (some g) d.vnet.pkt [] = .ok r) (hready : Ready d.vnet d.vrrp)
    (hroom : advGetsize d.vnet ≤ (g.payload d.vnet.family).length) :
    LengthsPass host d.vnet (some g) [] ↔
      (g.octets.length : Int) ≤ d.vnet.vif.mtu ∧ (g.payload d.vnet.family).length ≤ VRRP_PKT_MAXSIZE := by
  have hle := payload_le d.vnet.family g
  have hmin := (advGetsize_window d.vnet hready.pos).1
  constructor
  · rintro ⟨r', len, hr', hlen, hfit, hsize⟩
    obtain rfl := Except.ok.inj (hr'.symm.trans hr)
    rw [ha.size] at hsize
    obtain rfl := Option.some.inj (hlen.symm.trans ha.len)
    omega
  · rintro ⟨hmtu, hmax⟩
    refine ⟨r, _, hr, ha.len, by omega, ?_⟩
    rw [ha.size]
    omega

/-- What is accepted on its own has the local size. -/
private theorem Arrives.room (ha : Arrives d.vnet.family g r)
    (hr : pktReceive host d.vnet.family (some g) d.vnet.pkt [] = .ok r) (hready : Ready d.vnet d.vrrp)
    {vnet : VrrpNet} (h : vrrpNetRecv host d.vnet d.vrrp (some g) [] = .ok (.pkt, vnet))
    (hpass : LengthsPass host d.vnet (some g) []) : advGetsize d.vnet ≤ (g.payload d.vnet.family).length := by
  obtain ⟨r', len, hr', hlen, hfit, hsize⟩ := hpass
  obtain rfl := Except.ok.inj (hr'.symm.trans hr)
  obtain rfl := Option.some.inj (hlen.symm.trans ha.len)
  cases hf : d.vnet.family with
  | inet6 =>
    rw [Datagram.payload]
    omega
  | inet =>
    rw [← hf]
    by_contra hshort
    obtain ⟨hdr, rest, hpkt⟩ : ∃ (hdr : Vrrphdr) (rest : Octets),
        g.payload d.vnet.family = hdr.octets ++ rest := by
      apply exists_hdr
      rw [← ha.size]
      simp only [VRRP_PKT_MINSIZE, VRRP_PKTHDR_SIZE] at hsize
      omega
    have hshort' : 8 + rest.length < advGetsize d.vnet := by
      have hl := congrArg List.length hpkt
      rw [List.length_append, Vrrphdr.octets_length] at hl
      omega
    have hcheck := vrrpNetRecv_checked d.vrrp hr' hlen hfit hsize
    rw [ha.payload, hpkt] at hcheck
    have hown : OwnHeader (vrrpNetInvalidateBuffer { d.vnet with pkt := r'.recv }) := hready.own
    -- Either the header is refused, or the sum goes beyond the end.
    cases hheader : checkHeader d.vrrp r'.recv.header hdr with
    | none =>
      rw [checkPacket_short host hown hf hheader hshort', h] at hcheck
      cases hcheck
    | some event =>
      have heq := checkPacket_eq host (vrrpNetInvalidateBuffer { d.vnet with pkt := r'.recv }) d.vrrp hdr rest
      rw [show checkHeader d.vrrp (vrrpNetInvalidateBuffer { d.vnet with pkt := r'.recv }).pkt.header hdr =
        some event from hheader] at heq
      rw [heq, h] at hcheck
      rcases checkHeader_some hheader with rfl | rfl <;> cases hcheck

/-- What the checks find in a datagram of acceptable length. -/
private theorem Arrives.judged (ha : Arrives d.vnet.family g r)
    (hr : pktReceive host d.vnet.family (some g) d.vnet.pkt [] = .ok r) (hready : Ready d.vnet d.vrrp)
    (hc : Configured c d) (hpass : LengthsPass host d.vnet (some g) [])
    (hroom : c.advSize ≤ (g.payload c.family).length) {hdr : Vrrphdr} {addrs : List Octets} {tail : Octets}
    (hpkt : g.payload c.family = hdr.octets ++ (addrs.flatten ++ tail))
    (hcount : addrs.length = c.vips.length) (hsizes : ∀ addr ∈ addrs, addr.length = c.family.addrSize) :
    (∃ vnet, vrrpNetRecv host d.vnet d.vrrp (some g) [] = .ok (.pkt, vnet)) ↔
      d.vrrp.priority ≠ PRIO_OWNER ∧ Admissible c g hdr addrs tail := by
  obtain ⟨hmtu, hwindow⟩ := (ha.lengthsPass_iff hr hready (by rwa [hc.getsize, hc.family])).mp hpass
  rw [hc.vif] at hmtu
  rw [hc.family] at hwindow
  obtain ⟨r', len, hr', hlen, hfit, hsize⟩ := hpass
  obtain rfl := Except.ok.inj (hr'.symm.trans hr)
  have hrest : c.advSize ≤ 8 + (addrs.flatten ++ tail).length := by
    rwa [hpkt, List.length_append, Vrrphdr.octets_length] at hroom
  have hres := hready.own.resolves_taken r'.recv.sIpx r'.recv.dIpx
  rw [ha.source, ha.dest, hc.vif, hc.family] at hres
  have hverify (hv : hdr.versionType >>> 4 = c.version.code) :=
    verifies_iff host hdr (addrs.flatten ++ tail) hv hres (by rwa [hc.getsize])
  rw [hc.getsize, hc.family] at hverify
  have hbuf := ha.payload
  rw [hc.family, hpkt] at hbuf
  rw [vrrpNetRecv_pkt_iff hready hr' hlen hfit hsize hbuf (by rwa [hc.getsize]), ha.checkHeader_iff,
    hc.family, hc.version, hc.vrid, checkContent_iff hc hcount hsizes hrest]
  constructor
  · rintro ⟨⟨hdirect, hnibble, hvrid⟩, hsum, howner, hauth, hvips, hadv⟩
    exact ⟨howner, hpkt, hcount, hsizes, hmtu, hroom, hwindow, hdirect, hnibble, hvrid,
      (hverify hnibble).mp hsum, hauth, hvips, hadv⟩
  · rintro ⟨howner, h⟩
    exact ⟨⟨h.direct, h.nibble, h.vrid⟩, (hverify h.nibble).mpr h.checksum, howner, h.auth, h.vips, h.advInt⟩

/-- A payload of the local size has a header and as many addresses. -/
private theorem exists_format (c : Config) {payload : Octets} (h : c.advSize ≤ payload.length) :
    ∃ (hdr : Vrrphdr) (addrs : List Octets) (tail : Octets), payload = hdr.octets ++ (addrs.flatten ++ tail) ∧
      addrs.length = c.vips.length ∧ ∀ addr ∈ addrs, addr.length = c.family.addrSize := by
  have hsize : 8 + c.vips.length * c.family.addrSize ≤ c.advSize := by
    rw [Config.advSize]
    cases c.family <;> simp only [Family.addrSize, VRRP_PKTHDR_SIZE] <;> omega
  obtain ⟨hdr, rest, rfl⟩ := exists_hdr (show 8 ≤ payload.length by omega)
  rw [List.length_append, Vrrphdr.octets_length] at h
  obtain ⟨addrs, tail, rfl, hcount, hsizes⟩ :=
    exists_pieces c.vips.length c.family.addrSize (show _ ≤ rest.length by omega)
  exact ⟨hdr, addrs, tail, rfl, hcount, hsizes⟩

theorem Admissible.whole {hdr : Vrrphdr} {addrs : List Octets} {tail : Octets}
    (h : Admissible c g hdr addrs tail) : g.Whole c.family := by
  intro hf
  have hwindow := h.window
  have hdirect := h.direct
  rw [hf] at hwindow hdirect
  refine ⟨?_, by simp [hdirect.1], hdirect.2⟩
  have hmax : VRRP_PKT_MAXSIZE ≤ IP_MAXPACKET := by decide
  exact hwindow.trans hmax

/-- On its own, a datagram is accepted when it is admissible. -/
private theorem accepts_own (hc : Configured c d) (hready : Ready d.vnet d.vrrp) (hk : FromKernel c.family g.octets) :
    (∃ vnet, vrrpNetRecv host d.vnet d.vrrp (some g) [] = .ok (.pkt, vnet)) ↔
      d.vrrp.priority ≠ PRIO_OWNER ∧ ∃ hdr addrs tail, Admissible c g hdr addrs tail := by
  rw [← hc.family] at hk
  constructor
  · rintro ⟨vnet, h⟩
    obtain ⟨r, -, hr, -⟩ := vrrpNetRecv_pkt h
    have hpass : LengthsPass host d.vnet (some g) [] := by
      by_contra hfail
      obtain ⟨vnet', hinvalid⟩ := vrrpNetRecv_lengths d.vrrp hr hfail
      rw [hinvalid] at h
      cases h
    obtain ⟨r, hr, ha⟩ := arrives host hk hpass.whole d.vnet.pkt
    have hroom := ha.room hr hready h hpass
    rw [hc.getsize, hc.family] at hroom
    obtain ⟨hdr, addrs, tail, hpkt, hcount, hsizes⟩ := exists_format c hroom
    obtain ⟨howner, hadm⟩ := (ha.judged hr hready hc hpass hroom hpkt hcount hsizes).mp ⟨vnet, h⟩
    exact ⟨howner, hdr, addrs, tail, hadm⟩
  · rintro ⟨howner, hdr, addrs, tail, h⟩
    obtain ⟨r, hr, ha⟩ := arrives host hk (by rw [hc.family]; exact h.whole) d.vnet.pkt
    have hpass : LengthsPass host d.vnet (some g) [] := by
      apply (ha.lengthsPass_iff hr hready (by rw [hc.getsize, hc.family]; exact h.room)).mpr
      rw [hc.vif, hc.family]
      exact ⟨h.mtu, h.window⟩
    exact (ha.judged hr hready hc hpass h.room h.payload h.count h.sizes).mpr ⟨howner, h⟩

end Whole

/-- What stands behind a datagram in the buffer has no influence on its verdict,
unless it is one of those that are read beyond their end. -/
private theorem verdict_own {host : ByteOrder} {d : Daemon} {g : Datagram} (hready : Ready d.vnet d.vrrp)
    (hk : FromKernel d.vnet.family g.octets) (hno : ¬ Overreads d g.octets) (stack : Octets) (event : VrrpEvent) :
    (∃ vnet, vrrpNetRecv host d.vnet d.vrrp (some g) stack = .ok (event, vnet)) ↔
      ∃ vnet, vrrpNetRecv host d.vnet d.vrrp (some g) [] = .ok (event, vnet) := by
  have hstays : StaysWithin host d g := by
    cases hf : d.vnet.family with
    | inet =>
      rw [hf] at hk
      exact (staysWithin_ip4 host hready hf hk).mpr hno
    | inet6 => exact staysWithin_ip6 host hready hf g
  obtain ⟨⟨own, vnet⟩, hr⟩ := hstays
  have hstack := vrrpNetRecv_extend hr stack
  rw [List.nil_append] at hstack
  rw [hr, hstack]

/-- A running router takes a datagram for an advertisement exactly when it is one in
the sense of its configuration, and the router does not own the addresses. -/
theorem accepts_iff {host : ByteOrder} {c : Config} {fresh : Fresh} {h : List (Entry Daemon Input Output)}
    {d : Daemon} (run : History host c fresh h d) {g : Datagram} (hk : FromKernel c.family g.octets)
    (hno : ¬ Overreads d g.octets) (stack : List.Vector UInt8 IP_MAXPACKET) :
    (∃ vnet, vrrpNetRecv host d.vnet d.vrrp (some g) stack.toList = .ok (.pkt, vnet)) ↔
      d.vrrp.priority ≠ PRIO_OWNER ∧ ∃ hdr addrs tail, Admissible c g hdr addrs tail := by
  have hc := run.configured
  rw [verdict_own run.ready (by rwa [hc.family]) hno, accepts_own hc run.ready hk]

theorem accepts_grown :
    ¬ Overreads waiting grown.octets ∧ FromKernel .inet grown.octets ∧
    ∃ hdr addrs tail, Admissible lab grown hdr addrs tail := by
  have run : History .little lab (.filled 0) _ waiting := history_runOn (.inl rfl) [.quiet ⟨1, 0⟩]
  have hno : ¬ Overreads waiting grown.octets := by decide +kernel
  have hk : FromKernel lab.family grown.octets := by decide
  have hrecv := vrrpNetRecv_replicate (n := 40) 0 (show 40 ≤ IP_MAXPACKET by decide)
    (show (vrrpNetRecv .little waiting.vnet waiting.vrrp (some grown) (List.replicate 40 0)).map Prod.fst =
      .ok .pkt by decide +kernel)
  exact ⟨hno, hk, ((accepts_iff run hk hno (List.Vector.replicate IP_MAXPACKET 0)).mp hrecv).2⟩

end Uvrrpd
