import Uvrrpd.Delivery
import Uvrrpd.Interval
import Uvrrpd.VipLists

/-! What one router builds, another that shares its configuration accepts, and it
reads from the header what the sender has put there. -/
namespace Uvrrpd
open Library.Runs

/-- Two configurations of one virtual router; the addresses may be listed in any order. -/
structure Shares (c c' : Config) : Prop where
  version : c'.version = c.version
  vrid : c'.vrid = c.vrid
  family : c'.family = c.family
  advInt : c'.advInt = c.advInt
  password : c'.password = c.password
  vips : (c'.vips.map (fun vip => vip.ipx.octets c.family)).Perm
    (c.vips.map (fun vip => vip.ipx.octets c.family))

structure Agrees (d d' : Daemon) : Prop where
  version : d'.vrrp.version = d.vrrp.version
  vrid : d'.vrrp.vrid = d.vnet.vrid
  family : d'.vnet.family = d.vnet.family
  naddr : d'.vrrp.naddr = d.vrrp.naddr
  netNaddr : d'.vnet.naddr = d.vnet.naddr
  advInt : d'.vrrp.advInt = d.vrrp.advInt
  authType : d'.vrrp.authType = d.vrrp.authType
  authData : d'.vrrp.authData = d.vrrp.authData
  vips : ∀ vip ∈ d.vnet.vipList, searchVip d.vnet.family d'.vnet.vipList (vip.ipx.octets d.vnet.family) = true

theorem Shares.agrees {c c' : Config} {d d' : Daemon} (h : Shares c c') (hd : Configured c d)
    (hd' : Configured c' d') : Agrees d d' := by
  have hlen : c'.vips.length = c.vips.length := by
    have hl := h.vips.length_eq
    rwa [List.length_map, List.length_map] at hl
  have hnaddr : c'.naddr = c.naddr := by rw [Config.naddr, Config.naddr, hlen]
  have hauth : c'.authType = c.authType := by rw [Config.authType, Config.authType, h.password]
  refine ⟨?_, ?_, ?_, ?_, ?_, ?_, ?_, ?_, ?_⟩
  · rw [hd'.version, hd.version, h.version]
  · rw [hd'.vrid, hd.netVrid, h.vrid]
  · rw [hd'.family, hd.family, h.family]
  · rw [hd'.naddr, hd.naddr, hnaddr]
  · rw [hd'.netNaddr, hd.netNaddr, hnaddr]
  · rw [hd'.advInt, hd.advInt, h.advInt]
  · rw [hd'.authType, hd.authType, hauth]
  · rw [hd'.authData, hd.authData, h.password]
  · intro vip hvip
    rw [hd.vips] at hvip
    have hmem : vip.ipx.octets c.family ∈ c'.vips.map (fun vip => vip.ipx.octets c.family) :=
      h.vips.mem_iff.mpr (List.mem_map_of_mem hvip)
    obtain ⟨vip', hvip', heq⟩ := List.mem_map.mp hmem
    rw [hd.family, hd'.vips]
    rw [searchVip]
    rw [List.any_eq_true]
    exact ⟨vip', List.mem_reverse.mpr hvip', beq_iff_eq.mpr heq⟩

private theorem checkAuth_payload {d d' : Daemon} (h : Agrees d d') (front tail : Octets)
    (hdr : Vrrphdr) (hd : d.vrrp.authType = .simple → d.vrrp.authData ≠ none)
    (hf : d.vrrp.version = .rfc3768 → front.length = VRRP_PKTHDR_SIZE + d.vrrp.naddr.toNat * 4)
    (hauth : d.vrrp.version = .rfc3768 → hdr.authType = d.vrrp.authType.code) :
    checkAuth d'.vrrp hdr (front ++ (authField d.vrrp ++ tail)) = .ok true := by
  rw [checkAuth]
  rw [h.version, h.authType, h.authData, h.naddr]
  cases hv : d.vrrp.version with
  | rfc5798 => rfl
  | rfc3768 =>
    rw [if_neg (by decide), if_neg (not_not.mpr (hauth hv)), hauth hv]
    cases ht : d.vrrp.authType with
    | noauth => rfl
    | hmac => rfl
    | simple =>
      obtain ⟨password, hp⟩ := Option.ne_none_iff_exists'.mp (hd ht)
      have hfield : authField d.vrrp = password := by simp only [authField, hv, ht, hp]
      rw [if_pos rfl, hp, hfield]
      simp only [deref, ok_bind]
      rw [load_middle front password tail (hf hv).symm rfl, ok_bind]
      simp

private theorem checkVips_payload {d d' : Daemon} (h : Agrees d d') (hc : Prepared d.vnet d.vrrp)
    (hdr : Vrrphdr) (hn : hdr.naddr = d.vrrp.naddr) (back : Octets) :
    checkVips d'.vnet d'.vrrp hdr (hdr.octets ++ (vipOctets d.vnet.family d.vnet.vipList.reverse ++ back)) =
      .ok true := by
  have hcmp : vipCompare d'.vnet
      (hdr.octets ++ (vipOctets d.vnet.family d.vnet.vipList.reverse ++ back)) = .ok 0 := by
    rw [vipOctets, List.flatMap_def]
    apply (vipCompare_eq_zero ?_ ?_ hdr back).mpr
    · intro addr hm
      obtain ⟨vip, hvip, rfl⟩ := List.mem_map.mp hm
      have hfound := searchVip_iff.mp (h.vips vip (List.mem_reverse.mp hvip))
      rwa [VrrpNet.vips, h.family]
    · rw [List.length_map, List.length_reverse, hc.count, h.netNaddr, hc.naddr]
    · intro addr hm
      obtain ⟨vip, -, rfl⟩ := List.mem_map.mp hm
      rw [h.family]
      exact IpxAddr.octets_length _ _
  have hsame : vipsDiffer d'.vnet d'.vrrp hdr
      (hdr.octets ++ (vipOctets d.vnet.family d.vnet.vipList.reverse ++ back)) = .ok false := by
    rw [vipsDiffer, h.naddr, if_neg (not_not.mpr hn), hcmp]
    rfl
  rw [checkVips, hsame]
  rfl

def sentHdr (d : Daemon) (sum : Octets) : Vrrphdr := (advHdr d.vnet d.vrrp).withChksum sum

private theorem checkContent_payload {d d' : Daemon} (h : Agrees d d') (hc : Prepared d.vnet d.vrrp)
    (hpass : Passworded d.vrrp) (hinet : d.vrrp.version = .rfc3768 → d.vnet.family = .inet)
    (hint : d.vrrp.advInt.toNat ≤ 255) (howner : d'.vrrp.priority ≠ PRIO_OWNER) (sum more : Octets) :
    checkContent d'.vnet d'.vrrp (sentHdr d sum) ((sentHdr d sum).octets ++
      (vipOctets d.vnet.family d.vnet.vipList.reverse ++ (authField d.vrrp ++ more))) = .ok true := by
  have hvl := vipOctets_length d.vnet.family d.vnet.vipList.reverse
  rw [List.length_reverse, hc.count] at hvl
  have hauth := checkAuth_payload h ((sentHdr d sum).octets ++
      vipOctets d.vnet.family d.vnet.vipList.reverse) more (sentHdr d sum) hpass.known
    (by
      intro hv
      rw [List.length_append, hvl, hinet hv]
      rfl)
    (by
      intro hv
      simp only [sentHdr, Vrrphdr.withChksum, advHdr, hv])
  rw [List.append_assoc] at hauth
  have hvips := checkVips_payload h hc (sentHdr d sum) rfl (authField d.vrrp ++ more)
  have hadv : checkAdvInt d'.vrrp (sentHdr d sum) = true :=
    (checkAdvInt_own d.vnet h.advInt.symm).mpr (by rw [h.advInt]; exact hint)
  simp only [checkContent, if_neg howner, hauth, hvips, hadv, ok_bind, pure_eq_ok]
  rfl

/-- The receiver puts the sender's pseudo-header before what it sums, when it has
received these addresses. -/
def SumsAlike (d d' : Daemon) (s t : IpxAddr) : Prop :=
  ∃ a b, Resolves d'.vnet (some s) (some t) a b ∧
    pseudo d.vnet.family d.vrrp.version a b (advGetsize d.vnet) = pseudo d.vnet.family d.vrrp.version
      (d.vnet.vif.ipx.octets d.vnet.family) (vrrpGroup d.vnet.family) (advGetsize d.vnet)

theorem SumsAlike.of_source {d d' : Daemon} {s t : IpxAddr} (hown : OwnHeader d'.vnet)
    (hf : d'.vnet.family = d.vnet.family) (hs : s.octets d.vnet.family = d.vnet.vif.ipx.octets d.vnet.family)
    (ht : t.octets d.vnet.family = vrrpGroup d.vnet.family)
    (hz : d.vnet.vif.ipx.octets d.vnet.family ≠ IpxAddr.zero.octets d.vnet.family) : SumsAlike d d' s t := by
  have hres := hown.received (s := s) (d := t) (by rw [hf, hs]; exact hz)
    (by rw [hf, ht]; exact vrrpGroup_ne_zero _)
  rw [hf, hs, ht] at hres
  exact ⟨_, _, hres, rfl⟩

/-- Version 2 over IPv4 sums no addresses. -/
theorem SumsAlike.of_version {d d' : Daemon} (hown : OwnHeader d'.vnet) (hv : d.vrrp.version = .rfc3768)
    (hf : d.vnet.family = .inet) (s t : IpxAddr) : SumsAlike d d' s t := by
  obtain ⟨a, b, hres⟩ := hown.resolves_any s t
  refine ⟨a, b, hres, ?_⟩
  rw [hv, hf]
  rfl

/-- The payload of one router passes the checks of another. -/
private theorem checkPacket_payload (host : ByteOrder) {d d' : Daemon} (h : Agrees d d')
    (hc : Prepared d.vnet d.vrrp) (hpass : Passworded d.vrrp)
    (hinet : d.vrrp.version = .rfc3768 → d.vnet.family = .inet) (hint : d.vrrp.advInt.toNat ≤ 255)
    (howner : d'.vrrp.priority ≠ PRIO_OWNER)
    (hproto : d'.vnet.pkt.header.proto = IPPROTO_VRRP.toNat) (httl : d'.vnet.pkt.header.ttl = VRRP_TTL)
    (halike : SumsAlike d d' d'.vnet.pkt.sIpx d'.vnet.pkt.dIpx) (more : Octets)
    (hfill : Fills d.vnet (authField d.vrrp ++ more)) :
    ∃ sum, checkPacket host d'.vnet d'.vrrp (advPayload d.vnet d.vrrp (authField d.vrrp ++ more)) =
      .ok (.pkt, some (sentHdr d sum)) := by
  have hg : advGetsize d'.vnet = advGetsize d.vnet := advGetsize_congr h.family h.netNaddr
  obtain ⟨a, b, hres, hsame⟩ := halike
  obtain ⟨value, pkt, hsum, hload⟩ := advPayload_sums host d.vrrp hfill h.family hg hres hsame
  obtain ⟨sum, hpay⟩ : ∃ sum, advPayload d.vnet d.vrrp (authField d.vrrp ++ more) =
      (sentHdr d sum).octets ++
        (vipOctets d.vnet.family d.vnet.vipList.reverse ++ (authField d.vrrp ++ more)) := ⟨_, rfl⟩
  rw [hpay] at hsum hload
  rw [load16_chksum] at hload
  have hheader : checkHeader d'.vrrp d'.vnet.pkt.header (sentHdr d sum) = none :=
    checkHeader_eq_none hproto (by rw [h.version]; exact advHdr_version d.vnet d.vrrp) httl h.vrid.symm
  have hcontent := checkContent_payload h hc hpass hinet hint howner sum more
  refine ⟨sum, ?_⟩
  rw [hpay, checkPacket_eq, hheader]
  simp only [hsum, ok_bind, Except.ok.inj hload, ne_eq, not_true, if_false, hcontent]
  rfl

structure Peers (d d' : Daemon) : Prop where
  agrees : Agrees d d'
  password : Passworded d.vrrp
  inet : d.vrrp.version = .rfc3768 → d.vnet.family = .inet
  advInt : d.vrrp.advInt.toNat ≤ 255
  size : advGetsize d.vnet ≤ VRRP_PKT_MAXSIZE
  source : d.vnet.vif.ipx.octets d.vnet.family ≠ IpxAddr.zero.octets d.vnet.family
  owner : d'.vrrp.priority ≠ PRIO_OWNER
  ready : Ready d'.vnet d'.vrrp

/-- The verdict is `PKT` whatever the buffer held, and the header kept is the one sent. -/
theorem Agrees.accept {host : ByteOrder} {d d' : Daemon} {contents : Nat → UInt8} (ha : Agrees d d')
    (hc : Coherent contents d) (hpass : Passworded d.vrrp)
    (hinet : d.vrrp.version = .rfc3768 → d.vnet.family = .inet) (hint : d.vrrp.advInt.toNat ≤ 255)
    (hmax : advGetsize d.vnet ≤ VRRP_PKT_MAXSIZE) (howner : d'.vrrp.priority ≠ PRIO_OWNER)
    (hready : Ready d'.vnet d'.vrrp)
    (halike : ∀ s t : IpxAddr, s.octets d.vnet.family = d.vnet.vif.ipx.octets d.vnet.family →
      t.octets d.vnet.family = vrrpGroup d.vnet.family → SumsAlike d d' s t)
    {datagram : Datagram} (hdel : Delivers d.vnet.family d.vnet.adv datagram)
    (hmtu : (frameLength d.vnet.adv : Int) ≤ d'.vnet.vif.mtu) (stack : Octets) :
    ∃ sum vnet, vrrpNetRecv host d'.vnet d'.vrrp (some datagram) stack = .ok (.pkt, vnet) ∧
      vnet.pkt.adv = sentHdr d sum := by
  obtain ⟨r, hr, arrival⟩ := hc.announces.arrives hc hdel host d'.vnet.pkt
  rw [← ha.family] at hr
  obtain ⟨len, hlen, hwhole, hframe⟩ := arrival.len
  have hg : advGetsize d'.vnet = advGetsize d.vnet := advGetsize_congr ha.family ha.netNaddr
  have hmin : VRRP_PKT_MINSIZE ≤ advGetsize d.vnet := by
    have hroom := (getsize_room hready.pos).1
    have hpos := hready.pos
    simp only [VRRP_PKT_MINSIZE, VRRP_PKTHDR_SIZE] at hroom ⊢
    omega
  have hsize := arrival.size
  have ha' : Agrees d { d' with vnet := vrrpNetInvalidateBuffer { d'.vnet with pkt := r.recv } } :=
    ⟨ha.version, ha.vrid, ha.family, ha.naddr, ha.netNaddr, ha.advInt, ha.authType, ha.authData, ha.vips⟩
  obtain ⟨sum, hcheck⟩ := checkPacket_payload host ha' hc.prepared hpass hinet hint howner
    arrival.proto arrival.ttl (halike _ _ arrival.source arrival.dest) _ hc.fills
  have hrecv : vrrpNetRecv host d'.vnet d'.vrrp (some datagram) [] =
      .ok (.pkt, { d'.vnet with pkt := { r.recv with adv := sentHdr d sum } }) := by
    rw [vrrpNetRecv_checked d'.vrrp hr hlen (by omega) (by omega), arrival.payload, authTail]
    simp only at hcheck
    rw [hcheck]
  exact ⟨sum, _, vrrpNetRecv_extend hrecv stack, rfl⟩

theorem Peers.accept {host : ByteOrder} {d d' : Daemon} {contents : Nat → UInt8} (h : Peers d d')
    (hc : Coherent contents d) {datagram : Datagram}
    (hdel : Delivers d.vnet.family d.vnet.adv datagram)
    (hmtu : (frameLength d.vnet.adv : Int) ≤ d'.vnet.vif.mtu) (stack : Octets) :
    ∃ sum vnet, vrrpNetRecv host d'.vnet d'.vrrp (some datagram) stack = .ok (.pkt, vnet) ∧
      vnet.pkt.adv = sentHdr d sum :=
  h.agrees.accept hc h.password h.inet h.advInt h.size h.owner h.ready
    (fun _ _ hs ht => .of_source h.ready.own h.agrees.family hs ht h.source) hdel hmtu stack

/-- Both versions give back the interval, at either byte order. -/
private theorem sentHdr_getAdvint (host : ByteOrder) {d : Daemon} (hint : d.vrrp.advInt.toNat ≤ 255)
    (sum : Octets) : UInt16.ofNat ((sentHdr d sum).getAdvint host) = d.vrrp.advInt := by
  have hlow : (sentHdr d sum).advInt.toNat = d.vrrp.advInt.toNat := by
    simp only [sentHdr, Vrrphdr.withChksum, advHdr, UInt8.toNat_ofNat']
    omega
  have hvalue : (sentHdr d sum).getAdvint host = d.vrrp.advInt.toNat := by
    have hver : (sentHdr d sum).versionType >>> 4 = d.vrrp.version.code := advHdr_version d.vnet d.vrrp
    rw [getAdvint_eq host hver]
    cases hv : d.vrrp.version with
    | rfc3768 => exact hlow
    | rfc5798 =>
      have hhigh : (sentHdr d sum).authType.toNat = 0 := by
        simp only [sentHdr, Vrrphdr.withChksum, advHdr, hv, UInt8.toNat_ofNat']
        omega
      rw [Vrrphdr.interval, hhigh, hlow, Nat.mul_zero, Nat.zero_add]
  rw [hvalue, UInt16.ofNat_toNat]

/-- Start-up builds a frame, and every router of the same virtual router accepts it,
whatever its stack holds, and reads the sender's priority and interval from it. The
same holds of the frame in every later state of the sender. -/
theorem peer_accepts_advertisement (host : ByteOrder) {c c' : Config} (hshare : Shares c c')
    (hv : c.family = .inet6 → c.version = .rfc5798) (hint : c.advInt.toNat ≤ 255) (fresh : Fresh)
    (heth : fresh.mem.eth ≠ none) (hip : fresh.mem.ip ≠ none) (hdata : fresh.mem.data ≠ none)
    (hsize : advGetsize (c.vnet fresh.adv) ≤ VRRP_PKT_MAXSIZE)
    (hsrc : c.vif.ipx.octets c.family ≠ IpxAddr.zero.octets c.family) :
    (∃ d, boot host c fresh = .ok (some d)) ∧
    ∀ h d, History host c fresh h d → ∀ host' fresh' h' d', History host' c' fresh' h' d' →
      d'.vrrp.priority ≠ PRIO_OWNER → ∀ datagram, Delivers c.family d.vnet.adv datagram →
      (frameLength d.vnet.adv : Int) ≤ c'.vif.mtu → ∀ stack : List.Vector UInt8 IP_MAXPACKET,
      ∃ vnet, vrrpNetRecv host' d'.vnet d'.vrrp (some datagram) stack.toList = .ok (.pkt, vnet) ∧
        vrrpAdvGetPriority vnet = d.vrrp.priority ∧ vrrpAdvGetAdvint host' vnet = c.advInt := by
  have hfits : c.AuthFits := by
    cases hf : c.family with
    | inet => exact .inl hf
    | inet6 => exact .inr (.inl (hv hf))
  refine ⟨boot_ok host c hfits fresh heth hip hdata, ?_⟩
  intro h d run host' fresh' h' d' run' howner datagram hdel hmtu stack
  obtain ⟨contents, -, hco⟩ := run.coherent
  have hcfg := run.configured
  have hpeers : Peers d d' := by
    refine ⟨hshare.agrees hcfg run'.configured, hcfg.passworded, ?_, ?_, ?_, ?_, howner, run'.ready⟩
    · intro hv₂
      rw [hcfg.version] at hv₂
      rw [hcfg.family]
      cases hf : c.family with
      | inet => rfl
      | inet6 =>
        rw [hv hf] at hv₂
        cases hv₂
    · rw [hcfg.advInt]
      exact hint
    · have hg : advGetsize d.vnet = advGetsize (c.vnet fresh.adv) :=
        advGetsize_congr hcfg.family hcfg.netNaddr
      rw [hg]
      exact hsize
    · rw [hcfg.family, hcfg.vif]
      exact hsrc
  obtain ⟨sum, vnet, hr, hadv⟩ := hpeers.accept hco (by rw [hcfg.family]; exact hdel)
    (by rw [run'.configured.vif]; exact hmtu) stack.toList
  refine ⟨vnet, hr, ?_, ?_⟩
  · rw [vrrpAdvGetPriority, hadv]
    rfl
  · rw [vrrpAdvGetAdvint, hadv, sentHdr_getAdvint host' hpeers.advInt sum, hcfg.advInt]

def wire : Datagram where
  octets := (rival.daemon.vnet.adv.ip.getD []) ++ (rival.daemon.vnet.adv.data.getD [])
  saddr6 := IpxAddr.zero.addr6
  hoplimit := none
  pktinfo := none

theorem wire_delivered : Delivers .inet rival.daemon.vnet.adv wire := by
  obtain ⟨ip, hip⟩ := Option.isSome_iff_exists.mp
    (show rival.daemon.vnet.adv.ip.isSome = true by decide +kernel)
  obtain ⟨data, hdata⟩ := Option.isSome_iff_exists.mp
    (show rival.daemon.vnet.adv.data.isSome = true by decide +kernel)
  refine ⟨ip, data, hip, hdata, ?_⟩
  rw [wire, hip, hdata]
  rfl

theorem peer_accepts_advertisement_rival :
    ∃ vnet, vrrpNetRecv .little waiting.vnet waiting.vrrp (some wire)
        (List.Vector.replicate IP_MAXPACKET 0).toList = .ok (.pkt, vnet) ∧
      vrrpAdvGetPriority vnet = 200 ∧ vrrpAdvGetAdvint .little vnet = 1 := by
  have hshare : Shares rival lab := ⟨rfl, rfl, rfl, rfl, rfl, .refl _⟩
  have hrun := (peer_accepts_advertisement .little hshare (by decide) (by decide) (.filled 0)
    (by simp [Fresh.filled]) (by simp [Fresh.filled]) (by simp [Fresh.filled]) (by decide) (by decide)).2 []
    rival.daemon ⟨rival.daemon, boot_daemon (.inl rfl), .nil⟩ .little (.filled 0) _ waiting
    (history_runOn (.inl rfl) [.quiet ⟨1, 0⟩]) (by decide +kernel) wire wire_delivered (by decide +kernel)
    (List.Vector.replicate IP_MAXPACKET 0)
  have hprio : rival.daemon.vrrp.priority = 200 := by decide +kernel
  rw [hprio] at hrun
  exact hrun

end Uvrrpd
