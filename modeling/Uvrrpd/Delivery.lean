import Uvrrpd.Bounds

/-! From the frame that one router hands to the socket to the octets and addresses
that another finds in its receive buffer. -/
namespace Uvrrpd
open Library.Memory (bind_eq_ok)

/-- What the kernel makes of a frame that reaches it unmodified: IPv4 header and
payload; or the IPv6 payload with source, destination and hop limit. -/
def Delivers (family : Family) (frame : Frame) (datagram : Datagram) : Prop :=
  ∃ ip data, frame.ip = some ip ∧ frame.data = some data ∧
    match family with
    | .inet => datagram.octets = ip ++ data
    | .inet6 => datagram.octets = data ∧ datagram.saddr6.toList = (ip.drop 8).take 16 ∧
        (∃ daddr6 : In6Addr, datagram.pktinfo = some daddr6 ∧ daddr6.toList = (ip.drop 24).take 16) ∧
        datagram.hoplimit = some ((ip.getD 7 0).toNat : Int)

def frameLength (frame : Frame) : Nat := (frame.ip.getD []).length + (frame.data.getD []).length

/-- An own IPv4 header read back. -/
private theorem ip4Header_fields {len : Nat} {check saddr data : Octets} (hc : check.length = 2)
    (hs : saddr.length = 4) (hl : len = IPHDR_SIZE + data.length) (hlt : len < 65536) :
    FromKernel .inet (ip4Header len check saddr ++ data) ∧
    headerLength (ip4Header len check saddr ++ data) = IPHDR_SIZE ∧
    (ip4Header len check saddr ++ data).getD 9 0 = IPPROTO_VRRP ∧
    (ip4Header len check saddr ++ data).getD 8 0 = 255 ∧
    (ip4Header len check saddr ++ data).length = len ∧
    (ip4Header len check saddr ++ data).drop IPHDR_SIZE = data ∧
    ((ip4Header len check saddr ++ data).drop 12).take 4 = saddr ∧
    ((ip4Header len check saddr ++ data).drop 16).take 4 = INADDR_VRRP_GROUP := by
  match check, hc, saddr, hs with
  | [c₀, c₁], _, [p, q, r, s], _ =>
    have hlen : (ip4Header len [c₀, c₁] [p, q, r, s] ++ data).length = len := by
      simp only [ip4Header, INADDR_VRRP_GROUP, List.length_append, net16, octets16_length,
        List.length_cons, List.length_nil]
      rw [hl, IPHDR_SIZE]
    have hword : word .big (UInt8.ofNat (len / 256)) (UInt8.ofNat len) = len := by
      simp only [word, UInt8.toNat_ofNat']
      omega
    have hihl : headerLength (ip4Header len [c₀, c₁] [p, q, r, s] ++ data) = IPHDR_SIZE := by
      have h₀ : (ip4Header len [c₀, c₁] [p, q, r, s] ++ data).getD 0 0 = 0x45 := rfl
      rw [headerLength, h₀]
      decide
    refine ⟨⟨?_, hihl.ge, ?_⟩, hihl, rfl, rfl, hlen, rfl, rfl, rfl⟩
    · rw [hlen]
      exact hword.symm
    · rw [hlen, hihl, hl]
      exact Nat.le_add_right _ _

theorem ip6Header_fields (len : Nat) {saddr : Octets} (hs : saddr.length = 16) :
    (ip6Header len saddr).length = IP6HDR_SIZE ∧ (ip6Header len saddr).getD 7 0 = 255 ∧
    ((ip6Header len saddr).drop 8).take 16 = saddr ∧
    ((ip6Header len saddr).drop 24).take 16 = IN6ADDR_VRRP_GROUP := by
  have hd : (ip6Header len saddr).drop 8 = saddr ++ IN6ADDR_VRRP_GROUP := rfl
  refine ⟨?_, rfl, ?_, ?_⟩
  · have hl := congrArg List.length (List.take_append_drop 8 (ip6Header len saddr))
    rw [hd, List.length_append, List.length_append, hs] at hl
    exact hl.symm
  · rw [hd, List.take_left' hs]
  · rw [show 24 = 8 + 16 from rfl, ← List.drop_drop, hd, List.drop_left' hs]
    rfl

structure Arrival (contents : Nat → UInt8) (d : Daemon) (prio : UInt8) (frame : Frame) (r : Received) :
    Prop where
  len : ∃ n, r.len = some n ∧ advGetsize d.vnet ≤ n ∧ n ≤ frameLength frame
  whole : d.vnet.family = .inet → r.len = some (frameLength frame)
  pos : r.payloadPos ≤ r.buf.length
  payload : r.buf.drop r.payloadPos =
    advPayload d.vnet { d.vrrp with priority := prio } (authTail contents d.vnet d.vrrp)
  size : payloadSize r.recv.header = advGetsize d.vnet
  proto : r.recv.header.proto = IPPROTO_VRRP.toNat
  ttl : r.recv.header.ttl = VRRP_TTL
  source : r.recv.sIpx.octets d.vnet.family = d.vnet.vif.ipx.octets d.vnet.family
  dest : r.recv.dIpx.octets d.vnet.family = vrrpGroup d.vnet.family

namespace Coherent.Announces
variable {contents : Nat → UInt8} {d : Daemon} {prio : UInt8} {frame : Frame} {datagram : Datagram}

private theorem arrives_ip4 (ha : Announces contents d prio frame) (hc : Coherent contents d)
    (hf : d.vnet.family = .inet) (hdel : Delivers .inet frame datagram) (host : ByteOrder)
    (recv : VrrpRecv) :
    ∃ r, pktReceive host .inet (some datagram) recv [] = .ok r ∧ Arrival contents d prio frame r := by
  obtain ⟨ip, data, hip, hdata, hoct⟩ := hdel
  have hown := hc.prepared.own
  rw [OwnHeader, hf] at hown
  obtain ⟨check, hcl, hip'⟩ := hown
  obtain rfl := Option.some.inj ((hip.symm.trans (congrArg Frame.ip ha)).trans hip')
  obtain rfl := Option.some.inj (hdata.symm.trans (congrArg Frame.data ha))
  have hpl := advPayload_length hc.fills { d.vrrp with priority := prio }
  have hlt := advGetsize_lt d.vnet
  obtain ⟨hk, hihl, hproto, httl, hlen, hdrop, hsrc, hdst⟩ :=
    ip4Header_fields hcl d.vnet.vif.ipx.addr.toList_length
      (show IPHDR_SIZE + advGetsize d.vnet = IPHDR_SIZE + (advPayload d.vnet
        { d.vrrp with priority := prio } (authTail contents d.vnet d.vrrp)).length by rw [hpl])
      (by simp only [IPHDR_SIZE]; omega)
  rw [← hoct] at hk hihl hproto httl hlen hdrop hsrc hdst
  obtain ⟨r, hr, hrlen, hbuf, hpos, hheader, hs, hd⟩ := pktReceive_ip4 host hk recv
  have hframe : frameLength frame = datagram.octets.length := by
    rw [frameLength, hip, hdata, hoct, List.length_append]
    rfl
  refine ⟨r, hr, ⟨_, hrlen, by rw [hlen]; exact Nat.le_add_left _ _, hframe.ge⟩,
    fun _ => by rw [hframe]; exact hrlen, ?_, ?_, ?_, ?_, ?_, ?_, ?_⟩
  · rw [hpos, hbuf]
    exact hk.2.2
  · rw [hbuf, hpos, hihl, hdrop]
  · rw [hheader, hihl, hlen]
    simp only [payloadSize, IPHDR_SIZE]
    omega
  · rw [hheader, hproto]
  · rw [hheader, httl]
    rfl
  · rw [hf, hs, hsrc]
    rfl
  · rw [hf, hd, hdst]
    rfl

private theorem arrives_ip6 (ha : Announces contents d prio frame) (hc : Coherent contents d)
    (hf : d.vnet.family = .inet6) (hdel : Delivers .inet6 frame datagram) (host : ByteOrder)
    (recv : VrrpRecv) :
    ∃ r, pktReceive host .inet6 (some datagram) recv [] = .ok r ∧ Arrival contents d prio frame r := by
  obtain ⟨ip, data, hip, hdata, hoct, hsrc, ⟨daddr6, hinfo, hdst⟩, hhop⟩ := hdel
  have hown := hc.prepared.own
  rw [OwnHeader, hf] at hown
  obtain rfl := Option.some.inj ((hip.symm.trans (congrArg Frame.ip ha)).trans hown)
  have hdat := Option.some.inj (hdata.symm.trans (congrArg Frame.data ha))
  have hpl : data.length = advGetsize d.vnet := by
    rw [hdat]
    exact advPayload_length hc.fills _
  have hlt := advGetsize_lt d.vnet
  obtain ⟨hhl, httl, hs₀, hd₀⟩ :=
    ip6Header_fields (advGetsize d.vnet) d.vnet.vif.ipx.addr6.toList_length
  obtain ⟨octets, saddr6, hoplimit, pktinfo⟩ := datagram
  simp only at hoct hsrc hinfo hhop
  rw [hoct, hinfo, hhop]
  have htake : data.take IP_MAXPACKET = data :=
    List.take_of_length_le (by rw [hpl]; simp only [IP_MAXPACKET]; omega)
  obtain ⟨r, hr, hrlen, hbuf, hpos, hheader, hs, hd⟩ :=
    pktReceive_ip6 host data saddr6
      (((ip6Header (advGetsize d.vnet) d.vnet.vif.ipx.addr6.toList).getD 7 0).toNat : Int) daddr6 recv
  rw [htake, hpl] at hrlen hheader
  rw [htake] at hbuf
  have hframe : frameLength frame = IP6HDR_SIZE + advGetsize d.vnet := by
    rw [frameLength, hip, hdata, ← hpl, ← hhl]
    rfl
  refine ⟨r, hr, ⟨_, hrlen, le_rfl, by rw [hframe]; exact Nat.le_add_left _ _⟩,
    fun h => absurd (hf.symm.trans h) (by decide), ?_, ?_, ?_, ?_, ?_, ?_, ?_⟩
  · rw [hpos]
    exact Nat.zero_le _
  · rw [hbuf, hpos, List.drop_zero, hdat]
  · rw [hheader]
    simp only [payloadSize, IP6HDR_SIZE]
    omega
  · rw [hheader]
  · rw [hheader, httl]
    rfl
  · rw [hf, hs, hsrc, hs₀]
    rfl
  · rw [hf, hd, hdst, hd₀]
    rfl

/-- Either socket delivers payload, addresses and length as the sender has them. -/
theorem arrives (ha : Announces contents d prio frame) (hc : Coherent contents d)
    (hdel : Delivers d.vnet.family frame datagram) (host : ByteOrder) (recv : VrrpRecv) :
    ∃ r, pktReceive host d.vnet.family (some datagram) recv [] = .ok r ∧
      Arrival contents d prio frame r := by
  cases hf : d.vnet.family with
  | inet =>
    rw [hf] at hdel
    exact ha.arrives_ip4 hc hf hdel host recv
  | inet6 =>
    rw [hf] at hdel
    exact ha.arrives_ip6 hc hf hdel host recv

/-- Acceptance of a frame: the header kept is the one sent, and the contents that have
passed are those of the frame. -/
theorem accepted (ha : Announces contents d prio frame) (hc : Coherent contents d)
    (hdel : Delivers d.vnet.family frame datagram) {host : ByteOrder} {vnet vnet' : VrrpNet} {vrrp : Vrrp}
    {stack : Octets} (hf : vnet.family = d.vnet.family)
    (h : vrrpNetRecv host vnet vrrp (some datagram) stack = .ok (.pkt, vnet')) :
    ∃ r sum more, Arrival contents d prio frame r ∧
      pktReceive host vnet.family (some datagram) vnet.pkt stack = .ok { r with buf := r.buf ++ more } ∧
      vnet'.pkt.sIpx = r.recv.sIpx ∧
      vnet'.pkt.adv = (advHdr d.vnet { d.vrrp with priority := prio }).withChksum sum ∧
      checkContent vnet vrrp vnet'.pkt.adv (vnet'.pkt.adv.octets ++
        (vipOctets d.vnet.family d.vnet.vipList.reverse ++ (authTail contents d.vnet d.vrrp ++ more))) =
        .ok true := by
  obtain ⟨r, hr, arrival⟩ := ha.arrives hc hdel host vnet.pkt
  obtain ⟨more, hmore⟩ := pktReceive_extend hr stack
  rw [List.nil_append, ← hf] at hmore
  obtain ⟨r', rest, hr', hsrc, hbuf, hcontent⟩ := vrrpNetRecv_pkt h
  obtain rfl := Except.ok.inj (hmore.symm.trans hr')
  obtain ⟨sum, hpay⟩ : ∃ sum, advPayload d.vnet { d.vrrp with priority := prio }
      (authTail contents d.vnet d.vrrp) = ((advHdr d.vnet { d.vrrp with priority := prio }).withChksum
        sum).octets ++ (vipOctets d.vnet.family d.vnet.vipList.reverse ++ authTail contents d.vnet d.vrrp) :=
    ⟨_, rfl⟩
  have hdrop : (r.buf ++ more).drop r.payloadPos =
      ((advHdr d.vnet { d.vrrp with priority := prio }).withChksum sum).octets ++
        (vipOctets d.vnet.family d.vnet.vipList.reverse ++ (authTail contents d.vnet d.vrrp ++ more)) := by
    rw [List.drop_append_of_le_length arrival.pos, arrival.payload, hpay]
    simp only [List.append_assoc]
  have hhdr : vnet'.pkt.adv = (advHdr d.vnet { d.vrrp with priority := prio }).withChksum sum := by
    have hload := (congrArg (loadHdr · 0) hbuf).symm.trans (congrArg (loadHdr · 0) hdrop)
    simp only [loadHdr_octets] at hload
    exact Except.ok.inj hload
  refine ⟨r, sum, more, arrival, hmore, hsrc, hhdr, ?_⟩
  simp only at hcontent
  rwa [hdrop, ← hhdr] at hcontent

/-- What an accepted frame leaves in the record of the last datagram. -/
theorem received (ha : Announces contents d prio frame) (hc : Coherent contents d)
    (hdel : Delivers d.vnet.family frame datagram) {host : ByteOrder} {vnet vnet' : VrrpNet} {vrrp : Vrrp}
    {stack : Octets} (hf : vnet.family = d.vnet.family)
    (h : vrrpNetRecv host vnet vrrp (some datagram) stack = .ok (.pkt, vnet')) :
    vrrpAdvGetPriority vnet' = prio ∧
      vnet'.pkt.sIpx.octets d.vnet.family = d.vnet.vif.ipx.octets d.vnet.family := by
  obtain ⟨r, sum, more, arrival, -, hsrc, hhdr, -⟩ := ha.accepted hc hdel hf h
  exact ⟨congrArg Vrrphdr.priority hhdr, by rw [hsrc]; exact arrival.source⟩

end Coherent.Announces

end Uvrrpd
