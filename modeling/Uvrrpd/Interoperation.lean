import Uvrrpd.Acceptance
import Uvrrpd.Passwords
import Uvrrpd.Resignation

/-! Which routers hear each other. Nothing in a packet names the virtual router but
what is compared here, so this is also how far virtual routers on one network are kept
apart. -/
namespace Uvrrpd
open Library.Runs

/-- The octets behind the addresses of a version 2 packet, built in memory with some
contents. -/
def Config.authOctets (c : Config) (contents : Nat → UInt8) : Octets :=
  c.password.getD [] ++ ((List.range c.advSize).map contents).drop
    (VRRP_PKTHDR_SIZE + c.vips.length * c.family.addrSize + (c.password.getD []).length)

/-- A router of the configuration `c'` makes sense of a packet of `c` that carries the
priority. Version 3 has neither passwords nor a check of the addresses, and only the
low octet of the interval is compared. -/
structure Understands (contents : Nat → UInt8) (c c' : Config) (prio : UInt8) : Prop where
  version : c'.version = c.version
  vrid : c'.vrid = c.vrid
  auth : c.version = .rfc3768 → c'.authType = c.authType ∧
    ∀ password ∈ c'.password, password <+: c.authOctets contents
  vips : c.version = .rfc3768 → prio = PRIO_OWNER ∨ ∀ vip ∈ c.vips,
    vip.ipx.octets c.family ∈ c'.vips.map (fun vip => vip.ipx.octets c.family)
  advInt : c.advInt.toNat % 256 = c'.advInt.toNat

section Sender
variable {c c' : Config} {d d' : Daemon} {contents : Nat → UInt8} {prio : UInt8}

theorem Configured.authTail (hc : Configured c d) (hv : c.version = .rfc3768) :
    authTail contents d.vnet d.vrrp = c.authOctets contents := by
  have hfield : authField d.vrrp = c.password.getD [] := by
    rw [authField, hc.version, hv, hc.authType, Config.authType, hc.authData]
    cases c.password <;> rfl
  rw [Uvrrpd.authTail, hfield, hc.getsize, hc.vips, hc.family, List.drop_drop, Config.authOctets]

def Configured.Header (c : Config) (prio : UInt8) (hdr : Vrrphdr) : Prop :=
  hdr.versionType >>> 4 = c.version.code ∧ hdr.vrid = c.vrid ∧ hdr.priority = prio ∧ hdr.naddr = c.naddr ∧
    (c.version = .rfc3768 → hdr.authType = c.authType.code) ∧ hdr.advInt.toNat = c.advInt.toNat % 256

theorem Configured.header (hc : Configured c d) (prio : UInt8) (sum : Octets) :
    Configured.Header c prio ((advHdr d.vnet { d.vrrp with priority := prio }).withChksum sum) := by
  refine ⟨?_, hc.netVrid, rfl, hc.naddr, ?_, ?_⟩
  · rw [← hc.version]
    exact advHdr_version d.vnet { d.vrrp with priority := prio }
  · intro hv
    simp only [advHdr, Vrrphdr.withChksum, hc.version, hv, hc.authType]
  · simp only [advHdr, Vrrphdr.withChksum, hc.advInt, UInt8.toNat_ofNat']

def Config.addrs (c : Config) : List Octets := c.vips.reverse.map (fun vip => vip.ipx.octets c.family)

theorem Configured.vipOctets (hc : Configured c d) :
    vipOctets d.vnet.family d.vnet.vipList.reverse = c.addrs.flatten := by
  rw [Uvrrpd.vipOctets, hc.family, hc.vips, List.flatMap_def, Config.addrs]

private theorem Config.addrs_length (c : Config) : c.addrs.length = c.vips.length := by
  rw [Config.addrs, List.length_map, List.length_reverse]

private theorem Config.addrs_size (c : Config) : ∀ addr ∈ c.addrs, addr.length = c.family.addrSize := by
  intro addr haddr
  obtain ⟨vip, -, rfl⟩ := List.mem_map.mp haddr
  exact IpxAddr.octets_length _ _

/-- The checks on header and contents, for a packet with as many addresses. -/
private theorem understands_iff (hc' : Configured c' d') (hf : c'.family = c.family)
    (hn : c'.vips.length = c.vips.length) (hinet : c.version = .rfc3768 → c.family = .inet)
    {hdr : Vrrphdr} (hh : Configured.Header c prio hdr) {tail : Octets}
    (htail : c.version = .rfc3768 → tail = c.authOctets contents)
    (hroom : c'.advSize ≤ 8 + (c.addrs.flatten ++ tail).length) :
    (hdr.versionType >>> 4 = c'.version.code ∧ hdr.vrid = c'.vrid) ∧
      checkContent d'.vnet d'.vrrp hdr (hdr.octets ++ (c.addrs.flatten ++ tail)) = .ok true ↔
    d'.vrrp.priority ≠ PRIO_OWNER ∧ Understands contents c c' prio := by
  obtain ⟨hversion, hvrid, hprio, hnaddr, hauth, hadv⟩ := hh
  have hcount : hdr.naddr = c'.naddr := by rw [hnaddr, Config.naddr, Config.naddr, hn]
  rw [checkContent_iff hc' (by rw [hn, c.addrs_length]) (by rw [hf]; exact c.addrs_size) hroom, hversion, hvrid,
    hprio, hadv, hf]
  have hmem : (∀ addr ∈ c.addrs, addr ∈ c'.vips.map (fun vip => vip.ipx.octets c.family)) ↔
      ∀ vip ∈ c.vips, vip.ipx.octets c.family ∈ c'.vips.map (fun vip => vip.ipx.octets c.family) := by
    simp only [Config.addrs, List.forall_mem_map, List.mem_reverse]
  have hdrop (hv : c.version = .rfc3768) :
      (c.addrs.flatten ++ tail).drop (c'.vips.length * 4) = c.authOctets contents := by
    have hl := vipOctets_length c.family c.vips.reverse
    rw [Uvrrpd.vipOctets, List.flatMap_def, List.length_reverse] at hl
    rw [← htail hv, hn]
    apply List.drop_left'
    rw [hinet hv] at hl
    rw [Config.addrs, hinet hv, hl]
    rfl
  constructor
  · rintro ⟨⟨hver, hid⟩, howner, ha, hvips, hint⟩
    have hver' : c'.version = c.version := VrrpVersion.code_inj hver.symm
    refine ⟨howner, hver', hid.symm, ?_, ?_, hint⟩
    · intro hv
      obtain ⟨htype, hpass⟩ := ha (hver'.trans hv)
      rw [hauth hv] at htype
      refine ⟨(authType_code_inj htype).symm, fun password hp => ?_⟩
      rw [List.prefix_iff_eq_take, ← hdrop hv]
      exact (hpass password hp).symm
    · intro hv
      rw [← hmem]
      exact (hvips (hver'.trans hv)).imp_right And.right
  · rintro ⟨howner, h⟩
    refine ⟨⟨by rw [h.version], h.vrid.symm⟩, howner, ?_, ?_, h.advInt⟩
    · intro hv
      rw [h.version] at hv
      obtain ⟨htype, hpass⟩ := h.auth hv
      refine ⟨by rw [hauth hv, htype], fun password hp => ?_⟩
      rw [hdrop hv]
      exact (List.prefix_iff_eq_take.mp (hpass password hp)).symm
    · intro hv
      rw [h.version] at hv
      exact (h.vips hv).imp_right (fun hall => ⟨hcount, hmem.mpr hall⟩)

end Sender

/-- Whatever else it says, an accepted frame is of the receiver's version and VRID. -/
theorem Coherent.Announces.accepted_ids {contents : Nat → UInt8} {d : Daemon} {prio : UInt8} {frame : Frame}
    {datagram : Datagram} (ha : Announces contents d prio frame) (hco : Coherent contents d)
    (hdel : Delivers d.vnet.family frame datagram) {host : ByteOrder} {vnet vnet' : VrrpNet} {vrrp : Vrrp}
    {stack : Octets} (hf : vnet.family = d.vnet.family)
    (h : vrrpNetRecv host vnet vrrp (some datagram) stack = .ok (.pkt, vnet')) :
    vrrp.version = d.vrrp.version ∧ vrrp.vrid = d.vnet.vrid := by
  obtain ⟨r, sum, more, -, -, -, hhdr, -⟩ := ha.accepted hco hdel hf h
  obtain ⟨-, hversion, -, hvrid⟩ := checkHeader_none (vrrpNetRecv_accepted h).header
  rw [hhdr] at hversion hvrid
  refine ⟨VrrpVersion.code_inj ?_, hvrid.symm⟩
  rw [← hversion]
  exact advHdr_version d.vnet { d.vrrp with priority := prio }

section Pair
variable {host host' : ByteOrder} {c c' : Config} {fresh fresh' : Fresh}
  {h h' : List (Entry Daemon Input Output)} {d d' : Daemon}

/-- Reception of a whole packet does not depend on what stands behind it. -/
private theorem verdict_whole {sock : Option Datagram} {r : Received} {len : Nat} (hready : Ready d.vnet d.vrrp)
    (hr : pktReceive host d.vnet.family sock d.vnet.pkt [] = .ok r) (hlen : r.len = some len) {hdr : Vrrphdr}
    {rest : Octets} (hpkt : r.buf.drop r.payloadPos = hdr.octets ++ rest)
    (hroom : advGetsize d.vnet ≤ 8 + rest.length) (stack : Octets) :
    ∃ event vnet, vrrpNetRecv host d.vnet d.vrrp sock stack = .ok (event, vnet) ∧
      vrrpNetRecv host d.vnet d.vrrp sock [] = .ok (event, vnet) := by
  obtain ⟨⟨event, vnet⟩, hown⟩ : ∃ v, vrrpNetRecv host d.vnet d.vrrp sock [] = .ok v := by
    by_cases hpass : LengthsPass host d.vnet sock []
    · obtain ⟨r', len', hr', hlen', hfit, hsize⟩ := hpass
      obtain rfl := Except.ok.inj (hr'.symm.trans hr)
      have hready' : Ready (vrrpNetInvalidateBuffer { d.vnet with pkt := r'.recv }) d.vrrp :=
        ⟨hready.own, hready.naddr, hready.pos, hready.password⟩
      obtain ⟨⟨event, adv⟩, hcheck⟩ := checkPacket_ok host hready' hdr (fun _ => hroom)
      rw [vrrpNetRecv_checked d.vrrp hr' hlen' hfit hsize, hpkt, hcheck]
      cases adv with
      | none => exact ⟨_, rfl⟩
      | some hdr' => exact ⟨_, rfl⟩
    · obtain ⟨vnet, hinvalid⟩ := vrrpNetRecv_lengths d.vrrp hr hpass
      exact ⟨_, hinvalid⟩
  have hstack := vrrpNetRecv_extend hown stack
  rw [List.nil_append] at hstack
  exact ⟨event, vnet, hstack, hown⟩

/-- Between running routers of one family with as many addresses, what is sent and fits
the MTU is accepted exactly when it fits the window for the size, the receiver does
not own the addresses, and makes sense of the packet. -/
theorem interoperates_iff (run : History host c fresh h d) (run' : History host' c' fresh' h' d')
    (hf : c'.family = c.family) (hn : c'.vips.length = c.vips.length)
    (hv : c.family = .inet6 → c.version = .rfc5798)
    (hsrc : c.vif.ipx.octets c.family ≠ IpxAddr.zero.octets c.family)
    {contents : Nat → UInt8} (hmem : fresh.mem.data = some contents) {frame : Frame}
    (hadv : Advertises host d frame) {prio : UInt8} (hprio : framePriority frame = some prio)
    {datagram : Datagram} (hdel : Delivers c.family frame datagram)
    (hmtu : (frameLength frame : Int) ≤ c'.vif.mtu) (stack : Octets) :
    (∃ vnet, vrrpNetRecv host' d'.vnet d'.vrrp (some datagram) stack = .ok (.pkt, vnet)) ↔
      (c.family = .inet ∨ c.vips.length ≤ 64) ∧ d'.vrrp.priority ≠ PRIO_OWNER ∧
        Understands contents c c' prio := by
  have hc := run.configured
  have hc' := run'.configured
  obtain ⟨contents', hmem', hco⟩ := run.coherent
  obtain rfl := Option.some.inj (hmem.symm.trans hmem')
  obtain ⟨prio', hann⟩ := hco.advertises hadv
  obtain rfl := Option.some.inj (hprio.symm.trans hann.framePriority)
  have hinet : c.version = .rfc3768 → c.family = .inet := by
    intro hv₂
    cases hfam : c.family with
    | inet => rfl
    | inet6 => rw [hv hfam] at hv₂; cases hv₂
  have hfam : d'.vnet.family = d.vnet.family := by rw [hc'.family, hc.family, hf]
  have hnaddr : d'.vnet.naddr = d.vnet.naddr := by
    rw [hc'.netNaddr, hc.netNaddr, Config.naddr, Config.naddr, hn]
  have hsize' : advGetsize d'.vnet = advGetsize d.vnet := advGetsize_congr hfam hnaddr
  rw [← hc.family] at hdel
  obtain ⟨r, hr, arrival⟩ := hann.arrives hco hdel host' d'.vnet.pkt
  rw [← hfam] at hr
  obtain ⟨len, hlen, hwhole, hframe⟩ := arrival.len
  -- the packet as header, addresses and the rest
  obtain ⟨sum, hpay⟩ : ∃ sum, advPayload d.vnet { d.vrrp with priority := prio }
      (authTail contents d.vnet d.vrrp) = ((advHdr d.vnet { d.vrrp with priority := prio }).withChksum
        sum).octets ++ (c.addrs.flatten ++ authTail contents d.vnet d.vrrp) := by
    rw [← hc.vipOctets]
    exact ⟨_, rfl⟩
  have hbuf := arrival.payload
  rw [hpay] at hbuf
  have hroom : advGetsize d'.vnet ≤ 8 + (c.addrs.flatten ++ authTail contents d.vnet d.vrrp).length := by
    have hl := advPayload_length hco.fills { d.vrrp with priority := prio }
    rw [hpay, List.length_append, Vrrphdr.octets_length] at hl
    rw [hsize', ← hl]
  obtain ⟨event, vnet, hstack, hown⟩ := verdict_whole run'.ready hr hlen hbuf hroom stack
  have hverdict : (∃ vnet, vrrpNetRecv host' d'.vnet d'.vrrp (some datagram) stack = .ok (.pkt, vnet)) ↔
      ∃ vnet, vrrpNetRecv host' d'.vnet d'.vrrp (some datagram) [] = .ok (.pkt, vnet) := by
    rw [hstack, hown]
  have hwindow := advGetsize_window d'.vnet run'.ready.pos
  rw [hc'.family, hf, hc'.netNaddr, c'.naddr_toNat, hn] at hwindow
  rw [hverdict, ← hwindow.2]
  rw [← hc'.vif] at hmtu
  by_cases hmax : advGetsize d'.vnet ≤ VRRP_PKT_MAXSIZE
  swap
  · -- too long for the window
    refine iff_of_false ?_ (fun h => hmax h.1)
    rintro ⟨vnet, h⟩
    have hfail : ¬ LengthsPass host' d'.vnet (some datagram) [] := by
      rintro ⟨r', len', hr', hlen', -, hsize⟩
      obtain rfl := Except.ok.inj (hr'.symm.trans hr)
      rw [arrival.size, ← hsize'] at hsize
      omega
    obtain ⟨vnet', hinvalid⟩ := vrrpNetRecv_lengths d'.vrrp hr hfail
    rw [hinvalid] at h
    cases h
  have hheader : checkHeader d'.vrrp r.recv.header
        ((advHdr d.vnet { d.vrrp with priority := prio }).withChksum sum) = none ↔
      ((advHdr d.vnet { d.vrrp with priority := prio }).withChksum sum).versionType >>> 4 = c'.version.code ∧
        ((advHdr d.vnet { d.vrrp with priority := prio }).withChksum sum).vrid = c'.vrid := by
    rw [← hc'.version, ← hc'.vrid]
    constructor
    · intro hnone
      obtain ⟨-, hver, -, hid⟩ := checkHeader_none hnone
      exact ⟨hver, hid⟩
    · rintro ⟨hver, hid⟩
      exact checkHeader_eq_none arrival.proto hver arrival.ttl hid
  rw [vrrpNetRecv_pkt_iff run'.ready hr hlen (by omega) (by rw [arrival.size, ← hsize']; omega) hbuf hroom,
    hheader]
  have hunderstands := understands_iff hc' hf hn hinet (hc.header prio sum) (fun hv => hc.authTail hv)
    (by rw [← hc'.getsize]; exact hroom)
  constructor
  · rintro ⟨hids, -, hcontent⟩
    exact ⟨hmax, hunderstands.mp ⟨hids, hcontent⟩⟩
  · rintro ⟨-, howner, hun⟩
    obtain ⟨hids, hcontent⟩ := hunderstands.mpr ⟨howner, hun⟩
    -- the sum is right as soon as the versions agree
    have halike : SumsAlike d d' r.recv.sIpx r.recv.dIpx := by
      apply SumsAlike.of_source run'.ready.own hfam arrival.source arrival.dest
      rw [hc.family, hc.vif]
      exact hsrc
    obtain ⟨a, b, hres, hsame⟩ := halike
    refine ⟨hids, ?_, hcontent⟩
    rw [← hpay]
    exact advPayload_sums host' { d.vrrp with priority := prio } hco.fills hfam hsize' hres hsame

end Pair

/-- The lab router and its rival understand each other. -/
theorem interoperates_rival : ∃ vnet, vrrpNetRecv .little waiting.vnet waiting.vrrp (some wire)
    (List.replicate 40 0) = .ok (.pkt, vnet) := by
  have run : History .little rival (.filled 0) [] rival.daemon := ⟨rival.daemon, boot_daemon (.inl rfl), .nil⟩
  have run' : History .little lab (.filled 0) _ waiting := history_runOn (.inl rfl) [.quiet ⟨1, 0⟩]
  have hprio : framePriority rival.daemon.vnet.adv = some 200 := by decide +kernel
  have hunderstands : Understands (fun _ => 0) rival lab 200 := by
    refine ⟨rfl, rfl, fun _ => ⟨rfl, ?_⟩, fun _ => .inr (by decide), by decide⟩
    rintro _ ⟨⟩
  exact (interoperates_iff run run' rfl rfl (by decide) (by decide) rfl (.inl rfl) hprio wire_delivered
    (by decide +kernel) _).mpr ⟨.inl rfl, by decide +kernel, hunderstands⟩

end Uvrrpd
