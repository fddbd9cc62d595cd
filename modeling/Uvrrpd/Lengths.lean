import Uvrrpd.Delivery

/-! The two tests that `vrrp_net_recv` makes on lengths, against the frames that the
builder makes. The window for the size of the VRRP part is that of the longest IPv4
advertisement, in both families. -/
namespace Uvrrpd
open Library.Runs

def LengthsPass (host : ByteOrder) (vnet : VrrpNet) (sock : Option Datagram) (stack : Octets) : Prop :=
  ∃ r len, pktReceive host vnet.family sock vnet.pkt stack = .ok r ∧ r.len = some len ∧
    ¬ ((len : Int) > vnet.vif.mtu ∨ len < advGetsize vnet) ∧
    ¬ (payloadSize r.recv.header < VRRP_PKT_MINSIZE ∨ payloadSize r.recv.header > VRRP_PKT_MAXSIZE)

/-- A datagram that is received and does not pass is refused. -/
theorem vrrpNetRecv_lengths {host : ByteOrder} {vnet : VrrpNet} {sock : Option Datagram}
    {stack : Octets} {r : Received} (vrrp : Vrrp)
    (hr : pktReceive host vnet.family sock vnet.pkt stack = .ok r)
    (h : ¬ LengthsPass host vnet sock stack) :
    ∃ vnet', vrrpNetRecv host vnet vrrp sock stack = .ok (.invalid, vnet') := by
  rw [vrrpNetRecv_def, hr, ok_bind]
  cases hlen : r.len with
  | none => exact ⟨_, rfl⟩
  | some len =>
    simp only
    split
    · exact ⟨_, rfl⟩
    · next hfit =>
      split
      · exact ⟨_, rfl⟩
      · next hsize => exact absurd ⟨r, len, hr, hlen, hfit, hsize⟩ h

/-- The longest advertisement of each family against the window. -/
theorem advGetsize_window (vnet : VrrpNet) (hpos : 1 ≤ vnet.naddr.toNat) :
    VRRP_PKT_MINSIZE ≤ advGetsize vnet ∧
      (advGetsize vnet ≤ VRRP_PKT_MAXSIZE ↔ vnet.family = .inet ∨ vnet.naddr.toNat ≤ 64) := by
  have hn := vnet.naddr.toNat_lt
  rw [advGetsize]
  cases vnet.family with
  | inet =>
    simp only [vrrpIp4Getsize, VRRP_PKT_MINSIZE, VRRP_PKT_MAXSIZE, VRRP_PKTHDR_SIZE, VRRP_AUTH_SIZE,
      VIP_MAX, true_or, iff_true]
    omega
  | inet6 =>
    simp only [vrrpIp6Getsize, VRRP_PKT_MINSIZE, VRRP_PKT_MAXSIZE, VRRP_PKTHDR_SIZE, VRRP_AUTH_SIZE,
      VIP_MAX, reduceCtorEq, false_or]
    omega

/-- Every frame of a running router can be delivered. -/
theorem History.delivers {host : ByteOrder} {c : Config} {fresh : Fresh}
    {h : List (Entry Daemon Input Output)} {d : Daemon} (run : History host c fresh h d) :
    ∃ datagram, Delivers c.family d.vnet.adv datagram := by
  obtain ⟨contents, -, hco⟩ := run.coherent
  have hfam := run.configured.family
  have hown := hco.prepared.own
  rw [OwnHeader, hfam] at hown
  cases hf : c.family with
  | inet =>
    rw [hf] at hown
    obtain ⟨check, -, hip⟩ := hown
    exact ⟨⟨_, IpxAddr.zero.addr6, none, none⟩, _, _, hip, hco.data, rfl⟩
  | inet6 =>
    rw [hf] at hown
    obtain ⟨-, -, hs, hd⟩ := ip6Header_fields (advGetsize d.vnet) d.vnet.vif.ipx.addr6.toList_length
    exact ⟨⟨_, d.vnet.vif.ipx.addr6, some _, some ⟨IN6ADDR_VRRP_GROUP, rfl⟩⟩, _, _, hown, hco.data, rfl,
      hs.symm, ⟨_, rfl, hd.symm⟩, rfl⟩

def Family.headerSize : Family → Nat
  | .inet => IPHDR_SIZE
  | .inet6 => IP6HDR_SIZE

theorem Coherent.Announces.frameLength {contents : Nat → UInt8} {d : Daemon} {prio : UInt8} {frame : Frame}
    (ha : Coherent.Announces contents d prio frame) (hc : Coherent contents d) :
    frameLength frame = d.vnet.family.headerSize + advGetsize d.vnet := by
  have hown := hc.prepared.own
  rw [OwnHeader] at hown
  rw [Coherent.Announces] at ha
  rw [Uvrrpd.frameLength, ha]
  simp only [Option.getD_some]
  rw [advPayload_length hc.fills]
  congr 1
  cases hf : d.vnet.family with
  | inet =>
    rw [hf] at hown
    obtain ⟨check, hcheck, hip⟩ := hown
    rw [hip, Option.getD_some]
    simp [ip4Header, hcheck, INADDR_VRRP_GROUP, Family.headerSize, IPHDR_SIZE]
  | inet6 =>
    rw [hf] at hown
    rw [hown, Option.getD_some]
    exact (ip6Header_fields _ d.vnet.vif.ipx.addr6.toList_length).1

/-- The length of a frame follows from the family and the count of VIPs. -/
theorem History.frameLength {host : ByteOrder} {c : Config} {fresh : Fresh}
    {h : List (Entry Daemon Input Output)} {d : Daemon} (run : History host c fresh h d) :
    advGetsize d.vnet = advGetsize (c.vnet fresh.adv) ∧
      frameLength d.vnet.adv = c.family.headerSize + advGetsize (c.vnet fresh.adv) := by
  obtain ⟨contents, -, hco⟩ := run.coherent
  have hg : advGetsize d.vnet = advGetsize (c.vnet fresh.adv) :=
    advGetsize_congr run.configured.family run.configured.netNaddr
  refine ⟨hg, ?_⟩
  rw [hco.announces.frameLength hco, hg, run.configured.family]

/-- Between routers of one family and as many VIPs, the size alone decides. -/
private theorem lengthsPass_size {host host' : ByteOrder} {c c' : Config} {fresh fresh' : Fresh}
    {h h' : List (Entry Daemon Input Output)} {d d' : Daemon} (run : History host c fresh h d)
    (run' : History host' c' fresh' h' d') (hf : c'.family = c.family)
    (hn : c'.vips.length = c.vips.length) {datagram : Datagram}
    (hdel : Delivers c.family d.vnet.adv datagram) (hmtu : (frameLength d.vnet.adv : Int) ≤ c'.vif.mtu)
    (stack : Octets) :
    (∃ r, pktReceive host' d'.vnet.family (some datagram) d'.vnet.pkt stack = .ok r) ∧
    (LengthsPass host' d'.vnet (some datagram) stack ↔ advGetsize d.vnet ≤ VRRP_PKT_MAXSIZE) := by
  obtain ⟨contents, -, hco⟩ := run.coherent
  have hcfg := run.configured
  have hcfg' := run'.configured
  have hfam : d'.vnet.family = d.vnet.family := by rw [hcfg'.family, hcfg.family, hf]
  have hnaddr : d'.vnet.naddr = d.vnet.naddr := by
    rw [hcfg'.netNaddr, hcfg.netNaddr, Config.naddr, Config.naddr, hn]
  have hg : advGetsize d'.vnet = advGetsize d.vnet := advGetsize_congr hfam hnaddr
  obtain ⟨r, hr, arrival⟩ := hco.announces.arrives hco (by rw [hcfg.family]; exact hdel) host' d'.vnet.pkt
  obtain ⟨more, hmore⟩ := pktReceive_extend hr stack
  rw [List.nil_append, ← hfam] at hmore
  obtain ⟨len, hlen, hwhole, hframe⟩ := arrival.len
  have hmin := (advGetsize_window d.vnet
    (by rw [hcfg.netNaddr, Config.naddr_toNat]; exact c.vips_pos)).1
  refine ⟨⟨_, hmore⟩, ?_⟩
  rw [← arrival.size]
  constructor
  · rintro ⟨r', len', hr', -, -, hsize⟩
    obtain rfl := Except.ok.inj (hmore.symm.trans hr')
    exact not_lt.mp (fun hgt => hsize (.inr hgt))
  · intro hle
    refine ⟨_, len, hmore, hlen, ?_, ?_⟩
    · rw [hg, hcfg'.vif]
      omega
    · simp only
      rw [arrival.size] at hle ⊢
      omega

/-- A router finds the length of another's advertisement acceptable, provided its MTU
is, exactly when the family is IPv4 or there are at most 64 addresses. -/
theorem length_window_admits_iff {host host' : ByteOrder} {c c' : Config} {fresh fresh' : Fresh}
    {h h' : List (Entry Daemon Input Output)} {d d' : Daemon} (run : History host c fresh h d)
    (run' : History host' c' fresh' h' d') (hf : c'.family = c.family)
    (hn : c'.vips.length = c.vips.length) {datagram : Datagram}
    (hdel : Delivers c.family d.vnet.adv datagram) (hmtu : (frameLength d.vnet.adv : Int) ≤ c'.vif.mtu)
    (stack : Octets) :
    LengthsPass host' d'.vnet (some datagram) stack ↔ c.family = .inet ∨ c.vips.length ≤ 64 := by
  have hcfg := run.configured
  have hwindow := (advGetsize_window d.vnet
    (by rw [hcfg.netNaddr, Config.naddr_toNat]; exact c.vips_pos)).2
  rw [hcfg.family, hcfg.netNaddr, Config.naddr_toNat] at hwindow
  rw [(lengthsPass_size run run' hf hn hdel hmtu stack).2, hwindow]

theorem length_window_admits_lab : ∃ datagram, Delivers .inet lab.daemon.vnet.adv datagram ∧
    LengthsPass .little lab.daemon.vnet (some datagram) [] := by
  have run : History .little lab (.filled 0) [] lab.daemon := ⟨lab.daemon, boot_daemon (.inl rfl), .nil⟩
  obtain ⟨datagram, hdel⟩ := run.delivers
  exact ⟨datagram, hdel, (length_window_admits_iff run run rfl rfl hdel (by decide +kernel) []).mpr (.inl rfl)⟩

def crowded : Config :=
  { lab6 with
    vips := List.replicate 65 ⟨IpxAddr.zero, 64, ⟨none, none, none⟩⟩
    vips_pos := by decide
    vips_le := by decide }

/-- It refuses its own frame as too long, although the MTU leaves room for it. -/
theorem length_window_excludes_crowded : ∃ datagram,
    History .little crowded (.filled 0) [] crowded.daemon ∧ crowded.vips.length ≤ VIP_MAX ∧
    Delivers .inet6 crowded.daemon.vnet.adv datagram ∧
    (frameLength crowded.daemon.vnet.adv : Int) ≤ crowded.vif.mtu ∧
    ∀ stack, ¬ LengthsPass .little crowded.daemon.vnet (some datagram) stack ∧
      ∃ vnet, vrrpNetRecv .little crowded.daemon.vnet crowded.daemon.vrrp (some datagram) stack =
        .ok (.invalid, vnet) := by
  have run : History .little crowded (.filled 0) [] crowded.daemon :=
    ⟨crowded.daemon, boot_daemon (.inr (.inl rfl)), .nil⟩
  obtain ⟨datagram, hdel⟩ := run.delivers
  have hmtu : (frameLength crowded.daemon.vnet.adv : Int) ≤ crowded.vif.mtu := by
    rw [run.frameLength.2]
    decide
  refine ⟨datagram, run, by decide, hdel, hmtu, ?_⟩
  intro stack
  obtain ⟨⟨r, hr⟩, hiff⟩ := lengthsPass_size run run rfl rfl hdel hmtu stack
  have hlong : ¬ LengthsPass .little crowded.daemon.vnet (some datagram) stack := by
    rw [hiff, run.frameLength.1]
    decide
  exact ⟨hlong, vrrpNetRecv_lengths crowded.daemon.vrrp hr hlong⟩

end Uvrrpd
