import Uvrrpd.AdvHeaders
import Uvrrpd.Topology

/-! What the builders of ARP and neighbour advertisement frames leave in memory, in
closed form, and the loop that runs them over the VIPs. -/
namespace Uvrrpd
open Library.Memory (bind_eq_ok)

def topologyEthHeader (template : Octets) (vrid : UInt8) (type : Nat) : Octets :=
  template.take 11 ++ [vrid] ++ net16 type

def arpHeader : Octets :=
  net16 ARPHRD_ETHER ++ net16 ETH_P_IP ++ [UInt8.ofNat ETH_ALEN, UInt8.ofNat IP_ALEN] ++ net16 ARPOP_REQUEST

def arpPayload (vrid : UInt8) (addr : Octets) : Octets :=
  [0x00, 0x00, 0x5e, 0x00, 0x01, vrid] ++ addr ++ List.replicate ETH_ALEN 0xff ++ addr

def naIp6Header (saddr daddr : Octets) : Octets :=
  [0x60, 0, 0, 0] ++ net16 NEIGHBOR_ADVERT_SIZE ++ [IPPROTO_ICMPV6, 0xff] ++ saddr ++ daddr

def naPayload (chksum addr : Octets) : Octets :=
  [ND_NEIGHBOR_ADVERT, 0] ++ chksum ++ NA_FLAGS ++ addr

private theorem topologyEthBuild_spec (host : ByteOrder) (mem : Junk) {template : Octets}
    (ht : template.length = ETHDR_SIZE)
    (vrid : UInt8) (type : Nat) :
    topologyEthBuild host mem template vrid type =
      .ok (mem.isSome, mem.map (fun _ => topologyEthHeader template vrid type)) := by
  cases mem with
  | none => rfl
  | some contents =>
    obtain ⟨buf, hm, hl⟩ := malloc_some contents ETHDR_SIZE
    obtain ⟨a, b, hab⟩ := exists_net16 type
    have hst : storeFields buf [(0, template), (11, [vrid]), (12, [a, b])] =
        .ok (template.take 11 ++ [vrid] ++ [a, b]) := by
      match buf, hl, template, ht with
      | [_, _, _, _, _, _, _, _, _, _, _, _, _, _], _, [_, _, _, _, _, _, _, _, _, _, _, _, _, _], _ =>
        simp [storeFields, store, Library.Memory.write]
    simp only [topologyEthBuild, hm, octets16_htons, hab, hst, ok_bind, pure_eq_ok, topologyEthHeader]
    rfl

private theorem vrrpArpBuild_spec (host : ByteOrder) (mem : Junk) :
    vrrpArpBuild host mem = .ok (mem.isSome, mem.map (fun _ => arpHeader)) := by
  cases mem with
  | none => rfl
  | some contents =>
    obtain ⟨buf, hm, hl⟩ := malloc_some contents ARPHDR_SIZE
    obtain ⟨a, b, hab⟩ := exists_net16 ARPHRD_ETHER
    obtain ⟨c, d, hcd⟩ := exists_net16 ETH_P_IP
    obtain ⟨e, f, hef⟩ := exists_net16 ARPOP_REQUEST
    have hst : storeFields buf [(0, [a, b]), (2, [c, d]), (4, [UInt8.ofNat ETH_ALEN]), (5, [UInt8.ofNat IP_ALEN]),
        (6, [e, f])] = .ok arpHeader := by
      rw [arpHeader, hab, hcd, hef]
      match buf, hl with
      | [_, _, _, _, _, _, _, _], _ => simp [storeFields, store, Library.Memory.write]
    simp only [vrrpArpBuild, hm, octets16_htons, hab, hcd, hef, hst, ok_bind, pure_eq_ok]
    rfl

private theorem vrrpArpVrrpBuild_spec (mem : Junk) (vip : VrrpIp) (vnet : VrrpNet) :
    vrrpArpVrrpBuild mem vip vnet =
      .ok (mem.isSome, mem.map (fun _ => arpPayload vnet.vrid vip.ipx.addr.toList)) := by
  cases mem with
  | none => rfl
  | some contents =>
    obtain ⟨buf, hm, hl⟩ := malloc_some contents ARPHDR_ETH_SIZE
    obtain ⟨p, q, r, s, ha⟩ := exists_addr4 vip.ipx.addr
    obtain ⟨hdr, hst, htip⟩ : ∃ hdr, storeFields buf [(0, [0x00, 0x00, 0x5e, 0x00, 0x01, vnet.vrid]),
        (6, [p, q, r, s]), (10, List.replicate ETH_ALEN 0xff)] = .ok hdr ∧
        load hdr 6 IP_ALEN = .ok [p, q, r, s] ∧
        store hdr 16 [p, q, r, s] = .ok (arpPayload vnet.vrid [p, q, r, s]) := by
      match buf, hl with
      | [_, _, _, _, _, _, _, _, _, _, _, _, _, _, _, _, _, _, _, _], _ =>
        refine ⟨_, rfl, rfl, rfl⟩
    simp only [vrrpArpVrrpBuild, hm, ha, hst, htip.1, htip.2, ok_bind, pure_eq_ok]
    rfl

private theorem eq_octets8 {l : Octets} (h : l.length = 8) :
    ∃ c₀ c₁ c₂ c₃ c₄ c₅ c₆ c₇, l = [c₀, c₁, c₂, c₃, c₄, c₅, c₆, c₇] := by
  match l, h with
  | [c₀, c₁, c₂, c₃, c₄, c₅, c₆, c₇], _ => exact ⟨c₀, c₁, c₂, c₃, c₄, c₅, c₆, c₇, rfl⟩

/-- The destination is written only when `inet_pton` knows it. -/
private theorem vrrpNaIp6Build_spec (host : ByteOrder) (contents : Nat → UInt8) (mcast : Option In6Addr)
    (vip : VrrpIp) :
    ∃ daddr : Octets, daddr.length = 16 ∧ (∀ dst, mcast = some dst → daddr = dst.toList) ∧
      vrrpNaIp6Build host (some contents) mcast vip =
        .ok (mcast.isSome, some (naIp6Header vip.ipx.addr6.toList daddr)) := by
  obtain ⟨mem, hm, hl⟩ := malloc_some contents IP6HDR_SIZE
  obtain ⟨a, b, hab⟩ := exists_net16 NEIGHBOR_ADVERT_SIZE
  obtain ⟨addr, haddr⟩ : ∃ l, l = vip.ipx.addr6.toList := ⟨_, rfl⟩
  have hal : addr.length = 16 := by rw [haddr, List.Vector.toList_length]
  have hst : storeFields mem [(0, [0x60, 0, 0, 0]), (4, [a, b]), (6, [IPPROTO_ICMPV6]), (7, [0xff]), (8, addr)] =
      .ok (naIp6Header addr (mem.drop 24)) := by
    obtain ⟨m₀, m₁, rfl, h₀, h₁⟩ := Library.Memory.exists_split (show mem.length = 8 + 32 from hl)
    rw [naIp6Header, hab]
    obtain ⟨c₀, c₁, c₂, c₃, c₄, c₅, c₆, c₇, rfl⟩ := eq_octets8 h₀
    simp [storeFields, store, Library.Memory.write, hal, h₁]
  have hfront : ([0x60, 0, 0, 0] ++ net16 NEIGHBOR_ADVERT_SIZE ++ [IPPROTO_ICMPV6, 0xff] ++ addr).length = 24 := by
    rw [hab]
    simp [hal]
  have hrest : (mem.drop 24).length = 16 := by rw [List.length_drop, hl, IP6HDR_SIZE]
  cases mcast with
  | none =>
    refine ⟨mem.drop 24, hrest, fun _ h => (by cases h), ?_⟩
    simp only [vrrpNaIp6Build, hm, octets16_htons, hab, ← haddr, hst, ok_bind, pure_eq_ok]
    rfl
  | some dst =>
    have hdst : store (naIp6Header addr (mem.drop 24)) 24 dst.toList = .ok (naIp6Header addr dst.toList) := by
      have h := store_middle ([0x60, 0, 0, 0] ++ net16 NEIGHBOR_ADVERT_SIZE ++ [IPPROTO_ICMPV6, 0xff] ++ addr)
        (mem.drop 24) [] dst.toList hfront.symm (by rw [hrest, List.Vector.toList_length])
      simpa only [naIp6Header, List.append_nil] using h
    refine ⟨dst.toList, dst.toList_length, fun dst' h => by rw [Option.some.inj h], ?_⟩
    simp only [vrrpNaIp6Build, hm, octets16_htons, hab, ← haddr, hst, hdst, ok_bind, pure_eq_ok]
    rfl

private theorem naFields_stored (contents : Nat → UInt8) (addr : In6Addr) :
    ∃ mem, malloc (some contents) NEIGHBOR_ADVERT_SIZE = some mem ∧
      storeFields mem [(0, [ND_NEIGHBOR_ADVERT]), (1, [0]), (2, [0, 0]), (4, NA_FLAGS), (8, addr.toList)] =
        .ok (naPayload [0, 0] addr.toList) := by
  obtain ⟨mem, hm, hl⟩ := malloc_some contents NEIGHBOR_ADVERT_SIZE
  obtain ⟨m₀, m₁, rfl, h₀, h₁⟩ := Library.Memory.exists_split (show mem.length = 8 + 16 from hl)
  have hnil : m₁.drop 16 = [] := List.drop_eq_nil_of_le (by omega)
  refine ⟨_, hm, ?_⟩
  obtain ⟨c₀, c₁, c₂, c₃, c₄, c₅, c₆, c₇, rfl⟩ := eq_octets8 h₀
  simp [storeFields, store, Library.Memory.write, naPayload, NA_FLAGS, h₁, hnil]

private theorem store_naPayload {old chksum : Octets} (ho : old.length = 2) (hc : chksum.length = 2) (addr : Octets) :
    store (naPayload old addr) 2 chksum = .ok (naPayload chksum addr) := by
  have h := store_middle [ND_NEIGHBOR_ADVERT, 0] old (NA_FLAGS ++ addr) chksum (i := 2) rfl (hc.trans ho.symm)
  simpa only [naPayload, List.append_assoc] using h

/-- Without a header the checksum is taken through a null pointer. -/
private theorem vrrpNaBuild_crash (host : ByteOrder) (contents : Nat → UInt8) (vip : VrrpIp) :
    vrrpNaBuild host (some contents) none vip = .error .badAccess := by
  obtain ⟨mem, hm, hst⟩ := naFields_stored contents vip.ipx.addr6
  have hzero : ([0, 0] : Octets).length = 2 := rfl
  simp only [vrrpNaBuild, hm, hst, ok_bind, vrrpNaChksum, store_naPayload hzero hzero]
  rfl

/-- The checksum is taken over whatever the header holds. -/
private theorem vrrpNaBuild_spec (host : ByteOrder) (contents : Nat → UInt8) {saddr daddr : Octets}
    (hs : saddr.length = 16)
    (hd : daddr.length = 16) (vip : VrrpIp) :
    ∃ chksum : Octets, chksum.length = 2 ∧
      vrrpNaBuild host (some contents) (some (naIp6Header saddr daddr)) vip =
        .ok (true, some (naPayload chksum vip.ipx.addr6.toList)) := by
  obtain ⟨mem, hm, hst⟩ := naFields_stored contents vip.ipx.addr6
  obtain ⟨addr, haddr⟩ : ∃ l, l = vip.ipx.addr6.toList := ⟨_, rfl⟩
  have hal : addr.length = 16 := by rw [haddr, List.Vector.toList_length]
  rw [← haddr] at hst
  have hset (chksum : Octets) (hc : chksum.length = 2) :
      store (naPayload [0, 0] addr) 2 chksum = .ok (naPayload chksum addr) := store_naPayload rfl hc addr
  have hsaddr : load (naIp6Header saddr daddr) 8 16 = .ok saddr := by
    have h := load_middle ([0x60, 0, 0, 0] ++ net16 NEIGHBOR_ADVERT_SIZE ++ [IPPROTO_ICMPV6, 0xff]) saddr daddr
      (i := 8) rfl hs.symm
    simpa only [naIp6Header, List.append_assoc] using h
  have hdaddr : load (naIp6Header saddr daddr) 24 16 = .ok daddr := by
    have h := load_middle ([0x60, 0, 0, 0] ++ net16 NEIGHBOR_ADVERT_SIZE ++ [IPPROTO_ICMPV6, 0xff] ++ saddr) daddr []
      (i := 24) (by simp [hs]) hd.symm
    simpa only [naIp6Header, List.append_nil] using h
  have hlen : (naPayload [0, 0] addr).length = NEIGHBOR_ADVERT_SIZE := by
    simp [naPayload, NA_FLAGS, hal, NEIGHBOR_ADVERT_SIZE]
  have hbody : load (naPayload [0, 0] addr) 0 NEIGHBOR_ADVERT_SIZE = .ok (naPayload [0, 0] addr) := by
    have h := load_front (naPayload [0, 0] addr) [] hlen.symm
    rwa [List.append_nil] at h
  obtain ⟨sum, -, hc, -⟩ := cksum_pshdrIp6 host hs hd IPPROTO_ICMPV6 (k := 12) hlen (by decide)
  have hsum : cksum host (pshdrIp6 host saddr daddr IPPROTO_ICMPV6 NEIGHBOR_ADVERT_SIZE ++ naPayload [0, 0] addr)
      ((pshdrIp6 host saddr daddr IPPROTO_ICMPV6 NEIGHBOR_ADVERT_SIZE).length + NEIGHBOR_ADVERT_SIZE) = .ok sum := hc
  refine ⟨octets16 host sum, octets16_length _ _, ?_⟩
  simp only [vrrpNaBuild, hm, ← haddr, hst, ok_bind, vrrpNaChksum, hset _ (show [0, 0].length = 2 from rfl), deref,
    hsaddr, hdaddr, hbody, hsum, hset _ (octets16_length _ _), pure_eq_ok]

def NaAnswers.suffice (family : Family) (a : NaAnswers) : Bool :=
  a.eth.isSome && a.ip.isSome && a.data.isSome && (family == .inet || a.mcast.isSome)

/-- The checksum is taken through the null pointer of a header that found no memory. -/
def NaAnswers.crash (family : Family) (a : NaAnswers) : Bool :=
  family == .inet6 && a.ip.isNone && a.data.isSome

def FrameOf (family : Family) (vrid : UInt8) (vip : VrrpIp) (mcast : Option In6Addr) (f : Frame) : Prop :=
  match family with
  | .inet => f = ⟨some (topologyEthHeader vrrpArpEth vrid ETHERTYPE_ARP), some arpHeader,
      some (arpPayload vrid vip.ipx.addr.toList)⟩
  | .inet6 => ∃ chksum dst, chksum.length = 2 ∧ mcast = some dst ∧
      f = ⟨some (topologyEthHeader vrrpNaEth vrid ETH_P_IPV6), some (naIp6Header vip.ipx.addr6.toList dst.toList),
        some (naPayload chksum vip.ipx.addr6.toList)⟩

def topologyTurn (host : ByteOrder) (vnet : VrrpNet) (a : NaAnswers) (vip : VrrpIp) : Except Fault (Bool × Frame) :=
  match vnet.family with
  | .inet => vrrpArpVip host vnet a.toMallocs vip
  | .inet6 => vrrpNaVip host vnet a vip

theorem vrrpArpVip_spec (host : ByteOrder) (vnet : VrrpNet) (mem : Mallocs) (vip : VrrpIp) :
    vrrpArpVip host vnet mem vip = .ok (mem.eth.isSome && mem.ip.isSome && mem.data.isSome,
      ⟨mem.eth.map (fun _ => topologyEthHeader vrrpArpEth vnet.vrid ETHERTYPE_ARP), mem.ip.map (fun _ => arpHeader),
        mem.data.map (fun _ => arpPayload vnet.vrid vip.ipx.addr.toList)⟩) := by
  have harp : vrrpArpEth.length = ETHDR_SIZE := rfl
  simp only [vrrpArpVip, vrrpArpEthBuild, topologyEthBuild_spec host mem.eth harp, vrrpArpBuild_spec,
    vrrpArpVrrpBuild_spec, ok_bind, pure_eq_ok]

/-- The answers to a turn for IPv6: it crashes at a header without memory, in front of an
advertisement with memory. -/
private theorem vrrpNaVip_spec (host : ByteOrder) (vnet : VrrpNet) (a : NaAnswers) (vip : VrrpIp) :
    (a.crash .inet6 = true → vrrpNaVip host vnet a vip = .error .badAccess) ∧
    (a.crash .inet6 = false → ∃ frame, vrrpNaVip host vnet a vip = .ok (a.suffice .inet6, frame) ∧
      (a.suffice .inet6 = true → FrameOf .inet6 vnet.vrid vip a.mcast frame)) := by
  obtain ⟨⟨eth, ip, data⟩, mcast⟩ := a
  have hna : vrrpNaEth.length = ETHDR_SIZE := rfl
  simp only [vrrpNaVip, vrrpNaEthBuild, topologyEthBuild_spec host eth hna, ok_bind]
  cases ip with
  | none =>
    have hip : vrrpNaIp6Build host none mcast vip = .ok (false, none) := rfl
    cases data with
    | none =>
      have hdata : vrrpNaBuild host none none vip = .ok (false, none) := rfl
      refine ⟨fun h => (by cases h), fun _ => ?_⟩
      simp only [hip, hdata, ok_bind, pure_eq_ok, Bool.and_false]
      have hstatus : NaAnswers.suffice .inet6 ⟨⟨eth, none, none⟩, mcast⟩ = false := by simp [NaAnswers.suffice]
      rw [hstatus]
      exact ⟨_, rfl, fun h => (by cases h)⟩
    | some contents =>
      refine ⟨fun _ => ?_, fun h => (by cases h)⟩
      simp only [hip, ok_bind, vrrpNaBuild_crash]
      rfl
  | some contents =>
    obtain ⟨daddr, hlen, hdst, hip⟩ := vrrpNaIp6Build_spec host contents mcast vip
    refine ⟨fun h => (by cases h), fun _ => ?_⟩
    cases data with
    | none =>
      have hdata : vrrpNaBuild host none (some (naIp6Header vip.ipx.addr6.toList daddr)) vip = .ok (false, none) := rfl
      simp only [hip, hdata, ok_bind, pure_eq_ok, Bool.and_false]
      have hstatus : NaAnswers.suffice .inet6 ⟨⟨eth, some contents, none⟩, mcast⟩ = false := by
        simp [NaAnswers.suffice]
      rw [hstatus]
      exact ⟨_, rfl, fun h => (by cases h)⟩
    | some contents' =>
      obtain ⟨chksum, hc, hdata⟩ := vrrpNaBuild_spec host contents' vip.ipx.addr6.toList_length hlen vip
      simp only [hip, hdata, ok_bind, pure_eq_ok]
      have hstatus : (eth.isSome && mcast.isSome && true) =
          NaAnswers.suffice .inet6 ⟨⟨eth, some contents, some contents'⟩, mcast⟩ := by
        cases eth <;> cases mcast <;> rfl
      rw [hstatus]
      refine ⟨_, rfl, ?_⟩
      intro h
      simp only [NaAnswers.suffice, Bool.and_eq_true, Option.isSome_iff_exists] at h
      obtain ⟨⟨⟨⟨_, rfl⟩, -⟩, -⟩, hmcast⟩ := h
      cases mcast with
      | none => simp at hmcast
      | some dst => exact ⟨chksum, dst, hc, rfl, by rw [hdst dst rfl]; rfl⟩

/-- A turn ends unless it crashes, and its status is 0 exactly when the frame was built. -/
theorem topologyTurn_spec (host : ByteOrder) (vnet : VrrpNet) (a : NaAnswers) (vip : VrrpIp) :
    (a.crash vnet.family = true → topologyTurn host vnet a vip = .error .badAccess) ∧
    (a.crash vnet.family = false → ∃ frame, topologyTurn host vnet a vip = .ok (a.suffice vnet.family, frame) ∧
      (a.suffice vnet.family = true → FrameOf vnet.family vnet.vrid vip a.mcast frame)) := by
  cases hf : vnet.family with
  | inet =>
    refine ⟨fun h => (by cases h), fun _ => ?_⟩
    obtain ⟨⟨eth, ip, data⟩, mcast⟩ := a
    simp only [topologyTurn, hf, vrrpArpVip_spec]
    have hstatus : (eth.isSome && ip.isSome && data.isSome) = NaAnswers.suffice .inet ⟨⟨eth, ip, data⟩, mcast⟩ := by
      simp [NaAnswers.suffice]
    rw [hstatus]
    refine ⟨_, rfl, ?_⟩
    intro h
    simp only [NaAnswers.suffice, beq_self_eq_true, Bool.true_or, Bool.and_true, Bool.and_eq_true,
      Option.isSome_iff_exists] at h
    obtain ⟨⟨⟨_, rfl⟩, _, rfl⟩, _, rfl⟩ := h
    rfl
  | inet6 =>
    simp only [topologyTurn, hf]
    exact vrrpNaVip_spec host vnet a vip

end Uvrrpd
