import Uvrrpd.Packet

/-! What the IP header builders leave in memory, in closed form, and the addresses
that the checksum routines then find there. -/
namespace Uvrrpd

theorem malloc_some (contents : Nat → UInt8) (size : Nat) :
    ∃ mem : Octets, malloc (some contents) size = some mem ∧ mem.length = size :=
  ⟨_, rfl, by simp⟩

theorem exists_addr4 (a : InAddr) : ∃ p q r s, a.toList = [p, q, r, s] := by
  obtain ⟨l, hl⟩ := a
  match l, hl with
  | [p, q, r, s], _ => exact ⟨p, q, r, s, rfl⟩

theorem exists_net16 (v : Nat) : ∃ a b, net16 v = [a, b] := ⟨_, _, rfl⟩

def ip4Header (len : Nat) (check saddr : Octets) : Octets :=
  [0x45, 0x00] ++ net16 len ++ net16 0xdead ++ [0x00, 0x00, 0xff, IPPROTO_VRRP] ++ check ++
    saddr ++ INADDR_VRRP_GROUP

def ip6Header (len : Nat) (saddr : Octets) : Octets :=
  [0x60, 0, 0, 0] ++ net16 len ++ [IPPROTO_VRRP, 0xff] ++ saddr ++ IN6ADDR_VRRP_GROUP

private theorem vrrpAdvIp4Build_spec (host : ByteOrder) (contents : Nat → UInt8) (vnet : VrrpNet) :
    vrrpAdvIp4Build host (some contents) vnet = .ok (true, some (ip4Header (IPHDR_SIZE + advGetsize vnet)
      (netChecksum (ip4Header (IPHDR_SIZE + advGetsize vnet) [0, 0] vnet.vif.ipx.addr.toList))
      vnet.vif.ipx.addr.toList)) := by
  obtain ⟨mem, hm, hl⟩ := malloc_some contents IPHDR_SIZE
  obtain ⟨p, q, r, s, ha⟩ := exists_addr4 vnet.vif.ipx.addr
  obtain ⟨a, b, hab⟩ := exists_net16 (IPHDR_SIZE + advGetsize vnet)
  obtain ⟨x, y, hxy⟩ := exists_net16 0xdead
  have hst : storeFields mem [(0, [0x45]), (1, [0x00]), (2, [a, b]), (4, [x, y]), (8, [0xff]),
      (6, [0x00, 0x00]), (9, [IPPROTO_VRRP]), (12, [p, q, r, s]), (16, INADDR_VRRP_GROUP),
      (10, [0, 0])] = .ok (ip4Header (IPHDR_SIZE + advGetsize vnet) [0, 0] [p, q, r, s]) := by
    rw [ip4Header, hab, hxy]
    match mem, hl with
    | [m₀, m₁, m₂, m₃, m₄, m₅, m₆, m₇, m₈, m₉, m₁₀, m₁₁, m₁₂, m₁₃, m₁₄, m₁₅, m₁₆, m₁₇, m₁₈, m₁₉], _ =>
      simp [storeFields, store, Library.Memory.write, INADDR_VRRP_GROUP]
  have hlen : (ip4Header (IPHDR_SIZE + advGetsize vnet) [0, 0] [p, q, r, s]).length = 2 * 10 := by
    simp [ip4Header, INADDR_VRRP_GROUP]
  obtain ⟨sum, hlt, hc, ho⟩ := cksum_spec host (k := 10) (by decide) (le_of_eq hlen.symm)
  rw [List.take_of_length_le (le_of_eq hlen)] at ho
  have hck : cksum host (ip4Header (IPHDR_SIZE + advGetsize vnet) [0, 0] [p, q, r, s]) IPHDR_SIZE =
      .ok sum := hc
  have hfin : store (ip4Header (IPHDR_SIZE + advGetsize vnet) [0, 0] [p, q, r, s]) 10
      (octets16 host sum) =
      .ok (ip4Header (IPHDR_SIZE + advGetsize vnet) (octets16 host sum) [p, q, r, s]) := by
    simp only [ip4Header]
    have h := store_middle ([0x45, 0x00] ++ (net16 (IPHDR_SIZE + advGetsize vnet) ++ (net16 0xdead ++
      [0x00, 0x00, 0xff, IPPROTO_VRRP]))) [0, 0] ([p, q, r, s] ++ INADDR_VRRP_GROUP)
      (octets16 host sum) (i := 10) (by simp) (by simp)
    simpa only [List.append_assoc] using h
  rw [ho] at hfin
  simp only [vrrpAdvIp4Build, hm, octets16_htons, hab, hxy, ha, hst, ok_bind, hck, ho, hfin, pure_eq_ok]

private theorem vrrpAdvIp6Build_spec (host : ByteOrder) (contents : Nat → UInt8) (vnet : VrrpNet) :
    vrrpAdvIp6Build host (some contents) vnet =
      .ok (true, some (ip6Header (advGetsize vnet) vnet.vif.ipx.addr6.toList)) := by
  obtain ⟨mem, hm, hl⟩ := malloc_some contents IP6HDR_SIZE
  obtain ⟨a, b, hab⟩ := exists_net16 (advGetsize vnet)
  obtain ⟨addr, haddr⟩ : ∃ l, l = vnet.vif.ipx.addr6.toList := ⟨_, rfl⟩
  have hal : addr.length = 16 := by rw [haddr, List.Vector.toList_length]
  have hst : storeFields mem [(0, [0x60, 0, 0, 0]), (4, [a, b]), (6, [IPPROTO_VRRP]), (7, [0xff]),
      (8, addr), (24, IN6ADDR_VRRP_GROUP)] = .ok (ip6Header (advGetsize vnet) addr) := by
    obtain ⟨m₀, m₁, rfl, h₀, h₁⟩ := Library.Memory.exists_split (show mem.length = 8 + 32 from hl)
    have hd : m₁.drop (16 + 16) = [] := List.drop_eq_nil_of_le (by omega)
    rw [ip6Header, hab]
    match m₀, h₀ with
    | [c₀, c₁, c₂, c₃, c₄, c₅, c₆, c₇], _ =>
      simp [storeFields, store, Library.Memory.write, IN6ADDR_VRRP_GROUP, hal, h₁,
        List.drop_append]
  simp only [vrrpAdvIp6Build, hm, octets16_htons, hab, ← haddr, hst, ok_bind, pure_eq_ok]

def advIpHeader (vnet : VrrpNet) : Octets :=
  match vnet.family with
  | .inet => ip4Header (IPHDR_SIZE + advGetsize vnet)
      (netChecksum (ip4Header (IPHDR_SIZE + advGetsize vnet) [0, 0] vnet.vif.ipx.addr.toList))
      vnet.vif.ipx.addr.toList
  | .inet6 => ip6Header (advGetsize vnet) vnet.vif.ipx.addr6.toList

/-- Its octets do not depend on what the memory held. -/
theorem vrrpAdvIpBuild_spec (host : ByteOrder) (contents : Nat → UInt8) (vnet : VrrpNet) :
    vrrpAdvIpBuild host (some contents) vnet = .ok (true, some (advIpHeader vnet)) := by
  rw [vrrpAdvIpBuild, advIpHeader]
  cases vnet.family with
  | inet => exact vrrpAdvIp4Build_spec host contents vnet
  | inet6 => exact vrrpAdvIp6Build_spec host contents vnet

def advEthHeader (vrid : UInt8) (family : Family) : Octets :=
  [0x01, 0x00, 0x5e, 0x00, 0x00, 0x12, 0x00, 0x00, 0x5e, 0x00, 0x01, vrid] ++
    net16 (match family with
      | .inet => ETH_P_IP
      | .inet6 => ETH_P_IPV6)

theorem vrrpAdvEthBuild_spec (host : ByteOrder) (contents : Nat → UInt8) (vrid : UInt8)
    (family : Family) :
    vrrpAdvEthBuild host (some contents) vrid family = .ok (true, some (advEthHeader vrid family)) := by
  obtain ⟨mem, hm, hl⟩ := malloc_some contents ETHDR_SIZE
  have hst (type : Nat) : storeFields mem [(0, vrrpAdvEth), (11, [vrid]), (12, net16 type)] =
      .ok ([0x01, 0x00, 0x5e, 0x00, 0x00, 0x12, 0x00, 0x00, 0x5e, 0x00, 0x01, vrid] ++ net16 type) := by
    obtain ⟨a, b, hab⟩ := exists_net16 type
    rw [hab]
    match mem, hl with
    | [m₀, m₁, m₂, m₃, m₄, m₅, m₆, m₇, m₈, m₉, m₁₀, m₁₁, m₁₂, m₁₃], _ =>
      simp [storeFields, store, Library.Memory.write, vrrpAdvEth]
  simp only [vrrpAdvEthBuild, hm, octets16_htons, hst, ok_bind, pure_eq_ok]
  rfl

def vrrpGroup : Family → Octets
  | .inet => INADDR_VRRP_GROUP
  | .inet6 => IN6ADDR_VRRP_GROUP

/-- The own IP header carries the primary address and the group. -/
def OwnHeader (vnet : VrrpNet) : Prop :=
  match vnet.family with
  | .inet => ∃ check : Octets, check.length = 2 ∧
      vnet.adv.ip = some (ip4Header (IPHDR_SIZE + advGetsize vnet) check vnet.vif.ipx.addr.toList)
  | .inet6 => vnet.adv.ip = some (ip6Header (advGetsize vnet) vnet.vif.ipx.addr6.toList)

theorem IpxAddr.octets_length (family : Family) (a : IpxAddr) :
    (a.octets family).length = family.addrSize := by
  cases family <;> simp [IpxAddr.octets, Family.addrSize]

private theorem vrrpGroup_length (family : Family) : (vrrpGroup family).length = family.addrSize := by
  cases family <;> rfl

private theorem load_ip4Header (len : Nat) {check saddr : Octets} (hc : check.length = 2)
    (hs : saddr.length = 4) :
    load8 (ip4Header len check saddr) 9 = .ok IPPROTO_VRRP ∧
    load (ip4Header len check saddr) 12 4 = .ok saddr ∧
    load (ip4Header len check saddr) 16 4 = .ok INADDR_VRRP_GROUP := by
  obtain ⟨a, b, hab⟩ := exists_net16 len
  obtain ⟨x, y, hxy⟩ := exists_net16 0xdead
  match check, hc, saddr, hs with
  | [c₀, c₁], _, [p, q, r, s], _ =>
    simp [ip4Header, hab, hxy, load8, load, Library.Memory.read, INADDR_VRRP_GROUP]

private theorem load_ip6Header (len : Nat) {saddr : Octets} (hs : saddr.length = 16) :
    load (ip6Header len saddr) 8 16 = .ok saddr ∧
    load (ip6Header len saddr) 24 16 = .ok IN6ADDR_VRRP_GROUP := by
  have hd : (saddr ++ IN6ADDR_VRRP_GROUP).drop 16 = IN6ADDR_VRRP_GROUP := by
    rw [List.drop_append, hs, List.drop_eq_nil_of_le (by omega)]
    rfl
  obtain ⟨a, b, hab⟩ := exists_net16 len
  constructor
  · simp [ip6Header, hab, load, Library.Memory.read, hs, IN6ADDR_VRRP_GROUP]
  · have h := load_middle ([0x60, 0, 0, 0] ++ net16 len ++ [IPPROTO_VRRP, 0xff] ++ saddr)
      IN6ADDR_VRRP_GROUP [] (i := 24) (n := 16) (by simp [hs]) rfl
    simpa [ip6Header] using h

/-- Called without addresses, the checksum routine takes those of the own header. -/
theorem OwnHeader.resolves {vnet : VrrpNet} (h : OwnHeader vnet) :
    Resolves vnet none none (vnet.vif.ipx.octets vnet.family) (vrrpGroup vnet.family) := by
  refine ⟨IpxAddr.octets_length _ _, vrrpGroup_length _, ?_⟩
  rw [OwnHeader] at h
  cases hf : vnet.family with
  | inet =>
    simp only [hf] at h ⊢
    obtain ⟨check, hc, hip⟩ := h
    obtain ⟨hp, hs, hd⟩ := load_ip4Header (IPHDR_SIZE + advGetsize vnet) hc
      (List.Vector.toList_length vnet.vif.ipx.addr)
    exact ⟨_, hip, hp, hs, hd⟩
  | inet6 =>
    simp only [hf] at h ⊢
    obtain ⟨hs, hd⟩ := load_ip6Header (advGetsize vnet)
      (List.Vector.toList_length vnet.vif.ipx.addr6)
    simp only [ip6Addrs, h, deref, ok_bind, hs, hd, pure_eq_ok, IpxAddr.octets, vrrpGroup]

/-- Called with received addresses, it takes those. The own header only has to be
there; in IPv4 the protocol number is read from it. -/
theorem OwnHeader.received {vnet : VrrpNet} (h : OwnHeader vnet) {s d : IpxAddr}
    (hs : s.octets vnet.family ≠ IpxAddr.zero.octets vnet.family)
    (hd : d.octets vnet.family ≠ IpxAddr.zero.octets vnet.family) :
    Resolves vnet (some s) (some d) (s.octets vnet.family) (d.octets vnet.family) := by
  refine ⟨IpxAddr.octets_length _ _, IpxAddr.octets_length _ _, ?_⟩
  rw [OwnHeader] at h
  cases hf : vnet.family with
  | inet =>
    simp only [hf] at h hs hd ⊢
    obtain ⟨check, hc, hip⟩ := h
    obtain ⟨hp, -⟩ := load_ip4Header (IPHDR_SIZE + advGetsize vnet) hc
      (List.Vector.toList_length vnet.vif.ipx.addr)
    refine ⟨_, hip, hp, ?_, ?_⟩
    · rw [addrOr, if_neg (fun he => hs (congrArg List.Vector.toList he))]
      rfl
    · rw [addrOr, if_neg (fun he => hd (congrArg List.Vector.toList he))]
      rfl
  | inet6 => rfl

end Uvrrpd
