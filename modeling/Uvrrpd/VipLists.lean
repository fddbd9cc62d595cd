import Uvrrpd.Bounds

/-! The comparison of a received VIP list with the local one. It looks up each
address of the packet in the list and nothing the other way round, so a packet
that repeats one address can hide that it leaves out another. -/
namespace Uvrrpd
open Library.Memory (bind_eq_ok)

def VrrpNet.vips (vnet : VrrpNet) : List Octets := vnet.vipList.map (fun vip => vip.ipx.octets vnet.family)

theorem searchVip_iff {family : Family} {vipList : List VrrpIp} {addr : Octets} :
    searchVip family vipList addr = true ↔ addr ∈ vipList.map (fun vip => vip.ipx.octets family) := by
  rw [searchVip, List.any_reverse, List.any_eq_true, List.mem_map]
  simp only [beq_iff_eq]

/-- The loop counts the addresses that are not found. -/
private theorem viplistCmpLoop_spec {family : Family} (vipList : List VrrpIp) (addrs : List Octets)
    (front rest : Octets) (naddr ndiff : Nat)
    (hf : front.length = VRRP_PKTHDR_SIZE + naddr * family.addrSize)
    (ha : ∀ addr ∈ addrs, addr.length = family.addrSize) :
    viplistCmpLoop family vipList (front ++ (addrs.flatten ++ rest)) addrs.length naddr ndiff =
      .ok (ndiff + addrs.countP (fun addr => !searchVip family vipList addr)) := by
  induction addrs generalizing front naddr ndiff with
  | nil => rfl
  | cons addr addrs ih =>
    have hl := ha addr List.mem_cons_self
    have hload : load (front ++ ((addr :: addrs).flatten ++ rest))
        (VRRP_PKTHDR_SIZE + naddr * family.addrSize) family.addrSize = .ok addr := by
      rw [List.flatten_cons, List.append_assoc]
      exact load_middle front _ _ hf.symm hl.symm
    have hrest (n : Nat) := ih (front ++ addr) (naddr + 1) n
      (by rw [List.length_append, hf, hl, Nat.add_mul, Nat.one_mul, Nat.add_assoc])
      (fun a hm => ha a (List.mem_cons_of_mem _ hm))
    rw [List.length_cons, viplistCmpLoop, hload, ok_bind, List.flatten_cons, List.append_assoc]
    rw [List.append_assoc] at hrest
    rw [hrest, List.countP_cons]
    cases searchVip family vipList addr with
    | true => simp
    | false =>
      simp
      omega

theorem vipCompare_spec {vnet : VrrpNet} {addrs : List Octets} (hl : addrs.length = vnet.naddr.toNat)
    (ha : ∀ addr ∈ addrs, addr.length = vnet.family.addrSize) (hdr : Vrrphdr) (rest : Octets) :
    vipCompare vnet (hdr.octets ++ (addrs.flatten ++ rest)) =
      .ok (addrs.countP (fun addr => !searchVip vnet.family vnet.vipList addr)) := by
  have hloop := viplistCmpLoop_spec vnet.vipList addrs hdr.octets rest 0 0 (by simp; rfl) ha
  rw [hl, Nat.zero_add] at hloop
  rw [vipCompare]
  cases hf : vnet.family with
  | inet =>
    rw [hf] at hloop
    exact hloop
  | inet6 =>
    rw [hf] at hloop
    exact hloop

/-- Zero is returned as soon as every address of the packet is a local one. -/
theorem vipCompare_eq_zero {vnet : VrrpNet} {addrs : List Octets} (hl : addrs.length = vnet.naddr.toNat)
    (ha : ∀ addr ∈ addrs, addr.length = vnet.family.addrSize) (hdr : Vrrphdr) (rest : Octets) :
    vipCompare vnet (hdr.octets ++ (addrs.flatten ++ rest)) = .ok 0 ↔ ∀ addr ∈ addrs, addr ∈ vnet.vips := by
  rw [vipCompare_spec hl ha, Except.ok.injEq, List.countP_eq_zero]
  simp only [Bool.not_eq_true', Bool.not_eq_false, searchVip_iff]
  rfl

/-- Every address of the packet is a local one, and one of them stands there more
often than in the local list. -/
def Repeats (addrs vips : List Octets) : Prop :=
  (∀ addr ∈ addrs, addr ∈ vips) ∧ ∃ addr ∈ addrs, vips.count addr < addrs.count addr

instance (addrs vips : List Octets) : Decidable (Repeats addrs vips) :=
  inferInstanceAs (Decidable (_ ∧ _))

/-- Lists of one length are permutations of each other when the first has no
element more often than the second. -/
private theorem perm_iff_counts {addrs vips : List Octets} (hl : addrs.length = vips.length) :
    addrs.Perm vips ↔ ∀ addr ∈ addrs, addrs.count addr ≤ vips.count addr := by
  constructor
  · intro hp addr _
    exact (hp.count_eq addr).le
  · intro h
    exact (List.subperm_ext_iff.mpr h).perm_of_length_le hl.ge

private theorem subset_of_perm {addrs vips : List Octets} (h : addrs.Perm vips) :
    ∀ addr ∈ addrs, addr ∈ vips := fun _ hm => h.mem_iff.mp hm

/-- A list that is found address by address is the local one, unless it repeats. -/
private theorem found_perm_iff {addrs vips : List Octets} (hl : addrs.length = vips.length) :
    ((∀ addr ∈ addrs, addr ∈ vips) → addrs.Perm vips) ↔ ¬ Repeats addrs vips := by
  constructor
  · rintro h ⟨hin, addr, hm, hlt⟩
    have hle := (perm_iff_counts hl).mp (h hin) addr hm
    omega
  · intro h hin
    apply (perm_iff_counts hl).mpr
    intro addr hm
    by_contra hgt
    exact h ⟨hin, addr, hm, by omega⟩

/-- The test for the list, for a version 2 packet that the owner has not sent. -/
private theorem checkVips_nonowner {vnet : VrrpNet} {vrrp : Vrrp} {hdr : Vrrphdr} {addrs : List Octets}
    (hl : addrs.length = vnet.naddr.toNat) (ha : ∀ addr ∈ addrs, addr.length = vnet.family.addrSize)
    (hv : vrrp.version = .rfc3768) (hp : hdr.priority ≠ PRIO_OWNER) (rest : Octets) :
    checkVips vnet vrrp hdr (hdr.octets ++ (addrs.flatten ++ rest)) =
      .ok (decide (hdr.naddr = vrrp.naddr ∧ ∀ addr ∈ addrs, addr ∈ vnet.vips)) := by
  have hzero := vipCompare_eq_zero hl ha hdr rest
  rw [vipCompare_spec hl ha, Except.ok.injEq] at hzero
  have hp' : (hdr.priority != PRIO_OWNER) = true := bne_iff_ne.mpr hp
  rw [checkVips, vipsDiffer, hv]
  by_cases hn : hdr.naddr = vrrp.naddr
  · rw [if_neg (not_not.mpr hn), vipCompare_spec hl ha]
    simp only [ok_bind, pure_eq_ok, hp', hn, ← hzero]
    generalize addrs.countP _ = n
    cases n <;> simp
  · rw [if_pos hn]
    simp [hp', hn]

/-- The comparison, and the test that uses it, tell the local list from every other
exactly when the packet does not repeat local addresses; then no packet with another
list is accepted from a router that is not the owner. -/
theorem viplist_cmp_same_iff {vnet : VrrpNet} {vrrp : Vrrp}
    (hcount : vnet.vipList.length = vnet.naddr.toNat)
    (hdr : Vrrphdr) (addrs : List Octets) (rest : Octets) (hl : addrs.length = vnet.naddr.toNat)
    (ha : ∀ addr ∈ addrs, addr.length = vnet.family.addrSize) :
    ((vipCompare vnet (hdr.octets ++ (addrs.flatten ++ rest)) = .ok 0 ↔ addrs.Perm vnet.vips) ↔
      ¬ Repeats addrs vnet.vips) ∧
    (vrrp.version = .rfc3768 → hdr.priority ≠ PRIO_OWNER → hdr.naddr = vrrp.naddr →
      ((¬ addrs.Perm vnet.vips →
        checkVips vnet vrrp hdr (hdr.octets ++ (addrs.flatten ++ rest)) = .ok false) ↔
      ¬ Repeats addrs vnet.vips)) ∧
    (vrrp.version = .rfc3768 → hdr.priority ≠ PRIO_OWNER → ¬ Repeats addrs vnet.vips →
      ¬ addrs.Perm vnet.vips → ∀ host sock stack r vnet',
        pktReceive host vnet.family sock vnet.pkt stack = .ok r →
        r.buf.drop r.payloadPos = hdr.octets ++ (addrs.flatten ++ rest) →
        vrrpNetRecv host vnet vrrp sock stack ≠ .ok (.pkt, vnet')) := by
  have hlen : addrs.length = vnet.vips.length := by rw [VrrpNet.vips, List.length_map, hcount, hl]
  have hfound := found_perm_iff hlen
  refine ⟨?_, ?_, ?_⟩
  · rw [vipCompare_eq_zero hl ha, ← hfound]
    exact ⟨fun h => h.mp, fun h => ⟨h, subset_of_perm⟩⟩
  · intro hv hp hn
    rw [checkVips_nonowner hl ha hv hp, ← hfound, Except.ok.injEq, decide_eq_false_iff_not]
    simp only [hn, true_and]
    exact not_imp_not
  · intro hv hp hrep hperm host sock stack r vnet' hr hpkt hrecv
    obtain ⟨r', rest', hr', -, hbuf, hcontent⟩ := vrrpNetRecv_pkt hrecv
    obtain rfl := Except.ok.inj (hr.symm.trans hr')
    -- the header kept is the one of the packet
    have hhdr : vnet'.pkt.adv = hdr := by
      have hload := (loadHdr_octets vnet'.pkt.adv rest').symm.trans
        ((congrArg (loadHdr · 0) (hbuf.symm.trans hpkt)).trans (loadHdr_octets hdr _))
      exact Except.ok.inj hload
    obtain ⟨-, -, hvips, -⟩ := checkContent_true hcontent
    rw [hhdr, hpkt, checkVips_nonowner hl ha hv hp, Except.ok.injEq, decide_eq_true_eq] at hvips
    exact hperm (hfound.mpr hrep hvips.2)

def twoVips : Config :=
  { lab with
    vips := lab.vips ++ [⟨{ IpxAddr.zero with addr := ⟨[192, 0, 2, 11], rfl⟩ }, 24, ⟨none, none, none⟩⟩]
    vips_pos := by decide
    vips_le := by decide }

def echoed : Datagram :=
  { stunted with octets := [0x45, 0, 0, 44, 0, 0, 0, 0, 255, 112, 0, 0, 192, 0, 2, 2, 224, 0, 0, 18,
      0x21, 7, 200, 2, 0, 1, 0x92, 0xdf, 192, 0, 2, 10, 192, 0, 2, 10, 0, 0, 0, 0, 0, 0, 0, 0] }

def echoedHdr : Vrrphdr := ⟨0x21, 7, 200, 2, 0, 1, 0x92, 0xdf⟩

theorem viplist_cmp_same_foreign :
    ¬ Repeats [[192, 0, 2, 10], [192, 0, 2, 12]] twoVips.daemon.vnet.vips ∧
    (vipCompare twoVips.daemon.vnet (echoedHdr.octets ++ ([[192, 0, 2, 10], [192, 0, 2, 12]].flatten ++ [])) =
      .ok 0 ↔ [[192, 0, 2, 10], [192, 0, 2, 12]].Perm twoVips.daemon.vnet.vips) := by
  have hok : ¬ Repeats [[192, 0, 2, 10], [192, 0, 2, 12]] twoVips.daemon.vnet.vips := by decide +kernel
  have hcount : twoVips.daemon.vnet.vipList.length = twoVips.daemon.vnet.naddr.toNat := by decide +kernel
  have hsame := @viplist_cmp_same_iff _ twoVips.daemon.vrrp hcount echoedHdr
    [[192, 0, 2, 10], [192, 0, 2, 12]] [] (by decide +kernel) (by decide +kernel)
  exact ⟨hok, hsame.1.mpr hok⟩

/-- The list of the advertisement is another one, and yet the comparison returns 0
and the router accepts it. -/
theorem viplist_cmp_echoed :
    History .little twoVips (.filled 0) (twoVips.runOn [.quiet ⟨1, 0⟩]).1 (twoVips.runOn [.quiet ⟨1, 0⟩]).2 ∧
    ¬ [[192, 0, 2, 10], [192, 0, 2, 10]].Perm (twoVips.runOn [.quiet ⟨1, 0⟩]).2.vnet.vips ∧
    echoed.octets.drop 20 = echoedHdr.octets ++
      ([[192, 0, 2, 10], [192, 0, 2, 10]].flatten ++ List.replicate 8 0) ∧
    vipCompare (twoVips.runOn [.quiet ⟨1, 0⟩]).2.vnet (echoed.octets.drop 20) = .ok 0 ∧
    ∃ vnet, vrrpNetRecv .little (twoVips.runOn [.quiet ⟨1, 0⟩]).2.vnet (twoVips.runOn [.quiet ⟨1, 0⟩]).2.vrrp
      (some echoed) (List.Vector.replicate IP_MAXPACKET 0).toList = .ok (.pkt, vnet) :=
  ⟨history_runOn (.inl rfl) [.quiet ⟨1, 0⟩], by decide +kernel, rfl, by decide +kernel,
    vrrpNetRecv_replicate (n := 44) 0 (by decide) (by decide +kernel)⟩

end Uvrrpd
