import Uvrrpd.Config
import Uvrrpd.InternetChecksum
import Uvrrpd.TopologyFrames

/-! Checksums over the pseudo-header of IPv6. The code writes the upper-layer length in
16 bits where the pseudo-header has 32, and the packet verifies all the same. -/
namespace Uvrrpd
open Library

def ip6PseudoHeader (saddr daddr : In6Addr) (len : Nat) (next : UInt8) : Octets :=
  saddr.toList ++ daddr.toList ++ octets32 .big len ++ [0, 0, 0, next]

def AllOnes (octets : Octets) : Prop := OnesComplement.sum 65536 (words .big octets) = 0xffff

/-- The value `sum`, stored in the field at `i`, makes the packet behind the pseudo-header verify. -/
structure Verified (host : ByteOrder) (pseudo : Octets) (i : Nat) (pkt : Octets) (sum : Nat) : Prop where
  fits : sum < 65536
  verifies : ∃ pkt', store pkt i (octets16 host sum) = .ok pkt' ∧ AllOnes (pseudo ++ pkt')

def FrameAddrs (iov : Iovec) (src dst : In6Addr) : Prop :=
  ∃ front : Octets, front.length = 8 ∧ iov = some (front ++ src.toList ++ dst.toList)

/-- Both addresses are given, or the frame's own stand in for them. -/
inductive Takes (vnet : VrrpNet) (src dst : In6Addr) : Option IpxAddr → Option IpxAddr → Prop
  | given (saddr daddr : IpxAddr) (hs : saddr.addr6 = src) (hd : daddr.addr6 = dst) :
    Takes vnet src dst (some saddr) (some daddr)
  | own (saddr daddr : Option IpxAddr) (hnull : saddr = none ∨ daddr = none)
      (hframe : FrameAddrs vnet.adv.ip src dst) :
    Takes vnet src dst saddr daddr

private theorem octets32_big {len : Nat} (h : len < 65536) : octets32 .big len = [0, 0] ++ net16 len := by
  rw [octets32, Nat.mod_eq_of_lt h, Nat.div_eq_of_lt h]
  rfl

private theorem allOnes_netChecksum {front : Octets} {k : Nat} (hf : front.length = 2 * k) (back : Octets) :
    AllOnes (front ++ (netChecksum (front ++ ([0, 0] ++ back)) ++ back)) := by
  have hz : wordSum .big [0, 0] = 0 := rfl
  have hsum : wordSum .big (front ++ ([0, 0] ++ back)) = wordSum .big front + wordSum .big back := by
    rw [wordSum_append hf, wordSum_append (k := 1) rfl, hz, Nat.zero_add]
  have hones : OnesComplement.residue 65536 (wordSum .big front + wordSum .big back +
      (65535 - OnesComplement.residue 65536 (wordSum .big front + wordSum .big back))) = 0xffff :=
    OnesComplement.residue_complement (by decide) _
  rw [netChecksum, hsum]
  obtain ⟨c, hc⟩ : ∃ c, c = 65535 - OnesComplement.residue 65536 (wordSum .big front + wordSum .big back) := ⟨_, rfl⟩
  obtain ⟨a, b, hab, hword⟩ : ∃ a b, net16 c = [a, b] ∧ word .big a b = c := exists_octets16 .big (by omega)
  rw [AllOnes, OnesComplement.sum_eq (by decide) (words_lt _ _), ← wordSum_eq, wordSum_append hf, ← hc, hab]
  show OnesComplement.residue 65536 (wordSum .big front + (word .big a b + wordSum .big back)) = 0xffff
  rw [hword, hc, ← Nat.add_assoc, Nat.add_right_comm, hones]

private theorem load_frameAddrs {iov : Iovec} {src dst : In6Addr} (h : FrameAddrs iov src dst) :
    ∃ iph, deref iov = .ok iph ∧ load iph 8 16 = .ok src.toList ∧ load iph 24 16 = .ok dst.toList := by
  obtain ⟨front, hfront, rfl⟩ := h
  have hs := src.toList_length
  have hd := dst.toList_length
  refine ⟨_, rfl, ?_, ?_⟩
  · rw [List.append_assoc]
    exact load_middle front src.toList dst.toList hfront.symm hs.symm
  · have hdst := load_middle (front ++ src.toList) dst.toList [] (i := 24) (by rw [List.length_append]; omega) hd.symm
    rwa [List.append_nil] at hdst

private theorem ip6Addrs_takes {vnet : VrrpNet} {src dst : In6Addr} {saddr daddr : Option IpxAddr}
    (h : Takes vnet src dst saddr daddr) : ip6Addrs vnet saddr daddr = .ok (src.toList, dst.toList) := by
  cases h with
  | given s d hs hd => rw [ip6Addrs, hs, hd]
  | own saddr daddr hnull hframe =>
    obtain ⟨iph, hiph, hsrc, hdst⟩ := load_frameAddrs hframe
    rcases hnull with rfl | rfl
    · simp only [ip6Addrs, hiph, hsrc, hdst, ok_bind, pure_eq_ok]
    · cases saddr <;> simp only [ip6Addrs, hiph, hsrc, hdst, ok_bind, pure_eq_ok]

/-- What both routines do behind the lookup of the addresses. -/
private theorem chksum_verified (host : ByteOrder) (src dst : In6Addr) (next : UInt8) {pkt : Octets} {j k : Nat}
    (hlen : pkt.length = 2 * k) (hj : j < k) (hk : k ≤ 2044) :
    ∃ sum reset, store pkt (2 * j) [0, 0] = .ok reset ∧ reset.length = 2 * k ∧
      cksum host (pshdrIp6 host src.toList dst.toList next (2 * k) ++ reset)
        ((pshdrIp6 host src.toList dst.toList next (2 * k)).length + 2 * k) = .ok sum ∧
      Verified host (ip6PseudoHeader src dst (2 * k) next) (2 * j) pkt sum := by
  obtain ⟨front, old, back, rfl, hf, ho⟩ := Memory.exists_range (show 2 * j + 2 ≤ pkt.length by omega)
  have hreset : (front ++ ([0, 0] ++ back)).length = 2 * k := by
    rw [← hlen, List.length_append, List.length_append, List.length_append, List.length_append, ho]
    rfl
  obtain ⟨sum, hlt, hc, hoct⟩ := cksum_pshdrIp6 host src.toList_length dst.toList_length next hreset hk
  refine ⟨sum, front ++ ([0, 0] ++ back), store_middle front old back [0, 0] hf.symm ho.symm, hreset, hc, hlt,
    front ++ (octets16 host sum ++ back),
    store_middle front old back _ hf.symm (by rw [octets16_length, ho]), ?_⟩
  rw [hoct, ip6PseudoHeader, octets32_big (by omega)]
  have hpseudo : (src.toList ++ dst.toList ++ ([0, 0] ++ net16 (2 * k)) ++ [0, 0, 0, next] ++ front).length =
      2 * (20 + j) := by
    simp [hf]
    omega
  have hver := allOnes_netChecksum hpseudo back
  rwa [List.append_assoc _ front, List.append_assoc _ front] at hver

theorem ip6_checksums (host : ByteOrder) (src dst : In6Addr) {vnet : VrrpNet} {pkt na : Octets}
    (hpkt : pkt.length = vrrpIp6Getsize vnet) (hna : na.length = NEIGHBOR_ADVERT_SIZE) (rest : Octets) :
    (∃ sum reset, store pkt 6 [0, 0] = .ok reset ∧
      Verified host (ip6PseudoHeader src dst pkt.length IPPROTO_VRRP) 6 pkt sum ∧
      ∀ saddr daddr, Takes vnet src dst saddr daddr →
        vrrpIp6Chksum host vnet (pkt ++ rest) saddr daddr = .ok (sum, reset ++ rest)) ∧
    ∃ sum reset, store na 2 [0, 0] = .ok reset ∧
      Verified host (ip6PseudoHeader src dst na.length IPPROTO_ICMPV6) 2 na sum ∧
      ∀ iov, FrameAddrs iov src dst → vrrpNaChksum host iov na = .ok (sum, reset) := by
  constructor
  · have hn := vnet.naddr.toNat_lt
    have hsize : vrrpIp6Getsize vnet = 2 * (4 + vnet.naddr.toNat * 8) := by
      rw [vrrpIp6Getsize, VRRP_PKTHDR_SIZE]
      omega
    rw [hsize] at hpkt
    obtain ⟨sum, reset, hstore, hreset, hsum, hver⟩ :=
      chksum_verified host src dst IPPROTO_VRRP (j := 3) hpkt (by omega) (by omega)
    refine ⟨sum, reset, hstore, by rwa [hpkt], fun saddr daddr htakes => ?_⟩
    have hstore' : store (pkt ++ rest) 6 [0, 0] = .ok (reset ++ rest) :=
      store_eq_ok.mpr (Library.Memory.write_extend (store_eq_ok.mp hstore) rest)
    simp only [vrrpIp6Chksum, hstore', ok_bind, ip6Addrs_takes htakes, hsize, load_front reset rest hreset.symm, hsum,
      pure_eq_ok]
  · obtain ⟨sum, reset, hstore, hreset, hsum, hver⟩ :=
      chksum_verified host src dst IPPROTO_ICMPV6 (k := 12) (j := 1) hna (by decide) (by decide)
    refine ⟨sum, reset, hstore, by rwa [hna], fun iov hframe => ?_⟩
    obtain ⟨iph, hiph, hsrc, hdst⟩ := load_frameAddrs hframe
    have hbody := load_front reset [] (n := NEIGHBOR_ADVERT_SIZE) hreset.symm
    rw [List.append_nil] at hbody
    have hsum' : cksum host (pshdrIp6 host src.toList dst.toList IPPROTO_ICMPV6 NEIGHBOR_ADVERT_SIZE ++ reset)
        ((pshdrIp6 host src.toList dst.toList IPPROTO_ICMPV6 NEIGHBOR_ADVERT_SIZE).length + NEIGHBOR_ADVERT_SIZE) =
      .ok sum := hsum
    simp only [vrrpNaChksum, show store na 2 [0, 0] = .ok reset from hstore, ok_bind, hiph, hsrc, hdst, hbody, hsum',
      pure_eq_ok]

def vrrpGroup6 : In6Addr := ⟨IN6ADDR_VRRP_GROUP, by decide⟩

def labVnet6 : VrrpNet := lab6.vnet ⟨none, some (ip6Header 24 lab6.vif.ipx.addr6.toList), none⟩

/-- Its advertisement, and the neighbour advertisement for its first address sent to the same group. -/
theorem ip6_checksums_lab6 :
    (∃ sum mem, Verified .little (ip6PseudoHeader lab6.vif.ipx.addr6 vrrpGroup6 24 IPPROTO_VRRP) 6
        ([0x31, 7, 100, 1, 0, 100, 0, 0] ++ lab6.vif.ipx.addr6.toList) sum ∧
      vrrpIp6Chksum .little labVnet6 ([0x31, 7, 100, 1, 0, 100, 0, 0] ++ lab6.vif.ipx.addr6.toList) none none =
        .ok (sum, mem) ∧
      vrrpIp6Chksum .little labVnet6 ([0x31, 7, 100, 1, 0, 100, 0, 0] ++ lab6.vif.ipx.addr6.toList)
        (some lab6.vif.ipx) (some { IpxAddr.zero with addr6 := vrrpGroup6 }) = .ok (sum, mem)) ∧
    ∃ sum mem, Verified .little (ip6PseudoHeader lab6.vif.ipx.addr6 vrrpGroup6 24 IPPROTO_ICMPV6) 2
        (naPayload [0, 0] lab6.vif.ipx.addr6.toList) sum ∧
      vrrpNaChksum .little labVnet6.adv.ip (naPayload [0, 0] lab6.vif.ipx.addr6.toList) = .ok (sum, mem) := by
  have hframe : FrameAddrs labVnet6.adv.ip lab6.vif.ipx.addr6 vrrpGroup6 :=
    ⟨[0x60, 0, 0, 0] ++ net16 24 ++ [IPPROTO_VRRP, 0xff], by decide, rfl⟩
  obtain ⟨⟨sum, reset, -, hver, hboth⟩, sum', reset', -, hver', hna⟩ :=
    ip6_checksums .little lab6.vif.ipx.addr6 vrrpGroup6
      (show ([0x31, 7, 100, 1, 0, 100, 0, 0] ++ lab6.vif.ipx.addr6.toList).length = vrrpIp6Getsize labVnet6 by decide)
      (show (naPayload [0, 0] lab6.vif.ipx.addr6.toList).length = NEIGHBOR_ADVERT_SIZE by decide) []
  exact ⟨⟨sum, _, hver, hboth none none (.own _ _ (.inl rfl) hframe), hboth _ _ (.given _ _ rfl rfl)⟩,
    sum', reset', hver', hna _ hframe⟩

end Uvrrpd
