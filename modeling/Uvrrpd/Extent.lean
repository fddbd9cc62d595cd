import Uvrrpd.Reception

/-! Reception on a longer buffer. A check that succeeds on a memory of some extent
reads nothing behind it, so it gives the same verdict whatever stands there. -/
namespace Uvrrpd
open Library.Memory (bind_eq_ok)

private theorem load_extend {mem out : Octets} {i n : Nat} (h : load mem i n = .ok out) (rest : Octets) :
    load (mem ++ rest) i n = .ok out :=
  load_eq_ok.mpr (Library.Memory.read_extend (load_eq_ok.mp h) rest)

private theorem load8_extend {mem : Octets} {i : Nat} {b : UInt8} (h : load8 mem i = .ok b) (rest : Octets) :
    load8 (mem ++ rest) i = .ok b := by
  have hb := load8_eq_ok.mp h
  apply load8_eq_ok.mpr
  obtain ⟨hi, -⟩ := List.getElem?_eq_some_iff.mp hb
  rw [List.getElem?_append_left hi, hb]

private theorem load16_extend {host : ByteOrder} {mem : Octets} {i v : Nat} (h : load16 host mem i = .ok v)
    (rest : Octets) : load16 host (mem ++ rest) i = .ok v := by
  obtain ⟨a, ha, h⟩ := bind_eq_ok.mp h
  obtain ⟨b, hb, h⟩ := bind_eq_ok.mp h
  simp only [load16, load8_extend ha, load8_extend hb, ok_bind]
  exact h

private theorem store_extend {mem new out : Octets} {i : Nat} (h : store mem i new = .ok out) (rest : Octets) :
    store (mem ++ rest) i new = .ok (out ++ rest) :=
  store_eq_ok.mpr (Library.Memory.write_extend (store_eq_ok.mp h) rest)

private theorem loadAddr_extend {mem : Octets} {i n : Nat} {a : List.Vector UInt8 n}
    (h : loadAddr mem i n = .ok a) (rest : Octets) : loadAddr (mem ++ rest) i n = .ok a := by
  rw [loadAddr] at h ⊢
  split at h
  · next hle =>
    obtain rfl := Except.ok.inj h
    rw [dif_pos (by rw [List.length_append]; omega)]
    congr 2
    rw [List.drop_append_of_le_length (by omega),
      List.take_append_of_le_length (by rw [List.length_drop]; omega)]
  · cases h

private theorem cksumSum_extend {host : ByteOrder} {mem : Octets} {n sum out : Nat}
    (h : cksumSum host mem n sum = .ok out) (rest : Octets) :
    cksumSum host (mem ++ rest) n sum = .ok out := by
  induction n using Nat.strongRecOn generalizing mem sum with
  | ind n ih =>
    match n, mem, h with
    | 0, mem, h => rwa [cksumSum] at h ⊢
    | 1, a :: b :: buf, h => exact h
    | n + 2, a :: b :: buf, h => exact ih n (by omega) h

private theorem cksum_extend {host : ByteOrder} {mem : Octets} {n sum : Nat}
    (h : cksum host mem n = .ok sum) (rest : Octets) : cksum host (mem ++ rest) n = .ok sum := by
  obtain ⟨s, hs, h⟩ := bind_eq_ok.mp h
  simp only [cksum, cksumSum_extend hs, ok_bind]
  exact h

private theorem advChecksum_extend {host : ByteOrder} {vnet : VrrpNet} {pkt pkt' : Octets}
    {saddr daddr : Option IpxAddr} {sum : Nat}
    (h : advChecksum host vnet pkt saddr daddr = .ok (sum, pkt')) (rest : Octets) :
    advChecksum host vnet (pkt ++ rest) saddr daddr = .ok (sum, pkt' ++ rest) := by
  rw [advChecksum] at h ⊢
  cases hf : vnet.family with
  | inet =>
    simp only [hf, vrrpIp4Chksum] at h ⊢
    obtain ⟨p, hst, h⟩ := bind_eq_ok.mp h
    obtain ⟨vt, hvt, h⟩ := bind_eq_ok.mp h
    simp only [store_extend hst, load8_extend hvt, ok_bind]
    split at h
    · next hv =>
      obtain ⟨s, hs, h⟩ := bind_eq_ok.mp h
      obtain ⟨rfl, rfl⟩ := Prod.mk.inj (Except.ok.inj h)
      rw [if_pos hv, cksum_extend hs]
      rfl
    · next hv =>
      rw [if_neg hv]
      split at h
      · next hv' =>
        rw [if_pos hv']
        obtain ⟨iph, hip, h⟩ := bind_eq_ok.mp h
        obtain ⟨s, hs, h⟩ := bind_eq_ok.mp h
        obtain ⟨d, hd, h⟩ := bind_eq_ok.mp h
        obtain ⟨proto, hproto, h⟩ := bind_eq_ok.mp h
        obtain ⟨body, hbody, h⟩ := bind_eq_ok.mp h
        obtain ⟨c, hc, h⟩ := bind_eq_ok.mp h
        obtain ⟨rfl, rfl⟩ := Prod.mk.inj (Except.ok.inj h)
        simp only [hip, hs, hd, hproto, load_extend hbody, hc, ok_bind, pure_eq_ok]
      · next hv' =>
        obtain ⟨rfl, rfl⟩ := Prod.mk.inj (Except.ok.inj h)
        rw [if_neg hv']
        rfl
  | inet6 =>
    simp only [hf, vrrpIp6Chksum] at h ⊢
    obtain ⟨p, hst, h⟩ := bind_eq_ok.mp h
    obtain ⟨sd, hsd, h⟩ := bind_eq_ok.mp h
    obtain ⟨body, hbody, h⟩ := bind_eq_ok.mp h
    obtain ⟨c, hc, h⟩ := bind_eq_ok.mp h
    obtain ⟨rfl, rfl⟩ := Prod.mk.inj (Except.ok.inj h)
    simp only [store_extend hst, hsd, load_extend hbody, hc, ok_bind, pure_eq_ok]

private theorem checkAuth_extend {vrrp : Vrrp} {hdr : Vrrphdr} {pkt : Octets} {r : Bool}
    (h : checkAuth vrrp hdr pkt = .ok r) (rest : Octets) : checkAuth vrrp hdr (pkt ++ rest) = .ok r := by
  rw [checkAuth] at h ⊢
  split at h
  · next hv => rwa [if_pos hv]
  · next hv =>
    rw [if_neg hv]
    split at h
    · next ht => rwa [if_pos ht]
    · next ht =>
      rw [if_neg ht]
      split at h
      · next hs =>
        obtain ⟨password, hp, h⟩ := bind_eq_ok.mp h
        obtain ⟨auth, ha, h⟩ := bind_eq_ok.mp h
        rw [if_pos hs]
        simp only [hp, load_extend ha, ok_bind]
        exact h
      · next hs => rwa [if_neg hs]

private theorem viplistCmpLoop_extend {family : Family} {vipList : List VrrpIp} {pkt : Octets}
    {left naddr ndiff n : Nat} (h : viplistCmpLoop family vipList pkt left naddr ndiff = .ok n)
    (rest : Octets) : viplistCmpLoop family vipList (pkt ++ rest) left naddr ndiff = .ok n := by
  induction left generalizing naddr ndiff with
  | zero => exact h
  | succ left ih =>
    rw [viplistCmpLoop] at h ⊢
    obtain ⟨addr, ha, h⟩ := bind_eq_ok.mp h
    simp only [load_extend ha, ok_bind]
    exact ih h

private theorem vipCompare_extend {vnet : VrrpNet} {pkt : Octets} {n : Nat} (h : vipCompare vnet pkt = .ok n)
    (rest : Octets) : vipCompare vnet (pkt ++ rest) = .ok n := by
  rw [vipCompare] at h ⊢
  cases hf : vnet.family with
  | inet =>
    simp only [hf] at h ⊢
    exact viplistCmpLoop_extend h rest
  | inet6 =>
    simp only [hf] at h ⊢
    exact viplistCmpLoop_extend h rest

private theorem checkVips_extend {vnet : VrrpNet} {vrrp : Vrrp} {hdr : Vrrphdr} {pkt : Octets} {r : Bool}
    (h : checkVips vnet vrrp hdr pkt = .ok r) (rest : Octets) :
    checkVips vnet vrrp hdr (pkt ++ rest) = .ok r := by
  obtain ⟨differs, hd, h⟩ := bind_eq_ok.mp h
  have hd' : vipsDiffer vnet vrrp hdr (pkt ++ rest) = .ok differs := by
    rw [vipsDiffer] at hd ⊢
    split at hd
    · next hn => rwa [if_pos hn]
    · next hn =>
      obtain ⟨ndiff, hv, hd⟩ := bind_eq_ok.mp hd
      rw [if_neg hn, vipCompare_extend hv]
      exact hd
  simp only [checkVips, hd', ok_bind]
  exact h

private theorem checkContent_extend {vnet : VrrpNet} {vrrp : Vrrp} {hdr : Vrrphdr} {pkt : Octets} {r : Bool}
    (h : checkContent vnet vrrp hdr pkt = .ok r) (rest : Octets) :
    checkContent vnet vrrp hdr (pkt ++ rest) = .ok r := by
  rw [checkContent] at h ⊢
  split at h
  · next hp => rwa [if_pos hp]
  · next hp =>
    obtain ⟨auth, ha, h⟩ := bind_eq_ok.mp h
    rw [if_neg hp, checkAuth_extend ha, ok_bind]
    split at h
    · next hn => rwa [if_pos hn]
    · next hn =>
      obtain ⟨vips, hv, h⟩ := bind_eq_ok.mp h
      rw [if_neg hn, checkVips_extend hv]
      exact h

private theorem checkPacket_extend {host : ByteOrder} {vnet : VrrpNet} {vrrp : Vrrp} {pkt : Octets}
    {r : VrrpEvent × Option Vrrphdr} (h : checkPacket host vnet vrrp pkt = .ok r) (rest : Octets) :
    checkPacket host vnet vrrp (pkt ++ rest) = .ok r := by
  obtain ⟨hdr, hload, -⟩ := bind_eq_ok.mp (checkPacket_def host vnet vrrp pkt ▸ h)
  obtain ⟨body, rfl⟩ := loadHdr_ok hload
  rw [List.append_assoc, checkPacket_eq]
  rw [checkPacket_eq] at h
  cases hh : checkHeader vrrp vnet.pkt.header hdr with
  | some e =>
    simp only [hh] at h
    exact h
  | none =>
    simp only [hh] at h
    obtain ⟨⟨sum, pkt⟩, hc, h⟩ := bind_eq_ok.mp h
    have hc' := advChecksum_extend hc rest
    rw [List.append_assoc] at hc'
    simp only [hc', ok_bind]
    split at h
    · next hne => rwa [if_pos hne]
    · next hne =>
      obtain ⟨accepted, ha, h⟩ := bind_eq_ok.mp h
      have ha' := checkContent_extend ha rest
      rw [List.append_assoc] at ha'
      rw [if_neg hne, ha']
      exact h

/-- Old contents behind the end of a buffer stay behind its end. -/
private theorem fill_extend (got buf rest : Octets) : ∃ more, fill got (buf ++ rest) = fill got buf ++ more := by
  refine ⟨rest.drop (got.length - buf.length), ?_⟩
  rw [fill, fill, List.drop_append, List.append_assoc]

def received (sock : Option Datagram) (buf : Octets) : Octets :=
  match sock with
  | some d => fill (d.octets.take IP_MAXPACKET) buf
  | none => buf

theorem vrrpIp4Recv_eq (host : ByteOrder) (sock : Option Datagram) (recv : VrrpRecv) (buf : Octets) :
    vrrpIp4Recv host sock recv buf = do
      let versionIhl ← load8 (received sock buf) 0
      let totLen ← load16 host (received sock buf) 2
      let ttl ← load8 (received sock buf) 8
      let protocol ← load8 (received sock buf) 9
      let saddr ← loadAddr (received sock buf) 12 4
      let daddr ← loadAddr (received sock buf) 16 4
      let len := versionIhl.toNat % 16 * 4
      let header : VrrpIpxHeader :=
        ⟨(len : Int), (protocol.toNat : Int), (ntohs host totLen : Int), (ttl.toNat : Int)⟩
      return ⟨sock.map (fun d => (d.octets.take IP_MAXPACKET).length), { recv with
        sIpx := { recv.sIpx with addr := saddr }
        dIpx := { recv.dIpx with addr := daddr }
        header := header }, received sock buf, len⟩ := by
  cases sock <;> rfl

/-- The buffer after the system call. -/
theorem pktReceive_buf {host : ByteOrder} {family : Family} {sock : Option Datagram} {recv : VrrpRecv}
    {buf : Octets} {r : Received} (h : pktReceive host family sock recv buf = .ok r) :
    r.buf = received sock buf := by
  cases family with
  | inet =>
    rw [pktReceive, vrrpIp4Recv_eq] at h
    obtain ⟨ihl, -, h⟩ := bind_eq_ok.mp h
    obtain ⟨totLen, -, h⟩ := bind_eq_ok.mp h
    obtain ⟨ttl, -, h⟩ := bind_eq_ok.mp h
    obtain ⟨protocol, -, h⟩ := bind_eq_ok.mp h
    obtain ⟨saddr, -, h⟩ := bind_eq_ok.mp h
    obtain ⟨daddr, -, h⟩ := bind_eq_ok.mp h
    rw [← Except.ok.inj h]
  | inet6 =>
    obtain rfl := Except.ok.inj h
    cases sock with
    | none => rfl
    | some d =>
      obtain ⟨octets, saddr6, hoplimit, pktinfo⟩ := d
      cases hoplimit with
      | none => rfl
      | some ttl => cases pktinfo <;> rfl

theorem pktReceive_extend {host : ByteOrder} {family : Family} {sock : Option Datagram}
    {recv : VrrpRecv} {buf : Octets} {r : Received} (h : pktReceive host family sock recv buf = .ok r)
    (rest : Octets) :
    ∃ more, pktReceive host family sock recv (buf ++ rest) = .ok { r with buf := r.buf ++ more } := by
  cases family with
  | inet =>
    obtain ⟨more, hmore⟩ : ∃ more, received sock (buf ++ rest) = received sock buf ++ more := by
      cases sock with
      | none => exact ⟨rest, rfl⟩
      | some d => exact fill_extend (d.octets.take IP_MAXPACKET) buf rest
    refine ⟨more, ?_⟩
    rw [pktReceive, vrrpIp4Recv_eq] at h ⊢
    rw [hmore]
    obtain ⟨ihl, h₀, h⟩ := bind_eq_ok.mp h
    obtain ⟨totLen, h₂, h⟩ := bind_eq_ok.mp h
    obtain ⟨ttl, h₈, h⟩ := bind_eq_ok.mp h
    obtain ⟨protocol, h₉, h⟩ := bind_eq_ok.mp h
    obtain ⟨saddr, hs, h⟩ := bind_eq_ok.mp h
    obtain ⟨daddr, hd, h⟩ := bind_eq_ok.mp h
    obtain rfl := Except.ok.inj h
    simp only [load8_extend h₀, load16_extend h₂, load8_extend h₈, load8_extend h₉, loadAddr_extend hs,
      loadAddr_extend hd, ok_bind, pure_eq_ok]
  | inet6 =>
    obtain rfl := Except.ok.inj h
    unfold pktReceive vrrpIp6Recv
    cases sock with
    | none => exact ⟨rest, rfl⟩
    | some datagram =>
      obtain ⟨octets, saddr6, hoplimit, pktinfo⟩ := datagram
      obtain ⟨more, hm⟩ := fill_extend (octets.take IP_MAXPACKET) buf rest
      refine ⟨more, ?_⟩
      simp only [hm]
      cases hoplimit with
      | none => rfl
      | some ttl => cases pktinfo <;> rfl

/-- Reception that stays within a buffer does not see what a longer one holds. -/
theorem vrrpNetRecv_extend {host : ByteOrder} {vnet : VrrpNet} {vrrp : Vrrp} {sock : Option Datagram}
    {stack : Octets} {r : VrrpEvent × VrrpNet} (h : vrrpNetRecv host vnet vrrp sock stack = .ok r)
    (rest : Octets) : vrrpNetRecv host vnet vrrp sock (stack ++ rest) = .ok r := by
  rw [vrrpNetRecv_def] at h ⊢
  obtain ⟨received, hr, h⟩ := bind_eq_ok.mp h
  obtain ⟨more, hr'⟩ := pktReceive_extend hr rest
  rw [hr', ok_bind]
  simp only at h ⊢
  cases hlen : received.len with
  | none =>
    simp only [hlen] at h
    exact h
  | some len =>
    simp only [hlen] at h ⊢
    split at h
    · next hlong => rwa [if_pos hlong]
    next hlong =>
    rw [if_neg hlong]
    split at h
    · next hrange => rwa [if_pos hrange]
    next hrange =>
    obtain ⟨verdict, hc, h⟩ := bind_eq_ok.mp h
    rw [if_neg hrange, List.drop_append, checkPacket_extend hc]
    exact h

end Uvrrpd
