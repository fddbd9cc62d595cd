import Uvrrpd.AdvHeaders
import Uvrrpd.Config

/-! What the payload builder leaves in memory, in closed form. Only the tail behind
the addresses can still show the old contents of the packet buffer. -/
namespace Uvrrpd

def advHdr (vnet : VrrpNet) (vrrp : Vrrp) : Vrrphdr where
  versionType := vrrp.version.code <<< 4 ||| VRRP_TYPE_ADV
  vrid := vnet.vrid
  priority := vrrp.priority
  naddr := vrrp.naddr
  authType := match vrrp.version with
    | .rfc3768 => vrrp.authType.code
    | .rfc5798 => UInt8.ofNat (vrrp.advInt.toNat / 256)
  advInt := UInt8.ofNat vrrp.advInt.toNat
  chksum₀ := 0
  chksum₁ := 0

def vipOctets (family : Family) (vips : List VrrpIp) : Octets :=
  vips.flatMap (fun vip => vip.ipx.octets family)

def authField (vrrp : Vrrp) : Octets :=
  match vrrp.version, vrrp.authType, vrrp.authData with
  | .rfc3768, .simple, some password => password
  | _, _, _ => []

/-- The octets behind the addresses: the password, then what the memory held. -/
def authTail (contents : Nat → UInt8) (vnet : VrrpNet) (vrrp : Vrrp) : Octets :=
  authField vrrp ++ (((List.range (advGetsize vnet)).map contents).drop
    (VRRP_PKTHDR_SIZE + vnet.vipList.length * vnet.family.addrSize)).drop (authField vrrp).length

def advPayload (vnet : VrrpNet) (vrrp : Vrrp) (tail : Octets) : Octets :=
  let rest := vipOctets vnet.family vnet.vipList.reverse ++ tail
  ((advHdr vnet vrrp).withChksum (packetChecksum vnet.family vrrp.version
    (vnet.vif.ipx.octets vnet.family) (vrrpGroup vnet.family) (advGetsize vnet)
    (advHdr vnet vrrp) rest)).octets ++ rest

theorem advHdr_version (vnet : VrrpNet) (vrrp : Vrrp) :
    (advHdr vnet vrrp).versionType >>> 4 = vrrp.version.code := by
  simp only [advHdr]
  cases vrrp.version <;> decide

theorem vipOctets_length (family : Family) (vips : List VrrpIp) :
    (vipOctets family vips).length = vips.length * family.addrSize := by
  induction vips with
  | nil => simp [vipOctets]
  | cons vip rest ih =>
    simp only [vipOctets, List.flatMap_cons, List.length_append, IpxAddr.octets_length,
      List.length_cons] at ih ⊢
    rw [ih, Nat.add_mul, Nat.one_mul, Nat.add_comm]

/-- The loop over the VIPs replaces as many octets as they need. -/
private theorem writeVips_spec (family : Family) (limit : Nat) (vips : List VrrpIp)
    (front mid back : Octets) (n : Nat) (hm : mid.length = vips.length * family.addrSize)
    (hn : n + vips.length ≤ limit) :
    writeVips family limit vips (front ++ (mid ++ back)) front.length n =
      .ok (front ++ (vipOctets family vips ++ back),
        some (front.length + vips.length * family.addrSize)) := by
  induction vips generalizing front mid n with
  | nil =>
    obtain rfl : mid = [] := List.length_eq_zero_iff.mp (by simpa using hm)
    simp [writeVips, vipOctets]
  | cons vip rest ih =>
    simp only [List.length_cons, Nat.add_mul, Nat.one_mul] at hm hn ⊢
    have hv := IpxAddr.octets_length family vip.ipx
    obtain ⟨m₀, m₁, rfl, h₀, h₁⟩ := Library.Memory.exists_split
      (show mid.length = family.addrSize + rest.length * family.addrSize by omega)
    have hst := store_middle front m₀ (m₁ ++ back) (vip.ipx.octets family) rfl (hv.trans h₀.symm)
    have hrec := ih (front ++ vip.ipx.octets family) m₁ (n + 1) h₁ (by omega)
    rw [List.length_append, hv, List.append_assoc] at hrec
    simp only [writeVips, List.append_assoc, hst, ok_bind]
    rw [if_neg (by omega), hrec]
    simp [vipOctets, Nat.add_comm, Nat.add_assoc]

private theorem storeFields_hdr (host : ByteOrder) (vnet : VrrpNet) (vrrp : Vrrp) (old : Vrrphdr)
    (rest : Octets) :
    storeFields (old.octets ++ rest) ([(0, [vrrp.version.code <<< 4 ||| VRRP_TYPE_ADV]),
      (1, [vnet.vrid]), (2, [vrrp.priority]), (3, [vrrp.naddr])] ++ intervalFields host vrrp) =
      .ok (((advHdr vnet vrrp).withChksum [old.chksum₀, old.chksum₁]).octets ++ rest) := by
  rw [intervalFields]
  cases hv : vrrp.version with
  | rfc3768 =>
    simp [storeFields, store, Library.Memory.write, Vrrphdr.octets, advHdr, hv, Vrrphdr.withChksum]
  | rfc5798 =>
    simp [storeFields, store, Library.Memory.write, Vrrphdr.octets, advHdr, hv, Vrrphdr.withChksum]
    rfl

/-- What start-up establishes between the two structures and never changes again.
The password fits behind the addresses; IPv6 packets have no room for one. -/
structure Prepared (vnet : VrrpNet) (vrrp : Vrrp) : Prop where
  naddr : vnet.naddr = vrrp.naddr
  count : vnet.vipList.length = vrrp.naddr.toNat
  own : OwnHeader vnet
  auth : VRRP_PKTHDR_SIZE + vnet.vipList.length * vnet.family.addrSize + (authField vrrp).length ≤
    advGetsize vnet

private theorem authField_eq_nil {vrrp : Vrrp}
    (hne : ∀ password, vrrp.version = .rfc3768 → vrrp.authType = .simple →
      vrrp.authData = some password → False) : authField vrrp = [] := by
  rw [authField]
  split
  · next password hv ht hd => exact absurd hd (hne password hv ht)
  · rfl

private theorem writeAuth_spec (vrrp : Vrrp) (front old : Octets)
    (h : (authField vrrp).length ≤ old.length) :
    writeAuth vrrp (front ++ old) front.length =
      .ok (front ++ (authField vrrp ++ old.drop (authField vrrp).length)) := by
  rw [writeAuth]
  split
  · next password hv ht hd =>
    have hf : authField vrrp = password := by simp only [authField, hv, ht, hd]
    rw [hf] at h ⊢
    have hst := store_middle front (old.take password.length) (old.drop password.length) password
      rfl (by rw [List.length_take]; omega)
    rwa [List.take_append_drop] at hst
  · next hne =>
    rw [authField_eq_nil hne]
    rfl

/-- The tail fills the packet up to the size of the advertisement. -/
def Fills (vnet : VrrpNet) (tail : Octets) : Prop :=
  VRRP_PKTHDR_SIZE + vnet.vipList.length * vnet.family.addrSize + tail.length = advGetsize vnet

theorem authTail_fills (contents : Nat → UInt8) {vnet : VrrpNet} {vrrp : Vrrp}
    (h : Prepared vnet vrrp) : Fills vnet (authTail contents vnet vrrp) := by
  have := h.auth
  simp only [Fills, authTail, List.length_append, List.length_drop, List.length_map,
    List.length_range]
  omega

/-- Any checksum octets may stand in the header before the update. -/
private theorem chksumUpdate_payload (host : ByteOrder) {vnet : VrrpNet} {vrrp : Vrrp} {tail : Octets}
    (h : Prepared vnet vrrp) (hf : Fills vnet tail) (sum : Octets) :
    chksumUpdate host vnet (((advHdr vnet vrrp).withChksum sum).octets ++
      (vipOctets vnet.family vnet.vipList.reverse ++ tail)) = .ok (advPayload vnet vrrp tail) := by
  apply chksumUpdate_spec host _ _ (advHdr_version vnet vrrp) h.own.resolves
  simp only [Fills, VRRP_PKTHDR_SIZE, List.length_append, vipOctets_length, List.length_reverse] at hf ⊢
  omega

/-- The builder up to the password. -/
private theorem vrrpAdvBuild_eq (host : ByteOrder) (contents : Nat → UInt8) {vnet : VrrpNet}
    {vrrp : Vrrp} (hc : vnet.vipList.length = vrrp.naddr.toNat)
    (hroom : VRRP_PKTHDR_SIZE + vnet.vipList.length * vnet.family.addrSize ≤ advGetsize vnet) :
    ∃ sum, vrrpAdvBuild host (some contents) vnet vrrp = do
      let pkt ← writeAuth vrrp ((((advHdr vnet vrrp).withChksum sum).octets ++
          vipOctets vnet.family vnet.vipList.reverse) ++
        ((List.range (advGetsize vnet)).map contents).drop
          (VRRP_PKTHDR_SIZE + vnet.vipList.length * vnet.family.addrSize))
        (((advHdr vnet vrrp).withChksum sum).octets ++
          vipOctets vnet.family vnet.vipList.reverse).length
      let pkt ← chksumUpdate host vnet pkt
      return (true, some pkt) := by
  obtain ⟨mem, hmem, hml⟩ : ∃ mem, (List.range (advGetsize vnet)).map contents = mem ∧
      mem.length = advGetsize vnet := ⟨_, rfl, by simp⟩
  have hmal : malloc (some contents) (advGetsize vnet) = some mem := congrArg some hmem
  obtain ⟨n, hn⟩ : ∃ n, vnet.vipList.length * vnet.family.addrSize = n := ⟨_, rfl⟩
  rw [hn, VRRP_PKTHDR_SIZE] at hroom
  -- the memory as old header, room for the addresses, and the rest
  obtain ⟨old, rest, rfl⟩ := exists_hdr (show 8 ≤ mem.length by omega)
  obtain ⟨mid, back, rfl, hmid⟩ : ∃ mid back, rest = mid ++ back ∧ mid.length = n :=
    ⟨rest.take n, rest.drop n, (List.take_append_drop _ _).symm, by
      rw [List.length_append, Vrrphdr.octets_length] at hml
      rw [List.length_take]
      omega⟩
  have hdrop : (old.octets ++ (mid ++ back)).drop (8 + n) = back := by
    rw [← List.append_assoc]
    exact List.drop_left' (by rw [List.length_append, hmid]; rfl)
  refine ⟨[old.chksum₀, old.chksum₁], ?_⟩
  obtain ⟨hdr, hhdr⟩ : ∃ hdr, (advHdr vnet vrrp).withChksum [old.chksum₀, old.chksum₁] = hdr :=
    ⟨_, rfl⟩
  have hvl := vipOctets_length vnet.family vnet.vipList.reverse
  have hvips := writeVips_spec vnet.family vrrp.naddr.toNat vnet.vipList.reverse hdr.octets mid back 0
    (by rw [hmid, List.length_reverse, hn]) (by rw [List.length_reverse, hc]; omega)
  rw [List.length_reverse, hn] at hvips hvl
  rw [hmem, hn, VRRP_PKTHDR_SIZE, hdrop]
  simp only [vrrpAdvBuild, hmal, storeFields_hdr, hhdr, ok_bind]
  rw [show VRRP_PKTHDR_SIZE = hdr.octets.length from rfl, hvips, List.length_append, hvl,
    List.append_assoc]
  rfl

private theorem back_length (contents : Nat → UInt8) (vnet : VrrpNet) (n : Nat) :
    (((List.range (advGetsize vnet)).map contents).drop n).length = advGetsize vnet - n := by
  rw [List.length_drop, List.length_map, List.length_range]

/-- The builder in closed form. -/
theorem vrrpAdvBuild_spec (host : ByteOrder) (contents : Nat → UInt8) {vnet : VrrpNet} {vrrp : Vrrp}
    (h : Prepared vnet vrrp) :
    vrrpAdvBuild host (some contents) vnet vrrp =
      .ok (true, some (advPayload vnet vrrp (authTail contents vnet vrrp))) := by
  have hauth := h.auth
  obtain ⟨sum, heq⟩ := vrrpAdvBuild_eq host contents h.count (by omega)
  have hwa := writeAuth_spec vrrp (((advHdr vnet vrrp).withChksum sum).octets ++
    vipOctets vnet.family vnet.vipList.reverse) _
    (by rw [back_length contents vnet (VRRP_PKTHDR_SIZE + vnet.vipList.length * vnet.family.addrSize)]
        omega)
  rw [heq, hwa, ok_bind, List.append_assoc]
  have hck := chksumUpdate_payload host h (authTail_fills contents h) sum
  rw [authTail] at hck ⊢
  simp only [hck, ok_bind, pure_eq_ok]

/-- A packet that was built had room for its password. -/
private theorem auth_of_vrrpAdvBuild {host : ByteOrder} {contents : Nat → UInt8} {vnet : VrrpNet}
    {vrrp : Vrrp} {r : Built} (hc : vnet.vipList.length = vrrp.naddr.toNat)
    (hroom : VRRP_PKTHDR_SIZE + vnet.vipList.length * vnet.family.addrSize ≤ advGetsize vnet)
    (hb : vrrpAdvBuild host (some contents) vnet vrrp = .ok r) :
    VRRP_PKTHDR_SIZE + vnet.vipList.length * vnet.family.addrSize + (authField vrrp).length ≤
      advGetsize vnet := by
  obtain ⟨sum, heq⟩ := vrrpAdvBuild_eq host contents hc hroom
  rw [heq] at hb
  obtain ⟨pkt, hw, -⟩ := Library.Memory.bind_eq_ok.mp hb
  rw [writeAuth] at hw
  split at hw
  · next password hv ht hd =>
    have hf : authField vrrp = password := by simp only [authField, hv, ht, hd]
    obtain ⟨hle, -⟩ := Library.Memory.write_eq_some.mp (store_eq_ok.mp hw)
    have hvl := vipOctets_length vnet.family vnet.vipList.reverse
    simp only [List.length_append, back_length, Vrrphdr.octets_length, List.length_reverse] at hle hvl
    simp only [hf, VRRP_PKTHDR_SIZE] at *
    omega
  · next hne =>
    rw [authField_eq_nil hne]
    exact hroom

theorem advPayload_length {vnet : VrrpNet} {tail : Octets} (h : Fills vnet tail) (vrrp : Vrrp) :
    (advPayload vnet vrrp tail).length = advGetsize vnet := by
  rw [← h, advPayload, List.length_append, Vrrphdr.octets_length, List.length_append, vipOctets_length,
    List.length_reverse, Nat.add_assoc]
  rfl

def Verifies (host : ByteOrder) (vnet : VrrpNet) (pkt : Octets) (saddr daddr : Option IpxAddr) : Prop :=
  ∃ sum pkt', advChecksum host vnet pkt saddr daddr = .ok (sum, pkt') ∧ load16 host pkt 6 = .ok sum

/-- The checksum test compares two octets. -/
theorem verifies_iff (host : ByteOrder) (hdr : Vrrphdr) (rest : Octets) {vnet : VrrpNet}
    {version : VrrpVersion} {saddr daddr : Option IpxAddr} {s t : Octets}
    (hv : hdr.versionType >>> 4 = version.code) (hres : Resolves vnet saddr daddr s t)
    (hlen : advGetsize vnet ≤ 8 + rest.length) :
    Verifies host vnet (hdr.octets ++ rest) saddr daddr ↔
      [hdr.chksum₀, hdr.chksum₁] = packetChecksum vnet.family version s t (advGetsize vnet) hdr rest := by
  obtain ⟨sum, hlt, hc, ho⟩ := advChecksum_spec host hdr rest hv hres hlen
  rw [← ho]
  constructor
  · rintro ⟨sum', pkt', hc', hload⟩
    obtain ⟨rfl, -⟩ := Prod.mk.inj (Except.ok.inj (hc.symm.trans hc'))
    rw [load16_chksum] at hload
    rw [← Except.ok.inj hload, octets16_word]
  · intro h
    refine ⟨sum, _, hc, ?_⟩
    rw [load16_chksum, word_of_octets16 hlt h.symm]

/-- A payload verifies at every host that sums as many octets and puts the same
pseudo-header before them. -/
theorem advPayload_sums (host : ByteOrder) {vnet peer : VrrpNet} (vrrp : Vrrp) {tail : Octets}
    (hfill : Fills vnet tail) {saddr daddr : Option IpxAddr} (hf : peer.family = vnet.family)
    (hg : advGetsize peer = advGetsize vnet) {s d : Octets} (ha : Resolves peer saddr daddr s d)
    (hsame : pseudo vnet.family vrrp.version s d (advGetsize vnet) = pseudo vnet.family vrrp.version
      (vnet.vif.ipx.octets vnet.family) (vrrpGroup vnet.family) (advGetsize vnet)) :
    Verifies host peer (advPayload vnet vrrp tail) saddr daddr := by
  obtain ⟨rest, hrest⟩ : ∃ rest, vipOctets vnet.family vnet.vipList.reverse ++ tail = rest := ⟨_, rfl⟩
  have hlen : advGetsize peer ≤ 8 + rest.length := by
    have hvl := vipOctets_length vnet.family vnet.vipList.reverse
    rw [List.length_reverse] at hvl
    rw [hg, ← hfill, ← hrest, List.length_append, hvl, VRRP_PKTHDR_SIZE]
    omega
  obtain ⟨a, b, hab⟩ : ∃ a b, packetChecksum vnet.family vrrp.version (vnet.vif.ipx.octets vnet.family)
      (vrrpGroup vnet.family) (advGetsize vnet) (advHdr vnet vrrp) rest = [a, b] := ⟨_, _, rfl⟩
  have hpay : advPayload vnet vrrp tail = ((advHdr vnet vrrp).withChksum [a, b]).octets ++ rest := by
    rw [advPayload, hrest, hab]
  have hv : ((advHdr vnet vrrp).withChksum [a, b]).versionType >>> 4 = vrrp.version.code :=
    advHdr_version vnet vrrp
  rw [hpay, verifies_iff host _ rest hv ha hlen, hf, hg, packetChecksum, hsame]
  exact hab.symm

/-- In particular at every host that takes the sender's addresses into it. -/
theorem advPayload_verifies (host : ByteOrder) {vnet peer : VrrpNet} (vrrp : Vrrp) {tail : Octets}
    (hfill : Fills vnet tail) {saddr daddr : Option IpxAddr} (hf : peer.family = vnet.family)
    (hg : advGetsize peer = advGetsize vnet)
    (ha : Resolves peer saddr daddr (vnet.vif.ipx.octets vnet.family) (vrrpGroup vnet.family)) :
    Verifies host peer (advPayload vnet vrrp tail) saddr daddr :=
  advPayload_sums host vrrp hfill hf hg ha rfl

private theorem exists_payload (vnet : VrrpNet) (vrrp : Vrrp) (tail : Octets) :
    ∃ sum, advPayload vnet vrrp tail = ((advHdr vnet vrrp).withChksum sum).octets ++
      (vipOctets vnet.family vnet.vipList.reverse ++ tail) := ⟨_, rfl⟩

private theorem store_payload (vnet : VrrpNet) (vrrp : Vrrp) (sum rest : Octets) (prio : UInt8) :
    store (((advHdr vnet vrrp).withChksum sum).octets ++ rest) 2 [prio] =
      .ok (((advHdr vnet { vrrp with priority := prio }).withChksum sum).octets ++ rest) :=
  store_priority _ _ _

theorem advPayload_priority (vnet : VrrpNet) (vrrp : Vrrp) (tail : Octets) :
    (advPayload vnet vrrp tail)[2]? = some vrrp.priority := by
  obtain ⟨sum, hsum⟩ := exists_payload vnet vrrp tail
  rw [hsum]
  rfl

/-- Another priority changes the priority octet and the two checksum octets only. -/
theorem advPayload_getElem? (vnet : VrrpNet) (vrrp : Vrrp) (tail : Octets) (prio : UInt8) {i : Nat}
    (h₂ : i ≠ 2) (h₆ : i ≠ 6) (h₇ : i ≠ 7) :
    (advPayload vnet { vrrp with priority := prio } tail)[i]? = (advPayload vnet vrrp tail)[i]? := by
  obtain ⟨sum, hsum⟩ := exists_payload vnet vrrp tail
  obtain ⟨sum', hsum'⟩ := exists_payload vnet { vrrp with priority := prio } tail
  rw [hsum, hsum']
  generalize vipOctets vnet.family vnet.vipList.reverse ++ tail = rest
  rcases Nat.lt_or_ge i 8 with hi | hi
  · obtain rfl | rfl | rfl | rfl | rfl : i = 0 ∨ i = 1 ∨ i = 3 ∨ i = 4 ∨ i = 5 := by omega
    all_goals rfl
  · rw [List.getElem?_append_right hi, List.getElem?_append_right hi]
    rfl

/-- A new priority rewrites the payload as if it had been built with it. -/
theorem vrrpAdvSetPriority_spec (host : ByteOrder) {vnet : VrrpNet} {vrrp : Vrrp} {tail : Octets}
    (h : Prepared vnet vrrp) (hf : Fills vnet tail)
    (hd : vnet.adv.data = some (advPayload vnet vrrp tail)) (prio : UInt8) :
    vrrpAdvSetPriority host vnet prio = .ok { vnet with adv := { vnet.adv with
      data := some (advPayload vnet { vrrp with priority := prio } tail) } } := by
  have h' : Prepared vnet { vrrp with priority := prio } := ⟨h.naddr, h.count, h.own, h.auth⟩
  obtain ⟨sum, hsum⟩ := exists_payload vnet vrrp tail
  simp only [vrrpAdvSetPriority, hd, deref, ok_bind, hsum, store_payload,
    chksumUpdate_payload host h' hf sum, pure_eq_ok]

/-- The resignation is the payload that priority 0 would have; the buffer is as before. -/
theorem vrrpAdvSendZero_spec (host : ByteOrder) {vnet : VrrpNet} {vrrp : Vrrp} {tail : Octets}
    (h : Prepared vnet vrrp) (hf : Fills vnet tail)
    (hd : vnet.adv.data = some (advPayload vnet vrrp tail)) :
    vrrpAdvSendZero host vnet = .ok ({ vnet.adv with
      data := some (advPayload vnet { vrrp with priority := 0 } tail) }, vnet) := by
  have h' : Prepared vnet { vrrp with priority := 0 } := ⟨h.naddr, h.count, h.own, h.auth⟩
  obtain ⟨sum, hsum⟩ := exists_payload vnet vrrp tail
  obtain ⟨zsum, hzsum⟩ := exists_payload vnet { vrrp with priority := 0 } tail
  obtain ⟨rest, hrest⟩ : ∃ rest, vipOctets vnet.family vnet.vipList.reverse ++ tail = rest := ⟨_, rfl⟩
  have hpri : load8 (advPayload vnet vrrp tail) 2 = .ok vrrp.priority := by rw [hsum]; rfl
  have hck := chksumUpdate_payload host h' hf sum
  rw [hrest] at hsum hzsum hck
  have hload : load (((advHdr vnet { vrrp with priority := 0 }).withChksum sum).octets ++ rest) 6 2 =
      .ok [sum.getD 0 0, sum.getD 1 0] := rfl
  have hback : store (((advHdr vnet vrrp).withChksum zsum).octets ++ rest) 6
      [sum.getD 0 0, sum.getD 1 0] = .ok (((advHdr vnet vrrp).withChksum sum).octets ++ rest) :=
    store_chksum _ _ _ _
  have hsame : { vnet with adv := { vnet.adv with
      data := some (((advHdr vnet vrrp).withChksum sum).octets ++ rest) } } = vnet := by
    rw [← hsum, ← hd]
  rw [vrrpAdvSendZero, hd]
  simp only [deref, ok_bind, hpri]
  rw [hsum, store_payload, ok_bind, hload, ok_bind, hck, ok_bind, hzsum, store_payload]
  simp only [ok_bind, hback, hsame, pure_eq_ok]

structure Booted (c : Config) (fresh : Fresh) (d : Daemon) : Prop where
  vrrp : d.vrrp = c.vrrp (vrrpCtrlInit fresh.words)
  vnet : d.vnet = { c.vnet fresh.adv with adv := d.vnet.adv }
  reg : d.reg = setBit KEEP_GOING 0
  prepared : Prepared d.vnet d.vrrp
  data : ∃ contents, fresh.mem.data = some contents ∧
    d.vnet.adv.data = some (advPayload d.vnet d.vrrp (authTail contents d.vnet d.vrrp))

private theorem room_of_count {vnet : VrrpNet} (h : vnet.vipList.length = vnet.naddr.toNat) :
    VRRP_PKTHDR_SIZE + vnet.vipList.length * vnet.family.addrSize ≤ advGetsize vnet := by
  rw [advGetsize]
  cases vnet.family <;> simp only [vrrpIp4Getsize, vrrpIp6Getsize, Family.addrSize] <;> omega

/-- The header written by the builder carries the primary address and the group. -/
private theorem ownHeader_built (vnet : VrrpNet) (eth data : Iovec) :
    OwnHeader { vnet with adv := ⟨eth, some (advIpHeader vnet), data⟩ } := by
  obtain ⟨vrid, vif, vips, family, naddr, pkt, adv⟩ := vnet
  cases family with
  | inet => exact ⟨_, rfl, rfl⟩
  | inet6 => exact rfl

@[simp] theorem advPayload_adv (vnet : VrrpNet) (vrrp : Vrrp) (tail : Octets) (adv : Frame) :
    advPayload { vnet with adv := adv } vrrp tail = advPayload vnet vrrp tail := rfl

@[simp] theorem authTail_adv (contents : Nat → UInt8) (vnet : VrrpNet) (vrrp : Vrrp) (adv : Frame) :
    authTail contents { vnet with adv := adv } vrrp = authTail contents vnet vrrp := rfl

def advFrame (contents : Nat → UInt8) (vnet : VrrpNet) (vrrp : Vrrp) : Frame :=
  ⟨some (advEthHeader vnet.vrid vnet.family), some (advIpHeader vnet),
    some (advPayload vnet vrrp (authTail contents vnet vrrp))⟩

/-- The three builders, when each finds its memory: the payload decides. -/
private theorem vrrpAdvInit_eq (host : ByteOrder) (ceth cip cdata : Nat → UInt8) (vnet : VrrpNet)
    (vrrp : Vrrp) :
    vrrpAdvInit host ⟨some ceth, some cip, some cdata⟩ vnet vrrp = do
      let built ← vrrpAdvBuild host (some cdata) { vnet with adv :=
        ⟨some (advEthHeader vnet.vrid vnet.family), some (advIpHeader vnet), vnet.adv.data⟩ } vrrp
      return (built.1, { vnet with adv :=
        ⟨some (advEthHeader vnet.vrid vnet.family), some (advIpHeader vnet), built.2⟩ }) := by
  have hip (eth : Iovec) : advIpHeader { vnet with adv := { vnet.adv with eth := eth } } = advIpHeader vnet :=
    rfl
  simp only [vrrpAdvInit, vrrpAdvEthBuild_spec, vrrpAdvIpBuild_spec, ok_bind, hip, Bool.true_and]

/-- A builder that reports success has found its memory. -/
private theorem mallocs_of_init {host : ByteOrder} {mem : Mallocs} {vnet vnet' : VrrpNet} {vrrp : Vrrp}
    (h : vrrpAdvInit host mem vnet vrrp = .ok (true, vnet')) :
    ∃ ceth cip cdata, mem = ⟨some ceth, some cip, some cdata⟩ := by
  obtain ⟨eth, ip, data⟩ := mem
  rw [vrrpAdvInit] at h
  obtain ⟨⟨ok₀, b₀⟩, heth, h⟩ := Library.Memory.bind_eq_ok.mp h
  obtain ⟨⟨ok₁, b₁⟩, hip, h⟩ := Library.Memory.bind_eq_ok.mp h
  obtain ⟨⟨ok₂, b₂⟩, hdata, h⟩ := Library.Memory.bind_eq_ok.mp h
  simp only [pure_eq_ok, Except.ok.injEq, Prod.mk.injEq, Bool.and_eq_true] at h
  obtain ⟨⟨⟨rfl, rfl⟩, rfl⟩, -⟩ := h
  cases eth with
  | none => simp [vrrpAdvEthBuild, malloc] at heth
  | some ceth =>
    cases ip with
    | none =>
      simp only [vrrpAdvIpBuild] at hip
      split at hip
      · simp [vrrpAdvIp4Build, malloc] at hip
      · simp [vrrpAdvIp6Build, malloc] at hip
    | some cip =>
      cases data with
      | none => simp [vrrpAdvBuild, malloc] at hdata
      | some cdata => exact ⟨ceth, cip, cdata, rfl⟩

theorem vrrpAdvInit_spec {host : ByteOrder} {mem : Mallocs} {vnet vnet' : VrrpNet} {vrrp : Vrrp}
    (hn : vnet.naddr = vrrp.naddr) (hc : vnet.vipList.length = vrrp.naddr.toNat)
    (h : vrrpAdvInit host mem vnet vrrp = .ok (true, vnet')) :
    Prepared vnet' vrrp ∧ ∃ contents, mem.data = some contents ∧
      vnet' = { vnet with adv := advFrame contents vnet vrrp } := by
  obtain ⟨ceth, cip, cdata, rfl⟩ := mallocs_of_init h
  rw [vrrpAdvInit_eq] at h
  obtain ⟨⟨ok, data⟩, hdata, h⟩ := Library.Memory.bind_eq_ok.mp h
  obtain ⟨rfl, rfl⟩ : ok = true ∧ _ = vnet' := by simpa using h
  obtain ⟨mid, hmid⟩ : ∃ v : VrrpNet, { vnet with adv :=
    ⟨some (advEthHeader vnet.vrid vnet.family), some (advIpHeader vnet), vnet.adv.data⟩ } = v := ⟨_, rfl⟩
  have hown : OwnHeader mid := by rw [← hmid]; exact ownHeader_built vnet _ _
  have hmn : mid.naddr = vrrp.naddr := by rw [← hmid]; exact hn
  have hmc : mid.vipList.length = vrrp.naddr.toNat := by rw [← hmid]; exact hc
  rw [hmid] at hdata
  have hauth := auth_of_vrrpAdvBuild hmc (room_of_count (by rw [hmc, hmn])) hdata
  rw [vrrpAdvBuild_spec host cdata ⟨hmn, hmc, hown, hauth⟩] at hdata
  obtain rfl : some _ = data := by simpa using hdata
  rw [← hmid] at hauth ⊢
  exact ⟨⟨hn, hc, ownHeader_built vnet _ _, hauth⟩, cdata, rfl, rfl⟩

/-- What start-up builds, octet for octet. -/
theorem boot_frame {host : ByteOrder} {c : Config} {fresh : Fresh} {d : Daemon}
    (h : boot host c fresh = .ok (some d)) :
    ∃ contents, fresh.mem.data = some contents ∧
      d = ⟨c.vrrp (vrrpCtrlInit fresh.words), { c.vnet fresh.adv with
        adv := advFrame contents (c.vnet fresh.adv) (c.vrrp (vrrpCtrlInit fresh.words)) },
        setBit KEEP_GOING 0, []⟩ ∧ Prepared d.vnet d.vrrp := by
  rw [boot] at h
  obtain ⟨⟨ok, vnet⟩, hinit, hret⟩ := Library.Memory.bind_eq_ok.mp h
  cases ok with
  | false => simp at hret
  | true =>
    obtain rfl : ⟨c.vrrp (vrrpCtrlInit fresh.words), vnet, setBit KEEP_GOING 0, []⟩ = d := by
      simpa using hret
    obtain ⟨hprep, contents, hm, rfl⟩ := vrrpAdvInit_spec rfl c.naddr_toNat.symm hinit
    exact ⟨contents, hm, rfl, hprep⟩

theorem boot_spec {host : ByteOrder} {c : Config} {fresh : Fresh} {d : Daemon}
    (h : boot host c fresh = .ok (some d)) : Booted c fresh d := by
  obtain ⟨contents, hm, rfl, hprep⟩ := boot_frame h
  exact ⟨rfl, rfl, rfl, hprep, contents, hm, rfl⟩

/-- The configuration leaves room for its password: IPv6 packets have none, and
version 3 sends none. -/
def Config.AuthFits (c : Config) : Prop :=
  c.family = .inet ∨ c.version = .rfc5798 ∨ c.password = none

private theorem authField_length_le (c : Config) (ctrl : VrrpCtrl) :
    (authField (c.vrrp ctrl)).length ≤ VRRP_AUTH_SIZE ∧
    (c.version = .rfc5798 ∨ c.password = none → authField (c.vrrp ctrl) = []) := by
  rw [authField]
  split
  · next password hv ht hd =>
    refine ⟨c.password_le password hd, ?_⟩
    rintro (h | h)
    · exact absurd (hv.symm.trans h) (by decide)
    · exact absurd (hd.symm.trans h) (by simp)
  · exact ⟨by decide, fun _ => rfl⟩

private theorem config_auth (c : Config) (h : c.AuthFits) (ctrl : VrrpCtrl) {vnet : VrrpNet}
    (hf : vnet.family = c.family) (hc : vnet.vipList.length = vnet.naddr.toNat) :
    VRRP_PKTHDR_SIZE + vnet.vipList.length * vnet.family.addrSize + (authField (c.vrrp ctrl)).length ≤
      advGetsize vnet := by
  obtain ⟨hle, hnil⟩ := authField_length_le c ctrl
  rw [advGetsize]
  cases hv : vnet.family with
  | inet =>
    simp only [vrrpIp4Getsize, Family.addrSize, hc]
    omega
  | inet6 =>
    rcases h with h | h
    · exact absurd (hv.symm.trans (hf.trans h)) (by decide)
    · rw [hnil h]
      simp only [vrrpIp6Getsize, Family.addrSize, hc, List.length_nil]
      omega

/-- Start-up succeeds when memory is found. -/
theorem boot_ok (host : ByteOrder) (c : Config) (h : c.AuthFits) (fresh : Fresh)
    (heth : fresh.mem.eth ≠ none) (hip : fresh.mem.ip ≠ none) (hdata : fresh.mem.data ≠ none) :
    ∃ d, boot host c fresh = .ok (some d) := by
  obtain ⟨ceth, heth⟩ := Option.ne_none_iff_exists'.mp heth
  obtain ⟨cip, hip⟩ := Option.ne_none_iff_exists'.mp hip
  obtain ⟨cdata, hdata⟩ := Option.ne_none_iff_exists'.mp hdata
  obtain ⟨vnet, hvnet⟩ : ∃ v, c.vnet fresh.adv = v := ⟨_, rfl⟩
  have hf : vnet.family = c.family := by rw [← hvnet]; rfl
  have hn : vnet.naddr = c.naddr := by rw [← hvnet]; rfl
  have hc : vnet.vipList.length = vnet.naddr.toNat := by
    rw [hn, c.naddr_toNat, ← hvnet]
    rfl
  have hprep : Prepared { vnet with adv := ⟨some (advEthHeader vnet.vrid vnet.family),
      some (advIpHeader vnet), vnet.adv.data⟩ } (c.vrrp (vrrpCtrlInit fresh.words)) :=
    ⟨hn, by rw [show (c.vrrp (vrrpCtrlInit fresh.words)).naddr = c.naddr from rfl, ← hn]; exact hc,
      ownHeader_built vnet _ _, config_auth c h _ hf hc⟩
  have hmem : fresh.mem = ⟨some ceth, some cip, some cdata⟩ := by
    rw [← heth, ← hip, ← hdata]
  rw [boot, hmem, hvnet]
  simp only [vrrpAdvInit_eq, vrrpAdvBuild_spec host cdata hprep, ok_bind, pure_eq_ok]
  exact ⟨_, rfl⟩

theorem boot_daemon {c : Config} (h : c.AuthFits) :
    boot .little c (.filled 0) = .ok (some c.daemon) := by
  obtain ⟨d, hd⟩ := boot_ok .little c h (.filled 0) (by simp [Fresh.filled])
    (by simp [Fresh.filled]) (by simp [Fresh.filled])
  rw [Config.daemon]
  rw [hd]

theorem history_runOn {c : Config} (h : c.AuthFits) (inputs : List Input) :
    History .little c (.filled 0) (c.runOn inputs).1 (c.runOn inputs).2 := by
  refine ⟨c.daemon, boot_daemon h, ?_⟩
  rw [Config.runOn]
  split
  · next r he => exact .of_execute he
  · exact .nil

/-- Unless a step faults, the inputs of such a history are the given ones. -/
theorem inputs_runOn {c : Config} {inputs : List Input} (h : (c.runOn inputs).1 ≠ []) :
    (c.runOn inputs).1.map Library.Runs.Entry.input = inputs := by
  rw [Config.runOn] at h ⊢
  split
  · next r he => exact Library.Runs.execute_inputs he
  · next he =>
    rw [he] at h
    exact absurd rfl h

end Uvrrpd
