import Uvrrpd.Checksum
import Uvrrpd.Net

/-! Packets seen as a header followed by its addresses and authentication data,
and the two checksum routines specified over that view. -/
namespace Uvrrpd
open Library.Memory (bind_eq_ok)

@[simp] theorem ok_bind {α β : Type} (a : α) (f : α → Except Fault β) :
    (Except.ok a >>= f) = f a := rfl

@[simp] theorem error_bind {α β : Type} (e : Fault) (f : α → Except Fault β) :
    (Except.error e >>= f) = .error e := rfl

@[simp] theorem pure_eq_ok {α : Type} (a : α) : (pure a : Except Fault α) = .ok a := rfl

theorem exists_of_map_fst {α β : Type} {x : Except Fault (α × β)} {a : α}
    (h : x.map Prod.fst = .ok a) : ∃ b, x = .ok (a, b) := by
  cases x with
  | error e => cases h
  | ok r =>
    obtain rfl : r.1 = a := Except.ok.inj h
    exact ⟨r.2, rfl⟩

theorem load_eq_ok {mem out : Octets} {i n : Nat} :
    load mem i n = .ok out ↔ Library.Memory.read mem i n = some out := by
  rw [load]
  split <;> simp_all

theorem store_eq_ok {mem new out : Octets} {i : Nat} :
    store mem i new = .ok out ↔ Library.Memory.write mem i new = some out := by
  rw [store]
  split <;> simp_all

theorem load8_eq_ok {mem : Octets} {i : Nat} {b : UInt8} :
    load8 mem i = .ok b ↔ mem[i]? = some b := by
  rw [load8]
  split <;> simp_all

theorem load_middle (front mid back : Octets) {i n : Nat} (hi : i = front.length)
    (hn : n = mid.length) : load (front ++ (mid ++ back)) i n = .ok mid := by
  subst hi hn
  exact load_eq_ok.mpr (Library.Memory.read_middle front mid back)

theorem load_front (mem back : Octets) {n : Nat} (hn : n = mem.length) :
    load (mem ++ back) 0 n = .ok mem := load_middle [] mem back rfl hn

theorem store_middle (front mid back new : Octets) {i : Nat} (hi : i = front.length)
    (hn : new.length = mid.length) :
    store (front ++ (mid ++ back)) i new = .ok (front ++ (new ++ back)) := by
  subst hi
  exact store_eq_ok.mpr (Library.Memory.write_middle front mid back new hn)

def Vrrphdr.octets (h : Vrrphdr) : Octets :=
  [h.versionType, h.vrid, h.priority, h.naddr, h.authType, h.advInt, h.chksum₀, h.chksum₁]

def Vrrphdr.reset (h : Vrrphdr) : Vrrphdr := { h with chksum₀ := 0, chksum₁ := 0 }

def Vrrphdr.withChksum (h : Vrrphdr) (sum : Octets) : Vrrphdr :=
  { h with chksum₀ := sum.getD 0 0, chksum₁ := sum.getD 1 0 }

@[simp] theorem Vrrphdr.octets_length (h : Vrrphdr) : h.octets.length = 8 := rfl

@[simp] theorem Vrrphdr.reset_reset (h : Vrrphdr) : h.reset.reset = h.reset := rfl

/-- Eight octets are enough for a header. -/
theorem exists_hdr {mem : Octets} (h : 8 ≤ mem.length) :
    ∃ (hdr : Vrrphdr) (rest : Octets), mem = hdr.octets ++ rest := by
  match mem, h with
  | a :: b :: c :: d :: e :: f :: g :: i :: rest, _ => exact ⟨⟨a, b, c, d, e, f, g, i⟩, rest, rfl⟩

@[simp] theorem loadHdr_octets (hdr : Vrrphdr) (rest : Octets) :
    loadHdr (hdr.octets ++ rest) 0 = .ok hdr := rfl

theorem load16_chksum (host : ByteOrder) (hdr : Vrrphdr) (rest : Octets) :
    load16 host (hdr.octets ++ rest) 6 = .ok (word host hdr.chksum₀ hdr.chksum₁) := rfl

theorem store_chksum (hdr : Vrrphdr) (rest : Octets) (a b : UInt8) :
    store (hdr.octets ++ rest) 6 [a, b] =
      .ok ({ hdr with chksum₀ := a, chksum₁ := b }.octets ++ rest) :=
  store_middle [hdr.versionType, hdr.vrid, hdr.priority, hdr.naddr, hdr.authType, hdr.advInt]
    [hdr.chksum₀, hdr.chksum₁] rest [a, b] rfl rfl

theorem store_priority (hdr : Vrrphdr) (rest : Octets) (p : UInt8) :
    store (hdr.octets ++ rest) 2 [p] = .ok ({ hdr with priority := p }.octets ++ rest) :=
  store_middle [hdr.versionType, hdr.vrid] [hdr.priority]
    ([hdr.naddr, hdr.authType, hdr.advInt, hdr.chksum₀, hdr.chksum₁] ++ rest) [p] rfl rfl

/-- What is summed in front of the payload: nothing in version 2, the pseudo-header
of the address family in version 3. IPv6 uses it in every version. -/
def pseudo (family : Family) (version : VrrpVersion) (saddr daddr : Octets) (len : Nat) : Octets :=
  match family, version with
  | .inet, .rfc3768 => []
  | .inet, .rfc5798 => saddr ++ daddr ++ [0, IPPROTO_VRRP] ++ net16 len
  | .inet6, _ => saddr ++ daddr ++ ([0, 0] ++ net16 len) ++ [0, 0, 0, IPPROTO_VRRP]

/-- The addresses that the pseudo-header takes for the given arguments. -/
def Resolves (vnet : VrrpNet) (saddr daddr : Option IpxAddr) (s d : Octets) : Prop :=
  s.length = vnet.family.addrSize ∧ d.length = vnet.family.addrSize ∧
  match vnet.family with
  | .inet => ∃ iph, vnet.adv.ip = some iph ∧ load8 iph 9 = .ok IPPROTO_VRRP ∧
      addrOr saddr iph 12 = .ok s ∧ addrOr daddr iph 16 = .ok d
  | .inet6 => ip6Addrs vnet saddr daddr = .ok (s, d)

def packetChecksum (family : Family) (version : VrrpVersion) (s d : Octets) (len : Nat)
    (hdr : Vrrphdr) (rest : Octets) : Octets :=
  netChecksum (pseudo family version s d len ++ (hdr.reset.octets ++ rest).take len)

theorem advGetsize_congr {vnet vnet' : VrrpNet} (hf : vnet'.family = vnet.family)
    (hn : vnet'.naddr = vnet.naddr) : advGetsize vnet' = advGetsize vnet := by
  unfold advGetsize vrrpIp4Getsize vrrpIp6Getsize
  rw [hf, hn]

theorem advGetsize_lt (vnet : VrrpNet) : advGetsize vnet < 4096 := by
  have hn := vnet.naddr.toNat_lt
  rw [advGetsize]
  cases vnet.family <;>
    simp only [vrrpIp4Getsize, vrrpIp6Getsize, VRRP_PKTHDR_SIZE, VRRP_AUTH_SIZE] <;> omega

theorem getsize_even (vnet : VrrpNet) : ∃ k, advGetsize vnet = 2 * k ∧ k ≤ 2044 := by
  have hn := vnet.naddr.toNat_lt
  rw [advGetsize]
  cases vnet.family with
  | inet =>
    refine ⟨8 + vnet.naddr.toNat * 2, ?_, by omega⟩
    simp only [vrrpIp4Getsize, VRRP_PKTHDR_SIZE, VRRP_AUTH_SIZE]
    omega
  | inet6 =>
    refine ⟨4 + vnet.naddr.toNat * 8, ?_, by omega⟩
    simp only [vrrpIp6Getsize, VRRP_PKTHDR_SIZE]
    omega

/-- `cksum` over a pseudo-header and the payload copied behind it. -/
private theorem cksum_pseudo (host : ByteOrder) {psh body : Octets} {k m : Nat}
    (hp : psh.length = 2 * m) (hb : body.length = 2 * k) (hm : m ≤ 20) (hk : k ≤ 2044) :
    ∃ sum < 65536, cksum host (psh ++ body) (psh.length + 2 * k) = .ok sum ∧
      octets16 host sum = netChecksum (psh ++ body) := by
  have he : psh.length + 2 * k = 2 * (m + k) := by omega
  have hl : (psh ++ body).length = 2 * (m + k) := by rw [List.length_append]; omega
  obtain ⟨sum, hs, hc, ho⟩ := cksum_spec host (k := m + k) (by omega) (le_of_eq hl.symm)
  refine ⟨sum, hs, by rw [he]; exact hc, ?_⟩
  rwa [← hl, List.take_length] at ho

/-- On a little-endian host the length stands in the first half of its 32-bit
member instead of the second; the sum of the words is the same. -/
private theorem wordSum_octets32 (host : ByteOrder) (len : Nat) (ys : Octets) :
    wordSum .big (octets32 host (htons host len) ++ ys) =
      wordSum .big (net16 len) + wordSum .big ys := by
  have hz : wordSum .big [0, 0] = 0 := rfl
  cases host with
  | little =>
    have hh : htons .little len < 65536 :=
      Library.OnesComplement.swap_lt (c := 256) (Nat.mod_lt _ (by decide))
    have he : octets32 .little (htons .little len) = net16 len ++ [0, 0] := by
      rw [octets32, Nat.mod_eq_of_lt hh, Nat.div_eq_of_lt hh, octets16_htons]
      rfl
    rw [he, List.append_assoc, wordSum_append (k := 1) (octets16_length _ _),
      wordSum_append (k := 1) rfl, hz, Nat.zero_add]
  | big =>
    have hh : htons .big len < 65536 := Nat.mod_lt _ (by decide)
    have he : octets32 .big (htons .big len) = [0, 0] ++ net16 len := by
      rw [octets32, Nat.mod_eq_of_lt hh, Nat.div_eq_of_lt hh, octets16_htons]
      rfl
    rw [he, List.append_assoc, wordSum_append (k := 1) rfl,
      wordSum_append (k := 1) (octets16_length _ _), hz, Nat.zero_add]

private theorem netChecksum_pshdrIp6 (host : ByteOrder) {s d : Octets} (hs : s.length = 16)
    (hd : d.length = 16) (next : UInt8) (len : Nat) (body : Octets) :
    netChecksum (pshdrIp6 host s d next len ++ body) =
      netChecksum (s ++ d ++ ([0, 0] ++ net16 len) ++ [0, 0, 0, next] ++ body) := by
  have hsd : (s ++ d).length = 2 * 16 := by rw [List.length_append]; omega
  have hr : wordSum .big ([0, 0] ++ (net16 len ++ ([0, 0, 0, next] ++ body))) =
      wordSum .big (net16 len) + wordSum .big ([0, 0, 0, next] ++ body) := by
    have hz : wordSum .big [0, 0] = 0 := rfl
    rw [wordSum_append (k := 1) rfl, wordSum_append (k := 1) (octets16_length _ _), hz, Nat.zero_add]
  unfold pshdrIp6 netChecksum
  generalize s ++ d = x at hsd
  simp only [List.append_assoc x]
  rw [wordSum_append hsd, wordSum_append hsd]
  simp only [List.append_assoc]
  rw [wordSum_octets32, hr]

/-- `cksum` over the pseudo-header of IPv6, whichever byte order the host has. -/
theorem cksum_pshdrIp6 (host : ByteOrder) {s d body : Octets} {k : Nat} (hs : s.length = 16) (hd : d.length = 16)
    (next : UInt8) (hb : body.length = 2 * k) (hk : k ≤ 2044) :
    ∃ sum < 65536, cksum host (pshdrIp6 host s d next (2 * k) ++ body)
        ((pshdrIp6 host s d next (2 * k)).length + 2 * k) = .ok sum ∧
      octets16 host sum = netChecksum (s ++ d ++ ([0, 0] ++ net16 (2 * k)) ++ [0, 0, 0, next] ++ body) := by
  have hp : (pshdrIp6 host s d next (2 * k)).length = 2 * 20 := by
    cases host <;> simp [pshdrIp6, octets32, hs, hd]
  obtain ⟨sum, hlt, hc, ho⟩ := cksum_pseudo host hp hb (by omega) hk
  exact ⟨sum, hlt, hc, by rw [ho, netChecksum_pshdrIp6 host hs hd]⟩

/-- The checksum routine on a packet that is long enough: it resets the field and
returns the checksum of the local payload size. -/
theorem advChecksum_spec (host : ByteOrder) (hdr : Vrrphdr) (rest : Octets) {vnet : VrrpNet}
    {version : VrrpVersion} {saddr daddr : Option IpxAddr} {s d : Octets}
    (hv : hdr.versionType >>> 4 = version.code) (ha : Resolves vnet saddr daddr s d)
    (hlen : advGetsize vnet ≤ 8 + rest.length) :
    ∃ sum < 65536,
      advChecksum host vnet (hdr.octets ++ rest) saddr daddr = .ok (sum, hdr.reset.octets ++ rest) ∧
      octets16 host sum =
        packetChecksum vnet.family version s d (advGetsize vnet) hdr rest := by
  obtain ⟨hs, hd, ha⟩ := ha
  obtain ⟨k, hk, hk'⟩ := getsize_even vnet
  have hst : store (hdr.octets ++ rest) 6 [0, 0] = .ok (hdr.reset.octets ++ rest) :=
    store_chksum hdr rest 0 0
  have hvt : load8 (hdr.reset.octets ++ rest) 0 = .ok hdr.versionType := rfl
  have hbl : ((hdr.reset.octets ++ rest).take (2 * k)).length = 2 * k := by
    rw [List.length_take, List.length_append, Vrrphdr.octets_length]
    omega
  have hbody : load (hdr.reset.octets ++ rest) 0 (2 * k) =
      .ok ((hdr.reset.octets ++ rest).take (2 * k)) := by
    have h := load_front ((hdr.reset.octets ++ rest).take (2 * k))
      ((hdr.reset.octets ++ rest).drop (2 * k)) hbl.symm
    rwa [List.take_append_drop] at h
  rw [packetChecksum, advChecksum]
  cases hf : vnet.family with
  | inet =>
    have hg : vrrpIp4Getsize vnet = 2 * k := by simpa [advGetsize, hf] using hk
    simp only [hf, Family.addrSize] at hs hd ha
    obtain ⟨iph, hip, hproto, hsa, hda⟩ := ha
    cases version with
    | rfc3768 =>
      have hml : 2 * k ≤ (hdr.reset.octets ++ rest).length := by
        rw [List.length_append, Vrrphdr.octets_length]
        omega
      obtain ⟨sum, hlt, hc, ho⟩ := cksum_spec host (k := k) (by omega) hml
      refine ⟨sum, hlt, ?_, by rw [hk]; simpa [pseudo] using ho⟩
      simp only [vrrpIp4Chksum, hst, ok_bind, hvt, hv, if_true, hg, hc, pure_eq_ok]
    | rfc5798 =>
      have hp : (pshdrIp4 host s d IPPROTO_VRRP (2 * k)).length = 2 * 6 := by
        simp [pshdrIp4, hs, hd]
      obtain ⟨sum, hlt, hc, ho⟩ := cksum_pseudo host hp hbl (by omega) hk'
      refine ⟨sum, hlt, ?_, ?_⟩
      · have hne : ¬ VrrpVersion.rfc5798.code = VrrpVersion.rfc3768.code := by decide
        simp only [vrrpIp4Chksum, hst, ok_bind, hvt, hv, hne, if_false, if_true, hip, deref, hsa, hda,
          hproto, hg, hbody, hc, pure_eq_ok]
      · rw [hk, ho]
        simp [pseudo, pshdrIp4]
  | inet6 =>
    have hg : vrrpIp6Getsize vnet = 2 * k := by simpa [advGetsize, hf] using hk
    simp only [hf, Family.addrSize] at hs hd ha
    obtain ⟨sum, hlt, hc, ho⟩ := cksum_pshdrIp6 host hs hd IPPROTO_VRRP hbl hk'
    refine ⟨sum, hlt, ?_, ?_⟩
    · simp only [vrrpIp6Chksum, hst, ok_bind, ha, hg, hbody, hc, pure_eq_ok]
    · rw [hk, ho]
      cases version <;> rfl

/-- Rewriting the checksum of the own packet. -/
theorem chksumUpdate_spec (host : ByteOrder) (hdr : Vrrphdr) (rest : Octets) {vnet : VrrpNet}
    {version : VrrpVersion} {s d : Octets} (hv : hdr.versionType >>> 4 = version.code)
    (ha : Resolves vnet none none s d) (hlen : advGetsize vnet ≤ 8 + rest.length) :
    chksumUpdate host vnet (hdr.octets ++ rest) =
      .ok ((hdr.withChksum (packetChecksum vnet.family version s d (advGetsize vnet) hdr rest)).octets
        ++ rest) := by
  obtain ⟨sum, hlt, hc, ho⟩ := advChecksum_spec host hdr rest hv ha hlen
  obtain ⟨a, b, hab, -⟩ := exists_octets16 host hlt
  simp only [chksumUpdate, hc, ok_bind, ← ho, hab]
  exact store_chksum hdr.reset rest a b

end Uvrrpd
