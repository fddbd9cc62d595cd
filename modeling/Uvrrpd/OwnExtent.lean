import Uvrrpd.Lengths
import Uvrrpd.WireFormat

/-! The checksum test against the extent of the packet itself. The receiver sums as
many octets as an advertisement of its own has, and puts that length into the
pseudo-header, so another count of addresses is judged over other octets than the
sender has summed. -/
namespace Uvrrpd
open Library.Memory (bind_eq_ok)
open Library.Runs

namespace Datagram

def payload (family : Family) (g : Datagram) : Octets :=
  match family with
  | .inet => g.octets.drop (headerLength g.octets)
  | .inet6 => g.octets

def source (family : Family) (g : Datagram) : Octets :=
  match family with
  | .inet => (g.octets.drop 12).take 4
  | .inet6 => g.saddr6.toList

def dest (family : Family) (g : Datagram) : Octets :=
  match family with
  | .inet => (g.octets.drop 16).take 4
  | .inet6 => (g.pktinfo.map List.Vector.toList).getD []

/-- The receive buffer from the VRRP part on: behind the datagram stands what the
stack held before. -/
def memory (family : Family) (g : Datagram) (stack : Octets) : Octets :=
  g.payload family ++ stack.drop g.octets.length

end Datagram

def VrrpVersion.authSize : VrrpVersion → Nat
  | .rfc3768 => VRRP_AUTH_SIZE
  | .rfc5798 => 0

/-- A complete advertisement: the header, as many addresses as it says, in version 2
the authentication data, and the checksum of just these octets. -/
structure Complete (version : VrrpVersion) (family : Family) (g : Datagram) (hdr : Vrrphdr)
    (rest : Octets) : Prop where
  payload : g.payload family = hdr.octets ++ rest
  nibble : hdr.versionType >>> 4 = version.code
  extent : rest.length = hdr.naddr.toNat * family.addrSize + version.authSize
  checksum : [hdr.chksum₀, hdr.chksum₁] =
    rfcChecksum version family (g.source family) (g.dest family) (hdr.reset.octets ++ rest)

/-- What the receiver sums and the sender has not: its own pseudo-header, and the
octets behind the packet up to the local size. -/
def excess (d : Daemon) (g : Datagram) (stack : Octets) : Nat :=
  wordSum .big (pseudo d.vnet.family d.vrrp.version
      (takenAddr d.vnet.family (d.vnet.vif.ipx.octets d.vnet.family) (g.source d.vnet.family))
      (takenAddr d.vnet.family (vrrpGroup d.vnet.family) (g.dest d.vnet.family)) (advGetsize d.vnet)) +
    wordSum .big (((g.memory d.vnet.family stack).take (advGetsize d.vnet)).drop
      (g.payload d.vnet.family).length)

/-- What the sender has summed and the receiver does not: the pseudo-header of the
RFC, and the octets of the packet behind the local size. -/
def lack (d : Daemon) (g : Datagram) : Nat :=
  wordSum .big (rfcPseudo d.vrrp.version d.vnet.family (g.source d.vnet.family) (g.dest d.vnet.family)
      (g.payload d.vnet.family).length) +
    wordSum .big ((g.payload d.vnet.family).drop (advGetsize d.vnet))

def Balances (d : Daemon) (g : Datagram) (stack : Octets) : Prop :=
  excess d g stack ≡ lack d g [MOD 65535]

instance (d : Daemon) (g : Datagram) (stack : Octets) : Decidable (Balances d g stack) :=
  inferInstanceAs (Decidable (_ % _ = _ % _))

/-- Resetting the checksum field is not seen behind the header. -/
private theorem drop_reset (hdr : Vrrphdr) (rest : Octets) {a : Nat} (ha : 8 ≤ a) (b : Nat) :
    ((hdr.reset.octets ++ rest).take b).drop a = ((hdr.octets ++ rest).take b).drop a := by
  have hskip (hdr : Vrrphdr) : (hdr.octets ++ rest).drop a = rest.drop (a - 8) := by
    rw [List.drop_append, Vrrphdr.octets_length, List.drop_eq_nil_of_le (by rw [Vrrphdr.octets_length]; exact ha),
      List.nil_append]
  rw [List.drop_take, List.drop_take, hskip, hskip]

/-- A header is not all zero. -/
private theorem wordSum_hdr_ne_zero {hdr : Vrrphdr} {version : VrrpVersion}
    (hv : hdr.versionType >>> 4 = version.code) {front : Octets} {k : Nat} (hf : front.length = 2 * k)
    (rest : Octets) : wordSum .big (front ++ (hdr.reset.octets ++ rest)) ≠ 0 := by
  have hne : hdr.versionType.toNat ≠ 0 := by
    intro h
    rw [UInt8.toNat_inj.mp (show hdr.versionType.toNat = (0 : UInt8).toNat from h)] at hv
    cases version <;> exact absurd hv (by decide)
  rw [wordSum_append hf]
  have hpos : 0 < wordSum .big (hdr.reset.octets ++ rest) := by
    simp only [Vrrphdr.octets, Vrrphdr.reset, List.cons_append, wordSum, word]
    omega
  omega

private theorem pseudo_even {family : Family} (version : VrrpVersion) {s t : Octets}
    (hs : s.length = family.addrSize) (ht : t.length = family.addrSize) (len : Nat) :
    ∃ k, (pseudo family version s t len).length = 2 * k := by
  cases family with
  | inet =>
    cases version with
    | rfc3768 => exact ⟨0, rfl⟩
    | rfc5798 => exact ⟨6, by simp [pseudo, hs, ht, Family.addrSize]⟩
  | inet6 => exact ⟨20, by simp [pseudo, hs, ht, Family.addrSize]⟩

private theorem rfcPseudo_even {family : Family} (version : VrrpVersion) {s t : Octets}
    (hs : s.length = family.addrSize) (ht : t.length = family.addrSize) (len : Nat) :
    ∃ k, (rfcPseudo version family s t len).length = 2 * k := by
  cases version with
  | rfc3768 => exact ⟨0, by cases family <;> rfl⟩
  | rfc5798 =>
    cases family with
    | inet => exact ⟨6, by simp [rfcPseudo, hs, ht, Family.addrSize]⟩
    | inet6 => exact ⟨20, by simp [rfcPseudo, hs, ht, Family.addrSize]⟩

/-- What is common to both sums cancels. -/
private theorem modEq_rearrange {n a b x y p q : Nat} (h : a + y = b + x) :
    p + a ≡ q + b [MOD n] ↔ p + x ≡ q + y [MOD n] := by
  have hp : p + a + y = p + x + b := by omega
  constructor
  · intro hmod
    have hy := hmod.add_right y
    rw [hp, Nat.add_right_comm q b y] at hy
    exact hy.add_right_cancel' b
  · intro hmod
    have hb := hmod.add_right b
    rw [← hp, Nat.add_right_comm q y b] at hb
    exact hb.add_right_cancel' y

private theorem header_le_getsize (vnet : VrrpNet) : 8 ≤ advGetsize vnet := by
  rw [advGetsize]
  cases vnet.family <;> simp only [vrrpIp4Getsize, vrrpIp6Getsize, VRRP_PKTHDR_SIZE] <;> omega

private theorem Complete.even {version : VrrpVersion} {family : Family} {g : Datagram} {hdr : Vrrphdr}
    {rest : Octets} (hc : Complete version family g hdr rest) :
    ∃ l, (hdr.reset.octets ++ rest).length = 2 * l ∧ 4 ≤ l := by
  have hext := hc.extent
  rw [List.length_append, Vrrphdr.octets_length]
  refine ⟨(8 + rest.length) / 2, ?_, by omega⟩
  cases family <;> cases version <;>
    simp only [Family.addrSize, VrrpVersion.authSize, VRRP_AUTH_SIZE] at hext <;> omega

/-- The two extents of a packet in memory: each is the other but for what stands
between their ends, whether the checksum field is reset or not. -/
private theorem Complete.extents {version : VrrpVersion} {vnet : VrrpNet} {g : Datagram} {hdr : Vrrphdr}
    {rest stack more : Octets} (hc : Complete version vnet.family g hdr rest)
    (hmem : g.memory vnet.family stack = hdr.octets ++ (rest ++ more))
    (hroom : advGetsize vnet ≤ 8 + (rest ++ more).length) :
    wordSum .big ((hdr.reset.octets ++ (rest ++ more)).take (advGetsize vnet)) +
        wordSum .big ((g.payload vnet.family).drop (advGetsize vnet)) =
      wordSum .big (hdr.reset.octets ++ rest) +
        wordSum .big (((g.memory vnet.family stack).take (advGetsize vnet)).drop
          (g.payload vnet.family).length) := by
  obtain ⟨k, hk, -⟩ := getsize_even vnet
  obtain ⟨l, hl, hl4⟩ := hc.even
  have hg8 := header_le_getsize vnet
  have hpay : (g.payload vnet.family).length = 2 * l := by
    rw [hc.payload, ← hl, List.length_append, List.length_append]
    rfl
  have hown : (hdr.reset.octets ++ (rest ++ more)).take (2 * l) = hdr.reset.octets ++ rest := by
    rw [← List.append_assoc]
    exact List.take_left' hl
  have hover : ((hdr.reset.octets ++ (rest ++ more)).take (2 * k)).drop (2 * l) =
      ((g.memory vnet.family stack).take (advGetsize vnet)).drop (g.payload vnet.family).length := by
    rw [drop_reset _ _ (by omega), hmem, hk, hpay]
  have hunder : ((hdr.reset.octets ++ (rest ++ more)).take (2 * l)).drop (2 * k) =
      (g.payload vnet.family).drop (advGetsize vnet) := by
    rw [drop_reset _ _ (by omega), hk, ← List.append_assoc, ← hc.payload, List.take_left' hpay]
  have hsums := wordSum_extents (hdr.reset.octets ++ (rest ++ more)) (a := k) (b := l)
    (by rw [List.length_append, Vrrphdr.octets_length, ← hk]; exact hroom)
    (by rw [← hl, List.length_append, List.length_append, List.length_append]; omega)
  rwa [hover, hunder, hown, ← hk] at hsums

/-- A complete advertisement passes the checksum test exactly when what the two sides
sum differently makes no difference. -/
private theorem verifies_iff_balances (host : ByteOrder) {d : Daemon} (hown : OwnHeader d.vnet) {g : Datagram}
    {hdr : Vrrphdr} {rest stack : Octets} (hc : Complete d.vrrp.version d.vnet.family g hdr rest)
    (hroom : advGetsize d.vnet ≤ (g.memory d.vnet.family stack).length) {s t : IpxAddr}
    (hs : s.octets d.vnet.family = g.source d.vnet.family)
    (ht : t.octets d.vnet.family = g.dest d.vnet.family) :
    Verifies host d.vnet (g.memory d.vnet.family stack) (some s) (some t) ↔ Balances d g stack := by
  obtain ⟨more, hmore⟩ : ∃ more, more = stack.drop g.octets.length := ⟨_, rfl⟩
  have hmem : g.memory d.vnet.family stack = hdr.octets ++ (rest ++ more) := by
    rw [Datagram.memory, hc.payload, hmore, List.append_assoc]
  have hlen : (hdr.reset.octets ++ rest).length = (g.payload d.vnet.family).length := by
    rw [hc.payload, List.length_append, List.length_append]
    rfl
  have hres := hown.resolves_taken s t
  rw [hs, ht] at hres
  rw [hmem, List.length_append, Vrrphdr.octets_length] at hroom
  have hsums := hc.extents hmem hroom
  obtain ⟨kp, hp⟩ := pseudo_even d.vrrp.version hres.1 hres.2.1 (advGetsize d.vnet)
  have hsrc : (g.source d.vnet.family).length = d.vnet.family.addrSize := by
    rw [← hs]
    exact IpxAddr.octets_length _ _
  have hdst : (g.dest d.vnet.family).length = d.vnet.family.addrSize := by
    rw [← ht]
    exact IpxAddr.octets_length _ _
  obtain ⟨kr, hr⟩ := rfcPseudo_even d.vrrp.version hsrc hdst (g.payload d.vnet.family).length
  have hnil : wordSum .big (pseudo d.vnet.family d.vrrp.version
      (takenAddr d.vnet.family (d.vnet.vif.ipx.octets d.vnet.family) (g.source d.vnet.family))
      (takenAddr d.vnet.family (vrrpGroup d.vnet.family) (g.dest d.vnet.family)) (advGetsize d.vnet) ++
      (hdr.reset.octets ++ (rest ++ more)).take (advGetsize d.vnet)) ≠ 0 := by
    rw [List.take_append, List.take_of_length_le (header_le_getsize d.vnet)]
    exact wordSum_hdr_ne_zero hc.nibble hp _
  rw [hmem, verifies_iff host hdr (rest ++ more) hc.nibble hres hroom, hc.checksum, rfcChecksum,
    packetChecksum, eq_comm, hlen, netChecksum_eq_iff hnil (wordSum_hdr_ne_zero hc.nibble hr _),
    wordSum_append hp, wordSum_append hr, modEq_rearrange hsums]
  rfl

/-- What the system call leaves in the buffer, and the addresses that go with it. -/
theorem LengthsPass.memory {host : ByteOrder} {vnet : VrrpNet} {g : Datagram} {stack : Octets}
    (h : LengthsPass host vnet (some g) stack) (hk : FromKernel vnet.family g.octets) :
    ∃ r len, pktReceive host vnet.family (some g) vnet.pkt stack = .ok r ∧ r.len = some len ∧
      ¬ ((len : Int) > vnet.vif.mtu ∨ len < advGetsize vnet) ∧
      ¬ (payloadSize r.recv.header < VRRP_PKT_MINSIZE ∨ payloadSize r.recv.header > VRRP_PKT_MAXSIZE) ∧
      r.buf.drop r.payloadPos = g.memory vnet.family stack ∧
      r.recv.sIpx.octets vnet.family = g.source vnet.family ∧
      r.recv.dIpx.octets vnet.family = g.dest vnet.family ∧ g.octets.length ≤ IP_MAXPACKET ∧
      headerLength g.octets ≤ 60 := by
  have hihl : headerLength g.octets ≤ 60 := by rw [headerLength]; omega
  obtain ⟨r, len, hr, hlen, hfit, hsize⟩ := h
  refine ⟨r, len, hr, hlen, hfit, hsize, ?_⟩
  cases hf : vnet.family with
  | inet =>
    rw [hf] at hr hk
    obtain ⟨r₀, hr₀, -, hbuf, hpos, -, hs, hd⟩ := pktReceive_ip4 host hk vnet.pkt
    obtain ⟨more, hmore⟩ := pktReceive_extend hr₀ stack
    rw [List.nil_append] at hmore
    obtain rfl := Except.ok.inj (hmore.symm.trans hr)
    have hword := word_lt .big (g.octets.getD 2 0) (g.octets.getD 3 0)
    have hle : g.octets.length ≤ IP_MAXPACKET := by rw [IP_MAXPACKET]; have := hk.1; omega
    have hrest : more = stack.drop g.octets.length := by
      have hfill := pktReceive_buf hr
      rw [received, fill, List.take_of_length_le hle, hbuf] at hfill
      exact List.append_cancel_left hfill
    refine ⟨?_, hs, hd, hle, hihl⟩
    simp only [hbuf, hpos, hrest]
    exact List.drop_append_of_le_length hk.2.2
  | inet6 =>
    rw [hf] at hr
    obtain ⟨octets, saddr6, hoplimit, pktinfo⟩ := g
    obtain rfl := Except.ok.inj hr
    cases hoplimit with
    | none => simp [vrrpIp6Recv] at hlen
    | some ttl =>
      cases pktinfo with
      | none => simp [vrrpIp6Recv] at hlen
      | some daddr6 =>
        simp only [vrrpIp6Recv, payloadSize, VRRP_PKT_MAXSIZE, VRRP_PKTHDR_SIZE, VIP_MAX, VRRP_AUTH_SIZE,
          List.length_take] at hsize
        have hle : octets.length ≤ IP_MAXPACKET := by
          rw [IP_MAXPACKET] at hsize ⊢
          omega
        refine ⟨?_, rfl, rfl, hle, hihl⟩
        simp only [vrrpIp6Recv, Datagram.memory, Datagram.payload, fill, List.drop_zero,
          List.take_of_length_le hle]

/-- Another list of addresses is no obstacle in version 3, or from the owner. -/
private theorem checkVips_exempt {vnet : VrrpNet} {vrrp : Vrrp} {hdr : Vrrphdr} {pkt : Octets}
    (hex : vrrp.version = .rfc5798 ∨ hdr.priority = PRIO_OWNER) (hcmp : ∃ n, vipCompare vnet pkt = .ok n) :
    checkVips vnet vrrp hdr pkt = .ok true := by
  obtain ⟨n, hn⟩ := hcmp
  obtain ⟨differs, hdiff⟩ : ∃ differs, vipsDiffer vnet vrrp hdr pkt = .ok differs := by
    rw [vipsDiffer, hn]
    split
    · exact ⟨_, rfl⟩
    · exact ⟨_, rfl⟩
  rw [checkVips, hdiff, ok_bind, pure_eq_ok]
  rcases hex with hv | ho
  · simp [hv]
  · simp [ho]

/-- When every other check passes, the checksum test decides. -/
theorem vrrpNetRecv_verifies {host : ByteOrder} {d : Daemon} (hown : OwnHeader d.vnet)
    {sock : Option Datagram} {stack : Octets} {r : Received} {len : Nat}
    (hr : pktReceive host d.vnet.family sock d.vnet.pkt stack = .ok r) (hlen : r.len = some len)
    (hfit : ¬ ((len : Int) > d.vnet.vif.mtu ∨ len < advGetsize d.vnet))
    (hsize : ¬ (payloadSize r.recv.header < VRRP_PKT_MINSIZE ∨
      payloadSize r.recv.header > VRRP_PKT_MAXSIZE)) {hdr : Vrrphdr} {rest : Octets}
    (hpkt : r.buf.drop r.payloadPos = hdr.octets ++ rest) (hroom : advGetsize d.vnet ≤ 8 + rest.length)
    (hheader : checkHeader d.vrrp r.recv.header hdr = none)
    (hcontent : checkContent d.vnet d.vrrp hdr (hdr.octets ++ rest) = .ok true) :
    (∃ vnet, vrrpNetRecv host d.vnet d.vrrp sock stack = .ok (.pkt, vnet)) ↔
      Verifies host d.vnet (hdr.octets ++ rest) (some r.recv.sIpx) (some r.recv.dIpx) := by
  obtain ⟨s, t, hres⟩ := hown.resolves_any r.recv.sIpx r.recv.dIpx
  obtain ⟨sum, -, hsum, -⟩ := advChecksum_spec host hdr rest (checkHeader_none hheader).2.1 hres hroom
  obtain ⟨vnet', hvnet'⟩ : ∃ v, v = vrrpNetInvalidateBuffer { d.vnet with pkt := r.recv } := ⟨_, rfl⟩
  have hheader' : checkHeader d.vrrp vnet'.pkt.header hdr = none := by rw [hvnet']; exact hheader
  have hcontent' : checkContent vnet' d.vrrp hdr (hdr.octets ++ rest) = .ok true := by
    rw [hvnet']
    exact hcontent
  have hsum' : advChecksum host vnet' (hdr.octets ++ rest) (some vnet'.pkt.sIpx) (some vnet'.pkt.dIpx) =
      .ok (sum, hdr.reset.octets ++ rest) := by
    rw [hvnet']
    exact hsum
  have hcheck := checkPacket_eq host vnet' d.vrrp hdr rest
  simp only [hheader', hsum', ok_bind, hcontent', pure_eq_ok, if_true] at hcheck
  rw [vrrpNetRecv_checked d.vrrp hr hlen hfit hsize, hpkt, ← hvnet', hcheck, Verifies, load16_chksum]
  by_cases hsame : sum = word host hdr.chksum₀ hdr.chksum₁
  · rw [if_neg (not_not.mpr hsame)]
    exact iff_of_true ⟨_, rfl⟩ ⟨sum, _, hsum, by rw [hsame]⟩
  · rw [if_pos hsame]
    apply iff_of_false
    · rintro ⟨vnet, h⟩
      simp at h
    · rintro ⟨sum', pkt', hc, hload⟩
      obtain ⟨rfl, -⟩ := Prod.mk.inj (Except.ok.inj (hsum.symm.trans hc))
      exact hsame (Except.ok.inj hload).symm

/-- The checksum test judges a complete advertisement, of a length that has passed,
as its sender has meant it exactly when the local extent balances the packet's own;
and with it stands and falls the acceptance of what the later checks exempt from
having the local list of addresses. -/
theorem checksum_own_extent_iff {host : ByteOrder} {c : Config} {fresh : Fresh}
    {h : List (Entry Daemon Input Output)} {d : Daemon} (run : History host c fresh h d) {g : Datagram}
    (hk : FromKernel c.family g.octets) {hdr : Vrrphdr} {rest : Octets}
    (hc : Complete c.version c.family g hdr rest) (stack : List.Vector UInt8 IP_MAXPACKET)
    (hpass : LengthsPass host d.vnet (some g) stack.toList) :
    ∃ r, pktReceive host d.vnet.family (some g) d.vnet.pkt stack.toList = .ok r ∧
      (Verifies host d.vnet (r.buf.drop r.payloadPos) (some r.recv.sIpx) (some r.recv.dIpx) ↔
        Balances d g stack.toList) ∧
      (c.version = .rfc5798 ∨ hdr.priority = PRIO_OWNER →
        checkHeader d.vrrp r.recv.header hdr = none → d.vrrp.priority ≠ PRIO_OWNER →
        checkAuth d.vrrp hdr (r.buf.drop r.payloadPos) = .ok true → checkAdvInt d.vrrp hdr = true →
        ((∃ vnet, vrrpNetRecv host d.vnet d.vrrp (some g) stack.toList = .ok (.pkt, vnet)) ↔
          Balances d g stack.toList)) := by
  have hcfg := run.configured
  have hown := run.ready.own
  rw [← hcfg.version, ← hcfg.family] at hc
  obtain ⟨r, len, hr, hlen, hfit, hsize, hmem, hs, ht, hmax, hihl⟩ :=
    hpass.memory (by rw [hcfg.family]; exact hk)
  have hlong : IP_MAXPACKET ≤ (g.memory d.vnet.family stack.toList).length + 60 := by
    rw [Datagram.memory, List.length_append, List.length_drop, stack.toList_length]
    cases d.vnet.family with
    | inet =>
      simp only [Datagram.payload, List.length_drop]
      omega
    | inet6 =>
      simp only [Datagram.payload]
      omega
  have hroom : advGetsize d.vnet ≤ (g.memory d.vnet.family stack.toList).length := by
    have hlt := advGetsize_lt d.vnet
    have hpacket : IP_MAXPACKET = 65535 := rfl
    omega
  have hiff := verifies_iff_balances host hown hc hroom hs ht
  refine ⟨r, hr, by rw [hmem]; exact hiff, ?_⟩
  intro hex hheader howner hauth hadv
  obtain ⟨more, hmore⟩ : ∃ more, g.memory d.vnet.family stack.toList = hdr.octets ++ more := by
    rw [Datagram.memory, hc.payload, List.append_assoc]
    exact ⟨_, rfl⟩
  have hvips := checkVips_exempt (by rw [hcfg.version]; exact hex) (vipCompare_ok run.ready.pos hroom)
  rw [hmem] at hauth
  have hcontent : checkContent d.vnet d.vrrp hdr (g.memory d.vnet.family stack.toList) = .ok true := by
    simp only [checkContent, if_neg howner, hauth, hvips, hadv, ok_bind, pure_eq_ok]
    rfl
  rw [hmore] at hcontent hmem hroom
  rw [← hiff, hmore]
  apply vrrpNetRecv_verifies hown hr hlen hfit hsize hmem ?_ hheader hcontent
  rw [List.length_append, Vrrphdr.octets_length] at hroom
  exact hroom

/-- There is no difference when the packet has the local size, and in version 3 no
address is taken from the own header. -/
private theorem balances_of_size {d : Daemon} {g : Datagram} (stack : Octets)
    (hv : d.vrrp.version = .rfc3768 → d.vnet.family = .inet)
    (hz : d.vrrp.version = .rfc5798 → g.source d.vnet.family ≠ IpxAddr.zero.octets .inet ∧
      g.dest d.vnet.family ≠ IpxAddr.zero.octets .inet)
    (hsize : (g.payload d.vnet.family).length = advGetsize d.vnet) : Balances d g stack := by
  have hlt := advGetsize_lt d.vnet
  have hover : ((g.memory d.vnet.family stack).take (advGetsize d.vnet)).drop (advGetsize d.vnet) = [] :=
    List.drop_eq_nil_of_le (List.length_take_le _ _)
  have hunder : (g.payload d.vnet.family).drop (advGetsize d.vnet) = [] :=
    List.drop_eq_nil_of_le hsize.le
  rw [Balances, excess, lack, hsize, hover, hunder, pseudo_eq_rfc hv _ _ (by omega)]
  cases hver : d.vrrp.version with
  | rfc3768 => exact .refl _
  | rfc5798 =>
    obtain ⟨hs, ht⟩ := hz hver
    rw [takenAddr, takenAddr, if_neg (fun h => hs h.2), if_neg (fun h => ht h.2)]

/-- The tests of the length on an IPv4 datagram. -/
private theorem lengthsPass_ip4 (host : ByteOrder) (vnet : VrrpNet) {g : Datagram} (hf : vnet.family = .inet)
    (hk : FromKernel .inet g.octets) (hmtu : (g.octets.length : Int) ≤ vnet.vif.mtu)
    (hg : advGetsize vnet ≤ g.octets.length)
    (hmin : VRRP_PKT_MINSIZE ≤ g.octets.length - headerLength g.octets)
    (hmax : g.octets.length - headerLength g.octets ≤ VRRP_PKT_MAXSIZE) (stack : Octets) :
    LengthsPass host vnet (some g) stack := by
  obtain ⟨r, hr, hlen, -, -, hheader, -⟩ := pktReceive_ip4 host hk vnet.pkt
  obtain ⟨more, hmore⟩ := pktReceive_extend hr stack
  rw [List.nil_append, ← hf] at hmore
  have hword := word_lt .big (g.octets.getD 2 0) (g.octets.getD 3 0)
  have hsize : payloadSize r.recv.header = g.octets.length - headerLength g.octets := by
    rw [hheader]
    exact payloadSize_eq hk.2.2 (by have := hk.1; omega)
  refine ⟨_, _, hmore, hlen, by omega, ?_⟩
  simp only [hsize]
  omega

def foreign : Datagram :=
  { stunted with octets := [0x45, 0, 0, 40, 0, 0, 0, 0, 255, 112, 0, 0, 192, 0, 2, 2, 224, 0, 0, 18,
      0x21, 7, 255, 1, 0, 1, 0x1d, 0xa8, 192, 0, 2, 77, 0, 0, 0, 0, 0, 0, 0, 0] }

theorem checksum_own_extent_foreign : ∃ r,
    pktReceive .little waiting.vnet.family (some foreign) waiting.vnet.pkt
      (List.Vector.replicate IP_MAXPACKET 0).toList = .ok r ∧
    Verifies .little waiting.vnet (r.buf.drop r.payloadPos) (some r.recv.sIpx) (some r.recv.dIpx) := by
  have run : History .little lab (.filled 0) _ waiting := history_runOn (.inl rfl) [.quiet ⟨1, 0⟩]
  have hk : FromKernel lab.family foreign.octets := by decide
  have hc : Complete lab.version lab.family foreign ⟨0x21, 7, 255, 1, 0, 1, 0x1d, 0xa8⟩
      [192, 0, 2, 77, 0, 0, 0, 0, 0, 0, 0, 0] := ⟨by decide, by decide, by decide, by decide⟩
  have hpass := lengthsPass_ip4 .little waiting.vnet (by decide +kernel) hk (by decide +kernel)
    (by decide +kernel) (by decide) (by decide) (List.Vector.replicate IP_MAXPACKET 0).toList
  obtain ⟨r, hr, hiff, -⟩ := checksum_own_extent_iff run hk hc (.replicate IP_MAXPACKET 0) hpass
  exact ⟨r, hr, hiff.mpr (balances_of_size _ (by decide +kernel) (by decide +kernel) (by decide +kernel))⟩

def fourfold : Datagram :=
  { stunted with octets := [0x45, 0, 0, 52, 0, 0, 0, 0, 255, 112, 0, 0, 192, 0, 2, 2, 224, 0, 0, 18,
      0x21, 7, 255, 4, 0, 1, 0xd7, 0xc1, 192, 0, 2, 10, 192, 0, 2, 11, 192, 0, 2, 12, 192, 0, 2, 13,
      0, 0, 0, 0, 0, 0, 0, 0] }

private theorem fourfold_complete : Complete lab.version lab.family fourfold
    ⟨0x21, 7, 255, 4, 0, 1, 0xd7, 0xc1⟩
    [192, 0, 2, 10, 192, 0, 2, 11, 192, 0, 2, 12, 192, 0, 2, 13, 0, 0, 0, 0, 0, 0, 0, 0] :=
  ⟨by decide, by decide, by decide, by decide⟩

/-- It is complete and its checksum is right, and a router for one address refuses
it for the checksum. -/
theorem checksum_fourfold_refused :
    History .little lab (.filled 0) (lab.runOn [.quiet ⟨1, 0⟩]).1 waiting ∧
    FromKernel lab.family fourfold.octets ∧
    Complete lab.version lab.family fourfold ⟨0x21, 7, 255, 4, 0, 1, 0xd7, 0xc1⟩
      [192, 0, 2, 10, 192, 0, 2, 11, 192, 0, 2, 12, 192, 0, 2, 13, 0, 0, 0, 0, 0, 0, 0, 0] ∧
    ∀ stack, LengthsPass .little waiting.vnet (some fourfold) stack ∧
      (∃ r, pktReceive .little waiting.vnet.family (some fourfold) waiting.vnet.pkt stack = .ok r ∧
        ¬ Verifies .little waiting.vnet (r.buf.drop r.payloadPos) (some r.recv.sIpx) (some r.recv.dIpx)) ∧
      ∃ vnet, vrrpNetRecv .little waiting.vnet waiting.vrrp (some fourfold) stack = .ok (.invalid, vnet) := by
  have run : History .little lab (.filled 0) (lab.runOn [.quiet ⟨1, 0⟩]).1 waiting :=
    history_runOn (.inl rfl) [.quiet ⟨1, 0⟩]
  have hk : FromKernel lab.family fourfold.octets := by decide
  have hsize : advGetsize waiting.vnet ≤ (fourfold.payload waiting.vnet.family).length := by decide +kernel
  have hinvalid : (vrrpNetRecv .little waiting.vnet waiting.vrrp (some fourfold) []).map Prod.fst =
      .ok .invalid := by decide +kernel
  obtain ⟨vnet, hrecv⟩ := exists_of_map_fst hinvalid
  refine ⟨run, hk, fourfold_complete, fun stack => ?_⟩
  have hpass := lengthsPass_ip4 .little waiting.vnet (by decide +kernel) hk (by decide +kernel)
    (by decide +kernel) (by decide) (by decide) stack
  refine ⟨hpass, ?_, vnet, vrrpNetRecv_extend hrecv stack⟩
  obtain ⟨r, -, hr, -, -, -, hmem, hs, ht, -⟩ := hpass.memory (by rw [run.configured.family]; exact hk)
  refine ⟨r, hr, ?_⟩
  have hc := fourfold_complete
  rw [← run.configured.version, ← run.configured.family] at hc
  have hroom : advGetsize waiting.vnet ≤ (fourfold.memory waiting.vnet.family stack).length := by
    rw [Datagram.memory, List.length_append]
    omega
  rw [hmem, verifies_iff_balances .little run.ready.own hc hroom hs ht]
  have hover : ((fourfold.memory waiting.vnet.family stack).take (advGetsize waiting.vnet)).drop
      (fourfold.payload waiting.vnet.family).length = [] :=
    List.drop_eq_nil_of_le ((List.length_take_le _ _).trans hsize)
  rw [Balances, excess, hover]
  decide +kernel

end Uvrrpd
