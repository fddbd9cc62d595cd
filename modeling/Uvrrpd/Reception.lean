import Uvrrpd.Packet

/-! `vrrp_net_recv` inverted: what its verdicts say about the packet, and what it
leaves alone. -/
namespace Uvrrpd
open Library.Memory (bind_eq_ok)

theorem checkPacket_def (host : ByteOrder) (vnet : VrrpNet) (vrrp : Vrrp) (pkt : Octets) :
    checkPacket host vnet vrrp pkt = do
      let hdr ← loadHdr pkt 0
      match checkHeader vrrp vnet.pkt.header hdr with
      | some event => return (event, none)
      | none =>
        let chksum ← load16 host pkt 6
        let (sum, pkt) ← advChecksum host vnet pkt (some vnet.pkt.sIpx) (some vnet.pkt.dIpx)
        if sum ≠ chksum then return (.invalid, none)
        else
          let pkt ← store pkt 6 (octets16 host chksum)
          if ← checkContent vnet vrrp hdr pkt then return (.pkt, some (← loadHdr pkt 0))
          else return (.invalid, none) := by
  rw [checkPacket, inspectPacket]
  cases loadHdr pkt 0 with
  | error e => rfl
  | ok hdr =>
    simp only [ok_bind]
    cases checkHeader vrrp vnet.pkt.header hdr with
    | some event => rfl
    | none =>
      cases load16 host pkt 6 with
      | error e => rfl
      | ok chksum =>
        cases advChecksum host vnet pkt (some vnet.pkt.sIpx) (some vnet.pkt.dIpx) with
        | error e => rfl
        | ok r =>
          simp only [ok_bind]
          by_cases hsum : r.1 ≠ chksum
          · simp only [if_pos hsum]
            rfl
          · simp only [if_neg hsum]
            cases store r.2 6 (octets16 host chksum) with
            | error e => rfl
            | ok pkt' =>
              simp only [ok_bind]
              cases checkContent vnet vrrp hdr pkt' with
              | error e => rfl
              | ok accepted =>
                cases accepted with
                | false => rfl
                | true => cases loadHdr pkt' 0 <;> rfl

theorem vrrpNetRecv_def (host : ByteOrder) (vnet : VrrpNet) (vrrp : Vrrp) (sock : Option Datagram) (stack : Octets) :
    vrrpNetRecv host vnet vrrp sock stack = do
      let r ← pktReceive host vnet.family sock vnet.pkt stack
      let vnet := { vnet with pkt := r.recv }
      match r.len with
      | none => return (.invalid, vnet)
      | some len =>
        if (len : Int) > vnet.vif.mtu ∨ len < advGetsize vnet then return (.invalid, vnet)
        else
          let vnet := vrrpNetInvalidateBuffer vnet
          let size := payloadSize vnet.pkt.header
          if size < VRRP_PKT_MINSIZE ∨ size > VRRP_PKT_MAXSIZE then return (.invalid, vnet)
          else
            match ← checkPacket host vnet vrrp (r.buf.drop r.payloadPos) with
            | (event, none) => return (event, vnet)
            | (event, some adv) => return (event, { vnet with pkt := { vnet.pkt with adv := adv } }) := by
  rw [vrrpNetRecv, vrrpNetRecvBuf]
  cases pktReceive host vnet.family sock vnet.pkt stack with
  | error e => rfl
  | ok r =>
    simp only [ok_bind]
    cases r.len with
    | none => rfl
    | some len =>
      simp only
      split
      · rfl
      split
      · rfl
      simp only [checkPacket]
      cases inspectPacket host (vrrpNetInvalidateBuffer { vnet with pkt := r.recv }) vrrp
          (r.buf.drop r.payloadPos) with
      | error e => rfl
      | ok v =>
        obtain ⟨event, adv, pkt⟩ := v
        cases adv <;> rfl

theorem vrrpNetRecv_of_buf {host : ByteOrder} {vnet vnet' : VrrpNet} {vrrp : Vrrp} {sock : Option Datagram}
    {stack buf : Octets} {event : VrrpEvent} (h : vrrpNetRecvBuf host vnet vrrp sock stack = .ok (event, vnet', buf)) :
    vrrpNetRecv host vnet vrrp sock stack = .ok (event, vnet') := by
  rw [vrrpNetRecv, h]
  rfl

theorem exists_buf {host : ByteOrder} {vnet vnet' : VrrpNet} {vrrp : Vrrp} {sock : Option Datagram}
    {stack : Octets} {event : VrrpEvent} (h : vrrpNetRecv host vnet vrrp sock stack = .ok (event, vnet')) :
    ∃ buf, vrrpNetRecvBuf host vnet vrrp sock stack = .ok (event, vnet', buf) := by
  obtain ⟨⟨event', vnet'', buf⟩, hr, heq⟩ := bind_eq_ok.mp h
  obtain ⟨rfl, rfl⟩ := Prod.mk.inj (Except.ok.inj heq)
  exact ⟨buf, hr⟩

/-- The checksum routines return the packet with its checksum field reset. -/
private theorem advChecksum_pkt {host : ByteOrder} {vnet : VrrpNet} {pkt pkt' : Octets}
    {saddr daddr : Option IpxAddr} {sum : Nat}
    (h : advChecksum host vnet pkt saddr daddr = .ok (sum, pkt')) : store pkt 6 [0, 0] = .ok pkt' := by
  rw [advChecksum] at h
  cases hf : vnet.family with
  | inet =>
    simp only [hf, vrrpIp4Chksum] at h
    obtain ⟨p, hst, h⟩ := bind_eq_ok.mp h
    obtain ⟨vt, -, h⟩ := bind_eq_ok.mp h
    rw [hst]
    split at h
    · obtain ⟨s, -, h⟩ := bind_eq_ok.mp h
      simp_all
    · split at h
      · obtain ⟨iph, -, h⟩ := bind_eq_ok.mp h
        obtain ⟨s, -, h⟩ := bind_eq_ok.mp h
        obtain ⟨d, -, h⟩ := bind_eq_ok.mp h
        obtain ⟨proto, -, h⟩ := bind_eq_ok.mp h
        obtain ⟨body, -, h⟩ := bind_eq_ok.mp h
        obtain ⟨c, -, h⟩ := bind_eq_ok.mp h
        simp_all
      · simp_all
  | inet6 =>
    simp only [hf, vrrpIp6Chksum] at h
    obtain ⟨p, hst, h⟩ := bind_eq_ok.mp h
    obtain ⟨sd, -, h⟩ := bind_eq_ok.mp h
    obtain ⟨body, -, h⟩ := bind_eq_ok.mp h
    obtain ⟨c, -, h⟩ := bind_eq_ok.mp h
    simp_all

/-- The checks on a packet with a whole header. The checksum field is back in
place when the contents are looked at, so the header kept is the one received. -/
theorem checkPacket_eq (host : ByteOrder) (vnet : VrrpNet) (vrrp : Vrrp) (hdr : Vrrphdr)
    (rest : Octets) :
    checkPacket host vnet vrrp (hdr.octets ++ rest) =
      match checkHeader vrrp vnet.pkt.header hdr with
      | some event => .ok (event, none)
      | none => do
        let r ← advChecksum host vnet (hdr.octets ++ rest) (some vnet.pkt.sIpx) (some vnet.pkt.dIpx)
        if r.1 ≠ word host hdr.chksum₀ hdr.chksum₁ then return (.invalid, none)
        else
          let accepted ← checkContent vnet vrrp hdr (hdr.octets ++ rest)
          return if accepted then (.pkt, some hdr) else (.invalid, none) := by
  simp only [checkPacket_def, loadHdr_octets, ok_bind, load16_chksum]
  cases checkHeader vrrp vnet.pkt.header hdr with
  | some event => rfl
  | none =>
    cases hc : advChecksum host vnet (hdr.octets ++ rest) (some vnet.pkt.sIpx)
        (some vnet.pkt.dIpx) with
    | error e => rfl
    | ok r =>
      obtain ⟨sum, pkt⟩ := r
      have hreset := advChecksum_pkt hc
      rw [store_chksum] at hreset
      obtain rfl := Except.ok.inj hreset
      simp only [ok_bind, octets16_word]
      rw [store_chksum]
      simp only [ok_bind, loadHdr_octets]
      split
      · rfl
      · cases checkContent vnet vrrp hdr (hdr.octets ++ rest) with
        | error e => rfl
        | ok accepted => cases accepted <;> rfl

/-- A packet without a whole header is read beyond its end. -/
theorem loadHdr_ok {mem : Octets} {hdr : Vrrphdr} (h : loadHdr mem 0 = .ok hdr) :
    ∃ rest, mem = hdr.octets ++ rest := by
  match mem with
  | a :: b :: c :: d :: e :: f :: g :: i :: rest =>
    obtain rfl : ⟨a, b, c, d, e, f, g, i⟩ = hdr := Except.ok.inj h
    exact ⟨rest, rfl⟩
  | [] | [_] | [_, _] | [_, _, _] | [_, _, _, _] | [_, _, _, _, _] | [_, _, _, _, _, _]
  | [_, _, _, _, _, _, _] => cases h

structure Accepted (vrrp : Vrrp) (header : VrrpIpxHeader) (hdr : Vrrphdr) : Prop where
  header : checkHeader vrrp header hdr = none
  owner : vrrp.priority ≠ PRIO_OWNER
  advInt : checkAdvInt vrrp hdr = true

/-- All checks behind the checksum have passed. -/
theorem checkContent_true {vnet : VrrpNet} {vrrp : Vrrp} {hdr : Vrrphdr} {pkt : Octets}
    (h : checkContent vnet vrrp hdr pkt = .ok true) :
    vrrp.priority ≠ PRIO_OWNER ∧ checkAuth vrrp hdr pkt = .ok true ∧
      checkVips vnet vrrp hdr pkt = .ok true ∧ checkAdvInt vrrp hdr = true := by
  rw [checkContent] at h
  split at h
  · simp at h
  · next hp =>
    obtain ⟨auth, hauth, h⟩ := bind_eq_ok.mp h
    cases auth with
    | false => simp at h
    | true =>
      obtain ⟨vips, hvips, h⟩ := bind_eq_ok.mp h
      cases vips with
      | false => simp at h
      | true => exact ⟨hp, hauth, hvips, by simpa using h⟩

theorem checkHeader_some {vrrp : Vrrp} {header : VrrpIpxHeader} {hdr : Vrrphdr} {event : VrrpEvent}
    (h : checkHeader vrrp header hdr = some event) : event = .invalid ∨ event = .vridMismatch := by
  rw [checkHeader] at h
  repeat' split at h
  all_goals simp_all

theorem checkHeader_none {vrrp : Vrrp} {header : VrrpIpxHeader} {hdr : Vrrphdr}
    (h : checkHeader vrrp header hdr = none) :
    header.proto = IPPROTO_VRRP.toNat ∧ hdr.versionType >>> 4 = vrrp.version.code ∧
      header.ttl = VRRP_TTL ∧ hdr.vrid = vrrp.vrid := by
  rw [checkHeader] at h
  repeat' split at h
  all_goals simp_all

theorem checkHeader_eq_none {vrrp : Vrrp} {header : VrrpIpxHeader} {hdr : Vrrphdr}
    (hp : header.proto = IPPROTO_VRRP.toNat) (hv : hdr.versionType >>> 4 = vrrp.version.code)
    (ht : header.ttl = VRRP_TTL) (hi : hdr.vrid = vrrp.vrid) : checkHeader vrrp header hdr = none := by
  simp [checkHeader, hp, hv, ht, hi]

theorem checkPacket_cases {host : ByteOrder} {vnet : VrrpNet} {vrrp : Vrrp} {pkt : Octets}
    {event : VrrpEvent} {adv : Option Vrrphdr}
    (h : checkPacket host vnet vrrp pkt = .ok (event, adv)) :
    (adv = none ∧ (event = .invalid ∨ event = .vridMismatch)) ∨
    ∃ hdr, adv = some hdr ∧ event = .pkt ∧ Accepted vrrp vnet.pkt.header hdr := by
  obtain ⟨hdr, hload, -⟩ := bind_eq_ok.mp (checkPacket_def host vnet vrrp pkt ▸ h)
  obtain ⟨rest, rfl⟩ := loadHdr_ok hload
  rw [checkPacket_eq] at h
  cases hh : checkHeader vrrp vnet.pkt.header hdr with
  | some e =>
    simp only [hh] at h
    obtain ⟨rfl, rfl⟩ : e = event ∧ none = adv := by simpa using h
    exact .inl ⟨rfl, checkHeader_some hh⟩
  | none =>
    simp only [hh] at h
    obtain ⟨r, -, h⟩ := bind_eq_ok.mp h
    split at h
    · obtain ⟨rfl, rfl⟩ : _ = event ∧ none = adv := by simpa using h
      exact .inl ⟨rfl, .inl rfl⟩
    · obtain ⟨accepted, hc, h⟩ := bind_eq_ok.mp h
      cases accepted with
      | false =>
        obtain ⟨rfl, rfl⟩ : _ = event ∧ none = adv := by simpa using h
        exact .inl ⟨rfl, .inl rfl⟩
      | true =>
        obtain ⟨rfl, rfl⟩ : _ = event ∧ some hdr = adv := by simpa using h
        obtain ⟨hp, -, -, ha⟩ := checkContent_true hc
        exact .inr ⟨hdr, rfl, rfl, hh, hp, ha⟩

/-- Behind the two tests of the length, the packet itself decides. -/
theorem vrrpNetRecv_checked {host : ByteOrder} {vnet : VrrpNet} {sock : Option Datagram}
    {stack : Octets} {r : Received} {len : Nat} (vrrp : Vrrp)
    (hr : pktReceive host vnet.family sock vnet.pkt stack = .ok r) (hlen : r.len = some len)
    (hfit : ¬ ((len : Int) > vnet.vif.mtu ∨ len < advGetsize vnet))
    (hsize : ¬ (payloadSize r.recv.header < VRRP_PKT_MINSIZE ∨
      payloadSize r.recv.header > VRRP_PKT_MAXSIZE)) :
    vrrpNetRecv host vnet vrrp sock stack =
      match checkPacket host (vrrpNetInvalidateBuffer { vnet with pkt := r.recv }) vrrp
        (r.buf.drop r.payloadPos) with
      | .error e => .error e
      | .ok (event, none) => .ok (event, vrrpNetInvalidateBuffer { vnet with pkt := r.recv })
      | .ok (event, some adv) => .ok (event, { vnet with pkt := { r.recv with adv := adv } }) := by
  rw [vrrpNetRecv_def]
  rw [hr, ok_bind]
  simp only [hlen]
  refine (if_neg hfit).trans ((if_neg hsize).trans ?_)
  cases checkPacket host (vrrpNetInvalidateBuffer { vnet with pkt := r.recv }) vrrp
      (r.buf.drop r.payloadPos) with
  | error e => rfl
  | ok v =>
    obtain ⟨event, adv⟩ := v
    cases adv <;> rfl

/-- Reception changes nothing but the record of the received packet, and what it
accepts has passed the checks against the local structure. -/
theorem vrrpNetRecv_cases {host : ByteOrder} {vnet vnet' : VrrpNet} {vrrp : Vrrp}
    {sock : Option Datagram} {stack : Octets} {event : VrrpEvent}
    (h : vrrpNetRecv host vnet vrrp sock stack = .ok (event, vnet')) :
    vnet' = { vnet with pkt := vnet'.pkt } ∧
      (event = .invalid ∨ event = .vridMismatch ∨
        event = .pkt ∧ Accepted vrrp vnet'.pkt.header vnet'.pkt.adv) := by
  rw [vrrpNetRecv_def] at h
  obtain ⟨r, -, h⟩ := bind_eq_ok.mp h
  simp only at h
  split at h
  · obtain ⟨rfl, rfl⟩ : _ = event ∧ _ = vnet' := by simpa using h
    exact ⟨rfl, .inl rfl⟩
  · split at h
    · obtain ⟨rfl, rfl⟩ : _ = event ∧ _ = vnet' := by simpa using h
      exact ⟨rfl, .inl rfl⟩
    · split at h
      · obtain ⟨rfl, rfl⟩ : _ = event ∧ _ = vnet' := by simpa using h
        exact ⟨rfl, .inl rfl⟩
      · obtain ⟨⟨e, adv⟩, hc, h⟩ := bind_eq_ok.mp h
        rcases checkPacket_cases hc with ⟨rfl, he⟩ | ⟨hdr, rfl, rfl, ha⟩
        · obtain ⟨rfl, rfl⟩ : _ = event ∧ _ = vnet' := by simpa using h
          exact ⟨rfl, he.elim .inl (fun h => .inr (.inl h))⟩
        · obtain ⟨rfl, rfl⟩ : _ = event ∧ _ = vnet' := by simpa using h
          exact ⟨rfl, .inr (.inr ⟨rfl, ha⟩)⟩

/-- What passes for an advertisement has passed all checks on the header kept. -/
theorem vrrpNetRecv_accepted {host : ByteOrder} {vnet vnet' : VrrpNet} {vrrp : Vrrp}
    {sock : Option Datagram} {stack : Octets}
    (h : vrrpNetRecv host vnet vrrp sock stack = .ok (.pkt, vnet')) :
    Accepted vrrp vnet'.pkt.header vnet'.pkt.adv := by
  rcases (vrrpNetRecv_cases h).2 with he | he | ⟨-, hacc⟩
  · cases he
  · cases he
  · exact hacc

/-- So it has a version. -/
theorem vrrpNetRecv_version {host : ByteOrder} {vnet vnet' : VrrpNet} {vrrp : Vrrp}
    {sock : Option Datagram} {stack : Octets}
    (h : vrrpNetRecv host vnet vrrp sock stack = .ok (.pkt, vnet')) : vrrpAdvGetVersion vnet' ≠ 0 := by
  intro hz
  obtain ⟨-, hv, -⟩ := checkHeader_none (vrrpNetRecv_accepted h).header
  rw [vrrpAdvGetVersion] at hz
  rw [hz] at hv
  cases hver : vrrp.version <;> rw [hver] at hv <;> exact absurd hv (by decide)

/-- The header kept is the one the packet starts with, and the packet has passed
the checks on its contents. -/
private theorem checkPacket_hdr {host : ByteOrder} {vnet : VrrpNet} {vrrp : Vrrp} {pkt : Octets}
    {event : VrrpEvent} {adv : Vrrphdr} (h : checkPacket host vnet vrrp pkt = .ok (event, some adv)) :
    ∃ rest, pkt = adv.octets ++ rest ∧ checkContent vnet vrrp adv pkt = .ok true := by
  obtain ⟨hdr, hload, -⟩ := bind_eq_ok.mp (checkPacket_def host vnet vrrp pkt ▸ h)
  obtain ⟨rest, rfl⟩ := loadHdr_ok hload
  rw [checkPacket_eq] at h
  cases hh : checkHeader vrrp vnet.pkt.header hdr with
  | some e => simp [hh] at h
  | none =>
    simp only [hh] at h
    obtain ⟨r, -, h⟩ := bind_eq_ok.mp h
    split at h
    · simp at h
    · obtain ⟨accepted, hc, h⟩ := bind_eq_ok.mp h
      cases accepted with
      | false => simp at h
      | true =>
        obtain ⟨-, rfl⟩ : _ = event ∧ hdr = adv := by simpa using h
        exact ⟨rest, rfl, hc⟩

/-- What `PKT` says about the record left behind: its addresses are those received,
its header is the one at the start of the VRRP part, and the contents have passed. -/
theorem vrrpNetRecv_pkt {host : ByteOrder} {vnet vnet' : VrrpNet} {vrrp : Vrrp}
    {sock : Option Datagram} {stack : Octets}
    (h : vrrpNetRecv host vnet vrrp sock stack = .ok (.pkt, vnet')) :
    ∃ r rest, pktReceive host vnet.family sock vnet.pkt stack = .ok r ∧
      vnet'.pkt.sIpx = r.recv.sIpx ∧ r.buf.drop r.payloadPos = vnet'.pkt.adv.octets ++ rest ∧
      checkContent vnet vrrp vnet'.pkt.adv (r.buf.drop r.payloadPos) = .ok true := by
  rw [vrrpNetRecv_def] at h
  obtain ⟨r, hr, h⟩ := bind_eq_ok.mp h
  simp only at h
  split at h
  · simp at h
  split at h
  · simp at h
  split at h
  · simp at h
  obtain ⟨⟨event, adv⟩, hc, h⟩ := bind_eq_ok.mp h
  cases adv with
  | none =>
    obtain ⟨rfl, -⟩ : event = .pkt ∧ _ = vnet' := by simpa using h
    rcases checkPacket_cases hc with ⟨-, he | he⟩ | ⟨hdr, he, -⟩
    · cases he
    · cases he
    · cases he
  | some adv =>
    obtain ⟨-, rfl⟩ : event = .pkt ∧ _ = vnet' := by simpa using h
    obtain ⟨rest, hrest, hcontent⟩ := checkPacket_hdr hc
    exact ⟨r, rest, hr, rfl, hrest, hcontent⟩

end Uvrrpd
