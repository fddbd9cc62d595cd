import Uvrrpd.Fixed

/-! Reception writes the record of the last datagram and the wait writes remaining
times. Both are rewritten before they are looked at again, so daemons that differ in
nothing else make the same steps. -/
namespace Uvrrpd
open Library.Memory (bind_eq_ok)
open Library.Runs

def Vrrp.veil (v : Vrrp) (a m : Timespec) : Vrrp :=
  { v with
    advTimer := { v.advTimer with delta := a }
    masterdownTimer := { v.masterdownTimer with delta := m } }

def VrrpNet.veil (n : VrrpNet) (pkt : VrrpRecv) : VrrpNet := { n with pkt := pkt }

def Daemon.veil (d : Daemon) (a m : Timespec) (pkt : VrrpRecv) (buf : Octets) : Daemon :=
  ⟨d.vrrp.veil a m, d.vnet.veil pkt, d.reg, buf⟩

/-- The daemon without the remaining times of its timers, without the record of the
last datagram and without what it left in the buffer; nothing else is left out. -/
def Daemon.essence (d : Daemon) : Daemon :=
  d.veil ⟨0, 0⟩ ⟨0, 0⟩ (vrrpNetInit d.vnet.adv).pkt []

theorem exists_veil {d d' : Daemon} (h : d'.essence = d.essence) : ∃ a m pkt, d' = d.veil a m pkt d'.buf := by
  refine ⟨d'.vrrp.advTimer.delta, d'.vrrp.masterdownTimer.delta, d'.vnet.pkt, ?_⟩
  have hv := congrArg (fun e : Daemon => e.veil d'.vrrp.advTimer.delta d'.vrrp.masterdownTimer.delta
    d'.vnet.pkt d'.buf) h
  exact hv

/-- Two records of datagrams that agree in what the checks and the tie-break read. -/
structure SameSource (family : Family) (p q : VrrpRecv) : Prop where
  source : p.sIpx.octets family = q.sIpx.octets family
  dest : p.dIpx.octets family = q.dIpx.octets family
  header : p.header = q.header

private theorem pktReceive_veil {host : ByteOrder} {family : Family} {sock : Option Datagram}
    {p : VrrpRecv} {stack : Octets} {r : Received} (q : VrrpRecv)
    (h : pktReceive host family sock p stack = .ok r) :
    ∃ q', pktReceive host family sock q stack = .ok { r with recv := q' } ∧
      (r.len ≠ none → SameSource family q' r.recv) := by
  cases family with
  | inet =>
    simp only [pktReceive, vrrpIp4Recv] at h ⊢
    obtain ⟨ihl, h₀, h⟩ := bind_eq_ok.mp h
    obtain ⟨totLen, h₂, h⟩ := bind_eq_ok.mp h
    obtain ⟨ttl, h₈, h⟩ := bind_eq_ok.mp h
    obtain ⟨protocol, h₉, h⟩ := bind_eq_ok.mp h
    obtain ⟨saddr, hs, h⟩ := bind_eq_ok.mp h
    obtain ⟨daddr, hd, h⟩ := bind_eq_ok.mp h
    obtain rfl := Except.ok.inj h
    simp only [h₀, h₂, h₈, h₉, hs, hd]
    exact ⟨_, rfl, fun _ => ⟨rfl, rfl, rfl⟩⟩
  | inet6 =>
    obtain rfl := Except.ok.inj h
    unfold pktReceive vrrpIp6Recv
    cases sock with
    | none => exact ⟨q, rfl, fun hn => absurd rfl hn⟩
    | some datagram =>
      obtain ⟨octets, saddr6, hoplimit, pktinfo⟩ := datagram
      cases hoplimit with
      | none => exact ⟨_, rfl, fun hn => absurd rfl hn⟩
      | some ttl =>
        cases pktinfo with
        | none => exact ⟨_, rfl, fun hn => absurd rfl hn⟩
        | some daddr6 => exact ⟨_, rfl, fun _ => ⟨rfl, rfl, rfl⟩⟩

private theorem addr_of_octets {a b : IpxAddr} (h : a.octets .inet = b.octets .inet) :
    a.addr = b.addr := Subtype.ext h

private theorem addr6_of_octets {a b : IpxAddr} (h : a.octets .inet6 = b.octets .inet6) :
    a.addr6 = b.addr6 := Subtype.ext h

private theorem advChecksum_veil (host : ByteOrder) (vnet : VrrpNet) (pkt : VrrpRecv) (mem : Octets)
    {s s' d d' : IpxAddr} (hs : s'.octets vnet.family = s.octets vnet.family)
    (hd : d'.octets vnet.family = d.octets vnet.family) :
    advChecksum host (vnet.veil pkt) mem (some s') (some d') =
      advChecksum host vnet mem (some s) (some d) := by
  have hveil : advChecksum host (vnet.veil pkt) mem (some s') (some d') =
      advChecksum host vnet mem (some s') (some d') := rfl
  rw [hveil]
  unfold advChecksum
  cases hf : vnet.family with
  | inet =>
    rw [hf] at hs hd
    simp only [vrrpIp4Chksum, addrOr, addr_of_octets hs, addr_of_octets hd]
  | inet6 =>
    rw [hf] at hs hd
    simp only [vrrpIp6Chksum, ip6Addrs, addr6_of_octets hs, addr6_of_octets hd]

/-- The verdict on a packet is a matter of the packet, its IP header and its addresses. -/
private theorem checkPacket_veil (host : ByteOrder) (vnet : VrrpNet) (vrrp : Vrrp) (mem : Octets)
    (a m : Timespec) {p : VrrpRecv} (h : SameSource vnet.family p vnet.pkt) :
    checkPacket host (vnet.veil p) (vrrp.veil a m) mem = checkPacket host vnet vrrp mem := by
  have hheader : (vnet.veil p).pkt.header = vnet.pkt.header := h.header
  have hsum (mem : Octets) : advChecksum host (vnet.veil p) mem (some (vnet.veil p).pkt.sIpx)
      (some (vnet.veil p).pkt.dIpx) =
      advChecksum host vnet mem (some vnet.pkt.sIpx) (some vnet.pkt.dIpx) :=
    advChecksum_veil host vnet p mem h.source h.dest
  rw [checkPacket_def, checkPacket_def host vnet vrrp mem]
  rw [hheader]
  simp only [hsum]
  rfl

theorem vrrpNetRecv_veil {host : ByteOrder} {vnet vnet' : VrrpNet} {vrrp : Vrrp}
    {sock : Option Datagram} {stack : Octets} {event : VrrpEvent} (a m : Timespec) (pkt : VrrpRecv)
    (h : vrrpNetRecv host vnet vrrp sock stack = .ok (event, vnet')) :
    ∃ pkt', vrrpNetRecv host (vnet.veil pkt) (vrrp.veil a m) sock stack = .ok (event, vnet'.veil pkt') ∧
      (event = .pkt → SameSource vnet.family pkt' vnet'.pkt ∧ pkt'.adv = vnet'.pkt.adv) := by
  rw [vrrpNetRecv_def] at h
  obtain ⟨r, hr, h⟩ := bind_eq_ok.mp h
  obtain ⟨q, hq, hsame⟩ := pktReceive_veil pkt hr
  have hq' : pktReceive host (vnet.veil pkt).family sock (vnet.veil pkt).pkt stack =
    .ok { r with recv := q } := hq
  rw [vrrpNetRecv_def]
  rw [hq']
  rw [ok_bind]
  simp only at h ⊢
  cases hlen : r.len with
  | none =>
    simp only [hlen] at h
    obtain ⟨rfl, rfl⟩ : _ = event ∧ _ = vnet' := by simpa using h
    exact ⟨q, rfl, by simp⟩
  | some len =>
    have hsrc := hsame (by simp [hlen])
    simp only [hlen] at h
    split at h
    · next hlong =>
      obtain ⟨rfl, rfl⟩ : _ = event ∧ _ = vnet' := by simpa using h
      exact ⟨q, if_pos hlong, by simp⟩
    next hlong =>
    have hsize : payloadSize q.header = payloadSize r.recv.header := by rw [hsrc.header]
    split at h
    · next hrange =>
      obtain ⟨rfl, rfl⟩ : _ = event ∧ _ = vnet' := by simpa using h
      refine ⟨{ q with adv := { q.adv with versionType := 0 } }, ?_, by simp⟩
      refine (if_neg hlong).trans (if_pos ?_)
      exact hsize ▸ hrange
    next hrange =>
    obtain ⟨⟨verdict, adv⟩, hc, h⟩ := bind_eq_ok.mp h
    have hc' := (checkPacket_veil host (vrrpNetInvalidateBuffer { vnet with pkt := r.recv }) vrrp _ a m
      (p := (vrrpNetInvalidateBuffer { vnet with pkt := q }).pkt) ⟨hsrc.source, hsrc.dest, hsrc.header⟩).trans hc
    have hgo (rest : VrrpEvent × Option Vrrphdr → Except Fault (VrrpEvent × VrrpNet)) :
        (checkPacket host (vrrpNetInvalidateBuffer { vnet.veil pkt with pkt := q }) (vrrp.veil a m)
          (r.buf.drop r.payloadPos) >>= rest) = rest (verdict, adv) :=
      congrArg (· >>= rest) hc'
    cases adv with
    | none =>
      obtain ⟨rfl, rfl⟩ : verdict = event ∧ _ = vnet' := by simpa using h
      refine ⟨{ q with adv := { q.adv with versionType := 0 } }, ?_, ?_⟩
      · exact (if_neg hlong).trans ((if_neg (hsize ▸ hrange)).trans (hgo _))
      · rintro rfl
        rcases checkPacket_cases hc with ⟨-, he⟩ | ⟨hdr, he, -⟩
        · rcases he with he | he <;> cases he
        · cases he
    | some hdr =>
      obtain ⟨rfl, rfl⟩ : verdict = event ∧ _ = vnet' := by simpa using h
      refine ⟨{ q with adv := hdr }, ?_, fun _ => ⟨⟨hsrc.source, hsrc.dest, hsrc.header⟩, rfl⟩⟩
      exact (if_neg hlong).trans ((if_neg (hsize ▸ hrange)).trans (hgo _))

def CtrlEffect.veil (r : CtrlEffect) (a m : Timespec) (pkt : VrrpRecv) : CtrlEffect :=
  ⟨r.event, r.vrrp.veil a m, r.vnet.veil pkt, r.reg⟩

private theorem vrrpAdvSetPriority_veil {host : ByteOrder} {vnet vnet' : VrrpNet} {prio : UInt8}
    (pkt : VrrpRecv) (h : vrrpAdvSetPriority host vnet prio = .ok vnet') :
    vrrpAdvSetPriority host (vnet.veil pkt) prio = .ok (vnet'.veil pkt) := by
  obtain ⟨p₀, h₀, h⟩ := bind_eq_ok.mp h
  obtain ⟨p₁, h₁, h⟩ := bind_eq_ok.mp h
  obtain ⟨p₂, h₂, h⟩ := bind_eq_ok.mp h
  obtain rfl := Except.ok.inj h
  have h₀' : deref (vnet.veil pkt).adv.data = .ok p₀ := h₀
  have h₂' : chksumUpdate host (vnet.veil pkt) p₁ = .ok p₂ := h₂
  simp only [vrrpAdvSetPriority, h₀', h₁, h₂', ok_bind]
  rfl

private theorem vrrpAdvSendZero_veil {host : ByteOrder} {vnet vnet' : VrrpNet} {frame : Frame}
    (pkt : VrrpRecv) (h : vrrpAdvSendZero host vnet = .ok (frame, vnet')) :
    vrrpAdvSendZero host (vnet.veil pkt) = .ok (frame, vnet'.veil pkt) := by
  obtain ⟨p₀, h₀, h⟩ := bind_eq_ok.mp h
  obtain ⟨p₁, h₁, h⟩ := bind_eq_ok.mp h
  obtain ⟨p₂, h₂, h⟩ := bind_eq_ok.mp h
  obtain ⟨p₃, h₃, h⟩ := bind_eq_ok.mp h
  obtain ⟨p₄, h₄, h⟩ := bind_eq_ok.mp h
  obtain ⟨p₅, h₅, h⟩ := bind_eq_ok.mp h
  obtain ⟨p₆, h₆, h⟩ := bind_eq_ok.mp h
  obtain ⟨rfl, rfl⟩ := Prod.mk.inj (Except.ok.inj h)
  have h₀' : deref (vnet.veil pkt).adv.data = .ok p₀ := h₀
  have h₄' : chksumUpdate host (vnet.veil pkt) p₂ = .ok p₄ := h₄
  simp only [vrrpAdvSendZero, h₀', h₁, h₂, h₃, h₄', h₅, h₆, ok_bind]
  rfl

private theorem ctrlPrio_veil {host : ByteOrder} {nword : Nat} {vrrp : Vrrp} {vnet : VrrpNet}
    {reg : Reg} {r : CtrlEffect} (a m : Timespec) (pkt : VrrpRecv)
    (h : ctrlPrio host nword vrrp vnet reg = .ok r) :
    ctrlPrio host nword (vrrp.veil a m) (vnet.veil pkt) reg = .ok (r.veil a m pkt) := by
  rw [ctrlPrio] at h ⊢
  split at h
  · next hn =>
    obtain rfl := Except.ok.inj h
    exact if_pos hn
  · next hn =>
    rw [if_neg hn]
    obtain ⟨arg, harg, h⟩ := bind_eq_ok.mp h
    have harg' : wordAt (vrrp.veil a m).ctrl 1 = .ok arg := harg
    rw [harg', ok_bind]
    split at h
    · obtain rfl := Except.ok.inj h
      rfl
    · next opt _ =>
      simp only at h ⊢
      split at h
      · next hne =>
        obtain ⟨vnet', hset, h⟩ := bind_eq_ok.mp h
        obtain rfl := Except.ok.inj h
        apply (if_pos hne).trans
        rw [vrrpAdvSetPriority_veil pkt hset]
        rfl
      · next hne =>
        obtain rfl := Except.ok.inj h
        exact if_neg hne

private theorem vrrpCtrlCmd_veil {host : ByteOrder} {vrrp : Vrrp} {vnet : VrrpNet} {reg : Reg}
    {r : CtrlEffect} (a m : Timespec) (pkt : VrrpRecv) (h : vrrpCtrlCmd host vrrp vnet reg = .ok r) :
    vrrpCtrlCmd host (vrrp.veil a m) (vnet.veil pkt) reg = .ok (r.veil a m pkt) := by
  have hctrl : (vrrp.veil a m).ctrl = vrrp.ctrl := rfl
  rw [vrrpCtrlCmd] at h ⊢
  rw [hctrl]
  generalize splitCmd vrrp.ctrl = parsed at h ⊢
  obtain ⟨nword, ctrl⟩ := parsed
  simp only at h ⊢
  split at h
  · next hn =>
    obtain rfl := Except.ok.inj h
    exact if_pos hn
  next hn =>
  rw [if_neg hn]
  obtain ⟨cmd, hcmd, h⟩ := bind_eq_ok.mp h
  rw [hcmd, ok_bind]
  split at h
  · next hw =>
    obtain rfl := Except.ok.inj h
    exact if_pos hw
  next hstop =>
  rw [if_neg hstop]
  split at h
  · next hw =>
    obtain rfl := Except.ok.inj h
    exact if_pos hw
  next hreload =>
  rw [if_neg hreload]
  split at h
  · next hw =>
    obtain rfl := Except.ok.inj h
    exact if_pos hw
  next hstate =>
  rw [if_neg hstate]
  split at h
  · next hw =>
    rw [if_pos hw]
    exact ctrlPrio_veil a m pkt h
  · next hw =>
    obtain rfl := Except.ok.inj h
    exact if_neg hw

private theorem vrrpCtrlRead_veil {host : ByteOrder} {written : Octets} {vrrp : Vrrp} {vnet : VrrpNet}
    {reg : Reg} {r : CtrlEffect} (a m : Timespec) (pkt : VrrpRecv)
    (h : vrrpCtrlRead host written vrrp vnet reg = .ok r) :
    vrrpCtrlRead host written (vrrp.veil a m) (vnet.veil pkt) reg = .ok (r.veil a m pkt) := by
  rw [vrrpCtrlRead] at h ⊢
  simp only at h ⊢
  split at h
  · next hw =>
    obtain rfl := Except.ok.inj h
    exact if_pos hw
  · next hw =>
    rw [if_neg hw]
    -- the states are read off `h`; off the goal they would be unified field by field
    have hcmd := vrrpCtrlCmd_veil a m pkt h
    exact hcmd

private theorem vrrpTimerUpdate_veil (now : Option Timespec) (t : VrrpTimer) (delta : Timespec) :
    ∃ delta', vrrpTimerUpdate now { t with delta := delta } =
      ((vrrpTimerUpdate now t).1, { (vrrpTimerUpdate now t).2 with delta := delta' }) := by
  cases now with
  | none => exact ⟨delta, rfl⟩
  | some now =>
    refine ⟨(vrrpTimerUpdate (some now) t).2.delta, ?_⟩
    simp only [vrrpTimerUpdate]

private theorem vrrpTimerIsExpired_veil (now : Option Timespec) (t : VrrpTimer) (delta : Timespec) :
    ∃ delta', vrrpTimerIsExpired now { t with delta := delta } =
      ((vrrpTimerIsExpired now t).1, { (vrrpTimerIsExpired now t).2 with delta := delta' }) := by
  obtain ⟨delta', h⟩ := vrrpTimerUpdate_veil now t delta
  exact ⟨delta', by simp only [vrrpTimerIsExpired, h]⟩

private theorem timer_veil (v : Vrrp) (a m : Timespec) (id : TimerId) :
    ∃ delta, (v.veil a m).timer id = { v.timer id with delta := delta } := by
  cases id with
  | adv => exact ⟨a, rfl⟩
  | masterdown => exact ⟨m, rfl⟩

private theorem setTimer_veil (v : Vrrp) (a m : Timespec) (t : VrrpTimer) (delta : Timespec)
    (id : TimerId) :
    ∃ a' m', (v.veil a m).setTimer { t with delta := delta } id = (v.setTimer t id).veil a' m' := by
  cases id with
  | adv => exact ⟨delta, m, rfl⟩
  | masterdown => exact ⟨a, delta, rfl⟩

/-- What an event carries with it: for an advertisement, the header and its sources. -/
def Carries (family : Family) (event : VrrpEvent) (p q : VrrpRecv) : Prop :=
  event = .pkt → SameSource family p q ∧ p.adv = q.adv

theorem SameSource.trans {family : Family} {p q r : VrrpRecv} (h : SameSource family p q)
    (h' : SameSource family q r) : SameSource family p r :=
  ⟨h.source.trans h'.source, h.dest.trans h'.dest, h.header.trans h'.header⟩

private theorem Carries.trans {family : Family} {event : VrrpEvent} {p q r : VrrpRecv}
    (h : Carries family event p q) (h' : Carries family event q r) : Carries family event p r :=
  fun he => ⟨(h he).1.trans (h' he).1, (h he).2.trans (h' he).2⟩

private theorem Carries.of_ne {family : Family} {event : VrrpEvent} {p q : VrrpRecv}
    (h : event ≠ .pkt) : Carries family event p q := fun he => absurd he h

/-- Does `vrrp_listen` get as far as reading the socket? -/
def readsSocket (inp : Input) (d : Daemon) : Bool :=
  match runningTimer d.vrrp with
  | none => false
  | some id =>
    let (expired, t) := vrrpTimerUpdate inp.clockUpdate (d.vrrp.timer id)
    match inp.pselect with
    | .ready socket _ => !expired && !(vrrpTimerIsExpired inp.clockExpired t).1 && socket
    | _ => false

/-- Reception comes to the same on other contents of the buffer. -/
def ReceivesAlike (host : ByteOrder) (inp : Input) (d : Daemon) (stack : List.Vector UInt8 IP_MAXPACKET) : Prop :=
  ∀ event vnet, vrrpNetRecv host d.vnet d.vrrp inp.sock (inp.stack d.buf).toList = .ok (event, vnet) →
    ∃ pkt, vrrpNetRecv host d.vnet d.vrrp inp.sock stack.toList = .ok (event, vnet.veil pkt) ∧
      Carries d.vnet.family event pkt vnet.pkt

private theorem vrrpNetRecv_setTimer (host : ByteOrder) (vnet : VrrpNet) (v : Vrrp) (t : VrrpTimer) (id : TimerId)
    (sock : Option Datagram) (stack : Octets) :
    vrrpNetRecv host vnet (v.setTimer t id) sock stack = vrrpNetRecv host vnet v sock stack := by
  cases id <;> rfl

private theorem vrrpListenReady_veil {host : ByteOrder} {inp : Input} {socket fifo : Bool}
    {d d₁ : Daemon} {event : VrrpEvent} (a m : Timespec) (pkt : VrrpRecv) (buf : Octets)
    (stack : Octets → List.Vector UInt8 IP_MAXPACKET) (hsteady : socket = true → ReceivesAlike host inp d (stack buf))
    (h : vrrpListenReady host inp socket fifo d = .ok (event, d₁)) :
    ∃ pkt' buf', vrrpListenReady host { inp with stack := stack } socket fifo (d.veil a m pkt buf) =
      .ok (event, d₁.veil a m pkt' buf') ∧ Carries d.vnet.family event pkt' d₁.vnet.pkt := by
  rw [vrrpListenReady] at h ⊢
  cases socket with
  | true =>
    obtain ⟨⟨verdict, vnet, left⟩, hr, h⟩ := bind_eq_ok.mp (show _ >>= _ = _ from h)
    obtain ⟨rfl, rfl⟩ : _ = event ∧ _ = d₁ := by simpa using h
    obtain ⟨pkt₁, hr₁, hc₁⟩ := hsteady rfl _ _ (vrrpNetRecv_of_buf hr)
    obtain ⟨pkt', hr', hc⟩ := vrrpNetRecv_veil a m pkt hr₁
    obtain ⟨left', hbuf⟩ := exists_buf hr'
    exact ⟨pkt', left', congrArg (· >>= _) hbuf, Carries.trans hc hc₁⟩
  | false =>
    cases fifo with
    | true =>
      obtain ⟨r, hr, h⟩ := bind_eq_ok.mp (show _ >>= _ = _ from h)
      obtain ⟨rfl, rfl⟩ : _ = event ∧ _ = d₁ := by simpa using h
      have hr' := vrrpCtrlRead_veil a m pkt hr
      refine ⟨pkt, buf, congrArg (· >>= _) hr', ?_⟩
      intro he
      cases vrrpCtrlRead_cases hr <;> cases he
    | false =>
      obtain ⟨rfl, rfl⟩ : _ = event ∧ _ = d₁ := by simpa using h
      exact ⟨pkt, buf, rfl, .of_ne (by decide)⟩

theorem vrrpListen_veil {host : ByteOrder} {inp : Input} {d d₁ : Daemon} {event : VrrpEvent}
    (a m : Timespec) (pkt : VrrpRecv) (buf : Octets) (stack : Octets → List.Vector UInt8 IP_MAXPACKET)
    (hsteady : readsSocket inp d = true → ReceivesAlike host inp d (stack buf))
    (h : vrrpListen host inp d = .ok (event, d₁)) :
    ∃ a' m' pkt' buf', vrrpListen host { inp with stack := stack } (d.veil a m pkt buf) =
      .ok (event, d₁.veil a' m' pkt' buf') ∧ Carries d.vnet.family event pkt' d₁.vnet.pkt := by
  have hrun : runningTimer (d.veil a m pkt buf).vrrp = runningTimer d.vrrp := rfl
  rw [readsSocket] at hsteady
  rw [vrrpListen] at h ⊢
  rw [hrun]
  cases hid : runningTimer d.vrrp with
  | none =>
    simp only [hid] at h
    cases h
  | some id =>
    simp only [hid] at h hsteady ⊢
    obtain ⟨δ, ht⟩ := timer_veil d.vrrp a m id
    obtain ⟨δ', hu⟩ := vrrpTimerUpdate_veil inp.clockUpdate (d.vrrp.timer id) δ
    have ht' : (d.veil a m pkt buf).vrrp.timer id = { d.vrrp.timer id with delta := δ } := ht
    rw [ht', hu]
    generalize vrrpTimerUpdate inp.clockUpdate (d.vrrp.timer id) = updated at h hsteady ⊢
    obtain ⟨expired, t⟩ := updated
    obtain ⟨b, n, hset⟩ := setTimer_veil d.vrrp a m t δ' id
    have hset' : (d.veil a m pkt buf).vrrp.setTimer { t with delta := δ' } id = (d.vrrp.setTimer t id).veil b n :=
      hset
    simp only [hset'] at h ⊢
    cases expired with
    | true =>
      obtain ⟨rfl, rfl⟩ : _ = event ∧ _ = d₁ := by simpa using h
      exact ⟨b, n, pkt, buf, rfl, .of_ne (by decide)⟩
    | false =>
      cases hp : inp.pselect with
      | interrupted signals =>
        simp only [hp] at h
        obtain ⟨rfl, rfl⟩ : _ = event ∧ _ = d₁ := by simpa using h
        exact ⟨b, n, pkt, buf, rfl, .of_ne (by decide)⟩
      | failed =>
        simp only [hp] at h
        obtain ⟨rfl, rfl⟩ : _ = event ∧ _ = d₁ := by simpa using h
        exact ⟨b, n, pkt, buf, rfl, .of_ne (by decide)⟩
      | ready socket fifo =>
        simp only [hp, timer_setTimer] at h hsteady ⊢
        obtain ⟨ε, hs⟩ := timer_veil (d.vrrp.setTimer t id) b n id
        rw [timer_setTimer] at hs
        obtain ⟨ε', he⟩ := vrrpTimerIsExpired_veil inp.clockExpired t ε
        simp only [hs, he]
        generalize vrrpTimerIsExpired inp.clockExpired t = again at h hsteady ⊢
        obtain ⟨expired, t'⟩ := again
        obtain ⟨b', n', hset₁⟩ := setTimer_veil (d.vrrp.setTimer t id) b n t' ε' id
        simp only [hset₁] at h ⊢
        cases expired with
        | true =>
          obtain ⟨rfl, rfl⟩ : _ = event ∧ _ = d₁ := by simpa using h
          exact ⟨b', n', pkt, buf, rfl, .of_ne (by decide)⟩
        | false =>
          have hready : socket = true →
              ReceivesAlike host inp { d with vrrp := (d.vrrp.setTimer t id).setTimer t' id } (stack buf) := by
            intro hsocket event vnet hr
            simp only [vrrpNetRecv_setTimer] at hr ⊢
            exact hsteady hsocket event vnet hr
          obtain ⟨pkt', buf', hready, hc⟩ := vrrpListenReady_veil b' n' pkt buf stack hready (show _ = _ from h)
          exact ⟨b', n', pkt', buf', hready, hc⟩

variable {buf : Octets}

def SameResult (r r' : Daemon × List Output) : Prop := r'.1.essence = r.1.essence ∧ r'.2 = r.2

private theorem gotoMaster_veil (now : Option Timespec) (d : Daemon) (a m : Timespec) (pkt : VrrpRecv) :
    SameResult (vrrpStateGotoMaster now d) (vrrpStateGotoMaster now (d.veil a m pkt buf)) := by
  cases now <;> exact ⟨rfl, rfl⟩

private theorem advertise_veil (now : Option Timespec) (d : Daemon) (a m : Timespec) (pkt : VrrpRecv) :
    SameResult (advertise now d) (advertise now (d.veil a m pkt buf)) := by
  cases now <;> exact ⟨rfl, rfl⟩

private theorem gotoBackup_veil (host : ByteOrder) (now : Option Timespec) (d : Daemon)
    (a m : Timespec) (pkt : VrrpRecv)
    (h : gotoBackupAdvInt host (d.veil a m pkt buf) = gotoBackupAdvInt host d) :
    SameResult (vrrpStateGotoBackup host now d) (vrrpStateGotoBackup host now (d.veil a m pkt buf)) := by
  unfold vrrpStateGotoBackup
  rw [h]
  cases now <;> exact ⟨rfl, rfl⟩

private theorem backupReload_veil (d : Daemon) (a m : Timespec) (pkt : VrrpRecv) :
    (backupReload (d.veil a m pkt buf)).essence = (backupReload d).essence := by
  have hreg : (d.veil a m pkt buf).reg = d.reg := rfl
  unfold backupReload
  rw [hreg]
  generalize testAndClearBit UVRRPD_RELOAD d.reg = tested
  obtain ⟨reload, reg⟩ := tested
  cases reload <;> rfl

/-- The tie-break looks at the member of the family only. -/
private theorem addrCmp_veil (vnet : VrrpNet) {pkt : VrrpRecv} (h : SameSource vnet.family pkt vnet.pkt) :
    vrrpAdvAddrCmp (vnet.veil pkt) = vrrpAdvAddrCmp vnet := by
  have hs := h.source
  unfold vrrpAdvAddrCmp ipxCmp
  have hf : (vnet.veil pkt).family = vnet.family := rfl
  rw [hf]
  cases hfam : vnet.family with
  | inet =>
    rw [hfam] at hs
    simp only [vrrpIp4Cmp]
    exact congrArg (fun l => ((bigValue l : Int) - _).bmod (2 ^ 32)) hs
  | inet6 =>
    rw [hfam] at hs
    simp only [vrrpIp6Cmp]
    exact congrArg (fun l => memcmp l _) hs

/-- What the handlers read of an advertisement is in the header kept. -/
private theorem advGet_veil (host : ByteOrder) (d : Daemon) (a m : Timespec) {pkt : VrrpRecv}
    (h : pkt.adv = d.vnet.pkt.adv) :
    vrrpAdvGetVersion (d.veil a m pkt buf).vnet = vrrpAdvGetVersion d.vnet ∧
    vrrpAdvGetPriority (d.veil a m pkt buf).vnet = vrrpAdvGetPriority d.vnet ∧
    vrrpAdvGetAdvint host (d.veil a m pkt buf).vnet = vrrpAdvGetAdvint host d.vnet := by
  refine ⟨congrArg Vrrphdr.versionType h, congrArg Vrrphdr.priority h, ?_⟩
  exact congrArg (fun hdr : Vrrphdr => UInt16.ofNat (hdr.getAdvint host)) h

private theorem backupPkt_veil (host : ByteOrder) (now : Option Timespec) (d : Daemon)
    (a m : Timespec) {pkt : VrrpRecv} (h : pkt.adv = d.vnet.pkt.adv) :
    SameResult (backupPkt host now d) (backupPkt host now (d.veil a m pkt buf)) := by
  obtain ⟨hversion, hprio, hint⟩ := advGet_veil host d a m h
  have hpreempt : (d.veil a m pkt buf).vrrp.preempt = d.vrrp.preempt := rfl
  have hown : (d.veil a m pkt buf).vrrp.priority = d.vrrp.priority := rfl
  have hrfc : (d.veil a m pkt buf).vrrp.version = d.vrrp.version := rfl
  unfold backupPkt
  rw [hversion, hprio, hint, hpreempt, hown, hrfc]
  split
  · exact ⟨rfl, rfl⟩
  split
  · cases now <;> exact ⟨rfl, rfl⟩
  split
  · simp only
    split <;> cases now <;> exact ⟨rfl, rfl⟩
  · exact ⟨rfl, rfl⟩

private theorem masterPkt_veil (host : ByteOrder) (now : Option Timespec) (d : Daemon)
    (a m : Timespec) {pkt : VrrpRecv} (hsrc : SameSource d.vnet.family pkt d.vnet.pkt)
    (h : pkt.adv = d.vnet.pkt.adv) :
    SameResult (masterPkt host now d) (masterPkt host now (d.veil a m pkt buf)) := by
  obtain ⟨hversion, hprio, hget⟩ := advGet_veil host d a m h
  have hcmp : vrrpAdvAddrCmp (d.veil a m pkt buf).vnet = vrrpAdvAddrCmp d.vnet := addrCmp_veil d.vnet hsrc
  have hown : (d.veil a m pkt buf).vrrp.priority = d.vrrp.priority := rfl
  have hint : gotoBackupAdvInt host (d.veil a m pkt buf) = gotoBackupAdvInt host d := by
    rw [gotoBackupAdvInt]
    rw [hget]
    rfl
  unfold masterPkt
  rw [hversion, hprio, hcmp, hown]
  split
  · exact ⟨rfl, rfl⟩
  split
  · exact advertise_veil now d a m pkt
  split
  · exact gotoBackup_veil host now d a m pkt hint
  split
  · exact gotoBackup_veil host now d a m pkt hint
  · exact ⟨rfl, rfl⟩

private theorem backupEvent_veil (host : ByteOrder) (now : Option Timespec) (d : Daemon)
    (event : VrrpEvent) (a m : Timespec) {pkt : VrrpRecv}
    (h : Carries d.vnet.family event pkt d.vnet.pkt) :
    SameResult (backupEvent host now d event) (backupEvent host now (d.veil a m pkt buf) event) := by
  cases event with
  | timer => exact gotoMaster_veil now d a m pkt
  | pkt => exact backupPkt_veil host now d a m (h rfl).2
  | signal => exact ⟨backupReload_veil d a m pkt, rfl⟩
  | ctrlFifo => exact ⟨backupReload_veil d a m pkt, rfl⟩
  | vridMismatch => exact ⟨rfl, rfl⟩
  | invalid => exact ⟨rfl, rfl⟩

private theorem masterReload_veil {host : ByteOrder} {d : Daemon} {r : Daemon × List Output}
    (a m : Timespec) (pkt : VrrpRecv) (h : masterReload host d = .ok r) :
    ∃ r', masterReload host (d.veil a m pkt buf) = .ok r' ∧ SameResult r r' := by
  have hreg : (d.veil a m pkt buf).reg = d.reg := rfl
  rw [masterReload] at h ⊢
  rw [hreg]
  generalize testAndClearBit UVRRPD_RELOAD d.reg = tested at h ⊢
  obtain ⟨reload, reg⟩ := tested
  cases reload with
  | true =>
    obtain ⟨⟨frame, vnet⟩, hz, h⟩ := bind_eq_ok.mp (show _ >>= _ = _ from h)
    obtain rfl := Except.ok.inj h
    have hz' : vrrpAdvSendZero host (d.veil a m pkt buf).vnet = .ok (frame, vnet.veil pkt) :=
      vrrpAdvSendZero_veil pkt hz
    exact ⟨_, congrArg (· >>= _) hz', rfl, rfl⟩
  | false =>
    obtain rfl := Except.ok.inj h
    exact ⟨_, rfl, rfl, rfl⟩

private theorem masterEvent_veil {host : ByteOrder} {now : Option Timespec} {d : Daemon}
    {event : VrrpEvent} {r : Daemon × List Output} (a m : Timespec) {pkt : VrrpRecv}
    (hc : Carries d.vnet.family event pkt d.vnet.pkt) (h : masterEvent host now d event = .ok r) :
    ∃ r', masterEvent host now (d.veil a m pkt buf) event = .ok r' ∧ SameResult r r' := by
  cases event with
  | timer =>
    obtain rfl := Except.ok.inj h
    exact ⟨_, rfl, advertise_veil now d a m pkt⟩
  | pkt =>
    obtain rfl := Except.ok.inj h
    exact ⟨_, rfl, masterPkt_veil host now d a m (hc rfl).1 (hc rfl).2⟩
  | signal => exact masterReload_veil a m pkt h
  | ctrlFifo => exact masterReload_veil a m pkt h
  | vridMismatch =>
    obtain rfl := Except.ok.inj h
    exact ⟨_, rfl, rfl, rfl⟩
  | invalid =>
    obtain rfl := Except.ok.inj h
    exact ⟨_, rfl, rfl, rfl⟩

private theorem vrrpStateInit_veil (host : ByteOrder) (now : Option Timespec) {d : Daemon}
    (hs : d.vrrp.state = .init) (a m : Timespec) (pkt : VrrpRecv) :
    SameResult (vrrpStateInit host now d) (vrrpStateInit host now (d.veil a m pkt buf)) := by
  have hint : gotoBackupAdvInt host (d.primed.veil a m pkt buf) = gotoBackupAdvInt host d.primed := by
    have hp : d.primed.vrrp.state = .init := hs
    have hp' : (d.primed.veil a m pkt buf).vrrp.state = .init := hs
    have hv : (d.primed.veil a m pkt buf).vrrp.version = d.primed.vrrp.version := rfl
    simp only [gotoBackupAdvInt, hp, hp', hv]
    cases d.primed.vrrp.version <;> rfl
  have hown : (d.veil a m pkt buf).vrrp.priority = d.vrrp.priority := rfl
  simp only [vrrpStateInit]
  rw [hown]
  split
  · obtain ⟨h₁, h₂⟩ := gotoMaster_veil now d.primed a m pkt
    exact ⟨h₁, congrArg (.exec .init :: ·) h₂⟩
  · obtain ⟨h₁, h₂⟩ := gotoBackup_veil host now d.primed a m pkt hint
    exact ⟨h₁, congrArg (.exec .init :: ·) h₂⟩

private theorem vrrpDispatch_veil {host : ByteOrder} {inp : Input} {d : Daemon}
    {r : Daemon × List Output} (a m : Timespec) (pkt : VrrpRecv) {stack : Octets → List.Vector UInt8 IP_MAXPACKET}
    (hsteady : (d.vrrp.state = .backup ∨ d.vrrp.state = .master) → readsSocket inp d = true →
      ReceivesAlike host inp d (stack buf)) (h : vrrpDispatch host inp d = some (.ok r)) :
    ∃ r', vrrpDispatch host { inp with stack := stack } (d.veil a m pkt buf) = some (.ok r') ∧ SameResult r r' := by
  have hstate : (d.veil a m pkt buf).vrrp.state = d.vrrp.state := rfl
  rw [vrrpDispatch] at h ⊢
  rw [hstate]
  cases hs : d.vrrp.state with
  | init =>
    simp only [hs] at h ⊢
    obtain rfl := Except.ok.inj (Option.some.inj h)
    exact ⟨_, rfl, vrrpStateInit_veil host inp.clockSet hs a m pkt⟩
  | backup =>
    simp only [hs, vrrpStateBackup] at h ⊢
    obtain ⟨⟨event, d₁⟩, hl, h⟩ := bind_eq_ok.mp (Option.some.inj h)
    obtain rfl := Except.ok.inj h
    obtain ⟨a', m', pkt', buf', hl', hc⟩ := vrrpListen_veil a m pkt buf stack (hsteady (.inl hs)) hl
    rw [hl', ok_bind]
    rw [← (SameFixed.heard (vrrpListen_cases hl)).family] at hc
    exact ⟨_, rfl, backupEvent_veil host inp.clockSet d₁ event a' m' hc⟩
  | master =>
    simp only [hs, vrrpStateMaster] at h ⊢
    obtain ⟨⟨event, d₁⟩, hl, h⟩ := bind_eq_ok.mp (Option.some.inj h)
    obtain ⟨a', m', pkt', buf', hl', hc⟩ := vrrpListen_veil a m pkt buf stack (hsteady (.inr hs)) hl
    rw [hl', ok_bind]
    rw [← (SameFixed.heard (vrrpListen_cases hl)).family] at hc
    obtain ⟨r', hr', hsame⟩ := masterEvent_veil a' m' hc h
    exact ⟨r', congrArg some hr', hsame⟩
  | other value =>
    simp only [hs] at h
    cases h

/-- Daemons alike make the same step, whatever is in their buffers, unless what they
receive is judged by what is in them. -/
theorem processStep_veil {host : ByteOrder} {inp : Input} {d u : Daemon} {out : List Output}
    (a m : Timespec) (pkt : VrrpRecv) {stack : Octets → List.Vector UInt8 IP_MAXPACKET}
    (hsteady : (d.vrrp.state = .backup ∨ d.vrrp.state = .master) → readsSocket inp d = true →
      ReceivesAlike host inp d (stack buf)) (h : processStep host inp d = .ok (u, out)) :
    ∃ u', processStep host { inp with stack := stack } (d.veil a m pkt buf) = .ok (u', out) ∧
      u'.essence = u.essence := by
  obtain ⟨⟨ret, d', out'⟩, hv, h⟩ := bind_eq_ok.mp h
  obtain ⟨rfl, rfl⟩ := Prod.mk.inj (Except.ok.inj h)
  rw [vrrpProcess] at hv
  cases hd : vrrpDispatch host inp d with
  | none =>
    have hd' : vrrpDispatch host { inp with stack := stack } (d.veil a m pkt buf) = none := by
      have hstate : (d.veil a m pkt buf).vrrp.state = d.vrrp.state := rfl
      rw [vrrpDispatch] at hd ⊢
      rw [hstate]
      split <;> simp_all
    simp only [hd] at hv
    obtain ⟨-, rfl, rfl⟩ : _ = ret ∧ d = d' ∧ [] = out' := by simpa using hv
    refine ⟨d.veil a m pkt buf, ?_, rfl⟩
    simp only [processStep, vrrpProcess, hd']
    rfl
  | some step =>
    simp only [hd] at hv
    obtain ⟨r, rfl, hv⟩ := bind_eq_ok.mp hv
    obtain ⟨r', hr', hess, hout⟩ := vrrpDispatch_veil a m pkt hsteady hd
    obtain ⟨-, rfl, rfl⟩ : 0 = ret ∧ _ = d' ∧ r.2 = out' := by simpa using hv
    refine ⟨r'.1.dumped, ?_, ?_⟩
    · simp only [processStep, vrrpProcess, hr', ← hout]
      rfl
    · exact congrArg Daemon.dumped hess

end Uvrrpd
