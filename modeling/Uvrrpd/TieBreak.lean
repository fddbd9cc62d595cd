import Uvrrpd.Isolation
import Uvrrpd.Lan
import Uvrrpd.Library.WrappedOrder

/-! The tie-break between routers of equal priority. IPv6 addresses are compared octet
by octet, IPv4 addresses by the sign of a 32-bit difference, which is the order of
the addresses only where these are less than half the address space apart. -/
namespace Uvrrpd
open Library.Runs
open Library.WrappedOrder

def IpxAddr.number (family : Family) (a : IpxAddr) : Nat := bigValue (a.octets family)

def HALF_SPACE : Nat := 2 ^ 31

def Ranked (family : Family) (s t : IpxAddr) : Prop :=
  Tells (ipxCmp family s t) (s.number family) (t.number family) ∧
    Tells (ipxCmp family t s) (t.number family) (s.number family)

private theorem inet_lt (a : IpxAddr) : a.number .inet < 2 * HALF_SPACE := by
  have h := bigValue_lt (a.octets .inet)
  rw [show (a.octets .inet).length = 4 from a.addr.toList_length] at h
  exact h

private theorem ipxCmp_inet (s t : IpxAddr) :
    ipxCmp .inet s t = difference HALF_SPACE (s.number .inet) (t.number .inet) := rfl

private theorem inet6_length (s t : IpxAddr) : s.addr6.toList.length = t.addr6.toList.length := by
  rw [s.addr6.toList_length, t.addr6.toList_length]

private theorem tells_inet6 (s t : IpxAddr) :
    Tells (ipxCmp .inet6 s t) (s.number .inet6) (t.number .inet6) :=
  ⟨memcmp_pos (inet6_length s t), memcmp_neg (inet6_length s t)⟩

theorem ranked_iff (family : Family) (s t : IpxAddr) :
    Ranked family s t ↔ family = .inet6 ∨ Near HALF_SPACE (s.number .inet) (t.number .inet) := by
  cases family with
  | inet =>
    rw [Ranked, ipxCmp_inet, ipxCmp_inet, tells_difference_iff (inet_lt s) (inet_lt t)]
    simp
  | inet6 => exact iff_of_true ⟨tells_inet6 s t, tells_inet6 t s⟩ (.inl rfl)

/-- Antisymmetry. -/
private theorem ipxCmp_antisymm_iff (family : Family) (s t : IpxAddr) :
    (0 < ipxCmp family s t ↔ ipxCmp family t s < 0) ↔
      family = .inet6 ∨ ¬ Opposite HALF_SPACE (s.number .inet) (t.number .inet) := by
  cases family with
  | inet =>
    rw [ipxCmp_inet, ipxCmp_inet, difference_antisymm_iff (inet_lt s) (inet_lt t)]
    simp
  | inet6 => exact iff_of_true ((tells_inet6 s t).1.trans (tells_inet6 t s).2.symm) (.inl rfl)

/-- Transitivity. -/
private theorem ipxCmp_trans_iff (family : Family) (s t u : IpxAddr) :
    (0 < ipxCmp family s t → 0 < ipxCmp family t u → 0 < ipxCmp family s u) ↔
      family = .inet6 ∨ ¬ GoesRound HALF_SPACE (s.number .inet) (t.number .inet) (u.number .inet) := by
  cases family with
  | inet =>
    rw [ipxCmp_inet, ipxCmp_inet, ipxCmp_inet, difference_trans_iff (inet_lt s) (inet_lt t) (inet_lt u)]
    simp
  | inet6 =>
    refine iff_of_true ?_ (.inl rfl)
    intro hst htu
    rw [(tells_inet6 _ _).1] at *
    exact htu.trans hst

/-- Of two addresses exactly one is the greater. -/
private theorem ipxCmp_decides_iff (family : Family) {s t : IpxAddr}
    (hne : s.octets family ≠ t.octets family) :
    (0 < ipxCmp family s t ↔ ¬ 0 < ipxCmp family t s) ↔
      family = .inet6 ∨ ¬ Opposite HALF_SPACE (s.number .inet) (t.number .inet) := by
  cases family with
  | inet =>
    have hnum : s.number .inet ≠ t.number .inet := fun h =>
      hne (bigValue_inj (s.addr.toList_length.trans t.addr.toList_length.symm) h)
    rw [ipxCmp_inet, ipxCmp_inet, difference_decides_iff (inet_lt s) (inet_lt t) hnum]
    simp
  | inet6 =>
    have hnum : s.number .inet6 ≠ t.number .inet6 := fun h => hne (bigValue_inj (inet6_length s t) h)
    refine iff_of_true ?_ (.inl rfl)
    rw [(tells_inet6 s t).1, (tells_inet6 t s).1]
    omega

/-- A master processes the advertisement that another router currently sends. -/
structure Meets (host : ByteOrder) (inp : Input) (d d₁ rival : Daemon) : Prop where
  state : d.vrrp.state = .master
  listen : vrrpListen host inp d = .ok (.pkt, d₁)
  frame : ∃ datagram, inp.sock = some datagram ∧ Delivers rival.vnet.family rival.vnet.adv datagram

section Masters
variable {host host' : ByteOrder} {c c' : Config} {fresh fresh' : Fresh}
  {h h' : List (Entry Daemon Input Output)} {d d' d₁ d₁' : Daemon} {inp inp' : Input}

/-- What it has then read is the priority and the address of that router. -/
private theorem Meets.heard (hm : Meets host inp d d₁ d') (run' : History host' c' fresh' h' d')
    (hf : d.vnet.family = d'.vnet.family) :
    vrrpAdvGetVersion d₁.vnet ≠ 0 ∧ vrrpAdvGetPriority d₁.vnet = d'.vrrp.priority ∧
      d₁.vrrp.priority = d.vrrp.priority ∧ d₁.vrrp.state = .master ∧
      vrrpAdvAddrCmp d₁.vnet = ipxCmp d.vnet.family d'.vnet.vif.ipx d.vnet.vif.ipx := by
  obtain ⟨contents, -, hco⟩ := run'.coherent
  obtain ⟨datagram, hsock, hdel⟩ := hm.frame
  have hheard := vrrpListen_cases hm.listen
  obtain ⟨a, b, -, -, hr⟩ := hheard.of_pkt rfl
  have hversion := vrrpNetRecv_version hr
  rw [hsock] at hr
  obtain ⟨hprio, hsrc⟩ := hco.announces.received hco hdel hf hr
  have hfixed := SameFixed.heard hheard
  have hvif : d₁.vnet.vif = d.vnet.vif := by
    have hv := congrArg VrrpNet.vif hfixed.2
    exact hv
  refine ⟨hversion, hprio, hheard.priority (by decide), hheard.state.trans hm.state, ?_⟩
  rw [vrrpAdvAddrCmp, hfixed.family, hvif]
  rw [← hf] at hsrc
  cases hfam : d.vnet.family with
  | inet =>
    rw [hfam] at hsrc
    have haddr : d₁.vnet.pkt.sIpx.addr.toList = d'.vnet.vif.ipx.addr.toList := hsrc
    rw [ipxCmp, ipxCmp, vrrpIp4Cmp, vrrpIp4Cmp, haddr]
  | inet6 =>
    rw [hfam] at hsrc
    have haddr : d₁.vnet.pkt.sIpx.addr6.toList = d'.vnet.vif.ipx.addr6.toList := hsrc
    rw [ipxCmp, ipxCmp, vrrpIp6Cmp, vrrpIp6Cmp, haddr]

/-- Between equal priorities, it gives way to the greater address. -/
private theorem Meets.outcome (hm : Meets host inp d d₁ d') (run' : History host' c' fresh' h' d')
    (hf : d.vnet.family = d'.vnet.family) (hp : d'.vrrp.priority = d.vrrp.priority) :
    ∃ d₂ out, vrrpStateMaster host inp d = .ok (d₂, out) ∧
      (d₂.vrrp.state = .backup ↔
        d.vrrp.priority ≠ 0 ∧ 0 < ipxCmp d.vnet.family d'.vnet.vif.ipx d.vnet.vif.ipx) := by
  obtain ⟨hversion, hprio, hown, hstate, hcmp⟩ := hm.heard run' hf
  have hstep : vrrpStateMaster host inp d = .ok (masterPkt host inp.clockSet d₁) := by
    rw [vrrpStateMaster, hm.listen]
    rfl
  refine ⟨(masterPkt host inp.clockSet d₁).1, (masterPkt host inp.clockSet d₁).2, hstep, ?_⟩
  have hmaster : d₁.vrrp.state ≠ .backup := by rw [hstate]; decide
  rw [masterPkt, if_neg hversion, hprio, hp, hcmp, hown]
  by_cases hz : d.vrrp.priority = 0
  · rw [if_pos hz]
    exact iff_of_false hmaster (fun h => h.1 hz)
  rw [if_neg hz, if_neg (UInt8.lt_irrefl _)]
  by_cases hgt : 0 < ipxCmp d.vnet.family d'.vnet.vif.ipx d.vnet.vif.ipx
  · rw [if_pos ⟨rfl, hgt⟩]
    exact iff_of_true rfl ⟨hz, hgt⟩
  · rw [if_neg (fun h => hgt h.2)]
    exact iff_of_false hmaster (fun h => hgt h.2)

end Masters

/-- The tie-break is right in either direction, antisymmetric, transitive, and settles
who of two masters gives way, each exactly under its own condition on how far apart
the addresses are; in IPv6 it always is, where priority 0 is not in use. -/
theorem tie_break_iff (family : Family) (s t u : IpxAddr) :
    (Ranked family s t ↔ family = .inet6 ∨ Near HALF_SPACE (s.number .inet) (t.number .inet)) ∧
    ((0 < ipxCmp family s t ↔ ipxCmp family t s < 0) ↔
      family = .inet6 ∨ ¬ Opposite HALF_SPACE (s.number .inet) (t.number .inet)) ∧
    ((0 < ipxCmp family s t → 0 < ipxCmp family t u → 0 < ipxCmp family s u) ↔
      family = .inet6 ∨ ¬ GoesRound HALF_SPACE (s.number .inet) (t.number .inet) (u.number .inet)) ∧
    ∀ {host host' : ByteOrder} {c c' : Config} {fresh fresh' : Fresh}
      {h h' : List (Entry Daemon Input Output)} {d d' d₁ d₁' : Daemon} {inp inp' : Input},
      History host c fresh h d → History host' c' fresh' h' d' →
      d.vnet.family = family → d'.vnet.family = family → d.vnet.vif.ipx = s → d'.vnet.vif.ipx = t →
      s.octets family ≠ t.octets family → d'.vrrp.priority = d.vrrp.priority →
      Meets host inp d d₁ d' → Meets host' inp' d' d₁' d →
      ∃ d₂ out d₂' out', vrrpStateMaster host inp d = .ok (d₂, out) ∧
        vrrpStateMaster host' inp' d' = .ok (d₂', out') ∧
        ((d₂.vrrp.state = .backup ↔ d₂'.vrrp.state ≠ .backup) ↔ d.vrrp.priority ≠ 0 ∧
          (family = .inet6 ∨ ¬ Opposite HALF_SPACE (s.number .inet) (t.number .inet))) := by
  refine ⟨ranked_iff family s t, ipxCmp_antisymm_iff family s t, ipxCmp_trans_iff family s t u, ?_⟩
  rintro host host' c c' fresh fresh' h h' d d' d₁ d₁' inp inp' run run' rfl hf' rfl rfl hne hp hm hm'
  obtain ⟨d₂, out, hs, hiff⟩ := hm.outcome run' hf'.symm hp
  obtain ⟨d₂', out', hs', hiff'⟩ := hm'.outcome run hf' hp.symm
  refine ⟨d₂, out, d₂', out', hs, hs', ?_⟩
  rw [hf', hp] at hiff'
  rw [hiff, ne_eq d₂'.vrrp.state, hiff', ← ipxCmp_decides_iff d.vnet.family hne]
  by_cases hz : d.vrrp.priority = 0
  · simp [hz]
  · simp only [ne_eq, hz, not_false_eq_true, true_and]
    exact iff_not_comm

def Config.onAddr (c : Config) (addr : InAddr) : Config :=
  { c with vif := { c.vif with ipx := { c.vif.ipx with addr := addr } } }

def addr10 : InAddr := ⟨[10, 0, 0, 1], rfl⟩
def addr138 : InAddr := ⟨[138, 0, 0, 1], rfl⟩
def addr192 : InAddr := ⟨[192, 0, 2, 3], rfl⟩

def labMaster (addr : InAddr) : Daemon := ((lab.onAddr addr).runOn [.quiet ⟨1, 0⟩, .quiet ⟨9, 0⟩]).2

def labWire (addr : InAddr) : Datagram where
  octets := ((labMaster addr).vnet.adv.ip.getD []) ++ ((labMaster addr).vnet.adv.data.getD [])
  saddr6 := IpxAddr.zero.addr6
  hoplimit := none
  pktinfo := none

private theorem labMaster_history (addr : InAddr) :
    History .little (lab.onAddr addr) (.filled 0)
      ((lab.onAddr addr).runOn [.quiet ⟨1, 0⟩, .quiet ⟨9, 0⟩]).1 (labMaster addr) :=
  history_runOn (.inl rfl) _

/-- One master hears another, half a second later. -/
private theorem labMaster_meets {addr rival : InAddr} (hs : (labMaster addr).vrrp.state = .master)
    (hf : (labMaster rival).vnet.family = .inet) (hip : (labMaster rival).vnet.adv.ip.isSome = true)
    (hdata : (labMaster rival).vnet.adv.data.isSome = true)
    (hr : readsSocket (.packet ⟨9, 500000000⟩ (labWire rival)) (labMaster addr) = true)
    (hrecv : (vrrpNetRecv .little (labMaster addr).vnet (labMaster addr).vrrp (some (labWire rival))
      (List.replicate 40 0)).map Prod.fst = .ok .pkt) :
    ∃ d₁, Meets .little (.packet ⟨9, 500000000⟩ (labWire rival)) (labMaster addr) d₁ (labMaster rival) := by
  obtain ⟨ip, hip⟩ := Option.isSome_iff_exists.mp hip
  obtain ⟨data, hdata⟩ := Option.isSome_iff_exists.mp hdata
  obtain ⟨d₁, hl⟩ := vrrpListen_of_recv (d := labMaster addr) hr rfl (vrrpNetRecv_replicate 0 (by decide) hrecv)
  refine ⟨d₁, hs, hl, labWire rival, rfl, ?_⟩
  rw [hf]
  refine ⟨ip, data, hip, hdata, ?_⟩
  show _ ++ _ = _
  rw [hip, hdata]
  rfl

/-- Of masters on 10.0.0.1 and 192.0.2.3, one gives way: the sign is wrong, but it is
so in both directions. -/
theorem tie_break_lab : ∃ d₂ out d₂' out' d₁ d₁',
    Meets .little (.packet ⟨9, 500000000⟩ (labWire addr192)) (labMaster addr10) d₁ (labMaster addr192) ∧
    Meets .little (.packet ⟨9, 500000000⟩ (labWire addr10)) (labMaster addr192) d₁' (labMaster addr10) ∧
    vrrpStateMaster .little (.packet ⟨9, 500000000⟩ (labWire addr192)) (labMaster addr10) = .ok (d₂, out) ∧
    vrrpStateMaster .little (.packet ⟨9, 500000000⟩ (labWire addr10)) (labMaster addr192) = .ok (d₂', out') ∧
    (d₂.vrrp.state = .backup ↔ d₂'.vrrp.state ≠ .backup) := by
  obtain ⟨d₁, hm⟩ : ∃ d₁, Meets .little (.packet ⟨9, 500000000⟩ (labWire addr192)) (labMaster addr10) d₁
      (labMaster addr192) :=
    labMaster_meets (by decide +kernel) (by decide +kernel) (by decide +kernel) (by decide +kernel)
      (by decide +kernel) (by decide +kernel)
  obtain ⟨d₁', hm'⟩ : ∃ d₁, Meets .little (.packet ⟨9, 500000000⟩ (labWire addr10)) (labMaster addr192) d₁
      (labMaster addr10) :=
    labMaster_meets (by decide +kernel) (by decide +kernel) (by decide +kernel) (by decide +kernel)
      (by decide +kernel) (by decide +kernel)
  obtain ⟨d₂, out, d₂', out', hs, hs', hiff⟩ := (tie_break_iff .inet (labMaster addr10).vnet.vif.ipx
    (labMaster addr192).vnet.vif.ipx IpxAddr.zero).2.2.2 (labMaster_history addr10)
    (labMaster_history addr192) (by decide +kernel) (by decide +kernel) rfl rfl (by decide +kernel)
    (by decide +kernel) hm hm'
  refine ⟨d₂, out, d₂', out', d₁, d₁', hm, hm', hs, hs', hiff.mpr ⟨by decide +kernel, .inr ?_⟩⟩
  decide +kernel

/-- 10.0.0.1 is the smaller number, and ahead of 192.0.2.3; masters on 10.0.0.1 and
138.0.0.1 both go on when they hear each other. -/
theorem tie_break_opposite :
    (⟨addr10, IpxAddr.zero.addr6⟩ : IpxAddr).number .inet < (⟨addr192, IpxAddr.zero.addr6⟩ : IpxAddr).number .inet ∧
    0 < ipxCmp .inet ⟨addr10, IpxAddr.zero.addr6⟩ ⟨addr192, IpxAddr.zero.addr6⟩ ∧
    ∃ d₁ d₁' d₂ out d₂' out',
      Meets .little (.packet ⟨9, 500000000⟩ (labWire addr138)) (labMaster addr10) d₁ (labMaster addr138) ∧
      Meets .little (.packet ⟨9, 500000000⟩ (labWire addr10)) (labMaster addr138) d₁' (labMaster addr10) ∧
      vrrpStateMaster .little (.packet ⟨9, 500000000⟩ (labWire addr138)) (labMaster addr10) = .ok (d₂, out) ∧
      vrrpStateMaster .little (.packet ⟨9, 500000000⟩ (labWire addr10)) (labMaster addr138) = .ok (d₂', out') ∧
      d₂.vrrp.state ≠ .backup ∧ d₂'.vrrp.state ≠ .backup := by
  obtain ⟨d₁, hm⟩ : ∃ d₁, Meets .little (.packet ⟨9, 500000000⟩ (labWire addr138)) (labMaster addr10) d₁
      (labMaster addr138) :=
    labMaster_meets (by decide +kernel) (by decide +kernel) (by decide +kernel) (by decide +kernel)
      (by decide +kernel) (by decide +kernel)
  obtain ⟨d₁', hm'⟩ : ∃ d₁, Meets .little (.packet ⟨9, 500000000⟩ (labWire addr10)) (labMaster addr138) d₁
      (labMaster addr10) :=
    labMaster_meets (by decide +kernel) (by decide +kernel) (by decide +kernel) (by decide +kernel)
      (by decide +kernel) (by decide +kernel)
  obtain ⟨d₂, out, hs, hiff⟩ := hm.outcome (labMaster_history addr138) (by decide +kernel) (by decide +kernel)
  obtain ⟨d₂', out', hs', hiff'⟩ := hm'.outcome (labMaster_history addr10) (by decide +kernel) (by decide +kernel)
  refine ⟨by decide, by decide, d₁, d₁', d₂, out, d₂', out', hm, hm', hs, hs', ?_, ?_⟩
  · rw [ne_eq, hiff]
    decide +kernel
  · rw [ne_eq, hiff']
    decide +kernel

end Uvrrpd
