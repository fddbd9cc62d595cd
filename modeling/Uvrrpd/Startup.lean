import Uvrrpd.AdvFormat
import Uvrrpd.OptionRanges
import Uvrrpd.Topology

/-! The start-up sequence of `main`, for every command line. No step of it checks the
whole configuration: the parser may return early with success, the number of VIPs
is kept in an octet, and later steps refuse what comes of either. -/
namespace Uvrrpd
open Library.Memory (bind_eq_ok)

/-- How the other calls of `main` are answered, and what its two structures hold
before anything is written to them. -/
structure StartCalls extends OptionCalls where
  ctrl : VrrpCtrl
  adv : Frame
  pidfileInit : Bool
  pidfileCheck : Bool
  ctrlfile : Bool
  cmd : Option (Nat → CmdPtr)
  socket : Bool
  setsockopt : Bool
  mgroup : Bool
  xmit : Bool
  exec : Bool
  advMem : Mallocs
  topology : Nat → NaAnswers
  daemon : Bool
  chdir : Bool
  pidfile : Bool

def exitUnless (ok : Bool) : Except Fault Unit := if ok then .ok () else .error .exitFailure

def orExit {α : Type} : Option α → Except Fault α
  | some a => .ok a
  | none => .error .exitFailure

def startup (host : ByteOrder) (sys : StartCalls) (args : List Octets) : Except Fault Daemon := do
  let (ret, p) := vrrpOptions sys.toOptionCalls args (.blank sys.ctrl sys.adv)
  exitUnless (ret == 0)
  exitUnless (p.pidfileName.isSome || sys.pidfileInit)
  exitUnless sys.pidfileCheck
  exitUnless sys.ctrlfile
  let words ← orExit sys.cmd
  let vrrp := { p.vrrp with ctrl := vrrpCtrlInit words }
  exitUnless (sys.socket && sys.setsockopt && sys.mgroup && sys.xmit)
  exitUnless sys.exec
  let (ok, vnet) ← vrrpAdvInit host sys.advMem p.vnet vrrp
  exitUnless ok
  let (ok, vnet) ← topologyInit host sys.topology vnet
  exitUnless ok
  exitUnless (if p.background then sys.daemon else sys.chdir)
  exitUnless sys.pidfile
  return ⟨vrrp, vnet, setBit KEEP_GOING 0, []⟩

private theorem exitUnless_bind {α : Type} {ok : Bool} {f : Unit → Except Fault α} {r : α} :
    exitUnless ok >>= f = .ok r ↔ ok = true ∧ f () = .ok r := by
  cases ok with
  | false => simp [exitUnless, bind, Except.bind]
  | true => simp [exitUnless, bind, Except.bind]

structure Started (host : ByteOrder) (sys : StartCalls) (args : List Octets) (d : Daemon)
    (parsed : Parsed) (words : Nat → CmdPtr) (built : VrrpNet) : Prop where
  options : vrrpOptions sys.toOptionCalls args (.blank sys.ctrl sys.adv) = (0, parsed)
  vrrp : d.vrrp = { parsed.vrrp with ctrl := vrrpCtrlInit words }
  advInit : vrrpAdvInit host sys.advMem parsed.vnet d.vrrp = .ok (true, built)
  topology : topologyInit host sys.topology built = .ok (true, d.vnet)
  reg : d.reg = setBit KEEP_GOING 0
  buf : d.buf = []

theorem startup_cases {host : ByteOrder} {sys : StartCalls} {args : List Octets} {d : Daemon}
    (h : startup host sys args = .ok d) : ∃ parsed words built, Started host sys args d parsed words built := by
  rw [startup] at h
  cases hopt : vrrpOptions sys.toOptionCalls args (.blank sys.ctrl sys.adv) with
  | mk ret p =>
    rw [hopt] at h
    simp only [exitUnless_bind] at h
    obtain ⟨hret, -, -, -, h⟩ := h
    obtain rfl : ret = 0 := by simpa using hret
    obtain ⟨words, -, h⟩ := bind_eq_ok.mp h
    obtain ⟨-, h⟩ := exitUnless_bind.mp h
    obtain ⟨-, h⟩ := exitUnless_bind.mp h
    obtain ⟨⟨advOk, built⟩, hadv, h⟩ := bind_eq_ok.mp h
    obtain ⟨rfl, h⟩ := exitUnless_bind.mp h
    obtain ⟨⟨topOk, vnet⟩, htop, h⟩ := bind_eq_ok.mp h
    obtain ⟨rfl, h⟩ := exitUnless_bind.mp h
    obtain ⟨-, h⟩ := exitUnless_bind.mp h
    obtain ⟨-, h⟩ := exitUnless_bind.mp h
    obtain rfl := Except.ok.inj h
    exact ⟨p, words, built, hopt, rfl, hadv, htop, rfl, rfl⟩

/-- The loop over the VIPs is left early when there are more of them than `limit`. -/
private theorem writeVips_count {family : Family} {limit : Nat} {vips : List VrrpIp} {pkt pkt' : Octets}
    {pos pos' naddr : Nat} (hn : naddr ≤ limit)
    (h : writeVips family limit vips pkt pos naddr = .ok (pkt', some pos')) : naddr + vips.length ≤ limit := by
  induction vips generalizing pkt pos naddr with
  | nil => exact hn
  | cons vip rest ih =>
    obtain ⟨pkt₁, -, h⟩ := bind_eq_ok.mp h
    split at h
    · cases h
    · next hle =>
      have hrest := ih (Nat.le_of_not_lt hle) h
      rw [List.length_cons]
      omega

private theorem vrrpAdvBuild_count {host : ByteOrder} {mem : Junk} {vnet : VrrpNet} {vrrp : Vrrp} {data : Iovec}
    (h : vrrpAdvBuild host mem vnet vrrp = .ok (true, data)) : vnet.vipList.length ≤ vrrp.naddr.toNat := by
  rw [vrrpAdvBuild] at h
  split at h
  · cases h
  · obtain ⟨pkt, -, h⟩ := bind_eq_ok.mp h
    obtain ⟨⟨pkt', pos⟩, hvips, h⟩ := bind_eq_ok.mp h
    cases pos with
    | none => cases h
    | some pos =>
      have hcount := writeVips_count (Nat.zero_le _) hvips
      rw [List.length_reverse] at hcount
      omega

/-- So a list that is longer than the count in the header does not pass. -/
private theorem vrrpAdvInit_count {host : ByteOrder} {mem : Mallocs} {vnet vnet' : VrrpNet} {vrrp : Vrrp}
    (h : vrrpAdvInit host mem vnet vrrp = .ok (true, vnet')) :
    vnet.vipList.length ≤ vrrp.naddr.toNat ∧ vnet' = { vnet with adv := vnet'.adv } := by
  obtain ⟨⟨ok₀, eth⟩, -, h⟩ := bind_eq_ok.mp h
  obtain ⟨⟨ok₁, ip⟩, -, h⟩ := bind_eq_ok.mp h
  obtain ⟨⟨ok₂, data⟩, hdata, h⟩ := bind_eq_ok.mp h
  obtain ⟨hok, rfl⟩ := Prod.mk.inj (Except.ok.inj h)
  obtain rfl : ok₂ = true := (Bool.and_eq_true _ _ ▸ hok).2
  have hcount := vrrpAdvBuild_count hdata
  exact ⟨hcount, rfl⟩

/-- A count of VIPs modulo 256 that is not exceeded is exact. -/
theorem count_of_octet {n : Nat} (h : n ≤ (UInt8.ofNat n).toNat) :
    n ≤ VIP_MAX ∧ (UInt8.ofNat n).toNat = n := by
  simp only [UInt8.toNat_ofNat', VIP_MAX] at *
  omega

/-- A router that has not given up: its VIPs are counted, and complete. -/
structure Gated (sys : StartCalls) (p : Parsed) : Prop where
  legal : Legal sys.ctrl sys.adv p
  accepted : p.Accepted
  vips_pos : 1 ≤ p.vnet.vipList.length
  vips_le : p.vnet.vipList.length ≤ VIP_MAX
  count : p.vrrp.naddr.toNat = p.vnet.vipList.length

theorem Started.gated {host : ByteOrder} {sys : StartCalls} {args : List Octets} {d : Daemon}
    {parsed : Parsed} {words : Nat → CmdPtr} {built : VrrpNet}
    (h : Started host sys args d parsed words built) : Gated sys parsed := by
  obtain ⟨hl, ha⟩ := vrrpOptions_spec h.options
  obtain ⟨hcount, hbuilt⟩ := vrrpAdvInit_count h.advInit
  obtain ⟨hne, -⟩ := topologyInit_spec h.topology
  rw [hbuilt] at hne
  have hacc := ha.resolve_left hne
  have hle : parsed.vnet.vipList.length ≤ (UInt8.ofNat parsed.vnet.vipList.length).toNat := by
    rw [← hacc.naddr]
    rw [h.vrrp] at hcount
    exact hcount
  obtain ⟨hmax, hexact⟩ := count_of_octet hle
  exact ⟨hl, hacc, List.length_pos_iff.mpr hne, hmax, by rw [hacc.naddr, hexact]⟩

/-- The network side of the daemon, up to the frames that were built. -/
theorem Started.vnet {host : ByteOrder} {sys : StartCalls} {args : List Octets} {d : Daemon}
    {parsed : Parsed} {words : Nat → CmdPtr} {built : VrrpNet}
    (h : Started host sys args d parsed words built) :
    ∃ vips, vips.map VrrpIp.bare = parsed.vnet.vipList.map VrrpIp.bare ∧
      d.vnet = { parsed.vnet with vipList := vips, adv := built.adv } := by
  obtain ⟨-, hbuilt⟩ := vrrpAdvInit_count h.advInit
  obtain ⟨-, vips, hbare, hvnet⟩ := topologyInit_spec h.topology
  rw [hbuilt] at hbare hvnet
  exact ⟨vips, hbare, hvnet⟩

private theorem length_of_bare {vips vips' : List VrrpIp} (h : vips'.map VrrpIp.bare = vips.map VrrpIp.bare) :
    vips'.length = vips.length := by
  rw [← List.length_map VrrpIp.bare, h, List.length_map]

structure Daemon.Ready (d : Daemon) : Prop where
  vrid : d.vnet.vrid = d.vrrp.vrid
  vrid_range : 1 ≤ d.vrrp.vrid.toNat ∧ d.vrrp.vrid.toNat ≤ VRID_MAX
  ifname : d.vnet.vif.ifname ≠ none
  advInt_range : 1 ≤ d.vrrp.advInt.toNat ∧ d.vrrp.advInt.toNat ≤ ADVINT_MAX
  naddr : d.vrrp.naddr = d.vnet.naddr
  count : d.vnet.naddr.toNat = d.vnet.vipList.length
  count_range : 1 ≤ d.vnet.vipList.length ∧ d.vnet.vipList.length ≤ VIP_MAX

theorem Started.ready {host : ByteOrder} {sys : StartCalls} {args : List Octets} {d : Daemon}
    {parsed : Parsed} {words : Nat → CmdPtr} {built : VrrpNet}
    (h : Started host sys args d parsed words built) : d.Ready := by
  have hg := h.gated
  obtain ⟨vips, hbare, hvnet⟩ := h.vnet
  have hlen := length_of_bare hbare
  have hpos : 1 ≤ parsed.vrrp.vrid.toNat := by
    rw [Nat.one_le_iff_ne_zero]
    intro hzero
    exact hg.accepted.vrid (UInt8.toNat_inj.mp hzero)
  constructor
  · rw [hvnet, h.vrrp]
    exact hg.legal.vrid
  · rw [h.vrrp]
    exact ⟨hpos, Nat.le_of_lt_succ (UInt8.toNat_lt _)⟩
  · rw [hvnet]
    exact hg.accepted.ifname
  · rw [h.vrrp]
    exact ⟨hg.accepted.advInt, hg.legal.advInt⟩
  · rw [hvnet, h.vrrp]
    exact hg.accepted.netNaddr.symm
  · rw [hvnet]
    simp only [hg.accepted.netNaddr, hg.count, hlen]
  · rw [hvnet]
    simp only [hlen]
    exact ⟨hg.vips_pos, hg.vips_le⟩

/-- Whatever the command line is, a daemon that enters its main loop is ready. -/
theorem startup_gate {host : ByteOrder} {sys : StartCalls} {args : List Octets} {d : Daemon}
    (h : startup host sys args = .ok d) : d.Ready := by
  obtain ⟨parsed, words, built, hs⟩ := startup_cases h
  exact hs.ready

def labVip : Octets := [0x31, 0x39, 0x32, 0x2e, 0x30, 0x2e, 0x32, 0x2e, 0x32, 0x30]

def labIfname : Octets := [0x65, 0x74, 0x68, 0x30]

def labCalls : StartCalls where
  posixlyCorrect := false
  argMax := 131072
  strndup := fun _ => true
  vip := fun _ => some ⟨.zero, 0, ⟨none, none, none⟩⟩
  inetPton := fun s => if s = labVip then some ⟨[192, 0, 2, 20], rfl⟩ else none
  inetPton6 := fun _ => none
  getifaddrs := some [⟨labIfname, some (.inet lab.vif.ipx.addr)⟩]
  ifmtu := some 1500
  ctrl := ⟨[], []⟩
  adv := ⟨none, none, none⟩
  pidfileInit := true
  pidfileCheck := true
  ctrlfile := true
  cmd := some (fun _ => .wild)
  socket := true
  setsockopt := true
  mgroup := true
  xmit := true
  exec := true
  advMem := (Fresh.filled 0).mem
  topology := fun _ =>
    ⟨(Fresh.filled 0).mem, some ⟨[0xff, 2, 0, 0, 0, 0, 0, 0, 0, 0, 0, 0, 0, 0, 0, 1], rfl⟩⟩
  daemon := true
  chdir := true
  pidfile := true

/-- `-v 7 -i eth0 192.0.2.20` starts. -/
theorem labCalls_start : ∃ d, startup .little labCalls [[0x2d, 0x76], [0x37], [0x2d, 0x69], labIfname, labVip] =
    .ok d ∧ d.vrrp.vrid = 7 := ⟨_, rfl, rfl⟩

theorem startup_gate_lab : ∃ d, startup .little labCalls [[0x2d, 0x76], [0x37], [0x2d, 0x69], labIfname, labVip] =
    .ok d ∧ d.vrrp.vrid = 7 ∧ d.Ready := by
  obtain ⟨d, h, hvrid⟩ := labCalls_start
  exact ⟨d, h, hvrid, startup_gate h⟩

/-- `-v 0` is taken for a success by `main`, and stopped where the ARP frames are built. -/
example : startup .little labCalls [[0x2d, 0x76], [0x30]] = .error .exitFailure := rfl

/-- The advertisement is built from the addresses alone. -/
private theorem writeVips_bare (family : Family) (limit : Nat) (vips : List VrrpIp) (pkt : Octets) (pos naddr : Nat) :
    writeVips family limit (vips.map VrrpIp.bare) pkt pos naddr = writeVips family limit vips pkt pos naddr := by
  induction vips generalizing pkt pos naddr with
  | nil => rfl
  | cons vip rest ih =>
    rw [List.map_cons, writeVips, writeVips]
    simp only [ih]
    rfl

private theorem vrrpAdvBuild_bare (host : ByteOrder) (mem : Junk) (vnet : VrrpNet) {vips : List VrrpIp}
    (h : vips.map VrrpIp.bare = vnet.vipList.map VrrpIp.bare) (vrrp : Vrrp) :
    vrrpAdvBuild host mem { vnet with vipList := vips } vrrp = vrrpAdvBuild host mem vnet vrrp := by
  have hwrite (pkt : Octets) : writeVips vnet.family vrrp.naddr.toNat vips.reverse pkt VRRP_PKTHDR_SIZE 0 =
      writeVips vnet.family vrrp.naddr.toNat vnet.vipList.reverse pkt VRRP_PKTHDR_SIZE 0 := by
    rw [← writeVips_bare, List.map_reverse, h, ← List.map_reverse, writeVips_bare]
  rw [vrrpAdvBuild, vrrpAdvBuild]
  simp only [hwrite]
  rfl

private theorem vrrpAdvInit_bare {host : ByteOrder} {mem : Mallocs} {vnet vnet' : VrrpNet} {vrrp : Vrrp} {ok : Bool}
    {vips : List VrrpIp} (hv : vips.map VrrpIp.bare = vnet.vipList.map VrrpIp.bare)
    (h : vrrpAdvInit host mem vnet vrrp = .ok (ok, vnet')) :
    vrrpAdvInit host mem { vnet with vipList := vips } vrrp = .ok (ok, { vnet' with vipList := vips }) := by
  obtain ⟨⟨ok₀, eth⟩, heth, h⟩ := bind_eq_ok.mp h
  obtain ⟨⟨ok₁, ip⟩, hip, h⟩ := bind_eq_ok.mp h
  obtain ⟨⟨ok₂, data⟩, hdata, h⟩ := bind_eq_ok.mp h
  obtain ⟨rfl, rfl⟩ := Prod.mk.inj (Except.ok.inj h)
  refine bind_eq_ok.mpr ⟨(ok₀, eth), heth, ?_⟩
  refine bind_eq_ok.mpr ⟨(ok₁, ip), hip, ?_⟩
  refine bind_eq_ok.mpr ⟨(ok₂, data), ?_, rfl⟩
  rw [← hdata]
  exact vrrpAdvBuild_bare host mem.data { vnet with adv := ⟨eth, ip, vnet.adv.data⟩ } hv vrrp

def Gated.config {sys : StartCalls} {p : Parsed} (h : Gated sys p) (vips : List VrrpIp)
    (hv : vips.length = p.vnet.vipList.length) : Config where
  version := p.vrrp.version
  vrid := p.vrrp.vrid
  priority := p.vrrp.priority
  advInt := p.vrrp.advInt
  startDelay := p.vrrp.startDelay
  preempt := p.vrrp.preempt
  password := p.vrrp.authData
  family := p.vnet.family
  vif := p.vnet.vif
  vips := vips
  vrid_pos := h.accepted.vrid
  advInt_pos := h.accepted.advInt
  advInt_le := h.legal.advInt
  startDelay_le := h.legal.startDelay
  password_le := fun text ht => (h.legal.password text ht).1
  password_text := fun text ht => (h.legal.password text ht).2
  vips_pos := hv ▸ h.vips_pos
  vips_le := hv ▸ h.vips_le

private theorem Gated.config_vrrp {sys : StartCalls} {p : Parsed} (h : Gated sys p) {vips : List VrrpIp}
    (hv : vips.length = p.vnet.vipList.length) (hpass : p.vrrp.authType = .simple → p.vrrp.authData ≠ none)
    (ctrl : VrrpCtrl) : (h.config vips hv).vrrp ctrl = { p.vrrp with ctrl := ctrl } := by
  have hnaddr : (h.config vips hv).naddr = p.vrrp.naddr := by
    rw [h.accepted.naddr, ← hv]
    rfl
  have hauth : (h.config vips hv).authType = p.vrrp.authType := by
    rw [Config.authType, show (h.config vips hv).password = p.vrrp.authData from rfl]
    rcases h.legal.auth with hs | ⟨hn, hnone⟩
    · rw [hs, if_pos (Option.isSome_iff_ne_none.mpr (hpass hs))]
    · rw [hn, hnone]
      rfl
  have hmaster : p.vrrp.masterAdvInt = 0 := congrArg Vrrp.masterAdvInt h.legal.vrrp
  have hstate : p.vrrp.state = .init := congrArg Vrrp.state h.legal.vrrp
  have hadv : p.vrrp.advTimer = vrrpTimerClear := congrArg Vrrp.advTimer h.legal.vrrp
  have hdown : p.vrrp.masterdownTimer = vrrpTimerClear := congrArg Vrrp.masterdownTimer h.legal.vrrp
  rw [Config.vrrp, hnaddr, hauth]
  simp only [hmaster, hstate, hadv, hdown]
  rfl

private theorem Gated.config_vnet {sys : StartCalls} {p : Parsed} (h : Gated sys p) {vips : List VrrpIp}
    (hv : vips.length = p.vnet.vipList.length) :
    (h.config vips hv).vnet sys.adv = { p.vnet with vipList := vips } := by
  have hnaddr : (h.config vips hv).naddr = p.vnet.naddr := by
    rw [h.accepted.netNaddr, h.accepted.naddr, ← hv]
    rfl
  have hvrid : (h.config vips hv).vrid = p.vnet.vrid := h.legal.vrid.symm
  have hpkt := congrArg VrrpNet.pkt h.legal.vnet
  have hadv := congrArg VrrpNet.adv h.legal.vnet
  simp only [VrrpNet.unset, vrrpNetInit] at hpkt hadv
  rw [Config.vnet, hnaddr, hvrid]
  simp only [hpkt, hadv]
  rfl

/-- Every daemon that enters the main loop was booted with some configuration, unless
its password was lost for want of memory. -/
theorem startup_boot {host : ByteOrder} {sys : StartCalls} {args : List Octets} {d : Daemon}
    (h : startup host sys args = .ok d) (hpass : d.vrrp.authType = .simple → d.vrrp.authData ≠ none) :
    ∃ c fresh, boot host c fresh = .ok (some d) := by
  obtain ⟨parsed, words, built, hs⟩ := startup_cases h
  obtain ⟨vips, hbare, hvnet⟩ := hs.vnet
  have hlen := length_of_bare hbare
  have hd : d = ⟨{ parsed.vrrp with ctrl := vrrpCtrlInit words },
      { parsed.vnet with vipList := vips, adv := built.adv }, setBit KEEP_GOING 0, []⟩ := by
    rw [← hs.vrrp, ← hvnet, ← hs.reg, ← hs.buf]
  rw [hs.vrrp] at hpass
  have hadv := hs.advInit
  rw [hs.vrrp, (vrrpAdvInit_count hs.advInit).2] at hadv
  refine ⟨hs.gated.config vips hlen, ⟨sys.advMem, words, sys.adv⟩, ?_⟩
  rw [boot]
  simp only [hs.gated.config_vrrp hlen hpass, hs.gated.config_vnet hlen]
  rw [vrrpAdvInit_bare hbare hadv, hd]
  rfl

end Uvrrpd
