import Uvrrpd.BuildFailures
import Uvrrpd.Startup
import Uvrrpd.Fixed

/-! The frames of a transition to MASTER, as a switch sees them. Three templates are
patched in three files; they agree for IPv4 and disagree for IPv6. -/
namespace Uvrrpd
open Library.Memory (bind_eq_ok)
open Library.Runs

def topologies (out : List Output) : List Frame :=
  out.filterMap (fun | .topology frame => some frame | _ => none)

def etherDst (f : Frame) : Option Octets := f.eth.map (·.take 6)

def etherSrc (f : Frame) : Option Octets := f.eth.map (fun hdr => (hdr.drop 6).take 6)

def ipDst (family : Family) (f : Frame) : Option Octets :=
  match family with
  | .inet => f.ip.map (fun hdr => (hdr.drop 16).take 4)
  | .inet6 => f.ip.map (fun hdr => (hdr.drop 24).take 16)

/-- The standard mapping of a multicast address: its low 23 or 32 bits. -/
def multicastMac (family : Family) (daddr : Octets) : Octets :=
  match family with
  | .inet => [0x01, 0x00, 0x5e, daddr.getD 1 0 &&& 0x7f, daddr.getD 2 0, daddr.getD 3 0]
  | .inet6 => [0x33, 0x33] ++ daddr.drop 12

def broadcastMac : Octets := List.replicate ETH_ALEN 0xff

def virtualRouterMac (vrid : UInt8) : Octets := [0x00, 0x00, 0x5e, 0x00, 0x01, vrid]

def Names (family : Family) (vip : VrrpIp) (f : Frame) : Prop :=
  match family with
  | .inet => f.ip = some arpHeader ∧ ∃ data, f.data = some data ∧
      (data.drop 6).take 4 = vip.ipx.addr.toList ∧ (data.drop 16).take 4 = vip.ipx.addr.toList
  | .inet6 => ∃ hdr na, f.ip = some hdr ∧ f.data = some na ∧ (hdr.drop 8).take 16 = vip.ipx.addr6.toList ∧
      na.head? = some ND_NEIGHBOR_ADVERT ∧ (na.drop 8).take 16 = vip.ipx.addr6.toList

def topologyDst (family : Family) (f : Frame) : Option Octets :=
  match family with
  | .inet => some broadcastMac
  | .inet6 => (ipDst .inet6 f).map (multicastMac .inet6)

/-- One frame for each VIP, and the same virtual router behind them and behind all
advertisements. -/
structure Announced (d : Daemon) (out : List Output) (sent : List Frame) : Prop where
  names : List.Forall₂ (Names d.vnet.family) d.vnet.vipList.reverse (topologies out)
  source : ∀ f ∈ topologies out ++ sent, etherSrc f = some (virtualRouterMac d.vrrp.vrid)
  topologyDst : ∀ f ∈ topologies out, etherDst f = topologyDst d.vnet.family f
  advDst : ∀ f ∈ sent, etherDst f = (ipDst d.vnet.family f).map (multicastMac d.vnet.family)

@[simp] theorem topologies_append (xs ys : List Output) : topologies (xs ++ ys) = topologies xs ++ topologies ys :=
  List.filterMap_append

@[simp] theorem topologies_armed (now : Option Timespec) (id : TimerId) (p : Int × Int) :
    topologies (armed now id p) = [] := by
  cases now <;> rfl

@[simp] theorem topologies_topologySend (vnet : VrrpNet) :
    topologies (topologySend vnet) = vnet.vipList.reverse.map VrrpIp.topology := by
  rw [topologies, topologySend, List.filterMap_map]
  exact congrFun List.filterMap_eq_map' _

@[simp] theorem topologies_gotoMaster (now : Option Timespec) (d : Daemon) :
    topologies (vrrpStateGotoMaster now d).2 = d.vnet.vipList.reverse.map VrrpIp.topology := by
  simp only [vrrpStateGotoMaster, topologies_append, topologies_topologySend, topologies_armed, List.append_nil]
  exact List.append_nil _

theorem SameFixed.header {d d' : Daemon} (h : SameFixed d d') :
    d'.vnet.adv.eth = d.vnet.adv.eth ∧ d'.vnet.adv.ip = d.vnet.adv.ip ∧ d'.vnet.vipList = d.vnet.vipList := by
  have heth := congrArg (fun n => n.adv.eth) h.2
  have hip := congrArg (fun n => n.adv.ip) h.2
  have hvips := congrArg VrrpNet.vipList h.2
  exact ⟨heth, hip, hvips⟩

private theorem vrrpAdvSendZero_header {host : ByteOrder} {vnet vnet' : VrrpNet} {frame : Frame}
    (h : vrrpAdvSendZero host vnet = .ok (frame, vnet')) : frame.eth = vnet.adv.eth ∧ frame.ip = vnet.adv.ip := by
  obtain ⟨p₀, -, h⟩ := bind_eq_ok.mp h
  obtain ⟨p₁, -, h⟩ := bind_eq_ok.mp h
  obtain ⟨p₂, -, h⟩ := bind_eq_ok.mp h
  obtain ⟨p₃, -, h⟩ := bind_eq_ok.mp h
  obtain ⟨p₄, -, h⟩ := bind_eq_ok.mp h
  obtain ⟨p₅, -, h⟩ := bind_eq_ok.mp h
  obtain ⟨p₆, -, h⟩ := bind_eq_ok.mp h
  obtain ⟨rfl, -⟩ := Prod.mk.inj (Except.ok.inj h)
  exact ⟨rfl, rfl⟩

/-- Every advertisement has the headers that were built. -/
private theorem advs_header {host : ByteOrder} {inp : Input} {d d' : Daemon} {out : List Output} {f : Frame}
    (h : processStep host inp d = .ok (d', out)) (hf : f ∈ advs out) :
    f.eth = d.vnet.adv.eth ∧ f.ip = d.vnet.adv.ip := by
  cases processStep_cases h with
  | startMaster =>
    obtain rfl : f = d.vnet.adv := by simpa using hf
    exact ⟨rfl, rfl⟩
  | startBackup => simp at hf
  | stuck => cases hf
  | @serve hs event d₁ d₂ out hl hh =>
    obtain ⟨heth, hip, -⟩ := (SameFixed.heard (vrrpListen_cases hl)).header
    have hbuilt (hadv : f = d₁.vnet.adv) : f.eth = d.vnet.adv.eth ∧ f.ip = d.vnet.adv.ip := by
      rw [hadv]
      exact ⟨heth, hip⟩
    cases hh with
    | ignore => cases hf
    | takeover => exact hbuilt (by simpa using hf)
    | shorten => simp at hf
    | follow => simp at hf
    | restart => cases hf
    | tick => exact hbuilt (by simpa using hf)
    | answer => exact hbuilt (by simpa using hf)
    | yield => simp at hf
    | resign hs he hr hz =>
      obtain rfl := List.mem_singleton.mp hf
      obtain ⟨heth', hip'⟩ := vrrpAdvSendZero_header hz
      exact ⟨heth'.trans heth, hip'.trans hip⟩

private theorem mem_hooks {state : VrrpState} {out : List Output} : state ∈ hooks out ↔ .exec state ∈ out := by
  rw [hooks, List.mem_filterMap]
  constructor
  · rintro ⟨o, ho, he⟩
    cases o <;> simp_all
  · intro h
    exact ⟨_, h, rfl⟩

/-- A step with a transition to MASTER sends all frames that were built, and an advertisement. -/
private theorem transition_cases {host : ByteOrder} {inp : Input} {d d' : Daemon} {out : List Output}
    (h : processStep host inp d = .ok (d', out)) (hmaster : .exec .master ∈ out) :
    topologies out = d.vnet.vipList.reverse.map VrrpIp.topology ∧ advs out ≠ [] := by
  rw [← mem_hooks] at hmaster
  cases processStep_cases h with
  | startMaster => exact ⟨topologies_gotoMaster _ _, by simp⟩
  | startBackup hs =>
    rw [hooks_exec_cons, hooks_gotoBackup, if_neg (by simpa [Daemon.primed] using hs)] at hmaster
    simp at hmaster
  | stuck => cases hmaster
  | @serve hs event d₁ d₂ out hl hh =>
    obtain ⟨-, -, hvips⟩ := (SameFixed.heard (vrrpListen_cases hl)).header
    cases hh with
    | takeover =>
      rw [topologies_gotoMaster, hvips]
      exact ⟨rfl, by simp⟩
    | ignore => cases hmaster
    | shorten => simp at hmaster
    | follow => simp at hmaster
    | restart => cases hmaster
    | tick => simp at hmaster
    | answer => simp at hmaster
    | yield hs => simp [hs] at hmaster
    | resign => simp at hmaster

section
variable {host : ByteOrder} {sys : StartCalls} {args : List Octets} {d₀ : Daemon}

private theorem ip4Header_dst (len : Nat) {check saddr : Octets} (hc : check.length = 2) (hs : saddr.length = 4) :
    ((ip4Header len check saddr).drop 16).take 4 = INADDR_VRRP_GROUP := by
  obtain ⟨a, b, hab⟩ := exists_net16 len
  obtain ⟨c, d, hcd⟩ := exists_net16 0xdead
  match check, hc, saddr, hs with
  | [_, _], _, [_, _, _, _], _ => rw [ip4Header, hab, hcd]; rfl

/-- The headers of all advertisements. -/
private theorem started_adv (hstart : startup host sys args = .ok d₀) :
    d₀.vnet.adv.eth = some (advEthHeader d₀.vrrp.vrid d₀.vnet.family) ∧
      (d₀.vnet.family = .inet → ipDst .inet d₀.vnet.adv = some INADDR_VRRP_GROUP) := by
  obtain ⟨parsed, words, built, hs⟩ := startup_cases hstart
  have hg := hs.gated
  obtain ⟨vips, -, hvnet⟩ := hs.vnet
  have hnaddr : parsed.vnet.naddr = d₀.vrrp.naddr := by
    rw [hs.vrrp, hg.accepted.netNaddr, hg.accepted.naddr]
  have hcount : parsed.vnet.vipList.length = d₀.vrrp.naddr.toNat := by
    rw [hs.vrrp]
    exact hg.count.symm
  obtain ⟨-, contents, -, hbuilt⟩ := vrrpAdvInit_spec hnaddr hcount hs.advInit
  have hvrid : d₀.vrrp.vrid = parsed.vnet.vrid := by
    rw [hs.vrrp]
    exact hg.legal.vrid.symm
  rw [hvnet, hbuilt, hvrid]
  refine ⟨rfl, fun hf => ?_⟩
  simp only at hf
  simp only [ipDst, advFrame, advIpHeader, hf, Option.map_some]
  rw [ip4Header_dst _ rfl (by simp)]

/-- The frame of each VIP is what one turn of the loop has left. -/
private theorem started_topology (hstart : startup host sys args = .ok d₀) {i : Nat} {vip : VrrpIp}
    (h : d₀.vnet.vipList.reverse[i]? = some vip) :
    ∃ vnet vip₀, vnet.family = d₀.vnet.family ∧ vnet.vrid = d₀.vrrp.vrid ∧ vip₀.ipx = vip.ipx ∧
      topologyTurn host vnet (sys.topology i) vip₀ =
        .ok ((sys.topology i).suffice d₀.vnet.family, vip.topology) := by
  obtain ⟨parsed, words, built, hs⟩ := startup_cases hstart
  have hready := hs.ready
  obtain ⟨-, vips, hbare, hvnet⟩ := topologyInit_spec hs.topology
  have hfamily : built.family = d₀.vnet.family := by rw [hvnet]
  have hvrid : built.vrid = d₀.vrrp.vrid := by
    rw [← hready.vrid, hvnet]
  obtain ⟨-, hturns⟩ := topologyInit_status hs.topology
  have hmap : (d₀.vnet.vipList.reverse.map VrrpIp.bare)[i]? = some vip.bare := by
    rw [List.getElem?_map, h]
    rfl
  have hvips : d₀.vnet.vipList.map VrrpIp.bare = built.vipList.map VrrpIp.bare := by rw [hvnet, hbare]
  rw [List.map_reverse, hvips, ← List.map_reverse, List.getElem?_map, Option.map_eq_some_iff] at hmap
  obtain ⟨vip₀, hvip₀, hbare₀⟩ := hmap
  have hipx := congrArg VrrpIp.ipx hbare₀
  obtain ⟨frame, hturn, hsent⟩ := hturns i vip₀ hvip₀
  rw [topologySend, List.getElem?_map, h] at hsent
  obtain rfl : vip.topology = frame := Output.topology.inj (Option.some.inj hsent)
  rw [hfamily] at hturn
  exact ⟨built, vip₀, hfamily, hvrid, hipx, hturn⟩

def arpFrame (mem : Mallocs) (vrid : UInt8) (addr : Octets) : Frame :=
  ⟨mem.eth.map (fun _ => topologyEthHeader vrrpArpEth vrid ETHERTYPE_ARP), mem.ip.map (fun _ => arpHeader),
    mem.data.map (fun _ => arpPayload vrid addr)⟩

private theorem started_arp (hstart : startup host sys args = .ok d₀) (hfamily : d₀.vnet.family = .inet) {i : Nat}
    {vip : VrrpIp} (h : d₀.vnet.vipList.reverse[i]? = some vip) :
    vip.topology = arpFrame (sys.topology i).toMallocs d₀.vrrp.vrid vip.ipx.addr.toList := by
  obtain ⟨vnet, vip₀, hf, hvrid, hipx, hturn⟩ := started_topology hstart h
  rw [topologyTurn, hf.trans hfamily] at hturn
  simp only [vrrpArpVip_spec] at hturn
  rw [arpFrame, ← hvrid, ← hipx]
  exact (Prod.mk.inj (Except.ok.inj hturn)).2.symm

/-- With everything built, the frame of a VIP names it. -/
private theorem names_inet {vip : VrrpIp} {f : Frame} (hip : f.ip = some arpHeader) {vrid : UInt8}
    (hdata : f.data = some (arpPayload vrid vip.ipx.addr.toList)) : Names .inet vip f := by
  obtain ⟨p, q, r, s, ha⟩ := exists_addr4 vip.ipx.addr
  refine ⟨hip, _, hdata, ?_, ?_⟩
  · rw [ha]
    rfl
  · rw [ha]
    rfl

section
variable {d : Daemon} {h : List (Entry Daemon Input Output)} {out : List Output} {sent : List Frame}

/-- All advertisements of a run have the headers that were built at the start. -/
theorem advs_run_header (run : Run (processStep host) d₀ h d) {f : Frame} (hf : f ∈ advs (outputs h)) :
    f.eth = d₀.vnet.adv.eth ∧ f.ip = d₀.vnet.adv.ip := by
  rw [mem_advs, outputs, List.mem_flatMap] at hf
  obtain ⟨e, he, hf⟩ := hf
  obtain ⟨before, hbefore, -, hstep⟩ := run.mem he
  obtain ⟨heth, hip⟩ := advs_header hstep (mem_advs.mpr hf)
  obtain ⟨heth', hip', -⟩ := (SameFixed.run hbefore).header
  exact ⟨heth.trans heth', hip.trans hip'⟩

/-- A transition to MASTER in a run sends the frames that were built at the start. -/
private theorem transition_run (run : Run (processStep host) d₀ h d) {e : Entry Daemon Input Output} (he : e ∈ h)
    (hmaster : .exec .master ∈ e.output) :
    topologies e.output = d₀.vnet.vipList.reverse.map VrrpIp.topology ∧ advs (outputs h) ≠ [] := by
  obtain ⟨before, hbefore, -, hstep⟩ := run.mem he
  obtain ⟨htop, hadv⟩ := transition_cases hstep hmaster
  rw [(SameFixed.run hbefore).header.2.2] at htop
  refine ⟨htop, ?_⟩
  obtain ⟨f, hf⟩ := List.exists_mem_of_ne_nil _ hadv
  have hmem : f ∈ advs (outputs h) := by
    rw [mem_advs] at hf ⊢
    exact List.mem_flatMap.mpr ⟨e, he, hf⟩
  exact List.ne_nil_of_mem hmem

/-- The template of the advertisements has the destination of the IPv4 group. -/
private theorem Announced.inet (hann : Announced d₀ out sent) (hstart : startup host sys args = .ok d₀)
    (hheader : ∀ f ∈ sent, f.eth = d₀.vnet.adv.eth) (hne : sent ≠ []) : d₀.vnet.family = .inet := by
  cases hf : d₀.vnet.family with
  | inet => rfl
  | inet6 =>
    obtain ⟨f, hmem⟩ := List.exists_mem_of_ne_nil _ hne
    have hdst := hann.advDst f hmem
    rw [etherDst, hheader f hmem, (started_adv hstart).1, hf] at hdst
    cases hi : ipDst .inet6 f <;> rw [hi] at hdst <;> simp [multicastMac, advEthHeader] at hdst

/-- Each of the three buffers is read by something that is asked for. -/
private theorem Announced.suffice (hann : Announced d₀ out sent) (hstart : startup host sys args = .ok d₀)
    (hfamily : d₀.vnet.family = .inet) (htop : topologies out = d₀.vnet.vipList.reverse.map VrrpIp.topology) {i : Nat}
    (hi : i < d₀.vnet.vipList.length) : (sys.topology i).suffice .inet = true := by
  obtain ⟨vip, hvip⟩ : ∃ vip, d₀.vnet.vipList.reverse[i]? = some vip :=
    ⟨_, List.getElem?_eq_getElem (by simpa using hi)⟩
  have hmem : vip ∈ d₀.vnet.vipList.reverse := List.mem_of_getElem? hvip
  have hframe := started_arp hstart hfamily hvip
  have hnames := hann.names
  rw [htop, hfamily, List.forall₂_map_right_iff, List.forall₂_same] at hnames
  obtain ⟨hip, data, hdata, -⟩ := hnames vip hmem
  have hsrc := hann.source vip.topology (List.mem_append_left _ (by rw [htop]; exact List.mem_map_of_mem hmem))
  rw [hframe] at hip hdata hsrc
  simp only [arpFrame, etherSrc, Option.map_eq_some_iff] at hip hdata hsrc
  obtain ⟨ceth, ⟨_, heth, -⟩, -⟩ := hsrc
  obtain ⟨cip, hip, -⟩ := hip
  obtain ⟨cdata, hdata, -⟩ := hdata
  simp [NaAnswers.suffice, heth, hip, hdata]

/-- With everything built for IPv4, all frames are those of the virtual router. -/
private theorem announced_of_suffice (hstart : startup host sys args = .ok d₀) (hfamily : d₀.vnet.family = .inet)
    (htop : topologies out = d₀.vnet.vipList.reverse.map VrrpIp.topology)
    (hheader : ∀ f ∈ sent, f.eth = d₀.vnet.adv.eth ∧ f.ip = d₀.vnet.adv.ip)
    (hsuffice : ∀ i < d₀.vnet.vipList.length, (sys.topology i).suffice .inet = true) : Announced d₀ out sent := by
  obtain ⟨heth, hip⟩ := started_adv hstart
  have hbuilt (vip : VrrpIp) (hmem : vip ∈ d₀.vnet.vipList.reverse) : vip.topology =
      ⟨some (topologyEthHeader vrrpArpEth d₀.vrrp.vrid ETHERTYPE_ARP), some arpHeader,
        some (arpPayload d₀.vrrp.vrid vip.ipx.addr.toList)⟩ := by
    obtain ⟨i, hi, hvip⟩ := List.getElem_of_mem hmem
    have hall := hsuffice i (by simpa using hi)
    simp only [NaAnswers.suffice, beq_self_eq_true, Bool.true_or, Bool.and_true, Bool.and_eq_true,
      Option.isSome_iff_exists] at hall
    obtain ⟨⟨⟨_, heth⟩, _, hip⟩, _, hdata⟩ := hall
    rw [started_arp hstart hfamily (List.getElem?_eq_some_iff.mpr ⟨hi, hvip⟩), arpFrame, heth, hip, hdata]
    rfl
  have hturn (f : Frame) (hf : f ∈ topologies out) :
      f.eth = some (topologyEthHeader vrrpArpEth d₀.vrrp.vrid ETHERTYPE_ARP) := by
    rw [htop] at hf
    obtain ⟨vip, hmem, rfl⟩ := List.mem_map.mp hf
    rw [hbuilt vip hmem]
  constructor
  · rw [htop, hfamily, List.forall₂_map_right_iff, List.forall₂_same]
    intro vip hmem
    rw [hbuilt vip hmem]
    exact names_inet rfl rfl
  · intro f hf
    rcases List.mem_append.mp hf with hf | hf
    · rw [etherSrc, hturn f hf]
      rfl
    · rw [etherSrc, (hheader f hf).1, heth]
      rfl
  · intro f hf
    rw [etherDst, hturn f hf, hfamily]
    rfl
  · intro f hf
    have hdst : ipDst .inet f = ipDst .inet d₀.vnet.adv := by simp only [ipDst, (hheader f hf).2]
    rw [etherDst, (hheader f hf).1, heth, hfamily, hdst, hip hfamily]
    rfl

end

end

/-- A transition to MASTER of a started daemon matches the virtual router exactly when
the family is IPv4 and every frame was built. -/
theorem announcement_matches_iff {host : ByteOrder} {sys : StartCalls} {args : List Octets} {d₀ d : Daemon}
    {h : List (Entry Daemon Input Output)} {e : Entry Daemon Input Output}
    (hstart : startup host sys args = .ok d₀) (run : Run (processStep host) d₀ h d) (he : e ∈ h)
    (hmaster : .exec .master ∈ e.output) :
    Announced d₀ e.output (advs (outputs h)) ↔
      d₀.vnet.family = .inet ∧ ∀ i < d₀.vnet.vipList.length, (sys.topology i).suffice .inet = true := by
  obtain ⟨htop, hne⟩ := transition_run run he hmaster
  have hheader (f : Frame) (hf : f ∈ advs (outputs h)) : f.eth = d₀.vnet.adv.eth ∧ f.ip = d₀.vnet.adv.ip :=
    advs_run_header run hf
  constructor
  · intro hann
    have hfamily := hann.inet hstart (fun f hf => (hheader f hf).1) hne
    exact ⟨hfamily, fun i hi => hann.suffice hstart hfamily htop hi⟩
  · rintro ⟨hfamily, hsuffice⟩
    exact announced_of_suffice hstart hfamily htop hheader hsuffice

def labOwner (options : List Octets) (vip : Octets) : List Octets :=
  options ++ [[0x2d, 0x76], [0x37], [0x2d, 0x69], labIfname, [0x2d, 0x70], [0x32, 0x35, 0x35], vip]

private theorem processStep_owner (host : ByteOrder) (inp : Input) {d : Daemon} (hs : d.vrrp.state = .init)
    (hp : d.vrrp.priority = 255) : ∃ d' out, processStep host inp d = .ok (d', out) ∧ .exec .master ∈ out := by
  refine ⟨(vrrpStateGotoMaster inp.clockSet d.primed).1.dumped,
    .exec .init :: (vrrpStateGotoMaster inp.clockSet d.primed).2, ?_, ?_⟩
  · rw [processStep, vrrpProcess, vrrpDispatch, hs]
    simp only [vrrpStateInit, if_pos hp, ok_bind, pure_eq_ok]
    rfl
  · rw [← mem_hooks, hooks_exec_cons, hooks_gotoMaster]
    simp

/-- `-v 7 -i eth0 -p 255 192.0.2.20`. -/
theorem announcement_matches_lab : ∃ d₀ d h e, startup .little labCalls (labOwner [] labVip) = .ok d₀ ∧
    Run (processStep .little) d₀ h d ∧ e ∈ h ∧ .exec .master ∈ e.output ∧
    Announced d₀ e.output (advs (outputs h)) := by
  obtain ⟨d₀, hstart, hs, hp, hf⟩ : ∃ d₀, startup .little labCalls (labOwner [] labVip) = .ok d₀ ∧
      d₀.vrrp.state = .init ∧ d₀.vrrp.priority = 255 ∧ d₀.vnet.family = .inet := ⟨_, rfl, rfl, rfl, rfl⟩
  obtain ⟨d, out, hstep, hmaster⟩ := processStep_owner .little (.quiet ⟨1, 0⟩) hs hp
  have hrun := Run.nil.snoc hstep
  have hmem : (⟨d₀, .quiet ⟨1, 0⟩, out, d⟩ : Entry Daemon Input Output) ∈
      [] ++ [(⟨d₀, .quiet ⟨1, 0⟩, out, d⟩ : Entry Daemon Input Output)] := by simp
  exact ⟨d₀, d, _, _, hstart, hrun, hmem, hmaster,
    (announcement_matches_iff hstart hrun hmem hmaster).mpr ⟨hf, fun _ _ => rfl⟩⟩

def labVip6 : Octets := [0x66, 0x65, 0x38, 0x30, 0x3a, 0x3a, 0x32, 0x30]

def labStart6 : StartCalls := { labCalls with
  inetPton6 := fun s =>
    if s = labVip6 then some ⟨[0xfe, 0x80, 0, 0, 0, 0, 0, 0, 0, 0, 0, 0, 0, 0, 0, 0x20], rfl⟩ else none }

/-- `-6 -v 7 -i eth0 -p 255 fe80::20` sends the neighbour advertisement from 00:00:52:00:01:07,
and the advertisements to 01:00:5e:00:00:12. -/
theorem announcement_differs : ∃ d₀ d e, startup .little labStart6 (labOwner [[0x2d, 0x36]] labVip6) = .ok d₀ ∧
    Run (processStep .little) d₀ [e] d ∧ .exec .master ∈ e.output ∧
    ¬ Announced d₀ e.output (advs (outputs [e])) ∧
    (∃ f ∈ topologies e.output, etherSrc f = some [0x00, 0x00, 0x52, 0x00, 0x01, 0x07]) ∧
    ∃ f ∈ advs e.output, etherDst f = some [0x01, 0x00, 0x5e, 0x00, 0x00, 0x12] ∧
      ipDst .inet6 f = some IN6ADDR_VRRP_GROUP := by
  obtain ⟨d₀, hstart, hs, hp, hf, hdst, hip⟩ : ∃ d₀, startup .little labStart6 (labOwner [[0x2d, 0x36]] labVip6) =
      .ok d₀ ∧ d₀.vrrp.state = .init ∧ d₀.vrrp.priority = 255 ∧ d₀.vnet.family = .inet6 ∧
      etherDst d₀.vnet.adv = some [0x01, 0x00, 0x5e, 0x00, 0x00, 0x12] ∧
      ipDst .inet6 d₀.vnet.adv = some IN6ADDR_VRRP_GROUP := ⟨_, rfl, rfl, rfl, rfl, rfl, rfl⟩
  obtain ⟨f, hvips, hsrc⟩ : ∃ f, d₀.vnet.vipList.reverse.map VrrpIp.topology = [f] ∧
      etherSrc f = some [0x00, 0x00, 0x52, 0x00, 0x01, 0x07] := by
    obtain rfl := Except.ok.inj hstart
    exact ⟨_, rfl, rfl⟩
  obtain ⟨d, out, hstep, hmaster⟩ := processStep_owner .little (.quiet ⟨1, 0⟩) hs hp
  have hrun := Run.nil.snoc hstep
  obtain ⟨htop, hadv⟩ := transition_cases hstep hmaster
  obtain ⟨adv, hsent⟩ := List.exists_mem_of_ne_nil _ hadv
  obtain ⟨hethAdv, hipAdv⟩ := advs_header hstep hsent
  have hethDst : etherDst adv = some [0x01, 0x00, 0x5e, 0x00, 0x00, 0x12] := by
    rw [← hdst, etherDst, etherDst, hethAdv]
  have hipDst : ipDst .inet6 adv = some IN6ADDR_VRRP_GROUP := by rw [← hip, ipDst, ipDst, hipAdv]
  refine ⟨d₀, d, _, hstart, hrun, hmaster, fun hann => ?_, ⟨f, ?_, hsrc⟩, adv, hsent, hethDst, hipDst⟩
  · have hmapped := hann.advDst adv (by simpa [mem_advs, outputs] using hsent)
    rw [hf, hethDst, hipDst] at hmapped
    cases hmapped
  · rw [htop, hvips]
    exact List.mem_singleton_self f

end Uvrrpd
