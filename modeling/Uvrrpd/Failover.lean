import Uvrrpd.Agreement
import Uvrrpd.Conformance
import Uvrrpd.Library.Heartbeats

/-! How long the network is without its master. The advertisements of a master are
heartbeats, and the masterdown timer is the patience of a backup; so delays and late
calls of the program are harmless as long as they fit into what the masterdown
interval leaves beyond the advertisement interval. -/
namespace Uvrrpd
open Library.Heartbeats (Chronological Delivered Regular recently_heard)
open Library.Runs
open Protocol

variable {ι : Type}

def reading (e : LanEntry ι) : Int := (e.input.2.clockSet.getD ⟨0, 0⟩).nanos

/-- The same on a clock from which those of the routers differ by offsets. -/
def instant (offset : ι → Int) (e : LanEntry ι) : Int := reading e - offset e.input.1

def Config.advTime (c : Config) : Int := c.advInt.toNat * c.parameters.unit

def Config.masterdownTime (c : Config) : Int :=
  (c.parameters.masterDownInterval c.priority c.advInt.toNat : Nat) * c.parameters.unit

def Beats (g : ι) (e : LanEntry ι) : Prop :=
  e.input.1 = g ∧ ∃ frame ∈ advs e.output, framePriority frame ≠ some 0

/-- Router `i` processes an advertisement of `g` that is no resignation. -/
def Hears (lan : ι → Member) (i g : ι) (e : LanEntry ι) : Prop :=
  e.input.1 = i ∧ ∃ m, Processes lan e m ∧ m.sender = g ∧ framePriority m.frame ≠ some 0

/-- Nobody reloads or processes a resignation, and `g` processes advertisements of lower
priorities only. -/
structure Undisturbed (lan : ι → Member) (g : ι) (e : LanEntry ι) : Prop where
  running : ¬ Reloads lan e
  alive : ∀ m, Processes lan e m → framePriority m.frame ≠ some 0
  lower : ∀ m, Processes lan e m → e.input.1 = g → (lan m.sender).config.priority < (lan g).config.priority

def ShortIntervals (lan : ι → Member) : Prop :=
  ∀ i, (lan i).config.version = .rfc5798 → (lan i).config.advInt.toNat ≤ 255

structure Known (lan : ι → Member) (e : LanEntry ι) : Prop where
  step : processStep (lan e.input.1).host e.input.2 (before e) = .ok (after e, e.output)
  others : ∀ i, i ≠ e.input.1 → e.post.daemons i = e.pre.daemons i
  consistent : Consistent lan e.pre
  genuine : Genuine lan e
  ticks : e.input.2.Ticks
  learns : (lan e.input.1).config.version = .rfc5798 → LearnsShort (lan e.input.1).host e.input.2 (before e)
  near : HearsNear (lan e.input.1).host e.input.2 (before e)
  pre : ∀ i, ∃ contents, Tracks (lan i).config contents (e.pre.daemons i)
  post : ∀ i, ∃ contents, Tracks (lan i).config contents (e.post.daemons i)

/-- The addresses that a router compares are those of the configurations. -/
private theorem heard_numbers {lan : ι → Member} {e : LanEntry ι} {m : Message ι} {d : Daemon} (hv : VirtualRouter lan)
    (hc : Consistent lan e.pre) (hl : Listens lan e .pkt d) (hm : InFlight lan e m) :
    d.vnet.family = (lan e.input.1).config.family ∧
    d.vnet.vif.ipx.number d.vnet.family =
      bigValue ((lan e.input.1).config.vif.ipx.octets (lan e.input.1).config.family) ∧
    d.vnet.pkt.sIpx.number d.vnet.family =
      bigValue ((lan m.sender).config.vif.ipx.octets (lan m.sender).config.family) := by
  obtain ⟨hsent, datagram, hsock, hdel⟩ := hm
  obtain ⟨contents, s, prio, hco, hcfg, hann, -⟩ := hc.authentic m hsent
  obtain ⟨k, run⟩ := hc.local_run e.input.1
  have hheard := vrrpListen_cases hl.2
  have hcfg' : Configured (lan e.input.1).config d := run.configured.of_fixed (.heard hheard)
  obtain ⟨a, b, -, -, hr⟩ := hheard.of_pkt rfl
  rw [hsock] at hr
  have hfam : d.vnet.family = s.vnet.family := by rw [hcfg'.family, hcfg.family, hv.family]
  have hfam' : (before e).vnet.family = s.vnet.family := by rw [← hfam, (SameFixed.heard hheard).family]
  rw [← hcfg.family] at hdel
  obtain ⟨-, hsrc⟩ := hann.received hco hdel hfam' hr
  refine ⟨hcfg'.family, ?_, ?_⟩
  · rw [IpxAddr.number, hcfg'.vif, hcfg'.family]
  · rw [IpxAddr.number, hfam, hsrc, hcfg.vif, hcfg.family]

private theorem VirtualRouter.hearsNear {lan : ι → Member} {e : LanEntry ι} (hv : VirtualRouter lan)
    (hc : Consistent lan e.pre) (hg : Genuine lan e) :
    HearsNear (lan e.input.1).host e.input.2 (before e) := by
  intro d₁ hl hs _ hinet
  have hlisten : Listens lan e .pkt d₁ := ⟨.inr ((vrrpListen_cases hl).state ▸ hs), hl⟩
  obtain ⟨m, hm⟩ := hg.origin d₁ hlisten
  obtain ⟨hfam, hown, hsender⟩ := heard_numbers hv hc hlisten hm
  have hi : (lan e.input.1).config.family = .inet := hfam.symm.trans hinet
  have hi' : (lan m.sender).config.family = .inet := (hv.family _ _).trans hi
  rw [hinet] at hown hsender
  rw [hown, hsender, hi, hi']
  exact ⟨hv.near _ _ hi', hv.near _ _ hi⟩

/-- What routers with short intervals send has the high octet of the interval clear. -/
private theorem ShortIntervals.learns {lan : ι → Member} {e : LanEntry ι} (hshort : ShortIntervals lan)
    (hv : VirtualRouter lan) (hc : Consistent lan e.pre) (hg : Genuine lan e)
    (hversion : (lan e.input.1).config.version = .rfc5798) :
    LearnsShort (lan e.input.1).host e.input.2 (before e) := by
  intro d₁ hl _ hwhen
  have hheard := vrrpListen_cases hl
  have hs : (before e).vrrp.state = .backup ∨ (before e).vrrp.state = .master := by
    rw [hheard.state] at hwhen
    exact hwhen.imp And.left And.left
  obtain ⟨m, hsent, datagram, hsock, hdel⟩ := hg.origin d₁ ⟨hs, hl⟩
  obtain ⟨contents, s, prio, hco, hcfg, hann, -⟩ := hc.authentic m hsent
  obtain ⟨k, run⟩ := hc.local_run e.input.1
  have hcfg' : Configured (lan e.input.1).config d₁ := run.configured.of_fixed (.heard hheard)
  obtain ⟨a, b, hvrrp, -, hr⟩ := hheard.of_pkt rfl
  rw [hsock] at hr
  have hfam : (before e).vnet.family = s.vnet.family := by
    rw [← (SameFixed.heard hheard).family, hcfg'.family, hcfg.family, hv.family]
  rw [← hcfg.family] at hdel
  obtain ⟨-, sum, -, -, -, -, hhdr, -⟩ := hann.accepted hco hdel hfam hr
  obtain ⟨-, hver, -⟩ := checkHeader_none (vrrpNetRecv_accepted hr).header
  have hsender : s.vrrp.version = .rfc5798 := by
    apply VrrpVersion.code_inj
    rw [← hversion, ← hcfg'.version, hvrrp, ← hver, hhdr]
    exact (advHdr_version s.vnet { s.vrrp with priority := prio }).symm
  have hsmall := hshort m.sender (hcfg.version.symm.trans hsender)
  rw [← hcfg.advInt] at hsmall
  rw [hhdr]
  simp only [Vrrphdr.withChksum, advHdr, hsender]
  rw [Nat.div_eq_of_lt (by omega)]
  rfl

section History
variable [DecidableEq ι] {lan : ι → Member} {t s : Lan ι} {past h : List (LanEntry ι)}

/-- A step of the network is a step of one of its routers. -/
private theorem Known.of_step (hv : VirtualRouter lan) (hshort : ShortIntervals lan) {act : ι × Input}
    {out : List Output}
    (hc : Consistent lan t) (ht : ∀ i, ∃ contents, Tracks (lan i).config contents (t.daemons i))
    (hs : lanStep lan act t = .ok (s, out)) (hg : Genuine lan ⟨t, act, out, s⟩) (hticks : act.2.Ticks) :
    Known lan ⟨t, act, out, s⟩ := by
  obtain ⟨d, hd, hdaemons, -⟩ := lanStep_ok hs
  have hself : s.daemons act.1 = d := by rw [hdaemons, Function.update_self]
  have hother (i : ι) (hi : i ≠ act.1) : s.daemons i = t.daemons i := by rw [hdaemons, Function.update_of_ne hi]
  have hlearns := hshort.learns (e := ⟨t, act, out, s⟩) hv hc hg
  have hnear := hv.hearsNear (e := ⟨t, act, out, s⟩) hc hg
  refine ⟨?_, hother, hc, hg, hticks, hlearns, hnear, ht, ?_⟩
  · rw [← hself] at hd
    exact hd
  · intro i
    by_cases hi : i = act.1
    · subst hi
      obtain ⟨contents, htracks⟩ := ht act.1
      rw [hself]
      exact ⟨contents, htracks.step hd hticks hlearns⟩
    · rw [hother i hi]
      exact ht i

/-- Every state on the way, and every step. -/
theorem LanHistory.known (hv : VirtualRouter lan) (hshort : ShortIntervals lan) (run : LanHistory lan h s)
    (ticks : ∀ e ∈ h, e.input.2.Ticks) : ∀ e ∈ h, Known lan e := by
  obtain ⟨start, hboot, hnone, hrun, hgen⟩ := run
  have hinv : ∀ k u, Run (lanStep lan) start k u → (∀ e ∈ k, e ∈ h) →
      Consistent lan u ∧ ∀ i, ∃ contents, Tracks (lan i).config contents (u.daemons i) := by
    intro k u hk hsub
    refine ⟨LanHistory.consistent ⟨start, hboot, hnone, hk, fun e he => hgen e (hsub e he)⟩, ?_⟩
    induction hk with
    | nil =>
      intro i
      obtain ⟨contents, htracks, -⟩ := (boot_spec (hboot i)).tracks
      exact ⟨contents, htracks⟩
    | @snoc k u w act out prev hs ih =>
      have hprev (e : LanEntry ι) (he : e ∈ k) : e ∈ h := hsub e (List.mem_append_left _ he)
      have he : ⟨u, act, out, w⟩ ∈ h := hsub _ (by simp)
      have hc := LanHistory.consistent ⟨start, hboot, hnone, prev, fun e he => hgen e (hprev e he)⟩
      exact (Known.of_step hv hshort hc (ih hprev) hs (hgen _ he) (ticks _ he)).post
  intro e he
  obtain ⟨before, hb, hsub, hs⟩ := hrun.mem he
  obtain ⟨hc, htracks⟩ := hinv before e.pre hb hsub
  exact Known.of_step hv hshort hc htracks hs (hgen e he) (ticks e he)

end History

section Moves
variable {lan : ι → Member} {e : LanEntry ι} {g i : ι} {offset : ι → Int}

private theorem observes_cases {host : ByteOrder} {inp : Input} {d : Daemon} {ev : Event}
    (h : d.observes host inp = some ev) : d.vrrp.state = .init ∧ ev = .startup ∨
      ∃ event d₁, (d.vrrp.state = .backup ∨ d.vrrp.state = .master) ∧
        vrrpListen host inp d = .ok (event, d₁) ∧ event.protocol d₁ = some ev := by
  rw [Daemon.observes] at h
  cases hs : d.vrrp.state with
  | init =>
    rw [hs] at h
    exact .inl ⟨rfl, (Option.some.inj h).symm⟩
  | other value =>
    rw [hs] at h
    cases h
  | backup =>
    simp only [hs] at h
    right
    split at h
    · next event d₁ hl => exact ⟨event, d₁, .inl rfl, hl, h⟩
    · cases h
  | master =>
    simp only [hs] at h
    right
    split at h
    · next event d₁ hl => exact ⟨event, d₁, .inr rfl, hl, h⟩
    · cases h

/-- What the machine sees of the event that the wait reports. -/
private theorem protocol_cases {d : Daemon} {event : VrrpEvent} {ev : Event} (h : event.protocol d = some ev) :
    event = .timer ∧ ev = .timer ∨ event = .pkt ∧ ev = d.advertised ∨
      (event = .signal ∨ event = .ctrlFifo) ∧ testBit UVRRPD_RELOAD d.reg = true ∧ ev = .shutdown d.vrrp.priority := by
  have hasked (h : d.shutdown = some ev) :
      testBit UVRRPD_RELOAD d.reg = true ∧ ev = .shutdown d.vrrp.priority := by
    rw [Daemon.shutdown] at h
    split at h
    · next hr => exact ⟨hr, (Option.some.inj h).symm⟩
    · cases h
  cases event with
  | timer => exact .inl ⟨rfl, (Option.some.inj h).symm⟩
  | pkt => exact .inr (.inl ⟨rfl, (Option.some.inj h).symm⟩)
  | signal => exact .inr (.inr ⟨.inl rfl, hasked h⟩)
  | ctrlFifo => exact .inr (.inr ⟨.inr rfl, hasked h⟩)
  | vridMismatch => cases h
  | invalid => cases h

/-- The machine reacts to what the router observes, and to nothing else. -/
private theorem Known.reacts (h : Known lan e) :
    ((before e).observes (lan e.input.1).host e.input.2 = none → (after e).phase = (before e).phase) ∧
    ∀ ev, (before e).observes (lan e.input.1).host e.input.2 = some ev →
      (lan e.input.1).config.parameters.react (reading e) (before e).router (before e).phase ev =
        some ((after e).router, actions e.output) := by
  obtain ⟨contents, htracks⟩ := h.pre e.input.1
  obtain ⟨hidle, hmoves⟩ := htracks.simulated h.step h.ticks h.learns h.near
  obtain ⟨-, -, -, -, now, hnow, -⟩ := h.ticks
  have hread : reading e = now.nanos := by rw [reading, Option.mem_def.mp hnow, Option.getD_some]
  rw [before] at *
  constructor
  · intro ho
    have hsame := (hidle (by simp only [protocolInput, ho])).1
    exact congrArg Router.phase hsame
  · intro ev ho
    have hstep := hmoves (now.nanos, ev) (by simp only [protocolInput, ho, Option.mem_def.mp hnow])
    rw [Parameters.step] at hstep
    split at hstep
    · next next hr =>
      rw [hread, ← Except.ok.inj hstep]
      exact hr
    · cases hstep

theorem Known.priority (h : Known lan e) : (before e).router.priority = (lan e.input.1).config.priority :=
  h.consistent.priority e.input.1

/-- Past its start, a router has learnt its own interval. -/
theorem Known.interval (h : Known lan e) {n : Nat} {due : Int} (hp : (after e).phase = .backup n due) :
    n = (lan e.input.1).config.advInt.toNat := by
  obtain ⟨contents, htracks : Tracks _ contents (after e)⟩ := h.post e.input.1
  have hs : (after e).vrrp.state = .backup := by
    rw [Daemon.phase] at hp
    split at hp
    · assumption
    · cases hp
    · cases hp
  have hn : (after e).vrrp.masterAdvInt.toNat = n := by
    rw [phase_backup hs] at hp
    exact (Phase.backup.inj hp).1
  rw [← hn, ← htracks.configured.advInt]
  exact congrArg UInt16.toNat (htracks.interval (by simp [hs]))

/-- What the machine of a router hears is a message in flight. -/
theorem Known.hears (h : Known lan e) {priority : UInt8} {interval : Nat} {greater : Bool}
    (ho : (before e).observes (lan e.input.1).host e.input.2 = some (.advertisement priority interval greater)) :
    ∃ m d₁, Processes lan e m ∧ Listens lan e .pkt d₁ ∧ InFlight lan e m ∧
      priority = vrrpAdvGetPriority d₁.vnet := by
  rcases observes_cases ho with ⟨-, hev⟩ | ⟨event, d₁, hs, hl, hev⟩
  · cases hev
  rcases protocol_cases hev with ⟨-, heq⟩ | ⟨rfl, heq⟩ | ⟨-, -, heq⟩
  · cases heq
  · obtain ⟨hp, -, -⟩ := Event.advertisement.inj heq
    obtain ⟨m, hm⟩ := h.genuine.origin d₁ ⟨hs, hl⟩
    exact ⟨m, d₁, ⟨⟨d₁, hs, hl⟩, hm⟩, ⟨hs, hl⟩, hm, hp⟩
  · cases heq

/-- A machine shuts down when its router reloads. -/
private theorem reloads_of_shutdown {priority : UInt8}
    (ho : (before e).observes (lan e.input.1).host e.input.2 = some (.shutdown priority)) : Reloads lan e := by
  rcases observes_cases ho with ⟨-, hev⟩ | ⟨event, d₁, hs, hl, hev⟩
  · cases hev
  rcases protocol_cases hev with ⟨-, heq⟩ | ⟨-, heq⟩ | ⟨he, hr, -⟩
  · cases heq
  · cases heq
  · exact ⟨event, d₁, ⟨hs, hl⟩, he, hr⟩

/-- What a router in backup or master state sends on the timer is no resignation. -/
private theorem beats_of_mem {priority : UInt8} (hz : priority ≠ 0)
    (hm : Action.advertise priority ∈ actions e.output) :
    Beats e.input.1 e := by
  obtain ⟨out, hout, hact⟩ := List.mem_filterMap.mp hm
  cases out with
  | adv frame =>
    refine ⟨rfl, frame, List.mem_filterMap.mpr ⟨_, hout, rfl⟩, ?_⟩
    obtain ⟨p, hp, heq⟩ := Option.map_eq_some_iff.mp hact
    obtain rfl := Action.advertise.inj heq
    rw [hp]
    simpa using hz
  | exec => cases hact
  | topology => cases hact
  | _ => cases hact

/-- What the machine of an undisturbed router observes. -/
theorem Known.undisturbed (h : Known lan e) (hv : VirtualRouter lan) (hu : Undisturbed lan g e) {ev : Event}
    (ho : (before e).observes (lan e.input.1).host e.input.2 = some ev) :
    (∀ priority, ev ≠ .shutdown priority) ∧
    ∀ priority interval greater, ev = .advertisement priority interval greater →
      priority ≠ 0 ∧ (e.input.1 = g → priority < (before e).router.priority) := by
  constructor
  · rintro priority rfl
    exact hu.running (reloads_of_shutdown ho)
  · rintro priority interval greater rfl
    obtain ⟨m, d₁, hm, hl, hf, rfl⟩ := h.hears ho
    obtain ⟨hframe, hsender, -, -⟩ := heard_message hv h.consistent hl hf
    have hz : vrrpAdvGetPriority d₁.vnet ≠ 0 := fun h₀ => hu.alive m hm (by rw [hframe, h₀])
    refine ⟨hz, ?_⟩
    intro hg
    rw [h.priority, hsender.resolve_left hz, hg]
    exact hu.lower m hm hg

/-- The router that is to be the master moves on its timer only, and then it beats. -/
private theorem Known.contends (h : Known lan e) (hv : VirtualRouter lan) (hu : Undisturbed lan g e)
    (hg : e.input.1 = g)
    (hz : (lan g).config.priority ≠ 0) {due : Int}
    (hc : (lan g).config.parameters.Contends (before e).phase due) :
    (after e).phase = (before e).phase ∨
      Beats g e ∧ (after e).phase = .master (reading e + (lan g).config.advTime) := by
  subst hg
  obtain ⟨hidle, hmoves⟩ := h.reacts
  cases ho : (before e).observes (lan e.input.1).host e.input.2 with
  | none => exact .inl (hidle ho)
  | some ev =>
    obtain ⟨hrunning, hlower⟩ := h.undisturbed hv hu ho
    have hcont := Parameters.Contends.react (r := (before e).router) hc (hmoves ev ho) hrunning
      (fun priority received greater hev => (hlower priority received greater hev).imp_right (fun hlt => hlt rfl))
    refine hcont.imp_right (fun ⟨hsends, hphase⟩ => ?_)
    rw [h.priority] at hsends
    exact ⟨beats_of_mem hz hsends, hphase⟩

/-- A backup stands by until its deadline, which moves to a whole interval ahead. -/
private theorem Known.stands (h : Known lan e) (hv : VirtualRouter lan) (hu : Undisturbed lan g e) {n : Nat}
    {due limit : Int}
    (hb : (before e).phase = .backup n due) (hdue : limit ≤ due) (hearly : reading e < limit)
    (hwhole : limit ≤ reading e + (lan e.input.1).config.masterdownTime) :
    ∃ n' due', (after e).phase = .backup n' due' ∧ limit ≤ due' := by
  obtain ⟨hidle, hmoves⟩ := h.reacts
  cases ho : (before e).observes (lan e.input.1).host e.input.2 with
  | none => exact ⟨n, due, (hidle ho).trans hb, hdue⟩
  | some ev =>
    obtain ⟨hrunning, hheard⟩ := h.undisturbed hv hu ho
    obtain ⟨n', due', hphase, hset⟩ := Parameters.react_standing (r := (before e).router) hb (hmoves ev ho) hrunning
      (fun received greater hev => (hheard 0 received greater hev).1 rfl) (by omega)
    refine ⟨n', due', hphase, ?_⟩
    rcases hset with rfl | rfl
    · exact hdue
    · rw [h.interval hphase, h.priority]
      exact hwhole

/-- Who hears a router of a greater key is a backup for a whole interval. -/
private theorem Known.prevailed (h : Known lan e) (hv : VirtualRouter lan) (hh : Hears lan i g e)
    (hk : lanKey lan i < lanKey lan g) :
    ∃ n, (after e).phase = .backup n (reading e + (lan i).config.masterdownTime) := by
  obtain ⟨rfl, m, ⟨⟨d₁, hl⟩, hf⟩, rfl, hlive⟩ := hh
  obtain ⟨hframe, hprio, -, -⟩ := heard_message hv h.consistent hl hf
  obtain ⟨-, hown, hsource⟩ := heard_numbers hv h.consistent hl hf
  have hz : vrrpAdvGetPriority d₁.vnet ≠ 0 := fun h₀ => hlive (by rw [hframe, h₀])
  have ho := observes_listened hl.1 hl.2
  have hgreater : (before e).router.priority < vrrpAdvGetPriority d₁.vnet ∨
      vrrpAdvGetPriority d₁.vnet = (before e).router.priority ∧
        decide (d₁.vnet.vif.ipx.number d₁.vnet.family < d₁.vnet.pkt.sIpx.number d₁.vnet.family) = true := by
    rw [h.priority, hprio.resolve_left hz, hown, hsource, decide_eq_true_eq]
    exact (routerKey_lt.mp hk).imp_right (And.imp_left Eq.symm)
  obtain ⟨n, hphase⟩ := Parameters.react_prevailed hz hgreater (h.reacts.2 _ ho)
  obtain rfl := h.interval hphase
  rw [h.priority] at hphase
  exact ⟨_, hphase⟩

end Moves

section Runs
variable [DecidableEq ι] {lan : ι → Member} {t s : Lan ι} {h : List (LanEntry ι)} {g i : ι}

/-- The router that is to be the master keeps its phase until it beats, and from then on
its timer is an advertisement interval behind a beat. -/
private theorem contends_run (hv : VirtualRouter lan) (run : Run (lanStep lan) t h s) (known : ∀ e ∈ h, Known lan e)
    (quiet : ∀ e ∈ h, Undisturbed lan g e) (hz : (lan g).config.priority ≠ 0) {due : Int}
    (hc : (lan g).config.parameters.Contends (t.daemons g).phase due) :
    (s.daemons g).phase = (t.daemons g).phase ∨
      ∃ b ∈ h, Beats g b ∧ (s.daemons g).phase = .master (reading b + (lan g).config.advTime) := by
  induction run with
  | nil => exact .inl rfl
  | @snoc h u w act out prev hs ih =>
    have hstate := ih (fun e he => known e (List.mem_append_left _ he))
      (fun e he => quiet e (List.mem_append_left _ he))
    have hlast : ⟨u, act, out, w⟩ ∈ h ++ [(⟨u, act, out, w⟩ : LanEntry ι)] := by simp
    have hknown := known _ hlast
    by_cases hg : act.1 = g
    · have hnow : ∃ due, (lan g).config.parameters.Contends (u.daemons g).phase due := by
        rcases hstate with hsame | ⟨b, -, -, hphase⟩
        · exact ⟨due, hsame ▸ hc⟩
        · exact ⟨_, .inl hphase⟩
      obtain ⟨due', hnow⟩ := hnow
      subst hg
      rcases hknown.contends hv (quiet _ hlast) rfl hz hnow with hsame | ⟨hbeats, hphase⟩
      · have hsame' : (w.daemons act.1).phase = (u.daemons act.1).phase := hsame
        rw [hsame']
        exact hstate.imp_right (fun ⟨b, hb, hrest⟩ => ⟨b, List.mem_append_left _ hb, hrest⟩)
      · exact .inr ⟨_, hlast, hbeats, hphase⟩
    · rw [hknown.others g (fun heq => hg heq.symm)]
      exact hstate.imp_right (fun ⟨b, hb, hrest⟩ => ⟨b, List.mem_append_left _ hb, hrest⟩)

/-- A backup stands by while its steps end before a time that its deadline is not before. -/
private theorem stands_run (hv : VirtualRouter lan) (run : Run (lanStep lan) t h s) (known : ∀ e ∈ h, Known lan e)
    (quiet : ∀ e ∈ h, Undisturbed lan g e) {limit : Int}
    (htime : ∀ e ∈ h, e.input.1 = i → reading e < limit ∧ limit ≤ reading e + (lan i).config.masterdownTime)
    (hb : ∃ n due, (t.daemons i).phase = .backup n due ∧ limit ≤ due) :
    ∃ n due, (s.daemons i).phase = .backup n due ∧ limit ≤ due := by
  refine run.invariant (fun u => ∃ n due, (u.daemons i).phase = .backup n due ∧ limit ≤ due) (fun e => e ∈ h)
    (fun e he => he) hb ?_
  rintro act u w out ⟨n, due, hphase, hdue⟩ - he
  have hknown := known _ he
  by_cases hi : act.1 = i
  · subst hi
    obtain ⟨hearly, hwhole⟩ := htime _ he rfl
    exact hknown.stands hv (quiet _ he) hphase hdue hearly hwhole
  · rw [hknown.others i (fun heq => hi heq.symm)]
    exact ⟨n, due, hphase, hdue⟩

end Runs

private theorem state_of_phase {d : Daemon} :
    (∀ n due, d.phase = .backup n due → d.vrrp.state = .backup) ∧
      ∀ due, d.phase = .master due → d.vrrp.state = .master := by
  rw [Daemon.phase]
  cases d.vrrp.state <;> simp

section Failover
variable [DecidableEq ι] {lan : ι → Member} {past h : List (LanEntry ι)} {t s : Lan ι} {g : ι}
  {offset : ι → Int} {due late delay : Int}

/-- The beats of the router that is to be the master, once its first deadline has passed. -/
private theorem beats_regular (hv : VirtualRouter lan) (run : Run (lanStep lan) t h s)
    (known : ∀ e ∈ h, Known lan e) (quiet : ∀ e ∈ h, Undisturbed lan g e) (hz : (lan g).config.priority ≠ 0)
    (hc : (lan g).config.parameters.Contends (t.daemons g).phase due)
    (prompt : ∀ e ∈ h, ∀ due, (e.pre.daemons g).phase.timer = some due → instant offset e ≤ due - offset g + late) :
    ∀ before e after, h = before ++ e :: after → due - offset g + late < instant offset e →
      (e.pre.daemons g).vrrp.state = .master ∧
      ∃ b ∈ before, Beats g b ∧ instant offset e ≤ instant offset b + ((lan g).config.advTime + late) := by
  rintro before e after rfl hpast
  have he : e ∈ before ++ e :: after := by simp
  have hsub (b : LanEntry ι) (hb : b ∈ before) : b ∈ before ++ e :: after := List.mem_append_left _ hb
  obtain ⟨hbefore, -, -⟩ := run.middle
  rcases contends_run hv hbefore (fun b hb => known b (hsub b hb)) (fun b hb => quiet b (hsub b hb)) hz hc with
    hsame | ⟨b, hb, hbeats, hphase⟩
  · have hdue : (e.pre.daemons g).phase.timer = some due := by
      rw [hsame]
      rcases hc with hc | ⟨-, n, hc⟩ <;> rw [hc] <;> rfl
    have hlate := prompt e he due hdue
    omega
  · refine ⟨state_of_phase.2 _ hphase, b, hb, hbeats, ?_⟩
    have hlate := prompt e he (reading b + (lan g).config.advTime) (by rw [hphase]; rfl)
    have hb' : instant offset b = reading b - offset g := by rw [instant, hbeats.1]
    omega

/-- A router is a backup for a whole interval after it has heard a greater key. -/
private theorem backup_since (hv : VirtualRouter lan) {i : ι} {early since after : List (LanEntry ι)} {r e : LanEntry ι}
    (run : Run (lanStep lan) t (early ++ r :: since ++ e :: after) s)
    (known : ∀ x ∈ early ++ r :: since ++ e :: after, Known lan x)
    (quiet : ∀ x ∈ early ++ r :: since ++ e :: after, Undisturbed lan g x)
    (hhears : Hears lan i g r) (hk : lanKey lan i < lanKey lan g)
    (horder : ∀ x ∈ since ++ [e], instant offset r ≤ instant offset x ∧ instant offset x ≤ instant offset e)
    (hrecent : instant offset e < instant offset r + (lan i).config.masterdownTime) :
    (e.post.daemons i).vrrp.state = .backup := by
  rw [List.append_assoc, List.cons_append] at *
  obtain ⟨-, -, hrest⟩ := run.middle
  obtain ⟨hsince, hlast, -⟩ := hrest.middle
  have hin : ∀ x ∈ since ++ [e], x ∈ early ++ r :: (since ++ e :: after) := by
    intro x hx
    simp only [List.mem_append, List.mem_cons, List.not_mem_nil] at hx ⊢
    tauto
  have htime : ∀ x ∈ since ++ [e], x.input.1 = i → reading x < reading r + (lan i).config.masterdownTime ∧
      reading r + (lan i).config.masterdownTime ≤ reading x + (lan i).config.masterdownTime := by
    intro x hx hi
    obtain ⟨hfrom, hto⟩ := horder x hx
    have hr : instant offset r = reading r - offset i := by rw [instant, hhears.1]
    have hx' : instant offset x = reading x - offset i := by rw [instant, hi]
    constructor <;> omega
  obtain ⟨n, hstart⟩ := (known r (by simp)).prevailed hv hhears hk
  rw [Uvrrpd.after, hhears.1] at hstart
  obtain ⟨n', due', hphase, -⟩ := stands_run hv (hsince.snoc hlast) (fun x hx => known x (hin x hx))
    (fun x hx => quiet x (hin x hx)) htime ⟨n, _, hstart, le_rfl⟩
  exact state_of_phase.1 _ _ hphase

/-- From any state of the network in which a router `g` is master, or backup that will
not follow lower priorities: while nobody reloads, no resignation is processed, and `g`
hears from lower priorities only, it is master once its timer is past due by as much as
it may run late, whatever else the other routers are. And once the longest delay of an
advertisement has passed as well, every router of a smaller key to which its
advertisements are delivered is a backup, if its masterdown interval is longer than the
advertisement interval, the lateness and the delay together. The clocks of the routers
may differ. -/
theorem failover (hv : VirtualRouter lan) (hshort : ShortIntervals lan) (reached : LanHistory lan past t)
    (run : Run (lanStep lan) t h s) (hg : ∀ e ∈ h, Genuine lan e) (ticks : ∀ e ∈ past ++ h, e.input.2.Ticks)
    (chron : Chronological (instant offset) h) (hz : (lan g).config.priority ≠ 0)
    (hc : (lan g).config.parameters.Contends (t.daemons g).phase due) (quiet : ∀ e ∈ h, Undisturbed lan g e)
    (prompt : ∀ e ∈ h, ∀ due, (e.pre.daemons g).phase.timer = some due → instant offset e ≤ due - offset g + late)
    (hdelay : 0 ≤ delay) : ∀ e ∈ h,
      (due - offset g + late < instant offset e → (e.post.daemons g).vrrp.state = .master) ∧
      ∀ i, lanKey lan i < lanKey lan g → Delivered (instant offset) (Beats g) (Hears lan i g) delay h →
        (lan g).config.advTime + late + delay < (lan i).config.masterdownTime →
        due - offset g + late + delay < instant offset e → (e.post.daemons i).vrrp.state = .backup := by
  have known : ∀ e ∈ h, Known lan e := by
    obtain ⟨start, hboot, hnone, hpast, hgen⟩ := reached
    have hall := LanHistory.known hv hshort ⟨start, hboot, hnone, hpast.append run, fun e he =>
      (List.mem_append.mp he).elim (hgen e) (hg e)⟩ ticks
    exact fun e he => hall e (List.mem_append_right _ he)
  have hbeats := beats_regular hv run known quiet hz hc prompt
  intro e he
  obtain ⟨before, after, rfl⟩ := List.append_of_mem he
  obtain ⟨hbefore, hstep, -⟩ := run.middle
  constructor
  · intro hpast
    obtain ⟨hmaster, -⟩ := hbeats before e after rfl hpast
    have hphase := phase_master hmaster
    by_cases hmover : e.input.1 = g
    · subst hmover
      rcases (known e he).contends hv (quiet e he) rfl hz (.inl hphase) with hsame | ⟨-, hnow⟩
      · exact state_of_phase.2 _ (hsame.trans hphase)
      · exact state_of_phase.2 _ hnow
    · rw [(known e he).others g (fun heq => hmover heq.symm)]
      exact hmaster
  · intro i hk delivered hpatience hpast
    have regular : Regular (instant offset) (Beats g) (due - offset g + late) ((lan g).config.advTime + late)
        (before ++ e :: after) :=
      fun before e after hl hstart => (hbeats before e after hl hstart).2
    obtain ⟨early, r, since, rfl, hhears, hrecent⟩ := recently_heard chron hdelay regular delivered rfl hpast
    exact backup_since hv run known quiet hhears hk (chron.between rfl) (by omega)

end Failover

private theorem undisturbed_quiet {lan : ι → Member} {e : LanEntry ι} (g : ι)
    (hq : e.input.2.pselect = .ready false false) : Undisturbed lan g e := by
  have hno (m : Message ι) : ¬ Processes lan e m := by
    rintro ⟨⟨d, hl⟩, -⟩
    rcases hl.of_quiet hq with h | h <;> cases h
  refine ⟨?_, fun m hm => absurd hm (hno m), fun m hm => absurd hm (hno m)⟩
  rintro ⟨event, d, hl, he, -⟩
  rcases hl.of_quiet hq with rfl | rfl <;> simp at he

private def Lan.moved (s : Lan Bool) (i : Bool) (d : Daemon) (out : List Output) : Lan Bool :=
  ⟨Function.update s.daemons i d, s.sent ++ (advs out).map (fun frame => ⟨i, frame⟩)⟩

private theorem lanStep_moved (s : Lan Bool) (i : Bool) (inp : Input) {d : Daemon} {out : List Output}
    (hs : processStep (duel i).host inp (s.daemons i) = .ok (d, out)) :
    lanStep duel (i, inp) s = .ok (s.moved i d out, out) :=
  congrArg (· >>= _) hs

def duelStaggered : List (LanEntry Bool) × Lan Bool :=
  match execute (lanStep duel) [(false, .quiet ⟨1, 0⟩), (true, .quiet ⟨1, 0⟩), (true, .quiet ⟨9, 0⟩),
    (false, .quiet ⟨9, 900000000⟩)] ⟨fun i => (duel i).config.daemon, []⟩ with
  | .ok r => r
  | .error _ => ([], ⟨fun i => (duel i).config.daemon, []⟩)

private theorem staggered_history : LanHistory duel duelStaggered.1 duelStaggered.2 := by
  refine .of_quiet (fun i => (duel i).config.daemon) ?_ ?_ (by decide +kernel)
  · intro i
    cases i <;> exact boot_daemon (.inl rfl)
  · rw [duelStaggered]
    split
    · next r hr => exact .of_execute hr
    · exact .nil

private def duelBeat : Daemon × List Output :=
  (processStep .little (.quiet ⟨10, 500000000⟩) (duelStaggered.2.daemons true)).toOption.getD
    (duelStaggered.2.daemons true, [])

private def duelBeatAgain : Daemon × List Output :=
  (processStep .little (.quiet ⟨11, 600000000⟩) duelBeat.1).toOption.getD (duelBeat.1, [])

private theorem ok_of_isSome {α ε : Type} {x : Except ε α} {default : α} (h : x.toOption.isSome) :
    x = .ok (x.toOption.getD default) := by
  cases x with
  | error e => cases h
  | ok a => rfl

/-- Two masters. The advertisement of the rival arrives within half a second, and from a
second and a half behind its deadline on the rival is alone. -/
theorem failover_duel : (∀ i, (duelStaggered.2.daemons i).vrrp.state = .master) ∧
    ∃ h s, Run (lanStep duel) duelStaggered.2 h s ∧ (s.daemons true).vrrp.state = .master ∧
      (s.daemons false).vrrp.state = .backup := by
  have hmasters : ∀ i, (duelStaggered.2.daemons i).vrrp.state = .master := by decide +kernel
  have hsent : (⟨true, rival.daemon.vnet.adv⟩ : Message Bool) ∈ duelStaggered.2.sent := by decide +kernel
  have hz : framePriority rival.daemon.vnet.adv = some 200 := by decide +kernel
  have hphase : (duelStaggered.2.daemons true).phase = .master 10000000000 := by decide +kernel
  have hphase' : duelBeat.1.phase = .master 11500000000 := by decide +kernel
  have ticks : ∀ e ∈ duelStaggered.1, e.input.2.Ticks := by decide +kernel
  obtain ⟨d₁, hl⟩ : ∃ d₁, vrrpListen .little (.packet ⟨10, 700000000⟩ wire) (duelStaggered.2.daemons false) =
      .ok (.pkt, d₁) :=
    vrrpListen_of_recv (by decide +kernel) rfl (vrrpNetRecv_replicate (n := 40) 0 (by decide) (by decide +kernel))
  have hs₁ : processStep .little (.quiet ⟨10, 500000000⟩) (duelStaggered.2.daemons true) = .ok duelBeat :=
    ok_of_isSome (by decide +kernel)
  have hs₃ : processStep .little (.quiet ⟨11, 600000000⟩) duelBeat.1 = .ok duelBeatAgain :=
    ok_of_isSome (by decide +kernel)
  have history := staggered_history
  generalize duelBeatAgain = again at *
  generalize duelBeat = beat at *
  generalize duelStaggered.1 = past at *
  generalize duelStaggered.2 = t at *
  obtain ⟨d, out, hs₂, hprio⟩ := processStep_pkt (hmasters false) hl
  have step₁ := lanStep_moved t true (.quiet ⟨10, 500000000⟩) hs₁
  obtain ⟨u, hu⟩ : ∃ u, u = t.moved true beat.1 beat.2 := ⟨_, rfl⟩
  rw [← hu] at step₁
  have hu' : u.daemons false = t.daemons false ∧ u.daemons true = beat.1 := by
    rw [hu]
    exact ⟨rfl, rfl⟩
  have step₂ := lanStep_moved u false (.packet ⟨10, 700000000⟩ wire) (by rw [hu'.1]; exact hs₂)
  obtain ⟨v, hv⟩ : ∃ v, v = u.moved false d out := ⟨_, rfl⟩
  rw [← hv] at step₂
  have hv' : v.daemons true = beat.1 := by
    rw [hv]
    exact hu'.2
  have step₃ := lanStep_moved v true (.quiet ⟨11, 600000000⟩) (by rw [hv']; exact hs₃)
  obtain ⟨w, hw⟩ : ∃ w, w = v.moved true again.1 again.2 := ⟨_, rfl⟩
  rw [← hw] at step₃
  have run := Run.cons step₁ (Run.cons step₂ (Run.cons step₃ .nil))
  have consistent : Consistent duel u := by
    obtain ⟨start, hboot, hnone, hrun, hgen⟩ := history
    refine LanHistory.consistent ⟨start, hboot, hnone, .snoc hrun step₁, ?_⟩
    intro e he
    rcases List.mem_append.mp he with he | he
    · exact hgen e he
    · rw [List.mem_singleton.mp he]
      exact .of_quiet step₁ rfl
  obtain ⟨e₂, he₂⟩ : ∃ e : LanEntry Bool, e = ⟨u, (false, .packet ⟨10, 700000000⟩ wire), out, v⟩ := ⟨_, rfl⟩
  have hlisten : Listens duel e₂ .pkt d₁ := by
    rw [he₂]
    constructor
    · rw [before, hu'.1]
      exact .inr (hmasters false)
    · rw [before, hu'.1]
      exact hl
  have hflight : InFlight duel e₂ ⟨true, rival.daemon.vnet.adv⟩ := by
    rw [he₂]
    refine ⟨?_, wire, rfl, wire_delivered⟩
    rw [hu]
    exact List.mem_append_left _ hsent
  have genuine₂ : Genuine duel e₂ := by
    refine ⟨?_, fun _ _ => ⟨_, hflight⟩⟩
    rw [he₂]
    simp only [after, before, hv, Lan.moved, Function.update_self, hu'.1]
    exact hprio
  have hpre : e₂.pre = u := by rw [he₂]
  have undisturbed₂ : Undisturbed duel true e₂ := by
    have hfirst := (heard_message duel_virtualRouter (hpre ▸ consistent) hlisten hflight).1
    refine ⟨?_, ?_, ?_⟩
    · rintro ⟨event, d', hl', he, -⟩
      obtain ⟨rfl, -⟩ := Prod.mk.inj (Except.ok.inj (hlisten.2.symm.trans hl'.2))
      simp at he
    · rintro m ⟨-, hm⟩
      rw [(heard_message duel_virtualRouter (hpre ▸ consistent) hlisten hm).1, ← hfirst, hz]
      decide
    · rintro m - hmover
      rw [he₂] at hmover
      cases hmover
  rw [← he₂] at run
  have hinput : e₂.input = (false, .packet ⟨10, 700000000⟩ wire) := by rw [he₂]
  have hpost : e₂.post = v := by rw [he₂]
  refine ⟨hmasters, _, w, run, ?_⟩
  obtain ⟨e₁, he₁⟩ : ∃ e : LanEntry Bool, e = ⟨t, (true, .quiet ⟨10, 500000000⟩), beat.2, u⟩ := ⟨_, rfl⟩
  obtain ⟨e₃, he₃⟩ : ∃ e : LanEntry Bool, e = ⟨v, (true, .quiet ⟨11, 600000000⟩), again.2, w⟩ := ⟨_, rfl⟩
  rw [← he₁, ← he₃] at run
  have times : instant (fun _ => 0) e₁ = 10500000000 ∧ instant (fun _ => 0) e₂ = 10700000000 ∧
      instant (fun _ => 0) e₃ = 11600000000 := by
    rw [he₁, he₂, he₃]
    exact ⟨rfl, rfl, rfl⟩
  obtain ⟨time₁, time₂, time₃⟩ := times
  have chron : Chronological (instant (fun _ => 0)) [e₁, e₂, e₃] := by
    simp [Chronological, time₁, time₂, time₃]
  have short : ShortIntervals duel := by
    intro i
    cases i <;> decide
  have genuine : ∀ e ∈ [e₁, e₂, e₃], Genuine duel e := by
    have genuine₁ : Genuine duel e₁ := he₁ ▸ .of_quiet step₁ rfl
    have genuine₃ : Genuine duel e₃ := he₃ ▸ .of_quiet step₃ rfl
    simpa using ⟨genuine₁, genuine₂, genuine₃⟩
  have quiet : ∀ e ∈ [e₁, e₂, e₃], Undisturbed duel true e := by
    have undisturbed₁ : Undisturbed duel true e₁ := undisturbed_quiet true (he₁ ▸ rfl)
    have undisturbed₃ : Undisturbed duel true e₃ := undisturbed_quiet true (he₃ ▸ rfl)
    simpa using ⟨undisturbed₁, undisturbed₂, undisturbed₃⟩
  have allTicks : ∀ e ∈ past ++ [e₁, e₂, e₃], e.input.2.Ticks := by
    intro e he
    rcases List.mem_append.mp he with he | he
    · exact ticks e he
    · have hticks : (Input.quiet ⟨10, 500000000⟩).Ticks ∧ (Input.packet ⟨10, 700000000⟩ wire).Ticks ∧
          (Input.quiet ⟨11, 600000000⟩).Ticks := by decide
      have hall : ∀ e ∈ [e₁, e₂, e₃], e.input.2.Ticks := by
        rw [he₁, he₂, he₃]
        simpa using hticks
      exact hall e he
  have prompt : ∀ e ∈ [e₁, e₂, e₃], ∀ due, (e.pre.daemons true).phase.timer = some due →
      instant (fun _ => 0) e ≤ due - 0 + 1000000000 := by
    have hpres : (e₁.pre.daemons true).phase = .master 10000000000 ∧
        (e₂.pre.daemons true).phase = .master 11500000000 ∧ (e₃.pre.daemons true).phase = .master 11500000000 := by
      rw [he₁, he₂, he₃]
      exact ⟨hphase, hu'.2 ▸ hphase', hv' ▸ hphase'⟩
    simp only [List.forall_mem_cons, hpres, Phase.timer, Option.some.injEq, forall_eq', time₁, time₂, time₃]
    decide
  have done := failover duel_virtualRouter short history run genuine allTicks chron (by decide) (.inl hphase) quiet
    prompt (show 0 ≤ 500000000 by decide) e₃ (by simp)
  have delivered : Delivered (instant (fun _ => 0)) (Beats true) (Hears duel false true) 500000000 [e₁, e₂, e₃] := by
    intro before b between e after hl hbeats hlate
    have hmover₂ : e₂.input.1 = false := by rw [hinput]
    rcases before with _ | ⟨x, _ | ⟨y, before⟩⟩
    · rcases between with _ | ⟨y, _ | ⟨z, between⟩⟩
      · obtain ⟨rfl, rfl, -⟩ : e₁ = b ∧ e₂ = e ∧ _ := by simpa using hl
        rw [time₁, time₂] at hlate
        exact absurd hlate (by decide)
      · obtain ⟨rfl, rfl, -⟩ : e₁ = b ∧ e₂ = y ∧ _ := by simpa using hl
        refine ⟨e₂, by simp, hmover₂, _, ⟨⟨_, hlisten⟩, hflight⟩, rfl, ?_⟩
        rw [hz]
        decide
      · simp at hl
    · obtain ⟨rfl, rfl, -⟩ : e₁ = x ∧ e₂ = b ∧ _ := by simpa using hl
      have hmover := hbeats.1
      rw [hmover₂] at hmover
      cases hmover
    · have hlen := congrArg List.length hl
      simp at hlen
      omega
  rw [time₃] at done
  have hpost₃ : e₃.post = w := by rw [he₃]
  rw [hpost₃] at done
  have patience : (duel true).config.advTime + 1000000000 + 500000000 < (duel false).config.masterdownTime := by
    rw [Config.masterdownTime, Parameters.masterDownInterval, skewTime_parameters]
    decide
  exact ⟨done.1 (by decide), done.2 false (routerKey_lt.mpr (.inl (by decide))) delivered patience (by decide)⟩

end Uvrrpd
