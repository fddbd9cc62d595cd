import Uvrrpd.Isolation
import Uvrrpd.Lan
import Uvrrpd.Library.Election
import Uvrrpd.RoundTrip

/-! The routers of one virtual router elect their master: the network refines the
election by announcements, with priority and primary address as the key. -/
namespace Uvrrpd
open Library.Runs
open Library.Election (Role Cause Moves Path)

variable {ι : Type}

def lanKey (lan : ι → Member) (i : ι) : ℕ ×ₗ ℕ :=
  routerKey (lan i).config.priority ((lan i).config.vif.ipx.octets (lan i).config.family)

/-- One address family, distinct keys, and IPv4 addresses of one subnet: less than
half the address space apart. -/
structure VirtualRouter (lan : ι → Member) : Prop where
  family : ∀ i j, (lan i).config.family = (lan j).config.family
  distinct : Function.Injective (lanKey lan)
  near : ∀ i j, (lan i).config.family = .inet →
    bigValue ((lan i).config.vif.ipx.octets .inet) < bigValue ((lan j).config.vif.ipx.octets .inet) + 2 ^ 31

def Greatest (lan : ι → Member) (g : ι) : Prop := ∀ i, lanKey lan i ≤ lanKey lan g

section Heard
variable {lan : ι → Member} {e : LanEntry ι} {m : Message ι} {d : Daemon}

theorem heard_message (hv : VirtualRouter lan) (hc : Consistent lan e.pre) (hl : Listens lan e .pkt d)
    (hm : InFlight lan e m) :
    framePriority m.frame = some (vrrpAdvGetPriority d.vnet) ∧
    (vrrpAdvGetPriority d.vnet = 0 ∨ vrrpAdvGetPriority d.vnet = (lan m.sender).config.priority) ∧
    d.vrrp.priority = (lan e.input.1).config.priority ∧
    (vrrpAdvAddrCmp d.vnet > 0 ↔
      bigValue ((lan e.input.1).config.vif.ipx.octets (lan e.input.1).config.family) <
        bigValue ((lan m.sender).config.vif.ipx.octets (lan m.sender).config.family)) := by
  obtain ⟨hsent, datagram, hsock, hdel⟩ := hm
  obtain ⟨contents, s, prio, hco, hcfg, hann, hprio⟩ := hc.authentic m hsent
  obtain ⟨k, run⟩ := hc.local_run e.input.1
  have hheard := vrrpListen_cases hl.2
  have hcfg' : Configured (lan e.input.1).config d := run.configured.of_fixed (.heard hheard)
  obtain ⟨a, b, hvrrp, -, hr⟩ := hheard.of_pkt rfl
  rw [hsock] at hr
  have hfam : d.vnet.family = s.vnet.family := by rw [hcfg'.family, hcfg.family, hv.family]
  have hfam' : (before e).vnet.family = s.vnet.family := by
    rw [← hfam, (SameFixed.heard hheard).family]
  rw [← hcfg.family] at hdel
  obtain ⟨hgot, hsrc⟩ := hann.received hco hdel hfam' hr
  refine ⟨?_, ?_, ?_, ?_⟩
  · rw [hann.framePriority, hgot]
  · rw [hgot]
    exact hprio
  · rw [hheard.priority (by simp)]
    exact hc.priority e.input.1
  · have hs : d.vnet.pkt.sIpx.octets d.vnet.family =
        (lan m.sender).config.vif.ipx.octets (lan m.sender).config.family := by
      rw [hfam, hsrc, hcfg.vif, hcfg.family]
    have ho : d.vnet.vif.ipx.octets d.vnet.family =
        (lan e.input.1).config.vif.ipx.octets (lan e.input.1).config.family := by
      rw [hcfg'.vif, hcfg'.family]
    rw [vrrpAdvAddrCmp]
    rw [ipxCmp_pos, hs, ho]
    · intro hinet
      rw [hs, ho]
      have hi : (lan e.input.1).config.family = .inet := by rw [← hcfg'.family, hinet]
      have hn := hv.near m.sender e.input.1 (by rw [hv.family m.sender e.input.1, hi])
      rwa [hi, hv.family m.sender e.input.1, hi]
    · intro hinet
      rw [hs, ho]
      have hi : (lan e.input.1).config.family = .inet := by rw [← hcfg'.family, hinet]
      have hn := hv.near e.input.1 m.sender hi
      rwa [hi, hv.family m.sender e.input.1, hi]

/-- An advertisement beats a router exactly when its sender has the greater key. -/
private theorem beaten_iff (hv : VirtualRouter lan) (hc : Consistent lan e.pre) (hl : Listens lan e .pkt d)
    (hm : InFlight lan e m) (hz : vrrpAdvGetPriority d.vnet ≠ 0) :
    Beaten d ↔ lanKey lan e.input.1 < lanKey lan m.sender := by
  obtain ⟨-, hprio, hown, hcmp⟩ := heard_message hv hc hl hm
  have hsender := hprio.resolve_left hz
  unfold Beaten lanKey
  rw [routerKey_lt, hcmp, hown, hsender]
  constructor
  · rintro (hgt | ⟨heq, haddr⟩)
    · exact .inl hgt
    · exact .inr ⟨heq.symm, haddr⟩
  · rintro (hlt | ⟨heq, haddr⟩)
    · exact .inl hlt
    · exact .inr ⟨heq.symm, haddr⟩

end Heard

def VrrpState.role : VrrpState → Role
  | .init => .idle
  | .backup => .standby
  | .master => .leader
  | .other _ => .idle

def Lan.roles (s : Lan ι) (i : ι) : Role := (s.daemons i).vrrp.state.role

private theorem role_ne_idle {d : Daemon} (h : d.vrrp.state = .backup ∨ d.vrrp.state = .master) :
    d.vrrp.state.role ≠ .idle := by
  rcases h with h | h <;> rw [h] <;> decide

section Step
variable {lan : ι → Member} {e : LanEntry ι} {m : Message ι}

/-- A processed advertisement moves its receiver as hearing its sender does. -/
private theorem moves_hear (hv : VirtualRouter lan) (hc : Consistent lan e.pre)
    (hs : processStep (lan e.input.1).host e.input.2 (before e) = .ok (after e, e.output))
    (hp : Processes lan e m) (hz : framePriority m.frame ≠ some 0) :
    Moves (lanKey lan) e.input.1 (before e).vrrp.state.role (.hear m.sender)
      (after e).vrrp.state.role := by
  obtain ⟨⟨d, hl⟩, hm⟩ := hp
  obtain ⟨hprio, -, -, -⟩ := heard_message hv hc hl hm
  have hne : vrrpAdvGetPriority d.vnet ≠ 0 := fun h => hz (by rw [hprio, h])
  have hbeaten := beaten_iff hv hc hl hm hne
  have hstate := (vrrpListen_cases hl.2).state
  obtain ⟨a, b, -, -, hr⟩ := (vrrpListen_cases hl.2).of_pkt rfl
  have hversion := vrrpNetRecv_version hr
  obtain ⟨d₂, hd₂, hh⟩ := processStep_listened hs hl.1 hl.2
  rw [hd₂, Daemon.dumped_vrrp]
  generalize e.output = out at hh
  cases hh with
  | ignore hi =>
    rcases hi with hz' | ⟨-, ⟨hb, -⟩ | ⟨hb, hnot⟩⟩
    · exact absurd hz' hversion
    · rw [← hstate, hb]
      exact .follow _
    · rw [← hstate, hb]
      exact .keep (not_lt.mp (fun hlt => hnot (hbeaten.mpr hlt)))
  | shorten hb hz' => exact absurd hz' hne
  | follow hb =>
    have hd : (arm e.input.2.clockSet .masterdown (masterdownDelays (d.learnt (lan e.input.1).host))
        (d.learnt (lan e.input.1).host)).state = .backup := by
      rw [← hb]
      exact d.learnt_state _
    rw [← hstate, hb, hd]
    exact .follow _
  | answer hb hz' => exact absurd hz' hne
  | yield hb hz' hbeat =>
    rw [← hstate, hb]
    exact .yield (hbeaten.mp hbeat)
  | restart _ he => simp at he
  | resign _ he => simp at he

/-- A processed resignation leaves the role as it is. -/
private theorem moves_resignation (hv : VirtualRouter lan) (hc : Consistent lan e.pre)
    (hs : processStep (lan e.input.1).host e.input.2 (before e) = .ok (after e, e.output))
    (hp : Processes lan e m) (hz : framePriority m.frame = some 0) :
    Moves (lanKey lan) e.input.1 (before e).vrrp.state.role (.resignation m.sender)
      (after e).vrrp.state.role := by
  obtain ⟨⟨d, hl⟩, hm⟩ := hp
  obtain ⟨hprio, -, -, -⟩ := heard_message hv hc hl hm
  have hzero : vrrpAdvGetPriority d.vnet = 0 := Option.some.inj (hprio.symm.trans hz)
  have hstate := (vrrpListen_cases hl.2).state
  suffices hsame : (after e).vrrp.state = (before e).vrrp.state by
    rw [hsame]
    exact .resignation _ (role_ne_idle hl.1)
  obtain ⟨d₂, hd₂, hh⟩ := processStep_listened hs hl.1 hl.2
  rw [hd₂, Daemon.dumped_vrrp, ← hstate]
  generalize e.output = out at hh
  cases hh with
  | ignore => rfl
  | shorten => rfl
  | answer => rfl
  | follow _ hne => exact absurd hzero hne
  | yield _ hne => exact absurd hzero hne
  | restart _ he => simp at he
  | resign _ he => simp at he

/-- A step without an advertisement: a start, a timer, a reload, or nothing. -/
private theorem moves_unheard
    (hs : processStep (lan e.input.1).host e.input.2 (before e) = .ok (after e, e.output))
    (hpkt : ¬ ∃ d, Listens lan e .pkt d) :
    ∃ c, Moves (lanKey lan) e.input.1 (before e).vrrp.state.role c (after e).vrrp.state.role ∧
      (c = .expire → Expires lan e) ∧ (c = .restart → Reloads lan e) ∧ ∀ j, c ≠ .hear j := by
  generalize after e = d' at hs ⊢
  generalize e.output = out at hs
  cases processStep_cases hs with
  | startMaster hst =>
    rw [hst]
    exact ⟨.start, .start (show VrrpState.role .master ≠ .idle by decide), by simp, by simp, by simp⟩
  | startBackup hst =>
    rw [hst]
    exact ⟨.start, .start (show VrrpState.role .backup ≠ .idle by decide), by simp, by simp, by simp⟩
  | stuck => exact ⟨.quiet, .quiet _, by simp, by simp, by simp⟩
  | @serve hst event d₁ d₂ out hl hh =>
    have hlisten : Listens lan e event d₁ := ⟨hst, hl⟩
    have hstate := (vrrpListen_cases hl).state
    rw [Daemon.dumped_vrrp]
    cases hh with
    | ignore =>
      rw [hstate]
      exact ⟨.quiet, .quiet _, by simp, by simp, by simp⟩
    | takeover hb =>
      rw [← hstate, hb]
      exact ⟨.expire, .expire, fun _ => ⟨hstate ▸ hb, d₁, hlisten⟩, by simp, by simp⟩
    | tick hb =>
      have hd : (advertise e.input.2.clockSet d₁).1.vrrp.state = .master := hb
      rw [← hstate, hb, hd]
      exact ⟨.tick, .tick, by simp, by simp, by simp⟩
    | restart hb he hr =>
      exact ⟨.restart, .restart (role_ne_idle hst), by simp, fun _ => ⟨event, d₁, hlisten, he, hr⟩, by simp⟩
    | resign hb he hr =>
      exact ⟨.restart, .restart (role_ne_idle hst), by simp, fun _ => ⟨event, d₁, hlisten, he, hr⟩, by simp⟩
    | shorten => exact absurd ⟨d₁, hlisten⟩ hpkt
    | follow => exact absurd ⟨d₁, hlisten⟩ hpkt
    | answer => exact absurd ⟨d₁, hlisten⟩ hpkt
    | yield => exact absurd ⟨d₁, hlisten⟩ hpkt

/-- Every step moves its router as some cause does, and the cause is what it says. -/
private theorem moves_exists (hv : VirtualRouter lan) (hc : Consistent lan e.pre) (hg : Genuine lan e)
    (hs : processStep (lan e.input.1).host e.input.2 (before e) = .ok (after e, e.output)) :
    ∃ c, Moves (lanKey lan) e.input.1 (before e).vrrp.state.role c (after e).vrrp.state.role ∧
      (c = .expire → Expires lan e) ∧ (c = .restart → Reloads lan e) ∧
      ∀ j, c = .hear j → ∃ m, Processes lan e m ∧ m.sender = j ∧ framePriority m.frame ≠ some 0 := by
  by_cases hpkt : ∃ d, Listens lan e .pkt d
  · obtain ⟨d, hl⟩ := hpkt
    obtain ⟨m, hm⟩ := hg.origin d hl
    have hp : Processes lan e m := ⟨⟨d, hl⟩, hm⟩
    by_cases hz : framePriority m.frame = some 0
    · exact ⟨_, moves_resignation hv hc hs hp hz, by simp, by simp, by simp⟩
    · refine ⟨_, moves_hear hv hc hs hp hz, by simp, by simp, ?_⟩
      intro j hj
      exact ⟨m, hp, Cause.hear.inj hj, hz⟩
  · obtain ⟨c, hmoves, he, hr, hnot⟩ := moves_unheard hs hpkt
    exact ⟨c, hmoves, he, hr, fun j hj => absurd hj (hnot j)⟩

end Step

/-- What a step of the network says about the step of the election it stands for. -/
structure Enacts (lan : ι → Member) (g : ι) (e : LanEntry ι) (x : ι × Cause ι) : Prop where
  mover : x.1 = e.input.1
  expire : x.2 = .expire → Expires lan e
  restart : x.2 = .restart → Reloads lan e
  hear : ∀ m, Processes lan e m → m.sender = g → framePriority m.frame ≠ some 0 → x.2 = .hear g

/-- Router `i` has processed an advertisement of `g`, and since then its masterdown
timer has not expired and it has not reloaded. -/
def HeedsOn (lan : ι → Member) (h : List (LanEntry ι)) (i g : ι) : Prop :=
  ∃ earlier e later, h = earlier ++ e :: later ∧ e.input.1 = i ∧
    (∃ m, Processes lan e m ∧ m.sender = g ∧ framePriority m.frame ≠ some 0) ∧
    ∀ e' ∈ later, e'.input.1 = i → ¬ Expires lan e' ∧ ¬ Reloads lan e'

section Traces
variable {lan : ι → Member} {h : List (LanEntry ι)} {g : ι} {trace : List (ι × Cause ι)}

private theorem exists_enacted (henacts : List.Forall₂ (Enacts lan g) h trace) {x : ι × Cause ι}
    (hx : x ∈ trace) : ∃ e ∈ h, Enacts lan g e x := by
  induction henacts with
  | nil => cases hx
  | @cons e y h trace hy _ ih =>
    rcases List.mem_cons.mp hx with rfl | hx
    · exact ⟨e, List.mem_cons_self, hy⟩
    · obtain ⟨e', hmem, he'⟩ := ih hx
      exact ⟨e', List.mem_cons_of_mem _ hmem, he'⟩

private theorem HeedsOn.heeds {i : ι} (hh : HeedsOn lan h i g)
    (henacts : List.Forall₂ (Enacts lan g) h trace) : Library.Election.Heeds i g trace := by
  obtain ⟨earlier, e, later, rfl, rfl, ⟨m, hp, hm, hz⟩, hcalm⟩ := hh
  induction earlier generalizing trace with
  | nil =>
    obtain ⟨⟨j, c⟩, rest, hx, hrest, rfl⟩ := List.forall₂_cons_left_iff.mp henacts
    obtain rfl : j = e.input.1 := hx.mover
    obtain rfl : c = .hear g := hx.hear m hp hm hz
    refine ⟨[], rest, rfl, ?_, ?_⟩
    · intro hmem
      obtain ⟨e', he', hen⟩ := exists_enacted hrest hmem
      exact (hcalm e' he' hen.mover.symm).1 (hen.expire rfl)
    · intro hmem
      obtain ⟨e', he', hen⟩ := exists_enacted hrest hmem
      exact (hcalm e' he' hen.mover.symm).2 (hen.restart rfl)
  | cons e₀ earlier ih =>
    obtain ⟨x, rest, -, hrest, rfl⟩ := List.forall₂_cons_left_iff.mp henacts
    obtain ⟨front, back, rfl, he, hr⟩ := ih hrest
    exact ⟨x :: front, back, rfl, he, hr⟩

end Traces

variable [DecidableEq ι] {lan : ι → Member} {t s : Lan ι} {h : List (LanEntry ι)}

private theorem processStep_of_lanStep {act : ι × Input} {t u : Lan ι} {out : List Output}
    (hs : lanStep lan act t = .ok (u, out)) :
    processStep (lan act.1).host act.2 (t.daemons act.1) = .ok (u.daemons act.1, out) ∧
      ∀ j, j ≠ act.1 → u.daemons j = t.daemons j := by
  obtain ⟨d, hd, hu, -⟩ := lanStep_ok hs
  rw [hu, Function.update_self]
  exact ⟨hd, fun j hj => Function.update_of_ne hj _ _⟩

/-- One step of the network is one step of the election; when it processes an
advertisement of `g`, it is the step of hearing `g`. -/
private theorem lanStep_refines (hv : VirtualRouter lan) (g : ι) {act : ι × Input} {u : Lan ι} {out : List Output}
    (hc : Consistent lan t) (hs : lanStep lan act t = .ok (u, out)) (hg : Genuine lan ⟨t, act, out, u⟩) :
    ∃ c, Library.Election.Step (lanKey lan) act.1 c t.roles u.roles ∧
      Enacts lan g ⟨t, act, out, u⟩ (act.1, c) := by
  obtain ⟨hstep, hothers⟩ := processStep_of_lanStep hs
  have hroles (j : ι) (hj : j ≠ act.1) : u.roles j = t.roles j := by
    rw [Lan.roles, Lan.roles, hothers j hj]
  by_cases hheard : ∃ m, Processes lan ⟨t, act, out, u⟩ m ∧ m.sender = g ∧ framePriority m.frame ≠ some 0
  · obtain ⟨m, hp, rfl, hz⟩ := hheard
    have hmoves := moves_hear hv hc hstep hp hz
    exact ⟨.hear m.sender, ⟨hmoves, hroles⟩, rfl, by simp, by simp, fun _ _ _ _ => rfl⟩
  · obtain ⟨c, hmoves, he, hr, -⟩ := moves_exists hv hc hg hstep
    exact ⟨c, ⟨hmoves, hroles⟩, rfl, he, hr, fun m hp hm hz => absurd ⟨m, hp, hm, hz⟩ hheard⟩

/-- The network refines the election, step by step. -/
private theorem lan_refines (hv : VirtualRouter lan) (g : ι) (hc : Consistent lan t)
    (run : Run (lanStep lan) t h s) (hg : ∀ e ∈ h, Genuine lan e) :
    ∃ trace, Path (lanKey lan) t.roles trace s.roles ∧ List.Forall₂ (Enacts lan g) h trace := by
  suffices hgoal : Consistent lan s ∧ ∃ trace, Path (lanKey lan) t.roles trace s.roles ∧
      List.Forall₂ (Enacts lan g) h trace from hgoal.2
  induction run with
  | nil => exact ⟨hc, [], .nil, .nil⟩
  | @snoc h t₁ u act out prev hs ih =>
    obtain ⟨hc₁, trace, path, henacts⟩ := ih (fun e he => hg e (List.mem_append_left _ he))
    have hlast := hg ⟨t₁, act, out, u⟩ (by simp)
    obtain ⟨c, step, hx⟩ := lanStep_refines hv g hc₁ hs hlast
    exact ⟨hc₁.step hs hlast, trace ++ [(act.1, c)], .snoc path step,
      List.rel_append henacts (.cons hx .nil)⟩

private theorem role_leader {state : VrrpState} : state.role = .leader ↔ state = .master := by
  cases state <;> simp [VrrpState.role]

/-- What precedes a recorded step keeps the network consistent. -/
private theorem consistent_mem (hc : Consistent lan t) (run : Run (lanStep lan) t h s)
    (hg : ∀ e ∈ h, Genuine lan e) {e : LanEntry ι} (he : e ∈ h) :
    Consistent lan e.pre ∧ lanStep lan e.input e.pre = .ok (e.post, e.output) := by
  obtain ⟨k, hk, hsub, hs⟩ := run.mem he
  refine ⟨Run.invariant (Consistent lan) (Genuine lan) hk (fun a ha => hg a (hsub a ha)) hc ?_, hs⟩
  intro act u v out hu hstep hgen
  exact hu.step hstep hgen

/-- Mastership agreement, along any run from any state the routers reach. A master
goes to backup only for a greater key, and the greatest key leaves mastership by its
own reload only. Who processes an advertisement of a greater key is not master
afterwards; and once all others have processed one of the greatest key, it is the
only master until one of their masterdown timers expires or a router reloads. -/
theorem mastership_agreement (hv : VirtualRouter lan) {past : List (LanEntry ι)}
    (reached : LanHistory lan past t) (run : Run (lanStep lan) t h s) (hg : ∀ e ∈ h, Genuine lan e) :
    (∀ e ∈ h, (before e).vrrp.state = .master → (after e).vrrp.state = .backup →
      ∃ m, Processes lan e m ∧ lanKey lan e.input.1 < lanKey lan m.sender) ∧
    (∀ g, Greatest lan g → ∀ e ∈ h, (e.pre.daemons g).vrrp.state = .master →
      (e.post.daemons g).vrrp.state ≠ .master → e.input.1 = g ∧ Reloads lan e) ∧
    (∀ e ∈ h, ∀ m, Processes lan e m → framePriority m.frame ≠ some 0 →
      lanKey lan e.input.1 < lanKey lan m.sender → (after e).vrrp.state ≠ .master) ∧
    (∀ g, Greatest lan g → (t.daemons g).vrrp.state = .master →
      (∀ e ∈ h, e.input.1 = g → ¬ Reloads lan e) → (∀ i, i ≠ g → HeedsOn lan h i g) →
      ∀ i, (s.daemons i).vrrp.state = .master ↔ i = g) := by
  have hc := reached.consistent
  refine ⟨?_, ?_, ?_, ?_⟩
  · intro e he hm hb
    obtain ⟨hce, hs⟩ := consistent_mem hc run hg he
    obtain ⟨c, hmoves, -, -, hhear⟩ := moves_exists hv hce (hg e he) (processStep_of_lanStep hs).1
    rw [hm, hb] at hmoves
    rcases hmoves.steps_down (by decide) with ⟨hidle, -⟩ | ⟨-, j, hj, hk⟩
    · cases hidle
    · obtain ⟨m, hp, rfl, -⟩ := hhear j hj
      exact ⟨m, hp, hk⟩
  · intro g hgreat e he hm hne
    obtain ⟨hce, hs⟩ := consistent_mem hc run hg he
    obtain ⟨hstep, hothers⟩ := processStep_of_lanStep hs
    by_cases hi : e.input.1 = g
    · refine ⟨hi, ?_⟩
      subst hi
      obtain ⟨c, hmoves, -, hres, -⟩ := moves_exists hv hce (hg e he) hstep
      rw [show (before e).vrrp.state = .master from hm] at hmoves
      rcases hmoves.steps_down (fun hl => hne (role_leader.mp hl)) with ⟨-, hr⟩ | ⟨-, j, -, hk⟩
      · exact hres hr
      · exact absurd hk (not_lt.mpr (hgreat j))
    · rw [hothers g (Ne.symm hi)] at hne
      exact absurd hm hne
  · intro e he m hp hz hk hm
    obtain ⟨hce, hs⟩ := consistent_mem hc run hg he
    have hmoves := moves_hear hv hce (processStep_of_lanStep hs).1 hp hz
    rw [hm] at hmoves
    have hstandby := hmoves.hear_greater hk
    cases hstandby
  · intro g hgreat hm hkeep hheeds i
    obtain ⟨trace, path, henacts⟩ := lan_refines hv g hc run hg
    have hstrict (j : ι) (hj : j ≠ g) : lanKey lan j < lanKey lan g :=
      lt_of_le_of_ne (hgreat j) (fun heq => hj (hv.distinct heq))
    have hstays : (g, .restart) ∉ trace := by
      intro hmem
      obtain ⟨e, he, hen⟩ := exists_enacted henacts hmem
      exact hkeep e he hen.mover.symm (hen.restart rfl)
    have hsole := path.sole_leader hstrict (role_leader.mpr hm) hstays
      (fun j hj => (hheeds j hj).heeds henacts) i
    exact role_leader.symm.trans hsole

def duel (i : Bool) : Member := ⟨.little, if i then rival else lab, .filled 0⟩

def duelMasters : List (LanEntry Bool) × Lan Bool :=
  match execute (lanStep duel) [(false, .quiet ⟨1, 0⟩), (true, .quiet ⟨1, 0⟩), (false, .quiet ⟨9, 0⟩),
    (true, .quiet ⟨9, 0⟩)] ⟨fun i => (duel i).config.daemon, []⟩ with
  | .ok r => r
  | .error _ => ([], ⟨fun i => (duel i).config.daemon, []⟩)

def duelHears : Bool × Input :=
  (false, { Input.quiet ⟨9, 500000000⟩ with pselect := .ready true false, sock := some wire })

theorem duel_virtualRouter : VirtualRouter duel := by
  refine ⟨?_, ?_, ?_⟩
  · intro i j
    cases i <;> cases j <;> rfl
  · intro i j h
    cases i <;> cases j <;> first | rfl | exact absurd h (by decide)
  · intro i j _
    cases i <;> cases j <;> decide

private theorem not_pkt_of_quiet {host : ByteOrder} {inp : Input} {d d' : Daemon}
    (hq : inp.pselect = .ready false false) : vrrpListen host inp d ≠ .ok (.pkt, d') := by
  intro h
  generalize he : VrrpEvent.pkt = event at h
  cases vrrpListen_cases h with
  | timer => cases he
  | signal => cases he
  | idle => cases he
  | datagram a m buf hp =>
    rw [hq] at hp
    cases hp
  | command a m hp =>
    rw [hq] at hp
    cases hp

private theorem duel_history : LanHistory duel duelMasters.1 duelMasters.2 := by
  refine ⟨⟨fun i => (duel i).config.daemon, []⟩, ?_, rfl, ?_, ?_⟩
  · intro i
    cases i <;> exact boot_daemon (.inl rfl)
  · rw [duelMasters]
    split
    · next r hr => exact .of_execute hr
    · exact .nil
  · have hall : ∀ e ∈ duelMasters.1, (after e).vrrp.priority = (before e).vrrp.priority ∧
        e.input.2.pselect = .ready false false := by decide +kernel
    intro e he
    refine ⟨(hall e he).1, ?_⟩
    intro d hl
    exact absurd hl.2 (not_pkt_of_quiet (hall e he).2)

private theorem duel_greatest : Greatest duel true := by
  intro i
  cases i with
  | false => exact le_of_lt (routerKey_lt.mpr (.inl (by decide)))
  | true => exact le_rfl

/-- A master that processes an advertisement keeps its priority. -/
theorem processStep_pkt {host : ByteOrder} {inp : Input} {d d₁ : Daemon}
    (hs : d.vrrp.state = .master) (hl : vrrpListen host inp d = .ok (.pkt, d₁)) :
    ∃ d' out, processStep host inp d = .ok (d', out) ∧ d'.vrrp.priority = d.vrrp.priority := by
  refine ⟨(masterPkt host inp.clockSet d₁).1.dumped, (masterPkt host inp.clockSet d₁).2, ?_, ?_⟩
  · simp only [processStep, vrrpProcess, vrrpDispatch, hs, vrrpStateMaster, hl, ok_bind, masterEvent]
    rfl
  · have hne : VrrpEvent.pkt ≠ .ctrlFifo := by decide
    rw [← (vrrpListen_cases hl).priority hne, Daemon.dumped_vrrp]
    rw [masterPkt]
    split
    · rfl
    split
    · rfl
    split
    · rfl
    split <;> rfl

/-- Two masters, and the advertisement of the rival arrives at the other: afterwards
the rival is the only one. -/
theorem mastership_agreement_duel :
    (∀ i, (duelMasters.2.daemons i).vrrp.state = .master) ∧
    ∃ e s, Run (lanStep duel) duelMasters.2 [e] s ∧ e.input = duelHears ∧
      ∀ i, (s.daemons i).vrrp.state = .master ↔ i = true := by
  have hmasters : ∀ i, (duelMasters.2.daemons i).vrrp.state = .master := by decide +kernel
  have hsent : (⟨true, rival.daemon.vnet.adv⟩ : Message Bool) ∈ duelMasters.2.sent := by decide +kernel
  have hz : framePriority rival.daemon.vnet.adv ≠ some 0 := by decide +kernel
  have history := duel_history
  obtain ⟨d₁, hl⟩ : ∃ d₁, vrrpListen .little duelHears.2 (duelMasters.2.daemons false) = .ok (.pkt, d₁) :=
    vrrpListen_of_recv (by decide +kernel) rfl (vrrpNetRecv_replicate (n := 40) 0 (by decide) (by decide +kernel))
  generalize duelMasters.2 = t at *
  obtain ⟨d, out, hs, hprio⟩ := processStep_pkt (hmasters false) hl
  obtain ⟨u, hu⟩ : ∃ u : Lan Bool, u = ⟨Function.update t.daemons false d,
      t.sent ++ (advs out).map (fun frame => ⟨false, frame⟩)⟩ := ⟨_, rfl⟩
  have hstep : lanStep duel duelHears t = .ok (u, out) := by
    rw [hu]
    exact congrArg (· >>= _) hs
  have hlisten : Listens duel ⟨t, duelHears, out, u⟩ .pkt d₁ := ⟨.inr (hmasters false), hl⟩
  have hflight : InFlight duel ⟨t, duelHears, out, u⟩ ⟨true, rival.daemon.vnet.adv⟩ :=
    ⟨hsent, wire, rfl, wire_delivered⟩
  have hgenuine : Genuine duel ⟨t, duelHears, out, u⟩ := by
    refine ⟨?_, fun _ _ => ⟨_, hflight⟩⟩
    have hafter : u.daemons = Function.update t.daemons false d := by rw [hu]
    simp only [after, before, duelHears, hafter, Function.update_self]
    exact hprio
  refine ⟨hmasters, ⟨t, duelHears, out, u⟩, u, .snoc .nil hstep, rfl, ?_⟩
  refine (mastership_agreement duel_virtualRouter history (.snoc .nil hstep)
    (by simpa using hgenuine)).2.2.2 true duel_greatest (hmasters true) ?_ ?_
  · intro e he hi
    obtain rfl := List.mem_singleton.mp he
    cases hi
  · intro i hi
    obtain rfl : i = false := by simpa using hi
    exact ⟨[], _, [], rfl, rfl, ⟨_, ⟨⟨d₁, hlisten⟩, hflight⟩, rfl, hz⟩, by simp⟩

end Uvrrpd
