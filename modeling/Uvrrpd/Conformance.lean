import Uvrrpd.Resignation
import Uvrrpd.StateMachine
import Uvrrpd.TieBreak
import Uvrrpd.Waiting

/-! The daemon is the state machine of the RFCs. What a call of `vrrp_process` finds is
an event of that machine or none; on these events the machine goes through the phases,
deadlines and messages of the daemon. -/
namespace Uvrrpd
open Library.Runs
open Protocol

/-- The readings of the clock during a call: usable, in order, and past the epoch. -/
def Input.Ticks (inp : Input) : Prop :=
  ∃ t ∈ inp.clockUpdate, ∃ u ∈ inp.clockExpired, ∃ v ∈ inp.clockSet,
    t.Normal ∧ u.Normal ∧ v.Normal ∧ t.nanos ≤ u.nanos ∧ u.nanos ≤ v.nanos ∧ 0 < v.nanos

instance (inp : Input) : Decidable inp.Ticks :=
  inferInstanceAs (Decidable (∃ t ∈ inp.clockUpdate, ∃ u ∈ inp.clockExpired, ∃ v ∈ inp.clockSet,
    t.Normal ∧ u.Normal ∧ v.Normal ∧ t.nanos ≤ u.nanos ∧ u.nanos ≤ v.nanos ∧ 0 < v.nanos))

def Config.parameters (c : Config) : Parameters Frame where
  version := c.version
  advertisementInterval := c.advInt.toNat
  startDelay := c.startDelay.toNat
  preempt := c.preempt
  addresses := c.vips.reverse.map VrrpIp.topology

def Daemon.phase (d : Daemon) : Phase :=
  match d.vrrp.state with
  | .backup => .backup d.vrrp.masterAdvInt.toNat d.vrrp.masterdownTimer.ts.nanos
  | .master => .master d.vrrp.advTimer.ts.nanos
  | _ => .initial

def Daemon.router (d : Daemon) : Router := ⟨d.vrrp.priority, d.phase⟩

def Vrrphdr.announced (hdr : Vrrphdr) : VrrpVersion → Nat
  | .rfc3768 => hdr.advInt.toNat
  | .rfc5798 => hdr.unreserved

/-- The sender is greater when its address is the greater number. -/
def Daemon.advertised (d : Daemon) : Event :=
  .advertisement (vrrpAdvGetPriority d.vnet) (d.vnet.pkt.adv.announced d.vrrp.version)
    (decide (d.vnet.vif.ipx.number d.vnet.family < d.vnet.pkt.sIpx.number d.vnet.family))

/-- A master hears its own priority only from addresses that are less than half of the IPv4
address space away. -/
def HearsNear (host : ByteOrder) (inp : Input) (d : Daemon) : Prop :=
  ∀ d₁, vrrpListen host inp d = .ok (.pkt, d₁) → d₁.vrrp.state = .master →
    vrrpAdvGetPriority d₁.vnet = d₁.vrrp.priority → d₁.vnet.family = .inet →
    Library.WrappedOrder.Near HALF_SPACE (d₁.vnet.pkt.sIpx.number .inet) (d₁.vnet.vif.ipx.number .inet)

/-- A reload is a shutdown; so is a `prio` command, which asks for one. -/
def Daemon.shutdown (d : Daemon) : Option Event :=
  if testBit UVRRPD_RELOAD d.reg then some (.shutdown d.vrrp.priority) else none

def VrrpEvent.protocol (d : Daemon) : VrrpEvent → Option Event
  | .timer => some .timer
  | .pkt => some d.advertised
  | .signal => d.shutdown
  | .ctrlFifo => d.shutdown
  | .vridMismatch => none
  | .invalid => none

def Daemon.observes (host : ByteOrder) (inp : Input) (d : Daemon) : Option Event :=
  match d.vrrp.state with
  | .init => some .startup
  | .other _ => none
  | _ =>
    match vrrpListen host inp d with
    | .ok (event, d₁) => event.protocol d₁
    | .error _ => none

/-- The event of a step, at the reading with which it arms a timer. -/
def protocolInput (host : ByteOrder) (e : Entry Daemon Input Output) : Option (Int × Event) :=
  match e.pre.observes host e.input, e.input.clockSet with
  | some event, some now => some (now.nanos, event)
  | _, _ => none

def protocolAction : Output → Option (Action Frame)
  | .adv frame => (framePriority frame).map .advertise
  | .topology frame => some (.announce frame)
  | _ => none

def actions (out : List Output) : List (Action Frame) := out.filterMap protocolAction

private theorem Input.Ticks.clockRuns {inp : Input} (h : inp.Ticks) : inp.ClockRuns := by
  obtain ⟨-, -, -, -, v, hv, -, -, hn, -, -, hpos⟩ := h
  refine ⟨v, hv, hn.1, hn.2.1, ?_⟩
  by_contra hnot
  have hzero : v.sec = 0 ∧ v.nsec = 0 := by
    have h₁ := hn.1
    have h₂ := hn.2.1
    omega
  simp [Timespec.nanos, hzero] at hpos

private theorem after_delays (v : Vrrp) (now : Timespec) (n : Nat) :
    now.after (delays v n n).1 (delays v n n).2 = now.nanos + n * v.version.unit := by
  rw [Timespec.after, delays]
  cases hv : v.version <;> simp [VrrpVersion.unit]

theorem skewTime_parameters (c : Config) (priority : UInt8) (interval : Nat) :
    c.parameters.skewTime priority interval = skew c.version priority interval := by
  have hle : priority.toNat ≤ 256 := priority.toNat_lt.le
  rw [Parameters.skewTime, show c.parameters.version = c.version from rfl]
  cases c.version with
  | rfc3768 =>
    have hq : skewSeconds .rfc3768 priority interval * unitsPerSecond .rfc3768 =
        ((256 - priority.toNat : Nat) : ℚ) / (256 : Nat) := by
      simp [skewSeconds, unitsPerSecond, Nat.cast_sub hle]
    rw [hq, Nat.floor_div_eq_div]
    rfl
  | rfc5798 =>
    have hq : skewSeconds .rfc5798 priority interval * unitsPerSecond .rfc5798 =
        (((256 - priority.toNat) * interval : Nat) : ℚ) / (256 : Nat) := by
      simp only [skewSeconds, unitsPerSecond, Nat.cast_mul, Nat.cast_sub hle]
      push_cast
      ring
    rw [hq, Nat.floor_div_eq_div]
    rfl

/-- The timer armed by one of the macros. -/
private theorem arm_nanos (v : Vrrp) (now : Timespec) (id : TimerId) (w : Vrrp) (n : Nat) :
    ((arm (some now) id (delays w n n) v).timer id).ts.nanos = now.nanos + n * w.version.unit := by
  rw [← after_delays, ← vrrpTimerSet_nanos _ _ _ (v.timer id)]
  cases id <;> rfl

/-- `TIMER` is not reported early. -/
private theorem due_of_timer {host : ByteOrder} {inp : Input} {d d₁ : Daemon} {id : TimerId} {now : Timespec}
    (ht : inp.Ticks) (hnow : inp.clockSet = some now) (hid : runningTimer d.vrrp = some id)
    (hl : vrrpListen host inp d = .ok (.timer, d₁)) : (d.vrrp.timer id).ts.nanos ≤ now.nanos := by
  obtain ⟨t, hu, u, hx, v, hv, hn, hn', -, htu, huv, -⟩ := ht
  obtain rfl := Option.some.inj (hnow.symm.trans hv)
  rcases (vrrpListen_deadline host hid hu hx hn hn').2 d₁ hl with h | ⟨-, h⟩ <;> omega

@[simp] theorem actions_append (xs ys : List Output) : actions (xs ++ ys) = actions xs ++ actions ys :=
  List.filterMap_append

@[simp] theorem actions_armed (now : Option Timespec) (id : TimerId) (delays : Int × Int) :
    actions (armed now id delays) = [] := by
  cases now <;> rfl

@[simp] theorem actions_topologySend (vnet : VrrpNet) :
    actions (topologySend vnet) = (vnet.vipList.reverse.map VrrpIp.topology).map .announce := by
  have hsome : protocolAction ∘ (fun vip : VrrpIp => Output.topology vip.topology) =
      some ∘ (Action.announce ∘ VrrpIp.topology) := rfl
  rw [actions, topologySend, List.filterMap_map, List.map_map, hsome, List.filterMap_eq_map]

/-- The buffer announces the current priority. -/
theorem Coherent.action {contents : Nat → UInt8} {d : Daemon} (h : Coherent contents d) :
    protocolAction (.adv d.vnet.adv) = some (.advertise d.vrrp.priority) := by
  rw [protocolAction, h.announces.framePriority]
  rfl

section Transitions
variable {contents : Nat → UInt8} {c : Config} {d : Daemon}

private theorem actions_gotoMaster (hco : Coherent contents d) (hc : Configured c d) (now : Option Timespec) :
    actions (vrrpStateGotoMaster now d).2 = .advertise d.vrrp.priority :: c.parameters.addresses.map .announce := by
  simp only [vrrpStateGotoMaster, actions_append, actions_topologySend, actions_armed, List.append_nil]
  rw [actions, List.filterMap_cons_some hco.action, hc.vips]
  simp [actions, protocolAction, Config.parameters]

private theorem actions_advertise (hco : Coherent contents d) (now : Option Timespec) :
    actions (advertise now d).2 = [.advertise d.vrrp.priority] := by
  rw [advertise, actions, List.filterMap_cons_some hco.action]
  congr 1
  exact actions_armed ..

private theorem actions_gotoBackup (host : ByteOrder) (now : Option Timespec) :
    actions (vrrpStateGotoBackup host now d).2 = [] := by
  simp only [vrrpStateGotoBackup, actions_append, actions_armed, List.append_nil]
  split <;> rfl

end Transitions

def Daemon.yielded (host : ByteOrder) (d : Daemon) : Vrrp :=
  { d.vrrp with state := .backup, masterAdvInt := gotoBackupAdvInt host d, advTimer := vrrpTimerClear }

private theorem gotoBackup_yielded (host : ByteOrder) (now : Option Timespec) (d : Daemon) :
    (vrrpStateGotoBackup host now d).1 = ⟨arm now .masterdown
      (if d.vrrp.state = .init ∧ d.vrrp.startDelay ≠ 0 then startdelayDelays (d.yielded host)
        else masterdownDelays (d.yielded host)) (d.yielded host), d.vnet, d.reg, d.buf⟩ := rfl

/-- What is known of a daemon on its way: its command line, its buffer, its timers,
and that it has learnt no interval but its own. -/
structure Tracks (c : Config) (contents : Nat → UInt8) (d : Daemon) : Prop where
  configured : Configured c d
  startDelay : d.vrrp.startDelay = c.startDelay
  coherent : Coherent contents d
  timers : TimersMatch d.vrrp
  interval : d.vrrp.state ≠ .init → d.vrrp.masterAdvInt = d.vrrp.advInt

section Step
variable {host : ByteOrder} {c : Config} {contents : Nat → UInt8} {inp : Input} {d d₁ d₂ d' : Daemon}
  {event : VrrpEvent} {out : List Output} {now : Timespec}

theorem Tracks.heard (h : Tracks c contents d) (hh : Heard host inp d event d₁) : Tracks c contents d₁ := by
  have hf := SameFixed.heard hh
  refine ⟨h.configured.of_fixed hf, hf.startDelay.trans h.startDelay, h.coherent.heard hh,
    h.timers.heard hh, ?_⟩
  intro hs
  rw [hh.masterAdvInt, hf.advInt]
  exact h.interval (hh.state ▸ hs)

/-- Only an advertisement that is followed changes the interval, and only in version 3. -/
theorem Tracks.step (h : Tracks c contents d) (hs : processStep host inp d = .ok (d', out))
    (ht : inp.Ticks) (hlearn : c.version = .rfc5798 → LearnsShort host inp d) : Tracks c contents d' := by
  have hf := SameFixed.step hs
  refine ⟨h.configured.of_fixed hf, hf.startDelay.trans h.startDelay, h.coherent.step hs,
    h.timers.step ht.clockRuns hs, ?_⟩
  cases hv : d.vrrp.version with
  | rfc5798 =>
    have hsteady : Steady d := fun _ hst => h.interval hst
    exact hsteady.step hs (fun hv => hlearn (h.configured.version ▸ hv)) (hf.version.trans hv)
  | rfc3768 =>
    intro hst
    cases processStep_cases hs with
    | startMaster => rfl
    | startBackup =>
      have hv' : d.primed.vrrp.version = .rfc3768 := hv
      simp only [vrrpStateGotoBackup, gotoBackupAdvInt, hv', Daemon.dumped_vrrp]
      rfl
    | @serve hst₀ event d₁ d₂ out hl hh =>
      have hheard := vrrpListen_cases hl
      have h₁ := h.heard hheard
      have hne : d₁.vrrp.state ≠ .init := by
        rw [hheard.state]
        rcases hst₀ with hst₀ | hst₀ <;> simp [hst₀]
      rcases hh.masterAdvInt with hsame | ⟨-, hv₁, -⟩
      · rw [Daemon.dumped_vrrp, hsame, (SameFixed.handled hh).advInt]
        exact h₁.interval hne
      · rw [(SameFixed.heard hheard).version, hv] at hv₁
        cases hv₁
    | stuck => exact h.interval hst

@[simp] theorem Daemon.dumped_router (d : Daemon) : d.dumped.router = d.router := rfl

/-- A timer is armed as many units ahead as the machine sets it. -/
private theorem Configured.arm_ahead (hc : Configured c d) (v w : Vrrp) (hw : w.version = d.vrrp.version) (id : TimerId)
    (n : Nat) : ((arm (some now) id (delays w n n) v).timer id).ts.nanos = c.parameters.ahead now.nanos n := by
  rw [arm_nanos, hw, hc.version, Parameters.ahead, Parameters.unit, show c.parameters.version = c.version from rfl]
  cases c.version <;> rfl

theorem Configured.advDelays (hc : Configured c d) (hi : d.vrrp.masterAdvInt = d.vrrp.advInt) :
    advDelays d.vrrp = delays d.vrrp c.advInt.toNat c.advInt.toNat := by
  rw [Uvrrpd.advDelays, hi, hc.advInt]

theorem Configured.toMaster (hc : Configured c d) (hi : d.vrrp.masterAdvInt = d.vrrp.advInt) :
    (vrrpStateGotoMaster (some now) d).1.router = (c.parameters.toMaster now.nanos d.router).1 := by
  have hd : (vrrpStateGotoMaster (some now) d).1.router =
      ⟨d.vrrp.priority, .master ((arm (some now) .adv (Uvrrpd.advDelays d.vrrp)
        { d.vrrp with state := .master, masterdownTimer := vrrpTimerClear }).timer .adv).ts.nanos⟩ := rfl
  rw [hd, hc.advDelays hi, hc.arm_ahead _ _ rfl]
  rfl

theorem Configured.advertises (hc : Configured c d) (hi : d.vrrp.masterAdvInt = d.vrrp.advInt)
    (hs : d.vrrp.state = .master) : (advertise (some now) d).1.router =
      { d.router with phase := .master (c.parameters.ahead now.nanos c.advInt.toNat) } := by
  have hd : (advertise (some now) d).1.phase =
      .master ((arm (some now) .adv (Uvrrpd.advDelays d.vrrp) d.vrrp).timer .adv).ts.nanos := by
    have hst : (advertise (some now) d).1.vrrp.state = .master := hs
    rw [Daemon.phase, hst]
    rfl
  rw [Daemon.router, hd, hc.advDelays hi, hc.arm_ahead _ _ rfl]
  rfl

theorem Configured.masterdown (hc : Configured c d) {v : Vrrp} (hv : v.version = d.vrrp.version)
    (hp : v.priority = d.vrrp.priority) : masterdownDelays v =
      delays v (c.parameters.masterDownInterval d.vrrp.priority v.masterAdvInt.toNat)
        (c.parameters.masterDownInterval d.vrrp.priority v.masterAdvInt.toNat) := by
  have hm : MASTERDOWN_INT v = c.parameters.masterDownInterval d.vrrp.priority v.masterAdvInt.toNat := by
    rw [MASTERDOWN_INT, skewTime_eq, hv, hp, hc.version, Parameters.masterDownInterval, skewTime_parameters]
  rw [masterdownDelays, hm]

/-- The masterdown timer is armed for an interval. -/
theorem Configured.toBackup (hc : Configured c d) (v : Vrrp) (hs : v.state = .backup)
    (hv : v.version = d.vrrp.version) (hp : v.priority = d.vrrp.priority) (vnet : VrrpNet) (reg : Reg) (buf : Octets) :
    Daemon.router ⟨arm (some now) .masterdown (masterdownDelays v) v, vnet, reg, buf⟩ =
      c.parameters.toBackup now.nanos v.masterAdvInt.toNat d.router := by
  have hd : Daemon.router ⟨arm (some now) .masterdown (masterdownDelays v) v, vnet, reg, buf⟩ =
      ⟨v.priority, .backup v.masterAdvInt.toNat
        ((arm (some now) .masterdown (masterdownDelays v) v).timer .masterdown).ts.nanos⟩ := by
    have hst : (arm (some now) .masterdown (masterdownDelays v) v).state = .backup := hs
    rw [Daemon.router, Daemon.phase, hst]
    rfl
  rw [hd, hc.masterdown hv hp, hc.arm_ahead _ _ hv, hp]
  rfl

def Reacts (c : Config) (now : Timespec) (d₁ d₂ : Daemon) (event : VrrpEvent) (out : List Output) : Prop :=
  (event.protocol d₁ = none → d₂.router = d₁.router ∧ actions out = []) ∧
    ∀ ev, event.protocol d₁ = some ev →
      c.parameters.react now.nanos d₁.router d₁.phase ev = some (d₂.router, actions out)

private theorem Reacts.of_some {ev : Event} (he : event.protocol d₁ = some ev)
    (h : c.parameters.react now.nanos d₁.router d₁.phase ev = some (d₂.router, actions out)) :
    Reacts c now d₁ d₂ event out := by
  constructor
  · intro hn
    rw [he] at hn
    cases hn
  · intro ev' he'
    obtain rfl := Option.some.inj (he.symm.trans he')
    exact h

theorem phase_backup (hs : d.vrrp.state = .backup) :
    d.phase = .backup d.vrrp.masterAdvInt.toNat d.vrrp.masterdownTimer.ts.nanos := by
  rw [Daemon.phase, hs]

theorem phase_master (hs : d.vrrp.state = .master) : d.phase = .master d.vrrp.advTimer.ts.nanos := by
  rw [Daemon.phase, hs]

/-- The interval of the followed master, as the machine adopts it. -/
theorem Configured.learnt (hc : Configured c d) (own : Nat) (learnt : UInt16)
    (hnew : d.vrrp.version = .rfc5798 → learnt.toNat = d.vnet.pkt.adv.unreserved)
    (hold : d.vrrp.version = .rfc3768 → learnt.toNat = own) :
    learnt.toNat = c.parameters.adopted own (d.vnet.pkt.adv.announced d.vrrp.version) := by
  rw [Parameters.adopted, show c.parameters.version = d.vrrp.version from hc.version.symm]
  cases hv : d.vrrp.version with
  | rfc3768 => exact hold hv
  | rfc5798 => exact hnew hv

structure Observed (host : ByteOrder) (now : Timespec) (d : Daemon) (event : VrrpEvent) : Prop where
  due : event = .timer → ∀ id, d.vrrp.state.timer = some id → (d.vrrp.timer id).ts.nanos ≤ now.nanos
  version : event = .pkt → vrrpAdvGetVersion d.vnet ≠ 0
  interval : event = .pkt → d.vrrp.version = .rfc5798 → vrrpAdvGetPriority d.vnet ≠ 0 →
    d.vrrp.state = .backup ∧ Follows d ∨ d.vrrp.state = .master ∧ Beaten d →
    (vrrpAdvGetAdvint host d.vnet).toNat = d.vnet.pkt.adv.unreserved
  order : event = .pkt → d.vrrp.state = .master → vrrpAdvGetPriority d.vnet = d.vrrp.priority →
    (0 < vrrpAdvAddrCmp d.vnet ↔
      d.vnet.vif.ipx.number d.vnet.family < d.vnet.pkt.sIpx.number d.vnet.family)

/-- A master gives way as the machine does. -/
private theorem Observed.beaten (ho : Observed host now d .pkt) (hs : d.vrrp.state = .master) :
    (d.router.priority < vrrpAdvGetPriority d.vnet ∨ vrrpAdvGetPriority d.vnet = d.router.priority ∧
      decide (d.vnet.vif.ipx.number d.vnet.family < d.vnet.pkt.sIpx.number d.vnet.family) = true) ↔ Beaten d := by
  rw [decide_eq_true_eq, Beaten]
  exact or_congr_right (and_congr_right fun hp => (ho.order rfl hs hp).symm)

private theorem protocol_unasked (he : event = .signal ∨ event = .ctrlFifo)
    (hr : testBit UVRRPD_RELOAD d.reg = false) : event.protocol d = none := by
  have hn : d.shutdown = none := by rw [Daemon.shutdown, hr]; rfl
  rcases he with rfl | rfl <;> exact hn

private theorem protocol_asked (he : event = .signal ∨ event = .ctrlFifo)
    (hr : testBit UVRRPD_RELOAD d.reg = true) : event.protocol d = some (.shutdown d.vrrp.priority) := by
  have hn : d.shutdown = some (.shutdown d.vrrp.priority) := by rw [Daemon.shutdown, hr]; rfl
  rcases he with rfl | rfl <;> exact hn

private theorem Reacts.of_none (he : event.protocol d = none) : Reacts c now d d event [] := by
  refine ⟨fun _ => ⟨rfl, rfl⟩, ?_⟩
  intro ev he'
  rw [he] at he'
  cases he'

private theorem Tracks.ignores (h : Tracks c contents d) (ho : Observed host now d event) (hi : Ignores d event) :
    Reacts c now d d event [] := by
  cases event with
  | timer => exact hi.elim
  | signal => exact .of_none (protocol_unasked (.inl rfl) hi)
  | ctrlFifo => exact .of_none (protocol_unasked (.inr rfl) hi)
  | vridMismatch => exact .of_none rfl
  | invalid => exact .of_none rfl
  | pkt =>
    refine .of_some rfl ?_
    obtain ⟨hz, hwhen⟩ := (show _ ∨ _ from hi).resolve_left (ho.version rfl)
    rcases hwhen with ⟨hs, hnot⟩ | ⟨hs, hnot⟩
    · have hfollows : ¬ (c.parameters.preempt = false ∨ d.router.priority ≤ vrrpAdvGetPriority d.vnet) := by
        rw [Follows, h.configured.preempt] at hnot
        exact hnot
      rw [phase_backup hs]
      simp only [Daemon.advertised, Parameters.react, if_neg hz, if_neg hfollows]
      rfl
    · have hbeaten := mt (ho.beaten hs).mp hnot
      rw [phase_master hs]
      simp only [Daemon.advertised, Parameters.react, if_neg hz, if_neg hbeaten]
      rfl

/-- An advertisement of priority 0 leaves the backup its skew time. -/
private theorem Tracks.shortens (h : Tracks c contents d) (hs : d.vrrp.state = .backup)
    (hp : vrrpAdvGetPriority d.vnet = 0) :
    Reacts c now d { d with vrrp := arm (some now) .masterdown (skewDelays d.vrrp) d.vrrp } .pkt
      (armed (some now) .masterdown (skewDelays d.vrrp)) := by
  refine .of_some rfl ?_
  have hd : Daemon.router { d with vrrp := arm (some now) .masterdown (skewDelays d.vrrp) d.vrrp } =
      ⟨d.vrrp.priority, .backup d.vrrp.masterAdvInt.toNat
        ((arm (some now) .masterdown (skewDelays d.vrrp) d.vrrp).timer .masterdown).ts.nanos⟩ := by
    have hst : (arm (some now) .masterdown (skewDelays d.vrrp) d.vrrp).state = .backup := hs
    rw [Daemon.router, Daemon.phase, hst]
    rfl
  rw [actions_armed, hd, skewDelays, h.configured.arm_ahead _ _ rfl, skewTime_eq, h.configured.version,
    phase_backup hs]
  simp only [Daemon.advertised, Parameters.react, if_pos hp, skewTime_parameters]
  rfl

private theorem Tracks.follows (h : Tracks c contents d) (ho : Observed host now d .pkt) (hs : d.vrrp.state = .backup)
    (hp : vrrpAdvGetPriority d.vnet ≠ 0) (hf : Follows d) :
    Reacts c now d { d with vrrp := arm (some now) .masterdown (masterdownDelays (d.learnt host)) (d.learnt host) }
      .pkt (armed (some now) .masterdown (masterdownDelays (d.learnt host))) := by
  refine .of_some rfl ?_
  have hversion : (d.learnt host).version = d.vrrp.version := by
    rw [Daemon.learnt]
    split <;> rfl
  have hlearnt : (d.learnt host).masterAdvInt.toNat =
      c.parameters.adopted d.vrrp.masterAdvInt.toNat (d.vnet.pkt.adv.announced d.vrrp.version) := by
    apply h.configured.learnt
    · intro hv
      rw [Daemon.learnt, if_pos hv]
      exact ho.interval rfl hv hp (.inl ⟨hs, hf⟩)
    · intro hv
      rw [Daemon.learnt, hv]
      rfl
  have hfollows : c.parameters.preempt = false ∨ d.router.priority ≤ vrrpAdvGetPriority d.vnet := by
    rw [Follows, h.configured.preempt] at hf
    exact hf
  rw [actions_armed, h.configured.toBackup (d.learnt host) ((d.learnt_state host).trans hs) hversion
    (d.learnt_priority host), hlearnt, phase_backup hs]
  simp only [Daemon.advertised, Parameters.react, if_neg hp, if_pos hfollows]

private theorem Tracks.yields (h : Tracks c contents d) (ho : Observed host now d .pkt) (hs : d.vrrp.state = .master)
    (hp : vrrpAdvGetPriority d.vnet ≠ 0) (hb : Beaten d) :
    Reacts c now d (vrrpStateGotoBackup host (some now) d).1 .pkt (vrrpStateGotoBackup host (some now) d).2 := by
  refine .of_some rfl ?_
  have hne : d.vrrp.state ≠ .init := by simp [hs]
  have hlearnt : (gotoBackupAdvInt host d).toNat =
      c.parameters.adopted c.parameters.advertisementInterval (d.vnet.pkt.adv.announced d.vrrp.version) := by
    apply h.configured.learnt
    · intro hv
      simp only [gotoBackupAdvInt, hv, hs]
      exact ho.interval rfl hv hp (.inr ⟨hs, hb⟩)
    · intro hv
      simp only [gotoBackupAdvInt, hv, h.interval hne, h.configured.advInt]
      rfl
  have hbeaten := (ho.beaten hs).mpr hb
  have hm : (d.yielded host).masterAdvInt = gotoBackupAdvInt host d := rfl
  rw [actions_gotoBackup, gotoBackup_yielded, if_neg (fun hi => hne hi.1),
    h.configured.toBackup (d.yielded host) rfl rfl rfl, hm, hlearnt, phase_master hs]
  simp only [Daemon.advertised, Parameters.react, if_neg hp, if_pos hbeaten]

/-- The steps of the handlers are steps of the machine. -/
theorem Tracks.handled (h : Tracks c contents d) (ho : Observed host now d event)
    (hh : Handled host (some now) d event d₂ out) : Reacts c now d d₂ event out := by
  cases hh with
  | ignore hi => exact h.ignores ho hi
  | shorten hs hp => exact h.shortens hs hp
  | follow hs hp hf => exact h.follows ho hs hp hf
  | yield hs hp hb => exact h.yields ho hs hp hb
  | takeover hs =>
    have hi := h.interval (by simp [hs])
    have hdue := ho.due rfl .masterdown (by rw [hs]; rfl)
    refine .of_some rfl ?_
    rw [h.configured.toMaster hi, actions_gotoMaster h.coherent h.configured, phase_backup hs]
    exact if_pos hdue
  | tick hs =>
    have hi := h.interval (by simp [hs])
    have hdue := ho.due rfl .adv (by rw [hs]; rfl)
    refine .of_some rfl ?_
    rw [h.configured.advertises hi hs, actions_advertise h.coherent, phase_master hs]
    exact if_pos hdue
  | answer hs hp =>
    have hi := h.interval (by simp [hs])
    refine .of_some rfl ?_
    rw [h.configured.advertises hi hs, actions_advertise h.coherent, phase_master hs]
    exact if_pos hp
  | restart hs he hr =>
    refine .of_some (protocol_asked he hr) ?_
    rw [phase_backup hs]
    rfl
  | resign hs he hr hz =>
    have hframe : framePriority _ = some 0 := Coherent.Announces.framePriority (h.coherent.sendZero hz).2
    refine .of_some (protocol_asked he hr) ?_
    rw [phase_master hs, actions, List.filterMap_cons_some (by rw [protocolAction, hframe]; rfl)]
    rfl

theorem Heard.phase (hh : Heard host inp d event d₁) : d₁.phase = d.phase := by
  rw [Daemon.phase, Daemon.phase, hh.state, hh.masterAdvInt, hh.deadlines.1, hh.deadlines.2]

/-- Whatever changes the priority asks for a reload. -/
private theorem Heard.unasked (hh : Heard host inp d event d₁)
    (hq : ∀ priority, event.protocol d₁ ≠ some (.shutdown priority)) :
    d₁.router = d.router := by
  suffices hpriority : d₁.vrrp.priority = d.vrrp.priority by
    rw [Daemon.router, Daemon.router, hh.phase, hpriority]
  cases hh with
  | timer => rfl
  | signal => rfl
  | idle => rfl
  | datagram => rfl
  | command a m hp hc =>
    cases vrrpCtrlRead_cases hc with
    | refused => rfl
    | stop => rfl
    | reload => rfl
    | status => rfl
    | prio => exact absurd (protocol_asked (.inr rfl) (by simp [UVRRPD_RELOAD])) (hq _)

theorem observes_listened (hs : d.vrrp.state = .backup ∨ d.vrrp.state = .master)
    (hl : vrrpListen host inp d = .ok (event, d₁)) : d.observes host inp = event.protocol d₁ := by
  rcases hs with hs | hs
  · simp only [Daemon.observes, hs, hl]
  · simp only [Daemon.observes, hs, hl]

/-- What `vrrp_listen` reports is due, well formed and of a short interval. -/
private theorem Tracks.observed (h : Tracks c contents d) (ht : inp.Ticks) (hnow : inp.clockSet = some now)
    (hlearn : c.version = .rfc5798 → LearnsShort host inp d) (hnear : HearsNear host inp d)
    (hl : vrrpListen host inp d = .ok (event, d₁)) : Observed host now d₁ event := by
  have hh := vrrpListen_cases hl
  constructor
  · rintro rfl id hid
    have hdue := due_of_timer ht hnow (h.timers.runningTimer.trans (hh.state ▸ hid)) hl
    cases id with
    | adv => exact hh.deadlines.1 ▸ hdue
    | masterdown => exact hh.deadlines.2 ▸ hdue
  · rintro rfl
    obtain ⟨_, _, _, _, hr⟩ := hh.of_pkt rfl
    exact vrrpNetRecv_version hr
  · rintro rfl hv hp hwhen
    obtain ⟨a, m, hvrrp, -, hr⟩ := hh.of_pkt rfl
    have hv₀ : (d.waited a m).vrrp.version = .rfc5798 := hvrrp ▸ hv
    have hz := hlearn (h.configured.version.symm.trans hv₀) d₁ hl hp hwhen
    rw [accepted_interval hv₀ hr, Vrrphdr.interval, Vrrphdr.unreserved, hz]
    rfl
  · rintro rfl hs hp
    have hranked : Ranked d₁.vnet.family d₁.vnet.pkt.sIpx d₁.vnet.vif.ipx := by
      rw [ranked_iff]
      cases hf : d₁.vnet.family with
      | inet => exact .inr (hnear d₁ hl hs hp hf)
      | inet6 => exact .inl rfl
    exact hranked.1.1

@[simp] theorem actions_exec_cons (state : VrrpState) (out : List Output) :
    actions (.exec state :: out) = actions out := rfl

private theorem phase_init (hs : d.vrrp.state = .init) : d.phase = .initial := by
  rw [Daemon.phase, hs]

private theorem Tracks.startsMaster (h : Tracks c contents d) (hs : d.vrrp.state = .init) (hp : d.vrrp.priority = 255) :
    c.parameters.react now.nanos d.router d.phase .startup =
      some ((vrrpStateGotoMaster (some now) d.primed).1.router,
        actions (vrrpStateGotoMaster (some now) d.primed).2) := by
  have hc : Configured c d.primed := h.configured.of_fixed ⟨rfl, rfl⟩
  have hco : Coherent contents d.primed := h.coherent.congr ⟨rfl, rfl⟩ rfl rfl
  have hd : d.primed.router = d.router := by
    rw [Daemon.router, Daemon.router, phase_init hs, phase_init (show d.primed.vrrp.state = .init from hs)]
    rfl
  rw [hc.toMaster rfl, actions_gotoMaster hco hc, hd, phase_init hs]
  simp only [Parameters.react, Parameters.startup]
  rw [if_pos (show d.router.priority = 255 from hp)]
  rfl

private theorem Tracks.startsBackup (h : Tracks c contents d) (hs : d.vrrp.state = .init) (hp : d.vrrp.priority ≠ 255) :
    c.parameters.react now.nanos d.router d.phase .startup =
      some ((vrrpStateGotoBackup host (some now) d.primed).1.router,
        actions (vrrpStateGotoBackup host (some now) d.primed).2) := by
  have hc : Configured c d.primed := h.configured.of_fixed ⟨rfl, rfl⟩
  have hs' : d.primed.vrrp.state = .init := hs
  have hm : (d.primed.yielded host).masterAdvInt = c.advInt := by
    rw [← h.configured.advInt, Daemon.yielded, gotoBackupAdvInt, hs']
    cases d.primed.vrrp.version <;> rfl
  rw [actions_gotoBackup, phase_init hs]
  simp only [Parameters.react, Parameters.startup]
  rw [if_neg (show d.router.priority ≠ 255 from hp)]
  have hzero : c.parameters.startDelay = 0 ↔ d.vrrp.startDelay = 0 := by
    rw [h.startDelay, ← UInt16.toNat_inj]
    rfl
  rw [gotoBackup_yielded]
  by_cases hz : d.vrrp.startDelay = 0
  · rw [if_pos (hzero.mpr hz), if_neg (fun hn => hn.2 hz), hc.toBackup (d.primed.yielded host) rfl rfl rfl, hm]
    rfl
  · have hd (delays : Int × Int) : Daemon.router ⟨arm (some now) .masterdown delays (d.primed.yielded host),
        d.primed.vnet, d.primed.reg, d.primed.buf⟩ =
          ⟨d.vrrp.priority, .backup (d.primed.yielded host).masterAdvInt.toNat
          ((arm (some now) .masterdown delays (d.primed.yielded host)).timer .masterdown).ts.nanos⟩ := rfl
    have hdelay : (d.primed.yielded host).startDelay = c.startDelay := h.startDelay
    rw [if_neg (fun hn => hz (hzero.mp hn)), if_pos ⟨hs', hz⟩, hd, startdelayDelays,
      hc.arm_ahead _ (d.primed.yielded host) rfl, hm, hdelay]
    rfl

/-- A call is a step of the machine, or one that it does not see. -/
theorem Tracks.simulated (h : Tracks c contents d) (hs : processStep host inp d = .ok (d', out)) (ht : inp.Ticks)
    (hlearn : c.version = .rfc5798 → LearnsShort host inp d) (hnear : HearsNear host inp d) :
    (protocolInput host ⟨d, inp, out, d'⟩ = none → d'.router = d.router ∧ actions out = []) ∧
      ∀ k, protocolInput host ⟨d, inp, out, d'⟩ = some k →
        c.parameters.step k d.router = .ok (d'.router, actions out) := by
  obtain ⟨now, hnow, -⟩ := ht.clockRuns
  have hin : protocolInput host ⟨d, inp, out, d'⟩ = (d.observes host inp).map (now.nanos, ·) := by
    rw [protocolInput, hnow]
    cases d.observes host inp <;> rfl
  have hstep {ev : Event} {next : Router × List (Action Frame)}
      (hr : c.parameters.react now.nanos d.router d.phase ev = some next) :
      c.parameters.step (now.nanos, ev) d.router = .ok next := by
    rw [Parameters.step, show d.router.phase = d.phase from rfl, hr]
  rw [hin]
  cases processStep_cases hs with
  | startMaster hst hp =>
    have ho : d.observes host inp = some .startup := by simp only [Daemon.observes, hst]
    rw [ho, hnow]
    refine ⟨nofun, ?_⟩
    rintro k ⟨rfl⟩
    exact hstep (h.startsMaster hst hp)
  | startBackup hst hp =>
    have ho : d.observes host inp = some .startup := by simp only [Daemon.observes, hst]
    rw [ho, hnow]
    refine ⟨nofun, ?_⟩
    rintro k ⟨rfl⟩
    exact hstep (h.startsBackup hst hp)
  | @serve hst event d₁ d₂ out hl hh =>
    have hheard := vrrpListen_cases hl
    rw [observes_listened hst hl]
    rw [hnow] at hh
    obtain ⟨hidle, hmoves⟩ := (h.heard hheard).handled (h.observed ht hnow hlearn hnear hl) hh
    constructor
    · intro hnone
      have he : event.protocol d₁ = none := Option.map_eq_none_iff.mp hnone
      have hsame := hheard.unasked (fun priority hp => nomatch he.symm.trans hp)
      exact ⟨(hidle he).1.trans hsame, (hidle he).2⟩
    · intro k hk
      obtain ⟨ev, he, rfl⟩ := Option.map_eq_some_iff.mp hk
      have hr := hmoves ev he
      rw [hheard.phase] at hr
      refine hstep ?_
      by_cases hq : ∃ priority, ev = .shutdown priority
      · obtain ⟨priority, rfl⟩ := hq
        rw [c.parameters.react_shutdown _ d.router d₁.router]
        exact hr
      · rw [← hheard.unasked (fun priority hp => hq ⟨priority, Option.some.inj (he.symm.trans hp)⟩)]
        exact hr
  | stuck hst =>
    have hno := h.timers
    rw [TimersMatch, hst] at hno
    exact hno.elim

end Step

/-- The timer of the state is the timer of the phase. -/
theorem TimersMatch.timer {d : Daemon} (h : TimersMatch d.vrrp) {due : Int} (hd : d.phase.timer = some due) :
    ∃ id, Uvrrpd.runningTimer d.vrrp = some id ∧ (d.vrrp.timer id).ts.nanos = due ∧
      (d.vrrp.state = .backup ∨ d.vrrp.state = .master) := by
  rw [h.runningTimer]
  rw [Daemon.phase] at hd
  cases hs : d.vrrp.state with
  | init => simp [hs, Phase.timer] at hd
  | backup =>
    rw [hs] at hd
    exact ⟨.masterdown, rfl, Option.some.inj hd, .inl rfl⟩
  | master =>
    rw [hs] at hd
    exact ⟨.adv, rfl, Option.some.inj hd, .inr rfl⟩
  | other value => simp [hs, Phase.timer] at hd

theorem Booted.tracks {c : Config} {fresh : Fresh} {d : Daemon} (hb : Booted c fresh d) :
    ∃ contents, Tracks c contents d ∧ d.router = ⟨c.priority, .initial⟩ := by
  obtain ⟨contents, -, hdata⟩ := hb.data
  have hs : d.vrrp.state = .init := by rw [hb.vrrp]; rfl
  refine ⟨contents, ⟨hb.configured, by rw [hb.vrrp]; rfl, ⟨hb.prepared, hdata⟩, ?_, fun hn => absurd hs hn⟩, ?_⟩
  · rw [hb.vrrp]
    exact ⟨rfl, rfl⟩
  · rw [Daemon.router, phase_init hs, hb.vrrp]
    rfl

/-- While its clock runs, no version 3 router announces an interval of more than one octet
to it, and a master hears its own priority only from IPv4 addresses that are near its own,
every history of the daemon is a run of the machine over the events it finds: the same
phases with the same deadlines, and the same messages in the same order. And a deadline
that has passed when the wait begins is such an event. -/
theorem daemon_conforms {host : ByteOrder} {c : Config} {fresh : Fresh} {h : List (Entry Daemon Input Output)}
    {d : Daemon} (run : History host c fresh h d) (clock : ∀ e ∈ h, e.input.Ticks)
    (short : c.version = .rfc5798 → ∀ e ∈ h, LearnsShort host e.input e.pre)
    (near : ∀ e ∈ h, HearsNear host e.input e.pre) :
    (∃ k, Run c.parameters.step ⟨c.priority, .initial⟩ k d.router ∧
      k.map Entry.input = h.filterMap (protocolInput host) ∧ outputs k = actions (outputs h)) ∧
    ∀ e ∈ h, ∀ due now, e.pre.phase.timer = some due → e.input.clockUpdate = some now → due < now.nanos →
      e.pre.observes host e.input = some .timer := by
  constructor
  · obtain ⟨start, hboot, hrun⟩ := run
    obtain ⟨contents, htracks, hstart⟩ := (boot_spec hboot).tracks
    rw [← hstart]
    refine Run.simulate Daemon.router protocolAction (protocolInput host) (Tracks c contents)
      (fun e => e.input.Ticks ∧ (c.version = .rfc5798 → LearnsShort host e.input e.pre) ∧
        HearsNear host e.input e.pre) hrun
      (fun e he => ⟨clock e he, fun hv => short hv e he, near e he⟩) htracks ?_ ?_ ?_
    · rintro i t u out ht hs ⟨hticks, hlearn, -⟩
      exact ht.step hs hticks hlearn
    · rintro i t u out ht hs ⟨hticks, hlearn, hnear⟩
      exact (ht.simulated hs hticks hlearn hnear).1
    · rintro i t u out k ht hs ⟨hticks, hlearn, hnear⟩
      exact (ht.simulated hs hticks hlearn hnear).2 k
  · intro e he due now hdue hnow hlate
    obtain ⟨⟨before, hb, hsub⟩, -⟩ := run.mem he
    have htimers := TimersMatch.history hb (fun a ha => (clock a (hsub a ha)).clockRuns)
    obtain ⟨id, hid, hts, hst⟩ := htimers.timer hdue
    obtain ⟨t, ht, u, hu, -, -, hnt, hnu, -⟩ := clock e he
    obtain rfl := Option.some.inj (hnow.symm.trans ht)
    obtain ⟨d₁, hl⟩ := (vrrpListen_deadline host hid hnow hu hnt hnu).1 (hts ▸ hlate)
    exact observes_listened hst hl

/-- A router alone on its network starts, takes over and is told to reload. -/
theorem daemon_conforms_lab :
    (labResignation.1.filterMap (protocolInput .little)).map Prod.snd = [.startup, .timer, .shutdown 100] ∧
    ∃ k, Run lab.parameters.step ⟨100, .initial⟩ k labResignation.2.router ∧
      k.map Entry.input = labResignation.1.filterMap (protocolInput .little) ∧
      outputs k = actions (outputs labResignation.1) := by
  have clock : ∀ e ∈ labResignation.1, e.input.Ticks := by decide +kernel
  have silent : ∀ e ∈ labResignation.1, readsSocket e.input e.pre = false := by decide +kernel
  have near : ∀ e ∈ labResignation.1, HearsNear .little e.input e.pre := fun e he d₁ hl =>
    absurd (readsSocket_of_pkt hl) (Bool.eq_false_iff.mp (silent e he))
  exact ⟨by decide +kernel, (daemon_conforms (history_runOn (.inl rfl) _) clock (fun hv => nomatch hv) near).1⟩

end Uvrrpd
