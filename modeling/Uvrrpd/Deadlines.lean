import Uvrrpd.Bounds
import Uvrrpd.Interval
import Uvrrpd.TimerState

/-! How far ahead the masterdown deadline lies. It grows with the interval learnt
from an advertisement, whose four reserved bits are not masked out, and among
backups it is told apart by a skew that integer division rounds down. -/
namespace Uvrrpd
open Library.Runs

def Timespec.nanos (t : Timespec) : Int := t.sec * NANOUL + t.nsec

/-- The interval that a backup's timer is armed for: the one it has, when the master
resigns, and otherwise the one it learns in version 3. -/
def Daemon.intervalInForce (d : Daemon) : Nat :=
  if vrrpAdvGetPriority d.vnet ≠ 0 ∧ d.vrrp.version = .rfc5798 then d.vnet.pkt.adv.interval .rfc5798
  else d.vrrp.masterAdvInt.toNat

def Daemon.patience (d : Daemon) : Nat := if vrrpAdvGetPriority d.vnet = 0 then 0 else 3

def VrrpVersion.unit : VrrpVersion → Int
  | .rfc3768 => NANOUL
  | .rfc5798 => CENTUL

def skew (version : VrrpVersion) (priority : UInt8) (interval : Nat) : Nat :=
  match version with
  | .rfc3768 => (256 - priority.toNat) / 256
  | .rfc5798 => (256 - priority.toNat) * interval / 256

private theorem nanos_arm (v : Vrrp) (now : Timespec) (n : Nat) :
    (arm (some now) .masterdown (delays v n n) v).masterdownTimer.ts.nanos =
      now.nanos + n * v.version.unit := by
  cases hv : v.version <;>
    simp [arm, Vrrp.setTimer, vrrpTimerSet, delays, hv, Timespec.nanos, VrrpVersion.unit, NANOUL, CENTUL] <;>
    ring

theorem skewTime_eq (v : Vrrp) : SKEW_TIME v = skew v.version v.priority v.masterAdvInt.toNat := by
  rw [SKEW_TIME]
  cases v.version with
  | rfc3768 => rw [if_neg (by decide), Nat.mul_one]; rfl
  | rfc5798 => rw [if_pos rfl]; rfl

/-- The deadline that a backup sets on an advertisement it heeds, and the interval it keeps. -/
private theorem backup_deadline {host : ByteOrder} {inp : Input} {d d₁ : Daemon} {now : Timespec}
    (hl : vrrpListen host inp d = .ok (.pkt, d₁)) (hnow : inp.clockSet = some now)
    (hre : vrrpAdvGetPriority d₁.vnet = 0 ∨ Follows d₁) :
    ∃ d₂ out, vrrpStateBackup host inp d = .ok (d₂, out) ∧
      d₂.vrrp.masterdownTimer.ts.nanos = now.nanos + (d₁.patience * d₁.intervalInForce +
        skew d.vrrp.version d.vrrp.priority d₁.intervalInForce : Nat) * d.vrrp.version.unit ∧
      d₂.vrrp.masterAdvInt.toNat = d₁.intervalInForce := by
  have hheard := vrrpListen_cases hl
  have hprio := hheard.priority (by decide)
  have hver := (SameFixed.heard hheard).version
  obtain ⟨a, m, -, -, hr⟩ := hheard.of_pkt rfl
  have hne := vrrpNetRecv_version hr
  have hstep : vrrpStateBackup host inp d = .ok (backupPkt host (some now) d₁) := by
    rw [vrrpStateBackup, hl, ← hnow]
    rfl
  refine ⟨(backupPkt host (some now) d₁).1, (backupPkt host (some now) d₁).2, hstep, ?_⟩
  rw [← hprio, ← hver, backupPkt, if_neg hne]
  by_cases hz : vrrpAdvGetPriority d₁.vnet = 0
  · have hforce : d₁.intervalInForce = d₁.vrrp.masterAdvInt.toNat := by simp [Daemon.intervalInForce, hz]
    have hwait : d₁.patience = 0 := by simp [Daemon.patience, hz]
    rw [if_pos hz, hforce, hwait, Nat.zero_mul, Nat.zero_add, ← skewTime_eq]
    exact ⟨nanos_arm d₁.vrrp now (SKEW_TIME d₁.vrrp), rfl⟩
  · have hf : Follows d₁ := hre.resolve_left hz
    have hwait : d₁.patience = 3 := by simp [Daemon.patience, hz]
    have hlearnt : (d₁.learnt host).masterAdvInt.toNat = d₁.intervalInForce := by
      rw [Daemon.learnt, Daemon.intervalInForce]
      by_cases hv : d₁.vrrp.version = .rfc5798
      · rw [if_pos hv, if_pos ⟨hz, hv⟩]
        exact accepted_interval (hver.symm.trans hv) hr
      · rw [if_neg hv, if_neg (fun h => hv h.2)]
    have hver' : (d₁.learnt host).version = d₁.vrrp.version := by
      rw [Daemon.learnt]
      split <;> rfl
    have harm := nanos_arm (d₁.learnt host) now (MASTERDOWN_INT (d₁.learnt host))
    rw [hver'] at harm
    rw [if_neg hz, if_pos (show _ ∨ _ from hf), hwait, ← hlearnt]
    refine ⟨harm.trans ?_, rfl⟩
    rw [MASTERDOWN_INT, skewTime_eq, hver', Daemon.learnt_priority]

def LearnsUnreserved (host : ByteOrder) (inp : Input) (d : Daemon) : Prop :=
  ∀ d₁, vrrpListen host inp d = .ok (.pkt, d₁) → vrrpAdvGetPriority d₁.vnet ≠ 0 →
    d₁.vrrp.state = .backup ∧ Follows d₁ ∨ d₁.vrrp.state = .master ∧ Beaten d₁ →
    d₁.vnet.pkt.adv.authType.toNat < 16

instance (host : ByteOrder) (inp : Input) (d : Daemon) : Decidable (LearnsUnreserved host inp d) :=
  decidable_of_iff (∀ r ∈ (vrrpListen host inp d).toOption, r.1 = .pkt →
      vrrpAdvGetPriority r.2.vnet ≠ 0 →
      r.2.vrrp.state = .backup ∧ Follows r.2 ∨ r.2.vrrp.state = .master ∧ Beaten r.2 →
      r.2.vnet.pkt.adv.authType.toNat < 16) (by
    constructor
    · intro h d₁ hl
      exact h (.pkt, d₁) (by rw [hl]; rfl) rfl
    · rintro h ⟨event, d₁⟩ hr rfl
      apply h d₁
      cases hl : vrrpListen host inp d with
      | error e => rw [hl] at hr; cases hr
      | ok r => rw [hl] at hr; exact congrArg Except.ok (Option.some.inj hr))

/-- The masterdown timer behind a step: left as it was, cleared, or set to a deadline
at most some centiseconds ahead. -/
def SetWithin (bound : Nat) (now : Option Timespec) (t t' : VrrpTimer) : Prop :=
  t'.ts = t.ts ∨ t'.ts = ⟨0, 0⟩ ∨
    ∃ reading : Timespec, ∃ cs ≤ bound, now = some reading ∧
      t'.ts = ⟨reading.sec, reading.nsec + cs * CENTUL⟩

theorem skewTime_le (v : Vrrp) (hv : v.version = .rfc5798) : SKEW_TIME v ≤ v.masterAdvInt.toNat := by
  rw [SKEW_TIME, if_pos hv]
  apply Nat.div_le_of_le_mul
  exact Nat.mul_le_mul_right _ (by omega)

private theorem masterdownInt_le (v : Vrrp) (hv : v.version = .rfc5798) :
    MASTERDOWN_INT v ≤ 4 * v.masterAdvInt.toNat := by
  have hskew := skewTime_le v hv
  rw [MASTERDOWN_INT]
  omega

/-- Arming the masterdown timer in version 3. -/
private theorem setWithin_arm (now : Option Timespec) {v : Vrrp} (hv : v.version = .rfc5798)
    {bound seconds cs : Nat} (hcs : cs ≤ bound) (t : VrrpTimer) (ht : t.ts = v.masterdownTimer.ts) :
    SetWithin bound now t (arm now .masterdown (delays v seconds cs) v).masterdownTimer := by
  cases now with
  | none => exact .inl ht.symm
  | some reading =>
    refine .inr (.inr ⟨reading, cs, hcs, rfl, ?_⟩)
    simp [arm, Vrrp.setTimer, vrrpTimerSet, delays, hv]

/-- The bound on `master_adv_int`, and on every deadline that a step sets. -/
structure Bounded (d : Daemon) : Prop where
  version : d.vrrp.version = .rfc5798
  advInt : d.vrrp.advInt.toNat ≤ ADVINT_MAX
  startDelay : d.vrrp.startDelay.toNat ≤ ADVINT_MAX
  masterAdvInt : d.vrrp.masterAdvInt.toNat ≤ ADVINT_MAX

def Vrrphdr.unreserved (hdr : Vrrphdr) : Nat := 256 * (hdr.authType.toNat % 16) + hdr.advInt.toNat

private theorem unreserved_le (hdr : Vrrphdr) : hdr.unreserved ≤ ADVINT_MAX := by
  have hlt := hdr.advInt.toNat_lt
  simp only [Vrrphdr.unreserved, ADVINT_MAX]
  omega

/-- What a listening step makes of `master_adv_int`. -/
private theorem Bounded.learnt {host : ByteOrder} {inp : Input} {d d₁ d₂ : Daemon} {event : VrrpEvent}
    {now : Option Timespec} {out : List Output} (h : Bounded d)
    (hl : vrrpListen host inp d = .ok (event, d₁)) (hh : Handled host now d₁ event d₂ out)
    (hres : LearnsUnreserved host inp d) :
    d₂.vrrp.masterAdvInt = d.vrrp.masterAdvInt ∨
      event = .pkt ∧ d₂.vrrp.masterAdvInt.toNat = d₁.vnet.pkt.adv.unreserved := by
  have hheard := vrrpListen_cases hl
  rcases hh.masterAdvInt with hsame | ⟨rfl, -, hp, hwhen, hm⟩
  · exact .inl (hsame.trans hheard.masterAdvInt)
  · obtain ⟨a, m, -, -, hr⟩ := hheard.of_pkt rfl
    have hclear := hres d₁ hl hp hwhen
    refine .inr ⟨rfl, ?_⟩
    rw [hm, accepted_interval h.version hr, Vrrphdr.interval, Vrrphdr.unreserved, Nat.mod_eq_of_lt hclear]

/-- Going to backup state. -/
private theorem setWithin_gotoBackup (host : ByteOrder) (now : Option Timespec) {d : Daemon}
    {t : VrrpTimer} (hv : d.vrrp.version = .rfc5798) (hs : d.vrrp.startDelay.toNat ≤ ADVINT_MAX)
    (hm : (gotoBackupAdvInt host d).toNat ≤ ADVINT_MAX) (ht : t.ts = d.vrrp.masterdownTimer.ts) :
    SetWithin (4 * ADVINT_MAX) now t (vrrpStateGotoBackup host now d).1.vrrp.masterdownTimer := by
  obtain ⟨v, hvdef⟩ : ∃ v : Vrrp, v = { d.vrrp with
    state := .backup, masterAdvInt := gotoBackupAdvInt host d, advTimer := vrrpTimerClear } := ⟨_, rfl⟩
  have hv' : v.version = .rfc5798 := by rw [hvdef]; exact hv
  have ht' : t.ts = v.masterdownTimer.ts := by rw [hvdef]; exact ht
  have hint := masterdownInt_le v hv'
  have hmv : v.masterAdvInt.toNat ≤ ADVINT_MAX := by rw [hvdef]; exact hm
  have hsv : v.startDelay.toNat ≤ ADVINT_MAX := by rw [hvdef]; exact hs
  simp only [vrrpStateGotoBackup, ← hvdef]
  split
  · exact setWithin_arm now hv' (by omega) t ht'
  · exact setWithin_arm now hv' (by omega) t ht'

/-- The deadline that a handler sets, when the interval it ends with is in range. -/
private theorem setWithin_handled {host : ByteOrder} {now : Option Timespec} {d₁ d₂ : Daemon}
    {event : VrrpEvent} {out : List Output} {t : VrrpTimer} (hh : Handled host now d₁ event d₂ out)
    (hv : d₁.vrrp.version = .rfc5798) (hs : d₁.vrrp.startDelay.toNat ≤ ADVINT_MAX)
    (hm : d₂.vrrp.masterAdvInt.toNat ≤ ADVINT_MAX) (ht : t.ts = d₁.vrrp.masterdownTimer.ts) :
    SetWithin (4 * ADVINT_MAX) now t d₂.vrrp.masterdownTimer := by
  cases hh with
  | ignore => exact .inl ht.symm
  | takeover => exact .inr (.inl rfl)
  | shorten =>
    have hle := skewTime_le d₁.vrrp hv
    have hm' : d₁.vrrp.masterAdvInt.toNat ≤ ADVINT_MAX := hm
    exact setWithin_arm now hv (by omega) t ht
  | follow =>
    have hv' : (d₁.learnt host).version = .rfc5798 := by simp [Daemon.learnt, hv]
    have ht' : t.ts = (d₁.learnt host).masterdownTimer.ts := by simp [Daemon.learnt, hv, ht]
    have hle := masterdownInt_le (d₁.learnt host) hv'
    have hm' : (d₁.learnt host).masterAdvInt.toNat ≤ ADVINT_MAX := hm
    exact setWithin_arm now hv' (by omega) t ht'
  | restart => exact .inr (.inl rfl)
  | tick => exact .inl ht.symm
  | answer => exact .inl ht.symm
  | yield => exact setWithin_gotoBackup host now hv hs hm ht
  | resign => exact .inl ht.symm

theorem Bounded.step {host : ByteOrder} {inp : Input} {d d' : Daemon} {out : List Output}
    (h : Bounded d) (hs : processStep host inp d = .ok (d', out)) (hres : LearnsUnreserved host inp d) :
    Bounded d' ∧
      SetWithin (4 * ADVINT_MAX) inp.clockSet d.vrrp.masterdownTimer d'.vrrp.masterdownTimer := by
  have hf := SameFixed.step hs
  have hbounded (hm : d'.vrrp.masterAdvInt.toNat ≤ ADVINT_MAX) : Bounded d' :=
    ⟨hf.version.trans h.version, by rw [hf.advInt]; exact h.advInt, by rw [hf.startDelay]; exact h.startDelay, hm⟩
  cases processStep_cases hs with
  | startMaster => exact ⟨hbounded h.advInt, .inr (.inl rfl)⟩
  | startBackup hst =>
    have hm : (gotoBackupAdvInt host d.primed).toNat ≤ ADVINT_MAX := by
      have hv : d.primed.vrrp.version = .rfc5798 := h.version
      have hi : d.primed.vrrp.state = .init := hst
      rw [gotoBackupAdvInt, hv, hi]
      exact h.advInt
    exact ⟨hbounded hm, setWithin_gotoBackup host inp.clockSet h.version h.startDelay hm rfl⟩
  | @serve hst event d₁ d₂ out hl hh =>
    have hheard := vrrpListen_cases hl
    have hf₁ := SameFixed.heard hheard
    have hm : d₂.vrrp.masterAdvInt.toNat ≤ ADVINT_MAX := by
      rcases h.learnt hl hh hres with hsame | ⟨-, heq⟩
      · rw [hsame]
        exact h.masterAdvInt
      · rw [heq]
        exact unreserved_le _
    have hset := setWithin_handled hh (hf₁.version.trans h.version)
      (by rw [hf₁.startDelay]; exact h.startDelay) hm hheard.deadlines.2.symm
    exact ⟨hbounded hm, hset⟩
  | stuck => exact ⟨h, .inl rfl⟩

/-- Every state of a run and every deadline set on the way. -/
theorem Bounded.run {host : ByteOrder} {s t : Daemon} {h : List (Entry Daemon Input Output)}
    (run : Run (processStep host) s h t) (hs : Bounded s)
    (hres : ∀ e ∈ h, LearnsUnreserved host e.input e.pre) : Bounded t :=
  Run.invariant Bounded (fun e => LearnsUnreserved host e.input e.pre) run hres hs
    (fun _ _ _ _ hb hstep hl => (hb.step hstep hl).1)

private theorem Booted.bounded {c : Config} {fresh : Fresh} {d : Daemon} (h : Booted c fresh d)
    (hv : c.version = .rfc5798) : Bounded d := by
  refine ⟨h.configured.version.trans hv, ?_, ?_, ?_⟩
  · rw [h.configured.advInt]
    exact c.advInt_le
  · rw [h.vrrp]
    exact c.startDelay_le
  · rw [h.vrrp]
    exact Nat.zero_le _

/-- In a run of a version 3 router that learns from no advertisement with reserved
bits set, `master_adv_int` stays in its range, each deadline is at most four times
that range ahead, and what a step learns is the interval without the reserved bits. -/
theorem learned_interval_in_range {host : ByteOrder} {c : Config} {fresh : Fresh}
    {h : List (Entry Daemon Input Output)} {d : Daemon} (run : History host c fresh h d)
    (hv : c.version = .rfc5798) (hres : ∀ e ∈ h, LearnsUnreserved host e.input e.pre) :
    d.vrrp.masterAdvInt.toNat ≤ ADVINT_MAX ∧
    ∀ e ∈ h,
      SetWithin (4 * ADVINT_MAX) e.input.clockSet e.pre.vrrp.masterdownTimer e.post.vrrp.masterdownTimer ∧
      ∀ d₁, e.pre.vrrp.state = .backup ∨ e.pre.vrrp.state = .master →
        vrrpListen host e.input e.pre = .ok (.pkt, d₁) →
        e.post.vrrp.masterAdvInt = e.pre.vrrp.masterAdvInt ∨
          e.post.vrrp.masterAdvInt.toNat = d₁.vnet.pkt.adv.unreserved := by
  obtain ⟨start, hboot, hrun⟩ := run
  have hstart := (boot_spec hboot).bounded hv
  refine ⟨(hstart.run hrun hres).masterAdvInt, ?_⟩
  intro e he
  obtain ⟨before, hbefore, hsub, hstep⟩ := hrun.mem he
  have hpre := hstart.run hbefore (fun a ha => hres a (hsub a ha))
  refine ⟨(hpre.step hstep (hres e he)).2, ?_⟩
  intro d₁ hst hl
  obtain ⟨d₂, hpost, hh⟩ := processStep_listened hstep hst hl
  rw [hpost]
  rcases hpre.learnt hl hh (hres e he) with hsame | ⟨-, heq⟩
  · exact .inl hsame
  · exact .inr heq

def Config.started (c : Config) : Daemon := (c.runOn [.quiet ⟨1, 0⟩]).2

def punctual : Datagram :=
  { stunted with octets := [0x45, 0, 0, 40, 0, 0, 0, 0, 255, 112, 0, 0, 192, 0, 2, 2, 224, 0, 0, 18,
      0x31, 7, 200, 1, 0, 0x64, 0xa1, 0xee, 192, 0, 2, 10, 0, 0, 0, 0, 0, 0, 0, 0] }

def tardy : Datagram :=
  { stunted with octets := [0x45, 0, 0, 40, 0, 0, 0, 0, 255, 112, 0, 0, 192, 0, 2, 2, 224, 0, 0, 18,
      0x31, 7, 200, 1, 0xff, 0x64, 0xa2, 0xed, 192, 0, 2, 10, 0, 0, 0, 0, 0, 0, 0, 0] }

private theorem hears_punctual : ∃ d₁, vrrpListen .little (.packet ⟨2, 0⟩ punctual) lab3.started = .ok (.pkt, d₁) ∧
    d₁.vnet.pkt.adv = ⟨0x31, 7, 200, 1, 0, 0x64, 0xa1, 0xee⟩ :=
  vrrpListen_packet (n := 40) (by decide +kernel) (by decide +kernel) (by decide +kernel) (by decide)
    (by decide +kernel)

private theorem hears_tardy : ∃ d₁, vrrpListen .little (.packet ⟨2, 0⟩ tardy) lab3.started = .ok (.pkt, d₁) ∧
    d₁.vnet.pkt.adv = ⟨0x31, 7, 200, 1, 0xff, 0x64, 0xa2, 0xed⟩ :=
  vrrpListen_packet (n := 40) (by decide +kernel) (by decide +kernel) (by decide +kernel) (by decide)
    (by decide +kernel)

private theorem packet_history {c : Config} {d : Daemon} {datagram : Datagram} {out : List Output}
    (hfit : c.AuthFits) (hs : c.started.vrrp.state = .backup)
    (hb : vrrpStateBackup .little (.packet ⟨2, 0⟩ datagram) c.started = .ok (d, out)) :
    History .little c (.filled 0) ((c.runOn [.quiet ⟨1, 0⟩]).1 ++
      [⟨c.started, .packet ⟨2, 0⟩ datagram, out, d.dumped⟩]) d.dumped := by
  obtain ⟨start, hboot, hrun⟩ := history_runOn hfit [.quiet ⟨1, 0⟩]
  refine ⟨start, hboot, .snoc hrun ?_⟩
  rw [processStep, vrrpProcess, vrrpDispatch, hs]
  simp only
  rw [hb]
  rfl

/-- What a version 3 router of priority 100 hears from a rival of priority 200. -/
private theorem heeds_rival {d₁ : Daemon} {inp : Input} {hdr : Vrrphdr}
    (hl : vrrpListen .little inp lab3.started = .ok (.pkt, d₁)) (hadv : d₁.vnet.pkt.adv = hdr)
    (hp : hdr.priority = 200) : Follows d₁ ∧ d₁.intervalInForce = hdr.interval .rfc5798 := by
  have hprio : d₁.vrrp.priority = 100 := ((vrrpListen_cases hl).priority (by decide)).trans (by decide +kernel)
  have hver : d₁.vrrp.version = .rfc5798 :=
    (SameFixed.heard (vrrpListen_cases hl)).version.trans (by decide +kernel)
  rw [Follows, Daemon.intervalInForce, vrrpAdvGetPriority, hadv, hp, hprio, hver]
  exact ⟨.inr (by decide), if_pos (by decide)⟩

theorem learned_interval_in_range_punctual : ∃ h d, History .little lab3 (.filled 0) h d ∧
    (∃ e ∈ h, e.input.sock = some punctual) ∧ d.vrrp.masterAdvInt.toNat ≤ ADVINT_MAX := by
  obtain ⟨d₁, hl, hadv⟩ := hears_punctual
  obtain ⟨hf, -⟩ := heeds_rival hl hadv rfl
  obtain ⟨d₂, out, hb, -⟩ := backup_deadline hl rfl (.inr hf)
  have run := packet_history (.inl rfl) (by decide +kernel) hb
  refine ⟨_, _, run, ⟨_, List.mem_append_right _ (List.mem_singleton_self _), rfl⟩, ?_⟩
  apply (learned_interval_in_range run rfl ?_).1
  intro e he
  rcases List.mem_append.mp he with hm | hm
  · have hquiet : ∀ e ∈ (lab3.runOn [.quiet ⟨1, 0⟩]).1, LearnsUnreserved .little e.input e.pre := by
      decide +kernel
    exact hquiet e hm
  · obtain rfl := List.mem_singleton.mp hm
    intro d₁' hl' _ _
    obtain ⟨-, rfl⟩ := Prod.mk.inj (Except.ok.inj (hl.symm.trans hl'))
    rw [hadv]
    decide

/-- A single advertisement with its reserved bits set takes `master_adv_int` to 65380
and the deadline to more than half an hour ahead. -/
theorem learned_interval_out_of_range : ∃ h d, History .little lab3 (.filled 0) h d ∧
    d.vrrp.masterAdvInt.toNat = 0xff64 ∧ ADVINT_MAX < 0xff64 ∧
    d.vrrp.masterdownTimer.ts.nanos = (⟨2, 0⟩ : Timespec).nanos + 235980 * CENTUL ∧
    4 * ADVINT_MAX < 235980 := by
  obtain ⟨d₁, hl, hadv⟩ := hears_tardy
  obtain ⟨hf, hforce⟩ := heeds_rival hl hadv rfl
  obtain ⟨d₂, out, hb, hnanos, hint⟩ := backup_deadline hl rfl (.inr hf)
  have hwait : d₁.patience = 3 := by
    rw [Daemon.patience, vrrpAdvGetPriority, hadv]
    rfl
  have hver : lab3.started.vrrp.version = .rfc5798 := by decide +kernel
  have hprio : lab3.started.vrrp.priority = 100 := by decide +kernel
  rw [hforce, hwait, hver, hprio] at hnanos
  exact ⟨_, _, packet_history (.inl rfl) (by decide +kernel) hb, hint.trans hforce, by decide, hnanos, by decide⟩

/-- Quotients are told apart by a multiple of the divisor. -/
private theorem div_lt_div_iff_exists (a b : Nat) : a / 256 < b / 256 ↔ ∃ k, a < 256 * k ∧ 256 * k ≤ b := by
  constructor
  · intro h
    exact ⟨b / 256, by omega, by omega⟩
  · rintro ⟨k, ha, hb⟩
    have hlt : a / 256 < k := Nat.div_lt_of_lt_mul ha
    have hle : k ≤ b / 256 := (Nat.le_div_iff_mul_le (by decide)).mpr (by omega)
    omega

private theorem skew_lt_iff (version : VrrpVersion) {p q : UInt8} (hp : 1 ≤ p.toNat)
    (hlt : p.toNat < q.toNat) (m : Nat) :
    skew version q m < skew version p m ↔
      version = .rfc5798 ∧ ∃ k, (256 - q.toNat) * m < 256 * k ∧ 256 * k ≤ (256 - p.toNat) * m := by
  cases version with
  | rfc3768 =>
    simp only [skew]
    rw [Nat.div_eq_of_lt (by omega), Nat.div_eq_of_lt (by omega)]
    simp
  | rfc5798 =>
    simp only [skew, true_and]
    exact div_lt_div_iff_exists _ _

private theorem unit_pos (version : VrrpVersion) : 0 < version.unit := by
  cases version <;> decide

/-- Of two backups that heed one advertisement at one instant, the one of the higher
priority gets the earlier deadline only in version 3, and there exactly when a
multiple of 256 lies between the products of which the skew is taken. -/
theorem higher_priority_first_iff {host host' : ByteOrder} {inp inp' : Input} {d d' d₁ d₁' : Daemon}
    {now : Timespec} (hl : vrrpListen host inp d = .ok (.pkt, d₁))
    (hl' : vrrpListen host' inp' d' = .ok (.pkt, d₁')) (hnow : inp.clockSet = some now)
    (hnow' : inp'.clockSet = some now) (hver : d'.vrrp.version = d.vrrp.version)
    (hint : d'.vrrp.masterAdvInt = d.vrrp.masterAdvInt) (hadv : d₁'.vnet.pkt.adv = d₁.vnet.pkt.adv)
    (hp : 1 ≤ d.vrrp.priority.toNat) (hlt : d.vrrp.priority.toNat < d'.vrrp.priority.toNat)
    (hre : vrrpAdvGetPriority d₁.vnet = 0 ∨ Follows d₁ ∧ Follows d₁') :
    ∃ d₂ out d₂' out', vrrpStateBackup host inp d = .ok (d₂, out) ∧
      vrrpStateBackup host' inp' d' = .ok (d₂', out') ∧
      (d₂'.vrrp.masterdownTimer.ts.nanos < d₂.vrrp.masterdownTimer.ts.nanos ↔
        d.vrrp.version = .rfc5798 ∧ ∃ k,
          (256 - d'.vrrp.priority.toNat) * d₁.intervalInForce < 256 * k ∧
          256 * k ≤ (256 - d.vrrp.priority.toNat) * d₁.intervalInForce) := by
  have hprio : vrrpAdvGetPriority d₁'.vnet = vrrpAdvGetPriority d₁.vnet := congrArg Vrrphdr.priority hadv
  obtain ⟨d₂, out, hs, hd, -⟩ := backup_deadline hl hnow (hre.imp_right And.left)
  obtain ⟨d₂', out', hs', hd', -⟩ := backup_deadline hl' hnow' (by
    rw [hprio]
    exact hre.imp_right And.right)
  have hwait : d₁'.patience = d₁.patience := by rw [Daemon.patience, Daemon.patience, hprio]
  have hforce : d₁'.intervalInForce = d₁.intervalInForce := by
    have hv₁ := (SameFixed.heard (vrrpListen_cases hl)).version
    have hv₁' := (SameFixed.heard (vrrpListen_cases hl')).version
    have hm₁ := (vrrpListen_cases hl).masterAdvInt
    have hm₁' := (vrrpListen_cases hl').masterAdvInt
    rw [Daemon.intervalInForce, Daemon.intervalInForce, hprio, hadv, hv₁, hv₁', hver, hm₁, hm₁', hint]
  refine ⟨d₂, out, d₂', out', hs, hs', ?_⟩
  rw [hd, hd', hwait, hforce, hver, ← skew_lt_iff _ hp hlt, Int.add_lt_add_iff_left,
    Int.mul_lt_mul_right (unit_pos _), Int.ofNat_lt, Nat.add_lt_add_iff_left]

def Config.ranked (c : Config) (priority : UInt8) : Config := { c with priority := priority }

theorem higher_priority_first_punctual :
    ∃ d₂ out d₂' out',
      vrrpStateBackup .little (.packet ⟨2, 0⟩ punctual) lab3.started = .ok (d₂, out) ∧
      vrrpStateBackup .little (.packet ⟨2, 0⟩ punctual) (lab3.ranked 200).started = .ok (d₂', out') ∧
      d₂'.vrrp.masterdownTimer.ts.nanos < d₂.vrrp.masterdownTimer.ts.nanos := by
  obtain ⟨d₁, hl, hadv⟩ := hears_punctual
  obtain ⟨d₁', hl', hadv'⟩ : ∃ d₁, vrrpListen .little (.packet ⟨2, 0⟩ punctual) (lab3.ranked 200).started =
      .ok (.pkt, d₁) ∧ d₁.vnet.pkt.adv = ⟨0x31, 7, 200, 1, 0, 0x64, 0xa1, 0xee⟩ :=
    vrrpListen_packet (n := 40) (by decide +kernel) (by decide +kernel) (by decide +kernel) (by decide)
      (by decide +kernel)
  obtain ⟨hf, hforce⟩ := heeds_rival hl hadv rfl
  have hf' : Follows d₁' := by
    have hprio : d₁'.vrrp.priority = 200 :=
      ((vrrpListen_cases hl').priority (by decide)).trans (by decide +kernel)
    rw [Follows, vrrpAdvGetPriority, hadv', hprio]
    exact .inr (by decide)
  obtain ⟨d₂, out, d₂', out', hs, hs', hiff⟩ := higher_priority_first_iff hl hl'
    (show (Input.packet ⟨2, 0⟩ punctual).clockSet = some ⟨2, 0⟩ from rfl) rfl
    (by decide +kernel) (by decide +kernel) (hadv'.trans hadv.symm) (by decide +kernel) (by decide +kernel)
    (.inr ⟨hf, hf'⟩)
  refine ⟨d₂, out, d₂', out', hs, hs', hiff.mpr ⟨by decide +kernel, 22, ?_⟩⟩
  rw [hforce]
  decide +kernel

def resigned : Datagram :=
  { stunted with octets := [0x45, 0, 0, 40, 0, 0, 0, 0, 255, 112, 0, 0, 192, 0, 2, 2, 224, 0, 0, 18,
      0x21, 7, 0, 1, 0, 1, 0x1c, 0xec, 192, 0, 2, 10, 0, 0, 0, 0, 0, 0, 0, 0] }

/-- A version 2 backup of the lab takes over as soon as its master resigns. -/
private theorem resigned_deadline (priority : UInt8) (hp : skew .rfc3768 priority 1 = 0)
    (hl : ∃ d₁, vrrpListen .little (.packet ⟨2, 0⟩ resigned) (lab.ranked priority).started = .ok (.pkt, d₁) ∧
      d₁.vnet.pkt.adv = ⟨0x21, 7, 0, 1, 0, 1, 0x1c, 0xec⟩)
    (hv : (lab.ranked priority).started.vrrp.version = .rfc3768)
    (hprio : (lab.ranked priority).started.vrrp.priority = priority) :
    ∃ d out, (∃ d₁, vrrpListen .little (.packet ⟨2, 0⟩ resigned) (lab.ranked priority).started = .ok (.pkt, d₁)) ∧
      vrrpStateBackup .little (.packet ⟨2, 0⟩ resigned) (lab.ranked priority).started = .ok (d, out) ∧
      d.vrrp.masterdownTimer.ts.nanos = (⟨2, 0⟩ : Timespec).nanos := by
  obtain ⟨d₁, hl, hadv⟩ := hl
  have hz : vrrpAdvGetPriority d₁.vnet = 0 := by rw [vrrpAdvGetPriority, hadv]
  have hwait : d₁.patience = 0 := if_pos hz
  obtain ⟨d₂, out, hb, hnanos, -⟩ := backup_deadline hl rfl (.inl hz)
  have hskew : skew .rfc3768 priority d₁.intervalInForce = 0 := hp
  rw [hwait, hv, hprio, hskew, Nat.zero_mul] at hnanos
  exact ⟨d₂, out, ⟨d₁, hl⟩, hb, hnanos.trans (by decide)⟩

/-- In version 2, backups of priorities 100 and 200 take over from a master that has
resigned at the same instant. -/
theorem higher_priority_not_first :
    ∃ d out d' out',
      (∃ d₁, vrrpListen .little (.packet ⟨2, 0⟩ resigned) (lab.ranked 100).started = .ok (.pkt, d₁)) ∧
      (∃ d₁, vrrpListen .little (.packet ⟨2, 0⟩ resigned) (lab.ranked 200).started = .ok (.pkt, d₁)) ∧
      vrrpStateBackup .little (.packet ⟨2, 0⟩ resigned) (lab.ranked 100).started = .ok (d, out) ∧
      vrrpStateBackup .little (.packet ⟨2, 0⟩ resigned) (lab.ranked 200).started = .ok (d', out') ∧
      d'.vrrp.masterdownTimer.ts.nanos = d.vrrp.masterdownTimer.ts.nanos := by
  obtain ⟨d, out, hl, hb, hn⟩ := resigned_deadline 100 (by decide)
    (vrrpListen_packet (n := 40) (by decide +kernel) (by decide +kernel) (by decide +kernel) (by decide)
      (by decide +kernel)) (by decide +kernel) (by decide +kernel)
  obtain ⟨d', out', hl', hb', hn'⟩ := resigned_deadline 200 (by decide)
    (vrrpListen_packet (n := 40) (by decide +kernel) (by decide +kernel) (by decide +kernel) (by decide)
      (by decide +kernel)) (by decide +kernel) (by decide +kernel)
  exact ⟨d, out, d', out', hl, hl', hb, hb', hn'.trans hn.symm⟩

end Uvrrpd
