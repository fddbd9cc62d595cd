import Uvrrpd.Exits
import Uvrrpd.Steps
import Uvrrpd.AdvFormat

/-! Which timer runs in which state. A timer that is armed from a positive clock
reading runs, so the states and the running timers determine each other. -/
namespace Uvrrpd
open Library.Memory Library.Runs

def Timespec.Positive (t : Timespec) : Prop :=
  0 ≤ t.sec ∧ 0 ≤ t.nsec ∧ (0 < t.sec ∨ 0 < t.nsec)

def Input.ClockRuns (inp : Input) : Prop := ∃ t ∈ inp.clockSet, t.Positive

instance (t : Timespec) : Decidable t.Positive := inferInstanceAs (Decidable (_ ∧ _ ∧ (_ ∨ _)))

instance (inp : Input) : Decidable inp.ClockRuns :=
  inferInstanceAs (Decidable (∃ t ∈ inp.clockSet, t.Positive))

def VrrpState.timer : VrrpState → Option TimerId
  | .backup => some .masterdown
  | .master => some .adv
  | _ => none

/-- Exactly the timer of the state runs, and the state is one of the three. -/
def TimersMatch (v : Vrrp) : Prop :=
  match v.state with
  | .init => vrrpTimerIsRunning v.advTimer = false ∧ vrrpTimerIsRunning v.masterdownTimer = false
  | .backup => vrrpTimerIsRunning v.advTimer = false ∧ vrrpTimerIsRunning v.masterdownTimer = true
  | .master => vrrpTimerIsRunning v.advTimer = true ∧ vrrpTimerIsRunning v.masterdownTimer = false
  | .other _ => False

theorem delays_nonneg (v : Vrrp) (s c : Nat) : 0 ≤ (delays v s c).1 ∧ 0 ≤ (delays v s c).2 := by
  rw [delays]
  split <;> simp

private theorem running_set {t : Timespec} (ht : t.Positive) {p : Int × Int} (hp : 0 ≤ p.1 ∧ 0 ≤ p.2)
    (timer : VrrpTimer) : vrrpTimerIsRunning (vrrpTimerSet (some t) p.1 p.2 timer) = true := by
  obtain ⟨hs, hn, hpos⟩ := ht
  have hc : 0 ≤ p.2 * CENTUL := Int.mul_nonneg hp.2 (by decide)
  have hne : t.sec + p.1 ≠ 0 ∨ t.nsec + p.2 * CENTUL ≠ 0 := by omega
  rw [vrrpTimerIsRunning, Bool.or_eq_true]
  exact hne.imp (fun h => decide_eq_true h) (fun h => decide_eq_true h)

@[simp] theorem running_clear : vrrpTimerIsRunning vrrpTimerClear = false := rfl

theorem running_congr {t u : VrrpTimer} (h : t.ts = u.ts) :
    vrrpTimerIsRunning t = vrrpTimerIsRunning u := by
  simp only [vrrpTimerIsRunning, h]

/-- Listening leaves both deadlines as they are. -/
theorem Heard.deadlines {host : ByteOrder} {inp : Input} {d d' : Daemon} {event : VrrpEvent}
    (h : Heard host inp d event d') :
    d'.vrrp.advTimer.ts = d.vrrp.advTimer.ts ∧
      d'.vrrp.masterdownTimer.ts = d.vrrp.masterdownTimer.ts := by
  cases h with
  | timer => exact ⟨rfl, rfl⟩
  | signal => exact ⟨rfl, rfl⟩
  | idle => exact ⟨rfl, rfl⟩
  | datagram => exact ⟨rfl, rfl⟩
  | command a m hp hc => cases vrrpCtrlRead_cases hc <;> exact ⟨rfl, rfl⟩

theorem TimersMatch.heard {host : ByteOrder} {inp : Input} {d d' : Daemon} {event : VrrpEvent}
    (ht : TimersMatch d.vrrp) (h : Heard host inp d event d') : TimersMatch d'.vrrp := by
  obtain ⟨ha, hm⟩ := h.deadlines
  rw [TimersMatch] at *
  rw [h.state, running_congr ha, running_congr hm]
  exact ht

private theorem gotoMaster_timers {inp : Input} (hc : inp.ClockRuns) (d : Daemon) :
    TimersMatch (vrrpStateGotoMaster inp.clockSet d).1.vrrp := by
  obtain ⟨t, ht, hpos⟩ := hc
  rw [ht]
  exact ⟨running_set hpos (delays_nonneg _ _ _) d.vrrp.advTimer, rfl⟩

private theorem gotoBackup_timers (host : ByteOrder) {inp : Input} (hc : inp.ClockRuns) (d : Daemon) :
    TimersMatch (vrrpStateGotoBackup host inp.clockSet d).1.vrrp := by
  obtain ⟨t, ht, hpos⟩ := hc
  rw [ht]
  refine ⟨rfl, running_set hpos ?_ d.vrrp.masterdownTimer⟩
  split <;> exact delays_nonneg _ _ _

private theorem arm_masterdown_timers {inp : Input} (hc : inp.ClockRuns) {v v' : Vrrp}
    {p : Int × Int} (hp : 0 ≤ p.1 ∧ 0 ≤ p.2) (hs : v.state = .backup) (ht : TimersMatch v)
    (hv' : v'.state = v.state) (ha : v'.advTimer = v.advTimer) :
    TimersMatch (arm inp.clockSet .masterdown p v') := by
  obtain ⟨t, hclock, hpos⟩ := hc
  have hb : (arm inp.clockSet .masterdown p v').state = .backup := hv'.trans hs
  rw [TimersMatch] at *
  rw [hs] at ht
  rw [hb, hclock]
  exact ⟨by rw [← ht.1, ← ha]; rfl, running_set hpos hp v'.masterdownTimer⟩

private theorem advertise_timers {inp : Input} (hc : inp.ClockRuns) {d : Daemon}
    (hs : d.vrrp.state = .master) (ht : TimersMatch d.vrrp) :
    TimersMatch (advertise inp.clockSet d).1.vrrp := by
  obtain ⟨t, hclock, hpos⟩ := hc
  have hm : (advertise inp.clockSet d).1.vrrp.state = .master := hs
  rw [TimersMatch] at *
  rw [hs] at ht
  rw [hm, hclock]
  exact ⟨running_set hpos (delays_nonneg _ _ _) d.vrrp.advTimer, ht.2⟩

theorem TimersMatch.handled {host : ByteOrder} {inp : Input} {d d' : Daemon} {event : VrrpEvent}
    {out : List Output} (hc : inp.ClockRuns) (ht : TimersMatch d.vrrp)
    (h : Handled host inp.clockSet d event d' out) : TimersMatch d'.vrrp := by
  cases h with
  | ignore => exact ht
  | takeover => exact gotoMaster_timers hc d
  | shorten hs => exact arm_masterdown_timers hc (delays_nonneg _ _ _) hs ht rfl rfl
  | follow hs =>
    exact arm_masterdown_timers hc (delays_nonneg _ _ _) hs ht (d.learnt_state host)
      (d.learnt_advTimer host)
  | restart hs =>
    rw [TimersMatch] at ht
    rw [hs] at ht
    exact ⟨ht.1, rfl⟩
  | tick hs => exact advertise_timers hc hs ht
  | answer hs => exact advertise_timers hc hs ht
  | yield => exact gotoBackup_timers host hc d
  | resign hs =>
    rw [TimersMatch] at ht
    rw [hs] at ht
    exact ⟨rfl, ht.2⟩

theorem TimersMatch.step {host : ByteOrder} {inp : Input} {d d' : Daemon} {out : List Output}
    (hc : inp.ClockRuns) (ht : TimersMatch d.vrrp) (h : processStep host inp d = .ok (d', out)) :
    TimersMatch d'.vrrp := by
  cases processStep_cases h with
  | startMaster => exact gotoMaster_timers hc _
  | startBackup => exact gotoBackup_timers host hc _
  | serve hs hl hh =>
    have hk := (ht.heard (vrrpListen_cases hl)).handled hc hh
    exact hk
  | stuck => exact ht

theorem TimersMatch.history {host : ByteOrder} {c : Config} {fresh : Fresh}
    {h : List (Entry Daemon Input Output)} {d : Daemon} (run : History host c fresh h d)
    (clock : ∀ e ∈ h, e.input.ClockRuns) : TimersMatch d.vrrp := by
  obtain ⟨start, hboot, hrun⟩ := run
  refine Run.invariant (fun d : Daemon => TimersMatch d.vrrp) (fun e => e.input.ClockRuns) hrun clock ?_ ?_
  · rw [(boot_spec hboot).vrrp]
    exact ⟨rfl, rfl⟩
  · intro i t u out ht hs hc
    exact ht.step hc hs

/-- The wait is on the timer of the state. -/
theorem TimersMatch.runningTimer {v : Vrrp} (h : TimersMatch v) :
    runningTimer v = v.state.timer := by
  rw [TimersMatch] at h
  rw [Uvrrpd.runningTimer]
  cases hs : v.state with
  | init => simp_all [VrrpState.timer]
  | backup => simp_all [VrrpState.timer]
  | master => simp_all [VrrpState.timer]
  | other value => simp_all

/-- The return value `-ENOSYS` belongs to states that are none of the three. -/
theorem TimersMatch.no_enosys {host : ByteOrder} {inp : Input} {d : Daemon}
    (h : TimersMatch d.vrrp) {ret : Int} {d' : Daemon} {out : List Output}
    (hp : vrrpProcess host inp d = .ok (ret, d', out)) : ret = 0 := by
  rw [vrrpProcess] at hp
  split at hp
  · next hn =>
    rw [vrrpDispatch] at hn
    split at hn <;> simp_all [TimersMatch]
  · obtain ⟨r, -, hp⟩ := bind_eq_ok.mp hp
    exact (Prod.mk.inj (Except.ok.inj hp)).1.symm

/-- In every state a daemon reaches while its clock runs, exactly the timer of the
state runs. The next call waits on it, so it neither takes the exit for want of a
timer nor the default branch. -/
theorem timers_match_state {host : ByteOrder} {c : Config} {fresh : Fresh}
    {h : List (Entry Daemon Input Output)} {d : Daemon} (run : History host c fresh h d)
    (clock : ∀ e ∈ h, e.input.ClockRuns) :
    TimersMatch d.vrrp ∧ runningTimer d.vrrp = d.vrrp.state.timer ∧
    ∀ inp, vrrpProcess host inp d ≠ .error .exitFailure ∧
      ∀ ret d' out, vrrpProcess host inp d = .ok (ret, d', out) → ret ≠ -ENOSYS := by
  have ht := TimersMatch.history run clock
  refine ⟨ht, ht.runningTimer, fun inp => ⟨noExit_vrrpProcess host inp ?_, ?_⟩⟩
  · rw [ht.runningTimer]
    rw [TimersMatch] at ht
    cases hs : d.vrrp.state with
    | init => exact .inl rfl
    | backup => exact .inr (by decide)
    | master => exact .inr (by decide)
    | other value => simp [hs] at ht
  · intro ret d' out hp
    rw [ht.no_enosys hp]
    decide

/-- A router alone on its network, after its masterdown timer has expired. -/
theorem timers_match_state_lab :
    (lab.runOn [.quiet ⟨1, 0⟩, .quiet ⟨9, 0⟩]).2.vrrp.state = .master ∧
    TimersMatch (lab.runOn [.quiet ⟨1, 0⟩, .quiet ⟨9, 0⟩]).2.vrrp := by
  have hclock : ∀ e ∈ (lab.runOn [.quiet ⟨1, 0⟩, .quiet ⟨9, 0⟩]).1, e.input.ClockRuns := by
    decide +kernel
  exact ⟨by decide +kernel, (timers_match_state (history_runOn (.inl rfl) _) hclock).1⟩

end Uvrrpd
