import Uvrrpd.Waiting

/-! Arming a timer where `long` has a fixed width. The centiseconds of version 3 are
multiplied into the nanoseconds, which on 32 bits leaves room for little more than two
seconds. -/
namespace Uvrrpd

/-- A signed integer of `w` bits, absent when the value overflows. -/
def long (w : Nat) (value : Int) : Option Int :=
  if -2 ^ (w - 1) ≤ value ∧ value < 2 ^ (w - 1) then some value else none

/-- The timestamp of `vrrp_timer_set`, absent when the product or the sum overflows. -/
def vrrpTimerSetLong (w : Nat) (now : Timespec) (delay delayCs : Int) : Option Timespec := do
  let product ← long w (delayCs * CENTUL)
  let nsec ← long w (now.nsec + product)
  return ⟨now.sec + delay, nsec⟩

/-- Where nothing overflows, the timestamp is the one of `vrrp_timer_set`. -/
private theorem vrrpTimerSetLong_eq {w : Nat} {now ts : Timespec} {delay delayCs : Int}
    (h : vrrpTimerSetLong w now delay delayCs = some ts) (timer : VrrpTimer) :
    (vrrpTimerSet (some now) delay delayCs timer).ts = ts := by
  obtain ⟨product, hp, h⟩ := Option.bind_eq_some_iff.mp h
  obtain ⟨nsec, hn, h⟩ := Option.bind_eq_some_iff.mp h
  simp only [long, Option.ite_none_right_eq_some, Option.some.injEq] at hp hn
  obtain ⟨-, rfl⟩ := hp
  obtain ⟨-, rfl⟩ := hn
  exact Option.some.inj h

/-- Nothing overflows exactly when the sum is in range, as neither summand is negative. -/
private theorem vrrpTimerSetLong_isSome_iff (w : Nat) {now : Timespec} (delay : Int) {delayCs : Int}
    (hn : 0 ≤ now.nsec) (hc : 0 ≤ delayCs) :
    (∃ ts, vrrpTimerSetLong w now delay delayCs = some ts) ↔ now.nsec + delayCs * CENTUL < 2 ^ (w - 1) := by
  have hpos : (0 : Int) < 2 ^ (w - 1) := Int.pow_pos (by decide)
  have hprod : 0 ≤ delayCs * CENTUL := Int.mul_nonneg hc (by decide)
  constructor
  · rintro ⟨ts, h⟩
    obtain ⟨product, hp, h⟩ := Option.bind_eq_some_iff.mp h
    obtain ⟨nsec, hs, -⟩ := Option.bind_eq_some_iff.mp h
    simp only [long, Option.ite_none_right_eq_some, Option.some.injEq] at hp hs
    obtain ⟨-, rfl⟩ := hp
    exact hs.1.2
  · intro hlt
    have hp : long w (delayCs * CENTUL) = some (delayCs * CENTUL) := if_pos (by omega)
    have hs : long w (now.nsec + delayCs * CENTUL) = some (now.nsec + delayCs * CENTUL) := if_pos (by omega)
    exact ⟨_, by rw [vrrpTimerSetLong, hp, Option.bind_eq_bind, Option.bind_some, hs]; rfl⟩

inductive TimerMacro where
  | adv
  | masterdown
  | skew
  | startdelay
  deriving DecidableEq, Repr

def TimerMacro.delays : TimerMacro → Vrrp → Int × Int
  | .adv => advDelays
  | .masterdown => masterdownDelays
  | .skew => skewDelays
  | .startdelay => startdelayDelays

def TimerMacro.interval (v : Vrrp) : TimerMacro → Nat
  | .adv => match v.version with
    | .rfc3768 => v.advInt.toNat
    | .rfc5798 => v.masterAdvInt.toNat
  | .masterdown => 3 * v.masterAdvInt.toNat + Uvrrpd.skew v.version v.priority v.masterAdvInt.toNat
  | .skew => Uvrrpd.skew v.version v.priority v.masterAdvInt.toNat
  | .startdelay => v.startDelay.toNat

/-- The macros compute in `int`, which holds their products and sums. -/
theorem macros_fit_int (v : Vrrp) :
    (256 - v.priority.toNat) * v.masterAdvInt.toNat < 2 ^ 31 ∧ MASTERDOWN_INT v < 2 ^ 31 := by
  have hm := v.masterAdvInt.toNat_lt
  have hprod : (256 - v.priority.toNat) * v.masterAdvInt.toNat ≤ 256 * 65535 :=
    Nat.mul_le_mul (by omega) (by omega)
  refine ⟨by omega, ?_⟩
  rw [MASTERDOWN_INT, SKEW_TIME]
  split <;> omega

/-- Seconds in version 2 and centiseconds in version 3. -/
private theorem TimerMacro.delays_eq (m : TimerMacro) (v : Vrrp) :
    m.delays v = match v.version with
      | .rfc3768 => ((m.interval v : Int), 0)
      | .rfc5798 => (0, (m.interval v : Int)) := by
  cases hv : v.version <;> cases m <;>
    simp [TimerMacro.delays, TimerMacro.interval, advDelays, masterdownDelays, skewDelays, startdelayDelays,
      Uvrrpd.delays, MASTERDOWN_INT, skewTime_eq, hv]

/-- No interval is longer than four times the largest that can be configured. -/
private theorem interval_le {v : Vrrp} (hs : v.startDelay.toNat ≤ ADVINT_MAX)
    (hm : v.masterAdvInt.toNat ≤ ADVINT_MAX) (hv : v.version = .rfc5798) (m : TimerMacro) :
    m.interval v ≤ 4 * ADVINT_MAX := by
  have hskew : Uvrrpd.skew v.version v.priority v.masterAdvInt.toNat ≤ v.masterAdvInt.toNat := by
    rw [← skewTime_eq]
    exact skewTime_le v hv
  cases m with
  | adv => simp only [TimerMacro.interval, hv]; omega
  | masterdown => simp only [TimerMacro.interval]; omega
  | skew => simp only [TimerMacro.interval]; omega
  | startdelay => simp only [TimerMacro.interval]; omega

/-- Each macro stores the clock reading plus its interval, without overflow, exactly
in version 2, with a `long` of 64 bits, or as long as the reading's nanoseconds and the
interval stay below 2³¹ nanoseconds. -/
theorem arming_exact_iff {w : Nat} {v : Vrrp} {now : Timespec} (hw : w = 32 ∨ w = 64) (hn : now.Normal)
    (hs : v.startDelay.toNat ≤ ADVINT_MAX)
    (hm : v.masterAdvInt.toNat ≤ ADVINT_MAX) (m : TimerMacro) :
    (∃ ts, vrrpTimerSetLong w now (m.delays v).1 (m.delays v).2 = some ts ∧
      ts.nanos = now.nanos + m.interval v * v.version.unit) ↔
    v.version = .rfc3768 ∨ w = 64 ∨ now.nsec + m.interval v * CENTUL < 2 ^ 31 := by
  obtain ⟨-, hn₀, hn₁⟩ := hn
  have hdue : ∀ {ts}, vrrpTimerSetLong w now (m.delays v).1 (m.delays v).2 = some ts →
      ts.nanos = now.nanos + m.interval v * v.version.unit := by
    intro ts h
    rw [← vrrpTimerSetLong_eq h vrrpTimerClear, vrrpTimerSet_nanos, Timespec.after, m.delays_eq]
    cases v.version <;> simp [VrrpVersion.unit]
  have hpos : 0 ≤ (m.delays v).2 := by
    rw [m.delays_eq]
    cases v.version <;> simp
  have hfits := vrrpTimerSetLong_isSome_iff w (m.delays v).1 hn₀ hpos
  have hexact : (∃ ts, vrrpTimerSetLong w now (m.delays v).1 (m.delays v).2 = some ts ∧
      ts.nanos = now.nanos + m.interval v * v.version.unit) ↔
      now.nsec + (m.delays v).2 * CENTUL < 2 ^ (w - 1) := by
    rw [← hfits]
    exact exists_congr (fun ts => ⟨And.left, fun h => ⟨h, hdue h⟩⟩)
  rw [hexact, m.delays_eq]
  simp only [NANOUL, CENTUL] at *
  cases hv : v.version with
  | rfc3768 => rcases hw with rfl | rfl <;> simp <;> omega
  | rfc5798 =>
    have hle := interval_le hs hm hv m
    rw [ADVINT_MAX] at hle
    rcases hw with rfl | rfl
    · simp
    · simp
      omega

theorem arming_exact_lab : ∃ ts,
    vrrpTimerSetLong 32 ⟨1, 0⟩ (TimerMacro.adv.delays lab3.started.vrrp).1
      (TimerMacro.adv.delays lab3.started.vrrp).2 = some ts ∧
    ts.nanos = (⟨1, 0⟩ : Timespec).nanos + (TimerMacro.adv.interval lab3.started.vrrp : Int) *
      lab3.started.vrrp.version.unit :=
  (arming_exact_iff (.inl rfl) (by decide) (by decide +kernel) (by decide +kernel) .adv).mpr
    (.inr (.inr (by decide +kernel)))

/-- With one advertisement each second, the masterdown timer of a backup overflows a
`long` of 32 bits. -/
theorem arming_overflows : lab3.started.vrrp.startDelay.toNat ≤ ADVINT_MAX ∧
    lab3.started.vrrp.advInt.toNat ≤ ADVINT_MAX ∧ lab3.started.vrrp.masterAdvInt.toNat ≤ ADVINT_MAX ∧
    vrrpTimerSetLong 32 ⟨1, 0⟩ (TimerMacro.masterdown.delays lab3.started.vrrp).1
      (TimerMacro.masterdown.delays lab3.started.vrrp).2 = none := by
  decide +kernel

end Uvrrpd
