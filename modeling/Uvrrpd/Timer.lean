import Mathlib.Data.Int.Basic

/-! `vrrp_timer.c`: one-shot timers kept as an absolute deadline. A timer runs
exactly when its deadline is not the pair (0, 0). The reading of
`clock_gettime` is an argument, absent when the call fails. -/
namespace Uvrrpd

@[ext] structure Timespec where
  sec : Int
  nsec : Int
  deriving DecidableEq, Repr

structure VrrpTimer where
  ts : Timespec
  delta : Timespec
  deriving DecidableEq, Repr

def NANOUL : Int := 1000000000
def CENTUL : Int := 10000000

/-- The two carries of `timespec_substract`, which update `y` in place. -/
def timespecCarry (x y : Timespec) : Timespec :=
  let y :=
    if x.nsec < y.nsec then
      let nsec := (y.nsec - x.nsec).tdiv NANOUL + 1
      { sec := y.sec + nsec, nsec := y.nsec - NANOUL * nsec : Timespec }
    else y
  if x.nsec - y.nsec > NANOUL then
    let nsec := (x.nsec - y.nsec).tdiv NANOUL
    { sec := y.sec - nsec, nsec := y.nsec + NANOUL * nsec }
  else y

/-- Result, adjusted subtrahend (the caller goes on to use it), and whether the
difference is negative. -/
def timespecSubstract (x y : Timespec) : Timespec × Timespec × Bool :=
  let y := timespecCarry x y
  (⟨x.sec - y.sec, x.nsec - y.nsec⟩, y, x.sec < y.sec)

/-- Centiseconds are added to the nanoseconds without normalising them. -/
def vrrpTimerSet (now : Option Timespec) (delay delayCs : Int) (timer : VrrpTimer) : VrrpTimer :=
  match now with
  | none => timer
  | some t => ⟨⟨t.sec + delay, t.nsec + delayCs * CENTUL⟩, ⟨0, 0⟩⟩

def vrrpTimerClear : VrrpTimer := ⟨⟨0, 0⟩, ⟨0, 0⟩⟩

def vrrpTimerIsRunning (timer : VrrpTimer) : Bool := timer.ts.sec ≠ 0 || timer.ts.nsec ≠ 0

/-- `true` for the two non-zero returns: the clock failed, or the timer expired. -/
def vrrpTimerUpdate (now : Option Timespec) (timer : VrrpTimer) : Bool × VrrpTimer :=
  match now with
  | none => (true, timer)
  | some t =>
    match timespecSubstract timer.ts t with
    | (delta, _, true) => (true, { timer with delta })
    | (delta, t, false) => (false, ⟨⟨t.sec + delta.sec, t.nsec + delta.nsec⟩, delta⟩)

def vrrpTimerIsExpired (now : Option Timespec) (timer : VrrpTimer) : Bool × VrrpTimer :=
  let (expired, timer) := vrrpTimerUpdate now timer
  (expired || (timer.ts.sec ≤ 0 && timer.ts.nsec ≤ 0), timer)

/-- Each wait rewrites the deadline, to the same pair: whatever the carries made
of the clock reading, it is subtracted and added again. -/
@[simp] theorem vrrpTimerUpdate_ts (now : Option Timespec) (timer : VrrpTimer) :
    (vrrpTimerUpdate now timer).2.ts = timer.ts := by
  cases now with
  | none => rfl
  | some t =>
    simp only [vrrpTimerUpdate, timespecSubstract]
    generalize timespecCarry timer.ts t = y
    cases decide (timer.ts.sec < y.sec) with
    | true => rfl
    | false => ext <;> simp only <;> omega

@[simp] theorem vrrpTimerIsExpired_ts (now : Option Timespec) (timer : VrrpTimer) :
    (vrrpTimerIsExpired now timer).2.ts = timer.ts := vrrpTimerUpdate_ts now timer

end Uvrrpd
