import Mathlib.Algebra.Order.Floor.Semifield
import Mathlib.Data.Rat.Floor
import Uvrrpd.Vrrp

/-! The state machine of a virtual router as the two RFCs describe it, with time as
a number and timers as points in time. Timers count whole units, so that the skew time
is rounded down, and a delay may follow the start, which the RFCs do not know. The
timer that runs is part of the phase, so no phase has the timer of another. -/
namespace Uvrrpd.Protocol

/-- What the administrator sets. Intervals count in units of the version. -/
structure Parameters (α : Type) where
  version : VrrpVersion
  advertisementInterval : Nat
  startDelay : Nat
  preempt : Bool
  addresses : List α

def unitsPerSecond : VrrpVersion → Nat
  | .rfc3768 => 1
  | .rfc5798 => 100

/-- The skew time in seconds. In version 3 it is a part of the interval of the master. -/
def skewSeconds (version : VrrpVersion) (priority : UInt8) (masterAdverInterval : Nat) : ℚ :=
  match version with
  | .rfc3768 => (256 - priority.toNat) / 256
  | .rfc5798 => (256 - priority.toNat) * (masterAdverInterval / 100) / 256

inductive Phase where
  | initial
  | backup (masterAdverInterval : Nat) (masterDownTimer : Int)
  | master (adverTimer : Int)
  deriving DecidableEq, Repr

def Phase.timer : Phase → Option Int
  | .initial => none
  | .backup _ masterDownTimer => some masterDownTimer
  | .master adverTimer => some adverTimer

structure Router where
  priority : UInt8
  phase : Phase
  deriving DecidableEq, Repr

/-- A shutdown may go with another priority for the next start. -/
inductive Event where
  | startup
  | shutdown (priority : UInt8)
  | timer
  | advertisement (priority : UInt8) (interval : Nat) (greater : Bool)
  deriving DecidableEq, Repr

inductive Action (α : Type) where
  | advertise (priority : UInt8)
  | announce (address : α)
  deriving DecidableEq, Repr

variable {α : Type} (p : Parameters α)

def Parameters.unit : Int := 1000000000 / unitsPerSecond p.version

def Parameters.skewTime (priority : UInt8) (masterAdverInterval : Nat) : Nat :=
  ⌊skewSeconds p.version priority masterAdverInterval * unitsPerSecond p.version⌋₊

def Parameters.masterDownInterval (priority : UInt8) (interval : Nat) : Nat :=
  3 * interval + p.skewTime priority interval

def Parameters.ahead (now : Int) (units : Nat) : Int := now + units * p.unit

def Parameters.toMaster (now : Int) (r : Router) : Router × List (Action α) :=
  ({ r with phase := .master (p.ahead now p.advertisementInterval) },
    .advertise r.priority :: p.addresses.map .announce)

def Parameters.toBackup (now : Int) (interval : Nat) (r : Router) : Router :=
  { r with phase := .backup interval (p.ahead now (p.masterDownInterval r.priority interval)) }

def Parameters.adopted (own received : Nat) : Nat :=
  match p.version with
  | .rfc3768 => own
  | .rfc5798 => received

def Parameters.startup (now : Int) (r : Router) : Router × List (Action α) :=
  if r.priority = 255 then p.toMaster now r
  else if p.startDelay = 0 then (p.toBackup now p.advertisementInterval r, [])
  else ({ r with phase := .backup p.advertisementInterval (p.ahead now p.startDelay) }, [])

/-- The transitions; a timer fires only when its time has come. -/
def Parameters.react (now : Int) (r : Router) : Phase → Event → Option (Router × List (Action α))
  | .initial, .startup => some (p.startup now r)
  | .backup _ _, .shutdown priority => some (⟨priority, .initial⟩, [])
  | .backup _ masterDownTimer, .timer => if masterDownTimer ≤ now then some (p.toMaster now r) else none
  | .backup interval _, .advertisement priority received _ =>
    if priority = 0 then
      some ({ r with phase := .backup interval (p.ahead now (p.skewTime r.priority interval)) }, [])
    else if p.preempt = false ∨ r.priority ≤ priority then
      some (p.toBackup now (p.adopted interval received) r, [])
    else some (r, [])
  | .master _, .shutdown priority => some (⟨priority, .initial⟩, [.advertise 0])
  | .master adverTimer, .timer =>
    if adverTimer ≤ now then
      some ({ r with phase := .master (p.ahead now p.advertisementInterval) }, [.advertise r.priority])
    else none
  | .master _, .advertisement priority received greater =>
    if priority = 0 then
      some ({ r with phase := .master (p.ahead now p.advertisementInterval) }, [.advertise r.priority])
    else if r.priority < priority ∨ priority = r.priority ∧ greater then
      some (p.toBackup now (p.adopted p.advertisementInterval received) r, [])
    else some (r, [])
  | _, _ => none

/-- A shutdown is the same for every router in the phase. -/
theorem Parameters.react_shutdown (now : Int) (r r' : Router) (phase : Phase) (priority : UInt8) :
    p.react now r phase (.shutdown priority) = p.react now r' phase (.shutdown priority) := by
  cases phase <;> rfl

/-! What may be expected of a router that is left running. -/

section Running
variable {p : Parameters α} {now due : Int} {r r' : Router} {ev : Event} {acts : List (Action α)} {interval : Nat}

/-- A router that is master, or that will not follow lower priorities. -/
def Parameters.Contends (p : Parameters α) (phase : Phase) (due : Int) : Prop :=
  phase = .master due ∨ p.preempt = true ∧ ∃ interval, phase = .backup interval due

/-- While it hears lower priorities only, nothing but its timer moves it. -/
theorem Parameters.Contends.react (hc : p.Contends r.phase due) (hr : p.react now r r.phase ev = some (r', acts))
    (hrunning : ∀ priority, ev ≠ .shutdown priority)
    (hlower : ∀ priority received greater, ev = .advertisement priority received greater →
      priority ≠ 0 ∧ priority < r.priority) :
    r'.phase = r.phase ∨ .advertise r.priority ∈ acts ∧ r'.phase = .master (p.ahead now p.advertisementInterval) := by
  rcases hc with hphase | ⟨hpreempt, interval, hphase⟩
  all_goals
    rw [hphase] at hr ⊢
    cases ev with
    | startup => cases hr
    | shutdown priority => exact absurd rfl (hrunning priority)
    | timer =>
      simp only [Parameters.react] at hr
      split at hr
      · obtain ⟨rfl, rfl⟩ := Prod.mk.inj (Option.some.inj hr)
        exact .inr ⟨List.mem_cons_self, rfl⟩
      · cases hr
    | advertisement priority received greater =>
      left
      obtain ⟨hz, hlt⟩ := hlower priority received greater rfl
      simp only [Parameters.react, if_neg hz] at hr
      split at hr
      · next hgreater =>
        exfalso
        grind
      · obtain ⟨rfl, -⟩ := Prod.mk.inj (Option.some.inj hr)
        exact hphase

/-- Before its deadline a backup stays one, and sets no deadline but a whole interval ahead. -/
theorem Parameters.react_standing (hb : r.phase = .backup interval due)
    (hr : p.react now r r.phase ev = some (r', acts)) (hrunning : ∀ priority, ev ≠ .shutdown priority)
    (halive : ∀ received greater, ev ≠ .advertisement 0 received greater) (hearly : now < due) :
    ∃ interval' due', r'.phase = .backup interval' due' ∧
      (due' = due ∨ due' = p.ahead now (p.masterDownInterval r.priority interval')) := by
  rw [hb] at hr
  cases ev with
  | startup => cases hr
  | shutdown priority => exact absurd rfl (hrunning priority)
  | timer =>
    simp only [Parameters.react] at hr
    rw [if_neg (by omega)] at hr
    cases hr
  | advertisement priority received greater =>
    have hz : priority ≠ 0 := by
      rintro rfl
      exact halive received greater rfl
    simp only [Parameters.react, if_neg hz] at hr
    split at hr
    · obtain ⟨rfl, -⟩ := Prod.mk.inj (Option.some.inj hr)
      exact ⟨_, _, rfl, .inr rfl⟩
    · obtain ⟨rfl, -⟩ := Prod.mk.inj (Option.some.inj hr)
      exact ⟨interval, due, hb, .inl rfl⟩

/-- Whoever hears a router that prevails over it is a backup for a whole interval. -/
theorem Parameters.react_prevailed {priority : UInt8} {received : Nat} {greater : Bool} (hz : priority ≠ 0)
    (hb : r.priority < priority ∨ priority = r.priority ∧ greater = true)
    (hr : p.react now r r.phase (.advertisement priority received greater) = some (r', acts)) :
    ∃ interval', r'.phase = .backup interval' (p.ahead now (p.masterDownInterval r.priority interval')) := by
  cases hphase : r.phase with
  | initial =>
    rw [hphase] at hr
    cases hr
  | backup interval due =>
    have hle : p.preempt = false ∨ r.priority ≤ priority := by grind
    rw [hphase] at hr
    simp only [Parameters.react, if_neg hz, if_pos hle] at hr
    obtain ⟨rfl, -⟩ := Prod.mk.inj (Option.some.inj hr)
    exact ⟨_, rfl⟩
  | master due =>
    rw [hphase] at hr
    simp only [Parameters.react, if_neg hz, if_pos hb] at hr
    obtain ⟨rfl, -⟩ := Prod.mk.inj (Option.some.inj hr)
    exact ⟨_, rfl⟩

end Running

inductive Refusal where
  | refused
  deriving DecidableEq, Repr

def Parameters.step (i : Int × Event) (r : Router) : Except Refusal (Router × List (Action α)) :=
  match p.react i.1 r r.phase i.2 with
  | some next => .ok next
  | none => .error .refused

end Uvrrpd.Protocol
