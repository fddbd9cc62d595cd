import Uvrrpd.Deadlines

/-! Waiting for a deadline. The subtraction carries between seconds and nanoseconds
so that the nanoseconds of the difference are never negative; one second of them
may remain. Each wait starts from a deadline that the wait before it has rewritten. -/
namespace Uvrrpd
open Library.Memory (bind_eq_ok)
open Library.Runs

/-- What `clock_gettime` returns, and what `pselect` accepts. -/
def Timespec.Normal (t : Timespec) : Prop := 0 ≤ t.sec ∧ 0 ≤ t.nsec ∧ t.nsec < NANOUL

instance (t : Timespec) : Decidable t.Normal := inferInstanceAs (Decidable (_ ∧ _ ∧ _))

/-- Nothing before the epoch. -/
private theorem Timespec.Normal.nanos_nonneg {t : Timespec} (h : t.Normal) : 0 ≤ t.nanos := by
  obtain ⟨hs, hn, -⟩ := h
  rw [Timespec.nanos, NANOUL]
  omega

/-- The carries leave the total alone, and bring the nanoseconds of the difference
down to a second at most; to a whole one only when they were that already, or when
the minuend lies whole seconds below the subtrahend. -/
private theorem timespecCarry_spec (x y : Timespec) :
    (timespecCarry x y).nanos = y.nanos ∧ 0 ≤ x.nsec - (timespecCarry x y).nsec ∧
    x.nsec - (timespecCarry x y).nsec ≤ NANOUL ∧
    (x.nsec - (timespecCarry x y).nsec = NANOUL →
      x.nsec = y.nsec + NANOUL ∨ x.nsec ≤ y.nsec - NANOUL) := by
  rw [timespecCarry]
  by_cases hlt : x.nsec < y.nsec
  · have hq : (y.nsec - x.nsec).tdiv 1000000000 = (y.nsec - x.nsec) / 1000000000 :=
      Int.tdiv_eq_ediv_of_nonneg (by omega)
    have hle : ¬ x.nsec - (y.nsec - 1000000000 * ((y.nsec - x.nsec) / 1000000000 + 1)) > 1000000000 := by
      omega
    simp only [if_pos hlt, NANOUL, hq, if_neg hle, Timespec.nanos]
    omega
  · simp only [if_neg hlt]
    by_cases hgt : x.nsec - y.nsec > NANOUL
    · have hq : (x.nsec - y.nsec).tdiv 1000000000 = (x.nsec - y.nsec) / 1000000000 :=
        Int.tdiv_eq_ediv_of_nonneg (by omega)
      rw [if_pos hgt]
      simp only [NANOUL, hq, Timespec.nanos]
      omega
    · rw [if_neg hgt]
      omega

/-- The difference has the right total. -/
private theorem timespecSubstract_nanos (x y : Timespec) :
    (timespecSubstract x y).1.nanos = x.nanos - y.nanos := by
  have hsum := (timespecCarry_spec x y).1
  simp only [timespecSubstract, Timespec.nanos, NANOUL] at *
  omega

/-- A minuend before the subtrahend is reported. -/
private theorem timespecSubstract_earlier {x y : Timespec} (h : x.nanos < y.nanos) :
    (timespecSubstract x y).2.2 = true := by
  obtain ⟨hsum, hlow, -, -⟩ := timespecCarry_spec x y
  simp only [timespecSubstract, Timespec.nanos, NANOUL, decide_eq_true_eq] at *
  omega

/-- One behind it is not. -/
private theorem timespecSubstract_later {x y : Timespec} (h : y.nanos < x.nanos) :
    (timespecSubstract x y).2.2 = false := by
  obtain ⟨hsum, -, hhigh, -⟩ := timespecCarry_spec x y
  simp only [timespecSubstract, Timespec.nanos, NANOUL, decide_eq_false_iff_not] at *
  omega

inductive TimerCall where
  | update
  | isExpired
  deriving DecidableEq, Repr

def VrrpTimer.call (timer : VrrpTimer) (now : Timespec) : TimerCall → Bool × VrrpTimer
  | .update => vrrpTimerUpdate (some now) timer
  | .isExpired => vrrpTimerIsExpired (some now) timer

def VrrpTimer.calls (timer : VrrpTimer) (cs : List (TimerCall × Timespec)) : VrrpTimer :=
  cs.foldl (fun timer c => (timer.call c.2 c.1).2) timer

private theorem VrrpTimer.call_ts (timer : VrrpTimer) (now : Timespec) (c : TimerCall) :
    (timer.call now c).2.ts = timer.ts := by
  cases c with
  | update => exact vrrpTimerUpdate_ts _ _
  | isExpired => exact vrrpTimerIsExpired_ts _ _

private theorem VrrpTimer.calls_ts (timer : VrrpTimer) (cs : List (TimerCall × Timespec)) :
    (timer.calls cs).ts = timer.ts := by
  induction cs generalizing timer with
  | nil => rfl
  | cons c cs ih => exact (ih _).trans (call_ts _ _ _)

def Timespec.after (t : Timespec) (delay delayCs : Int) : Int :=
  t.nanos + delay * NANOUL + delayCs * CENTUL

/-- The sum that `vrrp_timer_set` stores. -/
theorem vrrpTimerSet_nanos (t : Timespec) (delay delayCs : Int) (timer : VrrpTimer) :
    (vrrpTimerSet (some t) delay delayCs timer).ts.nanos = t.after delay delayCs := by
  simp only [vrrpTimerSet, Timespec.nanos, Timespec.after]
  ring

/-- An update reports and stores what the subtraction finds. -/
private theorem vrrpTimerUpdate_eq (now : Timespec) (timer : VrrpTimer) :
    (vrrpTimerUpdate (some now) timer).1 = (timespecSubstract timer.ts now).2.2 ∧
    (vrrpTimerUpdate (some now) timer).2.delta = (timespecSubstract timer.ts now).1 := by
  simp only [vrrpTimerUpdate]
  obtain ⟨delta, y, negative⟩ := timespecSubstract timer.ts now
  cases negative with
  | true => exact ⟨rfl, rfl⟩
  | false => exact ⟨rfl, rfl⟩

private theorem vrrpTimerIsExpired_fst (now : Option Timespec) (timer : VrrpTimer) :
    (vrrpTimerIsExpired now timer).1 =
      ((vrrpTimerUpdate now timer).1 || decide (timer.ts.sec ≤ 0 ∧ timer.ts.nsec ≤ 0)) := by
  rw [← vrrpTimerUpdate_ts now timer, Bool.decide_and]
  rfl

private theorem VrrpTimer.call_delta (timer : VrrpTimer) (now : Timespec) (c : TimerCall) :
    (timer.call now c).2.delta.nanos = timer.ts.nanos - now.nanos := by
  have hd : (timer.call now c).2.delta = (timespecSubstract timer.ts now).1 := by
    cases c with
    | update => exact (vrrpTimerUpdate_eq now timer).2
    | isExpired => exact (vrrpTimerUpdate_eq now timer).2
  rw [hd, timespecSubstract_nanos]

/-- Behind the deadline both calls report its expiry. -/
private theorem VrrpTimer.call_later {timer : VrrpTimer} {now : Timespec} (h : timer.ts.nanos < now.nanos)
    (c : TimerCall) : (timer.call now c).1 = true := by
  have hu : (vrrpTimerUpdate (some now) timer).1 = true := by
    rw [(vrrpTimerUpdate_eq now timer).1]
    exact timespecSubstract_earlier h
  cases c with
  | update => exact hu
  | isExpired =>
    rw [VrrpTimer.call, vrrpTimerIsExpired_fst, hu, Bool.true_or]

/-- Before the deadline the second test of `vrrp_timer_is_expired` fails too, since no
reading lies before a deadline that is not positive. -/
private theorem VrrpTimer.call_earlier {timer : VrrpTimer} {now : Timespec} (hn : now.Normal)
    (h : now.nanos < timer.ts.nanos) (c : TimerCall) : (timer.call now c).1 = false := by
  have hu : (vrrpTimerUpdate (some now) timer).1 = false := by
    rw [(vrrpTimerUpdate_eq now timer).1]
    exact timespecSubstract_later h
  cases c with
  | update => exact hu
  | isExpired =>
    have hpos : ¬ (timer.ts.sec ≤ 0 ∧ timer.ts.nsec ≤ 0) := by
      have hz := hn.nanos_nonneg
      simp only [Timespec.nanos, NANOUL] at *
      omega
    rw [VrrpTimer.call, vrrpTimerIsExpired_fst, hu, Bool.false_or, decide_eq_false hpos]

/-- What arrives is not reported as an expiry. -/
private theorem vrrpListenReady_ne_timer {host : ByteOrder} {inp : Input} {socket fifo : Bool}
    {d d' : Daemon} {event : VrrpEvent} (h : vrrpListenReady host inp socket fifo d = .ok (event, d')) :
    event ≠ .timer := by
  rw [vrrpListenReady] at h
  split at h
  · obtain ⟨⟨e, vnet, buf⟩, hr, h⟩ := bind_eq_ok.mp h
    obtain ⟨rfl, -⟩ := Prod.mk.inj (Except.ok.inj h)
    rcases (vrrpNetRecv_cases (vrrpNetRecv_of_buf hr)).2 with rfl | rfl | ⟨rfl, -⟩ <;> decide
  split at h
  · obtain ⟨r, hc, h⟩ := bind_eq_ok.mp h
    obtain ⟨rfl, -⟩ := Prod.mk.inj (Except.ok.inj h)
    intro he
    cases vrrpCtrlRead_cases hc <;> cases he
  · obtain ⟨rfl, -⟩ := Prod.mk.inj (Except.ok.inj h)
    decide

/-- `TIMER` is reported by one of the two tests of the timer waited on. -/
private theorem vrrpListen_timer {host : ByteOrder} {inp : Input} {d d' : Daemon} {id : TimerId}
    (hid : runningTimer d.vrrp = some id) (h : vrrpListen host inp d = .ok (.timer, d')) :
    (vrrpTimerUpdate inp.clockUpdate (d.vrrp.timer id)).1 = true ∨
    ∃ socket fifo timer, inp.pselect = .ready socket fifo ∧ timer.ts = (d.vrrp.timer id).ts ∧
      (vrrpTimerIsExpired inp.clockExpired timer).1 = true := by
  rw [vrrpListen, hid] at h
  simp only at h
  split at h
  · next he => exact .inl he
  split at h
  · cases h
  · cases h
  · next socket fifo hp =>
    split at h
    · next hx =>
      refine .inr ⟨socket, fifo, _, hp, ?_, hx⟩
      cases id <;> exact vrrpTimerUpdate_ts _ _
    · exact absurd rfl (vrrpListenReady_ne_timer h)

private theorem vrrpListen_expired (host : ByteOrder) {inp : Input} {d : Daemon} {id : TimerId}
    (hid : runningTimer d.vrrp = some id)
    (h : (vrrpTimerUpdate inp.clockUpdate (d.vrrp.timer id)).1 = true) :
    ∃ d', vrrpListen host inp d = .ok (.timer, d') := by
  rw [vrrpListen, hid]
  simp only [h, if_pos]
  exact ⟨_, rfl⟩

/-- The step neither leaves the state of the protocol nor arms a timer. -/
def Waits (e : Entry Daemon Input Output) : Prop :=
  e.post.vrrp.state = e.pre.vrrp.state ∧ armings .adv e.output = [] ∧ armings .masterdown e.output = []

instance (e : Entry Daemon Input Output) : Decidable (Waits e) := inferInstanceAs (Decidable (_ ∧ _ ∧ _))

def SameDeadlines (v v' : Vrrp) : Prop := ∀ id, (v'.timer id).ts = (v.timer id).ts

theorem SameDeadlines.runningTimer {v v' : Vrrp} (h : SameDeadlines v v') :
    runningTimer v' = runningTimer v := by
  have ha := running_congr (h .adv)
  have hm := running_congr (h .masterdown)
  simp only [Vrrp.timer] at ha hm
  rw [Uvrrpd.runningTimer, ha, hm, Uvrrpd.runningTimer]

theorem SameDeadlines.refl (v : Vrrp) : SameDeadlines v v := fun _ => rfl

theorem SameDeadlines.trans {v v' v'' : Vrrp} (h : SameDeadlines v v') (h' : SameDeadlines v' v'') :
    SameDeadlines v v'' := fun id => (h' id).trans (h id)

theorem SameDeadlines.heard {host : ByteOrder} {inp : Input} {d d' : Daemon} {event : VrrpEvent}
    (h : Heard host inp d event d') : SameDeadlines d.vrrp d'.vrrp := by
  intro id
  cases id with
  | adv => exact h.deadlines.1
  | masterdown => exact h.deadlines.2

/-- Only a clock that fails arms nothing. -/
private theorem SameDeadlines.arm {now : Option Timespec} {id : TimerId} {p : Int × Int} (v : Vrrp)
    (h : armings id (armed now id p) = []) : SameDeadlines v (arm now id p v) := by
  cases now with
  | none =>
    intro id'
    cases id <;> cases id' <;> rfl
  | some now => simp at h

theorem SameDeadlines.handled {host : ByteOrder} {now : Option Timespec} {d d' : Daemon}
    {event : VrrpEvent} {out : List Output} (h : Handled host now d event d' out)
    (hs : d'.vrrp.state = d.vrrp.state) (ha : armings .adv out = []) (hm : armings .masterdown out = []) :
    SameDeadlines d.vrrp d'.vrrp := by
  cases h with
  | ignore => exact .refl _
  | takeover hb => cases hs.trans hb
  | shorten => exact .arm _ hm
  | follow =>
    have hl : SameDeadlines d.vrrp (d.learnt host) := by
      intro id
      rw [Daemon.learnt]
      split <;> cases id <;> rfl
    exact hl.trans (.arm _ hm)
  | restart hb => cases hs.trans hb
  | tick => exact .arm _ ha
  | answer => exact .arm _ ha
  | yield hb => cases hs.trans hb
  | resign hb => cases hs.trans hb

theorem SameDeadlines.step {host : ByteOrder} {inp : Input} {d d' : Daemon} {out : List Output}
    (h : processStep host inp d = .ok (d', out)) (hw : Waits ⟨d, inp, out, d'⟩) :
    SameDeadlines d.vrrp d'.vrrp := by
  have hst : d'.vrrp.state = d.vrrp.state := hw.1
  cases processStep_cases h with
  | startMaster hi => cases hst.trans hi
  | startBackup hi => cases hst.trans hi
  | @serve _ _ d₁ d₂ _ hl hh =>
    have hheard := vrrpListen_cases hl
    have hsame : d₂.vrrp.state = d₁.vrrp.state := hst.trans hheard.state.symm
    have hhandled : SameDeadlines d₁.vrrp d₂.vrrp := .handled hh hsame hw.2.1 hw.2.2
    exact (SameDeadlines.heard hheard).trans hhandled
  | stuck => exact .refl _

theorem SameDeadlines.run {host : ByteOrder} {d d' : Daemon} {h : List (Entry Daemon Input Output)}
    (run : Run (processStep host) d h d') (hw : ∀ e ∈ h, Waits e) : SameDeadlines d.vrrp d'.vrrp :=
  Run.invariant (fun t => SameDeadlines d.vrrp t.vrrp) Waits run hw (.refl _)
    (fun _ _ _ _ hp hs hw => hp.trans (.step hs hw))

/-- What a wait makes of a deadline, whatever the timer has been through. -/
theorem vrrpListen_deadline (host : ByteOrder) {inp : Input} {d : Daemon} {id : TimerId}
    {now now' : Timespec} (hid : runningTimer d.vrrp = some id) (hu : inp.clockUpdate = some now)
    (hx : inp.clockExpired = some now') (hn : now.Normal) (hn' : now'.Normal) :
    ((d.vrrp.timer id).ts.nanos < now.nanos → ∃ d', vrrpListen host inp d = .ok (.timer, d')) ∧
    ∀ d', vrrpListen host inp d = .ok (.timer, d') → (d.vrrp.timer id).ts.nanos ≤ now.nanos ∨
      (∃ socket fifo, inp.pselect = .ready socket fifo) ∧ (d.vrrp.timer id).ts.nanos ≤ now'.nanos := by
  constructor
  · intro hlate
    apply vrrpListen_expired host hid
    rw [hu]
    exact VrrpTimer.call_later hlate .update
  · intro d' hl
    by_contra hcon
    obtain ⟨hearly, hcon⟩ := not_or.mp hcon
    rcases vrrpListen_timer hid hl with he | ⟨socket, fifo, timer, hp, hts, he⟩
    · have hno := VrrpTimer.call_earlier hn (Int.not_le.mp hearly) .update
      rw [hu] at he
      exact absurd (he.symm.trans hno) (by decide)
    · have hno : (vrrpTimerIsExpired (some now') timer).1 = false := by
        apply VrrpTimer.call_earlier hn' _ .isExpired
        rw [hts]
        exact Int.not_le.mp (fun hle => hcon ⟨⟨socket, fifo, hp⟩, hle⟩)
      rw [hx] at he
      exact absurd (he.symm.trans hno) (by decide)

/-- Waiting never moves a deadline. Whatever calls are made on an armed timer, it
keeps its deadline, and each call tells by it whether the timer has expired and how
much time remains; and in a run that does not arm the timer anew, listening reports
its expiry at the first entry behind the deadline and not before it. -/
theorem waiting_keeps_deadline (t : Timespec) (delay delayCs : Int) (old : VrrpTimer) :
    (∀ cs : List (TimerCall × Timespec),
      ((vrrpTimerSet (some t) delay delayCs old).calls cs).ts = (vrrpTimerSet (some t) delay delayCs old).ts ∧
      ∀ (now : Timespec) (c : TimerCall), now.Normal →
        (t.after delay delayCs < now.nanos →
          (((vrrpTimerSet (some t) delay delayCs old).calls cs).call now c).1 = true) ∧
        (now.nanos < t.after delay delayCs →
          (((vrrpTimerSet (some t) delay delayCs old).calls cs).call now c).1 = false) ∧
        ((((vrrpTimerSet (some t) delay delayCs old).calls cs).call now c).1 = false →
          (((vrrpTimerSet (some t) delay delayCs old).calls cs).call now c).2.delta.nanos =
            t.after delay delayCs - now.nanos)) ∧
    ∀ (host : ByteOrder) (d d' : Daemon) (h : List (Entry Daemon Input Output)) (id : TimerId),
      Run (processStep host) d h d' → (∀ e ∈ h, Waits e) → runningTimer d.vrrp = some id →
      d.vrrp.timer id = vrrpTimerSet (some t) delay delayCs old →
      (d'.vrrp.timer id).ts = (d.vrrp.timer id).ts ∧
      ∀ (inp : Input) (now now' : Timespec), inp.clockUpdate = some now → inp.clockExpired = some now' →
        now.Normal → now'.Normal →
        (t.after delay delayCs < now.nanos → ∃ d₁, vrrpListen host inp d' = .ok (.timer, d₁)) ∧
        ∀ d₁, vrrpListen host inp d' = .ok (.timer, d₁) → t.after delay delayCs ≤ now.nanos ∨
          (∃ socket fifo, inp.pselect = .ready socket fifo) ∧ t.after delay delayCs ≤ now'.nanos := by
  have hdue := vrrpTimerSet_nanos t delay delayCs old
  constructor
  · intro cs
    have hts := VrrpTimer.calls_ts (vrrpTimerSet (some t) delay delayCs old) cs
    refine ⟨hts, fun now c hn => ?_⟩
    rw [← hdue, ← hts]
    exact ⟨fun h => VrrpTimer.call_later h c, fun h => VrrpTimer.call_earlier hn h c,
      fun _ => VrrpTimer.call_delta _ now c⟩
  · intro host d d' h id run hw hid harmed
    have hsame := SameDeadlines.run run hw
    refine ⟨hsame id, fun inp now now' hu hx hn hn' => ?_⟩
    rw [← hdue, ← harmed, ← hsame id]
    exact vrrpListen_deadline host (hsame.runningTimer.trans hid) hu hx hn hn'

/-- A backup that was armed at second 1 for three seconds and is left alone. -/
theorem waiting_keeps_deadline_lab : ∃ h d,
    Run (processStep .little) lab.started h d ∧ h.length = 2 ∧ (d.vrrp.timer .masterdown).ts = ⟨4, 0⟩ ∧
    ∃ d₁, vrrpListen .little (.quiet ⟨5, 0⟩) d = .ok (.timer, d₁) := by
  have hwaits : ∃ r ∈ (execute (processStep .little) [.quiet ⟨2, 0⟩, .quiet ⟨3, 7⟩] lab.started).toOption,
      r.1.length = 2 ∧ ∀ e ∈ r.1, Waits e := by
    decide +kernel
  obtain ⟨⟨h, d⟩, hr, hlen, hw⟩ := hwaits
  have he : execute (processStep .little) [.quiet ⟨2, 0⟩, .quiet ⟨3, 7⟩] lab.started = .ok (h, d) := by
    cases he : execute (processStep .little) [.quiet ⟨2, 0⟩, .quiet ⟨3, 7⟩] lab.started with
    | error e => rw [he] at hr; cases hr
    | ok r => rw [he] at hr; exact congrArg Except.ok (Option.some.inj hr)
  have run := Run.of_execute he
  have harmed : lab.started.vrrp.timer .masterdown = vrrpTimerSet (some ⟨1, 0⟩) 3 0 vrrpTimerClear := by
    decide +kernel
  obtain ⟨hts, hlisten⟩ := (waiting_keeps_deadline ⟨1, 0⟩ 3 0 vrrpTimerClear).2 .little lab.started d h
    .masterdown run hw (by decide +kernel) harmed
  refine ⟨h, d, run, hlen, hts.trans (congrArg VrrpTimer.ts harmed), ?_⟩
  exact (hlisten (.quiet ⟨5, 0⟩) ⟨5, 0⟩ ⟨5, 0⟩ rfl rfl (by decide) (by decide)).1 (by decide)

/-- What `timespec_substract` promises of a pair. -/
def Subtracts (x y : Timespec) : Prop :=
  ((timespecSubstract x y).2.2 = true ↔ x.nanos < y.nanos) ∧
    ((timespecSubstract x y).2.2 = false →
      (timespecSubstract x y).1.Normal ∧ (timespecSubstract x y).1.nanos = x.nanos - y.nanos)

/-- The nanoseconds of the difference are a whole second only if they were before the carries. -/
private theorem timespecCarry_nsec {x y : Timespec} (hx : 0 ≤ x.nsec) (hy : y.Normal) :
    x.nsec - (timespecCarry x y).nsec = NANOUL ↔ x.nsec = y.nsec + NANOUL := by
  obtain ⟨-, -, hn⟩ := hy
  constructor
  · intro h
    have hodd := (timespecCarry_spec x y).2.2.2 h
    omega
  · intro h
    have hlt : ¬ x.nsec < y.nsec := by rw [h, NANOUL]; omega
    have hgt : ¬ x.nsec - y.nsec > NANOUL := by omega
    rw [timespecCarry]
    simp only [if_neg hlt, if_neg hgt]
    omega

private theorem subtracts_iff {x y : Timespec} (hx : 0 ≤ x.nsec) (hy : y.Normal) :
    Subtracts x y ↔ ¬ (x.nsec = y.nsec + NANOUL ∧ y.nanos ≤ x.nanos) := by
  obtain ⟨hsum, hlow, hhigh, -⟩ := timespecCarry_spec x y
  have hodd := timespecCarry_nsec hx hy
  simp only [Subtracts, Timespec.Normal, timespecSubstract_nanos, and_true]
  simp only [timespecSubstract, Timespec.nanos, NANOUL, decide_eq_true_eq, decide_eq_false_iff_not] at *
  constructor
  · rintro ⟨hneg, hnormal⟩ ⟨hsecond, hle⟩
    omega
  · intro hno
    refine ⟨by omega, fun hpos => ⟨by omega, by omega, ?_⟩⟩
    omega

/-- The timeout that `vrrp_listen` hands to `pselect`, unless it returns before. -/
def pselectTimeout (inp : Input) (d : Daemon) : Option Timespec :=
  match runningTimer d.vrrp with
  | none => none
  | some id =>
    match vrrpTimerUpdate inp.clockUpdate (d.vrrp.timer id) with
    | (true, _) => none
    | (false, timer) => some timer.delta

def NsecNonneg (v : Vrrp) : Prop := 0 ≤ v.advTimer.ts.nsec ∧ 0 ≤ v.masterdownTimer.ts.nsec

def Input.SetsNormal (inp : Input) : Prop := ∀ t ∈ inp.clockSet, t.Normal

instance (inp : Input) : Decidable inp.SetsNormal :=
  inferInstanceAs (Decidable (∀ t ∈ inp.clockSet, t.Normal))

private theorem nsecNonneg_arm {now : Option Timespec} (hc : ∀ t ∈ now, t.Normal) (id : TimerId)
    {p : Int × Int} (hp : 0 ≤ p.1 ∧ 0 ≤ p.2) {v : Vrrp} (h : NsecNonneg v) : NsecNonneg (arm now id p v) := by
  cases now with
  | none => cases id <;> exact h
  | some t =>
    have hn : 0 ≤ t.nsec + p.2 * CENTUL :=
      Int.add_nonneg (hc t rfl).2.1 (Int.mul_nonneg hp.2 (by decide))
    cases id with
    | adv => exact ⟨hn, h.2⟩
    | masterdown => exact ⟨h.1, hn⟩

private theorem nsecNonneg_gotoMaster {now : Option Timespec} (hc : ∀ t ∈ now, t.Normal) {d : Daemon}
    (h : NsecNonneg d.vrrp) : NsecNonneg (vrrpStateGotoMaster now d).1.vrrp := by
  refine nsecNonneg_arm hc .adv (delays_nonneg _ _ _) ⟨h.1, ?_⟩
  exact Int.le_refl 0

private theorem nsecNonneg_gotoBackup (host : ByteOrder) {now : Option Timespec} (hc : ∀ t ∈ now, t.Normal)
    {d : Daemon} (h : NsecNonneg d.vrrp) : NsecNonneg (vrrpStateGotoBackup host now d).1.vrrp := by
  refine nsecNonneg_arm hc .masterdown ?_ ⟨Int.le_refl 0, h.2⟩
  split <;> exact delays_nonneg _ _ _

theorem NsecNonneg.handled {host : ByteOrder} {now : Option Timespec} {d d' : Daemon}
    {event : VrrpEvent} {out : List Output} (hc : ∀ t ∈ now, t.Normal) (h : NsecNonneg d.vrrp)
    (hh : Handled host now d event d' out) : NsecNonneg d'.vrrp := by
  cases hh with
  | ignore => exact h
  | takeover => exact nsecNonneg_gotoMaster hc h
  | shorten => exact nsecNonneg_arm hc .masterdown (delays_nonneg _ _ _) h
  | follow =>
    have hl : NsecNonneg (d.learnt host) := by
      rw [Daemon.learnt]
      split <;> exact h
    exact nsecNonneg_arm hc .masterdown (delays_nonneg _ _ _) hl
  | restart => exact ⟨h.1, Int.le_refl 0⟩
  | tick => exact nsecNonneg_arm hc .adv (delays_nonneg _ _ _) h
  | answer => exact nsecNonneg_arm hc .adv (delays_nonneg _ _ _) h
  | yield => exact nsecNonneg_gotoBackup host hc h
  | resign => exact ⟨Int.le_refl 0, h.2⟩

theorem NsecNonneg.step {host : ByteOrder} {inp : Input} {d d' : Daemon} {out : List Output}
    (hc : inp.SetsNormal) (h : NsecNonneg d.vrrp) (hs : processStep host inp d = .ok (d', out)) :
    NsecNonneg d'.vrrp := by
  cases processStep_cases hs with
  | startMaster => exact nsecNonneg_gotoMaster hc h
  | startBackup => exact nsecNonneg_gotoBackup host hc h
  | @serve _ _ d₁ d₂ _ hl hh =>
    have hheard : NsecNonneg d₁.vrrp := by
      obtain ⟨ha, hm⟩ := (vrrpListen_cases hl).deadlines
      rw [NsecNonneg, ha, hm]
      exact h
    have hk : NsecNonneg d₂.vrrp := .handled hc hheard hh
    exact hk
  | stuck => exact h

theorem NsecNonneg.history {host : ByteOrder} {c : Config} {fresh : Fresh}
    {h : List (Entry Daemon Input Output)} {d : Daemon} (run : History host c fresh h d)
    (clock : ∀ e ∈ h, e.input.SetsNormal) : NsecNonneg d.vrrp := by
  obtain ⟨start, hboot, hrun⟩ := run
  refine Run.invariant (fun d : Daemon => NsecNonneg d.vrrp) (fun e => e.input.SetsNormal) hrun clock ?_ ?_
  · rw [(boot_spec hboot).vrrp]
    exact ⟨Int.le_refl 0, Int.le_refl 0⟩
  · intro i t u out hn hs hc
    exact hn.step hc hs

/-- The timeout is what the subtraction leaves. -/
private theorem pselectTimeout_iff {inp : Input} {d : Daemon} {id : TimerId} {now : Timespec}
    (hid : runningTimer d.vrrp = some id) (hnow : inp.clockUpdate = some now) (delta : Timespec) :
    pselectTimeout inp d = some delta ↔ (timespecSubstract (d.vrrp.timer id).ts now).2.2 = false ∧
      (timespecSubstract (d.vrrp.timer id).ts now).1 = delta := by
  obtain ⟨hexp, hdelta⟩ := vrrpTimerUpdate_eq now (d.vrrp.timer id)
  rw [pselectTimeout, hid, hnow, ← hexp, ← hdelta]
  simp only
  obtain ⟨expired, timer⟩ := vrrpTimerUpdate (some now) (d.vrrp.timer id)
  cases expired <;> simp

private theorem timeout_normal_iff {x y : Timespec} (hx : 0 ≤ x.nsec) (hy : y.Normal) :
    ((timespecSubstract x y).2.2 = false → (timespecSubstract x y).1.Normal) ↔
      (x.nsec = y.nsec + NANOUL → x.nanos ≤ y.nanos) := by
  obtain ⟨hsum, hlow, hhigh, -⟩ := timespecCarry_spec x y
  have hodd := timespecCarry_nsec hx hy
  simp only [Timespec.Normal, timespecSubstract, Timespec.nanos, NANOUL, decide_eq_false_iff_not] at *
  constructor
  · intro hnormal hsecond
    by_contra hlater
    have hpos : ¬ x.sec < (timespecCarry x y).sec := by omega
    obtain ⟨-, -, hlt⟩ := hnormal hpos
    omega
  · intro hno hpos
    refine ⟨by omega, by omega, ?_⟩
    by_contra hsecond
    have hle := hno (hodd.mp (by omega))
    omega

/-- The subtraction keeps its promise exactly when its nanoseconds do not lie a whole
second apart in a minuend that is not earlier; and in every state that a daemon reaches
the timeout is valid exactly when the deadline waited for is no such minuend, or is
that very instant and so no timeout is asked for. -/
theorem pselect_timeout_valid_iff {host : ByteOrder} {c : Config} {fresh : Fresh}
    {h : List (Entry Daemon Input Output)} {d : Daemon} (run : History host c fresh h d)
    (clock : ∀ e ∈ h, e.input.SetsNormal) :
    (∀ x y : Timespec, 0 ≤ x.nsec → y.Normal →
      (Subtracts x y ↔ ¬ (x.nsec = y.nsec + NANOUL ∧ y.nanos ≤ x.nanos))) ∧
    ∀ (inp : Input), (∀ now ∈ inp.clockUpdate, now.Normal) →
      ((∀ delta, pselectTimeout inp d = some delta → delta.Normal) ↔
        ∀ now ∈ inp.clockUpdate, ∀ id ∈ runningTimer d.vrrp,
          (d.vrrp.timer id).ts.nsec = now.nsec + NANOUL → (d.vrrp.timer id).ts.nanos ≤ now.nanos) := by
  refine ⟨fun x y hx hy => subtracts_iff hx hy, fun inp hclock => ?_⟩
  obtain ⟨ha, hm⟩ := NsecNonneg.history run clock
  have hnonneg : ∀ id, 0 ≤ (d.vrrp.timer id).ts.nsec := by
    intro id
    cases id with
    | adv => exact ha
    | masterdown => exact hm
  cases hnow : inp.clockUpdate with
  | none =>
    have hnone : pselectTimeout inp d = none := by
      rw [pselectTimeout, hnow]
      cases runningTimer d.vrrp <;> rfl
    simp [hnone]
  | some now =>
    cases hid : runningTimer d.vrrp with
    | none =>
      have hnone : pselectTimeout inp d = none := by rw [pselectTimeout, hid]
      simp [hnone]
    | some id =>
      have hiff := timeout_normal_iff (hnonneg id) (hclock now hnow)
      simp only [pselectTimeout_iff hid hnow, Option.mem_some_iff, forall_eq']
      constructor
      · intro hvalid
        exact hiff.mp (fun hpos => hvalid _ ⟨hpos, rfl⟩)
      · rintro hno delta ⟨hpos, rfl⟩
        exact hiff.mpr hno hpos

theorem pselect_timeout_valid_lab : ∃ delta,
    pselectTimeout (.quiet ⟨2, 5⟩) lab3.started = some delta ∧ delta.Normal := by
  have clock : ∀ e ∈ (lab3.runOn [.quiet ⟨1, 0⟩]).1, e.input.SetsNormal := by decide +kernel
  have hsome : ∃ id, runningTimer lab3.started.vrrp = some id ∧
      (lab3.started.vrrp.timer id).ts.nsec ≠ 5 + NANOUL := by
    decide +kernel
  obtain ⟨id, hid, hne⟩ := hsome
  have hasked : (pselectTimeout (.quiet ⟨2, 5⟩) lab3.started).isSome = true := by decide +kernel
  obtain ⟨delta, hdelta⟩ := Option.isSome_iff_exists.mp hasked
  refine ⟨delta, hdelta, ?_⟩
  refine ((pselect_timeout_valid_iff (history_runOn (.inl rfl) _) clock).2 (.quiet ⟨2, 5⟩) ?_).mpr ?_ delta hdelta
  · rintro now ⟨⟩
    decide
  · rintro now ⟨⟩ id' hid' heq
    obtain rfl := Option.some.inj (hid.symm.trans hid')
    exact absurd heq hne

/-- The owner of the addresses, in version 3 at one advertisement each second: within
the clock reading at which it arms its timer, it asks `pselect` to wait for a second
that is spelt as nanoseconds. -/
theorem pselect_timeout_invalid : ∃ h d, History .little (lab3.ranked 255) (.filled 0) h d ∧
    (∀ e ∈ h, e.input.SetsNormal) ∧ ∃ inp delta, (∀ now ∈ inp.clockUpdate, now.Normal) ∧
    pselectTimeout inp d = some delta ∧ ¬ delta.Normal :=
  ⟨_, _, history_runOn (.inl rfl) [.quiet ⟨1, 0⟩], by decide +kernel, .quiet ⟨1, 0⟩, ⟨0, NANOUL⟩,
    by rintro now ⟨⟩; decide, by decide +kernel, by decide⟩

end Uvrrpd
