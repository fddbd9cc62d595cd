import Mathlib.Logic.Function.Basic
import Uvrrpd.Delivery
import Uvrrpd.Keys
import Uvrrpd.Resignation

/-! Several routers on one network. A router moves by calls of `vrrp_process`, and
what it sends is in flight from then on. A message is not used up by its delivery,
so it may arrive late, out of order, more than once, or never. -/
namespace Uvrrpd
open Library.Memory (bind_eq_ok)
open Library.Runs

structure Member where
  host : ByteOrder
  config : Config
  fresh : Fresh

structure Message (ι : Type) where
  sender : ι
  frame : Frame
  deriving DecidableEq

structure Lan (ι : Type) where
  daemons : ι → Daemon
  sent : List (Message ι)

abbrev LanEntry (ι : Type) := Entry (Lan ι) (ι × Input) Output

variable {ι : Type} [DecidableEq ι]

/-- One router calls `vrrp_process`. -/
def lanStep (lan : ι → Member) (act : ι × Input) (s : Lan ι) : Except Fault (Lan ι × List Output) := do
  let (d, out) ← processStep (lan act.1).host act.2 (s.daemons act.1)
  return (⟨Function.update s.daemons act.1 d,
    s.sent ++ (advs out).map (fun frame => ⟨act.1, frame⟩)⟩, out)

def before (e : LanEntry ι) : Daemon := e.pre.daemons e.input.1

def after (e : LanEntry ι) : Daemon := e.post.daemons e.input.1

def Listens (lan : ι → Member) (e : LanEntry ι) (event : VrrpEvent) (d : Daemon) : Prop :=
  ((before e).vrrp.state = .backup ∨ (before e).vrrp.state = .master) ∧
    vrrpListen (lan e.input.1).host e.input.2 (before e) = .ok (event, d)

/-- The datagram of this step is a message in flight. -/
def InFlight (lan : ι → Member) (e : LanEntry ι) (m : Message ι) : Prop :=
  m ∈ e.pre.sent ∧ ∃ datagram, e.input.2.sock = some datagram ∧
    Delivers (lan m.sender).config.family m.frame datagram

/-- The step processes a message: it is what `vrrp_listen` reports as `PKT`. -/
def Processes (lan : ι → Member) (e : LanEntry ι) (m : Message ι) : Prop :=
  (∃ d, Listens lan e .pkt d) ∧ InFlight lan e m

def Expires (lan : ι → Member) (e : LanEntry ι) : Prop :=
  (before e).vrrp.state = .backup ∧ ∃ d, Listens lan e .timer d

def Reloads (lan : ι → Member) (e : LanEntry ι) : Prop :=
  ∃ event d, Listens lan e event d ∧ (event = .signal ∨ event = .ctrlFifo) ∧
    testBit UVRRPD_RELOAD d.reg = true

/-- Priorities stay, and only what routers have sent passes for an advertisement. -/
structure Genuine (lan : ι → Member) (e : LanEntry ι) : Prop where
  priority : (after e).vrrp.priority = (before e).vrrp.priority
  origin : ∀ d, Listens lan e .pkt d → ∃ m, InFlight lan e m

def LanHistory (lan : ι → Member) (h : List (LanEntry ι)) (s : Lan ι) : Prop :=
  ∃ start, (∀ i, boot (lan i).host (lan i).config (lan i).fresh = .ok (some (start.daemons i))) ∧
    start.sent = [] ∧ Run (lanStep lan) start h s ∧ ∀ e ∈ h, Genuine lan e

/-- The message is a frame of its sender, with its priority or as a resignation. -/
def Authentic (lan : ι → Member) (m : Message ι) : Prop :=
  ∃ contents d prio, Coherent contents d ∧ Configured (lan m.sender).config d ∧
    Coherent.Announces contents d prio m.frame ∧
    (prio = 0 ∨ prio = (lan m.sender).config.priority)

structure Consistent (lan : ι → Member) (s : Lan ι) : Prop where
  local_run : ∀ i, ∃ k, History (lan i).host (lan i).config (lan i).fresh k (s.daemons i)
  priority : ∀ i, (s.daemons i).vrrp.priority = (lan i).config.priority
  authentic : ∀ m ∈ s.sent, Authentic lan m

theorem lanStep_ok {lan : ι → Member} {act : ι × Input} {s s' : Lan ι} {out : List Output}
    (h : lanStep lan act s = .ok (s', out)) :
    ∃ d, processStep (lan act.1).host act.2 (s.daemons act.1) = .ok (d, out) ∧
      s'.daemons = Function.update s.daemons act.1 d ∧
      s'.sent = s.sent ++ (advs out).map (fun frame => ⟨act.1, frame⟩) := by
  obtain ⟨⟨d, out'⟩, hs, h⟩ := bind_eq_ok.mp h
  obtain ⟨rfl, rfl⟩ := Prod.mk.inj (Except.ok.inj h)
  exact ⟨d, hs, rfl, rfl⟩

theorem Consistent.step {lan : ι → Member} {act : ι × Input} {s s' : Lan ι} {out : List Output}
    (hc : Consistent lan s) (h : lanStep lan act s = .ok (s', out))
    (hg : Genuine lan ⟨s, act, out, s'⟩) : Consistent lan s' := by
  obtain ⟨d, hs, hd, hsent⟩ := lanStep_ok h
  obtain ⟨k, run⟩ := hc.local_run act.1
  refine ⟨?_, ?_, ?_⟩
  · intro i
    rw [hd]
    by_cases hi : i = act.1
    · subst hi
      rw [Function.update_self]
      exact ⟨_, run.snoc hs⟩
    · rw [Function.update_of_ne hi]
      exact hc.local_run i
  · intro i
    by_cases hi : i = act.1
    · subst hi
      exact hg.priority.trans (hc.priority act.1)
    · rw [hd, Function.update_of_ne hi]
      exact hc.priority i
  · intro m hm
    rw [hsent] at hm
    rcases List.mem_append.mp hm with hm | hm
    · exact hc.authentic m hm
    · obtain ⟨frame, hframe, rfl⟩ := List.mem_map.mp hm
      obtain ⟨contents, -, hco⟩ := run.coherent
      obtain ⟨d₁, prio, hc₁, hsame, hann, hprio⟩ := hco.sent hs hframe
      refine ⟨contents, d₁, prio, hc₁, run.configured.of_fixed hsame, hann, ?_⟩
      rwa [hc.priority act.1] at hprio

theorem LanHistory.consistent {lan : ι → Member} {h : List (LanEntry ι)} {s : Lan ι}
    (run : LanHistory lan h s) : Consistent lan s := by
  obtain ⟨start, hboot, hnone, hrun, hgen⟩ := run
  refine Run.invariant (Consistent lan) (Genuine lan) hrun hgen ?_ ?_
  · refine ⟨fun i => ⟨[], start.daemons i, hboot i, .nil⟩, ?_, ?_⟩
    · intro i
      rw [(boot_spec (hboot i)).vrrp]
      rfl
    · intro m hm
      rw [hnone] at hm
      cases hm
  · intro act t u out hc hs hg
    exact hc.step hs hg

/-- The wait of a router that gets no datagram, signal or command. -/
theorem Heard.of_quiet {host : ByteOrder} {inp : Input} {d d₁ : Daemon} {event : VrrpEvent}
    (hh : Heard host inp d event d₁) (hq : inp.pselect = .ready false false) :
    (event = .timer ∨ event = .invalid) ∧ d₁.vrrp.priority = d.vrrp.priority := by
  cases hh with
  | timer => exact ⟨.inl rfl, rfl⟩
  | idle => exact ⟨.inr rfl, rfl⟩
  | signal a m hp => rw [hq] at hp; cases hp
  | datagram a m buf hp => rw [hq] at hp; cases hp
  | command a m hp => rw [hq] at hp; cases hp

omit [DecidableEq ι] in
theorem Listens.of_quiet {lan : ι → Member} {e : LanEntry ι} {event : VrrpEvent} {d : Daemon}
    (hl : Listens lan e event d) (hq : e.input.2.pselect = .ready false false) : event = .timer ∨ event = .invalid :=
  ((vrrpListen_cases hl.2).of_quiet hq).1

private theorem priority_quiet {host : ByteOrder} {inp : Input} {d d' : Daemon} {out : List Output}
    (hq : inp.pselect = .ready false false) (hs : processStep host inp d = .ok (d', out)) :
    d'.vrrp.priority = d.vrrp.priority := by
  cases processStep_cases hs with
  | startMaster => rfl
  | startBackup => rfl
  | stuck => rfl
  | serve hst hl hh => exact hh.priority.trans ((vrrpListen_cases hl).of_quiet hq).2

theorem Genuine.of_quiet {lan : ι → Member} {act : ι × Input} {s s' : Lan ι} {out : List Output}
    (hs : lanStep lan act s = .ok (s', out)) (hq : act.2.pselect = .ready false false) :
    Genuine lan ⟨s, act, out, s'⟩ := by
  obtain ⟨d, hd, hdaemons, -⟩ := lanStep_ok hs
  refine ⟨?_, ?_⟩
  · rw [after, before, hdaemons, Function.update_self]
    exact priority_quiet hq hd
  · intro d₁ hl
    rcases hl.of_quiet hq with h | h <;> cases h

/-- Routers to which nothing arrives. -/
theorem LanHistory.of_quiet {lan : ι → Member} (start : ι → Daemon) {h : List (LanEntry ι)} {s : Lan ι}
    (hboot : ∀ i, boot (lan i).host (lan i).config (lan i).fresh = .ok (some (start i)))
    (run : Run (lanStep lan) ⟨start, []⟩ h s) (hq : ∀ e ∈ h, e.input.2.pselect = .ready false false) :
    LanHistory lan h s := by
  refine ⟨⟨start, []⟩, hboot, rfl, run, ?_⟩
  intro e he
  obtain ⟨before, -, -, hs⟩ := run.mem he
  exact .of_quiet hs (hq e he)

end Uvrrpd
