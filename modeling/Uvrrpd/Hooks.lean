import Uvrrpd.AdvFormat
import Uvrrpd.Steps

/-! The hook script brackets every period of mastership. The calls with the state
`init` are informative only and are left out here. -/
namespace Uvrrpd
open Library.Runs

/-- The calls of the hook script that create and remove the virtual interface. -/
def brackets (out : List Output) : List VrrpState := (hooks out).filter (· ≠ .init)

@[simp] theorem brackets_append (xs ys : List Output) :
    brackets (xs ++ ys) = brackets xs ++ brackets ys := by
  simp [brackets]

def alternation (n : Nat) : List VrrpState :=
  (List.range n).map (fun i => if i % 2 = 0 then .master else .backup)

private theorem alternation_succ (n : Nat) :
    alternation (n + 1) = alternation n ++ [if n % 2 = 0 then .master else .backup] := by
  simp [alternation, List.range_succ]

/-- What a step reports to the script, given the mastership before and after it. -/
def bracketOf (before after : VrrpState) : List VrrpState :=
  if before ≠ .master ∧ after = .master then [.master]
  else if before = .master ∧ after ≠ .master then [.backup]
  else []

private theorem brackets_handled {host : ByteOrder} {now : Option Timespec} {d d' : Daemon}
    {event : VrrpEvent} {out : List Output} (h : Handled host now d event d' out) :
    brackets out = bracketOf d.vrrp.state d'.vrrp.state := by
  cases h with
  | ignore => simp [brackets, bracketOf]
  | takeover hs => simp [brackets, bracketOf, hs, vrrpStateGotoMaster, arm, Vrrp.setTimer]
  | shorten hs => simp [brackets, bracketOf, hs, arm, Vrrp.setTimer]
  | follow hs => simp [brackets, bracketOf, hs, arm, Vrrp.setTimer]
  | restart hs => simp [brackets, bracketOf, hs]
  | tick hs => simp [brackets, bracketOf, hs, advertise, arm, Vrrp.setTimer]
  | answer hs => simp [brackets, bracketOf, hs, advertise, arm, Vrrp.setTimer]
  | yield hs => simp [brackets, bracketOf, hs, vrrpStateGotoBackup, arm, Vrrp.setTimer]
  | resign hs => simp [brackets, bracketOf, hs]

private theorem brackets_step {host : ByteOrder} {inp : Input} {d d' : Daemon} {out : List Output}
    (h : processStep host inp d = .ok (d', out)) :
    brackets out = bracketOf d.vrrp.state d'.vrrp.state := by
  cases processStep_cases h with
  | startMaster hs => simp [brackets, bracketOf, hs, Daemon.dumped, vrrpStateGotoMaster, arm, Vrrp.setTimer]
  | startBackup hs =>
    simp [brackets, bracketOf, hs, Daemon.primed, Daemon.dumped, vrrpStateGotoBackup, arm, Vrrp.setTimer]
  | serve hs hl hh =>
    rw [← (vrrpListen_cases hl).state, Daemon.dumped_vrrp]
    exact brackets_handled hh
  | stuck hs => simp [brackets, bracketOf, hs]

/-- Whatever stops the loop also requests a reload. -/
theorem Heard.stop {host : ByteOrder} {inp : Input} {d d' : Daemon} {event : VrrpEvent}
    (h : Heard host inp d event d') (hk : testBit KEEP_GOING d.reg = true) :
    testBit KEEP_GOING d'.reg = true ∨
      (event = .signal ∨ event = .ctrlFifo) ∧ testBit UVRRPD_RELOAD d'.reg = true := by
  cases h with
  | timer => exact .inl hk
  | @signal a m signals hp =>
    have hs := (StopReloads.of_keepGoing hk).signals signals
    by_cases hb : testBit KEEP_GOING (signals.foldl signalHandler d.reg) = true
    · exact .inl hb
    · exact .inr ⟨.inl rfl, hs (by simpa using hb)⟩
  | idle => exact .inl hk
  | datagram => exact .inl hk
  | command a m hp hc =>
    cases vrrpCtrlRead_cases hc with
    | refused => exact .inl hk
    | stop => exact .inr ⟨.inr rfl, by simp [KEEP_GOING, UVRRPD_RELOAD]⟩
    | reload => exact .inl (by simp [hk, UVRRPD_RELOAD])
    | status => exact .inl (by simp [hk, UVRRPD_DUMP])
    | prio => exact .inl (by simp [hk, UVRRPD_RELOAD])

theorem Handled.keepGoing {host : ByteOrder} {now : Option Timespec} {d d' : Daemon}
    {event : VrrpEvent} {out : List Output} (h : Handled host now d event d' out) :
    testBit KEEP_GOING d'.reg = testBit KEEP_GOING d.reg := by
  cases h with
  | restart => simp [KEEP_GOING, UVRRPD_RELOAD]
  | resign => simp [KEEP_GOING, UVRRPD_RELOAD]
  | _ => rfl

/-- A request to stop the loop takes effect in the same step. -/
private theorem stop_step {host : ByteOrder} {inp : Input} {d d' : Daemon} {out : List Output}
    (hk : testBit KEEP_GOING d.reg = true) (h : processStep host inp d = .ok (d', out))
    (hstop : testBit KEEP_GOING d'.reg = false) : d'.vrrp.state = .init := by
  have hdump (reg : Reg) : testBit KEEP_GOING (clearBit UVRRPD_DUMP reg) = testBit KEEP_GOING reg := by
    simp [KEEP_GOING, UVRRPD_DUMP]
  cases processStep_cases h with
  | startMaster => exact absurd ((hdump d.reg).symm.trans hstop) (by simp [hk])
  | startBackup => exact absurd ((hdump d.reg).symm.trans hstop) (by simp [hk])
  | @serve hs event d₁ d₂ out hl hh =>
    have hstop₂ : testBit KEEP_GOING d₂.reg = false := (hdump d₂.reg).symm.trans hstop
    rw [hh.keepGoing] at hstop₂
    rcases (vrrpListen_cases hl).stop hk with hgo | ⟨he, hr⟩
    · exact absurd hgo (by simp [hstop₂])
    · exact hh.reload he hr
  | stuck => exact absurd hk (by simp [hstop])

def Bracketed (calls : List VrrpState) (d : Daemon) : Prop :=
  calls = alternation calls.length ∧ (d.vrrp.state = .master ↔ calls.length % 2 = 1)

theorem Bracketed.step {host : ByteOrder} {inp : Input} {d d' : Daemon} {out : List Output}
    {calls : List VrrpState} (hb : Bracketed calls d) (h : processStep host inp d = .ok (d', out)) :
    Bracketed (calls ++ brackets out) d' := by
  obtain ⟨halt, hm⟩ := hb
  rw [brackets_step h]
  rw [bracketOf]
  split
  · next hc =>
    have heven : calls.length % 2 = 0 := by have := mt hm.mpr hc.1; omega
    refine ⟨?_, by simp [hc.2]; omega⟩
    rw [List.length_append, List.length_singleton, alternation_succ, if_pos heven, ← halt]
  split
  · next hc =>
    have hodd := hm.mp hc.1
    refine ⟨?_, by simp [hc.2]; omega⟩
    rw [List.length_append, List.length_singleton, alternation_succ, if_neg (by omega), ← halt]
  · next h₁ h₂ =>
    rw [List.append_nil]
    refine ⟨halt, ?_⟩
    rw [← hm]
    tauto

theorem Bracketed.run {host : ByteOrder} {s t : Daemon} {h : List (Entry Daemon Input Output)}
    (hs : s.vrrp.state = .init) (run : Run (processStep host) s h t) :
    Bracketed (brackets (outputs h)) t := by
  induction run with
  | nil => exact ⟨rfl, by simp [hs, brackets]⟩
  | snoc _ hstep ih =>
    rw [outputs_snoc, brackets_append]
    exact ih.step hstep

private theorem getLast?_alternation (n : Nat) :
    (alternation n).getLast? = some .master ↔ n % 2 = 1 := by
  cases n with
  | zero => simp [alternation]
  | succ n =>
    rw [alternation_succ, List.getLast?_append, List.getLast?_singleton]
    split
    · simp; omega
    · simp; omega

/-- The main loop, run on any number of inputs. The hook script is called in the
order master, backup, master, …; the state is MASTER exactly when the last call was
`master`; and a loop that was told to stop has left MASTER. -/
theorem hooks_bracket_mastership {host : ByteOrder} {c : Config} {fresh : Fresh} {start d : Daemon}
    {inputs : List Input} {out : List Output} (hb : boot host c fresh = .ok (some start))
    (hl : mainLoop host inputs start = .ok (d, out)) :
    (∀ i (hi : i < (brackets out).length),
      (brackets out)[i] = if i % 2 = 0 then .master else .backup) ∧
    (d.vrrp.state = .master ↔ (brackets out).getLast? = some .master) ∧
    (testBit KEEP_GOING d.reg = false → d.vrrp.state ≠ .master) := by
  have hs := boot_spec hb
  obtain ⟨hist, hrun, rfl, hkeep⟩ := mainLoop_run hl
  obtain ⟨halt, hm⟩ := Bracketed.run (by rw [hs.vrrp]; rfl) hrun
  refine ⟨?_, ?_, ?_⟩
  · intro i hi
    have hget : (brackets (outputs hist))[i]? = some (if i % 2 = 0 then .master else .backup) := by
      rw [halt]
      simp [alternation, hi]
    exact (List.getElem?_eq_some_iff.mp hget).2
  · rw [hm, ← getLast?_alternation, ← halt]
  · intro hstop
    cases hrun with
    | nil =>
      rw [hs.reg] at hstop
      exact absurd hstop (by decide)
    | @snoc h t u inp out prev hstep =>
      have hgo := hkeep ⟨t, inp, out, d⟩ (by simp)
      rw [stop_step hgo hstep hstop]
      decide

def labLoop : Daemon × List Output :=
  match mainLoop .little [.quiet ⟨1, 0⟩, .quiet ⟨9, 0⟩] lab.daemon with
  | .ok r => r
  | .error _ => (lab.daemon, [])

/-- The one call so far is `master`. -/
theorem hooks_bracket_mastership_lab :
    boot .little lab (.filled 0) = .ok (some lab.daemon) ∧
    mainLoop .little [.quiet ⟨1, 0⟩, .quiet ⟨9, 0⟩] lab.daemon = .ok (labLoop.1, labLoop.2) ∧
    brackets labLoop.2 = [.master] ∧ labLoop.1.vrrp.state = .master := by
  have hl : mainLoop .little [.quiet ⟨1, 0⟩, .quiet ⟨9, 0⟩] lab.daemon = .ok (labLoop.1, labLoop.2) := by
    decide +kernel
  have hout : brackets labLoop.2 = [.master] := by decide +kernel
  refine ⟨boot_daemon (.inl rfl), hl, hout, ?_⟩
  rw [(hooks_bracket_mastership (boot_daemon (.inl rfl)) hl).2.1, hout]
  rfl

end Uvrrpd
