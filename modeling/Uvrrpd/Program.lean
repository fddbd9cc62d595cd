import Uvrrpd.Containment
import Uvrrpd.Safety

/-! The main loop with its hook. `vrrp_exec` may lose the arguments of the script, and
may come back in a second process; the loop is followed through any one of the processes
that a `fork` leaves behind. -/
namespace Uvrrpd
open Library.Memory (bind_eq_ok)
open Library.Runs

structure Program where
  daemon : Daemon
  scriptname : Option Octets
  hook : HookProcess

structure HookTurn where
  answers : HookAnswers
  child : Bool

/-- What the environment answers in one iteration, which calls `vrrp_exec` at most once
for a state. -/
structure Iteration where
  input : Input
  hook : VrrpState → HookTurn

namespace HookTurn

/-- `vrrp_exec` comes back once, or a second time in the child. -/
def follow (t : HookTurn) (orig : HookProcess) : List Returned → HookProcess
  | [] => orig
  | [r] => r.process
  | r :: s :: _ => if t.child then s.process else r.process

/-- The call frees the arguments: `fork` fails, or this is the child of a failed `execve`. -/
def frees (t : HookTurn) : Bool :=
  t.answers.executable && match t.answers.fork with
    | none => true
    | some f => !f.execve && t.child

end HookTurn

/-- A call of `vrrp_exec`. What it prints of the daemon does not change until the end of
the iteration. -/
def execHook (inetNtop : Family → Octets → Octets) (d : Daemon) (scriptname : Option Octets)
    (hook : VrrpState → HookTurn) (p : HookProcess) (state : VrrpState) : Except Fault HookProcess := do
  let returned ← vrrpExec inetNtop ⟨d.vrrp, d.vnet, scriptname, state, (hook state).answers⟩ p
  return (hook state).follow p returned

def programProcess (inetNtop : Family → Octets → Octets) (host : ByteOrder) (it : Iteration) (p : Program) :
    Except Fault (Int × Program × List Output) := do
  let (ret, d, out) ← vrrpProcess host it.input p.daemon
  let hook ← (hooks out).foldlM (execHook inetNtop d p.scriptname it.hook) p.hook
  return (ret, { p with daemon := d, hook := hook }, out)

def programStep (inetNtop : Family → Octets → Octets) (host : ByteOrder) (it : Iteration) (p : Program) :
    Except Fault (Program × List Output) := do
  let (_, p, out) ← programProcess inetNtop host it p
  return (p, out)

def programLoop (inetNtop : Family → Octets → Octets) (host : ByteOrder) :
    List Iteration → Program → Except Fault (Program × List Output)
  | [], p => .ok (p, [])
  | it :: rest, p =>
    if testBit KEEP_GOING p.daemon.reg then do
      let (ret, p, out) ← programProcess inetNtop host it p
      if ret ≠ 0 then return (p, out)
      else
        let (p, more) ← programLoop inetNtop host rest p
        return (p, out ++ more)
    else .ok (p, [])

abbrev ProgramEntry := Entry Program Iteration Output

structure Launched (host : ByteOrder) (c : Config) (fresh : Fresh) (p : Program) : Prop where
  boot : boot host c fresh = .ok (some p.daemon)
  ifname : c.vif.ifname ≠ none
  argv : ∃ array buffers, vrrpExecInit array buffers = p.hook.argv ∧ p.hook.argv ≠ none

/-- One of the calls is to print its arguments where they are gone. -/
def bereft (gone : Bool) : List HookTurn → Bool
  | [] => false
  | t :: rest => t.answers.executable && gone || bereft (gone || t.frees) rest

def GoneOrUsable (p : HookProcess) : Prop := ∀ argv ∈ p.argv, UsableArgv argv

section Calls
variable {inetNtop : Family → Octets → Octets} {d : Daemon} {scriptname : Option Octets}
  {hook : VrrpState → HookTurn} {p : HookProcess}

private theorem execHook_idle {state : VrrpState} (h : (hook state).answers.executable = false) :
    execHook inetNtop d scriptname hook p state = .ok p := by
  rw [execHook, vrrpExec]
  simp only [h]
  rfl

private theorem execHook_gone {state : VrrpState} (h : (hook state).answers.executable = true)
    (hgone : p.argv = none) : execHook inetNtop d scriptname hook p state = .error .badAccess := by
  rw [execHook, vrrpExec]
  simp only [h, hgone]
  rfl

private theorem follow_forked (t : HookTurn) (orig : HookProcess) {q : HookProcess} {argv : List Octets}
    (hexec : t.answers.executable = true) (hq : q.argv = some argv) :
    (t.follow orig (forkReturns t.answers.fork orig q)).argv = if t.frees then none else some argv := by
  rw [HookTurn.frees, hexec, Bool.true_and]
  cases t.answers.fork with
  | none => rfl
  | some f =>
    have hparent : (execParent f orig q).process.argv = some argv := by
      rw [execParent, uvrrpdSchedSet]
      split <;> exact hq
    obtain ⟨child, hchild⟩ : ∃ child, execChild f orig q =
        if f.execve then [] else [⟨true, -1, vrrpExecCleanup child⟩] := ⟨_, rfl⟩
    rw [forkReturns, hchild]
    cases hf : f.execve with
    | true => simpa [hf, HookTurn.follow] using hparent
    | false =>
      cases hc : t.child with
      | true => simp [hf, HookTurn.follow, hc, vrrpExecCleanup]
      | false => simpa [HookTurn.follow, hc] using hparent

/-- One call: it comes back unless it is to print where no array is, and then it keeps the
array unless it frees it. -/
private theorem execHook_spec (scriptname : Option Octets) (hook : VrrpState → HookTurn) (hp : GoneOrUsable p)
    (hfits : HookFits inetNtop d.vnet) (state : VrrpState) :
    if (hook state).answers.executable && p.argv.isNone then
      execHook inetNtop d scriptname hook p state = .error .badAccess
    else ∃ q, execHook inetNtop d scriptname hook p state = .ok q ∧ GoneOrUsable q ∧
      q.argv.isNone = (p.argv.isNone || (hook state).frees) := by
  cases hexec : (hook state).answers.executable with
  | false =>
    rw [Bool.false_and, if_neg Bool.false_ne_true]
    exact ⟨p, execHook_idle hexec, hp, by simp [HookTurn.frees, hexec]⟩
  | true =>
    cases hargv : p.argv with
    | none =>
      simpa using execHook_gone hexec hargv
    | some argv =>
      rw [if_neg (by simp)]
      obtain ⟨argv', husable, hret⟩ := vrrpExec_forks (c := ⟨d.vrrp, d.vnet, scriptname, state, (hook state).answers⟩)
        hargv (hp argv hargv) hfits hexec
      have hnext := follow_forked (hook state) p hexec (beforeFork_spec (hook state).answers.schedUnset argv' p).1
      refine ⟨_, by rw [execHook, hret]; rfl, ?_, ?_⟩
      · rw [GoneOrUsable, hnext]
        split
        · simp
        · rintro _ ⟨⟩
          exact husable
      · rw [hnext]
        cases (hook state).frees <;> rfl

/-- The calls of one iteration. -/
private theorem execHooks_spec (scriptname : Option Octets) (hook : VrrpState → HookTurn) (hp : GoneOrUsable p)
    (hfits : HookFits inetNtop d.vnet) (states : List VrrpState) :
    if bereft p.argv.isNone (states.map hook) then
      states.foldlM (execHook inetNtop d scriptname hook) p = .error .badAccess
    else ∃ q, states.foldlM (execHook inetNtop d scriptname hook) p = .ok q ∧ GoneOrUsable q ∧
      q.argv.isNone = (p.argv.isNone || states.any (fun state => (hook state).frees)) := by
  induction states generalizing p with
  | nil => exact ⟨p, rfl, hp, by simp⟩
  | cons state states ih =>
    have hone := execHook_spec scriptname hook hp hfits state
    rw [List.map_cons, bereft, List.foldlM_cons]
    split at hone
    · next h =>
      rw [h, Bool.true_or, if_pos rfl, hone]
      rfl
    · next h =>
      obtain ⟨q, hq, hkept, hgone⟩ := hone
      have hrest := ih hkept
      rw [Bool.eq_false_iff.mpr h, Bool.false_or, ← hgone, hq, List.any_cons, ← Bool.or_assoc, ← hgone]
      exact hrest

end Calls

section Steps
variable {inetNtop : Family → Octets → Octets} {host : ByteOrder} {it : Iteration} {p p' : Program}
  {out : List Output}

private theorem programStep_eq : programStep inetNtop host it p = do
    let (d, out) ← processStep host it.input p.daemon
    let hook ← (hooks out).foldlM (execHook inetNtop d p.scriptname it.hook) p.hook
    return ({ p with daemon := d, hook := hook }, out) := by
  rw [programStep, programProcess, processStep]
  cases vrrpProcess host it.input p.daemon with
  | error e => rfl
  | ok r =>
    obtain ⟨ret, d, out⟩ := r
    cases h : (hooks out).foldlM (execHook inetNtop d p.scriptname it.hook) p.hook with
    | error e => simp only [ok_bind, pure_eq_ok, h]; rfl
    | ok hook => simp only [ok_bind, pure_eq_ok, h]

theorem programStep_cases (h : programStep inetNtop host it p = .ok (p', out)) :
    processStep host it.input p.daemon = .ok (p'.daemon, out) ∧
      (hooks out).foldlM (execHook inetNtop p'.daemon p.scriptname it.hook) p.hook = .ok p'.hook := by
  rw [programStep_eq] at h
  obtain ⟨⟨d, out'⟩, hs, h⟩ := bind_eq_ok.mp h
  obtain ⟨hook, hh, h⟩ := bind_eq_ok.mp h
  obtain ⟨rfl, rfl⟩ := Prod.mk.inj (Except.ok.inj h)
  exact ⟨hs, hh⟩

end Steps

section Runs
variable {inetNtop : Family → Octets → Octets} {host : ByteOrder} {c : Config} {fresh : Fresh} {p₀ p : Program}
  {h : List ProgramEntry}

/-- The hooks apart, the loop runs as the state machine. -/
private theorem daemon_run (run : Run (programStep inetNtop host) p₀ h p) :
    Run (processStep host) p₀.daemon (h.map (Entry.map Program.daemon Iteration.input)) p.daemon :=
  run.map (fun _ _ _ _ hs => (programStep_cases hs).1)

theorem Launched.history (hp₀ : Launched host c fresh p₀) (run : Run (programStep inetNtop host) p₀ h p) :
    History host c fresh (h.map (Entry.map Program.daemon Iteration.input)) p.daemon :=
  ⟨p₀.daemon, hp₀.boot, daemon_run run⟩

theorem Launched.fits (hp₀ : Launched host c fresh p₀) (htexts : Texts inetNtop) {d : Daemon}
    (hd : SameFixed p₀.daemon d) : HookFits inetNtop d.vnet := by
  have hvnet := hd.2
  rw [(boot_spec hp₀.boot).vnet] at hvnet
  have hvif := congrArg VrrpNet.vif hvnet
  have hvips := congrArg VrrpNet.vipList hvnet
  simp only [VrrpNet.fixed, Config.vnet] at hvif hvips
  refine ⟨?_, ?_, htexts⟩
  · rw [hvif]
    exact hp₀.ifname
  · rw [hvips]
    exact c.vips_le

private theorem clock_map (clock : ∀ e ∈ h, e.input.input.ClockRuns) :
    ∀ e ∈ h.map (Entry.map Program.daemon Iteration.input), e.input.ClockRuns := by
  intro e he
  obtain ⟨a, ha, rfl⟩ := List.mem_map.mp he
  exact clock a ha

/-- The arguments are gone exactly when one of the calls has freed them. -/
private theorem Launched.argv_gone_iff (hp₀ : Launched host c fresh p₀) (htexts : Texts inetNtop)
    (run : Run (programStep inetNtop host) p₀ h p) : GoneOrUsable p.hook ∧
      (p.hook.argv = none ↔ ∃ e ∈ h, ∃ state ∈ hooks e.output, (e.input.hook state).frees = true) := by
  induction run with
  | nil =>
    obtain ⟨array, buffers, hinit, hargv⟩ := hp₀.argv
    exact ⟨fun argv hsome => vrrpExecInit_usable (hinit.trans hsome), by simp [hargv]⟩
  | @snoc h before after it out prev hstep ih =>
    obtain ⟨hkept, hgone⟩ := ih
    obtain ⟨hs, hh⟩ := programStep_cases hstep
    have hfits := hp₀.fits htexts ((SameFixed.run (daemon_run prev)).trans (SameFixed.step hs))
    have hspec := execHooks_spec before.scriptname it.hook hkept hfits (hooks out)
    split at hspec
    · rw [hh] at hspec
      cases hspec
    obtain ⟨q, hq, hkept', hgone'⟩ := hspec
    obtain rfl := Except.ok.inj (hh.symm.trans hq)
    refine ⟨hkept', ?_⟩
    rw [← Option.isNone_iff_eq_none, hgone', Bool.or_eq_true, Option.isNone_iff_eq_none, hgone, List.any_eq_true]
    simp only [List.mem_append, List.mem_singleton, or_and_right, exists_or, exists_eq_left]

/-- What one iteration can come to in a state that is reached. -/
theorem Launched.step_outcome (hp₀ : Launched host c fresh p₀) (htexts : Texts inetNtop)
    (run : Run (programStep inetNtop host) p₀ h p) (clock : ∀ e ∈ h, e.input.input.ClockRuns) (it : Iteration) :
    (∃ p' out, programStep inetNtop host it p = .ok (p', out)) ∨
      it.input.pselect = .ready false true ∧ Dangling p.daemon.vrrp.ctrl.cmd ∨
      ∃ d out, processStep host it.input p.daemon = .ok (d, out) ∧
        bereft p.hook.argv.isNone ((hooks out).map it.hook) = true ∧
        programStep inetNtop host it p = .error .badAccess := by
  obtain ⟨hkept, -⟩ := hp₀.argv_gone_iff htexts run
  rcases (hp₀.history run).safe (clock_map clock) it.input with ⟨d, out, hs⟩ | hread
  · have hfits := hp₀.fits htexts ((SameFixed.run (daemon_run run)).trans (SameFixed.step hs))
    have hspec := execHooks_spec p.scriptname it.hook hkept hfits (hooks out)
    split at hspec
    · next hbereft =>
      refine .inr (.inr ⟨d, out, hs, hbereft, ?_⟩)
      rw [programStep_eq, hs, ok_bind]
      simp only [hspec]
      rfl
    · obtain ⟨q, hq, -⟩ := hspec
      refine .inl ⟨{ p with daemon := d, hook := q }, out, ?_⟩
      rw [programStep_eq, hs, ok_bind]
      simp only [hq]
      rfl
  · exact .inr (.inl hread)

end Runs

/-- Nobody frees what is there. -/
private theorem bereft_kept {turns : List HookTurn} (h : ∀ t ∈ turns, t.frees = false) :
    bereft false turns = false := by
  induction turns with
  | nil => rfl
  | cons t rest ih =>
    rw [bereft, Bool.and_false, Bool.false_or, Bool.false_or, h t List.mem_cons_self]
    exact ih (fun t ht => h t (List.mem_cons_of_mem _ ht))

def wired : Config := { lab with vif := { lab.vif with ifname := some labIfname } }

def labProgram : Program := ⟨wired.daemon, none, labProcess⟩

theorem labProgram_launched : Launched .little wired (.filled 0) labProgram :=
  ⟨boot_daemon (.inl rfl), Option.some_ne_none _, true, fun _ => true, rfl, Option.some_ne_none _⟩

def scriptless (inp : Input) : Iteration := ⟨inp, fun _ => ⟨⟨false, true, none⟩, false⟩⟩

def labProgramRun (inputs : List Input) : List ProgramEntry × Program :=
  match execute (programStep (fun _ _ => labVip) .little) (inputs.map scriptless) labProgram with
  | .ok r => r
  | .error _ => ([], labProgram)

private theorem labProgramRun_run (inputs : List Input) :
    Run (programStep (fun _ _ => labVip) .little) labProgram (labProgramRun inputs).1 (labProgramRun inputs).2 := by
  rw [labProgramRun]
  split
  · next r hr => exact .of_execute hr
  · exact .nil

def labReloaded : List ProgramEntry × Program :=
  labProgramRun [.quiet ⟨1, 0⟩, { Input.quiet ⟨2, 0⟩ with pselect := .ready false true, fifo := cmdReload }]

end Uvrrpd
