import Uvrrpd.HookArgs
import Uvrrpd.Startup
import Uvrrpd.Fixed

/-! Calls of `vrrp_exec` in a row, in all processes that go on with the state machine.
One that cannot fork, or whose script is not started, leaves its traces behind. -/
namespace Uvrrpd
open Library.Memory (bind_eq_ok)
open Library.Runs

/-- The process can go on: the array is there, and it runs under SCHED_RR. -/
structure HookReady (p : HookProcess) : Prop where
  argv : ∃ argv, p.argv = some argv ∧ UsableArgv argv
  sched : p.sched = .rr

/-- The call has returned once, in the process that made it, with everything as it was. -/
def Contained (p : HookProcess) (returned : List Returned) : Prop :=
  ∃ ret q, returned = [⟨false, ret, q⟩] ∧ q.sigmask = p.sigmask ∧ q.action = p.action ∧ q.sched = p.sched ∧
    ∃ argv, q.argv = some argv ∧ UsableArgv argv

/-- There is no script to start, or it is started and SCHED_RR comes back. -/
def Starts (a : HookAnswers) : Prop :=
  a.executable = true → ∃ f, a.fork = some f ∧ f.execve = true ∧ (a.schedUnset = true → f.schedSet = true)

theorem Contained.ready {p : HookProcess} {returned : List Returned} (h : Contained p returned) (hp : HookReady p) :
    ∃ q, returned.map Returned.process = [q] ∧ HookReady q := by
  obtain ⟨ret, q, rfl, -, -, hsched, hargv⟩ := h
  exact ⟨q, rfl, hargv, hsched.trans hp.sched⟩

/-- The parent restores what it has changed but the scheduling, which is granted or not. -/
private theorem execParent_restores (f : Forked) (orig p : HookProcess)
    (h : ∀ sig, sig ≠ SIGINT → sig ≠ SIGQUIT → p.action sig = orig.action sig) :
    ∃ ret, execParent f orig p =
      ⟨false, ret, ⟨p.argv, orig.sigmask, orig.action, if f.schedSet then .rr else p.sched⟩⟩ := by
  have haction : Function.update (Function.update p.action SIGINT (orig.action SIGINT)) SIGQUIT
      (orig.action SIGQUIT) = orig.action := by
    funext sig
    by_cases hquit : sig = SIGQUIT
    · rw [hquit, Function.update_self]
    rw [Function.update_of_ne hquit]
    by_cases hint : sig = SIGINT
    · rw [hint, Function.update_self]
    · rw [Function.update_of_ne hint, h sig hint hquit]
  refine ⟨waitLoop f.interrupted f.status, ?_⟩
  cases hset : f.schedSet <;> simp [execParent, uvrrpdSchedSet, sigprocmask, sigaction, haction, hset]

/-- The child comes back, if `execve` fails. -/
private theorem execChild_nil (f : Forked) (orig p : HookProcess) : execChild f orig p = [] ↔ f.execve = true := by
  rw [execChild]
  cases f.execve <;> simp

def beforeFork (schedUnset : Bool) (argv : List Octets) (p : HookProcess) : HookProcess :=
  uvrrpdSchedUnset schedUnset
    ⟨some argv, Function.update p.sigmask SIGCHLD true,
      Function.update (Function.update p.action SIGINT saIgnore) SIGQUIT saIgnore, p.sched⟩

theorem beforeFork_spec (schedUnset : Bool) (argv : List Octets) (p : HookProcess) :
    (beforeFork schedUnset argv p).argv = some argv ∧
      (∀ sig, sig ≠ SIGINT → sig ≠ SIGQUIT → (beforeFork schedUnset argv p).action sig = p.action sig) ∧
      (beforeFork schedUnset argv p).sched = if schedUnset then .other else p.sched := by
  have haction (sig : Nat) (hint : sig ≠ SIGINT) (hquit : sig ≠ SIGQUIT) :
      Function.update (Function.update p.action SIGINT saIgnore) SIGQUIT saIgnore sig = p.action sig := by
    rw [Function.update_of_ne hquit, Function.update_of_ne hint]
  cases schedUnset <;> exact ⟨rfl, haction, rfl⟩

def forkReturns (fork : Option Forked) (orig p : HookProcess) : List Returned :=
  match fork with
  | none => [⟨false, -1, vrrpExecCleanup p⟩]
  | some f => execParent f orig p :: execChild f orig p

/-- A call with a script, on a usable array, comes to `fork`. -/
theorem vrrpExec_forks {inetNtop : Family → Octets → Octets} {c : HookCall} {p : HookProcess} {argv : List Octets}
    (hargv : p.argv = some argv) (husable : UsableArgv argv) (hfits : HookFits inetNtop c.vnet)
    (hexec : c.answers.executable = true) :
    ∃ argv, UsableArgv argv ∧ vrrpExec inetNtop c p =
      .ok (forkReturns c.answers.fork p (beforeFork c.answers.schedUnset argv p)) := by
  obtain ⟨argv', hbuild, husable', -⟩ :=
    vrrpBuildArgs_spec husable hfits (c.scriptname.getD VRRP_SCRIPT) c.vrrp c.state
  refine ⟨argv', husable', ?_⟩
  rw [vrrpExec, hexec, hargv]
  simp only [hbuild]
  cases c.answers.fork <;> rfl

/-- A call on a usable array returns, and is contained exactly when the script starts. -/
private theorem vrrpExec_spec {inetNtop : Family → Octets → Octets} {c : HookCall} {p : HookProcess}
    (hp : HookReady p) (hfits : HookFits inetNtop c.vnet) :
    ∃ returned, vrrpExec inetNtop c p = .ok returned ∧ (Contained p returned ↔ Starts c.answers) := by
  cases hexec : c.answers.executable with
  | false =>
    refine ⟨[⟨false, -1, p⟩], by rw [vrrpExec, hexec]; rfl, fun _ h => ?_, fun _ => ?_⟩
    · rw [hexec] at h
      cases h
    · exact ⟨-1, p, rfl, rfl, rfl, rfl, hp.argv⟩
  | true =>
    obtain ⟨argv₀, hargv₀, husable₀⟩ := hp.argv
    obtain ⟨argv, husable, hret⟩ := vrrpExec_forks hargv₀ husable₀ hfits hexec
    obtain ⟨hbargv, hbaction, hbsched⟩ := beforeFork_spec c.answers.schedUnset argv p
    refine ⟨_, hret, ?_⟩
    cases hfork : c.answers.fork with
    | none =>
      constructor
      · rintro ⟨ret, q, heq, -, -, -, freed, hq, -⟩
        -- the array has been freed
        obtain ⟨-, -, rfl⟩ := Returned.mk.inj (List.singleton_inj.mp heq)
        cases hq
      · intro h
        obtain ⟨f, hf, -⟩ := h hexec
        rw [hfork] at hf
        cases hf
    | some f =>
      obtain ⟨status, hparent⟩ := execParent_restores f p _ hbaction
      rw [forkReturns, hparent, hbargv, hbsched]
      constructor
      · rintro ⟨ret, q, heq, -, -, hsched, -⟩ -
        obtain ⟨hfirst, hchild⟩ := List.cons.inj heq
        obtain ⟨-, -, rfl⟩ := Returned.mk.inj hfirst
        refine ⟨f, hfork, (execChild_nil _ _ _).mp hchild, fun hunset => ?_⟩
        rw [hp.sched, hunset] at hsched
        cases hset : f.schedSet with
        | true => rfl
        | false => rw [hset] at hsched; cases hsched
      · intro h
        obtain ⟨f', hf, hexecve, hset⟩ := h hexec
        rw [hfork] at hf
        obtain rfl := Option.some.inj hf
        rw [(execChild_nil _ _ _).mpr hexecve]
        refine ⟨status, _, rfl, rfl, rfl, ?_, argv, rfl, husable⟩
        simp only [hp.sched]
        cases hunset : c.answers.schedUnset with
        | true => rw [hset hunset]; rfl
        | false => cases f.schedSet <;> rfl

/-- One call, in the process at some place among those that run the state machine. Without
such a process it is no step. -/
def hookStep (inetNtop : Family → Octets → Octets) (inp : Nat × HookCall) (pool : List HookProcess) :
    Except (Option Fault) (List HookProcess × List Returned) :=
  match pool[inp.1]? with
  | none => .error none
  | some p =>
    match vrrpExec inetNtop inp.2 p with
    | .error fault => .error (some fault)
    | .ok returned =>
      .ok (pool.take inp.1 ++ returned.map Returned.process ++ pool.drop (inp.1 + 1), returned)

abbrev HookEntry := Entry (List HookProcess) (Nat × HookCall) Returned

def CallContained (e : HookEntry) : Prop := ∃ p, e.pre[e.input.1]? = some p ∧ Contained p e.output

/-- The call is made by the daemon in one of its runs. -/
def CalledBy (host : ByteOrder) (d₀ : Daemon) (c : HookCall) : Prop :=
  ∃ h d, Run (processStep host) d₀ h d ∧ c.vrrp.fixed = d.vrrp.fixed ∧ c.vnet.fixed = d.vnet.fixed

theorem CalledBy.fits {host : ByteOrder} {sys : StartCalls} {args : List Octets} {d₀ : Daemon} {c : HookCall}
    {inetNtop : Family → Octets → Octets} (hstart : startup host sys args = .ok d₀) (htexts : Texts inetNtop)
    (h : CalledBy host d₀ c) : HookFits inetNtop c.vnet := by
  obtain ⟨k, d, hrun, -, hvnet⟩ := h
  obtain ⟨parsed, words, built, hs⟩ := startup_cases hstart
  have hready := hs.ready
  have hfixed := hvnet.trans (SameFixed.run hrun).2
  have hvif := congrArg VrrpNet.vif hfixed
  have hvips := congrArg VrrpNet.vipList hfixed
  simp only [VrrpNet.fixed] at hvif hvips
  refine ⟨?_, ?_, htexts⟩
  · rw [hvif]
    exact hready.ifname
  · rw [hvips]
    exact hready.count_range.2

section
variable {inetNtop : Family → Octets → Octets}

private theorem hookStep_cases {inp : Nat × HookCall} {pool pool' : List HookProcess} {returned : List Returned}
    (h : hookStep inetNtop inp pool = .ok (pool', returned)) :
    ∃ p, pool[inp.1]? = some p ∧ vrrpExec inetNtop inp.2 p = .ok returned ∧
      pool' = pool.take inp.1 ++ returned.map Returned.process ++ pool.drop (inp.1 + 1) := by
  rw [hookStep] at h
  split at h
  · cases h
  next p hp =>
  split at h
  · cases h
  next returned' hexec =>
  obtain ⟨rfl, rfl⟩ := Prod.mk.inj (Except.ok.inj h)
  exact ⟨p, hp, hexec, rfl⟩

private theorem hookStep_of_exec {i : Nat} {c : HookCall} {pool : List HookProcess} {p : HookProcess}
    {returned : List Returned} (hget : pool[i]? = some p) (hexec : vrrpExec inetNtop c p = .ok returned) :
    hookStep inetNtop (i, c) pool =
      .ok (pool.take i ++ returned.map Returned.process ++ pool.drop (i + 1), returned) := by
  simp only [hookStep, hget, hexec]

def Alone (pool : List HookProcess) : Prop := ∃ p, pool = [p] ∧ HookReady p

/-- A step of the only process. -/
private theorem hookStep_alone {inp : Nat × HookCall} {pool pool' : List HookProcess} {returned : List Returned}
    (halone : Alone pool) (hfits : HookFits inetNtop inp.2.vnet)
    (h : hookStep inetNtop inp pool = .ok (pool', returned)) :
    (CallContained ⟨pool, inp, returned, pool'⟩ ↔ Starts inp.2.answers) ∧
      (CallContained ⟨pool, inp, returned, pool'⟩ → Alone pool') := by
  obtain ⟨p, rfl, hp⟩ := halone
  obtain ⟨p', hget, hexec, hpool⟩ := hookStep_cases h
  obtain ⟨i, c⟩ := inp
  obtain rfl : i = 0 := by
    obtain ⟨hi, -⟩ := List.getElem?_eq_some_iff.mp hget
    simpa using hi
  obtain rfl : p = p' := Option.some.inj hget
  have hcontained : CallContained ⟨[p], (0, c), returned, pool'⟩ ↔ Contained p returned := by
    constructor
    · rintro ⟨q, hq, hc⟩
      obtain rfl : p = q := Option.some.inj hq
      exact hc
    · exact fun hc => ⟨p, rfl, hc⟩
  obtain ⟨returned', hexec', hiff⟩ := vrrpExec_spec hp hfits
  obtain rfl := Except.ok.inj (hexec.symm.trans hexec')
  refine ⟨hcontained.trans hiff, fun hc => ?_⟩
  obtain ⟨q, hq, hready⟩ := (hcontained.mp hc).ready hp
  refine ⟨q, ?_, hready⟩
  rw [hpool, hq]
  rfl

variable {pool₀ pool : List HookProcess} {h : List HookEntry}

/-- As long as all calls are contained there is one process, which is ready. -/
private theorem alone_run (run : Run (hookStep inetNtop) pool₀ h pool) (halone : Alone pool₀)
    (hfits : ∀ e ∈ h, HookFits inetNtop e.input.2.vnet) (hcontained : ∀ e ∈ h, CallContained e) : Alone pool := by
  refine run.invariant Alone (fun e => HookFits inetNtop e.input.2.vnet ∧ CallContained e)
    (fun e he => ⟨hfits e he, hcontained e he⟩) halone ?_
  intro inp before after returned halone hstep hok
  exact (hookStep_alone halone hok.1 hstep).2 hok.2

/-- The calls of a run are all contained exactly when each starts its script, or has none to start. -/
private theorem contained_run_iff (run : Run (hookStep inetNtop) pool₀ h pool) (halone : Alone pool₀)
    (hfits : ∀ e ∈ h, HookFits inetNtop e.input.2.vnet) :
    (∀ e ∈ h, CallContained e) ↔ ∀ e ∈ h, Starts e.input.2.answers := by
  induction run with
  | nil => simp
  | @snoc h before after inp returned prev hstep ih =>
    have hprev (e : HookEntry) (he : e ∈ h) : HookFits inetNtop e.input.2.vnet :=
      hfits e (List.mem_append_left _ he)
    have hlast : HookFits inetNtop inp.2.vnet := hfits ⟨before, inp, returned, after⟩ (by simp)
    have hiff := ih hprev
    have hone (hall : ∀ e ∈ h, CallContained e) :=
      (hookStep_alone (alone_run prev halone hprev hall) hlast hstep).1
    simp only [List.mem_append, List.mem_singleton, or_imp, forall_and, forall_eq]
    constructor
    · rintro ⟨hall, hc⟩
      exact ⟨hiff.mp hall, (hone hall).mp hc⟩
    · rintro ⟨hall, hs⟩
      exact ⟨hiff.mpr hall, (hone (hiff.mpr hall)).mpr hs⟩

end

/-- In every run of a started daemon, whatever the answers to its calls of `vrrp_exec`,
all of these are contained exactly when each that has a script forks and starts it (and is
granted SCHED_RR again); a further call then returns, too. -/
theorem hook_errors_contained_iff {host : ByteOrder} {sys : StartCalls} {args : List Octets} {d₀ : Daemon}
    {inetNtop : Family → Octets → Octets} {array : Bool} {buffers : Nat → Bool} {p₀ : HookProcess}
    {h : List HookEntry} {pool : List HookProcess}
    (hstart : startup host sys args = .ok d₀) (htexts : Texts inetNtop)
    (hinit : vrrpExecInit array buffers = p₀.argv) (hargv : p₀.argv ≠ none) (hsched : p₀.sched = .rr)
    (run : Run (hookStep inetNtop) [p₀] h pool) (hcalls : ∀ e ∈ h, CalledBy host d₀ e.input.2) :
    ((∀ e ∈ h, CallContained e) ↔ ∀ e ∈ h, Starts e.input.2.answers) ∧
      ((∀ e ∈ h, Starts e.input.2.answers) → ∃ p, pool = [p] ∧
        ∀ c, CalledBy host d₀ c → ∃ returned, vrrpExec inetNtop c p = .ok returned) := by
  obtain ⟨argv, hsome⟩ := Option.ne_none_iff_exists'.mp hargv
  have halone : Alone [p₀] :=
    ⟨p₀, rfl, ⟨argv, hsome, vrrpExecInit_usable (hinit.trans hsome)⟩, hsched⟩
  have hfits (e : HookEntry) (he : e ∈ h) : HookFits inetNtop e.input.2.vnet := (hcalls e he).fits hstart htexts
  have hiff := contained_run_iff run halone hfits
  refine ⟨hiff, fun hstarts => ?_⟩
  obtain ⟨p, rfl, hp⟩ := alone_run run halone hfits (hiff.mpr hstarts)
  refine ⟨p, rfl, fun c hc => ?_⟩
  obtain ⟨returned, hexec, -⟩ := vrrpExec_spec hp (hc.fits hstart htexts)
  exact ⟨returned, hexec⟩

def labProcess : HookProcess where
  argv := vrrpExecInit true (fun _ => true)
  sigmask := fun sig => sig == SIGINT || sig == SIGQUIT
  action := fun _ => ⟨.signalHandler, 0, fun _ => false⟩
  sched := .rr

def labCall (d : Daemon) (answers : HookAnswers) : HookCall := ⟨d.vrrp, d.vnet, none, .master, answers⟩

def labStarts : HookAnswers := ⟨true, true, some ⟨true, true, 1, some 0⟩⟩

private theorem labProcess_ready : HookReady labProcess :=
  ⟨⟨_, rfl, vrrpExecInit_usable (show vrrpExecInit true (fun _ => true) = some _ from rfl)⟩, rfl⟩

theorem labTexts : Texts (fun _ _ => labVip) := ⟨fun _ _ => by decide, fun _ _ => by decide⟩

private theorem labCall_calledBy (d : Daemon) (answers : HookAnswers) : CalledBy .little d (labCall d answers) :=
  ⟨[], d, .nil, rfl, rfl⟩

/-- A hook that is started and waited for. -/
theorem hook_errors_contained_lab : ∃ d h pool,
    startup .little labCalls [[0x2d, 0x76], [0x37], [0x2d, 0x69], labIfname, labVip] = .ok d ∧
      Run (hookStep (fun _ _ => labVip)) [labProcess] h pool ∧ h.length = 1 ∧ ∀ e ∈ h, CallContained e := by
  obtain ⟨d, hd, -⟩ := labCalls_start
  have hcalled := labCall_calledBy d labStarts
  obtain ⟨returned, hexec, -⟩ := vrrpExec_spec labProcess_ready (hcalled.fits hd labTexts)
  have hget : [labProcess][0]? = some labProcess := rfl
  have hstep := hookStep_of_exec hget hexec
  have hrun := Run.nil.snoc hstep
  refine ⟨d, _, _, hd, hrun, rfl, ?_⟩
  have hinit : vrrpExecInit true (fun _ => true) = labProcess.argv := rfl
  refine (hook_errors_contained_iff hd labTexts hinit (Option.some_ne_none _) rfl hrun ?_).1.mpr ?_
  · intro e he
    obtain rfl := List.mem_singleton.mp he
    exact hcalled
  · intro e he
    obtain rfl := List.mem_singleton.mp he
    exact fun _ => ⟨_, rfl, rfl, fun _ => rfl⟩

/-- When `fork` fails, the next call writes through a null pointer; when `execve` fails,
two processes go on with the state machine. -/
theorem hook_errors_escape : ∃ d,
    startup .little labCalls [[0x2d, 0x76], [0x37], [0x2d, 0x69], labIfname, labVip] = .ok d ∧
      (∃ p, vrrpExec (fun _ _ => labVip) (labCall d ⟨true, true, none⟩) labProcess = .ok [⟨false, -1, p⟩] ∧
        p.sigmask SIGCHLD ≠ labProcess.sigmask SIGCHLD ∧ (p.action SIGINT).handler = .ign ∧ p.sched = .other ∧
        vrrpExec (fun _ _ => labVip) (labCall d labStarts) p = .error .badAccess) ∧
      ∃ p q, vrrpExec (fun _ _ => labVip) (labCall d ⟨true, true, some ⟨false, true, 0, some 0⟩⟩) labProcess =
        .ok [⟨false, 0, p⟩, ⟨true, -1, q⟩] := by
  obtain ⟨d, hd, -⟩ := labCalls_start
  have hfits (answers : HookAnswers) := (labCall_calledBy d answers).fits hd labTexts
  obtain ⟨argv₀, hargv, husable⟩ := labProcess_ready.argv
  refine ⟨d, hd, ?_, ?_⟩
  · obtain ⟨argv, -, hret⟩ := vrrpExec_forks (c := labCall d ⟨true, true, none⟩) hargv husable (hfits _) rfl
    exact ⟨_, hret, (by decide : true ≠ false), rfl, rfl, rfl⟩
  · obtain ⟨argv, -, hret⟩ := vrrpExec_forks (c := labCall d ⟨true, true, some ⟨false, true, 0, some 0⟩⟩)
      hargv husable (hfits _) rfl
    exact ⟨_, _, hret⟩

end Uvrrpd
