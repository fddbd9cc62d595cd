import Uvrrpd.Grammar
import Uvrrpd.Hooks
import Uvrrpd.Program

/-! The life of a daemon: how the main loop ends, and how the owner of the addresses
holds them. -/
namespace Uvrrpd
open Library.Memory (bind_eq_ok)
open Library.Runs

def Signal.ends : Signal → Bool
  | .int => true
  | .term => true
  | .quit => true
  | _ => false

/-- The signals whose handler runs while `vrrp_listen` waits. -/
def handledSignals (inp : Input) (d : Daemon) : List Signal :=
  match runningTimer d.vrrp, inp.pselect with
  | some id, .interrupted signals =>
    if (vrrpTimerUpdate inp.clockUpdate (d.vrrp.timer id)).1 then [] else signals
  | _, _ => []

/-- Does `vrrp_listen` get as far as reading the control FIFO? -/
def readsFifo (inp : Input) (d : Daemon) : Bool :=
  match runningTimer d.vrrp, inp.pselect with
  | some id, .ready socket fifo =>
    let (expired, t) := vrrpTimerUpdate inp.clockUpdate (d.vrrp.timer id)
    !expired && !(vrrpTimerIsExpired inp.clockExpired t).1 && !socket && fifo
  | _, _ => false

/-- The loop is told to end while it waits: by one of the three signals, or by a message
that starts with `stop`. -/
def ToldToStop (inp : Input) (d : Daemon) : Prop :=
  (d.vrrp.state = .backup ∨ d.vrrp.state = .master) ∧
    ((∃ signal ∈ handledSignals inp d, signal.ends = true) ∨
      readsFifo inp d = true ∧ (tokens (textOf inp.fifo)).head? = some cmdStop)

private theorem keepGoing_signals (signals : List Signal) (reg : Reg) :
    testBit KEEP_GOING (signals.foldl signalHandler reg) = (testBit KEEP_GOING reg && !signals.any Signal.ends) := by
  induction signals generalizing reg with
  | nil => simp
  | cons signal rest ih =>
    rw [List.foldl_cons, ih, List.any_cons, Bool.not_or, ← Bool.and_assoc]
    congr 1
    cases signal <;> simp [signalHandler, Signal.ends, KEEP_GOING, UVRRPD_RELOAD, UVRRPD_DUMP, UVRRPD_LOGOUT]

private theorem commandWords_head (written : Octets) :
    (commandWords written).head? = (tokens (textOf written)).head? := by
  have hpos : CTRL_CMD_NTOKEN ≠ 0 := by decide
  rw [commandWords, wordsOf_eq, List.head?_take, if_neg hpos]

section Step
variable {host : ByteOrder} {inp : Input} {d d' : Daemon} {out : List Output}

private theorem handledSignals_eq {id : TimerId} (hid : runningTimer d.vrrp = some id) :
    handledSignals inp d = match waitEnd inp (d.vrrp.timer id) with
      | some (.interrupted signals) => signals
      | _ => [] := by
  rw [handledSignals, hid, waitEnd]
  cases hup : (vrrpTimerUpdate inp.clockUpdate (d.vrrp.timer id)).1 with
  | true => cases inp.pselect <;> simp [hup]
  | false =>
    cases inp.pselect with
    | interrupted signals => simp [hup]
    | failed => simp [hup]
    | ready socket fifo =>
      cases hexp : (vrrpTimerIsExpired inp.clockExpired
          (vrrpTimerUpdate inp.clockUpdate (d.vrrp.timer id)).2).1 <;> simp [hup, hexp]

private theorem readsFifo_iff {id : TimerId} (hid : runningTimer d.vrrp = some id) :
    readsFifo inp d = true ↔ waitEnd inp (d.vrrp.timer id) = some (.ready false true) := by
  rw [readsFifo, hid, waitEnd]
  cases hup : (vrrpTimerUpdate inp.clockUpdate (d.vrrp.timer id)).1 <;> cases inp.pselect <;> simp [hup, and_assoc]

/-- What a wait makes of the register. -/
private theorem vrrpListen_stops {event : VrrpEvent} (hk : testBit KEEP_GOING d.reg = true)
    (hm : Clean d.vrrp.ctrl.msg) (hlen : d.vrrp.ctrl.cmd.length = CTRL_CMD_NTOKEN) (hplain : Plain inp.fifo)
    (h : vrrpListen host inp d = .ok (event, d')) :
    testBit KEEP_GOING d'.reg = false ↔ (∃ signal ∈ handledSignals inp d, signal.ends = true) ∨
      readsFifo inp d = true ∧ (tokens (textOf inp.fifo)).head? = some cmdStop := by
  obtain ⟨id, a, m, hid, h⟩ := vrrpListen_waited h
  have hk' : testBit KEEP_GOING (d.waited a m).reg = true := hk
  have hm' : Clean (d.waited a m).vrrp.ctrl.msg := hm
  rw [handledSignals_eq hid, readsFifo_iff hid]
  cases hend : waitEnd inp (d.vrrp.timer id) with
  | none =>
    rw [hend] at h
    obtain ⟨-, rfl⟩ := Prod.mk.inj (Except.ok.inj h)
    simp [hk']
  | some answer =>
    rw [hend] at h
    cases answer with
    | interrupted signals =>
      obtain ⟨-, rfl⟩ := Prod.mk.inj (Except.ok.inj h)
      simp [keepGoing_signals, hk']
    | failed =>
      obtain ⟨-, rfl⟩ := Prod.mk.inj (Except.ok.inj h)
      simp [hk']
    | ready socket fifo =>
      rw [afterWait, vrrpListenReady] at h
      cases socket with
      | true =>
        obtain ⟨⟨event', vnet, buf⟩, -, h⟩ := bind_eq_ok.mp h
        obtain ⟨-, rfl⟩ := Prod.mk.inj (Except.ok.inj h)
        simp [hk']
      | false =>
        cases fifo with
        | false =>
          obtain ⟨-, rfl⟩ := Prod.mk.inj (Except.ok.inj h)
          simp [hk']
        | true =>
          obtain ⟨r, hr, h⟩ := bind_eq_ok.mp h
          obtain ⟨-, rfl⟩ := Prod.mk.inj (Except.ok.inj h)
          have hstop := vrrpCtrlRead_stops hm' hlen hplain hk' hr
          rw [commandWords_head] at hstop
          simp [hstop]

/-- The register says behind the step whether the wait was told. -/
private theorem keepGoing_step (hk : testBit KEEP_GOING d.reg = true) (hm : Clean d.vrrp.ctrl.msg)
    (hlen : d.vrrp.ctrl.cmd.length = CTRL_CMD_NTOKEN) (hplain : Plain inp.fifo)
    (hs : processStep host inp d = .ok (d', out)) : testBit KEEP_GOING d'.reg = false ↔ ToldToStop inp d := by
  have hdump (reg : Reg) : testBit KEEP_GOING (clearBit UVRRPD_DUMP reg) = testBit KEEP_GOING reg := by
    simp [KEEP_GOING, UVRRPD_DUMP]
  cases processStep_cases hs with
  | startMaster hst => simp [ToldToStop, hst, Daemon.dumped, hdump, vrrpStateGotoMaster, Daemon.primed, hk]
  | startBackup hst => simp [ToldToStop, hst, Daemon.dumped, hdump, vrrpStateGotoBackup, Daemon.primed, hk]
  | stuck hst => simp [ToldToStop, hst, hk]
  | @serve hst event d₁ d₂ out hl hh =>
    have hreg : testBit KEEP_GOING d₂.dumped.reg = testBit KEEP_GOING d₁.reg := by
      rw [Daemon.dumped, hdump, hh.keepGoing]
    rw [hreg, vrrpListen_stops hk hm hlen hplain hl, ToldToStop]
    exact (and_iff_right hst).symm

/-- Who is told to stop resigns and goes to the initial state. -/
private theorem resigns {contents : Nat → UInt8} (hco : Coherent contents d)
    (hk : testBit KEEP_GOING d.reg = true) (hs : processStep host inp d = .ok (d', out))
    (hst : d.vrrp.state = .backup ∨ d.vrrp.state = .master) (hstop : testBit KEEP_GOING d'.reg = false) :
    d'.vrrp.state = .init ∧ (d.vrrp.state = .backup → out = []) ∧
      (d.vrrp.state = .master → ∃ frame, out = [.adv frame, .exec .backup] ∧ framePriority frame = some 0) := by
  cases processStep_cases hs with
  | startMaster hi => simp [hi] at hst
  | startBackup hi => simp [hi] at hst
  | stuck hi => simp [hi] at hst
  | @serve _ event d₁ d₂ out hl hh =>
    have hreg : testBit KEEP_GOING d₂.dumped.reg = testBit KEEP_GOING d₁.reg := by
      rw [Daemon.dumped, hh.keepGoing.symm]
      simp [KEEP_GOING, UVRRPD_DUMP]
    rw [hreg] at hstop
    have hheard := vrrpListen_cases hl
    obtain ⟨he, hr⟩ := (hheard.stop hk).resolve_left (by simp [hstop])
    have hstate := hheard.state
    refine ⟨hh.reload he hr, ?_, ?_⟩
    · intro hb
      cases hh with
      | ignore => rfl
      | restart => rfl
      | resign hm => simp [hb, hm] at hstate
      | _ => simp at he
    · intro hm
      cases hh with
      | ignore hi => rcases he with rfl | rfl <;> simp [Ignores, hr] at hi
      | restart hb => simp [hb, hm] at hstate
      | @resign _ frame _ _ _ _ hz =>
        exact ⟨frame, rfl, Coherent.Announces.framePriority ((hco.heard hheard).sendZero hz).2⟩
      | _ => simp at he

end Step

/-- Messages that hide nothing leave nothing behind. -/
theorem History.clean {host : ByteOrder} {c : Config} {fresh : Fresh} {h : List (Entry Daemon Input Output)}
    {d : Daemon} (run : History host c fresh h d) (plain : ∀ e ∈ h, Plain e.input.fifo) : Clean d.vrrp.ctrl.msg := by
  obtain ⟨k, hk, hfifo⟩ := run.control
  refine (Settled.run hk (fun e he => ?_)).clean
  obtain ⟨a, ha, heq⟩ := hfifo e he
  rw [heq]
  exact plain a ha

section Loop
variable {inetNtop : Family → Octets → Octets} {host : ByteOrder} {p : Program}

/-- The iterations of the main loop, up to where it ends or fails. -/
private theorem programLoop_exact (inetNtop : Family → Octets → Octets) (host : ByteOrder) {its : List Iteration}
    (ht : TimersMatch p.daemon.vrrp) (clock : ∀ it ∈ its, it.input.ClockRuns) :
    ∃ hist rest q, its = hist.map Entry.input ++ rest ∧ Run (programStep inetNtop host) p hist q ∧
      (∀ e ∈ hist, testBit KEEP_GOING e.pre.daemon.reg = true) ∧
      (programLoop inetNtop host its p = .ok (q, outputs hist) ∧
          (rest ≠ [] → testBit KEEP_GOING q.daemon.reg = false) ∨
        ∃ it back fault, rest = it :: back ∧ testBit KEEP_GOING q.daemon.reg = true ∧
          programStep inetNtop host it q = .error fault ∧ programLoop inetNtop host its p = .error fault) := by
  induction its generalizing p with
  | nil => exact ⟨[], [], p, rfl, .nil, by simp, .inl ⟨rfl, fun hne => absurd rfl hne⟩⟩
  | cons it its ih =>
    by_cases hk : testBit KEEP_GOING p.daemon.reg = true
    · rw [programLoop, if_pos hk]
      cases hp : programProcess inetNtop host it p with
      | error fault =>
        have hs : programStep inetNtop host it p = .error fault := by
          rw [programStep, hp]
          rfl
        exact ⟨[], it :: its, p, rfl, .nil, by simp, .inr ⟨it, its, fault, rfl, hk, hs, rfl⟩⟩
      | ok r =>
        obtain ⟨ret, p₁, out⟩ := r
        have hs : programStep inetNtop host it p = .ok (p₁, out) := by
          rw [programStep, hp]
          rfl
        obtain rfl : ret = 0 := by
          rw [programProcess] at hp
          obtain ⟨⟨ret', d, out'⟩, hd, hp⟩ := bind_eq_ok.mp hp
          obtain ⟨hook, -, hp⟩ := bind_eq_ok.mp hp
          obtain ⟨rfl, -⟩ := Prod.mk.inj (Except.ok.inj hp)
          exact ht.no_enosys hd
        have ht₁ := ht.step (clock it (by simp)) (programStep_cases hs).1
        obtain ⟨hist, rest, q, rfl, hrun, hkeep, hend⟩ := ih ht₁ (fun i hi => clock i (by simp [hi]))
        refine ⟨⟨p, it, out, p₁⟩ :: hist, rest, q, rfl, .cons hs hrun, ?_, ?_⟩
        · intro e he
          rcases List.mem_cons.mp he with rfl | he
          · exact hk
          · exact hkeep e he
        · rcases hend with ⟨hl, hrest⟩ | ⟨it', back, fault, rfl, hk', hs', hl⟩
          · refine .inl ⟨?_, hrest⟩
            simp only [ok_bind, hl, outputs_cons]
            rfl
          · refine .inr ⟨it', back, fault, rfl, hk', hs', ?_⟩
            simp only [ok_bind, hl]
            rfl
    · refine ⟨[], it :: its, p, rfl, .nil, by simp, .inl ⟨?_, fun _ => by simpa using hk⟩⟩
      rw [programLoop, if_neg hk]
      rfl

/-- The register says behind each iteration whether it was told. -/
private theorem Launched.told_iff {c : Config} {fresh : Fresh} {p₀ : Program} {hist : List ProgramEntry}
    (hp₀ : Launched host c fresh p₀) (run : Run (programStep inetNtop host) p₀ hist p)
    (plain : ∀ e ∈ hist, Plain e.input.input.fifo) {e : ProgramEntry} (he : e ∈ hist)
    (hk : testBit KEEP_GOING e.pre.daemon.reg = true) :
    testBit KEEP_GOING e.post.daemon.reg = false ↔ ToldToStop e.input.input e.pre.daemon := by
  obtain ⟨before, hbefore, hsub, hstep⟩ := run.mem he
  have hreached := hp₀.history hbefore
  refine keepGoing_step hk (hreached.clean ?_) hreached.pointers.cmd_length (plain e he) (programStep_cases hstep).1
  intro b hb
  obtain ⟨a, ha, rfl⟩ := List.mem_map.mp hb
  exact plain a (hsub a ha)

end Loop

def labTermination : List Input :=
  [.quiet ⟨1, 0⟩, .quiet ⟨9, 0⟩, { Input.quiet ⟨9, 0⟩ with pselect := .interrupted [.usr1, .term] }, .quiet ⟨99, 0⟩]

def labTerminated : Program × List Output :=
  match programLoop (fun _ _ => labVip) .little (labTermination.map scriptless) labProgram with
  | .ok r => r
  | .error _ => (labProgram, [])

section Owner
variable {host : ByteOrder} {inp : Input} {d d' d₁ d₂ : Daemon} {event : VrrpEvent} {out : List Output}

/-- The owner takes no advertisement for valid. -/
private theorem owner_deaf (ho : d.vrrp.priority = 255) : vrrpListen host inp d ≠ .ok (.pkt, d₁) := by
  intro hl
  obtain ⟨a, m, -, -, hr⟩ := (vrrpListen_cases hl).of_pkt rfl
  exact (vrrpNetRecv_accepted hr).owner ho

/-- Whatever makes a backup the owner asks for a reload. -/
private theorem Heard.priority_kept (h : Heard host inp d event d₁) :
    d₁.vrrp.priority = d.vrrp.priority ∨
      (event = .signal ∨ event = .ctrlFifo) ∧ testBit UVRRPD_RELOAD d₁.reg = true := by
  cases h with
  | timer => exact .inl rfl
  | signal => exact .inl rfl
  | idle => exact .inl rfl
  | datagram => exact .inl rfl
  | command a m hp hc =>
    cases vrrpCtrlRead_cases hc with
    | refused => exact .inl rfl
    | stop => exact .inl rfl
    | reload => exact .inl rfl
    | status => exact .inl rfl
    | prio => exact .inr ⟨.inr rfl, by simp [UVRRPD_RELOAD]⟩

/-- The owner stays master until it reloads. -/
private theorem owner_stays {d : Daemon} (ho : d.vrrp.priority = 255) (hm : d.vrrp.state = .master)
    (hs : processStep host inp d = .ok (d', out)) : d'.vrrp.state = .master ∨
      d'.vrrp.state = .init ∧
        ∃ event d₁, vrrpListen host inp d = .ok (event, d₁) ∧ testBit UVRRPD_RELOAD d₁.reg = true := by
  cases processStep_cases hs with
  | startMaster => exact .inl rfl
  | startBackup hst => simp [hm] at hst
  | stuck => exact .inl hm
  | @serve hst event d₁ d₂ out hl hh =>
    have hm₁ : d₁.vrrp.state = .master := (vrrpListen_cases hl).state.trans hm
    cases hh with
    | ignore => exact .inl hm₁
    | takeover => exact .inl rfl
    | tick => exact .inl hm₁
    | restart _ _ hr => exact .inr ⟨rfl, event, d₁, hl, hr⟩
    | resign _ _ hr => exact .inr ⟨rfl, event, d₁, hl, hr⟩
    | shorten => exact absurd hl (owner_deaf ho)
    | follow => exact absurd hl (owner_deaf ho)
    | answer => exact absurd hl (owner_deaf ho)
    | yield => exact absurd hl (owner_deaf ho)

private theorem owner_starts {d : Daemon} (ho : d.vrrp.priority = 255) (hi : d.vrrp.state = .init)
    (hs : processStep host inp d = .ok (d', out)) : d'.vrrp.state = .master := by
  cases processStep_cases hs with
  | startMaster => rfl
  | startBackup _ hp => exact absurd ho hp
  | serve hst => simp [hi] at hst
  | stuck hst => simp [hi] at hst

def Owns (d : Daemon) : Prop := d.vrrp.priority = 255 → d.vrrp.state ≠ .backup

/-- A backup becomes the owner on its way through the initial state only. -/
theorem Owns.step (h : Owns d) (hs : processStep host inp d = .ok (d', out)) : Owns d' := by
  intro ho
  by_cases hd : d.vrrp.priority = 255 ∧ d.vrrp.state = .master
  · rcases owner_stays hd.1 hd.2 hs with hm | ⟨hi, -⟩
    · simp [hm]
    · simp [hi]
  cases processStep_cases hs with
  | startMaster => exact nofun
  | startBackup hst hp => exact absurd ho hp
  | stuck hst => simp [hst]
  | @serve hst event d₁ d₂ out hl hh =>
    rcases (vrrpListen_cases hl).priority_kept with hp | ⟨he, hr⟩
    · have hown : d.vrrp.priority = 255 := hp.symm.trans (hh.priority.symm.trans ho)
      exact absurd ⟨hown, hst.resolve_left (h hown)⟩ hd
    · rw [Daemon.dumped_vrrp, hh.reload he hr]
      exact nofun

end Owner

/-- In every state a daemon reaches, whatever it was sent and told, priority 255 is
never in BACKUP. At that priority no advertisement is taken for valid, the initial
state leads to MASTER, and MASTER is left by a reload only. -/
theorem owner_never_backup {host : ByteOrder} {c : Config} {fresh : Fresh} {h : List (Entry Daemon Input Output)}
    {d : Daemon} (run : History host c fresh h d) :
    (d.vrrp.priority = 255 → d.vrrp.state ≠ .backup) ∧
    ∀ e ∈ h, e.pre.vrrp.priority = 255 →
      (∀ d₁, vrrpListen host e.input e.pre ≠ .ok (.pkt, d₁)) ∧
      (e.pre.vrrp.state = .init → e.post.vrrp.state = .master) ∧
      (e.pre.vrrp.state = .master → e.post.vrrp.state ≠ .master → e.post.vrrp.state = .init ∧
        ∃ event d₁, vrrpListen host e.input e.pre = .ok (event, d₁) ∧ testBit UVRRPD_RELOAD d₁.reg = true) := by
  constructor
  · obtain ⟨start, hboot, hrun⟩ := run
    refine Run.holds Owns hrun ?_ (fun _ _ _ _ ht hs => ht.step hs)
    rw [Owns, (boot_spec hboot).vrrp]
    exact fun _ => nofun
  · intro e he ho
    obtain ⟨-, hs⟩ := run.mem he
    refine ⟨fun d₁ => owner_deaf ho, fun hi => owner_starts ho hi hs, ?_⟩
    intro hm hne
    exact (owner_stays ho hm hs).resolve_left hne

def owner : Config := { lab with priority := 255 }

/-- It starts and is told to reload. -/
theorem owner_never_backup_lab :
    (owner.runOn [.quiet ⟨1, 0⟩, { Input.quiet ⟨1, 0⟩ with pselect := .interrupted [.hup] }, .quiet ⟨2, 0⟩]).1.map
      (fun e => e.post.vrrp.state) = [.master, .init, .master] ∧
    (owner.runOn [.quiet ⟨1, 0⟩, { Input.quiet ⟨1, 0⟩ with pselect := .interrupted [.hup] },
      .quiet ⟨2, 0⟩]).2.vrrp.state ≠ .backup :=
  ⟨by decide +kernel, (owner_never_backup (history_runOn (.inl rfl) _)).1 (by decide +kernel)⟩

end Uvrrpd
