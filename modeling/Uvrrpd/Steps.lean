import Uvrrpd.Register
import Uvrrpd.Reception

/-! What one call of `vrrp_process` can do: what `vrrp_listen` can report, and what
the handlers then do with the event. Every later invariant is a case analysis
over these relations. -/
namespace Uvrrpd
open Library.Memory (bind_eq_ok)
open Library.Runs

def advs (out : List Output) : List Frame :=
  out.filterMap (fun | .adv frame => some frame | _ => none)

def hooks (out : List Output) : List VrrpState :=
  out.filterMap (fun | .exec state => some state | _ => none)

@[simp] theorem advs_nil : advs [] = [] := rfl

@[simp] theorem hooks_nil : hooks [] = [] := rfl

@[simp] theorem advs_exec_cons (state : VrrpState) (out : List Output) :
    advs (.exec state :: out) = advs out := rfl

@[simp] theorem hooks_exec_cons (state : VrrpState) (out : List Output) :
    hooks (.exec state :: out) = state :: hooks out := rfl

@[simp] theorem advs_adv_cons (frame : Frame) (out : List Output) :
    advs (.adv frame :: out) = frame :: advs out := rfl

@[simp] theorem hooks_adv_cons (frame : Frame) (out : List Output) :
    hooks (.adv frame :: out) = hooks out := rfl

@[simp] theorem advs_topologySend (vnet : VrrpNet) : advs (topologySend vnet) = [] := by
  simp [advs, topologySend]

@[simp] theorem hooks_topologySend (vnet : VrrpNet) : hooks (topologySend vnet) = [] := by
  simp [hooks, topologySend]

@[simp] theorem advs_armed (now : Option Timespec) (id : TimerId) (p : Int × Int) :
    advs (armed now id p) = [] := by
  cases now <;> rfl

@[simp] theorem hooks_armed (now : Option Timespec) (id : TimerId) (p : Int × Int) :
    hooks (armed now id p) = [] := by
  cases now <;> rfl

@[simp] theorem advs_append (xs ys : List Output) : advs (xs ++ ys) = advs xs ++ advs ys :=
  List.filterMap_append

@[simp] theorem hooks_append (xs ys : List Output) : hooks (xs ++ ys) = hooks xs ++ hooks ys :=
  List.filterMap_append

theorem mem_advs {frame : Frame} {out : List Output} : frame ∈ advs out ↔ .adv frame ∈ out := by
  rw [advs]
  rw [List.mem_filterMap]
  constructor
  · rintro ⟨o, ho, he⟩
    cases o <;> simp_all
  · intro h
    exact ⟨_, h, rfl⟩

@[simp] theorem advs_gotoMaster (now : Option Timespec) (d : Daemon) :
    advs (vrrpStateGotoMaster now d).2 = [d.vnet.adv] := by
  simp only [vrrpStateGotoMaster, advs_append, advs_topologySend, advs_armed]
  rfl

@[simp] theorem hooks_gotoMaster (now : Option Timespec) (d : Daemon) :
    hooks (vrrpStateGotoMaster now d).2 = [.master] := by
  simp only [vrrpStateGotoMaster, hooks_append, hooks_topologySend, hooks_armed]
  rfl

@[simp] theorem advs_gotoBackup (host : ByteOrder) (now : Option Timespec) (d : Daemon) :
    advs (vrrpStateGotoBackup host now d).2 = [] := by
  simp only [vrrpStateGotoBackup, advs_append, advs_armed, List.append_nil]
  split <;> rfl

@[simp] theorem hooks_gotoBackup (host : ByteOrder) (now : Option Timespec) (d : Daemon) :
    hooks (vrrpStateGotoBackup host now d).2 = if d.vrrp.state ≠ .init then [.backup] else [] := by
  simp only [vrrpStateGotoBackup, hooks_append, hooks_armed, List.append_nil]
  split <;> rfl

@[simp] theorem advs_advertise (now : Option Timespec) (d : Daemon) :
    advs (advertise now d).2 = [d.vnet.adv] := by
  cases now <;> rfl

@[simp] theorem hooks_advertise (now : Option Timespec) (d : Daemon) :
    hooks (advertise now d).2 = [] := by
  cases now <;> rfl

/-- The wait computes remaining times and nothing else. -/
def Daemon.waited (d : Daemon) (adv masterdown : Timespec) : Daemon :=
  { d with vrrp := { d.vrrp with
    advTimer := { d.vrrp.advTimer with delta := adv }
    masterdownTimer := { d.vrrp.masterdownTimer with delta := masterdown } } }

theorem timer_setTimer (v : Vrrp) (t : VrrpTimer) (id : TimerId) :
    (v.setTimer t id).timer id = t := by
  cases id <;> rfl

theorem waited_setTimer (d : Daemon) (id : TimerId) (t : VrrpTimer)
    (h : t.ts = (d.vrrp.timer id).ts) :
    ∃ a m, d.vrrp.setTimer t id = (d.waited a m).vrrp := by
  obtain ⟨ts, delta⟩ := t
  cases id with
  | adv =>
    obtain rfl : ts = d.vrrp.advTimer.ts := h
    exact ⟨delta, d.vrrp.masterdownTimer.delta, rfl⟩
  | masterdown =>
    obtain rfl : ts = d.vrrp.masterdownTimer.ts := h
    exact ⟨d.vrrp.advTimer.delta, delta, rfl⟩

/-- What a control message can do: at most the priority, the packet that announces
it, and the register change with the command buffer. -/
inductive Commanded (host : ByteOrder) (vrrp : Vrrp) (vnet : VrrpNet) (reg : Reg) : CtrlEffect → Prop
  | refused (ctrl : VrrpCtrl) : Commanded host vrrp vnet reg ⟨.invalid, { vrrp with ctrl := ctrl }, vnet, reg⟩
  | stop (ctrl : VrrpCtrl) : Commanded host vrrp vnet reg
      ⟨.ctrlFifo, { vrrp with ctrl := ctrl }, vnet, clearBit KEEP_GOING (setBit UVRRPD_RELOAD reg)⟩
  | reload (ctrl : VrrpCtrl) : Commanded host vrrp vnet reg
      ⟨.ctrlFifo, { vrrp with ctrl := ctrl }, vnet, setBit UVRRPD_RELOAD reg⟩
  | status (ctrl : VrrpCtrl) : Commanded host vrrp vnet reg
      ⟨.ctrlFifo, { vrrp with ctrl := ctrl }, vnet, setBit UVRRPD_DUMP reg⟩
  | prio (ctrl : VrrpCtrl) {prio : UInt8} {vnet' : VrrpNet} (hne : vrrp.priority ≠ prio)
      (hset : vrrpAdvSetPriority host vnet prio = .ok vnet') : Commanded host vrrp vnet reg
      ⟨.ctrlFifo, { vrrp with ctrl := ctrl, priority := prio }, vnet', setBit UVRRPD_RELOAD reg⟩

/-- The buffer a command was read into does not matter. -/
private theorem Commanded.of_ctrl {host : ByteOrder} {vrrp : Vrrp} {vnet : VrrpNet} {reg : Reg}
    {r : CtrlEffect} {ctrl : VrrpCtrl} (h : Commanded host { vrrp with ctrl := ctrl } vnet reg r) :
    Commanded host vrrp vnet reg r := by
  cases h with
  | refused => exact .refused _
  | stop => exact .stop _
  | reload => exact .reload _
  | status => exact .status _
  | prio _ hne hset => exact .prio _ hne hset

private theorem ctrlPrio_cases {host : ByteOrder} {nword : Nat} {vrrp : Vrrp} {vnet : VrrpNet}
    {reg : Reg} {r : CtrlEffect} (h : ctrlPrio host nword vrrp vnet reg = .ok r) :
    Commanded host vrrp vnet reg r ∧ r.vrrp.ctrl = vrrpCtrlCmdFlush vrrp.ctrl := by
  rw [ctrlPrio] at h
  split at h
  · obtain rfl := Except.ok.inj h
    exact ⟨.refused _, rfl⟩
  · obtain ⟨arg, -, h⟩ := bind_eq_ok.mp h
    split at h
    · obtain rfl := Except.ok.inj h
      exact ⟨.refused _, rfl⟩
    · simp only at h
      split at h
      · next hne =>
        obtain ⟨vnet', hset, h⟩ := bind_eq_ok.mp h
        obtain rfl := Except.ok.inj h
        exact ⟨.prio _ hne hset, rfl⟩
      · obtain rfl := Except.ok.inj h
        exact ⟨.reload _, rfl⟩

/-- Whatever has a word flushes the buffer. -/
theorem vrrpCtrlCmd_cases {host : ByteOrder} {vrrp : Vrrp} {vnet : VrrpNet} {reg : Reg}
    {r : CtrlEffect} (h : vrrpCtrlCmd host vrrp vnet reg = .ok r) :
    Commanded host vrrp vnet reg r ∧ r.vrrp.ctrl = if (splitCmd vrrp.ctrl).1 = 0 then (splitCmd vrrp.ctrl).2
      else vrrpCtrlCmdFlush (splitCmd vrrp.ctrl).2 := by
  rw [vrrpCtrlCmd] at h
  generalize splitCmd vrrp.ctrl = parsed at h ⊢
  obtain ⟨nword, ctrl⟩ := parsed
  simp only at h ⊢
  split at h
  · next hn =>
    obtain rfl := Except.ok.inj h
    exact ⟨.refused _, (if_pos hn).symm⟩
  · next hn =>
    rw [if_neg hn]
    obtain ⟨cmd, -, h⟩ := bind_eq_ok.mp h
    split at h
    · obtain rfl := Except.ok.inj h
      exact ⟨.stop _, rfl⟩
    split at h
    · obtain rfl := Except.ok.inj h
      exact ⟨.reload _, rfl⟩
    split at h
    · obtain rfl := Except.ok.inj h
      exact ⟨.status _, rfl⟩
    split at h
    · exact ⟨(ctrlPrio_cases h).1.of_ctrl, (ctrlPrio_cases h).2⟩
    · obtain rfl := Except.ok.inj h
      exact ⟨.refused _, rfl⟩

theorem vrrpCtrlRead_cases {host : ByteOrder} {written : Octets} {vrrp : Vrrp} {vnet : VrrpNet}
    {reg : Reg} {r : CtrlEffect} (h : vrrpCtrlRead host written vrrp vnet reg = .ok r) :
    Commanded host vrrp vnet reg r := by
  rw [vrrpCtrlRead] at h
  simp only at h
  split at h
  · obtain rfl := Except.ok.inj h
    exact .refused vrrp.ctrl
  · exact (vrrpCtrlCmd_cases h).1.of_ctrl

/-- What ends the wait of `vrrp_listen`: the answer of `pselect`, unless one of the tests
around it finds the timer expired. -/
def waitEnd (inp : Input) (timer : VrrpTimer) : Option Pselect :=
  let (expired, t) := vrrpTimerUpdate inp.clockUpdate timer
  if expired then none
  else
    match inp.pselect with
    | .ready socket fifo => if (vrrpTimerIsExpired inp.clockExpired t).1 then none else some (.ready socket fifo)
    | answer => some answer

def afterWait (host : ByteOrder) (inp : Input) (d : Daemon) : Option Pselect → Except Fault (VrrpEvent × Daemon)
  | none => .ok (.timer, d)
  | some (.interrupted signals) => .ok (.signal, { d with reg := signals.foldl signalHandler d.reg })
  | some .failed => .ok (.invalid, d)
  | some (.ready socket fifo) => vrrpListenReady host inp socket fifo d

theorem waitEnd_eq_some {inp : Input} {timer : VrrpTimer} {answer : Pselect}
    (h : waitEnd inp timer = some answer) : inp.pselect = answer := by
  rw [waitEnd] at h
  simp only at h
  split at h
  · cases h
  split at h
  · next hp =>
    split at h
    · cases h
    · rw [hp]
      exact Option.some.inj h
  · exact Option.some.inj h

theorem vrrpListen_waits (host : ByteOrder) (inp : Input) {d : Daemon} {id : TimerId}
    (hid : runningTimer d.vrrp = some id) :
    ∃ a m, vrrpListen host inp d = afterWait host inp (d.waited a m) (waitEnd inp (d.vrrp.timer id)) := by
  obtain ⟨a, m, hw⟩ := waited_setTimer d id _ (vrrpTimerUpdate_ts inp.clockUpdate (d.vrrp.timer id))
  have htimer : (d.waited a m).vrrp.timer id = (vrrpTimerUpdate inp.clockUpdate (d.vrrp.timer id)).2 := by
    rw [← hw, timer_setTimer]
  rw [vrrpListen, hid, waitEnd]
  simp only [hw]
  split
  · exact ⟨a, m, rfl⟩
  cases hp : inp.pselect with
  | interrupted signals => exact ⟨a, m, rfl⟩
  | failed => exact ⟨a, m, rfl⟩
  | ready socket fifo =>
    obtain ⟨b, n, hw'⟩ := waited_setTimer (d.waited a m) id _
      (vrrpTimerIsExpired_ts inp.clockExpired ((d.waited a m).vrrp.timer id))
    simp only [hw', ← htimer]
    split <;> exact ⟨b, n, rfl⟩

/-- The events of `vrrp_listen`, each with the daemon it leaves. -/
inductive Heard (host : ByteOrder) (inp : Input) (d : Daemon) : VrrpEvent → Daemon → Prop
  | timer (a m : Timespec) : Heard host inp d .timer (d.waited a m)
  | signal (a m : Timespec) {signals : List Signal} (hp : inp.pselect = .interrupted signals) :
      Heard host inp d .signal { d.waited a m with reg := signals.foldl signalHandler d.reg }
  | idle (a m : Timespec) : Heard host inp d .invalid (d.waited a m)
  | datagram (a m : Timespec) {fifo : Bool} {event : VrrpEvent} {vnet : VrrpNet} (buf : Octets)
      (hp : inp.pselect = .ready true fifo)
      (hr : vrrpNetRecv host d.vnet (d.waited a m).vrrp inp.sock (inp.stack d.buf).toList = .ok (event, vnet)) :
      Heard host inp d event { d.waited a m with vnet := vnet, buf := buf }
  | command (a m : Timespec) {r : CtrlEffect} (hp : inp.pselect = .ready false true)
      (hc : vrrpCtrlRead host inp.fifo (d.waited a m).vrrp d.vnet d.reg = .ok r) :
      Heard host inp d r.event { d with vrrp := r.vrrp, vnet := r.vnet, reg := r.reg }

private theorem vrrpListenReady_cases {host : ByteOrder} {inp : Input} {socket fifo : Bool}
    {d d' : Daemon} {a m : Timespec} {event : VrrpEvent} (hp : inp.pselect = .ready socket fifo)
    (h : vrrpListenReady host inp socket fifo (d.waited a m) = .ok (event, d')) :
    Heard host inp d event d' := by
  rw [vrrpListenReady] at h
  cases socket with
  | true =>
    obtain ⟨⟨e, vnet, buf⟩, hr, h⟩ := bind_eq_ok.mp (show _ >>= _ = _ from h)
    obtain ⟨rfl, rfl⟩ : e = event ∧ _ = d' := by simpa using h
    exact .datagram a m buf hp (vrrpNetRecv_of_buf hr)
  | false =>
    cases fifo with
    | true =>
      obtain ⟨r, hc, h⟩ := bind_eq_ok.mp (show _ >>= _ = _ from h)
      obtain ⟨rfl, rfl⟩ : r.event = event ∧ _ = d' := by simpa using h
      exact .command a m hp hc
    | false =>
      obtain ⟨rfl, rfl⟩ : _ = event ∧ _ = d' := by simpa using h
      exact .idle a m

theorem vrrpListen_waited {host : ByteOrder} {inp : Input} {d : Daemon} {r : VrrpEvent × Daemon}
    (h : vrrpListen host inp d = .ok r) :
    ∃ id a m, runningTimer d.vrrp = some id ∧
      afterWait host inp (d.waited a m) (waitEnd inp (d.vrrp.timer id)) = .ok r := by
  cases hid : runningTimer d.vrrp with
  | none =>
    rw [vrrpListen, hid] at h
    cases h
  | some id =>
    obtain ⟨a, m, heq⟩ := vrrpListen_waits host inp hid
    exact ⟨id, a, m, rfl, heq.symm.trans h⟩

theorem vrrpListen_cases {host : ByteOrder} {inp : Input} {d d' : Daemon} {event : VrrpEvent}
    (h : vrrpListen host inp d = .ok (event, d')) : Heard host inp d event d' := by
  obtain ⟨id, a, m, -, h⟩ := vrrpListen_waited h
  cases hend : waitEnd inp (d.vrrp.timer id) with
  | none =>
    rw [hend] at h
    obtain ⟨rfl, rfl⟩ := Prod.mk.inj (Except.ok.inj h)
    exact .timer a m
  | some answer =>
    rw [hend] at h
    have hp := waitEnd_eq_some hend
    cases answer with
    | interrupted signals =>
      obtain ⟨rfl, rfl⟩ := Prod.mk.inj (Except.ok.inj h)
      exact .signal a m hp
    | failed =>
      obtain ⟨rfl, rfl⟩ := Prod.mk.inj (Except.ok.inj h)
      exact .idle a m
    | ready socket fifo => exact vrrpListenReady_cases hp h

/-- Listening does not change the state of the protocol. -/
theorem Heard.state {host : ByteOrder} {inp : Input} {d d' : Daemon} {event : VrrpEvent}
    (h : Heard host inp d event d') : d'.vrrp.state = d.vrrp.state := by
  cases h with
  | timer => rfl
  | signal => rfl
  | idle => rfl
  | datagram => rfl
  | command a m hp hc => cases vrrpCtrlRead_cases hc <;> rfl

/-- Only a command changes the priority. -/
theorem Heard.priority {host : ByteOrder} {inp : Input} {d d' : Daemon} {event : VrrpEvent}
    (h : Heard host inp d event d') (he : event ≠ .ctrlFifo) : d'.vrrp.priority = d.vrrp.priority := by
  cases h with
  | timer => rfl
  | signal => rfl
  | idle => rfl
  | datagram => rfl
  | command a m hp hc =>
    cases vrrpCtrlRead_cases hc with
    | refused => rfl
    | stop => rfl
    | reload => rfl
    | status => rfl
    | prio => exact absurd rfl he

/-- The event `PKT` comes from a datagram that reception has accepted. -/
theorem Heard.of_pkt {host : ByteOrder} {inp : Input} {d d' : Daemon} {event : VrrpEvent}
    (h : Heard host inp d event d') (he : event = .pkt) :
    ∃ a m, d'.vrrp = (d.waited a m).vrrp ∧ d'.reg = d.reg ∧
      vrrpNetRecv host d.vnet (d.waited a m).vrrp inp.sock (inp.stack d.buf).toList = .ok (.pkt, d'.vnet) := by
  cases h with
  | timer => cases he
  | signal => cases he
  | idle => cases he
  | datagram a m buf hp hr => exact ⟨a, m, rfl, rfl, he ▸ hr⟩
  | command a m hp hc => cases vrrpCtrlRead_cases hc <;> cases he

def Beaten (d : Daemon) : Prop :=
  vrrpAdvGetPriority d.vnet > d.vrrp.priority ∨
    vrrpAdvGetPriority d.vnet = d.vrrp.priority ∧ vrrpAdvAddrCmp d.vnet > 0

instance (d : Daemon) : Decidable (Beaten d) := inferInstanceAs (Decidable (_ ∨ _ ∧ _))

def Follows (d : Daemon) : Prop :=
  d.vrrp.preempt = false ∨ vrrpAdvGetPriority d.vnet ≥ d.vrrp.priority

instance (d : Daemon) : Decidable (Follows d) := inferInstanceAs (Decidable (_ ∨ _))

/-- The interval of the followed master, learnt in version 3 only. -/
def Daemon.learnt (host : ByteOrder) (d : Daemon) : Vrrp :=
  if d.vrrp.version = .rfc5798 then { d.vrrp with masterAdvInt := vrrpAdvGetAdvint host d.vnet }
  else d.vrrp

@[simp] theorem Daemon.learnt_state (host : ByteOrder) (d : Daemon) :
    (d.learnt host).state = d.vrrp.state := by
  rw [Daemon.learnt]
  split <;> rfl

@[simp] theorem Daemon.learnt_priority (host : ByteOrder) (d : Daemon) :
    (d.learnt host).priority = d.vrrp.priority := by
  rw [Daemon.learnt]
  split <;> rfl

@[simp] theorem Daemon.learnt_advTimer (host : ByteOrder) (d : Daemon) :
    (d.learnt host).advTimer = d.vrrp.advTimer := by
  rw [Daemon.learnt]
  split <;> rfl

def Ignores (d : Daemon) : VrrpEvent → Prop
  | .timer => False
  | .signal => testBit UVRRPD_RELOAD d.reg = false
  | .ctrlFifo => testBit UVRRPD_RELOAD d.reg = false
  | .pkt => vrrpAdvGetVersion d.vnet = 0 ∨ vrrpAdvGetPriority d.vnet ≠ 0 ∧
      (d.vrrp.state = .backup ∧ ¬ Follows d ∨ d.vrrp.state = .master ∧ ¬ Beaten d)
  | .vridMismatch => True
  | .invalid => True

inductive Handled (host : ByteOrder) (now : Option Timespec) (d : Daemon) :
    VrrpEvent → Daemon → List Output → Prop
  | ignore {event : VrrpEvent} (hi : Ignores d event) : Handled host now d event d []
  | takeover (hs : d.vrrp.state = .backup) : Handled host now d .timer
      (vrrpStateGotoMaster now d).1 (vrrpStateGotoMaster now d).2
  | shorten (hs : d.vrrp.state = .backup) (hp : vrrpAdvGetPriority d.vnet = 0) :
      Handled host now d .pkt { d with vrrp := arm now .masterdown (skewDelays d.vrrp) d.vrrp }
        (armed now .masterdown (skewDelays d.vrrp))
  | follow (hs : d.vrrp.state = .backup) (hp : vrrpAdvGetPriority d.vnet ≠ 0) (hf : Follows d) :
      Handled host now d .pkt
        { d with vrrp := arm now .masterdown (masterdownDelays (d.learnt host)) (d.learnt host) }
        (armed now .masterdown (masterdownDelays (d.learnt host)))
  | restart {event : VrrpEvent} (hs : d.vrrp.state = .backup) (he : event = .signal ∨ event = .ctrlFifo)
      (hr : testBit UVRRPD_RELOAD d.reg = true) : Handled host now d event
        { d with
          reg := clearBit UVRRPD_RELOAD d.reg
          vrrp := { d.vrrp with masterdownTimer := vrrpTimerClear, state := .init } } []
  | tick (hs : d.vrrp.state = .master) : Handled host now d .timer (advertise now d).1 (advertise now d).2
  | answer (hs : d.vrrp.state = .master) (hp : vrrpAdvGetPriority d.vnet = 0) :
      Handled host now d .pkt (advertise now d).1 (advertise now d).2
  | yield (hs : d.vrrp.state = .master) (hp : vrrpAdvGetPriority d.vnet ≠ 0) (hb : Beaten d) :
      Handled host now d .pkt (vrrpStateGotoBackup host now d).1 (vrrpStateGotoBackup host now d).2
  | resign {event : VrrpEvent} {frame : Frame} {vnet : VrrpNet} (hs : d.vrrp.state = .master)
      (he : event = .signal ∨ event = .ctrlFifo) (hr : testBit UVRRPD_RELOAD d.reg = true)
      (hz : vrrpAdvSendZero host d.vnet = .ok (frame, vnet)) : Handled host now d event
        { d with
          vrrp := { d.vrrp with advTimer := vrrpTimerClear, state := .init }
          vnet := vnet
          reg := clearBit UVRRPD_RELOAD d.reg }
        [.adv frame, .exec .backup]

theorem Handled.priority {host : ByteOrder} {now : Option Timespec} {d d' : Daemon} {event : VrrpEvent}
    {out : List Output} (h : Handled host now d event d' out) : d'.vrrp.priority = d.vrrp.priority := by
  cases h with
  | follow => exact d.learnt_priority host
  | _ => rfl

private theorem reg_clear {d : Daemon} (h : ¬ testBit UVRRPD_RELOAD d.reg = true) :
    { d with reg := clearBit UVRRPD_RELOAD d.reg } = d := by
  rw [clearBit_of_clear (by decide) (by simpa using h)]

private theorem backupReload_cases {host : ByteOrder} {now : Option Timespec} {d : Daemon}
    {event : VrrpEvent} (hs : d.vrrp.state = .backup) (he : event = .signal ∨ event = .ctrlFifo) :
    Handled host now d event (backupReload d) [] := by
  rw [backupReload]
  simp only [testAndClearBit_snd, testAndClearBit_fst _ _ (show UVRRPD_RELOAD < 64 by decide)]
  split
  · next hr => exact .restart hs he hr
  · next hr =>
    rw [reg_clear hr]
    exact .ignore (by rcases he with rfl | rfl <;> simpa [Ignores] using hr)

private theorem masterReload_cases {host : ByteOrder} {now : Option Timespec} {d d' : Daemon}
    {event : VrrpEvent} {out : List Output} (hs : d.vrrp.state = .master)
    (he : event = .signal ∨ event = .ctrlFifo) (h : masterReload host d = .ok (d', out)) :
    Handled host now d event d' out := by
  rw [masterReload] at h
  simp only [testAndClearBit_snd, testAndClearBit_fst _ _ (show UVRRPD_RELOAD < 64 by decide)] at h
  split at h
  · next hr =>
    obtain ⟨⟨frame, vnet⟩, hz, h⟩ := bind_eq_ok.mp h
    obtain ⟨rfl, rfl⟩ : _ = d' ∧ _ = out := by simpa using h
    exact .resign hs he hr hz
  · next hr =>
    obtain ⟨rfl, rfl⟩ := Prod.mk.inj (Except.ok.inj h)
    rw [reg_clear hr]
    exact .ignore (by rcases he with rfl | rfl <;> simpa [Ignores] using hr)

private theorem backupPkt_cases {host : ByteOrder} {now : Option Timespec} {d : Daemon}
    (hs : d.vrrp.state = .backup) :
    Handled host now d .pkt (backupPkt host now d).1 (backupPkt host now d).2 := by
  rw [backupPkt]
  split
  · next hv => exact .ignore (.inl hv)
  split
  · next hp => exact .shorten hs hp
  next hp =>
  split
  · next hf => exact .follow hs hp hf
  · next hf => exact .ignore (.inr ⟨hp, .inl ⟨hs, hf⟩⟩)

private theorem masterPkt_cases (host : ByteOrder) (now : Option Timespec) {d : Daemon}
    (hs : d.vrrp.state = .master) :
    Handled host now d .pkt (masterPkt host now d).1 (masterPkt host now d).2 := by
  rw [masterPkt]
  split
  · next hv => exact .ignore (.inl hv)
  split
  · next hp => exact .answer hs hp
  next hp =>
  split
  · next hb => exact .yield hs hp (.inl hb)
  next hgt =>
  split
  · next hb => exact .yield hs hp (.inr hb)
  · next hb => exact .ignore (.inr ⟨hp, .inr ⟨hs, not_or.mpr ⟨hgt, hb⟩⟩⟩)

private theorem backupEvent_cases (host : ByteOrder) (now : Option Timespec) {d : Daemon} (event : VrrpEvent)
    (hs : d.vrrp.state = .backup) :
    Handled host now d event (backupEvent host now d event).1 (backupEvent host now d event).2 := by
  cases event with
  | timer => exact .takeover hs
  | pkt => exact backupPkt_cases hs
  | signal => exact backupReload_cases hs (.inl rfl)
  | ctrlFifo => exact backupReload_cases hs (.inr rfl)
  | vridMismatch => exact .ignore trivial
  | invalid => exact .ignore trivial

private theorem masterEvent_cases {host : ByteOrder} {now : Option Timespec} {d d' : Daemon}
    {event : VrrpEvent} {out : List Output} (hs : d.vrrp.state = .master)
    (h : masterEvent host now d event = .ok (d', out)) : Handled host now d event d' out := by
  cases event with
  | timer =>
    obtain ⟨rfl, rfl⟩ := Prod.mk.inj (Except.ok.inj h)
    exact .tick hs
  | pkt =>
    have hc := masterPkt_cases host now hs
    rwa [Except.ok.inj h] at hc
  | signal => exact masterReload_cases hs (.inl rfl) h
  | ctrlFifo => exact masterReload_cases hs (.inr rfl) h
  | vridMismatch =>
    obtain ⟨rfl, rfl⟩ := Prod.mk.inj (Except.ok.inj h)
    exact .ignore trivial
  | invalid =>
    obtain ⟨rfl, rfl⟩ := Prod.mk.inj (Except.ok.inj h)
    exact .ignore trivial

/-- A pending reload request ends in the initial state. -/
theorem Handled.reload {host : ByteOrder} {now : Option Timespec} {d d' : Daemon}
    {event : VrrpEvent} {out : List Output} (h : Handled host now d event d' out)
    (he : event = .signal ∨ event = .ctrlFifo) (hr : testBit UVRRPD_RELOAD d.reg = true) :
    d'.vrrp.state = .init := by
  cases h with
  | ignore hi => rcases he with rfl | rfl <;> simp [Ignores, hr] at hi
  | restart => rfl
  | resign => rfl
  | _ => simp at he

def Daemon.dumped (d : Daemon) : Daemon := { d with reg := clearBit UVRRPD_DUMP d.reg }

@[simp] theorem Daemon.dumped_vrrp (d : Daemon) : d.dumped.vrrp = d.vrrp := rfl

@[simp] theorem Daemon.dumped_vnet (d : Daemon) : d.dumped.vnet = d.vnet := rfl

def Daemon.primed (d : Daemon) : Daemon :=
  { d with vrrp := { d.vrrp with masterAdvInt := d.vrrp.advInt } }

@[simp] theorem Daemon.primed_vnet (d : Daemon) : d.primed.vnet = d.vnet := rfl

inductive Stepped (host : ByteOrder) (inp : Input) (d : Daemon) : Daemon → List Output → Prop
  | startMaster (hs : d.vrrp.state = .init) (hp : d.vrrp.priority = 255) :
      Stepped host inp d (vrrpStateGotoMaster inp.clockSet d.primed).1.dumped
        (.exec .init :: (vrrpStateGotoMaster inp.clockSet d.primed).2)
  | startBackup (hs : d.vrrp.state = .init) (hp : d.vrrp.priority ≠ 255) :
      Stepped host inp d (vrrpStateGotoBackup host inp.clockSet d.primed).1.dumped
        (.exec .init :: (vrrpStateGotoBackup host inp.clockSet d.primed).2)
  | serve (hs : d.vrrp.state = .backup ∨ d.vrrp.state = .master) {event : VrrpEvent} {d₁ d₂ : Daemon}
      {out : List Output} (hl : vrrpListen host inp d = .ok (event, d₁))
      (hh : Handled host inp.clockSet d₁ event d₂ out) : Stepped host inp d d₂.dumped out
  | stuck {value : Nat} (hs : d.vrrp.state = .other value) : Stepped host inp d d []

theorem processStep_cases {host : ByteOrder} {inp : Input} {d d' : Daemon} {out : List Output}
    (h : processStep host inp d = .ok (d', out)) : Stepped host inp d d' out := by
  rw [processStep, vrrpProcess, vrrpDispatch] at h
  cases hs : d.vrrp.state with
  | init =>
    rw [hs] at h
    simp only [vrrpStateInit] at h
    by_cases hp : d.vrrp.priority = 255
    · rw [if_pos hp] at h
      obtain ⟨rfl, rfl⟩ := Prod.mk.inj (Except.ok.inj h)
      exact .startMaster hs hp
    · rw [if_neg hp] at h
      obtain ⟨rfl, rfl⟩ := Prod.mk.inj (Except.ok.inj h)
      exact .startBackup hs hp
  | backup =>
    simp only [hs, vrrpStateBackup] at h
    obtain ⟨⟨ret, d₃, out'⟩, hv, h⟩ := bind_eq_ok.mp h
    obtain ⟨rfl, rfl⟩ : d₃ = d' ∧ out' = out := by simpa using h
    obtain ⟨⟨d₂, out''⟩, hstep, hv⟩ := bind_eq_ok.mp hv
    obtain ⟨⟨event, d₁⟩, hl, hstep⟩ := bind_eq_ok.mp hstep
    obtain ⟨-, rfl, rfl⟩ : 0 = ret ∧ _ = d₃ ∧ out'' = out' := by simpa using hv
    have hs₁ : d₁.vrrp.state = .backup := (vrrpListen_cases hl).state.trans hs
    have hh := backupEvent_cases host inp.clockSet event hs₁
    rw [Except.ok.inj hstep] at hh
    exact .serve (.inl hs) hl hh
  | master =>
    simp only [hs, vrrpStateMaster] at h
    obtain ⟨⟨ret, d₃, out'⟩, hv, h⟩ := bind_eq_ok.mp h
    obtain ⟨rfl, rfl⟩ : d₃ = d' ∧ out' = out := by simpa using h
    obtain ⟨⟨d₂, out''⟩, hstep, hv⟩ := bind_eq_ok.mp hv
    obtain ⟨⟨event, d₁⟩, hl, hstep⟩ := bind_eq_ok.mp hstep
    obtain ⟨-, rfl, rfl⟩ : 0 = ret ∧ _ = d₃ ∧ out'' = out' := by simpa using hv
    exact .serve (.inr hs) hl (masterEvent_cases ((vrrpListen_cases hl).state.trans hs) hstep)
  | other value =>
    rw [hs] at h
    obtain ⟨rfl, rfl⟩ := Prod.mk.inj (Except.ok.inj h)
    exact .stuck hs

/-- A step whose wait is known is what the handler makes of the event. -/
theorem processStep_listened {host : ByteOrder} {inp : Input} {d d' d₁ : Daemon} {event : VrrpEvent}
    {out : List Output} (h : processStep host inp d = .ok (d', out))
    (hs : d.vrrp.state = .backup ∨ d.vrrp.state = .master)
    (hl : vrrpListen host inp d = .ok (event, d₁)) :
    ∃ d₂, d' = d₂.dumped ∧ Handled host inp.clockSet d₁ event d₂ out := by
  cases processStep_cases h with
  | startMaster hst => simp [hst] at hs
  | startBackup hst => simp [hst] at hs
  | stuck hst => simp [hst] at hs
  | @serve _ _ _ d₂ _ hl' hh =>
    obtain ⟨rfl, rfl⟩ := Prod.mk.inj (Except.ok.inj (hl.symm.trans hl'))
    exact ⟨d₂, rfl, hh⟩

/-- The main loop is a run of steps, each made while the loop is to go on. -/
theorem mainLoop_run {host : ByteOrder} {inputs : List Input} {d d' : Daemon} {out : List Output}
    (h : mainLoop host inputs d = .ok (d', out)) :
    ∃ hist, Run (processStep host) d hist d' ∧ outputs hist = out ∧
      ∀ e ∈ hist, testBit KEEP_GOING e.pre.reg = true := by
  induction inputs generalizing d out with
  | nil =>
    rw [mainLoop] at h
    obtain ⟨rfl, rfl⟩ := Prod.mk.inj (Except.ok.inj h)
    exact ⟨[], .nil, rfl, by simp⟩
  | cons inp rest ih =>
    rw [mainLoop] at h
    split at h
    · next hk =>
      obtain ⟨⟨ret, d₁, out₁⟩, hp, h⟩ := bind_eq_ok.mp h
      have hs : processStep host inp d = .ok (d₁, out₁) := by
        rw [processStep, hp]
        rfl
      simp only at h
      split at h
      · obtain ⟨rfl, rfl⟩ := Prod.mk.inj (Except.ok.inj h)
        exact ⟨[⟨d, inp, out₁, d₁⟩], .snoc .nil hs, by simp, by simpa using hk⟩
      · obtain ⟨⟨d₂, more⟩, hm, h⟩ := bind_eq_ok.mp h
        obtain ⟨rfl, rfl⟩ := Prod.mk.inj (Except.ok.inj h)
        obtain ⟨hist, hrun, hout, hkeep⟩ := ih hm
        refine ⟨⟨d, inp, out₁, d₁⟩ :: hist, .cons hs hrun, by rw [outputs_cons, hout], ?_⟩
        intro e he
        rcases List.mem_cons.mp he with rfl | he
        · exact hk
        · exact hkeep e he
    · obtain ⟨rfl, rfl⟩ := Prod.mk.inj (Except.ok.inj h)
      exact ⟨[], .nil, rfl, by simp⟩

end Uvrrpd
