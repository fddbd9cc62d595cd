import Uvrrpd.AdvBuffer

/-! When advertisements are sent. A master resigns by one advertisement of
priority 0 on its way to the initial state; advertisements of the configured
priority come from masters that stay or become master. -/
namespace Uvrrpd
open Library.Runs

def framePriority (frame : Frame) : Option UInt8 := frame.data.bind (·[2]?)

theorem Coherent.Announces.framePriority {contents : Nat → UInt8} {d : Daemon} {prio : UInt8}
    {frame : Frame} (h : Coherent.Announces contents d prio frame) :
    framePriority frame = some prio := by
  rw [h]
  exact advPayload_priority _ _ _

def Resigns (e : Entry Daemon Input Output) : Prop :=
  e.pre.vrrp.state = .master ∧ e.post.vrrp.state = .init

def TakesOver (e : Entry Daemon Input Output) : Prop :=
  e.pre.vrrp.state ≠ .master ∧ e.post.vrrp.state = .master

instance (e : Entry Daemon Input Output) : Decidable (Resigns e) := inferInstanceAs (Decidable (_ ∧ _))

/-- The three kinds of steps: silent, advertising as a master, resigning. -/
inductive Sends (e : Entry Daemon Input Output) : Prop
  | silent (hout : advs e.output = []) (hr : ¬ Resigns e)
  | advertises {frame : Frame} (hout : advs e.output = [frame])
      (hp : framePriority frame = some e.post.vrrp.priority) (hs : e.post.vrrp.state = .master)
  | resigns {frame : Frame} (hout : advs e.output = [frame]) (hp : framePriority frame = some 0)
      (hr : Resigns e)

private theorem sends_handled {host : ByteOrder} {inp : Input} {contents : Nat → UInt8}
    {d d₁ d₂ : Daemon} {event : VrrpEvent} {out : List Output} (h : Coherent contents d₁)
    (hst : d₁.vrrp.state = d.vrrp.state) (hh : Handled host inp.clockSet d₁ event d₂ out) :
    Sends ⟨d, inp, out, d₂.dumped⟩ := by
  cases hh with
  | ignore =>
    refine .silent rfl (fun hr => ?_)
    have hms := hr.1.symm.trans (hst.symm.trans hr.2)
    cases hms
  | takeover => exact .advertises (by simp) h.announces.framePriority rfl
  | shorten hs => exact .silent (by simp) (fun hr => by simp [Resigns, ← hst, hs] at hr)
  | follow hs => exact .silent (by simp) (fun hr => by simp [Resigns, ← hst, hs] at hr)
  | restart hs => exact .silent rfl (fun hr => by simp [Resigns, ← hst, hs] at hr)
  | tick hs => exact .advertises (by simp) h.announces.framePriority hs
  | answer hs => exact .advertises (by simp) h.announces.framePriority hs
  | yield => exact .silent (by simp) (fun hr => nomatch hr.2)
  | resign hs he hr hz =>
    obtain ⟨-, hframe⟩ := h.sendZero hz
    exact .resigns rfl (Coherent.Announces.framePriority hframe) ⟨hst.symm.trans hs, rfl⟩

private theorem sends_step {host : ByteOrder} {inp : Input} {contents : Nat → UInt8} {d d' : Daemon}
    {out : List Output} (h : Coherent contents d) (hs : processStep host inp d = .ok (d', out)) :
    Sends ⟨d, inp, out, d'⟩ := by
  cases processStep_cases hs with
  | startMaster => exact .advertises (by simp) h.announces.framePriority rfl
  | startBackup hst => exact .silent (by simp) (fun hr => by simp [Resigns, hst] at hr)
  | serve hst hl hh =>
    have hl := vrrpListen_cases hl
    exact sends_handled (h.heard hl) hl.state hh
  | stuck hst => exact .silent rfl (fun hr => by simp [Resigns, hst] at hr)

private theorem Heard.reload_pending {host : ByteOrder} {inp : Input} {d d' : Daemon}
    {event : VrrpEvent} (h : Heard host inp d event d') (hc : testBit UVRRPD_RELOAD d.reg = false) :
    testBit UVRRPD_RELOAD d'.reg = false ∨ event = .signal ∨ event = .ctrlFifo := by
  cases h with
  | timer => exact .inl hc
  | signal => exact .inr (.inl rfl)
  | idle => exact .inl hc
  | datagram => exact .inl hc
  | command a m hp hcmd =>
    cases vrrpCtrlRead_cases hcmd with
    | refused => exact .inl hc
    | stop => exact .inr (.inr rfl)
    | reload => exact .inr (.inr rfl)
    | status => exact .inr (.inr rfl)
    | prio => exact .inr (.inr rfl)

private theorem Handled.reload_clear {host : ByteOrder} {now : Option Timespec} {d d' : Daemon}
    {event : VrrpEvent} {out : List Output} (h : Handled host now d event d' out)
    (hc : testBit UVRRPD_RELOAD d.reg = false ∨ event = .signal ∨ event = .ctrlFifo) :
    testBit UVRRPD_RELOAD d'.reg = false := by
  cases h with
  | ignore hi =>
    rcases hc with hc | rfl | rfl
    · exact hc
    · exact hi
    · exact hi
  | restart => simp [UVRRPD_RELOAD]
  | resign => simp [UVRRPD_RELOAD]
  | _ => exact hc.resolve_right (by simp)

/-- The reload bit is clear after a step if it was clear before. -/
private theorem reload_clear_step {host : ByteOrder} {inp : Input} {d d' : Daemon} {out : List Output}
    (hc : testBit UVRRPD_RELOAD d.reg = false) (h : processStep host inp d = .ok (d', out)) :
    testBit UVRRPD_RELOAD d'.reg = false := by
  have hdump {reg : Reg} (hr : testBit UVRRPD_RELOAD reg = false) :
      testBit UVRRPD_RELOAD (clearBit UVRRPD_DUMP reg) = false := by
    simp [hr, UVRRPD_DUMP]
  cases processStep_cases h with
  | startMaster => exact hdump hc
  | startBackup => exact hdump hc
  | serve hs hl hh => exact hdump (hh.reload_clear ((vrrpListen_cases hl).reload_pending hc))
  | stuck => exact hc

/-- A reload request ends the step in the initial state. -/
private theorem reload_step {host : ByteOrder} {inp : Input} {d d' d₁ : Daemon} {event : VrrpEvent}
    {out : List Output} (hc : testBit UVRRPD_RELOAD d.reg = false)
    (h : processStep host inp d = .ok (d', out)) (hs : d.vrrp.state = .backup ∨ d.vrrp.state = .master)
    (hl : vrrpListen host inp d = .ok (event, d₁)) (hr : testBit UVRRPD_RELOAD d₁.reg = true) :
    d'.vrrp.state = .init := by
  obtain ⟨d₂, rfl, hh⟩ := processStep_listened h hs hl
  have hevent := ((vrrpListen_cases hl).reload_pending hc).resolve_left (by simp [hr])
  exact hh.reload hevent hr

section Runs
variable {host : ByteOrder} {c : Config} {fresh : Fresh} {h : List (Entry Daemon Input Output)}
  {d : Daemon}

private theorem History.reload_clear (run : History host c fresh h d) :
    testBit UVRRPD_RELOAD d.reg = false := by
  obtain ⟨start, hboot, hrun⟩ := run
  have hstart : testBit UVRRPD_RELOAD start.reg = false := by
    rw [(boot_spec hboot).reg]
    decide
  exact Run.holds (fun d : Daemon => testBit UVRRPD_RELOAD d.reg = false) hrun hstart
    (fun i t u out ht hs => reload_clear_step ht hs)

private theorem History.sends (run : History host c fresh h d) {e : Entry Daemon Input Output} (he : e ∈ h) :
    Sends e := by
  obtain ⟨⟨before, hb, -⟩, hs⟩ := run.mem he
  obtain ⟨contents, -, hco⟩ := hb.coherent
  exact sends_step hco hs

end Runs

/-- A step that neither starts nor ends as a master is silent. -/
private theorem Sends.silent_of_not_master {e : Entry Daemon Input Output} (h : Sends e)
    (hpre : e.pre.vrrp.state ≠ .master) (hpost : e.post.vrrp.state ≠ .master) :
    advs e.output = [] := by
  cases h with
  | silent hout => exact hout
  | advertises _ _ hs => exact absurd hs hpost
  | resigns _ _ hr => exact absurd hr.1 hpre

/-- Outside mastership nothing is sent until the next takeover. -/
private theorem silent_until_takeover {host : ByteOrder} {s t : Daemon}
    {h : List (Entry Daemon Input Output)} (run : Run (processStep host) s h t)
    (hs : s.vrrp.state ≠ .master) (hsends : ∀ e ∈ h, Sends e) (hno : ∀ e ∈ h, ¬ TakesOver e) :
    t.vrrp.state ≠ .master ∧ ∀ e ∈ h, advs e.output = [] := by
  induction run with
  | nil => exact ⟨hs, by simp⟩
  | @snoc h t u inp out prev hstep ih =>
    obtain ⟨ht, hall⟩ := ih (fun e he => hsends e (List.mem_append_left _ he))
      (fun e he => hno e (List.mem_append_left _ he))
    have hu : u.vrrp.state ≠ .master := fun hm => hno ⟨t, inp, out, u⟩ (by simp) ⟨ht, hm⟩
    refine ⟨hu, fun e he => ?_⟩
    rcases List.mem_append.mp he with he | he
    · exact hall e he
    · obtain rfl := List.mem_singleton.mp he
      exact (hsends _ (by simp)).silent_of_not_master ht hu

/-- While no priority is 0: a step that leaves MASTER for INIT sends exactly one
advertisement of priority 0 and no other step sends one; an advertisement of the
configured priority ends in MASTER; a step that hears a reload request ends in INIT
with the request taken back; and between a resignation and the next takeover
nothing is sent. -/
theorem resignation_discipline {host : ByteOrder} {c : Config} {fresh : Fresh}
    {h : List (Entry Daemon Input Output)} {d : Daemon} (run : History host c fresh h d)
    (hprio : ∀ e ∈ h, e.post.vrrp.priority ≠ 0) :
    (∀ e ∈ h,
      ((advs e.output).filter (framePriority · = some 0)).length = (if Resigns e then 1 else 0) ∧
      (∀ frame ∈ advs e.output, framePriority frame ≠ some 0 →
        framePriority frame = some e.post.vrrp.priority ∧ e.post.vrrp.state = .master) ∧
      (∀ event heard, e.pre.vrrp.state = .backup ∨ e.pre.vrrp.state = .master →
        vrrpListen host e.input e.pre = .ok (event, heard) →
        testBit UVRRPD_RELOAD heard.reg = true → e.post.vrrp.state = .init) ∧
      testBit UVRRPD_RELOAD e.post.reg = false) ∧
    ∀ before e mid after, h = before ++ e :: mid ++ after → Resigns e → (∀ m ∈ mid, ¬ TakesOver m) →
      ∀ m ∈ mid, advs m.output = [] := by
  refine ⟨fun e he => ⟨?_, ?_, ?_, ?_⟩, ?_⟩
  · cases run.sends he with
    | silent hout hr => rw [hout, if_neg hr]; rfl
    | advertises hout hp hs =>
      have hr : ¬ Resigns e := fun hr => by simp [hr.2] at hs
      simp [hout, hp, hprio e he, hr]
    | resigns hout hp hr => simp [hout, hp, hr]
  · intro frame hf hne
    cases run.sends he with
    | silent hout => simp [hout] at hf
    | advertises hout hp hs =>
      obtain rfl : frame = _ := by simpa [hout] using hf
      exact ⟨hp, hs⟩
    | resigns hout hp =>
      obtain rfl : frame = _ := by simpa [hout] using hf
      exact absurd hp hne
  · intro event heard hst hl hr
    obtain ⟨⟨before, hb, -⟩, hs⟩ := run.mem he
    exact reload_step hb.reload_clear hs hst hl hr
  · obtain ⟨⟨before, hb, -⟩, hs⟩ := run.mem he
    exact reload_clear_step hb.reload_clear hs
  · intro before e mid after hh hr hno
    subst hh
    have hsends : ∀ m ∈ mid, Sends m := fun m hm => run.sends (by simp [hm])
    obtain ⟨start, hboot, hrun⟩ := run
    obtain ⟨m₁, hleft, -⟩ := hrun.split
    obtain ⟨m₀, -, hright⟩ := hleft.split
    obtain ⟨m₂, hone, hmid⟩ := Run.split (h := [e]) hright
    have hm₂ : m₂.vrrp.state ≠ .master := by
      rw [← hone.singleton.2.1, hr.2]
      decide
    exact (silent_until_takeover hmid hm₂ hsends hno).2

def labResignation : List (Entry Daemon Input Output) × Daemon :=
  lab.runOn [.quiet ⟨1, 0⟩, .quiet ⟨9, 0⟩, { Input.quiet ⟨9, 0⟩ with pselect := .interrupted [.hup] }]

theorem resignation_discipline_lab :
    (∀ e ∈ labResignation.1, e.post.vrrp.priority ≠ 0) ∧
    labResignation.1.map (fun e => decide (Resigns e)) = [false, false, true] ∧
    ∀ e ∈ labResignation.1,
      ((advs e.output).filter (framePriority · = some 0)).length = if Resigns e then 1 else 0 := by
  have hprio : ∀ e ∈ labResignation.1, e.post.vrrp.priority ≠ 0 := by decide +kernel
  exact ⟨hprio, by decide +kernel, fun e he => ((resignation_discipline (history_runOn (.inl rfl) _) hprio).1 e he).1⟩

end Uvrrpd
