import Mathlib.Data.List.Induction
import Uvrrpd.Announcement
import Uvrrpd.SwitchCalls

/-! The interface of the virtual router follows the mastership of the daemon: from the
buffers of `vrrp_build_args` through the script to the host, over whole runs. -/
namespace Uvrrpd
open Library.Runs

/-- The virtual router's address, as `ip` reads what the script composes. -/
private theorem llAddr_vrid (vrid : UInt8) :
    llAddr (macPrefix ++ printfHex (decimal vrid.toNat)) = some (virtualRouterMac vrid) := by
  have hall : ∀ v : Fin 256, llAddr (macPrefix ++ printfHex (decimal v.val)) =
      some (virtualRouterMac (UInt8.ofNat v.val)) := by
    decide +kernel
  have hone := hall ⟨vrid.toNat, vrid.toNat_lt⟩
  rwa [UInt8.ofNat_toNat] at hone

section
variable {H : Type} {tools : HostTools H} {inetNtop : Family → Octets → Octets} {c : Config} {ifname : Octets}

/-- The interface that a master ought to have: it has the address that its advertisements
come from, it is up, and it has exactly the addresses of the VIPs, each once. -/
structure Embodies (c : Config) (dev : Device) : Prop where
  address : dev.address = virtualRouterMac c.vrid
  up : dev.up = true
  nodup : dev.addrs.Nodup
  addrs : ∀ addr, addr ∈ dev.addrs ↔ ∃ vip ∈ c.vips, vip.ipx.octets c.family = addr

/-- Nothing on the host stands in the way of the interface. -/
structure Clear (tools : HostTools H) (c : Config) (ifname : Octets) (h : H) : Prop where
  parent : ∃ d, tools.device h ifname = some d
  apart : ¬ tools.stacked h ifname (c.interface ifname)
  alone : ∀ other d, other ≠ c.interface ifname → tools.device h other = some d → d.address ≠ virtualRouterMac c.vrid

private theorem interface_ne (c : Config) (ifname : Octets) : c.interface ifname ≠ ifname := by
  intro heq
  have hlen := congrArg List.length heq
  rw [Config.interface, switchInterface, List.length_append, List.length_cons] at hlen
  omega

@[simp] theorem call_nil (h : H) : tools.call [] h = h := rfl

@[simp] theorem call_cons (cmd : ShellCommand) (cmds : List ShellCommand) (h : H) :
    tools.call (cmd :: cmds) h = tools.call cmds (tools.run cmd h) := rfl

@[simp] theorem call_append (cmds more : List ShellCommand) (h : H) :
    tools.call (cmds ++ more) h = tools.call more (tools.call cmds h) := List.foldl_append

def About (c : Config) (ifname : Octets) (cmd : ShellCommand) : Prop :=
  cmd.dev = none ∨ cmd.dev = some (c.interface ifname)

theorem Clear.run (hd : tools.Documented) {h : H} (hclear : Clear tools c ifname h) {cmd : ShellCommand}
    (hcmd : About c ifname cmd) : Clear tools c ifname (tools.run cmd h) := by
  have hother {other : Octets} (hne : other ≠ c.interface ifname) : cmd.dev ≠ some other := by
    rcases hcmd with hnone | hsome
    · rw [hnone]
      exact nofun
    · rw [hsome]
      exact fun heq => hne (Option.some.inj heq).symm
  have hdel {dev : Octets} (heq : cmd = .linkDel dev) : dev = c.interface ifname := by
    subst heq
    rcases hcmd with hnone | hsome
    · cases hnone
    · exact Option.some.inj hsome
  refine ⟨?_, fun hstacked => hclear.apart (hd.stacked (hother (interface_ne c ifname).symm) hstacked), ?_⟩
  · obtain ⟨d, hparent⟩ := hclear.parent
    rcases hd.others (h := h) (hother (interface_ne c ifname).symm) with hsame | ⟨-, dev, hcmd', hstacked⟩
    · exact ⟨d, hsame.trans hparent⟩
    · rw [hdel hcmd'] at hstacked
      exact absurd hstacked hclear.apart
  · intro other d hne hdev
    rcases hd.others (h := h) (hother hne) with hsame | ⟨hnone, -⟩
    · exact hclear.alone other d hne (hsame.symm.trans hdev)
    · rw [hnone] at hdev
      cases hdev

theorem Clear.call (hd : tools.Documented) {h : H} (hclear : Clear tools c ifname h) {cmds : List ShellCommand}
    (hcmds : ∀ cmd ∈ cmds, About c ifname cmd) : Clear tools c ifname (tools.call cmds h) := by
  induction cmds generalizing h with
  | nil => exact hclear
  | cons cmd cmds ih =>
    have hnext := hclear.run hd (hcmds cmd List.mem_cons_self)
    rw [call_cons]
    exact ih hnext (fun cmd hmem => hcmds cmd (List.mem_cons_of_mem _ hmem))

/-- A command about no interface leaves them all alone. -/
private theorem device_unrelated (hd : tools.Documented) {h : H} {cmds : List ShellCommand}
    (hcmds : ∀ cmd ∈ cmds, cmd.dev = none) (dev : Octets) :
    tools.device (tools.call cmds h) dev = tools.device h dev := by
  induction cmds generalizing h with
  | nil => rfl
  | cons cmd cmds ih =>
    have hnone : cmd.dev = none := hcmds cmd List.mem_cons_self
    rw [call_cons, ih (fun cmd hmem => hcmds cmd (List.mem_cons_of_mem _ hmem))]
    have hapart : cmd.dev ≠ some dev := by rw [hnone]; exact nofun
    rcases hd.others (h := h) hapart with hsame | ⟨-, target, hdel, -⟩
    · exact hsame
    · rw [hdel] at hnone
      cases hnone

/-- The loop over the VIPs adds each of their addresses once. -/
private theorem addrs_call (hd : tools.Documented) (vips : List VrrpIp) {family : Octets}
    {text octets : VrrpIp → Octets}
    (hparse : ∀ vip ∈ vips, tools.parse family (text vip) = some (octets vip)) {h : H} {dev : Octets} {d : Device}
    (hdev : tools.device h dev = some d) (hnodup : d.addrs.Nodup) :
    ∃ addrs, tools.device (tools.call (vips.map (fun vip => .addrAdd family (text vip) dev)) h) dev =
        some { d with addrs := addrs } ∧ addrs.Nodup ∧
      ∀ addr, addr ∈ addrs ↔ addr ∈ d.addrs ∨ ∃ vip ∈ vips, octets vip = addr := by
  induction vips generalizing h d with
  | nil => exact ⟨d.addrs, hdev, hnodup, by simp⟩
  | cons vip vips ih =>
    have hone := hd.addrAdd hdev (hparse vip List.mem_cons_self)
    have hnodup' : (if octets vip ∈ d.addrs then d.addrs else d.addrs ++ [octets vip]).Nodup := by
      split
      · exact hnodup
      · next hnot =>
        rw [List.nodup_append]
        refine ⟨hnodup, List.nodup_singleton _, fun a ha b hb heq => hnot ?_⟩
        rw [← List.mem_singleton.mp hb, ← heq]
        exact ha
    obtain ⟨addrs, hrest, hnodup'', hmem⟩ := ih (fun v hv => hparse v (List.mem_cons_of_mem _ hv)) hone hnodup'
    refine ⟨addrs, hrest, hnodup'', fun addr => ?_⟩
    have hnew : addr ∈ (if octets vip ∈ d.addrs then d.addrs else d.addrs ++ [octets vip]) ↔
        addr ∈ d.addrs ∨ octets vip = addr := by
      split
      · next hin => exact ⟨.inl, fun h => h.elim id (fun heq => heq ▸ hin)⟩
      · simp [eq_comm]
    rw [hmem addr, hnew, or_assoc]
    simp

private theorem adjustSysctl_dev {settings : List (SysctlKey × Nat)} :
    ∀ cmd ∈ adjustSysctl settings, cmd.dev = none := by
  intro cmd hmem
  obtain ⟨scope, -, hmem⟩ := List.mem_flatMap.mp hmem
  obtain ⟨s, -, rfl⟩ := List.mem_map.mp hmem
  rfl

private theorem initCommands_dev (inet6 : Bool) :
    ∀ cmd ∈ scriptCommands inet6 inetNtop c ifname .init, cmd.dev = none := by
  intro cmd hmem
  rcases List.mem_append.mp hmem with hmem | hmem
  · exact adjustSysctl_dev cmd hmem
  · cases inet6 with
    | true => exact adjustSysctl_dev cmd hmem
    | false => cases hmem

private theorem scriptCommands_about (inet6 : Bool) (state : VrrpState) :
    ∀ cmd ∈ scriptCommands inet6 inetNtop c ifname state, About c ifname cmd := by
  have hmaster : ∀ cmd ∈ scriptCommands inet6 inetNtop c ifname .master, About c ifname cmd := by
    intro cmd hmem
    simp only [scriptCommands, List.cons_append, List.mem_cons, List.mem_append, List.mem_map, List.not_mem_nil,
      or_false] at hmem
    rcases hmem with rfl | ⟨vip, -, rfl⟩ | rfl
    · exact .inr rfl
    · exact .inr rfl
    · exact .inr rfl
  cases state with
  | init => exact fun cmd hmem => .inl (initCommands_dev inet6 cmd hmem)
  | backup =>
    intro cmd hmem
    rw [List.mem_singleton.mp hmem]
    exact .inr rfl
  | master => exact hmaster
  | other => exact hmaster

/-- Only the first command of a call writes a report. -/
private theorem scriptCommands_silent (inet6 : Bool) (state : VrrpState) (file : Octets) (text : Report) :
    .report file text ∉ scriptCommands inet6 inetNtop c ifname state := by
  have hsysctl {settings : List (SysctlKey × Nat)} : .report file text ∉ adjustSysctl settings := by
    intro hmem
    obtain ⟨scope, -, hmem⟩ := List.mem_flatMap.mp hmem
    obtain ⟨s, -, heq⟩ := List.mem_map.mp hmem
    cases heq
  cases state with
  | init =>
    cases inet6 with
    | true => exact fun hmem => (List.mem_append.mp hmem).elim hsysctl hsysctl
    | false => exact fun hmem => (List.mem_append.mp hmem).elim hsysctl List.not_mem_nil
  | backup => exact fun hmem => nomatch List.mem_singleton.mp hmem
  | _ => simp [scriptCommands]

private theorem report_call (hd : tools.Documented) {cmds : List ShellCommand} {file : Octets}
    (hcmds : ∀ text, .report file text ∉ cmds) (h : H) :
    tools.report (tools.call cmds h) file = tools.report h file := by
  induction cmds generalizing h with
  | nil => rfl
  | cons cmd cmds ih =>
    rw [call_cons, ih (fun text hmem => hcmds text (List.mem_cons_of_mem _ hmem)), hd.unwritten]
    exact fun text heq => hcmds text (heq ▸ List.mem_cons_self)

/-- The calls for `init` and `backup` leave no interface, and the one for `master` leaves
the whole of it. -/
private theorem switch_device (hd : tools.Documented) (ha : Addressable tools inetNtop c ifname) {h : H}
    (hclear : Clear tools c ifname h) (inet6 : Bool) (file : Octets) (text : Report) :
    (tools.device h (c.interface ifname) = none →
      tools.device (tools.call (.report file text :: scriptCommands inet6 inetNtop c ifname .init) h)
        (c.interface ifname) = none) ∧
    tools.device (tools.call (.report file text :: scriptCommands inet6 inetNtop c ifname .backup) h)
      (c.interface ifname) = none ∧
    (tools.device h (c.interface ifname) = none →
      ∃ dev, tools.device (tools.call (.report file text :: scriptCommands inet6 inetNtop c ifname .master) h)
        (c.interface ifname) = some dev ∧ Embodies c dev) := by
  refine ⟨fun hnone => ?_, hd.linkDel, fun hnone => ?_⟩
  · rw [device_unrelated hd, hnone]
    intro cmd hmem
    rcases List.mem_cons.mp hmem with rfl | hmem
    · rfl
    · exact initCommands_dev inet6 cmd hmem
  · -- the report touches neither the interface nor its parent
    obtain ⟨h₁, heq₁⟩ : ∃ h₁, tools.run (.report file text) h = h₁ := ⟨_, rfl⟩
    have hsame (dev : Octets) : tools.device h₁ dev = tools.device h dev := by
      have hreport : ∀ cmd ∈ [ShellCommand.report file text], cmd.dev = none := by simp [ShellCommand.dev]
      rw [← heq₁]
      exact device_unrelated hd hreport dev
    have hclear₁ : Clear tools c ifname h₁ := heq₁ ▸ hclear.run hd (.inl rfl)
    obtain ⟨parent, hparent⟩ := hclear₁.parent
    have hadded := hd.linkAdd hparent ((hsame _).trans hnone) ha.name (llAddr_vrid c.vrid)
    obtain ⟨addrs, haddrs, hnodup, hmem⟩ := addrs_call hd c.vips.reverse
      (fun vip hvip => (ha.vips vip (List.mem_reverse.mp hvip)).2) hadded List.nodup_nil
    have habout : About c ifname (.linkAdd ifname (macPrefix ++ printfHex (decimal c.vrid.toNat))
        (c.interface ifname)) := .inr rfl
    have habouts : ∀ cmd ∈ c.vips.reverse.map (fun vip => ShellCommand.addrAdd (decimal (familyDigit c.family))
        (inetNtop c.family (vip.ipx.octets c.family)) (c.interface ifname)), About c ifname cmd := by
      intro cmd hcmd
      obtain ⟨vip, -, rfl⟩ := List.mem_map.mp hcmd
      exact .inr rfl
    have hclear₂ := (hclear₁.run hd habout).call hd habouts
    refine ⟨⟨virtualRouterMac c.vrid, true, addrs⟩, ?_, rfl, rfl, hnodup, fun addr => ?_⟩
    · simp only [scriptCommands, List.cons_append, call_cons, call_append, call_nil, heq₁]
      exact hd.linkUp haddrs (fun other d hne hother => hclear₂.alone other d hne hother)
    · simpa using hmem addr

end

/-- A call for `init` or `master` comes behind no call for `master`, one for `backup`
behind one. -/
inductive Orderly : List VrrpState → Prop
  | nil : Orderly []
  | init {calls : List VrrpState} (h : Orderly calls) (hlast : calls.getLast? ≠ some .master) :
      Orderly (calls ++ [.init])
  | master {calls : List VrrpState} (h : Orderly calls) (hlast : calls.getLast? ≠ some .master) :
      Orderly (calls ++ [.master])
  | backup {calls : List VrrpState} (h : Orderly calls) (hlast : calls.getLast? = some .master) :
      Orderly (calls ++ [.backup])

theorem Orderly.last {calls : List VrrpState} {state : VrrpState} (h : Orderly (calls ++ [state])) :
    Orderly calls ∧ (calls.getLast? ≠ some .master ∧ (state = .init ∨ state = .master) ∨
      calls.getLast? = some .master ∧ state = .backup) := by
  generalize hcalls : calls ++ [state] = all at h
  cases h with
  | nil => simp at hcalls
  | init h hlast =>
    obtain ⟨rfl, he⟩ := List.append_inj' hcalls rfl
    exact ⟨h, .inl ⟨hlast, .inl (List.singleton_inj.mp he)⟩⟩
  | master h hlast =>
    obtain ⟨rfl, he⟩ := List.append_inj' hcalls rfl
    exact ⟨h, .inl ⟨hlast, .inr (List.singleton_inj.mp he)⟩⟩
  | backup h hlast =>
    obtain ⟨rfl, he⟩ := List.append_inj' hcalls rfl
    exact ⟨h, .inr ⟨hlast, List.singleton_inj.mp he⟩⟩

structure Followed (calls : List VrrpState) (d : Daemon) : Prop where
  orderly : Orderly calls
  last : d.vrrp.state = .master ↔ calls.getLast? = some .master

theorem Followed.quiet {calls : List VrrpState} {d d' : Daemon} (h : Followed calls d)
    (hstate : d'.vrrp.state = .master ↔ d.vrrp.state = .master) : Followed (calls ++ []) d' := by
  rw [List.append_nil]
  exact ⟨h.orderly, hstate.trans h.last⟩

theorem Followed.init {calls : List VrrpState} {d d' : Daemon} (h : Followed calls d) (hs : d.vrrp.state ≠ .master)
    (hs' : d'.vrrp.state ≠ .master) : Followed (calls ++ [.init]) d' where
  orderly := .init h.orderly (fun hl => hs (h.last.mpr hl))
  last := by simp [hs']

theorem Followed.master {calls : List VrrpState} {d d' : Daemon} (h : Followed calls d) (hs : d.vrrp.state ≠ .master)
    (hs' : d'.vrrp.state = .master) : Followed (calls ++ [.master]) d' where
  orderly := .master h.orderly (fun hl => hs (h.last.mpr hl))
  last := by simp [hs']

theorem Followed.backup {calls : List VrrpState} {d d' : Daemon} (h : Followed calls d) (hs : d.vrrp.state = .master)
    (hs' : d'.vrrp.state ≠ .master) : Followed (calls ++ [.backup]) d' where
  orderly := .backup h.orderly (h.last.mp hs)
  last := by simp [hs']

theorem Followed.handled {host : ByteOrder} {now : Option Timespec} {calls : List VrrpState} {d d' : Daemon}
    {event : VrrpEvent} {out : List Output} (h : Followed calls d) (hh : Handled host now d event d' out) :
    Followed (calls ++ hooks out) d' := by
  cases hh with
  | ignore => exact h.quiet Iff.rfl
  | takeover hs =>
    rw [hooks_gotoMaster]
    exact h.master (by simp [hs]) rfl
  | shorten hs =>
    rw [hooks_armed]
    exact h.quiet Iff.rfl
  | follow hs =>
    rw [hooks_armed]
    exact h.quiet (by simp [arm, Vrrp.setTimer])
  | restart hs => exact h.quiet (by simp [hs])
  | tick hs =>
    rw [hooks_advertise]
    exact h.quiet Iff.rfl
  | answer hs =>
    rw [hooks_advertise]
    exact h.quiet Iff.rfl
  | yield hs =>
    rw [hooks_gotoBackup, if_pos (by simp [hs])]
    exact h.backup hs (by simp [vrrpStateGotoBackup, arm, Vrrp.setTimer])
  | resign hs => exact h.backup hs (by simp)

theorem Followed.step {host : ByteOrder} {inp : Input} {calls : List VrrpState} {d d' : Daemon} {out : List Output}
    (h : Followed calls d) (hstep : processStep host inp d = .ok (d', out)) : Followed (calls ++ hooks out) d' := by
  cases processStep_cases hstep with
  | startMaster hs =>
    have hinit : Followed (calls ++ [.init]) d := h.init (by simp [hs]) (by simp [hs])
    rw [hooks_exec_cons, hooks_gotoMaster, List.append_cons]
    exact hinit.master (by simp [hs]) rfl
  | startBackup hs =>
    have hprimed : d.primed.vrrp.state = .init := hs
    rw [hooks_exec_cons, hooks_gotoBackup, if_neg (by simp [hprimed])]
    exact h.init (by simp [hs]) (by simp [Daemon.dumped, vrrpStateGotoBackup, arm, Vrrp.setTimer])
  | serve hs hl hh =>
    have hheard : Followed calls _ := ⟨h.orderly, by rw [(vrrpListen_cases hl).state]; exact h.last⟩
    have hserved := hheard.handled hh
    exact ⟨hserved.orderly, hserved.last⟩
  | stuck => exact h.quiet Iff.rfl

theorem Followed.run {host : ByteOrder} {s t : Daemon} {h : List (Entry Daemon Input Output)}
    (run : Run (processStep host) s h t) (hs : s.vrrp.state = .init) : Followed (hooks (outputs h)) t := by
  induction run with
  | nil => exact ⟨.nil, by simp [hs]⟩
  | snoc _ hstep ih =>
    rw [outputs_snoc, hooks_append]
    exact ih.step hstep

/-- The calls of the script in a history. What they hand over stays as it is up to the end
of the step. -/
def scriptCalls (scriptname : Octets) (hist : List (Entry Daemon Input Output)) : List ArgsCall :=
  hist.flatMap (fun e => (hooks e.output).map (fun state => ⟨scriptname, e.post.vrrp, e.post.vnet, state⟩))

/-- The host while a daemon makes these calls of its script, one after another, each run
to its end. In between others may do what leaves the interface and its report alone, and
nothing in its way. -/
inductive HostRun {H : Type} (tools : HostTools H) (inetNtop : Family → Octets → Octets) (c : Config) (ifname : Octets)
    (inet6 : Bool) (argv₀ : List Octets) (h₀ : H) : List ArgsCall → List Octets → H → Prop
  | start : HostRun tools inetNtop c ifname inet6 argv₀ h₀ [] argv₀ h₀
  | hook {calls : List ArgsCall} {argv argv' : List Octets} {h : H} {call : ArgsCall} {cmds : List ShellCommand}
      (prev : HostRun tools inetNtop c ifname inet6 argv₀ h₀ calls argv h)
      (build : call.build inetNtop argv = .ok argv') (script : vrrpSwitch inet6 (scriptArgs argv') = some cmds) :
      HostRun tools inetNtop c ifname inet6 argv₀ h₀ (calls ++ [call]) argv' (tools.call cmds h)
  | others {calls : List ArgsCall} {argv : List Octets} {h h' : H}
      (prev : HostRun tools inetNtop c ifname inet6 argv₀ h₀ calls argv h) (clear : Clear tools c ifname h')
      (device : tools.device h' (c.interface ifname) = tools.device h (c.interface ifname))
      (report : tools.report h' (stateFile ifname (decimal c.vrid.toNat)) =
        tools.report h (stateFile ifname (decimal c.vrid.toNat))) :
      HostRun tools inetNtop c ifname inet6 argv₀ h₀ calls argv h'

structure Kept {H : Type} (tools : HostTools H) (c : Config) (ifname : Octets) (calls : List VrrpState)
    (argv : List Octets) (h : H) : Prop where
  usable : UsableArgv argv
  clear : Clear tools c ifname h
  present : calls.getLast? = some .master → ∃ dev, tools.device h (c.interface ifname) = some dev ∧ Embodies c dev
  absent : calls.getLast? ≠ some .master → tools.device h (c.interface ifname) = none
  report : ∀ state, calls.getLast? = some state →
    ∃ text, tools.report h (stateFile ifname (decimal c.vrid.toNat)) = some text ∧ text.state = STR_STATE state

section
variable {H : Type} {tools : HostTools H} {inetNtop : Family → Octets → Octets} {c : Config} {ifname : Octets}
  {inet6 : Bool} {argv₀ argv : List Octets} {h₀ h : H} {calls : List VrrpState}

/-- One call behind calls in order. -/
theorem Kept.hook (hd : tools.Documented) (ha : Addressable tools inetNtop c ifname)
    (hkept : Kept tools c ifname calls argv h) {call : ArgsCall} (passes : HandsOver c call)
    (horder : Orderly (calls ++ [call.state])) {argv' : List Octets} {cmds : List ShellCommand}
    (build : call.build inetNtop argv = .ok argv') (script : vrrpSwitch inet6 (scriptArgs argv') = some cmds) :
    Kept tools c ifname (calls ++ [call.state]) argv' (tools.call cmds h) := by
  obtain ⟨argv₁, text, hbuild, husable, htext, hscript⟩ := passes.switch ha hkept.usable inet6
  obtain rfl : argv₁ = argv' := Except.ok.inj (hbuild.symm.trans build)
  obtain rfl := Option.some.inj (hscript.symm.trans script)
  obtain ⟨hinit, hbackup, hmaster⟩ :=
    switch_device hd ha hkept.clear inet6 (stateFile ifname (decimal c.vrid.toNat)) text
  have habout : ∀ cmd ∈ .report (stateFile ifname (decimal c.vrid.toNat)) text ::
      scriptCommands inet6 inetNtop c ifname call.state, About c ifname cmd := by
    intro cmd hmem
    rcases List.mem_cons.mp hmem with rfl | hmem
    · exact .inl rfl
    · exact scriptCommands_about inet6 call.state cmd hmem
  have hclear := hkept.clear.call hd habout
  refine ⟨husable, hclear, ?_, ?_, ?_⟩
  · intro hlast
    rw [List.getLast?_append, List.getLast?_singleton] at hlast
    have hstate : call.state = .master := Option.some.inj hlast
    rcases horder.last.2 with ⟨hl, -⟩ | ⟨-, hs⟩
    · rw [hstate]
      exact hmaster (hkept.absent hl)
    · rw [hstate] at hs
      cases hs
  · intro hlast
    rw [List.getLast?_append, List.getLast?_singleton] at hlast
    rcases horder.last.2 with ⟨hl, hs | hs⟩ | ⟨-, hs⟩
    · rw [hs]
      exact hinit (hkept.absent hl)
    · exact absurd (congrArg some hs) hlast
    · rw [hs]
      exact hbackup
  · intro state hlast
    rw [List.getLast?_append, List.getLast?_singleton] at hlast
    obtain rfl : call.state = state := Option.some.inj hlast
    refine ⟨text, ?_, htext⟩
    rw [call_cons, report_call hd (fun text => scriptCommands_silent inet6 call.state _ text), hd.written]

private theorem HostRun.kept (hd : tools.Documented) (ha : Addressable tools inetNtop c ifname)
    (husable : UsableArgv argv₀)
    (hclear : Clear tools c ifname h₀) (habsent : tools.device h₀ (c.interface ifname) = none)
    {calls : List ArgsCall} (run : HostRun tools inetNtop c ifname inet6 argv₀ h₀ calls argv h)
    (hpass : ∀ call ∈ calls, HandsOver c call) (horder : Orderly (calls.map ArgsCall.state)) :
    Kept tools c ifname (calls.map ArgsCall.state) argv h := by
  induction run with
  | start => exact ⟨husable, hclear, by simp, fun _ => habsent, by simp⟩
  | hook prev build script ih =>
    rw [List.map_append, List.map_singleton] at horder ⊢
    have hprev := ih (fun call hm => hpass call (List.mem_append_left _ hm)) horder.last.1
    exact hprev.hook hd ha (hpass _ (List.mem_append_right _ List.mem_cons_self)) horder build script
  | others prev clear device report ih =>
    have hprev := ih hpass horder
    exact ⟨hprev.usable, clear, fun hl => by rw [device]; exact hprev.present hl,
      fun hl => by rw [device]; exact hprev.absent hl, fun state hl => by rw [report]; exact hprev.report state hl⟩

/-- A call touches the interface and what stands on it, and no other. -/
private theorem device_apart (hd : tools.Documented) {cmds : List ShellCommand}
    (hcmds : ∀ cmd ∈ cmds, About c ifname cmd)
    {other : Octets} (hne : other ≠ c.interface ifname) (hstacked : ¬ tools.stacked h other (c.interface ifname)) :
    tools.device (tools.call cmds h) other = tools.device h other := by
  induction cmds generalizing h with
  | nil => rfl
  | cons cmd cmds ih =>
    have habout := hcmds cmd List.mem_cons_self
    have hother : cmd.dev ≠ some other := by
      rcases habout with hnone | hsome
      · rw [hnone]
        exact nofun
      · rw [hsome]
        exact fun heq => hne (Option.some.inj heq).symm
    have hafter : ¬ tools.stacked (tools.run cmd h) other (c.interface ifname) :=
      fun hon => hstacked (hd.stacked hother hon)
    rw [call_cons, ih (fun cmd hmem => hcmds cmd (List.mem_cons_of_mem _ hmem)) hafter]
    rcases hd.others (h := h) hother with hsame | ⟨-, dev, hdel, hon⟩
    · exact hsame
    · rw [hdel] at habout
      rcases habout with hnone | hsome
      · cases hnone
      · rw [Option.some.inj hsome] at hon
        exact absurd hon hstacked

/-- Every call of the script can be made. -/
private theorem hostRun_exists (ha : Addressable tools inetNtop c ifname) (husable : UsableArgv argv₀)
    {calls : List ArgsCall} (hpass : ∀ call ∈ calls, HandsOver c call) :
    ∃ argv h, HostRun tools inetNtop c ifname inet6 argv₀ h₀ calls argv h ∧ UsableArgv argv := by
  induction calls using List.reverseRecOn with
  | nil => exact ⟨argv₀, h₀, .start, husable⟩
  | append_singleton calls call ih =>
    obtain ⟨argv, h, hrun, husable'⟩ := ih (fun call hm => hpass call (List.mem_append_left _ hm))
    have passes := hpass call (List.mem_append_right _ List.mem_cons_self)
    obtain ⟨argv', text, hbuild, husable'', -, hscript⟩ := passes.switch ha husable' inet6
    exact ⟨argv', _, .hook hrun hbuild hscript, husable''⟩

/-- The daemon calls the script for the states of its hooks. -/
private theorem scriptCalls_state (scriptname : Octets) (hist : List (Entry Daemon Input Output)) :
    (scriptCalls scriptname hist).map ArgsCall.state = hooks (outputs hist) := by
  induction hist with
  | nil => rfl
  | cons e hist ih =>
    rw [outputs_cons, hooks_append, ← ih, scriptCalls, List.flatMap_cons, List.map_append, List.map_map]
    exact congrArg (· ++ _) (List.map_id _)

/-- It hands over its configuration each time. -/
private theorem scriptCalls_handsOver {host : ByteOrder} {fresh : Fresh} {hist : List (Entry Daemon Input Output)}
    {d : Daemon}
    (run : History host c fresh hist d) (scriptname : Octets) :
    ∀ call ∈ scriptCalls scriptname hist, HandsOver c call := by
  obtain ⟨start, hboot, hrun⟩ := run
  intro call hmem
  obtain ⟨e, he, hmem⟩ := List.mem_flatMap.mp hmem
  obtain ⟨state, -, rfl⟩ := List.mem_map.mp hmem
  obtain ⟨before, hbefore, -, hstep⟩ := hrun.mem he
  have hreached : History host c fresh (before ++ [e]) e.post := ⟨start, hboot, hbefore.snoc hstep⟩
  exact hreached.configured.handsOver scriptname state

/-- The source address of all advertisements. -/
private theorem advs_source {host : ByteOrder} {fresh : Fresh} {hist : List (Entry Daemon Input Output)} {d : Daemon}
    (run : History host c fresh hist d) {f : Frame} (hf : f ∈ advs (outputs hist)) :
    etherSrc f = some (virtualRouterMac c.vrid) := by
  obtain ⟨d₀, hboot, hrun⟩ := run
  obtain ⟨contents, -, rfl, -⟩ := boot_frame hboot
  rw [etherSrc, (advs_run_header hrun hf).1]
  rfl

end

structure LabHost where
  devices : Octets → Option Device
  reports : Octets → Option Report

def labVip10 : Octets := labVip.take 8 ++ [0x31, 0x30]

def labParse (family ip : Octets) : Option Octets :=
  if family = [0x34] ∧ ip = labVip10 then some [192, 0, 2, 10] else none

def LabHost.set (h : LabHost) (dev : Octets) (d : Device) : LabHost :=
  { h with devices := Function.update h.devices dev (some d) }

def LabHost.run : ShellCommand → LabHost → LabHost
  | .report file text, h => { h with reports := Function.update h.reports file (some text) }
  | .sysctl _ _ _, h => h
  | .linkAdd link address dev, h =>
    match h.devices link, h.devices dev, llAddr address with
    | some _, none, some mac => h.set dev ⟨mac, false, []⟩
    | _, _, _ => h
  | .addrAdd family ip dev, h =>
    match h.devices dev, labParse family ip with
    | some d, some addr => h.set dev { d with addrs := if addr ∈ d.addrs then d.addrs else d.addrs ++ [addr] }
    | _, _ => h
  | .linkUp dev, h =>
    match h.devices dev with
    | some d => h.set dev { d with up := true }
    | none => h
  | .linkDel dev, h => { h with devices := Function.update h.devices dev none }

def labTools : HostTools LabHost where
  run := LabHost.run
  device := LabHost.devices
  stacked _ _ _ := False
  report := LabHost.reports
  parse := labParse

private theorem labTools_others {h : LabHost} {cmd : ShellCommand} {other : Octets} (hne : cmd.dev ≠ some other) :
    (h.run cmd).devices other = h.devices other := by
  cases cmd with
  | report => rfl
  | sysctl => rfl
  | linkAdd link address dev =>
    have hother : other ≠ dev := fun heq => hne (by rw [heq]; rfl)
    rw [LabHost.run]
    split
    · exact Function.update_of_ne hother _ _
    · rfl
  | addrAdd family ip dev =>
    have hother : other ≠ dev := fun heq => hne (by rw [heq]; rfl)
    rw [LabHost.run]
    split
    · exact Function.update_of_ne hother _ _
    · rfl
  | linkUp dev =>
    have hother : other ≠ dev := fun heq => hne (by rw [heq]; rfl)
    rw [LabHost.run]
    split
    · exact Function.update_of_ne hother _ _
    · rfl
  | linkDel dev =>
    have hother : other ≠ dev := fun heq => hne (by rw [heq]; rfl)
    exact Function.update_of_ne hother _ _

private theorem labTools_documented : labTools.Documented where
  linkAdd := by
    intro h link address dev mac parent hlink hdev hname hmac
    simp only [labTools] at hlink hdev ⊢
    simp [LabHost.run, hlink, hdev, hmac, LabHost.set]
  addrAdd := by
    intro h family ip dev d addr hdev hparse
    simp only [labTools] at hdev hparse ⊢
    simp [LabHost.run, hdev, hparse, LabHost.set]
  linkUp := by
    intro h dev d hdev halone
    simp only [labTools] at hdev ⊢
    simp [LabHost.run, hdev, LabHost.set]
  linkDel := by
    intro h dev
    simp [labTools, LabHost.run]
  others := fun hne => .inl (labTools_others hne)
  stacked := fun _ hstacked => hstacked
  written := by
    intro h file text
    simp [labTools, LabHost.run]
  unwritten := by
    intro h cmd file hne
    cases cmd with
    | report name text =>
      have hother : file ≠ name := fun heq => hne text (by rw [heq])
      exact Function.update_of_ne hother _ _
    | sysctl => rfl
    | linkDel => rfl
    | _ =>
      simp only [labTools, LabHost.run]
      split <;> rfl

def labRouter : Config :=
  { lab with
    priority := 255
    vif := ⟨some labIfname, 1500, (lab.vips.map VrrpIp.ipx).headD IpxAddr.zero⟩ }

def labHost : LabHost where
  devices dev := if dev = labIfname then some ⟨[2, 0, 0, 0, 0, 1], true, []⟩ else none
  reports _ := none

private theorem labRouter_addressable : Addressable labTools (fun _ _ => labVip10) labRouter labIfname where
  vif := rfl
  word := by decide +kernel
  nul := by decide
  name := ⟨by decide +kernel, by decide +kernel, by decide +kernel, by decide +kernel⟩
  texts := ⟨fun _ _ => by decide, fun _ _ => by decide⟩
  vips := by
    intro vip hmem
    obtain rfl := List.mem_singleton.mp hmem
    exact ⟨by decide +kernel, by decide +kernel⟩

private theorem labHost_clear : Clear labTools labRouter labIfname labHost where
  parent := ⟨⟨[2, 0, 0, 0, 0, 1], true, []⟩, rfl⟩
  apart := id
  alone := by
    intro other d _ hdev
    simp only [labTools, labHost] at hdev
    split at hdev
    · obtain rfl := Option.some.inj hdev
      decide
    · cases hdev

end Uvrrpd
