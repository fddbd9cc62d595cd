import Uvrrpd.Fixed

/-! The advertisement buffer over whole runs. It is built once and then patched in
place by the `prio` command and around every resignation; at the end of every
step it is what the builder would write for the current structure. -/
namespace Uvrrpd
open Library.Memory (bind_eq_ok)
open Library.Runs

/-- The payload is the one that the builder writes, over the same fresh memory. -/
structure Coherent (contents : Nat → UInt8) (d : Daemon) : Prop where
  prepared : Prepared d.vnet d.vrrp
  data : d.vnet.adv.data = some (advPayload d.vnet d.vrrp (authTail contents d.vnet d.vrrp))

namespace Coherent
variable {host : ByteOrder} {contents : Nat → UInt8} {d d' : Daemon}

/-- Whatever keeps the fixed part, the priority and the payload keeps the coherence. -/
theorem congr (h : Coherent contents d) (hf : SameFixed d d') (hp : d'.vrrp.priority = d.vrrp.priority)
    (hd : d'.vnet.adv.data = d.vnet.adv.data) : Coherent contents d' := by
  refine ⟨h.prepared.congr hf.2 hf.1, ?_⟩
  rw [hd, h.data, authTail_congr hf.2 hf.1, advPayload_congr hf.2 hf.1 hp]

theorem fills (h : Coherent contents d) : Fills d.vnet (authTail contents d.vnet d.vrrp) :=
  authTail_fills contents h.prepared

theorem setPriority {vnet : VrrpNet} {prio : UInt8} (h : Coherent contents d)
    (hs : vrrpAdvSetPriority host d.vnet prio = .ok vnet) :
    Coherent contents { d with vrrp := { d.vrrp with priority := prio }, vnet := vnet } := by
  rw [vrrpAdvSetPriority_spec host h.prepared h.fills h.data] at hs
  obtain rfl := Except.ok.inj hs
  exact ⟨h.prepared.congr rfl rfl, rfl⟩

/-- A resignation sends the payload of priority 0 and leaves the buffer as it was. -/
theorem sendZero {vnet : VrrpNet} {frame : Frame} (h : Coherent contents d)
    (hs : vrrpAdvSendZero host d.vnet = .ok (frame, vnet)) :
    vnet = d.vnet ∧ frame = { d.vnet.adv with data := some (advPayload d.vnet
      { d.vrrp with priority := 0 } (authTail contents d.vnet d.vrrp)) } := by
  rw [vrrpAdvSendZero_spec host h.prepared h.fills h.data] at hs
  obtain ⟨hframe, hvnet⟩ := Prod.mk.inj (Except.ok.inj hs)
  exact ⟨hvnet.symm, hframe.symm⟩

theorem heard {inp : Input} {event : VrrpEvent} (h : Coherent contents d)
    (hh : Heard host inp d event d') : Coherent contents d' := by
  have hf := SameFixed.heard hh
  cases hh with
  | timer => exact h.congr hf rfl rfl
  | signal => exact h.congr hf rfl rfl
  | idle => exact h.congr hf rfl rfl
  | datagram a m buf hp hr =>
    apply h.congr hf rfl
    rw [(vrrpNetRecv_cases hr).1]
  | command a m hp hc =>
    cases vrrpCtrlRead_cases hc with
    | refused => exact h.congr hf rfl rfl
    | stop => exact h.congr hf rfl rfl
    | reload => exact h.congr hf rfl rfl
    | status => exact h.congr hf rfl rfl
    | prio ctrl hne hset =>
      have hset' := h.setPriority hset
      exact hset'.congr ⟨rfl, rfl⟩ rfl rfl

theorem handled {now : Option Timespec} {event : VrrpEvent} {out : List Output}
    (h : Coherent contents d) (hh : Handled host now d event d' out) : Coherent contents d' := by
  have hf := SameFixed.handled hh
  cases hh with
  | ignore => exact h
  | takeover => exact h.congr hf rfl rfl
  | shorten => exact h.congr hf rfl rfl
  | follow => exact h.congr hf (d.learnt_priority host) rfl
  | restart => exact h.congr hf rfl rfl
  | tick => exact h.congr hf rfl rfl
  | answer => exact h.congr hf rfl rfl
  | yield => exact h.congr hf rfl rfl
  | resign hs he hr hz =>
    obtain ⟨rfl, -⟩ := h.sendZero hz
    exact h.congr hf rfl rfl

theorem step {inp : Input} {out : List Output} (h : Coherent contents d)
    (hs : processStep host inp d = .ok (d', out)) : Coherent contents d' := by
  have hf := SameFixed.step hs
  cases processStep_cases hs with
  | startMaster => exact h.congr hf rfl rfl
  | startBackup => exact h.congr hf rfl rfl
  | serve hst hl hh => exact ((h.heard (vrrpListen_cases hl)).handled hh).congr ⟨rfl, rfl⟩ rfl rfl
  | stuck => exact h

/-- A frame as the daemon sends it, with some priority. -/
def Announces (contents : Nat → UInt8) (d : Daemon) (prio : UInt8) (frame : Frame) : Prop :=
  frame = { d.vnet.adv with data := some (advPayload d.vnet { d.vrrp with priority := prio }
    (authTail contents d.vnet d.vrrp)) }

theorem announces (h : Coherent contents d) : Announces contents d d.vrrp.priority d.vnet.adv := by
  rw [Announces]
  rw [show { d.vrrp with priority := d.vrrp.priority } = d.vrrp from rfl, ← h.data]

/-- Every frame that a step sends is the current one or a resignation. -/
theorem sent {inp : Input} {out : List Output} (h : Coherent contents d)
    (hs : processStep host inp d = .ok (d', out)) {frame : Frame} (hm : frame ∈ advs out) :
    ∃ d₁ prio, Coherent contents d₁ ∧ SameFixed d d₁ ∧ Announces contents d₁ prio frame ∧
      (prio = 0 ∨ prio = d.vrrp.priority) := by
  cases processStep_cases hs with
  | startMaster =>
    obtain rfl : frame = d.vnet.adv := by simpa [Daemon.primed] using hm
    exact ⟨d, _, h, .refl d, h.announces, .inr rfl⟩
  | startBackup => simp at hm
  | @serve hst event d₁ d₂ out hl hh =>
    have hl := vrrpListen_cases hl
    have h₁ := h.heard hl
    have hcurrent (he : event ≠ .ctrlFifo) (hm : frame = d₁.vnet.adv) :
        ∃ d₁ prio, Coherent contents d₁ ∧ SameFixed d d₁ ∧ Announces contents d₁ prio frame ∧
          (prio = 0 ∨ prio = d.vrrp.priority) :=
      ⟨d₁, _, h₁, .heard hl, hm ▸ h₁.announces, .inr (hl.priority he)⟩
    cases hh with
    | ignore => simp at hm
    | takeover => exact hcurrent (by simp) (by simpa using hm)
    | shorten => simp at hm
    | follow => simp at hm
    | restart => simp at hm
    | tick => exact hcurrent (by simp) (by simpa using hm)
    | answer => exact hcurrent (by simp) (by simpa using hm)
    | yield => simp at hm
    | resign _ _ _ hz =>
      obtain ⟨-, hframe⟩ := h₁.sendZero hz
      obtain rfl : frame = _ := by simpa using hm
      exact ⟨d₁, 0, h₁, .heard hl, hframe, .inl rfl⟩
  | stuck => simp at hm

end Coherent

section Runs
variable {host : ByteOrder} {c : Config} {fresh : Fresh} {h : List (Entry Daemon Input Output)}
  {d : Daemon}

theorem History.coherent (run : History host c fresh h d) :
    ∃ contents, fresh.mem.data = some contents ∧ Coherent contents d := by
  obtain ⟨start, hboot, hrun⟩ := run
  have hb := boot_spec hboot
  obtain ⟨contents, hm, hdata⟩ := hb.data
  refine ⟨contents, hm, Run.holds (Coherent contents) hrun ⟨hb.prepared, hdata⟩ ?_⟩
  intro i t u out ht hs
  exact ht.step hs

/-- What precedes a recorded step is itself a history. -/
theorem History.mem (run : History host c fresh h d) {e : Entry Daemon Input Output} (he : e ∈ h) :
    (∃ before, History host c fresh before e.pre ∧ ∀ a ∈ before, a ∈ h) ∧
      processStep host e.input e.pre = .ok (e.post, e.output) := by
  obtain ⟨start, hboot, hrun⟩ := run
  obtain ⟨before, hb, hsub, hs⟩ := hrun.mem he
  exact ⟨⟨before, ⟨start, hboot, hb⟩, hsub⟩, hs⟩

theorem History.snoc (run : History host c fresh h d) {inp : Input} {d' : Daemon} {out : List Output}
    (hs : processStep host inp d = .ok (d', out)) : History host c fresh (h ++ [⟨d, inp, out, d'⟩]) d' := by
  obtain ⟨start, hboot, hrun⟩ := run
  exact ⟨start, hboot, .snoc hrun hs⟩

end Runs

def frameAddrs (family : Family) (frame : Frame) : Except Fault (Octets × Octets) :=
  match family with
  | .inet => do
    let ip ← deref frame.ip
    return (← load ip 12 4, ← load ip 16 4)
  | .inet6 => do
    let ip ← deref frame.ip
    return (← load ip 8 16, ← load ip 24 16)

private theorem OwnHeader.frameAddrs {vnet : VrrpNet} (h : OwnHeader vnet) :
    frameAddrs vnet.family vnet.adv =
      .ok (vnet.vif.ipx.octets vnet.family, vrrpGroup vnet.family) := by
  obtain ⟨-, -, hr⟩ := h.resolves
  unfold Uvrrpd.frameAddrs
  cases hf : vnet.family with
  | inet =>
    simp only [hf] at hr ⊢
    obtain ⟨iph, hip, -, hs, hd⟩ := hr
    simp only [addrOr] at hs hd
    simp only [hip, deref, ok_bind, hs, hd, pure_eq_ok]
  | inet6 =>
    simp only [hf] at hr ⊢
    exact hr

theorem vrrpGroup_ne_zero (family : Family) : vrrpGroup family ≠ IpxAddr.zero.octets family := by
  cases family <;> decide

/-- The checksum of a sent frame is the one that a peer with as many VIPs computes
from the addresses it finds in the frame. -/
theorem Coherent.Announces.verifies {contents : Nat → UInt8} {d d' : Daemon} {prio : UInt8}
    {frame : Frame} (h : Coherent contents d) (ha : Coherent.Announces contents d prio frame)
    (host : ByteOrder) (hown : OwnHeader d'.vnet) (hf : d'.vnet.family = d.vnet.family)
    (hn : d'.vnet.naddr = d.vnet.naddr) {saddr daddr : IpxAddr}
    (hs : saddr.octets d.vnet.family ≠ IpxAddr.zero.octets d.vnet.family)
    (haddr : frameAddrs d.vnet.family frame =
      .ok (saddr.octets d.vnet.family, daddr.octets d.vnet.family)) :
    ∃ pkt, frame.data = some pkt ∧ Verifies host d'.vnet pkt (some saddr) (some daddr) := by
  have hfa : frameAddrs d.vnet.family frame = frameAddrs d.vnet.family d.vnet.adv := by
    rw [ha]
    rfl
  rw [hfa, h.prepared.own.frameAddrs] at haddr
  obtain ⟨hsa, hda⟩ := Prod.mk.inj (Except.ok.inj haddr)
  have hg : advGetsize d'.vnet = advGetsize d.vnet := advGetsize_congr hf hn
  have hr := hown.received (s := saddr) (d := daddr) (by rw [hf]; exact hs)
    (by rw [hf, ← hda]; exact vrrpGroup_ne_zero _)
  rw [hf, ← hsa, ← hda] at hr
  refine ⟨_, congrArg Frame.data ha, ?_⟩
  exact advPayload_verifies host _ h.fills hf hg hr

/-- In every state a daemon reaches, the buffer is what the builder would write for
the current structure. Every frame it has sent verifies at every peer, of either
byte order, that has as many VIPs, resignations included. -/
theorem adv_buffer_coherent {host : ByteOrder} {c : Config} {fresh : Fresh}
    {h : List (Entry Daemon Input Output)} {d : Daemon} (run : History host c fresh h d) :
    vrrpAdvBuild host fresh.mem.data d.vnet d.vrrp = .ok (true, d.vnet.adv.data) ∧
    (∃ start first pkt, boot host c fresh = .ok (some start) ∧
      start.vnet.adv.data = some first ∧ d.vnet.adv.data = some pkt ∧
      load8 pkt 2 = .ok d.vrrp.priority ∧
      (∀ i, i ≠ 2 → i ≠ 6 → i ≠ 7 → pkt[i]? = first[i]?) ∧
      Verifies host d.vnet pkt none none) ∧
    ∀ e ∈ h, ∀ frame, .adv frame ∈ e.output →
      ∀ host' c' fresh' h' d', History host' c' fresh' h' d' → c'.family = c.family →
      c'.vips.length = c.vips.length → ∀ saddr daddr : IpxAddr,
      frameAddrs c.family frame = .ok (saddr.octets c.family, daddr.octets c.family) →
      saddr.octets c.family ≠ IpxAddr.zero.octets c.family →
      ∃ pkt, frame.data = some pkt ∧ Verifies host' d'.vnet pkt (some saddr) (some daddr) := by
  obtain ⟨contents, hm, hco⟩ := run.coherent
  refine ⟨?_, ?_, ?_⟩
  · rw [hm, vrrpAdvBuild_spec host contents hco.prepared, hco.data]
  · obtain ⟨start, hboot, hrun⟩ := run
    have hb := boot_spec hboot
    have hsame := SameFixed.run hrun
    obtain ⟨contents', hm', hfirst⟩ := hb.data
    obtain rfl : contents' = contents := by rw [hm'] at hm; exact Option.some.inj hm
    have hpkt : advPayload d.vnet d.vrrp (authTail contents' d.vnet d.vrrp) =
        advPayload start.vnet { start.vrrp with priority := d.vrrp.priority }
          (authTail contents' start.vnet start.vrrp) := by
      rw [authTail_congr hsame.2 hsame.1]
      exact advPayload_congr (v := { start.vrrp with priority := d.vrrp.priority }) hsame.2 hsame.1 rfl _
    refine ⟨start, _, _, hboot, hfirst, hco.data, rfl, ?_, ?_⟩
    · intro i h₂ h₆ h₇
      rw [hpkt]
      exact advPayload_getElem? _ _ _ _ h₂ h₆ h₇
    · exact advPayload_verifies host _ hco.fills rfl rfl hco.prepared.own.resolves
  · intro e he frame hframe host' c' fresh' h' d' run' hfam hcount saddr daddr haddr hne
    obtain ⟨⟨before, hbefore, -⟩, hstep⟩ := run.mem he
    obtain ⟨contents₁, -, hco₁⟩ := hbefore.coherent
    obtain ⟨d₁, prio, hc₁, hsame₁, hann, -⟩ := hco₁.sent hstep (mem_advs.mpr hframe)
    have hcfg := hbefore.configured.of_fixed hsame₁
    have hcfg' := run'.configured
    obtain ⟨contents', -, hco'⟩ := run'.coherent
    have hnaddr : c'.naddr = c.naddr := by rw [Config.naddr, Config.naddr, hcount]
    rw [← hcfg.family] at hne haddr
    exact hann.verifies hc₁ host' hco'.prepared.own
      (hcfg'.family.trans (hfam.trans hcfg.family.symm))
      (hcfg'.netNaddr.trans (hnaddr.trans hcfg.netNaddr.symm)) hne haddr

/-- A router alone on its network, after it has sent its first advertisement. -/
theorem adv_buffer_coherent_lab :
    (advs (outputs (lab.runOn [.quiet ⟨1, 0⟩, .quiet ⟨9, 0⟩]).1)).length = 1 ∧
    vrrpAdvBuild .little (some (fun _ => 0)) (lab.runOn [.quiet ⟨1, 0⟩, .quiet ⟨9, 0⟩]).2.vnet
        (lab.runOn [.quiet ⟨1, 0⟩, .quiet ⟨9, 0⟩]).2.vrrp =
      .ok (true, (lab.runOn [.quiet ⟨1, 0⟩, .quiet ⟨9, 0⟩]).2.vnet.adv.data) :=
  ⟨by decide +kernel, (adv_buffer_coherent (history_runOn (.inl rfl) _)).1⟩

end Uvrrpd
