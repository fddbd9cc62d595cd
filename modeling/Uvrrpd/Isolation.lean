import Uvrrpd.Safety
import Uvrrpd.Veil

/-! A datagram that is judged invalid, or that the handler passes over, leaves
nothing behind that a later step reads. -/
namespace Uvrrpd
open Library.Memory (bind_eq_ok)
open Library.Runs

/-- Verdicts that the handlers discard, in the state `vrrp_listen` leaves. -/
def discarded (d : Daemon) : VrrpEvent → Bool
  | .invalid => true
  | .vridMismatch => true
  | .pkt =>
    let prio := vrrpAdvGetPriority d.vnet
    match d.vrrp.state with
    | .backup => d.vrrp.preempt && prio != 0 && prio < d.vrrp.priority
    | .master => prio != 0 &&
      (prio < d.vrrp.priority || prio == d.vrrp.priority && decide (vrrpAdvAddrCmp d.vnet ≤ 0))
    | _ => false
  | _ => false

def discards (host : ByteOrder) (e : Entry Daemon Input Output) : Bool :=
  (e.pre.vrrp.state == .backup || e.pre.vrrp.state == .master) && readsSocket e.input e.pre &&
    match vrrpListen host e.input e.pre with
    | .ok (event, d) => discarded d event
    | .error _ => false

private theorem readsSocket_iff {inp : Input} {d : Daemon} {id : TimerId} (hid : runningTimer d.vrrp = some id) :
    readsSocket inp d = true ↔ ∃ fifo, waitEnd inp (d.vrrp.timer id) = some (.ready true fifo) := by
  rw [readsSocket, hid, waitEnd]
  simp only
  cases (vrrpTimerUpdate inp.clockUpdate (d.vrrp.timer id)).1 <;> cases inp.pselect <;> simp

/-- Such a wait ends in `vrrp_net_recv`. -/
theorem vrrpListen_of_readsSocket (host : ByteOrder) {inp : Input} {d : Daemon}
    (hr : readsSocket inp d = true) :
    ∃ a m, vrrpListen host inp d = do
      let (event, vnet, buf) ← vrrpNetRecvBuf host d.vnet (d.waited a m).vrrp inp.sock (inp.stack d.buf).toList
      return (event, { d.waited a m with vnet := vnet, buf := buf }) := by
  cases hid : runningTimer d.vrrp with
  | none => simp [readsSocket, hid] at hr
  | some id =>
    obtain ⟨fifo, hend⟩ := (readsSocket_iff hid).mp hr
    obtain ⟨a, m, heq⟩ := vrrpListen_waits host inp hid
    rw [hend] at heq
    exact ⟨a, m, heq⟩

/-- An advertisement that reception would accept is heard, whatever the timer keeps. -/
theorem vrrpListen_of_recv {host : ByteOrder} {inp : Input} {d : Daemon} {datagram : Datagram}
    (hr : readsSocket inp d = true) (hsock : inp.sock = some datagram)
    (hrecv : ∃ vnet, vrrpNetRecv host d.vnet d.vrrp (some datagram) (inp.stack d.buf).toList = .ok (.pkt, vnet)) :
    ∃ d₁, vrrpListen host inp d = .ok (.pkt, d₁) := by
  obtain ⟨a, m, heq⟩ := vrrpListen_of_readsSocket host hr
  obtain ⟨vnet, hrecv⟩ := hrecv
  obtain ⟨pkt, hveil, -⟩ := vrrpNetRecv_veil a m d.vnet.pkt hrecv
  obtain ⟨buf, hbuf⟩ := exists_buf hveil
  rw [heq, hsock]
  exact ⟨_, congrArg (· >>= _) hbuf⟩

/-- Such a wait leaves the essence alone. -/
private theorem essence_of_readsSocket {host : ByteOrder} {inp : Input} {d d₁ : Daemon} {event : VrrpEvent}
    (hr : readsSocket inp d = true) (h : vrrpListen host inp d = .ok (event, d₁)) :
    d₁.essence = d.essence := by
  obtain ⟨a, m, heq⟩ := vrrpListen_of_readsSocket host hr
  rw [heq] at h
  obtain ⟨⟨verdict, vnet, buf⟩, hrecv, h⟩ := bind_eq_ok.mp h
  obtain ⟨rfl, rfl⟩ : _ = event ∧ _ = d₁ := by simpa using h
  rw [(vrrpNetRecv_cases (vrrpNetRecv_of_buf hrecv)).1]
  rfl

theorem Heard.reads {host : ByteOrder} {inp : Input} {d d' : Daemon} {event : VrrpEvent}
    (h : Heard host inp d event d') (he : event = .pkt) : ∃ fifo, inp.pselect = .ready true fifo := by
  cases h with
  | timer => cases he
  | signal => cases he
  | idle => cases he
  | datagram a m buf hp hr => exact ⟨_, hp⟩
  | command a m hp hc => cases vrrpCtrlRead_cases hc <;> cases he

/-- What listening reports as an advertisement was read from the socket. -/
theorem readsSocket_of_pkt {host : ByteOrder} {inp : Input} {d d₁ : Daemon}
    (hl : vrrpListen host inp d = .ok (.pkt, d₁)) : readsSocket inp d = true := by
  obtain ⟨fifo, hp⟩ := (vrrpListen_cases hl).reads rfl
  obtain ⟨id, a, m, hid, hl⟩ := vrrpListen_waited hl
  cases hend : waitEnd inp (d.vrrp.timer id) with
  | none =>
    rw [hend] at hl
    cases hl
  | some answer =>
    have hanswer := waitEnd_eq_some hend
    rw [hp] at hanswer
    exact (readsSocket_iff hid).mpr ⟨fifo, hanswer ▸ hend⟩

private theorem backupEvent_discarded (host : ByteOrder) (now : Option Timespec) {d : Daemon}
    {event : VrrpEvent} (hs : d.vrrp.state = .backup) (h : discarded d event = true) :
    backupEvent host now d event = (d, []) := by
  cases event with
  | invalid => rfl
  | vridMismatch => rfl
  | pkt =>
    simp only [discarded, hs, Bool.and_eq_true, bne_iff_ne, ne_eq, decide_eq_true_eq] at h
    obtain ⟨⟨hpre, hz⟩, hlt⟩ := h
    have hnf : ¬ (d.vrrp.preempt = false ∨ vrrpAdvGetPriority d.vnet ≥ d.vrrp.priority) := by
      rw [hpre]
      rintro (hf | hge)
      · cases hf
      · exact absurd hlt (UInt8.not_lt.mpr hge)
    simp only [backupEvent, backupPkt, if_neg hz, if_neg hnf, ite_self]
  | signal => simp [discarded] at h
  | ctrlFifo => simp [discarded] at h
  | timer => simp [discarded] at h

private theorem masterEvent_discarded (host : ByteOrder) (now : Option Timespec) {d : Daemon}
    {event : VrrpEvent} (hs : d.vrrp.state = .master) (h : discarded d event = true) :
    masterEvent host now d event = .ok (d, []) := by
  cases event with
  | invalid => rfl
  | vridMismatch => rfl
  | pkt =>
    simp only [discarded, hs, Bool.and_eq_true, Bool.or_eq_true, bne_iff_ne, ne_eq, beq_iff_eq,
      decide_eq_true_eq] at h
    obtain ⟨hz, hle⟩ := h
    have hngt : ¬ vrrpAdvGetPriority d.vnet > d.vrrp.priority := by
      rcases hle with hlt | ⟨heq, -⟩
      · exact UInt8.not_lt.mpr (UInt8.le_of_lt hlt)
      · rw [heq]
        exact UInt8.lt_irrefl _
    have hntie : ¬ (vrrpAdvGetPriority d.vnet = d.vrrp.priority ∧ vrrpAdvAddrCmp d.vnet > 0) := by
      rintro ⟨heq, hgt⟩
      rcases hle with hlt | ⟨-, hle⟩
      · rw [heq] at hlt
        exact UInt8.lt_irrefl _ hlt
      · omega
    simp only [masterEvent, masterPkt, if_neg hz, if_neg hngt, if_neg hntie, ite_self]
  | signal => simp [discarded] at h
  | ctrlFifo => simp [discarded] at h
  | timer => simp [discarded] at h

def Undumped (d : Daemon) : Prop := testBit UVRRPD_DUMP d.reg = false

theorem Undumped.step {host : ByteOrder} {inp : Input} {d d' : Daemon} {out : List Output}
    (hd : Undumped d) (h : processStep host inp d = .ok (d', out)) : Undumped d' := by
  have hc (e : Daemon) : Undumped e.dumped := by
    simp [Undumped, Daemon.dumped, UVRRPD_DUMP]
  cases processStep_cases h with
  | startMaster => exact hc _
  | startBackup => exact hc _
  | serve => exact hc _
  | stuck => exact hd

private theorem dumped_of_undumped {d : Daemon} (h : Undumped d) : d.dumped = d := by
  rw [Daemon.dumped, clearBit_of_clear (by decide) h]

/-- A discarding step emits nothing and leaves the essence alone. -/
theorem discards_stutter {host : ByteOrder} {inp : Input} {d u : Daemon} {out : List Output}
    (hd : Undumped d) (h : processStep host inp d = .ok (u, out))
    (hidle : discards host ⟨d, inp, out, u⟩ = true) : out = [] ∧ u.essence = d.essence := by
  simp only [discards, Bool.and_eq_true, Bool.or_eq_true, beq_iff_eq] at hidle
  obtain ⟨⟨hst, hreads⟩, hdisc⟩ := hidle
  cases hl : vrrpListen host inp d with
  | error fault => simp [hl] at hdisc
  | ok r =>
    obtain ⟨event, d₁⟩ := r
    simp only [hl] at hdisc
    have hs₁ := (vrrpListen_cases hl).state
    have hstep : processStep host inp d = .ok (d₁.dumped, []) := by
      rcases hst with hs | hs
      · have he := backupEvent_discarded host inp.clockSet (hs₁.trans hs) hdisc
        simp only [processStep, vrrpProcess, vrrpDispatch, hs, vrrpStateBackup, hl, ok_bind, he]
        rfl
      · have he := masterEvent_discarded host inp.clockSet (hs₁.trans hs) hdisc
        simp only [processStep, vrrpProcess, vrrpDispatch, hs, vrrpStateMaster, hl, ok_bind, he]
        rfl
    obtain ⟨rfl, rfl⟩ := Prod.mk.inj (Except.ok.inj (h.symm.trans hstep))
    refine ⟨rfl, ?_⟩
    calc d₁.dumped.essence = d₁.essence.dumped := rfl
      _ = d.essence.dumped := by rw [essence_of_readsSocket hreads hl]
      _ = d.dumped.essence := rfl
      _ = d.essence := by rw [dumped_of_undumped hd]

theorem History.undumped {host : ByteOrder} {c : Config} {fresh : Fresh} {h : List (Entry Daemon Input Output)}
    {d : Daemon} (run : History host c fresh h d) : Undumped d := by
  obtain ⟨start, hboot, hrun⟩ := run
  refine hrun.holds Undumped ?_ (fun _ _ _ _ hd hs => hd.step hs)
  rw [Undumped, (boot_spec hboot).reg]
  decide

/-- The step reads a datagram that reception looks beyond the end of. -/
def ReadsBeyond (e : Entry Daemon Input Output) : Prop :=
  (e.pre.vrrp.state = .backup ∨ e.pre.vrrp.state = .master) ∧ readsSocket e.input e.pre = true ∧
    ∃ datagram, e.input.sock = some datagram ∧ Overreads e.pre datagram.octets

/-- What reception does not look beyond, it judges alike on every stack. -/
private theorem StaysWithin.receivesAlike {host : ByteOrder} {inp : Input} {d : Daemon} {datagram : Datagram}
    (h : StaysWithin host d datagram) (hsock : inp.sock = some datagram) (stack : List.Vector UInt8 IP_MAXPACKET) :
    ReceivesAlike host inp d stack := by
  obtain ⟨r₀, hown⟩ := h
  intro event vnet hr
  rw [hsock] at hr ⊢
  obtain rfl := Except.ok.inj (hr.symm.trans (vrrpNetRecv_extend hown _))
  exact ⟨vnet.pkt, vrrpNetRecv_extend hown _, fun _ => ⟨⟨rfl, rfl, rfl⟩, rfl⟩⟩

/-- A failed read is judged invalid. -/
private theorem vrrpNetRecv_failed {host : ByteOrder} {vnet vnet' : VrrpNet} {vrrp : Vrrp} {stack : Octets}
    {event : VrrpEvent} (h : vrrpNetRecv host vnet vrrp none stack = .ok (event, vnet')) : event = .invalid := by
  rw [vrrpNetRecv_def] at h
  obtain ⟨r, hr, h⟩ := bind_eq_ok.mp h
  have hlen : r.len = none := by
    cases hf : vnet.family with
    | inet =>
      rw [hf, pktReceive, vrrpIp4Recv_eq] at hr
      obtain ⟨_, -, hr⟩ := bind_eq_ok.mp hr
      obtain ⟨_, -, hr⟩ := bind_eq_ok.mp hr
      obtain ⟨_, -, hr⟩ := bind_eq_ok.mp hr
      obtain ⟨_, -, hr⟩ := bind_eq_ok.mp hr
      obtain ⟨_, -, hr⟩ := bind_eq_ok.mp hr
      obtain ⟨_, -, hr⟩ := bind_eq_ok.mp hr
      rw [← Except.ok.inj hr]
      rfl
    | inet6 =>
      rw [hf] at hr
      rw [← Except.ok.inj hr]
      rfl
  simp only [hlen] at h
  exact (Prod.mk.inj (Except.ok.inj h)).1.symm

/-- What does not read beyond the end of a datagram is received alike on every stack. -/
theorem receivesAlike_of_within {host : ByteOrder} {c : Config} {fresh : Fresh}
    {h : List (Entry Daemon Input Output)} {inp : Input} {d u : Daemon} {out : List Output}
    (run : History host c fresh h d)
    (hkernel : ∀ datagram, inp.sock = some datagram → FromKernel c.family datagram.octets)
    (hwithin : ¬ ReadsBeyond ⟨d, inp, out, u⟩) (hst : d.vrrp.state = .backup ∨ d.vrrp.state = .master)
    (hreads : readsSocket inp d = true) (stack : List.Vector UInt8 IP_MAXPACKET) :
    ReceivesAlike host inp d stack := by
  cases hsock : inp.sock with
  | none =>
    intro event vnet hr
    obtain ⟨⟨event', vnet'⟩, hr'⟩ := vrrpNetRecv_ok host run.ready none stack
    rw [hsock] at hr ⊢
    obtain rfl := vrrpNetRecv_failed hr
    obtain rfl := vrrpNetRecv_failed hr'
    have hveil : vnet' = vnet.veil vnet'.pkt :=
      calc vnet' = d.vnet.veil vnet'.pkt := (vrrpNetRecv_cases hr').1
        _ = (d.vnet.veil vnet.pkt).veil vnet'.pkt := rfl
        _ = vnet.veil vnet'.pkt := congrArg (VrrpNet.veil · vnet'.pkt) (vrrpNetRecv_cases hr).1.symm
    exact ⟨vnet'.pkt, hveil ▸ hr', nofun⟩
  | some datagram =>
    have hshort : ¬ Overreads d datagram.octets := fun hover => hwithin ⟨hst, hreads, datagram, hsock, hover⟩
    have hfam := run.configured.family
    have hk := hkernel datagram hsock
    cases hf : c.family with
    | inet =>
      rw [hf] at hfam hk
      exact ((staysWithin_ip4 host run.ready hfam hk).mpr hshort).receivesAlike hsock stack
    | inet6 =>
      rw [hf] at hfam
      exact (staysWithin_ip6 host run.ready hfam datagram).receivesAlike hsock stack

/-- The inputs of two steps, which may find different things on the stack. -/
def SameButStack (inp inp' : Input) : Prop := inp = { inp' with stack := inp.stack }

/-- Rejected traffic has no influence, as long as no step that is kept reads beyond the end
of its datagram. Whatever is on the stack, the inputs of the kept steps alone give the same
outputs and the same daemon, up to remaining times and what the last datagram has left. -/
theorem rejected_traffic_erasable {host : ByteOrder} {c : Config} {fresh : Fresh}
    {h : List (Entry Daemon Input Output)} {d : Daemon} (run : History host c fresh h d)
    (hkernel : ∀ e ∈ h, ∀ datagram, e.input.sock = some datagram → FromKernel c.family datagram.octets)
    (hwithin : ∀ e ∈ h, ReadsBeyond e → discards host e = true) {inputs : List Input}
    (hinputs : List.Forall₂ SameButStack inputs ((h.filter (fun e => !discards host e)).map Entry.input)) :
    ∃ k d', History host c fresh k d' ∧ k.map Entry.input = inputs ∧ outputs k = outputs h ∧
      d'.essence = d.essence := by
  obtain ⟨start, hboot, hrun⟩ := run
  obtain ⟨k, d', hk, hess, hout, hin⟩ :=
    Run.erase SameButStack (fun t t' : Daemon => t'.essence = t.essence) (fun t => ∃ k, History host c fresh k t)
      (fun e => (∀ datagram, e.input.sock = some datagram → FromKernel c.family datagram.octets) ∧
        (ReadsBeyond e → discards host e = true)) (discards host) hrun
      (fun e he => ⟨hkernel e he, hwithin e he⟩) rfl ⟨[], start, hboot, .nil⟩
      (fun _ _ _ _ hk hs _ => hk.imp' _ fun _ run => run.snoc hs)
      (by
        intro inp inp' t t' u out hinv hR hsame hs hok hkept
        obtain ⟨k, hist⟩ := hinv
        obtain ⟨a, m, pkt, heq⟩ := exists_veil hR
        have hbeyond : ¬ ReadsBeyond ⟨t, inp, out, u⟩ := fun hb => by
          rw [hok.2 hb] at hkept
          cases hkept
        rw [heq, hsame]
        exact processStep_veil a m pkt
          (fun hst hreads => receivesAlike_of_within hist hok.1 hbeyond hst hreads _) hs)
      (by
        intro inp t t' u out hinv hR hs _ hidle
        obtain ⟨k, hist⟩ := hinv
        obtain ⟨rfl, hess⟩ := discards_stutter hist.undumped hs hidle
        exact ⟨rfl, hR.trans hess.symm⟩)
      hinputs
  exact ⟨k, d', ⟨start, hboot, hk⟩, hin, hout, hess⟩

def runt : Input :=
  { Input.quiet ⟨2, 0⟩ with
    pselect := .ready true false
    sock := some ⟨[0x31, 7, 100], ⟨[0xfe, 0x80, 0, 0, 0, 0, 0, 0, 0, 0, 0, 0, 0, 0, 0, 2], rfl⟩, some 255,
      some ⟨IN6ADDR_VRRP_GROUP, rfl⟩⟩ }

theorem rejected_traffic_erasable_runt :
    (lab6.runOn [.quiet ⟨1, 0⟩, runt, .quiet ⟨9, 0⟩]).1.map (discards .little) = [false, true, false] ∧
    ∃ k d', History .little lab6 (.filled 0) k d' ∧
      k.map Entry.input = ((lab6.runOn [.quiet ⟨1, 0⟩, runt, .quiet ⟨9, 0⟩]).1.filter
        (fun e => !discards .little e)).map Entry.input ∧
      outputs k = outputs (lab6.runOn [.quiet ⟨1, 0⟩, runt, .quiet ⟨9, 0⟩]).1 ∧
      d'.essence = (lab6.runOn [.quiet ⟨1, 0⟩, runt, .quiet ⟨9, 0⟩]).2.essence := by
  have run : History .little lab6 (.filled 0) _ _ :=
    history_runOn (.inr (by decide)) [.quiet ⟨1, 0⟩, runt, .quiet ⟨9, 0⟩]
  have hdiscards : (lab6.runOn [.quiet ⟨1, 0⟩, runt, .quiet ⟨9, 0⟩]).1.map (discards .little) =
      [false, true, false] := by decide +kernel
  have hwithin : ∀ e ∈ (lab6.runOn [.quiet ⟨1, 0⟩, runt, .quiet ⟨9, 0⟩]).1,
      readsSocket e.input e.pre = true → discards .little e = true := by decide +kernel
  exact ⟨hdiscards, rejected_traffic_erasable run (fun _ _ _ _ => trivial)
    (fun e he hbeyond => hwithin e he hbeyond.2.1) (List.forall₂_same.mpr fun _ _ => rfl)⟩

/-- The array lies where the last one lay and nothing else has been written there. At first it
holds ones. -/
def undisturbed (left : Octets) : List.Vector UInt8 IP_MAXPACKET :=
  ⟨(left ++ List.replicate IP_MAXPACKET 1).take IP_MAXPACKET, by simp⟩

def Input.into (now : Timespec) (datagram : Datagram) : Input :=
  { Input.packet now datagram with stack := undisturbed }

def alien : Datagram :=
  { stunted with octets := [0x45, 0, 0, 40, 0, 0, 0, 0, 255, 112, 0, 0, 192, 0, 2, 2, 224, 0, 0, 18,
      0x21, 8, 200, 1, 0, 1, 0x54, 0xea, 192, 0, 2, 10, 0, 0, 0, 0, 0, 0, 0, 0] }

def lingering : List Input := [.quiet ⟨1, 0⟩, .into ⟨2, 0⟩ alien, .into ⟨3, 0⟩ stunted, .quiet ⟨5, 0⟩]

def unlingering : List Input := [.quiet ⟨1, 0⟩, .into ⟨3, 0⟩ stunted, .quiet ⟨5, 0⟩]

/-- Where reception looks beyond the end of a datagram it finds what the datagram before it
has left there: without the one that it has rejected the router becomes master. -/
theorem rejected_traffic_lingers :
    History .little lab (.filled 0) (lab.runOn lingering).1 (lab.runOn lingering).2 ∧
    History .little lab (.filled 0) (lab.runOn unlingering).1 (lab.runOn unlingering).2 ∧
    (lab.runOn lingering).1.map Entry.input = lingering ∧
    (lab.runOn unlingering).1.map Entry.input = unlingering ∧
    (lab.runOn lingering).1.map (discards .little) = [false, true, false, false] ∧
    unlingering = lingering.eraseIdx 1 ∧
    lingering.filterMap Input.sock = [alien, stunted] ∧
    FromKernel lab.family alien.octets ∧ FromKernel lab.family stunted.octets ∧
    (lab.runOn lingering).2.vrrp.state = .backup ∧ (lab.runOn unlingering).2.vrrp.state = .master := by
  have hwith : (lab.runOn lingering).1.map (discards .little) = [false, true, false, false] ∧
      (lab.runOn lingering).2.vrrp.state = .backup := by decide +kernel
  have hwithout : (lab.runOn unlingering).1.length = 3 ∧ (lab.runOn unlingering).2.vrrp.state = .master := by
    decide +kernel
  have hrun : (lab.runOn lingering).1 ≠ [] := fun hnil => by
    rw [hnil] at hwith
    cases hwith.1
  have hrun' : (lab.runOn unlingering).1 ≠ [] := List.ne_nil_of_length_pos (hwithout.1 ▸ Nat.succ_pos 2)
  exact ⟨history_runOn (.inl rfl) lingering, history_runOn (.inl rfl) unlingering, inputs_runOn hrun,
    inputs_runOn hrun', hwith.1, rfl, rfl, by decide, by decide, hwith.2, hwithout.2⟩

end Uvrrpd
