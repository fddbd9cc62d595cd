import Uvrrpd.Steps
import Uvrrpd.AdvFormat

/-! What no step changes: everything the command line has set but the priority, and
the frame but its payload. -/
namespace Uvrrpd
open Library.Memory (bind_eq_ok)
open Library.Runs

/-- The structure without the members that change while the daemon runs. -/
def Vrrp.fixed (v : Vrrp) : Vrrp :=
  { v with
    priority := 0
    masterAdvInt := 0
    state := .init
    ctrl := ⟨[], []⟩
    advTimer := vrrpTimerClear
    masterdownTimer := vrrpTimerClear }

def VrrpNet.fixed (n : VrrpNet) : VrrpNet :=
  { n with
    pkt := ⟨.zero, .zero, ⟨0, 0, 0, 0⟩, ⟨0, 0, 0, 0, 0, 0, 0, 0⟩⟩
    adv := { n.adv with data := none } }

def SameFixed (d d' : Daemon) : Prop :=
  d'.vrrp.fixed = d.vrrp.fixed ∧ d'.vnet.fixed = d.vnet.fixed

theorem SameFixed.refl (d : Daemon) : SameFixed d d := ⟨rfl, rfl⟩

theorem SameFixed.trans {d d' d'' : Daemon} (h : SameFixed d d') (h' : SameFixed d' d'') :
    SameFixed d d'' := ⟨h'.1.trans h.1, h'.2.trans h.2⟩

theorem SameFixed.version {d d' : Daemon} (h : SameFixed d d') : d'.vrrp.version = d.vrrp.version := by
  have hv := congrArg Vrrp.version h.1
  exact hv

theorem SameFixed.advInt {d d' : Daemon} (h : SameFixed d d') : d'.vrrp.advInt = d.vrrp.advInt := by
  have hv := congrArg Vrrp.advInt h.1
  exact hv

theorem SameFixed.startDelay {d d' : Daemon} (h : SameFixed d d') :
    d'.vrrp.startDelay = d.vrrp.startDelay := by
  have hv := congrArg Vrrp.startDelay h.1
  exact hv

theorem SameFixed.family {d d' : Daemon} (h : SameFixed d d') : d'.vnet.family = d.vnet.family := by
  have hv := congrArg VrrpNet.family h.2
  exact hv

theorem Prepared.congr {n n' : VrrpNet} {v v' : Vrrp} (h : Prepared n v) (hn : n'.fixed = n.fixed)
    (hv : v'.fixed = v.fixed) : Prepared n' v' := by
  obtain ⟨_, _, _, _, _, _, ⟨_, _, _⟩⟩ := n
  obtain ⟨_, _, _, _, _, _, ⟨_, _, _⟩⟩ := n'
  cases v
  cases v'
  simp only [Vrrp.fixed, VrrpNet.fixed, Vrrp.mk.injEq, VrrpNet.mk.injEq, Frame.mk.injEq] at hn hv
  obtain ⟨rfl, rfl, rfl, rfl, rfl, -, rfl, rfl, -⟩ := hn
  obtain ⟨rfl, rfl, -, rfl, rfl, rfl, -, rfl, rfl, -, rfl, -⟩ := hv
  exact ⟨h.naddr, h.count, h.own, h.auth⟩

theorem advPayload_congr {n n' : VrrpNet} {v v' : Vrrp} (hn : n'.fixed = n.fixed)
    (hv : v'.fixed = v.fixed) (hp : v'.priority = v.priority) (tail : Octets) :
    advPayload n' v' tail = advPayload n v tail := by
  cases n
  cases n'
  cases v
  cases v'
  simp only [Vrrp.fixed, VrrpNet.fixed, Vrrp.mk.injEq, VrrpNet.mk.injEq] at hn hv hp
  obtain ⟨rfl, rfl, rfl, rfl, rfl, -⟩ := hn
  obtain ⟨rfl, rfl, -, rfl, rfl, rfl, -, rfl, rfl, -, rfl, -⟩ := hv
  obtain rfl := hp
  rfl

theorem authTail_congr {n n' : VrrpNet} {v v' : Vrrp} (hn : n'.fixed = n.fixed)
    (hv : v'.fixed = v.fixed) (contents : Nat → UInt8) :
    authTail contents n' v' = authTail contents n v := by
  cases n
  cases n'
  cases v
  cases v'
  simp only [Vrrp.fixed, VrrpNet.fixed, Vrrp.mk.injEq, VrrpNet.mk.injEq] at hn hv
  obtain ⟨rfl, rfl, rfl, rfl, rfl, -⟩ := hn
  obtain ⟨rfl, rfl, -, rfl, rfl, rfl, -, rfl, rfl, -, rfl, -⟩ := hv
  rfl

private theorem vrrpAdvSetPriority_fixed {host : ByteOrder} {vnet vnet' : VrrpNet} {prio : UInt8}
    (h : vrrpAdvSetPriority host vnet prio = .ok vnet') : vnet'.fixed = vnet.fixed := by
  obtain ⟨p₀, -, h⟩ := bind_eq_ok.mp h
  obtain ⟨p₁, -, h⟩ := bind_eq_ok.mp h
  obtain ⟨p₂, -, h⟩ := bind_eq_ok.mp h
  obtain rfl := Except.ok.inj h
  rfl

private theorem vrrpAdvSendZero_fixed {host : ByteOrder} {vnet vnet' : VrrpNet} {frame : Frame}
    (h : vrrpAdvSendZero host vnet = .ok (frame, vnet')) : vnet'.fixed = vnet.fixed := by
  obtain ⟨p₀, -, h⟩ := bind_eq_ok.mp h
  obtain ⟨p₁, -, h⟩ := bind_eq_ok.mp h
  obtain ⟨p₂, -, h⟩ := bind_eq_ok.mp h
  obtain ⟨p₃, -, h⟩ := bind_eq_ok.mp h
  obtain ⟨p₄, -, h⟩ := bind_eq_ok.mp h
  obtain ⟨p₅, -, h⟩ := bind_eq_ok.mp h
  obtain ⟨p₆, -, h⟩ := bind_eq_ok.mp h
  obtain ⟨-, rfl⟩ := Prod.mk.inj (Except.ok.inj h)
  rfl

theorem SameFixed.heard {host : ByteOrder} {inp : Input} {d d' : Daemon} {event : VrrpEvent}
    (h : Heard host inp d event d') : SameFixed d d' := by
  cases h with
  | timer => exact ⟨rfl, rfl⟩
  | signal => exact ⟨rfl, rfl⟩
  | idle => exact ⟨rfl, rfl⟩
  | datagram a m buf hp hr =>
    refine ⟨rfl, ?_⟩
    rw [(vrrpNetRecv_cases hr).1]
    rfl
  | command a m hp hc =>
    cases vrrpCtrlRead_cases hc with
    | refused => exact ⟨rfl, rfl⟩
    | stop => exact ⟨rfl, rfl⟩
    | reload => exact ⟨rfl, rfl⟩
    | status => exact ⟨rfl, rfl⟩
    | prio ctrl hne hset => exact ⟨rfl, vrrpAdvSetPriority_fixed hset⟩

theorem SameFixed.handled {host : ByteOrder} {now : Option Timespec} {d d' : Daemon}
    {event : VrrpEvent} {out : List Output} (h : Handled host now d event d' out) :
    SameFixed d d' := by
  cases h with
  | ignore => exact .refl d
  | takeover => exact ⟨rfl, rfl⟩
  | shorten => exact ⟨rfl, rfl⟩
  | follow =>
    refine ⟨?_, rfl⟩
    rw [Daemon.learnt]
    split <;> rfl
  | restart => exact ⟨rfl, rfl⟩
  | tick => exact ⟨rfl, rfl⟩
  | answer => exact ⟨rfl, rfl⟩
  | yield => exact ⟨rfl, rfl⟩
  | resign hs he hr hz => exact ⟨rfl, vrrpAdvSendZero_fixed hz⟩

theorem SameFixed.step {host : ByteOrder} {inp : Input} {d d' : Daemon} {out : List Output}
    (h : processStep host inp d = .ok (d', out)) : SameFixed d d' := by
  cases processStep_cases h with
  | startMaster => exact ⟨rfl, rfl⟩
  | startBackup => exact ⟨rfl, rfl⟩
  | serve hs hl hh =>
    have hk := (SameFixed.heard (vrrpListen_cases hl)).trans (.handled hh)
    exact hk
  | stuck => exact .refl d

structure Configured (c : Config) (d : Daemon) : Prop where
  version : d.vrrp.version = c.version
  vrid : d.vrrp.vrid = c.vrid
  naddr : d.vrrp.naddr = c.naddr
  advInt : d.vrrp.advInt = c.advInt
  authType : d.vrrp.authType = c.authType
  authData : d.vrrp.authData = c.password
  preempt : d.vrrp.preempt = c.preempt
  netVrid : d.vnet.vrid = c.vrid
  vif : d.vnet.vif = c.vif
  vips : d.vnet.vipList = c.vips
  family : d.vnet.family = c.family
  netNaddr : d.vnet.naddr = c.naddr

theorem Configured.of_fixed {c : Config} {d d' : Daemon} (h : Configured c d) (hf : SameFixed d d') :
    Configured c d' where
  version := (congrArg Vrrp.version hf.1).trans h.version
  vrid := (congrArg Vrrp.vrid hf.1).trans h.vrid
  naddr := (congrArg Vrrp.naddr hf.1).trans h.naddr
  advInt := (congrArg Vrrp.advInt hf.1).trans h.advInt
  authType := (congrArg Vrrp.authType hf.1).trans h.authType
  authData := (congrArg Vrrp.authData hf.1).trans h.authData
  preempt := (congrArg Vrrp.preempt hf.1).trans h.preempt
  netVrid := (congrArg VrrpNet.vrid hf.2).trans h.netVrid
  vif := (congrArg VrrpNet.vif hf.2).trans h.vif
  vips := (congrArg VrrpNet.vipList hf.2).trans h.vips
  family := (congrArg VrrpNet.family hf.2).trans h.family
  netNaddr := (congrArg VrrpNet.naddr hf.2).trans h.netNaddr

theorem Booted.configured {c : Config} {fresh : Fresh} {d : Daemon} (h : Booted c fresh d) :
    Configured c d := by
  constructor
  all_goals first
    | rw [h.vrrp]; rfl
    | rw [h.vnet]; rfl

theorem SameFixed.run {host : ByteOrder} {s t : Daemon} {h : List (Entry Daemon Input Output)}
    (run : Run (processStep host) s h t) : SameFixed s t :=
  Run.holds (SameFixed s) run (.refl s) (fun _ _ _ _ hp hs => hp.trans (.step hs))

theorem History.configured {host : ByteOrder} {c : Config} {fresh : Fresh}
    {h : List (Entry Daemon Input Output)} {d : Daemon} (run : History host c fresh h d) :
    Configured c d := by
  obtain ⟨start, hboot, hrun⟩ := run
  exact (boot_spec hboot).configured.of_fixed (.run hrun)

end Uvrrpd
