import Uvrrpd.Process

/-! Configurations as `vrrp_options` leaves them, and the state in which `main`
enters its loop. -/
namespace Uvrrpd

/-- What the command line determines, with the ranges its parser enforces and the
count of VIPs that the advertisement builder enforces. -/
structure Config where
  version : VrrpVersion
  vrid : UInt8
  priority : UInt8
  advInt : UInt16
  startDelay : UInt16
  preempt : Bool
  password : Option Octets
  family : Family
  vif : VrrpIf
  vips : List VrrpIp
  vrid_pos : vrid ≠ 0
  advInt_pos : 1 ≤ advInt.toNat
  advInt_le : advInt.toNat ≤ ADVINT_MAX
  startDelay_le : startDelay.toNat ≤ ADVINT_MAX
  password_le : ∀ text ∈ password, text.length ≤ VRRP_AUTH_PASS_LEN
  password_text : ∀ text ∈ password, 0 ∉ text
  vips_pos : 1 ≤ vips.length
  vips_le : vips.length ≤ VIP_MAX

namespace Config

def authType (c : Config) : VrrpAuthtype := if c.password.isSome then .simple else .noauth

def naddr (c : Config) : UInt8 := UInt8.ofNat c.vips.length

def vrrp (c : Config) (ctrl : VrrpCtrl) : Vrrp :=
  { vrrpInit ctrl with
    version := c.version
    vrid := c.vrid
    priority := c.priority
    naddr := c.naddr
    advInt := c.advInt
    startDelay := c.startDelay
    authType := c.authType
    authData := c.password
    preempt := c.preempt }

def vnet (c : Config) (adv : Frame) : VrrpNet :=
  { vrrpNetInit adv with
    vrid := c.vrid
    vif := c.vif
    vipList := c.vips
    family := c.family
    naddr := c.naddr }

@[simp] theorem naddr_toNat (c : Config) : c.naddr.toNat = c.vips.length := by
  have := c.vips_le
  simp only [naddr, UInt8.toNat_ofNat', VIP_MAX] at *
  omega

end Config

/-- Memory whose contents start-up does not determine: the three packet buffers,
the word pointers of the control buffer, and the `__adv` array itself. -/
structure Fresh where
  mem : Mallocs
  words : Nat → CmdPtr
  adv : Frame

/-- From the parsed options to the main loop; absent when `main` gives up. -/
def boot (host : ByteOrder) (c : Config) (fresh : Fresh) : Except Fault (Option Daemon) := do
  let vrrp := c.vrrp (vrrpCtrlInit fresh.words)
  let (ok, vnet) ← vrrpAdvInit host fresh.mem (c.vnet fresh.adv) vrrp
  return if ok then some ⟨vrrp, vnet, setBit KEEP_GOING 0, []⟩ else none

def History (host : ByteOrder) (c : Config) (fresh : Fresh)
    (h : List (Library.Runs.Entry Daemon Input Output)) (d : Daemon) : Prop :=
  ∃ start, boot host c fresh = .ok (some start) ∧ Library.Runs.Run (processStep host) start h d

/-- A small version 2 router on 192.0.2.1 for the address 192.0.2.10. -/
def lab : Config where
  version := .rfc3768
  vrid := 7
  priority := 100
  advInt := 1
  startDelay := 0
  preempt := true
  password := none
  family := .inet
  vif := ⟨none, 1500, { IpxAddr.zero with addr := ⟨[192, 0, 2, 1], rfl⟩ }⟩
  vips := [⟨{ IpxAddr.zero with addr := ⟨[192, 0, 2, 10], rfl⟩ }, 24, ⟨none, none, none⟩⟩]
  vrid_pos := by decide
  advInt_pos := by decide
  advInt_le := by decide
  startDelay_le := by decide
  password_le := by simp
  password_text := by simp
  vips_pos := by decide
  vips_le := by decide

def rival : Config :=
  { lab with
    priority := 200
    vif := ⟨none, 1500, { IpxAddr.zero with addr := ⟨[192, 0, 2, 2], rfl⟩ }⟩ }

def lab3 : Config := { lab with version := .rfc5798, advInt := 100, advInt_pos := by decide, advInt_le := by decide }

def lab6 : Config :=
  { lab with
    version := .rfc5798
    advInt := 100
    family := .inet6
    vif := ⟨none, 1500, { IpxAddr.zero with addr6 := ⟨[0xfe, 0x80, 0, 0, 0, 0, 0, 0, 0, 0, 0, 0, 0, 0, 0, 1], rfl⟩ }⟩
    vips := [⟨{ IpxAddr.zero with addr6 := ⟨[0xfe, 0x80, 0, 0, 0, 0, 0, 0, 0, 0, 0, 0, 0, 0, 0, 0x10], rfl⟩ },
      64, ⟨none, none, none⟩⟩]
    advInt_pos := by decide
    advInt_le := by decide
    vips_pos := by decide
    vips_le := by decide }

def Fresh.filled (value : UInt8) : Fresh :=
  ⟨⟨some (fun _ => value), some (fun _ => value), some (fun _ => value)⟩, fun _ => .wild, ⟨none, none, none⟩⟩

def Input.quiet (now : Timespec) : Input :=
  ⟨some now, .ready false false, some now, some now, none, fun _ => List.Vector.replicate _ 0, []⟩

def Input.packet (now : Timespec) (datagram : Datagram) : Input :=
  { Input.quiet now with pselect := .ready true false, sock := some datagram }

def Config.daemon (c : Config) : Daemon :=
  match boot .little c (.filled 0) with
  | .ok (some d) => d
  | _ => ⟨c.vrrp ⟨[], []⟩, c.vnet ⟨none, none, none⟩, 0, []⟩

/-- Its history on given inputs, empty in case of a fault, and where it ends. -/
def Config.runOn (c : Config) (inputs : List Input) :
    List (Library.Runs.Entry Daemon Input Output) × Daemon :=
  match Library.Runs.execute (processStep .little) inputs c.daemon with
  | .ok r => r
  | .error _ => ([], c.daemon)

end Uvrrpd
