import Mathlib.Data.Vector.Basic
import Uvrrpd.Common
import Uvrrpd.Timer

/-! The structures of `vrrp.h`, `vrrp_net.h`, `vrrp_ipx.h`, `vrrp_rfc.h` and
`vrrp_ctrl.h`, their initial values, and the timer macros. IPv6 support
(`HAVE_IP6`) is compiled in. -/
namespace Uvrrpd

def VRRP_PRIO_MAX : Nat := 255
def ADVINT_MAX : Nat := 4095
def PRIO_OWNER : UInt8 := 255
def PRIO_DFL : UInt8 := 100
def VRRP_AUTH_PASS_LEN : Nat := 8
def IPPROTO_VRRP : UInt8 := 112
def VIP_MAX : Nat := 255
def VRRP_AUTH_SIZE : Nat := 2 * 4
def VRRP_PKTHDR_SIZE : Nat := 8
def VRRP_PKT_MINSIZE : Nat := VRRP_PKTHDR_SIZE + 4
def VRRP_PKT_MAXSIZE : Nat := VRRP_PKTHDR_SIZE + VIP_MAX * 4 + VRRP_AUTH_SIZE
def IPHDR_SIZE : Nat := 20
def IP6HDR_SIZE : Nat := 40
def IP_MAXPACKET : Nat := 65535
def VRRP_TTL : Int := 255
def CTRL_MAXCHAR : Nat := 64
def CTRL_CMD_NTOKEN : Nat := 3

/-- `RFC2338` and `RFC3768` are the same enumerator value. -/
inductive VrrpVersion where
  | rfc3768
  | rfc5798
  deriving DecidableEq, Repr

def VrrpVersion.code : VrrpVersion → UInt8
  | .rfc3768 => 2
  | .rfc5798 => 3

inductive VrrpAuthtype where
  | noauth
  | simple
  | hmac
  deriving DecidableEq, Repr

def VrrpAuthtype.code : VrrpAuthtype → UInt8
  | .noauth => 0
  | .simple => 1
  | .hmac => 2

/-- An enumeration object may hold any integer; `other` is what the default
branch of `vrrp_process` is for. -/
inductive VrrpState where
  | init
  | backup
  | master
  | other (value : Nat)
  deriving DecidableEq, Repr

inductive VrrpEvent where
  | vridMismatch
  | invalid
  | pkt
  | signal
  | ctrlFifo
  | timer
  deriving DecidableEq, Repr

inductive Family where
  | inet
  | inet6
  deriving DecidableEq, Repr

/-- Addresses in memory, that is in network order. -/
abbrev InAddr := List.Vector UInt8 4
abbrev In6Addr := List.Vector UInt8 16

/-- The union `vrrp_ipx_addr`. The family is fixed before the first write and
each helper touches only the member of its family, so the overlap is not observable. -/
structure IpxAddr where
  addr : InAddr
  addr6 : In6Addr
  deriving DecidableEq

def IpxAddr.zero : IpxAddr := ⟨List.Vector.replicate 4 0, List.Vector.replicate 16 0⟩

def IpxAddr.octets (family : Family) (a : IpxAddr) : Octets :=
  match family with
  | .inet => a.addr.toList
  | .inet6 => a.addr6.toList

def Family.addrSize : Family → Nat
  | .inet => 4
  | .inet6 => 16

/-- An `iovec`: NULL, or the `iov_len` octets it points to. -/
abbrev Iovec := Option Octets

structure Frame where
  eth : Iovec
  ip : Iovec
  data : Iovec
  deriving DecidableEq, Repr

structure VrrpIp where
  ipx : IpxAddr
  netmask : UInt8
  topology : Frame
  deriving DecidableEq

structure VrrpIf where
  ifname : Option Octets
  mtu : Int
  ipx : IpxAddr
  deriving DecidableEq

/-- `struct vrrphdr` octet by octet. The union holds `authType` and `advInt` in
version 2 and the 16-bit `maxAdvInt` in version 3. -/
structure Vrrphdr where
  versionType : UInt8
  vrid : UInt8
  priority : UInt8
  naddr : UInt8
  authType : UInt8
  advInt : UInt8
  chksum₀ : UInt8
  chksum₁ : UInt8
  deriving DecidableEq, Repr

def Vrrphdr.maxAdvInt (host : ByteOrder) (h : Vrrphdr) : Nat := word host h.authType h.advInt

def loadHdr (mem : Octets) (i : Nat) : Except Fault Vrrphdr := do
  return ⟨← load8 mem i, ← load8 mem (i + 1), ← load8 mem (i + 2), ← load8 mem (i + 3),
    ← load8 mem (i + 4), ← load8 mem (i + 5), ← load8 mem (i + 6), ← load8 mem (i + 7)⟩

structure VrrpIpxHeader where
  len : Int
  proto : Int
  totlen : Int
  ttl : Int
  deriving DecidableEq, Repr

structure VrrpRecv where
  sIpx : IpxAddr
  dIpx : IpxAddr
  header : VrrpIpxHeader
  adv : Vrrphdr
  deriving DecidableEq

structure VrrpNet where
  vrid : UInt8
  vif : VrrpIf
  vipList : List VrrpIp
  family : Family
  naddr : UInt8
  pkt : VrrpRecv
  adv : Frame
  deriving DecidableEq

/-- A word pointer of the control buffer. `wild` is the content of fresh memory. -/
inductive CmdPtr where
  | null
  | msg (offset : Nat)
  | wild
  deriving DecidableEq, Repr

structure VrrpCtrl where
  msg : Octets
  cmd : List CmdPtr
  deriving DecidableEq, Repr

structure Vrrp where
  version : VrrpVersion
  vrid : UInt8
  priority : UInt8
  naddr : UInt8
  advInt : UInt16
  startDelay : UInt16
  masterAdvInt : UInt16
  authType : VrrpAuthtype
  authData : Option Octets
  state : VrrpState
  preempt : Bool
  ctrl : VrrpCtrl
  advTimer : VrrpTimer
  masterdownTimer : VrrpTimer
  deriving DecidableEq, Repr

def vrrpInit (ctrl : VrrpCtrl) : Vrrp where
  version := .rfc3768
  vrid := 0
  priority := PRIO_DFL
  naddr := 0
  advInt := 0
  startDelay := 0
  masterAdvInt := 0
  authType := .noauth
  authData := none
  state := .init
  preempt := true
  ctrl := ctrl
  advTimer := vrrpTimerClear
  masterdownTimer := vrrpTimerClear

/-- `vrrp_net_init`; the `__adv` array is left as it is until `vrrp_adv_init`. -/
def vrrpNetInit (adv : Frame) : VrrpNet where
  vrid := 0
  vif := ⟨none, 0, .zero⟩
  vipList := []
  family := .inet
  naddr := 0
  pkt := ⟨.zero, .zero, ⟨0, 0, 0, 0⟩, ⟨0, 0, 0, 0, 0, 0, 0, 0⟩⟩
  adv := adv

def SKEW_TIME (v : Vrrp) : Nat :=
  (256 - v.priority.toNat) * (if v.version = .rfc5798 then v.masterAdvInt.toNat else 1) / 256

def MASTERDOWN_INT (v : Vrrp) : Nat := 3 * v.masterAdvInt.toNat + SKEW_TIME v

/-- The pair of delay arguments that the macros pass for an interval: seconds in
version 2, centiseconds in version 3. -/
def delays (v : Vrrp) (seconds centiseconds : Nat) : Int × Int :=
  if v.version = .rfc5798 then (0, (centiseconds : Int)) else ((seconds : Int), 0)

def advDelays (v : Vrrp) : Int × Int := delays v v.advInt.toNat v.masterAdvInt.toNat
def masterdownDelays (v : Vrrp) : Int × Int := delays v (MASTERDOWN_INT v) (MASTERDOWN_INT v)
def skewDelays (v : Vrrp) : Int × Int := delays v (SKEW_TIME v) (SKEW_TIME v)
def startdelayDelays (v : Vrrp) : Int × Int := delays v v.startDelay.toNat v.startDelay.toNat

end Uvrrpd
