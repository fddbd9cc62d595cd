import Uvrrpd.Ctrl
import Uvrrpd.Library.Getopt

/-! `vrrp_options.c`, with what it calls of `common.h` and `vrrp_net.c`. Messages and
the usage text are left out; so is the overwriting of a password in `argv`, which is
not read again. -/
namespace Uvrrpd
open Library.Getopt

def VRID_MAX : Nat := 255
def IFNAMSIZ : Nat := 16
def NAME_MAX : Nat := 255
def PATH_MAX : Nat := 4096
def IP4_NMASK : Nat := 32
def IP6_NMASK : Nat := 128

inductive Opt where
  | vrid
  | interface
  | priority
  | time
  | startDelay
  | preempt
  | rfc
  | ipv6
  | auth
  | foreground
  | script
  | pidfile
  | control
  | debug
  | help
  deriving DecidableEq, Repr

def Opt.short : Opt → UInt8
  | .vrid => 0x76
  | .interface => 0x69
  | .priority => 0x70
  | .time => 0x74
  | .startDelay => 0x54
  | .preempt => 0x50
  | .rfc => 0x72
  | .ipv6 => 0x36
  | .auth => 0x61
  | .foreground => 0x66
  | .script => 0x73
  | .pidfile => 0x46
  | .control => 0x43
  | .debug => 0x64
  | .help => 0x68

def Opt.long : Opt → Octets
  | .vrid => [0x76, 0x72, 0x69, 0x64]
  | .interface => [0x69, 0x6e, 0x74, 0x65, 0x72, 0x66, 0x61, 0x63, 0x65]
  | .priority => [0x70, 0x72, 0x69, 0x6f, 0x72, 0x69, 0x74, 0x79]
  | .time => [0x74, 0x69, 0x6d, 0x65]
  | .startDelay => [0x73, 0x74, 0x61, 0x72, 0x74, 0x2d, 0x64, 0x65, 0x6c, 0x61, 0x79]
  | .preempt => [0x70, 0x72, 0x65, 0x65, 0x6d, 0x70, 0x74]
  | .rfc => [0x72, 0x66, 0x63]
  | .ipv6 => [0x69, 0x70, 0x76, 0x36]
  | .auth => [0x61, 0x75, 0x74, 0x68]
  | .foreground => [0x66, 0x6f, 0x72, 0x65, 0x67, 0x72, 0x6f, 0x75, 0x6e, 0x64]
  | .script => [0x73, 0x63, 0x72, 0x69, 0x70, 0x74]
  | .pidfile => [0x70, 0x69, 0x64, 0x66, 0x69, 0x6c, 0x65]
  | .control => [0x63, 0x6f, 0x6e, 0x74, 0x72, 0x6f, 0x6c]
  | .debug => [0x64, 0x65, 0x62, 0x75, 0x67]
  | .help => [0x68, 0x65, 0x6c, 0x70]

def Opt.takesArg : Opt → Bool
  | .ipv6 => false
  | .foreground => false
  | .debug => false
  | .help => false
  | _ => true

/-- The array `opts`; the string of short options lists the same letters. -/
def opts : Table Opt where
  opts := [.vrid, .interface, .priority, .time, .startDelay, .preempt, .rfc, .ipv6, .auth, .foreground,
    .script, .pidfile, .control, .debug, .help]
  short := Opt.short
  long := Opt.long
  takesArg := Opt.takesArg

inductive Sockaddr where
  | inet (addr : InAddr)
  | inet6 (addr : In6Addr)
  | other

structure Ifaddrs where
  name : Octets
  addr : Option Sockaddr

/-- How the calls that the option parser makes are answered. `strndup` finds memory
for the `k`-th option or not, and the structure of the `k`-th VIP, if there is
memory for it, has any contents. -/
structure OptionCalls where
  posixlyCorrect : Bool
  argMax : Nat
  strndup : Nat → Bool
  vip : Nat → Option VrrpIp
  inetPton : Octets → Option InAddr
  inetPton6 : Octets → Option In6Addr
  getifaddrs : Option (List Ifaddrs)
  ifmtu : Option Int

def cstring (s : Octets) : Octets := s.takeWhile (· != 0)

def strndup (memory : Bool) (s : Octets) (n : Nat) : Option Octets :=
  if memory then some ((cstring s).take n) else none

/-- What the options are written to: the two structures, the globals of `uvrrpd.c`,
and the member `scriptname`. -/
structure Parsed where
  vrrp : Vrrp
  vnet : VrrpNet
  background : Bool
  loglevel : Option Octets
  pidfileName : Option Octets
  ctrlfileName : Option Octets
  scriptname : Option Octets

/-- After `vrrp_init` and `vrrp_net_init`, over what the stack held before. -/
def Parsed.blank (ctrl : VrrpCtrl) (adv : Frame) : Parsed :=
  ⟨vrrpInit ctrl, vrrpNetInit adv, true, none, none, none, none⟩

def Errno.code : Errno → Int
  | .erange => 34
  | .einval => 22

def numberOption (optarg : Octets) (max : Nat) (set : Nat → Parsed) (p : Parsed) :
    Except (Int × Parsed) Parsed :=
  match mystrtoul optarg max with
  | .error .erange => .error (-1, p)
  | .error .einval => .error (-Errno.einval.code, p)
  | .ok opt => .ok (set opt)

def vridOption (optarg : Octets) (p : Parsed) : Except (Int × Parsed) Parsed :=
  match mystrtoul optarg VRID_MAX with
  | .error err => .error (-err.code, p)
  | .ok opt =>
    -- the number 0 is diagnosed, but `err` is what is returned, and it is 0
    if opt = 0 then .error (0, p)
    else .ok { p with
      vrrp := { p.vrrp with vrid := UInt8.ofNat opt }
      vnet := { p.vnet with vrid := UInt8.ofNat opt } }

def rfcOption (optarg : Octets) (p : Parsed) : Except (Int × Parsed) Parsed :=
  match mystrtoul optarg VrrpVersion.rfc5798.code.toNat with
  | .error .erange => .error (-1, p)
  | .error .einval => .error (-Errno.einval.code, p)
  | .ok opt =>
    if opt < VrrpVersion.rfc3768.code.toNat then .error (-1, p)
    else .ok { p with vrrp := { p.vrrp with
      version := if opt = VrrpVersion.rfc3768.code.toNat then .rfc3768 else .rfc5798 } }

def preemptOn : Octets := [0x6f, 0x6e]
def preemptOff : Octets := [0x6f, 0x66, 0x66]

/-- The switch, for one option: a `return` with its value, or what goes on. -/
def vrrpOption (memory : Bool) (argMax : Nat) (o : Opt) (optarg : Octets) (p : Parsed) :
    Except (Int × Parsed) Parsed :=
  match o with
  | .vrid => vridOption optarg p
  | .interface =>
    let ifname := strndup memory optarg IFNAMSIZ
    let p := { p with vnet := { p.vnet with vif := { p.vnet.vif with ifname := ifname } } }
    if ifname = none then .error (-1, p) else .ok p
  | .priority => numberOption optarg VRRP_PRIO_MAX
      (fun opt => { p with vrrp := { p.vrrp with priority := UInt8.ofNat opt } }) p
  | .time => numberOption optarg ADVINT_MAX
      (fun opt => { p with vrrp := { p.vrrp with advInt := UInt16.ofNat opt } }) p
  | .startDelay => numberOption optarg ADVINT_MAX
      (fun opt => { p with vrrp := { p.vrrp with startDelay := UInt16.ofNat opt } }) p
  | .preempt =>
    if matchesWord (optarg ++ [0]) preemptOn then .ok { p with vrrp := { p.vrrp with preempt := true } }
    else if matchesWord (optarg ++ [0]) preemptOff then
      .ok { p with vrrp := { p.vrrp with preempt := false } }
    else .error (-1, p)
  | .rfc => rfcOption optarg p
  | .ipv6 => .ok { p with
      vrrp := { p.vrrp with version := .rfc5798 }
      vnet := { p.vnet with family := .inet6 } }
  | .auth =>
    if (cstring optarg).length > VRRP_AUTH_PASS_LEN then .error (-1, p)
    else .ok { p with vrrp := { p.vrrp with
      authData := strndup memory optarg VRRP_AUTH_PASS_LEN
      authType := .simple } }
  | .foreground => .ok { p with background := false }
  | .script =>
    let scriptname := strndup memory optarg argMax
    let p := { p with scriptname := scriptname }
    if scriptname = none then .error (-1, p) else .ok p
  | .pidfile => .ok { p with pidfileName := strndup memory optarg (NAME_MAX + PATH_MAX) }
  | .control => .ok { p with ctrlfileName := strndup memory optarg (NAME_MAX + PATH_MAX) }
  | .debug => .ok { p with loglevel := strndup memory Opt.debug.long 6 }
  | .help => .error (-1, p)

def optionLoop (sys : OptionCalls) : Nat → List (Found Opt) → Parsed → Except (Int × Parsed) Parsed
  | _, [], p => .ok p
  | _, .unknown :: _, p => .error (-1, p)
  | k, .opt o optarg :: rest, p => do
    let p ← vrrpOption (sys.strndup k) sys.argMax o optarg p
    optionLoop sys (k + 1) rest p

/-- The address and the mask, or a failure of some kind. -/
def splitIpNetmask {n : Nat} (inetPton : Octets → Option (List.Vector UInt8 n)) (netmaskLength : Nat)
    (str : Octets) : Option (List.Vector UInt8 n × UInt8) :=
  let ip := str.takeWhile (· != 0x2f)
  match str.drop ip.length with
  | [] => (inetPton ip).map (fun addr => (addr, 0))
  | _ :: tmp =>
    match mystrtoul tmp netmaskLength with
    | .error _ => none
    | .ok ul => (inetPton ip).map (fun addr => (addr, UInt8.ofNat ul))

def fillVip (sys : OptionCalls) (family : Family) (ip : Octets) (vip : VrrpIp) : Option VrrpIp :=
  match family with
  | .inet => (splitIpNetmask sys.inetPton IP4_NMASK ip).map (fun r =>
      { vip with ipx := { vip.ipx with addr := r.1 }, netmask := r.2 })
  | .inet6 => (splitIpNetmask sys.inetPton6 IP6_NMASK ip).map (fun r =>
      { vip with ipx := { vip.ipx with addr6 := r.1 }, netmask := r.2 })

/-- `true` for the return value 0. -/
def vrrpNetVipSet (sys : OptionCalls) (k : Nat) (vnet : VrrpNet) (ip : Octets) : Bool × VrrpNet :=
  match (sys.vip k).bind (fillVip sys vnet.family ip) with
  | none => (false, vnet)
  | some vip => (true, { vnet with vipList := vnet.vipList ++ [vip] })

def vipLoop (sys : OptionCalls) : Nat → List Octets → VrrpNet → Bool × VrrpNet
  | _, [], vnet => (true, vnet)
  | k, ip :: rest, vnet =>
    match vrrpNetVipSet sys k vnet ip with
    | (false, vnet) => (false, vnet)
    | (true, vnet) => vipLoop sys (k + 1) rest vnet

/-- One entry of the list of addresses; the last that fits is kept. -/
def vifAddr (vnet : VrrpNet) (ifa : Ifaddrs) : VrrpNet :=
  if vnet.vif.ifname ≠ some ifa.name then vnet
  else
    match ifa.addr, vnet.family with
    | some (.inet addr), .inet =>
      { vnet with vif := { vnet.vif with ipx := { vnet.vif.ipx with addr := addr } } }
    | some (.inet6 addr6), .inet6 =>
      { vnet with vif := { vnet.vif with ipx := { vnet.vif.ipx with addr6 := addr6 } } }
    | _, _ => vnet

def vrrpNetVifMtu (ifmtu : Option Int) (vnet : VrrpNet) : VrrpNet :=
  match ifmtu with
  | none => vnet
  | some mtu => { vnet with vif := { vnet.vif with mtu := mtu } }

def vrrpNetVifGetaddr (sys : OptionCalls) (vnet : VrrpNet) : Int × VrrpNet :=
  match sys.getifaddrs with
  | none => (-1, vnet)
  | some ifaddr => (0, vrrpNetVifMtu sys.ifmtu (ifaddr.foldl vifAddr vnet))

def defaultAdvInt (vrrp : Vrrp) : UInt16 :=
  if vrrp.version = .rfc3768 ∧ vrrp.advInt = 0 then 1
  else if vrrp.version = .rfc5798 ∧ vrrp.advInt = 0 then 100
  else vrrp.advInt

def vrrpOperands (sys : OptionCalls) (operands : List Octets) (p : Parsed) : Int × Parsed :=
  if operands = [] then (-1, p)
  else
    let naddr := UInt8.ofNat operands.length
    let p := { p with vrrp := { p.vrrp with naddr := naddr }, vnet := { p.vnet with naddr := naddr } }
    match vipLoop sys 0 operands p.vnet with
    | (false, vnet) => (-1, { p with vnet := vnet })
    | (true, vnet) =>
      let p := { p with vnet := vnet }
      if p.vrrp.vrid = 0 then (-1, p)
      else if p.vnet.vif.ifname = none then (-1, p)
      else
        let p := { p with vrrp := { p.vrrp with advInt := defaultAdvInt p.vrrp } }
        let (ret, vnet) := vrrpNetVifGetaddr sys p.vnet
        (ret, { p with vnet := vnet })

def vrrpOptions (sys : OptionCalls) (args : List Octets) (p : Parsed) : Int × Parsed :=
  let (found, operands) := opts.getoptLong sys.posixlyCorrect none args
  match optionLoop sys 0 found p with
  | .error returned => returned
  | .ok p => vrrpOperands sys operands p

end Uvrrpd
