import Uvrrpd.Ipx
import Uvrrpd.Options

/-! `vrrp_exec.c`, with the two scheduling calls of `uvrrpd.c`. A call of `vrrp_exec`
returns in as many processes as the state machine goes on in. Messages, `errno` and
what `execve` starts are left out. -/
namespace Uvrrpd

def INET6_ADDRSTRLEN : Nat := 46
def NI_MAXHOST : Nat := 1025
def SCRIPT_ARG_MAX : Nat := INET6_ADDRSTRLEN * NI_MAXHOST
def SCRIPT_NARGS : Nat := 10

/-- `/usr/local/sbin/vrrp_switch.sh`, for the default `PATH` of the build. -/
def VRRP_SCRIPT : Octets :=
  [0x2f, 0x75, 0x73, 0x72, 0x2f, 0x6c, 0x6f, 0x63, 0x61, 0x6c, 0x2f, 0x73, 0x62, 0x69, 0x6e, 0x2f,
    0x76, 0x72, 0x72, 0x70, 0x5f, 0x73, 0x77, 0x69, 0x74, 0x63, 0x68, 0x2e, 0x73, 0x68]

/-- The length of the text in a buffer, which has to end in it. -/
def strlen (buf : Octets) : Except Fault Nat :=
  if 0 ∈ buf then .ok (cstring buf).length else .error .badAccess

/-- A text with its terminator, cut to `size` octets, at `pos` of a buffer. -/
def snprintf (buf : Octets) (pos size : Nat) (text : Octets) : Except Fault Octets :=
  store buf pos (text.take (size - 1) ++ [0])

def decimal (n : Nat) : Octets := (Nat.toDigits 10 n).map (fun c => UInt8.ofNat c.toNat)

def STR_STATE : VrrpState → Octets
  | .init => [0x69, 0x6e, 0x69, 0x74]
  | .backup => [0x62, 0x61, 0x63, 0x6b, 0x75, 0x70]
  | _ => [0x6d, 0x61, 0x73, 0x74, 0x65, 0x72]

def printArg (argv : List Octets) (i : Nat) (text : Octets) : Except Fault (List Octets) := do
  let buf ← snprintf (← deref argv[i]?) 0 SCRIPT_ARG_MAX text
  return argv.set i buf

/-- The text behind the first slash, or the whole of it. -/
def scriptBasename (scriptname : Octets) : Octets :=
  match scriptname.dropWhile (· != 0x2f) with
  | [] => scriptname
  | _ :: name => name

def vipArg (text : Octets) (buf : Octets) : Except Fault Octets := do
  let plen ← strlen buf
  let buf ← if plen ≠ 0 then store buf plen [0x2c] else .ok buf
  snprintf buf (← strlen buf) (SCRIPT_ARG_MAX - plen + 1) text

def ipxToStr (inetNtop : Family → Octets → Octets) (vnet : VrrpNet) (vip : VrrpIp) : Octets :=
  inetNtop vnet.family (vip.ipx.octets vnet.family)

/-- The argument with the VIPs: the old text is wiped, then the list is walked in reverse. -/
def vipsArg (texts : List Octets) (buf : Octets) : Except Fault Octets := do
  let buf ← store buf 0 (List.replicate (← strlen buf) 0)
  texts.foldlM (fun buf text => vipArg text buf) buf

def familyDigit : Family → Nat
  | .inet => 4
  | .inet6 => 6

def vrrpBuildArgs (inetNtop : Family → Octets → Octets) (scriptname : Octets) (argv : List Octets) (vrrp : Vrrp)
    (vnet : VrrpNet) (state : VrrpState) : Except Fault (List Octets) := do
  let argv ← printArg argv 0 (scriptBasename scriptname)
  let argv ← printArg argv 1 (STR_STATE state)
  let argv ← printArg argv 2 (decimal vrrp.vrid.toNat)
  let argv ← printArg argv 3 (← deref vnet.vif.ifname)
  let argv ← printArg argv 4 (decimal vrrp.priority.toNat)
  let argv ← printArg argv 5 (decimal vrrp.advInt.toNat)
  let argv ← printArg argv 6 (decimal vrrp.naddr.toNat)
  let argv ← printArg argv 7 (decimal (familyDigit vnet.family))
  let buf ← vipsArg (vnet.vipList.reverse.map (ipxToStr inetNtop vnet)) (← deref argv[SCRIPT_NARGS - 2]?)
  return argv.set (SCRIPT_NARGS - 2) buf

def SIGINT : Nat := 2
def SIGQUIT : Nat := 3
def SIGCHLD : Nat := 17

inductive Handler where
  | dfl
  | ign
  | signalHandler
  deriving DecidableEq, Repr

structure Sigaction where
  handler : Handler
  flags : Nat
  mask : Nat → Bool

inductive Sched where
  | other
  | rr
  deriving DecidableEq, Repr

/-- What `vrrp_exec` works on: the member `argv` of `struct vrrp`, and its process. -/
structure HookProcess where
  argv : Option (List Octets)
  sigmask : Nat → Bool
  action : Nat → Sigaction
  sched : Sched

/-- The answers in the two processes behind a `fork`: whether `execve` starts the
script, whether SCHED_RR is granted, how often `waitpid` is interrupted, and what it
returns then, if it is not another error. -/
structure Forked where
  execve : Bool
  schedSet : Bool
  interrupted : Nat
  status : Option Int
  deriving DecidableEq, Repr

structure HookAnswers where
  executable : Bool
  schedUnset : Bool
  fork : Option Forked
  deriving DecidableEq, Repr

structure Returned where
  child : Bool
  ret : Int
  process : HookProcess

/-- The array and its buffers, all zero; without memory for one of them `main` exits. -/
def vrrpExecInit (array : Bool) (buffers : Nat → Bool) : Option (List Octets) :=
  if array && (List.range (SCRIPT_NARGS - 1)).all buffers then
    some (List.replicate (SCRIPT_NARGS - 1) (List.replicate SCRIPT_ARG_MAX 0))
  else none

def vrrpExecCleanup (p : HookProcess) : HookProcess := { p with argv := none }

def uvrrpdSchedSet (ok : Bool) (p : HookProcess) : HookProcess := if ok then { p with sched := .rr } else p

def uvrrpdSchedUnset (ok : Bool) (p : HookProcess) : HookProcess := if ok then { p with sched := .other } else p

def sigaction (p : HookProcess) (sig : Nat) (sa : Sigaction) : HookProcess :=
  { p with action := Function.update p.action sig sa }

def sigprocmask (p : HookProcess) (mask : Nat → Bool) : HookProcess := { p with sigmask := mask }

def saIgnore : Sigaction := ⟨.ign, 0, fun _ => false⟩
def saDefault : Sigaction := ⟨.dfl, 0, fun _ => false⟩

def waitLoop : Nat → Option Int → Int
  | 0, status => status.getD (-1)
  | interrupted + 1, status => waitLoop interrupted status

/-- The child: it comes back only when `execve` fails. -/
def execChild (f : Forked) (orig p : HookProcess) : List Returned :=
  let p := if (orig.action SIGINT).handler ≠ .ign then sigaction p SIGINT saDefault else p
  let p := if (orig.action SIGQUIT).handler ≠ .ign then sigaction p SIGQUIT saDefault else p
  let p := sigprocmask p orig.sigmask
  if f.execve then [] else [⟨true, -1, vrrpExecCleanup p⟩]

def execParent (f : Forked) (orig p : HookProcess) : Returned :=
  let p := uvrrpdSchedSet f.schedSet p
  let status := waitLoop f.interrupted f.status
  let p := sigprocmask p orig.sigmask
  let p := sigaction p SIGINT (orig.action SIGINT)
  let p := sigaction p SIGQUIT (orig.action SIGQUIT)
  ⟨false, status, p⟩

structure HookCall where
  vrrp : Vrrp
  vnet : VrrpNet
  scriptname : Option Octets
  state : VrrpState
  answers : HookAnswers

def vrrpExec (inetNtop : Family → Octets → Octets) (c : HookCall) (orig : HookProcess) :
    Except Fault (List Returned) := do
  let scriptname := c.scriptname.getD VRRP_SCRIPT
  if !c.answers.executable then return [⟨false, -1, orig⟩]
  match orig.argv with
  | none => throw .badAccess
  | some argv =>
    let argv ← vrrpBuildArgs inetNtop scriptname argv c.vrrp c.vnet c.state
    let p := { orig with argv := some argv }
    let p := sigprocmask p (Function.update p.sigmask SIGCHLD true)
    let p := sigaction p SIGINT saIgnore
    let p := sigaction p SIGQUIT saIgnore
    let p := uvrrpdSchedUnset c.answers.schedUnset p
    match c.answers.fork with
    | none => return [⟨false, -1, vrrpExecCleanup p⟩]
    | some f => return execParent f orig p :: execChild f orig p

end Uvrrpd
