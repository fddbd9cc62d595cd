import Uvrrpd.Net
import Uvrrpd.Ctrl
import Uvrrpd.Library.Runs

/-! `vrrp.c`, `vrrp_state.c` and the main loop of `uvrrpd.c`. One call of
`vrrp_process` consumes the answers of the system calls it makes and emits the
frames handed to `vrrp_net_send`, the calls of `vrrp_exec` and the armed timers.
The return values of the senders and of the hook are ignored, as in the source. -/
namespace Uvrrpd

inductive TimerId where
  | adv
  | masterdown
  deriving DecidableEq, Repr

inductive Output where
  | adv (frame : Frame)
  | topology (frame : Frame)
  | exec (state : VrrpState)
  | armed (timer : TimerId) (delay delayCs : Int)
  deriving DecidableEq, Repr

inductive Signal where
  | hup
  | usr1
  | usr2
  | pipe
  | int
  | term
  | quit
  | chld
  | alrm
  deriving DecidableEq, Repr

/-- The process memory that `vrrp_process` works on, with what the last call of
`vrrp_net_recv` has left in its receive buffer. -/
structure Daemon where
  vrrp : Vrrp
  vnet : VrrpNet
  reg : Reg
  buf : Octets
  deriving DecidableEq

/-- Outcome of `pselect`. Signals are unblocked only while it waits, so handlers
run exactly when it returns `EINTR`. -/
inductive Pselect where
  | ready (socket fifo : Bool)
  | interrupted (signals : List Signal)
  | failed
  deriving DecidableEq, Repr

/-- What the environment answers during one call of `vrrp_process`: the clock
before the wait, after it, and when a timer is armed; `pselect`; the datagram; the
contents of the control FIFO. The receive buffer is an automatic array, and what it
holds comes of what the last call has left there. -/
structure Input where
  clockUpdate : Option Timespec
  pselect : Pselect
  clockExpired : Option Timespec
  clockSet : Option Timespec
  sock : Option Datagram
  stack : Octets → List.Vector UInt8 IP_MAXPACKET
  fifo : Octets

def signalHandler (reg : Reg) : Signal → Reg
  | .hup => setBit UVRRPD_RELOAD reg
  | .usr1 => setBit UVRRPD_DUMP reg
  | .usr2 => setBit UVRRPD_DUMP reg
  | .pipe => setBit UVRRPD_LOGOUT reg
  | .int => clearBit KEEP_GOING (setBit UVRRPD_RELOAD reg)
  | .term => clearBit KEEP_GOING (setBit UVRRPD_RELOAD reg)
  | .quit => clearBit KEEP_GOING (setBit UVRRPD_RELOAD reg)
  | .chld => reg
  | .alrm => reg

/-- The timer that `vrrp_listen` waits on; the advertisement timer is preferred. -/
def runningTimer (v : Vrrp) : Option TimerId :=
  if vrrpTimerIsRunning v.advTimer then some .adv
  else if vrrpTimerIsRunning v.masterdownTimer then some .masterdown
  else none

def Vrrp.timer (v : Vrrp) : TimerId → VrrpTimer
  | .adv => v.advTimer
  | .masterdown => v.masterdownTimer

def Vrrp.setTimer (v : Vrrp) (t : VrrpTimer) : TimerId → Vrrp
  | .adv => { v with advTimer := t }
  | .masterdown => { v with masterdownTimer := t }

/-- The part of `vrrp_listen` behind a `pselect` that reported no expiry. -/
def vrrpListenReady (host : ByteOrder) (inp : Input) (socket fifo : Bool) (d : Daemon) :
    Except Fault (VrrpEvent × Daemon) :=
  if socket then do
    let (event, vnet, buf) ← vrrpNetRecvBuf host d.vnet d.vrrp inp.sock (inp.stack d.buf).toList
    return (event, { d with vnet := vnet, buf := buf })
  else if fifo then do
    let r ← vrrpCtrlRead host inp.fifo d.vrrp d.vnet d.reg
    return (r.event, { d with vrrp := r.vrrp, vnet := r.vnet, reg := r.reg })
  else .ok (.invalid, d)

def vrrpListen (host : ByteOrder) (inp : Input) (d : Daemon) : Except Fault (VrrpEvent × Daemon) :=
  match runningTimer d.vrrp with
  | none => .error .exitFailure
  | some id =>
    let (expired, t) := vrrpTimerUpdate inp.clockUpdate (d.vrrp.timer id)
    let d := { d with vrrp := d.vrrp.setTimer t id }
    if expired then .ok (.timer, d)
    else
      match inp.pselect with
      | .interrupted signals => .ok (.signal, { d with reg := signals.foldl signalHandler d.reg })
      | .failed => .ok (.invalid, d)
      | .ready socket fifo =>
        let (expired, t) := vrrpTimerIsExpired inp.clockExpired (d.vrrp.timer id)
        let d := { d with vrrp := d.vrrp.setTimer t id }
        if expired then .ok (.timer, d)
        else vrrpListenReady host inp socket fifo d

def arm (now : Option Timespec) (id : TimerId) (delays : Int × Int) (v : Vrrp) : Vrrp :=
  v.setTimer (vrrpTimerSet now delays.1 delays.2 (v.timer id)) id

/-- A failing clock arms nothing. -/
def armed (now : Option Timespec) (id : TimerId) (delays : Int × Int) : List Output :=
  match now with
  | some _ => [.armed id delays.1 delays.2]
  | none => []

/-- `vrrp_arp_send` and `vrrp_na_send`: one prepared frame for each VIP. -/
def topologySend (vnet : VrrpNet) : List Output :=
  vnet.vipList.reverse.map (fun vip => .topology vip.topology)

def vrrpStateGotoMaster (now : Option Timespec) (d : Daemon) : Daemon × List Output :=
  let v := { d.vrrp with state := .master, masterdownTimer := vrrpTimerClear }
  ({ d with vrrp := arm now .adv (advDelays v) v },
    [.adv d.vnet.adv] ++ topologySend d.vnet ++ [.exec .master] ++ armed now .adv (advDelays v))

def gotoBackupAdvInt (host : ByteOrder) (d : Daemon) : UInt16 :=
  match d.vrrp.version, d.vrrp.state with
  | .rfc5798, .init => d.vrrp.advInt
  | .rfc5798, .master => vrrpAdvGetAdvint host d.vnet
  | _, _ => d.vrrp.masterAdvInt

def vrrpStateGotoBackup (host : ByteOrder) (now : Option Timespec) (d : Daemon) :
    Daemon × List Output :=
  let v := { d.vrrp with
    state := .backup
    masterAdvInt := gotoBackupAdvInt host d
    advTimer := vrrpTimerClear }
  let hook := if d.vrrp.state ≠ .init then [.exec .backup] else []
  let delays := if d.vrrp.state = .init ∧ v.startDelay ≠ 0 then startdelayDelays v else masterdownDelays v
  ({ d with vrrp := arm now .masterdown delays v }, hook ++ armed now .masterdown delays)

def vrrpStateInit (host : ByteOrder) (now : Option Timespec) (d : Daemon) : Daemon × List Output :=
  let d := { d with vrrp := { d.vrrp with masterAdvInt := d.vrrp.advInt } }
  let (d, out) :=
    if d.vrrp.priority = 255 then vrrpStateGotoMaster now d else vrrpStateGotoBackup host now d
  (d, .exec .init :: out)

def backupPkt (host : ByteOrder) (now : Option Timespec) (d : Daemon) : Daemon × List Output :=
  if vrrpAdvGetVersion d.vnet = 0 then (d, [])
  else if vrrpAdvGetPriority d.vnet = 0 then
    ({ d with vrrp := arm now .masterdown (skewDelays d.vrrp) d.vrrp },
      armed now .masterdown (skewDelays d.vrrp))
  else if d.vrrp.preempt = false ∨ vrrpAdvGetPriority d.vnet ≥ d.vrrp.priority then
    let v := if d.vrrp.version = .rfc5798 then
        { d.vrrp with masterAdvInt := vrrpAdvGetAdvint host d.vnet }
      else d.vrrp
    ({ d with vrrp := arm now .masterdown (masterdownDelays v) v },
      armed now .masterdown (masterdownDelays v))
  else (d, [])

/-- The reload branch; `SIGNAL` falls through to `CTRL_FIFO` in both handlers. -/
def backupReload (d : Daemon) : Daemon :=
  let (reload, reg) := testAndClearBit UVRRPD_RELOAD d.reg
  if reload then
    { d with reg := reg, vrrp := { d.vrrp with masterdownTimer := vrrpTimerClear, state := .init } }
  else { d with reg := reg }

def backupEvent (host : ByteOrder) (now : Option Timespec) (d : Daemon) :
    VrrpEvent → Daemon × List Output
  | .timer => vrrpStateGotoMaster now d
  | .pkt => backupPkt host now d
  | .signal => (backupReload d, [])
  | .ctrlFifo => (backupReload d, [])
  | .vridMismatch => (d, [])
  | .invalid => (d, [])

def vrrpStateBackup (host : ByteOrder) (inp : Input) (d : Daemon) :
    Except Fault (Daemon × List Output) := do
  let (event, d) ← vrrpListen host inp d
  return backupEvent host inp.clockSet d event

def advertise (now : Option Timespec) (d : Daemon) : Daemon × List Output :=
  ({ d with vrrp := arm now .adv (advDelays d.vrrp) d.vrrp },
    .adv d.vnet.adv :: armed now .adv (advDelays d.vrrp))

def masterPkt (host : ByteOrder) (now : Option Timespec) (d : Daemon) : Daemon × List Output :=
  if vrrpAdvGetVersion d.vnet = 0 then (d, [])
  else if vrrpAdvGetPriority d.vnet = 0 then advertise now d
  else if vrrpAdvGetPriority d.vnet > d.vrrp.priority then vrrpStateGotoBackup host now d
  else if vrrpAdvGetPriority d.vnet = d.vrrp.priority ∧ vrrpAdvAddrCmp d.vnet > 0 then
    vrrpStateGotoBackup host now d
  else (d, [])

def masterReload (host : ByteOrder) (d : Daemon) : Except Fault (Daemon × List Output) :=
  let (reload, reg) := testAndClearBit UVRRPD_RELOAD d.reg
  if reload then do
    let (frame, vnet) ← vrrpAdvSendZero host d.vnet
    let vrrp := { d.vrrp with advTimer := vrrpTimerClear, state := .init }
    return ({ d with vrrp := vrrp, vnet := vnet, reg := reg }, [.adv frame, .exec .backup])
  else .ok ({ d with reg := reg }, [])

def masterEvent (host : ByteOrder) (now : Option Timespec) (d : Daemon) :
    VrrpEvent → Except Fault (Daemon × List Output)
  | .timer => .ok (advertise now d)
  | .pkt => .ok (masterPkt host now d)
  | .signal => masterReload host d
  | .ctrlFifo => masterReload host d
  | .vridMismatch => .ok (d, [])
  | .invalid => .ok (d, [])

def vrrpStateMaster (host : ByteOrder) (inp : Input) (d : Daemon) :
    Except Fault (Daemon × List Output) := do
  let (event, d) ← vrrpListen host inp d
  masterEvent host inp.clockSet d event

/-- The switch of `vrrp_process`; absent in the default branch. -/
def vrrpDispatch (host : ByteOrder) (inp : Input) (d : Daemon) :
    Option (Except Fault (Daemon × List Output)) :=
  match d.vrrp.state with
  | .init => some (.ok (vrrpStateInit host inp.clockSet d))
  | .backup => some (vrrpStateBackup host inp d)
  | .master => some (vrrpStateMaster host inp d)
  | .other _ => none

def ENOSYS : Int := 38

/-- Return value, memory and outputs. The dump itself only writes to the log. -/
def vrrpProcess (host : ByteOrder) (inp : Input) (d : Daemon) :
    Except Fault (Int × Daemon × List Output) :=
  match vrrpDispatch host inp d with
  | none => .ok (-ENOSYS, d, [])
  | some step => do
    let (d, out) ← step
    return (0, { d with reg := (testAndClearBit UVRRPD_DUMP d.reg).2 }, out)

def processStep (host : ByteOrder) (inp : Input) (d : Daemon) : Except Fault (Daemon × List Output) := do
  let (_, d, out) ← vrrpProcess host inp d
  return (d, out)

/-- The loop of `main`, run on the inputs of its iterations as long as they last. -/
def mainLoop (host : ByteOrder) : List Input → Daemon → Except Fault (Daemon × List Output)
  | [], d => .ok (d, [])
  | inp :: rest, d =>
    if testBit KEEP_GOING d.reg then do
      let (ret, d, out) ← vrrpProcess host inp d
      if ret ≠ 0 then return (d, out)
      else
        let (d, more) ← mainLoop host rest d
        return (d, out ++ more)
    else .ok (d, [])

end Uvrrpd
