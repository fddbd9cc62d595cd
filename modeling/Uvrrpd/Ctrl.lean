import Uvrrpd.Adv

/-! `vrrp_ctrl.c`: commands read from the control FIFO. Words are pointers into
the message buffer, and both survive from one message to the next. -/
namespace Uvrrpd

/-- Skip blanks from an offset; the buffer ends with a NUL, which is not blank. -/
def skipBlanks (msg : Octets) (str : Nat) : Nat := str + ((msg.drop str).takeWhile isspace).length

/-- `strsep` with the delimiters `WHITESPACE`: the message with the delimiter
replaced by NUL, and where to go on. -/
def strsep (msg : Octets) (str : Nat) : Octets × Option Nat :=
  let stop := str + ((msg.drop str).takeWhile (fun c => !isspace c && c != 0)).length
  match msg[stop]? with
  | some c => if isspace c then (msg.set stop 0, some (stop + 1)) else (msg, none)
  | none => (msg, none)

/-- The loop of `split_cmd` at word `nword`, with `left` words still allowed.
A word pointer that is not assigned keeps its old value. -/
def splitCmdLoop : Nat → Nat → Option Nat → VrrpCtrl → Nat × VrrpCtrl
  | 0, nword, _, ctrl => (nword, ctrl)
  | left + 1, nword, str, ctrl =>
    let str := str.map (skipBlanks ctrl.msg)
    let (str, ctrl) := match str with
      | some p =>
        if ctrl.msg[p]?.getD 0 ≠ 0 then
          let (msg, next) := strsep ctrl.msg p
          (next, { msg := msg, cmd := ctrl.cmd.set nword (.msg p) : VrrpCtrl })
        else (some p, ctrl)
      | none => (none, ctrl)
    if ctrl.cmd[nword]? = some .null then (nword, ctrl)
    else splitCmdLoop left (nword + 1) str ctrl

def splitCmd (ctrl : VrrpCtrl) : Nat × VrrpCtrl := splitCmdLoop CTRL_CMD_NTOKEN 0 (some 0) ctrl

/-- `vrrp_ctrl_init`: only the message is cleared, the words are fresh memory. -/
def vrrpCtrlInit (words : Nat → CmdPtr) : VrrpCtrl :=
  ⟨List.replicate CTRL_MAXCHAR 0, (List.range CTRL_CMD_NTOKEN).map words⟩

def vrrpCtrlCmdFlush (ctrl : VrrpCtrl) : VrrpCtrl :=
  ⟨List.replicate ctrl.msg.length 0, List.replicate ctrl.cmd.length .null⟩

def wordAt (ctrl : VrrpCtrl) (i : Nat) : Except Fault Octets :=
  match ctrl.cmd[i]? with
  | some (.msg p) => .ok (ctrl.msg.drop p)
  | _ => .error .badAccess

/-- The macro `matches`: the text together with its terminating NUL. -/
def matchesWord (s text : Octets) : Bool := (s.take (text.length + 1)) == text ++ [0]

def cmdStop : Octets := [0x73, 0x74, 0x6f, 0x70]
def cmdReload : Octets := [0x72, 0x65, 0x6c, 0x6f, 0x61, 0x64]
def cmdState : Octets := [0x73, 0x74, 0x61, 0x74, 0x65]
def cmdStatus : Octets := [0x73, 0x74, 0x61, 0x74, 0x75, 0x73]
def cmdPrio : Octets := [0x70, 0x72, 0x69, 0x6f]

structure CtrlEffect where
  event : VrrpEvent
  vrrp : Vrrp
  vnet : VrrpNet
  reg : Reg

/-- `prio`: the number is parsed before the buffer that holds it is flushed. -/
def ctrlPrio (host : ByteOrder) (nword : Nat) (vrrp : Vrrp) (vnet : VrrpNet) (reg : Reg) :
    Except Fault CtrlEffect := do
  let flushed := { vrrp with ctrl := vrrpCtrlCmdFlush vrrp.ctrl }
  if nword ≠ 2 then return ⟨.invalid, flushed, vnet, reg⟩
  else
    let arg ← wordAt vrrp.ctrl 1
    match mystrtoul (arg.takeWhile (· != 0)) VRRP_PRIO_MAX with
    | .error _ => return ⟨.invalid, flushed, vnet, reg⟩
    | .ok opt =>
      let prio := UInt8.ofNat opt
      if flushed.priority ≠ prio then
        let vnet ← vrrpAdvSetPriority host vnet prio
        return ⟨.ctrlFifo, { flushed with priority := prio }, vnet, setBit UVRRPD_RELOAD reg⟩
      else return ⟨.ctrlFifo, flushed, vnet, setBit UVRRPD_RELOAD reg⟩

/-- The return for a blank message does not flush. -/
def vrrpCtrlCmd (host : ByteOrder) (vrrp : Vrrp) (vnet : VrrpNet) (reg : Reg) :
    Except Fault CtrlEffect := do
  let (nword, ctrl) := splitCmd vrrp.ctrl
  let vrrp := { vrrp with ctrl := ctrl }
  if nword = 0 then return ⟨.invalid, vrrp, vnet, reg⟩
  else
    let cmd ← wordAt ctrl 0
    let flushed := { vrrp with ctrl := vrrpCtrlCmdFlush ctrl }
    if matchesWord cmd cmdStop then
      return ⟨.ctrlFifo, flushed, vnet, clearBit KEEP_GOING (setBit UVRRPD_RELOAD reg)⟩
    else if matchesWord cmd cmdReload then
      return ⟨.ctrlFifo, flushed, vnet, setBit UVRRPD_RELOAD reg⟩
    else if matchesWord cmd cmdState || matchesWord cmd cmdStatus then
      return ⟨.ctrlFifo, flushed, vnet, setBit UVRRPD_DUMP reg⟩
    else if matchesWord cmd cmdPrio then ctrlPrio host nword vrrp vnet reg
    else return ⟨.invalid, flushed, vnet, reg⟩

/-- `written` is what the FIFO holds: at most `CTRL_MAXCHAR` octets are read, the
rest is flushed. Only the last octet of the buffer is set to NUL. -/
def vrrpCtrlRead (host : ByteOrder) (written : Octets) (vrrp : Vrrp) (vnet : VrrpNet) (reg : Reg) :
    Except Fault CtrlEffect :=
  let got := written.take CTRL_MAXCHAR
  if got = [] then .ok ⟨.invalid, vrrp, vnet, reg⟩
  else
    let msg := (fill got vrrp.ctrl.msg).set (CTRL_MAXCHAR - 1) 0
    vrrpCtrlCmd host { vrrp with ctrl := { vrrp.ctrl with msg := msg } } vnet reg

end Uvrrpd
