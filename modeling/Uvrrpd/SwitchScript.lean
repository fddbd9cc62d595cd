import Uvrrpd.VipArgument

/-! `vrrp_switch.sh`, as the list of commands that it runs on its arguments. The tools
`ip` and `sysctl` are a parameter: what the script relies on is their documentation. -/
namespace Uvrrpd

/-- The file that the script leaves in `/tmp`, without its layout. -/
structure Report where
  state : Octets
  vrid : Octets
  ifname : Octets
  priority : Octets
  advInt : Octets
  naddr : Octets
  ips : Octets
  deriving DecidableEq, Repr

inductive SysctlKey
  | rpFilter
  | arpIgnore
  | arpAnnounce
  | autoconf
  | acceptRa
  | forwarding
  deriving DecidableEq, Repr

inductive SysctlScope
  | all
  | default
  deriving DecidableEq, Repr

inductive ShellCommand
  | report (file : Octets) (text : Report)
  | sysctl (scope : SysctlScope) (key : SysctlKey) (value : Nat)
  | linkAdd (link address dev : Octets)
  | addrAdd (family ip dev : Octets)
  | linkUp (dev : Octets)
  | linkDel (dev : Octets)
  deriving DecidableEq, Repr

def shellSpecial : Octets := [0x20, 0x09, 0x0a, 0x2c, 0x2a, 0x3f, 0x5b, 0x5c]

/-- The unquoted expansion of the text is one word. -/
def IsWord (text : Octets) : Prop := text ≠ [] ∧ ∀ c ∈ text, c ∉ shellSpecial

instance (text : Octets) : Decidable (IsWord text) := inferInstanceAs (Decidable (_ ∧ _))

/-- `printf %x`, which reads its argument as C does. -/
def printfHex (text : Octets) : Octets :=
  (Nat.toDigits 16 (strtoull text).val).map (fun c => UInt8.ofNat c.toNat)

def macPrefix : Octets :=
  [0x30, 0x30, 0x3a, 0x30, 0x30, 0x3a, 0x35, 0x45, 0x3a, 0x30, 0x30, 0x3a, 0x30, 0x31, 0x3a]

def switchInterface (ifname vrid : Octets) : Octets := ifname ++ 0x5f :: vrid

def stateFile (ifname vrid : Octets) : Octets :=
  [0x2f, 0x74, 0x6d, 0x70, 0x2f, 0x73, 0x74, 0x61, 0x74, 0x65, 0x2e, 0x76, 0x72, 0x72, 0x70, 0x5f] ++
    vrid ++ 0x5f :: ifname

def adjustSysctl (settings : List (SysctlKey × Nat)) : List ShellCommand :=
  [.all, .default].flatMap fun scope => settings.map fun s => .sysctl scope s.1 s.2

/-- The commands of a call with the arguments `$1` to `$8`. A call in which an unquoted
expansion is not one word is left out. -/
def vrrpSwitch (inet6 : Bool) (args : List Octets) : Option (List ShellCommand) :=
  let state := args.getD 0 []
  let vrid := args.getD 1 []
  let ifname := args.getD 2 []
  let priority := args.getD 3 []
  let advInt := args.getD 4 []
  let naddr := args.getD 5 []
  let family := args.getD 6 []
  let ips := args.getD 7 []
  let report := .report (stateFile ifname vrid) ⟨state, vrid, ifname, priority, advInt, naddr, ips⟩
  let interface := switchInterface ifname vrid
  if state = STR_STATE .init then
    let settings6 := if inet6 then adjustSysctl [(.autoconf, 0), (.acceptRa, 0), (.forwarding, 1)] else []
    some (report :: adjustSysctl [(.rpFilter, 0), (.arpIgnore, 1), (.arpAnnounce, 2)] ++ settings6)
  else if state = STR_STATE .master then
    if IsWord vrid ∧ IsWord ifname ∧ IsWord family ∧ ∀ ip ∈ ipsFields ips, IsWord ip then
      some (report :: .linkAdd ifname (macPrefix ++ printfHex vrid) interface ::
        (ipsFields ips).map (.addrAdd family · interface) ++ [.linkUp interface])
    else none
  else if state = STR_STATE .backup then
    if IsWord vrid ∧ IsWord ifname then some [report, .linkDel interface] else none
  else some [report]

structure Device where
  address : Octets
  up : Bool
  addrs : List Octets
  deriving DecidableEq, Repr

def hexValue (c : UInt8) : Option Nat :=
  if 0x30 ≤ c ∧ c ≤ 0x39 then some (c.toNat - 0x30)
  else if 0x41 ≤ c ∧ c ≤ 0x46 then some (c.toNat - 0x37)
  else if 0x61 ≤ c ∧ c ≤ 0x66 then some (c.toNat - 0x57)
  else none

def hexOctet (text : Octets) : Option UInt8 := do
  let digits ← text.mapM hexValue
  if text ≠ [] ∧ text.length ≤ 2 then some (UInt8.ofNat (digits.foldl (16 * · + ·) 0)) else none

def llAddr (text : Octets) : Option Octets := do
  let octets ← (text.splitOn 0x3a).mapM hexOctet
  if octets.length = 6 then some octets else none

/-- What the kernel takes as the name of a new interface. -/
structure DevName (name : Octets) : Prop where
  word : IsWord name
  length : name.length < IFNAMSIZ
  plain : ∀ c ∈ name, c ∉ [0x25, 0x2f, 0x3a]
  dots : name ≠ [0x2e] ∧ name ≠ [0x2e, 0x2e]

/-- A host with its tools: the interfaces, what stands on an interface and goes with it,
the files of the script, and what an address is to `ip`. -/
structure HostTools (H : Type) where
  run : ShellCommand → H → H
  device : H → Octets → Option Device
  stacked : H → Octets → Octets → Prop
  report : H → Octets → Option Report
  parse : Octets → Octets → Option Octets

def ShellCommand.dev : ShellCommand → Option Octets
  | .report _ _ | .sysctl _ _ _ => none
  | .linkAdd _ _ dev | .addrAdd _ _ dev | .linkUp dev | .linkDel dev => some dev

/-- What is documented of the tools. A macvlan interface comes up only if its link-layer
address is its own. -/
structure HostTools.Documented {H : Type} (tools : HostTools H) : Prop where
  linkAdd : ∀ {h link address dev mac parent}, tools.device h link = some parent → tools.device h dev = none →
    DevName dev → llAddr address = some mac →
    tools.device (tools.run (.linkAdd link address dev) h) dev = some ⟨mac, false, []⟩
  addrAdd : ∀ {h family ip dev d addr}, tools.device h dev = some d → tools.parse family ip = some addr →
    tools.device (tools.run (.addrAdd family ip dev) h) dev =
      some { d with addrs := if addr ∈ d.addrs then d.addrs else d.addrs ++ [addr] }
  linkUp : ∀ {h dev d}, tools.device h dev = some d →
    (∀ other d', other ≠ dev → tools.device h other = some d' → d'.address ≠ d.address) →
    tools.device (tools.run (.linkUp dev) h) dev = some { d with up := true }
  linkDel : ∀ {h dev}, tools.device (tools.run (.linkDel dev) h) dev = none
  others : ∀ {h cmd other}, cmd.dev ≠ some other →
    tools.device (tools.run cmd h) other = tools.device h other ∨
      tools.device (tools.run cmd h) other = none ∧ ∃ dev, cmd = .linkDel dev ∧ tools.stacked h other dev
  stacked : ∀ {h cmd other dev}, cmd.dev ≠ some other → tools.stacked (tools.run cmd h) other dev →
    tools.stacked h other dev
  written : ∀ {h file text}, tools.report (tools.run (.report file text) h) file = some text
  unwritten : ∀ {h cmd file}, (∀ text, cmd ≠ .report file text) →
    tools.report (tools.run cmd h) file = tools.report h file

def HostTools.call {H : Type} (tools : HostTools H) (cmds : List ShellCommand) (h : H) : H :=
  cmds.foldl (fun h cmd => tools.run cmd h) h

end Uvrrpd
