import Mathlib.Data.List.Basic
import Uvrrpd.Library.Memory
import Uvrrpd.Library.OnesComplement

/-! The base layer: octets, host byte order, and the helpers of `common.h` and
`bits.h`. A fault ends the process: an access outside its object, through NULL
or through an indeterminate pointer, or a call of `exit`. -/
namespace Uvrrpd
open Library.OnesComplement (swap)

abbrev Octets := List UInt8

inductive Fault where
  | badAccess
  | exitFailure
  deriving DecidableEq, Repr

inductive ByteOrder where
  | little
  | big
  deriving DecidableEq, Repr

def load (mem : Octets) (i n : Nat) : Except Fault Octets :=
  match Library.Memory.read mem i n with
  | some out => .ok out
  | none => .error .badAccess

def load8 (mem : Octets) (i : Nat) : Except Fault UInt8 :=
  match mem[i]? with
  | some b => .ok b
  | none => .error .badAccess

def store (mem : Octets) (i : Nat) (new : Octets) : Except Fault Octets :=
  match Library.Memory.write mem i new with
  | some out => .ok out
  | none => .error .badAccess

def word (host : ByteOrder) (a b : UInt8) : Nat :=
  match host with
  | .little => a.toNat + 256 * b.toNat
  | .big => 256 * a.toNat + b.toNat

def octets16 (host : ByteOrder) (v : Nat) : Octets :=
  match host with
  | .little => [UInt8.ofNat v, UInt8.ofNat (v / 256)]
  | .big => [UInt8.ofNat (v / 256), UInt8.ofNat v]

def octets32 (host : ByteOrder) (v : Nat) : Octets :=
  match host with
  | .little => octets16 .little (v % 65536) ++ octets16 .little (v / 65536)
  | .big => octets16 .big (v / 65536) ++ octets16 .big (v % 65536)

def load16 (host : ByteOrder) (mem : Octets) (i : Nat) : Except Fault Nat := do
  let a ← load8 mem i
  let b ← load8 mem (i + 1)
  return word host a b

def htons (host : ByteOrder) (v : Nat) : Nat :=
  match host with
  | .little => swap 256 (v % 65536)
  | .big => v % 65536

def ntohs (host : ByteOrder) (v : Nat) : Nat := htons host v

/-- The loop of `cksum`; the accumulator is a `uint32_t`. A last odd octet is
read together with the one behind it. -/
def cksumSum (host : ByteOrder) : Octets → Nat → Nat → Except Fault Nat
  | _, 0, sum => .ok sum
  | a :: b :: _, 1, sum => .ok ((sum + word host a b) % 2 ^ 32)
  | a :: b :: buf, nbytes + 2, sum => cksumSum host buf nbytes ((sum + word host a b) % 2 ^ 32)
  | _, _, _ => .error .badAccess

/-- The two folding steps of `cksum` and the final complement. -/
def cksumFold (sum : Nat) : Nat :=
  let sum := sum / 65536 + sum % 65536
  let sum := sum + sum / 65536
  65535 - sum % 65536

def cksum (host : ByteOrder) (buf : Octets) (nbytes : Nat) : Except Fault Nat := do
  let sum ← cksumSum host buf nbytes 0
  return cksumFold sum

abbrev Reg := BitVec 64

def bitMask (nr : Nat) : Reg := 1#64 <<< nr
def setBit (nr : Nat) (reg : Reg) : Reg := reg ||| bitMask nr
def clearBit (nr : Nat) (reg : Reg) : Reg := reg &&& ~~~bitMask nr
def testBit (nr : Nat) (reg : Reg) : Bool := (1#64 &&& (reg >>> nr)) != 0#64
def testAndClearBit (nr : Nat) (reg : Reg) : Bool × Reg :=
  ((reg &&& bitMask nr) != 0#64, reg &&& ~~~bitMask nr)

/-- The enumerators are themselves masks, and are then used as bit numbers. -/
def KEEP_GOING : Nat := 1 <<< 0
def UVRRPD_DUMP : Nat := 1 <<< 1
def UVRRPD_LOGOUT : Nat := 1 <<< 2
def UVRRPD_RELOAD : Nat := 1 <<< 3

/-- `isspace` in the C locale; also the delimiter set `WHITESPACE`. -/
def isspace (c : UInt8) : Bool := c == 0x20 || (0x09 ≤ c && c ≤ 0x0d)

def digitValue (c : UInt8) : Option Nat :=
  if 0x30 ≤ c && c ≤ 0x39 then some (c.toNat - 0x30)
  else if 0x41 ≤ c && c ≤ 0x5a then some (c.toNat - 0x41 + 10)
  else if 0x61 ≤ c && c ≤ 0x7a then some (c.toNat - 0x61 + 10)
  else none

/-- The longest run of digits of a base: its value, its length and what follows. -/
def scanDigits (base : Nat) : Octets → Nat → Nat → Nat × Nat × Octets
  | [], acc, n => (acc, n, [])
  | c :: rest, acc, n =>
    match digitValue c with
    | some d => if d < base then scanDigits base rest (acc * base + d) (n + 1) else (acc, n, c :: rest)
    | none => (acc, n, c :: rest)

def startsDigit (base : Nat) : Octets → Bool
  | c :: _ => match digitValue c with
    | some d => d < base
    | none => false
  | [] => false

/-- The base that `strtoull` infers from the prefix when it is called with base 0,
and the text behind the prefix. -/
def inferBase : Octets → Nat × Octets
  | 0x30 :: x :: rest =>
    if (x == 0x78 || x == 0x58) && startsDigit 16 rest then (16, rest) else (8, 0x30 :: x :: rest)
  | [0x30] => (8, [0x30])
  | text => (10, text)

structure Strtoull where
  val : Nat
  endptr : Octets
  erange : Bool
  deriving DecidableEq, Repr

/-- `strtoull` with base 0 on a NUL-terminated text (the terminator left out). -/
def strtoull (str : Octets) : Strtoull :=
  let text := str.dropWhile isspace
  let (neg, text) := match text with
    | 0x2d :: rest => (true, rest)
    | 0x2b :: rest => (false, rest)
    | rest => (false, rest)
  let (base, text) := inferBase text
  let (val, n, rest) := scanDigits base text 0 0
  if n = 0 then ⟨0, str, false⟩
  else if 2 ^ 64 ≤ val then ⟨2 ^ 64 - 1, rest, true⟩
  else ⟨if neg then (2 ^ 64 - val) % 2 ^ 64 else val, rest, false⟩

inductive Errno where
  | erange
  | einval
  deriving DecidableEq, Repr

def LONG_MAX : Nat := 2 ^ 63 - 1

def mystrtoul (str : Octets) (max : Nat) : Except Errno Nat :=
  let r := strtoull str
  if (r.val == 0 || r.val == LONG_MAX) && r.erange then .error .erange
  else if r.val > max then .error .erange
  else if r.endptr ≠ [] then .error .einval
  else .ok r.val

theorem mystrtoul_le {str : Octets} {max opt : Nat} (h : mystrtoul str max = .ok opt) : opt ≤ max := by
  rw [mystrtoul] at h
  split at h
  · cases h
  split at h
  · cases h
  next hle =>
  split at h
  · cases h
  · rw [← Except.ok.inj h]
    exact Nat.le_of_not_lt hle

/-- What the turns of a loop are answered, numbered from the first one on. -/
theorem forall_turns_succ (p : Nat → Prop) (k n : Nat) :
    (∀ i < n + 1, p (k + i)) ↔ p k ∧ ∀ i < n, p (k + 1 + i) := by
  rw [Nat.forall_lt_succ_left]
  simp only [Nat.add_zero, Nat.add_assoc, Nat.add_comm 1]

end Uvrrpd
