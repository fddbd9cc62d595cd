import Mathlib.Data.List.Basic

/-! `getopt_long` over a table of options. Arguments are texts of octets without
their terminator. Nothing is read twice, so all calls on one argument vector are one
scan of it. -/
namespace Library.Getopt
variable {α : Type}

structure Table (α : Type) where
  opts : List α
  short : α → UInt8
  long : α → List UInt8
  takesArg : α → Bool

/-- The result of one call: an option with its `optarg`, or `?`. -/
inductive Found (α : Type) where
  | opt (o : α) (optarg : List UInt8)
  | unknown

def Table.named (t : Table α) (name : List UInt8) : Option α :=
  match t.opts.find? (fun o => t.long o == name) with
  | some o => some o
  | none =>
    match t.opts.filter (fun o => name.isPrefixOf (t.long o)) with
    | [o] => some o
    | _ => none

/-- The letters behind a dash: what they return, and the option whose argument is
still to come. -/
def Table.letters (t : Table α) : List UInt8 → List (Found α) × Option α
  | [] => ([], none)
  | c :: rest =>
    match t.opts.find? (fun o => t.short o == c) with
    | none =>
      let (found, waiting) := t.letters rest
      (.unknown :: found, waiting)
    | some o =>
      if t.takesArg o then
        if rest = [] then ([], some o) else ([.opt o rest], none)
      else
        let (found, waiting) := t.letters rest
        (.opt o [] :: found, waiting)

def Table.name (t : Table α) (text : List UInt8) : List (Found α) × Option α :=
  let name := text.takeWhile (· != 0x3d)
  match t.named name with
  | none => ([.unknown], none)
  | some o =>
    match text.drop name.length with
    | [] => if t.takesArg o then ([], some o) else ([.opt o []], none)
    | _ :: value => if t.takesArg o then ([.opt o value], none) else ([.unknown], none)

/-- All calls on the arguments behind the name of the program: what they return, and
the operands from `optind` on. An option that waits takes any argument. -/
def Table.getoptLong (t : Table α) (posixlyCorrect : Bool) :
    Option α → List (List UInt8) → List (Found α) × List (List UInt8)
  | none, [] => ([], [])
  | some _, [] => ([.unknown], [])
  | some o, optarg :: args =>
    let (found, operands) := t.getoptLong posixlyCorrect none args
    (.opt o optarg :: found, operands)
  | none, arg :: args =>
    match arg with
    | [0x2d, 0x2d] => ([], args)
    | 0x2d :: 0x2d :: text =>
      let (found, waiting) := t.name text
      let (more, operands) := t.getoptLong posixlyCorrect waiting args
      (found ++ more, operands)
    | 0x2d :: c :: rest =>
      let (found, waiting) := t.letters (c :: rest)
      let (more, operands) := t.getoptLong posixlyCorrect waiting args
      (found ++ more, operands)
    | operand =>
      if posixlyCorrect then ([], operand :: args)
      else
        let (found, operands) := t.getoptLong posixlyCorrect none args
        (found, operand :: operands)

end Library.Getopt
