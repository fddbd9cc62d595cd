import Mathlib.Logic.Function.Basic
import Uvrrpd.Exec

/-! The pid file and the control file of `uvrrpd.c`, as several instances of one VRID
work on them. An instance moves by one system call on the files at a time; what `main`
does between them is left out. -/
namespace Uvrrpd

abbrev Inode := Nat

inductive AtExit
  | pidfileUnlink
  | ctrlfileUnlink
  deriving DecidableEq, Repr

/-- The next system call of an instance, with the descriptor of its pid file. A `stray` one
is in the main loop as the child of a hook whose script was not started. -/
inductive FilesPc
  | checkOpen
  | checkGetlk (fd : Inode)
  | ctrlUnlink
  | ctrlMkfifo
  | ctrlOpen
  | prepare
  | pidOpen
  | pidSetlk (fd : Inode)
  | pidWrite (fd : Inode)
  | loop (fd : Inode)
  | stopPid (fd : Inode)
  | stray (fd : Inode)
  | strayStop (fd : Inode)
  | stopCtrl
  | exiting
  | gone
  deriving DecidableEq, Repr

structure Instance where
  pc : FilesPc
  ctrlFd : Option Inode
  handlers : List AtExit

def Instance.fresh : Instance := ⟨.checkOpen, none, []⟩

/-- What the two names stand for, who has locked which file, what the pid files hold,
and the number of the next file. -/
structure Files (ι : Type) where
  instances : ι → Instance
  pidName : Option Inode
  ctrlName : Option Inode
  lock : Inode → Option ι
  content : Inode → Octets
  next : Inode

/-- How the next call of an instance ends: as the files have it, or in an error of
another kind, or the instance is killed in front of it. In the main loop, it may fork for
a script that `execve` does not start. -/
inductive Answer (ι : Type)
  | ok
  | fail
  | killed
  | forks (child : ι)
  deriving DecidableEq, Repr

namespace Files
variable {ι : Type} [DecidableEq ι]

def set (w : Files ι) (i : ι) (inst : Instance) : Files ι :=
  { w with instances := Function.update w.instances i inst }

def goto (w : Files ι) (i : ι) (pc : FilesPc) : Files ι := w.set i { w.instances i with pc := pc }

def vanish (w : Files ι) (i : ι) : Files ι :=
  { w.goto i .gone with lock := fun fd => if w.lock fd = some i then none else w.lock fd }

def pidfileUnlink (w : Files ι) (ok : Bool) : Files ι :=
  if ok then { w with pidName := none } else w

def ctrlfileUnlink (w : Files ι) (ok : Bool) : Files ι :=
  if ok then { w with ctrlName := none } else w

/-- `pidfile_check`: without a file, or with one that nobody has locked, `main` goes on. -/
def pidfileCheck (w : Files ι) (i : ι) : Files ι :=
  match (w.instances i).pc with
  | .checkOpen =>
    match w.pidName with
    | none => w.goto i .ctrlUnlink
    | some fd => w.goto i (.checkGetlk fd)
  | .checkGetlk fd => w.goto i (if w.lock fd = none ∨ w.lock fd = some i then .ctrlUnlink else .exiting)
  | _ => w

def ctrlfile (w : Files ι) (i : ι) : Files ι :=
  match (w.instances i).pc with
  | .ctrlUnlink => (w.ctrlfileUnlink true).goto i .ctrlMkfifo
  | .ctrlMkfifo =>
    if w.ctrlName = none then
      { w with ctrlName := some w.next, next := w.next + 1 }.set i
        { w.instances i with pc := .ctrlOpen, handlers := .ctrlfileUnlink :: (w.instances i).handlers }
    else w.goto i .exiting
  | .ctrlOpen =>
    match w.ctrlName with
    | none => w.goto i .exiting
    | some fifo => w.set i { w.instances i with pc := .prepare, ctrlFd := some fifo }
  | _ => w

def pidLine (pid : Nat) : Octets := decimal pid ++ [0x0a]

/-- `pidfile`. The file is opened without being cut, and written from its start. -/
def pidfile (pid : ι → Nat) (w : Files ι) (i : ι) : Files ι :=
  match (w.instances i).pc with
  | .pidOpen =>
    match w.pidName with
    | none =>
      { w with
        pidName := some w.next
        content := Function.update w.content w.next []
        next := w.next + 1 }.goto i (.pidSetlk w.next)
    | some fd => w.goto i (.pidSetlk fd)
  | .pidSetlk fd =>
    if w.lock fd = none ∨ w.lock fd = some i then
      { w with lock := Function.update w.lock fd (some i) }.set i
        { w.instances i with pc := .pidWrite fd, handlers := .pidfileUnlink :: (w.instances i).handlers }
    else w.goto i .exiting
  | .pidWrite fd =>
    { w with
      content := Function.update w.content fd
        (pidLine (pid i) ++ (w.content fd).drop (pidLine (pid i)).length) }.goto i (.loop fd)
  | _ => w

/-- `exit`, from the last registered function to the end of the process. -/
def exit (w : Files ι) (i : ι) (ok : Bool) : Files ι :=
  match (w.instances i).handlers with
  | [] => w.vanish i
  | .pidfileUnlink :: rest => (w.pidfileUnlink ok).set i { w.instances i with handlers := rest }
  | .ctrlfileUnlink :: rest => (w.ctrlfileUnlink ok).set i { w.instances i with handlers := rest }

/-- The child of `vrrp_exec` comes back into the loop, with all but the locks. -/
def fork (w : Files ι) (i child : ι) : Files ι :=
  match (w.instances i).pc, (w.instances child).pc with
  | .loop fd, .checkOpen => w.set child { w.instances i with pc := .stray fd }
  | _, _ => w

def call (pid : ι → Nat) (w : Files ι) (i : ι) : Files ι :=
  match (w.instances i).pc with
  | .checkOpen | .checkGetlk _ => w.pidfileCheck i
  | .ctrlUnlink | .ctrlMkfifo | .ctrlOpen => w.ctrlfile i
  | .prepare => w.goto i .pidOpen
  | .pidOpen | .pidSetlk _ | .pidWrite _ => w.pidfile pid i
  | .loop fd => w.goto i (.stopPid fd)
  | .stray fd => w.goto i (.strayStop fd)
  | .stopPid _ | .strayStop _ => (w.pidfileUnlink true).goto i .stopCtrl
  | .stopCtrl => (w.ctrlfileUnlink true).goto i .exiting
  | .exiting => w.exit i true
  | .gone => w

/-- The call fails. Only that of `unlink` is not looked at. -/
def failed (w : Files ι) (i : ι) : Files ι :=
  match (w.instances i).pc with
  | .checkOpen | .checkGetlk _ | .ctrlMkfifo | .ctrlOpen | .prepare | .pidOpen | .pidSetlk _ | .pidWrite _ =>
    w.goto i .exiting
  | .ctrlUnlink => w.goto i .ctrlMkfifo
  | .loop _ | .stray _ | .gone => w
  | .stopPid _ | .strayStop _ => w.goto i .stopCtrl
  | .stopCtrl => w.goto i .exiting
  | .exiting => w.exit i false

def step (pid : ι → Nat) (act : ι × Answer ι) (w : Files ι) : Except Empty (Files ι × List Empty) :=
  match act.2 with
  | .ok => .ok (w.call pid act.1, [])
  | .fail => .ok (w.failed act.1, [])
  | .killed => .ok (w.vanish act.1, [])
  | .forks child => .ok (w.fork act.1 child, [])

structure Initial (w : Files ι) : Prop where
  instances : ∀ i, w.instances i = .fresh
  lock : ∀ fd, w.lock fd = none
  pidName : ∀ fd ∈ w.pidName, fd < w.next
  ctrlName : ∀ fd ∈ w.ctrlName, fd < w.next

end Files

end Uvrrpd
