import Uvrrpd.Files
import Uvrrpd.Library.Runs

/-! At most one instance of a VRID runs, as far as the lock on the pid file can see to
it: the lock is on the file, and the name may be taken from it. -/
namespace Uvrrpd
open Library.Runs

namespace FilesPc

def HasOpen (pc : FilesPc) (fd : Inode) : Prop :=
  pc = .pidSetlk fd ∨ (pc = .pidWrite fd ∨ pc = .loop fd ∨ pc = .stopPid fd) ∨ pc = .stray fd ∨ pc = .strayStop fd

def Holds (pc : FilesPc) (fd : Inode) : Prop := pc = .pidWrite fd ∨ pc = .loop fd ∨ pc = .stopPid fd

/-- The pid file may be locked. -/
def Late (pc : FilesPc) : Prop := (∃ fd, pc.Holds fd) ∨ pc = .stopCtrl ∨ pc = .exiting

def Written (pc : FilesPc) (fd : Inode) : Prop := pc = .loop fd ∨ pc = .stopPid fd

variable {pc : FilesPc} {fd : Inode}

private theorem Holds.hasOpen (h : pc.Holds fd) : pc.HasOpen fd := .inr (.inl h)

theorem Written.holds (h : pc.Written fd) : pc.Holds fd := .inr h

end FilesPc

namespace Files
variable {ι : Type} [DecidableEq ι] {pid : ι → Nat} {w w' : Files ι} {i j : ι} {a : Answer ι}

@[simp] theorem set_self (w : Files ι) (i : ι) (inst : Instance) : (w.set i inst).instances i = inst := by
  simp [set]

private theorem set_other (w : Files ι) {i j : ι} (inst : Instance) (h : j ≠ i) :
    (w.set i inst).instances j = w.instances j := by
  simp [set, h]

inductive Moves (pid : ι → Nat) (w : Files ι) (i : ι) (a : Answer ι) : Files ι → Prop
  | still : Moves pid w i a w
  | quiet {inst : Instance} (ctrl : Option Inode) {next : Inode} (hn : w.next ≤ next)
      (ho : ∀ fd, ¬ inst.pc.HasOpen fd) (hl : (w.instances i).pc.Late → inst.pc.Late) :
      Moves pid w i a ({ w with ctrlName := ctrl, next := next }.set i inst)
  | opens {fd : Inode} (hpc : (w.instances i).pc = .pidOpen) (hname : w.pidName = some fd) :
      Moves pid w i a (w.goto i (.pidSetlk fd))
  | creates (hpc : (w.instances i).pc = .pidOpen) (hname : w.pidName = none) :
      Moves pid w i a ({ w with
        pidName := some w.next
        content := Function.update w.content w.next []
        next := w.next + 1 }.goto i (.pidSetlk w.next))
  | locks {fd : Inode} (hpc : (w.instances i).pc = .pidSetlk fd)
      (hfree : w.lock fd = none ∨ w.lock fd = some i) {inst : Instance} (hinst : inst.pc = .pidWrite fd) :
      Moves pid w i a ({ w with lock := Function.update w.lock fd (some i) }.set i inst)
  | writes {fd : Inode} (hpc : (w.instances i).pc = .pidWrite fd) :
      Moves pid w i a ({ w with
        content := Function.update w.content fd
          (pidLine (pid i) ++ (w.content fd).drop (pidLine (pid i)).length) }.goto i (.loop fd))
  | stops {fd : Inode} (hpc : (w.instances i).pc = .loop fd) : Moves pid w i a (w.goto i (.stopPid fd))
  | strays {fd : Inode} (hpc : (w.instances i).pc = .stray fd) : Moves pid w i a (w.goto i (.strayStop fd))
  | unlinks {inst : Instance} (ho : ∀ fd, ¬ inst.pc.HasOpen fd) (hl : inst.pc.Late) :
      Moves pid w i a ({ w with pidName := none }.set i inst)
  | forks {j : ι} {fd : Inode} (hpc : (w.instances i).pc = .loop fd) (hj : (w.instances j).pc = .checkOpen)
      {inst : Instance} (hinst : inst.pc = .stray fd) (ha : a = .forks j) : Moves pid w i a (w.set j inst)
  | vanishes : Moves pid w i a (w.vanish i)

private theorem Moves.of_exit (hpc : (w.instances i).pc = .exiting) (ok : Bool) : Moves pid w i a (w.exit i ok) := by
  have hexit (rest : List AtExit) : ∀ fd, ¬ ({ w.instances i with handlers := rest } : Instance).pc.HasOpen fd := by
    intro fd
    simp [hpc, FilesPc.HasOpen]
  have hlate (rest : List AtExit) : ({ w.instances i with handlers := rest } : Instance).pc.Late :=
    .inr (.inr hpc)
  rw [exit]
  cases (w.instances i).handlers with
  | nil => exact .vanishes
  | cons handler rest =>
    cases handler with
    | pidfileUnlink =>
      cases ok with
      | true => exact .unlinks (hexit rest) (hlate rest)
      | false => exact .quiet w.ctrlName le_rfl (hexit rest) (fun _ => hlate rest)
    | ctrlfileUnlink =>
      cases ok with
      | true => exact .quiet none le_rfl (hexit rest) (fun _ => hlate rest)
      | false => exact .quiet w.ctrlName le_rfl (hexit rest) (fun _ => hlate rest)

/-- Every move is of one of these kinds. -/
private theorem step_cases {out : List Empty} (h : step pid (i, a) w = .ok (w', out)) : Moves pid w i a w' := by
  have hgoto {pc : FilesPc} (ctrl : Option Inode) (ho : ∀ fd, ¬ pc.HasOpen fd)
      (hl : (w.instances i).pc.Late → pc.Late) :
      Moves pid w i a ({ w with ctrlName := ctrl }.goto i pc) := .quiet ctrl le_rfl ho hl
  cases a with
  | killed =>
    obtain ⟨rfl, -⟩ := Prod.mk.inj (Except.ok.inj h)
    exact .vanishes
  | forks j =>
    obtain ⟨rfl, -⟩ := Prod.mk.inj (Except.ok.inj h)
    simp only [fork]
    split
    · next fd hpc hj => exact .forks hpc hj rfl rfl
    · exact .still
  | fail =>
    obtain ⟨rfl, -⟩ := Prod.mk.inj (Except.ok.inj h)
    simp only [failed]
    cases hpc : (w.instances i).pc with
    | loop fd => exact .still
    | stray fd => exact .still
    | gone => exact .still
    | exiting => exact .of_exit hpc false
    | _ => exact hgoto w.ctrlName (by simp [FilesPc.HasOpen]) (by simp [hpc, FilesPc.Late, FilesPc.Holds])
  | ok =>
    obtain ⟨rfl, -⟩ := Prod.mk.inj (Except.ok.inj h)
    simp only [call]
    cases hpc : (w.instances i).pc with
    | checkOpen =>
      simp only [pidfileCheck, hpc]
      cases w.pidName with
      | none => exact hgoto w.ctrlName (by simp [FilesPc.HasOpen]) (by simp [hpc, FilesPc.Late, FilesPc.Holds])
      | some fd => exact hgoto w.ctrlName (by simp [FilesPc.HasOpen]) (by simp [hpc, FilesPc.Late, FilesPc.Holds])
    | checkGetlk fd =>
      simp only [pidfileCheck, hpc]
      refine hgoto w.ctrlName ?_ (by simp [hpc, FilesPc.Late, FilesPc.Holds])
      split <;> simp [FilesPc.HasOpen]
    | ctrlUnlink =>
      simp only [ctrlfile, hpc]
      exact hgoto none (by simp [FilesPc.HasOpen]) (by simp [hpc, FilesPc.Late, FilesPc.Holds])
    | ctrlMkfifo =>
      simp only [ctrlfile, hpc]
      split
      · exact .quiet (some w.next) (Nat.le_succ _) (by simp [FilesPc.HasOpen])
          (by simp [hpc, FilesPc.Late, FilesPc.Holds])
      · exact hgoto w.ctrlName (by simp [FilesPc.HasOpen]) (by simp [hpc, FilesPc.Late, FilesPc.Holds])
    | ctrlOpen =>
      simp only [ctrlfile, hpc]
      cases w.ctrlName with
      | none => exact hgoto _ (by simp [FilesPc.HasOpen]) (by simp [hpc, FilesPc.Late, FilesPc.Holds])
      | some fifo => exact .quiet _ le_rfl (by simp [FilesPc.HasOpen]) (by simp [hpc, FilesPc.Late, FilesPc.Holds])
    | prepare => exact hgoto w.ctrlName (by simp [FilesPc.HasOpen]) (by simp [hpc, FilesPc.Late, FilesPc.Holds])
    | pidOpen =>
      simp only [pidfile, hpc]
      cases hname : w.pidName with
      | none => exact .creates hpc hname
      | some fd => exact .opens hpc hname
    | pidSetlk fd =>
      simp only [pidfile, hpc]
      split
      · next hfree => exact .locks hpc hfree rfl
      · exact hgoto w.ctrlName (by simp [FilesPc.HasOpen]) (by simp [hpc, FilesPc.Late, FilesPc.Holds])
    | pidWrite fd =>
      simp only [pidfile, hpc]
      exact .writes hpc
    | loop fd => exact .stops hpc
    | stray fd => exact .strays hpc
    | stopPid fd => exact .unlinks (by simp [FilesPc.HasOpen]) (.inr (.inl rfl))
    | strayStop fd => exact .unlinks (by simp [FilesPc.HasOpen]) (.inr (.inl rfl))
    | stopCtrl => exact hgoto none (by simp [FilesPc.HasOpen]) (fun _ => .inr (.inr rfl))
    | exiting => exact .of_exit hpc true
    | gone => exact .still

/-- What the record of an instance claims of the files: it holds the lock on what it has
written its pid into. -/
structure Claims (pid : ι → Nat) (w : Files ι) (i : ι) (pc : FilesPc) : Prop where
  opened : ∀ fd, pc.HasOpen fd → fd < w.next
  holds : ∀ fd, pc.Holds fd → w.lock fd = some i
  late : ∀ fd, w.lock fd = some i → pc.Late
  written : ∀ fd, pc.Written fd → pidLine (pid i) <+: w.content fd

structure Sound (pid : ι → Nat) (w : Files ι) : Prop where
  claims : ∀ i, Claims pid w i (w.instances i).pc
  named : ∀ fd ∈ w.pidName, fd < w.next

variable {fd : Inode} {inst : Instance}

/-- One instance moves, and the others do not notice. -/
private theorem Sound.of_set (hname : ∀ fd ∈ w.pidName, fd < w.next) (hown : Claims pid w i inst.pc)
    (hothers : ∀ j, j ≠ i → Claims pid w j (w.instances j).pc) : Sound pid (w.set i inst) where
  claims j := by
    have hset : Claims pid w j ((w.set i inst).instances j).pc := by
      by_cases hj : j = i
      · subst hj
        rw [set_self]
        exact hown
      · rw [set_other w inst hj]
        exact hothers j hj
    exact ⟨hset.opened, hset.holds, hset.late, hset.written⟩
  named := hname

/-- The record of one instance is replaced, by one that claims nothing new. -/
theorem Sound.set (hs : Sound pid w) (ctrl : Option Inode) {name : Option Inode} {next : Inode}
    (hn : w.next ≤ next) (hname : ∀ fd ∈ name, fd < next) (ho : ∀ fd, inst.pc.HasOpen fd → fd < next)
    (hh : ∀ fd, inst.pc.Holds fd → (w.instances i).pc.Holds fd)
    (hl : (w.instances i).pc.Late → inst.pc.Late)
    (hw : ∀ fd, inst.pc.Written fd → (w.instances i).pc.Written fd) :
    Sound pid ({ w with pidName := name, ctrlName := ctrl, next := next }.set i inst) := by
  have hclaims := hs.claims
  refine .of_set hname ⟨ho, ?_, ?_, ?_⟩ ?_
  · exact fun fd h => (hclaims i).holds fd (hh fd h)
  · exact fun fd h => hl ((hclaims i).late fd h)
  · exact fun fd h => (hclaims i).written fd (hw fd h)
  · exact fun j _ => ⟨fun fd h => ((hclaims j).opened fd h).trans_le hn, (hclaims j).holds, (hclaims j).late,
      (hclaims j).written⟩

/-- A new file is empty, and nobody has it open. -/
private theorem Sound.create (hs : Sound pid w) (hl : ¬ (w.instances i).pc.Late) (hinst : inst.pc = .pidSetlk w.next) :
    Sound pid ({ w with
      pidName := some w.next
      content := Function.update w.content w.next []
      next := w.next + 1 }.set i inst) := by
  have hclaims := hs.claims
  refine .of_set ?_ ⟨?_, ?_, ?_, ?_⟩ ?_
  · rintro fd ⟨⟩
    exact Nat.lt_succ_self _
  · intro fd h
    obtain rfl : w.next = fd := by simpa [hinst, FilesPc.HasOpen] using h
    exact Nat.lt_succ_self _
  · simp [hinst, FilesPc.Holds]
  · exact fun fd h => absurd ((hclaims i).late fd h) hl
  · simp [hinst, FilesPc.Written]
  · intro j _
    refine ⟨fun fd h => ((hclaims j).opened fd h).trans (Nat.lt_succ_self _), (hclaims j).holds,
      (hclaims j).late, fun fd h => ?_⟩
    have hne := Nat.ne_of_lt ((hclaims j).opened fd h.holds.hasOpen)
    simp only [Function.update_of_ne hne]
    exact (hclaims j).written fd h

/-- `F_SETLK` gives the lock to nobody while another holds it. -/
theorem Sound.lock (hs : Sound pid w) (hpc : (w.instances i).pc = .pidSetlk fd)
    (hfree : w.lock fd = none ∨ w.lock fd = some i) (hinst : inst.pc = .pidWrite fd) :
    Sound pid ({ w with lock := Function.update w.lock fd (some i) }.set i inst) := by
  have hclaims := hs.claims
  refine .of_set hs.named ⟨?_, ?_, ?_, ?_⟩ ?_
  · intro fd' h
    obtain rfl : fd = fd' := by simpa [hinst, FilesPc.HasOpen] using h
    exact (hclaims i).opened fd (.inl hpc)
  · intro fd' h
    obtain rfl : fd = fd' := by simpa [hinst, FilesPc.Holds] using h
    exact Function.update_self fd (some i) w.lock
  · exact fun _ _ => .inl ⟨fd, .inl hinst⟩
  · simp [hinst, FilesPc.Written]
  · intro j hj
    refine ⟨(hclaims j).opened, fun fd' h => ?_, fun fd' h => ?_, (hclaims j).written⟩
    · have hown := (hclaims j).holds fd' h
      have hne : fd' ≠ fd := by
        rintro rfl
        rw [hown] at hfree
        simp [hj] at hfree
      simp only [Function.update_of_ne hne]
      exact hown
    · apply (hclaims j).late fd'
      have hne : fd' ≠ fd := by
        rintro rfl
        simp only [Function.update_self] at h
        exact hj (Option.some.inj h).symm
      simpa only [Function.update_of_ne hne] using h

/-- Only who holds the lock writes. -/
theorem Sound.write (hs : Sound pid w) (hpc : (w.instances i).pc = .pidWrite fd) (hinst : inst.pc = .loop fd) :
    Sound pid ({ w with
      content := Function.update w.content fd
        (pidLine (pid i) ++ (w.content fd).drop (pidLine (pid i)).length) }.set i inst) := by
  have hclaims := hs.claims
  have hown := (hclaims i).holds fd (.inl hpc)
  refine .of_set hs.named ⟨?_, ?_, ?_, ?_⟩ ?_
  · intro fd' h
    obtain rfl : fd = fd' := by simpa [hinst, FilesPc.HasOpen] using h
    exact (hclaims i).opened fd (.inr (.inl (.inl hpc)))
  · intro fd' h
    obtain rfl : fd = fd' := by simpa [hinst, FilesPc.Holds] using h
    exact hown
  · exact fun _ _ => .inl ⟨fd, .inr (.inl hinst)⟩
  · intro fd' h
    obtain rfl : fd = fd' := by simpa [hinst, FilesPc.Written] using h
    simp only [Function.update_self]
    exact List.prefix_append _ _
  · intro j hj
    refine ⟨(hclaims j).opened, (hclaims j).holds, (hclaims j).late, fun fd' h => ?_⟩
    have hne : fd' ≠ fd := by
      rintro rfl
      exact hj (Option.some.inj (((hclaims j).holds fd' h.holds).symm.trans hown))
    simp only [Function.update_of_ne hne]
    exact (hclaims j).written fd' h

/-- The locks of a process that ends were its own. -/
theorem Sound.vanish (hs : Sound pid w) : Sound pid (w.vanish i) := by
  have hclaims := hs.claims
  refine Sound.of_set (w := { w with lock := fun fd => if w.lock fd = some i then none else w.lock fd }) hs.named
    ⟨?_, ?_, ?_, ?_⟩ ?_
  · simp [FilesPc.HasOpen]
  · simp [FilesPc.Holds]
  · intro fd h
    simp only at h
    split at h
    · cases h
    · next hne => exact absurd h hne
  · simp [FilesPc.Written]
  · intro j hj
    refine ⟨(hclaims j).opened, fun fd h => ?_, fun fd h => ?_, (hclaims j).written⟩
    · have hown := (hclaims j).holds fd h
      simp only [hown, Option.some.injEq, hj, if_false]
    · simp only at h
      split at h
      · cases h
      · exact (hclaims j).late fd h

theorem Sound.step {out : List Empty} (hs : Sound pid w) (h : step pid (i, a) w = .ok (w', out)) :
    Sound pid w' := by
  cases step_cases h with
  | still => exact hs
  | quiet ctrl hn ho hl =>
    exact hs.set ctrl hn (fun fd hfd => (hs.named fd hfd).trans_le hn) (fun fd h => absurd h (ho fd))
      (fun fd h => absurd h.hasOpen (ho fd)) hl (fun fd h => absurd h.holds.hasOpen (ho fd))
  | @opens fd hpc hname =>
    refine hs.set w.ctrlName le_rfl hs.named ?_ (by simp [FilesPc.Holds])
      (by simp [hpc, FilesPc.Late, FilesPc.Holds]) (by simp [FilesPc.Written])
    intro fd' h
    obtain rfl : fd = fd' := by simpa [FilesPc.HasOpen] using h
    exact hs.named fd hname
  | creates hpc hname => exact hs.create (by simp [hpc, FilesPc.Late, FilesPc.Holds]) rfl
  | locks hpc hfree hinst => exact hs.lock hpc hfree hinst
  | writes hpc => exact hs.write hpc rfl
  | @stops fd hpc =>
    refine hs.set w.ctrlName le_rfl hs.named ?_ ?_ (fun _ => .inl ⟨fd, .inr (.inr rfl)⟩) ?_
    · intro fd' h
      obtain rfl : fd = fd' := by simpa [FilesPc.HasOpen] using h
      exact (hs.claims i).opened fd (.inr (.inl (.inr (.inl hpc))))
    · intro fd' h
      obtain rfl : fd = fd' := by simpa [FilesPc.Holds] using h
      exact .inr (.inl hpc)
    · intro fd' h
      obtain rfl : fd = fd' := by simpa [FilesPc.Written] using h
      exact .inl hpc
  | @strays fd hpc =>
    refine hs.set w.ctrlName le_rfl hs.named ?_ (by simp [FilesPc.Holds])
      (by simp [hpc, FilesPc.Late, FilesPc.Holds]) (by simp [FilesPc.Written])
    intro fd' h
    obtain rfl : fd = fd' := by simpa [FilesPc.HasOpen] using h
    exact (hs.claims i).opened fd (.inr (.inr (.inl hpc)))
  | unlinks ho hl =>
    exact hs.set w.ctrlName le_rfl (by simp) (fun fd h => absurd h (ho fd))
      (fun fd h => absurd h.hasOpen (ho fd)) (fun _ => hl) (fun fd h => absurd h.holds.hasOpen (ho fd))
  | @forks j fd hpc hj inst hinst =>
    refine hs.set w.ctrlName le_rfl hs.named ?_ (by simp [hinst, FilesPc.Holds])
      (by simp [hj, FilesPc.Late, FilesPc.Holds]) (by simp [hinst, FilesPc.Written])
    intro fd' h
    obtain rfl : fd = fd' := by simpa [hinst, FilesPc.HasOpen] using h
    exact (hs.claims i).opened fd (.inr (.inl (.inr (.inl hpc))))
  | vanishes => exact hs.vanish

omit [DecidableEq ι] in
private theorem Initial.sound (h : Initial w) : Sound pid w where
  claims i := by
    rw [h.instances i]
    refine ⟨?_, ?_, ?_, ?_⟩
    · simp [Instance.fresh, FilesPc.HasOpen]
    · simp [Instance.fresh, FilesPc.Holds]
    · simp [h.lock]
    · simp [Instance.fresh, FilesPc.Written]
  named := h.pidName

abbrev FilesEntry (ι : Type) := Entry (Files ι) (ι × Answer ι) Empty

/-- The step takes the name from a pid file that another instance has open. -/
def Steals (e : FilesEntry ι) : Prop :=
  e.post.pidName ≠ e.pre.pidName ∧ ∃ j fd, j ≠ e.input.1 ∧ e.pre.pidName = some fd ∧
    (e.pre.instances j).pc.HasOpen fd

def Named (w : Files ι) : Prop := ∀ i fd, (w.instances i).pc.HasOpen fd → w.pidName = some fd

omit [DecidableEq ι] in
private theorem Named.of_set [DecidableEq ι]
    (hothers : ∀ j fd, j ≠ i → (w.instances j).pc.HasOpen fd → w.pidName = some fd)
    {inst : Instance} (hown : ∀ fd, inst.pc.HasOpen fd → w.pidName = some fd) : Named (w.set i inst) := by
  intro j fd
  by_cases hj : j = i
  · subst hj
    rw [set_self]
    exact hown fd
  · rw [set_other w inst hj]
    exact hothers j fd hj

theorem Named.step {out : List Empty} (hn : Named w) (h : step pid (i, a) w = .ok (w', out))
    (hno : ¬ Steals ⟨w, (i, a), out, w'⟩) : Named w' := by
  have hothers : ∀ j fd, j ≠ i → (w.instances j).pc.HasOpen fd → w.pidName = some fd := fun j fd _ => hn j fd
  cases step_cases h with
  | still => exact hn
  | quiet ctrl _ ho => exact .of_set hothers (fun fd h => absurd h (ho fd))
  | @opens fd hpc hname =>
    refine .of_set hothers (fun fd' h => ?_)
    obtain rfl : fd = fd' := by simpa [FilesPc.HasOpen] using h
    exact hname
  | creates hpc hname =>
    have hnone : ∀ j fd, ¬ (w.instances j).pc.HasOpen fd := fun j fd h => by
      have hsome := hn j fd h
      rw [hname] at hsome
      cases hsome
    refine Named.of_set (w := { w with
      pidName := some w.next, content := Function.update w.content w.next [], next := w.next + 1 })
      (fun j fd _ h => absurd h (hnone j fd)) (fun fd h => ?_)
    obtain rfl : w.next = fd := by simpa [FilesPc.HasOpen] using h
    rfl
  | @locks fd hpc _ inst hinst =>
    refine Named.of_set (w := { w with lock := Function.update w.lock fd (some i) }) hothers (fun fd' h => ?_)
    obtain rfl : fd = fd' := by simpa [hinst, FilesPc.HasOpen] using h
    exact hn i fd (.inl hpc)
  | @writes fd hpc =>
    refine Named.of_set (w := { w with content := Function.update w.content fd _ }) hothers (fun fd' h => ?_)
    obtain rfl : fd = fd' := by simpa [FilesPc.HasOpen] using h
    exact hn i fd (.inr (.inl (.inl hpc)))
  | @stops fd hpc =>
    refine .of_set hothers (fun fd' h => ?_)
    obtain rfl : fd = fd' := by simpa [FilesPc.HasOpen] using h
    exact hn i fd (.inr (.inl (.inr (.inl hpc))))
  | @strays fd hpc =>
    refine .of_set hothers (fun fd' h => ?_)
    obtain rfl : fd = fd' := by simpa [FilesPc.HasOpen] using h
    exact hn i fd (.inr (.inr (.inl hpc)))
  | @forks j fd hpc hj inst hinst =>
    refine .of_set (fun k fd' _ => hn k fd') (fun fd' h => ?_)
    obtain rfl : fd = fd' := by simpa [hinst, FilesPc.HasOpen] using h
    exact hn i fd (.inr (.inl (.inr (.inl hpc))))
  | unlinks ho =>
    refine Named.of_set (w := { w with pidName := none }) (fun j fd hj h => ?_) (fun fd h => absurd h (ho fd))
    have hname := hn j fd h
    exact absurd ⟨by simp [Files.set, hname], j, fd, hj, hname, h⟩ hno
  | vanishes =>
    exact Named.of_set (w := { w with lock := fun fd => if w.lock fd = some i then none else w.lock fd })
      hothers (by simp [FilesPc.HasOpen])

variable {w₀ : Files ι} {h : List (FilesEntry ι)}

theorem Sound.run (h₀ : Initial w₀) (run : Run (Files.step pid) w₀ h w) : Sound pid w :=
  run.holds (Sound pid) h₀.sound (fun ⟨_, _⟩ _ _ _ hs hstep => hs.step hstep)

private theorem stray_step {out : List Empty} (h : step pid (i, a) w = .ok (w', out)) {fd : Inode}
    (hpc : (w'.instances j).pc = .stray fd) : (w.instances j).pc = .stray fd ∨ a = .forks j := by
  have hset {w : Files ι} {k : ι} {inst : Instance} (hinst : ¬ inst.pc.HasOpen fd ∨ inst.pc ≠ .stray fd)
      (hpc : ((w.set k inst).instances j).pc = .stray fd) : (w.instances j).pc = .stray fd := by
    by_cases hj : j = k
    · subst hj
      rw [set_self] at hpc
      rcases hinst with hno | hno
      · exact absurd (.inr (.inr (.inl hpc))) hno
      · exact absurd hpc hno
    · rwa [set_other w inst hj] at hpc
  cases step_cases h with
  | still => exact .inl hpc
  | quiet ctrl hn ho => exact .inl (hset (.inl (ho fd)) hpc)
  | opens => exact .inl (hset (.inr (by simp)) hpc)
  | creates => exact .inl (hset (.inr (by simp)) hpc)
  | locks _ _ hinst => exact .inl (hset (.inr (by simp [hinst])) hpc)
  | writes => exact .inl (hset (.inr (by simp)) hpc)
  | stops => exact .inl (hset (.inr (by simp)) hpc)
  | strays => exact .inl (hset (.inr (by simp)) hpc)
  | unlinks ho => exact .inl (hset (.inl (ho fd)) hpc)
  | vanishes => exact .inl (hset (.inr (by simp)) hpc)
  | @forks k fd' _ hk inst hinst ha =>
    by_cases hj : j = k
    · exact .inr (hj ▸ ha)
    · rw [set_other w inst hj] at hpc
      exact .inl hpc

/-- Who is astray has been forked. -/
private theorem stray_forked (h₀ : Initial w₀) (run : Run (Files.step pid) w₀ h w) {fd : Inode}
    (hpc : (w.instances j).pc = .stray fd) : ∃ e ∈ h, e.input.2 = .forks j := by
  induction run with
  | nil =>
    rw [h₀.instances j] at hpc
    cases hpc
  | @snoc h before after inp out prev hstep ih =>
    rcases stray_step hstep hpc with hbefore | hfork
    · obtain ⟨e, he, hforks⟩ := ih hbefore
      exact ⟨e, List.mem_append_left _ he, hforks⟩
    · exact ⟨_, List.mem_append_right _ List.mem_cons_self, hfork⟩

/-- In any interleaving of any number of instances, those that run as `main` has them enter
the loop have different files under lock, each with its own pid in front; who is astray in
the loop holds no lock, and was forked for a hook that was not started. If nobody takes
the name from a file that another has open, the one that runs is the only one, and its
file is the one with the name. -/
theorem instances_exclude (h₀ : Initial w₀) (run : Run (Files.step pid) w₀ h w) :
    (∀ i fd, (w.instances i).pc = .loop fd → w.lock fd = some i ∧ pidLine (pid i) <+: w.content fd) ∧
    (∀ i fd, (w.instances i).pc = .stray fd → (∀ fd', w.lock fd' ≠ some i) ∧ ∃ e ∈ h, e.input.2 = .forks i) ∧
    ((∀ e ∈ h, ¬ Steals e) → ∀ i fd, (w.instances i).pc = .loop fd →
      w.pidName = some fd ∧ ∀ j fd', (w.instances j).pc = .loop fd' → j = i) := by
  have hs := Sound.run h₀ run
  have hlock : ∀ i fd, (w.instances i).pc = .loop fd → w.lock fd = some i := fun i fd hpc =>
    (hs.claims i).holds fd (.inr (.inl hpc))
  refine ⟨fun i fd hpc => ⟨hlock i fd hpc, (hs.claims i).written fd (.inl hpc)⟩, ?_, ?_⟩
  · intro i fd hpc
    refine ⟨fun fd' h => ?_, stray_forked h₀ run hpc⟩
    have hlate := (hs.claims i).late fd' h
    simp [hpc, FilesPc.Late, FilesPc.Holds] at hlate
  intro hno i fd hpc
  have hn : Named w := by
    refine Run.invariant Named (fun e => ¬ Steals e) run hno ?_ (fun ⟨_, _⟩ _ _ _ hn hstep he => hn.step hstep he)
    intro i fd hopen
    rw [h₀.instances i] at hopen
    simp [Instance.fresh, FilesPc.HasOpen] at hopen
  have hname := hn i fd (.inr (.inl (.inr (.inl hpc))))
  refine ⟨hname, fun j fd' hpc' => ?_⟩
  have hname' := hn j fd' (.inr (.inl (.inr (.inl hpc'))))
  obtain rfl := Option.some.inj (hname.symm.trans hname')
  exact Option.some.inj ((hlock j fd hpc').symm.trans (hlock i fd hpc))

def unstarted : Files (Fin 3) where
  instances := fun _ => .fresh
  pidName := none
  ctrlName := none
  lock := fun _ => none
  content := fun _ => []
  next := 0

private theorem unstarted_initial : Initial unstarted where
  instances _ := rfl
  lock _ := rfl
  pidName := by rintro _ ⟨⟩
  ctrlName := by rintro _ ⟨⟩

def filesRun (start : Files (Fin 3)) (moves : List (Fin 3 × Answer (Fin 3))) :
    List (FilesEntry (Fin 3)) × Files (Fin 3) :=
  match execute (Files.step (fun i => 700 + i.val)) moves start with
  | .ok r => r
  | .error e => e.elim

private theorem filesRun_run (start : Files (Fin 3)) (moves : List (Fin 3 × Answer (Fin 3))) :
    Run (Files.step (fun i => 700 + i.val)) start (filesRun start moves).1 (filesRun start moves).2 := by
  rw [filesRun]
  split
  · next r hr => exact .of_execute hr
  · next e _ => exact e.elim

def starts (i : Fin 3) : List (Fin 3 × Answer (Fin 3)) := List.replicate 8 (i, .ok)

theorem instances_exclude_one :
    ((filesRun unstarted (starts 0)).2.instances 0).pc = .loop 1 ∧ (filesRun unstarted (starts 0)).2.pidName = some 1 ∧
      pidLine 700 <+: (filesRun unstarted (starts 0)).2.content 1 := by
  have hpc : ((filesRun unstarted (starts 0)).2.instances 0).pc = .loop 1 := by decide +kernel
  obtain ⟨hown, -, hone⟩ := instances_exclude unstarted_initial (filesRun_run unstarted (starts 0))
  have hkept : ∀ e ∈ (filesRun unstarted (starts 0)).1, e.pre.pidName = none ∨ e.post.pidName = e.pre.pidName := by
    decide +kernel
  have hno : ∀ e ∈ (filesRun unstarted (starts 0)).1, ¬ Steals e := by
    rintro e he ⟨hne, j, fd, -, hname, -⟩
    rcases hkept e he with h | h
    · rw [h] at hname
      cases hname
    · exact hne h
  exact ⟨hpc, (hone hno 0 1 hpc).1, (hown 0 1 hpc).2⟩

def latecomer : List (Fin 3 × Answer (Fin 3)) :=
  List.replicate 6 (1, .ok) ++ List.replicate 15 (0, .ok) ++ List.replicate 2 (1, .ok) ++ starts 2

def straying : List (Fin 3 × Answer (Fin 3)) :=
  starts 0 ++ [(0, .forks 1)] ++ List.replicate 6 (1, .ok) ++ starts 2

/-- An instance has opened the pid file when the one that runs is stopped and removes it:
it then locks a file without a name, and the next start finds none. Nor does it find one
when the child of a hook that is not started is stopped. -/
theorem two_instances_run :
    (∃ h w fd fd', Run (Files.step (fun i : Fin 3 => 700 + i.val)) unstarted h w ∧
      (w.instances 1).pc = .loop fd ∧ (w.instances 2).pc = .loop fd') ∧
    ∃ h w fd fd', Run (Files.step (fun i : Fin 3 => 700 + i.val)) unstarted h w ∧
      (w.instances 0).pc = .loop fd ∧ (w.instances 1).pc = .gone ∧ (w.instances 2).pc = .loop fd' := by
  have hlate : ((filesRun unstarted latecomer).2.instances 1).pc = .loop 1 ∧
      ((filesRun unstarted latecomer).2.instances 2).pc = .loop 4 := by decide +kernel
  have hstray : ((filesRun unstarted straying).2.instances 0).pc = .loop 1 ∧
      ((filesRun unstarted straying).2.instances 1).pc = .gone ∧
      ((filesRun unstarted straying).2.instances 2).pc = .loop 3 := by decide +kernel
  exact ⟨⟨_, _, 1, 4, filesRun_run _ _, hlate.1, hlate.2⟩,
    _, _, 1, 3, filesRun_run _ _, hstray.1, hstray.2.1, hstray.2.2⟩

/-- An instance that has not got past `pidfile_check`, with the pid file open or not. -/
structure Bystands (fd : Inode) (inst : Instance) : Prop where
  pc : inst.pc = .checkOpen ∨ inst.pc = .checkGetlk fd ∨ inst.pc = .exiting ∨ inst.pc = .gone
  handlers : inst.handlers = []

/-- One instance runs under the name, and the others have not got past the check. -/
structure Alone (t : Files ι) (i : ι) (fd : Inode) (w : Files ι) : Prop where
  pidName : w.pidName = some fd
  ctrlName : w.ctrlName = t.ctrlName
  lock : w.lock fd = some i
  content : w.content = t.content
  next : w.next = t.next
  own : w.instances i = t.instances i
  others : ∀ j, j ≠ i → Bystands fd (w.instances j)

theorem Alone.goto {t : Files ι} (ha : Alone t i fd w) (hj : j ≠ i) {pc : FilesPc}
    (hpc : pc = .checkOpen ∨ pc = .checkGetlk fd ∨ pc = .exiting ∨ pc = .gone) : Alone t i fd (w.goto j pc) where
  pidName := ha.pidName
  ctrlName := ha.ctrlName
  lock := ha.lock
  content := ha.content
  next := ha.next
  own := (set_other w _ (Ne.symm hj)).trans ha.own
  others k hk := by
    by_cases hkj : k = j
    · subst hkj
      rw [Files.goto, set_self]
      exact ⟨hpc, (ha.others k hk).handlers⟩
    · rw [Files.goto, set_other w _ hkj]
      exact ha.others k hk

theorem Alone.vanish {t : Files ι} (ha : Alone t i fd w) (hj : j ≠ i) : Alone t i fd (w.vanish j) := by
  have hgone : Alone t i fd (w.goto j .gone) := ha.goto hj (by simp)
  refine ⟨hgone.pidName, hgone.ctrlName, ?_, hgone.content, hgone.next, hgone.own, hgone.others⟩
  have hne : ¬ (some i = some j) := fun h => hj (Option.some.inj h).symm
  simp only [Files.vanish, ha.lock, if_neg hne]

theorem Alone.exit {t : Files ι} (ha : Alone t i fd w) (hj : j ≠ i) (ok : Bool) : Alone t i fd (w.exit j ok) := by
  rw [Files.exit, (ha.others j hj).handlers]
  exact ha.vanish hj

/-- A bystander finds the lock taken. -/
theorem Alone.step {t : Files ι} {out : List Empty} (ha : Alone t i fd w)
    (hstep : Files.step pid (j, a) w = .ok (w', out)) (hloop : (w.instances i).pc = .loop fd)
    (hruns : (w'.instances i).pc = .loop fd) (hstarts : j = i → ∀ k, a ≠ .forks k) : Alone t i fd w' := by
  by_cases hj : j = i
  · subst hj
    cases a with
    | forks k => exact absurd rfl (hstarts rfl k)
    | ok =>
      obtain ⟨rfl, -⟩ := Prod.mk.inj (Except.ok.inj hstep)
      simp [call, hloop, Files.goto] at hruns
    | fail =>
      obtain ⟨rfl, -⟩ := Prod.mk.inj (Except.ok.inj hstep)
      simpa only [failed, hloop] using ha
    | killed =>
      obtain ⟨rfl, -⟩ := Prod.mk.inj (Except.ok.inj hstep)
      simp [Files.vanish, Files.goto, Files.set] at hruns
  · have hpc := (ha.others j hj).pc
    cases a with
    | forks k =>
      obtain ⟨rfl, -⟩ := Prod.mk.inj (Except.ok.inj hstep)
      rcases hpc with hpc | hpc | hpc | hpc <;> simpa only [fork, hpc] using ha
    | killed =>
      obtain ⟨rfl, -⟩ := Prod.mk.inj (Except.ok.inj hstep)
      exact ha.vanish hj
    | fail =>
      obtain ⟨rfl, -⟩ := Prod.mk.inj (Except.ok.inj hstep)
      rcases hpc with hpc | hpc | hpc | hpc <;> simp only [failed, hpc]
      · exact ha.goto hj (by simp)
      · exact ha.goto hj (by simp)
      · exact ha.exit hj false
      · exact ha
    | ok =>
      obtain ⟨rfl, -⟩ := Prod.mk.inj (Except.ok.inj hstep)
      rcases hpc with hpc | hpc | hpc | hpc <;> simp only [call, pidfileCheck, hpc]
      · rw [ha.pidName]
        exact ha.goto hj (by simp)
      · have htaken : ¬ (w.lock fd = none ∨ w.lock fd = some j) := by
          rw [ha.lock]
          simpa using Ne.symm hj
        rw [if_neg htaken]
        exact ha.goto hj (by simp)
      · exact ha.exit hj true
      · exact ha

def laterStarts : List (FilesEntry (Fin 3)) × Files (Fin 3) :=
  filesRun (filesRun unstarted (starts 0)).2 [(1, .ok), (2, .ok), (1, .ok), (0, .fail), (2, .killed), (1, .ok)]

end Files

end Uvrrpd
