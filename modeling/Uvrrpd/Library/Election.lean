import Mathlib.Order.Lattice
import Mathlib.Data.List.Basic

/-! Election by announcements. Every participant has a key; a leader announces
itself, and a leader that hears a greater key stands by. Announcements may come
late, again, or not at all, so nothing is said about which ones are heard: only
what hearing one does. -/
namespace Library.Election
variable {ι K : Type} [LinearOrder K]

inductive Role where
  | idle
  | standby
  | leader
  deriving DecidableEq, Repr

/-- What may befall a participant: it starts, its patience ends, it announces
itself, it hears an announcement or a resignation, it restarts, or nothing. -/
inductive Cause (ι : Type) where
  | start
  | expire
  | tick
  | hear (sender : ι)
  | resignation (sender : ι)
  | restart
  | quiet
  deriving DecidableEq, Repr

inductive Moves (key : ι → K) (i : ι) : Role → Cause ι → Role → Prop
  | start {r : Role} (hr : r ≠ .idle) : Moves key i .idle .start r
  | expire : Moves key i .standby .expire .leader
  | tick : Moves key i .leader .tick .leader
  | follow (j : ι) : Moves key i .standby (.hear j) .standby
  | yield {j : ι} (h : key i < key j) : Moves key i .leader (.hear j) .standby
  | keep {j : ι} (h : key j ≤ key i) : Moves key i .leader (.hear j) .leader
  | resignation (j : ι) {r : Role} (hr : r ≠ .idle) : Moves key i r (.resignation j) r
  | restart {r : Role} (hr : r ≠ .idle) : Moves key i r .restart .idle
  | quiet (r : Role) : Moves key i r .quiet r

variable {key : ι → K} {i j g : ι} {r r' : Role} {c : Cause ι}

/-- A leader gives way to a greater key, or restarts. -/
theorem Moves.steps_down (h : Moves key i .leader c r) (hr : r ≠ .leader) :
    r = .idle ∧ c = .restart ∨ r = .standby ∧ ∃ j, c = .hear j ∧ key i < key j := by
  cases h with
  | yield hk => exact .inr ⟨rfl, _, rfl, hk⟩
  | restart => exact .inl ⟨rfl, rfl⟩
  | tick => exact absurd rfl hr
  | keep => exact absurd rfl hr
  | resignation => exact absurd rfl hr
  | quiet => exact absurd rfl hr

/-- Nobody leads after a greater key. -/
theorem Moves.hear_greater (h : Moves key i r (.hear j) r') (hk : key i < key j) : r' = .standby := by
  cases h with
  | follow => rfl
  | yield => rfl
  | keep hle => exact absurd hk (not_lt_of_ge hle)

private theorem Moves.standby_stays (h : Moves key i .standby c r) (he : c ≠ .expire) (hr : c ≠ .restart) :
    r = .standby := by
  cases h with
  | expire => exact absurd rfl he
  | restart => exact absurd rfl hr
  | follow => rfl
  | resignation => rfl
  | quiet => rfl

structure Step (key : ι → K) (i : ι) (c : Cause ι) (ρ ρ' : ι → Role) : Prop where
  moves : Moves key i (ρ i) c (ρ' i)
  others : ∀ j, j ≠ i → ρ' j = ρ j

/-- The steps of a group, in any order. -/
inductive Path (key : ι → K) (ρ : ι → Role) : List (ι × Cause ι) → (ι → Role) → Prop
  | nil : Path key ρ [] ρ
  | snoc {trace : List (ι × Cause ι)} {ρ₁ ρ₂ : ι → Role} {i : ι} {c : Cause ι} :
      Path key ρ trace ρ₁ → Step key i c ρ₁ ρ₂ → Path key ρ (trace ++ [(i, c)]) ρ₂

variable {ρ ρ' : ι → Role} {trace : List (ι × Cause ι)}

/-- The greatest key leads until it restarts. -/
private theorem Path.greatest_leads (path : Path key ρ trace ρ') (hg : ∀ j, key j ≤ key g)
    (hlead : ρ g = .leader) (hkeep : (g, .restart) ∉ trace) : ρ' g = .leader := by
  induction path with
  | nil => exact hlead
  | @snoc trace ρ₁ ρ₂ i c _ step ih =>
    have hprev := ih (fun hm => hkeep (List.mem_append_left _ hm))
    by_cases hi : g = i
    · subst hi
      by_contra hnot
      have hm := step.moves
      rw [hprev] at hm
      rcases hm.steps_down hnot with ⟨-, rfl⟩ | ⟨-, j, -, hk⟩
      · exact hkeep (by simp)
      · exact absurd hk (not_lt_of_ge (hg j))
    · rw [step.others g hi, hprev]

/-- Participant `i` has heard `g`, and since then has neither lost its patience nor
restarted. -/
def Heeds (i g : ι) (trace : List (ι × Cause ι)) : Prop :=
  ∃ earlier later, trace = earlier ++ (i, .hear g) :: later ∧
    (i, .expire) ∉ later ∧ (i, .restart) ∉ later

/-- The last step is the hearing, or comes after it. -/
private theorem Heeds.of_snoc {x : ι × Cause ι} (h : Heeds i g (trace ++ [x])) :
    x = (i, .hear g) ∨ Heeds i g trace ∧ x ≠ (i, .expire) ∧ x ≠ (i, .restart) := by
  obtain ⟨earlier, later, heq, he, hr⟩ := h
  rcases List.eq_nil_or_concat later with rfl | ⟨later, y, rfl⟩
  · left
    exact List.singleton_inj.mp (List.append_inj' heq rfl).2
  · right
    rw [List.concat_eq_append] at heq he hr
    rw [← List.cons_append, ← List.append_assoc] at heq
    obtain ⟨rfl, hxy⟩ := List.append_inj' heq rfl
    obtain rfl := List.singleton_inj.mp hxy
    refine ⟨⟨earlier, later, rfl, ?_, ?_⟩, ?_, ?_⟩
    · exact fun hm => he (List.mem_append_left _ hm)
    · exact fun hm => hr (List.mem_append_left _ hm)
    · rintro rfl
      exact he (by simp)
    · rintro rfl
      exact hr (by simp)

/-- Who heeds a greater key stands by. -/
private theorem Path.heeds_stands_by (path : Path key ρ trace ρ') (hk : key i < key g)
    (hheeds : Heeds i g trace) : ρ' i = .standby := by
  induction path with
  | nil =>
    obtain ⟨earlier, later, heq, -, -⟩ := hheeds
    simp at heq
  | @snoc trace ρ₁ ρ₂ j c _ step ih =>
    rcases hheeds.of_snoc with heq | ⟨hprev, he, hr⟩
    · obtain ⟨rfl, rfl⟩ := Prod.mk.inj heq
      exact step.moves.hear_greater hk
    · have hstand := ih hprev
      by_cases hi : i = j
      · subst hi
        have hmoves := step.moves
        rw [hstand] at hmoves
        exact hmoves.standby_stays (fun h => he (by rw [h])) (fun h => hr (by rw [h]))
      · rw [step.others i hi, hstand]

/-- Agreement: as long as all others heed the greatest key and it does not restart,
it leads alone. -/
theorem Path.sole_leader (path : Path key ρ trace ρ') (hg : ∀ j, j ≠ g → key j < key g)
    (hlead : ρ g = .leader) (hkeep : (g, .restart) ∉ trace)
    (hheeds : ∀ i, i ≠ g → Heeds i g trace) (i : ι) : ρ' i = .leader ↔ i = g := by
  constructor
  · intro hl
    by_contra hi
    have hs := path.heeds_stands_by (hg i hi) (hheeds i hi)
    rw [hs] at hl
    cases hl
  · rintro rfl
    refine path.greatest_leads ?_ hlead hkeep
    intro j
    by_cases hj : j = i
    · rw [hj]
    · exact le_of_lt (hg j hj)

end Library.Election
