import Mathlib.Tactic.Common

/-! Comparison by the sign of a difference that is kept in a word. Numbers lie on a
circle of `2 * h`, and the difference is the way from one to the other, taken as
negative from `h` on. It tells the order of near numbers only: seen from far apart
the smaller one is ahead, opposite ones are both behind, and three may go round. -/
namespace Library.WrappedOrder

def difference (h a b : Nat) : Int := ((a : Int) - b).bmod (2 * h)

/-- How far a number is ahead of another on the circle. -/
def ahead (h a b : Nat) : Nat := if b ≤ a then a - b else a + 2 * h - b

def Tells (cmp : Int) (a b : Nat) : Prop := (0 < cmp ↔ b < a) ∧ (cmp < 0 ↔ a < b)

/-- Less than half of the circle lies between the numbers. -/
def Near (h a b : Nat) : Prop := a < b + h ∧ b < a + h

def Opposite (h a b : Nat) : Prop := a = b + h ∨ b = a + h

/-- Each of three numbers is less than half a circle ahead of the next, but the first
is not less than that ahead of the last. -/
def GoesRound (h a b c : Nat) : Prop :=
  (0 < ahead h a b ∧ ahead h a b < h) ∧ (0 < ahead h b c ∧ ahead h b c < h) ∧
    h ≤ ahead h a b + ahead h b c

instance (cmp : Int) (a b : Nat) : Decidable (Tells cmp a b) := inferInstanceAs (Decidable (_ ∧ _))

instance (h a b : Nat) : Decidable (Near h a b) := inferInstanceAs (Decidable (_ ∧ _))

instance (h a b : Nat) : Decidable (Opposite h a b) := inferInstanceAs (Decidable (_ ∨ _))

variable {h a b c : Nat}

/-- The difference is exact, or one turn off. -/
private theorem difference_cases (ha : a < 2 * h) (hb : b < 2 * h) :
    difference h a b = a - b ∧ a < b + h ∧ b ≤ a + h ∨
      difference h a b = a - b - 2 * h ∧ b + h ≤ a ∨ difference h a b = a - b + 2 * h ∧ a + h < b := by
  rcases Nat.lt_or_ge a (b + h) with hlt | hge
  · rcases Nat.lt_or_ge (a + h) b with hfar | hnear
    · refine .inr (.inr ⟨?_, hfar⟩)
      have hturn : ((a : Int) - b).bmod (2 * h) = ((a : Int) - b + (2 * h : Nat)).bmod (2 * h) := by
        rw [Int.add_bmod_right]
      rw [difference, hturn, Int.bmod_eq_of_le (by omega) (by omega)]
      omega
    · refine .inl ⟨?_, hlt, hnear⟩
      rw [difference, Int.bmod_eq_of_le (by omega) (by omega)]
  · refine .inr (.inl ⟨?_, hge⟩)
    have hturn : ((a : Int) - b).bmod (2 * h) = ((a : Int) - b - (2 * h : Nat)).bmod (2 * h) := by
      rw [Int.sub_bmod_right]
    rw [difference, hturn, Int.bmod_eq_of_le (by omega) (by omega)]
    omega

private theorem difference_pos_iff (ha : a < 2 * h) (hb : b < 2 * h) :
    0 < difference h a b ↔ 0 < ahead h a b ∧ ahead h a b < h := by
  have hc := difference_cases ha hb
  rw [ahead]
  split <;> omega

/-- One sign is right up to half a circle, both are right below it. -/
theorem tells_difference_iff (ha : a < 2 * h) (hb : b < 2 * h) :
    Tells (difference h a b) a b ∧ Tells (difference h b a) b a ↔ Near h a b := by
  have hab := difference_cases ha hb
  have hba := difference_cases hb ha
  rw [Tells, Tells, Near]
  omega

theorem difference_antisymm_iff (ha : a < 2 * h) (hb : b < 2 * h) :
    (0 < difference h a b ↔ difference h b a < 0) ↔ ¬ Opposite h a b := by
  have hab := difference_cases ha hb
  have hba := difference_cases hb ha
  rw [Opposite]
  omega

/-- Behind both, or ahead of exactly one. -/
theorem difference_decides_iff (ha : a < 2 * h) (hb : b < 2 * h) (hne : a ≠ b) :
    (0 < difference h a b ↔ ¬ 0 < difference h b a) ↔ ¬ Opposite h a b := by
  have hab := difference_cases ha hb
  have hba := difference_cases hb ha
  rw [Opposite]
  omega

private theorem ahead_add (hb : b < 2 * h) (hc : c < 2 * h) :
    ahead h a c = ahead h a b + ahead h b c ∨ ahead h a c + 2 * h = ahead h a b + ahead h b c := by
  simp only [ahead]
  split <;> split <;> split <;> omega

theorem difference_trans_iff (ha : a < 2 * h) (hb : b < 2 * h) (hc : c < 2 * h) :
    (0 < difference h a b → 0 < difference h b c → 0 < difference h a c) ↔ ¬ GoesRound h a b c := by
  have hsum := @ahead_add h a b c hb hc
  rw [difference_pos_iff ha hb, difference_pos_iff hb hc, difference_pos_iff ha hc, GoesRound]
  omega

end Library.WrappedOrder
