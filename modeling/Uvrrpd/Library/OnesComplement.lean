import Mathlib.Data.Nat.ModEq
import Mathlib.Algebra.BigOperators.Group.List.Basic

/-! One's complement arithmetic in an arbitrary base. Adding the carry out of
the top digit back in at the bottom computes modulo `b - 1`, with the one
residue zero reserved for the number zero. -/
namespace Library.OnesComplement

/-- The end-around representative of `n` among `0, …, b - 1`. -/
def residue (b n : Nat) : Nat := if n = 0 then 0 else (n - 1) % (b - 1) + 1

@[simp] theorem residue_zero (b : Nat) : residue b 0 = 0 := rfl

theorem residue_lt {b : Nat} (hb : 2 ≤ b) (n : Nat) : residue b n < b := by
  rw [residue]
  split
  · omega
  · have := Nat.mod_lt (n - 1) (show 0 < b - 1 by omega)
    omega

theorem residue_eq_zero {b n : Nat} : residue b n = 0 ↔ n = 0 := by
  rw [residue]
  split <;> simp_all

theorem residue_modEq (b n : Nat) : residue b n ≡ n [MOD b - 1] := by
  rw [residue]
  split
  · next h => rw [h]
  · next h =>
    have hs := (Nat.mod_modEq (n - 1) (b - 1)).add_right 1
    rwa [Nat.sub_add_cancel (Nat.pos_of_ne_zero h)] at hs

/-- The representative is determined by its congruence class and by being zero. -/
theorem residue_unique {b n r : Nat} (hr : r < b) (hz : r = 0 ↔ n = 0)
    (hc : r ≡ n [MOD b - 1]) : r = residue b n := by
  by_cases hn : n = 0
  · rw [hz.mpr hn, residue_eq_zero.mpr hn]
  have hr0 : r ≠ 0 := fun h => hn (hz.mp h)
  have hc' : r - 1 ≡ n - 1 [MOD b - 1] := by
    apply Nat.ModEq.add_right_cancel' 1
    rwa [Nat.sub_add_cancel (Nat.pos_of_ne_zero hr0), Nat.sub_add_cancel (Nat.pos_of_ne_zero hn)]
  rw [residue, if_neg hn, ← hc', Nat.mod_eq_of_lt (by omega)]
  omega

/-- Apart from zero, two numbers have one representative when they are congruent. -/
theorem residue_eq_iff {b n m : Nat} (hb : 2 ≤ b) (hn : n ≠ 0) (hm : m ≠ 0) :
    residue b n = residue b m ↔ n ≡ m [MOD b - 1] := by
  constructor
  · intro h
    have hnm := (residue_modEq b n).symm
    rw [h] at hnm
    exact hnm.trans (residue_modEq b m)
  · intro h
    apply residue_unique (residue_lt hb n)
    · rw [residue_eq_zero]
      exact iff_of_false hn hm
    · exact (residue_modEq b n).trans h

private theorem base_modEq {b : Nat} (hb : 2 ≤ b) (q : Nat) : b * q ≡ q [MOD b - 1] := by
  have h : (b - 1 + 1) * q ≡ q [MOD b - 1] := by
    rw [Nat.add_mul, Nat.one_mul]
    simp [Nat.ModEq]
  rwa [Nat.sub_add_cancel (by omega)] at h

theorem fold_modEq {b : Nat} (hb : 2 ≤ b) (n : Nat) : n / b + n % b ≡ n [MOD b - 1] := by
  have h := (base_modEq hb (n / b)).add_right (n % b)
  rw [Nat.div_add_mod] at h
  exact h.symm

theorem fold_eq_zero {b n : Nat} : n / b + n % b = 0 ↔ n = 0 := by
  constructor
  · intro h
    obtain ⟨hq, hm⟩ := Nat.add_eq_zero_iff.mp h
    rw [← Nat.div_add_mod n b, hq, hm, Nat.mul_zero]
  · rintro rfl
    simp

/-- Folding twice reaches the representative for every number of two digits;
the second fold may drop its carry because it is then at most one. -/
theorem fold_twice {b n : Nat} (hb : 2 ≤ b) (hn : n < b * b) :
    (n / b + n % b + (n / b + n % b) / b) % b = residue b n := by
  have hq : n / b < b := Nat.div_lt_of_lt_mul hn
  have hm : n % b < b := Nat.mod_lt n (by omega)
  obtain ⟨s, hs⟩ : ∃ s, s = n / b + n % b := ⟨_, rfl⟩
  rw [← hs]
  have hc : s ≡ n [MOD b - 1] := hs ▸ fold_modEq hb n
  have hz : s = 0 ↔ n = 0 := hs ▸ fold_eq_zero
  rcases Nat.lt_or_ge s b with hlt | hge
  · rw [Nat.div_eq_of_lt hlt, Nat.add_zero, Nat.mod_eq_of_lt hlt]
    exact residue_unique hlt hz hc
  · have hdiv : s / b = 1 := Nat.div_eq_of_lt_le (by omega) (by omega)
    have hmod : (s + 1) % b = s + 1 - b := by
      rw [Nat.mod_eq_sub_mod (by omega), Nat.mod_eq_of_lt (by omega)]
    rw [hdiv, hmod]
    apply residue_unique (by omega) (by omega)
    have he : s + 1 - b ≡ s [MOD b - 1] := by
      have hs' : s = (s + 1 - b) + (b - 1) := by omega
      conv_rhs => rw [hs']
      simp [Nat.ModEq]
    exact he.trans hc

/-- Two folds leave one digit of a number of two. -/
theorem fold_fold_lt {b n : Nat} (hb : 2 ≤ b) (hn : n < b * b) :
    (n / b + n % b) / b + (n / b + n % b) % b < b := by
  have hq : n / b < b := Nat.div_lt_of_lt_mul hn
  have hm : n % b < b := Nat.mod_lt n (by omega)
  obtain ⟨s, hs⟩ : ∃ s, s = n / b + n % b := ⟨_, rfl⟩
  rw [← hs]
  rcases Nat.lt_or_ge s b with hlt | hge
  · rw [Nat.div_eq_of_lt hlt, Nat.zero_add, Nat.mod_eq_of_lt hlt]
    exact hlt
  · have hdiv : s / b = 1 := Nat.div_eq_of_lt_le (by omega) (by omega)
    have hmod : s % b = s - b := by rw [Nat.mod_eq_sub_mod hge, Nat.mod_eq_of_lt (by omega)]
    omega

def add (b x y : Nat) : Nat := if x + y < b then x + y else x + y - (b - 1)

/-- The one's complement sum of a list of digits. -/
def sum (b : Nat) (xs : List Nat) : Nat := xs.foldl (add b) 0

private theorem add_eq {b x y : Nat} (hx : x < b) (hy : y < b) : add b x y = residue b (x + y) := by
  rw [add]
  split
  · next hlt => exact residue_unique hlt Iff.rfl .rfl
  · next hge =>
    apply residue_unique (by omega) (by omega)
    have hsplit : x + y = x + y - (b - 1) + (b - 1) := by omega
    conv_rhs => rw [hsplit]
    simp [Nat.ModEq]

/-- Adding the digits one by one comes to the representative of their sum. -/
theorem sum_eq {b : Nat} (hb : 2 ≤ b) {xs : List Nat} (h : ∀ x ∈ xs, x < b) : sum b xs = residue b xs.sum := by
  suffices hacc : ∀ n, xs.foldl (add b) (residue b n) = residue b (n + xs.sum) by
    rw [sum, ← residue_zero b, hacc 0, Nat.zero_add]
  induction xs with
  | nil => exact fun n => rfl
  | cons x rest ih =>
    intro n
    have hone : add b (residue b n) x = residue b (n + x) := by
      rw [add_eq (residue_lt hb n) (h x List.mem_cons_self)]
      apply residue_unique (residue_lt hb _)
      · rw [residue_eq_zero, Nat.add_eq_zero_iff, Nat.add_eq_zero_iff, residue_eq_zero]
      · exact (residue_modEq b _).trans ((residue_modEq b n).add_right x)
    rw [List.foldl_cons, hone, ih (fun y hy => h y (List.mem_cons_of_mem _ hy)), List.sum_cons, Nat.add_assoc]

/-- With the complement of a sum added in, all digits are ones. -/
theorem residue_complement {b : Nat} (hb : 2 ≤ b) (n : Nat) : residue b (n + (b - 1 - residue b n)) = b - 1 := by
  have hlt := residue_lt hb n
  symm
  apply residue_unique (by omega)
  · have hz := residue_eq_zero (b := b) (n := n)
    omega
  · have hc := (residue_modEq b n).add_right (b - 1 - residue b n)
    rwa [Nat.add_sub_cancel' (by omega)] at hc

/-- Another digit in one place has another sum, unless it is the other one of 0 and all ones. -/
theorem residue_change {b n x y : Nat} (hx : x < b) (hy : y < b) (hne : x ≠ y)
    (hones : ¬ (x = 0 ∧ y = b - 1) ∧ ¬ (x = b - 1 ∧ y = 0)) : residue b (n + x) ≠ residue b (n + y) := by
  intro h
  have hc : n + x ≡ n + y [MOD b - 1] := by
    have hxy := (residue_modEq b (n + x)).symm
    rw [h] at hxy
    exact hxy.trans (residue_modEq b (n + y))
  have hd : x % (b - 1) = y % (b - 1) := hc.add_left_cancel' n
  have hmod (z : Nat) (hz : z < b) : z % (b - 1) = if z = b - 1 then 0 else z := by
    split
    · next heq => rw [heq, Nat.mod_self]
    · exact Nat.mod_eq_of_lt (by omega)
  rw [hmod x hx, hmod y hy] at hd
  split at hd <;> split at hd <;> omega

def swap (c n : Nat) : Nat := n % c * c + n / c

theorem swap_lt {c n : Nat} (hn : n < c * c) : swap c n < c * c := by
  have hq : n / c < c := Nat.div_lt_of_lt_mul hn
  have hc : 0 < c := Nat.pos_of_lt_mul_left (Nat.zero_lt_of_lt hn)
  have hm : n % c ≤ c - 1 := by have := Nat.mod_lt n hc; omega
  have hmul : n % c * c ≤ (c - 1) * c := Nat.mul_le_mul_right c hm
  have hsub : (c - 1) * c + c = c * c := by
    rw [Nat.sub_mul, Nat.one_mul, Nat.sub_add_cancel (Nat.le_mul_of_pos_left c hc)]
  rw [swap]
  omega

private theorem swap_eq_zero {c n : Nat} (hc : 0 < c) : swap c n = 0 ↔ n = 0 := by
  rw [swap]
  constructor
  · intro h
    obtain ⟨hm, hq⟩ := Nat.add_eq_zero_iff.mp h
    have hm' : n % c = 0 := (Nat.mul_eq_zero.mp hm).resolve_right (by omega)
    rw [← Nat.div_add_mod n c, hq, hm', Nat.mul_zero]
  · rintro rfl
    simp

/-- Exchanging the digits multiplies by the digit base. -/
private theorem swap_modEq {c : Nat} (hc : 2 ≤ c) (n : Nat) : swap c n ≡ c * n [MOD c * c - 1] := by
  have hcc : 2 ≤ c * c := by have := Nat.mul_le_mul_left c hc; omega
  have he : c * n = c * c * (n / c) + n % c * c := by
    conv_lhs => rw [← Nat.div_add_mod n c, Nat.mul_add, ← Nat.mul_assoc, Nat.mul_comm c (n % c)]
  rw [he, swap, Nat.add_comm]
  exact ((base_modEq hcc (n / c)).symm).add_right _

/-- A sum taken over digit-exchanged words has the digit-exchanged representative. -/
theorem residue_swap {c n m : Nat} (hc : 2 ≤ c) (hz : n = 0 ↔ m = 0)
    (hm : m ≡ c * n [MOD c * c - 1]) : residue (c * c) m = swap c (residue (c * c) n) := by
  have hcc : 2 ≤ c * c := by have := Nat.mul_le_mul_left c hc; omega
  symm
  apply residue_unique (swap_lt (residue_lt hcc n))
  · rw [swap_eq_zero (by omega), residue_eq_zero, hz]
  · exact (swap_modEq hc _).trans (((residue_modEq _ n).mul_left c).trans hm.symm)

end Library.OnesComplement
