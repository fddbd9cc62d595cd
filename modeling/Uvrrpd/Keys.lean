import Mathlib.Data.Prod.Lex
import Mathlib.Tactic.Ring
import Uvrrpd.Config

/-! The order in which routers prevail: priority first, then primary address. The
two families compare addresses differently, and both comparisons come down to the
numbers that the addresses are in network order, in IPv4 if these are less than
half the address space apart. -/
namespace Uvrrpd

private theorem foldl_bigValue (l : Octets) (n : Nat) :
    l.foldl (fun n b => 256 * n + b.toNat) n = n * 256 ^ l.length + bigValue l := by
  induction l generalizing n with
  | nil => simp [bigValue]
  | cons b rest ih =>
    have hb := ih b.toNat
    rw [bigValue, List.foldl_cons, ih, List.foldl_cons, Nat.mul_zero, Nat.zero_add, hb, List.length_cons,
      Nat.pow_succ]
    ring

private theorem bigValue_cons (b : UInt8) (l : Octets) :
    bigValue (b :: l) = b.toNat * 256 ^ l.length + bigValue l := by
  rw [bigValue, List.foldl_cons, Nat.mul_zero, Nat.zero_add, foldl_bigValue]

theorem bigValue_lt (l : Octets) : bigValue l < 256 ^ l.length := by
  induction l with
  | nil => decide
  | cons b rest ih =>
    have hb := b.toNat_lt
    rw [bigValue_cons, List.length_cons, Nat.pow_succ]
    calc b.toNat * 256 ^ rest.length + bigValue rest
        < b.toNat * 256 ^ rest.length + 256 ^ rest.length := by omega
      _ = (b.toNat + 1) * 256 ^ rest.length := by ring
      _ ≤ 256 * 256 ^ rest.length := Nat.mul_le_mul_right _ (by omega)
      _ = 256 ^ rest.length * 256 := Nat.mul_comm _ _

/-- A greater first octet decides. -/
private theorem bigValue_lt_of_head {a b : UInt8} {as bs : Octets} (h : a < b)
    (hl : as.length = bs.length) : bigValue (a :: as) < bigValue (b :: bs) := by
  have ha := bigValue_lt as
  have hab : a.toNat + 1 ≤ b.toNat := UInt8.lt_iff_toNat_lt.mp h
  have hmul := Nat.mul_le_mul_right (256 ^ bs.length) hab
  rw [bigValue_cons, bigValue_cons, hl]
  rw [hl] at ha
  rw [Nat.add_mul, Nat.one_mul] at hmul
  omega

theorem memcmp_pos {as bs : Octets} (h : as.length = bs.length) :
    memcmp as bs > 0 ↔ bigValue bs < bigValue as := by
  induction as generalizing bs with
  | nil =>
    obtain rfl := List.length_eq_zero_iff.mp h.symm
    simp [memcmp]
  | cons a as ih =>
    cases bs with
    | nil => simp at h
    | cons b bs =>
      have hl : as.length = bs.length := by simpa using h
      rw [memcmp]
      by_cases hab : a < b
      · have hlt := bigValue_lt_of_head hab hl
        rw [if_pos hab]
        exact iff_of_false (by decide) (by omega)
      rw [if_neg hab]
      by_cases hba : b < a
      · rw [if_pos hba]
        exact iff_of_true (by decide) (bigValue_lt_of_head hba hl.symm)
      · obtain rfl : a = b := UInt8.le_antisymm (UInt8.not_lt.mp hba) (UInt8.not_lt.mp hab)
        rw [if_neg hba, ih hl, bigValue_cons, bigValue_cons, hl]
        omega

private theorem memcmp_swap (as bs : Octets) : memcmp bs as = -memcmp as bs := by
  induction as generalizing bs with
  | nil => cases bs <;> rfl
  | cons a as ih =>
    cases bs with
    | nil => rfl
    | cons b bs =>
      rw [memcmp, memcmp, ih]
      by_cases hab : a < b
      · rw [if_pos hab, if_neg (UInt8.lt_asymm hab), if_pos hab]
        rfl
      · rw [if_neg hab, if_neg hab]
        split <;> rfl

theorem memcmp_neg {as bs : Octets} (h : as.length = bs.length) :
    memcmp as bs < 0 ↔ bigValue as < bigValue bs := by
  have hswap := memcmp_swap as bs
  rw [← memcmp_pos h.symm]
  omega

/-- Addresses that are the same number are the same. -/
theorem bigValue_inj {as bs : Octets} (h : as.length = bs.length) (heq : bigValue as = bigValue bs) :
    as = bs := by
  induction as generalizing bs with
  | nil => exact (List.length_eq_zero_iff.mp h.symm).symm
  | cons a as ih =>
    cases bs with
    | nil => simp at h
    | cons b bs =>
      have hl : as.length = bs.length := by simpa using h
      have hab : ¬ a < b := fun hlt => (bigValue_lt_of_head hlt hl).ne heq
      have hba : ¬ b < a := fun hlt => (bigValue_lt_of_head hlt hl.symm).ne' heq
      obtain rfl : a = b := UInt8.le_antisymm (UInt8.not_lt.mp hba) (UInt8.not_lt.mp hab)
      rw [bigValue_cons, bigValue_cons, hl] at heq
      rw [ih hl (by omega)]

/-- The tie-break, where the unsigned difference of IPv4 does not wrap around. -/
theorem ipxCmp_pos {family : Family} {s t : IpxAddr}
    (hs : family = .inet → bigValue (s.octets family) < bigValue (t.octets family) + 2 ^ 31)
    (ht : family = .inet → bigValue (t.octets family) < bigValue (s.octets family) + 2 ^ 31) :
    ipxCmp family s t > 0 ↔ bigValue (t.octets family) < bigValue (s.octets family) := by
  cases family with
  | inet =>
    have hs := hs rfl
    have ht := ht rfl
    simp only [ipxCmp, vrrpIp4Cmp, IpxAddr.octets] at hs ht ⊢
    rw [Int.bmod_eq_of_le (by omega) (by omega)]
    omega
  | inet6 => exact memcmp_pos (by rw [s.addr6.toList_length, t.addr6.toList_length])

def routerKey (priority : UInt8) (addr : Octets) : ℕ ×ₗ ℕ := toLex (priority.toNat, bigValue addr)

theorem routerKey_lt {p q : UInt8} {a b : Octets} :
    routerKey p a < routerKey q b ↔ p < q ∨ p = q ∧ bigValue a < bigValue b := by
  rw [routerKey, routerKey, Prod.Lex.toLex_lt_toLex, UInt8.lt_iff_toNat_lt, ← UInt8.toNat_inj]

end Uvrrpd
