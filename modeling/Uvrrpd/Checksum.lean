import Uvrrpd.Adv
import Mathlib.Tactic.Ring

/-! The Internet checksum as the code computes it, read at the level of octets.
Both byte orders store the same two octets, so a checksum written by one host is
the one that any other host recomputes. -/
namespace Uvrrpd
open Library.OnesComplement

theorem word_lt (host : ByteOrder) (a b : UInt8) : word host a b < 65536 := by
  have ha := a.toNat_lt
  have hb := b.toNat_lt
  cases host <;> simp only [word] <;> omega

abbrev net16 (v : Nat) : Octets := octets16 .big v

@[simp] theorem octets16_length (host : ByteOrder) (v : Nat) : (octets16 host v).length = 2 := by
  cases host <;> rfl

private theorem octets16_little {v : Nat} (hv : v < 65536) : octets16 .little v = net16 (swap 256 v) := by
  have hd : swap 256 v / 256 = v % 256 := by
    rw [swap, Nat.mul_comm, Nat.mul_add_div (by decide), Nat.div_eq_of_lt (by omega), Nat.add_zero]
  have h₀ : UInt8.ofNat v = UInt8.ofNat (swap 256 v / 256) := by
    apply UInt8.toNat_inj.mp
    rw [hd, UInt8.toNat_ofNat', UInt8.toNat_ofNat', Nat.mod_mod]
  have h₁ : UInt8.ofNat (v / 256) = UInt8.ofNat (swap 256 v) := by
    apply UInt8.toNat_inj.mp
    simp only [UInt8.toNat_ofNat', swap]
    omega
  simp only [octets16, h₀, h₁]

private theorem swap_swap {v : Nat} (hv : v < 65536) : swap 256 (swap 256 v) = v := by
  unfold swap
  omega

private theorem net16_mod (v : Nat) : net16 (v % 65536) = net16 v := by
  have h₀ : UInt8.ofNat (v % 65536 / 256) = UInt8.ofNat (v / 256) := by
    apply UInt8.toNat_inj.mp
    simp only [UInt8.toNat_ofNat']
    omega
  have h₁ : UInt8.ofNat (v % 65536) = UInt8.ofNat v := by
    apply UInt8.toNat_inj.mp
    simp only [UInt8.toNat_ofNat']
    omega
  simp only [octets16, h₀, h₁]

/-- A member assigned through `htons` is in network order on every host. -/
@[simp] theorem octets16_htons (host : ByteOrder) (v : Nat) :
    octets16 host (htons host v) = net16 v := by
  cases host with
  | little =>
    have hm : v % 65536 < 65536 := Nat.mod_lt _ (by decide)
    have hs : swap 256 (v % 65536) < 65536 := swap_lt (c := 256) hm
    rw [htons, octets16_little hs, swap_swap hm, net16_mod]
  | big => exact net16_mod v

theorem ntohs_word (host : ByteOrder) (a b : UInt8) : ntohs host (word host a b) = word .big a b := by
  have ha := a.toNat_lt
  have hb := b.toNat_lt
  cases host <;> simp only [ntohs, htons, word, swap] <;> omega

/-- A 16-bit object gives back the value stored in it. -/
theorem exists_octets16 (host : ByteOrder) {v : Nat} (hv : v < 65536) :
    ∃ a b, octets16 host v = [a, b] ∧ word host a b = v := by
  cases host with
  | little =>
    refine ⟨_, _, rfl, ?_⟩
    simp only [word, UInt8.toNat_ofNat']
    omega
  | big =>
    refine ⟨_, _, rfl, ?_⟩
    simp only [word, UInt8.toNat_ofNat']
    omega

theorem word_of_octets16 {host : ByteOrder} {v : Nat} (hv : v < 65536) {a b : UInt8}
    (h : octets16 host v = [a, b]) : word host a b = v := by
  obtain ⟨x, y, hxy, hw⟩ := exists_octets16 host hv
  obtain ⟨rfl, rfl⟩ : a = x ∧ b = y := by simpa using h.symm.trans hxy
  exact hw

theorem octets16_word (host : ByteOrder) (a b : UInt8) : octets16 host (word host a b) = [a, b] := by
  have ha := a.toNat_lt
  have hb := b.toNat_lt
  have hofNat (n : Nat) (c : UInt8) (h : n % 256 = c.toNat) : UInt8.ofNat n = c :=
    UInt8.toNat_inj.mp (by rw [UInt8.toNat_ofNat']; exact h)
  cases host with
  | little =>
    simp only [word, octets16]
    rw [hofNat _ a (by omega), hofNat _ b (by omega)]
  | big =>
    simp only [word, octets16]
    rw [hofNat _ a (by omega), hofNat _ b (by omega)]

def wordSum (host : ByteOrder) : Octets → Nat
  | a :: b :: rest => word host a b + wordSum host rest
  | _ => 0

theorem wordSum_append {host : ByteOrder} {k : Nat} {xs : Octets} (h : xs.length = 2 * k)
    (ys : Octets) : wordSum host (xs ++ ys) = wordSum host xs + wordSum host ys := by
  induction k generalizing xs with
  | zero =>
    obtain rfl : xs = [] := List.length_eq_zero_iff.mp (by omega)
    simp [wordSum]
  | succ k ih =>
    match xs, h with
    | a :: b :: rest, h =>
      have hr : rest.length = 2 * k := by simp only [List.length_cons] at h; omega
      simp only [List.cons_append, wordSum, ih hr]
      omega

private theorem wordSum_le (host : ByteOrder) (k : Nat) (xs : Octets) (h : xs.length ≤ 2 * k) :
    wordSum host xs ≤ 65535 * k := by
  induction k generalizing xs with
  | zero =>
    obtain rfl : xs = [] := List.length_eq_zero_iff.mp (by omega)
    simp [wordSum]
  | succ k ih =>
    match xs with
    | [] => simp [wordSum]
    | [a] => simp [wordSum]
    | a :: b :: rest =>
      have hr : rest.length ≤ 2 * k := by simp only [List.length_cons] at h; omega
      have := ih rest hr
      have := word_lt host a b
      simp only [wordSum]
      omega

/-- Reading the words in the other byte order multiplies the sum by 256. -/
private theorem wordSum_swap : ∀ xs : Octets,
    wordSum .big xs ≡ 256 * wordSum .little xs [MOD 256 * 256 - 1]
  | [] => .refl _
  | [_] => .refl _
  | a :: b :: rest => by
    have hw : word .big a b ≡ 256 * word .little a b [MOD 256 * 256 - 1] := by
      have he : 256 * word .little a b = word .big a b + (256 * 256 - 1) * b.toNat := by
        simp only [word]
        omega
      rw [he]
      simp [Nat.ModEq]
    simp only [wordSum, Nat.mul_add]
    exact hw.add (wordSum_swap rest)

private theorem wordSum_eq_zero : ∀ xs : Octets, wordSum .little xs = 0 ↔ wordSum .big xs = 0
  | [] => by simp [wordSum]
  | [_] => by simp [wordSum]
  | a :: b :: rest => by
    have ih := wordSum_eq_zero rest
    simp only [wordSum, word]
    omega

def netChecksum (octets : Octets) : Octets :=
  net16 (65535 - residue 65536 (wordSum .big octets))

/-- Two buffers that are not all zero have one checksum when their sums are congruent. -/
theorem netChecksum_eq_iff {xs ys : Octets} (hx : wordSum .big xs ≠ 0) (hy : wordSum .big ys ≠ 0) :
    netChecksum xs = netChecksum ys ↔ wordSum .big xs ≡ wordSum .big ys [MOD 65535] := by
  rw [← residue_eq_iff (b := 65536) (by decide) hx hy]
  have hxl := residue_lt (b := 65536) (by decide) (wordSum .big xs)
  have hyl := residue_lt (b := 65536) (by decide) (wordSum .big ys)
  constructor
  · intro h
    rw [netChecksum, netChecksum] at h
    obtain ⟨p, q, hpq, hxw⟩ := exists_octets16 .big (Nat.lt_succ_of_le (Nat.sub_le 65535 _))
    have hyw := word_of_octets16 (Nat.lt_succ_of_le (Nat.sub_le 65535 _)) (h.symm.trans hpq)
    omega
  · intro h
    rw [netChecksum, netChecksum, h]

/-- The words of two front parts of one buffer differ by those in between. -/
theorem wordSum_extents (mem : Octets) {a b : Nat} (ha : 2 * a ≤ mem.length) (hb : 2 * b ≤ mem.length) :
    wordSum .big (mem.take (2 * a)) + wordSum .big ((mem.take (2 * b)).drop (2 * a)) =
      wordSum .big (mem.take (2 * b)) + wordSum .big ((mem.take (2 * a)).drop (2 * b)) := by
  have hsplit {m n : Nat} (hmn : m ≤ n) (hn : 2 * n ≤ mem.length) :
      wordSum .big (mem.take (2 * m)) + wordSum .big ((mem.take (2 * n)).drop (2 * m)) =
        wordSum .big (mem.take (2 * n)) ∧ (mem.take (2 * m)).drop (2 * n) = [] := by
    have hl : (mem.take (2 * m)).length = 2 * m := by rw [List.length_take]; omega
    have hfront : mem.take (2 * m) = (mem.take (2 * n)).take (2 * m) := by
      rw [List.take_take, Nat.min_eq_left (by omega)]
    refine ⟨?_, List.drop_eq_nil_of_le (by omega)⟩
    rw [← wordSum_append hl, hfront, List.take_append_drop]
  rcases Nat.le_total a b with hab | hab
  · obtain ⟨hsum, hnil⟩ := hsplit hab hb
    rw [hsum, hnil]
    rfl
  · obtain ⟨hsum, hnil⟩ := hsplit hab ha
    rw [hsum, hnil]
    rfl

/-- The loop adds up the words of the first `2 * k` octets. -/
theorem cksumSum_spec (host : ByteOrder) (k : Nat) (mem : Octets) (sum : Nat)
    (h : 2 * k ≤ mem.length) (hs : sum < 2 ^ 32) :
    cksumSum host mem (2 * k) sum =
      .ok ((sum + wordSum host (mem.take (2 * k))) % 2 ^ 32) := by
  induction k generalizing mem sum with
  | zero => simpa [cksumSum, wordSum] using (Nat.mod_eq_of_lt hs).symm
  | succ k ih =>
    match mem, h with
    | a :: b :: rest, h =>
      have hr : 2 * k ≤ rest.length := by simp only [List.length_cons] at h; omega
      rw [show 2 * (k + 1) = 2 * k + 2 by omega, cksumSum,
        ih rest _ hr (Nat.mod_lt _ (by decide)), List.take_succ_cons, List.take_succ_cons, wordSum]
      simp only [Nat.mod_add_mod, Nat.add_assoc]

/-- A memory that ends inside the summed range is read beyond its end. -/
theorem cksumSum_short (host : ByteOrder) (n : Nat) (mem : Octets) (sum : Nat)
    (h : mem.length < n) : cksumSum host mem n sum = .error .badAccess := by
  induction n using Nat.strongRecOn generalizing mem sum with
  | ind n ih =>
    match n, mem with
    | 1, [] => rfl
    | 1, [a] => simp at h
    | n + 2, [] => rfl
    | n + 2, [a] => rfl
    | n + 2, a :: b :: rest =>
      rw [cksumSum]
      exact ih n (by omega) rest _ (by simp only [List.length_cons] at h; omega)

private theorem cksumFold_eq {sum : Nat} (h : sum < 2 ^ 32) : cksumFold sum = 65535 - residue 65536 sum := by
  simp only [cksumFold]
  rw [fold_twice (by decide) (by simpa using h)]

private theorem swap_complement {r : Nat} (hr : r < 65536) :
    swap 256 (65535 - r) = 65535 - swap 256 r := by
  unfold swap
  omega

/-- The words of a buffer are summed without an overflow, and their sum is complemented. -/
theorem cksum_eq (host : ByteOrder) {k : Nat} (hk : k ≤ 65537) {mem : Octets} (h : 2 * k ≤ mem.length) :
    wordSum host (mem.take (2 * k)) < 2 ^ 32 ∧
      cksum host mem (2 * k) = .ok (65535 - residue 65536 (wordSum host (mem.take (2 * k)))) := by
  have hle := wordSum_le host k (mem.take (2 * k)) (List.length_take_le _ _)
  have hlt : wordSum host (mem.take (2 * k)) < 2 ^ 32 := by omega
  refine ⟨hlt, ?_⟩
  simp only [cksum, cksumSum_spec host k mem 0 h (by decide), Nat.zero_add,
    Nat.mod_eq_of_lt hlt, bind, Except.bind, pure, Except.pure, cksumFold_eq hlt]

/-- Every host stores the same two octets. -/
theorem cksum_spec (host : ByteOrder) {k : Nat} (hk : k ≤ 65537) {mem : Octets}
    (h : 2 * k ≤ mem.length) :
    ∃ sum < 65536, cksum host mem (2 * k) = .ok sum ∧
      octets16 host sum = netChecksum (mem.take (2 * k)) := by
  obtain ⟨-, hsum⟩ := cksum_eq host hk h
  refine ⟨_, by omega, hsum, ?_⟩
  generalize mem.take (2 * k) = xs
  cases host with
  | big => rfl
  | little =>
    have hr := residue_lt (b := 65536) (by decide) (wordSum .little xs)
    have hsw := residue_swap (c := 256) (by decide) (wordSum_eq_zero xs) (wordSum_swap xs)
    rw [octets16_little (by omega), swap_complement hr, netChecksum]
    congr 2
    exact hsw.symm

end Uvrrpd
