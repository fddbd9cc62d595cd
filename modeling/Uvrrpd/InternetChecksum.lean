import Uvrrpd.Packet

/-! The checksum of RFC 1071 as a law about buffers of words: what the code returns for
them, and what that value tells of them. -/
namespace Uvrrpd
open Library

def words (host : ByteOrder) : Octets → List Nat
  | a :: b :: rest => word host a b :: words host rest
  | _ => []

def fold (sum : Nat) : Nat := sum / 65536 + sum % 65536

/-- What the checksum `c` of a buffer of `n` words is good for. -/
structure InternetChecksum (host : ByteOrder) (mem : Octets) (n c : Nat) : Prop where
  /-- the accumulator of 32 bits holds the sum of the words so far -/
  accumulates : ∀ k ≤ n, cksumSum host mem (2 * k) 0 = .ok ((words host mem).take k).sum ∧
    ((words host mem).take k).sum < 2 ^ 32
  /-- no third fold is needed -/
  folds : fold (fold (words host mem).sum) < 65536 ∧ c = 65535 - fold (fold (words host mem).sum)
  complement : ∃ r ≤ 65535, r = OnesComplement.sum 65536 (words host mem) ∧ c = 65535 - r ∧
    r ≡ (words host mem).sum [MOD 65535] ∧ (r = 0 ↔ ∀ w ∈ words host mem, w = 0)
  verifies : ∀ i, (words host mem)[i]? = some 0 → ∃ mem', store mem (2 * i) (octets16 host c) = .ok mem' ∧
    cksum host mem' (2 * n) = .ok 0
  unordered : ∀ mem', mem'.length = 2 * n → (words host mem').Perm (words host mem) →
    cksum host mem' (2 * n) = .ok c
  /-- a change of one word, other than that of 0 into all ones or back -/
  detects : ∀ mem' i v w, mem'.length = 2 * n → (words host mem)[i]? = some w →
    words host mem' = (words host mem).set i v → v ≠ w → ¬ (w = 0 ∧ v = 0xffff) → ¬ (w = 0xffff ∧ v = 0) →
    ∃ c', cksum host mem' (2 * n) = .ok c' ∧ c' ≠ c

section
variable {host : ByteOrder} {mem : Octets} {n : Nat}

theorem wordSum_eq : ∀ mem : Octets, wordSum host mem = (words host mem).sum
  | [] => rfl
  | [_] => rfl
  | a :: b :: rest => by rw [wordSum, words, List.sum_cons, wordSum_eq rest]

theorem words_lt (host : ByteOrder) : ∀ mem : Octets, ∀ w ∈ words host mem, w < 65536
  | [], _, h => by cases h
  | [_], _, h => by cases h
  | a :: b :: rest, w, h => by
    rw [words] at h
    rcases List.mem_cons.mp h with rfl | h
    · exact word_lt host a b
    · exact words_lt host rest w h

private theorem words_append {front : Octets} (h : front.length = 2 * n) (back : Octets) :
    words host (front ++ back) = words host front ++ words host back := by
  induction n generalizing front with
  | zero =>
    obtain rfl : front = [] := List.length_eq_zero_iff.mp (by omega)
    rfl
  | succ n ih =>
    match front, h with
    | a :: b :: rest, h =>
      rw [List.length_cons, List.length_cons] at h
      rw [List.cons_append, List.cons_append, words, words, ih (by omega), List.cons_append]

private theorem words_length (h : mem.length = 2 * n) : (words host mem).length = n := by
  induction n generalizing mem with
  | zero =>
    obtain rfl : mem = [] := List.length_eq_zero_iff.mp (by omega)
    rfl
  | succ n ih =>
    match mem, h with
    | a :: b :: rest, h =>
      rw [List.length_cons, List.length_cons] at h
      rw [words, List.length_cons, ih (by omega)]

private theorem words_take (k : Nat) : words host (mem.take (2 * k)) = (words host mem).take k := by
  induction k generalizing mem with
  | zero => simp [words]
  | succ k ih =>
    match mem with
    | [] => simp [words]
    | [a] => rw [Nat.mul_succ, List.take_of_length_le (by simp)]; rfl
    | a :: b :: rest =>
      rw [Nat.mul_succ, List.take_succ_cons, List.take_succ_cons, words, words, List.take_succ_cons, ih]

/-- Storing into a word of the buffer. -/
private theorem words_store {i v w : Nat} (h : mem.length = 2 * n) (hw : (words host mem)[i]? = some w)
    (hv : v < 65536) :
    ∃ mem', store mem (2 * i) (octets16 host v) = .ok mem' ∧ mem'.length = 2 * n ∧
      words host mem' = (words host mem).set i v := by
  obtain ⟨hi, -⟩ := List.getElem?_eq_some_iff.mp hw
  rw [words_length h] at hi
  obtain ⟨front, old, back, rfl, hf, hold⟩ := Memory.exists_range (show 2 * i + 2 ≤ mem.length by omega)
  obtain ⟨a, b, rfl⟩ := List.length_eq_two.mp hold
  obtain ⟨x, y, hxy, hword⟩ := exists_octets16 host hv
  refine ⟨front ++ ([x, y] ++ back), ?_, ?_, ?_⟩
  · rw [hxy]
    exact store_middle front [a, b] back [x, y] hf.symm rfl
  · rw [← h, List.length_append, List.length_append, List.length_append, List.length_append]
    rfl
  · have hl : (words host front).length = i := words_length hf
    rw [words_append hf, words_append hf, List.set_append_right i v (by omega), hl, Nat.sub_self]
    show words host front ++ word host x y :: words host back = words host front ++ v :: words host back
    rw [hword]

/-- The sum of the other words stays when one word is exchanged. -/
private theorem sum_set {ws : List Nat} {i w : Nat} (hw : ws[i]? = some w) :
    ∃ m, ws.sum = m + w ∧ ∀ v, (ws.set i v).sum = m + v := by
  obtain ⟨hi, rfl⟩ := List.getElem?_eq_some_iff.mp hw
  have hset (v : Nat) : (ws.set i v).sum = (ws.take i).sum + (ws.drop (i + 1)).sum + v := by
    rw [List.sum_set, if_pos hi]
    omega
  refine ⟨_, ?_, hset⟩
  rw [← hset, List.set_getElem_self]

private theorem cksum_words (host : ByteOrder) (hlen : mem.length = 2 * n) (hn : n ≤ 65537) :
    cksum host mem (2 * n) = .ok (65535 - OnesComplement.residue 65536 (words host mem).sum) ∧
      (words host mem).sum < 2 ^ 32 := by
  obtain ⟨hlt, hsum⟩ := cksum_eq host hn (le_of_eq hlen.symm)
  rw [← hlen, List.take_length, wordSum_eq] at hlt hsum
  exact ⟨hlen ▸ hsum, hlt⟩

private theorem fold_fold {sum : Nat} (h : sum < 2 ^ 32) :
    fold (fold sum) < 65536 ∧ fold (fold sum) = OnesComplement.residue 65536 sum := by
  have hlt : fold (fold sum) < 65536 := OnesComplement.fold_fold_lt (by decide) h
  refine ⟨hlt, OnesComplement.residue_unique hlt ?_ ?_⟩
  · rw [fold, OnesComplement.fold_eq_zero, fold, OnesComplement.fold_eq_zero]
  · exact (OnesComplement.fold_modEq (b := 65536) (by decide) _).trans
      (OnesComplement.fold_modEq (b := 65536) (by decide) _)

private theorem cksum_stored (hlen : mem.length = 2 * n) (hn : n ≤ 65537) {i : Nat}
    (hzero : (words host mem)[i]? = some 0) :
    ∃ mem', store mem (2 * i) (octets16 host (65535 - OnesComplement.residue 65536 (words host mem).sum)) = .ok mem' ∧
      cksum host mem' (2 * n) = .ok 0 := by
  have hres := OnesComplement.residue_lt (b := 65536) (by decide) (words host mem).sum
  have hones := OnesComplement.residue_complement (b := 65536) (by decide) (words host mem).sum
  obtain ⟨mem', hstore, hlen', hwords⟩ := words_store hlen hzero
    (show 65535 - OnesComplement.residue 65536 (words host mem).sum < 65536 by omega)
  obtain ⟨m, hm, hset⟩ := sum_set hzero
  obtain ⟨hsum', -⟩ := cksum_words host hlen' hn
  refine ⟨mem', hstore, ?_⟩
  rw [hsum', hwords, hset, show m = (words host mem).sum by omega, hones]

private theorem cksum_changed {mem' : Octets} (hlen' : mem'.length = 2 * n) (hn : n ≤ 65537) {i v w : Nat}
    (hw : (words host mem)[i]? = some w) (hwords : words host mem' = (words host mem).set i v) (hne : v ≠ w)
    (hones : ¬ (w = 0 ∧ v = 0xffff) ∧ ¬ (w = 0xffff ∧ v = 0)) :
    ∃ c, cksum host mem' (2 * n) = .ok c ∧ c ≠ 65535 - OnesComplement.residue 65536 (words host mem).sum := by
  obtain ⟨m, hm, hset⟩ := sum_set hw
  obtain ⟨hsum', -⟩ := cksum_words host hlen' hn
  have hwlt : w < 65536 := words_lt host mem w (List.mem_of_getElem? hw)
  have hvlt : v < 65536 := by
    obtain ⟨hi, -⟩ := List.getElem?_eq_some_iff.mp hw
    apply words_lt host mem' v
    rw [hwords]
    exact List.mem_set hi v
  have hchange := OnesComplement.residue_change (n := m) hwlt hvlt (Ne.symm hne) hones
  have hres := OnesComplement.residue_lt (b := 65536) (by decide) (words host mem).sum
  have hres' := OnesComplement.residue_lt (b := 65536) (by decide) (words host mem').sum
  refine ⟨_, hsum', ?_⟩
  rw [hwords, hset] at hres' ⊢
  rw [hm] at hres ⊢
  omega

end

theorem internet_checksum (host : ByteOrder) {mem : Octets} {n : Nat} (hlen : mem.length = 2 * n) (hn : n ≤ 65537) :
    ∃ c, cksum host mem (2 * n) = .ok c ∧ InternetChecksum host mem n c := by
  obtain ⟨hsum, hlt⟩ := cksum_words host hlen hn
  refine ⟨_, hsum, ?_, ?_, ?_, ?_, ?_, ?_⟩
  · intro k hk
    have hle := List.sum_take_add_sum_drop (words host mem) k
    have htake : (mem.take (2 * k)).length = 2 * k := by rw [List.length_take]; omega
    have hacc := cksumSum_spec host k mem 0 (by omega) (by decide)
    rw [wordSum_eq, words_take, Nat.zero_add, Nat.mod_eq_of_lt (by omega)] at hacc
    exact ⟨hacc, by omega⟩
  · obtain ⟨hfold, heq⟩ := fold_fold hlt
    exact ⟨hfold, by rw [heq]⟩
  · refine ⟨_, Nat.le_of_lt_succ (OnesComplement.residue_lt (by decide) _),
      (OnesComplement.sum_eq (by decide) (words_lt host mem)).symm, rfl, OnesComplement.residue_modEq _ _, ?_⟩
    rw [OnesComplement.residue_eq_zero, List.sum_eq_zero_iff_forall_eq_nat]
  · exact fun i hzero => cksum_stored hlen hn hzero
  · intro mem' hlen' hperm
    obtain ⟨hsum', -⟩ := cksum_words host hlen' hn
    rw [hsum', hperm.sum_eq]
  · exact fun mem' i v w hlen' hw hwords hne hones hones' => cksum_changed hlen' hn hw hwords hne ⟨hones, hones'⟩

/-- The header of an advertisement, with its checksum field reset. -/
theorem internet_checksum_header :
    cksum .little [0x21, 1, 100, 1, 0, 1, 0, 0] (2 * 4) = .ok 0xfc7a ∧
      InternetChecksum .little [0x21, 1, 100, 1, 0, 1, 0, 0] 4 0xfc7a := by
  obtain ⟨c, hsum, hc⟩ := internet_checksum .little
    (show ([0x21, 1, 100, 1, 0, 1, 0, 0] : Octets).length = 2 * 4 from rfl) (by decide)
  have hval : cksum .little [0x21, 1, 100, 1, 0, 1, 0, 0] (2 * 4) = .ok 0xfc7a := by rfl
  obtain rfl : c = 0xfc7a := Except.ok.inj (hsum.symm.trans hval)
  exact ⟨hval, hc⟩

end Uvrrpd
