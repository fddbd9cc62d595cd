import Mathlib.Data.Nat.Digits.Defs
import Uvrrpd.Options

/-! `mystrtoul` against the grammar of C integer constants: which texts it should take
for a number, and which it takes. -/
namespace Uvrrpd

inductive Digit : UInt8 → Nat → Prop
  | decimal (d : Nat) (h : d < 10) : Digit (UInt8.ofNat (0x30 + d)) d
  | upper (d : Nat) (h : d < 6) : Digit (UInt8.ofNat (0x41 + d)) (10 + d)
  | lower (d : Nat) (h : d < 6) : Digit (UInt8.ofNat (0x61 + d)) (10 + d)

def Spells (base : Nat) (text : Octets) (ds : List Nat) : Prop :=
  List.Forall₂ Digit text ds ∧ ∀ d ∈ ds, d < base

inductive Numeral : Octets → Nat → Prop
  | decimal (c : UInt8) (text : Octets) (ds : List Nat) (hc : c ≠ 0x30) (h : Spells 10 (c :: text) ds) :
    Numeral (c :: text) (Nat.ofDigits 10 ds.reverse)
  | octal (text : Octets) (ds : List Nat) (h : Spells 8 text ds) :
    Numeral (0x30 :: text) (Nat.ofDigits 8 ds.reverse)
  | hexadecimal (x : UInt8) (text : Octets) (ds : List Nat) (hx : x = 0x78 ∨ x = 0x58) (hne : text ≠ [])
      (h : Spells 16 text ds) : Numeral (0x30 :: x :: text) (Nat.ofDigits 16 ds.reverse)

def Signed (sign str : Octets) (v : Nat) : Prop :=
  ∃ blanks num, str = blanks ++ (sign ++ num) ∧ (∀ c ∈ blanks, isspace c = true) ∧ Numeral num v

/-- The number that a text should be taken for. -/
def Denotes (str : Octets) (v : Nat) : Prop := Signed [] str v ∨ Signed [0x2b] str v

def DenotesNegative (str : Octets) (u : Nat) : Prop := Signed [0x2d] str u

/-- The value returned, and `*dest` after the call. -/
def mystrtoulAt (dest : Nat) (str : Octets) (max : Nat) : Int × Nat :=
  match mystrtoul str max with
  | .ok val => (0, val)
  | .error e => (-e.code, dest)

/-- What the function is there for: exactly the numerals up to `max` are taken. -/
structure ParsesNumerals (dest : Nat) (str : Octets) (max : Nat) : Prop where
  accepts : ∀ v, mystrtoulAt dest str max = (0, v) ↔ Denotes str v ∧ v ≤ max
  refuses : (¬ ∃ v ≤ max, Denotes str v) → ∃ e : Errno, mystrtoulAt dest str max = (-e.code, dest)

private theorem digit_iff {c : UInt8} {d : Nat} : Digit c d ↔ digitValue c = some d ∧ d < 16 := by
  have hvalue : (∀ d < 10, digitValue (UInt8.ofNat (0x30 + d)) = some d) ∧
      (∀ d < 6, digitValue (UInt8.ofNat (0x41 + d)) = some (10 + d)) ∧
      ∀ d < 6, digitValue (UInt8.ofNat (0x61 + d)) = some (10 + d) := by decide
  constructor
  · intro h
    cases h with
    | decimal d h => exact ⟨hvalue.1 d h, by omega⟩
    | upper d h => exact ⟨hvalue.2.1 d h, by omega⟩
    | lower d h => exact ⟨hvalue.2.2 d h, by omega⟩
  · rintro ⟨hd, hlt⟩
    have hc (n : Nat) (h : n = c.toNat) : c = UInt8.ofNat n := by rw [h, UInt8.ofNat_toNat]
    simp only [digitValue, Bool.and_eq_true, decide_eq_true_eq, UInt8.le_iff_toNat_le, UInt8.reduceToNat] at hd
    split at hd
    · obtain rfl := Option.some.inj hd
      have h := Digit.decimal (c.toNat - 0x30) (by omega)
      rwa [← hc _ (by omega)] at h
    split at hd
    · obtain rfl := Option.some.inj hd
      have h := Digit.upper (c.toNat - 0x41) (by omega)
      rwa [← hc _ (by omega), Nat.add_comm] at h
    split at hd
    · obtain rfl := Option.some.inj hd
      have h := Digit.lower (c.toNat - 0x61) (by omega)
      rwa [← hc _ (by omega), Nat.add_comm] at h
    · cases hd

/-- Every numeral starts with a decimal digit. -/
private theorem digit_first {c : UInt8} {d : Nat} (h : Digit c d) (hd : d < 10) : 0x30 ≤ c ∧ c ≤ 0x39 := by
  cases h with
  | decimal d h => exact (show ∀ d < 10, 0x30 ≤ UInt8.ofNat (0x30 + d) ∧ UInt8.ofNat (0x30 + d) ≤ 0x39 by decide) d h
  | upper d h => omega
  | lower d h => omega

private theorem foldl_digits (base : Nat) (ds : List Nat) :
    ds.foldl (fun n d => n * base + d) 0 = Nat.ofDigits base ds.reverse := by
  rw [Nat.ofDigits_eq_foldr, List.foldr_reverse]
  simp only [Nat.cast_id, Nat.add_comm, Nat.mul_comm]

/-- The scan reaches the end of the text when the text spells digits. -/
private theorem scanDigits_iff {base : Nat} (hb : base ≤ 16) {text : Octets} {acc n v m : Nat} :
    scanDigits base text acc n = (v, m, []) ↔
      ∃ ds, Spells base text ds ∧ v = ds.foldl (fun n d => n * base + d) acc ∧ m = n + text.length := by
  induction text generalizing acc n with
  | nil =>
    rw [scanDigits]
    constructor
    · intro h
      cases h
      exact ⟨[], ⟨.nil, by simp⟩, rfl, rfl⟩
    · rintro ⟨ds, ⟨hds, -⟩, rfl, rfl⟩
      cases hds
      rfl
  | cons c rest ih =>
    rw [scanDigits]
    constructor
    · intro h
      split at h
      · next d hd =>
        split at h
        · next hlt =>
          obtain ⟨ds, ⟨hds, hall⟩, rfl, rfl⟩ := ih.mp h
          refine ⟨d :: ds, ⟨.cons (digit_iff.mpr ⟨hd, by omega⟩) hds, ?_⟩, rfl, by rw [List.length_cons]; omega⟩
          exact List.forall_mem_cons.mpr ⟨hlt, hall⟩
        · cases h
      · cases h
    · rintro ⟨ds, ⟨hds, hall⟩, rfl, rfl⟩
      obtain _ | ⟨hd, hds⟩ := hds
      obtain ⟨hlt, hall⟩ := List.forall_mem_cons.mp hall
      rw [(digit_iff.mp hd).1]
      simp only [hlt, if_true]
      exact ih.mpr ⟨_, ⟨hds, hall⟩, rfl, by rw [List.length_cons]; omega⟩

private theorem spells_cons {base : Nat} {c : UInt8} {text : Octets} {ds : List Nat} (h : Spells base (c :: text) ds) :
    ∃ d rest, ds = d :: rest ∧ Digit c d ∧ d < base ∧ Spells base text rest := by
  obtain ⟨hds, hall⟩ := h
  obtain _ | ⟨hd, hds⟩ := hds
  obtain ⟨hlt, hall⟩ := List.forall_mem_cons.mp hall
  exact ⟨_, _, rfl, hd, hlt, hds, hall⟩

private theorem startsDigit_of_spells {text : Octets} {ds : List Nat} (hne : text ≠ []) (h : Spells 16 text ds) :
    startsDigit 16 text = true := by
  cases text with
  | nil => exact absurd rfl hne
  | cons c rest =>
    obtain ⟨d, -, -, hd, hlt, -⟩ := spells_cons h
    rw [startsDigit, (digit_iff.mp hd).1]
    exact decide_eq_true hlt

/-- The letter of the hexadecimal prefix is no octal digit. -/
private theorem not_spells_x {base : Nat} (hb : base ≤ 10) {x : UInt8} (hx : x = 0x78 ∨ x = 0x58) {text : Octets}
    {ds : List Nat} : ¬ Spells base (x :: text) ds := by
  intro h
  obtain ⟨d, -, -, hd, hlt, -⟩ := spells_cons h
  obtain ⟨-, hle⟩ := digit_first hd (by omega)
  rcases hx with rfl | rfl
  · exact absurd hle (by decide)
  · exact absurd hle (by decide)

private theorem numeral_first {num : Octets} {v : Nat} (h : Numeral num v) :
    ∃ c text, num = c :: text ∧ 0x30 ≤ c ∧ c ≤ 0x39 := by
  cases h with
  | decimal c text ds hc h =>
    obtain ⟨d, -, -, hd, hlt, -⟩ := spells_cons h
    exact ⟨c, text, rfl, digit_first hd hlt⟩
  | octal text ds h => exact ⟨0x30, text, rfl, by decide, by decide⟩
  | hexadecimal x text ds hx hne h => exact ⟨0x30, x :: text, rfl, by decide, by decide⟩

def scan (text : Octets) : Nat × Nat × Octets := scanDigits (inferBase text).1 (inferBase text).2 0 0

private theorem scan_of_base {text body : Octets} {base : Nat} (h : inferBase text = (base, body)) :
    scan text = scanDigits base body 0 0 := by
  rw [scan, h]

/-- A scan in a known base that reads at least one digit and leaves nothing. -/
private theorem scan_all_iff {base : Nat} (hb : base ≤ 16) {text : Octets} {v : Nat} :
    (∃ n, n ≠ 0 ∧ scanDigits base text 0 0 = (v, n, [])) ↔
      text ≠ [] ∧ ∃ ds, Spells base text ds ∧ v = Nat.ofDigits base ds.reverse := by
  constructor
  · rintro ⟨n, hn, h⟩
    obtain ⟨ds, hds, hv, rfl⟩ := (scanDigits_iff hb).mp h
    refine ⟨?_, ds, hds, hv.trans (foldl_digits base ds)⟩
    rintro rfl
    exact hn rfl
  · rintro ⟨hne, ds, hds, hv⟩
    have hlen := List.length_pos_iff.mpr hne
    exact ⟨0 + text.length, by omega, (scanDigits_iff hb).mpr ⟨ds, hds, hv.trans (foldl_digits base ds).symm, rfl⟩⟩

/-- With the prefix `0x` and a digit behind it the base is 16. -/
private theorem numeral_hexadecimal {x : UInt8} (hx : x = 0x78 ∨ x = 0x58) {rest : Octets} {v : Nat} :
    Numeral (0x30 :: x :: rest) v ↔ rest ≠ [] ∧ ∃ ds, Spells 16 rest ds ∧ v = Nat.ofDigits 16 ds.reverse := by
  constructor
  · intro h
    cases h with
    | decimal _ _ ds hc h => exact absurd rfl hc
    | octal _ ds h => exact absurd h (not_spells_x (by decide) hx)
    | hexadecimal _ _ ds hx hne h => exact ⟨hne, ds, h, rfl⟩
  · rintro ⟨hne, ds, h, rfl⟩
    exact .hexadecimal x rest ds hx hne h

/-- Without such a prefix a leading zero makes the base 8, and is itself a digit. -/
private theorem numeral_octal {text : Octets}
    (hpre : ∀ x rest, text = x :: rest → ¬ ((x = 0x78 ∨ x = 0x58) ∧ startsDigit 16 rest = true)) {v : Nat} :
    Numeral (0x30 :: text) v ↔ ∃ ds, Spells 8 (0x30 :: text) ds ∧ v = Nat.ofDigits 8 ds.reverse := by
  have hzero (ds : List Nat) : Nat.ofDigits 8 (0 :: ds).reverse = Nat.ofDigits 8 ds.reverse := by
    rw [← foldl_digits, ← foldl_digits]
    rfl
  constructor
  · intro h
    cases h with
    | decimal _ _ ds hc h => exact absurd rfl hc
    | octal _ ds h =>
      refine ⟨0 :: ds, ⟨.cons (.decimal 0 (by decide)) h.1, ?_⟩, (hzero ds).symm⟩
      exact List.forall_mem_cons.mpr ⟨by decide, h.2⟩
    | hexadecimal x rest ds hx hne h => exact absurd ⟨hx, startsDigit_of_spells hne h⟩ (hpre x rest rfl)
  · rintro ⟨ds, h, rfl⟩
    obtain ⟨d, ds, rfl, hd, -, hrest⟩ := spells_cons h
    obtain rfl : 0 = d := Option.some.inj (digit_iff.mp hd).1
    rw [hzero]
    exact .octal text ds hrest

private theorem numeral_decimal {c : UInt8} (hc : c ≠ 0x30) {text : Octets} {v : Nat} :
    Numeral (c :: text) v ↔ ∃ ds, Spells 10 (c :: text) ds ∧ v = Nat.ofDigits 10 ds.reverse := by
  constructor
  · intro h
    cases h with
    | decimal _ _ ds hc h => exact ⟨ds, h, rfl⟩
    | octal _ ds h => exact absurd rfl hc
    | hexadecimal x rest ds hx hne h => exact absurd rfl hc
  · rintro ⟨ds, h, rfl⟩
    exact .decimal c text ds hc h

private theorem scan_iff {text : Octets} {v : Nat} : (∃ n, n ≠ 0 ∧ scan text = (v, n, [])) ↔ Numeral text v := by
  have hoctal (t : Octets) (hbase : inferBase (0x30 :: t) = (8, 0x30 :: t))
      (hpre : ∀ x rest, t = x :: rest → ¬ ((x = 0x78 ∨ x = 0x58) ∧ startsDigit 16 rest = true)) :
      (∃ n, n ≠ 0 ∧ scan (0x30 :: t) = (v, n, [])) ↔ Numeral (0x30 :: t) v := by
    rw [numeral_octal hpre, scan_of_base hbase, scan_all_iff (by decide)]
    simp
  cases text with
  | nil =>
    refine iff_of_false ?_ ?_
    · rintro ⟨n, hn, h⟩
      cases h
      exact hn rfl
    · rintro ⟨⟩
  | cons c text =>
    by_cases hc : c = 0x30
    · subst hc
      cases text with
      | nil => exact hoctal [] rfl (fun x rest h => by cases h)
      | cons x rest =>
        by_cases hpre : (x = 0x78 ∨ x = 0x58) ∧ startsDigit 16 rest = true
        · have hbase : inferBase (0x30 :: x :: rest) = (16, rest) := by simp [inferBase, hpre]
          rw [numeral_hexadecimal hpre.1, scan_of_base hbase, scan_all_iff (by decide)]
        · have hbase : inferBase (0x30 :: x :: rest) = (8, 0x30 :: x :: rest) := by simp [inferBase, hpre]
          refine hoctal (x :: rest) hbase fun y rest' h => ?_
          cases h
          exact hpre
    · have hbase : inferBase (c :: text) = (10, c :: text) := by
        rw [inferBase]
        · intro x rest h
          exact hc (List.cons.inj h).1
        · intro h
          exact hc (List.cons.inj h).1
      rw [numeral_decimal hc, scan_of_base hbase, scan_all_iff (by decide)]
      simp

/-- What is behind the white space decides which sign a text has. -/
private theorem signed_iff (sign : Octets) {str : Octets} {v : Nat} (hsign : ∀ c ∈ sign, isspace c = false) :
    Signed sign str v ↔ ∃ num, str.dropWhile isspace = sign ++ num ∧ Numeral num v := by
  constructor
  · rintro ⟨blanks, num, rfl, hblanks, hnum⟩
    refine ⟨num, ?_, hnum⟩
    rw [List.dropWhile_append_of_pos hblanks]
    obtain ⟨c, text, rfl, hlo, hhi⟩ := numeral_first hnum
    cases sign with
    | nil =>
      have hc : isspace c = false := by
        have hne : c ≠ 0x20 := by
          rintro rfl
          exact absurd hlo (by decide)
        have hgt : ¬ c ≤ 0x0d := fun hle => absurd (UInt8.le_trans hlo hle) (by decide)
        simp [isspace, hne, hgt]
      rw [List.nil_append, List.dropWhile_cons_of_neg (by simp [hc])]
    | cons s rest =>
      rw [List.cons_append, List.dropWhile_cons_of_neg (by simp [hsign s List.mem_cons_self])]
  · rintro ⟨num, hdrop, hnum⟩
    refine ⟨str.takeWhile isspace, num, ?_, fun c hc => List.all_eq_true.mp List.all_takeWhile c hc, hnum⟩
    rw [← hdrop, List.takeWhile_append_dropWhile]

def converted (str : Octets) (neg : Bool) (text : Octets) : Strtoull :=
  if (scan text).2.1 = 0 then ⟨0, str, false⟩
  else if 2 ^ 64 ≤ (scan text).1 then ⟨2 ^ 64 - 1, (scan text).2.2, true⟩
  else ⟨if neg then (2 ^ 64 - (scan text).1) % 2 ^ 64 else (scan text).1, (scan text).2.2, false⟩

private theorem strtoull_cases (str : Octets) :
    (∃ text, str.dropWhile isspace = 0x2d :: text ∧ strtoull str = converted str true text) ∨
    (∃ text, str.dropWhile isspace = 0x2b :: text ∧ strtoull str = converted str false text) ∨
    (∀ text, str.dropWhile isspace ≠ 0x2d :: text) ∧ (∀ text, str.dropWhile isspace ≠ 0x2b :: text) ∧
      strtoull str = converted str false (str.dropWhile isspace) := by
  cases hdrop : str.dropWhile isspace with
  | nil =>
    refine .inr (.inr ⟨fun text h => (by cases h), fun text h => (by cases h), ?_⟩)
    rw [strtoull, hdrop]
    rfl
  | cons c text =>
    by_cases hminus : c = 0x2d
    · subst hminus
      refine .inl ⟨text, rfl, ?_⟩
      rw [strtoull, hdrop]
      rfl
    by_cases hplus : c = 0x2b
    · subst hplus
      refine .inr (.inl ⟨text, rfl, ?_⟩)
      rw [strtoull, hdrop]
      rfl
    · refine .inr (.inr ⟨fun text' h => hminus (List.cons.inj h).1, fun text' h => hplus (List.cons.inj h).1, ?_⟩)
      rw [strtoull, hdrop]
      dsimp only
      split
      · next h => exact absurd (List.cons.inj h).1 hminus
      · next h => exact absurd (List.cons.inj h).1 hplus
      · rfl

private theorem mystrtoul_ok {str : Octets} {max v : Nat} :
    mystrtoul str max = .ok v ↔ (strtoull str).val ≤ max ∧ (strtoull str).endptr = [] ∧ (strtoull str).val = v ∧
      ¬ (((strtoull str).val = 0 ∨ (strtoull str).val = LONG_MAX) ∧ (strtoull str).erange = true) := by
  rw [mystrtoul]
  generalize strtoull str = r
  split
  · next h => simp_all
  · next h =>
    split
    · next hgt => simp [hgt]
    · next hle =>
      split
      · next hne => simp [hne]
      · next heq => simp_all

/-- A number is returned for the empty text, and for a numeral whose value after the sign is in range. -/
private theorem mystrtoul_converted {str text : Octets} {neg : Bool} {max v : Nat} (hmax : max < 2 ^ 64 - 1)
    (h : strtoull str = converted str neg text) :
    mystrtoul str max = .ok v ↔ (scan text).2.1 = 0 ∧ str = [] ∧ v = 0 ∨
      ∃ u, Numeral text u ∧ u < 2 ^ 64 ∧ v = (if neg then (2 ^ 64 - u) % 2 ^ 64 else u) ∧ v ≤ max := by
  have hread (u : Nat) : Numeral text u ↔ (scan text).2.1 ≠ 0 ∧ (scan text).1 = u ∧ (scan text).2.2 = [] := by
    rw [← scan_iff]
    constructor
    · rintro ⟨n, hn, hscan⟩
      rw [hscan]
      exact ⟨hn, rfl, rfl⟩
    · rintro ⟨hn, rfl, hrest⟩
      exact ⟨_, hn, by rw [← hrest]⟩
  simp only [hread]
  rw [mystrtoul_ok, h, converted]
  split
  · next hzero =>
    constructor
    · rintro ⟨-, hend, hval, -⟩
      exact .inl ⟨hzero, hend, hval.symm⟩
    · rintro (⟨-, rfl, rfl⟩ | ⟨u, ⟨hne, -⟩, -⟩)
      · exact ⟨Nat.zero_le _, rfl, rfl, fun h => Bool.false_ne_true h.2⟩
      · exact absurd hzero hne
  split
  · next hne hbig =>
    constructor
    · rintro ⟨hle, -⟩
      exact absurd (show 2 ^ 64 - 1 ≤ max from hle) (by omega)
    · rintro (⟨hzero, -⟩ | ⟨u, ⟨-, rfl, -⟩, hlt, -⟩)
      · exact absurd hzero hne
      · exact absurd hbig (by omega)
  · next hne hsmall =>
    constructor
    · rintro ⟨hle, hend, rfl, -⟩
      exact .inr ⟨_, ⟨hne, rfl, hend⟩, Nat.lt_of_not_le hsmall, rfl, hle⟩
    · rintro (⟨hzero, -⟩ | ⟨u, ⟨-, rfl, hend⟩, -, rfl, hle⟩)
      · exact absurd hzero hne
      · exact ⟨hle, hend, rfl, fun h => Bool.false_ne_true h.2⟩

theorem signed_minus {str : Octets} {u : Nat} :
    DenotesNegative str u ↔ ∃ num, str.dropWhile isspace = 0x2d :: num ∧ Numeral num u :=
  signed_iff [0x2d] (List.forall_mem_singleton.mpr rfl)

private theorem denotes_iff {str : Octets} {v : Nat} :
    Denotes str v ↔
      Numeral (str.dropWhile isspace) v ∨ ∃ num, str.dropWhile isspace = 0x2b :: num ∧ Numeral num v := by
  rw [Denotes, signed_iff [] (List.forall_mem_nil _), signed_iff [0x2b] (List.forall_mem_singleton.mpr rfl)]
  constructor
  · rintro (⟨num, hdrop, hnum⟩ | h)
    · exact .inl (hdrop ▸ hnum)
    · exact .inr h
  · rintro (hnum | h)
    · exact .inl ⟨_, rfl, hnum⟩
    · exact .inr h

/-- No numeral starts with a sign. -/
private theorem numeral_ne_sign {s : UInt8} (hs : s = 0x2d ∨ s = 0x2b) {text : Octets} {v : Nat} :
    ¬ Numeral (s :: text) v := by
  intro h
  obtain ⟨c, tail, hc, hlo, -⟩ := numeral_first h
  obtain rfl := (List.cons.inj hc).1
  rcases hs with rfl | rfl
  · exact absurd hlo (by decide)
  · exact absurd hlo (by decide)

private theorem not_denotes_minus {str text : Octets} {v : Nat} (hdrop : str.dropWhile isspace = 0x2d :: text) :
    ¬ Denotes str v := by
  rw [denotes_iff, hdrop]
  rintro (hnum | ⟨num, hplus, -⟩)
  · exact numeral_ne_sign (.inl rfl) hnum
  · exact absurd (List.cons.inj hplus).1 (by decide)

/-- Behind a minus sign, and anywhere else. -/
private theorem strtoull_reads (str : Octets) :
    (∃ text, strtoull str = converted str true text ∧ str ≠ [] ∧ (∀ v, ¬ Denotes str v) ∧
      ∀ u, DenotesNegative str u ↔ Numeral text u) ∨
    ∃ text, strtoull str = converted str false text ∧ (str = [] → text = []) ∧
      (∀ v, Denotes str v ↔ Numeral text v) ∧ ∀ u, ¬ DenotesNegative str u := by
  obtain ⟨text, hdrop, h⟩ | ⟨text, hdrop, h⟩ | ⟨hminus, hplus, h⟩ := strtoull_cases str
  · refine .inl ⟨text, h, ?_, fun v => not_denotes_minus hdrop, fun u => ?_⟩
    · rintro rfl
      cases hdrop
    · rw [signed_minus, hdrop]
      simp
  · refine .inr ⟨text, h, ?_, fun v => ?_, fun u => ?_⟩
    · rintro rfl
      cases hdrop
    · rw [denotes_iff, hdrop]
      constructor
      · rintro (hnum | ⟨num, hnum, h⟩)
        · exact absurd hnum (numeral_ne_sign (.inr rfl))
        · rwa [(List.cons.inj hnum).2]
      · exact fun hnum => .inr ⟨text, rfl, hnum⟩
    · rw [signed_minus, hdrop]
      rintro ⟨num, hnum, -⟩
      exact absurd (List.cons.inj hnum).1 (by decide)
  · refine .inr ⟨_, h, ?_, fun v => ?_, fun u => ?_⟩
    · rintro rfl
      rfl
    · rw [denotes_iff]
      exact ⟨fun hnum => hnum.resolve_right fun ⟨num, hdrop, _⟩ => hplus num hdrop, .inl⟩
    · rw [signed_minus]
      exact fun ⟨num, hdrop, _⟩ => hminus num hdrop

/-- Two texts beside the numerals in range are taken: the empty one, and a minus sign before a
magnitude that wraps around to the range. -/
private theorem mystrtoul_iff {str : Octets} {max v : Nat} (hmax : max < 2 ^ 64 - 1) :
    mystrtoul str max = .ok v ↔ (str = [] ∧ v = 0) ∨ (Denotes str v ∧ v ≤ max) ∨
      ∃ u, DenotesNegative str u ∧ u < 2 ^ 64 ∧ v = (2 ^ 64 - u) % 2 ^ 64 ∧ v ≤ max := by
  obtain ⟨text, h, hne, hden, hneg⟩ | ⟨text, h, hnil, hden, hneg⟩ := strtoull_reads str
  · rw [mystrtoul_converted hmax h]
    constructor
    · rintro (⟨-, rfl, -⟩ | ⟨u, hnum, hlt, hv, hle⟩)
      · exact absurd rfl hne
      · exact .inr (.inr ⟨u, (hneg u).mpr hnum, hlt, hv, hle⟩)
    · rintro (⟨rfl, -⟩ | ⟨hd, -⟩ | ⟨u, hnum, hlt, hv, hle⟩)
      · exact absurd rfl hne
      · exact absurd hd (hden v)
      · exact .inr ⟨u, (hneg u).mp hnum, hlt, hv, hle⟩
  · rw [mystrtoul_converted hmax h]
    constructor
    · rintro (⟨-, hstr, hv⟩ | ⟨u, hnum, -, rfl, hle⟩)
      · exact .inl ⟨hstr, hv⟩
      · exact .inr (.inl ⟨(hden _).mpr hnum, hle⟩)
    · rintro (⟨hstr, hv⟩ | ⟨hd, hle⟩ | ⟨u, hnum, -⟩)
      · refine .inl ⟨?_, hstr, hv⟩
        rw [hnil hstr]
        rfl
      · exact .inr ⟨v, (hden v).mp hd, by omega, rfl, hle⟩
      · exact absurd hnum (hneg u)

/-- A text that is read as a number without being a numeral: the empty one, and a minus sign
before a magnitude that wraps around. -/
def Mistaken (str : Octets) (v : Nat) : Prop :=
  str = [] ∧ v = 0 ∨ ∃ u, DenotesNegative str u ∧ u < 2 ^ 64 ∧ v = (2 ^ 64 - u) % 2 ^ 64

theorem mystrtoul_reads {str : Octets} {max v : Nat} (hmax : max < 2 ^ 64 - 1) :
    mystrtoul str max = .ok v ↔ (Denotes str v ∨ Mistaken str v) ∧ v ≤ max := by
  rw [mystrtoul_iff hmax, Mistaken]
  constructor
  · rintro (⟨hnil, rfl⟩ | ⟨hd, hle⟩ | ⟨u, hu, hlt, hv, hle⟩)
    · exact ⟨.inr (.inl ⟨hnil, rfl⟩), Nat.zero_le _⟩
    · exact ⟨.inl hd, hle⟩
    · exact ⟨.inr (.inr ⟨u, hu, hlt, hv⟩), hle⟩
  · rintro ⟨hd | ⟨hnil, hv⟩ | ⟨u, hu, hlt, hv⟩, hle⟩
    · exact .inr (.inl ⟨hd, hle⟩)
    · exact .inl ⟨hnil, hv⟩
    · exact .inr (.inr ⟨u, hu, hlt, hv, hle⟩)

/-- What is misread is no numeral. -/
theorem Mistaken.not_denotes {str : Octets} {v n : Nat} (h : Mistaken str v) : ¬ Denotes str n := by
  rcases h with ⟨rfl, -⟩ | ⟨u, hu, -⟩
  · rw [denotes_iff]
    rintro (hnum | ⟨num, hdrop, -⟩)
    · cases hnum
    · cases hdrop
  · obtain ⟨num, hdrop, -⟩ := signed_minus.mp hu
    exact not_denotes_minus hdrop

private theorem mystrtoulAt_iff {dest v max : Nat} {str : Octets} :
    mystrtoulAt dest str max = (0, v) ↔ mystrtoul str max = .ok v := by
  rw [mystrtoulAt]
  cases mystrtoul str max with
  | ok val => simp
  | error e => cases e <;> simp [Errno.code]

/-- The function parses numerals but for the texts that it takes for numbers by accident. -/
theorem mystrtoul_parses_iff {max : Nat} (hmax : max < 2 ^ 64 - 1) (dest : Nat) (str : Octets) :
    ParsesNumerals dest str max ↔
      str ≠ [] ∧ ∀ u, DenotesNegative str u → u ≠ 0 ∧ (u + max < 2 ^ 64 ∨ 2 ^ 64 ≤ u) := by
  constructor
  · intro h
    refine ⟨?_, fun u hneg => ?_⟩
    · rintro rfl
      have hzero := (h.accepts 0).mp (mystrtoulAt_iff.mpr ((mystrtoul_iff hmax).mpr (.inl ⟨rfl, rfl⟩)))
      rcases denotes_iff.mp hzero.1 with hnum | ⟨num, hdrop, -⟩
      · cases hnum
      · cases hdrop
    · by_contra hwrap
      have hlt : u < 2 ^ 64 := by omega
      have hle : (2 ^ 64 - u) % 2 ^ 64 ≤ max := by omega
      have htaken : mystrtoulAt dest str max = (0, (2 ^ 64 - u) % 2 ^ 64) :=
        mystrtoulAt_iff.mpr ((mystrtoul_iff hmax).mpr (.inr (.inr ⟨u, hneg, hlt, rfl, hle⟩)))
      obtain ⟨num, hdrop, -⟩ := signed_minus.mp hneg
      exact not_denotes_minus hdrop ((h.accepts _).mp htaken).1
  · rintro ⟨hne, hneg⟩
    have hiff (v : Nat) : mystrtoul str max = .ok v ↔ Denotes str v ∧ v ≤ max := by
      rw [mystrtoul_iff hmax]
      refine ⟨fun h => ?_, fun h => .inr (.inl h)⟩
      rcases h with ⟨hnil, -⟩ | h | ⟨u, hu, hlt, hv, hle⟩
      · exact absurd hnil hne
      · exact h
      · have hrange := hneg u hu
        omega
    refine ⟨fun v => mystrtoulAt_iff.trans (hiff v), fun hnone => ?_⟩
    rw [mystrtoulAt]
    cases hresult : mystrtoul str max with
    | ok val => exact absurd ⟨val, ((hiff val).mp hresult).2, ((hiff val).mp hresult).1⟩ hnone
    | error e => exact ⟨e, rfl⟩

/-- The text ` +0x1F`. -/
theorem mystrtoul_parses_hexadecimal :
    mystrtoulAt 7 [0x20, 0x2b, 0x30, 0x78, 0x31, 0x46] VRRP_PRIO_MAX = (0, 31) ∧
      ParsesNumerals 7 [0x20, 0x2b, 0x30, 0x78, 0x31, 0x46] VRRP_PRIO_MAX := by
  refine ⟨by decide, (mystrtoul_parses_iff (by decide) 7 _).mpr ⟨by decide, fun u hneg => ?_⟩⟩
  obtain ⟨num, hdrop, -⟩ := signed_minus.mp hneg
  have hhead : (List.dropWhile isspace [0x20, 0x2b, 0x30, 0x78, 0x31, 0x46]).head? = some 0x2b := by decide
  rw [hdrop] at hhead
  exact absurd (Option.some.inj hhead) (by decide)

def minusWrapped : Octets :=
  [0x2d, 0x31, 0x38, 0x34, 0x34, 0x36, 0x37, 0x34, 0x34, 0x30, 0x37, 0x33, 0x37, 0x30, 0x39, 0x35, 0x35, 0x31, 0x36,
    0x31, 0x35]

/-- The empty text is taken for 0, and a negative number for 1. -/
theorem mystrtoul_misreads :
    (mystrtoulAt 7 [] VRRP_PRIO_MAX = (0, 0) ∧ ¬ ParsesNumerals 7 [] VRRP_PRIO_MAX) ∧
      mystrtoulAt 7 minusWrapped VRRP_PRIO_MAX = (0, 1) ∧ ¬ ParsesNumerals 7 minusWrapped VRRP_PRIO_MAX := by
  have hempty : mystrtoulAt 7 [] VRRP_PRIO_MAX = (0, 0) := by decide
  have hwrap : mystrtoulAt 7 minusWrapped VRRP_PRIO_MAX = (0, 1) := by decide
  refine ⟨⟨hempty, fun h => ?_⟩, hwrap, fun h => ?_⟩
  · rcases denotes_iff.mp ((h.accepts 0).mp hempty).1 with hnum | ⟨num, hdrop, -⟩
    · cases hnum
    · cases hdrop
  · exact not_denotes_minus (show minusWrapped.dropWhile isspace = 0x2d :: minusWrapped.tail from rfl)
      ((h.accepts 1).mp hwrap).1

end Uvrrpd
