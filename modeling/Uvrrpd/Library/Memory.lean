import Mathlib.Data.List.Basic

/-! Flat memory of finite extent. A range that leaves the memory has no value,
so a successful access is also a proof that the access was in bounds. -/
namespace Library.Memory
variable {α ε : Type}

def read (mem : List α) (i n : Nat) : Option (List α) :=
  if i + n ≤ mem.length then some ((mem.drop i).take n) else none

def write (mem : List α) (i : Nat) (new : List α) : Option (List α) :=
  if i + new.length ≤ mem.length then
    some (mem.take i ++ new ++ mem.drop (i + new.length))
  else none

theorem read_eq_some {mem out : List α} {i n : Nat} :
    read mem i n = some out ↔ i + n ≤ mem.length ∧ (mem.drop i).take n = out := by
  rw [read]
  split
  · next h => simp [h]
  · next h => simp [h]

theorem read_eq_none {mem : List α} {i n : Nat} : read mem i n = none ↔ mem.length < i + n := by
  rw [read]
  split <;> simp_all

theorem write_eq_some {mem new out : List α} {i : Nat} :
    write mem i new = some out ↔
      i + new.length ≤ mem.length ∧ mem.take i ++ new ++ mem.drop (i + new.length) = out := by
  rw [write]
  split
  · next h => simp [h]
  · next h => simp [h]

/-- Memory taken apart at an offset. -/
theorem exists_split {mem : List α} {i n : Nat} (h : mem.length = i + n) :
    ∃ front back, mem = front ++ back ∧ front.length = i ∧ back.length = n := by
  refine ⟨mem.take i, mem.drop i, (List.take_append_drop i mem).symm, ?_, ?_⟩
  · rw [List.length_take]
    omega
  · rw [List.length_drop]
    omega

/-- A range of memory, with what stands in front of it and behind it. -/
theorem exists_range {mem : List α} {i n : Nat} (h : i + n ≤ mem.length) :
    ∃ front mid back, mem = front ++ (mid ++ back) ∧ front.length = i ∧ mid.length = n := by
  obtain ⟨front, tail, rfl, hfront, htail⟩ := exists_split (show mem.length = i + (mem.length - i) by omega)
  obtain ⟨mid, back, rfl, hmid, -⟩ := exists_split (show tail.length = n + (tail.length - n) by omega)
  exact ⟨front, mid, back, rfl, hfront, hmid⟩

/-- Memory taken apart in pieces of one size. -/
theorem exists_pieces (n k : Nat) {mem : List α} (h : n * k ≤ mem.length) :
    ∃ (pieces : List (List α)) (back : List α), mem = pieces.flatten ++ back ∧ pieces.length = n ∧
      ∀ piece ∈ pieces, piece.length = k := by
  induction n generalizing mem with
  | zero => exact ⟨[], mem, rfl, rfl, by simp⟩
  | succ n ih =>
    rw [Nat.succ_mul] at h
    obtain ⟨piece, rest, rfl, hpiece, hrest⟩ := exists_split (show mem.length = k + (mem.length - k) by omega)
    obtain ⟨pieces, back, rfl, hlen, hall⟩ := ih (show n * k ≤ rest.length by omega)
    refine ⟨piece :: pieces, back, by simp, by simp [hlen], ?_⟩
    intro p hp
    rcases List.mem_cons.mp hp with rfl | hp
    · exact hpiece
    · exact hall p hp

/-- Cells behind the end of the memory cannot influence a read that succeeds. -/
theorem read_extend {mem out : List α} {i n : Nat} (h : read mem i n = some out)
    (rest : List α) : read (mem ++ rest) i n = some out := by
  obtain ⟨hb, rfl⟩ := read_eq_some.mp h
  refine read_eq_some.mpr ⟨by rw [List.length_append]; omega, ?_⟩
  rw [List.drop_append_of_le_length (by omega),
    List.take_append_of_le_length (by rw [List.length_drop]; omega)]

/-- A write that succeeds leaves the cells behind the end of the memory alone. -/
theorem write_extend {mem new out : List α} {i : Nat} (h : write mem i new = some out)
    (rest : List α) : write (mem ++ rest) i new = some (out ++ rest) := by
  obtain ⟨hb, rfl⟩ := write_eq_some.mp h
  refine write_eq_some.mpr ⟨by rw [List.length_append]; omega, ?_⟩
  rw [List.take_append_of_le_length (by omega), List.drop_append_of_le_length (by omega)]
  simp only [List.append_assoc]

theorem read_middle (front mid back : List α) :
    read (front ++ (mid ++ back)) front.length mid.length = some mid := by
  refine read_eq_some.mpr ⟨by simp, ?_⟩
  rw [List.drop_left, List.take_left]

theorem write_middle (front mid back new : List α) (h : new.length = mid.length) :
    write (front ++ (mid ++ back)) front.length new = some (front ++ (new ++ back)) := by
  refine write_eq_some.mpr ⟨by simp [h], ?_⟩
  rw [List.take_left, h, List.drop_append, List.drop_append]
  simp

/-- Sequencing of computations that may fault: a successful run had successful parts. -/
theorem bind_eq_ok {β γ : Type} {x : Except ε β} {f : β → Except ε γ} {r : γ} :
    x >>= f = .ok r ↔ ∃ a, x = .ok a ∧ f a = .ok r := by
  cases x with
  | error e => simp [bind, Except.bind]
  | ok a => simp [bind, Except.bind]

def Avoids {β : Type} (e : ε) (x : Except ε β) : Prop := x ≠ .error e

theorem Avoids.ok {β : Type} {e : ε} (a : β) : Avoids e (.ok a) := by
  intro h
  cases h

theorem Avoids.error {β : Type} {e e' : ε} (h : e' ≠ e) : Avoids e (.error e' : Except ε β) := by
  intro he
  exact h (Except.error.inj he)

theorem Avoids.bind {β γ : Type} {e : ε} {x : Except ε β} {f : β → Except ε γ} (hx : Avoids e x)
    (hf : ∀ a, Avoids e (f a)) : Avoids e (x >>= f) := by
  cases x with
  | error e' => exact .error (fun he => hx (by rw [he]))
  | ok a => exact hf a

end Library.Memory
