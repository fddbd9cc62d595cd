import Uvrrpd.Process

/-! The control register as a set of bits, and what signal handlers do to it. -/
namespace Uvrrpd

private theorem getLsbD_bitMask {nr : Nat} (h : nr < 64) (i : Nat) :
    (bitMask nr).getLsbD i = decide (i = nr) := by
  simp only [bitMask, BitVec.getLsbD_shiftLeft]
  by_cases hi : i = nr
  · simp [hi, h]
  · rcases Nat.lt_or_ge i nr with hlt | hge
    · simp [hi, hlt]
    · have : i - nr ≠ 0 := by omega
      simp [hi, this]

private theorem bne_zero_iff (reg : Reg) : (reg != 0#64) = true ↔ ∃ i, reg.getLsbD i = true := by
  constructor
  · intro h
    by_contra hn
    push Not at hn
    have : reg = 0#64 := BitVec.eq_of_getLsbD_eq (by simpa using fun i _ => hn i)
    simp [this] at h
  · rintro ⟨i, hi⟩
    simp only [bne_iff_ne, ne_eq]
    rintro rfl
    simp at hi

private theorem testBit_eq (nr : Nat) (reg : Reg) : testBit nr reg = reg.getLsbD nr := by
  rw [Bool.eq_iff_iff, testBit, bne_zero_iff]
  constructor
  · rintro ⟨i, hi⟩
    simp only [BitVec.getLsbD_and, BitVec.getLsbD_ushiftRight, Bool.and_eq_true] at hi
    obtain ⟨hz, hv⟩ := hi
    obtain rfl : i = 0 := by simpa using hz
    simpa using hv
  · intro hr
    exact ⟨0, by simp [hr]⟩

@[simp] theorem testBit_setBit (nr i : Nat) (reg : Reg) (h : nr < 64) :
    testBit i (setBit nr reg) = (testBit i reg || decide (i = nr)) := by
  rw [testBit_eq, testBit_eq, setBit, BitVec.getLsbD_or, getLsbD_bitMask h]

@[simp] theorem testBit_clearBit (nr i : Nat) (reg : Reg) (h : nr < 64) :
    testBit i (clearBit nr reg) = (testBit i reg && !decide (i = nr)) := by
  rw [testBit_eq, testBit_eq, clearBit, BitVec.getLsbD_and, BitVec.getLsbD_not, getLsbD_bitMask h]
  by_cases hi : i < 64
  · simp [hi]
  · rw [BitVec.getLsbD_of_ge reg i (by omega), Bool.false_and, Bool.false_and]

theorem clearBit_of_clear {nr : Nat} {reg : Reg} (h : nr < 64) (hc : testBit nr reg = false) :
    clearBit nr reg = reg := by
  apply BitVec.eq_of_getLsbD_eq
  intro i _
  rw [← testBit_eq, ← testBit_eq, testBit_clearBit _ _ _ h]
  by_cases hi : i = nr
  · simp [hi, hc]
  · simp [hi]

@[simp] theorem testAndClearBit_snd (nr : Nat) (reg : Reg) :
    (testAndClearBit nr reg).2 = clearBit nr reg := rfl

@[simp] theorem testAndClearBit_fst (nr : Nat) (reg : Reg) (h : nr < 64) :
    (testAndClearBit nr reg).1 = testBit nr reg := by
  rw [testBit_eq, Bool.eq_iff_iff, testAndClearBit, bne_zero_iff]
  constructor
  · rintro ⟨i, hi⟩
    simp only [BitVec.getLsbD_and, getLsbD_bitMask h, Bool.and_eq_true, decide_eq_true_eq] at hi
    obtain ⟨hv, rfl⟩ := hi
    exact hv
  · intro hr
    exact ⟨nr, by simp [hr, getLsbD_bitMask h]⟩

/-- A register in which the loop is not told to stop without being told to reload. -/
def StopReloads (reg : Reg) : Prop := testBit KEEP_GOING reg = false → testBit UVRRPD_RELOAD reg = true

theorem StopReloads.of_keepGoing {reg : Reg} (h : testBit KEEP_GOING reg = true) :
    StopReloads reg := by
  intro hk
  rw [h] at hk
  cases hk

/-- No handler takes the reload bit back. -/
theorem StopReloads.signalHandler {reg : Reg} (h : StopReloads reg) (signal : Signal) :
    StopReloads (signalHandler reg signal) := by
  rw [StopReloads] at *
  cases signal <;> simp_all [Uvrrpd.signalHandler, KEEP_GOING, UVRRPD_RELOAD, UVRRPD_DUMP, UVRRPD_LOGOUT]

theorem StopReloads.signals {reg : Reg} (h : StopReloads reg) (signals : List Signal) :
    StopReloads (signals.foldl Uvrrpd.signalHandler reg) := by
  induction signals generalizing reg with
  | nil => exact h
  | cons signal rest ih => exact ih (h.signalHandler signal)

end Uvrrpd
