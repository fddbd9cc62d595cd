import Mathlib.Data.List.TakeWhile
import Uvrrpd.Packet
import Uvrrpd.Ctrl

/-! `split_cmd` against the words of a text. The loop writes a NUL behind each word
that it finds, and leaves the pointers it does not assign as they are. -/
namespace Uvrrpd

/-- The words of a text without NUL, at most as many as asked for. -/
def wordsOf : Nat → Octets → List Octets
  | 0, _ => []
  | left + 1, text =>
    match text.dropWhile isspace with
    | [] => []
    | c :: cs => (c :: cs).takeWhile (!isspace ·) :: wordsOf left ((c :: cs).dropWhile (!isspace ·))

@[simp] theorem isspace_zero : isspace 0 = false := rfl

theorem wordsOf_blank {text : Octets} (h : ∀ c ∈ text, isspace c) (left : Nat) : wordsOf left text = [] := by
  cases left with
  | zero => rfl
  | succ left => rw [wordsOf, List.dropWhile_eq_nil_iff.mpr h]

/-- A run of blanks begins with no word. -/
private theorem blanks_split {blanks : Octets} (hb : ∀ c ∈ blanks, isspace c) :
    blanks.takeWhile (!isspace ·) = [] ∧ blanks.dropWhile (!isspace ·) = blanks := by
  cases blanks with
  | nil => exact ⟨rfl, rfl⟩
  | cons b bs =>
    have hblank := hb b List.mem_cons_self
    exact ⟨by simp [hblank], by simp [hblank]⟩

/-- Blanks behind a text add no word. -/
theorem wordsOf_append_blanks {blanks : Octets} (hb : ∀ c ∈ blanks, isspace c) (left : Nat) (text : Octets) :
    wordsOf left (text ++ blanks) = wordsOf left text := by
  obtain ⟨hnone, hall⟩ := blanks_split hb
  induction left generalizing text with
  | zero => rfl
  | succ left ih =>
    rw [wordsOf, wordsOf, List.dropWhile_append]
    cases hd : text.dropWhile isspace with
    | nil => simp [List.dropWhile_eq_nil_iff.mpr hb]
    | cons c cs =>
      simp only [List.isEmpty_cons, Bool.false_eq_true, if_false, List.cons_append]
      rw [← List.cons_append, List.takeWhile_append, List.dropWhile_append, hnone, hall, List.append_nil]
      congr 1
      · split
        · next hlen => exact ((List.takeWhile_sublist _).eq_of_length hlen).symm
        · rfl
      · split
        · next hnil => rw [wordsOf_blank hb, List.isEmpty_iff.mp hnil, wordsOf_blank (by simp)]
        · exact ih _

/-- A text is blank, or blanks, a word, and what follows it from a blank on. -/
theorem text_cases (text : Octets) :
    (∀ c ∈ text, isspace c) ∨ ∃ blanks word after, text = blanks ++ (word ++ after) ∧
      (∀ c ∈ blanks, isspace c) ∧ word ≠ [] ∧ (∀ c ∈ word, isspace c = false) ∧
      (after = [] ∨ ∃ b rest, after = b :: rest ∧ isspace b) ∧
      ∀ left, wordsOf (left + 1) text = word :: wordsOf left after := by
  cases hd : text.dropWhile isspace with
  | nil => exact .inl (List.dropWhile_eq_nil_iff.mp hd)
  | cons c cs =>
    have hc : isspace c = false := by
      have hhead := List.head?_dropWhile_not isspace text
      rw [hd] at hhead
      exact hhead
    refine .inr ⟨text.takeWhile isspace, (c :: cs).takeWhile (!isspace ·), (c :: cs).dropWhile (!isspace ·),
      ?_, fun x hx => List.mem_takeWhile_imp hx, by simp [hc], ?_, ?_, ?_⟩
    · rw [List.takeWhile_append_dropWhile, ← hd, List.takeWhile_append_dropWhile]
    · intro x hx
      have hx' := List.mem_takeWhile_imp hx
      simpa using hx'
    · cases ha : (c :: cs).dropWhile (!isspace ·) with
      | nil => exact .inl rfl
      | cons b rest =>
        have hhead := List.head?_dropWhile_not (!isspace ·) (c :: cs)
        rw [ha] at hhead
        exact .inr ⟨b, rest, rfl, by simpa using hhead⟩
    · intro left
      rw [wordsOf, hd]

/-- Words are parts of the text. -/
theorem wordsOf_subset {left : Nat} {text word : Octets} (h : word ∈ wordsOf left text) :
    ∀ c ∈ word, c ∈ text := by
  induction left generalizing text with
  | zero => simp [wordsOf] at h
  | succ left ih =>
    rcases text_cases text with hblank | ⟨blanks, first, after, rfl, -, -, -, -, hwords⟩
    · rw [wordsOf_blank hblank] at h
      cases h
    · intro c hc
      rw [hwords] at h
      rcases List.mem_cons.mp h with rfl | h
      · exact List.mem_append_right _ (List.mem_append_left _ hc)
      · exact List.mem_append_right _ (List.mem_append_right _ (ih h c hc))

/-- A blank in front of a text makes no difference. -/
private theorem wordsOf_cons_blank {b : UInt8} (hb : isspace b) (left : Nat) (text : Octets) :
    wordsOf left (b :: text) = wordsOf left text := by
  cases left with
  | zero => rfl
  | succ left => rw [wordsOf, wordsOf, List.dropWhile_cons_of_pos hb]

private theorem skipBlanks_blanks {blanks : Octets} (hb : ∀ c ∈ blanks, isspace c) (front : Octets)
    {c : UInt8} (hc : isspace c = false) (rest : Octets) :
    skipBlanks (front ++ (blanks ++ c :: rest)) front.length = (front ++ blanks).length := by
  rw [skipBlanks, List.drop_left, List.takeWhile_append_of_pos hb, List.takeWhile_cons_of_neg (by simp [hc]),
    List.append_nil, List.length_append]

private theorem skipBlanks_stop {msg : Octets} {p : Nat} (h : msg[p]?.getD 0 = 0) : skipBlanks msg p = p := by
  rw [skipBlanks]
  rw [← List.head?_drop] at h
  cases hd : msg.drop p with
  | nil => rfl
  | cons c cs =>
    rw [hd] at h
    obtain rfl : c = 0 := h
    rfl

/-- `strsep` finds the end of a word. -/
private theorem strsep_word {word : Octets} (hw : ∀ c ∈ word, isspace c = false ∧ c ≠ 0) (front : Octets)
    {c : UInt8} (hc : isspace c = true ∨ c = 0) (rest : Octets) :
    strsep (front ++ (word ++ c :: rest)) front.length =
      if isspace c then ((front ++ word ++ [0]) ++ rest, some (front ++ word ++ [0]).length)
      else (front ++ (word ++ c :: rest), none) := by
  have hword : (word ++ c :: rest).takeWhile (fun c => !isspace c && c != 0) = word := by
    rw [List.takeWhile_append_of_pos (fun x hx => by simp [hw x hx]), List.takeWhile_cons_of_neg,
      List.append_nil]
    rcases hc with hc | rfl
    · simp [hc]
    · simp
  have hstop : front.length + word.length = (front ++ word).length := List.length_append.symm
  have hget : (front ++ (word ++ c :: rest))[(front ++ word).length]? = some c := by
    rw [← List.append_assoc, List.getElem?_append_right le_rfl]
    simp
  rw [strsep, List.drop_left, hword, hstop]
  simp only [hget]
  split
  · rw [← List.append_assoc, List.set_append_right _ _ le_rfl]
    simp [Nat.add_assoc]
  · rfl

/-- One turn at the end of the text: nothing is assigned. -/
private theorem splitCmdLoop_stay {left nword p : Nat} {ctrl : VrrpCtrl}
    (h : ctrl.msg[skipBlanks ctrl.msg p]?.getD 0 = 0) :
    splitCmdLoop (left + 1) nword (some p) ctrl =
      if ctrl.cmd[nword]? = some .null then (nword, ctrl)
      else splitCmdLoop left (nword + 1) (some (skipBlanks ctrl.msg p)) ctrl := by
  rw [splitCmdLoop]
  simp only [Option.map_some, h, ne_eq, not_true_eq_false, if_false]

/-- One turn at a word. -/
theorem splitCmdLoop_word {left nword p : Nat} {ctrl : VrrpCtrl} (hlt : nword < ctrl.cmd.length)
    (h : ctrl.msg[skipBlanks ctrl.msg p]?.getD 0 ≠ 0) :
    splitCmdLoop (left + 1) nword (some p) ctrl =
      splitCmdLoop left (nword + 1) (strsep ctrl.msg (skipBlanks ctrl.msg p)).2
        ⟨(strsep ctrl.msg (skipBlanks ctrl.msg p)).1, ctrl.cmd.set nword (.msg (skipBlanks ctrl.msg p))⟩ := by
  rw [splitCmdLoop]
  simp only [Option.map_some, if_pos h, List.getElem?_set_self hlt, Option.some.injEq, reduceCtorEq, if_false]

/-- The same in terms of the text: blanks, a word, and the octet that ends it. -/
private theorem splitCmdLoop_turn {l nword : Nat} {cmd : List CmdPtr} (hlt : nword < cmd.length)
    {blanks word : Octets} (hb : ∀ c ∈ blanks, isspace c) (hne : word ≠ [])
    (hw : ∀ c ∈ word, isspace c = false ∧ c ≠ 0) (front : Octets) {x : UInt8} (hx : isspace x = true ∨ x = 0)
    (tail : Octets) :
    splitCmdLoop (l + 1) nword (some front.length) ⟨front ++ (blanks ++ (word ++ x :: tail)), cmd⟩ =
      if isspace x then splitCmdLoop l (nword + 1) (some (front ++ blanks ++ word ++ [0]).length)
        ⟨(front ++ blanks ++ word ++ [0]) ++ tail, cmd.set nword (.msg (front ++ blanks).length)⟩
      else splitCmdLoop l (nword + 1) none
        ⟨front ++ (blanks ++ (word ++ x :: tail)), cmd.set nword (.msg (front ++ blanks).length)⟩ := by
  obtain ⟨c, cs, hword⟩ := List.exists_cons_of_ne_nil hne
  obtain ⟨hc, hcz⟩ := hw c (by rw [hword]; exact List.mem_cons_self)
  have hskip : skipBlanks (front ++ (blanks ++ (word ++ x :: tail))) front.length = (front ++ blanks).length := by
    rw [hword]
    exact skipBlanks_blanks hb front hc (cs ++ x :: tail)
  have hget : (front ++ (blanks ++ (word ++ x :: tail)))[(front ++ blanks).length]? = some c := by
    rw [← List.append_assoc, List.getElem?_append_right le_rfl, Nat.sub_self, hword]
    rfl
  rw [splitCmdLoop_word hlt (by rw [hskip, hget]; exact hcz)]
  simp only [hskip]
  rw [← List.append_assoc front blanks, strsep_word hw _ hx]
  split
  · rfl
  · rfl

/-- With no word left, the pointers at hand decide where the loop ends. -/
private theorem splitCmdLoop_done (left nword : Nat) (str : Option Nat) (ctrl : VrrpCtrl)
    (hlen : ctrl.cmd.length = nword + left)
    (hstr : ∀ p, str = some p → ctrl.msg[skipBlanks ctrl.msg p]?.getD 0 = 0) :
    splitCmdLoop left nword str ctrl =
      (nword + ((ctrl.cmd.drop nword).takeWhile (· != .null)).length, ctrl) := by
  induction left generalizing nword str with
  | zero =>
    rw [List.drop_eq_nil_of_le (by omega)]
    rfl
  | succ left ih =>
    have hlt : nword < ctrl.cmd.length := by omega
    obtain ⟨next, hnext, heq⟩ : ∃ next : Option Nat,
        (∀ p, next = some p → ctrl.msg[skipBlanks ctrl.msg p]?.getD 0 = 0) ∧
        splitCmdLoop (left + 1) nword str ctrl = if ctrl.cmd[nword]? = some .null then (nword, ctrl)
          else splitCmdLoop left (nword + 1) next ctrl := by
      cases str with
      | none => exact ⟨none, by simp, rfl⟩
      | some p =>
        refine ⟨_, ?_, splitCmdLoop_stay (hstr p rfl)⟩
        intro q hq
        obtain rfl := Option.some.inj hq
        rw [skipBlanks_stop (hstr p rfl)]
        exact hstr p rfl
    rw [heq, List.drop_eq_getElem_cons hlt, List.getElem?_eq_getElem hlt, List.takeWhile_cons]
    by_cases hnull : ctrl.cmd[nword] = .null
    · rw [if_pos (congrArg some hnull), hnull]
      rfl
    · rw [if_neg (fun h => hnull (Option.some.inj h)), ih (nword + 1) next (by omega) hnext]
      simp only [bne_iff_ne, ne_eq, hnull, not_false_eq_true, if_true, List.length_cons]
      congr 1
      omega

/-- What the loop makes of a text behind a front that it does not touch: the words
found stand in the message, each with a NUL behind it, and their pointers in the array. -/
structure SplitInto (left nword : Nat) (front text rest : Octets) (cmd : List CmdPtr) (back : Octets)
    (cmd' : List CmdPtr) : Prop where
  loop : splitCmdLoop left nword (some front.length) ⟨front ++ (text ++ 0 :: rest), cmd⟩ =
    (nword + (wordsOf left text).length +
      ((cmd.drop (nword + (wordsOf left text).length)).takeWhile (· != .null)).length,
      ⟨front ++ back, cmd.take nword ++ cmd'⟩)
  back_length : back.length = (text ++ 0 :: rest).length
  cmd_length : cmd'.length = left
  wordless : wordsOf left text = [] → back = text ++ 0 :: rest ∧ cmd' = cmd.drop nword
  found : ∀ (i : Nat) (word : Octets), (wordsOf left text)[i]? = some word →
    ∃ p tail, cmd'[i]? = some (.msg p) ∧ (front ++ back).drop p = word ++ 0 :: tail

private theorem SplitInto.full {nword : Nat} {cmd : List CmdPtr} (hlen : cmd.length = nword)
    (front text rest : Octets) : SplitInto 0 nword front text rest cmd (text ++ 0 :: rest) [] where
  loop := by
    rw [List.drop_eq_nil_of_le (by rw [wordsOf]; simp; omega), List.append_nil,
      List.take_of_length_le (by omega)]
    rfl
  back_length := rfl
  cmd_length := rfl
  wordless := fun _ => ⟨rfl, (List.drop_eq_nil_of_le (by omega)).symm⟩
  found := by simp [wordsOf]

private theorem SplitInto.blank {left nword : Nat} {cmd : List CmdPtr} (hlen : cmd.length = nword + left)
    {text : Octets} (hblank : ∀ c ∈ text, isspace c) (front rest : Octets) :
    SplitInto left nword front text rest cmd (text ++ 0 :: rest) (cmd.drop nword) where
  loop := by
    have hskip := skipBlanks_blanks hblank front isspace_zero rest
    rw [wordsOf_blank hblank, splitCmdLoop_done _ _ _ _ hlen, List.take_append_drop]
    · rfl
    · intro p hp
      obtain rfl := Option.some.inj hp
      simp only [hskip]
      rw [← List.append_assoc, List.getElem?_append_right le_rfl]
      simp
  back_length := rfl
  cmd_length := by
    rw [List.length_drop]
    omega
  wordless := fun _ => ⟨rfl, rfl⟩
  found := by simp [wordsOf_blank hblank]

section Word
variable {left nword : Nat} {cmd : List CmdPtr} {blanks word : Octets}

private theorem drop_to_word (front blanks : Octets) (word tail : Octets) :
    (front ++ (blanks ++ (word ++ 0 :: tail))).drop (front ++ blanks).length = word ++ 0 :: tail := by
  rw [← List.append_assoc]
  exact List.drop_left

/-- The word is the last of the text. -/
private theorem SplitInto.last (hlen : cmd.length = nword + (left + 1)) (hb : ∀ c ∈ blanks, isspace c)
    (hne : word ≠ []) (hw : ∀ c ∈ word, isspace c = false ∧ c ≠ 0)
    (hwords : wordsOf (left + 1) (blanks ++ (word ++ [])) = [word]) (front rest : Octets) :
    SplitInto (left + 1) nword front (blanks ++ (word ++ [])) rest cmd (blanks ++ (word ++ 0 :: rest))
      (.msg (front ++ blanks).length :: cmd.drop (nword + 1)) where
  loop := by
    have hlt : nword < cmd.length := by omega
    have hturn := splitCmdLoop_turn (l := left) hlt hb hne hw front (.inr rfl) rest
    rw [isspace_zero, if_neg (by decide)] at hturn
    have hdone := splitCmdLoop_done left (nword + 1) none
      ⟨front ++ (blanks ++ (word ++ 0 :: rest)), cmd.set nword (.msg (front ++ blanks).length)⟩
      (by rw [List.length_set]; omega) (by simp)
    rw [hwords, List.append_nil, List.append_assoc blanks, hturn, hdone,
      List.drop_set_of_lt (Nat.lt_succ_self nword), List.set_eq_take_append_cons_drop, if_pos hlt]
    rfl
  back_length := by simp
  cmd_length := by
    rw [List.length_cons, List.length_drop]
    omega
  wordless := by
    rw [hwords]
    simp
  found := by
    intro i found hi
    rw [hwords] at hi
    cases i with
    | succ i => simp at hi
    | zero =>
      obtain rfl : word = found := by simpa using hi
      exact ⟨_, rest, rfl, drop_to_word front blanks word rest⟩

/-- A blank ends the word, and the loop goes on behind it. -/
private theorem SplitInto.more (hlen : cmd.length = nword + (left + 1)) (hb : ∀ c ∈ blanks, isspace c)
    (hne : word ≠ []) (hw : ∀ c ∈ word, isspace c = false ∧ c ≠ 0) {b : UInt8} (hblank : isspace b)
    {front more rest back : Octets} {cmd' : List CmdPtr}
    (hwords : wordsOf (left + 1) (blanks ++ (word ++ b :: more)) = word :: wordsOf left more)
    (h : SplitInto left (nword + 1) (front ++ blanks ++ word ++ [0]) more rest
      (cmd.set nword (.msg (front ++ blanks).length)) back cmd') :
    SplitInto (left + 1) nword front (blanks ++ (word ++ b :: more)) rest cmd (blanks ++ (word ++ 0 :: back))
      (.msg (front ++ blanks).length :: cmd') where
  loop := by
    have hlt : nword < cmd.length := by omega
    have hturn := splitCmdLoop_turn (l := left) hlt hb hne hw front (.inl hblank) (more ++ 0 :: rest)
    rw [if_pos hblank] at hturn
    have hmsg : blanks ++ (word ++ b :: more) ++ 0 :: rest = blanks ++ (word ++ b :: (more ++ 0 :: rest)) := by
      simp only [List.append_assoc, List.cons_append]
    have hback : front ++ blanks ++ word ++ [0] ++ back = front ++ (blanks ++ (word ++ 0 :: back)) := by
      simp only [List.append_assoc, List.cons_append, List.nil_append]
    have htake : (cmd.set nword (.msg (front ++ blanks).length)).take (nword + 1) =
        cmd.take nword ++ [.msg (front ++ blanks).length] := by
      rw [List.take_succ_eq_append_getElem (by rw [List.length_set]; exact hlt), List.getElem_set_self,
        List.take_set_of_le le_rfl]
    rw [hwords, List.length_cons, hmsg, hturn, h.loop, hback, htake, List.drop_set_of_lt (by omega),
      List.append_assoc (cmd.take nword), Nat.add_assoc nword 1, Nat.add_comm 1]
    rfl
  back_length := by
    have hbl := h.back_length
    simp only [List.length_append, List.length_cons] at hbl ⊢
    omega
  cmd_length := by rw [List.length_cons, h.cmd_length]
  wordless := by simp [hwords]
  found := by
    intro i found hi
    rw [hwords] at hi
    cases i with
    | zero =>
      obtain rfl : word = found := by simpa using hi
      exact ⟨_, back, rfl, drop_to_word front blanks word back⟩
    | succ i =>
      obtain ⟨p, tail, hp, hdrop⟩ := h.found i found hi
      refine ⟨p, tail, hp, ?_⟩
      rw [← hdrop]
      simp only [List.append_assoc, List.cons_append, List.nil_append]

end Word

/-- The loop splits every text, by its blanks and words from the left. -/
private theorem splitCmdLoop_spec (left nword : Nat) (front text rest : Octets) (cmd : List CmdPtr)
    (ht : 0 ∉ text) (hlen : cmd.length = nword + left) :
    ∃ back cmd', SplitInto left nword front text rest cmd back cmd' := by
  induction left generalizing nword front text cmd with
  | zero => exact ⟨_, _, .full hlen front text rest⟩
  | succ left ih =>
    rcases text_cases text with hblank | ⟨blanks, word, after, rfl, hb, hne, hw, hafter, hwords⟩
    · exact ⟨_, _, .blank hlen hblank front rest⟩
    have hwz : ∀ x ∈ word, isspace x = false ∧ x ≠ 0 := by
      intro x hx
      refine ⟨hw x hx, ?_⟩
      rintro rfl
      exact ht (List.mem_append_right _ (List.mem_append_left _ hx))
    rcases hafter with rfl | ⟨b, more, rfl, hblank⟩
    · have hone : wordsOf (left + 1) (blanks ++ (word ++ [])) = [word] := by
        rw [hwords, wordsOf_blank (by simp)]
      exact ⟨_, _, .last hlen hb hne hwz hone front rest⟩
    · obtain ⟨back, cmd', hrest⟩ := ih (nword + 1) (front ++ blanks ++ word ++ [0]) more
        (cmd.set nword (.msg (front ++ blanks).length)) (fun h => ht (by simp [h]))
        (by rw [List.length_set]; omega)
      have hcons : wordsOf (left + 1) (blanks ++ (word ++ b :: more)) = word :: wordsOf left more := by
        rw [hwords, wordsOf_cons_blank hblank]
      exact ⟨_, _, .more hlen hb hne hwz hblank hcons hrest⟩

/-- `split_cmd` on a whole message. -/
theorem splitCmd_spec {text : Octets} (rest : Octets) {cmd : List CmdPtr} (ht : 0 ∉ text)
    (hlen : cmd.length = CTRL_CMD_NTOKEN) :
    ∃ ctrl, splitCmd ⟨text ++ 0 :: rest, cmd⟩ = ((wordsOf CTRL_CMD_NTOKEN text).length +
        ((cmd.drop (wordsOf CTRL_CMD_NTOKEN text).length).takeWhile (· != .null)).length, ctrl) ∧
      ctrl.msg.length = (text ++ 0 :: rest).length ∧ ctrl.cmd.length = CTRL_CMD_NTOKEN ∧
      (wordsOf CTRL_CMD_NTOKEN text = [] → ctrl = ⟨text ++ 0 :: rest, cmd⟩) ∧
      ∀ (i : Nat) (word : Octets), (wordsOf CTRL_CMD_NTOKEN text)[i]? = some word →
        ∃ tail, wordAt ctrl i = .ok (word ++ 0 :: tail) := by
  obtain ⟨back, cmd', h⟩ :=
    splitCmdLoop_spec CTRL_CMD_NTOKEN 0 [] text rest cmd ht (by rw [hlen, Nat.zero_add])
  have hloop := h.loop
  rw [Nat.zero_add] at hloop
  refine ⟨_, hloop, h.back_length, h.cmd_length, ?_, ?_⟩
  · intro hnone
    obtain ⟨rfl, rfl⟩ := h.wordless hnone
    rfl
  · intro i word hi
    obtain ⟨p, tail, hp, hdrop⟩ := h.found i word hi
    refine ⟨tail, ?_⟩
    rw [wordAt]
    simp only [List.take_zero, List.nil_append, hp]
    exact congrArg Except.ok hdrop

theorem takeWhile_nul {word : Octets} (hw : 0 ∉ word) (tail : Octets) :
    (word ++ 0 :: tail).takeWhile (· != 0) = word := by
  rw [List.takeWhile_append_of_pos, List.takeWhile_cons_of_neg (by simp), List.append_nil]
  intro c hc
  rw [bne_iff_ne]
  rintro rfl
  exact hw hc

theorem matchesWord_iff {word text : Octets} (hw : 0 ∉ word) (ht : 0 ∉ text) (tail : Octets) :
    matchesWord (word ++ 0 :: tail) text = true ↔ word = text := by
  rw [matchesWord, beq_iff_eq]
  constructor
  · intro h
    have hsplit := List.take_append_drop (text.length + 1) (word ++ 0 :: tail)
    rw [h, List.append_assoc] at hsplit
    rw [← takeWhile_nul hw tail, ← hsplit]
    exact takeWhile_nul ht _
  · rintro rfl
    have hone : word ++ 0 :: tail = (word ++ [0]) ++ tail := by simp
    rw [hone, List.take_left' (by simp)]

/-- What stands before the first NUL is followed by it. -/
theorem split_nul (mem : Octets) (h : 0 ∈ mem) :
    ∃ rest, mem = mem.takeWhile (· != 0) ++ 0 :: rest := by
  cases hd : mem.dropWhile (· != 0) with
  | nil =>
    have hall := List.dropWhile_eq_nil_iff.mp hd 0 h
    simp at hall
  | cons c rest =>
    have hhead := List.head?_dropWhile_not (· != 0) mem
    rw [hd] at hhead
    obtain rfl : c = 0 := by simpa using hhead
    exact ⟨rest, by rw [← hd, List.takeWhile_append_dropWhile]⟩

theorem nul_not_mem_takeWhile (mem : Octets) : 0 ∉ mem.takeWhile (· != 0) := by
  intro h
  have hne := List.mem_takeWhile_imp h
  simp at hne

end Uvrrpd
