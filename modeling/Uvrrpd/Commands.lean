import Uvrrpd.AdvFormat
import Uvrrpd.Steps
import Uvrrpd.Words

/-! What a control message means, against what `vrrp_ctrl_read` makes of it. The
buffer and the word pointers survive a message that is not answered with a flush,
and the pointers are never initialised, so a message means what it says only where
neither matters. -/
namespace Uvrrpd
open Library.Memory (bind_eq_ok)
open Library.Runs

/-- The text of a message: of the octets that are kept, those before the first NUL. -/
def textOf (written : Octets) : Octets := (written.take (CTRL_MAXCHAR - 1)).takeWhile (· != 0)

def commandWords (written : Octets) : List Octets := wordsOf CTRL_CMD_NTOKEN (textOf written)

inductive Command where
  | stop
  | reload
  | dump
  | prio (value : UInt8)
  | unknown
  deriving DecidableEq

def Command.ofWords : List Octets → Command
  | [] => .unknown
  | word :: args =>
    if word = cmdStop then .stop
    else if word = cmdReload then .reload
    else if word = cmdState ∨ word = cmdStatus then .dump
    else if word = cmdPrio then
      match args with
      | [arg] =>
        match mystrtoul arg VRRP_PRIO_MAX with
        | .ok opt => .prio (UInt8.ofNat opt)
        | .error _ => .unknown
      | _ => .unknown
    else .unknown

def Command.of (written : Octets) : Command := .ofWords (commandWords written)

structure Outcome where
  event : VrrpEvent
  priority : UInt8
  vnet : VrrpNet
  reg : Reg

def CtrlEffect.outcome (r : CtrlEffect) : Outcome := ⟨r.event, r.vrrp.priority, r.vnet, r.reg⟩

def Command.perform (host : ByteOrder) (priority : UInt8) (vnet : VrrpNet) (reg : Reg) :
    Command → Except Fault Outcome
  | .stop => .ok ⟨.ctrlFifo, priority, vnet, clearBit KEEP_GOING (setBit UVRRPD_RELOAD reg)⟩
  | .reload => .ok ⟨.ctrlFifo, priority, vnet, setBit UVRRPD_RELOAD reg⟩
  | .dump => .ok ⟨.ctrlFifo, priority, vnet, setBit UVRRPD_DUMP reg⟩
  | .prio value =>
    if priority ≠ value then do
      let vnet ← vrrpAdvSetPriority host vnet value
      return ⟨.ctrlFifo, value, vnet, setBit UVRRPD_RELOAD reg⟩
    else .ok ⟨.ctrlFifo, priority, vnet, setBit UVRRPD_RELOAD reg⟩
  | .unknown => .ok ⟨.invalid, priority, vnet, reg⟩

/-- The pointers behind the words of a message do not matter: where there is no word
the first of them is looked at, and `prio` counts up to the first that is NULL. -/
def Indifferent (cmd : List CmdPtr) (words : List Octets) : Prop :=
  match words with
  | [] => cmd[0]? = some .null
  | [word] => word ≠ cmdPrio ∨ cmd[1]? = some .null ∨ cmd[2]? ≠ some .null
  | [word, arg] => word ≠ cmdPrio ∨ cmd[2]? = some .null ∨ ∃ e, mystrtoul arg VRRP_PRIO_MAX = .error e
  | _ => True

/-- The message does not hide anything behind a NUL that only blanks precede. -/
def Plain (written : Octets) : Prop :=
  commandWords written ≠ [] ∨ ∀ c ∈ written.take (CTRL_MAXCHAR - 1), c = 0 ∨ isspace c = true

structure CtrlInput where
  written : Octets
  vrrp : Vrrp
  vnet : VrrpNet
  reg : Reg

/-- The buffer is all that one call hands to the next; everything else may change in
between. -/
def ctrlStep (host : ByteOrder) (i : CtrlInput) (ctrl : VrrpCtrl) :
    Except Fault (VrrpCtrl × List CtrlEffect) := do
  let r ← vrrpCtrlRead host i.written { i.vrrp with ctrl := ctrl } i.vnet i.reg
  return (r.vrrp.ctrl, [r])

private theorem ctrlPrio_refused (host : ByteOrder) {nword : Nat} (hn : nword ≠ 2) (vrrp : Vrrp)
    (vnet : VrrpNet) (reg : Reg) : (ctrlPrio host nword vrrp vnet reg).map CtrlEffect.outcome =
      Command.perform host vrrp.priority vnet reg .unknown := by
  rw [ctrlPrio, if_pos hn]
  rfl

/-- With two words, the second is the number. -/
private theorem ctrlPrio_arg (host : ByteOrder) {vrrp : Vrrp} {arg tail : Octets}
    (hat : wordAt vrrp.ctrl 1 = .ok (arg ++ 0 :: tail)) (ha : 0 ∉ arg) (vnet : VrrpNet) (reg : Reg) :
    (ctrlPrio host 2 vrrp vnet reg).map CtrlEffect.outcome =
      (Command.ofWords [cmdPrio, arg]).perform host vrrp.priority vnet reg := by
  have hof : Command.ofWords [cmdPrio, arg] = match mystrtoul arg VRRP_PRIO_MAX with
      | .ok opt => .prio (UInt8.ofNat opt)
      | .error _ => .unknown := rfl
  rw [hof, ctrlPrio, if_neg (by simp), hat, ok_bind, takeWhile_nul ha]
  cases mystrtoul arg VRRP_PRIO_MAX with
  | error e => rfl
  | ok opt =>
    simp only [Command.perform]
    split
    · cases vrrpAdvSetPriority host vnet (UInt8.ofNat opt) <;> rfl
    · rfl

/-- `prio`, however the words are counted. -/
private theorem ctrlPrio_spec (host : ByteOrder) {cmd : List CmdPtr} (hlen : cmd.length = CTRL_CMD_NTOKEN)
    {args : List Octets} (hind : Indifferent cmd (cmdPrio :: args)) {vrrp : Vrrp}
    (hfound : ∀ arg, args[0]? = some arg → 0 ∉ arg ∧ ∃ tail, wordAt vrrp.ctrl 1 = .ok (arg ++ 0 :: tail))
    (vnet : VrrpNet) (reg : Reg) :
    (ctrlPrio host (args.length + 1 + ((cmd.drop (args.length + 1)).takeWhile (· != .null)).length)
        vrrp vnet reg).map CtrlEffect.outcome =
      (Command.ofWords (cmdPrio :: args)).perform host vrrp.priority vnet reg := by
  obtain ⟨x, y, z, rfl⟩ := List.length_eq_three.mp hlen
  rcases args with _ | ⟨arg, _ | ⟨second, more⟩⟩
  · -- without an argument, two would have to be counted from the pointers alone
    apply ctrlPrio_refused
    rcases hind with hprio | hy | hz
    · exact absurd rfl hprio
    · obtain rfl : y = .null := by simpa using hy
      simp
    · have hz' : z ≠ .null := by simpa using hz
      by_cases hy : y = .null
      · simp [hy]
      · simp [hy, hz']
  · obtain ⟨harg, tail, hat⟩ := hfound arg rfl
    by_cases hz : z = .null
    · subst hz
      exact ctrlPrio_arg host hat harg vnet reg
    · obtain ⟨e, he⟩ : ∃ e, mystrtoul arg VRRP_PRIO_MAX = .error e := by
        rcases hind with hprio | hnull | he
        · exact absurd rfl hprio
        · exact absurd (by simpa using hnull) hz
        · exact he
      have hunknown : Command.ofWords [cmdPrio, arg] = .unknown := by
        simp only [Command.ofWords, he]
        rfl
      rw [hunknown]
      apply ctrlPrio_refused
      simp [hz]
  · apply ctrlPrio_refused
    simp

/-- A buffer that starts with a text, and pointers that do not matter: the text says
what is done. -/
private theorem vrrpCtrlCmd_spec (host : ByteOrder) (vrrp : Vrrp) {text rest : Octets} {cmd : List CmdPtr}
    (hctrl : vrrp.ctrl = ⟨text ++ 0 :: rest, cmd⟩) (ht : 0 ∉ text) (hlen : cmd.length = CTRL_CMD_NTOKEN)
    (hind : Indifferent cmd (wordsOf CTRL_CMD_NTOKEN text)) (vnet : VrrpNet) (reg : Reg) :
    (vrrpCtrlCmd host vrrp vnet reg).map CtrlEffect.outcome =
      (Command.ofWords (wordsOf CTRL_CMD_NTOKEN text)).perform host vrrp.priority vnet reg := by
  obtain ⟨ctrl, hsplit, -, -, -, hfound⟩ := splitCmd_spec rest ht hlen
  have hsub : ∀ word ∈ wordsOf CTRL_CMD_NTOKEN text, 0 ∉ word :=
    fun word hm h => ht (wordsOf_subset hm 0 h)
  rw [vrrpCtrlCmd, hctrl, hsplit]
  generalize wordsOf CTRL_CMD_NTOKEN text = words at hind hfound hsub ⊢
  cases words with
  | nil =>
    obtain ⟨x, y, z, rfl⟩ := List.length_eq_three.mp hlen
    obtain rfl : x = .null := by simpa [Indifferent] using hind
    rfl
  | cons word args =>
    obtain ⟨tail, hat⟩ := hfound 0 word rfl
    have hword (text : Octets) (h : 0 ∉ text) : matchesWord (word ++ 0 :: tail) text = decide (word = text) := by
      rw [Bool.eq_iff_iff, matchesWord_iff (hsub word List.mem_cons_self) h, decide_eq_true_iff]
    simp only [List.length_cons]
    rw [if_neg (by omega), hat, ok_bind]
    simp only [hword cmdStop (by decide), hword cmdReload (by decide), hword cmdState (by decide),
      hword cmdStatus (by decide), hword cmdPrio (by decide), Command.ofWords, Bool.or_eq_true,
      decide_eq_true_iff]
    split
    · rfl
    split
    · rfl
    split
    · rfl
    split
    · next hprio =>
      subst hprio
      refine ctrlPrio_spec host hlen hind ?_ vnet reg
      intro arg harg
      have hmem : arg ∈ args := List.mem_of_getElem? harg
      exact ⟨hsub arg (List.mem_cons_of_mem _ hmem), hfound 1 arg harg⟩
    · rfl

structure Clean (msg : Octets) : Prop where
  length : msg.length = CTRL_MAXCHAR
  blank : ∀ c ∈ msg, c = 0 ∨ isspace c = true

theorem Clean.zeros : Clean (List.replicate CTRL_MAXCHAR 0) :=
  ⟨List.length_replicate, fun _ hc => .inl (List.eq_of_mem_replicate hc)⟩

/-- The buffer after `read` and its terminator. -/
private theorem read_buffer {msg : Octets} (hm : Clean msg) (written : Octets) :
    ∃ back, (fill (written.take CTRL_MAXCHAR) msg).set (CTRL_MAXCHAR - 1) 0 =
        written.take (CTRL_MAXCHAR - 1) ++ (back ++ [0]) ∧
      (written.take (CTRL_MAXCHAR - 1) ++ (back ++ [0])).length = CTRL_MAXCHAR ∧
      ∀ c ∈ back, c = 0 ∨ isspace c = true := by
  have hlen : (fill (written.take CTRL_MAXCHAR) msg).length = CTRL_MAXCHAR := by
    rw [fill, List.length_append, List.length_drop, hm.length, List.length_take]
    omega
  have hset : (fill (written.take CTRL_MAXCHAR) msg).set (CTRL_MAXCHAR - 1) 0 =
      (fill (written.take CTRL_MAXCHAR) msg).take (CTRL_MAXCHAR - 1) ++ [0] := by
    rw [List.set_eq_take_append_cons_drop, if_pos (by rw [hlen]; decide),
      List.drop_eq_nil_of_le (by rw [hlen]; decide)]
  have hfront : (fill (written.take CTRL_MAXCHAR) msg).take (CTRL_MAXCHAR - 1) =
      written.take (CTRL_MAXCHAR - 1) ++ (msg.drop (written.take CTRL_MAXCHAR).length).take
        (CTRL_MAXCHAR - 1 - (written.take CTRL_MAXCHAR).length) := by
    rw [fill, List.take_append, List.take_take, Nat.min_eq_left (by decide)]
  refine ⟨(msg.drop (written.take CTRL_MAXCHAR).length).take
    (CTRL_MAXCHAR - 1 - (written.take CTRL_MAXCHAR).length), by rw [hset, hfront, List.append_assoc], ?_, ?_⟩
  · rw [← List.append_assoc, ← hfront, ← hset, List.length_set, hlen]
  · intro c hc
    exact hm.blank c (List.mem_of_mem_drop (List.mem_of_mem_take hc))

/-- So the text read is that of the message, up to blanks. -/
private theorem read_text (front : Octets) {back : Octets} (hb : ∀ c ∈ back, c = 0 ∨ isspace c = true) :
    ∃ blanks rest, front ++ (back ++ [0]) = (front.takeWhile (· != 0) ++ blanks) ++ 0 :: rest ∧
      (∀ c ∈ blanks, isspace c = true) ∧ 0 ∉ front.takeWhile (· != 0) ++ blanks := by
  by_cases hnul : 0 ∈ front
  · obtain ⟨rest, hrest⟩ := split_nul front hnul
    refine ⟨[], rest ++ (back ++ [0]), ?_, by simp, ?_⟩
    · conv_lhs => rw [hrest]
      simp only [List.append_nil, List.append_assoc, List.cons_append]
    · rw [List.append_nil]
      exact nul_not_mem_takeWhile front
  · have hall : front.takeWhile (· != 0) = front := by
      rw [List.takeWhile_eq_self_iff]
      intro c hc
      rw [bne_iff_ne]
      rintro rfl
      exact hnul hc
    obtain ⟨rest, hrest⟩ := split_nul (back ++ [0]) (by simp)
    have hnot := nul_not_mem_takeWhile (back ++ [0])
    refine ⟨_, rest, by rw [hall, List.append_assoc, ← hrest], ?_, ?_⟩
    · intro c hc
      have hne : c ≠ 0 := fun h => hnot (h ▸ hc)
      rcases List.mem_append.mp (List.takeWhile_subset _ hc) with hm | hm
      · exact (hb c hm).resolve_left hne
      · exact absurd (List.mem_singleton.mp hm) hne
    · rw [hall]
      intro h
      exact (List.mem_append.mp h).elim hnul hnot

/-- What is found in a clean buffer after `read`: the words of the message, and if it
shows no word and hides nothing, a clean buffer again. -/
private theorem read_words {msg : Octets} (hm : Clean msg) (written : Octets) :
    ∃ text rest, (fill (written.take CTRL_MAXCHAR) msg).set (CTRL_MAXCHAR - 1) 0 = text ++ 0 :: rest ∧
      0 ∉ text ∧ wordsOf CTRL_CMD_NTOKEN text = commandWords written ∧
      (text ++ 0 :: rest).length = CTRL_MAXCHAR ∧
      (Plain written → commandWords written = [] → Clean (text ++ 0 :: rest)) := by
  obtain ⟨back, hbuf, hlen, hb⟩ := read_buffer hm written
  obtain ⟨blanks, rest, htext, hblank, hnul⟩ := read_text (written.take (CTRL_MAXCHAR - 1)) hb
  rw [htext] at hlen
  refine ⟨_, rest, hbuf.trans htext, hnul, wordsOf_append_blanks hblank _ _, hlen, ?_⟩
  intro hplain hnone
  refine ⟨hlen, ?_⟩
  intro c hc
  rw [← htext] at hc
  rcases List.mem_append.mp hc with hc | hc
  · exact hplain.elim (absurd hnone) (fun h => h c hc)
  rcases List.mem_append.mp hc with hc | hc
  · exact hb c hc
  · exact .inl (List.mem_singleton.mp hc)

/-- A message read into a clean buffer is taken for what it says. -/
theorem vrrpCtrlRead_spec (host : ByteOrder) {vrrp : Vrrp} (hm : Clean vrrp.ctrl.msg)
    (hlen : vrrp.ctrl.cmd.length = CTRL_CMD_NTOKEN) {written : Octets}
    (hind : written ≠ [] → Indifferent vrrp.ctrl.cmd (commandWords written)) (vnet : VrrpNet) (reg : Reg) :
    (vrrpCtrlRead host written vrrp vnet reg).map CtrlEffect.outcome =
      (Command.of written).perform host vrrp.priority vnet reg := by
  rw [vrrpCtrlRead]
  by_cases hempty : written = []
  · subst hempty
    rfl
  have hgot : written.take CTRL_MAXCHAR ≠ [] := by
    rw [ne_eq, List.take_eq_nil_iff, not_or]
    exact ⟨by decide, hempty⟩
  obtain ⟨text, rest, hbuf, hnul, hwords, -, -⟩ := read_words hm written
  have hread := hind hempty
  rw [← hwords] at hread
  simp only [if_neg hgot, hbuf, Command.of]
  rw [← hwords]
  exact vrrpCtrlCmd_spec host { vrrp with ctrl := ⟨text ++ 0 :: rest, vrrp.ctrl.cmd⟩ } rfl hnul hlen hread vnet reg

/-- What a message leaves in a clean buffer: nothing, or itself when it has no word. -/
private theorem vrrpCtrlRead_ctrl {host : ByteOrder} {written : Octets} {vrrp : Vrrp} {vnet : VrrpNet} {reg : Reg}
    {r : CtrlEffect} (hm : Clean vrrp.ctrl.msg) (hlen : vrrp.ctrl.cmd.length = CTRL_CMD_NTOKEN)
    (hplain : Plain written) (h : vrrpCtrlRead host written vrrp vnet reg = .ok r) :
    Clean r.vrrp.ctrl.msg ∧ (r.vrrp.ctrl.cmd = List.replicate CTRL_CMD_NTOKEN .null ∨
      commandWords written = [] ∧ r.vrrp.ctrl.cmd = vrrp.ctrl.cmd) := by
  rw [vrrpCtrlRead] at h
  by_cases hgot : written.take CTRL_MAXCHAR = []
  · rw [if_pos hgot] at h
    obtain rfl := Except.ok.inj h
    refine ⟨hm, .inr ⟨?_, rfl⟩⟩
    rw [List.take_eq_nil_iff] at hgot
    rw [hgot.resolve_left (by decide)]
    rfl
  obtain ⟨text, rest, hbuf, hnul, hwords, hbl, hclean⟩ := read_words hm written
  obtain ⟨ctrl, hsplit, hml, hcl, hnil, -⟩ := splitCmd_spec rest hnul hlen
  rw [hwords] at hsplit hnil
  rw [if_neg hgot, hbuf] at h
  have hctrl := (vrrpCtrlCmd_cases h).2
  simp only [hsplit] at hctrl
  rw [hctrl]
  split
  · next hzero =>
    have hnone : commandWords written = [] := List.length_eq_zero_iff.mp (by omega)
    rw [hnil hnone]
    exact ⟨hclean hplain hnone, .inr ⟨hnone, rfl⟩⟩
  · refine ⟨?_, .inl ?_⟩
    · rw [vrrpCtrlCmdFlush, hml, hbl]
      exact Clean.zeros
    · rw [vrrpCtrlCmdFlush, hcl]

private theorem ctrlPrio_keepGoing {host : ByteOrder} {nword : Nat} {vrrp : Vrrp} {vnet : VrrpNet} {reg : Reg}
    {r : CtrlEffect} (h : ctrlPrio host nword vrrp vnet reg = .ok r) :
    testBit KEEP_GOING r.reg = testBit KEEP_GOING reg := by
  have hset : testBit KEEP_GOING (setBit UVRRPD_RELOAD reg) = testBit KEEP_GOING reg := by
    simp [KEEP_GOING, UVRRPD_RELOAD]
  rw [ctrlPrio] at h
  split at h
  · rw [← Except.ok.inj h]
  obtain ⟨arg, -, h⟩ := bind_eq_ok.mp h
  split at h
  · rw [← Except.ok.inj h]
  simp only at h
  split at h
  · obtain ⟨vnet', -, h⟩ := bind_eq_ok.mp h
    rw [← Except.ok.inj h, hset]
  · rw [← Except.ok.inj h, hset]

/-- The loop is told to end by the first word only. -/
private theorem vrrpCtrlCmd_stops {host : ByteOrder} {vrrp : Vrrp} {vnet : VrrpNet} {reg : Reg} {r : CtrlEffect}
    (hk : testBit KEEP_GOING reg = true) (h : vrrpCtrlCmd host vrrp vnet reg = .ok r) :
    testBit KEEP_GOING r.reg = false ↔ (splitCmd vrrp.ctrl).1 ≠ 0 ∧
      ∃ word, wordAt (splitCmd vrrp.ctrl).2 0 = .ok word ∧ matchesWord word cmdStop = true := by
  rw [vrrpCtrlCmd] at h
  generalize splitCmd vrrp.ctrl = parsed at h ⊢
  obtain ⟨nword, ctrl⟩ := parsed
  simp only at h ⊢
  split at h
  · next hzero =>
    rw [← Except.ok.inj h]
    simp [hk, hzero]
  next hn =>
  obtain ⟨word, hat, h⟩ := bind_eq_ok.mp h
  have hword : (nword ≠ 0 ∧ ∃ word', wordAt ctrl 0 = .ok word' ∧ matchesWord word' cmdStop = true) ↔
      matchesWord word cmdStop = true := by
    simp [hn, hat]
  rw [hword]
  split at h
  · next hstop =>
    rw [← Except.ok.inj h]
    simp [hstop, KEEP_GOING]
  next hgo =>
  have hkept : testBit KEEP_GOING r.reg = true := by
    split at h
    · rw [← Except.ok.inj h]
      simpa [KEEP_GOING, UVRRPD_RELOAD] using hk
    split at h
    · rw [← Except.ok.inj h]
      simpa [KEEP_GOING, UVRRPD_DUMP] using hk
    split at h
    · exact (ctrlPrio_keepGoing h).trans hk
    · rw [← Except.ok.inj h]
      exact hk
  simp [hkept, hgo]

/-- A message that hides nothing ends the loop when its first word is `stop`, whatever
the pointers. -/
theorem vrrpCtrlRead_stops {host : ByteOrder} {written : Octets} {vrrp : Vrrp} {vnet : VrrpNet} {reg : Reg}
    {r : CtrlEffect} (hm : Clean vrrp.ctrl.msg) (hlen : vrrp.ctrl.cmd.length = CTRL_CMD_NTOKEN)
    (hplain : Plain written) (hk : testBit KEEP_GOING reg = true)
    (h : vrrpCtrlRead host written vrrp vnet reg = .ok r) :
    testBit KEEP_GOING r.reg = false ↔ (commandWords written).head? = some cmdStop := by
  rw [vrrpCtrlRead] at h
  by_cases hgot : written.take CTRL_MAXCHAR = []
  · rw [if_pos hgot] at h
    rw [← Except.ok.inj h]
    rw [List.take_eq_nil_iff] at hgot
    rw [hgot.resolve_left (by decide), hk]
    have hnone : (commandWords []).head? ≠ some cmdStop := by decide
    exact iff_of_false Bool.noConfusion hnone
  obtain ⟨text, rest, hbuf, hnul, hwords, -, hclean⟩ := read_words hm written
  obtain ⟨ctrl, hsplit, -, -, hnil, hfound⟩ := splitCmd_spec rest hnul hlen
  rw [hwords] at hsplit hnil hfound
  rw [if_neg hgot, hbuf] at h
  rw [vrrpCtrlCmd_stops hk h]
  simp only [hsplit]
  cases hcmd : commandWords written with
  | nil =>
    -- what a stale pointer leads to is blank
    rw [List.head?_nil]
    refine iff_of_false ?_ (Option.some_ne_none _).symm
    rintro ⟨-, word, hat, hmatch⟩
    rw [hnil hcmd, wordAt] at hat
    split at hat
    · next p _ =>
      obtain rfl := Except.ok.inj hat
      rw [matchesWord, beq_iff_eq] at hmatch
      have hmem : 0x73 ∈ (text ++ 0 :: rest).drop p := by
        apply List.mem_of_mem_take
        rw [hmatch]
        decide
      have hblank := (hclean hplain hcmd).blank _ (List.mem_of_mem_drop hmem)
      revert hblank
      decide
    · cases hat
  | cons word args =>
    obtain ⟨tail, hat⟩ := hfound 0 word (by rw [hcmd]; rfl)
    have hword : 0 ∉ word := by
      have hmem : word ∈ wordsOf CTRL_CMD_NTOKEN text := by rw [hwords, hcmd]; exact List.mem_cons_self
      exact fun h0 => hnul (wordsOf_subset hmem 0 h0)
    simp [hat, matchesWord_iff hword (show 0 ∉ cmdStop by decide)]

theorem Indifferent.nulls (words : List Octets) :
    Indifferent (List.replicate CTRL_CMD_NTOKEN .null) words := by
  rcases words with _ | ⟨word, _ | ⟨arg, _ | ⟨_, _⟩⟩⟩
  · exact rfl
  · exact .inr (.inl rfl)
  · exact .inr (.inl rfl)
  · exact trivial

def Wordless (h : List (Entry VrrpCtrl CtrlInput CtrlEffect)) : Prop :=
  ∀ e ∈ h, commandWords e.input.written = []

/-- What the messages so far leave behind. -/
structure Settled (words : Nat → CmdPtr) (h : List (Entry VrrpCtrl CtrlInput CtrlEffect))
    (ctrl : VrrpCtrl) : Prop where
  clean : Clean ctrl.msg
  cmd : ctrl.cmd = List.replicate CTRL_CMD_NTOKEN .null ∨
    Wordless h ∧ ctrl.cmd = (List.range CTRL_CMD_NTOKEN).map words

theorem Settled.cmd_length {words : Nat → CmdPtr} {h : List (Entry VrrpCtrl CtrlInput CtrlEffect)}
    {ctrl : VrrpCtrl} (hs : Settled words h ctrl) : ctrl.cmd.length = CTRL_CMD_NTOKEN := by
  rcases hs.cmd with hc | ⟨-, hc⟩
  · rw [hc, List.length_replicate]
  · rw [hc, List.length_map, List.length_range]

private theorem ctrlStep_ok {host : ByteOrder} {i : CtrlInput} {ctrl ctrl' : VrrpCtrl}
    {out : List CtrlEffect} (h : ctrlStep host i ctrl = .ok (ctrl', out)) :
    ∃ r, vrrpCtrlRead host i.written { i.vrrp with ctrl := ctrl } i.vnet i.reg = .ok r ∧
      r.vrrp.ctrl = ctrl' := by
  obtain ⟨r, hr, h⟩ := bind_eq_ok.mp h
  obtain ⟨hc, -⟩ := Prod.mk.inj (Except.ok.inj h)
  exact ⟨r, hr, hc⟩

theorem Settled.step {host : ByteOrder} {words : Nat → CmdPtr}
    {h : List (Entry VrrpCtrl CtrlInput CtrlEffect)} {i : CtrlInput} {ctrl ctrl' : VrrpCtrl}
    {out : List CtrlEffect} (hs : Settled words h ctrl) (hplain : Plain i.written)
    (hstep : ctrlStep host i ctrl = .ok (ctrl', out)) : Settled words (h ++ [⟨ctrl, i, out, ctrl'⟩]) ctrl' := by
  obtain ⟨r, hr, rfl⟩ := ctrlStep_ok hstep
  have hleft := vrrpCtrlRead_ctrl hs.clean hs.cmd_length hplain hr
  refine ⟨hleft.1, ?_⟩
  rcases hleft.2 with hnull | ⟨hnone, hkept⟩
  · exact .inl hnull
  rcases hs.cmd with hnull | ⟨hwordless, hwords⟩
  · exact .inl (hkept.trans hnull)
  · refine .inr ⟨?_, hkept.trans hwords⟩
    intro e he
    rcases List.mem_append.mp he with he | he
    · exact hwordless e he
    · rw [List.mem_singleton.mp he]
      exact hnone

theorem Settled.run {host : ByteOrder} {words : Nat → CmdPtr}
    {h : List (Entry VrrpCtrl CtrlInput CtrlEffect)} {ctrl : VrrpCtrl}
    (run : Run (ctrlStep host) (vrrpCtrlInit words) h ctrl) (hplain : ∀ e ∈ h, Plain e.input.written) :
    Settled words h ctrl := by
  induction run with
  | nil => exact ⟨Clean.zeros, .inr ⟨by simp [Wordless], rfl⟩⟩
  | snoc _ hstep ih =>
    have hprev := ih (fun e he => hplain e (List.mem_append_left _ he))
    exact hprev.step (hplain _ (List.mem_append_right _ (List.mem_singleton_self _))) hstep

/-- Then the pointers do not matter to the next message, once a word was read. -/
theorem Settled.outcome {host : ByteOrder} {words : Nat → CmdPtr}
    {h : List (Entry VrrpCtrl CtrlInput CtrlEffect)} {ctrl : VrrpCtrl} (hs : Settled words h ctrl) (i : CtrlInput)
    (hfirst : Wordless h → i.written ≠ [] →
      Indifferent ((List.range CTRL_CMD_NTOKEN).map words) (commandWords i.written)) :
    (vrrpCtrlRead host i.written { i.vrrp with ctrl := ctrl } i.vnet i.reg).map CtrlEffect.outcome =
      (Command.of i.written).perform host i.vrrp.priority i.vnet i.reg := by
  refine vrrpCtrlRead_spec host hs.clean hs.cmd_length ?_ i.vnet i.reg
  intro hne
  rcases hs.cmd with hnull | ⟨hwordless, hwords⟩
  · rw [show VrrpCtrl.cmd _ = _ from hnull]
    exact Indifferent.nulls _
  · rw [show VrrpCtrl.cmd _ = _ from hwords]
    exact hfirst hwordless hne

/-- After messages that hide nothing, the next one is taken for what it says. Until a
word was read, that also needs fresh pointers that do not matter to it. -/
theorem commands_independent {host : ByteOrder} {words : Nat → CmdPtr}
    {h : List (Entry VrrpCtrl CtrlInput CtrlEffect)} {ctrl : VrrpCtrl}
    (run : Run (ctrlStep host) (vrrpCtrlInit words) h ctrl) (hplain : ∀ e ∈ h, Plain e.input.written)
    (i : CtrlInput) (hfirst : Wordless h → i.written ≠ [] →
      Indifferent ((List.range CTRL_CMD_NTOKEN).map words) (commandWords i.written)) :
    (vrrpCtrlRead host i.written { i.vrrp with ctrl := ctrl } i.vnet i.reg).map CtrlEffect.outcome =
      (Command.of i.written).perform host i.vrrp.priority i.vnet i.reg :=
  (Settled.run run hplain).outcome i hfirst

def Config.ctrlInput (c : Config) (written : Octets) : CtrlInput :=
  ⟨written, c.daemon.vrrp, c.daemon.vnet, c.daemon.reg⟩

def cmdPrioFive : Octets := cmdPrio ++ [0x20, 0x35]

/-- Over wild pointers, `reload` makes way for `prio 5`. -/
theorem commands_independent_reload_prio : ∃ h ctrl,
    Run (ctrlStep .little) (vrrpCtrlInit fun _ => .wild) h ctrl ∧ h.map (·.input.written) = [cmdReload] ∧
      (vrrpCtrlRead .little cmdPrioFive { lab.daemon.vrrp with ctrl := ctrl } lab.daemon.vnet
        lab.daemon.reg).map CtrlEffect.outcome =
          (Command.prio 5).perform .little lab.daemon.vrrp.priority lab.daemon.vnet lab.daemon.reg := by
  have hstep : ctrlStep .little (lab.ctrlInput cmdReload) (vrrpCtrlInit fun _ => .wild) = .ok _ := rfl
  have hword : commandWords cmdReload ≠ [] := by decide
  refine ⟨_, _, .snoc .nil hstep, rfl, ?_⟩
  refine commands_independent (.snoc .nil hstep) ?_ (lab.ctrlInput cmdPrioFive) ?_
  · intro e he
    obtain rfl := List.mem_singleton.mp he
    exact .inl hword
  · intro hwordless
    exact absurd (hwordless _ (List.mem_singleton_self _)) hword

def hiddenTop : Octets := [0, 0x74, 0x6f, 0x70]

/-- The letter `s` is no command, but stops the router once `top` was left behind it.
And the first message of all is refused or not as fresh memory has it. -/
theorem commands_depend_on_leftovers :
    (∃ h ctrl, Run (ctrlStep .little) (vrrpCtrlInit fun _ => .null) h ctrl ∧
      h.map (·.input.written) = [hiddenTop] ∧ h.map (·.output.map (·.event)) = [[.invalid]] ∧
      (vrrpCtrlRead .little [0x73] { lab.daemon.vrrp with ctrl := ctrl } lab.daemon.vnet
        lab.daemon.reg).map (fun r => (r.event, testBit KEEP_GOING r.reg)) = .ok (.ctrlFifo, false) ∧
      (vrrpCtrlRead .little [0x73] { lab.daemon.vrrp with ctrl := vrrpCtrlInit fun _ => .null }
        lab.daemon.vnet lab.daemon.reg).map (fun r => (r.event, testBit KEEP_GOING r.reg)) =
          .ok (.invalid, true)) ∧
      (vrrpCtrlRead .little cmdPrioFive { lab.daemon.vrrp with ctrl := vrrpCtrlInit fun _ => .wild }
        lab.daemon.vnet lab.daemon.reg).map (fun r => (r.event, r.vrrp.priority)) = .ok (.invalid, 100) ∧
      (vrrpCtrlRead .little cmdPrioFive { lab.daemon.vrrp with ctrl := vrrpCtrlInit fun _ => .null }
        lab.daemon.vnet lab.daemon.reg).map (fun r => (r.event, r.vrrp.priority)) = .ok (.ctrlFifo, 5) := by
  have hstep : ctrlStep .little (lab.ctrlInput hiddenTop) (vrrpCtrlInit fun _ => .null) = .ok _ := rfl
  refine ⟨⟨_, _, .snoc .nil hstep, rfl, rfl, ?_, ?_⟩, ?_, ?_⟩
  · rfl
  · rfl
  · rfl
  · rfl

/-- Only a control message touches the control buffer. -/
theorem Heard.ctrl {host : ByteOrder} {inp : Input} {d d' : Daemon} {event : VrrpEvent}
    (h : Heard host inp d event d') : d'.vrrp.ctrl = d.vrrp.ctrl ∨
      ∃ vrrp out, ctrlStep host ⟨inp.fifo, vrrp, d.vnet, d.reg⟩ d.vrrp.ctrl = .ok (d'.vrrp.ctrl, out) := by
  cases h with
  | timer => exact .inl rfl
  | signal => exact .inl rfl
  | idle => exact .inl rfl
  | datagram => exact .inl rfl
  | @command a m r hp hc =>
    refine .inr ⟨(d.waited a m).vrrp, [r], ?_⟩
    have hread : vrrpCtrlRead host inp.fifo { (d.waited a m).vrrp with ctrl := d.vrrp.ctrl } d.vnet d.reg =
        .ok r := hc
    rw [ctrlStep, hread]
    rfl

theorem Handled.ctrl {host : ByteOrder} {now : Option Timespec} {d d' : Daemon} {event : VrrpEvent}
    {out : List Output} (h : Handled host now d event d' out) : d'.vrrp.ctrl = d.vrrp.ctrl := by
  cases h with
  | ignore => rfl
  | takeover => rfl
  | shorten => rfl
  | follow =>
    rw [Daemon.learnt]
    split <;> rfl
  | restart => rfl
  | tick => rfl
  | answer => rfl
  | yield => rfl
  | resign => rfl

/-- Whatever else a daemon does, its control buffer is that of the messages it was sent. -/
theorem History.control {host : ByteOrder} {c : Config} {fresh : Fresh}
    {h : List (Entry Daemon Input Output)} {d : Daemon} (run : History host c fresh h d) :
    ∃ k, Run (ctrlStep host) (vrrpCtrlInit fresh.words) k d.vrrp.ctrl ∧
      ∀ e ∈ k, ∃ a ∈ h, e.input.written = a.input.fifo := by
  obtain ⟨start, hboot, run⟩ := run
  induction run with
  | nil =>
    refine ⟨[], ?_, by simp⟩
    rw [(boot_spec hboot).vrrp]
    exact .nil
  | @snoc h d d' inp out _ hstep ih =>
    obtain ⟨k, hk, hmsgs⟩ := ih
    have hsub : ∀ e ∈ k, ∃ a ∈ h ++ [⟨d, inp, out, d'⟩], e.input.written = a.input.fifo := by
      intro e he
      obtain ⟨a, ha, hw⟩ := hmsgs e he
      exact ⟨a, List.mem_append_left _ ha, hw⟩
    cases processStep_cases hstep with
    | startMaster => exact ⟨k, hk, hsub⟩
    | startBackup => exact ⟨k, hk, hsub⟩
    | stuck => exact ⟨k, hk, hsub⟩
    | serve hs hl hh =>
      rw [Daemon.dumped_vrrp, hh.ctrl]
      rcases (vrrpListen_cases hl).ctrl with hkept | ⟨vrrp, out, hread⟩
      · rw [hkept]
        exact ⟨k, hk, hsub⟩
      · refine ⟨_, .snoc hk hread, ?_⟩
        intro e he
        rcases List.mem_append.mp he with he | he
        · exact hsub e he
        · obtain rfl := List.mem_singleton.mp he
          exact ⟨_, List.mem_append_right _ (List.mem_singleton_self _), rfl⟩

/-- So a daemon whose fresh pointers are NULL obeys the next message as it reads, if no
message so far has hidden anything. -/
theorem History.obeys {host : ByteOrder} {c : Config} {fresh : Fresh}
    {h : List (Entry Daemon Input Output)} {d : Daemon} (run : History host c fresh h d)
    (hnull : ∀ i, fresh.words i = .null) (hplain : ∀ a ∈ h, Plain a.input.fifo) (written : Octets) :
    (vrrpCtrlRead host written d.vrrp d.vnet d.reg).map CtrlEffect.outcome =
      (Command.of written).perform host d.vrrp.priority d.vnet d.reg := by
  obtain ⟨k, hk, hmsgs⟩ := run.control
  have hs := Settled.run hk (by
    intro e he
    obtain ⟨a, ha, hw⟩ := hmsgs e he
    rw [hw]
    exact hplain a ha)
  have hfresh : (List.range CTRL_CMD_NTOKEN).map fresh.words = List.replicate CTRL_CMD_NTOKEN .null := by
    simp [List.eq_replicate_iff, hnull]
  apply hs.outcome ⟨written, d.vrrp, d.vnet, d.reg⟩
  intro _ _
  rw [hfresh]
  exact Indifferent.nulls _

end Uvrrpd
