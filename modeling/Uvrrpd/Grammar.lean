import Uvrrpd.AdvBuffer
import Uvrrpd.Commands
import Uvrrpd.Resignation

/-! The grammar of control messages, in terms of all the tokens of a message: which
messages are commands, and what each leaves of the daemon. -/
namespace Uvrrpd
open Library.Runs

def tokens (text : Octets) : List Octets := (text.splitOnP isspace).filter (· ≠ [])

private theorem tokens_append_blank {b : UInt8} (hb : isspace b) (x y : Octets) :
    tokens (x ++ b :: y) = tokens x ++ tokens y := by
  rw [tokens, List.splitOnP_append_cons x y hb, List.filter_append]
  rfl

private theorem tokens_blanks {blanks : Octets} (hb : ∀ c ∈ blanks, isspace c) (text : Octets) :
    tokens (blanks ++ text) = tokens text := by
  induction blanks with
  | nil => rfl
  | cons b bs ih =>
    have htail := ih (fun c hc => hb c (List.mem_cons_of_mem _ hc))
    rw [← htail]
    exact tokens_append_blank (hb b List.mem_cons_self) [] (bs ++ text)

private theorem tokens_word {word : Octets} (hne : word ≠ []) (hw : ∀ c ∈ word, isspace c = false) :
    tokens word = [word] := by
  rw [tokens, List.splitOnP_eq_singleton hw, List.filter_cons_of_pos (by simpa using hne), List.filter_nil]

/-- Looking for some words finds the first tokens. -/
theorem wordsOf_eq (left : Nat) (text : Octets) : wordsOf left text = (tokens text).take left := by
  induction left generalizing text with
  | zero => rfl
  | succ left ih =>
    rcases text_cases text with hblank | ⟨blanks, word, after, rfl, hb, hne, hw, hafter, hwords⟩
    · have hnil := tokens_blanks hblank []
      rw [List.append_nil] at hnil
      rw [wordsOf_blank hblank, hnil]
      rfl
    · have htokens : tokens (word ++ after) = word :: tokens after := by
        rcases hafter with rfl | ⟨b, rest, rfl, hblank⟩
        · rw [List.append_nil, tokens_word hne hw]
          rfl
        · rw [tokens_append_blank hblank, tokens_word hne hw]
          exact congrArg (word :: ·) (tokens_append_blank hblank [] rest).symm
      rw [hwords, tokens_blanks hb, htokens, List.take_succ_cons, ih]

/-- Three words are enough to tell what is meant. -/
private theorem Command.of_eq (written : Octets) : Command.of written = .ofWords (tokens (textOf written)) := by
  rw [Command.of, commandWords, wordsOf_eq]
  rcases tokens (textOf written) with _ | ⟨word, _ | ⟨arg, _ | ⟨third, more⟩⟩⟩
  · rfl
  · rfl
  · rfl
  · simp only [CTRL_CMD_NTOKEN, List.take_succ_cons, Command.ofWords]

def VrrpCtrl.flushed : VrrpCtrl :=
  ⟨List.replicate CTRL_MAXCHAR 0, List.replicate CTRL_CMD_NTOKEN .null⟩

/-- The tokens of a command: whatever follows the first of them, save for `prio`. -/
def Recognised (toks : List Octets) : Prop :=
  (∃ word ∈ toks.head?, word = cmdStop ∨ word = cmdReload ∨ word = cmdState ∨ word = cmdStatus) ∨
    ∃ arg n, toks = [cmdPrio, arg] ∧ mystrtoul arg VRRP_PRIO_MAX = .ok n

private theorem Command.ofWords_stop {toks : List Octets} (h : toks.head? = some cmdStop) :
    Command.ofWords toks = .stop := by
  obtain ⟨args, rfl⟩ := List.head?_eq_some_iff.mp h
  rfl

private theorem Command.ofWords_reload {toks : List Octets} (h : toks.head? = some cmdReload) :
    Command.ofWords toks = .reload := by
  obtain ⟨args, rfl⟩ := List.head?_eq_some_iff.mp h
  rfl

private theorem Command.ofWords_dump {toks : List Octets}
    (h : toks.head? = some cmdState ∨ toks.head? = some cmdStatus) : Command.ofWords toks = .dump := by
  rcases h with h | h
  · obtain ⟨args, rfl⟩ := List.head?_eq_some_iff.mp h
    rfl
  · obtain ⟨args, rfl⟩ := List.head?_eq_some_iff.mp h
    rfl

private theorem Command.ofWords_prio {arg : Octets} {n : Nat} (h : mystrtoul arg VRRP_PRIO_MAX = .ok n) :
    Command.ofWords [cmdPrio, arg] = .prio (UInt8.ofNat n) := by
  have hstop : cmdPrio ≠ cmdStop := by decide
  have hreload : cmdPrio ≠ cmdReload := by decide
  have hdump : ¬ (cmdPrio = cmdState ∨ cmdPrio = cmdStatus) := by decide
  rw [Command.ofWords, if_neg hstop, if_neg hreload, if_neg hdump, if_pos rfl]
  simp only [h]

/-- Everything else is unknown. -/
private theorem Command.ofWords_unknown_iff (toks : List Octets) :
    Command.ofWords toks = .unknown ↔ ¬ Recognised toks := by
  constructor
  · rintro h (⟨word, hw, rfl | rfl | rfl | rfl⟩ | ⟨arg, n, rfl, hn⟩)
    · rw [ofWords_stop hw] at h; cases h
    · rw [ofWords_reload hw] at h; cases h
    · rw [ofWords_dump (.inl hw)] at h; cases h
    · rw [ofWords_dump (.inr hw)] at h; cases h
    · rw [ofWords_prio hn] at h; cases h
  · intro h
    cases toks with
    | nil => rfl
    | cons word args =>
      have hfirst : ¬ (word = cmdStop ∨ word = cmdReload ∨ word = cmdState ∨ word = cmdStatus) :=
        fun hw => h (.inl ⟨word, rfl, hw⟩)
      simp only [not_or] at hfirst
      obtain ⟨hstop, hreload, hstate, hstatus⟩ := hfirst
      unfold Command.ofWords
      simp only
      rw [if_neg hstop, if_neg hreload, if_neg (not_or.mpr ⟨hstate, hstatus⟩)]
      split
      · next hprio =>
        split
        · next arg =>
          split
          · next n hn => exact absurd (.inr ⟨arg, n, by rw [hprio], hn⟩) h
          · rfl
        · rfl
      · rfl

/-- A call may change the priority, and nothing else but the control buffer. -/
theorem Commanded.vrrp {host : ByteOrder} {vrrp : Vrrp} {vnet : VrrpNet} {reg : Reg} {r : CtrlEffect}
    (h : Commanded host vrrp vnet reg r) :
    ∃ ctrl, r.vrrp = { vrrp with ctrl := ctrl, priority := r.vrrp.priority } := by
  cases h <;> exact ⟨_, rfl⟩

/-- What a call leaves behind, apart from the control buffer. -/
structure Leaves (before : Vrrp) (priority : UInt8) (vnet : VrrpNet) (reg : Reg) (r : CtrlEffect) : Prop where
  vrrp : ∃ ctrl, r.vrrp = { before with ctrl := ctrl, priority := priority }
  vnet : r.vnet = vnet
  reg : r.reg = reg

private theorem Leaves.of_outcome {before : Vrrp} {r : CtrlEffect} {o : Outcome}
    (hv : ∃ ctrl, r.vrrp = { before with ctrl := ctrl, priority := r.vrrp.priority })
    (h : r.outcome = o) : r.event = o.event ∧ Leaves before o.priority o.vnet o.reg r := by
  subst h
  exact ⟨rfl, hv, rfl, rfl⟩

/-- A known priority is announced already, and another one is put into the payload. -/
private theorem perform_prio (host : ByteOrder) {contents : Nat → UInt8} {d : Daemon} (h : Coherent contents d)
    (value : UInt8) : ∃ vnet, (Command.prio value).perform host d.vrrp.priority d.vnet d.reg =
        .ok ⟨.ctrlFifo, value, vnet, setBit UVRRPD_RELOAD d.reg⟩ ∧
      vnet = { d.vnet with adv := { d.vnet.adv with data := vnet.adv.data } } ∧
      Coherent contents { d with vrrp := { d.vrrp with priority := value }, vnet := vnet } := by
  by_cases hp : d.vrrp.priority = value
  · subst hp
    exact ⟨d.vnet, if_neg (fun hne => hne rfl), rfl, h⟩
  · have hset := vrrpAdvSetPriority_spec host h.prepared h.fills h.data value
    refine ⟨_, ?_, rfl, h.setPriority hset⟩
    rw [Command.perform, if_pos hp, hset]
    rfl

/-- From a flushed control buffer, a message is answered as its tokens have it. -/
private theorem vrrpCtrlRead_performs {host : ByteOrder} {contents : Nat → UInt8} {d : Daemon}
    (hcoh : Coherent contents d) (a m : Timespec) (written : Octets) :
    ∃ r, vrrpCtrlRead host written { (d.waited a m).vrrp with ctrl := .flushed } d.vnet d.reg = .ok r ∧
      ∀ o, (Command.ofWords (tokens (textOf written))).perform host d.vrrp.priority d.vnet d.reg = .ok o →
        r.event = o.event ∧ Leaves (d.waited a m).vrrp o.priority o.vnet o.reg r := by
  have hspec : (vrrpCtrlRead host written { (d.waited a m).vrrp with ctrl := .flushed } d.vnet d.reg).map
      CtrlEffect.outcome =
        (Command.ofWords (tokens (textOf written))).perform host d.vrrp.priority d.vnet d.reg := by
    rw [← Command.of_eq]
    exact vrrpCtrlRead_spec host Clean.zeros List.length_replicate (fun _ => Indifferent.nulls _) d.vnet d.reg
  obtain ⟨o, ho⟩ : ∃ o, (Command.ofWords (tokens (textOf written))).perform host d.vrrp.priority d.vnet d.reg =
      .ok o := by
    cases Command.ofWords (tokens (textOf written)) with
    | stop => exact ⟨_, rfl⟩
    | reload => exact ⟨_, rfl⟩
    | dump => exact ⟨_, rfl⟩
    | prio value =>
      obtain ⟨vnet, hp, -⟩ := perform_prio host hcoh value
      exact ⟨_, hp⟩
    | unknown => exact ⟨_, rfl⟩
  rw [ho] at hspec ⊢
  cases hr : vrrpCtrlRead host written { (d.waited a m).vrrp with ctrl := .flushed } d.vnet d.reg with
  | error e => rw [hr] at hspec; cases hspec
  | ok r =>
    rw [hr] at hspec
    obtain ⟨ctrl, hv⟩ := (vrrpCtrlRead_cases hr).vrrp
    refine ⟨r, rfl, fun o' ho' => ?_⟩
    obtain rfl := Except.ok.inj ho'
    exact Leaves.of_outcome ⟨ctrl, hv⟩ (Except.ok.inj hspec)

/-- From a flushed control buffer, in every state that a daemon reaches, a message is a
command exactly when its tokens spell one. Each command has its effect and no other,
and what is no command leaves everything but the buffer as it was. -/
theorem command_grammar {host : ByteOrder} {c : Config} {fresh : Fresh}
    {h : List (Entry Daemon Input Output)} {d : Daemon} (run : History host c fresh h d) (a m : Timespec)
    (written : Octets) :
    ∃ r, vrrpCtrlRead host written { (d.waited a m).vrrp with ctrl := .flushed } d.vnet d.reg = .ok r ∧
      (r.event = .ctrlFifo ↔ Recognised (tokens (textOf written))) ∧
      ((tokens (textOf written)).head? = some cmdStop →
        Leaves (d.waited a m).vrrp d.vrrp.priority d.vnet (clearBit KEEP_GOING (setBit UVRRPD_RELOAD d.reg)) r) ∧
      ((tokens (textOf written)).head? = some cmdReload →
        Leaves (d.waited a m).vrrp d.vrrp.priority d.vnet (setBit UVRRPD_RELOAD d.reg) r) ∧
      ((tokens (textOf written)).head? = some cmdState ∨ (tokens (textOf written)).head? = some cmdStatus →
        Leaves (d.waited a m).vrrp d.vrrp.priority d.vnet (setBit UVRRPD_DUMP d.reg) r) ∧
      (∀ arg n, tokens (textOf written) = [cmdPrio, arg] → mystrtoul arg VRRP_PRIO_MAX = .ok n →
        (r.vrrp.priority.toNat = n ∧ framePriority r.vnet.adv = some r.vrrp.priority) ∧
        (∃ contents, Coherent contents d ∧
          Coherent contents { d with vrrp := r.vrrp, vnet := r.vnet, reg := r.reg }) ∧
        Leaves (d.waited a m).vrrp (UInt8.ofNat n)
          { d.vnet with adv := { d.vnet.adv with data := r.vnet.adv.data } } (setBit UVRRPD_RELOAD d.reg) r) ∧
      (¬ Recognised (tokens (textOf written)) →
        r.event = .invalid ∧ Leaves (d.waited a m).vrrp d.vrrp.priority d.vnet d.reg r) := by
  obtain ⟨contents, -, hcoh⟩ := run.coherent
  obtain ⟨r, hr, hkey⟩ := vrrpCtrlRead_performs hcoh a m written
  generalize tokens (textOf written) = toks at hkey
  have hstop (hs : toks.head? = some cmdStop) :=
    hkey ⟨.ctrlFifo, d.vrrp.priority, d.vnet, clearBit KEEP_GOING (setBit UVRRPD_RELOAD d.reg)⟩
      (by rw [Command.ofWords_stop hs]; rfl)
  have hreload (hs : toks.head? = some cmdReload) :=
    hkey ⟨.ctrlFifo, d.vrrp.priority, d.vnet, setBit UVRRPD_RELOAD d.reg⟩
      (by rw [Command.ofWords_reload hs]; rfl)
  have hdump (hs : toks.head? = some cmdState ∨ toks.head? = some cmdStatus) :=
    hkey ⟨.ctrlFifo, d.vrrp.priority, d.vnet, setBit UVRRPD_DUMP d.reg⟩
      (by rw [Command.ofWords_dump hs]; rfl)
  have hprio {arg : Octets} {n : Nat} (ht : toks = [cmdPrio, arg])
      (hn : mystrtoul arg VRRP_PRIO_MAX = .ok n) {vnet : VrrpNet}
      (hp : (Command.prio (UInt8.ofNat n)).perform host d.vrrp.priority d.vnet d.reg =
        .ok ⟨.ctrlFifo, UInt8.ofNat n, vnet, setBit UVRRPD_RELOAD d.reg⟩) :=
    hkey ⟨.ctrlFifo, UInt8.ofNat n, vnet, setBit UVRRPD_RELOAD d.reg⟩
      (by rw [ht, Command.ofWords_prio hn]; exact hp)
  have hunknown (hs : ¬ Recognised toks) :=
    hkey ⟨.invalid, d.vrrp.priority, d.vnet, d.reg⟩
      (by rw [(Command.ofWords_unknown_iff toks).mpr hs]; rfl)
  refine ⟨r, hr, ⟨?_, ?_⟩, fun hs => (hstop hs).2, fun hs => (hreload hs).2, fun hs => (hdump hs).2, ?_,
    fun hs => hunknown hs⟩
  · intro he
    by_contra hno
    rw [(hunknown hno).1] at he
    cases he
  · rintro (⟨word, hw, rfl | rfl | rfl | rfl⟩ | ⟨arg, n, ht, hn⟩)
    · exact (hstop hw).1
    · exact (hreload hw).1
    · exact (hdump (.inl hw)).1
    · exact (hdump (.inr hw)).1
    · obtain ⟨vnet, hp, -⟩ := perform_prio host hcoh (UInt8.ofNat n)
      exact (hprio ht hn hp).1
  · intro arg n ht hn
    obtain ⟨vnet, hp, hdata, hcoh'⟩ := perform_prio host hcoh (UInt8.ofNat n)
    have hleaves := (hprio ht hn hp).2
    obtain ⟨⟨ctrl, hv⟩, rfl, hreg⟩ := hleaves
    have hpr : r.vrrp.priority = UInt8.ofNat n := by rw [hv]
    have hle := mystrtoul_le hn
    have hcoh'' : Coherent contents { d with vrrp := r.vrrp, vnet := r.vnet, reg := r.reg } := by
      refine hcoh'.congr ⟨?_, rfl⟩ hpr rfl
      rw [hv]
      rfl
    refine ⟨⟨?_, ?_⟩, ⟨contents, hcoh, hcoh''⟩, ⟨⟨ctrl, hv⟩, hdata, hreg⟩⟩
    · rw [hpr, UInt8.toNat_ofNat', Nat.mod_eq_of_lt (by rw [VRRP_PRIO_MAX] at hle; omega)]
    · exact hcoh''.announces.framePriority

def prioSeven : Octets := 0x20 :: cmdPrio ++ [0x09, 0x37, 0x20, 0x0a]

theorem command_grammar_prio : ∃ r, vrrpCtrlRead .little prioSeven
      { (lab.daemon.waited ⟨0, 0⟩ ⟨0, 0⟩).vrrp with ctrl := .flushed } lab.daemon.vnet lab.daemon.reg = .ok r ∧
    r.event = .ctrlFifo ∧ r.vrrp.priority.toNat = 7 := by
  have htokens : tokens (textOf prioSeven) = [cmdPrio, [0x37]] := by decide
  have hseven : mystrtoul [0x37] VRRP_PRIO_MAX = .ok 7 := by decide
  obtain ⟨r, hr, hiff, -, -, -, hprio, -⟩ :=
    command_grammar (history_runOn (.inl rfl) [] : History .little lab _ _ lab.daemon)
      ⟨0, 0⟩ ⟨0, 0⟩ prioSeven
  exact ⟨r, hr, hiff.mpr (.inr ⟨_, 7, htokens, hseven⟩), (hprio _ 7 htokens hseven).1.1⟩

end Uvrrpd
