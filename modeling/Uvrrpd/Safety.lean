import Uvrrpd.Bounds
import Uvrrpd.Commands
import Uvrrpd.TimerState

/-! Which steps can fault. Reception stays within its buffer whatever it receives, and
the packet that is sent can always be patched. What is left are the word pointers of
the control buffer, which nobody initialises. -/
namespace Uvrrpd
open Library.Memory (bind_eq_ok)
open Library.Runs

private theorem load8_ok {mem : Octets} {i : Nat} (h : i < mem.length) : ∃ b, load8 mem i = .ok b := by
  rw [load8, List.getElem?_eq_getElem h]
  exact ⟨_, rfl⟩

private theorem load16_ok (host : ByteOrder) {mem : Octets} {i : Nat} (h : i + 1 < mem.length) :
    ∃ v, load16 host mem i = .ok v := by
  obtain ⟨a, ha⟩ := load8_ok (show i < mem.length by omega)
  obtain ⟨b, hb⟩ := load8_ok h
  rw [load16, ha, hb]
  exact ⟨_, rfl⟩

private theorem loadAddr_ok {mem : Octets} {i n : Nat} (h : i + n ≤ mem.length) : ∃ a, loadAddr mem i n = .ok a := by
  rw [loadAddr, dif_pos h]
  exact ⟨_, rfl⟩

private theorem received_length (sock : Option Datagram) {buf : Octets} (hb : buf.length = IP_MAXPACKET) :
    (received sock buf).length = IP_MAXPACKET := by
  cases sock with
  | none => exact hb
  | some d =>
    rw [received, fill, List.length_append, List.length_drop, hb, List.length_take]
    omega

/-- The header members are read within the buffer, and the payload starts near its front. -/
private theorem pktReceive_ok (host : ByteOrder) (family : Family) (sock : Option Datagram) (recv : VrrpRecv)
    {buf : Octets} (hb : buf.length = IP_MAXPACKET) :
    ∃ r, pktReceive host family sock recv buf = .ok r ∧ r.buf.length = IP_MAXPACKET ∧ r.payloadPos ≤ 60 := by
  have hlen := received_length sock hb
  have hmax : IP_MAXPACKET = 65535 := rfl
  suffices h : ∃ r, pktReceive host family sock recv buf = .ok r ∧ r.payloadPos ≤ 60 by
    obtain ⟨r, hr, hpos⟩ := h
    exact ⟨r, hr, by rw [pktReceive_buf hr, hlen], hpos⟩
  cases family with
  | inet =>
    obtain ⟨versionIhl, h₀⟩ := load8_ok (show 0 < (received sock buf).length by omega)
    obtain ⟨totLen, h₂⟩ := load16_ok host (show 2 + 1 < (received sock buf).length by omega)
    obtain ⟨ttl, h₈⟩ := load8_ok (show 8 < (received sock buf).length by omega)
    obtain ⟨protocol, h₉⟩ := load8_ok (show 9 < (received sock buf).length by omega)
    obtain ⟨saddr, h₁₂⟩ := loadAddr_ok (show 12 + 4 ≤ (received sock buf).length by omega)
    obtain ⟨daddr, h₁₆⟩ := loadAddr_ok (show 16 + 4 ≤ (received sock buf).length by omega)
    rw [pktReceive, vrrpIp4Recv_eq]
    simp only [h₀, h₂, h₈, h₉, h₁₂, h₁₆, ok_bind, pure_eq_ok]
    refine ⟨_, rfl, ?_⟩
    simp only
    omega
  | inet6 =>
    refine ⟨_, rfl, ?_⟩
    cases sock with
    | none => exact Nat.zero_le _
    | some d =>
      obtain ⟨octets, saddr6, hoplimit, pktinfo⟩ := d
      cases hoplimit with
      | none => exact Nat.zero_le _
      | some ttl => cases pktinfo <;> exact Nat.zero_le _

/-- A whole advertisement fits behind the longest header. -/
private theorem getsize_fits (vnet : VrrpNet) : 60 + advGetsize vnet ≤ IP_MAXPACKET := by
  have hn := vnet.naddr.toNat_lt
  rw [advGetsize]
  cases vnet.family with
  | inet => simp only [vrrpIp4Getsize, VRRP_PKTHDR_SIZE, VRRP_AUTH_SIZE, IP_MAXPACKET]; omega
  | inet6 => simp only [vrrpIp6Getsize, VRRP_PKTHDR_SIZE, IP_MAXPACKET]; omega

/-- `vrrp_net_recv` never leaves its buffer. -/
theorem vrrpNetRecv_ok (host : ByteOrder) {vnet : VrrpNet} {vrrp : Vrrp} (h : Ready vnet vrrp)
    (sock : Option Datagram) (stack : List.Vector UInt8 IP_MAXPACKET) :
    ∃ r, vrrpNetRecv host vnet vrrp sock stack.toList = .ok r := by
  obtain ⟨r, hr, hlen, hpos⟩ := pktReceive_ok host vnet.family sock vnet.pkt stack.toList_length
  rw [vrrpNetRecv_def, hr, ok_bind]
  cases hl : r.len with
  | none => exact ⟨_, rfl⟩
  | some len =>
    simp only
    split
    · exact ⟨_, rfl⟩
    split
    · exact ⟨_, rfl⟩
    have hdrop : (r.buf.drop r.payloadPos).length = IP_MAXPACKET - r.payloadPos := by
      rw [List.length_drop, hlen]
    have hfits := getsize_fits (vrrpNetInvalidateBuffer { vnet with pkt := r.recv })
    obtain ⟨hdr, rest, hpkt⟩ := exists_hdr (show 8 ≤ (r.buf.drop r.payloadPos).length by
      rw [hdrop]
      simp only [IP_MAXPACKET]
      omega)
    have hrest : 8 + rest.length = IP_MAXPACKET - r.payloadPos := by
      rw [← hdrop, hpkt, List.length_append, Vrrphdr.octets_length]
    have hready : Ready (vrrpNetInvalidateBuffer { vnet with pkt := r.recv }) vrrp :=
      ⟨h.own, h.naddr, h.pos, h.password⟩
    obtain ⟨⟨event, adv⟩, hcheck⟩ := checkPacket_ok host hready hdr (fun _ => show _ ≤ 8 + rest.length by omega)
    rw [hpkt, hcheck, ok_bind]
    cases adv with
    | none => exact ⟨_, rfl⟩
    | some adv => exact ⟨_, rfl⟩

/-- Some message makes the program follow a wild pointer: one without a word the first,
and `prio` without a number the second, if the third ends the count. -/
def Dangling (cmd : List CmdPtr) : Prop :=
  cmd[0]? = some .wild ∨ cmd[1]? = some .wild ∧ cmd[2]? = some .null

instance (cmd : List CmdPtr) : Decidable (Dangling cmd) := inferInstanceAs (Decidable (_ ∨ _ ∧ _))

/-- The loop sets pointers and keeps the others. -/
private theorem splitCmdLoop_pointers (left nword : Nat) (str : Option Nat) (ctrl : VrrpCtrl) (i : Nat) :
    (splitCmdLoop left nword str ctrl).2.cmd[i]? = ctrl.cmd[i]? ∨
      ∃ p, (splitCmdLoop left nword str ctrl).2.cmd[i]? = some (.msg p) := by
  induction left generalizing nword str ctrl with
  | zero => exact .inl rfl
  | succ left ih =>
    obtain ⟨next, ctrl', hloop, hset⟩ : ∃ next ctrl', splitCmdLoop (left + 1) nword str ctrl =
        (if ctrl'.cmd[nword]? = some .null then (nword, ctrl') else splitCmdLoop left (nword + 1) next ctrl') ∧
        (ctrl'.cmd[i]? = ctrl.cmd[i]? ∨ ∃ p, ctrl'.cmd[i]? = some (.msg p)) := by
      refine ⟨_, _, rfl, ?_⟩
      cases str with
      | none => exact .inl rfl
      | some p =>
        simp only [Option.map_some]
        split
        · simp only [List.getElem?_set]
          split
          · split
            · exact .inr ⟨_, rfl⟩
            · left
              next h hlt => rw [← h, List.getElem?_eq_none (by omega)]
          · exact .inl rfl
        · exact .inl rfl
    rw [hloop]
    split
    · exact hset
    · rcases ih (nword + 1) next ctrl' with hsame | hmsg
      · rw [hsame]
        exact hset
      · exact .inr hmsg

/-- A pointer that is neither NULL nor wild leads into the message. -/
private theorem wordAt_kept {ctrl : VrrpCtrl} {cmd : List CmdPtr} {i : Nat} {ptr : CmdPtr}
    (hkept : ctrl.cmd[i]? = cmd[i]? ∨ ∃ p, ctrl.cmd[i]? = some (.msg p)) (hget : cmd[i]? = some ptr)
    (hnull : ptr ≠ .null) (hwild : ptr ≠ .wild) : ∃ word, wordAt ctrl i = .ok word := by
  obtain ⟨p, hp⟩ : ∃ p, ctrl.cmd[i]? = some (.msg p) := by
    rcases hkept with hsame | hmsg
    · rw [hsame, hget]
      cases ptr with
      | null => exact absurd rfl hnull
      | msg p => exact ⟨p, rfl⟩
      | wild => exact absurd rfl hwild
    · exact hmsg
  rw [wordAt, hp]
  exact ⟨_, rfl⟩

/-- Without dangling pointers, the first word that is counted is there, and so is the
second when two are counted. -/
private theorem splitCmd_words {text : Octets} (rest : Octets) {cmd : List CmdPtr} (ht : 0 ∉ text)
    (hlen : cmd.length = CTRL_CMD_NTOKEN) (hd : ¬ Dangling cmd) {nword : Nat} {ctrl : VrrpCtrl}
    (hs : splitCmd ⟨text ++ 0 :: rest, cmd⟩ = (nword, ctrl)) :
    (nword ≠ 0 → ∃ word, wordAt ctrl 0 = .ok word) ∧ (nword = 2 → ∃ word, wordAt ctrl 1 = .ok word) := by
  obtain ⟨ctrl', hsplit, -, -, -, hfound⟩ := splitCmd_spec rest ht hlen
  have hkept (i : Nat) : ctrl.cmd[i]? = cmd[i]? ∨ ∃ p, ctrl.cmd[i]? = some (.msg p) := by
    have h := splitCmdLoop_pointers CTRL_CMD_NTOKEN 0 (some 0) ⟨text ++ 0 :: rest, cmd⟩ i
    rw [← splitCmd, hs] at h
    exact h
  rw [hs] at hsplit
  obtain ⟨hn, rfl⟩ := Prod.mk.inj hsplit
  obtain ⟨x, y, z, rfl⟩ := List.length_eq_three.mp hlen
  obtain ⟨hx, hyz⟩ := not_or.mp hd
  generalize wordsOf CTRL_CMD_NTOKEN text = words at hn hfound
  constructor
  · intro hne
    cases words with
    | cons word args =>
      obtain ⟨tail, hat⟩ := hfound 0 word rfl
      exact ⟨_, hat⟩
    | nil =>
      refine wordAt_kept (hkept 0) rfl ?_ (fun h => hx (congrArg some h))
      rintro rfl
      exact hne (by simpa using hn)
  · rintro rfl
    match words with
    | _ :: arg :: _ =>
      obtain ⟨tail, hat⟩ := hfound 1 arg rfl
      exact ⟨_, hat⟩
    | [word] =>
      have hy : y ≠ .null := by
        rintro rfl
        simp at hn
      have hz : z = .null := by
        by_contra hz
        simp [hy, hz] at hn
      exact wordAt_kept (hkept 1) rfl hy (fun h => hyz ⟨congrArg some h, congrArg some hz⟩)
    | [] =>
      have hy : y ≠ .null := by
        rintro rfl
        by_cases hxn : x = .null <;> simp [hxn] at hn
      have hz : z = .null := by
        by_contra hz
        by_cases hxn : x = .null <;> simp [hxn, hy, hz] at hn
      exact wordAt_kept (hkept 1) rfl hy (fun h => hyz ⟨congrArg some h, congrArg some hz⟩)

section Control
variable {contents : Nat → UInt8} {host : ByteOrder} {d : Daemon}

private theorem ctrlPrio_ok (hco : Coherent contents d) {nword : Nat} {vrrp : Vrrp} (reg : Reg)
    (hword : nword = 2 → ∃ word, wordAt vrrp.ctrl 1 = .ok word) :
    ∃ r, ctrlPrio host nword vrrp d.vnet reg = .ok r := by
  rw [ctrlPrio]
  split
  · exact ⟨_, rfl⟩
  next hn =>
  obtain ⟨word, hat⟩ := hword (not_not.mp hn)
  rw [hat, ok_bind]
  split
  · exact ⟨_, rfl⟩
  simp only
  split
  · rw [vrrpAdvSetPriority_spec host hco.prepared hco.fills hco.data]
    exact ⟨_, rfl⟩
  · exact ⟨_, rfl⟩

/-- The packet can be patched, so only a word that is not there can stop a command. -/
private theorem vrrpCtrlCmd_ok (hco : Coherent contents d) {vrrp : Vrrp} (reg : Reg) {nword : Nat} {ctrl : VrrpCtrl}
    (hs : splitCmd vrrp.ctrl = (nword, ctrl)) (hfirst : nword ≠ 0 → ∃ word, wordAt ctrl 0 = .ok word)
    (hsecond : nword = 2 → ∃ word, wordAt ctrl 1 = .ok word) :
    ∃ r, vrrpCtrlCmd host vrrp d.vnet reg = .ok r := by
  rw [vrrpCtrlCmd, hs]
  simp only
  split
  · exact ⟨_, rfl⟩
  next hn =>
  obtain ⟨word, hat⟩ := hfirst hn
  rw [hat, ok_bind]
  split
  · exact ⟨_, rfl⟩
  split
  · exact ⟨_, rfl⟩
  split
  · exact ⟨_, rfl⟩
  split
  · exact ctrlPrio_ok hco reg hsecond
  · exact ⟨_, rfl⟩

/-- The buffer behind `read` ends with a NUL, so a text ends within it. -/
private theorem read_nul {msg : Octets} (hm : msg.length = CTRL_MAXCHAR) (written : Octets) :
    ∃ text rest, (fill (written.take CTRL_MAXCHAR) msg).set (CTRL_MAXCHAR - 1) 0 = text ++ 0 :: rest ∧
      0 ∉ text ∧ (text ++ 0 :: rest).length = CTRL_MAXCHAR := by
  have hlen : (fill (written.take CTRL_MAXCHAR) msg).length = CTRL_MAXCHAR := by
    rw [fill, List.length_append, List.length_drop, hm, List.length_take]
    omega
  have hmem : 0 ∈ (fill (written.take CTRL_MAXCHAR) msg).set (CTRL_MAXCHAR - 1) 0 :=
    List.mem_set (by rw [hlen]; decide) 0
  obtain ⟨rest, hrest⟩ := split_nul _ hmem
  exact ⟨_, rest, hrest, nul_not_mem_takeWhile _, by rw [← hrest, List.length_set, hlen]⟩

private theorem vrrpCtrlRead_ok (hco : Coherent contents d) {vrrp : Vrrp} (reg : Reg)
    (hm : vrrp.ctrl.msg.length = CTRL_MAXCHAR) (hlen : vrrp.ctrl.cmd.length = CTRL_CMD_NTOKEN)
    (hd : ¬ Dangling vrrp.ctrl.cmd) (written : Octets) :
    ∃ r, vrrpCtrlRead host written vrrp d.vnet reg = .ok r := by
  rw [vrrpCtrlRead]
  simp only
  split
  · exact ⟨_, rfl⟩
  obtain ⟨text, rest, hbuf, hnul, -⟩ := read_nul hm written
  obtain ⟨⟨nword, ctrl⟩, hs⟩ : ∃ r, splitCmd ⟨text ++ 0 :: rest, vrrp.ctrl.cmd⟩ = r := ⟨_, rfl⟩
  obtain ⟨hfirst, hsecond⟩ := splitCmd_words rest hnul hlen hd hs
  rw [hbuf]
  exact vrrpCtrlCmd_ok hco reg hs hfirst hsecond

end Control

/-- What the messages so far can have made of the buffer: its size stays, and the
pointers are fresh until a command has flushed them. -/
def Pointers (words : Nat → CmdPtr) (ctrl : VrrpCtrl) : Prop :=
  ctrl.msg.length = CTRL_MAXCHAR ∧
    (ctrl.cmd = List.replicate CTRL_CMD_NTOKEN .null ∨ ctrl.cmd = (List.range CTRL_CMD_NTOKEN).map words)

theorem Pointers.cmd_length {words : Nat → CmdPtr} {ctrl : VrrpCtrl} (h : Pointers words ctrl) :
    ctrl.cmd.length = CTRL_CMD_NTOKEN := by
  rcases h.2 with hc | hc
  · rw [hc, List.length_replicate]
  · rw [hc, List.length_map, List.length_range]

theorem Pointers.read {words : Nat → CmdPtr} {host : ByteOrder} {written : Octets} {vrrp : Vrrp} {vnet : VrrpNet}
    {reg : Reg} {r : CtrlEffect} (h : Pointers words vrrp.ctrl)
    (hr : vrrpCtrlRead host written vrrp vnet reg = .ok r) : Pointers words r.vrrp.ctrl := by
  rw [vrrpCtrlRead] at hr
  simp only at hr
  split at hr
  · rw [← Except.ok.inj hr]
    exact h
  obtain ⟨text, rest, hbuf, hnul, hbl⟩ := read_nul h.1 written
  obtain ⟨ctrl, hsplit, hml, hcl, hnil, -⟩ := splitCmd_spec rest hnul h.cmd_length
  rw [hbuf] at hr
  have hctrl := (vrrpCtrlCmd_cases hr).2
  simp only [hsplit] at hctrl
  rw [hctrl]
  split
  · next hzero =>
    rw [hnil (List.length_eq_zero_iff.mp (by omega))]
    exact ⟨hbl, h.2⟩
  · refine ⟨?_, .inl ?_⟩
    · rw [vrrpCtrlCmdFlush, List.length_replicate, hml, hbl]
    · rw [vrrpCtrlCmdFlush, hcl]

theorem History.pointers {host : ByteOrder} {c : Config} {fresh : Fresh} {h : List (Entry Daemon Input Output)}
    {d : Daemon} (run : History host c fresh h d) : Pointers fresh.words d.vrrp.ctrl := by
  obtain ⟨k, hk, -⟩ := run.control
  refine Run.holds (Pointers fresh.words) hk ⟨List.length_replicate, .inr rfl⟩ ?_
  intro i ctrl ctrl' out hp hs
  obtain ⟨r, hr, hs⟩ := bind_eq_ok.mp hs
  obtain ⟨rfl, -⟩ := Prod.mk.inj (Except.ok.inj hs)
  have hp' : Pointers fresh.words { i.vrrp with ctrl := ctrl }.ctrl := hp
  exact hp'.read hr

/-- A message that fills the buffer leaves nothing of the old one. -/
private theorem vrrpCtrlRead_whole (host : ByteOrder) {vrrp : Vrrp} (hm : vrrp.ctrl.msg.length = CTRL_MAXCHAR)
    {written : Octets} (hw : written.length = CTRL_MAXCHAR - 1) (vnet : VrrpNet) (reg : Reg) :
    vrrpCtrlRead host written vrrp vnet reg =
      vrrpCtrlCmd host { vrrp with ctrl := ⟨written ++ [0], vrrp.ctrl.cmd⟩ } vnet reg := by
  have htake : written.take CTRL_MAXCHAR = written := List.take_of_length_le (by rw [hw]; decide)
  have hne : written ≠ [] := by
    rintro rfl
    cases hw
  have hfill : (fill written vrrp.ctrl.msg).set (CTRL_MAXCHAR - 1) 0 = written ++ [0] := by
    obtain ⟨last, hlast⟩ := List.length_eq_one_iff.mp (show (vrrp.ctrl.msg.drop (CTRL_MAXCHAR - 1)).length = 1 by
      rw [List.length_drop, hm]
      rfl)
    rw [fill, hw, hlast, List.set_append_right _ _ (by omega), hw, Nat.sub_self]
    rfl
  rw [vrrpCtrlRead]
  simp only [htake, if_neg hne, hfill]

def blankMessage : Octets := List.replicate (CTRL_MAXCHAR - 1) 0x20

def barePrio : Octets := cmdPrio ++ List.replicate (CTRL_MAXCHAR - 1 - cmdPrio.length) 0x20

/-- The first pointer is followed for a message without a word. -/
private theorem vrrpCtrlCmd_blank (host : ByteOrder) {vrrp : Vrrp} {y z : CmdPtr}
    (hctrl : vrrp.ctrl = ⟨blankMessage ++ [0], [.wild, y, z]⟩) (vnet : VrrpNet) (reg : Reg) :
    vrrpCtrlCmd host vrrp vnet reg = .error .badAccess := by
  have hblank : ∀ c ∈ blankMessage, isspace c := by
    intro c hc
    rw [List.eq_of_mem_replicate hc]
    rfl
  have hlen : [CmdPtr.wild, y, z].length = CTRL_CMD_NTOKEN := rfl
  obtain ⟨ctrl, hsplit, -, -, hnil, -⟩ := splitCmd_spec [] (show 0 ∉ blankMessage by decide) hlen
  rw [wordsOf_blank hblank] at hsplit hnil
  obtain rfl := hnil rfl
  rw [vrrpCtrlCmd, hctrl, hsplit]
  simp only [List.length_nil, List.drop_zero, Nat.zero_add]
  rw [List.takeWhile_cons_of_pos (by decide), if_neg (by simp)]
  rfl

/-- The second is followed for the number that `prio` lacks. -/
private theorem vrrpCtrlCmd_bare (host : ByteOrder) {vrrp : Vrrp} {x : CmdPtr}
    (hctrl : vrrp.ctrl = ⟨barePrio ++ [0], [x, .wild, .null]⟩) (vnet : VrrpNet) (reg : Reg) :
    vrrpCtrlCmd host vrrp vnet reg = .error .badAccess := by
  have hword : (barePrio ++ [0])[skipBlanks (barePrio ++ [0]) 0]?.getD 0 ≠ 0 := by decide +kernel
  have hrest : splitCmdLoop 2 1 (strsep (barePrio ++ [0]) (skipBlanks (barePrio ++ [0]) 0)).2
      ⟨(strsep (barePrio ++ [0]) (skipBlanks (barePrio ++ [0]) 0)).1, [.msg 0, .wild, .null]⟩ =
      (2, ⟨cmdPrio ++ 0 :: barePrio.drop 5 ++ [0], [.msg 0, .wild, .null]⟩) := by decide +kernel
  have hsplit : splitCmd ⟨barePrio ++ [0], [x, .wild, .null]⟩ =
      (2, ⟨cmdPrio ++ 0 :: barePrio.drop 5 ++ [0], [.msg 0, .wild, .null]⟩) := by
    rw [← hrest]
    exact splitCmdLoop_word (Nat.succ_pos _) hword
  have hmatch (text : Octets) (ht : 0 ∉ text) :
      matchesWord (cmdPrio ++ 0 :: (barePrio.drop 5 ++ [0])) text = decide (cmdPrio = text) := by
    rw [Bool.eq_iff_iff, matchesWord_iff (by decide) ht, decide_eq_true_iff]
  have hat : wordAt ⟨cmdPrio ++ 0 :: barePrio.drop 5 ++ [0], [.msg 0, .wild, .null]⟩ 0 =
      .ok (cmdPrio ++ 0 :: (barePrio.drop 5 ++ [0])) := rfl
  rw [vrrpCtrlCmd, hctrl, hsplit]
  simp only [hat, ok_bind, hmatch cmdStop (by decide), hmatch cmdReload (by decide), hmatch cmdState (by decide),
    hmatch cmdStatus (by decide), hmatch cmdPrio (by decide)]
  rfl

private theorem vrrpCtrlRead_dangling (host : ByteOrder) {vrrp : Vrrp} (hm : vrrp.ctrl.msg.length = CTRL_MAXCHAR)
    (hlen : vrrp.ctrl.cmd.length = CTRL_CMD_NTOKEN) (hd : Dangling vrrp.ctrl.cmd) (vnet : VrrpNet) (reg : Reg) :
    ∃ written, vrrpCtrlRead host written vrrp vnet reg = .error .badAccess := by
  obtain ⟨x, y, z, hcmd⟩ := List.length_eq_three.mp hlen
  rw [hcmd] at hd
  rcases hd with hx | ⟨hy, hz⟩
  · obtain rfl : x = .wild := Option.some.inj hx
    refine ⟨blankMessage, ?_⟩
    rw [vrrpCtrlRead_whole host hm rfl]
    exact vrrpCtrlCmd_blank host (by rw [hcmd]) vnet reg
  · obtain rfl : y = .wild := Option.some.inj hy
    obtain rfl : z = .null := Option.some.inj hz
    refine ⟨barePrio, ?_⟩
    rw [vrrpCtrlRead_whole host hm rfl]
    exact vrrpCtrlCmd_bare host (by rw [hcmd]) vnet reg

section Step
variable {contents : Nat → UInt8} {host : ByteOrder} {inp : Input} {d : Daemon} {words : Nat → CmdPtr}

private theorem vrrpListenReady_ok {socket fifo : Bool} (hco : Coherent contents d) (hready : Ready d.vnet d.vrrp)
    (hp : Pointers words d.vrrp.ctrl) (hfifo : socket = false ∧ fifo = true → ¬ Dangling d.vrrp.ctrl.cmd) :
    ∃ r, vrrpListenReady host inp socket fifo d = .ok r := by
  rw [vrrpListenReady]
  cases socket with
  | true =>
    obtain ⟨⟨event, vnet⟩, hr⟩ := vrrpNetRecv_ok host hready inp.sock (inp.stack d.buf)
    obtain ⟨buf, hbuf⟩ := exists_buf hr
    rw [if_pos rfl, hbuf]
    exact ⟨_, rfl⟩
  | false =>
    cases fifo with
    | false => exact ⟨_, rfl⟩
    | true =>
      obtain ⟨r, hr⟩ : ∃ r, vrrpCtrlRead host inp.fifo d.vrrp d.vnet d.reg = .ok r :=
        vrrpCtrlRead_ok hco d.reg hp.1 hp.cmd_length (hfifo ⟨rfl, rfl⟩) inp.fifo
      rw [if_neg (by decide), if_pos rfl, hr]
      exact ⟨_, rfl⟩

theorem vrrpListen_ok (hco : Coherent contents d) (hready : Ready d.vnet d.vrrp) (hp : Pointers words d.vrrp.ctrl)
    (hid : runningTimer d.vrrp ≠ none) (hfifo : inp.pselect = .ready false true → ¬ Dangling d.vrrp.ctrl.cmd) :
    ∃ r, vrrpListen host inp d = .ok r := by
  obtain ⟨id, hid⟩ := Option.ne_none_iff_exists'.mp hid
  obtain ⟨a, m, heq⟩ := vrrpListen_waits host inp hid
  rw [heq]
  cases hend : waitEnd inp (d.vrrp.timer id) with
  | none => exact ⟨_, rfl⟩
  | some answer =>
    cases answer with
    | interrupted signals => exact ⟨_, rfl⟩
    | failed => exact ⟨_, rfl⟩
    | ready socket fifo =>
      refine vrrpListenReady_ok (hco.congr ⟨rfl, rfl⟩ rfl rfl) ?_ hp ?_
      · exact ⟨hready.own, hready.naddr, hready.pos, hready.password.known, hready.password.short⟩
      · rintro ⟨rfl, rfl⟩
        exact hfifo (waitEnd_eq_some hend)

theorem processStep_ok (hco : Coherent contents d) (ht : TimersMatch d.vrrp)
    (hl : d.vrrp.state = .init ∨ ∃ r, vrrpListen host inp d = .ok r) :
    ∃ d' out, processStep host inp d = .ok (d', out) := by
  suffices h : ∃ step r, vrrpDispatch host inp d = some step ∧ step = .ok r by
    obtain ⟨step, ⟨d', out⟩, hstep, rfl⟩ := h
    rw [processStep, vrrpProcess, hstep]
    exact ⟨_, _, rfl⟩
  rw [vrrpDispatch]
  rw [TimersMatch] at ht
  cases hs : d.vrrp.state with
  | init => exact ⟨_, _, rfl, rfl⟩
  | other value => simp [hs] at ht
  | backup =>
    obtain ⟨⟨event, d₁⟩, hr⟩ := hl.resolve_left (by simp [hs])
    exact ⟨_, _, rfl, congrArg (· >>= _) hr⟩
  | master =>
    obtain ⟨⟨event, d₁⟩, hr⟩ := hl.resolve_left (by simp [hs])
    have hco₁ := hco.heard (vrrpListen_cases hr)
    obtain ⟨r, hevent⟩ : ∃ r, masterEvent host inp.clockSet d₁ event = .ok r := by
      have hreload : ∃ r, masterReload host d₁ = .ok r := by
        rw [masterReload]
        simp only
        split
        · rw [vrrpAdvSendZero_spec host hco₁.prepared hco₁.fills hco₁.data]
          exact ⟨_, rfl⟩
        · exact ⟨_, rfl⟩
      cases event with
      | signal => exact hreload
      | ctrlFifo => exact hreload
      | _ => exact ⟨_, rfl⟩
    exact ⟨_, r, rfl, (congrArg (· >>= _) hr).trans hevent⟩

end Step

section Reached
variable {host : ByteOrder} {c : Config} {fresh : Fresh} {h : List (Entry Daemon Input Output)} {d : Daemon}

/-- In every state that is reached while the clock runs, `vrrp_process` succeeds, hooks
apart, unless it reads a control message while a word pointer dangles. -/
theorem History.safe (run : History host c fresh h d) (clock : ∀ e ∈ h, e.input.ClockRuns) (inp : Input) :
    (∃ d' out, processStep host inp d = .ok (d', out)) ∨
      inp.pselect = .ready false true ∧ Dangling d.vrrp.ctrl.cmd := by
  obtain ⟨contents, -, hco⟩ := run.coherent
  have ht := TimersMatch.history run clock
  by_cases hfifo : inp.pselect = .ready false true ∧ Dangling d.vrrp.ctrl.cmd
  · exact .inr hfifo
  left
  apply processStep_ok hco ht
  by_cases hi : d.vrrp.state = .init
  · exact .inl hi
  right
  refine vrrpListen_ok hco run.ready run.pointers ?_ (fun hsel hd => hfifo ⟨hsel, hd⟩)
  rw [ht.runningTimer]
  rw [TimersMatch] at ht
  cases hs : d.vrrp.state <;> simp_all [VrrpState.timer]

/-- While a pointer dangles, some message does the damage. -/
theorem History.messages_safe_iff (run : History host c fresh h d) :
    (∀ written, ∃ r, vrrpCtrlRead host written d.vrrp d.vnet d.reg = .ok r) ↔ ¬ Dangling d.vrrp.ctrl.cmd := by
  obtain ⟨contents, -, hco⟩ := run.coherent
  have hp := run.pointers
  constructor
  · intro hall hd
    obtain ⟨written, hbad⟩ := vrrpCtrlRead_dangling host hp.1 hp.cmd_length hd d.vnet d.reg
    obtain ⟨r, hr⟩ := hall written
    rw [hbad] at hr
    cases hr
  · intro hd written
    exact vrrpCtrlRead_ok hco d.reg hp.1 hp.cmd_length hd written

/-- Only fresh pointers dangle. -/
theorem History.dangling (run : History host c fresh h d) (hd : Dangling d.vrrp.ctrl.cmd) :
    Dangling ((List.range CTRL_CMD_NTOKEN).map fresh.words) ∧
      d.vrrp.ctrl.cmd = (List.range CTRL_CMD_NTOKEN).map fresh.words := by
  rcases run.pointers.2 with hnull | hfresh
  · rw [hnull] at hd
    exact absurd hd (by decide)
  · exact ⟨hfresh ▸ hd, hfresh⟩

end Reached

end Uvrrpd
