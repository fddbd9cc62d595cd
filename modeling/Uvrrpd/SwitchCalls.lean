import Uvrrpd.Fixed
import Uvrrpd.SwitchScript

/-! The calls of the script: the arguments that `vrrp_build_args` leaves for it, and the
commands that it runs on them. -/
namespace Uvrrpd

private theorem decimal_digit {n : Nat} {c : UInt8} (h : c ∈ decimal n) : 0x30 ≤ c ∧ c ≤ 0x39 := by
  obtain ⟨digit, hmem, rfl⟩ := List.mem_map.mp h
  have hdigit := Nat.isDigit_of_mem_toDigits (by decide) (by decide) hmem
  rw [Char.isDigit, Bool.and_eq_true, decide_eq_true_eq, decide_eq_true_eq] at hdigit
  have hlow : 48 ≤ digit.toNat := hdigit.1
  have hhigh : digit.toNat ≤ 57 := hdigit.2
  rw [UInt8.le_iff_toNat_le, UInt8.le_iff_toNat_le, UInt8.toNat_ofNat']
  simp only [UInt8.reduceToNat]
  omega

private theorem decimal_nul (n : Nat) : 0 ∉ decimal n :=
  fun h => absurd (decimal_digit h).1 (by decide)

private theorem decimal_word (n : Nat) : IsWord (decimal n) := by
  constructor
  · intro h
    exact Nat.toDigits_ne_nil (List.map_eq_nil_iff.mp h)
  · have hapart : ∀ s ∈ shellSpecial, ¬ (0x30 ≤ s ∧ s ≤ 0x39) := by simp [shellSpecial]
    exact fun c hc hspecial => hapart c hspecial (decimal_digit hc)

private theorem decimal_length {n : Nat} (h : n < 2 ^ 16) : (decimal n).length ≤ 5 := by
  rw [decimal, List.length_map, Nat.length_toDigits_le_iff (by decide) (by decide)]
  omega

/-- The arguments `$1` to `$8` of a script that `execve` starts with these buffers. -/
def scriptArgs (argv : List Octets) : List Octets := (argv.map cstring).drop 1

def ArgsCall.texts (inetNtop : Family → Octets → Octets) (c : ArgsCall) (ifname : Octets) : List Octets :=
  [STR_STATE c.state, decimal c.vrrp.vrid.toNat, ifname, decimal c.vrrp.priority.toNat, decimal c.vrrp.advInt.toNat,
    decimal c.vrrp.naddr.toNat, decimal (familyDigit c.vnet.family), [0x2c].intercalate (vipTexts inetNtop c.vnet)]

private theorem cstring_argBuffer {text : Octets} (hnul : 0 ∉ text) (hlen : text.length < SCRIPT_ARG_MAX) :
    cstring (argBuffer text) = text := by
  obtain ⟨k, hk⟩ : ∃ k, SCRIPT_ARG_MAX - text.length = k + 1 := ⟨SCRIPT_ARG_MAX - text.length - 1, by omega⟩
  rw [argBuffer, hk, List.replicate_succ, cstring, takeWhile_nul hnul]

/-- An argument is printed as it is, into its own buffer. -/
private theorem printArg_text {argv : List Octets} (h : UsableArgv argv) {i : Nat} (hi : i < SCRIPT_NARGS - 2)
    (text : Octets) :
    ∃ buf, printArg argv i text = .ok (argv.set i buf) ∧ UsableArgv (argv.set i buf) ∧
      (0 ∉ text → text.length < SCRIPT_ARG_MAX → cstring buf = text) := by
  obtain ⟨buf, hbuf, hsize⟩ := h.size i (by omega)
  have hmax : 0 < SCRIPT_ARG_MAX := by decide
  have hfit : 0 + (text.take (SCRIPT_ARG_MAX - 1) ++ [0]).length ≤ buf.length := by
    rw [hsize, List.length_append, List.length_take, List.length_singleton]
    omega
  obtain ⟨out, hout⟩ : ∃ out, buf.take 0 ++ (text.take (SCRIPT_ARG_MAX - 1) ++ [0]) ++
    buf.drop (0 + (text.take (SCRIPT_ARG_MAX - 1) ++ [0]).length) = out := ⟨_, rfl⟩
  have hstore := store_eq_ok.mpr (Library.Memory.write_eq_some.mpr ⟨hfit, hout⟩)
  refine ⟨out, ?_, h.set ?_ (fun heq => absurd heq (by omega)), ?_⟩
  · rw [printArg, hbuf]
    simp only [deref, ok_bind, snprintf, hstore]
    rfl
  · rw [← hout, List.length_append, List.length_append, List.length_drop, List.take_zero, List.length_nil]
    omega
  · intro hnul hlen
    have htake : text.take (SCRIPT_ARG_MAX - 1) = text := List.take_of_length_le (by omega)
    rw [← hout, htake, List.take_zero, List.nil_append, List.append_assoc]
    exact takeWhile_nul hnul _

private theorem exists_buffers : ∀ {argv : List Octets}, argv.length = 9 →
    ∃ a₀ a₁ a₂ a₃ a₄ a₅ a₆ a₇ a₈, argv = [a₀, a₁, a₂, a₃, a₄, a₅, a₆, a₇, a₈]
  | [_, _, _, _, _, _, _, _, _], _ => ⟨_, _, _, _, _, _, _, _, _, rfl⟩

/-- What `vrrp_build_args` writes is what the script reads. -/
private theorem build_texts {inetNtop : Family → Octets → Octets} {argv : List Octets} {c : ArgsCall} {ifname : Octets}
    (h : UsableArgv argv) (hfits : HookFits inetNtop c.vnet) (hif : c.vnet.vif.ifname = some ifname)
    (hnul : 0 ∉ ifname) (hlen : ifname.length < SCRIPT_ARG_MAX) (hne : ∀ t ∈ vipTexts inetNtop c.vnet, t ≠ []) :
    ∃ argv', c.build inetNtop argv = .ok argv' ∧ UsableArgv argv' ∧ scriptArgs argv' = c.texts inetNtop ifname := by
  have hmax : 5 < SCRIPT_ARG_MAX := by decide
  have hstate (state : VrrpState) : 0 ∉ STR_STATE state ∧ (STR_STATE state).length < SCRIPT_ARG_MAX := by
    cases state with
    | other => exact (show 0 ∉ STR_STATE .master ∧ (STR_STATE .master).length < SCRIPT_ARG_MAX by decide)
    | _ => decide
  have hdecimal {n : Nat} (hn : n < 2 ^ 16) : (decimal n).length < SCRIPT_ARG_MAX :=
    Nat.lt_of_le_of_lt (decimal_length hn) hmax
  have hoctet (n : UInt8) : n.toNat < 2 ^ 16 := Nat.lt_trans n.toNat_lt (by decide)
  have hfamily : familyDigit c.vnet.family < 2 ^ 16 := by cases c.vnet.family <;> decide
  obtain ⟨b₀, e₀, h, -⟩ := printArg_text h (i := 0) (by decide) (scriptBasename c.scriptname)
  obtain ⟨b₁, e₁, h, t₁⟩ := printArg_text h (i := 1) (by decide) (STR_STATE c.state)
  obtain ⟨b₂, e₂, h, t₂⟩ := printArg_text h (i := 2) (by decide) (decimal c.vrrp.vrid.toNat)
  obtain ⟨b₃, e₃, h, t₃⟩ := printArg_text h (i := 3) (by decide) ifname
  obtain ⟨b₄, e₄, h, t₄⟩ := printArg_text h (i := 4) (by decide) (decimal c.vrrp.priority.toNat)
  obtain ⟨b₅, e₅, h, t₅⟩ := printArg_text h (i := 5) (by decide) (decimal c.vrrp.advInt.toNat)
  obtain ⟨b₆, e₆, h, t₆⟩ := printArg_text h (i := 6) (by decide) (decimal c.vrrp.naddr.toNat)
  obtain ⟨b₇, e₇, h, t₇⟩ := printArg_text h (i := 7) (by decide) (decimal (familyDigit c.vnet.family))
  obtain ⟨text, htnul, htlen, hlast⟩ := h.vips
  obtain ⟨htexts, hcount⟩ := hfits.vips
  obtain ⟨hvips, hnul', hlen'⟩ := vipsArg_spec htnul htlen htexts hcount
  have hlist := h.set (i := SCRIPT_NARGS - 2) (argBuffer_length (Nat.le_of_lt hlen')) (fun _ => ⟨_, hnul', hlen', rfl⟩)
  refine ⟨_, ?_, hlist, ?_⟩
  · rw [ArgsCall.build, vrrpBuildArgs, hif]
    simp only [deref, ok_bind, e₀, e₁, e₂, e₃, e₄, e₅, e₆, e₇, hlast, hvips]
    rfl
  · have hjoined : cstring (argBuffer ((vipTexts inetNtop c.vnet).foldl joined [])) =
        [0x2c].intercalate (vipTexts inetNtop c.vnet) := by
      rw [← vipTexts] at hnul' hlen'
      rw [cstring_argBuffer hnul' hlen', foldl_joined_nil hne]
    have hcount' : argv.length = 9 := by
      have hcount := h.count
      simpa [SCRIPT_NARGS] using hcount
    obtain ⟨_, _, _, _, _, _, _, _, _, rfl⟩ := exists_buffers hcount'
    simp only [scriptArgs, SCRIPT_NARGS, List.set_cons_zero, List.set_cons_succ, List.map_cons, List.map_nil,
      List.drop_succ_cons, List.drop_zero, ArgsCall.texts, t₁ (hstate _).1 (hstate _).2,
      t₂ (decimal_nul _) (hdecimal (hoctet _)), t₃ hnul hlen, t₄ (decimal_nul _) (hdecimal (hoctet _)),
      t₅ (decimal_nul _) (hdecimal c.vrrp.advInt.toNat_lt), t₆ (decimal_nul _) (hdecimal (hoctet _)),
      t₇ (decimal_nul _) (hdecimal hfamily)]
    rw [← hjoined, vipTexts]

/-- The interface of a configuration, and what the names and texts have to be like for the
shell and for `ip`. -/
structure Addressable {H : Type} (tools : HostTools H) (inetNtop : Family → Octets → Octets) (c : Config)
    (ifname : Octets) : Prop where
  vif : c.vif.ifname = some ifname
  word : IsWord ifname
  nul : 0 ∉ ifname
  name : DevName (switchInterface ifname (decimal c.vrid.toNat))
  texts : Texts inetNtop
  vips : ∀ vip ∈ c.vips, IsWord (inetNtop c.family (vip.ipx.octets c.family)) ∧
    tools.parse (decimal (familyDigit c.family)) (inetNtop c.family (vip.ipx.octets c.family)) =
      some (vip.ipx.octets c.family)

/-- A call hands over a configuration, whatever the priority and the interval are by then. -/
structure HandsOver (c : Config) (call : ArgsCall) : Prop where
  vrid : call.vrrp.vrid = c.vrid
  vif : call.vnet.vif = c.vif
  family : call.vnet.family = c.family
  vips : call.vnet.vipList = c.vips

theorem Configured.handsOver {c : Config} {d : Daemon} (h : Configured c d) (scriptname : Octets) (state : VrrpState) :
    HandsOver c ⟨scriptname, d.vrrp, d.vnet, state⟩ where
  vrid := h.vrid
  vif := h.vif
  family := h.family
  vips := h.vips

def Config.interface (c : Config) (ifname : Octets) : Octets := switchInterface ifname (decimal c.vrid.toNat)

def scriptCommands (inet6 : Bool) (inetNtop : Family → Octets → Octets) (c : Config) (ifname : Octets) :
    VrrpState → List ShellCommand
  | .init =>
    adjustSysctl [(.rpFilter, 0), (.arpIgnore, 1), (.arpAnnounce, 2)] ++
      if inet6 then adjustSysctl [(.autoconf, 0), (.acceptRa, 0), (.forwarding, 1)] else []
  | .backup => [.linkDel (c.interface ifname)]
  | _ =>
    .linkAdd ifname (macPrefix ++ printfHex (decimal c.vrid.toNat)) (c.interface ifname) ::
      c.vips.reverse.map (fun vip => .addrAdd (decimal (familyDigit c.family))
        (inetNtop c.family (vip.ipx.octets c.family)) (c.interface ifname)) ++ [.linkUp (c.interface ifname)]

section
variable {H : Type} {tools : HostTools H} {inetNtop : Family → Octets → Octets} {c : Config} {ifname : Octets}

private theorem Addressable.interface_length (h : Addressable tools inetNtop c ifname) :
    ifname.length < SCRIPT_ARG_MAX := by
  have hlen := h.name.length
  rw [switchInterface, List.length_append, List.length_cons] at hlen
  have hmax : IFNAMSIZ < SCRIPT_ARG_MAX := by decide
  omega

theorem HandsOver.texts {call : ArgsCall} (h : HandsOver c call) :
    vipTexts inetNtop call.vnet = c.vips.reverse.map (fun vip => inetNtop c.family (vip.ipx.octets c.family)) := by
  rw [vipTexts, h.vips]
  exact List.map_congr_left (fun vip _ => by rw [ipxToStr, h.family])

private theorem HandsOver.hookFits {call : ArgsCall} (h : HandsOver c call) (ha : Addressable tools inetNtop c ifname) :
    HookFits inetNtop call.vnet where
  ifname := by rw [h.vif, ha.vif]; exact Option.some_ne_none _
  count := by rw [h.vips]; exact c.vips_le
  texts := ha.texts

/-- The texts of the VIPs are words, and come back from the list between commas. -/
theorem HandsOver.fields {call : ArgsCall} (h : HandsOver c call) (ha : Addressable tools inetNtop c ifname) :
    (∀ ip ∈ vipTexts inetNtop call.vnet, IsWord ip) ∧
      ipsFields ([0x2c].intercalate (vipTexts inetNtop call.vnet)) = vipTexts inetNtop call.vnet := by
  have hword (ip : Octets) (hip : ip ∈ vipTexts inetNtop call.vnet) : IsWord ip := by
    rw [h.texts] at hip
    obtain ⟨vip, hmem, rfl⟩ := List.mem_map.mp hip
    exact (ha.vips vip (List.mem_reverse.mp hmem)).1
  refine ⟨hword, ?_⟩
  have hnil : vipTexts inetNtop call.vnet ≠ [] := by
    rw [h.texts, Ne, List.map_eq_nil_iff, List.reverse_eq_nil_iff]
    exact List.ne_nil_of_length_pos c.vips_pos
  have hsplit := List.splitOn_intercalate 0x2c (fun ip hip hc => (hword ip hip).2 _ hc (by decide)) hnil
  have hlast : (vipTexts inetNtop call.vnet).getLast? ≠ some [] :=
    fun hl => (hword [] (List.mem_of_getLast? hl)).1 rfl
  simp only [ipsFields, hsplit, if_neg hlast]

/-- A call of `vrrp_build_args` and then of the script: the buffers stay usable, and the
script writes its report and runs the commands for the state. -/
theorem HandsOver.switch {call : ArgsCall} (h : HandsOver c call) (ha : Addressable tools inetNtop c ifname)
    {argv : List Octets} (husable : UsableArgv argv) (inet6 : Bool) :
    ∃ argv' text, call.build inetNtop argv = .ok argv' ∧ UsableArgv argv' ∧ text.state = STR_STATE call.state ∧
      vrrpSwitch inet6 (scriptArgs argv') = some (.report (stateFile ifname (decimal c.vrid.toNat)) text ::
        scriptCommands inet6 inetNtop c ifname call.state) := by
  obtain ⟨hword, hfields⟩ := h.fields ha
  have hif : call.vnet.vif.ifname = some ifname := by rw [h.vif, ha.vif]
  obtain ⟨argv', hbuild, husable', htexts⟩ :=
    build_texts husable (h.hookFits ha) hif ha.nul ha.interface_length (fun t ht => (hword t ht).1)
  refine ⟨argv', ⟨STR_STATE call.state, decimal call.vrrp.vrid.toNat, ifname, decimal call.vrrp.priority.toNat,
    decimal call.vrrp.advInt.toNat, decimal call.vrrp.naddr.toNat,
    [0x2c].intercalate (vipTexts inetNtop call.vnet)⟩, hbuild, husable', rfl, ?_⟩
  have hmaster : (IsWord (decimal call.vrrp.vrid.toNat) ∧ IsWord ifname ∧
      IsWord (decimal (familyDigit call.vnet.family)) ∧
      ∀ ip ∈ ipsFields ([0x2c].intercalate (vipTexts inetNtop call.vnet)), IsWord ip) :=
    ⟨decimal_word _, ha.word, decimal_word _, by rw [hfields]; exact hword⟩
  rw [htexts, vrrpSwitch, ArgsCall.texts]
  simp only [List.getD_cons_zero, List.getD_cons_succ]
  cases hstate : call.state with
  | init => rw [if_pos rfl, h.vrid]; rfl
  | backup =>
    rw [if_neg (by decide), if_neg (by decide), if_pos rfl, if_pos ⟨decimal_word _, ha.word⟩, h.vrid]
    rfl
  | master =>
    rw [if_neg (by decide), if_pos rfl, if_pos hmaster, hfields, h.texts, h.vrid, h.family, List.map_map]
    rfl
  | other value =>
    have hother : STR_STATE (.other value) = STR_STATE .master := rfl
    rw [hother, if_neg (by decide), if_pos rfl, if_pos hmaster, hfields, h.texts, h.vrid, h.family, List.map_map]
    rfl

end

end Uvrrpd
