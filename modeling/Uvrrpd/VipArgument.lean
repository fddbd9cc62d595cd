import Uvrrpd.HookArgs
import Uvrrpd.Startup

/-! The argument with the VIPs, from the buffer that is printed to the list that the
script walks. -/
namespace Uvrrpd

/-- A text of an address is not empty, and tells itself from the next behind a comma. -/
structure Separable (inetNtop : Family → Octets → Octets) : Prop where
  nonempty : ∀ family addr, inetNtop family addr ≠ []
  comma : ∀ family addr, 0x2c ∉ inetNtop family addr

/-- The words of `for ip in $ips` under `IFS=','`: a comma ends a field, and nothing
behind the last one is no field. -/
def ipsFields (ips : Octets) : List Octets :=
  let fields := ips.splitOn 0x2c
  if fields.getLast? = some [] then fields.dropLast else fields

structure ArgsCall where
  scriptname : Octets
  vrrp : Vrrp
  vnet : VrrpNet
  state : VrrpState

def ArgsCall.build (inetNtop : Family → Octets → Octets) (argv : List Octets) (c : ArgsCall) :
    Except Fault (List Octets) :=
  vrrpBuildArgs inetNtop c.scriptname argv c.vrrp c.vnet c.state

def vipTexts (inetNtop : Family → Octets → Octets) (vnet : VrrpNet) : List Octets :=
  vnet.vipList.reverse.map (ipxToStr inetNtop vnet)

/-- The eighth argument lists these texts and nothing else, and the script finds each of
them in its turn. -/
structure Lists (texts : List Octets) (argv : List Octets) : Prop where
  buffer : ∃ buf, argv[8]? = some buf ∧ buf.length = SCRIPT_ARG_MAX ∧
    strlen buf = .ok ([0x2c].intercalate texts).length ∧ cstring buf = [0x2c].intercalate texts ∧
    ∀ octet ∈ buf.drop ([0x2c].intercalate texts).length, octet = 0
  fields : ipsFields ([0x2c].intercalate texts) = texts
  first : ([0x2c].intercalate texts).head? ≠ some 0x2c
  last : ([0x2c].intercalate texts).getLast? ≠ some 0x2c

/-- From any text on, the loop puts a comma in front of each next one. -/
private theorem foldl_joined {texts : List Octets} (hne : ∀ next ∈ texts, next ≠ []) {text : Octets} (h : text ≠ []) :
    texts.foldl joined text = [0x2c].intercalate (text :: texts) := by
  induction texts generalizing text with
  | nil => simp
  | cons next rest ih =>
    have hjoined : joined text next = text ++ 0x2c :: next := by rw [joined, if_neg h]
    have happend : [0x2c].intercalate ((text ++ 0x2c :: next) :: rest) =
        text ++ [0x2c] ++ [0x2c].intercalate (next :: rest) := by
      cases rest <;> simp
    rw [List.foldl_cons, ih (fun t ht => hne t (List.mem_cons_of_mem _ ht)) (by simp [hjoined]), hjoined, happend,
      List.intercalate_cons_cons]

theorem foldl_joined_nil {texts : List Octets} (hne : ∀ next ∈ texts, next ≠ []) :
    texts.foldl joined [] = [0x2c].intercalate texts := by
  cases texts with
  | nil => rfl
  | cons text rest =>
    have hjoined : joined [] text = text := by rw [joined, if_pos rfl]
    rw [List.foldl_cons, hjoined]
    exact foldl_joined (fun t ht => hne t (List.mem_cons_of_mem _ ht)) (hne text List.mem_cons_self)

private theorem intercalate_head? {sep text : Octets} {rest : List Octets} (h : text ≠ []) :
    (sep.intercalate (text :: rest)).head? = text.head? := by
  obtain ⟨c, tail, rfl⟩ := List.exists_cons_of_ne_nil h
  simp

private theorem intercalate_getLast? {sep : Octets} {texts : List Octets} {text : Octets} (h : text ≠ []) :
    (sep.intercalate (texts ++ [text])).getLast? = text.getLast? := by
  induction texts with
  | nil => simp
  | cons first rest ih =>
    rw [List.cons_append, List.intercalate_cons_of_ne_nil (by simp), List.getLast?_append, ih]
    obtain ⟨c, hc⟩ := Option.isSome_iff_exists.mp (List.getLast?_isSome.mpr h)
    rw [hc]
    rfl

/-- Texts without commas come back one by one, with no comma at either end. -/
private theorem lists_of_buffer {texts : List Octets} {argv : List Octets} (hnil : texts ≠ [])
    (hne : ∀ t ∈ texts, t ≠ [])
    (hcomma : ∀ t ∈ texts, 0x2c ∉ t) (hnul : 0 ∉ [0x2c].intercalate texts)
    (hlen : ([0x2c].intercalate texts).length < SCRIPT_ARG_MAX)
    (hbuf : argv[8]? = some (argBuffer ([0x2c].intercalate texts))) : Lists texts argv where
  buffer := by
    have hstrlen := strlen_argBuffer hnul hlen
    refine ⟨_, hbuf, argBuffer_length (Nat.le_of_lt hlen), hstrlen, ?_, ?_⟩
    · obtain ⟨k, hk⟩ : ∃ k, SCRIPT_ARG_MAX - ([0x2c].intercalate texts).length = k + 1 :=
        ⟨SCRIPT_ARG_MAX - ([0x2c].intercalate texts).length - 1, by omega⟩
      rw [argBuffer, hk, List.replicate_succ, cstring, takeWhile_nul hnul]
    · rw [argBuffer, List.drop_left]
      exact fun octet hmem => List.eq_of_mem_replicate hmem
  fields := by
    have hsplit : ([0x2c].intercalate texts).splitOn 0x2c = texts := List.splitOn_intercalate 0x2c hcomma hnil
    have hlast : texts.getLast? ≠ some [] := fun h => hne [] (List.mem_of_getLast? h) rfl
    simp only [ipsFields, hsplit, if_neg hlast]
  first := by
    obtain ⟨text, rest, rfl⟩ := List.exists_cons_of_ne_nil hnil
    rw [intercalate_head? (hne text List.mem_cons_self)]
    exact fun h => hcomma text List.mem_cons_self (List.mem_of_head? h)
  last := by
    obtain ⟨front, text, rfl⟩ := (List.eq_nil_or_concat' texts).resolve_left hnil
    rw [intercalate_getLast? (hne text (by simp))]
    exact fun h => hcomma text (by simp) (List.mem_of_getLast? h)

section
variable {inetNtop : Family → Octets → Octets}

/-- Any number of calls leave a usable array. -/
private theorem builds_usable {argv : List Octets} (h : UsableArgv argv) {calls : List ArgsCall}
    (hfits : ∀ c ∈ calls, HookFits inetNtop c.vnet) :
    ∃ argv', calls.foldlM (ArgsCall.build inetNtop) argv = .ok argv' ∧ UsableArgv argv' := by
  induction calls generalizing argv with
  | nil => exact ⟨argv, rfl, h⟩
  | cons c rest ih =>
    obtain ⟨argv₁, hbuild, husable, -⟩ :=
      vrrpBuildArgs_spec h (hfits c List.mem_cons_self) c.scriptname c.vrrp c.state
    obtain ⟨argv', hrest, husable'⟩ := ih husable (fun c' hc' => hfits c' (List.mem_cons_of_mem _ hc'))
    refine ⟨argv', ?_, husable'⟩
    rw [List.foldlM_cons, ArgsCall.build, hbuild]
    exact hrest

/-- Whatever has been built before in the buffers of `vrrp_exec_init`, the argument holds
the texts of the VIPs between single commas, and a script gets each VIP once. No octet
outside a buffer is written, on the way and at the end. -/
theorem vips_round_trip {array : Bool} {buffers : Nat → Bool} {argv₀ : List Octets} {earlier : List ArgsCall}
    {c : ArgsCall} (hsep : Separable inetNtop) (hinit : vrrpExecInit array buffers = some argv₀)
    (hearlier : ∀ e ∈ earlier, HookFits inetNtop e.vnet) (hfits : HookFits inetNtop c.vnet)
    (hvips : c.vnet.vipList ≠ []) :
    ∃ argv argv', earlier.foldlM (ArgsCall.build inetNtop) argv₀ = .ok argv ∧ c.build inetNtop argv = .ok argv' ∧
      (∀ i < 9, ∃ buf, argv'[i]? = some buf ∧ buf.length = SCRIPT_ARG_MAX) ∧
      Lists (vipTexts inetNtop c.vnet) argv' := by
  obtain ⟨argv, hrun, husable⟩ := builds_usable (vrrpExecInit_usable hinit) hearlier
  obtain ⟨argv', hbuild, husable', hbuf⟩ := vrrpBuildArgs_spec husable hfits c.scriptname c.vrrp c.state
  refine ⟨argv, argv', hrun, hbuild, husable'.size, ?_⟩
  have htext (t : Octets) (ht : t ∈ vipTexts inetNtop c.vnet) : t ≠ [] ∧ 0x2c ∉ t := by
    obtain ⟨vip, -, rfl⟩ := List.mem_map.mp ht
    exact ⟨hsep.nonempty _ _, hsep.comma _ _⟩
  have hjoined : (vipTexts inetNtop c.vnet).foldl joined [] = [0x2c].intercalate (vipTexts inetNtop c.vnet) :=
    foldl_joined_nil (fun t ht => (htext t ht).1)
  obtain ⟨htexts, hcount⟩ := hfits.vips
  obtain ⟨-, hnul, hlen⟩ := vipsLoop_spec (List.not_mem_nil (a := 0)) htexts (by simpa using hcount)
  rw [← vipTexts, hjoined] at hnul hlen hbuf
  exact lists_of_buffer (by simpa [vipTexts] using hvips) (fun t ht => (htext t ht).1) (fun t ht => (htext t ht).2)
    hnul hlen hbuf

end

def labNtop (_ : Family) (addr : Octets) : Octets :=
  if addr = [192, 0, 2, 21] then labVip.take 9 ++ [0x31] else labVip.take 9 ++ [0x32]

def vip21 : IpxAddr := { IpxAddr.zero with addr := ⟨[192, 0, 2, 21], rfl⟩ }
def vip22 : IpxAddr := { IpxAddr.zero with addr := ⟨[192, 0, 2, 22], rfl⟩ }

def labArgs (vips : List IpxAddr) : ArgsCall where
  scriptname := VRRP_SCRIPT
  vrrp := vrrpInit ⟨[], []⟩
  vnet := { vrrpNetInit ⟨none, none, none⟩ with
    vif := ⟨some labIfname, 1500, .zero⟩
    vipList := vips.map (fun ipx => ⟨ipx, 0, ⟨none, none, none⟩⟩) }
  state := .master

private theorem labNtop_cases (P : Octets → Prop) (h₁ : P (labVip.take 9 ++ [0x31]))
    (h₂ : P (labVip.take 9 ++ [0x32])) (family : Family) (addr : Octets) : P (labNtop family addr) := by
  rw [labNtop]
  split
  · exact h₁
  · exact h₂

private theorem labArgs_fits {vips : List IpxAddr} (h : vips.length ≤ VIP_MAX) :
    HookFits labNtop (labArgs vips).vnet where
  ifname := Option.some_ne_none _
  count := by simpa [labArgs] using h
  texts := ⟨labNtop_cases (·.length < INET6_ADDRSTRLEN) (by decide) (by decide),
    labNtop_cases (0 ∉ ·) (by decide) (by decide)⟩

/-- `192.0.2.22,192.0.2.21` in the place of a longer list. -/
theorem vips_round_trip_lab : ∃ argv₀ argv argv', vrrpExecInit true (fun _ => true) = some argv₀ ∧
    [labArgs [vip21, vip22, vip21]].foldlM (ArgsCall.build labNtop) argv₀ = .ok argv ∧
    (labArgs [vip21, vip22]).build labNtop argv = .ok argv' ∧
      Lists [labVip.take 9 ++ [0x32], labVip.take 9 ++ [0x31]] argv' := by
  obtain ⟨argv₀, hinit⟩ : ∃ argv₀, vrrpExecInit true (fun _ => true) = some argv₀ := ⟨_, rfl⟩
  have hsep : Separable labNtop :=
    ⟨labNtop_cases (· ≠ []) (by decide) (by decide), labNtop_cases (0x2c ∉ ·) (by decide) (by decide)⟩
  have hearlier : ∀ e ∈ [labArgs [vip21, vip22, vip21]], HookFits labNtop e.vnet := by
    intro e he
    obtain rfl := List.mem_singleton.mp he
    exact labArgs_fits (by decide)
  obtain ⟨argv, argv', hrun, hbuild, -, hlists⟩ := vips_round_trip hsep hinit hearlier
    (c := labArgs [vip21, vip22]) (labArgs_fits (by decide)) (List.cons_ne_nil _ _)
  exact ⟨argv₀, argv, argv', hinit, hrun, hbuild, hlists⟩

end Uvrrpd
