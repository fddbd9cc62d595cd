import Uvrrpd.Numerals
import Uvrrpd.Settings
import Uvrrpd.Startup

/-! When the parser returns 0. Every return but one behind a diagnosis has another
value, and what passes all tests is a complete command line, of which the count of
VIPs may be kept wrongly. -/
namespace Uvrrpd
open Library.Getopt
open Library.Memory (bind_eq_ok)

/-- A `return` from within the switch follows a call of `vrrp_usage`, except for want of memory. -/
def Opt.showsUsage : Opt → Bool
  | .interface => false
  | .script => false
  | _ => true

def loopUsage (sys : OptionCalls) : Nat → List (Found Opt) → Parsed → Bool
  | _, [], _ => false
  | _, .unknown :: _, _ => true
  | k, .opt o optarg :: rest, p =>
    match vrrpOption (sys.strndup k) sys.argMax o optarg p with
    | .error _ => o.showsUsage
    | .ok p => loopUsage sys (k + 1) rest p

def operandsUsage (sys : OptionCalls) (operands : List Octets) (p : Parsed) : Bool :=
  operands == [] || !(vipLoop sys 0 operands p.vnet).1 || p.vrrp.vrid == 0 || p.vnet.vif.ifname == none

def vrrpOptionsUsage (sys : OptionCalls) (args : List Octets) (p : Parsed) : Bool :=
  let (found, operands) := opts.getoptLong sys.posixlyCorrect none args
  match optionLoop sys 0 found p with
  | .error _ => loopUsage sys 0 found p
  | .ok p => operandsUsage sys operands p

def given (found : List (Found Opt)) (o : Opt) : Bool :=
  found.any (fun | .opt o' _ => o' == o | .unknown => false)

def requestedFamily (found : List (Found Opt)) : Family := if given found .ipv6 then .inet6 else .inet

def TakesVip (sys : OptionCalls) (family : Family) (ip : Octets) : Prop :=
  match family with
  | .inet => (splitIpNetmask sys.inetPton IP4_NMASK ip).isSome
  | .inet6 => (splitIpNetmask sys.inetPton6 IP6_NMASK ip).isSome

/-- The parser finds nothing to refuse, and memory wherever it asks for it. -/
structure Acceptable (sys : OptionCalls) (found : List (Found Opt)) (operands : List Octets) : Prop where
  options : ∀ a ∈ answered sys 0 found, Passes a
  nonempty : operands ≠ []
  vips : ∀ ip ∈ operands, TakesVip sys (requestedFamily found) ip
  memory : ∀ k < operands.length, (sys.vip k).isSome
  vrid : given found .vrid = true
  interface : given found .interface = true
  addresses : sys.getifaddrs.isSome

theorem settings_isSome (sys : OptionCalls) (found : List (Found Opt)) (k : Nat) (o : Opt) :
    (settings (answered sys k found) o).isSome = given found o := by
  induction found generalizing k with
  | nil => rfl
  | cons f rest ih =>
    cases f with
    | unknown => exact ih (k + 1)
    | opt o' optarg =>
      have hrest := ih (k + 1)
      rw [answered, settings, Option.isSome_or, hrest, given, given, List.any_cons, Bool.or_comm]
      by_cases h : o' = o <;> simp [h]

/-- Every option found is answered. -/
theorem answered_mem (sys : OptionCalls) {found : List (Found Opt)} (k : Nat) {f : Found Opt} (h : f ∈ found) :
    ∃ memory, (memory, f) ∈ answered sys k found := by
  induction found generalizing k with
  | nil => cases h
  | cons g rest ih =>
    rw [answered]
    rcases List.mem_cons.mp h with rfl | h
    · exact ⟨_, List.mem_cons_self⟩
    · obtain ⟨memory, hmem⟩ := ih (k + 1) h
      exact ⟨memory, List.mem_cons_of_mem _ hmem⟩

/-- What was said last of an option was said. -/
theorem settings_mem {l : List (Bool × Found Opt)} {o : Opt} {a : Bool × Octets} (h : settings l o = some a) :
    (a.1, .opt o a.2) ∈ l := by
  induction l with
  | nil => cases h
  | cons f rest ih =>
    obtain ⟨memory, f⟩ := f
    cases f with
    | unknown => exact List.mem_cons_of_mem _ (ih h)
    | opt o' optarg =>
      rw [settings, Option.or_eq_some_iff] at h
      rcases h with h | ⟨-, h⟩
      · exact List.mem_cons_of_mem _ (ih h)
      · split at h
        · next heq =>
          obtain rfl := Option.some.inj h
          rw [heq]
          exact List.mem_cons_self
        · cases h

/-- What the loop over the options has found out when it is left through its end. -/
private theorem optionLoop_given {sys : OptionCalls} {found : List (Found Opt)} {ctrl : VrrpCtrl} {adv : Frame}
    {q : Parsed}
    (h : optionLoop sys 0 found (.blank ctrl adv) = .ok q) :
    (q.vrrp.vrid ≠ 0 ↔ given found .vrid = true) ∧ (q.vnet.vif.ifname ≠ none ↔ given found .interface = true) ∧
      q.vnet.family = requestedFamily found := by
  have hpass := (optionLoop_ok_iff sys found 0 _).mp ⟨q, h⟩
  have hq := optionLoop_eq h
  refine ⟨?_, ?_, ?_⟩
  · rw [← settings_isSome sys found 0 .vrid, hq]
    cases hs : settings (answered sys 0 found) .vrid with
    | none => simp [Parsed.set, hs, Parsed.blank, vrrpInit]
    | some a =>
      obtain ⟨⟨opt, hopt, hpos⟩, -⟩ := hpass _ (settings_mem hs)
      have hle := mystrtoul_le hopt
      have hnum : number a.2 VRID_MAX = opt := by rw [number, hopt]
      have hne : UInt8.ofNat opt ≠ 0 := by
        rw [ne_eq, ← UInt8.toNat_inj, UInt8.toNat_ofNat', UInt8.toNat_zero]
        rw [VRID_MAX] at hle
        omega
      simp [Parsed.set, hs, hnum, hne]
  · rw [← settings_isSome sys found 0 .interface, hq]
    cases hs : settings (answered sys 0 found) .interface with
    | none => simp [Parsed.set, hs, Parsed.blank, vrrpNetInit]
    | some a =>
      obtain ⟨-, -, hmem⟩ := hpass _ (settings_mem hs)
      have hone : a.1 = true := hmem (.inl rfl)
      simp [Parsed.set, hs, strndup, hone]
  · rw [requestedFamily, ← settings_isSome sys found 0 .ipv6, hq]
    cases hs : settings (answered sys 0 found) .ipv6 <;> simp [Parsed.set, hs, Parsed.blank, vrrpNetInit]

private theorem vrrpNetVipSet_cases (sys : OptionCalls) (k : Nat) (vnet : VrrpNet) (ip : Octets) :
    ((sys.vip k).isSome ∧ TakesVip sys vnet.family ip ∧
        ∃ vip, vrrpNetVipSet sys k vnet ip = (true, { vnet with vipList := vnet.vipList ++ [vip] })) ∨
      ¬ ((sys.vip k).isSome ∧ TakesVip sys vnet.family ip) ∧ vrrpNetVipSet sys k vnet ip = (false, vnet) := by
  have hfill (vip : VrrpIp) : (fillVip sys vnet.family ip vip).isSome ↔ TakesVip sys vnet.family ip := by
    cases hf : vnet.family <;> simp [fillVip, TakesVip]
  rw [vrrpNetVipSet]
  cases hk : sys.vip k with
  | none => exact .inr ⟨by simp, rfl⟩
  | some vip =>
    rw [← hfill vip, Option.bind_some]
    cases hf : fillVip sys vnet.family ip vip with
    | none => exact .inr ⟨by simp, rfl⟩
    | some vip' => exact .inl ⟨rfl, rfl, vip', rfl⟩

/-- The loop over the VIPs. -/
private theorem vipLoop_iff (sys : OptionCalls) (operands : List Octets) (k : Nat) (vnet : VrrpNet) :
    (vipLoop sys k operands vnet).1 = true ↔
      (∀ ip ∈ operands, TakesVip sys vnet.family ip) ∧ ∀ i < operands.length, (sys.vip (k + i)).isSome := by
  induction operands generalizing k vnet with
  | nil => simp [vipLoop]
  | cons ip rest ih =>
    have hturns := forall_turns_succ (fun i => (sys.vip i).isSome = true) k rest.length
    rw [vipLoop, List.forall_mem_cons, List.length_cons, hturns]
    rcases vrrpNetVipSet_cases sys k vnet ip with ⟨hmem, htakes, vip, hset⟩ | ⟨hno, hset⟩
    · rw [hset]
      simp only [ih]
      constructor
      · rintro ⟨hvips, hrest⟩
        exact ⟨⟨htakes, hvips⟩, hmem, hrest⟩
      · rintro ⟨⟨-, hvips⟩, -, hrest⟩
        exact ⟨hvips, hrest⟩
    · rw [hset]
      simp only [Bool.false_eq_true, false_iff]
      rintro ⟨⟨htakes, -⟩, hmem, -⟩
      exact hno ⟨hmem, htakes⟩

/-- Behind the loop over the options, 0 is returned when all tests are passed. The
count of VIPs is then kept in an octet. -/
private theorem vrrpOperands_zero {sys : OptionCalls} {operands : List Octets} {p : Parsed} :
    ((vrrpOperands sys operands p).1 = 0 ↔ operands ≠ [] ∧ (vipLoop sys 0 operands p.vnet).1 = true ∧
      p.vrrp.vrid ≠ 0 ∧ p.vnet.vif.ifname ≠ none ∧ sys.getifaddrs.isSome) ∧
    ((vrrpOperands sys operands p).1 = 0 →
      (vrrpOperands sys operands p).2.vrrp.naddr = UInt8.ofNat operands.length ∧
      (vrrpOperands sys operands p).2.vnet.naddr = UInt8.ofNat operands.length) := by
  have hsame : (vipLoop sys 0 operands { p.vnet with naddr := UInt8.ofNat operands.length }).1 =
      (vipLoop sys 0 operands p.vnet).1 := by
    rw [Bool.eq_iff_iff, vipLoop_iff, vipLoop_iff]
  have haddr (vnet : VrrpNet) : (vrrpNetVifGetaddr sys vnet).1 = 0 ↔ sys.getifaddrs.isSome := by
    rw [vrrpNetVifGetaddr]
    cases sys.getifaddrs <;> simp
  have hkept (vnet : VrrpNet) : (vrrpNetVifGetaddr sys vnet).2.naddr = vnet.naddr := by
    have hget : vrrpNetVifGetaddr sys vnet = ((vrrpNetVifGetaddr sys vnet).1, (vrrpNetVifGetaddr sys vnet).2) := rfl
    obtain ⟨vif, -, hv⟩ := vrrpNetVifGetaddr_spec hget
    rw [hv]
  by_cases hnil : operands = []
  · simp [vrrpOperands, hnil]
  rw [vrrpOperands, if_neg hnil, ← hsame]
  simp only
  split
  · next vnet hloop => simp [hloop]
  next vnet hloop =>
  obtain ⟨vips, -, rfl⟩ := vipLoop_spec hloop
  rw [hloop]
  split
  · next hz => simp [hz]
  next hz =>
  split
  · next hname => simp only at hname; simp [hname]
  next hname =>
  simp only [haddr, hkept] at hname ⊢
  simp [hnil, hz, hname]

def ZeroReached (sys : OptionCalls) (found : List (Found Opt)) : Prop :=
  (∃ f ∈ found, isZeroVrid f = true) ∧ ∀ a ∈ answered sys 0 (reached found), Passes a

/-- A command line is taken when it is complete, or at an identifier 0. -/
private theorem vrrpOptions_zero {sys : OptionCalls} {args : List Octets} {ctrl : VrrpCtrl} {adv : Frame}
    {found : List (Found Opt)} {operands : List Octets}
    (hget : opts.getoptLong sys.posixlyCorrect none args = (found, operands)) :
    ((vrrpOptions sys args (.blank ctrl adv)).1 = 0 ↔ ZeroReached sys found ∨ Acceptable sys found operands) ∧
    (Acceptable sys found operands →
      (vrrpOptions sys args (.blank ctrl adv)).2.vrrp.naddr = UInt8.ofNat operands.length ∧
      (vrrpOptions sys args (.blank ctrl adv)).2.vnet.naddr = UInt8.ofNat operands.length ∧
      vrrpOptionsUsage sys args (.blank ctrl adv) = false) := by
  have hpass := optionLoop_ok_iff sys found 0 (.blank ctrl adv)
  rw [vrrpOptions, vrrpOptionsUsage, hget]
  simp only
  cases hloop : optionLoop sys 0 found (.blank ctrl adv) with
  | error returned =>
    have hnot : ¬ Acceptable sys found operands := by
      intro hc
      obtain ⟨q, hq⟩ := hpass.mpr hc.options
      rw [hloop] at hq
      cases hq
    refine ⟨?_, fun hc => absurd hc hnot⟩
    obtain ⟨ret, q⟩ := returned
    constructor
    · rintro rfl
      obtain ⟨hzero, hq⟩ := (optionLoop_zero_iff sys found 0 _ q).mp hloop
      exact .inl ⟨hzero, (optionLoop_ok_iff _ _ _ _).mp ⟨q, hq⟩⟩
    · rintro (⟨hzero, hreached⟩ | hc)
      · obtain ⟨q', hq'⟩ := (optionLoop_ok_iff _ _ _ (.blank ctrl adv)).mpr hreached
        have hz := (optionLoop_zero_iff sys found 0 _ q').mpr ⟨hzero, hq'⟩
        rw [hloop] at hz
        exact congrArg Prod.fst (Except.error.inj hz)
      · exact absurd hc hnot
  | ok q =>
    obtain ⟨hvrid, hname, hfamily⟩ := optionLoop_given hloop
    obtain ⟨hiff, hnaddr⟩ := @vrrpOperands_zero sys operands q
    have hall := hpass.mp ⟨q, hloop⟩
    have hzero : ¬ ZeroReached sys found := by
      rintro ⟨hz, hreached⟩
      obtain ⟨q', hq'⟩ := (optionLoop_ok_iff _ _ _ (.blank ctrl adv)).mpr hreached
      have herr := (optionLoop_zero_iff sys found 0 _ q').mpr ⟨hz, hq'⟩
      rw [hloop] at herr
      cases herr
    have hcomplete : (vrrpOperands sys operands q).1 = 0 ↔ Acceptable sys found operands := by
      rw [hiff, vipLoop_iff, hvrid, hname, hfamily]
      simp only [Nat.zero_add]
      exact ⟨fun ⟨h₁, ⟨h₂, h₃⟩, h₄, h₅, h₆⟩ => ⟨hall, h₁, h₂, h₃, h₄, h₅, h₆⟩,
        fun h => ⟨h.nonempty, ⟨h.vips, h.memory⟩, h.vrid, h.interface, h.addresses⟩⟩
    refine ⟨hcomplete.trans ⟨.inr, fun h => h.resolve_left hzero⟩, fun hc => ?_⟩
    obtain ⟨hn, hn'⟩ := hnaddr (hcomplete.mpr hc)
    refine ⟨hn, hn', ?_⟩
    obtain ⟨hnil, hloop', hv, hi, -⟩ := hiff.mp (hcomplete.mpr hc)
    simp [operandsUsage, hnil, hloop', hv, Option.isSome_iff_ne_none, hi]

def Opt.range : Opt → Option (Nat × Nat)
  | .vrid => some (1, 255)
  | .priority => some (0, 255)
  | .time => some (0, ADVINT_MAX)
  | .startDelay => some (0, ADVINT_MAX)
  | .rfc => some (2, 3)
  | _ => none

/-- The argument of an option is a numeral in its range, or one of its words. -/
def Opt.InRange (o : Opt) (optarg : Octets) : Prop :=
  match o with
  | .preempt => cstring optarg = preemptOn ∨ cstring optarg = preemptOff
  | .auth => (cstring optarg).length ≤ VRRP_AUTH_PASS_LEN
  | _ => ∀ lo hi, o.range = some (lo, hi) → ∃ n, Denotes optarg n ∧ lo ≤ n ∧ n ≤ hi

def OptionCalls.IsAddress (sys : OptionCalls) (family : Family) (ip : Octets) : Prop :=
  match family with
  | .inet => (sys.inetPton ip).isSome
  | .inet6 => (sys.inetPton6 ip).isSome

def Family.bits : Family → Nat
  | .inet => 32
  | .inet6 => 128

/-- A VIP is an address of the family, perhaps with a numeral for its mask behind a slash. -/
def ValidVip (sys : OptionCalls) (family : Family) (vip : Octets) : Prop :=
  ∃ ip, 0x2f ∉ ip ∧ sys.IsAddress family ip ∧
    (vip = ip ∨ ∃ mask n, vip = ip ++ 0x2f :: mask ∧ Denotes mask n ∧ n ≤ family.bits)

/-- No number on the command line is misread. -/
structure Legible (found : List (Found Opt)) (operands : List Octets) : Prop where
  options : ∀ o optarg, .opt o optarg ∈ found → o.range ≠ none → ∀ n, ¬ Mistaken optarg n
  masks : ∀ ip mask, ip ++ 0x2f :: mask ∈ operands → 0x2f ∉ ip → ∀ n, ¬ Mistaken mask n

private theorem takes_range {o : Opt} {optarg : Octets} {lo hi : Nat} (h : o.range = some (lo, hi)) :
    hi < 2 ^ 64 - 1 ∧ (o.Takes optarg ↔ ∃ n, mystrtoul optarg hi = .ok n ∧ lo ≤ n) := by
  cases o with
  | vrid | priority | time | startDelay | rfc =>
    obtain ⟨rfl, rfl⟩ := Prod.mk.inj (Option.some.inj h)
    exact ⟨by decide, by simp [Opt.Takes, VRID_MAX, VRRP_PRIO_MAX]⟩
  | _ => cases h

/-- What is taken for a number is one, unless it is misread. -/
private theorem numeral_iff {str : Octets} {lo hi : Nat} (hhi : hi < 2 ^ 64 - 1)
    (h : ∃ n, mystrtoul str hi = .ok n ∧ lo ≤ n) :
    (∃ n, Denotes str n ∧ lo ≤ n ∧ n ≤ hi) ↔ ∀ n, ¬ Mistaken str n := by
  constructor
  · rintro ⟨n, hd, -⟩ m hm
    exact hm.not_denotes hd
  · intro hno
    obtain ⟨n, hn, hlo⟩ := h
    obtain ⟨hread, hle⟩ := (mystrtoul_reads hhi).mp hn
    exact ⟨n, hread.resolve_right (hno n), hlo, hle⟩

private theorem inRange_iff {o : Opt} {optarg : Octets} (h : o.Takes optarg) :
    o.InRange optarg ↔ (o.range ≠ none → ∀ n, ¬ Mistaken optarg n) := by
  have hnumber {lo hi : Nat} (hr : o.range = some (lo, hi)) :
      (∀ lo' hi', o.range = some (lo', hi') → ∃ n, Denotes optarg n ∧ lo' ≤ n ∧ n ≤ hi') ↔
        (o.range ≠ none → ∀ n, ¬ Mistaken optarg n) := by
    obtain ⟨hhi, htakes⟩ := takes_range hr
    rw [hr, ← numeral_iff hhi (htakes.mp h)]
    simp
  cases o with
  | vrid | priority | time | startDelay | rfc => exact hnumber rfl
  | preempt | auth => exact iff_of_true h (fun hr => absurd rfl hr)
  | _ => exact iff_of_true (fun lo hi hr => nomatch hr) (fun hr => absurd rfl hr)

private theorem takeWhile_slash {ip : Octets} (h : 0x2f ∉ ip) (mask : Octets) :
    (ip ++ 0x2f :: mask).takeWhile (· != 0x2f) = ip := by
  rw [List.takeWhile_append_of_pos (fun c hc => by simpa using fun heq : c = 0x2f => h (heq ▸ hc))]
  simp

private theorem splitIpNetmask_isSome {n : Nat} (inetPton : Octets → Option (List.Vector UInt8 n)) (max : Nat)
    (vip : Octets) : (splitIpNetmask inetPton max vip).isSome ↔
      ∃ ip, 0x2f ∉ ip ∧ (inetPton ip).isSome ∧
        (vip = ip ∨ ∃ mask n, vip = ip ++ 0x2f :: mask ∧ mystrtoul mask max = .ok n) := by
  have hnone (ip : Octets) (h : 0x2f ∉ ip) : ip.takeWhile (· != 0x2f) = ip :=
    List.takeWhile_eq_self_iff.mpr (fun c hc => by simpa using fun heq : c = 0x2f => h (heq ▸ hc))
  constructor
  · intro h
    obtain ⟨ip, rest, hvip, hip, hrest⟩ : ∃ ip rest, vip = ip ++ rest ∧ 0x2f ∉ ip ∧
        (rest = [] ∨ ∃ mask, rest = 0x2f :: mask) := by
      refine ⟨vip.takeWhile (· != 0x2f), vip.dropWhile (· != 0x2f), List.takeWhile_append_dropWhile.symm, ?_, ?_⟩
      · exact fun hmem => by simpa using List.mem_takeWhile_imp hmem
      · cases hdrop : vip.dropWhile (· != 0x2f) with
        | nil => exact .inl rfl
        | cons c mask =>
          have hc := List.head_dropWhile_not (· != 0x2f) (l := vip) (by simp [hdrop])
          simp only [hdrop, List.head_cons, bne_eq_false_iff_eq] at hc
          exact .inr ⟨mask, by rw [hc]⟩
    rcases hrest with rfl | ⟨mask, rfl⟩
    · rw [List.append_nil] at hvip
      rw [hvip, splitIpNetmask, hnone ip hip] at h
      exact ⟨ip, hip, by simpa using h, .inl hvip⟩
    · rw [hvip, splitIpNetmask, takeWhile_slash hip mask] at h
      simp only [List.drop_left] at h
      cases hn : mystrtoul mask max with
      | error e => simp [hn] at h
      | ok n => exact ⟨ip, hip, by simpa [hn] using h, .inr ⟨mask, n, hvip, hn⟩⟩
  · rintro ⟨ip, hip, hpton, rfl | ⟨mask, n, rfl, hn⟩⟩
    · rw [splitIpNetmask, hnone vip hip]
      simpa using hpton
    · rw [splitIpNetmask, takeWhile_slash hip mask]
      simpa [hn] using hpton

private theorem validVip_iff {sys : OptionCalls} {family : Family} {vip : Octets} (h : TakesVip sys family vip) :
    ValidVip sys family vip ↔ ∀ ip mask, vip = ip ++ 0x2f :: mask → 0x2f ∉ ip → ∀ n, ¬ Mistaken mask n := by
  have htakes : ∃ ip, 0x2f ∉ ip ∧ sys.IsAddress family ip ∧
      (vip = ip ∨ ∃ mask n, vip = ip ++ 0x2f :: mask ∧ mystrtoul mask family.bits = .ok n) := by
    cases family with
    | inet => exact (splitIpNetmask_isSome ..).mp h
    | inet6 => exact (splitIpNetmask_isSome ..).mp h
  have hbits : family.bits < 2 ^ 64 - 1 := by cases family <;> decide
  constructor
  · rintro ⟨ip, hip, -, hvip⟩ ip' mask rfl hip' n
    rcases hvip with rfl | ⟨mask', m, heq, hd, -⟩
    · simp at hip
    · have hsame : ip' = ip := by rw [← takeWhile_slash hip' mask, heq, takeWhile_slash hip]
      obtain rfl : mask = mask' := (List.cons.inj (List.append_cancel_left (hsame ▸ heq))).2
      exact fun hm => hm.not_denotes hd
  · intro hno
    obtain ⟨ip, hip, haddr, rfl | ⟨mask, n, rfl, hn⟩⟩ := htakes
    · exact ⟨vip, hip, haddr, .inl rfl⟩
    · obtain ⟨m, hd, -, hle⟩ := (numeral_iff hbits ⟨n, hn, Nat.zero_le n⟩).mpr (hno ip mask rfl hip)
      exact ⟨ip, hip, haddr, .inr ⟨mask, m, rfl, hd, hle⟩⟩

/-- What the parser promises: success only for a command line that is in order and
counted, another value wherever it shows the usage, and an exit of `main` then. -/
structure Reported (host : ByteOrder) (sys : StartCalls) (args : List Octets) (found : List (Found Opt))
    (operands : List Octets) (ret : Int) (p : Parsed) : Prop where
  options : ret = 0 → ∀ f ∈ found, ∃ o optarg, f = .opt o optarg ∧ o.InRange optarg
  vips : ret = 0 → operands ≠ [] ∧ ∀ vip ∈ operands, ValidVip sys.toOptionCalls (requestedFamily found) vip
  specified : ret = 0 → given found .vrid = true ∧ given found .interface = true
  counted : ret = 0 → p.vrrp.naddr.toNat = operands.length ∧ p.vnet.naddr.toNat = operands.length
  usage : vrrpOptionsUsage sys.toOptionCalls args (.blank sys.ctrl sys.adv) = true →
    ret ≠ 0 ∧ startup host sys args = .error .exitFailure

private theorem startup_refused {host : ByteOrder} {sys : StartCalls} {args : List Octets}
    (h : (vrrpOptions sys.toOptionCalls args (.blank sys.ctrl sys.adv)).1 ≠ 0) :
    startup host sys args = .error .exitFailure := by
  rw [startup]
  have hne : ((vrrpOptions sys.toOptionCalls args (.blank sys.ctrl sys.adv)).1 == 0) = false := by simpa using h
  simp only [hne]
  rfl

/-- The promise is kept exactly when no identifier 0 is reached, and a command line that
the parser takes has at most 255 VIPs and no number that is misread. -/
theorem refusal_reported_iff {host : ByteOrder} {sys : StartCalls} {args : List Octets}
    {found : List (Found Opt)} {operands : List Octets}
    (hget : opts.getoptLong sys.posixlyCorrect none args = (found, operands)) :
    Reported host sys args found operands
        (vrrpOptions sys.toOptionCalls args (.blank sys.ctrl sys.adv)).1
        (vrrpOptions sys.toOptionCalls args (.blank sys.ctrl sys.adv)).2 ↔
      ¬ ZeroReached sys.toOptionCalls found ∧
        (Acceptable sys.toOptionCalls found operands → operands.length ≤ VIP_MAX ∧ Legible found operands) := by
  obtain ⟨hzero, hcomplete⟩ := @vrrpOptions_zero sys.toOptionCalls args sys.ctrl sys.adv found operands hget
  have htaken (hc : Acceptable sys.toOptionCalls found operands) {o : Opt} {optarg : Octets}
      (hf : .opt o optarg ∈ found) : o.Takes optarg := by
    obtain ⟨memory, hmem⟩ := answered_mem sys.toOptionCalls 0 hf
    exact (hc.options _ hmem).1
  constructor
  · intro h
    refine ⟨fun hz => ?_, fun hc => ⟨?_, ?_, ?_⟩⟩
    · obtain ⟨f, hf, hfz⟩ := hz.1
      obtain ⟨optarg, rfl, hnum⟩ := (isZeroVrid_iff f).mp hfz
      obtain ⟨o, optarg', heq, hrange⟩ := h.options (hzero.mpr (.inl hz)) _ hf
      obtain ⟨rfl, rfl⟩ := Found.opt.inj heq
      obtain ⟨n, hd, hpos, hle⟩ := hrange 1 255 rfl
      have hmax : VRID_MAX < 2 ^ 64 - 1 := by decide
      have hn := (mystrtoul_reads hmax).mpr ⟨.inl hd, hle⟩
      rw [hnum] at hn
      obtain rfl := Except.ok.inj hn
      omega
    · have hcount := (h.counted (hzero.mpr (.inr hc))).1
      rw [(hcomplete hc).1] at hcount
      exact (count_of_octet hcount.symm.le).1
    · intro o optarg hf
      obtain ⟨o', optarg', heq, hrange⟩ := h.options (hzero.mpr (.inr hc)) _ hf
      obtain ⟨rfl, rfl⟩ := Found.opt.inj heq
      exact (inRange_iff (htaken hc hf)).mp hrange
    · intro ip mask hmem
      exact (validVip_iff (hc.vips _ hmem)).mp ((h.vips (hzero.mpr (.inr hc))).2 _ hmem) ip mask rfl
  · rintro ⟨hno, hrest⟩
    have hc (h : (vrrpOptions sys.toOptionCalls args (.blank sys.ctrl sys.adv)).1 = 0) :
        Acceptable sys.toOptionCalls found operands := (hzero.mp h).resolve_left hno
    have hoctet (h : Acceptable sys.toOptionCalls found operands) :
        (UInt8.ofNat operands.length).toNat = operands.length := by
      have hle := (hrest h).1
      rw [VIP_MAX] at hle
      rw [UInt8.toNat_ofNat', Nat.mod_eq_of_lt (by omega)]
    exact {
      options := fun h f hf => by
        cases f with
        | unknown =>
          obtain ⟨memory, hmem⟩ := answered_mem sys.toOptionCalls 0 hf
          exact ((hc h).options _ hmem).elim
        | opt o optarg =>
          exact ⟨o, optarg, rfl, (inRange_iff (htaken (hc h) hf)).mpr ((hrest (hc h)).2.options o optarg hf)⟩
      vips := fun h => ⟨(hc h).nonempty, fun vip hmem => (validVip_iff ((hc h).vips vip hmem)).mpr
        (fun ip mask heq => (hrest (hc h)).2.masks ip mask (heq ▸ hmem))⟩
      specified := fun h => ⟨(hc h).vrid, (hc h).interface⟩
      counted := fun h => by
        rw [(hcomplete (hc h)).1, (hcomplete (hc h)).2.1]
        exact ⟨hoctet (hc h), hoctet (hc h)⟩
      usage := fun husage => by
        have hne : (vrrpOptions sys.toOptionCalls args (.blank sys.ctrl sys.adv)).1 ≠ 0 := by
          intro h
          rw [(hcomplete (hc h)).2.2] at husage
          cases husage
        exact ⟨hne, startup_refused hne⟩ }

/-- A text that starts with a digit is not misread. -/
private theorem legible_digit {c : UInt8} {text : Octets} (h : isspace c = false ∧ c ≠ 0x2d) (n : Nat) :
    ¬ Mistaken (c :: text) n := by
  rintro (⟨hnil, -⟩ | ⟨u, hu, -⟩)
  · cases hnil
  · obtain ⟨num, hdrop, -⟩ := signed_minus.mp hu
    rw [List.dropWhile_cons_of_neg (by simp [h.1])] at hdrop
    exact h.2 (List.cons.inj hdrop).1

/-- `-v 7 -i eth0 192.0.2.20` is in order, and one VIP is counted. -/
theorem refusal_reported_lab :
    Reported .little labCalls [[0x2d, 0x76], [0x37], [0x2d, 0x69], labIfname, labVip]
      [.opt .vrid [0x37], .opt .interface labIfname] [labVip]
      (vrrpOptions labCalls.toOptionCalls [[0x2d, 0x76], [0x37], [0x2d, 0x69], labIfname, labVip]
        (.blank labCalls.ctrl labCalls.adv)).1
      (vrrpOptions labCalls.toOptionCalls [[0x2d, 0x76], [0x37], [0x2d, 0x69], labIfname, labVip]
        (.blank labCalls.ctrl labCalls.adv)).2 := by
  refine (refusal_reported_iff rfl).mpr ⟨?_, fun _ => ⟨by decide, ?_, ?_⟩⟩
  · rintro ⟨⟨f, hf, hz⟩, -⟩
    rcases List.mem_cons.mp hf with rfl | hf
    · exact absurd hz (by decide)
    · obtain rfl := List.mem_singleton.mp hf
      exact absurd hz (by decide)
  · intro o optarg hf hrange
    rcases List.mem_cons.mp hf with heq | hf
    · obtain ⟨rfl, rfl⟩ := Found.opt.inj heq
      exact legible_digit (by decide)
    · obtain ⟨rfl, rfl⟩ := Found.opt.inj (List.mem_singleton.mp hf)
      exact absurd rfl hrange
  · intro ip mask hmem
    have heq : ip ++ 0x2f :: mask = labVip := List.mem_singleton.mp hmem
    have hslash : (0x2f : UInt8) ∈ labVip := heq ▸ List.mem_append_right ip List.mem_cons_self
    exact absurd hslash (by decide)

/-- `-v 0` shows the usage and returns 0, and an empty priority passes for a number. -/
theorem refusal_returns_zero :
    ¬ Reported .little labCalls [[0x2d, 0x76], [0x30]] [.opt .vrid [0x30]] []
      (vrrpOptions labCalls.toOptionCalls [[0x2d, 0x76], [0x30]] (.blank labCalls.ctrl labCalls.adv)).1
      (vrrpOptions labCalls.toOptionCalls [[0x2d, 0x76], [0x30]] (.blank labCalls.ctrl labCalls.adv)).2 ∧
    opts.getoptLong false none [[0x2d, 0x76], [0x37], [0x2d, 0x69], labIfname, [0x2d, 0x70], [], labVip] =
      ([.opt .vrid [0x37], .opt .interface labIfname, .opt .priority []], [labVip]) ∧
    ¬ Reported .little labCalls [[0x2d, 0x76], [0x37], [0x2d, 0x69], labIfname, [0x2d, 0x70], [], labVip]
      [.opt .vrid [0x37], .opt .interface labIfname, .opt .priority []] [labVip]
      (vrrpOptions labCalls.toOptionCalls [[0x2d, 0x76], [0x37], [0x2d, 0x69], labIfname, [0x2d, 0x70], [], labVip]
        (.blank labCalls.ctrl labCalls.adv)).1
      (vrrpOptions labCalls.toOptionCalls [[0x2d, 0x76], [0x37], [0x2d, 0x69], labIfname, [0x2d, 0x70], [], labVip]
        (.blank labCalls.ctrl labCalls.adv)).2 := by
  have husage : vrrpOptionsUsage labCalls.toOptionCalls [[0x2d, 0x76], [0x30]]
      (.blank labCalls.ctrl labCalls.adv) = true := rfl
  have hret : (vrrpOptions labCalls.toOptionCalls [[0x2d, 0x76], [0x30]]
      (.blank labCalls.ctrl labCalls.adv)).1 = 0 := rfl
  refine ⟨fun h => (h.usage husage).1 hret, rfl, fun h => ?_⟩
  obtain ⟨o, optarg, heq, hrange⟩ := h.options rfl (.opt .priority []) (by simp)
  obtain ⟨rfl, rfl⟩ := Found.opt.inj heq
  obtain ⟨n, hd, -⟩ := hrange 0 255 rfl
  exact Mistaken.not_denotes (.inl ⟨rfl, rfl⟩) hd

end Uvrrpd
