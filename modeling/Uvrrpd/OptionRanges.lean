import Mathlib.Data.List.TakeWhile
import Uvrrpd.Options

/-! What the command line leaves behind, when it is taken for good: values within the
ranges of their options, and, unless the parser returned early, a complete router. -/
namespace Uvrrpd
open Library.Getopt
variable {sys : OptionCalls} {ctrl : VrrpCtrl} {adv : Frame}

def Vrrp.unset (v : Vrrp) : Vrrp :=
  { v with
    version := .rfc3768
    vrid := 0
    priority := PRIO_DFL
    naddr := 0
    advInt := 0
    startDelay := 0
    authType := .noauth
    authData := none
    preempt := true }

def VrrpNet.unset (n : VrrpNet) : VrrpNet :=
  { n with
    vrid := 0
    vif := ⟨none, 0, .zero⟩
    vipList := []
    family := .inet
    naddr := 0 }

/-- What holds at every time while the command line is read. -/
structure Legal (ctrl : VrrpCtrl) (adv : Frame) (p : Parsed) : Prop where
  vrid : p.vnet.vrid = p.vrrp.vrid
  advInt : p.vrrp.advInt.toNat ≤ ADVINT_MAX
  startDelay : p.vrrp.startDelay.toNat ≤ ADVINT_MAX
  password : ∀ text ∈ p.vrrp.authData, text.length ≤ VRRP_AUTH_PASS_LEN ∧ 0 ∉ text
  auth : p.vrrp.authType = .simple ∨ p.vrrp.authType = .noauth ∧ p.vrrp.authData = none
  vrrp : p.vrrp.unset = vrrpInit ctrl
  vnet : p.vnet.unset = vrrpNetInit adv

theorem Legal.blank : Legal ctrl adv (.blank ctrl adv) :=
  ⟨rfl, Nat.zero_le _, Nat.zero_le _, by simp [Parsed.blank, vrrpInit], .inr ⟨rfl, rfl⟩, rfl, rfl⟩

private theorem strndup_spec {memory : Bool} {s text : Octets} {n : Nat} (h : text ∈ strndup memory s n) :
    text.length ≤ n ∧ 0 ∉ text := by
  rw [strndup] at h
  split at h
  · obtain rfl := Option.some.inj h
    refine ⟨List.length_take_le n _, ?_⟩
    intro hz
    have hne := List.mem_takeWhile_imp (List.mem_of_mem_take hz)
    simp at hne
  · cases h

theorem numberOption_ok {optarg : Octets} {max : Nat} {set : Nat → Parsed} {p p' : Parsed}
    (h : numberOption optarg max set p = .ok p') : ∃ opt, mystrtoul optarg max = .ok opt ∧ p' = set opt := by
  rw [numberOption] at h
  split at h
  · cases h
  · cases h
  · next opt hopt => exact ⟨opt, hopt, (Except.ok.inj h).symm⟩

private theorem numberOption_error {optarg : Octets} {max : Nat} {set : Nat → Parsed} {p p' : Parsed} {ret : Int}
    (h : numberOption optarg max set p = .error (ret, p')) : ret ≠ 0 := by
  rw [numberOption] at h
  split at h
  · obtain ⟨rfl, -⟩ := Prod.mk.inj (Except.error.inj h)
    decide
  · obtain ⟨rfl, -⟩ := Prod.mk.inj (Except.error.inj h)
    decide
  · cases h

private theorem toNat_ofNat_advInt {opt : Nat} (h : opt ≤ ADVINT_MAX) :
    (UInt16.ofNat opt).toNat ≤ ADVINT_MAX := by
  simp only [UInt16.toNat_ofNat', ADVINT_MAX] at *
  omega

/-- An option stays within the ranges, and registers no VIP. -/
private theorem Legal.option {memory : Bool} {argMax : Nat} {o : Opt} {optarg : Octets}
    {p p' : Parsed} (hl : Legal ctrl adv p) (h : vrrpOption memory argMax o optarg p = .ok p') :
    Legal ctrl adv p' ∧ p'.vnet.vipList = p.vnet.vipList := by
  cases o with
  | vrid =>
    rw [vrrpOption, vridOption] at h
    split at h
    · cases h
    split at h
    · cases h
    · obtain rfl := Except.ok.inj h
      exact ⟨{ hl with vrid := rfl }, rfl⟩
  | priority =>
    obtain ⟨opt, -, rfl⟩ := numberOption_ok h
    exact ⟨{ hl with }, rfl⟩
  | time =>
    obtain ⟨opt, hopt, rfl⟩ := numberOption_ok h
    exact ⟨{ hl with advInt := toNat_ofNat_advInt (mystrtoul_le hopt) }, rfl⟩
  | startDelay =>
    obtain ⟨opt, hopt, rfl⟩ := numberOption_ok h
    exact ⟨{ hl with startDelay := toNat_ofNat_advInt (mystrtoul_le hopt) }, rfl⟩
  | preempt =>
    simp only [vrrpOption] at h
    split at h
    · obtain rfl := Except.ok.inj h
      exact ⟨{ hl with }, rfl⟩
    split at h
    · obtain rfl := Except.ok.inj h
      exact ⟨{ hl with }, rfl⟩
    · cases h
  | rfc =>
    rw [vrrpOption, rfcOption] at h
    split at h
    · cases h
    · cases h
    split at h
    · cases h
    · obtain rfl := Except.ok.inj h
      exact ⟨{ hl with }, rfl⟩
  | auth =>
    simp only [vrrpOption] at h
    split at h
    · cases h
    · obtain rfl := Except.ok.inj h
      exact ⟨{ hl with password := fun text ht => strndup_spec ht, auth := .inl rfl }, rfl⟩
  | interface | script =>
    simp only [vrrpOption] at h
    split at h
    · cases h
    · obtain rfl := Except.ok.inj h
      exact ⟨{ hl with }, rfl⟩
  | ipv6 | foreground | pidfile | control | debug =>
    obtain rfl := Except.ok.inj h
    exact ⟨{ hl with }, rfl⟩
  | help => cases h

/-- The one return of 0 from within the loop: the identifier 0, and nothing is written. -/
theorem vrrpOption_zero {memory : Bool} {argMax : Nat} {o : Opt} {optarg : Octets} {p p' : Parsed}
    (h : vrrpOption memory argMax o optarg p = .error (0, p')) :
    o = .vrid ∧ mystrtoul optarg VRID_MAX = .ok 0 ∧ p' = p := by
  cases o with
  | vrid =>
    rw [vrrpOption, vridOption] at h
    split at h
    · next err _ =>
      obtain ⟨hcode, -⟩ := Prod.mk.inj (Except.error.inj h)
      cases err <;> cases hcode
    · next opt hopt =>
      split at h
      · next hzero =>
        obtain ⟨-, rfl⟩ := Prod.mk.inj (Except.error.inj h)
        exact ⟨rfl, hzero ▸ hopt, rfl⟩
      · cases h
  | priority => exact absurd rfl (numberOption_error h)
  | time => exact absurd rfl (numberOption_error h)
  | startDelay => exact absurd rfl (numberOption_error h)
  | rfc =>
    rw [vrrpOption, rfcOption] at h
    split at h
    · cases h
    · cases h
    split at h
    · cases h
    · cases h
  | preempt =>
    simp only [vrrpOption] at h
    split at h
    · cases h
    split at h
    · cases h
    · cases h
  | interface | auth | script =>
    simp only [vrrpOption] at h
    split at h
    · cases h
    · cases h
  | ipv6 | foreground | pidfile | control | debug | help => cases h

/-- The loop keeps to the ranges as well, however it is left with success. -/
theorem Legal.loop {found : List (Found Opt)} {k : Nat} {p p' : Parsed}
    (hl : Legal ctrl adv p) (h : optionLoop sys k found p = .ok p' ∨
      optionLoop sys k found p = .error (0, p')) :
    Legal ctrl adv p' ∧ p'.vnet.vipList = p.vnet.vipList := by
  induction found generalizing k p with
  | nil =>
    rcases h with h | h
    · obtain rfl := Except.ok.inj h
      exact ⟨hl, rfl⟩
    · cases h
  | cons one rest ih =>
    cases one with
    | unknown => rcases h with h | h <;> cases h
    | opt o optarg =>
      rw [optionLoop] at h
      cases hone : vrrpOption (sys.strndup k) sys.argMax o optarg p with
      | ok q =>
        rw [hone] at h
        obtain ⟨hq, hvips⟩ := hl.option hone
        obtain ⟨hp', hkept⟩ := ih hq h
        exact ⟨hp', hkept.trans hvips⟩
      | error returned =>
        rw [hone] at h
        rcases h with h | h
        · cases h
        · obtain rfl : returned = (0, p') := Except.error.inj h
          obtain ⟨-, -, rfl⟩ := vrrpOption_zero hone
          exact ⟨hl, rfl⟩

structure Parsed.Accepted (p : Parsed) : Prop where
  vrid : p.vrrp.vrid ≠ 0
  ifname : p.vnet.vif.ifname ≠ none
  advInt : 1 ≤ p.vrrp.advInt.toNat
  naddr : p.vrrp.naddr = UInt8.ofNat p.vnet.vipList.length
  netNaddr : p.vnet.naddr = p.vrrp.naddr

private theorem vrrpNetVipSet_ok {k : Nat} {vnet vnet' : VrrpNet} {ip : Octets}
    (h : vrrpNetVipSet sys k vnet ip = (true, vnet')) :
    ∃ vip, vnet' = { vnet with vipList := vnet.vipList ++ [vip] } := by
  rw [vrrpNetVipSet] at h
  split at h
  · cases h
  · next vip _ => exact ⟨vip, (Prod.mk.inj h).2.symm⟩

/-- Every operand becomes one VIP. -/
theorem vipLoop_spec {operands : List Octets} {k : Nat} {vnet vnet' : VrrpNet}
    (h : vipLoop sys k operands vnet = (true, vnet')) :
    ∃ vips, vips.length = operands.length ∧ vnet' = { vnet with vipList := vnet.vipList ++ vips } := by
  induction operands generalizing k vnet with
  | nil =>
    obtain ⟨-, rfl⟩ := Prod.mk.inj h
    exact ⟨[], rfl, by rw [List.append_nil]⟩
  | cons ip rest ih =>
    rw [vipLoop] at h
    split at h
    · cases h
    · next mid hset =>
      obtain ⟨vip, rfl⟩ := vrrpNetVipSet_ok hset
      obtain ⟨vips, hlen, rfl⟩ := ih h
      exact ⟨vip :: vips, by rw [List.length_cons, List.length_cons, hlen], by
        rw [List.append_assoc, List.singleton_append]⟩

private theorem vifAddr_frame (vnet : VrrpNet) (ifa : Ifaddrs) :
    ∃ ipx, vifAddr vnet ifa = { vnet with vif := { vnet.vif with ipx := ipx } } := by
  rw [vifAddr]
  split
  · exact ⟨_, rfl⟩
  split
  · exact ⟨_, rfl⟩
  · exact ⟨_, rfl⟩
  · exact ⟨_, rfl⟩

private theorem vifAddrs_frame (ifaddr : List Ifaddrs) (vnet : VrrpNet) :
    ∃ ipx, ifaddr.foldl vifAddr vnet = { vnet with vif := { vnet.vif with ipx := ipx } } := by
  induction ifaddr generalizing vnet with
  | nil => exact ⟨_, rfl⟩
  | cons ifa rest ih =>
    obtain ⟨ipx, hone⟩ := vifAddr_frame vnet ifa
    rw [List.foldl_cons, hone]
    exact ih _

/-- The interface keeps its name, and nothing else is touched. -/
theorem vrrpNetVifGetaddr_spec {vnet vnet' : VrrpNet} {ret : Int}
    (h : vrrpNetVifGetaddr sys vnet = (ret, vnet')) :
    ∃ vif, vif.ifname = vnet.vif.ifname ∧ vnet' = { vnet with vif := vif } := by
  rw [vrrpNetVifGetaddr] at h
  split at h
  · obtain ⟨-, rfl⟩ := Prod.mk.inj h
    exact ⟨_, rfl, rfl⟩
  · next ifaddr _ =>
    obtain ⟨-, rfl⟩ := Prod.mk.inj h
    obtain ⟨ipx, hipx⟩ := vifAddrs_frame ifaddr vnet
    rw [hipx]
    simp only [vrrpNetVifMtu]
    split
    · exact ⟨{ vnet.vif with ipx := ipx }, rfl, rfl⟩
    · next mtu _ => exact ⟨{ vnet.vif with mtu := mtu, ipx := ipx }, rfl, rfl⟩

/-- The default is inserted where no interval was set. -/
private theorem defaultAdvInt_range {vrrp : Vrrp} (h : vrrp.advInt.toNat ≤ ADVINT_MAX) :
    1 ≤ (defaultAdvInt vrrp).toNat ∧ (defaultAdvInt vrrp).toNat ≤ ADVINT_MAX := by
  rw [defaultAdvInt]
  split
  · decide
  next hnot2 =>
  split
  · decide
  next hnot3 =>
  refine ⟨?_, h⟩
  rw [Nat.one_le_iff_ne_zero]
  intro hzero
  have hzero : vrrp.advInt = 0 := UInt16.toNat_inj.mp hzero
  cases hv : vrrp.version with
  | rfc3768 => exact hnot2 ⟨hv, hzero⟩
  | rfc5798 => exact hnot3 ⟨hv, hzero⟩

theorem Legal.operands {operands : List Octets} {p p' : Parsed} (hl : Legal ctrl adv p)
    (hvips : p.vnet.vipList = []) (h : vrrpOperands sys operands p = (0, p')) :
    Legal ctrl adv p' ∧ p'.Accepted := by
  rw [vrrpOperands] at h
  split at h
  · cases h
  simp only at h
  split at h
  · cases h
  next vnet hloop =>
  obtain ⟨vips, hlen, rfl⟩ := vipLoop_spec hloop
  split at h
  · cases h
  next hvrid =>
  split at h
  · cases h
  next hname =>
  obtain ⟨-, rfl⟩ := Prod.mk.inj h
  obtain ⟨vif, hif, hget⟩ := vrrpNetVifGetaddr_spec (Prod.mk.eta.symm)
  have hadv := @defaultAdvInt_range { p.vrrp with naddr := UInt8.ofNat operands.length } hl.advInt
  rw [hget]
  refine ⟨{ hl with advInt := hadv.2 }, hvrid, ?_, hadv.1, ?_, rfl⟩
  · simp only [hif]
    exact hname
  · simp only [hvips, List.nil_append, hlen]

/-- Success leaves a legal configuration, and either no VIP or a complete one. -/
theorem vrrpOptions_spec {args : List Octets} {p : Parsed}
    (h : vrrpOptions sys args (.blank ctrl adv) = (0, p)) :
    Legal ctrl adv p ∧ (p.vnet.vipList = [] ∨ p.Accepted) := by
  rw [vrrpOptions] at h
  obtain ⟨found, operands⟩ := opts.getoptLong sys.posixlyCorrect none args
  simp only at h
  split at h
  · next returned hloop =>
    subst h
    obtain ⟨hl, hvips⟩ := Legal.blank.loop (.inr hloop)
    exact ⟨hl, .inl hvips⟩
  · next q hloop =>
    obtain ⟨hl, hvips⟩ := Legal.blank.loop (.inl hloop)
    obtain ⟨hp, ha⟩ := hl.operands hvips h
    exact ⟨hp, .inr ha⟩

end Uvrrpd
