import Uvrrpd.OptionRanges
import Uvrrpd.Words

/-! What the options of a command line set. Each option but two writes what no other
writes, so all that matters of a list of options is what was said last of each; the
version is written by `rfc` and by `ipv6`. -/
namespace Uvrrpd
open Library.Getopt
open Library.Memory (bind_eq_ok)

/-- The options in the order found, each with whether `strndup` then finds memory. -/
def answered (sys : OptionCalls) : Nat → List (Found Opt) → List (Bool × Found Opt)
  | _, [] => []
  | k, f :: rest => (sys.strndup k, f) :: answered sys (k + 1) rest

/-- What was said last of each option: the answer of `strndup`, and the argument. -/
def settings : List (Bool × Found Opt) → Opt → Option (Bool × Octets)
  | [], _ => none
  | (_, .unknown) :: rest, o' => settings rest o'
  | (memory, .opt o optarg) :: rest, o' =>
    (settings rest o').or (if o = o' then some (memory, optarg) else none)

def number (optarg : Octets) (max : Nat) : Nat :=
  match mystrtoul optarg max with
  | .ok opt => opt
  | .error _ => 0

def Opt.version : Opt → Octets → Option VrrpVersion
  | .ipv6, _ => some .rfc5798
  | .rfc, optarg => some (if number optarg 3 = 2 then .rfc3768 else .rfc5798)
  | _, _ => none

def versionAfter : List (Found Opt) → VrrpVersion → VrrpVersion
  | [], version => version
  | .unknown :: rest, version => versionAfter rest version
  | .opt o optarg :: rest, version => versionAfter rest ((o.version optarg).getD version)

def Parsed.set (p : Parsed) (argMax : Nat) (s : Opt → Option (Bool × Octets)) (version : VrrpVersion) : Parsed where
  vrrp := { p.vrrp with
    version := version
    vrid := (s .vrid).elim p.vrrp.vrid (fun a => UInt8.ofNat (number a.2 VRID_MAX))
    priority := (s .priority).elim p.vrrp.priority (fun a => UInt8.ofNat (number a.2 VRRP_PRIO_MAX))
    advInt := (s .time).elim p.vrrp.advInt (fun a => UInt16.ofNat (number a.2 ADVINT_MAX))
    startDelay := (s .startDelay).elim p.vrrp.startDelay (fun a => UInt16.ofNat (number a.2 ADVINT_MAX))
    preempt := (s .preempt).elim p.vrrp.preempt (fun a => matchesWord (a.2 ++ [0]) preemptOn)
    authType := (s .auth).elim p.vrrp.authType (fun _ => .simple)
    authData := (s .auth).elim p.vrrp.authData (fun a => strndup a.1 a.2 VRRP_AUTH_PASS_LEN) }
  vnet := { p.vnet with
    vrid := (s .vrid).elim p.vnet.vrid (fun a => UInt8.ofNat (number a.2 VRID_MAX))
    vif := { p.vnet.vif with ifname := (s .interface).elim p.vnet.vif.ifname (fun a => strndup a.1 a.2 IFNAMSIZ) }
    family := (s .ipv6).elim p.vnet.family (fun _ => .inet6) }
  background := (s .foreground).elim p.background (fun _ => false)
  loglevel := (s .debug).elim p.loglevel (fun a => strndup a.1 Opt.debug.long 6)
  pidfileName := (s .pidfile).elim p.pidfileName (fun a => strndup a.1 a.2 (NAME_MAX + PATH_MAX))
  ctrlfileName := (s .control).elim p.ctrlfileName (fun a => strndup a.1 a.2 (NAME_MAX + PATH_MAX))
  scriptname := (s .script).elim p.scriptname (fun a => strndup a.1 a.2 argMax)

private theorem number_ok {optarg : Octets} {max opt : Nat} (h : mystrtoul optarg max = .ok opt) :
    number optarg max = opt := by
  rw [number, h]

/-- One option writes its own part, which what is said later of it overrides. -/
private theorem vrrpOption_set {memory : Bool} {argMax : Nat} {o : Opt} {optarg : Octets} {p p' : Parsed}
    (h : vrrpOption memory argMax o optarg p = .ok p') (s : Opt → Option (Bool × Octets)) (version : VrrpVersion) :
    p'.set argMax s version =
        p.set argMax (fun o' => (s o').or (if o = o' then some (memory, optarg) else none)) version ∧
      p'.vrrp.version = (o.version optarg).getD p.vrrp.version := by
  cases o with
  | vrid =>
    rw [vrrpOption, vridOption] at h
    split at h
    · cases h
    next opt hopt =>
    split at h
    · cases h
    · obtain rfl := Except.ok.inj h
      cases hs : s .vrid <;> simp [Parsed.set, hs, number_ok hopt, Opt.version]
  | priority =>
    obtain ⟨opt, hopt, rfl⟩ := numberOption_ok h
    cases hs : s .priority <;> simp [Parsed.set, hs, number_ok hopt, Opt.version]
  | time =>
    obtain ⟨opt, hopt, rfl⟩ := numberOption_ok h
    cases hs : s .time <;> simp [Parsed.set, hs, number_ok hopt, Opt.version]
  | startDelay =>
    obtain ⟨opt, hopt, rfl⟩ := numberOption_ok h
    cases hs : s .startDelay <;> simp [Parsed.set, hs, number_ok hopt, Opt.version]
  | preempt =>
    simp only [vrrpOption] at h
    split at h
    · next hon =>
      obtain rfl := Except.ok.inj h
      cases hs : s .preempt <;> simp [Parsed.set, hs, hon, Opt.version]
    next hon =>
    split at h
    · obtain rfl := Except.ok.inj h
      cases hs : s .preempt <;> simp [Parsed.set, hs, hon, Opt.version]
    · cases h
  | rfc =>
    rw [vrrpOption, rfcOption] at h
    split at h
    · cases h
    · cases h
    next opt hopt =>
    split at h
    · cases h
    · obtain rfl := Except.ok.inj h
      refine ⟨by cases hs : s .rfc <;> simp [Parsed.set], ?_⟩
      have hnum := number_ok hopt
      rw [Opt.version, Option.getD_some, show number optarg 3 = opt from hnum]
      rfl
  | auth =>
    simp only [vrrpOption] at h
    split at h
    · cases h
    · obtain rfl := Except.ok.inj h
      cases hs : s .auth <;> simp [Parsed.set, hs, Opt.version]
  | interface =>
    simp only [vrrpOption] at h
    split at h
    · cases h
    · obtain rfl := Except.ok.inj h
      cases hs : s .interface <;> simp [Parsed.set, hs, Opt.version]
  | script =>
    simp only [vrrpOption] at h
    split at h
    · cases h
    · obtain rfl := Except.ok.inj h
      cases hs : s .script <;> simp [Parsed.set, hs, Opt.version]
  | ipv6 =>
    obtain rfl := Except.ok.inj h
    cases hs : s .ipv6 <;> simp [Parsed.set, hs, Opt.version]
  | foreground =>
    obtain rfl := Except.ok.inj h
    cases hs : s .foreground <;> simp [Parsed.set, hs, Opt.version]
  | pidfile =>
    obtain rfl := Except.ok.inj h
    cases hs : s .pidfile <;> simp [Parsed.set, hs, Opt.version]
  | control =>
    obtain rfl := Except.ok.inj h
    cases hs : s .control <;> simp [Parsed.set, hs, Opt.version]
  | debug =>
    obtain rfl := Except.ok.inj h
    cases hs : s .debug <;> simp [Parsed.set, hs, Opt.version]
  | help => cases h

/-- A whole list of options sets what was said last of each. -/
theorem optionLoop_eq {sys : OptionCalls} {found : List (Found Opt)} {k : Nat} {p q : Parsed}
    (h : optionLoop sys k found p = .ok q) :
    q = p.set sys.argMax (settings (answered sys k found)) (versionAfter found p.vrrp.version) := by
  induction found generalizing k p with
  | nil => exact (Except.ok.inj h).symm
  | cons f rest ih =>
    cases f with
    | unknown => cases h
    | opt o optarg =>
      obtain ⟨mid, hone, h⟩ := bind_eq_ok.mp (show _ >>= _ = _ from h)
      obtain ⟨hset, hversion⟩ := vrrpOption_set hone (settings (answered sys (k + 1) rest))
        (versionAfter rest mid.vrrp.version)
      rw [ih h, hset, versionAfter, hversion]
      rfl

def Opt.Takes (o : Opt) (optarg : Octets) : Prop :=
  match o with
  | .vrid => ∃ opt, mystrtoul optarg VRID_MAX = .ok opt ∧ 1 ≤ opt
  | .priority => ∃ opt, mystrtoul optarg VRRP_PRIO_MAX = .ok opt
  | .time => ∃ opt, mystrtoul optarg ADVINT_MAX = .ok opt
  | .startDelay => ∃ opt, mystrtoul optarg ADVINT_MAX = .ok opt
  | .preempt => cstring optarg = preemptOn ∨ cstring optarg = preemptOff
  | .rfc => ∃ opt, mystrtoul optarg 3 = .ok opt ∧ 2 ≤ opt
  | .auth => (cstring optarg).length ≤ VRRP_AUTH_PASS_LEN
  | _ => True

def Passes : Bool × Found Opt → Prop
  | (_, .unknown) => False
  | (memory, .opt o optarg) => o.Takes optarg ∧ o ≠ .help ∧ (o = .interface ∨ o = .script → memory = true)

theorem matchesWord_cstring (optarg : Octets) {text : Octets} (ht : 0 ∉ text) :
    matchesWord (optarg ++ [0]) text = true ↔ cstring optarg = text := by
  obtain ⟨rest, hrest⟩ := split_nul (optarg ++ [0]) (by simp)
  have hstop : (optarg ++ [0]).takeWhile (· != 0) = cstring optarg := by
    rw [List.takeWhile_append, cstring]
    split
    · next hlen =>
      rw [List.takeWhile_cons_of_neg (by simp), List.append_nil]
      exact ((List.takeWhile_sublist _).eq_of_length hlen).symm
    · rfl
  have hnul := nul_not_mem_takeWhile (optarg ++ [0])
  rw [hstop] at hrest hnul
  rw [hrest]
  exact matchesWord_iff hnul ht rest

private theorem numberOption_ok_iff {optarg : Octets} {max : Nat} {set : Nat → Parsed} {p : Parsed} :
    (∃ p', numberOption optarg max set p = .ok p') ↔ ∃ opt, mystrtoul optarg max = .ok opt := by
  constructor
  · rintro ⟨p', h⟩
    obtain ⟨opt, hopt, -⟩ := numberOption_ok h
    exact ⟨opt, hopt⟩
  · rintro ⟨opt, hopt⟩
    exact ⟨set opt, by rw [numberOption, hopt]⟩

private theorem vrrpOption_ok_iff {memory : Bool} {argMax : Nat} {o : Opt} {optarg : Octets} (p : Parsed) :
    (∃ p', vrrpOption memory argMax o optarg p = .ok p') ↔ Passes (memory, .opt o optarg) := by
  cases o with
  | vrid =>
    simp only [vrrpOption, vridOption, Passes, Opt.Takes]
    cases mystrtoul optarg VRID_MAX with
    | error err => simp
    | ok opt => by_cases hz : opt = 0 <;> simp [hz, Nat.one_le_iff_ne_zero]
  | priority | time | startDelay => simp [vrrpOption, Passes, Opt.Takes, numberOption_ok_iff]
  | preempt =>
    have hon := matchesWord_cstring optarg (show (0 : UInt8) ∉ preemptOn by decide)
    have hoff := matchesWord_cstring optarg (show (0 : UInt8) ∉ preemptOff by decide)
    simp only [vrrpOption, Passes, Opt.Takes, ← hon, ← hoff]
    split
    · next h => simp [h]
    next h =>
    split
    · next h' => simp [h']
    · next h' => simp [h, h']
  | rfc =>
    have hcode : VrrpVersion.rfc5798.code.toNat = 3 := rfl
    have hcode' : VrrpVersion.rfc3768.code.toNat = 2 := rfl
    simp only [vrrpOption, rfcOption, Passes, Opt.Takes, hcode, hcode']
    cases mystrtoul optarg 3 with
    | error err => cases err <;> simp
    | ok opt =>
      by_cases hlt : opt < 2
      · simp [hlt]
      · simp [hlt]
        omega
  | auth =>
    simp only [vrrpOption, Passes, Opt.Takes]
    split
    · next h => simp; omega
    · next h => simp; omega
  | interface | script =>
    simp only [vrrpOption, Passes, Opt.Takes, strndup]
    cases memory <;> simp
  | ipv6 | foreground | pidfile | control | debug | help => simp [vrrpOption, Passes, Opt.Takes]

/-- The identifier 0, which the parser diagnoses and returns 0 for. -/
def isZeroVrid : Found Opt → Bool
  | .opt o optarg => o == .vrid && (mystrtoul optarg VRID_MAX).toOption == some 0
  | .unknown => false

theorem isZeroVrid_iff (f : Found Opt) :
    isZeroVrid f = true ↔ ∃ optarg, f = .opt .vrid optarg ∧ mystrtoul optarg VRID_MAX = .ok 0 := by
  cases f with
  | unknown => simp [isZeroVrid]
  | opt o optarg =>
    have hok : (mystrtoul optarg VRID_MAX).toOption = some 0 ↔ mystrtoul optarg VRID_MAX = .ok 0 := by
      cases mystrtoul optarg VRID_MAX <;> simp [Except.toOption]
    simp only [isZeroVrid, Bool.and_eq_true, beq_iff_eq, hok, Found.opt.injEq]
    constructor
    · rintro ⟨rfl, hz⟩
      exact ⟨optarg, ⟨rfl, rfl⟩, hz⟩
    · rintro ⟨_, ⟨rfl, rfl⟩, hz⟩
      exact ⟨rfl, hz⟩

/-- The options in front of the first identifier 0. -/
def reached (found : List (Found Opt)) : List (Found Opt) := found.takeWhile (!isZeroVrid ·)

theorem reached_eq {found : List (Found Opt)} (h : ∀ f ∈ found, isZeroVrid f = false) :
    reached found = found := by
  rw [reached, List.takeWhile_eq_self_iff]
  intro f hf
  rw [h f hf]
  rfl

theorem Passes.not_zero {memory : Bool} {f : Found Opt} (h : Passes (memory, f)) : isZeroVrid f = false := by
  rw [Bool.eq_false_iff, ne_eq, isZeroVrid_iff]
  rintro ⟨optarg, rfl, hz⟩
  obtain ⟨⟨opt, hopt, hpos⟩, -⟩ := h
  rw [hz] at hopt
  obtain rfl := Except.ok.inj hopt
  omega

/-- The loop is left through its end when every option passes. -/
theorem optionLoop_ok_iff (sys : OptionCalls) (found : List (Found Opt)) (k : Nat) (p : Parsed) :
    (∃ q, optionLoop sys k found p = .ok q) ↔ ∀ a ∈ answered sys k found, Passes a := by
  induction found generalizing k p with
  | nil => simp [optionLoop, answered]
  | cons f rest ih =>
    rw [answered, List.forall_mem_cons]
    cases f with
    | unknown => simp [optionLoop, Passes]
    | opt o optarg =>
      have hpass : (∃ p', vrrpOption (sys.strndup k) sys.argMax o optarg p = .ok p') ↔
          Passes (sys.strndup k, .opt o optarg) := vrrpOption_ok_iff p
      rw [← hpass, optionLoop]
      constructor
      · rintro ⟨q, h⟩
        obtain ⟨mid, hone, hrest⟩ := bind_eq_ok.mp h
        exact ⟨⟨mid, hone⟩, (ih (k + 1) mid).mp ⟨q, hrest⟩⟩
      · rintro ⟨⟨mid, hone⟩, hrest⟩
        obtain ⟨q, h⟩ := (ih (k + 1) mid).mpr hrest
        exact ⟨q, by rw [hone]; exact h⟩

/-- It is left with the return value 0 at an identifier 0 that it reaches, and nothing
else has been set then than by the options in front of it. -/
theorem optionLoop_zero_iff (sys : OptionCalls) (found : List (Found Opt)) (k : Nat) (p q : Parsed) :
    optionLoop sys k found p = .error (0, q) ↔
      (∃ f ∈ found, isZeroVrid f = true) ∧ optionLoop sys k (reached found) p = .ok q := by
  induction found generalizing k p with
  | nil => simp [optionLoop]
  | cons f rest ih =>
    cases f with
    | unknown => simp [optionLoop, reached, isZeroVrid]
    | opt o optarg =>
      cases hz : isZeroVrid (.opt o optarg) with
      | true =>
        obtain ⟨optarg', heq, hzero⟩ := (isZeroVrid_iff _).mp hz
        obtain ⟨rfl, rfl⟩ := Found.opt.inj heq
        have hone : vrrpOption (sys.strndup k) sys.argMax .vrid optarg p = .error (0, p) := by
          rw [vrrpOption, vridOption, hzero]
          rfl
        rw [optionLoop, hone, reached, List.takeWhile_cons_of_neg (by simp [hz])]
        simp [optionLoop, hz, bind, Except.bind]
      | false =>
        have hreached : reached (.opt o optarg :: rest) = .opt o optarg :: reached rest := by
          rw [reached, List.takeWhile_cons_of_pos (by simp [hz]), reached]
        rw [hreached, optionLoop, optionLoop]
        cases hone : vrrpOption (sys.strndup k) sys.argMax o optarg p with
        | ok mid =>
          simp [bind, Except.bind, ih, List.mem_cons, or_and_right, exists_or, hz]
        | error returned =>
          have hne : returned ≠ (0, q) := by
            rintro rfl
            obtain ⟨rfl, hzero, -⟩ := vrrpOption_zero hone
            have hyes := (isZeroVrid_iff _).mpr ⟨optarg, rfl, hzero⟩
            rw [hz] at hyes
            cases hyes
          simp [bind, Except.bind, hne]

end Uvrrpd
