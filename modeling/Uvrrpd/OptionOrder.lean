import Uvrrpd.Refusals

/-! The order of the options. What was said of an option does not depend on where it
stands, except that `-6` overrides a version in front of it and an identifier 0 hides
what stands behind it. -/
namespace Uvrrpd
open Library.Getopt

def said : Found Opt → Option Opt
  | .opt o _ => some o
  | .unknown => none

def Once (found : List (Found Opt)) : Prop := (found.filterMap said).Nodup

instance (found : List (Found Opt)) : Decidable (Once found) := inferInstanceAs (Decidable (List.Nodup _))

def isRfc3768 : Found Opt → Bool
  | .opt o optarg => o == .rfc && number optarg 3 == 2
  | .unknown => false

def isIpv6 (f : Found Opt) : Bool := said f == some .ipv6

def Ordered (found : List (Found Opt)) : Prop :=
  found.Pairwise (fun f f' => isIpv6 f = true → isRfc3768 f' = false)

private theorem once_cons {o : Opt} {optarg : Octets} {rest : List (Found Opt)} :
    Once (.opt o optarg :: rest) ↔ (∀ optarg', .opt o optarg' ∉ rest) ∧ Once rest := by
  have hmem : o ∈ rest.filterMap said ↔ ∃ optarg', .opt o optarg' ∈ rest := by
    rw [List.mem_filterMap]
    constructor
    · rintro ⟨f, hf, hsaid⟩
      cases f with
      | unknown => cases hsaid
      | opt o' optarg' =>
        obtain rfl := Option.some.inj hsaid
        exact ⟨optarg', hf⟩
    · rintro ⟨optarg', hf⟩
      exact ⟨_, hf, rfl⟩
  rw [Once, Once, show (Found.opt o optarg :: rest).filterMap said = o :: rest.filterMap said from rfl,
    List.nodup_cons, hmem, not_exists]

private theorem given_iff (found : List (Found Opt)) (o : Opt) :
    given found o = true ↔ ∃ optarg, .opt o optarg ∈ found := by
  rw [given, List.any_eq_true]
  constructor
  · rintro ⟨f, hf, hsaid⟩
    cases f with
    | unknown => cases hsaid
    | opt o' optarg =>
      obtain rfl := beq_iff_eq.mp hsaid
      exact ⟨optarg, hf⟩
  · rintro ⟨optarg, hf⟩
    exact ⟨_, hf, beq_self_eq_true o⟩

private theorem answered_snd (sys : OptionCalls) (k : Nat) (found : List (Found Opt)) :
    (answered sys k found).map Prod.snd = found := by
  induction found generalizing k with
  | nil => rfl
  | cons f rest ih => rw [answered, List.map_cons, ih]

/-- When nothing is said twice, the last that was said is all that was said. -/
private theorem settings_iff {l : List (Bool × Found Opt)} (h : Once (l.map Prod.snd)) (o : Opt) (a : Bool × Octets) :
    settings l o = some a ↔ (a.1, .opt o a.2) ∈ l := by
  refine ⟨settings_mem, ?_⟩
  induction l with
  | nil => simp
  | cons f rest ih =>
    obtain ⟨memory, f⟩ := f
    cases f with
    | unknown =>
      have hrest : Once (rest.map Prod.snd) := h
      intro hmem
      exact ih hrest (by simpa using hmem)
    | opt o' optarg =>
      obtain ⟨hno, hrest⟩ := once_cons.mp h
      intro hmem
      rw [settings]
      rcases List.mem_cons.mp hmem with heq | hmem
      · obtain ⟨hm, hf⟩ := Prod.mk.inj heq
        obtain ⟨rfl, rfl⟩ := Found.opt.inj hf
        have hnone : settings rest o = none := by
          rw [Option.eq_none_iff_forall_ne_some]
          intro b hb
          exact hno b.2 (List.mem_map.mpr ⟨_, settings_mem hb, rfl⟩)
        simp [hnone, ← hm]
      · rw [ih hrest hmem]
        rfl

/-- Without `-6` the version is what was said last of it. -/
private theorem versionAfter_inet (sys : OptionCalls) {found : List (Found Opt)} (h : given found .ipv6 = false)
    (k : Nat)
    (version : VrrpVersion) :
    versionAfter found version =
      (settings (answered sys k found) .rfc).elim version
        (fun a => if number a.2 3 = 2 then .rfc3768 else .rfc5798) := by
  induction found generalizing k version with
  | nil => rfl
  | cons f rest ih =>
    cases f with
    | unknown => exact ih h (k + 1) version
    | opt o optarg =>
      rw [given, List.any_cons, Bool.or_eq_false_iff] at h
      rw [versionAfter, ih h.2 (k + 1), answered, settings]
      cases hs : settings (answered sys (k + 1) rest) .rfc with
      | some a => rfl
      | none => cases o <;> simp_all [Opt.version]

private theorem isIpv6_iff (f : Found Opt) : isIpv6 f = true ↔ ∃ optarg, f = .opt .ipv6 optarg := by
  cases f <;> simp [isIpv6, said]

private theorem isRfc3768_iff (f : Found Opt) :
    isRfc3768 f = true ↔ ∃ optarg, f = .opt .rfc optarg ∧ number optarg 3 = 2 := by
  cases f with
  | unknown => simp [isRfc3768]
  | opt o optarg =>
    rw [isRfc3768, Bool.and_eq_true, beq_iff_eq, beq_iff_eq]
    constructor
    · rintro ⟨rfl, htwo⟩
      exact ⟨optarg, rfl, htwo⟩
    · rintro ⟨_, heq, htwo⟩
      obtain ⟨rfl, rfl⟩ := Found.opt.inj heq
      exact ⟨rfl, htwo⟩

private theorem ordered_of_inet {found : List (Found Opt)} (h : given found .ipv6 = false) : Ordered found := by
  refine List.pairwise_of_forall_mem_list ?_
  intro f hf f' _ hsix
  obtain ⟨optarg, rfl⟩ := (isIpv6_iff f).mp hsix
  rw [(given_iff found .ipv6).mpr ⟨optarg, hf⟩] at h
  cases h

private theorem versionAfter_behind (sys : OptionCalls) {found : List (Found Opt)} (honce : Once found)
    (h : given found .ipv6 = false) :
    versionAfter found .rfc5798 = .rfc5798 ↔ ∀ f ∈ found, isRfc3768 f = false := by
  have hset := settings_iff (l := answered sys 0 found) (by rw [answered_snd]; exact honce) .rfc
  rw [versionAfter_inet sys h 0]
  constructor
  · intro hversion f hf
    rw [Bool.eq_false_iff]
    intro htwo
    obtain ⟨optarg, rfl, hnum⟩ := (isRfc3768_iff f).mp htwo
    obtain ⟨memory, hmem⟩ := answered_mem sys 0 hf
    rw [(hset (memory, optarg)).mpr hmem] at hversion
    simp [hnum] at hversion
  · intro hall
    cases hs : settings (answered sys 0 found) .rfc with
    | none => rfl
    | some a =>
      have hmem : .opt .rfc a.2 ∈ (answered sys 0 found).map Prod.snd := List.mem_map_of_mem (settings_mem hs)
      rw [answered_snd] at hmem
      have hnum : number a.2 3 ≠ 2 := by
        intro hnum
        have htwo := (isRfc3768_iff _).mpr ⟨a.2, rfl, hnum⟩
        rw [hall _ hmem] at htwo
        cases htwo
      simp [hnum]

/-- With `-6` it is 3 when no `-r 2` stands behind. -/
private theorem versionAfter_inet6 (sys : OptionCalls) {found : List (Found Opt)} (honce : Once found)
    (h : given found .ipv6 = true) (version : VrrpVersion) :
    versionAfter found version = .rfc5798 ↔ Ordered found := by
  induction found generalizing version with
  | nil => cases h
  | cons f rest ih =>
    cases f with
    | unknown =>
      rw [Ordered, List.pairwise_cons]
      have hrest := ih honce h version
      refine hrest.trans ⟨fun ho => ⟨?_, ho⟩, And.right⟩
      intro f' _ hsix
      cases hsix
    | opt o optarg =>
      obtain ⟨hno, hrest⟩ := once_cons.mp honce
      rw [versionAfter, Ordered, List.pairwise_cons]
      by_cases ho : o = .ipv6
      · subst ho
        have hsix : given rest .ipv6 = false := by
          rw [Bool.eq_false_iff, ne_eq, given_iff, not_exists]
          exact hno
        refine (versionAfter_behind sys hrest hsix).trans ⟨fun hall => ⟨?_, ordered_of_inet hsix⟩, ?_⟩
        · intro f' hf' _
          exact hall f' hf'
        · intro hall f' hf'
          exact hall.1 f' hf' rfl
      · have hgiven : given rest .ipv6 = true := by
          obtain ⟨optarg', hmem⟩ := (given_iff _ _).mp h
          rcases List.mem_cons.mp hmem with heq | hmem
          · exact absurd (Found.opt.inj heq).1.symm ho
          · exact (given_iff _ _).mpr ⟨optarg', hmem⟩
        rw [ih hrest hgiven]
        refine ⟨fun hr => ⟨?_, hr⟩, And.right⟩
        intro f' _ hsix
        exact absurd hsix (by simp [isIpv6, said, ho])

def effective (sys : OptionCalls) (found : List (Found Opt)) : List (Bool × Found Opt) :=
  answered sys 0 (reached found)

def afterOptions (sys : OptionCalls) (found : List (Found Opt)) (ctrl : VrrpCtrl) (adv : Frame) : Parsed :=
  (Parsed.blank ctrl adv).set sys.argMax (settings (effective sys found)) (versionAfter (reached found) .rfc3768)

/-- An accepted command line has passed all options in front of an identifier 0, and
goes on with the operands unless there is one. -/
private theorem vrrpOptions_accepted {sys : OptionCalls} {args : List Octets} {ctrl : VrrpCtrl} {adv : Frame}
    {found : List (Found Opt)} {operands : List Octets}
    (hget : opts.getoptLong sys.posixlyCorrect none args = (found, operands))
    (h : (vrrpOptions sys args (.blank ctrl adv)).1 = 0) :
    (∀ a ∈ effective sys found, Passes a) ∧
      ((∃ f ∈ found, isZeroVrid f = true) ∧
          vrrpOptions sys args (.blank ctrl adv) = (0, afterOptions sys found ctrl adv) ∨
        reached found = found ∧
          vrrpOptions sys args (.blank ctrl adv) = vrrpOperands sys operands (afterOptions sys found ctrl adv)) := by
  rw [vrrpOptions, hget] at h ⊢
  simp only at h ⊢
  cases hloop : optionLoop sys 0 found (.blank ctrl adv) with
  | error returned =>
    obtain ⟨ret, q⟩ := returned
    rw [hloop] at h
    obtain rfl : ret = 0 := h
    obtain ⟨hzero, hreached⟩ := (optionLoop_zero_iff sys found 0 _ q).mp hloop
    have hq := optionLoop_eq hreached
    refine ⟨(optionLoop_ok_iff _ _ _ _).mp ⟨q, hreached⟩, .inl ⟨hzero, ?_⟩⟩
    rw [hq]
    rfl
  | ok q =>
    have hpass := (optionLoop_ok_iff _ _ _ _).mp ⟨q, hloop⟩
    have heq : reached found = found := by
      refine reached_eq (fun f hf => ?_)
      obtain ⟨memory, hmem⟩ := answered_mem sys 0 hf
      exact (hpass _ hmem).not_zero
    rw [effective, afterOptions, effective, heq]
    refine ⟨hpass, .inr ⟨rfl, ?_⟩⟩
    rw [optionLoop_eq hloop]
    rfl

structure SameStructures (p p' : Parsed) : Prop where
  vrrp : p.vrrp = p'.vrrp
  vnet : p.vnet = p'.vnet
  scriptname : p.scriptname = p'.scriptname

/-- IPv6 support, only in VRRPv3. -/
def OnlyV3 (p : Parsed) : Prop := p.vnet.family = .inet6 → p.vrrp.version = .rfc5798

/-- The operands are read the same way whatever `strndup` answered. -/
private theorem vipLoop_strndup (sys : OptionCalls) (strndup : Nat → Bool) (k : Nat) (operands : List Octets)
    (vnet : VrrpNet) :
    vipLoop { sys with strndup } k operands vnet = vipLoop sys k operands vnet := by
  induction operands generalizing k vnet with
  | nil => rfl
  | cons ip rest ih =>
    have hset : vrrpNetVipSet { sys with strndup } k vnet ip = vrrpNetVipSet sys k vnet ip := rfl
    simp only [vipLoop, hset, ih]

/-- Only the two structures are read. -/
private theorem vrrpOperands_same (sys : OptionCalls) (strndup : Nat → Bool) (operands : List Octets) {p p' : Parsed}
    (h : SameStructures p p') :
    SameStructures (vrrpOperands sys operands p).2 (vrrpOperands { sys with strndup } operands p').2 := by
  obtain ⟨vrrp, vnet, background, loglevel, pidfileName, ctrlfileName, scriptname⟩ := p
  obtain ⟨vrrp', vnet', background', loglevel', pidfileName', ctrlfileName', scriptname'⟩ := p'
  obtain ⟨rfl, rfl, rfl⟩ := h
  simp only [vrrpOperands, vipLoop_strndup]
  split
  · exact ⟨rfl, rfl, rfl⟩
  split
  · exact ⟨rfl, rfl, rfl⟩
  split
  · exact ⟨rfl, rfl, rfl⟩
  split
  · exact ⟨rfl, rfl, rfl⟩
  · exact ⟨rfl, rfl, rfl⟩

/-- The family and the version are kept. -/
private theorem vrrpOperands_onlyV3 {sys : OptionCalls} {operands : List Octets} {p : Parsed}
    (h : (vrrpOperands sys operands p).1 = 0) : OnlyV3 (vrrpOperands sys operands p).2 ↔ OnlyV3 p := by
  rw [vrrpOperands] at h ⊢
  split at h
  · cases h
  next hnil =>
  rw [if_neg hnil]
  simp only at h ⊢
  split at h
  · cases h
  next vnet hloop =>
  obtain ⟨vips, -, rfl⟩ := vipLoop_spec hloop
  split at h
  · cases h
  next hvrid =>
  split at h
  · cases h
  next hname =>
  rw [if_neg hvrid, if_neg hname]
  obtain ⟨vif, -, hget⟩ := vrrpNetVifGetaddr_spec (show vrrpNetVifGetaddr sys _ = _ from Prod.mk.eta.symm)
  simp only at hget ⊢
  rw [OnlyV3, hget]
  exact Iff.rfl

/-- With the argument the option leaves what `vrrp_init` and `vrrp_net_init` have set,
or writes to neither of the structures. -/
def Opt.Idle (six : Bool) (o : Opt) (optarg : Octets) : Prop :=
  match o with
  | .priority => number optarg VRRP_PRIO_MAX = PRIO_DFL.toNat
  | .time => number optarg ADVINT_MAX = 0
  | .startDelay => number optarg ADVINT_MAX = 0
  | .preempt => cstring optarg = preemptOn
  | .rfc => six = true ∨ number optarg 3 = 2
  | .foreground => True
  | .pidfile => True
  | .control => True
  | .debug => True
  | _ => False

def OnlyIdle (l l' : List (Bool × Found Opt)) : Prop :=
  ∀ memory o optarg, (memory, .opt o optarg) ∈ l → (memory, .opt o optarg) ∉ l' →
    o.Idle (given (l.map Prod.snd) .ipv6) optarg

/-- The number an option that passes spells fits into its member. -/
private theorem number_le {optarg : Octets} {max : Nat} (h : ∃ opt, mystrtoul optarg max = .ok opt) :
    number optarg max ≤ max := by
  obtain ⟨opt, hopt⟩ := h
  rw [number, hopt]
  exact mystrtoul_le hopt

private theorem toNat_number8 {optarg : Octets} {max : Nat} (h : ∃ opt, mystrtoul optarg max = .ok opt)
    (hmax : max < 256) : (UInt8.ofNat (number optarg max)).toNat = number optarg max := by
  rw [UInt8.toNat_ofNat', Nat.mod_eq_of_lt ((number_le h).trans_lt hmax)]

private theorem toNat_number16 {optarg : Octets} {max : Nat} (h : ∃ opt, mystrtoul optarg max = .ok opt)
    (hmax : max < 65536) : (UInt16.ofNat (number optarg max)).toNat = number optarg max := by
  rw [UInt16.toNat_ofNat', Nat.mod_eq_of_lt ((number_le h).trans_lt hmax)]

section
variable {argMax : Nat} {ctrl : VrrpCtrl} {adv : Frame} {s s' : Opt → Option (Bool × Octets)}
  {version version' : VrrpVersion}

/-- What the structures have in common was set to what they were initialised with. -/
private theorem idle_of_same {o : Opt} {a : Bool × Octets} {six : Bool}
    (h : SameStructures ((Parsed.blank ctrl adv).set argMax s version)
      ((Parsed.blank ctrl adv).set argMax s' version'))
    (hs : s o = some a) (hs' : s' o = none) (hpass : Passes (a.1, .opt o a.2))
    (hrfc : o = .rfc → six = true ∨ number a.2 3 = 2) : o.Idle six a.2 := by
  obtain ⟨hvrrp, hvnet, hscript⟩ := h
  obtain ⟨hrange, hhelp, hmem⟩ := hpass
  cases o with
  | vrid =>
    have h := congrArg (fun vrrp => vrrp.vrid.toNat) hvrrp
    obtain ⟨opt, hopt, hpos⟩ := hrange
    have hnum : number a.2 VRID_MAX = opt := by rw [number, hopt]
    simp only [Parsed.set, hs, hs', Option.elim, Parsed.blank, vrrpInit, toNat_number8 ⟨opt, hopt⟩ (by decide)] at h
    rw [hnum] at h
    exact absurd h (Nat.pos_iff_ne_zero.mp hpos)
  | interface =>
    have h := congrArg (fun vnet => vnet.vif.ifname) hvnet
    simp [Parsed.set, hs, hs', Parsed.blank, vrrpNetInit, strndup, hmem (.inl rfl)] at h
  | priority =>
    have h := congrArg (fun vrrp => vrrp.priority.toNat) hvrrp
    simp only [Parsed.set, hs, hs', Option.elim, Parsed.blank, vrrpInit, toNat_number8 hrange (by decide)] at h
    exact h
  | time =>
    have h := congrArg (fun vrrp => vrrp.advInt.toNat) hvrrp
    simp only [Parsed.set, hs, hs', Option.elim, Parsed.blank, vrrpInit, toNat_number16 hrange (by decide)] at h
    exact h
  | startDelay =>
    have h := congrArg (fun vrrp => vrrp.startDelay.toNat) hvrrp
    simp only [Parsed.set, hs, hs', Option.elim, Parsed.blank, vrrpInit, toNat_number16 hrange (by decide)] at h
    exact h
  | preempt =>
    have h := congrArg Vrrp.preempt hvrrp
    simp only [Parsed.set, hs, hs', Option.elim, Parsed.blank, vrrpInit] at h
    exact (matchesWord_cstring a.2 (by decide)).mp h
  | rfc => exact hrfc rfl
  | ipv6 =>
    have h := congrArg VrrpNet.family hvnet
    simp [Parsed.set, hs, hs', Parsed.blank, vrrpNetInit] at h
  | auth =>
    have h := congrArg Vrrp.authType hvrrp
    simp [Parsed.set, hs, hs', Parsed.blank, vrrpInit] at h
  | script => simp [Parsed.set, hs, hs', Parsed.blank, strndup, hmem (.inr rfl)] at hscript
  | foreground | pidfile | control | debug => trivial
  | help => exact absurd rfl hhelp

/-- A member written by one option is the same when that option says the same or
nothing but what was there. -/
private theorem elim_same {six six' : Bool} (hagree : ∀ o a a', s o = some a → s' o = some a' → a = a')
    (h : ∀ o a, s o = some a → s' o = none → o.Idle six a.2)
    (h' : ∀ o a, s' o = some a → s o = none → o.Idle six' a.2)
    {α : Type} (init : α) (o : Opt) (set : Bool × Octets → α)
    (hset : ∀ a, o.Idle six a.2 ∨ o.Idle six' a.2 → set a = init) :
    (s o).elim init set = (s' o).elim init set := by
  cases hs : s o with
  | none =>
    cases hs' : s' o with
    | none => rfl
    | some a' => exact (hset a' (.inr (h' o a' hs' hs))).symm
  | some a =>
    cases hs' : s' o with
    | none => exact hset a (.inl (h o a hs hs'))
    | some a' => rw [hagree o a a' hs hs']

/-- What is idle changes nothing. -/
private theorem same_of_idle {six six' : Bool} (hagree : ∀ o a a', s o = some a → s' o = some a' → a = a')
    (h : ∀ o a, s o = some a → s' o = none → o.Idle six a.2)
    (h' : ∀ o a, s' o = some a → s o = none → o.Idle six' a.2) :
    SameStructures ((Parsed.blank ctrl adv).set argMax s version)
      ((Parsed.blank ctrl adv).set argMax s' version) := by
  -- these options are never idle
  have hnever {p : Prop} (hidle : False ∨ False) : p := (or_self_iff.mp hidle).elim
  have hvrid (init : UInt8) (set : Bool × Octets → UInt8) :=
    elim_same hagree h h' init .vrid set (fun _ hidle => hnever hidle)
  have hpriority := elim_same hagree h h' PRIO_DFL .priority (fun a => UInt8.ofNat (number a.2 VRRP_PRIO_MAX))
    (fun a hidle => by
      rw [show number a.2 VRRP_PRIO_MAX = PRIO_DFL.toNat from or_self_iff.mp hidle, UInt8.ofNat_toNat])
  have htime := elim_same hagree h h' 0 .time (fun a => UInt16.ofNat (number a.2 ADVINT_MAX))
    (fun a hidle => by rw [show number a.2 ADVINT_MAX = 0 from or_self_iff.mp hidle]; rfl)
  have hdelay := elim_same hagree h h' 0 .startDelay (fun a => UInt16.ofNat (number a.2 ADVINT_MAX))
    (fun a hidle => by rw [show number a.2 ADVINT_MAX = 0 from or_self_iff.mp hidle]; rfl)
  have hpreempt := elim_same hagree h h' true .preempt (fun a => matchesWord (a.2 ++ [0]) preemptOn)
    (fun a hidle => (matchesWord_cstring a.2 (by decide)).mpr (or_self_iff.mp hidle))
  have htype := elim_same hagree h h' VrrpAuthtype.noauth .auth (fun _ => VrrpAuthtype.simple)
    (fun _ hidle => hnever hidle)
  have hdata := elim_same hagree h h' none .auth (fun a => strndup a.1 a.2 VRRP_AUTH_PASS_LEN)
    (fun _ hidle => hnever hidle)
  have hname := elim_same hagree h h' none .interface (fun a => strndup a.1 a.2 IFNAMSIZ)
    (fun _ hidle => hnever hidle)
  have hfamily := elim_same hagree h h' Family.inet .ipv6 (fun _ => Family.inet6) (fun _ hidle => hnever hidle)
  have hscript := elim_same hagree h h' none .script (fun a => strndup a.1 a.2 argMax)
    (fun _ hidle => hnever hidle)
  refine ⟨?_, ?_, hscript⟩
  · simp only [Parsed.set, Parsed.blank, vrrpInit, hvrid, hpriority, htime, hdelay, hpreempt, htype, hdata]
  · simp only [Parsed.set, Parsed.blank, vrrpNetInit, hvrid, hname, hfamily]

end

private theorem effective_sub {sys : OptionCalls} {found : List (Found Opt)} {a : Bool × Found Opt}
    (h : a ∈ effective sys found) : a ∈ answered sys 0 found := by
  suffices hsub : ∀ k, answered sys k (reached found) ⊆ answered sys k found from hsub 0 h
  clear h
  induction found with
  | nil => exact fun _ => List.Subset.refl _
  | cons f rest ih =>
    intro k
    rw [reached, List.takeWhile_cons]
    split
    · rw [answered, answered]
      exact List.cons_subset_cons _ (ih (k + 1))
    · exact List.nil_subset _

theorem Once.reached {found : List (Found Opt)} (h : Once found) : Once (reached found) :=
  h.sublist ((List.takeWhile_sublist _).filterMap said)

private theorem effective_snd (sys : OptionCalls) (found : List (Found Opt)) :
    (effective sys found).map Prod.snd = reached found := answered_snd sys 0 _

private theorem afterOptions_onlyV3 (sys : OptionCalls) {found : List (Found Opt)} (honce : Once found)
    (ctrl : VrrpCtrl)
    (adv : Frame) : OnlyV3 (afterOptions sys found ctrl adv) ↔ Ordered (reached found) := by
  have hfamily : (afterOptions sys found ctrl adv).vnet.family = .inet6 ↔ given (reached found) .ipv6 = true := by
    rw [← settings_isSome sys (reached found) 0 .ipv6, afterOptions, effective]
    cases hs : settings (answered sys 0 (reached found)) .ipv6 <;>
      simp [Parsed.set, hs, Parsed.blank, vrrpNetInit]
  have hversion : (afterOptions sys found ctrl adv).vrrp.version = versionAfter (reached found) .rfc3768 := rfl
  rw [OnlyV3, hfamily, hversion]
  cases hsix : given (reached found) .ipv6 with
  | false => simp [ordered_of_inet hsix]
  | true => simp [versionAfter_inet6 sys honce.reached hsix]

section
variable {sys : OptionCalls} {strndup : Nat → Bool} {found found' : List (Found Opt)}

/-- What both command lines say they say alike. -/
private theorem settings_agree (honce : Once found)
    (hperm : (answered sys 0 found).Perm (answered { sys with strndup } 0 found')) {o : Opt} {a a' : Bool × Octets}
    (h : settings (effective sys found) o = some a)
    (h' : settings (effective { sys with strndup } found') o = some a') : a = a' := by
  have hset := settings_iff (l := answered sys 0 found) (by rwa [answered_snd]) o
  have hmem := (hset a).mpr (effective_sub (settings_mem h))
  have hmem' := (hset a').mpr (hperm.mem_iff.mpr (effective_sub (settings_mem h')))
  exact Option.some.inj (hmem.symm.trans hmem')

private theorem onlyIdle_iff {l l' : List (Bool × Found Opt)} (honce : Once (l.map Prod.snd))
    (honce' : Once (l'.map Prod.snd))
    (hagree : ∀ o a a', settings l o = some a → settings l' o = some a' → a = a') :
    OnlyIdle l l' ↔ ∀ o a, settings l o = some a → settings l' o = none →
      o.Idle (given (l.map Prod.snd) .ipv6) a.2 := by
  constructor
  · intro h o a hs hs'
    refine h a.1 o a.2 (settings_mem hs) (fun hmem => ?_)
    rw [(settings_iff honce' o a).mpr hmem] at hs'
    cases hs'
  · intro h memory o optarg hmem hno
    have hs := (settings_iff honce o (memory, optarg)).mpr hmem
    refine h o (memory, optarg) hs ?_
    rw [Option.eq_none_iff_forall_ne_some]
    intro a' hs'
    obtain rfl := hagree o _ _ hs hs'
    exact hno (settings_mem hs')

/-- The version of an accepted command line that keeps to version 3 for IPv6. -/
private theorem version_said (sys : OptionCalls) {found : List (Found Opt)} (honce : Once found)
    (hord : Ordered (reached found)) :
    versionAfter (reached found) .rfc3768 =
      if given (reached found) .ipv6 then .rfc5798
      else (settings (effective sys found) .rfc).elim .rfc3768
        (fun a => if number a.2 3 = 2 then .rfc3768 else .rfc5798) := by
  cases hsix : given (reached found) .ipv6 with
  | true => exact (versionAfter_inet6 sys honce.reached hsix _).mpr hord
  | false => exact versionAfter_inet sys hsix 0 _

/-- Behind two loops that kept to version 3 for IPv6. -/
private theorem afterOptions_same_iff (honce : Once found) (honce' : Once found')
    (hperm : (answered sys 0 found).Perm (answered { sys with strndup } 0 found'))
    (hpass : ∀ a ∈ effective sys found, Passes a) (hpass' : ∀ a ∈ effective { sys with strndup } found', Passes a)
    (hord : Ordered (reached found)) (hord' : Ordered (reached found')) (ctrl : VrrpCtrl) (adv : Frame) :
    SameStructures (afterOptions sys found ctrl adv) (afterOptions { sys with strndup } found' ctrl adv) ↔
      OnlyIdle (effective sys found) (effective { sys with strndup } found') ∧
        OnlyIdle (effective { sys with strndup } found') (effective sys found) := by
  have hagree (o : Opt) (a a' : Bool × Octets) (h : settings (effective sys found) o = some a)
      (h' : settings (effective { sys with strndup } found') o = some a') : a = a' := settings_agree honce hperm h h'
  have hone : Once ((effective sys found).map Prod.snd) := by rw [effective_snd]; exact honce.reached
  have hone' : Once ((effective { sys with strndup } found').map Prod.snd) := by
    rw [effective_snd]
    exact honce'.reached
  rw [onlyIdle_iff hone hone' hagree, onlyIdle_iff hone' hone (fun o a a' h h' => (hagree o a' a h' h).symm),
    effective_snd, effective_snd]
  have hsix := settings_isSome sys (reached found) 0 .ipv6
  have hsix' := settings_isSome { sys with strndup } (reached found') 0 .ipv6
  have hversion := version_said sys honce hord
  have hversion' := version_said { sys with strndup } honce' hord'
  have hboth : given (reached found) .ipv6 = given (reached found') .ipv6 ↔
      (∀ a, settings (effective sys found) .ipv6 = some a →
        settings (effective { sys with strndup } found') .ipv6 ≠ none) ∧
      (∀ a, settings (effective { sys with strndup } found') .ipv6 = some a →
        settings (effective sys found) .ipv6 ≠ none) := by
    rw [← hsix, ← hsix', effective, effective]
    cases settings (answered sys 0 (reached found)) .ipv6 <;>
      cases settings (answered { sys with strndup } 0 (reached found')) .ipv6 <;> simp
  constructor
  · intro h
    have heq : given (reached found) .ipv6 = given (reached found') .ipv6 := by
      have hfamily := congrArg VrrpNet.family h.vnet
      refine hboth.mpr ⟨fun a hs hs' => ?_, fun a hs' hs => ?_⟩ <;>
        simp [afterOptions, Parsed.set, hs, hs', Parsed.blank, vrrpNetInit] at hfamily
    have hv : versionAfter (reached found) .rfc3768 = versionAfter (reached found') .rfc3768 :=
      congrArg Vrrp.version h.vrrp
    rw [hversion, hversion', ← heq] at hv
    refine ⟨fun o a hs hs' => ?_, fun o a hs' hs => ?_⟩
    · refine idle_of_same h hs hs' (hpass _ (settings_mem hs)) (fun ho => ?_)
      subst ho
      cases hg : given (reached found) .ipv6 with
      | true => exact .inl rfl
      | false => simpa [hs, hs', hg] using hv
    · have hflip : SameStructures (afterOptions { sys with strndup } found' ctrl adv)
          (afterOptions sys found ctrl adv) := ⟨h.vrrp.symm, h.vnet.symm, h.scriptname.symm⟩
      refine idle_of_same hflip hs' hs (hpass' _ (settings_mem hs')) (fun ho => ?_)
      subst ho
      rw [← heq]
      cases hg : given (reached found) .ipv6 with
      | true => exact .inl rfl
      | false => simpa [hs, hs', hg] using hv.symm
  · rintro ⟨h, h'⟩
    have heq := hboth.mpr ⟨fun a hs hs' => h .ipv6 a hs hs', fun a hs' hs => h' .ipv6 a hs' hs⟩
    have hv : versionAfter (reached found) .rfc3768 = versionAfter (reached found') .rfc3768 := by
      rw [hversion, hversion', ← heq]
      cases hg : given (reached found) .ipv6 with
      | true => rfl
      | false =>
        simp only [Bool.false_eq_true, if_false]
        refine elim_same hagree h h' _ .rfc _ (fun a hidle => ?_)
        rw [← heq, or_self_iff, hg] at hidle
        rcases hidle with hidle | hidle
        · cases hidle
        · rw [if_pos hidle]
    rw [afterOptions, afterOptions, ← hv]
    exact same_of_idle hagree h h'

/-- Version 3 for IPv6, as accepted. -/
private theorem accepted_onlyV3 {args : List Octets} {ctrl : VrrpCtrl} {adv : Frame} {operands : List Octets}
    (hget : opts.getoptLong sys.posixlyCorrect none args = (found, operands)) (honce : Once found)
    (h : (vrrpOptions sys args (.blank ctrl adv)).1 = 0) :
    OnlyV3 (vrrpOptions sys args (.blank ctrl adv)).2 ↔ Ordered (reached found) := by
  rcases (vrrpOptions_accepted hget h).2 with ⟨-, heq⟩ | ⟨-, heq⟩
  · rw [heq]
    exact afterOptions_onlyV3 sys honce ctrl adv
  · rw [heq] at h ⊢
    exact (vrrpOperands_onlyV3 h).trans (afterOptions_onlyV3 sys honce ctrl adv)

/-- Two accepted command lines that differ in the order of their options, each given
once, fill the structures alike, with version 3 for IPv6, exactly when in neither `-r 2`
stands behind `-6` and what an identifier 0 hides in one of them alone is idle. -/
theorem option_order_iff {args args' : List Octets} {ctrl : VrrpCtrl} {adv : Frame} {operands : List Octets}
    (hget : opts.getoptLong sys.posixlyCorrect none args = (found, operands))
    (hget' : opts.getoptLong sys.posixlyCorrect none args' = (found', operands))
    (honce : Once found) (hperm : (answered sys 0 found).Perm (answered { sys with strndup } 0 found'))
    (h : (vrrpOptions sys args (.blank ctrl adv)).1 = 0)
    (h' : (vrrpOptions { sys with strndup } args' (.blank ctrl adv)).1 = 0) :
    SameStructures (vrrpOptions sys args (.blank ctrl adv)).2
          (vrrpOptions { sys with strndup } args' (.blank ctrl adv)).2 ∧
        OnlyV3 (vrrpOptions sys args (.blank ctrl adv)).2 ∧
        OnlyV3 (vrrpOptions { sys with strndup } args' (.blank ctrl adv)).2 ↔
      Ordered (reached found) ∧ Ordered (reached found') ∧
        OnlyIdle (effective sys found) (effective { sys with strndup } found') ∧
        OnlyIdle (effective { sys with strndup } found') (effective sys found) := by
  have hfound : found.Perm found' := by
    have hmap := hperm.map Prod.snd
    rwa [answered_snd, answered_snd] at hmap
  have honce' : Once found' := (hfound.filterMap said).nodup_iff.mp honce
  have hsaid' : opts.getoptLong (OptionCalls.posixlyCorrect { sys with strndup }) none args' = (found', operands) :=
    hget'
  rw [accepted_onlyV3 hget honce h, accepted_onlyV3 hsaid' honce' h']
  obtain ⟨hpass, hcase⟩ := vrrpOptions_accepted hget h
  obtain ⟨hpass', hcase'⟩ := vrrpOptions_accepted hsaid' h'
  have hsame (hord : Ordered (reached found)) (hord' : Ordered (reached found')) :=
    afterOptions_same_iff honce honce' hperm hpass hpass' hord hord' ctrl adv
  -- an identifier 0 is in both or in neither
  have hnone {f : Found Opt} {l : List (Found Opt)} (hf : f ∈ l) (hl : reached l = l) : isZeroVrid f = false := by
    rw [reached, List.takeWhile_eq_self_iff] at hl
    simpa using hl f hf
  rcases hcase with ⟨⟨f, hf, hz⟩, heq⟩ | ⟨hall, heq⟩
  · rcases hcase' with ⟨-, heq'⟩ | ⟨hall', -⟩
    · rw [heq, heq']
      constructor
      · rintro ⟨hs, hord, hord'⟩
        exact ⟨hord, hord', (hsame hord hord').mp hs⟩
      · rintro ⟨hord, hord', hidle⟩
        exact ⟨(hsame hord hord').mpr hidle, hord, hord'⟩
    · rw [hnone (hfound.mem_iff.mp hf) hall'] at hz
      cases hz
  · rcases hcase' with ⟨⟨f, hf, hz⟩, -⟩ | ⟨hall', heq'⟩
    · rw [hnone (hfound.mem_iff.mpr hf) hall] at hz
      cases hz
    · have hidle : OnlyIdle (effective sys found) (effective { sys with strndup } found') ∧
          OnlyIdle (effective { sys with strndup } found') (effective sys found) := by
        rw [effective, effective, hall, hall']
        exact ⟨fun _ _ _ hmem hno => absurd (hperm.mem_iff.mp hmem) hno,
          fun _ _ _ hmem hno => absurd (hperm.mem_iff.mpr hmem) hno⟩
      rw [heq, heq']
      constructor
      · rintro ⟨-, hord, hord'⟩
        exact ⟨hord, hord', hidle⟩
      · rintro ⟨hord, hord', -⟩
        exact ⟨vrrpOperands_same sys strndup operands ((hsame hord hord').mpr hidle), hord, hord'⟩

end

/-- `-v 7 -i eth0` and `-i eth0 -v 7` are the same. -/
theorem option_order_lab :
    SameStructures
      (vrrpOptions labCalls.toOptionCalls [[0x2d, 0x76], [0x37], [0x2d, 0x69], labIfname, labVip]
        (.blank labCalls.ctrl labCalls.adv)).2
      (vrrpOptions labCalls.toOptionCalls [[0x2d, 0x69], labIfname, [0x2d, 0x76], [0x37], labVip]
        (.blank labCalls.ctrl labCalls.adv)).2 := by
  have hperm : (answered labCalls.toOptionCalls 0 [.opt .vrid [0x37], .opt .interface labIfname]).Perm
      (answered labCalls.toOptionCalls 0 [.opt .interface labIfname, .opt .vrid [0x37]]) := List.Perm.swap _ _ _
  have hget : opts.getoptLong labCalls.posixlyCorrect none
      [[0x2d, 0x76], [0x37], [0x2d, 0x69], labIfname, labVip] =
      ([.opt .vrid [0x37], .opt .interface labIfname], [labVip]) := rfl
  have hget' : opts.getoptLong labCalls.posixlyCorrect none
      [[0x2d, 0x69], labIfname, [0x2d, 0x76], [0x37], labVip] =
      ([.opt .interface labIfname, .opt .vrid [0x37]], [labVip]) := rfl
  refine ((option_order_iff hget hget' (by decide) hperm rfl rfl).mpr
    ⟨ordered_of_inet rfl, ordered_of_inet rfl, ?_, ?_⟩).1
  · exact fun _ _ _ hmem hno => absurd (hperm.mem_iff.mp hmem) hno
  · exact fun _ _ _ hmem hno => absurd (hperm.mem_iff.mpr hmem) hno

def labCalls6 : OptionCalls := { labCalls.toOptionCalls with
  inetPton6 := fun _ => some (List.Vector.replicate 16 0) }

/-- `-6 -r 2` leaves version 2 for IPv6, `-r 2 -6` version 3; both are accepted. -/
theorem option_order_matters :
    let args : List Octets :=
      [[0x2d, 0x36], [0x2d, 0x72], [0x32], [0x2d, 0x76], [0x37], [0x2d, 0x69], labIfname, labVip]
    let args' : List Octets :=
      [[0x2d, 0x72], [0x32], [0x2d, 0x36], [0x2d, 0x76], [0x37], [0x2d, 0x69], labIfname, labVip]
    let rest : List (Found Opt) := [.opt .vrid [0x37], .opt .interface labIfname]
    opts.getoptLong labCalls6.posixlyCorrect none args = (.opt .ipv6 [] :: .opt .rfc [0x32] :: rest, [labVip]) ∧
      opts.getoptLong labCalls6.posixlyCorrect none args' = (.opt .rfc [0x32] :: .opt .ipv6 [] :: rest, [labVip]) ∧
      ∃ p p', vrrpOptions labCalls6 args (.blank labCalls.ctrl labCalls.adv) = (0, p) ∧
        vrrpOptions labCalls6 args' (.blank labCalls.ctrl labCalls.adv) = (0, p') ∧
        ¬ SameStructures p p' ∧ ¬ OnlyV3 p := by
  refine ⟨rfl, rfl, _, _, rfl, rfl, fun h => ?_, fun h => ?_⟩
  · exact absurd (congrArg Vrrp.version h.vrrp) (by decide)
  · exact absurd (h rfl) (by decide)

end Uvrrpd
