import Uvrrpd.AdvBuffer

/-! The advertisement interval on its way through the program: what a master
announces, what a receiver compares, what it decodes, and what the timer is armed
with. The comparison reads the 8-bit member of version 2 in both versions. -/
namespace Uvrrpd
open Library.Runs

def Vrrphdr.interval (hdr : Vrrphdr) : VrrpVersion → Nat
  | .rfc3768 => hdr.advInt.toNat
  | .rfc5798 => 256 * hdr.authType.toNat + hdr.advInt.toNat

/-- The decoding is by the version nibble and does not depend on the host. -/
theorem getAdvint_eq (host : ByteOrder) {hdr : Vrrphdr} {version : VrrpVersion}
    (hv : hdr.versionType >>> 4 = version.code) : hdr.getAdvint host = hdr.interval version := by
  rw [Vrrphdr.getAdvint]
  rw [hv]
  cases version with
  | rfc3768 => rw [if_neg (by decide)]; rfl
  | rfc5798 => rw [if_pos rfl, Vrrphdr.maxAdvInt, ntohs_word]; rfl

/-- A version 3 header whose high interval octet is set and whose interval, or the
low octet of it, is the local one. -/
def Misread (vrrp : Vrrp) (hdr : Vrrphdr) : Prop :=
  vrrp.version = .rfc5798 ∧ hdr.authType ≠ 0 ∧
    (hdr.advInt.toNat = vrrp.advInt.toNat ∨ hdr.interval .rfc5798 = vrrp.advInt.toNat)

private theorem toNat_pos {a : UInt8} : a ≠ 0 ↔ 0 < a.toNat := by
  constructor
  · intro h
    refine Nat.pos_of_ne_zero (fun hz => h ?_)
    exact UInt8.toNat_inj.mp hz
  · rintro h rfl
    exact absurd h (by decide)

private theorem checkAdvInt_iff (host : ByteOrder) {vrrp : Vrrp} {hdr : Vrrphdr}
    (hv : hdr.versionType >>> 4 = vrrp.version.code) :
    (checkAdvInt vrrp hdr = true ↔ hdr.getAdvint host = vrrp.advInt.toNat) ↔ ¬ Misread vrrp hdr := by
  rw [getAdvint_eq host hv, checkAdvInt, beq_iff_eq, Misread]
  cases vrrp.version with
  | rfc3768 => simp [Vrrphdr.interval]
  | rfc5798 =>
    simp only [toNat_pos, true_and, Vrrphdr.interval]
    omega

/-- An interval of more than one octet is built into a header that the sender
itself would refuse. -/
theorem checkAdvInt_own (vnet : VrrpNet) {sender receiver : Vrrp}
    (ha : sender.advInt = receiver.advInt) :
    checkAdvInt receiver (advHdr vnet sender) = true ↔ receiver.advInt.toNat ≤ 255 := by
  simp only [checkAdvInt, advHdr, beq_iff_eq, UInt8.toNat_ofNat', ha]
  omega

/-- The interval decoded from an accepted version 3 header. -/
theorem accepted_interval {host : ByteOrder} {vnet vnet' : VrrpNet} {vrrp : Vrrp}
    {sock : Option Datagram} {stack : Octets} (hv : vrrp.version = .rfc5798)
    (h : vrrpNetRecv host vnet vrrp sock stack = .ok (.pkt, vnet')) :
    (vrrpAdvGetAdvint host vnet').toNat = vnet'.pkt.adv.interval .rfc5798 := by
  obtain ⟨-, hver, -⟩ := checkHeader_none (vrrpNetRecv_accepted h).header
  have hlt := vnet'.pkt.adv.authType.toNat_lt
  have hlt' := vnet'.pkt.adv.advInt.toNat_lt
  rw [hv] at hver
  rw [vrrpAdvGetAdvint, getAdvint_eq host hver, UInt16.toNat_ofNat', Vrrphdr.interval,
    Nat.mod_eq_of_lt (by omega)]

/-- What an accepted version 3 advertisement hands to `master_adv_int`. -/
private theorem accepted_advint {host : ByteOrder} {vnet vnet' : VrrpNet} {vrrp : Vrrp}
    {sock : Option Datagram} {stack : Octets} (hv : vrrp.version = .rfc5798)
    (h : vrrpNetRecv host vnet vrrp sock stack = .ok (.pkt, vnet')) :
    vrrpAdvGetAdvint host vnet' = vrrp.advInt ↔ vnet'.pkt.adv.authType = 0 := by
  have hlow : vnet'.pkt.adv.advInt.toNat = vrrp.advInt.toNat :=
    beq_iff_eq.mp (vrrpNetRecv_accepted h).advInt
  have hz : (0 : UInt8).toNat = 0 := rfl
  rw [← UInt16.toNat_inj, accepted_interval hv h, ← UInt8.toNat_inj, Vrrphdr.interval, ← hlow, hz]
  omega

/-- An advertisement changes `master_adv_int` to the interval decoded from it. -/
theorem Handled.masterAdvInt {host : ByteOrder} {now : Option Timespec} {d d' : Daemon}
    {event : VrrpEvent} {out : List Output} (h : Handled host now d event d' out) :
    d'.vrrp.masterAdvInt = d.vrrp.masterAdvInt ∨
      event = .pkt ∧ d.vrrp.version = .rfc5798 ∧ vrrpAdvGetPriority d.vnet ≠ 0 ∧
      (d.vrrp.state = .backup ∧ Follows d ∨ d.vrrp.state = .master ∧ Beaten d) ∧
      d'.vrrp.masterAdvInt = vrrpAdvGetAdvint host d.vnet := by
  cases h with
  | follow hs hp hf =>
    by_cases hv : d.vrrp.version = .rfc5798
    · refine .inr ⟨rfl, hv, hp, .inl ⟨hs, hf⟩, ?_⟩
      simp [Daemon.learnt, hv, arm, Vrrp.setTimer]
    · left
      simp [Daemon.learnt, hv, arm, Vrrp.setTimer]
  | yield hs hp hb =>
    cases hv : d.vrrp.version with
    | rfc3768 =>
      left
      simp [vrrpStateGotoBackup, gotoBackupAdvInt, hv, arm, Vrrp.setTimer]
    | rfc5798 =>
      refine .inr ⟨rfl, rfl, hp, .inr ⟨hs, hb⟩, ?_⟩
      simp [vrrpStateGotoBackup, gotoBackupAdvInt, hv, hs, arm, Vrrp.setTimer]
  | _ => exact .inl rfl

theorem Heard.masterAdvInt {host : ByteOrder} {inp : Input} {d d' : Daemon} {event : VrrpEvent}
    (h : Heard host inp d event d') : d'.vrrp.masterAdvInt = d.vrrp.masterAdvInt := by
  cases h with
  | timer => rfl
  | signal => rfl
  | idle => rfl
  | datagram => rfl
  | command a m hp hc => cases vrrpCtrlRead_cases hc <;> rfl

private theorem changed_advint {host : ByteOrder} {inp : Input} {d d₁ d' : Daemon}
    {out : List Output} (hl : vrrpListen host inp d = .ok (.pkt, d₁))
    (hs : d.vrrp.state = .backup ∨ d.vrrp.state = .master) (h : processStep host inp d = .ok (d', out))
    (hne : d'.vrrp.masterAdvInt ≠ d.vrrp.masterAdvInt) :
    d.vrrp.version = .rfc5798 ∧
      (d'.vrrp.masterAdvInt = d.vrrp.advInt ↔ d₁.vnet.pkt.adv.authType = 0) := by
  obtain ⟨d₂, rfl, hh⟩ := processStep_listened h hs hl
  have hheard := vrrpListen_cases hl
  rcases hh.masterAdvInt with hsame | ⟨-, hv, -, -, hm⟩
  · exact absurd (hsame.trans hheard.masterAdvInt) hne
  · obtain ⟨a, m, -, -, hr⟩ := hheard.of_pkt rfl
    rw [(SameFixed.heard hheard).version] at hv
    rw [Daemon.dumped_vrrp, hm]
    exact ⟨hv, accepted_advint hv hr⟩

/-- When the interval check agrees with the decoding of the interval: unless a
version 3 header has a non-zero high octet and either octet reading gives the local
interval. Two version 3 routers of one interval accept each other when the interval
fits in one octet; and an accepted advertisement changes `master_adv_int` in version
3 only, and there to the local interval when its high octet is zero. -/
theorem advint_check_agrees_iff (host : ByteOrder) (vrrp : Vrrp) (hdr : Vrrphdr)
    (hv : hdr.versionType >>> 4 = vrrp.version.code) :
    ((checkAdvInt vrrp hdr = true ↔ hdr.getAdvint host = vrrp.advInt.toNat) ↔ ¬ Misread vrrp hdr) ∧
    (∀ vnet sender, sender.version = .rfc5798 → vrrp.version = .rfc5798 →
      sender.advInt = vrrp.advInt →
      (checkAdvInt vrrp (advHdr vnet sender) = true ↔ vrrp.advInt.toNat ≤ 255)) ∧
    (∀ inp d d₁ d' out, d.vrrp = vrrp → (d.vrrp.state = .backup ∨ d.vrrp.state = .master) →
      vrrpListen host inp d = .ok (.pkt, d₁) → processStep host inp d = .ok (d', out) →
      d'.vrrp.masterAdvInt ≠ d.vrrp.masterAdvInt → vrrp.version = .rfc5798 ∧
        (d'.vrrp.masterAdvInt = vrrp.advInt ↔ d₁.vnet.pkt.adv.authType = 0)) := by
  refine ⟨checkAdvInt_iff host hv, ?_, ?_⟩
  · intro vnet sender _ _ ha
    exact checkAdvInt_own vnet ha
  · rintro inp d d₁ d' out rfl hs hl hstep hne
    exact changed_advint hl hs hstep hne

def slow : Vrrp := { lab.vrrp ⟨[], []⟩ with version := .rfc5798, advInt := 300 }

def slowHdr : Vrrphdr := advHdr (lab.vnet ⟨none, none, none⟩) slow

theorem advint_check_agrees_brisk :
    ¬ Misread { slow with advInt := 100 } (advHdr (lab.vnet ⟨none, none, none⟩) { slow with advInt := 100 }) ∧
    (checkAdvInt { slow with advInt := 100 }
        (advHdr (lab.vnet ⟨none, none, none⟩) { slow with advInt := 100 }) = true ↔
      (advHdr (lab.vnet ⟨none, none, none⟩) { slow with advInt := 100 }).getAdvint .little = 100) := by
  have hm : ¬ Misread { slow with advInt := 100 }
      (advHdr (lab.vnet ⟨none, none, none⟩) { slow with advInt := 100 }) :=
    fun h => h.2.1 rfl
  exact ⟨hm, (advint_check_agrees_iff .little _ _ (by decide)).1.mpr hm⟩

/-- Its own header carries its own interval and fails the check; a header of 257
centiseconds passes the check of a router at 1 centisecond. -/
theorem advint_check_disagrees :
    ¬ ∀ (host : ByteOrder) (vrrp : Vrrp) (hdr : Vrrphdr),
      hdr.versionType >>> 4 = vrrp.version.code → 1 ≤ vrrp.advInt.toNat →
      vrrp.advInt.toNat ≤ ADVINT_MAX →
      (checkAdvInt vrrp hdr = true ↔ hdr.getAdvint host = vrrp.advInt.toNat) := by
  intro h
  have hslow := h .little slow slowHdr (by decide) (by decide) (by decide)
  exact absurd (hslow.mpr (by decide)) (by decide)

def armings (id : TimerId) (out : List Output) : List (Int × Int) :=
  out.filterMap (fun | .armed t a b => if t = id then some (a, b) else none | _ => none)

@[simp] theorem armings_nil (id : TimerId) : armings id [] = [] := rfl

@[simp] theorem armings_append (id : TimerId) (xs ys : List Output) :
    armings id (xs ++ ys) = armings id xs ++ armings id ys := List.filterMap_append

@[simp] theorem armings_topologySend (id : TimerId) (vnet : VrrpNet) :
    armings id (topologySend vnet) = [] := by
  simp [armings, topologySend]

@[simp] theorem armings_adv_cons (id : TimerId) (frame : Frame) (out : List Output) :
    armings id (.adv frame :: out) = armings id out := rfl

@[simp] theorem armings_exec_cons (id : TimerId) (state : VrrpState) (out : List Output) :
    armings id (.exec state :: out) = armings id out := rfl

@[simp] theorem armings_armed (id t : TimerId) (now : Option Timespec) (p : Int × Int) :
    armings id (armed now t p) = if t = id ∧ now ≠ none then [p] else [] := by
  cases now with
  | none => simp [armed]
  | some now => by_cases h : t = id <;> simp [armed, armings, h]

def announcedDelays (version : VrrpVersion) (frame : Frame) : Option (Int × Int) :=
  match frame.data with
  | none => none
  | some pkt =>
    match pkt[4]?, pkt[5]? with
    | some a, some b => match version with
      | .rfc3768 => some ((b.toNat : Int), 0)
      | .rfc5798 => some (0, ((256 * a.toNat + b.toNat : Nat) : Int))
    | _, _ => none

def configuredDelays (v : Vrrp) : Int × Int := delays v v.advInt.toNat v.advInt.toNat

/-- What the buffer announces is the configured interval, cut to one octet in version 2. -/
theorem Coherent.announced {contents : Nat → UInt8} {d : Daemon} (h : Coherent contents d)
    (hshort : d.vrrp.version = .rfc3768 → d.vrrp.advInt.toNat ≤ 255) :
    announcedDelays d.vrrp.version d.vnet.adv = some (configuredDelays d.vrrp) := by
  have hlt := d.vrrp.advInt.toNat_lt
  obtain ⟨pkt, hpkt⟩ : ∃ pkt, advPayload d.vnet d.vrrp (authTail contents d.vnet d.vrrp) = pkt :=
    ⟨_, rfl⟩
  have h₄ : pkt[4]? = some (advHdr d.vnet d.vrrp).authType := by rw [← hpkt]; rfl
  have h₅ : pkt[5]? = some (advHdr d.vnet d.vrrp).advInt := by rw [← hpkt]; rfl
  simp only [announcedDelays, h.data, hpkt, h₄, h₅, configuredDelays, delays]
  cases hv : d.vrrp.version with
  | rfc3768 =>
    have hle := hshort hv
    have ho : (advHdr d.vnet d.vrrp).advInt.toNat = d.vrrp.advInt.toNat := by
      simp only [advHdr, UInt8.toNat_ofNat']
      omega
    simp [ho]
  | rfc5798 =>
    have ho : 256 * (advHdr d.vnet d.vrrp).authType.toNat + (advHdr d.vnet d.vrrp).advInt.toNat =
        d.vrrp.advInt.toNat := by
      simp only [advHdr, hv, UInt8.toNat_ofNat']
      omega
    simp [ho]

/-- In version 3, `master_adv_int` is the configured interval once the daemon is
past its initial state. -/
def Steady (d : Daemon) : Prop :=
  d.vrrp.version = .rfc5798 → d.vrrp.state ≠ .init → d.vrrp.masterAdvInt = d.vrrp.advInt

/-- What the step learns from an advertisement has a zero high octet. -/
def LearnsShort (host : ByteOrder) (inp : Input) (d : Daemon) : Prop :=
  ∀ d₁, vrrpListen host inp d = .ok (.pkt, d₁) → vrrpAdvGetPriority d₁.vnet ≠ 0 →
    d₁.vrrp.state = .backup ∧ Follows d₁ ∨ d₁.vrrp.state = .master ∧ Beaten d₁ →
    d₁.vnet.pkt.adv.authType = 0

theorem Steady.heard {host : ByteOrder} {inp : Input} {d d' : Daemon} {event : VrrpEvent}
    (h : Steady d) (hh : Heard host inp d event d') : Steady d' := by
  have hf := SameFixed.heard hh
  intro hv hs
  rw [hh.masterAdvInt, h (hf.version.symm.trans hv) (hh.state ▸ hs), hf.advInt]

theorem Steady.step {host : ByteOrder} {inp : Input} {d d' : Daemon} {out : List Output}
    (h : Steady d) (hs : processStep host inp d = .ok (d', out))
    (hlearn : d.vrrp.version = .rfc5798 → LearnsShort host inp d) : Steady d' := by
  cases processStep_cases hs with
  | startMaster => exact fun _ _ => rfl
  | startBackup hst =>
    intro hv _
    have hv' : d.vrrp.version = .rfc5798 := hv
    simp [vrrpStateGotoBackup, gotoBackupAdvInt, arm, Vrrp.setTimer, Daemon.primed, Daemon.dumped, hv', hst]
  | @serve hst event d₁ d₂ out hl hh =>
    have hheard := vrrpListen_cases hl
    have hf := SameFixed.handled hh
    intro hv hs₂
    have hv₁ : d₁.vrrp.version = .rfc5798 := hf.version.symm.trans hv
    have hv₀ : d.vrrp.version = .rfc5798 := (SameFixed.heard hheard).version.symm.trans hv₁
    rw [Daemon.dumped_vrrp, hf.advInt]
    rcases hh.masterAdvInt with hsame | ⟨rfl, -, hp, hwhen, hm⟩
    · have hs₁ : d₁.vrrp.state ≠ .init := by
        rw [hheard.state]
        rcases hst with hst | hst <;> simp [hst]
      rw [hsame]
      exact h.heard hheard hv₁ hs₁
    · obtain ⟨a, m, hvrrp, -, hr⟩ := hheard.of_pkt rfl
      rw [hm, (accepted_advint hv₀ hr).mpr (hlearn hv₀ d₁ hl hp hwhen), hvrrp]
      rfl
  | stuck => exact h

theorem Steady.advDelays {d : Daemon} (h : Steady d) (hs : d.vrrp.state ≠ .init) :
    advDelays d.vrrp = configuredDelays d.vrrp := by
  unfold Uvrrpd.advDelays configuredDelays delays
  split
  · next hv => rw [h hv hs]
  · rfl

private theorem armings_gotoMaster (now : Option Timespec) {d : Daemon} {p : Int × Int}
    (hp : p ∈ armings .adv (vrrpStateGotoMaster now d).2) : p = advDelays d.vrrp := by
  simp only [vrrpStateGotoMaster, armings_append, armings_topologySend, armings_adv_cons,
    armings_exec_cons, armings_nil, armings_armed, List.append_nil, List.nil_append] at hp
  split at hp
  · exact List.mem_singleton.mp hp
  · simp at hp

private theorem armings_advertise (now : Option Timespec) {d : Daemon} {p : Int × Int}
    (hp : p ∈ armings .adv (advertise now d).2) : p = advDelays d.vrrp := by
  simp only [advertise, armings_adv_cons, armings_armed] at hp
  split at hp
  · exact List.mem_singleton.mp hp
  · simp at hp

/-- The advertisement timer is only armed with the configured interval. -/
private theorem armings_step {host : ByteOrder} {inp : Input} {d d' : Daemon} {out : List Output}
    (h : Steady d) (hs : processStep host inp d = .ok (d', out)) {p : Int × Int}
    (hp : p ∈ armings .adv out) : p = configuredDelays d.vrrp := by
  cases processStep_cases hs with
  | startMaster =>
    rw [armings_exec_cons] at hp
    rw [armings_gotoMaster _ hp]
    rfl
  | startBackup hst => simp [vrrpStateGotoBackup, Daemon.primed, hst] at hp
  | @serve hst event d₁ d₂ out hl hh =>
    have hheard := vrrpListen_cases hl
    have h₁ := h.heard hheard
    have hs₁ : d₁.vrrp.state ≠ .init := by
      rw [hheard.state]
      rcases hst with hst | hst <;> simp [hst]
    have hcd : configuredDelays d₁.vrrp = configuredDelays d.vrrp := by
      have hf := SameFixed.heard hheard
      simp only [configuredDelays, delays, hf.version, hf.advInt]
    cases hh with
    | takeover => rw [armings_gotoMaster _ hp, h₁.advDelays hs₁, hcd]
    | tick => rw [armings_advertise _ hp, h₁.advDelays hs₁, hcd]
    | answer => rw [armings_advertise _ hp, h₁.advDelays hs₁, hcd]
    | yield hst₁ => simp [vrrpStateGotoBackup, hst₁] at hp
    | _ => simp at hp
  | stuck => simp at hp

/-- A step that reaches MASTER arms the timer, when the clock can be read. -/
private theorem armings_takeover {host : ByteOrder} {inp : Input} {d d' : Daemon} {out : List Output}
    (hs : processStep host inp d = .ok (d', out)) (hclock : inp.clockSet ≠ none)
    (hpre : d.vrrp.state ≠ .master) (hpost : d'.vrrp.state = .master) : armings .adv out ≠ [] := by
  cases processStep_cases hs with
  | startMaster => simp [vrrpStateGotoMaster, hclock]
  | startBackup => cases hpost
  | @serve hst event d₁ d₂ out hl hh =>
    have hst₁ := (vrrpListen_cases hl).state
    cases hh with
    | takeover => simp [vrrpStateGotoMaster, hclock]
    | tick hm => exact absurd (hst₁.symm.trans hm) hpre
    | answer hm => exact absurd (hst₁.symm.trans hm) hpre
    | ignore => exact absurd (hst₁.symm.trans hpost) hpre
    | shorten hb => exact absurd (hb.symm.trans hpost) (by decide)
    | follow hb => exact absurd (hb.symm.trans ((d₁.learnt_state host).symm.trans hpost)) (by decide)
    | restart => cases hpost
    | yield => cases hpost
    | resign => cases hpost
  | stuck => exact absurd hpost hpre

section Runs
variable {host : ByteOrder} {s t : Daemon} {h : List (Entry Daemon Input Output)}

theorem Steady.run (run : Run (processStep host) s h t) (hs : s.vrrp.state = .init)
    (hlearn : s.vrrp.version = .rfc5798 → ∀ e ∈ h, LearnsShort host e.input e.pre) :
    Steady t ∧ ∀ p ∈ armings .adv (outputs h), p = configuredDelays s.vrrp := by
  induction run with
  | nil => exact ⟨fun _ hne => absurd hs hne, by simp⟩
  | @snoc h t u inp out prev hstep ih =>
    obtain ⟨hst, hall⟩ := ih (fun hv e he => hlearn hv e (List.mem_append_left _ he))
    have hf := SameFixed.run prev
    refine ⟨hst.step hstep (fun hv => ?_), ?_⟩
    · exact hlearn (hf.version.symm.trans hv) ⟨t, inp, out, u⟩ (by simp)
    · intro p hp
      rw [outputs_snoc, armings_append, List.mem_append] at hp
      rcases hp with hp | hp
      · exact hall p hp
      · rw [armings_step hst hstep hp]
        simp only [configuredDelays, delays, hf.version, hf.advInt]

private theorem armings_of_master (run : Run (processStep host) s h t) (hs : s.vrrp.state = .init)
    (hclock : ∀ e ∈ h, e.input.clockSet ≠ none) (hm : t.vrrp.state = .master) :
    armings .adv (outputs h) ≠ [] := by
  induction run with
  | nil => exact absurd (hs.symm.trans hm) (by decide)
  | @snoc h t u inp out prev hstep ih =>
    rw [outputs_snoc, armings_append]
    by_cases ht : t.vrrp.state = .master
    · have hprev := ih (fun e he => hclock e (List.mem_append_left _ he)) ht
      simp [hprev]
    · have hlast := armings_takeover hstep (hclock ⟨t, inp, out, u⟩ (by simp)) ht hm
      simp [hlast]

end Runs

/-- A master sends at the interval it announces, as long as the interval fits into
the octet of version 2, and in version 3 as long as no step learns an advertisement
whose interval has a non-zero high octet. -/
theorem master_keeps_announced_interval {host : ByteOrder} {c : Config} {fresh : Fresh}
    {h : List (Entry Daemon Input Output)} {d : Daemon} (run : History host c fresh h d)
    (hshort : c.version = .rfc3768 → c.advInt.toNat ≤ 255)
    (hlearn : c.version = .rfc5798 → ∀ e ∈ h, LearnsShort host e.input e.pre)
    (hm : d.vrrp.state = .master) :
    (∀ p, (armings .adv (outputs h)).getLast? = some p →
      announcedDelays d.vrrp.version d.vnet.adv = some p) ∧
    ((∀ e ∈ h, e.input.clockSet ≠ none) → (armings .adv (outputs h)).getLast? ≠ none) := by
  obtain ⟨contents, -, hco⟩ := run.coherent
  have hcfg := run.configured
  obtain ⟨start, hboot, hrun⟩ := run
  have hstart := (boot_spec hboot).configured
  have hinit : start.vrrp.state = .init := by
    rw [(boot_spec hboot).vrrp]
    rfl
  refine ⟨?_, ?_⟩
  · intro p hp
    have hmem := List.mem_of_getLast? hp
    obtain ⟨-, hall⟩ := Steady.run hrun hinit (by rw [hstart.version]; exact hlearn)
    rw [hco.announced (by rw [hcfg.version, hcfg.advInt]; exact hshort), hall p hmem]
    simp only [configuredDelays, delays, hcfg.version, hcfg.advInt, hstart.version, hstart.advInt]
  · intro hclock
    rw [ne_eq, List.getLast?_eq_none_iff]
    exact armings_of_master hrun hinit hclock hm

theorem master_keeps_announced_interval_lab :
    (armings .adv (outputs (lab.runOn [.quiet ⟨1, 0⟩, .quiet ⟨9, 0⟩]).1)).getLast? = some (1, 0) ∧
    announcedDelays .rfc3768 (lab.runOn [.quiet ⟨1, 0⟩, .quiet ⟨9, 0⟩]).2.vnet.adv = some (1, 0) := by
  have hlast : (armings .adv (outputs (lab.runOn [.quiet ⟨1, 0⟩, .quiet ⟨9, 0⟩]).1)).getLast? =
      some (1, 0) := by decide +kernel
  have run : History .little lab (.filled 0) _ _ :=
    history_runOn (.inl rfl) [.quiet ⟨1, 0⟩, .quiet ⟨9, 0⟩]
  have hm := master_keeps_announced_interval run (by decide) (fun hv => by cases hv)
    (by decide +kernel)
  exact ⟨hlast, hm.1 _ hlast⟩

def lazyLab : Config := { lab with advInt := 300, advInt_pos := by decide, advInt_le := by decide }

/-- It waits 300 seconds and announces 44. -/
theorem master_breaks_announced_interval : ∃ h d, History .little lazyLab (.filled 0) h d ∧
    d.vrrp.state = .master ∧ (armings .adv (outputs h)).getLast? = some (300, 0) ∧
    announcedDelays d.vrrp.version d.vnet.adv = some (44, 0) :=
  ⟨_, _, history_runOn (.inl rfl) [.quiet ⟨1, 0⟩, .quiet ⟨2000, 0⟩], by decide +kernel,
    by decide +kernel, by decide +kernel⟩

end Uvrrpd
