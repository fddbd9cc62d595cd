import Uvrrpd.TopologyFrames
import Uvrrpd.Process

/-! What the two loops over the VIPs report. Each turn overwrites the status of the
turns in front of it, so only the last one is heard of. -/
namespace Uvrrpd
open Library.Memory (bind_eq_ok)

section
variable {host : ByteOrder} {vnet : VrrpNet} {mem : Nat → NaAnswers}

private theorem topologyLoop_map {α β : Type} (build : β → VrrpIp → Except Fault (Bool × Frame)) (f : α → β)
    (mem : Nat → α)
    (k : Nat) (status : Bool) (vips : List VrrpIp) :
    topologyLoop build (fun k => f (mem k)) k status vips =
      topologyLoop (fun a => build (f a)) mem k status vips := by
  induction vips generalizing k status with
  | nil => rfl
  | cons vip rest ih => simp only [topologyLoop, ih]

/-- Both branches are one loop. -/
private theorem topologyInit_eq (host : ByteOrder) (mem : Nat → NaAnswers) (vnet : VrrpNet) :
    topologyInit host mem vnet = (do
      let (status, vips) ← topologyLoop (topologyTurn host vnet) mem 0 false vnet.vipList.reverse
      return (status, { vnet with vipList := vips.reverse })) := by
  rw [topologyInit]
  cases hf : vnet.family with
  | inet =>
    have hturn : topologyTurn host vnet = fun a => vrrpArpVip host vnet a.toMallocs := by
      funext a vip
      rw [topologyTurn, hf]
    simp only [vrrpArpInit, topologyLoop_map, hturn, hf]
  | inet6 =>
    have hturn : topologyTurn host vnet = vrrpNaVip host vnet := by
      funext a vip
      rw [topologyTurn, hf]
    simp only [vrrpNaInit, hturn, hf]

def Turned (host : ByteOrder) (vnet : VrrpNet) (mem : Nat → NaAnswers) (k : Nat) (vips vips' : List VrrpIp) : Prop :=
  ∀ i vip, vips[i]? = some vip → ∃ frame, topologyTurn host vnet (mem (k + i)) vip =
    .ok ((mem (k + i)).suffice vnet.family, frame) ∧ vips'[i]? = some { vip with topology := frame }

/-- The loop comes to its end when no turn crashes. -/
private theorem topologyLoop_returns_iff (k : Nat) (status : Bool) (vips : List VrrpIp) :
    (∃ r, topologyLoop (topologyTurn host vnet) mem k status vips = .ok r) ↔
      ∀ i < vips.length, (mem (k + i)).crash vnet.family = false := by
  induction vips generalizing k status with
  | nil => simp [topologyLoop]
  | cons vip rest ih =>
    have hturns := forall_turns_succ (fun i => (mem i).crash vnet.family = false) k rest.length
    rw [List.length_cons, hturns]
    obtain ⟨hcrash, hok⟩ := topologyTurn_spec host vnet (mem k) vip
    cases hc : (mem k).crash vnet.family with
    | true =>
      simp [topologyLoop, hcrash hc, bind, Except.bind]
    | false =>
      obtain ⟨frame, hturn, -⟩ := hok hc
      rw [← ih (k + 1) ((mem k).suffice vnet.family)]
      simp only [topologyLoop, hturn, ok_bind, true_and]
      cases topologyLoop (topologyTurn host vnet) mem (k + 1) ((mem k).suffice vnet.family) rest <;>
        simp [bind, Except.bind, pure, Except.pure]

/-- Its status is that of the last turn. -/
private theorem topologyLoop_status {k : Nat} {status status' : Bool} {vips vips' : List VrrpIp}
    (h : topologyLoop (topologyTurn host vnet) mem k status vips = .ok (status', vips')) :
    status' = (if vips = [] then status else (mem (k + (vips.length - 1))).suffice vnet.family) ∧
      Turned host vnet mem k vips vips' := by
  induction vips generalizing k status status' vips' with
  | nil =>
    obtain ⟨rfl, rfl⟩ := Prod.mk.inj (Except.ok.inj h)
    exact ⟨rfl, fun i vip hi => by simp at hi⟩
  | cons vip rest ih =>
    obtain ⟨⟨ok, topology⟩, hturn, h⟩ := bind_eq_ok.mp h
    obtain ⟨⟨status'', rest'⟩, hrest, h⟩ := bind_eq_ok.mp h
    obtain ⟨rfl, rfl⟩ := Prod.mk.inj (Except.ok.inj h)
    obtain ⟨hcrash, hspec⟩ := topologyTurn_spec host vnet (mem k) vip
    have hc : (mem k).crash vnet.family = false := by
      cases hc : (mem k).crash vnet.family with
      | false => rfl
      | true =>
        rw [hcrash hc] at hturn
        cases hturn
    obtain ⟨frame, hturn', -⟩ := hspec hc
    obtain ⟨rfl, rfl⟩ := Prod.mk.inj (Except.ok.inj (hturn.symm.trans hturn'))
    obtain ⟨hstatus, hturned⟩ := ih hrest
    constructor
    · rw [hstatus, if_neg (List.cons_ne_nil _ _), List.length_cons, Nat.add_sub_cancel]
      split
      · next hnil => rw [hnil]; rfl
      · next hcons =>
        have hpos := List.length_pos_iff.mpr hcons
        congr 2
        omega
    · intro i vip' hi
      cases i with
      | zero =>
        obtain rfl := Option.some.inj hi
        exact ⟨topology, hturn', rfl⟩
      | succ i =>
        obtain ⟨frame, ht, hv⟩ := hturned i vip' hi
        rw [Nat.add_assoc, Nat.add_comm 1] at ht
        exact ⟨frame, ht, hv⟩

end

/-- Every VIP is sent with a frame whose three buffers were built without an error. -/
def AllBuilt (host : ByteOrder) (mem : Nat → NaAnswers) (vnet vnet' : VrrpNet) : Prop :=
  ∀ i vip, vnet.vipList.reverse[i]? = some vip → ∃ frame,
    topologyTurn host vnet (mem i) vip = .ok (true, frame) ∧ (topologySend vnet')[i]? = some (.topology frame)

/-- 0 is returned only when everything was built. -/
def FailuresReported (host : ByteOrder) (mem : Nat → NaAnswers) (vnet : VrrpNet) : Prop :=
  ∀ vnet', topologyInit host mem vnet = .ok (true, vnet') → AllBuilt host mem vnet vnet'

section
variable {host : ByteOrder} {mem : Nat → NaAnswers} {vnet : VrrpNet}

private theorem topologyInit_returns_iff :
    (∃ r, topologyInit host mem vnet = .ok r) ↔ ∀ i < vnet.vipList.length, (mem i).crash vnet.family = false := by
  have hloop := @topologyLoop_returns_iff host vnet mem 0 false vnet.vipList.reverse
  simp only [Nat.zero_add, List.length_reverse] at hloop
  rw [topologyInit_eq, ← hloop]
  cases topologyLoop (topologyTurn host vnet) mem 0 false vnet.vipList.reverse <;>
    simp [bind, Except.bind, pure, Except.pure]

/-- The status is that of the VIP handled last, the first of the list. -/
theorem topologyInit_status {status : Bool} {vnet' : VrrpNet} (h : topologyInit host mem vnet = .ok (status, vnet')) :
    (status = true ↔ vnet.vipList ≠ [] ∧ (mem (vnet.vipList.length - 1)).suffice vnet.family = true) ∧
    ∀ i vip, vnet.vipList.reverse[i]? = some vip → ∃ frame,
      topologyTurn host vnet (mem i) vip = .ok ((mem i).suffice vnet.family, frame) ∧
      (topologySend vnet')[i]? = some (.topology frame) := by
  rw [topologyInit_eq] at h
  obtain ⟨⟨status', vips⟩, hloop, h⟩ := bind_eq_ok.mp h
  obtain ⟨rfl, rfl⟩ := Prod.mk.inj (Except.ok.inj h)
  obtain ⟨hstatus, hturned⟩ := topologyLoop_status hloop
  constructor
  · rw [hstatus, Nat.zero_add, List.length_reverse]
    by_cases hnil : vnet.vipList = [] <;> simp [hnil]
  · intro i vip hi
    obtain ⟨frame, hturn, hvip⟩ := hturned i vip hi
    rw [Nat.zero_add] at hturn
    exact ⟨frame, hturn, by simp [topologySend, hvip]⟩

/-- Failures are reported exactly when the last VIP fails if any does, or a crash comes first. -/
theorem build_failures_reported_iff :
    FailuresReported host mem vnet ↔
      (∀ i < vnet.vipList.length, (mem i).suffice vnet.family = true) ∨
      (mem (vnet.vipList.length - 1)).suffice vnet.family = false ∨
      ∃ i < vnet.vipList.length, (mem i).crash vnet.family = true := by
  constructor
  · intro h
    by_cases hcrash : ∃ i < vnet.vipList.length, (mem i).crash vnet.family = true
    · exact .inr (.inr hcrash)
    · obtain ⟨⟨status, vnet'⟩, hinit⟩ := topologyInit_returns_iff.mpr
        (fun i hi => Bool.eq_false_iff.mpr (fun hc => hcrash ⟨i, hi, hc⟩))
      obtain ⟨hstatus, hturns⟩ := topologyInit_status hinit
      cases hlast : (mem (vnet.vipList.length - 1)).suffice vnet.family with
      | false => exact .inr (.inl rfl)
      | true =>
        refine .inl (fun i hi => ?_)
        obtain rfl : status = true := hstatus.mpr ⟨List.length_pos_iff.mp (Nat.zero_lt_of_lt hi), hlast⟩
        have hvip := List.getElem?_eq_getElem (l := vnet.vipList.reverse) (by simpa using hi)
        obtain ⟨frame, hturn, -⟩ := h vnet' hinit i _ hvip
        obtain ⟨frame', hturn', -⟩ := hturns i _ hvip
        rw [hturn] at hturn'
        exact (Prod.mk.inj (Except.ok.inj hturn')).1.symm
  · intro h vnet' hinit
    obtain ⟨hstatus, hturns⟩ := topologyInit_status hinit
    obtain ⟨-, hlast⟩ := hstatus.mp rfl
    have hcrash := topologyInit_returns_iff.mp ⟨_, hinit⟩
    have hall : ∀ i < vnet.vipList.length, (mem i).suffice vnet.family = true := by
      rcases h with hall | hfail | ⟨i, hi, hc⟩
      · exact hall
      · rw [hlast] at hfail
        cases hfail
      · rw [hcrash i hi] at hc
        cases hc
    intro i vip hi
    obtain ⟨frame, hturn, hsent⟩ := hturns i vip hi
    obtain ⟨hlt, -⟩ := List.getElem?_eq_some_iff.mp hi
    rw [hall i (by simpa using hlt)] at hturn
    exact ⟨frame, hturn, hsent⟩

end

def labTwo : VrrpNet := { vrrpNetInit ⟨none, none, none⟩ with
  vrid := 7
  vipList := [⟨.zero, 0, ⟨none, none, none⟩⟩, ⟨.zero, 0, ⟨none, none, none⟩⟩]
  naddr := 2 }

def labShort : Nat → NaAnswers := fun k =>
  ⟨⟨if k = 0 then none else some (fun _ => 0), some (fun _ => 0), some (fun _ => 0)⟩, none⟩

/-- 0 is returned, and a frame without its Ethernet header is sent. -/
theorem build_failure_lost :
    ¬ FailuresReported .little labShort labTwo ∧
      ∃ vnet', topologyInit .little labShort labTwo = .ok (true, vnet') ∧
        ∃ frame, .topology frame ∈ topologySend vnet' ∧ frame.eth = none := by
  obtain ⟨vnet', h, frame, hmem, heth⟩ : ∃ vnet', topologyInit .little labShort labTwo = .ok (true, vnet') ∧
      ∃ frame, .topology frame ∈ topologySend vnet' ∧ frame.eth = none := ⟨_, rfl, _, List.mem_cons_self, rfl⟩
  refine ⟨fun hall => ?_, vnet', h, frame, hmem, heth⟩
  obtain ⟨built, hturn, -⟩ := hall vnet' h 0 _ rfl
  cases hturn

end Uvrrpd
