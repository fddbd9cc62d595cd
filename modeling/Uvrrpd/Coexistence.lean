import Uvrrpd.Interoperation
import Uvrrpd.Isolation
import Uvrrpd.Lan
import Uvrrpd.Safety

/-! Several virtual routers on one network. The routers of one of them behave as they
would without the others, whatever these send. -/
namespace Uvrrpd
open Library.Memory (bind_eq_ok)
open Library.Runs

variable {ι : Type}

/-- Routers of one address family, and those outside `S` are of another version or
VRID than those inside. -/
structure Apart (lan : ι → Member) (S : ι → Prop) : Prop where
  family : ∀ i j, (lan i).config.family = (lan j).config.family
  ids : ∀ i j, S i → ¬ S j →
    (lan i).config.version ≠ (lan j).config.version ∨ (lan i).config.vrid ≠ (lan j).config.vrid

def Overhears (lan : ι → Member) (S : ι → Prop) (e : LanEntry ι) : Prop :=
  ((before e).vrrp.state = .backup ∨ (before e).vrrp.state = .master) ∧
    readsSocket e.input.2 (before e) = true ∧ ∃ m, ¬ S m.sender ∧ InFlight lan e m

open Classical in
/-- The step is none of the virtual router: another's, or a message of another's. -/
noncomputable def beside (lan : ι → Member) (S : ι → Prop) (e : LanEntry ι) : Bool :=
  decide (¬ S e.input.1 ∨ Overhears lan S e)

private theorem Overhears.beside {lan : ι → Member} {S : ι → Prop} {e : LanEntry ι} (h : Overhears lan S e) :
    beside lan S e = true := by
  classical
  exact decide_eq_true (.inr h)

/-- What the step reads comes from the kernel, and a step of the virtual router does not
read beyond its end. -/
structure ReadsWithin (lan : ι → Member) (S : ι → Prop) (e : LanEntry ι) : Prop where
  kernel : ∀ datagram, e.input.2.sock = some datagram →
    FromKernel (lan e.input.1).config.family datagram.octets
  within : beside lan S e = false → ¬ ReadsBeyond ⟨before e, e.input.2, e.output, after e⟩

/-- The same router moves, whatever its receive buffer holds. -/
def SameMove (act act' : ι × Input) : Prop := act.1 = act'.1 ∧ SameButStack act.2 act'.2

open Classical in
/-- The routers of `S` are the same up to what no later step sees, and nothing else is
in flight than what they have sent. -/
def Projects (S : ι → Prop) (s t : Lan ι) : Prop :=
  (∀ i, S i → (t.daemons i).essence = (s.daemons i).essence) ∧
    t.sent = s.sent.filter (fun m => decide (S m.sender))

section Step
variable {lan : ι → Member} {S : ι → Prop} {e : LanEntry ι}

/-- A message of another virtual router is refused. -/
theorem Overhears.refused (ha : Apart lan S) (hc : Consistent lan e.pre) (hS : S e.input.1)
    (h : Overhears lan S e) {event : VrrpEvent} {d : Daemon}
    (hl : vrrpListen (lan e.input.1).host e.input.2 (before e) = .ok (event, d)) :
    event = .invalid ∨ event = .vridMismatch := by
  obtain ⟨-, hreads, m, hm, hsent, datagram, hsock, hdel⟩ := h
  obtain ⟨a, t, heq⟩ := vrrpListen_of_readsSocket (lan e.input.1).host hreads
  rw [hl, hsock] at heq
  obtain ⟨⟨verdict, vnet, buf⟩, hbuf, hrest⟩ := bind_eq_ok.mp heq.symm
  obtain ⟨rfl, -⟩ : verdict = event ∧ _ = d := by simpa using hrest
  have hrecv := vrrpNetRecv_of_buf hbuf
  rcases (vrrpNetRecv_cases hrecv).2 with he | he | ⟨rfl, -⟩
  · exact .inl he
  · exact .inr he
  obtain ⟨contents, d₀, prio, hco, hcfg, hann, -⟩ := hc.authentic m hsent
  obtain ⟨k, run⟩ := hc.local_run e.input.1
  have hown := run.configured
  have hfam : (before e).vnet.family = d₀.vnet.family := by
    rw [hcfg.family, ha.family m.sender e.input.1]
    exact hown.family
  rw [← hcfg.family] at hdel
  obtain ⟨hversion, hvrid⟩ := hann.accepted_ids hco hdel hfam hrecv
  rw [hcfg.version] at hversion
  rw [hcfg.netVrid] at hvrid
  rcases ha.ids _ _ hS hm with hne | hne
  · exact absurd (hown.version.symm.trans hversion) hne
  · exact absurd (hown.vrid.symm.trans hvrid) hne

private theorem exists_listens (hst : (before e).vrrp.state = .backup ∨ (before e).vrrp.state = .master)
    {d : Daemon} {out : List Output}
    (hs : processStep (lan e.input.1).host e.input.2 (before e) = .ok (d, out)) :
    ∃ event d₁, Listens lan e event d₁ := by
  cases processStep_cases hs with
  | startMaster hi => rw [hi] at hst; simp at hst
  | startBackup hi => rw [hi] at hst; simp at hst
  | stuck hi => rw [hi] at hst; simp at hst
  | serve _ hl => exact ⟨_, _, hst, hl⟩

/-- So it leaves nothing behind. -/
theorem Overhears.stutter (ha : Apart lan S) (hc : Consistent lan e.pre) (hS : S e.input.1)
    (h : Overhears lan S e) {d : Daemon} {out : List Output}
    (hs : processStep (lan e.input.1).host e.input.2 (before e) = .ok (d, out)) :
    out = [] ∧ d.essence = (before e).essence := by
  obtain ⟨hst, hreads, -⟩ := id h
  obtain ⟨k, run⟩ := hc.local_run e.input.1
  obtain ⟨event, d₁, -, hl⟩ := exists_listens hst hs
  have hdiscarded : discarded d₁ event = true := by
    rcases h.refused ha hc hS hl with rfl | rfl
    · rfl
    · rfl
  have hidle : discards (lan e.input.1).host ⟨before e, e.input.2, out, d⟩ = true := by
    simp only [discards, hreads, hl, hdiscarded, Bool.and_true, Bool.or_eq_true, beq_iff_eq]
    exact hst
  exact discards_stutter run.undumped hs hidle

end Step

section Projection
variable [DecidableEq ι] {lan : ι → Member} {S : ι → Prop} {act : ι × Input} {t t' u : Lan ι} {out : List Output}

/-- A step beside the virtual router is not seen in it. -/
theorem Projects.stutter (ha : Apart lan S) (hc : Consistent lan t) (hp : Projects S t t')
    (hs : lanStep lan act t = .ok (u, out)) (hidle : beside lan S ⟨t, act, out, u⟩ = true) :
    Projects S u t' := by
  classical
  obtain ⟨d, hd, hdaemons, hsent⟩ := lanStep_ok hs
  obtain ⟨hess, hfilter⟩ := hp
  by_cases hS : S act.1
  · obtain ⟨rfl, hsame⟩ := ((of_decide_eq_true hidle).resolve_left (not_not.mpr hS)).stutter ha hc hS hd
    constructor
    · intro i hi
      rw [hdaemons]
      by_cases hne : i = act.1
      · subst hne
        rw [Function.update_self, hsame]
        exact hess _ hi
      · rw [Function.update_of_ne hne]
        exact hess i hi
    · rw [hfilter, hsent]
      simp
  · constructor
    · intro i hi
      have hne : i ≠ act.1 := fun h => hS (h ▸ hi)
      rw [hdaemons, Function.update_of_ne hne]
      exact hess i hi
    · have hnone : (advs out).filter ((fun m : Message ι => decide (S m.sender)) ∘ fun frame => ⟨act.1, frame⟩) =
          [] := List.filter_eq_nil_iff.mpr (fun _ _ h => hS (of_decide_eq_true h))
      rw [hfilter, hsent, List.filter_append, List.filter_map, hnone, List.map_nil, List.append_nil]

/-- Any other step is made in it as well. -/
theorem Projects.respects {act' : ι × Input} (hc : Consistent lan t) (hp : Projects S t t')
    (hsame : SameMove act' act) (hs : lanStep lan act t = .ok (u, out))
    (hcont : ReadsWithin lan S ⟨t, act, out, u⟩) (hkept : beside lan S ⟨t, act, out, u⟩ = false) :
    ∃ u', lanStep lan act' t' = .ok (u', out) ∧ Projects S u u' := by
  classical
  have hS : S act.1 := not_not.mp (not_or.mp (of_decide_eq_false hkept)).1
  obtain ⟨d, hd, hdaemons, hsent⟩ := lanStep_ok hs
  obtain ⟨hess, hfilter⟩ := hp
  obtain ⟨k, run⟩ := hc.local_run act.1
  obtain ⟨a, m, pkt, hveil⟩ := exists_veil (hess act.1 hS)
  obtain ⟨i, inp⟩ := act'
  obtain ⟨rfl : i = act.1, hinp : inp = _⟩ := hsame
  obtain ⟨d', hd', hess'⟩ := processStep_veil a m pkt
    (fun hst hreads => receivesAlike_of_within run hcont.kernel (hcont.within hkept) hst hreads
      (inp.stack (t'.daemons act.1).buf)) hd
  rw [← hveil, ← hinp] at hd'
  refine ⟨⟨Function.update t'.daemons act.1 d', t'.sent ++ (advs out).map (fun frame => ⟨act.1, frame⟩)⟩, ?_, ?_, ?_⟩
  · rw [lanStep, hd', ok_bind]
    rfl
  · intro i hi
    simp only [hdaemons]
    by_cases hne : i = act.1
    · subst hne
      rw [Function.update_self, Function.update_self]
      exact hess'
    · rw [Function.update_of_ne hne, Function.update_of_ne hne]
      exact hess i hi
  · have hall : (advs out).filter ((fun m : Message ι => decide (S m.sender)) ∘ fun frame => ⟨act.1, frame⟩) =
        advs out := List.filter_eq_self.mpr (fun _ _ => decide_eq_true hS)
    rw [hsent, List.filter_append, List.filter_map, hall, hfilter]

end Projection

section Alike
variable {lan : ι → Member} {S : ι → Prop} {e a : LanEntry ι}

/-- A router alike hears the same. -/
private theorem Listens.alike (hal : Alike SameMove (Projects S) a e) (hc : Consistent lan e.pre)
    {d₂ : Daemon} {out : List Output}
    (hs : processStep (lan e.input.1).host e.input.2 (before e) = .ok (d₂, out)) (hcont : ReadsWithin lan S e)
    (hkept : beside lan S e = false) {event : VrrpEvent} {d : Daemon} (h : Listens lan a event d) :
    ∃ d', Listens lan e event d' := by
  classical
  have hS : S e.input.1 := not_not.mp (not_or.mp (of_decide_eq_false hkept)).1
  obtain ⟨hst, hl⟩ := h
  obtain ⟨hmover, hinp⟩ := hal.input
  have hess : (before a).essence = (before e).essence := by
    rw [before, hmover]
    exact hal.pre.1 e.input.1 hS
  have hst' : (before e).vrrp.state = .backup ∨ (before e).vrrp.state = .master := by
    have hstate : (before a).vrrp.state = (before e).vrrp.state := congrArg (fun d => d.vrrp.state) hess
    rwa [← hstate]
  obtain ⟨event', d', hl'⟩ := exists_listens hst' hs
  obtain ⟨k, run : History _ _ _ k (before e)⟩ := hc.local_run e.input.1
  obtain ⟨b, m, pkt, hveil⟩ := exists_veil hess
  obtain ⟨b', m', pkt', buf', hl₂, -⟩ := vrrpListen_veil b m pkt (before a).buf a.input.2.stack
    (fun hreads => receivesAlike_of_within run hcont.kernel (hcont.within hkept) hst' hreads _) hl'.2
  rw [← hveil, ← hinp, ← hmover, hl] at hl₂
  obtain ⟨rfl, -⟩ := Prod.mk.inj (Except.ok.inj hl₂)
  exact ⟨d', hl'⟩

/-- What is kept is as genuine as before. -/
private theorem Genuine.alike (hal : Alike SameMove (Projects S) a e) (hg : Genuine lan e) (hc : Consistent lan e.pre)
    {d₂ : Daemon} {out : List Output}
    (hs : processStep (lan e.input.1).host e.input.2 (before e) = .ok (d₂, out)) (hcont : ReadsWithin lan S e)
    (hkept : beside lan S e = false) : Genuine lan a := by
  classical
  obtain ⟨hS, hnot⟩ := not_or.mp (of_decide_eq_false hkept)
  rw [not_not] at hS
  obtain ⟨hmover, hinp⟩ := hal.input
  refine ⟨?_, ?_⟩
  · have hpre : (before a).vrrp.priority = (before e).vrrp.priority := by
      rw [before, hmover]
      exact congrArg (fun d => d.vrrp.priority) (hal.pre.1 _ hS)
    have hpost : (after a).vrrp.priority = (after e).vrrp.priority := by
      rw [after, hmover]
      exact congrArg (fun d => d.vrrp.priority) (hal.post.1 _ hS)
    rw [hpre, hpost]
    exact hg.priority
  · intro d hl
    obtain ⟨d', hl'⟩ := hl.alike hal hc hs hcont hkept
    obtain ⟨m, hsent, datagram, hsock, hdel⟩ := hg.origin d' hl'
    have hin : S m.sender := by
      by_contra hm
      exact hnot ⟨hl'.1, readsSocket_of_pkt hl'.2, m, hm, hsent, datagram, hsock, hdel⟩
    refine ⟨m, ?_, datagram, ?_, hdel⟩
    · rw [hal.pre.2]
      exact List.mem_filter.mpr ⟨hsent, decide_eq_true hin⟩
    · rw [hinp]
      exact hsock

end Alike

variable [DecidableEq ι] {lan : ι → Member} {S : ι → Prop}

open Classical in
/-- The routers of one virtual router run as if alone. Without the other routers, and
without the messages of these that reach them, they make the same steps, send the same
advertisements, and end up the same, whatever their receive buffers hold then; as long
as no step that is kept reads beyond the end of its datagram. -/
theorem virtual_routers_coexist (ha : Apart lan S) {h : List (LanEntry ι)} {s : Lan ι}
    (run : LanHistory lan h s) (contained : ∀ e ∈ h, ReadsWithin lan S e) {inputs : List (ι × Input)}
    (hinputs : List.Forall₂ SameMove inputs ((h.filter (fun e => !beside lan S e)).map Entry.input)) :
    ∃ k t, LanHistory lan k t ∧ (∀ i, S i → (t.daemons i).essence = (s.daemons i).essence) ∧
      t.sent = s.sent.filter (fun m => decide (S m.sender)) ∧ k.map Entry.input = inputs ∧
      outputs k = outputs (h.filter (fun e => !beside lan S e)) ∧
      ∀ e ∈ k, S e.input.1 ∧ ∀ m ∈ e.pre.sent, S m.sender := by
  obtain ⟨start, hboot, hnone, hrun, hgen⟩ := run
  have hstart : Consistent lan start := LanHistory.consistent ⟨start, hboot, hnone, .nil, by simp⟩
  obtain ⟨k, t, hk, ⟨hess, hsent⟩, hin, hall, -⟩ :=
    Run.drop SameMove (Projects S) (Consistent lan) (fun e => Genuine lan e ∧ ReadsWithin lan S e) (fun _ => True)
      (beside lan S) hrun (fun e he => ⟨hgen e he, contained e he⟩)
      ⟨fun _ _ => rfl, by rw [hnone, List.filter_nil]⟩ hstart
      (fun _ _ _ _ hc hs hg => hc.step hs hg.1)
      (fun _ _ _ _ _ _ hc hp hsame hs hok hkept => hp.respects hc hsame hs hok.2 hkept)
      (fun _ _ _ _ _ hc hp hs _ hidle => ⟨trivial, hp.stutter ha hc hs hidle⟩) hinputs
  have hout := outputs_of_alike SameMove (Projects S) hall
  have hpartner : ∀ a ∈ k, ∃ e ∈ h, beside lan S e = false ∧ Alike SameMove (Projects S) a e := by
    intro a hmem
    obtain ⟨e, he, hal⟩ := exists_partner hall hmem
    obtain ⟨he, hkept⟩ := List.mem_filter.mp he
    exact ⟨e, he, by simpa using hkept, hal⟩
  refine ⟨k, t, ⟨start, hboot, hnone, hk, ?_⟩, hess, hsent, hin, hout, ?_⟩
  · intro a hmem
    obtain ⟨e, he, hkept, hal⟩ := hpartner a hmem
    obtain ⟨past, hpast, hsub, hs⟩ := hrun.mem he
    have hc : Consistent lan e.pre :=
      LanHistory.consistent ⟨start, hboot, hnone, hpast, fun b hb => hgen b (hsub b hb)⟩
    obtain ⟨d, hd, -, -⟩ := lanStep_ok hs
    exact (hgen e he).alike hal hc hd (contained e he) hkept
  · intro a hmem
    obtain ⟨e, he, hkept, hal⟩ := hpartner a hmem
    refine ⟨?_, ?_⟩
    · rw [hal.input.1]
      exact not_not.mp (not_or.mp (of_decide_eq_false hkept)).1
    · intro m hm
      rw [hal.pre.2] at hm
      exact of_decide_eq_true (List.mem_filter.mp hm).2

def stranger : Config := { rival with vrid := 8, vrid_pos := by decide }

def neighbours (i : Bool) : Member := ⟨.little, if i then stranger else lab, .filled 0⟩

def neighboursStarted : List (LanEntry Bool) × Lan Bool :=
  match execute (lanStep neighbours) [(false, .quiet ⟨1, 0⟩), (true, .quiet ⟨1, 0⟩), (true, .quiet ⟨9, 0⟩)]
    ⟨fun i => (neighbours i).config.daemon, []⟩ with
  | .ok r => r
  | .error _ => ([], ⟨fun i => (neighbours i).config.daemon, []⟩)

private theorem neighbours_apart : Apart neighbours (fun i => i = false) where
  family := by decide
  ids := by decide

private theorem neighbours_history : LanHistory neighbours neighboursStarted.1 neighboursStarted.2 := by
  refine .of_quiet (fun i => (neighbours i).config.daemon) ?_ ?_ (by decide +kernel)
  · intro i
    cases i <;> exact boot_daemon (.inl rfl)
  · rw [neighboursStarted]
    split
    · next r hr => exact .of_execute hr
    · exact .nil

def strangerWire : Datagram :=
  { wire with octets := neighboursStarted.2.sent.flatMap (fun m => m.frame.ip.getD [] ++ m.frame.data.getD []) }

/-- The lab router overhears it, and is the same as if there were no stranger. -/
theorem virtual_routers_coexist_neighbours :
    ∃ h s, LanHistory neighbours h s ∧ (∃ e ∈ h, Overhears neighbours (fun i => i = false) e) ∧ s.sent ≠ [] ∧
      ∃ k t, LanHistory neighbours k t ∧ (t.daemons false).essence = (s.daemons false).essence ∧ t.sent = [] := by
  have hc := neighbours_history.consistent
  obtain ⟨start, hboot, hnone, hrun, hgen⟩ := neighbours_history
  obtain ⟨frame, hsent⟩ : ∃ frame, neighboursStarted.2.sent = [⟨true, frame⟩] := by
    obtain ⟨m, hm⟩ := List.length_eq_one_iff.mp (show neighboursStarted.2.sent.length = 1 by decide +kernel)
    have hs : ∀ m ∈ neighboursStarted.2.sent, m.sender = true := by decide +kernel
    obtain ⟨sender, frame⟩ := m
    obtain rfl : sender = true := hs _ (by rw [hm]; exact List.mem_singleton_self _)
    exact ⟨frame, hm⟩
  have hparts : ∀ m ∈ neighboursStarted.2.sent, m.frame.ip.isSome ∧ m.frame.data.isSome := by decide +kernel
  obtain ⟨hip, hdata⟩ := hparts _ (by rw [hsent]; exact List.mem_singleton_self _)
  obtain ⟨ip, hip⟩ := Option.isSome_iff_exists.mp hip
  obtain ⟨data, hdata⟩ := Option.isSome_iff_exists.mp hdata
  have hdel : Delivers .inet frame strangerWire := by
    refine ⟨ip, data, hip, hdata, ?_⟩
    have hoct : strangerWire.octets = (frame.ip.getD [] ++ frame.data.getD []) ++ [] := by
      rw [strangerWire, hsent]
      rfl
    simp only at hip hdata
    rw [List.append_nil, hip, hdata] at hoct
    exact hoct
  obtain ⟨k, run⟩ := hc.local_run false
  obtain ⟨contents, -, hco⟩ := run.coherent
  have hstate : (neighboursStarted.2.daemons false).vrrp.state = .backup := by decide +kernel
  have htimers : TimersMatch (neighboursStarted.2.daemons false).vrrp := by
    rw [TimersMatch, hstate]
    decide +kernel
  obtain ⟨d, out, hs⟩ : ∃ d out, processStep .little (.packet ⟨2, 0⟩ strangerWire)
      (neighboursStarted.2.daemons false) = .ok (d, out) :=
    processStep_ok hco htimers
      (.inr (vrrpListen_ok hco run.ready run.pointers (by decide +kernel) (by simp [Input.packet])))
  obtain ⟨e, he⟩ : ∃ e : LanEntry Bool, e = ⟨neighboursStarted.2, (false, .packet ⟨2, 0⟩ strangerWire), out,
      ⟨Function.update neighboursStarted.2.daemons false d,
        neighboursStarted.2.sent ++ (advs out).map (fun frame => ⟨false, frame⟩)⟩⟩ := ⟨_, rfl⟩
  have hreads : readsSocket (.packet ⟨2, 0⟩ strangerWire) (neighboursStarted.2.daemons false) = true := by
    decide +kernel
  have hover : Overhears neighbours (fun i => i = false) e := by
    rw [he]
    refine ⟨.inl hstate, hreads, ⟨true, frame⟩, by simp, ?_, strangerWire, rfl, hdel⟩
    rw [hsent]
    exact List.mem_singleton_self _
  have hpre : e.pre = neighboursStarted.2 := by rw [he]
  have hstutter := hover.stutter neighbours_apart (by rw [hpre]; exact hc) (by rw [he])
    (show processStep _ e.input.2 (before e) = .ok (d, out) by rw [he]; exact hs)
  have hgenuine : Genuine neighbours e := by
    refine ⟨?_, fun d hl => ?_⟩
    · have hafter : after e = d := by
        rw [he, after]
        exact Function.update_self false d neighboursStarted.2.daemons
      rw [hafter]
      exact congrArg (fun d => d.vrrp.priority) hstutter.2
    · rcases hover.refused neighbours_apart (by rw [hpre]; exact hc) (by rw [he]) hl.2 with h | h <;> cases h
  have hstep : lanStep neighbours e.input neighboursStarted.2 = .ok (e.post, e.output) := by
    rw [he]
    exact congrArg (· >>= _) hs
  have hlong : LanHistory neighbours (neighboursStarted.1 ++ [e]) e.post := by
    refine ⟨start, hboot, hnone, ?_, ?_⟩
    · have hsnoc := Run.snoc hrun hstep
      rwa [show (⟨neighboursStarted.2, e.input, e.output, e.post⟩ : LanEntry Bool) = e by rw [← hpre]] at hsnoc
    · intro a ha
      rcases List.mem_append.mp ha with ha | ha
      · exact hgen a ha
      · rw [List.mem_singleton.mp ha]
        exact hgenuine
  have hpost : e.post.sent = [⟨true, frame⟩] := by
    rw [he, hstutter.1, hsent]
    rfl
  have contained : ∀ a ∈ neighboursStarted.1 ++ [e], ReadsWithin neighbours (fun i => i = false) a := by
    intro a ha
    rcases List.mem_append.mp ha with ha | ha
    · have hnosock : ∀ a ∈ neighboursStarted.1, a.input.2.sock.isNone = true := by decide +kernel
      have hsock := Option.isNone_iff_eq_none.mp (hnosock a ha)
      refine ⟨fun datagram hd => ?_, fun _ ⟨_, _, datagram, hd, _⟩ => ?_⟩ <;> cases hsock.symm.trans hd
    · rw [List.mem_singleton.mp ha]
      refine ⟨fun datagram hd => ?_, fun hkept => ?_⟩
      · rw [he] at hd ⊢
        obtain rfl := Option.some.inj hd
        exact (by decide +kernel : FromKernel lab.family strangerWire.octets)
      · exact absurd hover.beside (Bool.eq_false_iff.mp hkept)
  obtain ⟨k, t, hk, hess, ht, -⟩ := virtual_routers_coexist neighbours_apart hlong contained
    (List.forall₂_same.mpr fun _ _ => ⟨rfl, rfl⟩)
  refine ⟨_, e.post, hlong, ⟨e, List.mem_append_right _ (List.mem_singleton_self _), hover⟩, ?_, k, t, hk,
    hess false rfl, ?_⟩
  · rw [hpost]
    exact List.cons_ne_nil _ _
  · rw [ht, hpost]
    simp

end Uvrrpd
