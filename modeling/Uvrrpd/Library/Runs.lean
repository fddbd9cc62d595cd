import Mathlib.Data.List.Forall2

/-! Histories of machines whose steps consume an input, may fault, and emit
outputs. A history keeps the state on both sides of every step, so that laws
about single steps and laws about whole runs speak about the same object. -/
namespace Library.Runs
variable {σ ι ω ε : Type}

structure Entry (σ ι ω : Type) where
  pre : σ
  input : ι
  output : List ω
  post : σ

/-- `Run step s h t`: the steps recorded in `h` lead from `s` to `t`. -/
inductive Run (step : ι → σ → Except ε (σ × List ω)) (s : σ) :
    List (Entry σ ι ω) → σ → Prop
  | nil : Run step s [] s
  | snoc {h : List (Entry σ ι ω)} {t u : σ} {i : ι} {out : List ω} :
      Run step s h t → step i t = .ok (u, out) → Run step s (h ++ [⟨t, i, out, u⟩]) u

def outputs (h : List (Entry σ ι ω)) : List ω := h.flatMap Entry.output

@[simp] theorem outputs_nil : outputs ([] : List (Entry σ ι ω)) = [] := rfl

@[simp] theorem outputs_cons (e : Entry σ ι ω) (h : List (Entry σ ι ω)) :
    outputs (e :: h) = e.output ++ outputs h := rfl

@[simp] theorem outputs_snoc (h : List (Entry σ ι ω)) (e : Entry σ ι ω) :
    outputs (h ++ [e]) = outputs h ++ e.output := by
  simp [outputs]

variable {step : ι → σ → Except ε (σ × List ω)} {s t : σ} {h : List (Entry σ ι ω)}

/-- The invariant rule. `ok` is what every recorded step is known to satisfy. -/
theorem Run.invariant (P : σ → Prop) (ok : Entry σ ι ω → Prop) (run : Run step s h t)
    (hok : ∀ e ∈ h, ok e) (base : P s)
    (keep : ∀ i t u out, P t → step i t = .ok (u, out) → ok ⟨t, i, out, u⟩ → P u) : P t := by
  induction run with
  | nil => exact base
  | snoc _ hs ih =>
    have hprev := ih (fun e he => hok e (List.mem_append_left _ he))
    exact keep _ _ _ _ hprev hs (hok _ (by simp))

/-- An invariant kept by every step holds at the end of every run. -/
theorem Run.holds (P : σ → Prop) (run : Run step s h t) (base : P s)
    (keep : ∀ i t u out, P t → step i t = .ok (u, out) → P u) : P t :=
  Run.invariant P (fun _ => True) run (fun _ _ => trivial) base
    (fun i t u out hp hs _ => keep i t u out hp hs)

/-- A recorded step is a step of the machine, and what precedes it is a run. -/
theorem Run.mem {e : Entry σ ι ω} (run : Run step s h t) (he : e ∈ h) :
    ∃ before, Run step s before e.pre ∧ (∀ a ∈ before, a ∈ h) ∧
      step e.input e.pre = .ok (e.post, e.output) := by
  induction run with
  | nil => cases he
  | @snoc h t u i out prev hs ih =>
    rcases List.mem_append.mp he with hm | hm
    · obtain ⟨before, hb, hsub, hstep⟩ := ih hm
      exact ⟨before, hb, fun a ha => List.mem_append_left _ (hsub a ha), hstep⟩
    · obtain rfl := List.mem_singleton.mp hm
      exact ⟨h, prev, fun a ha => List.mem_append_left _ ha, hs⟩

def execute (step : ι → σ → Except ε (σ × List ω)) :
    List ι → σ → Except ε (List (Entry σ ι ω) × σ)
  | [], s => .ok ([], s)
  | i :: rest, s =>
    match step i s with
    | .error e => .error e
    | .ok (u, out) =>
      match execute step rest u with
      | .error e => .error e
      | .ok (h, t) => .ok (⟨s, i, out, u⟩ :: h, t)

/-- Runs compose. -/
theorem Run.append {u : σ} {k : List (Entry σ ι ω)} (first : Run step s h t)
    (second : Run step t k u) : Run step s (h ++ k) u := by
  induction second with
  | nil => simpa using first
  | snoc _ hs ih =>
    rw [← List.append_assoc]
    exact .snoc ih hs

/-- A run may be extended at its front. -/
theorem Run.cons {i : ι} {out : List ω} {u : σ} (first : step i s = .ok (u, out))
    (rest : Run step u h t) : Run step s (⟨s, i, out, u⟩ :: h) t :=
  Run.append (.snoc .nil first) rest

theorem Run.of_execute {inputs : List ι} (he : execute step inputs s = .ok (h, t)) :
    Run step s h t := by
  induction inputs generalizing s h with
  | nil =>
    obtain ⟨rfl, rfl⟩ := Prod.mk.inj (Except.ok.inj he)
    exact .nil
  | cons i rest ih =>
    simp only [execute] at he
    split at he
    · cases he
    · next u out hs =>
      split at he
      · cases he
      · next k v hr =>
        obtain ⟨rfl, rfl⟩ := Prod.mk.inj (Except.ok.inj he)
        exact .cons hs (ih hr)

/-- A machine that executes inputs consumes all of them. -/
theorem execute_inputs {inputs : List ι} (he : execute step inputs s = .ok (h, t)) :
    h.map Entry.input = inputs := by
  induction inputs generalizing s h with
  | nil =>
    obtain ⟨rfl, rfl⟩ := Prod.mk.inj (Except.ok.inj he)
    rfl
  | cons i rest ih =>
    simp only [execute] at he
    split at he
    · cases he
    · split at he
      · cases he
      · next k v hr =>
        obtain ⟨rfl, rfl⟩ := Prod.mk.inj (Except.ok.inj he)
        rw [List.map_cons, ih hr]

theorem Run.eq_of_nil (run : Run step s [] t) : s = t := by
  obtain ⟨l, hl⟩ : ∃ l : List (Entry σ ι ω), l = [] := ⟨_, rfl⟩
  rw [← hl] at run
  cases run with
  | nil => rfl
  | snoc => simp at hl

/-- A history of one step. -/
theorem Run.singleton {e : Entry σ ι ω} (run : Run step s [e] t) :
    e.pre = s ∧ e.post = t ∧ step e.input s = .ok (t, e.output) := by
  obtain ⟨l, hl⟩ : ∃ l, l = [] ++ [e] := ⟨_, rfl⟩
  rw [← List.nil_append [e], ← hl] at run
  cases run with
  | nil => simp at hl
  | snoc prev hs =>
    obtain ⟨rfl, he⟩ := List.append_inj' hl rfl
    obtain rfl := (List.singleton_inj.mp he).symm
    obtain rfl := prev.eq_of_nil
    exact ⟨rfl, rfl, hs⟩

/-- A history splits anywhere into two runs. -/
theorem Run.split {k : List (Entry σ ι ω)} (run : Run step s (h ++ k) t) :
    ∃ m, Run step s h m ∧ Run step m k t := by
  obtain ⟨hk, he⟩ : ∃ l, l = h ++ k := ⟨_, rfl⟩
  rw [← he] at run
  induction run generalizing k with
  | nil =>
    obtain ⟨rfl, rfl⟩ := List.append_eq_nil_iff.mp he.symm
    exact ⟨s, .nil, .nil⟩
  | @snoc l t u i out prev hs ih =>
    rcases List.eq_nil_or_concat k with rfl | ⟨k', e, rfl⟩
    · refine ⟨u, ?_, .nil⟩
      rw [List.append_nil] at he
      exact he ▸ .snoc prev hs
    · rw [List.concat_eq_append, ← List.append_assoc] at he
      obtain ⟨hl, hs'⟩ := List.append_inj' he rfl
      obtain ⟨m, hm, hr⟩ := ih hl
      obtain rfl := (List.singleton_inj.mp hs').symm
      exact ⟨m, hm, by rw [List.concat_eq_append]; exact .snoc hr hs⟩

/-- A recorded step, between the run before it and the run behind it. -/
theorem Run.middle {e : Entry σ ι ω} {k : List (Entry σ ι ω)} (run : Run step s (h ++ e :: k) t) :
    Run step s h e.pre ∧ step e.input e.pre = .ok (e.post, e.output) ∧ Run step e.post k t := by
  obtain ⟨m, hm, hrest⟩ := run.split
  obtain ⟨u, hone, hk⟩ := Run.split (h := [e]) (k := k) hrest
  obtain ⟨rfl, rfl, hs⟩ := hone.singleton
  exact ⟨hm, hs, hk⟩

def Entry.map {τ κ : Type} (f : σ → τ) (g : ι → κ) (e : Entry σ ι ω) : Entry τ κ ω :=
  ⟨f e.pre, g e.input, e.output, f e.post⟩

/-- A machine whose steps are steps of another, with more around them, runs like that one. -/
theorem Run.map {τ κ : Type} {step' : κ → τ → Except ε (τ × List ω)} {f : σ → τ} {g : ι → κ} (run : Run step s h t)
    (sim : ∀ i t u out, step i t = .ok (u, out) → step' (g i) (f t) = .ok (f u, out)) :
    Run step' (f s) (h.map (Entry.map f g)) (f t) := by
  induction run with
  | nil => exact .nil
  | snoc _ hs ih =>
    rw [List.map_append]
    exact .snoc ih (sim _ _ _ _ hs)

section Erasure
variable (J : ι → ι → Prop) (R : σ → σ → Prop) (Inv : σ → Prop) (ok lost : Entry σ ι ω → Prop)
  (idle : Entry σ ι ω → Bool)

/-- Steps on related inputs from related states, to related states. -/
structure Alike (J : ι → ι → Prop) (R : σ → σ → Prop) (a b : Entry σ ι ω) : Prop where
  pre : R b.pre a.pre
  input : J a.input b.input
  output : a.output = b.output
  post : R b.post a.post

/-- Dropping steps. If related states make the same steps that are kept, on inputs that may
differ as well, and a dropped step stays within the relation, the kept inputs alone produce
a related state, by steps like those that are kept. -/
theorem Run.drop (run : Run step s h t) (hok : ∀ e ∈ h, ok e) (refl : R s s) (inv : Inv s)
    (keepInv : ∀ i t u out, Inv t → step i t = .ok (u, out) → ok ⟨t, i, out, u⟩ → Inv u)
    (respects : ∀ i i' t t' u out, Inv t → R t t' → J i' i → step i t = .ok (u, out) → ok ⟨t, i, out, u⟩ →
      idle ⟨t, i, out, u⟩ = false → ∃ u', step i' t' = .ok (u', out) ∧ R u u')
    (stutter : ∀ i t t' u out, Inv t → R t t' → step i t = .ok (u, out) → ok ⟨t, i, out, u⟩ →
      idle ⟨t, i, out, u⟩ = true → lost ⟨t, i, out, u⟩ ∧ R u t')
    {inputs : List ι} (hinputs : List.Forall₂ J inputs ((h.filter (fun e => !idle e)).map Entry.input)) :
    ∃ k t', Run step s k t' ∧ R t t' ∧ k.map Entry.input = inputs ∧
      List.Forall₂ (Alike J R) k (h.filter (fun e => !idle e)) ∧ ∀ e ∈ h, idle e = true → lost e := by
  suffices hgoal : Inv t ∧ ∃ k t', Run step s k t' ∧ R t t' ∧ k.map Entry.input = inputs ∧
      List.Forall₂ (Alike J R) k (h.filter (fun e => !idle e)) ∧ ∀ e ∈ h, idle e = true → lost e from hgoal.2
  induction run generalizing inputs with
  | nil =>
    obtain rfl := List.forall₂_nil_right_iff.mp hinputs
    exact ⟨inv, [], s, .nil, refl, rfl, .nil, by simp⟩
  | @snoc h t u i out prev hs ih =>
    have hprev (e : Entry σ ι ω) (he : e ∈ h) : ok e := hok e (List.mem_append_left _ he)
    have he : ok ⟨t, i, out, u⟩ := hok _ (by simp)
    rw [List.filter_append] at hinputs ⊢
    cases hidle : idle ⟨t, i, out, u⟩ with
    | true =>
      rw [List.filter_cons_of_neg (by simp [hidle]), List.filter_nil, List.append_nil] at hinputs ⊢
      obtain ⟨hinv, k, t', hk, hR, hin, hall, hlost⟩ := ih hprev hinputs
      obtain ⟨hnow, hR'⟩ := stutter _ _ _ _ _ hinv hR hs he hidle
      refine ⟨keepInv _ _ _ _ hinv hs he, k, t', hk, hR', hin, hall, ?_⟩
      intro e hmem hi
      rcases List.mem_append.mp hmem with hm | hm
      · exact hlost e hm hi
      · rw [List.mem_singleton.mp hm]
        exact hnow
    | false =>
      rw [List.filter_cons_of_pos (by simp [hidle]), List.filter_nil] at hinputs ⊢
      rw [List.map_append] at hinputs
      have hfront := List.forall₂_take_append _ _ _ hinputs
      obtain ⟨i', hi', hback⟩ : ∃ i', J i' i ∧ inputs.drop _ = [i'] := by
        obtain ⟨i', rest, hi', hrest, heq⟩ := List.forall₂_cons_right_iff.mp (List.forall₂_drop_append _ _ _ hinputs)
        rw [List.forall₂_nil_right_iff.mp hrest] at heq
        exact ⟨i', hi', heq⟩
      obtain ⟨hinv, k, t', hk, hR, hin, hall, hlost⟩ := ih hprev hfront
      obtain ⟨u', hs', hR'⟩ := respects _ _ _ _ _ _ hinv hR hi' hs he hidle
      refine ⟨keepInv _ _ _ _ hinv hs he, k ++ [⟨t', i', out, u'⟩], u', .snoc hk hs', hR', ?_, ?_, ?_⟩
      · rw [List.map_append, hin, List.map_singleton, ← hback, List.take_append_drop]
      · exact List.rel_append hall (.cons ⟨hR, hi', rfl, hR'⟩ .nil)
      · intro e hmem hi
        rcases List.mem_append.mp hmem with hm | hm
        · exact hlost e hm hi
        · rw [List.mem_singleton.mp hm, hidle] at hi
          cases hi

theorem exists_partner {α β : Type} {Q : α → β → Prop} {k : List α} {h : List β} (hall : List.Forall₂ Q k h)
    {a : α} (ha : a ∈ k) : ∃ b ∈ h, Q a b := by
  induction hall with
  | nil => cases ha
  | cons hq _ ih =>
    rcases List.mem_cons.mp ha with rfl | ha
    · exact ⟨_, List.mem_cons_self, hq⟩
    · obtain ⟨b, hb, hq⟩ := ih ha
      exact ⟨b, List.mem_cons_of_mem _ hb, hq⟩

/-- Alike steps emit the same. -/
theorem outputs_of_alike {h k : List (Entry σ ι ω)} (hall : List.Forall₂ (Alike J R) k h) :
    outputs k = outputs h := by
  induction hall with
  | nil => rfl
  | cons ha _ ih => rw [outputs_cons, outputs_cons, ha.output, ih]

/-- What emits nothing may be left out. -/
private theorem outputs_filter {h : List (Entry σ ι ω)} (hsilent : ∀ e ∈ h, idle e = true → e.output = []) :
    outputs (h.filter (fun e => !idle e)) = outputs h := by
  induction h with
  | nil => rfl
  | cons e h ih =>
    have hrest := ih (fun a ha => hsilent a (List.mem_cons_of_mem _ ha))
    cases hidle : idle e with
    | true => simp [hidle, hrest, hsilent e List.mem_cons_self hidle]
    | false => simp [hidle, hrest]

/-- Deleting idle steps. If related states make the same steps that are kept and an idle
step stays within the relation without output, the kept inputs alone produce a related
state and the same outputs. -/
theorem Run.erase (run : Run step s h t) (hok : ∀ e ∈ h, ok e) (refl : R s s) (inv : Inv s)
    (keepInv : ∀ i t u out, Inv t → step i t = .ok (u, out) → ok ⟨t, i, out, u⟩ → Inv u)
    (respects : ∀ i i' t t' u out, Inv t → R t t' → J i' i → step i t = .ok (u, out) → ok ⟨t, i, out, u⟩ →
      idle ⟨t, i, out, u⟩ = false → ∃ u', step i' t' = .ok (u', out) ∧ R u u')
    (stutter : ∀ i t t' u out, Inv t → R t t' → step i t = .ok (u, out) → ok ⟨t, i, out, u⟩ →
      idle ⟨t, i, out, u⟩ = true → out = [] ∧ R u t')
    {inputs : List ι} (hinputs : List.Forall₂ J inputs ((h.filter (fun e => !idle e)).map Entry.input)) :
    ∃ k t', Run step s k t' ∧ R t t' ∧ outputs k = outputs h ∧ k.map Entry.input = inputs := by
  obtain ⟨k, t', hk, hR, hin, hall, hlost⟩ :=
    Run.drop J R Inv ok (fun e => e.output = []) idle run hok refl inv keepInv respects stutter hinputs
  exact ⟨k, t', hk, hR, (outputs_of_alike J R hall).trans (outputs_filter idle hlost), hin⟩

end Erasure

section Simulation
variable {τ κ ω' ε' : Type} {step' : κ → τ → Except ε' (τ × List ω')}

/-- Forward simulation. Every step is a step of another machine on the input that its
entry stands for, or, where it stands for none, changes nothing that the other sees. -/
theorem Run.simulate (abs : σ → τ) (act : ω → Option ω') (label : Entry σ ι ω → Option κ)
    (Inv : σ → Prop) (ok : Entry σ ι ω → Prop) (run : Run step s h t) (hok : ∀ e ∈ h, ok e) (base : Inv s)
    (keep : ∀ i t u out, Inv t → step i t = .ok (u, out) → ok ⟨t, i, out, u⟩ → Inv u)
    (idle : ∀ i t u out, Inv t → step i t = .ok (u, out) → ok ⟨t, i, out, u⟩ →
      label ⟨t, i, out, u⟩ = none → abs u = abs t ∧ out.filterMap act = [])
    (moves : ∀ i t u out k, Inv t → step i t = .ok (u, out) → ok ⟨t, i, out, u⟩ →
      label ⟨t, i, out, u⟩ = some k → step' k (abs t) = .ok (abs u, out.filterMap act)) :
    ∃ k, Run step' (abs s) k (abs t) ∧ k.map Entry.input = h.filterMap label ∧
      outputs k = (outputs h).filterMap act := by
  suffices hgoal : Inv t ∧ ∃ k, Run step' (abs s) k (abs t) ∧ k.map Entry.input = h.filterMap label ∧
      outputs k = (outputs h).filterMap act from hgoal.2
  induction run with
  | nil => exact ⟨base, [], .nil, rfl, rfl⟩
  | @snoc h t u i out prev hs ih =>
    obtain ⟨hinv, k, hk, hin, hout⟩ := ih (fun e he => hok e (List.mem_append_left _ he))
    have he : ok ⟨t, i, out, u⟩ := hok _ (by simp)
    refine ⟨keep _ _ _ _ hinv hs he, ?_⟩
    rw [List.filterMap_append, outputs_snoc, List.filterMap_append]
    cases hl : label ⟨t, i, out, u⟩ with
    | none =>
      obtain ⟨hsame, hnone⟩ := idle _ _ _ _ hinv hs he hl
      refine ⟨k, by rw [hsame]; exact hk, ?_, ?_⟩
      · rw [hin, List.filterMap_cons_none hl, List.filterMap_nil, List.append_nil]
      · rw [hout, hnone, List.append_nil]
    | some x =>
      refine ⟨_, .snoc hk (moves _ _ _ _ _ hinv hs he hl), ?_, ?_⟩
      · rw [List.map_append, hin, List.filterMap_cons_some hl, List.filterMap_nil]
        rfl
      · rw [outputs_snoc, hout]

end Simulation

end Library.Runs
