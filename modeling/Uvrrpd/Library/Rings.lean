import Mathlib.Data.List.Nodup
import Mathlib.Logic.Function.Basic

/-! Circular doubly linked lists in a heap. What is not allocated cannot be read or
written, so a successful access is also a proof that its object still exists. -/
namespace Library.Rings
variable {ι δ : Type}

structure Node (ι δ : Type) where
  next : ι
  prev : ι
  data : δ
  deriving DecidableEq, Repr

abbrev Heap (ι δ : Type) := ι → Option (Node ι δ)

namespace Heap

def nextOf (h : Heap ι δ) (p : ι) : Option ι := (h p).map Node.next

def prevOf (h : Heap ι δ) (p : ι) : Option ι := (h p).map Node.prev

def dataOf (h : Heap ι δ) (p : ι) : Option δ := (h p).map Node.data

variable [DecidableEq ι]

def put (h : Heap ι δ) (p : ι) (n : Node ι δ) : Heap ι δ := Function.update h p (some n)

def free (h : Heap ι δ) (p : ι) : Heap ι δ := Function.update h p none

def setNext (h : Heap ι δ) (p q : ι) : Option (Heap ι δ) := (h p).map fun n => h.put p { n with next := q }

def setPrev (h : Heap ι δ) (p q : ι) : Option (Heap ι δ) := (h p).map fun n => h.put p { n with prev := q }

def setData (h : Heap ι δ) (p : ι) (v : δ) : Option (Heap ι δ) := (h p).map fun n => h.put p { n with data := v }

variable {h h' : Heap ι δ} {p q : ι}

@[simp] theorem put_self (n : Node ι δ) : h.put p n p = some n := Function.update_self _ _ _

theorem put_of_ne (n : Node ι δ) (hne : q ≠ p) : h.put p n q = h q := Function.update_of_ne hne _ _

private theorem free_of_ne (hne : q ≠ p) : h.free p q = h q := Function.update_of_ne hne _ _

@[simp] theorem nextOf_put (n : Node ι δ) : (h.put p n).nextOf = Function.update h.nextOf p (some n.next) := by
  funext r
  by_cases hr : r = p
  · subst hr
    simp [nextOf, put]
  · simp [nextOf, put, hr]

@[simp] theorem prevOf_put (n : Node ι δ) : (h.put p n).prevOf = Function.update h.prevOf p (some n.prev) := by
  funext r
  by_cases hr : r = p
  · subst hr
    simp [prevOf, put]
  · simp [prevOf, put, hr]

@[simp] theorem dataOf_put (n : Node ι δ) : (h.put p n).dataOf = Function.update h.dataOf p (some n.data) := by
  funext r
  by_cases hr : r = p
  · subst hr
    simp [dataOf, put]
  · simp [dataOf, put, hr]

/-- What a write to a member does to the three members everywhere. -/
theorem setNext_some (hp : (h p).isSome) : ∃ h', h.setNext p q = some h' ∧
    h'.nextOf = Function.update h.nextOf p (some q) ∧ h'.prevOf = h.prevOf ∧ h'.dataOf = h.dataOf ∧
    ∀ r, (r ≠ p → h' r = h r) ∧ (h' r).isSome = (h r).isSome := by
  obtain ⟨n, hn⟩ := Option.isSome_iff_exists.mp hp
  refine ⟨h.put p { n with next := q }, by rw [setNext, hn]; rfl, by simp, ?_, ?_, fun r => ⟨put_of_ne _, ?_⟩⟩
  · rw [prevOf_put, Function.update_eq_self_iff, prevOf, hn]
    rfl
  · rw [dataOf_put, Function.update_eq_self_iff, dataOf, hn]
    rfl
  · by_cases hr : r = p
    · rw [hr, put_self, hp]
      rfl
    · rw [put_of_ne _ hr]

theorem setPrev_some (hp : (h p).isSome) : ∃ h', h.setPrev p q = some h' ∧
    h'.nextOf = h.nextOf ∧ h'.prevOf = Function.update h.prevOf p (some q) ∧ h'.dataOf = h.dataOf ∧
    ∀ r, (r ≠ p → h' r = h r) ∧ (h' r).isSome = (h r).isSome := by
  obtain ⟨n, hn⟩ := Option.isSome_iff_exists.mp hp
  refine ⟨h.put p { n with prev := q }, by rw [setPrev, hn]; rfl, ?_, by simp, ?_, fun r => ⟨put_of_ne _, ?_⟩⟩
  · rw [nextOf_put, Function.update_eq_self_iff, nextOf, hn]
    rfl
  · rw [dataOf_put, Function.update_eq_self_iff, dataOf, hn]
    rfl
  · by_cases hr : r = p
    · rw [hr, put_self, hp]
      rfl
    · rw [put_of_ne _ hr]

end Heap

/-- From an object over a list of others to an object, each linked with the next. -/
def Seg (h : Heap ι δ) : ι → List ι → ι → Prop
  | p, [], q => h.nextOf p = some q ∧ h.prevOf q = some p
  | p, x :: xs, q => (h.nextOf p = some x ∧ h.prevOf x = some p) ∧ Seg h x xs q

/-- A head with the objects of a list behind it, in a circle. -/
structure Ring (h : Heap ι δ) (head : ι) (xs : List ι) : Prop where
  seg : Seg h head xs head
  nodup : (head :: xs).Nodup

variable {h h' : Heap ι δ} {p q head : ι} {xs ys : List ι}

private theorem seg_append {y : ι} : Seg h p (xs ++ y :: ys) q ↔ Seg h p xs y ∧ Seg h y ys q := by
  induction xs generalizing p with
  | nil => exact Iff.rfl
  | cons x xs ih =>
    rw [List.cons_append, Seg, Seg, ih]
    exact and_assoc.symm

/-- The links of a segment, and no others, make it one. -/
theorem Seg.congr (hs : Seg h p xs q) (hnext : ∀ a ∈ p :: xs, h'.nextOf a = h.nextOf a)
    (hprev : ∀ a ∈ q :: xs, h'.prevOf a = h.prevOf a) : Seg h' p xs q := by
  induction xs generalizing p with
  | nil =>
    refine ⟨?_, ?_⟩
    · rw [hnext p List.mem_cons_self]
      exact hs.1
    · rw [hprev q List.mem_cons_self]
      exact hs.2
  | cons x xs ih =>
    refine ⟨⟨?_, ?_⟩, ih hs.2 (fun a ha => hnext a (List.mem_cons_of_mem _ ha)) ?_⟩
    · rw [hnext p List.mem_cons_self]
      exact hs.1.1
    · rw [hprev x (List.mem_cons_of_mem _ List.mem_cons_self)]
      exact hs.1.2
    · intro a ha
      rcases List.mem_cons.mp ha with rfl | ha
      · exact hprev a List.mem_cons_self
      · exact hprev a (List.mem_cons_of_mem _ (List.mem_cons_of_mem _ ha))

theorem Ring.congr (hr : Ring h head xs) (hnext : ∀ a ∈ head :: xs, h'.nextOf a = h.nextOf a)
    (hprev : ∀ a ∈ head :: xs, h'.prevOf a = h.prevOf a) : Ring h' head xs :=
  ⟨hr.seg.congr hnext hprev, hr.nodup⟩

/-- An object that points to itself is an empty ring. -/
theorem Ring.empty (hnext : h.nextOf head = some head) (hprev : h.prevOf head = some head) : Ring h head [] :=
  ⟨⟨hnext, hprev⟩, List.nodup_singleton _⟩

/-- The first object of a ring, which may be its head. -/
theorem Ring.exists_first (hr : Ring h head xs) : ∃ first ∈ head :: xs, h.nextOf head = some first := by
  cases xs with
  | nil => exact ⟨head, List.mem_cons_self, hr.seg.1⟩
  | cons x rest => exact ⟨x, List.mem_cons_of_mem _ List.mem_cons_self, hr.seg.1.1⟩

/-- The last object of a ring, which may be its head. -/
theorem Ring.exists_last (hr : Ring h head xs) : ∃ last ∈ head :: xs, h.prevOf head = some last ∧
    h.nextOf last = some head := by
  rcases List.eq_nil_or_concat' xs with rfl | ⟨front, last, rfl⟩
  · exact ⟨head, List.mem_cons_self, hr.seg.2, hr.seg.1⟩
  · exact ⟨last, by simp, (seg_append.mp hr.seg).2.2, (seg_append.mp hr.seg).2.1⟩

private theorem isSome_of_nextOf (hp : h.nextOf p = some q) : (h p).isSome := by
  obtain ⟨n, hn, -⟩ := Option.map_eq_some_iff.mp hp
  rw [hn]
  rfl

theorem Seg.isSome (hs : Seg h p xs q) : ∀ a ∈ p :: xs, (h a).isSome := by
  induction xs generalizing p with
  | nil =>
    intro a ha
    rw [List.mem_singleton.mp ha]
    exact isSome_of_nextOf hs.1
  | cons x xs ih =>
    intro a ha
    rcases List.mem_cons.mp ha with rfl | ha
    · exact isSome_of_nextOf hs.1.1
    · exact ih hs.2 a ha

variable [DecidableEq ι]

/-- Four links put a new object between the last one and the head. -/
theorem Ring.snoc {new last : ι} (hr : Ring h head xs) (hnew : new ∉ head :: xs) (hlast : h.prevOf head = some last)
    (hnext : h'.nextOf = Function.update (Function.update h.nextOf new (some head)) last (some new))
    (hprev : h'.prevOf = Function.update (Function.update h.prevOf head (some new)) new (some last)) :
    Ring h' head (xs ++ [new]) := by
  have hfresh {a : ι} (ha : a ∈ head :: xs) : a ≠ new := fun heq => hnew (heq ▸ ha)
  have hnext_last : h'.nextOf last = some new := by rw [hnext, Function.update_self]
  have hprev_new : h'.prevOf new = some last := by rw [hprev, Function.update_self]
  have hprev_head : h'.prevOf head = some new := by
    rw [hprev, Function.update_of_ne (hfresh List.mem_cons_self), Function.update_self]
  have hnext_new (hne : new ≠ last) : h'.nextOf new = some head := by
    rw [hnext, Function.update_of_ne hne, Function.update_self]
  refine ⟨?_, ?_⟩
  · rcases List.eq_nil_or_concat' xs with rfl | ⟨front, x, rfl⟩
    · obtain rfl : head = last := Option.some.inj (hr.seg.2.symm.trans hlast)
      exact ⟨⟨hnext_last, hprev_new⟩, hnext_new (hfresh List.mem_cons_self).symm, hprev_head⟩
    · obtain ⟨hfront, hback⟩ := seg_append.mp hr.seg
      obtain rfl : x = last := Option.some.inj (hback.2.symm.trans hlast)
      have hx : x ∈ head :: (front ++ [x]) := by simp
      have hnodup := hr.nodup
      rw [← List.cons_append, List.nodup_append] at hnodup
      rw [List.append_assoc]
      -- the links up to the last object are as before
      refine seg_append.mpr ⟨hfront.congr ?_ ?_, ⟨hnext_last, hprev_new⟩, hnext_new (hfresh hx).symm, hprev_head⟩
      · intro a ha
        have hax : a ≠ x := hnodup.2.2 a ha x (List.mem_singleton_self x)
        have hanew : a ≠ new := hfresh (by rw [← List.cons_append]; exact List.mem_append_left _ ha)
        rw [hnext, Function.update_of_ne hax, Function.update_of_ne hanew]
      · intro a ha
        have hmem : a ∈ front ++ [x] := by
          rcases List.mem_cons.mp ha with rfl | ha
          · simp
          · exact List.mem_append_left _ ha
        have hahead : a ≠ head := fun heq => (List.nodup_cons.mp hr.nodup).1 (heq ▸ hmem)
        rw [hprev, Function.update_of_ne (hfresh (List.mem_cons_of_mem _ hmem)), Function.update_of_ne hahead]
  · rw [← List.cons_append, List.nodup_append]
    refine ⟨hr.nodup, List.nodup_singleton _, fun a ha b hb => ?_⟩
    rw [List.mem_singleton.mp hb]
    exact hfresh ha

/-- The objects that are met from one on, up to another. -/
def Path (link : ι → Option ι) : ι → List ι → ι → Prop
  | p, [], q => link p = some q
  | p, x :: xs, q => link p = some x ∧ Path link x xs q

omit [DecidableEq ι] in
private theorem path_append {link : ι → Option ι} {y : ι} :
    Path link p (xs ++ y :: ys) q ↔ Path link p xs y ∧ Path link y ys q := by
  induction xs generalizing p with
  | nil => exact Iff.rfl
  | cons x xs ih =>
    rw [List.cons_append, Path, Path, ih]
    exact and_assoc.symm

omit [DecidableEq ι] in
theorem Path.congr {link link' : ι → Option ι} (hp : Path link p xs q) (hlink : ∀ a ∈ p :: xs, link' a = link a) :
    Path link' p xs q := by
  induction xs generalizing p with
  | nil => exact (hlink p List.mem_cons_self).trans hp
  | cons x xs ih =>
    refine ⟨(hlink p List.mem_cons_self).trans hp.1, ih hp.2 ?_⟩
    exact fun a ha => hlink a (List.mem_cons_of_mem _ ha)

omit [DecidableEq ι] in
private theorem Seg.forwards (hs : Seg h p xs q) : Path h.nextOf p xs q := by
  induction xs generalizing p with
  | nil => exact hs.1
  | cons x xs ih => exact ⟨hs.1.1, ih hs.2⟩

omit [DecidableEq ι] in
private theorem Seg.backwards (hs : Seg h p xs q) : Path h.prevOf q xs.reverse p := by
  induction xs generalizing p with
  | nil => exact hs.2
  | cons x xs ih =>
    rw [List.reverse_cons]
    exact path_append.mpr ⟨ih hs.2, hs.1.2⟩

section
variable {τ ε : Type}

/-- A pass over loads, each with what has come of the earlier ones. -/
def actAll (act : δ → τ → Except ε (δ × τ)) : List δ → τ → Except ε (List δ × τ)
  | [], t => .ok ([], t)
  | v :: vs, t => do
    let (v, t) ← act v t
    let (vs, t) ← actAll act vs t
    return (v :: vs, t)

/-- `for (; pos != head; pos = link(pos))`, where a turn works on the load of its object.
A loop that takes more turns than it may has no value. -/
def forEach (bad : ε) (head : ι) (link : Node ι δ → ι) (act : δ → τ → Except ε (δ × τ)) :
    Nat → ι → Heap ι δ → τ → Option (Except ε (Heap ι δ × τ))
  | 0, _, _, _ => none
  | fuel + 1, pos, h, t =>
    if pos = head then some (.ok (h, t))
    else
      match h pos with
      | none => some (.error bad)
      | some n =>
        match act n.data t with
        | .error e => some (.error e)
        | .ok (v, t) => forEach bad head link act fuel (link n) (h.put pos { n with data := v }) t

/-- `for (; pos != head; pos = n, n = n->next) free(pos)`. -/
def freeEach (bad : ε) (head : ι) : Nat → ι → ι → Heap ι δ → Option (Except ε (Heap ι δ))
  | 0, _, _, _ => none
  | fuel + 1, pos, n, h =>
    if pos = head then some (.ok h)
    else if (h pos).isNone then some (.error bad)
    else
      match (h.free pos).nextOf n with
      | none => some (.error bad)
      | some next => freeEach bad head fuel n next (h.free pos)

variable {bad : ε} {link : Node ι δ → ι} {act : δ → τ → Except ε (δ × τ)}

def Loads (h : Heap ι δ) (xs : List ι) (vs : List δ) : Prop := xs.map h.dataOf = vs.map some

omit [DecidableEq ι] in
theorem Loads.congr {vs : List δ} (hl : Loads h xs vs) (hdata : ∀ a ∈ xs, h'.dataOf a = h.dataOf a) :
    Loads h' xs vs := by
  rw [Loads, List.map_congr_left hdata]
  exact hl

/-- Writing a load leaves all links alone. -/
private theorem links_put {n : Node ι δ} (hn : h p = some n) (v : δ) :
    (h.put p { n with data := v }).nextOf = h.nextOf ∧ (h.put p { n with data := v }).prevOf = h.prevOf := by
  rw [Heap.nextOf_put, Heap.prevOf_put, Function.update_eq_self_iff, Function.update_eq_self_iff, Heap.nextOf,
    Heap.prevOf, hn]
  exact ⟨rfl, rfl⟩

omit [DecidableEq ι] in
theorem actAll_error {v : δ} {vs : List δ} {t : τ} {e : ε} (hact : act v t = .error e) :
    actAll act (v :: vs) t = .error e := by
  rw [actAll, hact]
  rfl

omit [DecidableEq ι] in
theorem actAll_ok {v w : δ} {vs : List δ} {t u : τ} (hact : act v t = .ok (w, u)) :
    actAll act (v :: vs) t = (actAll act vs u).map (fun r => (w :: r.1, r.2)) := by
  simp only [actAll, hact, bind, Except.bind]
  cases actAll act vs u <;> rfl

structure Passes (act : δ → τ → Except ε (δ × τ)) (h : Heap ι δ) (xs : List ι) (vs : List δ) (t : τ)
    (out : Option (Except ε (Heap ι δ × τ))) : Prop where
  error : ∀ e, actAll act vs t = .error e → out = some (.error e)
  ok : ∀ vs' t', actAll act vs t = .ok (vs', t') → ∃ h', out = some (.ok (h', t')) ∧ Loads h' xs vs' ∧
    h'.nextOf = h.nextOf ∧ h'.prevOf = h.prevOf ∧ ∀ a ∉ xs, h' a = h a

/-- The first turn, and the others on the heap that it leaves. -/
theorem Passes.cons {x : ι} {rest : List ι} {n : Node ι δ} {vs : List δ} {t u : τ} {w : δ}
    {out : Option (Except ε (Heap ι δ × τ))} (hn : h x = some n) (hx : x ∉ rest) (hact : act n.data t = .ok (w, u))
    (hrest : Passes act (h.put x { n with data := w }) rest vs u out) :
    Passes act h (x :: rest) (n.data :: vs) t out where
  error e he := by
    rw [actAll_ok hact] at he
    cases hrun : actAll act vs u with
    | error e' =>
      rw [hrun] at he
      exact hrest.error e (hrun.trans (by cases he; rfl))
    | ok r =>
      rw [hrun] at he
      cases he
  ok vs' t' hok := by
    rw [actAll_ok hact] at hok
    cases hrun : actAll act vs u with
    | error e' =>
      rw [hrun] at hok
      cases hok
    | ok r =>
      rw [hrun] at hok
      obtain ⟨rfl, rfl⟩ := Prod.mk.inj (Except.ok.inj hok)
      obtain ⟨h', hout, hloads, hnext, hprev, hother⟩ := hrest.ok r.1 r.2 hrun
      refine ⟨h', hout, ?_, hnext.trans (links_put hn w).1, hprev.trans (links_put hn w).2, ?_⟩
      · rw [Loads, List.map_cons, List.map_cons, ← hloads, Heap.dataOf, hother x hx, Heap.put_self]
        rfl
      · intro a ha
        rw [List.mem_cons, not_or] at ha
        rw [hother a ha.2, Heap.put_of_ne _ ha.1]

/-- A loop along a path is a pass over the loads in its order, and changes nothing else. -/
private theorem forEach_path (hlink : ∀ n v, link { n with data := v } = link n) {pos : ι} {vs : List δ} {t : τ}
    (hpos : (h p).map link = some pos) (hpath : Path (fun a => (h a).map link) p xs head) (hnodup : (head :: xs).Nodup)
    (hloads : Loads h xs vs) {fuel : Nat} (hfuel : xs.length < fuel) :
    Passes act h xs vs t (forEach bad head link act fuel pos h t) := by
  induction xs generalizing p pos vs t h fuel with
  | nil =>
    obtain ⟨fuel, rfl⟩ : ∃ k, fuel = k + 1 := ⟨fuel - 1, by omega⟩
    obtain rfl : vs = [] := by simpa [Loads] using hloads.symm
    obtain rfl : pos = head := Option.some.inj (hpos.symm.trans hpath)
    rw [forEach, if_pos rfl]
    refine ⟨fun e he => (by cases he), fun vs' t' hok => ?_⟩
    obtain ⟨rfl, rfl⟩ := Prod.mk.inj (Except.ok.inj hok)
    exact ⟨h, rfl, rfl, rfl, rfl, fun _ _ => rfl⟩
  | cons x rest ih =>
    obtain ⟨hx, hpath⟩ := hpath
    obtain rfl : pos = x := Option.some.inj (hpos.symm.trans hx)
    obtain ⟨fuel, rfl⟩ : ∃ k, fuel = k + 1 := ⟨fuel - 1, by omega⟩
    obtain ⟨v, vs, rfl⟩ : ∃ v ws, vs = v :: ws := by
      cases vs with
      | nil => simp [Loads] at hloads
      | cons v ws => exact ⟨v, ws, rfl⟩
    obtain ⟨hload, hrest⟩ := List.cons_eq_cons.mp hloads
    obtain ⟨n, hn, rfl⟩ := Option.map_eq_some_iff.mp hload
    have hne : pos ≠ head := fun heq => (List.nodup_cons.mp hnodup).1 (heq ▸ List.mem_cons_self)
    have hnotin : pos ∉ rest := (List.nodup_cons.mp (List.nodup_cons.mp hnodup).2).1
    have hnodup' : (head :: rest).Nodup := hnodup.sublist (List.Sublist.cons_cons _ (List.sublist_cons_self _ _))
    have hturn : forEach bad head link act (fuel + 1) pos h t =
        match act n.data t with
        | .error e => some (.error e)
        | .ok (v, t) => forEach bad head link act fuel (link n) (h.put pos { n with data := v }) t := by
      rw [forEach, if_neg hne, hn]
    rw [hturn]
    cases hact : act n.data t with
    | error e =>
      refine ⟨fun e' he' => ?_, fun vs' t' hok => ?_⟩
      · rw [actAll_error hact] at he'
        rw [Except.error.inj he']
      · rw [actAll_error hact] at hok
        cases hok
    | ok r =>
      obtain ⟨w, u⟩ := r
      have hput {a : ι} (ha : a ≠ pos) : h.put pos { n with data := w } a = h a := Heap.put_of_ne _ ha
      have hlinks {a : ι} : (h.put pos { n with data := w } a).map link = (h a).map link := by
        by_cases ha : a = pos
        · rw [ha, Heap.put_self, hn, Option.map_some, Option.map_some, hlink]
        · rw [hput ha]
      have hloads' : Loads (h.put pos { n with data := w }) rest vs :=
        Loads.congr hrest (fun a ha => by rw [Heap.dataOf, hput (fun heq => hnotin (heq ▸ ha)), Heap.dataOf])
      have hpos' : (h.put pos { n with data := w } pos).map link = some (link n) := by rw [hlinks, hn]; rfl
      rw [List.length_cons] at hfuel
      exact (ih hpos' (hpath.congr fun _ _ => hlinks) hnodup' hloads' (by omega)).cons hn hnotin hact

/-- Backwards through a ring. -/
theorem Ring.forEach_prev (hr : Ring h head xs) {last : ι} (hlast : h.prevOf head = some last) {vs : List δ} {t : τ}
    (hloads : Loads h xs vs) {fuel : Nat} (hfuel : xs.length < fuel) :
    Passes act h xs.reverse vs.reverse t (forEach bad head Node.prev act fuel last h t) := by
  have hloads' : Loads h xs.reverse vs.reverse := by rw [Loads, List.map_reverse, hloads, List.map_reverse]
  have hnodup : (head :: xs.reverse).Nodup :=
    List.nodup_cons.mpr ⟨fun hmem => (List.nodup_cons.mp hr.nodup).1 (List.mem_reverse.mp hmem),
      List.nodup_reverse.mpr (List.nodup_cons.mp hr.nodup).2⟩
  refine forEach_path (fun _ _ => rfl) hlast hr.seg.backwards hnodup hloads' ?_
  rw [List.length_reverse]
  exact hfuel

/-- A turn frees its object, and follows the link that the next one still has. -/
private theorem freeEach_turn {x n m : ι} (hne : x ≠ head) (hx : (h x).isSome) (hm : (h.free x).nextOf n = some m)
    (fuel : Nat) :
    freeEach bad head (fuel + 1) x n h = freeEach bad head fuel n m (h.free x) := by
  obtain ⟨c, hc⟩ := Option.isSome_iff_exists.mp hx
  rw [freeEach, if_neg hne, if_neg (by simp [hc]), hm]

/-- The loop that frees each object of a ring, from one on. -/
private theorem freeEach_path {x n first : ι} {rest : List ι} (hpath : Path h.nextOf x rest head)
    (hn : h.nextOf x = some n)
    (hnodup : (head :: x :: rest).Nodup) (hfirst : h.nextOf head = some first) {fuel : Nat}
    (hfuel : rest.length + 1 < fuel) :
    freeEach bad head fuel x n h = some (.ok fun a => if a ∈ x :: rest then none else h a) := by
  obtain ⟨fuel, rfl⟩ : ∃ k, fuel = k + 1 := ⟨fuel - 1, by omega⟩
  have hne : x ≠ head := fun heq => (List.nodup_cons.mp hnodup).1 (heq ▸ List.mem_cons_self)
  have hfirst' : (h.free x).nextOf head = some first := by rw [Heap.nextOf, Heap.free_of_ne hne.symm]; exact hfirst
  induction rest generalizing x n h fuel with
  | nil =>
    obtain ⟨fuel, rfl⟩ : ∃ k, fuel = k + 1 := ⟨fuel - 1, by rw [List.length_nil] at hfuel; omega⟩
    obtain rfl : n = head := Option.some.inj (hn.symm.trans hpath)
    rw [freeEach_turn hne (isSome_of_nextOf hn) hfirst', freeEach, if_pos rfl]
    refine congrArg (fun g => some (Except.ok g)) (funext fun a => ?_)
    simp only [List.mem_singleton, Heap.free, Function.update_apply]
  | cons y rest ih =>
    obtain ⟨hy, hpath⟩ := hpath
    obtain rfl : n = y := Option.some.inj (hn.symm.trans hy)
    obtain ⟨fuel, rfl⟩ : ∃ k, fuel = k + 1 := ⟨fuel - 1, by omega⟩
    rw [List.length_cons] at hfuel
    have hx : x ∉ n :: rest := (List.nodup_cons.mp (List.nodup_cons.mp hnodup).2).1
    have hkept {a : ι} (ha : a ∈ n :: rest) : (h.free x).nextOf a = h.nextOf a := by
      have hax : a ≠ x := fun heq => hx (heq ▸ ha)
      rw [Heap.nextOf, Heap.free_of_ne hax, Heap.nextOf]
    have hpath' : Path (h.free x).nextOf n rest head := hpath.congr (fun a ha => hkept ha)
    have hnodup' : (head :: n :: rest).Nodup := hnodup.sublist (List.Sublist.cons_cons _ (List.sublist_cons_self _ _))
    obtain ⟨m, hm⟩ : ∃ m, h.nextOf n = some m := by
      cases rest with
      | nil => exact ⟨_, hpath⟩
      | cons z rest => exact ⟨z, hpath.1⟩
    have hm' : (h.free x).nextOf n = some m := (hkept List.mem_cons_self).trans hm
    have hne' : n ≠ head := fun heq => (List.nodup_cons.mp hnodup').1 (heq ▸ List.mem_cons_self)
    have hfirst'' : ((h.free x).free n).nextOf head = some first := by
      rw [Heap.nextOf, Heap.free_of_ne hne'.symm]
      exact hfirst'
    rw [freeEach_turn hne (isSome_of_nextOf hn) hm', ih hpath' hm' hnodup' hfirst' fuel (by omega) hne' hfirst'']
    refine congrArg (fun g => some (Except.ok g)) (funext fun a => ?_)
    by_cases ha : a = x
    · simp [ha, Heap.free]
    · simp only [List.mem_cons, ha, false_or, Heap.free_of_ne ha]

/-- Freeing all objects of a ring: each is there when its turn comes, and nothing is read
that has been freed. -/
theorem Ring.freeEach (hr : Ring h head xs) {first n : ι} (hfirst : h.nextOf head = some first)
    (hn : h.nextOf first = some n) {fuel : Nat} (hfuel : xs.length < fuel) :
    Rings.freeEach bad head fuel first n h = some (.ok fun a => if a ∈ xs then none else h a) := by
  cases xs with
  | nil =>
    obtain ⟨fuel, rfl⟩ : ∃ k, fuel = k + 1 := ⟨fuel - 1, by omega⟩
    obtain rfl : first = head := Option.some.inj (hfirst.symm.trans hr.seg.1)
    rw [Rings.freeEach, if_pos rfl]
    refine congrArg (fun g => some (Except.ok g)) (funext fun a => ?_)
    rw [if_neg List.not_mem_nil]
  | cons x rest =>
    obtain rfl : first = x := Option.some.inj (hfirst.symm.trans hr.seg.1.1)
    exact freeEach_path hr.seg.2.forwards hn hr.nodup hfirst hfuel

end

end Library.Rings
