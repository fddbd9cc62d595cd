import Uvrrpd.Library.Rings
import Uvrrpd.Startup

/-! The list of the VIPs as `list.h` keeps it: a circle of `struct vrrp_ip` on the heap,
closed by the member `vip_list` of `struct vrrp_net`. Elsewhere it is a list. -/
namespace Uvrrpd
open Library.Rings

def follow {α : Type} : Option α → Except Fault α
  | some a => .ok a
  | none => .error .badAccess

@[simp] theorem follow_some {α : Type} (a : α) : follow (some a) = .ok a := rfl

section
variable {ι δ : Type} [DecidableEq ι]

def INIT_LIST_HEAD (list : ι) (h : Heap ι δ) : Except Fault (Heap ι δ) := do
  let h ← follow (h.setNext list list)
  follow (h.setPrev list list)

def listAddBetween (new prev next : ι) (h : Heap ι δ) : Except Fault (Heap ι δ) := do
  let h ← follow (h.setPrev next new)
  let h ← follow (h.setNext new next)
  let h ← follow (h.setPrev new prev)
  follow (h.setNext prev new)

def listAddTail (new head : ι) (h : Heap ι δ) : Except Fault (Heap ι δ) := do
  listAddBetween new (← follow (h.prevOf head)) head h

/-- `list_for_each_entry_reverse`, whose turns read and write their object. -/
def listForEachEntryReverse {τ : Type} (head : ι) (turn : δ → τ → Except Fault (δ × τ)) (fuel : Nat) (h : Heap ι δ)
    (t : τ) : Option (Except Fault (Heap ι δ × τ)) :=
  match h.prevOf head with
  | none => some (.error .badAccess)
  | some last => forEach .badAccess head Node.prev turn fuel last h t

/-- `list_for_each_entry_safe`, whose turns free their object. -/
def listForEachEntrySafe (head : ι) (fuel : Nat) (h : Heap ι δ) : Option (Except Fault (Heap ι δ)) :=
  match h.nextOf head with
  | none => some (.error .badAccess)
  | some first =>
    match h.nextOf first with
    | none => some (.error .badAccess)
    | some n => freeEach .badAccess head fuel first n h

end

private theorem initListHead_spec {ι δ : Type} [DecidableEq ι] {h₀ : Heap ι δ} {head : ι} (hhead : (h₀ head).isSome) :
    ∃ h, INIT_LIST_HEAD head h₀ = .ok h ∧ Ring h head [] ∧ ∀ a ≠ head, h a = h₀ a := by
  obtain ⟨h₁, hset₁, hnext₁, hprev₁, -, hother₁⟩ := Heap.setNext_some (q := head) hhead
  obtain ⟨h₂, hset₂, hnext₂, hprev₂, -, hother₂⟩ := Heap.setPrev_some (q := head) ((hother₁ head).2.trans hhead)
  refine ⟨h₂, ?_, .empty ?_ ?_, fun a hne => by rw [(hother₂ a).1 hne, (hother₁ a).1 hne]⟩
  · rw [INIT_LIST_HEAD, hset₁]
    simp only [follow_some, ok_bind, hset₂]
  · rw [hnext₂, hnext₁, Function.update_self]
  · rw [hprev₂, Function.update_self]

/-- `list_add_tail` puts an object that is there, but not in the circle, in front of its head. -/
private theorem listAddTail_spec {ι δ : Type} [DecidableEq ι] {h : Heap ι δ} {head new : ι} {xs : List ι} {v : δ}
    {vs : List δ} (hr : Ring h head xs) (hl : Loads h xs vs) (hnew : new ∉ head :: xs) (hv : h.dataOf new = some v) :
    ∃ h', listAddTail new head h = .ok h' ∧ Ring h' head (xs ++ [new]) ∧ Loads h' (xs ++ [new]) (vs ++ [v]) ∧
      ∀ a ∉ head :: (xs ++ [new]), h' a = h a := by
  obtain ⟨last, hmem, hlast, -⟩ := hr.exists_last
  have hsome := hr.seg.isSome
  have hnew' : (h new).isSome := by
    obtain ⟨n, hn, -⟩ := Option.map_eq_some_iff.mp hv
    rw [hn]
    rfl
  obtain ⟨h₁, hset₁, hnext₁, hprev₁, hdata₁, hother₁⟩ :=
    Heap.setPrev_some (q := new) (hsome head List.mem_cons_self)
  obtain ⟨h₂, hset₂, hnext₂, hprev₂, hdata₂, hother₂⟩ := Heap.setNext_some (q := head) ((hother₁ new).2.trans hnew')
  obtain ⟨h₃, hset₃, hnext₃, hprev₃, hdata₃, hother₃⟩ :=
    Heap.setPrev_some (q := last) ((hother₂ new).2.trans ((hother₁ new).2.trans hnew'))
  obtain ⟨h₄, hset₄, hnext₄, hprev₄, hdata₄, hother₄⟩ := Heap.setNext_some (q := new)
    ((hother₃ last).2.trans ((hother₂ last).2.trans ((hother₁ last).2.trans (hsome last hmem))))
  refine ⟨h₄, ?_, hr.snoc hnew hlast ?_ ?_, ?_, ?_⟩
  · rw [listAddTail, hlast]
    simp only [follow_some, ok_bind, listAddBetween, hset₁, hset₂, hset₃, hset₄]
  · rw [hnext₄, hnext₃, hnext₂, hnext₁]
  · rw [hprev₄, hprev₃, hprev₂, hprev₁]
  · rw [Loads, hdata₄, hdata₃, hdata₂, hdata₁, List.map_append, List.map_append, hl, List.map_singleton, hv]
    rfl
  · intro a ha
    have hahead : a ≠ head := List.ne_of_not_mem_cons ha
    have hanew : a ≠ new := fun heq => ha (by rw [heq]; simp)
    have halast : a ≠ last := by
      rintro rfl
      rcases List.mem_cons.mp hmem with heq | hin
      · exact hahead heq
      · exact ha (List.mem_cons_of_mem _ (List.mem_append_left _ hin))
    rw [(hother₄ a).1 halast, (hother₃ a).1 hanew, (hother₂ a).1 hanew, (hother₁ a).1 hahead]

/-- The member `vip_list` of `struct vrrp_net` is a `struct list_head` without a VIP. -/
abbrev IpHeap (ι : Type) := Heap ι (Option VrrpIp)

/-- Where `malloc` puts the VIPs, and what it leaves in their links. -/
structure IpMemory (ι : Type) where
  addr : Nat → ι
  next : Nat → ι
  prev : Nat → ι

namespace IpHeap
variable {ι : Type} [DecidableEq ι]

def vrrpNetVipSet (sys : OptionCalls) (mem : IpMemory ι) (head : ι) (k : Nat) (family : Family) (ip : Octets)
    (h : IpHeap ι) : Except Fault (Bool × IpHeap ι) :=
  match sys.vip k with
  | none => .ok (false, h)
  | some vip => do
    let h := h.put (mem.addr k) ⟨mem.next k, mem.prev k, some vip⟩
    match fillVip sys family ip vip with
    | none => .ok (false, h.free (mem.addr k))
    | some vip => do
      let h ← follow (h.setData (mem.addr k) (some vip))
      let h ← listAddTail (mem.addr k) head h
      return (true, h)

def vipLoop (sys : OptionCalls) (mem : IpMemory ι) (head : ι) (family : Family) :
    Nat → List Octets → IpHeap ι → Except Fault (Bool × IpHeap ι)
  | _, [], h => .ok (true, h)
  | k, ip :: rest, h => do
    match ← vrrpNetVipSet sys mem head k family ip h with
    | (false, h) => return (false, h)
    | (true, h) => vipLoop sys mem head family (k + 1) rest h

def vipTurn {τ : Type} (turn : VrrpIp → τ → Except Fault (VrrpIp × τ)) (vip : Option VrrpIp) (t : τ) :
    Except Fault (Option VrrpIp × τ) := do
  let (vip, t) ← turn (← follow vip) t
  return (some vip, t)

def topologyTurn {α : Type} (build : α → VrrpIp → Except Fault (Bool × Frame)) (mem : Nat → α) (vip : VrrpIp)
    (t : Nat × Bool) : Except Fault (VrrpIp × Nat × Bool) := do
  let (ok, topology) ← build (mem t.1) vip
  return ({ vip with topology := topology }, t.1 + 1, ok)

def topologyInit (host : ByteOrder) (mem : Nat → NaAnswers) (vnet : VrrpNet) (head : ι) (fuel : Nat) (h : IpHeap ι) :
    Option (Except Fault (IpHeap ι × Nat × Bool)) :=
  match vnet.family with
  | .inet => listForEachEntryReverse head (vipTurn (topologyTurn (vrrpArpVip host vnet) (fun k => (mem k).toMallocs)))
      fuel h (0, false)
  | .inet6 => listForEachEntryReverse head (vipTurn (topologyTurn (vrrpNaVip host vnet) mem)) fuel h (0, false)

def vrrpNetCleanup (head : ι) (fuel : Nat) (h : IpHeap ι) : Option (Except Fault (IpHeap ι)) :=
  listForEachEntrySafe head fuel h

/-- The circle has these VIPs, and nothing else on the heap is other than before. -/
structure Represents (h₀ h : IpHeap ι) (head : ι) (xs : List ι) (vips : List VrrpIp) : Prop where
  ring : Ring h head xs
  loads : Loads h xs (vips.map some)
  others : ∀ a ∉ head :: xs, h a = h₀ a

variable {sys : OptionCalls} {mem : IpMemory ι} {head : ι} {h₀ h : IpHeap ι} {xs : List ι} {vips : List VrrpIp}

variable (sys) in
/-- A VIP is appended, or what was allocated for it is free again. -/
private theorem vrrpNetVipSet_spec {vnet : VrrpNet} (hrep : Represents h₀ h head xs vnet.vipList) {k : Nat}
    (hfree : h (mem.addr k) = none) (ip : Octets) :
    vrrpNetVipSet sys mem head k vnet.family ip h = .ok (false, h) ∧
        Uvrrpd.vrrpNetVipSet sys k vnet ip = (false, vnet) ∨
      ∃ h' vip, vrrpNetVipSet sys mem head k vnet.family ip h = .ok (true, h') ∧
        Uvrrpd.vrrpNetVipSet sys k vnet ip = (true, { vnet with vipList := vnet.vipList ++ [vip] }) ∧
        Represents h₀ h' head (xs ++ [mem.addr k]) (vnet.vipList ++ [vip]) := by
  rw [vrrpNetVipSet, Uvrrpd.vrrpNetVipSet]
  cases hvip : sys.vip k with
  | none => exact .inl ⟨rfl, rfl⟩
  | some junk =>
    rw [Option.bind_some]
    cases hfill : fillVip sys vnet.family ip junk with
    | none =>
      refine .inl ⟨?_, rfl⟩
      simp only [hfill, Heap.put, Heap.free, Function.update_idem]
      rw [← hfree, Function.update_eq_self]
    | some vip =>
      have hnew : mem.addr k ∉ head :: xs := fun hmem => by
        have hsome := hrep.ring.seg.isSome _ hmem
        rw [hfree] at hsome
        cases hsome
      obtain ⟨h₁, hput⟩ : ∃ h₁, h.put (mem.addr k) ⟨mem.next k, mem.prev k, some vip⟩ = h₁ := ⟨_, rfl⟩
      have hset : (h.put (mem.addr k) ⟨mem.next k, mem.prev k, some junk⟩).setData (mem.addr k) (some vip) =
          some h₁ := by
        rw [Heap.setData, Heap.put_self, ← hput, Heap.put, Heap.put, Option.map_some, Heap.put, Function.update_idem]
      have hsame {a : ι} (ha : a ≠ mem.addr k) : h₁ a = h a := by rw [← hput, Heap.put_of_ne _ ha]
      have hapart {a : ι} (ha : a ∈ head :: xs) : a ≠ mem.addr k := fun heq => hnew (heq ▸ ha)
      have hring : Ring h₁ head xs := hrep.ring.congr
        (fun a ha => by rw [Heap.nextOf, hsame (hapart ha), Heap.nextOf])
        (fun a ha => by rw [Heap.prevOf, hsame (hapart ha), Heap.prevOf])
      have hloads : Loads h₁ xs (vnet.vipList.map some) := hrep.loads.congr
        (fun a ha => by rw [Heap.dataOf, hsame (hapart (List.mem_cons_of_mem _ ha)), Heap.dataOf])
      have hload : h₁.dataOf (mem.addr k) = some (some vip) := by rw [← hput, Heap.dataOf, Heap.put_self]; rfl
      obtain ⟨h', hadd, hring', hloads', hothers⟩ := listAddTail_spec hring hloads hnew hload
      refine .inr ⟨h', vip, ?_, rfl, hring', ?_, ?_⟩
      · simp only [hfill, hset, follow_some, ok_bind, hadd]
        rfl
      · rw [List.map_append]
        exact hloads'
      · intro a ha
        rw [hothers a ha, hsame (fun heq => ha (by rw [heq]; simp))]
        exact hrep.others a (fun hmem => ha (by rw [← List.cons_append]; exact List.mem_append_left _ hmem))

variable (sys) in
/-- The operands are appended in their order, up to the first that is refused. -/
theorem vipLoop_spec {vnet : VrrpNet} {k : Nat} (hrep : Represents h₀ h head ((List.range k).map mem.addr) vnet.vipList)
    (hfresh : ∀ k, h₀ (mem.addr k) = none) (hinj : Function.Injective mem.addr) (hhead : (h₀ head).isSome)
    (ips : List Octets) :
    ∃ h' n, vipLoop sys mem head vnet.family k ips h = .ok ((Uvrrpd.vipLoop sys k ips vnet).1, h') ∧
      Represents h₀ h' head ((List.range n).map mem.addr) (Uvrrpd.vipLoop sys k ips vnet).2.vipList := by
  induction ips generalizing k vnet h with
  | nil => exact ⟨h, k, rfl, hrep⟩
  | cons ip rest ih =>
    have hnew : mem.addr k ∉ head :: (List.range k).map mem.addr := by
      intro hmem
      rcases List.mem_cons.mp hmem with heq | hmem
      · rw [← heq, hfresh k] at hhead
        cases hhead
      · obtain ⟨j, hj, heq⟩ := List.mem_map.mp hmem
        rw [hinj heq] at hj
        exact List.not_mem_range_self hj
    have hfree : h (mem.addr k) = none := (hrep.others _ hnew).trans (hfresh k)
    rw [vipLoop, Uvrrpd.vipLoop]
    rcases vrrpNetVipSet_spec sys hrep hfree ip with ⟨hset, hmodel⟩ | ⟨h₁, vip, hset, hmodel, hrep'⟩
    · rw [hset, hmodel, ok_bind]
      exact ⟨h, k, rfl, hrep⟩
    · rw [← List.map_singleton, ← List.map_append, ← List.range_succ] at hrep'
      rw [hset, hmodel, ok_bind]
      have hgrown : Represents h₀ h₁ head ((List.range (k + 1)).map mem.addr)
          ({ vnet with vipList := vnet.vipList ++ [vip] } : VrrpNet).vipList := hrep'
      exact ih hgrown

omit [DecidableEq ι] in
theorem Represents.length (hrep : Represents h₀ h head xs vips) : xs.length = vips.length := by
  have hlen := congrArg List.length hrep.loads
  rwa [List.length_map, List.length_map, List.length_map] at hlen

private theorem actAll_vipTurn {τ : Type} (turn : VrrpIp → τ → Except Fault (VrrpIp × τ)) (vips : List VrrpIp) (t : τ) :
    actAll (vipTurn turn) (vips.map some) t = (actAll turn vips t).map (fun r => (r.1.map some, r.2)) := by
  induction vips generalizing t with
  | nil => rfl
  | cons vip rest ih =>
    rw [List.map_cons]
    cases hturn : turn vip t with
    | error e =>
      have hvip : vipTurn turn (some vip) t = .error e := by
        rw [vipTurn]
        simp only [follow_some, ok_bind, hturn]
        rfl
      rw [actAll_error hvip, actAll_error hturn]
      rfl
    | ok r =>
      have hvip : vipTurn turn (some vip) t = .ok (some r.1, r.2) := by
        rw [vipTurn]
        simp only [follow_some, ok_bind, hturn]
        rfl
      rw [actAll_ok hvip, actAll_ok hturn, ih]
      cases actAll turn rest r.2 <;> rfl

/-- A loop backwards through the circle is a pass over the list in reverse. -/
private theorem listForEachEntryReverse_spec {τ : Type} (hrep : Represents h₀ h head xs vips)
    (turn : VrrpIp → τ → Except Fault (VrrpIp × τ)) (t : τ) {fuel : Nat} (hfuel : vips.length < fuel) :
    (∀ e, actAll turn vips.reverse t = .error e →
      listForEachEntryReverse head (vipTurn turn) fuel h t = some (.error e)) ∧
    ∀ vips' t', actAll turn vips.reverse t = .ok (vips', t') →
      ∃ h', listForEachEntryReverse head (vipTurn turn) fuel h t = some (.ok (h', t')) ∧
        Represents h₀ h' head xs vips'.reverse := by
  obtain ⟨last, -, hlast, -⟩ := hrep.ring.exists_last
  have hpass : Passes (vipTurn turn) h xs.reverse (vips.map some).reverse t
      (forEach .badAccess head Node.prev (vipTurn turn) fuel last h t) :=
    hrep.ring.forEach_prev hlast hrep.loads (by rw [hrep.length]; exact hfuel)
  rw [listForEachEntryReverse, hlast]
  constructor
  · intro e he
    refine hpass.error e ?_
    rw [← List.map_reverse, actAll_vipTurn, he]
    rfl
  · intro vips' t' hok
    have hrun : actAll (vipTurn turn) (vips.map some).reverse t = .ok (vips'.map some, t') := by
      rw [← List.map_reverse, actAll_vipTurn, hok]
      rfl
    obtain ⟨h', hloop, hloads, hnext, hprev, hothers⟩ := hpass.ok _ _ hrun
    refine ⟨h', hloop, hrep.ring.congr (fun a _ => congrFun hnext a) (fun a _ => congrFun hprev a), ?_, ?_⟩
    · have hrev := congrArg List.reverse hloads
      rwa [← List.map_reverse, ← List.map_reverse, List.reverse_reverse, ← List.map_reverse] at hrev
    · intro a ha
      rw [hothers a (fun hmem => ha (List.mem_cons_of_mem _ (List.mem_reverse.mp hmem))), hrep.others a ha]

private theorem actAll_topologyTurn {α : Type} (build : α → VrrpIp → Except Fault (Bool × Frame)) (mems : Nat → α)
    (vips : List VrrpIp) (k : Nat) (status : Bool) :
    actAll (topologyTurn build mems) vips (k, status) =
      (topologyLoop build mems k status vips).map (fun r => (r.2, k + vips.length, r.1)) := by
  induction vips generalizing k status with
  | nil => rfl
  | cons vip rest ih =>
    cases hbuild : build (mems k) vip with
    | error e =>
      have hturn : topologyTurn build mems vip (k, status) = .error e := by rw [topologyTurn, hbuild]; rfl
      rw [actAll_error hturn, topologyLoop, hbuild]
      rfl
    | ok r =>
      obtain ⟨ok, topology⟩ := r
      have hturn : topologyTurn build mems vip (k, status) = .ok ({ vip with topology := topology }, k + 1, ok) := by
        rw [topologyTurn, hbuild]
        rfl
      have hcount : k + 1 + rest.length = k + (rest.length + 1) := by omega
      rw [actAll_ok hturn, topologyLoop, hbuild, ih, List.length_cons, hcount]
      simp only [ok_bind]
      cases topologyLoop build mems (k + 1) ok rest <;> rfl

private theorem topologyLoop_heap {α : Type} {vnet : VrrpNet} (hrep : Represents h₀ h head xs vnet.vipList)
    (build : α → VrrpIp → Except Fault (Bool × Frame)) (mems : Nat → α) {fuel : Nat}
    (hfuel : vnet.vipList.length < fuel) :
    (∀ e, (do
      let (status, vips) ← topologyLoop build mems 0 false vnet.vipList.reverse
      return (status, { vnet with vipList := vips.reverse })) = .error e →
      listForEachEntryReverse head (vipTurn (topologyTurn build mems)) fuel h (0, false) = some (.error e)) ∧
    ∀ status vnet', (do
      let (status, vips) ← topologyLoop build mems 0 false vnet.vipList.reverse
      return (status, { vnet with vipList := vips.reverse })) = .ok (status, vnet') →
      ∃ h', listForEachEntryReverse head (vipTurn (topologyTurn build mems)) fuel h (0, false) =
          some (.ok (h', vnet.vipList.length, status)) ∧ Represents h₀ h' head xs vnet'.vipList := by
  obtain ⟨herror, hok⟩ := listForEachEntryReverse_spec hrep (topologyTurn build mems) (0, false) hfuel
  rw [actAll_topologyTurn, List.length_reverse, Nat.zero_add] at herror hok
  cases hloop : topologyLoop build mems 0 false vnet.vipList.reverse with
  | error e =>
    rw [hloop] at herror
    refine ⟨fun e' he => ?_, fun status vnet' hrun => (nomatch hrun)⟩
    rw [← Except.error.inj he]
    exact herror e rfl
  | ok r =>
    rw [hloop] at hok
    refine ⟨fun e he => (nomatch he), fun status vnet' hrun => ?_⟩
    obtain ⟨rfl, rfl⟩ := Prod.mk.inj (Except.ok.inj hrun)
    exact hok _ _ rfl

/-- The frames are built on the heap as in the list. -/
private theorem topologyInit_heap {host : ByteOrder} {answers : Nat → NaAnswers} {vnet : VrrpNet}
    (hrep : Represents h₀ h head xs vnet.vipList) {fuel : Nat} (hfuel : vnet.vipList.length < fuel) :
    (∀ e, Uvrrpd.topologyInit host answers vnet = .error e →
      topologyInit host answers vnet head fuel h = some (.error e)) ∧
    ∀ status vnet', Uvrrpd.topologyInit host answers vnet = .ok (status, vnet') →
      ∃ h', topologyInit host answers vnet head fuel h = some (.ok (h', vnet.vipList.length, status)) ∧
        Represents h₀ h' head xs vnet'.vipList := by
  rw [Uvrrpd.topologyInit, topologyInit]
  cases vnet.family with
  | inet => exact topologyLoop_heap hrep _ _ hfuel
  | inet6 => exact topologyLoop_heap hrep _ _ hfuel

/-- Each VIP is freed once, and nothing is read behind that. The heap is left as it was
before the first of them, but for the links of the head. -/
private theorem vrrpNetCleanup_spec (hrep : Represents h₀ h head xs vips) (hfresh : ∀ a ∈ xs, h₀ a = none) {fuel : Nat}
    (hfuel : vips.length < fuel) :
    ∃ h', vrrpNetCleanup head fuel h = some (.ok h') ∧ ∀ a ≠ head, h' a = h₀ a := by
  obtain ⟨first, hmem, hfirst⟩ := hrep.ring.exists_first
  obtain ⟨node, hnode⟩ := Option.isSome_iff_exists.mp (hrep.ring.seg.isSome first hmem)
  have hn : h.nextOf first = some node.next := by rw [Heap.nextOf, hnode]; rfl
  refine ⟨fun a => if a ∈ xs then none else h a, ?_, fun a hne => ?_⟩
  · rw [vrrpNetCleanup, listForEachEntrySafe, hfirst]
    simp only [hn]
    exact hrep.ring.freeEach hfirst hn (by rw [hrep.length]; exact hfuel)
  · simp only []
    split
    · next hmem => exact (hfresh a hmem).symm
    · next hmem => exact hrep.others a (fun hin => (List.mem_cons.mp hin).elim hne hmem)

end IpHeap

open IpHeap

/-- The list of the VIPs on the heap, over its whole life. `vrrp_net_init` and the operands
make a circle of the VIPs that the list has, and a refused operand leaves nothing behind.
Any loop backwards through a circle for a list is a pass over the list in reverse, to a
circle for what that comes to; so are the loops that build the frames. No loop leaves the
circle or goes on forever; and the one in `vrrp_net_cleanup` frees every VIP once, reads
nothing that is free, and leaves the heap as it was but for the links of its head. -/
theorem vip_list_life {ι : Type} [DecidableEq ι] (sys : OptionCalls) {mem : IpMemory ι} {head : ι} {h₀ : IpHeap ι}
    (hhead : (h₀ head).isSome) (hfresh : ∀ k, h₀ (mem.addr k) = none) (hinj : Function.Injective mem.addr)
    {vnet vnet₁ : VrrpNet} {ok : Bool} (hempty : vnet.vipList = []) (ips : List Octets)
    (hmodel : vipLoop sys 0 ips vnet = (ok, vnet₁)) :
    ∃ h h₁ xs, INIT_LIST_HEAD head h₀ = .ok h ∧ IpHeap.vipLoop sys mem head vnet.family 0 ips h = .ok (ok, h₁) ∧
      Represents h₀ h₁ head xs vnet₁.vipList ∧
      ∀ h₂ vips, Represents h₀ h₂ head xs vips → ∀ fuel, vips.length < fuel →
        (∀ (τ : Type) (turn : VrrpIp → τ → Except Fault (VrrpIp × τ)) (t : τ),
          (∀ e, actAll turn vips.reverse t = .error e →
            listForEachEntryReverse head (vipTurn turn) fuel h₂ t = some (.error e)) ∧
          ∀ vips' t', actAll turn vips.reverse t = .ok (vips', t') →
            ∃ h₃, listForEachEntryReverse head (vipTurn turn) fuel h₂ t = some (.ok (h₃, t')) ∧
              Represents h₀ h₃ head xs vips'.reverse) ∧
        (∀ host answers vnet₂ status vnet₃, vnet₂.vipList = vips →
          topologyInit host answers vnet₂ = .ok (status, vnet₃) →
          ∃ h₃, IpHeap.topologyInit host answers vnet₂ head fuel h₂ = some (.ok (h₃, vips.length, status)) ∧
            Represents h₀ h₃ head xs vnet₃.vipList) ∧
        ∃ h₃, vrrpNetCleanup head fuel h₂ = some (.ok h₃) ∧ ∀ a ≠ head, h₃ a = h₀ a := by
  obtain ⟨h, hinit, hring, hothers⟩ := initListHead_spec hhead
  have hrep : Represents h₀ h head ((List.range 0).map mem.addr) vnet.vipList := by
    rw [hempty]
    exact ⟨hring, rfl, fun a ha => hothers a (List.ne_of_not_mem_cons ha)⟩
  obtain ⟨h₁, n, hloop, hrep₁⟩ := IpHeap.vipLoop_spec sys hrep hfresh hinj hhead ips
  rw [hmodel] at hloop hrep₁
  refine ⟨h, h₁, _, hinit, hloop, hrep₁, fun h₂ vips hrep₂ fuel hfuel => ⟨fun τ turn t => ?_, ?_, ?_⟩⟩
  · exact listForEachEntryReverse_spec hrep₂ turn t hfuel
  · rintro host answers vnet₂ status vnet₃ rfl hrun
    exact (topologyInit_heap hrep₂ hfuel).2 status vnet₃ hrun
  · refine vrrpNetCleanup_spec hrep₂ (fun a ha => ?_) hfuel
    obtain ⟨k, -, rfl⟩ := List.mem_map.mp ha
    exact hfresh k

/-- `192.0.2.20 eth0`: the second operand is refused, the first is there, and is freed. -/
theorem vip_list_life_lab :
    let mem : IpMemory Nat := ⟨Nat.succ, fun _ => 0, fun _ => 0⟩
    let h₀ : IpHeap Nat := fun a => if a = 0 then some ⟨0, 0, none⟩ else none
    ∃ h h₁ x h₃, INIT_LIST_HEAD 0 h₀ = .ok h ∧
      IpHeap.vipLoop labCalls.toOptionCalls mem 0 .inet 0 [labVip, labIfname] h = .ok (false, h₁) ∧
      Ring h₁ 0 [x] ∧ vrrpNetCleanup 0 2 h₁ = some (.ok h₃) ∧ h₃ x = none := by
  intro mem h₀
  have hfresh : ∀ k, h₀ (mem.addr k) = none := fun k => if_neg (Nat.succ_ne_zero k)
  obtain ⟨vnet₁, hmodel, hone⟩ : ∃ vnet₁, vipLoop labCalls.toOptionCalls 0 [labVip, labIfname]
      (vrrpNetInit ⟨none, none, none⟩) = (false, vnet₁) ∧ vnet₁.vipList.length = 1 := ⟨_, rfl, rfl⟩
  obtain ⟨h, h₁, xs, hinit, hloop, hrep, hlater⟩ := vip_list_life labCalls.toOptionCalls
    (show (h₀ 0).isSome from rfl) hfresh (fun _ _ => Nat.succ.inj)
    (show (vrrpNetInit ⟨none, none, none⟩).vipList = [] from rfl) [labVip, labIfname] hmodel
  obtain ⟨x, rfl⟩ : ∃ x, xs = [x] := List.length_eq_one_iff.mp (hrep.length.trans hone)
  obtain ⟨h₃, hfreed, hsame⟩ := (hlater h₁ _ hrep 2 (by omega)).2.2
  have hne : x ≠ 0 := fun heq => (List.nodup_cons.mp hrep.ring.nodup).1 (by simp [heq])
  refine ⟨h, h₁, x, h₃, hinit, hloop, hrep.ring, hfreed, ?_⟩
  rw [hsame x hne]
  exact if_neg hne

end Uvrrpd
