import Uvrrpd.Exec
import Uvrrpd.Packet
import Uvrrpd.Words

/-! The arguments of the hook. A buffer holds a text and zeros behind it, which is what
the second `strlen` of the loop over the VIPs relies on. -/
namespace Uvrrpd
open Library.Memory (bind_eq_ok)

def argBuffer (text : Octets) : Octets := text ++ List.replicate (SCRIPT_ARG_MAX - text.length) 0

def joined (text next : Octets) : Octets := if text = [] then next else text ++ 0x2c :: next

structure Texts (inetNtop : Family → Octets → Octets) : Prop where
  length : ∀ family addr, (inetNtop family addr).length < INET6_ADDRSTRLEN
  nul : ∀ family addr, 0 ∉ inetNtop family addr

/-- The array is there with all its buffers, and the one for the VIPs is all zero
behind its text. -/
structure UsableArgv (argv : List Octets) : Prop where
  count : argv.length = SCRIPT_NARGS - 1
  size : ∀ i < SCRIPT_NARGS - 1, ∃ buf, argv[i]? = some buf ∧ buf.length = SCRIPT_ARG_MAX
  vips : ∃ text, 0 ∉ text ∧ text.length < SCRIPT_ARG_MAX ∧ argv[SCRIPT_NARGS - 2]? = some (argBuffer text)

theorem argBuffer_length {text : Octets} (h : text.length ≤ SCRIPT_ARG_MAX) :
    (argBuffer text).length = SCRIPT_ARG_MAX := by
  rw [argBuffer, List.length_append, List.length_replicate]
  omega

private theorem argBuffer_nul {text : Octets} (h : text.length < SCRIPT_ARG_MAX) :
    argBuffer (text ++ [0]) = argBuffer text := by
  obtain ⟨k, hk⟩ : ∃ k, SCRIPT_ARG_MAX - text.length = k + 1 := ⟨SCRIPT_ARG_MAX - text.length - 1, by omega⟩
  have hk' : SCRIPT_ARG_MAX - (text ++ [0]).length = k := by
    rw [List.length_append, List.length_singleton]
    omega
  rw [argBuffer, argBuffer, hk, hk', List.replicate_succ, List.append_assoc]
  rfl

theorem strlen_argBuffer {text : Octets} (hnul : 0 ∉ text) (h : text.length < SCRIPT_ARG_MAX) :
    strlen (argBuffer text) = .ok text.length := by
  obtain ⟨k, hk⟩ : ∃ k, SCRIPT_ARG_MAX - text.length = k + 1 := ⟨SCRIPT_ARG_MAX - text.length - 1, by omega⟩
  have hbuf : argBuffer text = text ++ 0 :: List.replicate k 0 := by rw [argBuffer, hk, List.replicate_succ]
  rw [strlen, if_pos (by rw [hbuf]; simp), hbuf, cstring, takeWhile_nul hnul]

private theorem store_argBuffer {text new : Octets} (h : text.length + new.length ≤ SCRIPT_ARG_MAX) :
    store (argBuffer text) text.length new = .ok (argBuffer (text ++ new)) := by
  refine store_eq_ok.mpr (Library.Memory.write_eq_some.mpr ⟨?_, ?_⟩)
  · rw [argBuffer_length (by omega)]
    exact h
  · have hdrop : (argBuffer text).drop (text.length + new.length) =
        List.replicate (SCRIPT_ARG_MAX - (text ++ new).length) 0 := by
      rw [argBuffer, ← List.drop_drop, List.drop_left, List.drop_replicate, List.length_append, Nat.sub_sub]
    rw [hdrop, argBuffer, argBuffer, List.take_left]

/-- One turn of the loop appends one text. -/
private theorem vipArg_spec {text next : Octets} (hnul : 0 ∉ text) (hlen : next.length < INET6_ADDRSTRLEN)
    (h : text.length + INET6_ADDRSTRLEN < SCRIPT_ARG_MAX) :
    vipArg next (argBuffer text) = .ok (argBuffer (joined text next)) := by
  rw [INET6_ADDRSTRLEN] at hlen h
  have hone (front : Octets) (hfront : 0 ∉ front) (hle : front.length ≤ text.length + 1) :
      (do snprintf (argBuffer front) (← strlen (argBuffer front)) (SCRIPT_ARG_MAX - text.length + 1) next) =
        Except.ok (argBuffer (front ++ next)) := by
    have htake : next.take (SCRIPT_ARG_MAX - text.length + 1 - 1) = next := List.take_of_length_le (by omega)
    rw [strlen_argBuffer hfront (by omega)]
    simp only [ok_bind, snprintf, htake]
    rw [store_argBuffer (by simp; omega), ← List.append_assoc, argBuffer_nul (by simp; omega)]
  rw [vipArg, strlen_argBuffer hnul (by omega), ok_bind]
  by_cases hnil : text = []
  · subst hnil
    simpa [joined] using hone [] (by simp) (by simp)
  · have hpos : text.length ≠ 0 := by simpa using hnil
    have hcomma := hone (text ++ [0x2c]) (by simpa using hnul) (by simp)
    rw [if_pos hpos, store_argBuffer (by simp; omega), ok_bind, joined, if_neg hnil]
    rw [List.append_assoc] at hcomma
    exact hcomma

private theorem joined_nul {text next : Octets} (hnul : 0 ∉ text) (hnext : 0 ∉ next) : 0 ∉ joined text next := by
  rw [joined]
  split
  · exact hnext
  · simp [hnul, hnext]

private theorem joined_length {text next : Octets} (hlen : next.length < INET6_ADDRSTRLEN) :
    (joined text next).length ≤ text.length + INET6_ADDRSTRLEN := by
  rw [joined]
  split
  · omega
  · rw [List.length_append, List.length_cons]
    omega

/-- The loop appends all texts, from any text on. -/
theorem vipsLoop_spec {texts : List Octets} {text : Octets} (hnul : 0 ∉ text)
    (htexts : ∀ next ∈ texts, 0 ∉ next ∧ next.length < INET6_ADDRSTRLEN)
    (h : text.length + INET6_ADDRSTRLEN * texts.length < SCRIPT_ARG_MAX) :
    texts.foldlM (fun buf text => vipArg text buf) (argBuffer text) = .ok (argBuffer (texts.foldl joined text)) ∧
      0 ∉ texts.foldl joined text ∧ (texts.foldl joined text).length < SCRIPT_ARG_MAX := by
  induction texts generalizing text with
  | nil => exact ⟨rfl, hnul, by simpa using h⟩
  | cons next rest ih =>
    obtain ⟨hnext, hlen⟩ := htexts next List.mem_cons_self
    rw [List.length_cons, Nat.mul_succ] at h
    have hjoin : (joined text next).length ≤ text.length + INET6_ADDRSTRLEN := joined_length hlen
    have hrest := ih (joined_nul hnul hnext) (fun t ht => htexts t (List.mem_cons_of_mem _ ht)) (by omega)
    rw [List.foldlM_cons, vipArg_spec hnul hlen (by omega), List.foldl_cons]
    exact hrest

/-- The argument with the VIPs, whatever it held before. -/
theorem vipsArg_spec {texts : List Octets} {text : Octets} (hnul : 0 ∉ text) (hlen : text.length < SCRIPT_ARG_MAX)
    (htexts : ∀ next ∈ texts, 0 ∉ next ∧ next.length < INET6_ADDRSTRLEN)
    (h : INET6_ADDRSTRLEN * texts.length < SCRIPT_ARG_MAX) :
    vipsArg texts (argBuffer text) = .ok (argBuffer (texts.foldl joined [])) ∧
      0 ∉ texts.foldl joined [] ∧ (texts.foldl joined []).length < SCRIPT_ARG_MAX := by
  have hwipe : store (argBuffer text) 0 (List.replicate text.length 0) = .ok (argBuffer []) := by
    refine store_eq_ok.mpr (Library.Memory.write_eq_some.mpr ⟨?_, ?_⟩)
    · rw [argBuffer_length (by omega), List.length_replicate]
      omega
    · rw [argBuffer, argBuffer, List.length_replicate, Nat.zero_add, List.drop_left, List.take_zero,
        List.nil_append, List.nil_append, List.length_nil, List.replicate_append_replicate]
      congr 1
      omega
  obtain ⟨hloop, hnul', hlen'⟩ := vipsLoop_spec (List.not_mem_nil (a := 0)) htexts (by simpa using h)
  refine ⟨?_, hnul', hlen'⟩
  rw [vipsArg, strlen_argBuffer hnul hlen, ok_bind, hwipe, ok_bind, hloop]

theorem UsableArgv.set {argv : List Octets} (h : UsableArgv argv) {i : Nat} {buf : Octets}
    (hsize : buf.length = SCRIPT_ARG_MAX)
    (hvips : i = SCRIPT_NARGS - 2 → ∃ text, 0 ∉ text ∧ text.length < SCRIPT_ARG_MAX ∧ buf = argBuffer text) :
    UsableArgv (argv.set i buf) where
  count := by rw [List.length_set, h.count]
  size := by
    intro j hj
    rw [List.getElem?_set]
    split
    · next heq =>
      subst heq
      rw [if_pos (by rw [h.count]; exact hj)]
      exact ⟨buf, rfl, hsize⟩
    · exact h.size j hj
  vips := by
    rw [List.getElem?_set]
    split
    · next heq =>
      obtain ⟨text, hnul, hlen, rfl⟩ := hvips heq
      rw [if_pos (by rw [h.count, heq]; decide)]
      exact ⟨text, hnul, hlen, rfl⟩
    · exact h.vips

private theorem store_fits {mem new : Octets} {i : Nat} (h : i + new.length ≤ mem.length) :
    ∃ out, store mem i new = .ok out ∧ out.length = mem.length := by
  refine ⟨_, store_eq_ok.mpr (Library.Memory.write_eq_some.mpr ⟨h, rfl⟩), ?_⟩
  rw [List.length_append, List.length_append, List.length_take, List.length_drop]
  omega

/-- One of the other arguments is printed. -/
private theorem printArg_spec {argv : List Octets} (h : UsableArgv argv) {i : Nat} (hi : i < SCRIPT_NARGS - 2)
    (text : Octets) : ∃ argv', printArg argv i text = .ok argv' ∧ UsableArgv argv' := by
  obtain ⟨buf, hbuf, hsize⟩ := h.size i (by omega)
  have hpos : 0 < SCRIPT_ARG_MAX := by decide
  have hfit : 0 + (text.take (SCRIPT_ARG_MAX - 1) ++ [0]).length ≤ buf.length := by
    rw [hsize, List.length_append, List.length_take, List.length_singleton]
    omega
  obtain ⟨buf', hstore, hsize'⟩ := store_fits hfit
  refine ⟨argv.set i buf', ?_, h.set (hsize'.trans hsize) (fun heq => absurd heq (by omega))⟩
  rw [printArg, hbuf]
  simp only [deref, ok_bind, snprintf, hstore]
  rfl

structure HookFits (inetNtop : Family → Octets → Octets) (vnet : VrrpNet) : Prop where
  ifname : vnet.vif.ifname ≠ none
  count : vnet.vipList.length ≤ VIP_MAX
  texts : Texts inetNtop

/-- The texts of the VIPs fit one argument. -/
theorem HookFits.vips {inetNtop : Family → Octets → Octets} {vnet : VrrpNet} (h : HookFits inetNtop vnet) :
    (∀ next ∈ vnet.vipList.reverse.map (ipxToStr inetNtop vnet), 0 ∉ next ∧ next.length < INET6_ADDRSTRLEN) ∧
      INET6_ADDRSTRLEN * (vnet.vipList.reverse.map (ipxToStr inetNtop vnet)).length < SCRIPT_ARG_MAX := by
  constructor
  · intro next hmem
    obtain ⟨vip, -, rfl⟩ := List.mem_map.mp hmem
    exact ⟨h.texts.nul _ _, h.texts.length _ _⟩
  · have hle := h.count
    rw [List.length_map, List.length_reverse]
    simp only [VIP_MAX, INET6_ADDRSTRLEN, SCRIPT_ARG_MAX, NI_MAXHOST] at hle ⊢
    omega

/-- `vrrp_build_args` leaves a usable array usable, with the VIPs in its last argument. -/
theorem vrrpBuildArgs_spec {inetNtop : Family → Octets → Octets} {argv : List Octets} {vnet : VrrpNet}
    (h : UsableArgv argv) (hfits : HookFits inetNtop vnet) (scriptname : Octets) (vrrp : Vrrp) (state : VrrpState) :
    ∃ argv', vrrpBuildArgs inetNtop scriptname argv vrrp vnet state = .ok argv' ∧ UsableArgv argv' ∧
      argv'[SCRIPT_NARGS - 2]? =
        some (argBuffer ((vnet.vipList.reverse.map (ipxToStr inetNtop vnet)).foldl joined [])) := by
  obtain ⟨ifname, hif⟩ := Option.ne_none_iff_exists'.mp hfits.ifname
  obtain ⟨a₀, e₀, h⟩ := printArg_spec h (i := 0) (by decide) (scriptBasename scriptname)
  obtain ⟨a₁, e₁, h⟩ := printArg_spec h (i := 1) (by decide) (STR_STATE state)
  obtain ⟨a₂, e₂, h⟩ := printArg_spec h (i := 2) (by decide) (decimal vrrp.vrid.toNat)
  obtain ⟨a₃, e₃, h⟩ := printArg_spec h (i := 3) (by decide) ifname
  obtain ⟨a₄, e₄, h⟩ := printArg_spec h (i := 4) (by decide) (decimal vrrp.priority.toNat)
  obtain ⟨a₅, e₅, h⟩ := printArg_spec h (i := 5) (by decide) (decimal vrrp.advInt.toNat)
  obtain ⟨a₆, e₆, h⟩ := printArg_spec h (i := 6) (by decide) (decimal vrrp.naddr.toNat)
  obtain ⟨a₇, e₇, h⟩ := printArg_spec h (i := 7) (by decide) (decimal (familyDigit vnet.family))
  obtain ⟨text, hnul, hlen, hlast⟩ := h.vips
  obtain ⟨htexts, hcount⟩ := hfits.vips
  obtain ⟨hvips, hnul', hlen'⟩ := vipsArg_spec hnul hlen htexts hcount
  have hlist := h.set (i := SCRIPT_NARGS - 2) (argBuffer_length (Nat.le_of_lt hlen')) (fun _ => ⟨_, hnul', hlen', rfl⟩)
  refine ⟨_, ?_, hlist, ?_⟩
  · rw [vrrpBuildArgs, hif]
    simp only [deref, ok_bind, e₀, e₁, e₂, e₃, e₄, e₅, e₆, e₇, hlast, hvips]
    rfl
  · rw [List.getElem?_set_self (by rw [h.count]; decide)]

/-- The array is usable from the start. -/
theorem vrrpExecInit_usable {array : Bool} {buffers : Nat → Bool} {argv : List Octets}
    (h : vrrpExecInit array buffers = some argv) : UsableArgv argv := by
  rw [vrrpExecInit] at h
  split at h
  · obtain rfl := Option.some.inj h
    refine ⟨List.length_replicate, fun i hi => ⟨_, List.getElem?_replicate_of_lt hi, List.length_replicate⟩, ?_⟩
    refine ⟨[], by simp, by decide, ?_⟩
    rw [List.getElem?_replicate_of_lt (by decide)]
    rfl
  · cases h

end Uvrrpd
