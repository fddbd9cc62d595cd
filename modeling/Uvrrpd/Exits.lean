import Uvrrpd.Process

/-! Only `vrrp_listen` calls `exit`: reception and the control commands can fault
on a bad access but do not end the process by themselves. -/
namespace Uvrrpd
open Library.Memory

abbrev NoExit {α : Type} (x : Except Fault α) : Prop := Avoids .exitFailure x

private theorem noExit_ok {α : Type} (a : α) : NoExit (.ok a) := .ok a

private theorem noExit_pure {α : Type} (a : α) : NoExit (pure a) := .ok a

private theorem noExit_badAccess {α : Type} : NoExit (.error .badAccess : Except Fault α) :=
  .error (by decide)

private theorem noExit_load (mem : Octets) (i n : Nat) : NoExit (load mem i n) := by
  rw [load]
  split
  · exact noExit_ok _
  · exact noExit_badAccess

private theorem noExit_load8 (mem : Octets) (i : Nat) : NoExit (load8 mem i) := by
  rw [load8]
  split
  · exact noExit_ok _
  · exact noExit_badAccess

private theorem noExit_store (mem : Octets) (i : Nat) (new : Octets) : NoExit (store mem i new) := by
  rw [store]
  split
  · exact noExit_ok _
  · exact noExit_badAccess

private theorem noExit_load16 (host : ByteOrder) (mem : Octets) (i : Nat) :
    NoExit (load16 host mem i) :=
  (noExit_load8 _ _).bind (fun _ => (noExit_load8 _ _).bind (fun _ => noExit_pure _))

private theorem noExit_loadAddr (mem : Octets) (i n : Nat) : NoExit (loadAddr mem i n) := by
  rw [loadAddr]
  split
  · exact noExit_ok _
  · exact noExit_badAccess

private theorem noExit_loadHdr (mem : Octets) (i : Nat) : NoExit (loadHdr mem i) := by
  rw [loadHdr]
  repeat' refine Avoids.bind (noExit_load8 _ _) (fun _ => ?_)
  exact noExit_pure _

private theorem noExit_deref (iov : Iovec) : NoExit (deref iov) := by
  cases iov with
  | some mem => exact noExit_ok _
  | none => exact noExit_badAccess

private theorem noExit_cksumSum (host : ByteOrder) (mem : Octets) (n sum : Nat) :
    NoExit (cksumSum host mem n sum) := by
  fun_induction cksumSum host mem n sum with
  | case1 => exact noExit_ok _
  | case2 => exact noExit_ok _
  | case3 _ _ _ _ _ ih => exact ih
  | case4 => exact noExit_badAccess

private theorem noExit_cksum (host : ByteOrder) (mem : Octets) (n : Nat) : NoExit (cksum host mem n) :=
  (noExit_cksumSum _ _ _ _).bind (fun _ => noExit_pure _)

private theorem noExit_addrOr (addr : Option IpxAddr) (iph : Octets) (field : Nat) :
    NoExit (addrOr addr iph field) := by
  unfold addrOr
  split
  · split
    · exact noExit_load _ _ _
    · exact noExit_ok _
  · exact noExit_load _ _ _

private theorem noExit_ip6Addrs (vnet : VrrpNet) (s d : Option IpxAddr) :
    NoExit (ip6Addrs vnet s d) := by
  unfold ip6Addrs
  split
  · exact noExit_ok _
  · exact (noExit_deref _).bind (fun _ => (noExit_load _ _ _).bind (fun _ =>
      (noExit_load _ _ _).bind (fun _ => noExit_pure _)))

private theorem noExit_advChecksum (host : ByteOrder) (vnet : VrrpNet) (pkt : Octets)
    (s d : Option IpxAddr) : NoExit (advChecksum host vnet pkt s d) := by
  rw [advChecksum]
  split
  · refine (noExit_store _ _ _).bind (fun _ => (noExit_load8 _ _).bind (fun _ => ?_))
    split
    · exact (noExit_cksum _ _ _).bind (fun _ => noExit_pure _)
    split
    · refine (noExit_deref _).bind (fun _ => (noExit_addrOr _ _ _).bind (fun _ =>
        (noExit_addrOr _ _ _).bind (fun _ => (noExit_load8 _ _).bind (fun _ =>
        (noExit_load _ _ _).bind (fun _ => (noExit_cksum _ _ _).bind (fun _ => noExit_pure _))))))
    · exact noExit_pure _
  · exact (noExit_store _ _ _).bind (fun _ => (noExit_ip6Addrs _ _ _).bind (fun _ =>
      (noExit_load _ _ _).bind (fun _ => (noExit_cksum _ _ _).bind (fun _ => noExit_pure _))))

private theorem noExit_viplistCmpLoop (family : Family) (vips : List VrrpIp) (pkt : Octets)
    (left naddr ndiff : Nat) : NoExit (viplistCmpLoop family vips pkt left naddr ndiff) := by
  induction left generalizing naddr ndiff with
  | zero => exact noExit_ok _
  | succ left ih => exact (noExit_load _ _ _).bind (fun _ => ih _ _)

private theorem noExit_checkContent (vnet : VrrpNet) (vrrp : Vrrp) (hdr : Vrrphdr) (pkt : Octets) :
    NoExit (checkContent vnet vrrp hdr pkt) := by
  have hauth : NoExit (checkAuth vrrp hdr pkt) := by
    rw [checkAuth]
    split
    · exact noExit_ok _
    split
    · exact noExit_ok _
    split
    · exact (noExit_deref _).bind (fun _ => (noExit_load _ _ _).bind (fun _ => noExit_pure _))
    · exact noExit_ok _
  have hcmp : NoExit (vipCompare vnet pkt) := by
    rw [vipCompare]
    split <;> exact noExit_viplistCmpLoop _ _ _ _ _ _
  have hvips : NoExit (checkVips vnet vrrp hdr pkt) := by
    rw [checkVips, vipsDiffer]
    refine Avoids.bind ?_ (fun _ => noExit_pure _)
    split
    · exact noExit_ok _
    · exact hcmp.bind (fun _ => noExit_pure _)
  rw [checkContent]
  split
  · exact noExit_pure _
  refine hauth.bind (fun _ => ?_)
  split
  · exact noExit_pure _
  refine hvips.bind (fun _ => ?_)
  split <;> exact noExit_pure _

private theorem noExit_inspectPacket (host : ByteOrder) (vnet : VrrpNet) (vrrp : Vrrp) (pkt : Octets) :
    NoExit (inspectPacket host vnet vrrp pkt) := by
  refine (noExit_loadHdr _ _).bind (fun _ => ?_)
  split
  · exact noExit_pure _
  refine (noExit_load16 _ _ _).bind (fun _ => (noExit_advChecksum _ _ _ _ _).bind (fun _ => ?_))
  split
  split
  · exact noExit_pure _
  refine (noExit_store _ _ _).bind (fun _ => (noExit_checkContent _ _ _ _).bind (fun _ => ?_))
  split
  · exact (noExit_loadHdr _ _).bind (fun _ => noExit_pure _)
  · exact noExit_pure _

private theorem noExit_vrrpNetRecvBuf (host : ByteOrder) (vnet : VrrpNet) (vrrp : Vrrp) (sock : Option Datagram)
    (stack : Octets) : NoExit (vrrpNetRecvBuf host vnet vrrp sock stack) := by
  have hrecv : NoExit (pktReceive host vnet.family sock vnet.pkt stack) := by
    unfold pktReceive
    split
    · exact (noExit_load8 _ _).bind (fun _ => (noExit_load16 _ _ _).bind (fun _ =>
        (noExit_load8 _ _).bind (fun _ => (noExit_load8 _ _).bind (fun _ =>
        (noExit_loadAddr _ _ _).bind (fun _ => (noExit_loadAddr _ _ _).bind (fun _ =>
        noExit_pure _))))))
    · exact noExit_ok _
  refine hrecv.bind (fun _ => ?_)
  simp only
  split
  · exact noExit_pure _
  split
  · exact noExit_pure _
  split
  · exact noExit_pure _
  refine (noExit_inspectPacket _ _ _ _).bind (fun _ => ?_)
  split <;> exact noExit_pure _

private theorem noExit_chksumUpdate (host : ByteOrder) (vnet : VrrpNet) (pkt : Octets) :
    NoExit (chksumUpdate host vnet pkt) :=
  (noExit_advChecksum _ _ _ _ _).bind (fun _ => noExit_store _ _ _)

private theorem noExit_setPriority (host : ByteOrder) (vnet : VrrpNet) (prio : UInt8) :
    NoExit (vrrpAdvSetPriority host vnet prio) :=
  (noExit_deref _).bind (fun _ => (noExit_store _ _ _).bind (fun _ =>
    (noExit_chksumUpdate _ _ _).bind (fun _ => noExit_pure _)))

private theorem noExit_sendZero (host : ByteOrder) (vnet : VrrpNet) :
    NoExit (vrrpAdvSendZero host vnet) :=
  (noExit_deref _).bind (fun _ => (noExit_load8 _ _).bind (fun _ => (noExit_store _ _ _).bind
    (fun _ => (noExit_load _ _ _).bind (fun _ => (noExit_chksumUpdate _ _ _).bind (fun _ =>
    (noExit_store _ _ _).bind (fun _ => (noExit_store _ _ _).bind (fun _ => noExit_pure _)))))))

private theorem noExit_wordAt (ctrl : VrrpCtrl) (i : Nat) : NoExit (wordAt ctrl i) := by
  rw [wordAt]
  split
  · exact noExit_ok _
  · exact noExit_badAccess

private theorem noExit_vrrpCtrlRead (host : ByteOrder) (written : Octets) (vrrp : Vrrp) (vnet : VrrpNet)
    (reg : Reg) : NoExit (vrrpCtrlRead host written vrrp vnet reg) := by
  have hprio (nword : Nat) (vrrp : Vrrp) : NoExit (ctrlPrio host nword vrrp vnet reg) := by
    rw [ctrlPrio]
    split
    · exact noExit_pure _
    refine (noExit_wordAt _ _).bind (fun _ => ?_)
    split
    · exact noExit_pure _
    simp only
    split
    · exact (noExit_setPriority _ _ _).bind (fun _ => noExit_pure _)
    · exact noExit_pure _
  rw [vrrpCtrlRead, vrrpCtrlCmd]
  simp only
  split
  · exact noExit_ok _
  split
  · exact noExit_pure _
  refine (noExit_wordAt _ _).bind (fun _ => ?_)
  split
  · exact noExit_pure _
  split
  · exact noExit_pure _
  split
  · exact noExit_pure _
  split
  · exact hprio _ _
  · exact noExit_pure _

/-- With a running timer, listening does not exit. -/
private theorem noExit_vrrpListen (host : ByteOrder) (inp : Input) {d : Daemon}
    (h : runningTimer d.vrrp ≠ none) : NoExit (vrrpListen host inp d) := by
  rw [vrrpListen]
  split
  · next hn => exact absurd hn h
  simp only
  split
  · exact noExit_ok _
  split
  · exact noExit_ok _
  · exact noExit_ok _
  split
  · exact noExit_ok _
  rw [vrrpListenReady]
  split
  · exact (noExit_vrrpNetRecvBuf _ _ _ _ _).bind (fun _ => noExit_pure _)
  split
  · exact (noExit_vrrpCtrlRead _ _ _ _ _).bind (fun _ => noExit_pure _)
  · exact noExit_ok _

private theorem noExit_masterEvent (host : ByteOrder) (now : Option Timespec) (d : Daemon)
    (event : VrrpEvent) : NoExit (masterEvent host now d event) := by
  have hreload : NoExit (masterReload host d) := by
    rw [masterReload]
    simp only
    split
    · exact (noExit_sendZero _ _).bind (fun _ => noExit_pure _)
    · exact noExit_ok _
  cases event with
  | signal => exact hreload
  | ctrlFifo => exact hreload
  | timer => exact noExit_ok _
  | pkt => exact noExit_ok _
  | vridMismatch => exact noExit_ok _
  | invalid => exact noExit_ok _

/-- A call of `vrrp_process` exits only when it listens without a running timer. -/
theorem noExit_vrrpProcess (host : ByteOrder) (inp : Input) {d : Daemon}
    (h : d.vrrp.state = .init ∨ runningTimer d.vrrp ≠ none) : NoExit (vrrpProcess host inp d) := by
  rw [vrrpProcess, vrrpDispatch]
  cases hs : d.vrrp.state with
  | init => exact noExit_ok _
  | backup =>
    have hl := noExit_vrrpListen host inp (h.resolve_left (by rw [hs]; decide))
    exact Avoids.bind (hl.bind (fun _ => noExit_pure _)) (fun _ => noExit_pure _)
  | master =>
    have hl := noExit_vrrpListen host inp (h.resolve_left (by rw [hs]; decide))
    exact Avoids.bind (hl.bind (fun _ => noExit_masterEvent _ _ _ _)) (fun _ => noExit_pure _)
  | other value => exact noExit_ok _

end Uvrrpd
