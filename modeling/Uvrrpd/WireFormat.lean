import Uvrrpd.AdvFormat
import Uvrrpd.Rfc

/-! The frame that start-up builds, octet for octet: against the encoding of the RFC,
and against the old contents of the memory it is built in. In both respects it is
the room for the authentication data that goes wrong. -/
namespace Uvrrpd

private theorem Config.vips_fit (c : Config) :
    (c.vips.reverse.map (fun vip => vip.ipx.octets c.family)).length < 256 := by
  have hle := c.vips_le
  rw [List.length_map, List.length_reverse]
  rw [VIP_MAX] at hle
  omega

private theorem Config.interval_fits (c : Config) (hfit : c.version = .rfc3768 → c.advInt.toNat ≤ 255) :
    c.advInt.toNat < match c.version with
      | .rfc3768 => 256
      | .rfc5798 => 4096 := by
  have hle := c.advInt_le
  cases hv : c.version with
  | rfc3768 => exact Nat.lt_succ_of_le (hfit hv)
  | rfc5798 => exact Nat.lt_succ_of_le hle

private theorem Config.auth_fits (c : Config) : (c.password.getD []).length ≤ 8 := by
  cases hp : c.password with
  | none => exact Nat.zero_le _
  | some password => exact c.password_le password hp

def Config.advertisement (c : Config) (hfit : c.version = .rfc3768 → c.advInt.toNat ≤ 255) :
    Advertisement where
  version := c.version
  family := c.family
  vrid := c.vrid
  priority := c.priority
  addrs := c.vips.reverse.map (fun vip => vip.ipx.octets c.family)
  interval := c.advInt.toNat
  authType := c.authType.code
  auth := c.password.getD []
  saddr := c.vif.ipx.octets c.family
  daddr := vrrpGroup c.family
  count_fits := c.vips_fit
  interval_fits := c.interval_fits hfit
  auth_fits := c.auth_fits

/-- The code's pseudo-header is the one of the RFC, where the RFC has the combination. -/
theorem pseudo_eq_rfc {family : Family} {version : VrrpVersion} (hv : version = .rfc3768 → family = .inet)
    (s d : Octets) {len : Nat} (hlen : len < 65536) :
    pseudo family version s d len = rfcPseudo version family s d len := by
  cases version with
  | rfc3768 =>
    rw [hv rfl]
    rfl
  | rfc5798 =>
    cases family with
    | inet => rfl
    | inet6 =>
      rw [pseudo, rfcPseudo, Nat.div_eq_of_lt hlen, Nat.mod_eq_of_lt hlen]
      simp only [List.append_assoc]
      rfl

section Conformance
variable {c : Config} (hfit : c.version = .rfc3768 → c.advInt.toNat ≤ 255) (adv : Frame) (ctrl : VrrpCtrl)

private theorem header_eq (sum : Octets) (hs : sum.length = 2) :
    ((advHdr (c.vnet adv) (c.vrrp ctrl)).withChksum sum).octets = (c.advertisement hfit).header sum := by
  obtain ⟨a, b, rfl⟩ : ∃ a b, sum = [a, b] := by
    match sum, hs with
    | [a, b], _ => exact ⟨a, b, rfl⟩
  have hcount : c.naddr = UInt8.ofNat (c.advertisement hfit).addrs.length := by
    rw [Config.naddr, Config.advertisement, List.length_map, List.length_reverse]
  have hv : (c.vrrp ctrl).version = c.version := rfl
  have hn : (c.vrrp ctrl).naddr = c.naddr := rfl
  have hva : (c.advertisement hfit).version = c.version := rfl
  simp only [Vrrphdr.octets, Vrrphdr.withChksum, advHdr, Advertisement.header, hv, hva, hn, hcount]
  cases c.version <;> rfl

/-- Whatever stands behind the addresses, the builder writes the header, the addresses
and the checksum of the RFC. -/
private theorem advPayload_assemble (hv : c.version = .rfc3768 → c.family = .inet) {tail : Octets}
    (hfill : Fills (c.vnet adv) tail) :
    advPayload (c.vnet adv) (c.vrrp ctrl) tail = (c.advertisement hfit).assemble tail := by
  obtain ⟨body, hbody⟩ : ∃ body, body = (c.advertisement hfit).addrs.flatten ++ tail := ⟨_, rfl⟩
  have hrest : vipOctets c.family c.vips.reverse ++ tail = body := by
    rw [hbody, vipOctets, List.flatMap_def]
    rfl
  have hreset : (advHdr (c.vnet adv) (c.vrrp ctrl)).reset.octets = (c.advertisement hfit).header [0, 0] :=
    header_eq hfit adv ctrl [0, 0] rfl
  have hlen : ((c.advertisement hfit).header [0, 0] ++ body).length = advGetsize (c.vnet adv) := by
    rw [← hfill, List.length_append, Advertisement.header_length _ rfl, ← hrest, List.length_append,
      vipOctets_length, List.length_reverse, Nat.add_assoc]
    rfl
  have hsum : packetChecksum c.family c.version (c.vif.ipx.octets c.family) (vrrpGroup c.family)
      (advGetsize (c.vnet adv)) (advHdr (c.vnet adv) (c.vrrp ctrl)) body =
      rfcChecksum c.version c.family (c.vif.ipx.octets c.family) (vrrpGroup c.family)
        ((c.advertisement hfit).header [0, 0] ++ body) := by
    have hlt := advGetsize_lt (c.vnet adv)
    rw [packetChecksum, hreset, ← hlen, List.take_length, pseudo_eq_rfc hv _ _ (by omega)]
    rfl
  calc advPayload (c.vnet adv) (c.vrrp ctrl) tail
      = ((advHdr (c.vnet adv) (c.vrrp ctrl)).withChksum (packetChecksum c.family c.version
          (c.vif.ipx.octets c.family) (vrrpGroup c.family) (advGetsize (c.vnet adv))
          (advHdr (c.vnet adv) (c.vrrp ctrl)) body)).octets ++ body := by rw [← hrest]; rfl
    _ = (c.advertisement hfit).header (rfcChecksum c.version c.family (c.vif.ipx.octets c.family)
          (vrrpGroup c.family) ((c.advertisement hfit).header [0, 0] ++ body)) ++ body := by
        rw [hsum, header_eq hfit adv ctrl _ rfl]
    _ = (c.advertisement hfit).assemble tail := by rw [hbody]; rfl

end Conformance

/-- In memory of one value, that value follows the password. -/
private theorem authTail_filled (value : UInt8) (vnet : VrrpNet) (vrrp : Vrrp) :
    authTail (fun _ => value) vnet vrrp = authField vrrp ++ List.replicate (advGetsize vnet -
      (VRRP_PKTHDR_SIZE + vnet.vipList.length * vnet.family.addrSize) - (authField vrrp).length) value := by
  rw [authTail, List.map_const', List.length_range, List.drop_replicate, List.drop_replicate]

/-- The room behind the addresses: eight octets in IPv4, none in IPv6. -/
private theorem tail_room (c : Config) (adv : Frame) :
    advGetsize (c.vnet adv) - (VRRP_PKTHDR_SIZE + c.vips.length * c.family.addrSize) =
      match c.family with
      | .inet => VRRP_AUTH_SIZE
      | .inet6 => 0 := by
  have hn : (c.vnet adv).naddr.toNat = c.vips.length := c.naddr_toNat
  have hf : (c.vnet adv).family = c.family := rfl
  rw [advGetsize, hf]
  cases c.family <;> simp only [vrrpIp4Getsize, vrrpIp6Getsize, hn, Family.addrSize] <;> omega

/-- The password field of a configuration. -/
private theorem authField_config (c : Config) (ctrl : VrrpCtrl) :
    authField (c.vrrp ctrl) = match c.version with
      | .rfc3768 => c.password.getD []
      | .rfc5798 => [] := by
  have hv : (c.vrrp ctrl).version = c.version := rfl
  have ht : (c.vrrp ctrl).authType = c.authType := rfl
  have hd : (c.vrrp ctrl).authData = c.password := rfl
  rw [authField, hv, ht, hd, Config.authType]
  cases c.version <;> cases c.password <;> rfl

/-- Behind the addresses of a zero-filled buffer stands what the RFC wants there,
except in version 3 over IPv4. -/
private theorem authTail_trailer {c : Config} (hv : c.version = .rfc3768 → c.family = .inet)
    (hfit : c.version = .rfc3768 → c.advInt.toNat ≤ 255) (adv : Frame) (ctrl : VrrpCtrl) :
    authTail (fun _ => 0) (c.vnet adv) (c.vrrp ctrl) = (c.advertisement hfit).trailer ↔
      ¬ (c.version = .rfc5798 ∧ c.family = .inet) := by
  have htrailer : (c.advertisement hfit).trailer = match c.version with
      | .rfc3768 => c.password.getD [] ++ List.replicate (8 - (c.password.getD []).length) 0
      | .rfc5798 => [] := rfl
  have htail : authTail (fun _ => 0) (c.vnet adv) (c.vrrp ctrl) = authField (c.vrrp ctrl) ++
      List.replicate ((match c.family with
        | .inet => VRRP_AUTH_SIZE
        | .inet6 => 0) - (authField (c.vrrp ctrl)).length) 0 := by
    rw [authTail_filled, ← tail_room c adv]
    rfl
  rw [htail, htrailer, authField_config]
  cases hver : c.version with
  | rfc3768 => simp [hv hver, VRRP_AUTH_SIZE]
  | rfc5798 => cases c.family <;> simp [VRRP_AUTH_SIZE]

/-- The payload that start-up builds in zero-filled memory is the encoding of the RFC
in version 2 and in version 3 over IPv6; over IPv4 version 3 is sent with eight more
octets, which the length in the pseudo-header counts too. -/
theorem payload_conforms_iff (host : ByteOrder) {c : Config} (hv : c.version = .rfc3768 → c.family = .inet)
    (hfit : c.version = .rfc3768 → c.advInt.toNat ≤ 255) {fresh : Fresh} (heth : fresh.mem.eth ≠ none)
    (hip : fresh.mem.ip ≠ none) (hzero : fresh.mem.data = some (fun _ => 0)) :
    ∃ d, boot host c fresh = .ok (some d) ∧
      (d.vnet.adv.data = some (c.advertisement hfit).encode ↔ ¬ (c.version = .rfc5798 ∧ c.family = .inet)) := by
  have hauth : c.AuthFits := by
    cases hver : c.version with
    | rfc3768 => exact .inl (hv hver)
    | rfc5798 => exact .inr (.inl hver)
  obtain ⟨d, hboot⟩ := boot_ok host c hauth fresh heth hip (by simp [hzero])
  refine ⟨d, hboot, ?_⟩
  obtain ⟨contents, hm, rfl, hprep⟩ := boot_frame hboot
  obtain rfl := Option.some.inj (hzero.symm.trans hm)
  have hfill : Fills (c.vnet fresh.adv) (authTail (fun _ => 0) (c.vnet fresh.adv)
      (c.vrrp (vrrpCtrlInit fresh.words))) := by
    have h := authTail_fills (fun _ => 0) hprep
    exact h
  have hdata := advPayload_assemble hfit fresh.adv (vrrpCtrlInit fresh.words) hv hfill
  simp only [advFrame]
  rw [hdata, Option.some.injEq, Advertisement.encode, Advertisement.assemble_inj,
    authTail_trailer hv hfit]

theorem payload_conforms_lab : ∃ d, boot .little lab (.filled 0) = .ok (some d) ∧
    d.vnet.adv.data = some (lab.advertisement (by decide)).encode := by
  obtain ⟨d, hboot, hiff⟩ := @payload_conforms_iff .little lab (by decide) (by decide) (.filled 0)
    (by simp [Fresh.filled]) (by simp [Fresh.filled]) rfl
  exact ⟨d, hboot, hiff.mpr (by decide)⟩

/-- Version 3 over IPv4, built in zero-filled memory: 20 octets instead of 12. -/
theorem payload_conforms_not_lab3 :
    boot .little lab3 (.filled 0) = .ok (some lab3.daemon) ∧
    lab3.daemon.vnet.adv.data = some [0x31, 7, 100, 1, 0, 0x64, 0x05, 0xf0, 192, 0, 2, 10, 0, 0, 0, 0, 0, 0, 0, 0] ∧
    (lab3.advertisement (by decide)).encode = [0x31, 7, 100, 1, 0, 0x64, 0x05, 0xf8, 192, 0, 2, 10] :=
  ⟨boot_daemon (.inl rfl), by decide +kernel, by decide +kernel⟩

private theorem advPayload_inj {vnet : VrrpNet} {vrrp : Vrrp} {tail tail' : Octets}
    (h : advPayload vnet vrrp tail = advPayload vnet vrrp tail') : tail = tail' :=
  List.append_cancel_left (List.append_inj_right h rfl)

def Config.FillsPacket (c : Config) : Prop :=
  c.family = .inet6 ∨
    c.version = .rfc3768 ∧ ∃ password, c.password = some password ∧ password.length = VRRP_AUTH_PASS_LEN

/-- Then the octets there are those of the password. -/
private theorem authTail_filled_up {c : Config} (h : c.FillsPacket) (contents : Nat → UInt8) (adv : Frame)
    (ctrl : VrrpCtrl) (hfill : Fills (c.vnet adv) (authTail contents (c.vnet adv) (c.vrrp ctrl))) :
    authTail contents (c.vnet adv) (c.vrrp ctrl) = authField (c.vrrp ctrl) := by
  have hroom := tail_room c adv
  have hlen : (authTail contents (c.vnet adv) (c.vrrp ctrl)).length = match c.family with
      | .inet => VRRP_AUTH_SIZE
      | .inet6 => 0 := by
    rw [← hroom, ← hfill]
    exact (Nat.add_sub_cancel_left _ _).symm
  have hle : (authTail contents (c.vnet adv) (c.vrrp ctrl)).length ≤ (authField (c.vrrp ctrl)).length := by
    rcases h with hf | ⟨hv, password, hp, h8⟩
    · rw [hlen, hf]
      exact Nat.zero_le _
    · rw [hlen, authField_config, hv, hp, Option.getD_some, h8]
      cases c.family <;> decide
  rw [authTail] at hle ⊢
  rw [List.length_append] at hle
  exact List.append_right_eq_self.mpr (List.length_eq_zero_iff.mp (by omega))

/-- Otherwise there is room left behind the password. -/
private theorem authField_short {c : Config} (h : ¬ c.FillsPacket) (ctrl : VrrpCtrl) :
    c.family = .inet ∧ (authField (c.vrrp ctrl)).length < VRRP_AUTH_SIZE := by
  obtain ⟨hf, hshort⟩ := not_or.mp h
  refine ⟨?_, ?_⟩
  · cases hfam : c.family with
    | inet => rfl
    | inet6 => exact absurd hfam hf
  · rw [authField_config]
    cases hv : c.version with
    | rfc5798 =>
      simp only [List.length_nil]
      decide
    | rfc3768 =>
      cases hp : c.password with
      | none => decide
      | some password =>
        have hle := c.password_le password hp
        have hne : password.length ≠ VRRP_AUTH_PASS_LEN := fun h8 => hshort ⟨hv, password, hp, h8⟩
        simp only [Option.getD_some]
        exact lt_of_le_of_ne hle hne

/-- The frame does not show what the memory held exactly when the family is IPv6, or
version 2 sends a password of full length. -/
theorem frame_determined_iff (host : ByteOrder) (c : Config) :
    (∀ fresh fresh' d d', boot host c fresh = .ok (some d) → boot host c fresh' = .ok (some d') →
      d.vnet.adv = d'.vnet.adv) ↔ c.FillsPacket := by
  constructor
  · intro h
    by_contra hopen
    obtain ⟨hinet, hshort⟩ := authField_short hopen (vrrpCtrlInit (fun _ => .wild))
    have hroom : advGetsize (c.vnet ⟨none, none, none⟩) - (VRRP_PKTHDR_SIZE + c.vips.length *
        c.family.addrSize) = VRRP_AUTH_SIZE := by rw [tail_room, hinet]
    -- two start-ups on different memory
    have hboot (value : UInt8) := boot_ok host c (.inl hinet) (.filled value) (by simp [Fresh.filled])
      (by simp [Fresh.filled]) (by simp [Fresh.filled])
    obtain ⟨d, hd⟩ := hboot 0
    obtain ⟨d', hd'⟩ := hboot 1
    have hsame := congrArg Frame.data (h _ _ d d' hd hd')
    obtain ⟨contents, hm, rfl, -⟩ := boot_frame hd
    obtain ⟨contents', hm', rfl, -⟩ := boot_frame hd'
    obtain rfl := Option.some.inj hm
    obtain rfl := Option.some.inj hm'
    have htail := advPayload_inj (Option.some.inj hsame)
    rw [authTail_filled, authTail_filled] at htail
    have hreplicate := (List.replicate_inj.mp (List.append_cancel_left htail)).2
    rcases hreplicate with hzero | hne
    · have hgap : VRRP_AUTH_SIZE - (authField (c.vrrp (vrrpCtrlInit (fun _ => .wild)))).length = 0 := by
        rw [← hzero]
        exact congrArg (· - _) hroom.symm
      omega
    · exact absurd hne (by decide)
  · intro h fresh fresh' d d' hd hd'
    obtain ⟨contents, -, rfl, hprep⟩ := boot_frame hd
    obtain ⟨contents', -, rfl, hprep'⟩ := boot_frame hd'
    have hfill := authTail_fills contents hprep
    have hfill' := authTail_fills contents' hprep'
    have htail := authTail_filled_up h contents fresh.adv (vrrpCtrlInit fresh.words) hfill
    have htail' := authTail_filled_up h contents' fresh'.adv (vrrpCtrlInit fresh'.words) hfill'
    simp only [advFrame]
    rw [htail, htail', authField_config, authField_config]
    rfl

/-- Without a password, eight octets of the memory are sent. -/
theorem frame_shows_memory :
    (boot .little lab (.filled 0)).map (Option.map (fun d => d.vnet.adv.data)) = .ok (some (some
      [0x21, 7, 100, 1, 0, 1, 0xb8, 0xeb, 192, 0, 2, 10, 0, 0, 0, 0, 0, 0, 0, 0])) ∧
    (boot .little lab (.filled 1)).map (Option.map (fun d => d.vnet.adv.data)) = .ok (some (some
      [0x21, 7, 100, 1, 0, 1, 0xb4, 0xe7, 192, 0, 2, 10, 1, 1, 1, 1, 1, 1, 1, 1])) := by
  decide +kernel

end Uvrrpd
