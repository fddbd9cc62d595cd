import Uvrrpd.Lengths
import Uvrrpd.RoundTrip

/-! Routers of one virtual router with different passwords. The sender writes its
password without padding, the receiver compares as many octets as its own has, so a
password is told from another only where neither begins with the other. -/
namespace Uvrrpd
open Library.Memory (bind_eq_ok)
open Library.Runs

def Config.keyedAs (c c' : Config) : Config :=
  { c with
    password := c'.password
    password_le := c'.password_le
    password_text := c'.password_text }

/-- What a router sends: the frame in its buffer, or its resignation. -/
def Advertises (host : ByteOrder) (d : Daemon) (frame : Frame) : Prop :=
  frame = d.vnet.adv ∨ ∃ vnet, vrrpAdvSendZero host d.vnet = .ok (frame, vnet)

/-- Nothing that a router of the configuration sends is accepted, whatever the memory
held that its packets are built in. -/
def Refuses (host : ByteOrder) (d' : Daemon) (c : Config) : Prop :=
  ∀ host₁ fresh h d, History host₁ c fresh h d → ∀ frame, Advertises host₁ d frame →
    ∀ datagram, Delivers c.family frame datagram → ∀ (stack : List.Vector UInt8 IP_MAXPACKET) vnet,
      vrrpNetRecv host d'.vnet d'.vrrp (some datagram) stack.toList ≠ .ok (.pkt, vnet)

theorem Coherent.advertises {host : ByteOrder} {contents : Nat → UInt8} {d : Daemon} {frame : Frame}
    (hc : Coherent contents d) (h : Advertises host d frame) : ∃ prio, Announces contents d prio frame := by
  rcases h with rfl | ⟨vnet, hz⟩
  · exact ⟨_, hc.announces⟩
  · exact ⟨0, (hc.sendZero hz).2⟩

/-- The octets compared are those behind the addresses. -/
private theorem checkAuth_begins {vrrp : Vrrp} {hdr : Vrrphdr} {front tail password : Octets}
    (hv : vrrp.version = .rfc3768) (ht : vrrp.authType = .simple) (hp : vrrp.authData = some password)
    (hf : front.length = VRRP_PKTHDR_SIZE + vrrp.naddr.toNat * 4)
    (h : checkAuth vrrp hdr (front ++ tail) = .ok true) : password <+: tail := by
  rw [checkAuth, hv, ht, hp, ← hf] at h
  rw [if_neg (by decide)] at h
  split at h
  · simp at h
  next hcode =>
  rw [if_pos (not_not.mp hcode)] at h
  simp only [deref, ok_bind] at h
  obtain ⟨auth, hload, h⟩ := bind_eq_ok.mp h
  obtain rfl : auth = password := by simpa using h
  obtain ⟨-, htake⟩ := Library.Memory.read_eq_some.mp (load_eq_ok.mp hload)
  rw [List.drop_left] at htake
  rw [← htake]
  exact List.take_prefix _ _

private theorem authField_of_password {c : Config} {d : Daemon} {password : Octets} (hd : Configured c d)
    (hv : c.version = .rfc3768) (hp : c.password = some password) : authField d.vrrp = password := by
  simp only [authField, hd.version, hv, hd.authType, Config.authType, hd.authData, hp, Option.isSome_some,
    if_true]

/-- The password fits in the packet: there is no room for one in IPv6. -/
private theorem inet_of_password {c : Config} {d : Daemon} {password : Octets} (hd : Configured c d)
    (hprep : Prepared d.vnet d.vrrp) (hv : c.version = .rfc3768) (hp : c.password = some password)
    (hne : password ≠ []) : c.family = .inet := by
  have hauth := hprep.auth
  have hfield := authField_of_password hd hv hp
  cases hf : c.family with
  | inet => rfl
  | inet6 =>
    have hpos := List.length_pos_of_ne_nil hne
    rw [hfield, hprep.count, ← hprep.naddr, advGetsize, hd.family, hf] at hauth
    simp only [vrrpIp6Getsize, Family.addrSize] at hauth
    omega

/-- An accepted datagram was not longer than the MTU of its receiver. -/
private theorem length_le_mtu {host : ByteOrder} {vnet vnet' : VrrpNet} {vrrp : Vrrp} {sock : Option Datagram}
    {stack : Octets} {r : Received} {len : Nat} (hrec : pktReceive host vnet.family sock vnet.pkt stack = .ok r)
    (hlen : r.len = some len) (h : vrrpNetRecv host vnet vrrp sock stack = .ok (.pkt, vnet')) :
    (len : Int) ≤ vnet.vif.mtu := by
  obtain ⟨r', len', hr', hlen', hfit, -⟩ : LengthsPass host vnet sock stack := by
    by_contra hnot
    obtain ⟨_, hinv⟩ := vrrpNetRecv_lengths vrrp hrec hnot
    rw [hinv] at h
    simp at h
  obtain rfl := Except.ok.inj (hrec.symm.trans hr')
  obtain rfl := Option.some.inj (hlen.symm.trans hlen')
  exact Int.not_lt.mp (not_or.mp hfit).1

section Pair
variable {host host' : ByteOrder} {c c' : Config} {fresh fresh' : Fresh}
  {h h' : List (Entry Daemon Input Output)} {d d' : Daemon} {password password' : Octets}

/-- What the acceptance of a frame says about the two routers. -/
private theorem accepted_keys (run : History host c fresh h d) (run' : History host' c' fresh' h' d')
    (hshare : Shares (c.keyedAs c') c') (hv : c.version = .rfc3768) (hp : c.password = some password)
    (hp' : c'.password = some password') (hne : password ≠ password') {frame : Frame}
    (hadv : Advertises host d frame) {datagram : Datagram} (hdel : Delivers c.family frame datagram)
    {stack : Octets} {vnet : VrrpNet}
    (hr : vrrpNetRecv host' d'.vnet d'.vrrp (some datagram) stack = .ok (.pkt, vnet)) :
    (password <+: password' ∨ password' <+: password) ∧ c.family = .inet ∧
      d'.vrrp.priority ≠ PRIO_OWNER ∧ c.advInt.toNat ≤ 255 ∧
      ((IPHDR_SIZE + advGetsize d'.vnet : Nat) : Int) ≤ c'.vif.mtu := by
  obtain ⟨contents, -, hco⟩ := run.coherent
  obtain ⟨contents', -, hco'⟩ := run'.coherent
  have hcfg := run.configured
  have hcfg' := run'.configured
  have hver' : c'.version = .rfc3768 := hshare.version.trans hv
  have hfam' : c'.family = c.family := hshare.family
  -- one of the two passwords is not empty
  have hinet : c.family = .inet := by
    by_cases hnil : password = []
    · rw [← hfam']
      exact inet_of_password hcfg' hco'.prepared hver' hp' (fun h => hne (hnil.trans h.symm))
    · exact inet_of_password hcfg hco.prepared hv hp hnil
  obtain ⟨prio, hann⟩ := hco.advertises hadv
  rw [← hcfg.family] at hdel
  have hf : d'.vnet.family = d.vnet.family := by rw [hcfg'.family, hcfg.family, hfam']
  have hdinet : d.vnet.family = .inet := hcfg.family.trans hinet
  obtain ⟨r, sum, more, arrival, hrec, -, hhdr, hcontent⟩ := hann.accepted hco hdel hf hr
  obtain ⟨howner, hauth, -, hint⟩ := checkContent_true hcontent
  have hcount : c'.vips.length = c.vips.length := by
    have hl := hshare.vips.length_eq
    rwa [List.length_map, List.length_map] at hl
  refine ⟨?_, hinet, howner, ?_, ?_⟩
  · have hfront : (vnet.pkt.adv.octets ++ vipOctets d.vnet.family d.vnet.vipList.reverse).length =
        VRRP_PKTHDR_SIZE + d'.vrrp.naddr.toNat * 4 := by
      rw [List.length_append, Vrrphdr.octets_length, vipOctets_length, List.length_reverse, hcfg.vips,
        hcfg'.naddr, c'.naddr_toNat, hcount, hcfg.family, hinet]
      rfl
    rw [← List.append_assoc] at hauth
    have hpre := checkAuth_begins (by rw [hcfg'.version]; exact hver')
      (by rw [hcfg'.authType, Config.authType, hp']; rfl) (by rw [hcfg'.authData]; exact hp') hfront hauth
    rw [authTail, authField_of_password hcfg hv hp, List.append_assoc] at hpre
    exact List.prefix_or_prefix_of_prefix (List.prefix_append _ _) hpre
  · rw [hhdr] at hint
    have hle := (@checkAdvInt_own d.vnet { d.vrrp with priority := prio } d'.vrrp (by
      rw [hcfg'.advInt, hshare.advInt]
      exact hcfg.advInt)).mp hint
    rwa [hcfg'.advInt, hshare.advInt] at hle
  · have hmtu := length_le_mtu hrec (arrival.whole hdinet) hr
    have hg : advGetsize d'.vnet = advGetsize d.vnet := by
      apply advGetsize_congr hf
      rw [hcfg'.netNaddr, hcfg.netNaddr, Config.naddr, Config.naddr, hcount]
    have hlen := hann.frameLength hco
    rw [hdinet, Family.headerSize] at hlen
    rwa [hg, ← hlen, ← hcfg'.vif]

def holding (offset : Nat) (text : Octets) : Nat → UInt8 := fun i => text.getD (i - offset) 0

private theorem holding_begins {offset size : Nat} {text : Octets} (hl : offset + text.length ≤ size) :
    text <+: ((List.range size).map (holding offset text)).drop offset := by
  rw [List.prefix_iff_getElem?]
  intro i hi
  rw [List.getElem?_drop, List.getElem?_map, List.getElem?_range (by omega), Option.map_some, holding,
    Nat.add_sub_cancel_left, List.getD_eq_getElem?_getD,
    List.getElem?_eq_getElem hi, Option.getD_some]

/-- Over memory that begins with it, a password changes nothing. -/
private theorem authTail_begins {contents : Nat → UInt8} {vnet : VrrpNet} {vrrp : Vrrp}
    (hp : authField vrrp <+: ((List.range (advGetsize vnet)).map contents).drop
      (VRRP_PKTHDR_SIZE + vnet.vipList.length * vnet.family.addrSize)) :
    authTail contents vnet vrrp = ((List.range (advGetsize vnet)).map contents).drop
      (VRRP_PKTHDR_SIZE + vnet.vipList.length * vnet.family.addrSize) := by
  rw [authTail]
  exact List.prefix_iff_eq_append.mp hp

/-- So there the packet is also that of a router with any other such password. -/
private theorem Coherent.rekey {contents : Nat → UInt8} (hc : Coherent contents d)
    (hv : d.vrrp.version = .rfc3768) (ht : d.vrrp.authType = .simple) (hp : d.vrrp.authData = some password)
    (hmem : password <+: ((List.range (advGetsize d.vnet)).map contents).drop
      (VRRP_PKTHDR_SIZE + d.vnet.vipList.length * d.vnet.family.addrSize))
    (hmem' : password' <+: ((List.range (advGetsize d.vnet)).map contents).drop
      (VRRP_PKTHDR_SIZE + d.vnet.vipList.length * d.vnet.family.addrSize)) :
    Coherent contents { d with vrrp := { d.vrrp with authData := some password' } } := by
  have hfield : authField d.vrrp = password := by simp only [authField, hv, ht, hp]
  have hfield' : authField { d.vrrp with authData := some password' } = password' := by
    simp only [authField, hv, ht]
  have htail : authTail contents d.vnet { d.vrrp with authData := some password' } =
      authTail contents d.vnet d.vrrp := by
    rw [authTail_begins (by rw [hfield']; exact hmem'), authTail_begins (by rw [hfield]; exact hmem)]
  refine ⟨⟨hc.prepared.naddr, hc.prepared.count, hc.prepared.own, ?_⟩, ?_⟩
  · have hroom := hc.prepared.auth
    have hle := hmem'.length_le
    rw [List.length_drop, List.length_map, List.length_range] at hle
    simp only [hfield']
    omega
  · simp only [htail]
    exact hc.data

/-- A packet built in memory that begins with both passwords is accepted. -/
private theorem accepts_rekeyed (run : History host c fresh h d) (run' : History host' c' fresh' h' d')
    (hshare : Shares (c.keyedAs c') c') (hv : c.version = .rfc3768) (hp : c.password = some password)
    (hp' : c'.password = some password') (hinet : c.family = .inet)
    (howner : d'.vrrp.priority ≠ PRIO_OWNER) (hint : c.advInt.toNat ≤ 255)
    (hmtu : ((IPHDR_SIZE + advGetsize d'.vnet : Nat) : Int) ≤ c'.vif.mtu) {contents : Nat → UInt8}
    (hdata : fresh.mem.data = some contents)
    (hmem : password <+: ((List.range (advGetsize d.vnet)).map contents).drop
      (VRRP_PKTHDR_SIZE + d.vnet.vipList.length * d.vnet.family.addrSize))
    (hmem' : password' <+: ((List.range (advGetsize d.vnet)).map contents).drop
      (VRRP_PKTHDR_SIZE + d.vnet.vipList.length * d.vnet.family.addrSize)) (stack : Octets) :
    ∃ datagram vnet, Delivers c.family d.vnet.adv datagram ∧
      vrrpNetRecv host' d'.vnet d'.vrrp (some datagram) stack = .ok (.pkt, vnet) := by
  obtain ⟨contents', hdata', hco⟩ := run.coherent
  obtain rfl := Option.some.inj (hdata'.symm.trans hdata)
  obtain ⟨datagram, hdel⟩ := run.delivers
  have hcfg := run.configured
  have hv₁ : d.vrrp.version = .rfc3768 := hcfg.version.trans hv
  have ht₁ : d.vrrp.authType = .simple := by rw [hcfg.authType, Config.authType, hp]; rfl
  have hf₁ : d.vnet.family = .inet := hcfg.family.trans hinet
  have hco₂ := hco.rekey hv₁ ht₁ (by rw [hcfg.authData]; exact hp) hmem hmem'
  have hcfg₂ : Configured (c.keyedAs c') { d with vrrp := { d.vrrp with authData := some password' } } := by
    refine ⟨hcfg.version, hcfg.vrid, hcfg.naddr, hcfg.advInt, ?_, hp'.symm, hcfg.preempt, hcfg.netVrid,
      hcfg.vif, hcfg.vips, hcfg.family, hcfg.netNaddr⟩
    rw [Config.authType, Config.keyedAs, hp']
    exact ht₁
  have hagree := hshare.agrees hcfg₂ run'.configured
  have hg : advGetsize d'.vnet = advGetsize d.vnet := advGetsize_congr hagree.family hagree.netNaddr
  have hmax := (advGetsize_window d'.vnet run'.ready.pos).2.mpr (.inl (hagree.family.trans hf₁))
  rw [hg] at hmax hmtu
  obtain ⟨sum, vnet, hr, -⟩ := hagree.accept hco₂ hcfg₂.passworded (fun _ => hf₁)
    (by rw [hcfg.advInt]; exact hint) hmax howner run'.ready
    (fun s t _ _ => .of_version run'.ready.own hv₁ hf₁ s t) (by rw [hf₁, ← hinet]; exact hdel)
    (by
      rw [hco.announces.frameLength hco, hf₁, run'.configured.vif]
      exact hmtu) stack
  exact ⟨datagram, vnet, hdel, hr⟩

/-- Whichever of the two begins with the other, there is memory that makes the packet
pass: what the longer one has more is already there. -/
private theorem accepts_comparable (host : ByteOrder) (run' : History host' c' fresh' h' d')
    (hshare : Shares (c.keyedAs c') c') (hv : c.version = .rfc3768) (hp : c.password = some password)
    (hp' : c'.password = some password') (hpre : password <+: password' ∨ password' <+: password)
    (hinet : c.family = .inet) (howner : d'.vrrp.priority ≠ PRIO_OWNER) (hint : c.advInt.toNat ≤ 255)
    (hmtu : ((IPHDR_SIZE + advGetsize d'.vnet : Nat) : Int) ≤ c'.vif.mtu) (stack : Octets) :
    ∃ fresh d datagram vnet, History host c fresh [] d ∧ Delivers c.family d.vnet.adv datagram ∧
      vrrpNetRecv host' d'.vnet d'.vrrp (some datagram) stack = .ok (.pkt, vnet) := by
  obtain ⟨text, hl, htext, htext'⟩ : ∃ text : Octets, text.length ≤ VRRP_AUTH_PASS_LEN ∧
      password <+: text ∧ password' <+: text := by
    rcases hpre with hpre | hpre
    · exact ⟨password', c'.password_le _ hp', hpre, List.prefix_refl _⟩
    · exact ⟨password, c.password_le _ hp, List.prefix_refl _, hpre⟩
  obtain ⟨mem, hmem⟩ : ∃ mem, mem = holding (VRRP_PKTHDR_SIZE + c.vips.length * c.family.addrSize) text :=
    ⟨_, rfl⟩
  obtain ⟨fresh, hfresh⟩ : ∃ fresh : Fresh, fresh = ⟨⟨some (fun _ => 0), some (fun _ => 0), some mem⟩,
    fun _ => .null, ⟨none, none, none⟩⟩ := ⟨_, rfl⟩
  obtain ⟨d, hboot⟩ := boot_ok host c (.inl hinet) fresh (by simp [hfresh]) (by simp [hfresh])
    (by simp [hfresh])
  have run : History host c fresh [] d := ⟨d, hboot, .nil⟩
  have hroom : VRRP_PKTHDR_SIZE + c.vips.length * c.family.addrSize + text.length ≤ advGetsize d.vnet := by
    rw [advGetsize, run.configured.family, hinet]
    simp only [vrrpIp4Getsize, run.configured.netNaddr, c.naddr_toNat, Family.addrSize]
    simp only [VRRP_AUTH_PASS_LEN] at hl
    simp only [VRRP_AUTH_SIZE]
    omega
  have hold := holding_begins hroom
  rw [← hmem] at hold
  obtain ⟨datagram, vnet, hdel, hr⟩ := accepts_rekeyed run run' hshare hv hp hp' hinet howner hint hmtu
    (show fresh.mem.data = some mem by rw [hfresh])
    (by rw [run.configured.vips, run.configured.family]; exact htext.trans hold)
    (by rw [run.configured.vips, run.configured.family]; exact htext'.trans hold) stack
  exact ⟨fresh, d, datagram, vnet, run, hdel, hr⟩

/-- A router never accepts the advertisements of one that differs from it in its
password only, exactly when neither password begins with the other, or when it would
refuse any advertisement: version 2 does not run over IPv6, the owner heeds nobody,
the interval has to fit in an octet, and the frame in the MTU. -/
theorem passwords_separate_iff (run' : History host' c' fresh' h' d') (hshare : Shares (c.keyedAs c') c')
    (hv : c.version = .rfc3768) (hp : c.password = some password) (hp' : c'.password = some password')
    (hne : password ≠ password') :
    Refuses host' d' c ↔
      (¬ password <+: password' ∧ ¬ password' <+: password) ∨ c.family = .inet6 ∨
        d'.vrrp.priority = PRIO_OWNER ∨ 255 < c.advInt.toNat ∨
        c'.vif.mtu < ((IPHDR_SIZE + advGetsize d'.vnet : Nat) : Int) := by
  constructor
  · intro hrefuses
    by_contra hnot
    simp only [not_or, not_and_or, not_not, not_lt] at hnot
    obtain ⟨hpre, hfam, howner, hint, hmtu⟩ := hnot
    have hinet : c.family = .inet := by
      cases hf : c.family with
      | inet => rfl
      | inet6 => exact absurd hf hfam
    obtain ⟨fresh, d, datagram, vnet, run, hdel, hr⟩ := accepts_comparable .little run' hshare hv hp hp' hpre hinet
      howner hint hmtu (List.Vector.replicate IP_MAXPACKET 0).toList
    exact hrefuses .little fresh [] d run _ (.inl rfl) datagram hdel _ vnet hr
  · rintro hcond host₁ fresh h d run frame hadv datagram hdel stack vnet hr
    obtain ⟨hpre, hinet, howner, hint, hmtu⟩ :=
      accepted_keys run run' hshare hv hp hp' hne hadv hdel hr
    rcases hcond with ⟨hn, hn'⟩ | hfam | hown | hlarge | hsmall
    · exact hpre.elim hn hn'
    · rw [hinet] at hfam
      cases hfam
    · exact howner hown
    · omega
    · omega

end Pair

def keyed (text : Octets) (hl : text.length ≤ VRRP_AUTH_PASS_LEN) (ht : 0 ∉ text) : Config :=
  { lab with
    password := some text
    password_le := by simpa using hl
    password_text := by simpa using ht }

def secret : Config := keyed [0x73, 0x65, 0x63, 0x72, 0x65, 0x74] (by decide) (by decide)

def secret1 : Config := keyed [0x73, 0x65, 0x63, 0x72, 0x65, 0x74, 0x31] (by decide) (by decide)

def hidden : Config := keyed [0x68, 0x69, 0x64, 0x64, 0x65, 0x6e] (by decide) (by decide)

private theorem secret_run : History .little secret (.filled 0) [] secret.daemon :=
  ⟨secret.daemon, boot_daemon (.inl rfl), .nil⟩

theorem passwords_separate_hidden : Refuses .little secret.daemon hidden := by
  have hp : hidden.password = some [0x68, 0x69, 0x64, 0x64, 0x65, 0x6e] := rfl
  have hp' : secret.password = some [0x73, 0x65, 0x63, 0x72, 0x65, 0x74] := rfl
  have hshare : Shares (hidden.keyedAs secret) secret := ⟨rfl, rfl, rfl, rfl, rfl, .refl _⟩
  exact (passwords_separate_iff secret_run hshare rfl hp hp' (by decide)).mpr (.inl (by decide))

/-- A router with the password `secret` accepts what one with `secret1` has sent. -/
theorem passwords_not_separated : ∃ fresh d datagram vnet,
    secret1.password ≠ secret.password ∧ Shares (secret1.keyedAs secret) secret ∧
    History .little secret (.filled 0) [] secret.daemon ∧ History .little secret1 fresh [] d ∧
    Delivers .inet d.vnet.adv datagram ∧
    vrrpNetRecv .little secret.daemon.vnet secret.daemon.vrrp (some datagram)
      (List.Vector.replicate IP_MAXPACKET 0).toList = .ok (.pkt, vnet) := by
  have hp : secret1.password = some [0x73, 0x65, 0x63, 0x72, 0x65, 0x74, 0x31] := rfl
  have hp' : secret.password = some [0x73, 0x65, 0x63, 0x72, 0x65, 0x74] := rfl
  have hshare : Shares (secret1.keyedAs secret) secret := ⟨rfl, rfl, rfl, rfl, rfl, .refl _⟩
  have howner : secret.daemon.vrrp.priority ≠ PRIO_OWNER := by decide +kernel
  have hmtu : ((IPHDR_SIZE + advGetsize secret.daemon.vnet : Nat) : Int) ≤ secret.vif.mtu := by
    rw [secret_run.frameLength.1]
    decide
  obtain ⟨fresh, d, datagram, vnet, run, hdel, hr⟩ := accepts_comparable .little secret_run hshare rfl hp hp'
    (.inr (by decide)) rfl howner (by decide) hmtu (List.Vector.replicate IP_MAXPACKET 0).toList
  exact ⟨fresh, d, datagram, vnet, by decide, hshare, secret_run, run, hdel, hr⟩

end Uvrrpd
