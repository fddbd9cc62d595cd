import Uvrrpd.Checksum

/-! Advertisements as the two RFCs put them on the wire, stated on their own: which
octets there are, and what the checksum covers. Nothing here is taken from the
builder or from the receiver. -/
namespace Uvrrpd

/-- The octets summed before the payload: none in version 2, in version 3 the
pseudo-header of the family, with the length of the payload. -/
def rfcPseudo (version : VrrpVersion) (family : Family) (saddr daddr : Octets) (len : Nat) : Octets :=
  match version, family with
  | .rfc3768, _ => []
  | .rfc5798, .inet => saddr ++ daddr ++ [0, 112] ++ net16 len
  | .rfc5798, .inet6 => saddr ++ daddr ++ net16 (len / 65536) ++ net16 (len % 65536) ++ [0, 0, 0, 112]

def rfcChecksum (version : VrrpVersion) (family : Family) (saddr daddr payload : Octets) : Octets :=
  netChecksum (rfcPseudo version family saddr daddr payload.length ++ payload)

/-- What an advertisement says. The interval has 8 bits in version 2 and 12 in
version 3; the authentication data has at most eight octets. -/
structure Advertisement where
  version : VrrpVersion
  family : Family
  vrid : UInt8
  priority : UInt8
  addrs : List Octets
  interval : Nat
  authType : UInt8
  auth : Octets
  saddr : Octets
  daddr : Octets
  count_fits : addrs.length < 256
  interval_fits : interval < (match version with
    | .rfc3768 => 256
    | .rfc5798 => 4096)
  auth_fits : auth.length ≤ 8

namespace Advertisement

def header (a : Advertisement) (sum : Octets) : Octets :=
  match a.version with
  | .rfc3768 => [0x21, a.vrid, a.priority, UInt8.ofNat a.addrs.length, a.authType,
      UInt8.ofNat a.interval] ++ sum
  | .rfc5798 => [0x31, a.vrid, a.priority, UInt8.ofNat a.addrs.length] ++ net16 a.interval ++ sum

/-- What follows the addresses: the authentication field of version 2. -/
def trailer (a : Advertisement) : Octets :=
  match a.version with
  | .rfc3768 => a.auth ++ List.replicate (8 - a.auth.length) 0
  | .rfc5798 => []

/-- A payload of this header and these addresses with some octets behind them, under
the checksum of just that payload. -/
def assemble (a : Advertisement) (rest : Octets) : Octets :=
  let body := a.addrs.flatten ++ rest
  a.header (rfcChecksum a.version a.family a.saddr a.daddr (a.header [0, 0] ++ body)) ++ body

def encode (a : Advertisement) : Octets := a.assemble a.trailer

theorem header_length (a : Advertisement) {sum : Octets} (h : sum.length = 2) :
    (a.header sum).length = 8 := by
  rw [header]
  cases a.version <;> simp [h]

/-- What stands behind the addresses can be read off the payload. -/
theorem assemble_inj (a : Advertisement) {rest rest' : Octets} :
    a.assemble rest = a.assemble rest' ↔ rest = rest' := by
  constructor
  · intro h
    have hl (sum : Octets) (hs : sum.length = 2) := a.header_length hs
    have hb := List.append_inj_right h (by rw [hl _ rfl, hl _ rfl])
    exact List.append_cancel_left hb
  · rintro rfl
    rfl

end Advertisement

end Uvrrpd
