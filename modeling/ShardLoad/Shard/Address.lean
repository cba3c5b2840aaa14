import ShardLoad.Bytes
import ShardLoad.Shard.Pool

/-!
# Addresses that can be called

An endpoint is called at a URI made of its host and port.  The host is taken as it
was configured, so the URI may turn out malformed: a character that no URI holds,
brackets that do not pair up, a percent sign or a colon too many.  With TLS the
host must also be a name that a certificate can be for: a domain name or an
IPv4 address.

* `UriFault`, `Uri.check`: what is wrong with the URI of an endpoint.
* `isServerName`: whether a certificate can be for a host.
* `Endpoint.refusal?`: why an endpoint cannot even be tried.
-/

namespace ShardLoad

/-- What is wrong with a URI. -/
inductive UriFault where
  | character
  | authority
  | format
  deriving Repr, DecidableEq

/-- The wording of a fault. -/
def UriFault.message : UriFault → String
  | character => "invalid uri character"
  | authority => "invalid authority"
  | format => "invalid format"

namespace Uri

/-- Whether an octet is an ASCII letter or digit. -/
def isAlphanumeric (b : UInt8) : Bool :=
  (48 ≤ b && b ≤ 57) || (65 ≤ b && b ≤ 90) || (97 ≤ b && b ≤ 122)

/-- The octets other than letters and digits that an authority may hold. -/
def marks : Bytes := Bytes.utf8 "!$&'()*+,-.:;=@[]_~"

/-- Whether an authority may hold an octet. -/
def isAuthorityOctet (b : UInt8) : Bool := isAlphanumeric b || marks.contains b

/-- Whether an octet ends the authority: a slash, a question mark, a number sign. -/
def endsAuthority (b : UInt8) : Bool := b == 47 || b == 63 || b == 35

/-- What was seen of an authority. -/
structure Seen where
  colons : Nat
  opened : Bool
  closed : Bool
  percent : Bool
  /-- Whether the latest octet was an at sign. -/
  endsInAt : Bool
  deriving Repr, DecidableEq

/-- At most so many colons are counted. -/
def maxColons : Nat := 8

/-- One more octet of an authority. -/
def Seen.see? (s : Seen) (b : UInt8) : Except UriFault Seen :=
  let s := { s with endsInAt := b == 64 }
  if b == 58 then
    if maxColons ≤ s.colons then .error .authority else .ok { s with colons := s.colons + 1 }
  else if b == 91 then
    if s.percent || s.opened then .error .authority else .ok { s with opened := true }
  else if b == 93 then
    if !s.opened || s.closed then .error .authority
    else .ok { s with closed := true, colons := 0, percent := false }
  else if b == 64 then .ok { s with colons := 0, percent := false }
  else if b == 37 then .ok { s with percent := true }
  else if isAuthorityOctet b then .ok s
  else .error .character

/-- The check of an authority, all octets of which were seen. -/
def Seen.finish (s : Seen) : Except UriFault Unit :=
  if s.opened != s.closed || 1 < s.colons || s.endsInAt || s.percent then .error .authority
  else .ok ()

/-- Whether a path may hold an octet as it stands. -/
def isPathOctet (b : UInt8) : Bool :=
  b == 0x21 || b == 0x22 || (0x24 ≤ b && b ≤ 0x3B) || b == 0x3D || (0x40 ≤ b && b ≤ 0x5F) ||
    (0x61 ≤ b && b ≤ 0x7E) || 0x7F ≤ b

/-- Whether a query may hold an octet as it stands. -/
def isQueryOctet (b : UInt8) : Bool :=
  b == 0x21 || (0x24 ≤ b && b ≤ 0x3B) || b == 0x3D || 0x3F ≤ b

/-- The check of what follows the authority: a path, a query, and a fragment, in
which everything goes. -/
def checkRest (rest : Bytes) : Except UriFault Unit :=
  let path := rest.takeWhile fun b => b != 63 && b != 35
  let query := match rest.dropWhile fun b => b != 63 && b != 35 with
    | 63 :: query => query.takeWhile (· != 35)
    | _ => []
  if path.all isPathOctet && query.all isQueryOctet then .ok () else .error .character

/-- The check of a URI whose scheme is left out. -/
def check (octets : Bytes) : Except UriFault Unit := do
  let authority := octets.takeWhile fun b => !endsAuthority b
  let seen ← authority.foldlM Seen.see? ⟨0, false, false, false, false⟩
  seen.finish
  if authority.isEmpty then throw .format
  checkRest (octets.drop authority.length)

end Uri

/-- Whether a label may stand in a domain name: up to sixty-three letters, digits,
underscores and hyphens, the last neither first nor last. -/
def isDomainLabel (label : List Char) : Bool :=
  !label.isEmpty && label.length ≤ 63 &&
    label.all (fun c => c.isAlphanum || c == '_' || c == '-') &&
    label.head? != some '-' && label.getLast? != some '-'

/-- Whether a name is a domain name: labels with dots between them, one dot more
at the end if one likes, and the last label no number. -/
def isDomainName (name : List Char) : Bool :=
  let labels := match (name.splitOn '.').reverse with
    | [] :: label :: rest => label :: rest
    | labels => labels
  name.length ≤ 253 && labels.all isDomainLabel &&
    match labels with
    | last :: _ => !last.all Char.isDigit
    | [] => false

/-- Whether digits are a number up to 255 without a leading zero. -/
def isAddressPart (digits : List Char) : Bool :=
  !digits.isEmpty && digits.length ≤ 3 && digits.all Char.isDigit &&
    (digits.length == 1 || digits.head? != some '0') &&
    decide (digits.foldl (fun n c => 10 * n + (c.toNat - 48)) 0 ≤ 255)

/-- Whether a name is an IPv4 address. -/
def isAddress (name : List Char) : Bool :=
  let parts := name.splitOn '.'
  parts.length == 4 && parts.all isAddressPart

/-- Whether a certificate can be for a host. -/
def isServerName (host : String) : Bool :=
  isDomainName host.toList || isAddress host.toList

/-- Why an endpoint cannot even be tried. -/
def Endpoint.refusal? (plaintext : Bool) (e : Endpoint) : Option String :=
  match Uri.check (Bytes.utf8 e.label) with
  | .error fault => some s!"invalid endpoint {e.label}: {fault.message}"
  | .ok () =>
    if plaintext || isServerName e.host then none
    else some s!"TLS setup for {e.label} failed: transport error: invalid dns name"

end ShardLoad
