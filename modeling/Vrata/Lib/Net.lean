import Mathlib.Data.Nat.Notation

/-!
# Network addresses as texts

The functions of the packages `net` and `net/netip` that split and join the text of an address and that
read an IP address. An IP address is kept in sixteen octets; an IPv4 address stands in the last four,
behind `::ffff`.
-/

namespace Net

/-! ## Host and port -/

/-- The text before and after the last occurrence of a character. -/
def cutLast (c : Char) (text : List Char) : Option (List Char × List Char) :=
  match text.reverse.span (· ≠ c) with
  | (_, []) => none
  | (after, _ :: before) => some (before.reverse, after.reverse)

/-- What stands between brackets that enclose the whole text. -/
def unbracket (text : List Char) : Option (List Char) :=
  match text with
  | '[' :: rest => if rest.getLast? = some ']' then some rest.dropLast else none
  | _ => none

def hasBracket (text : List Char) : Bool := text.contains '[' || text.contains ']'

/-- An IPv6 address has to stand in brackets, since the port is what follows the last colon. -/
def splitHostPort (hostport : String) : Option (String × String) := do
  let (front, port) ← cutLast ':' hostport.toList
  let host ← if front.head? = some '[' then unbracket front
    else if front.contains ':' then none
    else some front
  if hasBracket host || hasBracket port then none
  else some (String.ofList host, String.ofList port)

/-! ## IP addresses -/

abbrev IP := List UInt8

def hexValue (c : Char) : Option ℕ :=
  if '0' ≤ c ∧ c ≤ '9' then some (c.toNat - '0'.toNat)
  else if 'a' ≤ c ∧ c ≤ 'f' then some (c.toNat - 'a'.toNat + 10)
  else if 'A' ≤ c ∧ c ≤ 'F' then some (c.toNat - 'A'.toNat + 10)
  else none

/-- A field of an IPv4 address: a number below 256 without leading zeros. -/
def parseOctet (field : List Char) : Option UInt8 :=
  if field = [] || !field.all Char.isDigit || (field.head? = some '0' && 1 < field.length) then none
  else
    let n := field.foldl (fun n c => n * 10 + (c.toNat - '0'.toNat)) 0
    if n ≤ 255 then some (UInt8.ofNat n) else none

def parseIPv4 (text : List Char) : Option (List UInt8) :=
  match text.splitOn '.' with
  | [a, b, c, d] => [a, b, c, d].mapM parseOctet
  | _ => none

/-- One to four hexadecimal digits, which no further one follows. -/
def takeGroup (text : List Char) : Option (ℕ × List Char) := do
  let digits := text.takeWhile fun c => (hexValue c).isSome
  if digits = [] || 4 < digits.length then none
  else some (digits.foldl (fun n c => n * 16 + (hexValue c).getD 0) 0, text.drop digits.length)

/-- The groups of an IPv6 address, and the number of octets before the ellipsis. There is room for as many
groups as the first argument says. -/
def takeGroups : ℕ → List UInt8 → Option ℕ → List Char → Option (List UInt8 × Option ℕ)
  | 0, octets, ellipsis, text => if text = [] then some (octets, ellipsis) else none
  | room + 1, octets, ellipsis, text => do
    let (group, rest) ← takeGroup text
    if rest.head? = some '.' then
      -- The rest may be written as an IPv4 address.
      if (ellipsis.isNone && octets.length ≠ 12) || 12 < octets.length then none
      else return (octets ++ (← parseIPv4 text), ellipsis)
    else
      let octets := octets ++ [UInt8.ofNat (group / 256), UInt8.ofNat (group % 256)]
      match rest with
      | [] => some (octets, ellipsis)
      | [':', ':'] => if ellipsis.isSome then none else some (octets, some octets.length)
      | ':' :: ':' :: rest =>
        if ellipsis.isSome then none else takeGroups room octets (some octets.length) rest
      | [':'] => none
      | ':' :: rest => takeGroups room octets ellipsis rest
      | _ => none

/-- The ellipsis stands for at least one group. -/
def expand : List UInt8 × Option ℕ → Option IP
  | (octets, none) => if octets.length = 16 then some octets else none
  | (octets, some n) =>
    if octets.length < 16 then
      some (octets.take n ++ List.replicate (16 - octets.length) 0 ++ octets.drop n)
    else none

def parseIPv6 (text : List Char) : Option IP :=
  match text with
  | [':', ':'] => some (List.replicate 16 0)
  | ':' :: ':' :: rest => (takeGroups 8 [] (some 0) rest).bind expand
  | _ => (takeGroups 8 [] none text).bind expand

/-- The first dot or colon decides between the forms. An address with a zone is refused. -/
def parseIP (text : String) : Option IP :=
  match text.toList.find? fun c => c = '.' || c = ':' || c = '%' with
  | some '.' => (parseIPv4 text.toList).map fun octets => List.replicate 10 0 ++ [0xFF, 0xFF] ++ octets
  | some ':' => if text.toList.contains '%' then none else parseIPv6 text.toList
  | _ => none

/-- The four octets of an IPv4 address. -/
def to4 (ip : IP) : Option (List UInt8) :=
  if ip.take 12 = List.replicate 10 0 ++ [0xFF, 0xFF] then some (ip.drop 12) else none

/-! ## Networks -/

/-- A network, as the address in its first bits. -/
structure Network where
  address : IP
  bits : ℕ

/-- The octet of a mask that has so many bits set from this octet on. -/
def maskOctet (bits : ℕ) : UInt8 :=
  if bits = 0 then 0
  else if bits < 8 then 0xFF <<< UInt8.ofNat (8 - bits)
  else 0xFF

def mask (bits : ℕ) (ip : IP) : IP :=
  ip.zipIdx.map fun (octet, i) => octet &&& maskOctet (bits - 8 * i)

/-- A decimal number that takes up the whole text. -/
def parseBits (text : List Char) : Option ℕ :=
  if text = [] || !text.all Char.isDigit then none
  else some (text.foldl (fun n c => n * 10 + (c.toNat - '0'.toNat)) 0)

/-- `ParseCIDR`. The bits of an IPv4 address are counted from its own first octet. -/
def parseCIDR (text : String) : Option Network := do
  let (front, back) := text.toList.span (· ≠ '/')
  let ip ← parseIP (String.ofList front)
  let bits ← parseBits (back.drop 1)
  let (width, offset) := if front.contains ':' then (128, 0) else (32, 96)
  if bits ≤ width then some ⟨mask (offset + bits) ip, offset + bits⟩ else none

/-- `Contains`: an IPv4 address is in no network of IPv6 addresses. -/
def Network.contains (n : Network) (ip : IP) : Bool :=
  (to4 n.address).isSome = (to4 ip).isSome && mask n.bits n.address = mask n.bits ip

end Net
