import Mathlib.Algebra.Group.Nat.Defs
import Mathlib.Data.List.Basic
import Mathlib.Tactic.Common

/-!
Internet addresses as texts and as numbers, and the networks that the `ipaddress` module of
Python 3.13 knows by name. A network is given by the first bits of its addresses; an IPv4 address
that is mapped into IPv6 has the properties of the IPv4 address.
-/
namespace Hooktrace.IpAddress

inductive Address where
  | v4 (n : Fin (2 ^ 32))
  | v6 (n : Fin (2 ^ 128))
  deriving DecidableEq

section Parse

def isDigit (c : Char) : Bool := '0' ≤ c ∧ c ≤ '9'

def hexValue (c : Char) : Option ℕ :=
  if isDigit c then some (c.toNat - '0'.toNat)
  else if 'a' ≤ c ∧ c ≤ 'f' then some (c.toNat - 'a'.toNat + 10)
  else if 'A' ≤ c ∧ c ≤ 'F' then some (c.toNat - 'A'.toNat + 10)
  else none

/-- `text.split(sep)`. -/
def split (sep : Char) : List Char → List (List Char)
  | [] => [[]]
  | c :: rest =>
    if c = sep then [] :: split sep rest
    else match split sep rest with
      | [] => [[c]]
      | part :: parts => (c :: part) :: parts

/-- `_parse_octet`: one to three digits, no leading zero, at most 255. -/
def parseOctet (text : List Char) : Option ℕ :=
  if text = [] ∨ text.all isDigit = false ∨ 3 < text.length ∨
    (text ≠ ['0'] ∧ text.head? = some '0') then none
  else
    let value := text.foldl (fun n c => 10 * n + (c.toNat - '0'.toNat)) 0
    if value ≤ 255 then some value else none

/-- `IPv4Address(text)`. -/
def parseV4 (text : List Char) : Option (Fin (2 ^ 32)) := do
  let octets ← (split '.' text).mapM parseOctet
  if octets.length = 4 then some (.ofNat _ (octets.foldl (fun n d => 256 * n + d) 0)) else none

/-- `_parse_hextet`: one to four hexadecimal digits. -/
def parseHextet (text : List Char) : Option ℕ := do
  let digits ← text.mapM hexValue
  if text = [] ∨ 4 < text.length then none else some (digits.foldl (fun n d => 16 * n + d) 0)

/-- An IPv4 suffix, written as two hextets. -/
def expandSuffix (parts : List (List Char)) : Option (List (List Char)) :=
  match parts.getLast? with
  | none => none
  | some last =>
    if '.' ∈ last then
      (parseV4 last).map fun n =>
        parts.dropLast ++ [Nat.toDigits 16 (n / 65536), Nat.toDigits 16 (n % 65536)]
    else some parts

/-- The places of `::`, with nothing in between; the endpoints are none. -/
def skips (parts : List (List Char)) : List ℕ :=
  (List.range (parts.length - 1)).filter fun i => 1 ≤ i ∧ parts[i]? = some []

/-- The parts before and behind the `::` at `i`; an empty endpoint belongs to it. -/
def around (parts : List (List Char)) (i : ℕ) : Option (List (List Char) × List (List Char)) :=
  let hi := parts.take i
  let lo := parts.drop (i + 1)
  let emptyFirst := parts.head? = some []
  let emptyLast := parts.getLast? = some []
  if emptyFirst ∧ 1 < hi.length then none
  else if emptyLast ∧ 1 < lo.length then none
  else some (if emptyFirst then [] else hi, if emptyLast then [] else lo)

def hextets (parts : List (List Char)) : Option (List ℕ) :=
  match skips parts with
  | [] => if parts.length = 8 then parts.mapM parseHextet else none
  | [i] => do
    let (hi, lo) ← around parts i
    if 8 ≤ hi.length + lo.length then none
    else
      let high ← hi.mapM parseHextet
      let low ← lo.mapM parseHextet
      some (high ++ List.replicate (8 - (hi.length + lo.length)) 0 ++ low)
  | _ => none

/-- `text.partition("%")`; what follows the sign is not empty and has no other one. -/
def dropScope (text : List Char) : Option (List Char) :=
  match split '%' text with
  | [address] => some address
  | [address, scope] => if scope = [] then none else some address
  | _ => none

/-- `IPv6Address(text)`. -/
def parseV6 (text : List Char) : Option (Fin (2 ^ 128)) := do
  if '/' ∈ text then none
  else
    let address ← dropScope text
    let parts := split ':' address
    if parts.length < 3 then none
    else
      let parts ← expandSuffix parts
      if 9 < parts.length then none
      else (hextets parts).map fun parsed => .ofNat _ (parsed.foldl (fun n d => 65536 * n + d) 0)

/-- `ip_address(text)`; `none` is a ValueError. -/
def ipAddress (text : List Char) : Option Address :=
  ((parseV4 text).map .v4).or ((parseV6 text).map .v6)

example : ["169.254.169.254", "::ffff:100.64.0.1", "127.1", "010.0.0.1", "1:2", "::1::", "[::1]"].map
    (fun text => ipAddress text.toList) =
    [some (.v4 2852039166), some (.v6 281472363659265), none, none, none, none, none] := by
  decide +kernel

end Parse

section Networks

/-- A network: an address of `w` bits, and how many of its first bits count. -/
def inNetwork (w n : ℕ) (network : ℕ × ℕ) : Bool :=
  n / 2 ^ (w - network.2) = network.1 / 2 ^ (w - network.2)

/-- `IPv4Network("a.b.c.d/len")`. -/
def v4Network (a b c d len : ℕ) : ℕ × ℕ := (((a * 256 + b) * 256 + c) * 256 + d, len)

/-- `IPv6Network` of the first hextets; the others are zero. -/
def v6Network (hextets : List ℕ) (len : ℕ) : ℕ × ℕ :=
  ((hextets ++ List.replicate (8 - hextets.length) 0).foldl (fun n d => 65536 * n + d) 0, len)

def privateV4 : List (ℕ × ℕ) :=
  [v4Network 0 0 0 0 8, v4Network 10 0 0 0 8, v4Network 127 0 0 0 8, v4Network 169 254 0 0 16,
    v4Network 172 16 0 0 12, v4Network 192 0 0 0 24, v4Network 192 0 0 170 31,
    v4Network 192 0 2 0 24, v4Network 192 168 0 0 16, v4Network 198 18 0 0 15,
    v4Network 198 51 100 0 24, v4Network 203 0 113 0 24, v4Network 240 0 0 0 4,
    v4Network 255 255 255 255 32]

def privateV4Exceptions : List (ℕ × ℕ) := [v4Network 192 0 0 9 32, v4Network 192 0 0 10 32]

def privateV6 : List (ℕ × ℕ) :=
  [v6Network [0, 0, 0, 0, 0, 0, 0, 1] 128, v6Network [] 128, v6Network [0, 0, 0, 0, 0, 0xffff] 96,
    v6Network [0x64, 0xff9b, 1] 48, v6Network [0x100] 64, v6Network [0x2001] 23,
    v6Network [0x2001, 0xdb8] 32, v6Network [0x2002] 16, v6Network [0x3fff] 20,
    v6Network [0xfc00] 7, v6Network [0xfe80] 10]

def privateV6Exceptions : List (ℕ × ℕ) :=
  [v6Network [0x2001, 1, 0, 0, 0, 0, 0, 1] 128, v6Network [0x2001, 1, 0, 0, 0, 0, 0, 2] 128,
    v6Network [0x2001, 3] 32, v6Network [0x2001, 4, 0x112] 48, v6Network [0x2001, 0x20] 28,
    v6Network [0x2001, 0x30] 28]

def reservedV6 : List (ℕ × ℕ) :=
  [v6Network [] 8, v6Network [0x100] 8, v6Network [0x200] 7, v6Network [0x400] 6,
    v6Network [0x800] 5, v6Network [0x1000] 4, v6Network [0x4000] 3, v6Network [0x6000] 3,
    v6Network [0x8000] 3, v6Network [0xa000] 3, v6Network [0xc000] 3, v6Network [0xe000] 4,
    v6Network [0xf000] 5, v6Network [0xf800] 6, v6Network [0xfe00] 9]

/-- `ipv4_mapped`. -/
def ipv4Mapped (n : ℕ) : Option ℕ := if n / 2 ^ 32 = 0xffff then some (n % 2 ^ 32) else none

/-- A property of an address, from that of IPv4 and that of IPv6. -/
def classify (onV4 onV6 : ℕ → Bool) : Address → Bool
  | .v4 n => onV4 n
  | .v6 n => match ipv4Mapped n with
    | some m => onV4 m
    | none => onV6 n

def isPrivate : Address → Bool := classify
  (fun n => privateV4.any (inNetwork 32 n) && !privateV4Exceptions.any (inNetwork 32 n))
  (fun n => privateV6.any (inNetwork 128 n) && !privateV6Exceptions.any (inNetwork 128 n))

def isLoopback : Address → Bool := classify
  (fun n => inNetwork 32 n (v4Network 127 0 0 0 8)) (fun n => n = 1)

def isLinkLocal : Address → Bool := classify
  (fun n => inNetwork 32 n (v4Network 169 254 0 0 16))
  (fun n => inNetwork 128 n (v6Network [0xfe80] 10))

def isMulticast : Address → Bool := classify
  (fun n => inNetwork 32 n (v4Network 224 0 0 0 4))
  (fun n => inNetwork 128 n (v6Network [0xff00] 8))

def isReserved : Address → Bool := classify
  (fun n => inNetwork 32 n (v4Network 240 0 0 0 4)) (fun n => reservedV6.any (inNetwork 128 n))

def isUnspecified : Address → Bool := classify (fun n => n = 0) (fun n => n = 0)

end Networks

end Hooktrace.IpAddress
