import TunnelOperator.Standard.Quote

/-! Addresses of net/netip. The zero Addr is not a value of this type: where Go
returns it the model returns `none` or an error. -/
namespace TunnelOperator.Netip
open Strconv

inductive Addr where
  | v4 (bits : BitVec 32)
  | v6 (bits : BitVec 128) (zone : String)
  deriving DecidableEq, Repr

namespace Addr

def is4 : Addr → Bool
  | .v4 _ => true
  | .v6 .. => false

def bitLen : Addr → Nat
  | .v4 _ => 32
  | .v6 .. => 128

def zone : Addr → String
  | .v4 _ => ""
  | .v6 _ zone => zone

/-- The following address; past the last one Go returns the zero Addr. -/
def next : Addr → Option Addr
  | .v4 bits => if bits + 1 = 0 then none else some (.v4 (bits + 1))
  | .v6 bits zone => if bits + 1 = 0 then none else some (.v6 (bits + 1) zone)

def unmap : Addr → Addr
  | .v4 bits => .v4 bits
  | .v6 bits zone =>
    if bits.toNat / 2 ^ 32 = 0xffff then .v4 (BitVec.ofNat 32 bits.toNat) else .v6 bits zone

def octet (bits : BitVec 32) (place : Nat) : Nat := bits.toNat / 256 ^ place % 256

def digit (n : Nat) : Char := Nat.digitChar n

def appendDecimal (x : Nat) : List Char :=
  (if 100 ≤ x then [digit (x / 100)] else []) ++
    (if 10 ≤ x then [digit (x / 10 % 10)] else []) ++ [digit (x % 10)]

def text4 (bits : BitVec 32) : List Char :=
  appendDecimal (octet bits 3) ++ '.' :: appendDecimal (octet bits 2) ++
    '.' :: appendDecimal (octet bits 1) ++ '.' :: appendDecimal (octet bits 0)

def groups (bits : BitVec 128) : List Nat :=
  (List.range 8).map fun i => bits.toNat / 65536 ^ (7 - i) % 65536

/-- The first longest run of at least two zero groups: its start and its length. -/
def zeroRun (fields : List Nat) : Option (Nat × Nat) :=
  (List.range fields.length).foldl (fun best i =>
    let length := ((fields.drop i).takeWhile (· = 0)).length
    if 2 ≤ length ∧ (best.map (·.2)).getD 0 < length then some (i, length) else best) none

def hexFields (fields : List Nat) : List Char :=
  ((fields.map (Nat.toDigits 16)).intersperse [':']).flatten

def text6 (bits : BitVec 128) : List Char :=
  let fields := groups bits
  match zeroRun fields with
  | none => hexFields fields
  | some (start, length) =>
    hexFields (fields.take start) ++ ':' :: ':' :: hexFields (fields.drop (start + length))

def text : Addr → List Char
  | .v4 bits => text4 bits
  | .v6 bits zone =>
    (if bits.toNat / 2 ^ 32 = 0xffff then
      "::ffff:".toList ++ text4 (BitVec.ofNat 32 bits.toNat) else text6 bits) ++
    (if zone = "" then [] else '%' :: zone.toList)

def string (addr : Addr) : String := String.ofList addr.text

end Addr

def parseAddrError (input msg : String) (rest : List Char) : String :=
  "ParseAddr(" ++ quote input ++ "): " ++ msg ++
    (if rest = [] then "" else " (at " ++ quote (String.ofList rest) ++ ")")

/-- One pass over the characters, with the fields read so far, the value of the
current one and the number of its digits. A dot with no digit before it is one that
opens the text or follows another dot. -/
def parseIPv4Fields (input : String) : List Nat → Nat → Nat → List Char → Except String (List Nat)
  | fields, val, _, [] =>
    if fields.length < 3 then .error (parseAddrError input "IPv4 address too short" [])
    else .ok (fields ++ [val])
  | fields, val, digLen, c :: rest =>
    if c.isDigit then
      if digLen = 1 ∧ val = 0 then
        .error (parseAddrError input "IPv4 field has octet with leading zero" [])
      else if 255 < val * 10 + (c.toNat - '0'.toNat) then
        .error (parseAddrError input "IPv4 field has value >255" [])
      else parseIPv4Fields input fields (val * 10 + (c.toNat - '0'.toNat)) (digLen + 1) rest
    else if c = '.' then
      if digLen = 0 ∨ rest = [] then
        .error (parseAddrError input "IPv4 field must have at least one digit" (c :: rest))
      else if fields.length = 3 then .error (parseAddrError input "IPv4 address too long" [])
      else parseIPv4Fields input (fields ++ [val]) 0 0 rest
    else .error (parseAddrError input "unexpected character" (c :: rest))

def fromOctets (fields : List Nat) : Nat := fields.foldl (fun value field => value * 256 + field) 0

def parseIPv4 (s : String) : Except String Addr :=
  match parseIPv4Fields s [] 0 0 s.toList with
  | .ok fields => .ok (.v4 (BitVec.ofNat 32 (fromOctets fields)))
  | .error message => .error message

def hexValue (c : Char) : Option Nat :=
  if c.isDigit then some (c.toNat - '0'.toNat)
  else if 'a' ≤ c ∧ c ≤ 'f' then some (c.toNat - 'a'.toNat + 10)
  else if 'A' ≤ c ∧ c ≤ 'F' then some (c.toNat - 'A'.toNat + 10)
  else none

/-- The loop over the fields of an IPv6 text, at most `fuel` more of them: the
fields read, the position of the ellipsis and what is left of the text. -/
def parseIPv6Fields (input : String) :
    Nat → List Nat → Option Nat → List Char → Except String (List Nat × Option Nat × List Char)
  | 0, fields, ellipsis, s => .ok (fields, ellipsis, s)
  | fuel + 1, fields, ellipsis, s =>
    let digits := s.takeWhile fun c => (hexValue c).isSome
    let acc := digits.foldl (fun value c => value * 16 + (hexValue c).getD 0) 0
    if 4 < digits.length then
      .error (parseAddrError input "each group must have 4 or less digits" s)
    else if digits = [] then
      .error (parseAddrError input "each colon-separated field must have at least one digit" s)
    else match s.drop digits.length with
      | [] => .ok (fields ++ [acc], ellipsis, [])
      | '.' :: _ =>
        if ellipsis = none ∧ fields.length ≠ 6 then .error (parseAddrError input
          "embedded IPv4 address must replace the final 2 fields of the address" s)
        else if 6 < fields.length then .error (parseAddrError input
          "too many hex fields to fit an embedded IPv4 at the end of the address" s)
        else match parseIPv4Fields input [] 0 0 s with
          | .error message => .error message
          | .ok octets => .ok (fields ++
              [fromOctets (octets.take 2), fromOctets (octets.drop 2)], ellipsis, [])
      | [':'] => .error (parseAddrError input "colon must be followed by more characters" [':'])
      | ':' :: ':' :: rest =>
        if ellipsis.isSome then
          .error (parseAddrError input "multiple :: in address" (':' :: rest))
        else if rest = [] then .ok (fields ++ [acc], some (fields.length + 1), [])
        else parseIPv6Fields input fuel (fields ++ [acc]) (some (fields.length + 1)) rest
      | ':' :: rest => parseIPv6Fields input fuel (fields ++ [acc]) ellipsis rest
      | rest => .error (parseAddrError input "unexpected character, want colon" rest)

def expandEllipsis (input : String) (fields : List Nat) (ellipsis : Option Nat) :
    Except String (List Nat) :=
  if fields.length < 8 then
    match ellipsis with
    | none => .error (parseAddrError input "address string too short" [])
    | some place => .ok (fields.take place ++ List.replicate (8 - fields.length) 0 ++
      fields.drop place)
  else if ellipsis.isSome then
    .error (parseAddrError input "the :: must expand to at least one field of zeros" [])
  else .ok fields

def parseIPv6 (s : String) : Except String Addr := do
  let (body, zoned) := s.toList.span (· ≠ '%')
  let zone := String.ofList (zoned.drop 1)
  if zoned = ['%'] then .error (parseAddrError s "zone must be a non-empty string" [])
  let (fields, ellipsis, rest) ← match body with
    | [':', ':'] => .ok ([], some 0, [])
    | ':' :: ':' :: rest => parseIPv6Fields s 8 [] (some 0) rest
    | _ => parseIPv6Fields s 8 [] none body
  if rest ≠ [] then .error (parseAddrError s "trailing garbage after address" rest)
  let fields ← expandEllipsis s fields ellipsis
  return .v6 (BitVec.ofNat 128 (fields.foldl (fun value field => value * 65536 + field) 0)) zone

/-- The first dot, colon or percent sign decides which syntax the text must have. -/
def parseAddr (s : String) : Except String Addr :=
  match s.toList.find? (fun c => c = '.' ∨ c = ':' ∨ c = '%') with
  | some '.' => parseIPv4 s
  | some ':' => parseIPv6 s
  | some _ => .error (parseAddrError s "missing IPv6 address" [])
  | none => .error (parseAddrError s "unable to parse IP" [])

end TunnelOperator.Netip
