import TunnelOperator.Standard.Addr

/-! Prefixes of net/netip. A value is an address with a length that fits it; the
zero Prefix, which contains and overlaps nothing, is `none` where it can occur. -/
namespace TunnelOperator.Netip
open Strconv

structure Prefix where
  addr : Addr
  bits : Nat
  fits : bits ≤ addr.bitLen
  deriving DecidableEq, Repr

namespace Prefix

/-- The address with every bit after the first `length` cleared. -/
def maskBits {width : Nat} (value : BitVec width) (length : Nat) : BitVec width :=
  (value >>> (width - length)) <<< (width - length)

/-- The two agree on their first `length` bits. -/
def sameBits {width : Nat} (first second : BitVec width) (length : Nat) : Bool :=
  (first ^^^ second) >>> (width - length) = 0

def maskAddr : Addr → Nat → Addr
  | .v4 value, length => .v4 (maskBits value length)
  | .v6 value _, length => .v6 (maskBits value length) ""

theorem maskAddr_bitLen (addr : Addr) (length : Nat) :
    (maskAddr addr length).bitLen = addr.bitLen := by
  cases addr <;> rfl

def masked (p : Prefix) : Prefix :=
  ⟨maskAddr p.addr p.bits, p.bits, (maskAddr_bitLen p.addr p.bits).symm ▸ p.fits⟩

def contains (p : Prefix) : Addr → Bool
  | .v4 value => match p.addr with
    | .v4 base => sameBits value base p.bits
    | .v6 .. => false
  | .v6 value zone => match p.addr with
    | .v4 _ => false
    | .v6 base _ => zone = "" && sameBits value base p.bits

def overlaps (p o : Prefix) : Bool :=
  if p = o then true
  else if p.addr.is4 != o.addr.is4 then false
  else if min p.bits o.bits = 0 then true
  else maskAddr p.addr (min p.bits o.bits) = maskAddr o.addr (min p.bits o.bits)

def string (p : Prefix) : String := p.addr.string ++ "/" ++ Nat.repr p.bits

/-- 0.0.0.0/0 -/
def everyIPv4 : Prefix := ⟨.v4 0, 0, Nat.zero_le _⟩

@[simp] theorem everyIPv4_bits : everyIPv4.bits = 0 := rfl

theorem everyIPv4_contains (value : BitVec 32) : everyIPv4.contains (.v4 value) = true := by
  simp [everyIPv4, contains, sameBits, BitVec.ushiftRight_eq_zero (Nat.le_refl 32)]

/-- The single-address prefix. -/
def single (addr : Addr) : Prefix := ⟨addr, addr.bitLen, Nat.le_refl _⟩

end Prefix

def parsePrefixError (input msg : String) : String :=
  "netip.ParsePrefix(" ++ quote input ++ "): " ++ msg

/-- What stands before and after the last occurrence of `separator`. -/
def splitLast (separator : Char) (cs : List Char) : Option (List Char × List Char) :=
  match cs.reverse.span (· ≠ separator) with
  | (_, []) => none
  | (after, _ :: before) => some (before.reverse, after.reverse)

def parsePrefix (s : String) : Except String Prefix :=
  match splitLast '/' s.toList with
  | none => .error (parsePrefixError s "no '/'")
  | some (addrText, bitsText) =>
    match parseAddr (String.ofList addrText) with
    | .error message => .error (parsePrefixError s message)
    | .ok ip =>
      if ip.zone ≠ "" then
        .error (parsePrefixError s "IPv6 zones cannot be present in a prefix")
      else if 1 < bitsText.length ∧ bitsText.head? = some '0' then
        .error (parsePrefixError s ("bad bits after slash: " ++ quote (String.ofList bitsText)))
      else match decimal bitsText with
        | none => .error (parsePrefixError s
          ("bad bits after slash: " ++ quote (String.ofList bitsText)))
        | some bits =>
          if fits : bits ≤ ip.bitLen then .ok ⟨ip, bits, fits⟩
          -- Atoi fails on what is no int.
          else if bits < 2 ^ 63 then .error (parsePrefixError s "prefix length out of range")
          else .error (parsePrefixError s
            ("bad bits after slash: " ++ quote (String.ofList bitsText)))

end TunnelOperator.Netip
