import Mathlib.Algebra.Group.Nat.Defs
import Mathlib.Data.List.Basic

/-! Text functions of Go's strconv. Quote is parametrised by which runes beyond
ASCII count as printable; every decision below U+0080 is Go's own. -/
namespace TunnelOperator.Strconv

def hexDigits (width value : Nat) : List Char :=
  (List.range width).reverse.map fun place => Nat.digitChar (value / 16 ^ place % 16)

def appendEscapedRune (isPrint : Char → Bool) (c : Char) : List Char :=
  if c = '"' ∨ c = '\\' then ['\\', c]
  else if (0x20 ≤ c.toNat ∧ c.toNat < 0x7f) ∨ (0x80 ≤ c.toNat ∧ isPrint c) then [c]
  else if c = '\x07' then ['\\', 'a']
  else if c = '\x08' then ['\\', 'b']
  else if c = '\x0c' then ['\\', 'f']
  else if c = '\n' then ['\\', 'n']
  else if c = '\r' then ['\\', 'r']
  else if c = '\t' then ['\\', 't']
  else if c = '\x0b' then ['\\', 'v']
  else if c.toNat < 0x20 ∨ c.toNat = 0x7f then '\\' :: 'x' :: hexDigits 2 c.toNat
  else if c.toNat < 0x10000 then '\\' :: 'u' :: hexDigits 4 c.toNat
  else '\\' :: 'U' :: hexDigits 8 c.toNat

def quoteWith (isPrint : Char → Bool) (s : String) : String :=
  String.ofList ('"' :: s.toList.flatMap (appendEscapedRune isPrint) ++ ['"'])

/-- The quoting used in error texts. Every rune from U+00A1 on but the soft hyphen
is taken as printable, so the text is Go's for all printable input. -/
def quote : String → String :=
  quoteWith fun c => 0xa1 ≤ c.toNat && c.toNat != 0xad

/-- The value of a decimal numeral without sign, or nothing. -/
def decimal (cs : List Char) : Option Nat :=
  if cs ≠ [] ∧ cs.all Char.isDigit then
    some (cs.foldl (fun value c => value * 10 + (c.toNat - '0'.toNat)) 0)
  else none

end TunnelOperator.Strconv
