import Mathlib.Data.List.Basic

/-! Go's strings.TrimSpace. -/
namespace TunnelOperator.Strings

/-- unicode.IsSpace: White_Space of Unicode. -/
def isSpace (c : Char) : Bool :=
  c = '\t' || c = '\n' || c = '\x0b' || c = '\x0c' || c = '\r' || c = ' ' || c = '\u0085' ||
    c = '\u00a0' ||
    c = '\u1680' || ('\u2000' ≤ c && c ≤ '\u200a') || c = '\u2028' || c = '\u2029' ||
      c = '\u202f' ||
    c = '\u205f' || c = '\u3000'

def trimSpace (s : String) : String :=
  String.ofList ((s.toList.dropWhile isSpace).reverse.dropWhile isSpace).reverse

theorem trimSpace_length (s : String) : (trimSpace s).toList.length ≤ s.toList.length := by
  rw [trimSpace, String.toList_ofList, List.length_reverse]
  calc _ ≤ (s.toList.dropWhile isSpace).reverse.length := (List.dropWhile_sublist _).length_le
    _ = (s.toList.dropWhile isSpace).length := List.length_reverse
    _ ≤ s.toList.length := (List.dropWhile_sublist _).length_le

theorem dropWhile_of_none {cs : List Char} (none : ∀ c ∈ cs, isSpace c = false) :
    cs.dropWhile isSpace = cs := by
  cases cs with
  | nil => rfl
  | cons c rest => exact List.dropWhile_cons_of_neg (by simp [none c List.mem_cons_self])

theorem trimSpace_of_none {s : String} (none : ∀ c ∈ s.toList, isSpace c = false) :
    trimSpace s = s := by
  rw [trimSpace, dropWhile_of_none none, dropWhile_of_none (by simpa using none),
    List.reverse_reverse, String.ofList_toList]

end TunnelOperator.Strings
