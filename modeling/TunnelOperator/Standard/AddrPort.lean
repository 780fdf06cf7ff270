import TunnelOperator.Standard.Cidr

/-! Address and port pairs of net/netip. -/
namespace TunnelOperator.Netip
open Strconv

structure AddrPort where
  addr : Addr
  port : Nat
  deriving DecidableEq

/-- The address and port texts of `s`, and whether the address stood in brackets. -/
def splitAddrPort (s : String) : Except String (List Char × List Char × Bool) :=
  match splitLast ':' s.toList with
  | none => .error "not an ip:port"
  | some (ip, port) =>
    if ip = [] then .error "no IP"
    else if port = [] then .error "no port"
    else if ip.head? = some '[' then
      if ip.length < 2 ∨ ip.getLast? ≠ some ']' then .error "missing ]"
      else .ok (ip.tail.dropLast, port, true)
    else .ok (ip, port, false)

def parseAddrPort (s : String) : Except String AddrPort := do
  let (ipText, portText, ipv6) ← splitAddrPort s
  match decimal portText with
  | none => .error ("invalid port " ++ quote (String.ofList portText) ++ " parsing " ++ quote s)
  | some port =>
    if 2 ^ 16 ≤ port then .error ("invalid port " ++ quote (String.ofList portText) ++ " parsing " ++ quote s)
    else
      let addr ← parseAddr (String.ofList ipText)
      if ipv6 && addr.is4 then
        .error ("invalid ip:port " ++ quote s ++
          ", square brackets can only be used with IPv6 addresses")
      else if !ipv6 && !addr.is4 then
        .error ("invalid ip:port " ++ quote s ++
          ", IPv6 addresses must be surrounded by square brackets")
      else .ok ⟨addr, port⟩

theorem text4_ne_nil (bits : BitVec 32) : Addr.text4 bits ≠ [] := by
  simp [Addr.text4]

theorem text4_plain (bits : BitVec 32) (apart : c.isDigit = false ∧ c ≠ '.') :
    c ∉ Addr.text4 bits := by
  intro member
  rcases text4_chars bits c member with digit | dot
  · exact absurd digit (by simp [apart.1])
  · exact apart.2 dot

theorem splitAddrPort_v4 (bits : BitVec 32) {portText : String} (nonempty : portText.toList ≠ [])
    (plain : ':' ∉ portText.toList) :
    splitAddrPort ((Addr.v4 bits).string ++ ":" ++ portText) =
      .ok ((Addr.v4 bits).string.toList, portText.toList, false) := by
  have text : ((Addr.v4 bits).string ++ ":" ++ portText).toList =
      (Addr.v4 bits).string.toList ++ ':' :: portText.toList := by simp
  have spelled : (Addr.v4 bits).string.toList = Addr.text4 bits := by simp [Addr.string, Addr.text]
  have unbracketed : (Addr.text4 bits).head? ≠ some '[' := fun first =>
    text4_plain bits (by decide) (List.mem_of_head? first)
  simp only [splitAddrPort, text, splitLast_append plain, spelled]
  rw [if_neg (text4_ne_nil bits), if_neg nonempty, if_neg unbracketed]

/-- An IPv4 address and a port parse back from their text. -/
theorem parseAddrPort_v4 (bits : BitVec 32) {portText : String} {port : Nat}
    (plain : ':' ∉ portText.toList)
    (value : decimal portText.toList = some port) (small : port < 2 ^ 16) :
    parseAddrPort ((Addr.v4 bits).string ++ ":" ++ portText) = .ok ⟨.v4 bits, port⟩ := by
  have nonempty : portText.toList ≠ [] := by
    intro empty
    simp [empty, decimal] at value
  simp only [parseAddrPort, splitAddrPort_v4 bits nonempty plain, bind, Except.bind, value,
    if_neg (Nat.not_le.mpr small), String.ofList_toList, parseAddr_string]
  rfl

end TunnelOperator.Netip
