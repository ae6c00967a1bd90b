import MailGate.Python.Str

/-!
# IP addresses

`ipaddress.ip_address` of a text: whether it is an IPv4 or an IPv6 address.
-/

namespace MailGate

namespace PyStr

open PyChar

/-- `_parse_octet`. -/
def isOctet (octet : PyStr) : Bool :=
  octet ≠ [] && octet.all isDigit && octet.length ≤ 3 &&
    (octet = py "0" || octet.head? ≠ some (ofChar '0')) &&
      octet.foldl (fun n c => 10 * n + (c.val - 0x30)) 0 ≤ 255

/-- `IPv4Address(s)`. -/
def isIpv4 (s : PyStr) : Bool :=
  let octets := s.splitOn (ofChar '.')
  octets.length = 4 && octets.all isOctet

/-- `_parse_hextet`. -/
def isHextet (hextet : PyStr) : Bool :=
  hextet ≠ [] && hextet.all (fun c => (hexValue c).isSome) && hextet.length ≤ 4

/-- The parts of an IPv6 address, where the last two are written as an IPv4 address or not. -/
def ipv6Parts (s : PyStr) : Option (List PyStr) :=
  let parts := s.splitOn (ofChar ':')
  let last := parts.getLast?.getD []
  if parts.length < 3 then none
  else if ofChar '.' ∈ last then
    if isIpv4 last then some (parts.dropLast ++ [py "0", py "0"]) else none
  else some parts

/-- The parts are those of an address: eight, or fewer around one empty part. -/
def ipv6PartsOk (parts : List PyStr) : Bool :=
  let n := parts.length
  let first := parts.head?.getD []
  let last := parts.getLast?.getD []
  match (List.range n).filter fun i => 1 ≤ i && i + 1 < n && parts[i]? = some [] with
  | [] => n = 8 && parts.all isHextet
  | [skip] =>
      let high := if first = [] then skip - 1 else skip
      let low := if last = [] then n - skip - 2 else n - skip - 1
      (first ≠ [] || high = 0) && (last ≠ [] || low = 0) && high + low ≤ 7 &&
        (parts.take high).all isHextet && (parts.drop (n - low)).all isHextet
  | _ => false

/-- `IPv6Address(s)`. -/
def isIpv6 (s : PyStr) : Bool :=
  let address := s.takeWhile (· ≠ ofChar '%')
  let zone := (s.dropWhile (· ≠ ofChar '%')).drop 1
  (ofChar '%' ∉ s || (zone ≠ [] && ofChar '%' ∉ zone)) && ofChar '/' ∉ s &&
    match ipv6Parts address with
    | some parts => parts.length ≤ 9 && ipv6PartsOk parts
    | none => false

/-- `ipaddress.ip_address(s)` does not raise. -/
def isIpAddress (s : PyStr) : Bool := isIpv4 s || isIpv6 s

end PyStr

end MailGate
