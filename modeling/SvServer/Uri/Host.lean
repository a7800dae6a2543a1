import SvServer.Uri.Domain
import SvServer.Uri.Percent

/-!
Hosts. A host is an IPv6 address in brackets, an IPv4 address or a domain. Where the scheme gives
the host no meaning, any text will do that has no character of special use.
-/

namespace SvServer.Uri

open SvServer.Text

/-! ## Addresses -/

/-- A group of an IPv6 address. -/
def isHexGroup (group : String) : Bool :=
  group.length ≤ 4 && group ≠ "" && group.toList.all fun c => (hexValue? c).isSome

/-- A part of a dotted IPv4 address inside an IPv6 address. -/
def isDecimalByte (part : String) : Bool :=
  part.length ≤ 3 && part ≠ "" && part.toList.all Char.isDigit && (part.toNat?.getD 256) < 256 &&
    (part = "0" || !part.startsWith "0")

/-- How many 16-bit groups a colon-separated text stands for, if it is well formed. The last part
may be an IPv4 address, which counts twice. -/
def groupCount? (text : String) : Option Nat :=
  if text = "" then some 0
  else
    let parts := text.splitOn ":"
    let initial := parts.dropLast
    let final := parts.getLastD ""
    if initial.all isHexGroup then
      if isHexGroup final then some parts.length
      else
        let bytes := final.splitOn "."
        if bytes.length = 4 ∧ bytes.all isDecimalByte then some (parts.length + 1) else none
    else none

/-- Whether a text is an IPv6 address. -/
def isIpv6 (text : String) : Bool :=
  match text.splitOn "::" with
  | [all] => groupCount? all == some 8
  | [left, right] =>
    match groupCount? left, groupCount? right with
    | some a, some b => a + b ≤ 7 && !(left.splitOn ".").tail.any fun _ => true
    | _, _ => false
  | _ => false

/-- The value of a part of an IPv4 address, in decimal, octal or hexadecimal; none for text that is
no number. -/
def ipv4Part? (part : String) : Option Nat :=
  let value (base : Nat) (digits : List Char) : Option Nat :=
    digits.foldlM (fun total c => do
      let digit ← hexValue? c
      if digit < base then some (total * base + digit) else none) 0
  match part.toList with
  | [] => none
  | '0' :: x :: rest =>
    if x = 'x' ∨ x = 'X' then value 16 rest else value 8 (x :: rest)
  | digits => value 10 digits

/-- The parts of a domain, without an empty one at its end. -/
def domainParts (domain : String) : List String :=
  let parts := domain.splitOn "."
  if parts.getLast? = some "" ∧ 1 < parts.length then parts.dropLast else parts

/-- Domains whose last part is a number are IPv4 addresses. -/
def endsInNumber (domain : String) : Bool :=
  match (domainParts domain).getLast? with
  | none => false
  | some last =>
    (last ≠ "" && last.toList.all Char.isDigit) ||
      ((last.startsWith "0x" || last.startsWith "0X") && (ipv4Part? last).isSome)

/-- Whether a text is an IPv4 address. Every part but the last is a byte, and the last fills what
remains of four bytes. -/
def isIpv4 (domain : String) : Bool :=
  let parts := domainParts domain
  match parts.mapM ipv4Part? with
  | none => false
  | some values =>
    parts.length ≤ 4 && values.dropLast.all (· < 256) &&
      values.getLastD 0 < Nat.pow 256 (5 - values.length)

/-! ## Hosts -/

/-- Whether a text is an IPv6 address, followed by a bracket, as after an opening one. -/
def isBracketed (rest : List Char) : Bool :=
  rest.getLast? = some ']' && isIpv6 (String.ofList rest.dropLast)

/-- The one text of a host, if the host is well formed. -/
def host? (host : List Char) : Option String :=
  match host with
  | '[' :: rest => if isBracketed rest then some (String.ofList host) else none
  | _ =>
    ((decode? host).bind Domain.read?).filter fun domain =>
      domain ≠ "" && (!endsInNumber domain || isIpv4 domain)

/-- Whether the host of a URI without special scheme is well formed. -/
def isOpaqueHost (host : List Char) : Bool :=
  match host with
  | '[' :: rest => isBracketed rest
  | _ => host.all fun c =>
    c = '%' || !Domain.isForbidden c || (c.toNat < 0x20 && c ≠ '\x00') || c.toNat = 0x7F

end SvServer.Uri
