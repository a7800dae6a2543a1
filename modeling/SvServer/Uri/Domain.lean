import SvServer.Uri.Domain.Composition
import SvServer.Uri.Domain.Direction
import SvServer.Uri.Domain.Joiner
import SvServer.Uri.Domain.Mapping
import SvServer.Uri.Domain.Punycode

/-!
Domains. A domain is a row of labels with dots between them. Two spellings of one domain are brought
to one text, and a text that no domain may have is refused.
-/

namespace SvServer.Uri.Domain

/-- Characters that no host contains. -/
def isForbidden (c : Char) : Bool :=
  c.toNat ≤ 0x20 || c.toNat = 0x7F ||
    ['#', '/', ':', '<', '>', '?', '@', '[', '\\', ']', '^', '|', '%'].contains c

/-- The longest label with characters that are not ASCII. -/
def maxLabel : Nat := 1000

/-- The longest written form of a label, without its mark. -/
def maxWritten : Nat := 2000

/-- Whether all characters are ASCII. -/
def isAscii (text : List Char) : Bool := text.all fun c => c.toNat < 0x80

/-- Whether a text is in the one spelling that it has in a domain. -/
def isSettled (text : List Char) : Bool := map? text == some text && compose text == text

/-- What a label says. The mark `xn--` says that the rest is the written form of a label with
characters that are not ASCII. -/
def meaning? (label : List Char) : Option (List Char) :=
  match label with
  | 'x' :: 'n' :: '-' :: '-' :: written =>
    if isAscii written ∧ written.length ≤ maxWritten then
      (Punycode.decode? written).filter fun said =>
        !isAscii said && !(['x', 'n', '-', '-'].isPrefixOf said) && isSettled said
    else none
  | _ => if isAscii label ∨ label.length ≤ maxLabel then some label else none

/-- Whether a label may stand in a domain, as far as it can be told from the label alone. -/
def isLabel (label : List Char) : Bool := !label.head?.any isMark && joinersFit [] label

/-- The labels of a domain. -/
def labels : List Char → List (List Char)
  | [] => [[]]
  | c :: rest =>
    if c = '.' then [] :: labels rest
    else match labels rest with
      | [] => [[c]]
      | first :: more => (c :: first) :: more

/-- The one text of a domain, if it is a domain at all. -/
def read? (text : String) : Option String := do
  let domain := compose (← map? text.toList)
  let said ← (labels domain).mapM meaning?
  if !domain.any isForbidden && said.all isLabel &&
      (!said.any runsRight || said.all runsOneWay) then
    some (String.ofList domain)
  else none

end SvServer.Uri.Domain
