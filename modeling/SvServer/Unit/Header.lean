import SvServer.Unit.Basic
import SvServer.Hdl.Token

/-!
The header of a design element, read from the tokens that follow its keyword: name, parameters,
ports. Also the shape of an instantiation. Everything works on the tokens ahead and consumes none of
them for the reader that asked.
-/

namespace SvServer.Unit

open Hdl

/-- The tokens after a balanced group, of which `depth` delimiters are open already. A semicolon
breaks a group off. -/
def afterGroup? : Nat → List Token → Option (List Token)
  | _, [] => none
  | depth, token :: rest =>
    match token.kind with
    | .opening _ => afterGroup? (depth + 1) rest
    | .closing _ =>
      match depth with
      | 0 => none
      | 1 => some rest
      | depth + 1 => afterGroup? depth rest
    | .other => if token.text = ";" then none else afterGroup? depth rest
    | _ => afterGroup? depth rest

/-- The name that a design element declares, with the tokens after it: the first identifier among
the next few tokens that is not a lifetime. -/
def declaredName? : Nat → List Token → Option (Token × List Token)
  | 0, _ => none
  | _, [] => none
  | count + 1, token :: rest =>
    if token.kind == .identifier && token.text ≠ "automatic" && token.text ≠ "static" then
      some (token, rest)
    else declaredName? count rest

/-- How many tokens are searched for the declared name. -/
def nameReach : Nat := 3

/-- An item of a parameter list, read in part. -/
structure ParameterItem where
  name : Option String
  default : Option String

/-- The parameter of a finished item, if it names one. -/
def ParameterItem.toList (item : ParameterItem) : List Parameter :=
  match item.name with
  | some name => [⟨name, item.default.getD ""⟩]
  | none => []

/-- One more token of an item: it belongs to the default once there is one, and otherwise the last
identifier that is no keyword is the name. -/
def ParameterItem.take (item : ParameterItem) (token : Token) : ParameterItem :=
  match item.default with
  | some value =>
    let text := if token.kind == .string then "\"" ++ token.text ++ "\"" else token.text
    { item with default := some (value ++ text) }
  | none =>
    if token.kind == .identifier && !isReserved token.text then
      { item with name := some token.text }
    else item

/-- The parameters of a list whose opening parenthesis was read. -/
def parametersFrom : Nat → ParameterItem → List Token → List Parameter
  | _, item, [] => item.toList
  | depth, item, token :: rest =>
    match depth, token.kind with
    | 0, .closing _ => item.toList
    | 0, .other =>
      if token.text = ";" then item.toList
      else if token.text = "," then item.toList ++ parametersFrom 0 ⟨none, none⟩ rest
      else if token.text = "=" ∧ item.default = none then
        parametersFrom 0 { item with default := some "" } rest
      else parametersFrom 0 (item.take token) rest
    | depth, .opening _ => parametersFrom (depth + 1) (item.take token) rest
    | depth + 1, .closing _ => parametersFrom depth (item.take token) rest
    | depth, _ => parametersFrom depth (item.take token) rest

/-- The parameters of the header that begins with these tokens. -/
def parametersOf : List Token → List Parameter
  | hash :: opener :: rest =>
    if hash.text = "#" ∧ opener.kind = .opening .paren then parametersFrom 0 ⟨none, none⟩ rest
    else []
  | _ => []

/-- The ports of a list whose opening parenthesis was read: the last identifier of each item. -/
def portsFrom : Nat → Option String → List Token → List String
  | _, last, [] => last.toList
  | depth, last, token :: rest =>
    match depth, token.kind with
    | 0, .closing _ => last.toList
    | depth, .opening _ => portsFrom (depth + 1) last rest
    | depth + 1, .closing _ => portsFrom depth last rest
    | 0, .other =>
      if token.text = ";" then last.toList
      else if token.text = "," then last.toList ++ portsFrom 0 none rest
      else portsFrom 0 last rest
    | 0, .identifier => portsFrom 0 (if isReserved token.text then last else some token.text) rest
    | depth, _ => portsFrom depth last rest

/-- The ports of the header that begins with these tokens, after its parameters if it has some. -/
def portsOf (tokens : List Token) : List String :=
  let start := match tokens with
    | hash :: rest => if hash.text = "#" then afterGroup? 0 rest else some tokens
    | [] => none
  match start with
  | some (opener :: rest) => if opener.kind = .opening .paren then portsFrom 0 none rest else []
  | _ => []

/-! ## Instantiations -/

/-- The tokens after any number of bracket groups. -/
def afterBrackets? (tokens : List Token) : Option (List Token) :=
  go tokens.length tokens
where
  /-- Each group takes at least one token, so their number is bounded by that of the tokens. -/
  go : Nat → List Token → Option (List Token)
    | 0, tokens => some tokens
    | _ + 1, [] => some []
    | bound + 1, token :: rest =>
      if token.kind = .opening .bracket then
        match afterGroup? 1 rest with
        | none => none
        | some after => go bound after
      else some (token :: rest)

/-- The tokens after the parameter values or the delay of an instance, if it has some. -/
def afterParameters? : List Token → Option (List Token)
  | [] => none
  | token :: rest =>
    if token.text = "#" then
      match rest with
      | [] => none
      | value :: after => if value.kind = .opening .paren then afterGroup? 1 after else some after
    else some (token :: rest)

/-- Whether the tokens after a word make it the target of an instantiation:
`[#(params) | #delay] instance [dims] (`. -/
def isInstantiation (tokens : List Token) : Bool :=
  match afterParameters? tokens with
  | some (instanceName :: rest) =>
    instanceName.kind == .identifier && !isReserved instanceName.text &&
      match afterBrackets? rest with
      | some (opener :: _) => opener.kind == .opening .paren
      | _ => false
  | _ => false

end SvServer.Unit
