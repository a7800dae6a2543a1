import SvServer.Hdl.Token

/-!
The include names written in a text, without regard to conditional compilation. They decide which
files start compilation units.
-/

namespace SvServer.Include

open Hdl

/-- Whether a token is the include directive. -/
def isDirective (token : Token) : Bool :=
  token.kind == .directive && token.text == "include"

/-- Names of the include directives among the tokens, in order: a directive counts when the token
after it is a string that is not empty. -/
def namesOfTokens : List Token → List String
  | [] => []
  | token :: rest =>
    match rest.head? with
    | some next =>
      if isDirective token && next.kind == .string && next.text ≠ "" then
        next.text :: namesOfTokens rest
      else namesOfTokens rest
    | none => []

/-- Include names of a text, in document order. -/
def names (text : String) : List String := namesOfTokens (tokens text.toList)

end SvServer.Include
