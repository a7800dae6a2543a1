import SvServer.Hdl.Lexeme
import SvServer.Text.Position
import SvServer.Unit.Basic
import SvServer.Uri.Write

/-!
Where the design element under the cursor is declared.
-/

namespace SvServer

/-- A stretch of a file, as the editor is told it. -/
structure Location where
  uri : String
  range : Range
deriving DecidableEq, Repr

namespace Definition

/-- The identifier that the byte at an offset touches, from either side. -/
def identifierAt? (text : List Char) (offset : Nat) : Option String :=
  let before := (Text.takeBytes text offset).reverse.takeWhile Hdl.isIdentifierChar
  let after := (Text.dropBytes text offset).takeWhile Hdl.isIdentifierChar
  match before.reverse ++ after with
  | [] => none
  | c :: rest => if Hdl.isIdentifierStart c then some (String.ofList (c :: rest)) else none

/-- Where the word under a cursor is declared, in the order of the declarations. -/
def locations (text : List Char) (cursor : Position) (declarations : List Declaration) :
    List Location :=
  match identifierAt? text (Text.offset text cursor) with
  | none => []
  | some word =>
    (declarations.filter fun d => d.name = word).filterMap fun d =>
      (Uri.ofPath? d.path).map fun uri => ⟨uri, d.range⟩

end Definition

end SvServer
