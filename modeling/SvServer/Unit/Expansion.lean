import SvServer.Unit.Structure

/-!
Expansion of object-like macros. The tokens of the body are checked as if they stood at the place of
the use, and what is found in them is reported there.
-/

namespace SvServer.Unit

open Hdl

/-- Uses inside bodies are expanded to this depth. -/
def expansionDepth : Nat := 16

/-- A state together with the tokens it looks back at. -/
structure Walk where
  state : State
  look : Lookback

/-- The tokens of a body, all of them placed at the use. -/
def bodyTokens (body : String) (site : Token) : List Token :=
  (tokens body.toList).map fun token => { token with start := site.start, stop := site.stop }

/-- Checks the tokens of a body; `expand` is what a use inside the body does. -/
def walkBody (file : SourceFile) (site : Token) (name : String)
    (expand : (name : String) → Walk → Walk) : List Token → Walk → Walk
  | [], walk => walk
  | token :: rest, walk =>
    if token.kind ≠ .directive then
      walkBody file site name expand rest
        ⟨walk.state.inspect file token rest walk.look, walk.look.push token⟩
    else if walk.state.isObjectLike token.text then
      walkBody file site name expand rest (expand token.text walk)
    else if !walk.state.definitions.contains token.text && !isDirectiveName token.text then
      let finding := Finding.unknownUseWithin token.text name
      walkBody file site name expand rest
        { walk with state := walk.state.find file.path (file.tokenRange site) finding }
    else walkBody file site name expand rest walk

/-- Expands a use. Below the last level nothing is expanded any more. -/
def expand (file : SourceFile) (site : Token) : (levels : Nat) → (name : String) → Walk → Walk
  | 0, _, walk => walk
  | levels + 1, name, walk =>
    match walk.state.definitions[name]? with
    | none => walk
    | some definition =>
      walkBody file site name (expand file site levels) (bodyTokens definition.body site) walk

end SvServer.Unit
