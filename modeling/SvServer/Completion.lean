import SvServer.Completion.Snippet
import SvServer.Text.Blank
import SvServer.Text.Position
import SvServer.Unit.Basic

/-!
Completion of what is typed on a line. What counts is all of the line before the cursor but the
blanks it begins with, so that a label of two words is found too. Snippets of the language come
first, then one instantiation for every name that a design element can be instantiated by.
-/

namespace SvServer

/-- What an item inserts: a construct of the language or an instance of a design element. -/
inductive CompletionKind where
  | construct
  | instantiation
deriving DecidableEq, Repr

/-- One line of the list that the editor offers. -/
structure CompletionItem where
  label : String
  kind : CompletionKind
  detail : String
  /-- What is replaced -/
  range : Range
  /-- The snippet put there -/
  text : String
deriving DecidableEq, Repr

namespace Completion

/-- What was typed on the line before the cursor. -/
def typed (text : List Char) (cursor : Position) : List Char :=
  let start := Text.offset text ⟨cursor.line, 0⟩
  (Text.slice text start (Text.offset text cursor)).dropWhile Text.isBlank

/-- The range of what was typed. -/
def typedRange (typed : List Char) (cursor : Position) : Range :=
  ⟨⟨cursor.line, cursor.character - typed.foldl (fun total c => total + units16 c) 0⟩, cursor⟩

/-- Whether a label begins with what was typed. -/
def fits (typed : List Char) (label : String) : Bool := typed.isPrefixOf label.toList

/-- What stands behind a label in the list. -/
def detail (description : String) : String := " - " ++ description

/-- The item of a snippet. -/
def ofSnippet (range : Range) (snippet : Snippet) : CompletionItem :=
  ⟨snippet.label, .construct, detail snippet.description, range,
    SnippetPart.renderAll snippet.parts⟩

/-- One connection a line: the name, and a place for what it is connected to. Places are numbered
from `first` on. -/
def connections (first : Nat) (entries : List (String × String)) : List SnippetPart :=
  List.flatten ((entries.zipIdx first).map fun ((name, text), number) =>
    [.plain ((if number = first then "  ." else ",\n  .") ++ name ++ "("), .placeholder number text,
      .plain ")"])

/-- An instance of a design element. Every parameter, the name of the instance and every port is a
place, numbered in this order. -/
def instantiation (declaration : Declaration) : List SnippetPart :=
  let parameters := declaration.parameters.map fun p => (p.name, SnippetPart.escape p.default)
  let ports := declaration.ports.map fun port => (port, port)
  let count := parameters.length
  let parameterPart : List SnippetPart :=
    if parameters.isEmpty then [.plain " "]
    else [.plain " #(\n"] ++ connections 1 parameters ++ [.plain "\n) "]
  let portPart : List SnippetPart :=
    if ports.isEmpty then [] else connections (count + 2) ports ++ [.plain "\n"]
  [.plain declaration.name] ++ parameterPart ++
    [.placeholder (count + 1) "instance_name", .plain " (\n"] ++ portPart ++ [.plain ");\n", .final]

/-- The item of a design element. -/
def ofDeclaration (range : Range) (declaration : Declaration) : CompletionItem :=
  ⟨declaration.name, .instantiation, detail (declaration.kind.text ++ " instantiation"), range,
    SnippetPart.renderAll (instantiation declaration)⟩

/-- The first declaration of every name. -/
def firstOfEachName (declarations : List Declaration) : List Declaration :=
  declarations.foldl (fun kept d =>
    if kept.any fun k => k.name = d.name then kept else kept ++ [d]) []

/-- The design elements that are offered. -/
def offered (typed : List Char) (declarations : List Declaration) : List Declaration :=
  firstOfEachName (declarations.filter fun d => d.kind.isInstantiable && fits typed d.name)

/-- The completions at a cursor, in the order in which they are offered. -/
def items (text : List Char) (cursor : Position) (declarations : List Declaration) :
    List CompletionItem :=
  let typed := typed text cursor
  let range := typedRange typed cursor
  (Snippet.all.filter fun s => fits typed s.label).map (ofSnippet range) ++
    (offered typed declarations).map (ofDeclaration range)

end Completion

end SvServer
