import SvServer.Proofs.Unit.Arrival
import SvServer.Proofs.Unit.Imbalances

/-!
# A root with a part of its text exchanged

When the bytes between two places of a root are exchanged for other characters, the tokens before
the first place stay as they are, and those behind the second only move. Two such units are compared
from their first states to their results.
-/

namespace SvServer

open Hdl

/-- A text with the bytes between two places exchanged for other characters. -/
def Text.splice (text : List Char) (start stop : Nat) (middle : List Char) : List Char :=
  takeBytes text start ++ middle ++ dropBytes text stop

theorem Text.splice_append (before inner rest middle : List Char) :
    splice (before ++ (inner ++ rest)) (byteLength before) (byteLength before + byteLength inner)
      middle = before ++ (middle ++ rest) := by
  rw [splice, takeBytes_append (Nat.le_refl _), takeBytes_all, ← byteLength_append,
    ← List.append_assoc, dropBytes_all, List.append_assoc]

namespace Hdl

/-! ## Places of tokens -/

/-- A placed lexeme cuts the lexemes in two. -/
theorem exists_cut_of_placed {start : Nat} {lexemes : List Lexeme} {front rest : List (Lexeme × Nat)}
    {entry : Lexeme × Nat} (split : Lexeme.placed start lexemes = front ++ entry :: rest) :
    ∃ before behind, lexemes = before ++ entry.1 :: behind ∧ front = Lexeme.placed start before ∧
      entry.2 = start + Text.byteLength (Lexeme.flatten before) ∧
      rest = Lexeme.placed (entry.2 + Text.byteLength entry.1.chars) behind := by
  induction front generalizing start lexemes with
  | nil =>
      cases lexemes with
      | nil => cases split
      | cons lexeme lexemes =>
          obtain ⟨rfl, rfl⟩ := List.cons.inj split
          exact ⟨[], lexemes, rfl, rfl, rfl, rfl⟩
  | cons first front ih =>
      cases lexemes with
      | nil => cases split
      | cons lexeme lexemes =>
          obtain ⟨rfl, others⟩ := List.cons.inj split
          obtain ⟨before, behind, parts, left, place, right⟩ := ih others
          refine ⟨lexeme :: before, behind, by rw [parts, List.cons_append], by rw [left]; rfl, ?_,
            right⟩
          rw [place, Lexeme.flatten_cons, Text.byteLength_append, Nat.add_assoc]

theorem cut_of_lexemes {text : List Char} {before behind : List Lexeme} {lexeme : Lexeme}
    (cut : Lexeme.ofChars text = before ++ lexeme :: behind) :
    Lexeme.ofChars (Lexeme.flatten before ++ (lexeme.chars ++ Lexeme.flatten behind)) =
      before ++ Lexeme.ofChars (lexeme.chars ++ Lexeme.flatten behind) := by
  have whole : Lexeme.flatten before ++ (lexeme.chars ++ Lexeme.flatten behind) = text := by
    rw [← Lexeme.flatten_ofChars text, cut, Lexeme.flatten_append, Lexeme.flatten_cons]
  rw [whole, cut, ← Lexeme.flatten_cons, Lexeme.ofChars_flatten cut]

theorem ofChars_behind {text : List Char} {before behind : List Lexeme} {lexeme : Lexeme}
    (cut : Lexeme.ofChars text = before ++ lexeme :: behind) :
    Lexeme.ofChars (Lexeme.flatten behind) = behind := by
  rw [List.append_cons] at cut
  exact Lexeme.ofChars_flatten cut

/-- A token of a text, with the lexemes before and behind it. -/
structure CutAt (text : List Char) (front : List Token) (token : Token) (rest : List Token)
    (before : List Lexeme) (lexeme : Lexeme) (behind : List Lexeme) : Prop where
  lexemes : Lexeme.ofChars text = before ++ lexeme :: behind
  front : front = Lexeme.readFrom Lexeme.token? 0 before
  token : lexeme.token? (Text.byteLength (Lexeme.flatten before)) = some token
  rest : rest = Lexeme.readFrom Lexeme.token?
    (Text.byteLength (Lexeme.flatten before) + Text.byteLength lexeme.chars) behind

theorem exists_cutAt {text : List Char} {front rest : List Token} {token : Token}
    (split : tokens text = front ++ token :: rest) :
    ∃ before lexeme behind, CutAt text front token rest before lexeme behind := by
  obtain ⟨left, others, parts, rfl, found⟩ := List.filterMap_eq_append_iff.1 split
  obtain ⟨skipped, ⟨lexeme, place⟩, right, rfl, none, here, rfl⟩ :=
    List.filterMap_eq_cons_iff.1 found
  rw [← List.append_assoc] at parts
  obtain ⟨before, behind, lexemes, placed, rfl, rfl⟩ := exists_cut_of_placed parts
  rw [Nat.zero_add] at here ⊢
  refine ⟨before, lexeme, behind, lexemes, ?_, here, rfl⟩
  rw [Lexeme.readFrom, ← placed, List.filterMap_append, List.filterMap_eq_nil_iff.2 none,
    List.append_nil]

namespace CutAt

variable {text : List Char} {front rest : List Token} {token : Token}
variable {before behind : List Lexeme} {lexeme : Lexeme}

theorem start (cut : CutAt text front token rest before lexeme behind) :
    token.start = Text.byteLength (Lexeme.flatten before) := (Lexeme.token?_eq_some cut.token).2.2

theorem stop (cut : CutAt text front token rest before lexeme behind) :
    token.stop = Text.byteLength (Lexeme.flatten before) + Text.byteLength lexeme.chars := by
  obtain ⟨kind, -, same⟩ := Option.map_eq_some_iff.1 cut.token
  rw [← same]

theorem whole (cut : CutAt text front token rest before lexeme behind) :
    text = Lexeme.flatten before ++ (lexeme.chars ++ Lexeme.flatten behind) := by
  rw [← Lexeme.flatten_ofChars text, cut.lexemes, Lexeme.flatten_append, Lexeme.flatten_cons]

end CutAt

theorem within_readFrom {before : List Lexeme} (filled : ∀ lexeme ∈ before, lexeme.chars ≠ []) :
    Unit.Within (Lexeme.flatten before) (Lexeme.readFrom Lexeme.token? 0 before) := by
  intro token member
  obtain ⟨⟨lexeme, place⟩, placed, found⟩ := List.mem_filterMap.1 member
  obtain ⟨left, right, rfl, start⟩ := Lexeme.mem_placed placed
  rw [Nat.zero_add] at start
  obtain ⟨kind, -, rfl⟩ := Option.map_eq_some_iff.1 found
  have size := Text.byteLength_pos (filled lexeme (List.mem_append_right _ (.head _)))
  constructor
  · rw [Lexeme.flatten_append, Lexeme.flatten_cons, Text.byteLength_append, Text.byteLength_append]
    dsimp only at start ⊢
    omega
  · refine ⟨Lexeme.flatten left ++ lexeme.chars, Lexeme.flatten right, ?_, ?_⟩
    · rw [Lexeme.flatten_append, Lexeme.flatten_cons, List.append_assoc]
    · rw [Text.byteLength_append, ← start]

theorem beyond_readFrom (inner : List Char) {start : Nat} (far : Text.byteLength inner ≤ start)
    (lexemes : List Lexeme) : Unit.Beyond inner (Lexeme.readFrom Lexeme.token? start lexemes) := by
  intro token first
  obtain ⟨⟨lexeme, place⟩, placed, found⟩ := List.mem_filterMap.1 (List.mem_of_mem_head? first)
  obtain ⟨left, -, -, same⟩ := Lexeme.mem_placed placed
  rw [(Lexeme.token?_eq_some found).2.2]
  show _ ≤ place
  rw [show place = _ from same]
  exact Nat.le_trans far (Nat.le_add_right _ _)

end Hdl

namespace Unit

/-! ## Units -/

/-- The context of the root of a unit. -/
def rootContext (settings : Settings) (root : Path) (text : String) : Context :=
  Context.ofFile settings (openFileLimit - 1) [] ⟨root, text.toList⟩

/-- The state in which the tokens of a root are begun. -/
def rootStart (settings : Settings) (root : Path) (text : String) : Progress :=
  let begun := (State.initial root settings.macros).addFile root (settings.sources.revision root)
  ⟨⟨begun.begin ⟨root, text.toList⟩, .start⟩, []⟩

/-- The compile of a unit comes to this place in the text of its root. -/
def ComesTo (settings : Settings) (root : Path) (text : String) (ahead : List Token)
    (progress : Progress) : Prop :=
  (rootContext settings root text).Comes (tokens text.toList, rootStart settings root text)
    (ahead, progress)

/-- A token that a compile comes to before a place stands in front of it. -/
theorem suffix_of_comesTo {settings : Settings} {root : Path} {text : String}
    {front ahead between : List Token} {token : Token} {progress : Progress}
    (split : tokens text.toList = front ++ ahead)
    (comes : ComesTo settings root text (token :: (between ++ ahead)) progress) :
    token :: between <:+ front := by
  obtain ⟨passed, whole⟩ := suffix_of_comes comes
  have whole : passed ++ token :: (between ++ ahead) = tokens text.toList := whole
  rw [split, ← List.cons_append, ← List.append_assoc] at whole
  exact ⟨passed, List.append_cancel_right whole⟩

/-- The place that a compile comes to by so many steps. -/
def placeAfter (settings : Settings) (root : Path) (text : String) (steps : Nat) :
    List Token × Progress :=
  (rootContext settings root text).advance steps (tokens text.toList, rootStart settings root text)

theorem comesTo_placeAfter {settings : Settings} {root : Path} {text : String} {steps : Nat}
    {ahead : List Token} (here : (placeAfter settings root text steps).1 = ahead) :
    ComesTo settings root text ahead (placeAfter settings root text steps).2 := by
  rw [← here]
  exact comes_advance steps _

theorem compileUnit_eq {settings : Settings} {root : Path} {text : String}
    (read : settings.sources.text root = some text) : compileUnit settings root =
      (((rootContext settings root text).walk (tokens text.toList)
        (rootStart settings root text)).close ⟨root, text.toList⟩).finish.result := by
  rw [compileUnit, read]
  exact congrArg (fun state : State => state.finish.result) (compileFile_eq_close _ _ _ _ _)

/-- The texts are the same up to a token that begins with this character. -/
theorem exchange_of_cutAt {text text' : String} {front rest tail' : List Token} {token : Token}
    {before behind : List Lexeme} {lexeme : Lexeme}
    (cut : CutAt text.toList front token rest before lexeme behind) {c : Char} {more : List Char}
    (chars : lexeme.chars = c :: more) (lineBreak : c ≠ '\n') (bracket : c ≠ '(')
    (whole' : ∃ others, text'.toList = Lexeme.flatten before ++ others ∧ others.head? ≠ some '(')
    (beyond : Beyond (Lexeme.flatten before) tail') (settings settings' : Settings) (root : Path) :
    Exchange (rootContext settings root text) (rootContext settings' root text')
      (Lexeme.flatten before) front (token :: rest) tail' where
  whole := by
    refine ⟨c, more ++ Lexeme.flatten behind, ?_, lineBreak, bracket⟩
    show text.toList = _
    rw [cut.whole, chars]
    rfl
  whole' := whole'
  within := by
    rw [cut.front]
    intro token
    refine within_readFrom (fun lexeme member => ?_) token
    have listed : lexeme ∈ Lexeme.ofChars text.toList := by
      rw [cut.lexemes]
      exact List.mem_append_left _ member
    exact Lexeme.chars_ne_nil listed
  here := by
    rw [← cut.start]
    rfl
  beyond := beyond

variable {δ : Type} {facts : Declaration → δ}

/-- Two settings with the same definitions, and the same texts but for the root. -/
structure SameBesides (settings settings' : Settings) (root : Path) : Prop where
  macros : settings'.macros = settings.macros
  elsewhere : SameElsewhere settings settings' [root]

/-- A root alone may have any text. -/
theorem sameBesides_loneSources (text text' : String) (macros : MacroTable) (severity : Severity) :
    SameBesides ⟨loneSources text, macros, severity⟩ ⟨loneSources text', macros, severity⟩
      (.ofString "/p/top.sv") := by
  refine ⟨rfl, rfl, fun path closed => ?_⟩
  rw [List.contains_cons, List.contains_nil, Bool.or_false] at closed
  simp only [loneSources, closed, Bool.false_eq_true, if_false]

theorem SameBesides.beside {settings settings' : Settings} {root : Path}
    (same : SameBesides settings settings' root) (placeless : Placeless facts)
    (text text' : String) :
    Beside facts (rootContext settings root text) (rootContext settings' root text') where
  stack := rfl
  elsewhere := same.elsewhere
  path := rfl
  follows := @follows_compiler? _ _ placeless _ _ (openFileLimit - 1) _ same.elsewhere

theorem SameBesides.abreast_start {settings settings' : Settings} {root : Path}
    (same : SameBesides settings settings' root) {text text' : String}
    (errors : (lexicalErrors text'.toList).map LexicalError.kind =
      (lexicalErrors text.toList).map LexicalError.kind) :
    Abreast (ParallelWalks facts [] []) (rootStart settings root text)
      (rootStart settings' root text') := by
  refine ⟨⟨Parallel.begin (Parallel.addFile ⟨?_, [], rfl, rfl⟩ root _ _) errors, rfl⟩, rfl⟩
  rw [same.macros]

theorem outline_finish (state : State) : state.finish.outline facts =
    { state.outline facts with
      frames := []
      delimiters := []
      names := (state.outline facts).names ++
        List.replicate (state.outline facts).frames.length .unterminatedBlock ++
        List.replicate (state.outline facts).delimiters.length .unbalancedDelimiter } := by
  have blocks : (state.blocks.reverse.map fun block =>
      block.unterminated.located block.path block.range).map Diagnostic.name =
        List.replicate state.blocks.length .unterminatedBlock := by
    rw [List.map_map, List.eq_replicate_iff]
    refine ⟨by rw [List.length_map, List.length_reverse], fun name member => ?_⟩
    obtain ⟨block, -, rfl⟩ := List.mem_map.1 member
    rfl
  have delimiters : (state.delimiters.reverse.map fun opened =>
      (Finding.unclosedDelimiter opened.delimiter).located opened.path opened.range).map
        Diagnostic.name = List.replicate state.delimiters.length .unbalancedDelimiter := by
    rw [List.map_map, List.eq_replicate_iff]
    refine ⟨by rw [List.length_map, List.length_reverse], fun name member => ?_⟩
    obtain ⟨opened, -, rfl⟩ := List.mem_map.1 member
    rfl
  rw [State.finish, State.outline, State.outline]
  dsimp only
  rw [List.map_append, List.map_append, blocks, delimiters, List.length_map, List.length_map]
  rfl

theorem Parallel.finish {early early' : List String} {state state' : State}
    (same : Parallel facts early early' state state') :
    Parallel facts early early' state.finish state'.finish :=
  same.quiet rfl rfl (by rw [outline_finish, outline_finish, same.outline])

/-- **Units whose walks arrive alike are alike.** -/
theorem parallel_of_walks {settings settings' : Settings} {root : Path} {text text' : String}
    (read : settings.sources.text root = some text)
    (read' : settings'.sources.text root = some text') {early early' : List String}
    {last last' : Progress}
    (walked : (rootContext settings root text).walk (tokens text.toList)
      (rootStart settings root text) = last)
    (walked' : (rootContext settings' root text').walk (tokens text'.toList)
      (rootStart settings' root text') = last')
    (same : Abreast (fun walk walk' => Parallel facts early early' walk.state walk'.state)
      last last') :
    ∃ state state', compileUnit settings root = state.result ∧
      compileUnit settings' root = state'.result ∧ Parallel facts early early' state state' := by
  refine ⟨_, _, compileUnit_eq read, compileUnit_eq read', Parallel.finish ?_⟩
  rw [walked, walked']
  exact Parallel.close same same.walk _ _

end Unit

end SvServer
