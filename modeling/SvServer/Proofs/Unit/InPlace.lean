import Mathlib.Data.List.Infix
import SvServer.Proofs.Unit.Splice

/-!
# Expansions in place

An active use of an object-like macro does to a unit what its body would do in its place. This holds
as long as no word looks over an edge of the body: the tokens of a body are checked without the
tokens behind the use, and the words before the use see the use itself.
-/

namespace SvServer

open Hdl

namespace Hdl

/-! ## A directive exchanged for a text -/

/-- The text before a directive has the same lexemes alone. -/
theorem ofChars_before_directive {text : List Char} {before behind : List Lexeme} {lexeme : Lexeme}
    (cut : Lexeme.ofChars text = before ++ lexeme :: behind) (directive : lexeme.kind = .directive) :
    Lexeme.ofChars (Lexeme.flatten before) = before := by
  have listed : lexeme ∈ Lexeme.ofChars text := by
    rw [cut]
    exact List.mem_append_right _ (.head _)
  obtain ⟨d, more, chars, -⟩ := Lexeme.chars_of_directive listed directive
  have edge : Edge (lexeme.chars ++ Lexeme.flatten behind) [] := by
    rw [chars]
    exact .nothing (.inr rfl) _
  have alone := Lexeme.ofChars_edge edge (cut_of_lexemes cut)
  rwa [List.append_nil, Lexeme.ofChars_nil, List.append_nil] at alone

/-- **A text in the place of a directive**, with blanks around it, is read as it is alone. -/
theorem readFrom_inPlace {text : List Char} {before behind : List Lexeme} {lexeme : Lexeme}
    (cut : Lexeme.ofChars text = before ++ lexeme :: behind) (directive : lexeme.kind = .directive)
    (ends : EndsWhole (Lexeme.flatten before)) {body : List Char} (bodyEnds : EndsWhole body)
    {β : Type} (read : Lexeme → Nat → Option β)
    (skips : ∀ lexeme start, lexeme.kind = .blank → read lexeme start = none) :
    Lexeme.readFrom read 0 (Lexeme.ofChars
        (Lexeme.flatten before ++ ' ' :: (body ++ ' ' :: Lexeme.flatten behind))) =
      Lexeme.readFrom read 0 before ++
        (Lexeme.readFrom read (Text.byteLength (Lexeme.flatten before) + 1) (Lexeme.ofChars body) ++
          Lexeme.readFrom read
            (Text.byteLength (Lexeme.flatten before ++ ' ' :: (body ++ [' ']))) behind) := by
  rw [ends.readFrom read skips, ofChars_before_directive cut directive,
    bodyEnds.readFrom read skips, ofChars_behind cut]
  congr 2
  · rw [Nat.zero_add]
  · congr 1
    rw [Text.byteLength_append, Text.byteLength_cons, Text.byteLength_append, Text.byteLength_cons,
      Text.byteLength_nil, show ' '.utf8Size = 1 from rfl]
    omega

end Hdl

namespace Unit

variable {δ : Type} {facts : Declaration → δ}

/-! ## The body in a file -/

section Body

variable {related : Walk → Walk → Prop} (tied : Tied facts related) {context context' : Context}
variable (path : context'.file.path = context.file.path) {place : Token → Token}
variable (places : ∀ token, plain (place token) = plain token) {rest rest' : List Token}
variable (behind : rest'.map plain = rest.map plain)

include tied path places behind

/-- Active tokens without a directive among them are checked one after the other, as they are in a
body. -/
theorem Tied.body {words words' : List Token} (plainly : words'.map plain = words.map plain)
    (undirected : ∀ token ∈ words, token.kind ≠ .directive)
    (sees : ∀ front word more, words = front ++ word :: more → word.kind = .identifier →
      outlook facts context.file.path word (more ++ rest) =
        outlook facts context.file.path word more)
    {chains : List Chain} (active : Chain.isActive chains = true) (site : Token) (name : String)
    (expand : String → Walk → Walk) {walk walk' : Walk} (same : related walk walk') :
    ∃ after', context'.Comes (words' ++ rest', ⟨walk', chains⟩) (rest', ⟨after', chains⟩) ∧
      related (Unit.walkBody context.file site name expand (words.map place) walk) after' := by
  induction words generalizing words' walk walk' with
  | nil =>
      rw [List.map_eq_nil_iff.1 plainly]
      exact ⟨walk', .refl, same⟩
  | cons token words ih =>
      obtain ⟨token', words', rfl, here, others⟩ := List.map_eq_cons_iff.1 plainly
      have kind : (place token).kind ≠ .directive := by
        rw [(Prod.mk.inj (places token)).1]
        exact undirected token (.head _)
      have kind' : token'.kind ≠ .directive := by
        rw [(Prod.mk.inj here).1]
        exact undirected token (.head _)
      have placed : (words.map place).map plain = words.map plain := by
        rw [List.map_map]
        exact List.map_congr_left fun token _ => places token
      have ahead (word : (place token).kind = .identifier) :
          outlook facts context'.file.path token' (words' ++ rest') =
            outlook facts context.file.path (place token) (words.map place) := by
        have sees := sees [] token words rfl ((Prod.mk.inj (places token)).1.symm.trans word)
        rw [path, outlook_congr context.file.path (places token) placed, ← sees]
        refine outlook_congr _ here ?_
        rw [List.map_append, List.map_append, others, behind]
      have checked := tied.inspect same (here.trans (places token).symm) ahead
      obtain ⟨after', comes, last⟩ := ih others (fun token member => undirected token (.tail _ member))
        (fun front word more split => sees (token :: front) word more (by rw [split]; rfl)) checked
      refine ⟨after', Relation.ReflTransGen.head ?_ comes, ?_⟩
      · have next : context'.Next _ _ := .step token' (words' ++ rest') ⟨walk', chains⟩
        rwa [context'.step_of_checked _ active kind'] at next
      · rw [List.map_cons, Unit.walkBody, if_pos kind]
        exact last

end Body

/-! ## Uses -/

/-- An active use of an object-like macro in the text of a root. -/
structure ActiveUse (settings : Settings) (root : Path) (text : String) (use : Token)
    (rest : List Token) (progress : Progress) (definition : Definition) : Prop where
  comes : ComesTo settings root text (use :: rest) progress
  active : Chain.isActive progress.chains = true
  directive : use.kind = .directive
  objectLike : progress.walk.state.isObjectLike use.text = true
  known : progress.walk.state.definitions[use.text]? = some definition

/-- A body without directives in which no comment and no string is left open. -/
structure PlainBody (body : String) : Prop where
  undirected : ∀ token ∈ tokens body.toList, token.kind ≠ .directive
  errors : lexicalErrors body.toList = []
  ends : EndsWhole body.toList

/-- A text with the body of a macro, between blanks, in the place of a use. -/
def inPlace (text : String) (use : Token) (body : String) : String :=
  String.ofList (Text.splice text.toList use.start use.stop (' ' :: (body.toList ++ [' '])))

/-- **No word looks over an edge of the body**: each that is checked sees the same when the body
stands in the place of the use. -/
structure SeesNoEdge (facts : Declaration → δ) (settings : Settings) (root : Path) (text : String)
    (use : Token) (rest : List Token) (body : String) : Prop where
  before : ∀ word between progress,
    ComesTo settings root text (word :: (between ++ use :: rest)) progress →
    Chain.isActive progress.chains = true → word.kind = .identifier →
    outlook facts root word (between ++ (tokens body.toList ++ rest)) =
      outlook facts root word (between ++ use :: rest)
  inside : ∀ front word more, tokens body.toList = front ++ word :: more →
    word.kind = .identifier →
    outlook facts root word (more ++ rest) = outlook facts root word more
  /-- The use does not stand on the line of a conditional directive that has no name. -/
  operand : ∀ directive progress, ComesTo settings root text (directive :: use :: rest) progress →
    takesOperand directive = true →
    SourceFile.lineEnd ⟨root, text.toList⟩ directive ≤ use.start

/-- What the words of the root and of the body see can be compared word by word. -/
theorem SeesNoEdge.of_tails {settings : Settings} {root : Path} {text body : String} {use : Token}
    {front rest : List Token} (split : tokens text.toList = front ++ use :: rest)
    (before : ∀ words ∈ front.tails, ∀ word ∈ words.head?,
      outlook facts root word (words.tail ++ (tokens body.toList ++ rest)) =
        outlook facts root word (words.tail ++ use :: rest))
    (inside : ∀ words ∈ (tokens body.toList).tails, ∀ word ∈ words.head?,
      outlook facts root word (words.tail ++ rest) = outlook facts root word words.tail)
    (operand : ∀ directive ∈ front.getLast?, takesOperand directive = true →
      SourceFile.lineEnd ⟨root, text.toList⟩ directive ≤ use.start) :
    SeesNoEdge facts settings root text use rest body := by
  refine ⟨fun word between _ comes _ _ => ?_, fun passed word more whole _ => ?_,
    fun directive _ comes => ?_⟩
  · exact before _ ((List.mem_tails _ _).2 (suffix_of_comesTo split comes)) word rfl
  · exact inside _ ((List.mem_tails _ _).2 ⟨passed, whole.symm⟩) word rfl
  · obtain ⟨passed, whole⟩ : [directive] <:+ front := suffix_of_comesTo split comes
    exact operand directive (whole ▸ List.getLast?_concat)

section Texts

variable {text : String} {front rest : List Token} {use : Token}
variable {before behind : List Lexeme} {lexeme : Lexeme}
variable (cut : CutAt text.toList front use rest before lexeme behind)

include cut

theorem toList_inPlace (body : String) : (inPlace text use body).toList =
    Lexeme.flatten before ++ ' ' :: (body.toList ++ ' ' :: Lexeme.flatten behind) := by
  rw [inPlace, String.toList_ofList, cut.start, cut.stop, cut.whole, Text.splice_append]
  simp only [List.cons_append, List.append_assoc, List.nil_append]

/-- The tokens behind the use are the same, and so is what directives read there. -/
theorem sameWords_inPlace (root : Path) (body : String) :
    SameWords ⟨root, text.toList⟩ ⟨root, (inPlace text use body).toList⟩ rest
      (Lexeme.readFrom Lexeme.token?
        (Text.byteLength (Lexeme.flatten before ++ ' ' :: (body.toList ++ [' ']))) behind) := by
  rw [cut.rest, ← Text.byteLength_append]
  refine sameWords_moved (ofChars_behind cut.lexemes) ?_ ?_
  · rw [cut.whole, List.append_assoc]
  · rw [toList_inPlace cut]
    simp only [List.cons_append, List.append_assoc, List.nil_append]

variable (directive : use.kind = .directive)

include directive

theorem kind_of_use : lexeme.kind = .directive :=
  Lexeme.kind_of_tokenKind? <|
    (Lexeme.token?_eq_some cut.token).1.trans (congrArg some directive)

/-- The texts are the same up to the use. -/
theorem exchange_inPlace (settings settings' : Settings) (root : Path) (body : String) :
    Exchange (rootContext settings root text) (rootContext settings' root (inPlace text use body))
      (Lexeme.flatten before) front (use :: rest)
      ((tokens body.toList).map (Token.shift (Text.byteLength (Lexeme.flatten before) + 1)) ++
        Lexeme.readFrom Lexeme.token?
          (Text.byteLength (Lexeme.flatten before ++ ' ' :: (body.toList ++ [' ']))) behind) := by
  have listed : lexeme ∈ Lexeme.ofChars text.toList := by
    rw [cut.lexemes]
    exact List.mem_append_right _ (.head _)
  obtain ⟨d, name, chars, -⟩ := Lexeme.chars_of_directive listed (kind_of_use cut directive)
  refine exchange_of_cutAt cut chars (by decide) (by decide) ⟨_, toList_inPlace cut body, ?_⟩ ?_
    settings settings' root
  · exact fun same => absurd (Option.some.inj same) (by decide)
  · rw [tokens_eq, ← readFrom_token?]
    refine .append (beyond_readFrom _ (by omega) _) (beyond_readFrom _ ?_ _)
    rw [Text.byteLength_append]
    exact Nat.le_add_right _ _

variable (ends : EndsWhole (Text.takeBytes text.toList use.start))
variable {body : String} (plainBody : PlainBody body)

include ends plainBody

theorem readFrom_text {β : Type} (read : Lexeme → Nat → Option β)
    (skips : ∀ lexeme start, lexeme.kind = .blank → read lexeme start = none) :
    Lexeme.readFrom read 0 (Lexeme.ofChars (inPlace text use body).toList) =
      Lexeme.readFrom read 0 before ++
        (Lexeme.readFrom read (Text.byteLength (Lexeme.flatten before) + 1)
            (Lexeme.ofChars body.toList) ++
          Lexeme.readFrom read
            (Text.byteLength (Lexeme.flatten before ++ ' ' :: (body.toList ++ [' ']))) behind) := by
  rw [cut.whole, cut.start, Text.takeBytes_append (Nat.le_refl _), Text.takeBytes_all] at ends
  rw [toList_inPlace cut]
  exact readFrom_inPlace cut.lexemes (kind_of_use cut directive) ends plainBody.ends read skips

/-- The tokens of the new text are those before the use, those of the body and those behind. -/
theorem tokens_inPlace : tokens (inPlace text use body).toList = front ++
    ((tokens body.toList).map (Token.shift (Text.byteLength (Lexeme.flatten before) + 1)) ++
      Lexeme.readFrom Lexeme.token?
        (Text.byteLength (Lexeme.flatten before ++ ' ' :: (body.toList ++ [' ']))) behind) := by
  rw [tokens_eq, readFrom_text cut directive ends plainBody Lexeme.token? Lexeme.token?_of_blank, ← cut.front,
    tokens_eq, ← readFrom_token?, Nat.add_zero]

/-- Nothing else is wrong in the new text than was before. -/
theorem errors_inPlace : (lexicalErrors (inPlace text use body).toList).map LexicalError.kind =
    (lexicalErrors text.toList).map LexicalError.kind := by
  have kinds (text : List Char) : (lexicalErrors text).map LexicalError.kind =
      (Lexeme.ofChars text).filterMap Lexeme.errorKind? := map_kind_readFrom 0 _
  have inBody : (Lexeme.ofChars body.toList).filterMap Lexeme.errorKind? = [] := by
    rw [← kinds, plainBody.errors]
    rfl
  have inUse : lexeme.errorKind? = none := by
    rw [Lexeme.errorKind?, Lexeme.error?, kind_of_use cut directive]
    rfl
  have reads := readFrom_text cut directive ends plainBody Lexeme.error? Lexeme.error?_of_blank
  have found : lexicalErrors (inPlace text use body).toList =
    Lexeme.readFrom Lexeme.error? 0 (Lexeme.ofChars (inPlace text use body).toList) := rfl
  rw [found, reads, List.map_append, List.map_append, map_kind_readFrom, map_kind_readFrom,
    map_kind_readFrom, kinds, cut.lexemes, inBody, List.filterMap_append,
    List.filterMap_cons_none inUse]
  rfl

end Texts

/-- An active use goes on behind itself with what the body leaves. -/
theorem walk_of_use (context : Context) {use : Token} (rest : List Token) {progress : Progress}
    {definition : Definition} (active : Chain.isActive progress.chains = true)
    (directive : use.kind = .directive)
    (objectLike : progress.walk.state.isObjectLike use.text = true)
    (known : progress.walk.state.definitions[use.text]? = some definition) :
    context.walk (use :: rest) progress = context.walk rest
      ⟨walkBody context.file use use.text (expand context.file use 15)
        (bodyTokens definition.body use) progress.walk, progress.chains⟩ := by
  have word : role? use = none := by
    cases role : role? use with
    | none => rfl
    | some _ =>
        rw [isObjectLike_of_role role] at objectLike
        cases objectLike
  rw [context.walk_cons, context.step_of_word _ _ word, if_pos active, wordsUsed,
    takesLine_of_isObjectLike objectLike, Context.act, if_pos directive, if_pos objectLike,
    expansionDepth, expand, known]
  rfl

/-- **Expansion is in place**, for everything but places. -/
theorem parallel_inPlace (placeless : Placeless facts) {settings settings' : Settings} {root : Path}
    (besides : SameBesides settings settings' root) {text : String} {use : Token}
    {rest : List Token} {progress : Progress} {definition : Definition}
    (active : ActiveUse settings root text use rest progress definition)
    (plainBody : PlainBody definition.body)
    (ends : EndsWhole (Text.takeBytes text.toList use.start))
    (sees : SeesNoEdge facts settings root text use rest definition.body)
    (read : settings.sources.text root = some text)
    (read' : settings'.sources.text root = some (inPlace text use definition.body)) :
    ∃ state state', compileUnit settings root = state.result ∧
      compileUnit settings' root = state'.result ∧ Parallel facts [] [] state state' := by
  obtain ⟨front, split⟩ := suffix_of_comes active.comes
  have split : front ++ use :: rest = tokens text.toList := split
  obtain ⟨before, lexeme, behind, cut⟩ := exists_cutAt split.symm
  have words := tokens_inPlace cut active.directive ends plainBody
  have errors := errors_inPlace cut active.directive ends plainBody
  have alike := sameWords_inPlace cut root definition.body
  have exchange := exchange_inPlace cut active.directive settings settings' root definition.body
  generalize inPlace text use definition.body = text' at words errors alike exchange read'
  generalize Lexeme.readFrom Lexeme.token? (Text.byteLength (Lexeme.flatten before ++
    ' ' :: (definition.body.toList ++ [' ']))) behind = rest' at words alike exchange
  have tied := tied_parallelWalks placeless [] []
  have beside := besides.beside placeless text text'
  have bodyPlainly (count : Nat) : ((tokens definition.body.toList).map (Token.shift count)).map plain =
      (tokens definition.body.toList).map plain := by
    rw [List.map_map]
    rfl
  -- Up to the use
  have comes := active.comes
  rw [ComesTo, ← split] at comes
  obtain ⟨⟨walk', chains'⟩, comes', both⟩ := tied.comes beside exchange
    (fun word between reached comes active word' => by
      rw [split] at comes
      refine (outlook_congr root rfl ?_).trans (sees.before word between reached comes active word')
      rw [List.map_append, List.map_append, bodyPlainly, alike.plainly, List.map_append,
        List.map_append])
    (fun directive reached comes takes => by
      rw [split] at comes
      exact exchange.operandName_eq (cut.start ▸ sees.operand directive reached comes takes))
    (besides.abreast_start errors) [] comes
  -- The use and the body
  have stepped := walk_of_use (rootContext settings root text) rest active.active active.directive
    active.objectLike active.known
  have path : (rootContext settings' root text').file.path =
    (rootContext settings root text).file.path := rfl
  let place (token : Token) : Token := { token with start := use.start, stop := use.stop }
  have places (token : Token) : plain (place token) = plain token := rfl
  obtain ⟨after', inserted, expanded⟩ := tied.body path places alike.plainly (bodyPlainly (Text.byteLength (Lexeme.flatten before) + 1)) plainBody.undirected
    sees.inside ((Chain.isActive_congr both.chains).trans active.active) use use.text
    (expand ⟨root, text.toList⟩ use 15) both.walk
  -- Behind the use
  have abreast : Abreast (ParallelWalks facts [] []) ⟨_, progress.chains⟩ ⟨after', chains'⟩ :=
    ⟨expanded, both.chains⟩
  have last := tied.walk beside alike abreast
  have walked := (walk_of_comes comes).trans stepped
  have walked' := (walk_of_comes comes').trans (walk_of_comes inserted)
  rw [split] at walked
  rw [← words] at walked'
  exact parallel_of_walks read read' walked walked' ⟨last.walk.state, last.chains⟩

end Unit

/-! ## What a unit gives -/

/-- **Expansion is in place** where no word looks over an edge of the body. -/
theorem compileUnit_inPlace {settings settings' : Unit.Settings} {root : Path}
    (besides : Unit.SameBesides settings settings' root) {text : String} {use : Token}
    {rest : List Token} {progress : Unit.Progress} {definition : Unit.Definition}
    (active : Unit.ActiveUse settings root text use rest progress definition)
    (plainBody : Unit.PlainBody definition.body)
    (ends : EndsWhole (Text.takeBytes text.toList use.start))
    (sees : Unit.SeesNoEdge (fun d => (d.name, d.kind)) settings root text use rest definition.body)
    (read : settings.sources.text root = some text)
    (read' : settings'.sources.text root = some (Unit.inPlace text use definition.body)) :
    let result := compileUnit settings root
    let result' := compileUnit settings' root
    result'.diagnostics.map (·.name) = result.diagnostics.map (·.name) ∧
      result'.declarations.map (fun d => (d.name, d.kind)) =
        result.declarations.map (fun d => (d.name, d.kind)) ∧
      result'.instantiations.map (·.target) = result.instantiations.map (·.target) := by
  obtain ⟨state, state', compiled, compiled', same⟩ :=
    Unit.parallel_inPlace (fun _ _ => rfl) besides active plainBody ends sees read read'
  obtain ⟨later, targets, targets'⟩ := same.targets
  intro result result'
  rw [show result = state.result from compiled, show result' = state'.result from compiled']
  exact ⟨congrArg Unit.Outline.names same.outline, congrArg Unit.Outline.declarations same.outline,
    targets'.trans targets.symm⟩

/-- An instantiation that a body holds as a whole. -/
theorem compileUnit_inPlace_of_instance :
    let text := "`define INST sub u ();\nmodule top;\n`INST\nendmodule\n"
    let use : Token := ⟨.directive, "INST", 35, 40⟩
    let targets (text : String) := (compileUnit ⟨loneSources text, .empty, .warning⟩
      (.ofString "/p/top.sv")).instantiations.map (·.target)
    targets text = ["sub"] ∧ targets (Unit.inPlace text use "sub u ();") = ["sub"] := by
  intro text use targets
  let settings (text : String) : Unit.Settings := ⟨loneSources text, .empty, .warning⟩
  have active : Unit.ActiveUse (settings text) (.ofString "/p/top.sv") text use
      [⟨.identifier, "endmodule", 41, 50⟩]
      (Unit.placeAfter (settings text) (.ofString "/p/top.sv") text 4).2
      ⟨"sub u ();", false, false⟩ :=
    ⟨Unit.comesTo_placeAfter (by decide +kernel), by decide +kernel, by decide, by decide +kernel,
      by decide +kernel⟩
  have plainBody : Unit.PlainBody "sub u ();" :=
    ⟨by decide +kernel, by decide +kernel, by decide +kernel⟩
  have sees : Unit.SeesNoEdge (fun d => (d.name, d.kind)) (settings text) (.ofString "/p/top.sv")
      text use [⟨.identifier, "endmodule", 41, 50⟩] "sub u ();" := by
    have split : tokens text.toList = (tokens text.toList).take 10 ++
        use :: [⟨.identifier, "endmodule", 41, 50⟩] := by decide +kernel
    exact .of_tails split (by decide +kernel) (by decide +kernel) (by decide +kernel)
  have same := compileUnit_inPlace (Unit.sameBesides_loneSources text _ _ _) active plainBody
    (by decide +kernel) sees rfl rfl
  have whole : targets text = ["sub"] := by decide +kernel
  exact ⟨whole, same.2.2.trans whole⟩

/-- **A word looks over the edge of a body.** The target of an instantiation does not see the
connections behind the use, and is passed over. -/
theorem compileUnit_inPlace_ne :
    let text := "`define INST sub u\nmodule top;\n`INST ();\nendmodule\n"
    let use : Token := ⟨.directive, "INST", 31, 36⟩
    let targets (text : String) := (compileUnit ⟨loneSources text, .empty, .warning⟩
      (.ofString "/p/top.sv")).instantiations.map (·.target)
    use ∈ tokens text.toList ∧ targets text = [] ∧
      targets (Unit.inPlace text use "sub u") = ["sub"] := by
  decide +kernel

end SvServer
