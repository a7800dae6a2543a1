import SvServer.Proofs.Unit.Edits
import SvServer.Proofs.Unit.Imbalances

/-!
# Which name a keyword declares

The name of a design element is searched for among the next few tokens behind its keyword. The search
steps over the lifetime of the element, and over everything else that is no identifier. Each
declaration of a unit comes from such a search at one of its keywords, and nothing but lifetimes and
tokens of other kinds stands between the two.
-/

namespace SvServer

open Hdl

namespace Unit

/-- Whether a token is one of the words for the lifetime of what is declared. -/
def isLifetime (token : Token) : Bool :=
  token.kind == .identifier && (token.text = "automatic" || token.text = "static")

/-- The check of a keyword that the name of the declaration follows, with nothing but lifetimes in
between. -/
def Act.heads (declaration : Declaration) : Act → Bool
  | .check file keyword rest _ =>
    keyword.kind == .identifier && DesignElement.ofOpener? keyword.text == some declaration.kind &&
      file.path == declaration.path &&
      match rest.dropWhile isLifetime with
      | name :: _ =>
        name.kind == .identifier && name.text == declaration.name &&
          file.tokenRange name == declaration.range
      | [] => false
  | .direct _ _ _ => false

/-- How a declaration is found: at which keyword, with which tokens up to the name, and with which
name and header. -/
structure FoundBehind (declaration : Declaration) (file : SourceFile) (keyword : Token)
    (between : List Token) (name : Token) (header : List Token) : Prop where
  word : keyword.kind = .identifier
  kind : DesignElement.ofOpener? keyword.text = some declaration.kind
  near : between.length < nameReach
  passed : ∀ token ∈ between, token.kind = .identifier → isLifetime token = true
  identifier : name.kind = .identifier
  stops : isLifetime name = false
  unreserved : isReserved name.text = false
  whole : declaration = ⟨name.text, declaration.kind, file.path, file.tokenRange name,
    parametersOf header, portsOf header⟩

/-! ## The search -/

/-- The search stops at the first identifier that is no lifetime. -/
theorem exists_between_of_declaredName? {count : Nat} {rest : List Token} {name : Token}
    {header : List Token} (found : declaredName? count rest = some (name, header)) :
    ∃ between, rest = between ++ name :: header ∧ between.length < count ∧
      (∀ token ∈ between, token.kind = .identifier → isLifetime token = true) ∧
      name.kind = .identifier ∧ isLifetime name = false := by
  induction rest generalizing count with
  | nil => cases count <;> cases found
  | cons token rest ih =>
      cases count with
      | zero => cases found
      | succ count =>
          rw [declaredName?] at found
          split at found
          case isTrue named =>
            obtain ⟨rfl, rfl⟩ := Prod.mk.inj (Option.some.inj found)
            rw [Bool.and_eq_true, Bool.and_eq_true, beq_iff_eq, decide_eq_true_eq, decide_eq_true_eq]
              at named
            obtain ⟨⟨identifier, automatic⟩, static⟩ := named
            refine ⟨[], rfl, Nat.succ_pos _, fun _ member => (List.not_mem_nil member).elim,
              identifier, ?_⟩
            simp [isLifetime, automatic, static]
          case isFalse passed =>
            obtain ⟨between, rfl, near, others, name⟩ := ih found
            refine ⟨token :: between, rfl, Nat.succ_lt_succ near,
              List.forall_mem_cons.2 ⟨fun identifier => ?_, others⟩, name⟩
            by_contra other
            simp only [isLifetime, identifier, beq_self_eq_true, Bool.true_and, Bool.or_eq_true,
              decide_eq_true_eq, not_or] at other
            exact passed (by simp [identifier, other.1, other.2])

namespace FoundBehind

variable {declaration : Declaration} {file : SourceFile} {keyword name : Token}
variable {between header : List Token}

/-- Where only identifiers stand in between, the name follows its keyword. -/
theorem heads (found : FoundBehind declaration file keyword between name header)
    (words : ∀ token ∈ between, token.kind = .identifier) (look : Lookback) :
    (Act.check file keyword (between ++ name :: header) look).heads declaration = true := by
  have lifetimes : ∀ token ∈ between, isLifetime token = true :=
    fun token member => found.passed token member (words token member)
  have first : (between ++ name :: header).dropWhile isLifetime = name :: header := by
    rw [List.dropWhile_append_of_pos lifetimes, List.dropWhile_cons, found.stops]
    rfl
  have path : declaration.path = file.path := by rw [found.whole]
  have text : declaration.name = name.text := by rw [found.whole]
  have range : declaration.range = file.tokenRange name := by rw [found.whole]
  rw [Act.heads, first, found.word, found.kind, path, text, range]
  simp [found.identifier]

end FoundBehind

/-! ## Checks -/

section Checks

variable {state : State} {file : SourceFile} {token : Token} {rest : List Token}
variable {declaration : Declaration}

/-- What a keyword declares is found behind it. -/
def IsFound (declaration : Declaration) (file : SourceFile) (keyword : Token) (rest : List Token) :
    Prop :=
  ∃ between name header, rest = between ++ name :: header ∧
    FoundBehind declaration file keyword between name header

theorem isFound_of_openBlock (identifier : token.kind = .identifier) {closers : List String}
    (listed : declaration ∈ (state.openBlock file token closers rest).result.declarations) :
    declaration ∈ state.result.declarations ∨ IsFound declaration file token rest := by
  rcases state.openBlock_cases file token rest closers with
    same | ⟨kind, name, header, opener, found, unreserved, same⟩ <;> rw [same] at listed
  · exact .inl listed
  · refine (List.mem_append.1 listed).imp_right fun declared => ?_
    obtain rfl := List.mem_singleton.1 declared
    obtain ⟨between, split, near, others, word, plain⟩ := exists_between_of_declaredName? found
    exact ⟨between, name, header, split, identifier, opener, near, others, word, plain,
      unreserved, rfl⟩

/-- **A check declares only what is found behind its token.** -/
theorem isFound_of_inspect {look : Lookback}
    (listed : declaration ∈ (state.inspect file token rest look).result.declarations) :
    declaration ∈ state.result.declarations ∨ IsFound declaration file token rest := by
  rcases state.inspect_cases file token rest look with
    same | ⟨identifier, same | ⟨closers, -, same⟩ | same⟩ | ⟨delimiter, same | same⟩ <;>
    rw [same] at listed
  · exact .inl listed
  · rcases state.closeBlock_cases file token with same | ⟨_, _, _, -, same⟩ <;>
      rw [same] at listed <;> exact .inl listed
  · exact isFound_of_openBlock identifier listed
  · exact .inl listed
  · exact .inl listed
  · rcases state.closeDelimiter_cases file token delimiter with
      same | ⟨_, _, -, same⟩ | ⟨_, _, -, same⟩ <;> rw [same] at listed <;> exact .inl listed

end Checks

/-! ## Units -/

/-- **What is declared along the way** is found behind a token that was checked. -/
theorem Edits.isFound {allowed : Diagnostic → Prop} {before after : State} {acts : List Act}
    (edits : Edits allowed before acts after) {declaration : Declaration}
    (listed : declaration ∈ after.result.declarations) :
    declaration ∈ before.result.declarations ∨ ∃ file keyword rest look,
      .check file keyword rest look ∈ acts ∧ IsFound declaration file keyword rest := by
  induction edits with
  | refl => exact .inl listed
  | @check state acts done file token rest look ih =>
      rcases isFound_of_inspect listed with known | found
      · refine (ih known).imp_right ?_
        rintro ⟨file, keyword, rest, look, member, found⟩
        exact ⟨file, keyword, rest, look, List.mem_append_left _ member, found⟩
      · exact .inr ⟨file, token, rest, look, List.mem_append_right _ (.head _), found⟩
  | @direct state acts done file directive rest ih =>
      refine (ih listed).imp_right ?_
      rintro ⟨file, keyword, rest, look, member, found⟩
      exact ⟨file, keyword, rest, look, List.mem_append_left _ member, found⟩
  | report _ _ _ ih | define _ _ ih | read _ _ _ ih | miss _ _ ih => exact ih listed

end Unit

/-- **A declared name is searched for behind its keyword.** Among the few tokens in between no
identifier is passed over but lifetimes. So where only identifiers stand there, the name follows its
keyword with nothing but lifetimes in between; tokens of other kinds are passed over as well. -/
theorem heads_compileUnit (settings : Unit.Settings) (root : Path) :
    ∀ d ∈ (compileUnit settings root).declarations, ∃ file keyword between name header look,
      .check file keyword (between ++ name :: header) look ∈ unitActs settings root ∧
      Unit.FoundBehind d file keyword between name header ∧
      ((∀ token ∈ between, token.kind = .identifier) →
        (Unit.Act.check file keyword (between ++ name :: header) look).heads d = true) := by
  intro d listed
  rw [compileUnit] at listed
  rw [unitActs]
  cases readable : settings.sources.text root with
  | none =>
      rw [readable] at listed
      exact (List.not_mem_nil listed).elim
  | some text =>
      rw [readable] at listed
      have edits := Unit.edits_compileFile settings (Unit.openFileLimit - 1) [] ⟨root, text.toList⟩
        ((Unit.State.initial root settings.macros).addFile root (settings.sources.revision root))
        (fun (d : Diagnostic) (other : d.name.isStructural = false) => other)
      rcases edits.isFound listed with known | ⟨file, keyword, rest, look, member, found⟩
      · exact (List.not_mem_nil known).elim
      · obtain ⟨between, name, header, rfl, found⟩ := found
        exact ⟨file, keyword, between, name, header, look, member, found,
          fun words => found.heads words look⟩

/-- A module with a lifetime. -/
theorem heads_compileUnit_of_lifetime :
    let settings : Unit.Settings :=
      ⟨loneSources "module automatic top;\nendmodule\n", .empty, .warning⟩
    let root : Path := .ofString "/p/top.sv"
    ∃ d ∈ (compileUnit settings root).declarations, d.name = "top" ∧
      ∃ file keyword between name header look,
        .check file keyword (between ++ name :: header) look ∈ unitActs settings root ∧
        Unit.FoundBehind d file keyword between name header ∧
        ((∀ token ∈ between, token.kind = .identifier) →
          (Unit.Act.check file keyword (between ++ name :: header) look).heads d = true) := by
  intro settings root
  have found : (compileUnit settings root).declarations.map (·.name) = ["top"] := by decide +kernel
  obtain ⟨d, same, name⟩ := List.map_eq_singleton_iff.1 found
  have member : d ∈ (compileUnit settings root).declarations := by rw [same]; exact .head _
  exact ⟨d, member, name, heads_compileUnit settings root d member⟩

/-- **A name behind a semicolon is declared.** Of a module whose name is not written yet the next
identifier becomes the name, here the target of an instantiation inside of it. -/
theorem heads_compileUnit_ne :
    let settings : Unit.Settings :=
      ⟨loneSources "module ;\nsub u1 ();\nendmodule\n", .empty, .warning⟩
    let root : Path := .ofString "/p/top.sv"
    (compileUnit settings root).declarations.map (fun d => (d.name, d.range)) =
        [("sub", ⟨⟨1, 0⟩, ⟨1, 3⟩⟩)] ∧
      ((compileUnit settings root).declarations.all fun d =>
        (unitActs settings root).all fun act => !act.heads d) = true := by
  decide +kernel

end SvServer
