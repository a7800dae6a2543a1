import Mathlib.Data.List.TakeWhile
import SvServer.Proofs.Include.Names

/-!
# What the two readers of an include directive make of it

Two parts of the program read include directives. One gathers the names of a text, which decide the
include graph and with it the files that start units; the other finds the name that a compile
follows. Both look at the tokens behind the directive only. They differ in two places: the names of
a text have strings that begin on a later line, which a compile does not accept, and a compile
accepts names in angle brackets, which are not among the names of a text.
-/

namespace SvServer.Include

open Hdl
open SvServer.Unit (SourceFile includeName?)

/-- The include directives among the tokens, in order, each with the tokens after it. -/
def directives : List Token → List (Token × List Token)
  | [] => []
  | token :: rest => if isDirective token then (token, rest) :: directives rest else directives rest

/-- What the names of a text have for an include directive before these tokens. -/
def listedName? (rest : List Token) : Option String :=
  rest.head?.bind fun next =>
    if next.kind = .string ∧ next.text ≠ "" then some next.text else none

/-- What a compile follows for an include directive before these tokens. -/
def followedName? (file : SourceFile) (directive : Token) (rest : List Token) : Option String :=
  (includeName? file directive rest).map Prod.fst

section Position

variable (file : SourceFile) (directive : Token) (rest : List Token) (name : String)

/-- The name stands in quotes right behind the directive, perhaps lines below it. -/
def IsQuoted : Prop := name ≠ "" ∧ ∃ next ∈ rest.head?, next.kind = .string ∧ next.text = name

/-- What stands right behind the directive begins on its logical line. -/
def OnLine : Prop := ∃ next ∈ rest.head?, next.start < file.lineEnd directive

/-- The name stands on the logical line of the directive between an angle bracket, which comes right
behind the directive, and the next closing one. -/
def IsAngled : Prop := ∃ next ∈ rest.head?, next.kind ≠ .string ∧ next.text = "<" ∧
  next.start < file.lineEnd directive ∧ ∃ inside after, inside ≠ [] ∧ '>' ∉ inside ∧
    Text.slice file.text next.stop (file.lineEnd directive) = inside ++ '>' :: after ∧
    String.ofList (Text.trimChars inside) = name

end Position

/-! ## The names of a text -/

/-- The names among tokens are what the include directives have listed, in order. -/
theorem namesOfTokens_eq (list : List Token) :
    namesOfTokens list = (directives list).filterMap fun position => listedName? position.2 := by
  induction list with
  | nil => rfl
  | cons token rest ih =>
      cases rest with
      | nil => cases directive : isDirective token <;> simp [namesOfTokens, directives, directive,
          listedName?]
      | cons next more =>
          cases directive : isDirective token with
          | false =>
              rw [namesOfTokens, directives, directive, List.head?_cons]
              exact ih
          | true =>
              rw [namesOfTokens, directives, if_pos directive, List.filterMap_cons, ← ih,
                List.head?_cons, listedName?, List.head?_cons, Option.bind_some]
              by_cases quoted : next.kind = .string ∧ next.text ≠ "" <;>
                simp [directive, quoted]

theorem listedName?_eq_some {rest : List Token} {name : String} :
    listedName? rest = some name ↔ IsQuoted rest name := by
  rw [listedName?, Option.bind_eq_some_iff]
  constructor
  · rintro ⟨next, behind, listed⟩
    split at listed
    · rename_i quoted
      obtain rfl := Option.some.inj listed
      exact ⟨quoted.2, next, behind, quoted.1, rfl⟩
    · cases listed
  · rintro ⟨named, next, behind, string, rfl⟩
    exact ⟨next, behind, if_pos ⟨string, named⟩⟩

/-! ## The names that a compile follows -/

/-- What stands before the first closing bracket of a text. -/
theorem takeWhile_of_split {inside : List Char} (clear : '>' ∉ inside) (after : List Char) :
    (inside ++ '>' :: after).takeWhile (· ≠ '>') = inside := by
  rw [List.takeWhile_append_of_pos]
  · simp
  · intro c member
    rw [decide_eq_true_iff]
    rintro rfl
    exact clear member

/-- The name in a text whose opening angle bracket was read. -/
def bracketed? (text : List Char) : Option String :=
  let inside := text.takeWhile (· ≠ '>')
  if inside.isEmpty || inside.length = text.length then none
  else some (String.ofList (Text.trimChars inside))

theorem bracketed?_eq_some {text : List Char} {name : String} : bracketed? text = some name ↔
    ∃ inside after, inside ≠ [] ∧ '>' ∉ inside ∧ text = inside ++ '>' :: after ∧
      String.ofList (Text.trimChars inside) = name := by
  by_cases closed : '>' ∈ text
  · obtain ⟨inside, after, rfl, clear⟩ := List.eq_append_cons_of_mem closed
    have longer : inside.length ≠ (inside ++ '>' :: after).length := by simp
    rw [bracketed?, takeWhile_of_split clear after, decide_eq_false longer, Bool.or_false]
    simp only [List.isEmpty_iff]
    constructor
    · intro found
      split at found
      · cases found
      · rename_i filled
        exact ⟨inside, after, filled, clear, rfl, Option.some.inj found⟩
    · -- A text is split at its first closing bracket in one way only.
      rintro ⟨inside', after', filled, clear', same, rfl⟩
      obtain rfl : inside = inside' := by
        rw [← takeWhile_of_split clear after, same, takeWhile_of_split clear' after']
      rw [if_neg filled]
  · have whole : text.takeWhile (· ≠ '>') = text := by
      rw [List.takeWhile_eq_self_iff]
      intro c member
      rw [decide_eq_true_iff]
      rintro rfl
      exact closed member
    rw [bracketed?, whole]
    refine ⟨by simp, ?_⟩
    rintro ⟨inside, after, -, -, rfl, -⟩
    exact absurd (by simp) closed

/-- What a compile follows, by the token behind the directive. -/
theorem followedName?_eq {file : SourceFile} {directive next : Token} {rest : List Token}
    (behind : rest.head? = some next) : followedName? file directive rest =
      if next.start < file.lineEnd directive then
        if next.kind = .string ∧ next.text ≠ "" then some next.text
        else if next.text = "<" then
          bracketed? (Text.slice file.text next.stop (file.lineEnd directive))
        else none
      else none := by
  rw [followedName?, includeName?, behind]
  by_cases onLine : next.start < file.lineEnd directive
  · rw [Option.filter_some, if_pos (decide_eq_true onLine), if_pos onLine]
    dsimp only
    simp only [Bool.and_eq_true, beq_iff_eq, decide_eq_true_iff]
    by_cases quoted : next.kind = .string ∧ next.text ≠ ""
    · rw [if_pos quoted, if_pos quoted]
      rfl
    · rw [if_neg quoted, if_neg quoted, bracketed?]
      split
      · split <;> rfl
      · rfl
  · rw [Option.filter_some, if_neg (by simpa using onLine), if_neg onLine]
    rfl

/-- **A compile follows** a quoted name on the line of the directive, or one in angle brackets. -/
theorem followedName?_eq_some {file : SourceFile} {directive : Token} {rest : List Token}
    {name : String} : followedName? file directive rest = some name ↔
      (IsQuoted rest name ∧ OnLine file directive rest) ∨ IsAngled file directive rest name := by
  cases behind : rest.head? with
  | none => simp [followedName?, includeName?, behind, IsQuoted, OnLine, IsAngled]
  | some next =>
      simp only [followedName?_eq behind, IsQuoted, OnLine, IsAngled, behind, Option.mem_def,
        Option.some.injEq, exists_eq_left']
      by_cases onLine : next.start < file.lineEnd directive
      · rw [if_pos onLine]
        by_cases quoted : next.kind = .string ∧ next.text ≠ ""
        · rw [if_pos quoted]
          constructor
          · intro same
            obtain rfl := Option.some.inj same
            exact .inl ⟨⟨quoted.2, quoted.1, rfl⟩, onLine⟩
          · rintro (⟨⟨-, -, rfl⟩, -⟩ | ⟨unquoted, -⟩)
            · rfl
            · exact absurd quoted.1 unquoted
        · rw [if_neg quoted]
          constructor
          · intro found
            split at found
            · rename_i bracket
              refine .inr ⟨?_, bracket, onLine, bracketed?_eq_some.1 found⟩
              intro string
              exact quoted ⟨string, by rw [bracket]; decide⟩
            · cases found
          · rintro (⟨⟨named, string, rfl⟩, -⟩ | ⟨-, bracket, -, inside⟩)
            · exact absurd ⟨string, named⟩ quoted
            · rw [if_pos bracket]
              exact bracketed?_eq_some.2 inside
      · rw [if_neg onLine]
        refine ⟨fun found => (by cases found), ?_⟩
        rintro (⟨-, here⟩ | ⟨-, -, here, -⟩)
        · exact absurd here onLine
        · exact absurd here onLine

/-! ## Where the two differ -/

/-- A name cannot stand both in quotes and in angle brackets. -/
theorem not_isAngled_of_isQuoted {file : SourceFile} {directive : Token} {rest : List Token}
    {name other : String} (quoted : IsQuoted rest name) :
    ¬ IsAngled file directive rest other := by
  obtain ⟨-, next, behind, string, -⟩ := quoted
  rintro ⟨angle, behind', unquoted, -⟩
  obtain rfl := Option.mem_unique behind behind'
  exact unquoted string

/-- **The two readers of an include directive differ in two cases exactly.** The names of a text are
what its directives have listed, in order. What is listed and not followed stands in quotes below
the line of its directive; what is followed and not listed stands in angle brackets. -/
theorem names_and_followed (path : Path) (text : String) :
    let file : SourceFile := ⟨path, text.toList⟩
    names text = (directives (tokens file.text)).filterMap (fun position =>
        listedName? position.2) ∧
      ∀ directive rest name,
        (listedName? rest = some name ∧ followedName? file directive rest ≠ some name ↔
          IsQuoted rest name ∧ ¬ OnLine file directive rest) ∧
        (followedName? file directive rest = some name ∧ listedName? rest ≠ some name ↔
          IsAngled file directive rest name) := by
  intro file
  refine ⟨namesOfTokens_eq _, fun directive rest name => ?_⟩
  rw [Ne, Ne, listedName?_eq_some, followedName?_eq_some]
  constructor
  · constructor
    · rintro ⟨quoted, unfollowed⟩
      exact ⟨quoted, fun onLine => unfollowed (.inl ⟨quoted, onLine⟩)⟩
    · rintro ⟨quoted, below⟩
      refine ⟨quoted, ?_⟩
      rintro (⟨-, onLine⟩ | angled)
      · exact below onLine
      · exact not_isAngled_of_isQuoted quoted angled
  · constructor
    · rintro ⟨⟨quoted, -⟩ | angled, unlisted⟩
      · exact absurd quoted unlisted
      · exact angled
    · intro angled
      exact ⟨.inr angled, fun quoted => not_isAngled_of_isQuoted quoted angled⟩

/-- Both cases happen: a name on the line below its directive is listed only, and one in angle
brackets is followed only. -/
theorem names_differ_from_followed :
    let below : SourceFile := ⟨.ofString "/p/top.sv", "`include\n\"mid.sv\"\n".toList⟩
    let angled : SourceFile := ⟨.ofString "/p/top.sv", "`include <mid.sv>\n".toList⟩
    (names (.ofList below.text) = ["mid.sv"] ∧
      (directives (tokens below.text)).map (fun position =>
        followedName? below position.1 position.2) = [none]) ∧
    (names (.ofList angled.text) = [] ∧
      (directives (tokens angled.text)).map (fun position =>
        followedName? angled position.1 position.2) = [some "mid.sv"]) := by
  decide +kernel

end SvServer.Include
