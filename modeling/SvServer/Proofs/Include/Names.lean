import SvServer.Include.Names
import SvServer.Proofs.Unit.Locality

/-!
# The include names that are written and those that are followed

A compile follows include directives in active text only; the names written in a text are gathered
without regard to conditional compilation. So every quoted name that a compile can meet is among
the names that are written.
-/

namespace SvServer.Include

open Hdl

/-- Whether some include directive has an angle bracket behind it. -/
def hasAngled : List Token → Bool
  | token :: next :: rest =>
    (isDirective token && next.kind != .string && next.text == "<") || hasAngled (next :: rest)
  | _ => false

/-- The include directives of a text carry quoted relative names. -/
def QuotedRelative (text : String) : Prop :=
  hasAngled (tokens text.toList) = false ∧
    ∀ name ∈ names text, (Path.ofString name).isAbsolute = false

instance (text : String) : Decidable (QuotedRelative text) :=
  inferInstanceAs (Decidable (_ ∧ _))

/-- Without angle brackets none stands behind any include directive. -/
theorem hasAngled_suffix {token next : Token} {rest list : List Token}
    (h : hasAngled list = false) (suffix : (token :: next :: rest) <:+ list) :
    (isDirective token && next.kind != .string && next.text == "<") = false := by
  induction list with
  | nil => exact absurd (List.suffix_nil.1 suffix) nofun
  | cons first more ih =>
      rcases List.suffix_cons_iff.1 suffix with same | suffix
      · rw [← same, hasAngled, Bool.or_eq_false_iff] at h
        exact h.1
      · cases more with
        | nil => exact absurd (List.suffix_nil.1 suffix) nofun
        | cons second others =>
            rw [hasAngled, Bool.or_eq_false_iff] at h
            exact ih h.2 suffix

/-- A quoted name behind an include directive is among the names. -/
theorem mem_namesOfTokens {token next : Token} {rest list : List Token}
    (suffix : (token :: next :: rest) <:+ list) (directive : isDirective token = true)
    (quoted : next.kind = .string) (named : next.text ≠ "") :
    next.text ∈ namesOfTokens list := by
  induction list with
  | nil => exact absurd (List.suffix_nil.1 suffix) nofun
  | cons first more ih =>
      -- The directive stands here, or further on.
      rcases List.suffix_cons_iff.1 suffix with same | suffix
      · obtain ⟨rfl, rfl⟩ := List.cons.inj same
        simp [namesOfTokens, directive, quoted, named]
      · have later := ih suffix
        cases more with
        | nil => exact absurd (List.suffix_nil.1 suffix) nofun
        | cons second others =>
            rw [namesOfTokens, List.head?_cons]
            dsimp only
            split
            · exact List.mem_cons_of_mem _ later
            · exact later

/-- **Every quoted name that a compile can meet is among the names that are written.** -/
theorem mem_names_of_namesInclude {path : Path} {text name : String} (h : QuotedRelative text)
    (named : Unit.NamesInclude ⟨path, text.toList⟩ name) : name ∈ names text := by
  obtain ⟨token, rest, range, suffix, directive, included, read⟩ := named
  have isDirective : isDirective token = true := by
    rw [Include.isDirective, directive, included]
    rfl
  rw [Unit.includeName?] at read
  dsimp only at read
  split at read
  · exact absurd read nofun
  · rename_i next found
    cases rest with
    | nil => exact absurd found nofun
    | cons second more =>
        obtain rfl : second = next := by
          rw [List.head?_cons, Option.filter_some] at found
          split at found
          · exact Option.some.inj found
          · exact absurd found nofun
        split at read
        · rename_i quoted
          rw [Bool.and_eq_true, beq_iff_eq, decide_eq_true_iff] at quoted
          have same : second.text = name := congrArg Prod.fst (Option.some.inj read)
          rw [← same]
          exact mem_namesOfTokens suffix isDirective quoted.1 quoted.2
        · rename_i unquoted
          split at read
          · rename_i angle
            have none := hasAngled_suffix h.1 suffix
            rw [isDirective, angle, beq_self_eq_true, Bool.and_true, Bool.true_and] at none
            -- A string that reads as an angle bracket would have been a quoted name.
            have string : second.kind = .string := by simpa using none
            rw [string, angle] at unquoted
            exact absurd rfl unquoted
          · exact absurd read nofun

end SvServer.Include
