import SvServer.Proofs.Engine.CrossFile
import SvServer.Proofs.Engine.Grounded

/-!
# What an engine reports about the whole project

The diagnostics of a file are those of the units that read it together with those of the checks over the
project, in order and without repetitions. No unit reports what only the checks can find. So after
passes that are told of all changes each repeated name is reported once at each of its places, and each
instance of a name that is not known once; without the checks nothing of the kind is reported.

A name is known by the first of its declarations at each place. Where a macro declares a name as a
package and again as a module, both stand at the use of the macro, and the module goes unnoticed.
-/

namespace SvServer.Engine

open CrossFile (Exact Marks Reports Twice entriesOf)

/-! ## What is shown of the checks -/

section

variable {engine : Engine} {path : Path} {d : Diagnostic}

/-- What the checks found is shown. -/
theorem exists_mem_diagnosticsOf (found : d ∈ entriesOf engine.cross path) :
    ∃ shown ∈ engine.diagnosticsOf path, (d == shown) = true := by
  rw [diagnosticsOf_eq]
  refine exists_mem_dropRepeats (fun _ => BEq.rfl) ?_
  rw [Diagnostic.sort, List.mem_mergeSort]
  exact List.mem_append_right _ found

variable (units : engine.LocalUnits)

include units

/-- Only the checks find what needs the whole project. -/
theorem LocalUnits.mem_entriesOf (shown : d ∈ engine.diagnosticsOf path)
    (wide : d.name.isCrossFile = true) : d ∈ entriesOf engine.cross path := by
  rcases mem_diagnosticsOf shown with ⟨root, unit, -, kept, found, -⟩ | checked
  · rw [units root unit kept d found] at wide
    cases wide
  · exact checked

/-- What the checks found once is shown once. -/
theorem LocalUnits.pairwise_diagnosticsOf {declarations : List Declaration}
    (once : (entriesOf engine.cross path).Pairwise fun a b => ¬Twice declarations a b) :
    (engine.diagnosticsOf path).Pairwise fun a b => ¬Twice declarations a b := by
  have ofUnits : ∀ d ∈ (engine.unitsReading path).flatMap fun unit =>
      unit.diagnostics.filter fun d => d.path == path, d.name.isCrossFile = false := by
    intro d member
    obtain ⟨unit, reading, listed⟩ := List.mem_flatMap.1 member
    obtain ⟨root, -, kept⟩ := List.mem_filterMap.1 reading
    exact units root unit kept d (List.mem_filter.1 listed).1
  have apart : ∀ {a b : Diagnostic}, a.name.isCrossFile = false → ¬Twice declarations a b := by
    intro a b isLocal twice
    rw [twice.isCrossFile] at isLocal
    cases isLocal
  rw [diagnosticsOf_eq]
  refine List.Pairwise.sublist (dropRepeats_sublist _) ?_
  rw [Diagnostic.sort, (List.mergeSort_perm _ _).pairwise_iff fun differ twice =>
    differ twice.symm, List.pairwise_append]
  refine ⟨List.pairwise_of_forall_mem_list fun a ha _ _ => apart (ofUnits a ha), once, ?_⟩
  exact fun a ha _ _ => apart (ofUnits a ha)

/-- **What is exact of the checks is exact of all that is shown.** -/
theorem LocalUnits.exact_diagnosticsOf {declarations : List Declaration}
    {instantiations : List Instantiation}
    (h : Exact declarations instantiations (entriesOf engine.cross)) :
    Exact declarations instantiations engine.diagnosticsOf where
  repeated d repeated := by
    obtain ⟨diagnostic, found, reports⟩ := h.repeated d repeated
    obtain ⟨shown, member, same⟩ := exists_mem_diagnosticsOf found
    exact ⟨shown, member, reports.of_beq same⟩
  unknown i member unknown := by
    obtain ⟨diagnostic, found, marks⟩ := h.unknown i member unknown
    obtain ⟨shown, member, same⟩ := exists_mem_diagnosticsOf found
    exact ⟨shown, member, marks.of_beq same⟩
  only path diagnostic shown wide := h.only path diagnostic (units.mem_entriesOf shown wide) wide
  once path := units.pairwise_diagnosticsOf (h.once path)
  single := h.single

end

theorem localUnits_afterPasses (inputs : List PassSetup) : (afterPasses inputs).LocalUnits :=
  invariant_afterPasses LocalUnits localUnits_empty (fun _ input h => h.run input) inputs

/-- **After passes that are told of all changes**, of which the last ran the checks, what is shown is
exact. -/
theorem exact_afterPasses (inputs : List PassSetup) (last : PassSetup)
    (told : (inputs ++ [last]).IsChain PassSetup.Tells) (alike : last.sources.ReadsAlike)
    (checks : last.crossFile = true) :
    Exact (afterPasses (inputs ++ [last])).declared (afterPasses (inputs ++ [last])).instantiated
      (afterPasses (inputs ++ [last])).diagnosticsOf := by
  have cross : (afterPasses (inputs ++ [last])).cross =
      CrossFile.diagnostics (afterPasses (inputs ++ [last])).rootUnits := by
    rw [afterPasses, List.foldl_append, List.foldl_cons, List.foldl_nil, cross_run, if_pos checks]
  refine (localUnits_afterPasses _).exact_diagnosticsOf ?_
  rw [cross]
  exact CrossFile.exact_diagnostics (settled_afterPasses inputs last told alike)
    ((grounded_afterPasses told).oneWord (unitsOfRoots_afterPasses _))

/-- **What an engine reports about the whole project** after passes that are told of all changes is
exact if the last pass ran the checks, and nothing if it did not. -/
theorem reports_exactly (inputs : List PassSetup) (last : PassSetup)
    (told : (inputs ++ [last]).IsChain PassSetup.Tells) (alike : last.sources.ReadsAlike) :
    let engine := afterPasses (inputs ++ [last])
    (last.crossFile = true →
      Exact engine.declared engine.instantiated engine.diagnosticsOf) ∧
    (last.crossFile = false → ∀ path, ∀ d ∈ engine.diagnosticsOf path,
      d.name ≠ .redefinition ∧ d.name ≠ .unknownModule) := by
  refine ⟨exact_afterPasses inputs last told alike, fun unchecked path d shown => ?_⟩
  rw [afterPasses, List.foldl_append] at shown
  exact DiagnosticName.ne_of_isLocal
    ((localUnits_afterPasses inputs).isLocal_of_run unchecked path d shown)

theorem reports_exactly_beside_module :
    let inputs := [PassSetup.overDocuments (besideModule "") []]
    let last := PassSetup.overDocuments (besideModule "module m;\nendmodule\n") ["/p/b.sv"]
    let engine := afterPasses (inputs ++ [last])
    (inputs ++ [last]).IsChain PassSetup.Tells ∧ last.sources.ReadsAlike ∧
      Exact engine.declared engine.instantiated engine.diagnosticsOf ∧
      engine.declared.map (·.name) = ["m", "m"] := by
  intro inputs last engine
  have told : (inputs ++ [last]).IsChain PassSetup.Tells :=
    List.isChain_pair.2 (tells_besideModule "" "module m;\nendmodule\n")
  have alike : last.sources.ReadsAlike := Sources.readsAlike_ofProject _ _ _ _
  exact ⟨told, alike, (reports_exactly inputs last told alike).1 rfl, by decide +kernel⟩

/-- A name that one use of a macro declares as a package and as a module, and an instance of it. -/
def packageThenModule : String × String :=
  ("/p/top.sv", "`define BOTH package a; endpackage module a; endmodule\n`BOTH\n" ++
    "module top;\na u();\nendmodule\n")

/-- An instance is reported although a unit declares its target as a module. -/
theorem reports_declared_module :
    let engine := afterPasses [.overDocuments [packageThenModule] []]
    ∃ i ∈ engine.instantiated, (∃ diagnostic ∈ engine.diagnosticsOf i.path, Marks diagnostic i) ∧
      ∃ d ∈ engine.declared, d.name = i.target ∧ d.kind.isInstantiable = true := by
  intro engine
  have facts : ∃ i ∈ engine.instantiated, ¬CrossFile.Known engine.declared i.target ∧
      ∃ d ∈ engine.declared, d.name = i.target ∧ d.kind.isInstantiable = true := by
    decide +kernel
  obtain ⟨i, instantiated, unknown, declared⟩ := facts
  have exact : Exact engine.declared engine.instantiated engine.diagnosticsOf :=
    exact_afterPasses [] _ (List.isChain_singleton _) (Sources.readsAlike_ofProject _ _ _ _) rfl
  exact ⟨i, instantiated, exact.unknown i instantiated unknown, declared⟩

end SvServer.Engine
