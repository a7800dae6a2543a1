import SvServer.Proofs.Engine.Grounded

/-!
# The declarations that an engine lists

Navigation asks an engine for what its roots declare. The list is in strict order by name and place, and
has the first declaration of each name at each place. Declarations are compared with their predecessors
by place alone, though. So where one use of a macro declares several names, of which one follows the
other in order, the second is not listed.
-/

namespace SvServer.Engine

open CrossFile (Leads Settled samePlace locationOrder)

instance : Std.TransCmp declarationOrder :=
  inferInstanceAs (Std.TransCmp
    (compareLex (compareOn fun d : Declaration => d.name) locationOrder))

theorem declarationOrder_eq_iff {a b : Declaration} :
    declarationOrder a b = .eq ↔ a.name = b.name ∧ locationOrder a b = .eq := by
  rw [declarationOrder, compareLex_eq_eq, compareOn, Std.LawfulEqCmp.compare_eq_iff_eq]

/-- Another name is declared at the place of a declaration, and no declaration comes between the two in
order. -/
def Hidden (declarations : List Declaration) (d : Declaration) : Prop :=
  Shadowed declarationOrder samePlace declarations d

instance (declarations : List Declaration) (d : Declaration) : Decidable (Hidden declarations d) :=
  inferInstanceAs (Decidable (∃ e ∈ declarations, samePlace d e = true ∧
    declarationOrder e d = .lt ∧ ∀ f ∈ declarations, declarationOrder e f = .lt →
      declarationOrder f d ≠ .lt))

/-- What is hidden is so by its name and place. -/
theorem Hidden.congr {declarations : List Declaration} {a b : Declaration}
    (h : Hidden declarations a) (name : a.name = b.name) (place : samePlace a b = true) :
    Hidden declarations b := by
  have equal : declarationOrder a b = .eq :=
    declarationOrder_eq_iff.2 ⟨name, CrossFile.locationOrder_of_samePlace place⟩
  obtain ⟨e, member, same, less, between⟩ := h
  refine ⟨e, member, ?_, ?_, fun f listed up => ?_⟩
  · rw [CrossFile.samePlace_comm] at same ⊢
    exact CrossFile.samePlace_trans same place
  · rwa [← Std.TransCmp.congr_right equal]
  · rw [← Std.TransCmp.congr_right equal]
    exact between f listed up

/-- What a list of declarations in order has of all declarations. -/
structure Lists (declarations listed : List Declaration) : Prop where
  ascending : listed.Pairwise fun a b => declarationOrder a b = .lt
  once : listed.Pairwise fun a b => ¬(a.name = b.name ∧ samePlace a b = true)
  leads : ∀ d ∈ listed, Leads declarations d
  /-- A name is listed at a place where it is declared unless it is hidden there. -/
  covers : ∀ d ∈ declarations,
    (∃ e ∈ listed, e.name = d.name ∧ samePlace e d = true) ↔ ¬Hidden declarations d

section

variable {declarations : List Declaration} (settled : Settled declarations)

include settled

theorem equal_of_settled : ∀ a ∈ declarations, ∀ b ∈ declarations, declarationOrder a b = .eq →
    samePlace b a = true :=
  fun a ha b hb equal => settled.equal a ha b hb (declarationOrder_eq_iff.1 equal).2

/-- What is found first of equal declarations leads. -/
theorem find?_declarationOrder {d : Declaration} (member : d ∈ declarations) :
    declarations.find? (declarationOrder d · == .eq) =
      declarations.find? fun e => e.name == d.name && samePlace e d := by
  refine List.find?_congr fun e listed => ?_
  rw [Bool.eq_iff_iff, Bool.and_eq_true, beq_iff_eq, beq_iff_eq, declarationOrder_eq_iff,
    CrossFile.samePlace_comm, settled.agrees member listed, beq_iff_eq, eq_comm (a := d.name)]

/-- **What is listed** leads and is not hidden. -/
theorem mem_listed {d : Declaration} :
    d ∈ dropRepeats samePlace (declarations.mergeSort fun a b => (declarationOrder a b).isLE) ↔
      Leads declarations d ∧ ¬Hidden declarations d := by
  rw [mem_dropRepeats_mergeSort (fun h => CrossFile.samePlace_congr h) (equal_of_settled settled)]
  refine and_congr_left fun _ => ?_
  constructor
  · intro found
    have member := List.mem_of_find?_eq_some found
    exact CrossFile.leads_iff.2 ((find?_declarationOrder settled member).symm.trans found)
  · intro leads
    exact (find?_declarationOrder settled leads.mem).trans (CrossFile.leads_iff.1 leads)

/-- **Sorted and without repetitions**, the declarations are listed. -/
theorem lists_of_settled : Lists declarations
    (dropRepeats samePlace (declarations.mergeSort fun a b => (declarationOrder a b).isLE)) := by
  have ascending := pairwise_dropRepeats (ascending_mergeSort declarations)
    (equal_of_settled (settled.subset (List.mergeSort_perm declarations
      fun a b => (declarationOrder a b).isLE).subset))
  refine ⟨ascending, ascending.imp fun {a b} less => ?_, fun d member =>
    ((mem_listed settled).1 member).1, fun d member => ⟨?_, fun clear => ?_⟩⟩
  · rintro ⟨name, place⟩
    rw [declarationOrder_eq_iff.2 ⟨name, CrossFile.locationOrder_of_samePlace place⟩] at less
    cases less
  · rintro ⟨e, listed, name, place⟩ hidden
    rw [CrossFile.samePlace_comm] at place
    exact ((mem_listed settled).1 listed).2 (hidden.congr name.symm place)
  · obtain ⟨first, leads, name, place⟩ := CrossFile.exists_leads member
    exact ⟨first, (mem_listed settled).2 ⟨leads, fun hidden => clear (hidden.congr name place)⟩,
      name, place⟩

end

/-- **What an engine lists** after passes that are told of all changes. -/
theorem lists_declarations (inputs : List PassSetup) (last : PassSetup)
    (told : (inputs ++ [last]).IsChain PassSetup.Tells) (alike : last.sources.ReadsAlike) :
    let engine := afterPasses (inputs ++ [last])
    Lists engine.declared engine.declarations :=
  lists_of_settled (settled_afterPasses inputs last told alike)

theorem lists_declarations_beside_module :
    let inputs := [PassSetup.overDocuments (besideModule "") []]
    let last := PassSetup.overDocuments (besideModule "module m;\nendmodule\n") ["/p/b.sv"]
    let engine := afterPasses (inputs ++ [last])
    (inputs ++ [last]).IsChain PassSetup.Tells ∧ last.sources.ReadsAlike ∧
      Lists engine.declared engine.declarations ∧ engine.declared.map (·.name) = ["m", "m"] ∧
      ∀ d ∈ engine.declared, ¬Hidden engine.declared d := by
  intro inputs last engine
  have told : (inputs ++ [last]).IsChain PassSetup.Tells :=
    List.isChain_pair.2 (tells_besideModule "" "module m;\nendmodule\n")
  have alike : last.sources.ReadsAlike := Sources.readsAlike_ofProject _ _ _ _
  have facts : engine.declared.map (·.name) = ["m", "m"] ∧
      ∀ d ∈ engine.declared, ¬Hidden engine.declared d := by
    decide +kernel
  exact ⟨told, alike, lists_declarations inputs last told alike, facts⟩

/-- Two modules that one use of a macro declares. -/
def twoModulesAtOnce : String × String :=
  ("/p/top.sv", "`define TWO module a; endmodule module b; endmodule\n`TWO\n")

/-- A module that a unit declares is not listed. -/
theorem leaves_out_second_module :
    let engine := afterPasses [.overDocuments [twoModulesAtOnce] []]
    ∃ d ∈ engine.declared, ∀ e ∈ engine.declarations, ¬(e.name = d.name ∧ samePlace e d = true) := by
  intro engine
  have facts : ∃ d ∈ engine.declared, Hidden engine.declared d := by decide +kernel
  obtain ⟨d, declared, hidden⟩ := facts
  have settled : Settled engine.declared :=
    settled_afterPasses [] _ (List.isChain_singleton _) (Sources.readsAlike_ofProject _ _ _ _)
  exact ⟨d, declared, fun e listed same =>
    ((lists_of_settled settled).covers d declared).1 ⟨e, listed, same⟩ hidden⟩

end SvServer.Engine
