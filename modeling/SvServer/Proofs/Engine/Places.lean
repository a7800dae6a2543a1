import SvServer.Engine.CrossFile
import SvServer.Proofs.PathSet
import SvServer.Proofs.Repeats

/-!
# Checks over the declarations of a project

The declarations of a project come from all its units, and a header that several units include
declares the same name at the same place in each of them. If declarations that begin alike stand at the
same place, sorting and dropping repetitions leave one for every name and place: the first in the order
of the units. Whether a name can be instantiated is read off these.
-/

namespace SvServer.CrossFile

/-! ## Places -/

instance : Std.TransCmp locationOrder :=
  inferInstanceAs (Std.TransCmp (compareLex (compareOn fun d : Declaration => d.path)
    (compareLex (compareOn fun d => d.range.start.line)
      (compareOn fun d => d.range.start.character))))

variable {a b : Declaration}

theorem samePlace_iff :
    samePlace a b = true ↔ (a.path == b.path) = true ∧ a.range = b.range := by
  rw [samePlace, Bool.and_eq_true]
  exact and_congr_right fun _ => beq_iff_eq

theorem samePlace_self (a : Declaration) : samePlace a a = true := samePlace_iff.2 ⟨BEq.rfl, rfl⟩

theorem samePlace_comm (a b : Declaration) : samePlace a b = samePlace b a := by
  rw [samePlace, samePlace, BEq.comm, BEq.comm (a := a.range)]

theorem samePlace_congr (h : samePlace a b = true) (c : Declaration) :
    samePlace c a = samePlace c b := by
  obtain ⟨path, range⟩ := samePlace_iff.1 h
  rw [samePlace, samePlace, BEq.congr_right path, range]

theorem samePlace_trans {c : Declaration} (h : samePlace a b = true) (h' : samePlace b c = true) :
    samePlace a c = true := by
  rw [← samePlace_congr h', h]

theorem locationOrder_eq_iff :
    locationOrder a b = .eq ↔ (a.path == b.path) = true ∧ a.range.start = b.range.start := by
  have starts : a.range.start = b.range.start ↔ a.range.start.line = b.range.start.line ∧
      a.range.start.character = b.range.start.character := by
    rw [← Position.mk.injEq]
  rw [locationOrder, compareLex_eq_eq, compareLex_eq_eq, starts]
  simp only [compareOn, Path.compare_eq_iff, Path.beq_iff, compare_eq_iff_eq]

theorem locationOrder_of_samePlace (h : samePlace a b = true) : locationOrder a b = .eq := by
  obtain ⟨path, range⟩ := samePlace_iff.1 h
  exact locationOrder_eq_iff.2 ⟨path, congrArg Range.start range⟩

/-- Declarations that begin at the same position of a file also end at the same. -/
def Settled (declarations : List Declaration) : Prop :=
  ∀ a ∈ declarations, ∀ b ∈ declarations, locationOrder a b = .eq → samePlace a b = true

/-- All names are single words. -/
def OneWord (declarations : List Declaration) : Prop :=
  ∀ d ∈ declarations, ∀ c ∈ d.name.toList, Text.isAsciiBlank c = false

theorem Settled.agrees {declarations : List Declaration} (settled : Settled declarations)
    (ha : a ∈ declarations) (hb : b ∈ declarations) :
    samePlace a b = (locationOrder a b == .eq) := by
  rw [Bool.eq_iff_iff, beq_iff_eq]
  exact ⟨locationOrder_of_samePlace, settled a ha b hb⟩

theorem Settled.equal {declarations : List Declaration} (settled : Settled declarations) :
    ∀ a ∈ declarations, ∀ b ∈ declarations, locationOrder a b = .eq → samePlace b a = true := by
  intro a ha b hb begins
  rw [samePlace_comm]
  exact settled a ha b hb begins

theorem Settled.subset {declarations others : List Declaration} (settled : Settled declarations)
    (sub : others ⊆ declarations) : Settled others :=
  fun a ha b hb => settled a (sub ha) b (sub hb)

/-! ## One declaration for each name and place -/

/-- The declarations of a name. -/
def named (declarations : List Declaration) (name : String) : List Declaration :=
  declarations.filter fun d => d.name == name

theorem mem_named {declarations : List Declaration} {name : String} {d : Declaration} :
    d ∈ named declarations name ↔ d ∈ declarations ∧ d.name = name := by
  rw [named, List.mem_filter, beq_iff_eq]

/-- The declarations of a name that count, one for each place. -/
def placesOf (declarations : List Declaration) (name : String) : List Declaration :=
  distinctPlaces (named declarations name)

theorem declaredPlaces_eq (declarations : List Declaration) :
    declaredPlaces declarations =
      (declaredNames declarations).map fun name => (name, placesOf declarations name) := rfl

theorem mem_declaredNames {declarations : List Declaration} {name : String} :
    name ∈ declaredNames declarations ↔ ∃ d ∈ declarations, d.name = name := by
  rw [declaredNames, Std.ExtTreeSet.mem_toList, ← Std.ExtTreeSet.contains_iff_mem,
    Std.ExtTreeSet.contains_ofList, List.contains_iff_mem, List.mem_map]

theorem nodup_declaredNames (declarations : List Declaration) :
    (declaredNames declarations).Nodup :=
  Std.ExtTreeSet.distinct_toList.imp fun differ same => differ (Std.LawfulEqCmp.compare_eq_iff_eq.2 same)

/-- The first declaration of its name at its place, in the order of the units. -/
def Leads (declarations : List Declaration) (d : Declaration) : Prop :=
  ∃ before after, declarations = before ++ d :: after ∧
    ∀ earlier ∈ before, earlier.name = d.name → samePlace earlier d = false

theorem Leads.mem {declarations : List Declaration} {d : Declaration}
    (leads : Leads declarations d) : d ∈ declarations := by
  obtain ⟨before, after, rfl, -⟩ := leads
  exact List.mem_append_right _ (.head _)

/-- What is found first for the name and the place of a declaration leads. -/
theorem leads_of_find? {declarations : List Declaration} {d first : Declaration}
    (found : declarations.find? (fun e => e.name == d.name && samePlace e d) = some first) :
    (first.name = d.name ∧ samePlace first d = true) ∧ Leads declarations first := by
  obtain ⟨here, before, after, split, others⟩ := List.find?_eq_some_iff_append.1 found
  rw [Bool.and_eq_true, beq_iff_eq] at here
  refine ⟨here, before, after, split, fun earlier member name => ?_⟩
  have differs := others earlier member
  rw [name, here.1, BEq.rfl, Bool.true_and, Bool.not_eq_true'] at differs
  rwa [samePlace_congr here.2]

theorem leads_iff {declarations : List Declaration} {d : Declaration} : Leads declarations d ↔
    declarations.find? (fun e => e.name == d.name && samePlace e d) = some d := by
  refine ⟨fun leads => ?_, fun found => (leads_of_find? found).2⟩
  obtain ⟨before, after, split, others⟩ := leads
  refine List.find?_eq_some_iff_append.2
    ⟨by rw [BEq.rfl, samePlace_self]; rfl, before, after, split, fun e member => ?_⟩
  rw [Bool.not_eq_true', Bool.and_eq_false_imp, beq_iff_eq]
  exact others e member

/-- Every declaration stands at the place of one that leads. -/
theorem exists_leads {declarations : List Declaration} {d : Declaration} (h : d ∈ declarations) :
    ∃ first, Leads declarations first ∧ first.name = d.name ∧ samePlace first d = true := by
  have found : (declarations.find? fun e => e.name == d.name && samePlace e d).isSome = true := by
    rw [List.find?_isSome]
    exact ⟨d, h, by rw [BEq.rfl, samePlace_self]; rfl⟩
  obtain ⟨first, found⟩ := Option.isSome_iff_exists.1 found
  obtain ⟨here, leads⟩ := leads_of_find? found
  exact ⟨first, leads, here⟩

section

variable {declarations : List Declaration} (settled : Settled declarations) {name : String}

include settled

theorem settled_named : Settled (named declarations name) :=
  settled.subset fun _ member => (mem_named.1 member).1

/-- **What counts of the declarations of a name** are those that lead. -/
theorem mem_placesOf {d : Declaration} :
    d ∈ placesOf declarations name ↔ Leads declarations d ∧ d.name = name := by
  have clear : ¬Shadowed locationOrder samePlace (named declarations name) d := by
    rintro ⟨e, -, place, less, -⟩
    rw [samePlace_comm] at place
    rw [locationOrder_of_samePlace place] at less
    cases less
  have search : d ∈ declarations → d.name = name →
      (named declarations name).find? (locationOrder d · == .eq) =
        declarations.find? fun e => e.name == d.name && samePlace e d := by
    rintro member rfl
    rw [named, List.find?_filter]
    refine List.find?_congr fun e listed => ?_
    rw [samePlace_comm, settled.agrees member listed, Bool.decide_and, Bool.decide_eq_true,
      Bool.decide_eq_true]
  rw [placesOf, distinctPlaces, mem_dropRepeats_mergeSort (fun h => samePlace_congr h)
    (settled_named settled).equal, and_iff_left clear]
  constructor
  · intro found
    obtain ⟨member, here⟩ := mem_named.1 (List.mem_of_find?_eq_some found)
    exact ⟨leads_iff.2 ((search member here).symm.trans found), here⟩
  · rintro ⟨leads, here⟩
    exact (search leads.mem here).trans (leads_iff.1 leads)

/-- No two of the declarations that count stand at one place. -/
theorem pairwise_placesOf :
    (placesOf declarations name).Pairwise fun a b => samePlace a b = false := by
  have equal := ((settled_named settled).subset (List.mergeSort_perm (named declarations name)
    fun a b => (locationOrder a b).isLE).subset).equal
  refine (pairwise_dropRepeats (ascending_mergeSort _) equal).imp fun {a b} less => ?_
  rw [Bool.eq_false_iff]
  intro same
  rw [locationOrder_of_samePlace same] at less
  cases less

end

/-! ## Names that can be instantiated -/

/-- A declaration that leads makes the name one that can be instantiated. -/
def Known (declarations : List Declaration) (name : String) : Prop :=
  ∃ d, Leads declarations d ∧ d.name = name ∧ d.kind.isInstantiable = true

/-- A name is known if a declaration of it stands where the first one of the name can be
instantiated. -/
theorem known_iff {declarations : List Declaration} {name : String} :
    Known declarations name ↔ ∃ d ∈ declarations, d.name = name ∧
      ((declarations.find? fun e => e.name == name && samePlace e d).any
        fun e => e.kind.isInstantiable) = true := by
  constructor
  · rintro ⟨d, leads, rfl, instantiable⟩
    refine ⟨d, leads.mem, rfl, ?_⟩
    rw [leads_iff.1 leads]
    exact instantiable
  · rintro ⟨d, member, rfl, instantiable⟩
    obtain ⟨first, found, instantiable⟩ := (Option.any_eq_true _ _).1 instantiable
    obtain ⟨here, leads⟩ := leads_of_find? found
    exact ⟨first, leads, here.1, instantiable⟩

instance (declarations : List Declaration) (name : String) : Decidable (Known declarations name) :=
  decidable_of_iff _ known_iff.symm

theorem contains_instantiableNames {declarations : List Declaration}
    (settled : Settled declarations) {name : String} :
    (instantiableNames (declaredPlaces declarations)).contains name = true ↔
      Known declarations name := by
  rw [instantiableNames, declaredPlaces_eq, List.contains_iff_mem, List.mem_map]
  simp only [List.mem_filter, List.mem_map, List.any_eq_true]
  constructor
  · rintro ⟨_, ⟨⟨name, -, rfl⟩, d, member, instantiable⟩, rfl⟩
    obtain ⟨leads, here⟩ := (mem_placesOf settled).1 member
    exact ⟨d, leads, here, instantiable⟩
  · rintro ⟨d, leads, rfl, instantiable⟩
    exact ⟨(d.name, placesOf declarations d.name), ⟨⟨d.name,
      mem_declaredNames.2 ⟨d, leads.mem, rfl⟩, rfl⟩, d, (mem_placesOf settled).2 ⟨leads, rfl⟩,
      instantiable⟩, rfl⟩

end SvServer.CrossFile
