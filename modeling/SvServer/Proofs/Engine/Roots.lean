import SvServer.Proofs.Engine.Project

/-!
# The first step of a pass

A pass first brings the eligible files, their include names, the include graph and the files that
start units up to date, reading only the files that are new or said to have changed. What it arrives
at is what the pass is given: the graph has an edge exactly where one eligible file includes
another, and the roots are the source files that no other file includes.
-/

namespace SvServer.Engine

open Include (Edge Graph)

/-! ## The graph -/

/-- The edges that leave a file with these names. -/
def edgesOf (eligible : PathSet) (sources : Sources) (entry : Path × List String) : List Edge :=
  entry.2.filterMap fun name =>
    match sources.resolve name entry.1.directory with
    | some target => if eligible.contains target then some ⟨entry.1, target, name⟩ else none
    | none => none

theorem mem_edgesOf {eligible : PathSet} {sources : Sources} {entry : Path × List String}
    {edge : Edge} :
    edge ∈ edgesOf eligible sources entry ↔ edge.source = entry.1 ∧ edge.name ∈ entry.2 ∧
      sources.resolve edge.name entry.1.directory = some edge.target ∧
      eligible.contains edge.target = true := by
  rw [edgesOf, List.mem_filterMap]
  constructor
  · rintro ⟨name, named, found⟩
    cases led : sources.resolve name entry.1.directory with
    | none =>
        rw [led] at found
        exact absurd found nofun
    | some target =>
        rw [led] at found
        dsimp only at found
        split at found
        · rename_i present
          rw [← Option.some.inj found]
          exact ⟨rfl, named, led, present⟩
        · exact absurd found nofun
  · rintro ⟨source, named, led, present⟩
    refine ⟨edge.name, named, ?_⟩
    rw [led]
    dsimp only
    rw [if_pos present, ← source]

theorem buildGraph_eq (eligible : PathSet) (sources : Sources) (includes : PathMap (List String)) :
    buildGraph eligible sources includes = includes.toList.foldl (fun graph entry =>
      graph.setOutgoing entry.1 (edgesOf eligible sources entry)) .empty := rfl

/-- **The edges of the graph** are those that leave the files with recorded names. -/
theorem mem_incoming_buildGraph {eligible : PathSet} {sources : Sources}
    {includes : PathMap (List String)} {edge : Edge} {path : Path} :
    edge ∈ (buildGraph eligible sources includes).incoming path ↔
      ∃ entry ∈ includes.toList, edge ∈ edgesOf eligible sources entry ∧
        (edge.target == path) = true := by
  have distinct : includes.toList.Pairwise fun a b => (a.1 == b.1) = false := by
    refine Std.ExtTreeMap.distinct_keys_toList.imp ?_
    intro a b apart
    cases same : (a.1 == b.1) with
    | false => rfl
    | true => exact absurd (Path.compare_eq_of_beq same) apart
  rw [buildGraph_eq, Graph.mem_incoming_foldl_setOutgoing includes.toList Prod.fst
    (edgesOf eligible sources) .empty distinct (fun _ _ _ member => (mem_edgesOf.1 member).1)
    (fun _ _ => Graph.outgoing_empty _)]
  simp

/-! ## Reading names again -/

theorem getElem?_foldl_put {β : Type} (entries : List (Path × β)) (table : PathMap β) {path : Path}
    {value : β} (agree : ∀ entry ∈ entries, (entry.1 == path) = true → entry.2 = value) :
    (entries.foldl (fun table entry => table.put entry.1 entry.2) table)[path]? =
      if entries.any (·.1 == path) then some value else table[path]? := by
  apply read_foldl (fun (table : PathMap β) path => table[path]?)
    (fun (entry : Path × β) path => entry.1 == path)
    (fun table entry other => PathMap.getElem?_put table entry.1 other entry.2)
  intro entry member same
  rw [agree entry member same]

theorem plainKeys_foldl_put {β : Type} (entries : List (Path × β)) {table : PathMap β}
    (h : table.PlainKeys) (plain : ∀ entry ∈ entries, entry.1.IsPlain) :
    PathMap.PlainKeys (entries.foldl (fun table entry => table.put entry.1 entry.2) table) := by
  induction entries generalizing table with
  | nil => exact h
  | cons first rest ih =>
      exact ih (h.put (plain first List.mem_cons_self) _)
        fun entry member => plain entry (List.mem_cons_of_mem _ member)

theorem includesAfter_eq (engine : Engine) (input : PassSetup) :
    engine.includesAfter input =
      (engine.namesNow input).foldl (fun includes entry => PathMap.put includes entry.1 entry.2)
        (engine.includes.filter fun path _ => input.eligible.contains path) := rfl

/-! ## What an engine knows of the files -/

/-- The files, names, edges and roots of an engine are those of a pass. -/
structure Maps (engine : Engine) (input : PassSetup) : Prop where
  eligible : engine.eligible = input.eligible
  names : ∀ path : Path, path.IsPlain → engine.includes[path]? =
    if input.eligible.contains path then some (namesIn input.sources path) else none
  keys : engine.includes.PlainKeys
  sources : engine.graph.PlainSources
  graph : ∀ source target : Path, target.IsPlain →
    (engine.graph.Includes source target ↔ input.Includes source target)
  plainRoots : engine.roots.Plain
  roots : ∀ path : Path, path.IsPlain → (engine.roots.contains path = true ↔ input.IsRoot path)

section Step

variable {excluded : List Path} {severity : Severity} {before after : PassSetup} {engine : Engine}

/-- A file that stayed and is not said to have changed has the names that it had. -/
theorem namesIn_of_unchanged (follows : before.Follows after) {path : Path}
    (was : path ∈ before.eligible.toList) (now : path ∈ after.eligible.toList)
    (clean : after.dirty.contains path = false) :
    after.sources.text path = before.sources.text path ∧
      namesIn after.sources path = namesIn before.sources path := by
  have text : after.sources.text path = before.sources.text path := by
    by_contra changed
    rw [follows.texts path was now changed] at clean
    exact absurd clean (by decide)
  refine ⟨text, ?_⟩
  rw [namesIn, namesIn, text]

variable (maps : engine.Maps before) (was : before.OverProject excluded severity)
variable (now : after.OverProject excluded severity) (follows : before.Follows after)

theorem contains_added {path : Path} :
    (engine.added after).contains path =
      (after.eligible.contains path && !engine.eligible.contains path) :=
  PathSet.contains_diff ..

theorem contains_removed {path : Path} :
    (engine.removed after).contains path =
      (engine.eligible.contains path && !after.eligible.contains path) :=
  PathSet.contains_diff ..

include now in
theorem plain_added : (engine.added after).Plain := now.plainEligible.diff _

include maps was in
theorem plain_removed : (engine.removed after).Plain := by
  rw [removed, maps.eligible]
  exact was.plainEligible.diff _

include now in
/-- The names that are read again are those of files that are listed now. -/
theorem mem_namesNow {entry : Path × List String} (member : entry ∈ engine.namesNow after) :
    entry.1.IsPlain ∧ entry.2 = namesIn after.sources entry.1 := by
  rw [namesNow, List.mem_map] at member
  obtain ⟨path, listed, rfl⟩ := member
  rw [List.mem_filter, List.mem_append] at listed
  refine ⟨?_, rfl⟩
  rcases listed.1 with dirty | came
  · exact now.plainDirty path dirty
  · exact plain_added now path came

include maps now in
theorem plainKeys_includesAfter : (engine.includesAfter after).PlainKeys := by
  rw [includesAfter_eq]
  exact plainKeys_foldl_put _ (maps.keys.filter _)
    fun entry member => (mem_namesNow now member).1

include maps was now

/-- Where no file came or went the eligible files are the same set. -/
theorem eligibleAfter_eq : engine.eligibleAfter after = after.eligible := by
  rw [eligibleAfter]
  split
  · rfl
  · rename_i still
    rw [movesFiles, Bool.or_eq_true, not_or, Bool.not_eq_true', Bool.not_eq_true',
      Bool.not_eq_false, Bool.not_eq_false, Std.ExtTreeSet.isEmpty_iff,
      Std.ExtTreeSet.isEmpty_iff, Std.ExtTreeSet.eq_empty_iff_forall_contains,
      Std.ExtTreeSet.eq_empty_iff_forall_contains] at still
    have plain : engine.eligible.Plain := by
      rw [maps.eligible]
      exact was.plainEligible
    apply plain.ext now.plainEligible
    intro path _
    have came := still.1 path
    have went := still.2 path
    rw [contains_added] at came
    rw [contains_removed] at went
    cases inOld : engine.eligible.contains path <;>
      cases inNew : after.eligible.contains path <;> simp [inOld, inNew] at came went ⊢

include follows

/-- **The names after the first step** are those that the files have now. -/
theorem getElem?_includesAfter {path : Path} (plain : path.IsPlain) :
    (engine.includesAfter after)[path]? =
      if after.eligible.contains path then some (namesIn after.sources path) else none := by
  have agree : ∀ entry ∈ engine.namesNow after, (entry.1 == path) = true →
      entry.2 = namesIn after.sources path := by
    intro entry member same
    obtain ⟨plainEntry, names⟩ := mem_namesNow now member
    rw [names, plainEntry.eq_of_beq plain same]
  rw [includesAfter_eq, getElem?_foldl_put _ _ agree,
    PathMap.getElem?_filter_keys engine.includes (fun a b same => PathSet.contains_congr _ same)]
  by_cases listed : after.eligible.contains path = true
  · rw [if_pos listed, if_pos listed]
    split
    · rfl
    · rename_i unread
      -- Neither new nor said to have changed: the file was there with the same text.
      have notRead : ∀ other, other ∈ after.dirty.toList ∨ other ∈ (engine.added after).toList →
          (other == path) = true → False := by
        intro other source same
        apply unread
        rw [List.any_eq_true]
        refine ⟨(other, namesIn after.sources other), ?_, same⟩
        rw [namesNow, List.mem_map]
        refine ⟨other, ?_, rfl⟩
        rw [List.mem_filter, List.mem_append, PathSet.contains_congr _ same]
        exact ⟨source, listed⟩
      have clean : after.dirty.contains path = false := by
        by_contra dirty
        rw [Bool.not_eq_false] at dirty
        exact notRead path (.inl (now.plainDirty.mem_toList plain dirty)) BEq.rfl
      have old : before.eligible.contains path = true := by
        by_contra new
        rw [Bool.not_eq_true] at new
        have came : (engine.added after).contains path = true := by
          rw [contains_added, maps.eligible, listed, new]
          rfl
        exact notRead path (.inr ((plain_added now).mem_toList plain came)) BEq.rfl
      rw [maps.names path plain, if_pos old,
        (namesIn_of_unchanged follows ((was.mem_iff plain).2 old) ((now.mem_iff plain).2 listed)
          clean).2]
  · rw [if_neg listed, if_neg listed]
    split
    · rename_i read
      obtain ⟨entry, member, same⟩ := List.any_eq_true.1 read
      rw [namesNow, List.mem_map] at member
      obtain ⟨other, kept, rfl⟩ := member
      rw [List.mem_filter, PathSet.contains_congr _ same] at kept
      exact absurd kept.2 listed
    · rfl

/-- The rebuilt graph has an edge exactly where one eligible file includes another. -/
theorem includes_buildGraph {source target : Path} (plain : target.IsPlain) :
    (buildGraph after.eligible after.sources (engine.includesAfter after)).Includes source target ↔
      after.Includes source target := by
  have keys := plainKeys_includesAfter maps now
  constructor
  · -- An edge leaves a file with recorded names, and those are the names it has now.
    rintro ⟨edge, member, rfl⟩
    obtain ⟨entry, listed, leaves, same⟩ := mem_incoming_buildGraph.1 member
    obtain ⟨source, named, led, present⟩ := mem_edgesOf.1 leaves
    have plainSource := keys entry listed
    have stored := (keys.mem_toList_iff plainSource).1 listed
    rw [getElem?_includesAfter maps was now follows plainSource] at stored
    split at stored
    · rename_i eligible
      have inList := (now.mem_iff plainSource).2 eligible
      rw [← Option.some.inj stored] at named
      rw [source]
      have included := now.includes_of_resolve inList named led
      rwa [(now.plain_of_mem included.2.1).eq_of_beq plain same] at included
    · exact absurd stored nofun
  · rintro ⟨sourceListed, targetListed, name, named, led⟩
    have plainSource := now.plain_of_mem sourceListed
    refine ⟨⟨source, target, name⟩, ?_, rfl⟩
    rw [mem_incoming_buildGraph]
    refine ⟨(source, namesIn after.sources source), ?_, ?_, BEq.rfl⟩
    · rw [keys.mem_toList_iff plainSource, getElem?_includesAfter maps was now follows plainSource,
        if_pos (PathSet.contains_of_mem_toList sourceListed)]
    · exact mem_edgesOf.2 ⟨rfl, named, led, PathSet.contains_of_mem_toList targetListed⟩

/-! ## Nothing to rebuild -/

omit maps was now follows in
/-- Where the graph is not built again no file came or went, and the names that were read again are
those that were known. -/
theorem unmoved_of_needsGraph (still : engine.needsGraph after = false) :
    engine.movesFiles after = false ∧ ∀ entry ∈ engine.namesNow after,
      engine.includes[entry.1]? = some entry.2 := by
  rw [needsGraph, Bool.or_eq_false_iff] at still
  refine ⟨still.1, ?_⟩
  intro entry member
  have same := List.any_eq_false.1 still.2 entry member
  dsimp only at same
  rw [Bool.not_eq_true, bne_eq_false_iff_eq] at same
  exact same

/-- The names known before are those that the files have now. -/
theorem names_of_needsGraph (still : engine.needsGraph after = false) {path : Path}
    (plain : path.IsPlain) : engine.includes[path]? =
      if after.eligible.contains path then some (namesIn after.sources path) else none := by
  obtain ⟨unmoved, known⟩ := unmoved_of_needsGraph still
  have eligible : after.eligible = before.eligible := by
    rw [← eligibleAfter_eq maps was now, eligibleAfter, unmoved, ← maps.eligible]
    rfl
  rw [maps.names path plain, eligible]
  by_cases listed : before.eligible.contains path = true
  · rw [if_pos listed, if_pos listed]
    have listed' : after.eligible.contains path = true := by rw [eligible, listed]
    by_cases dirty : after.dirty.contains path = true
    · -- The names were read again, and they are those that were known.
      have member : (path, namesIn after.sources path) ∈ engine.namesNow after := by
        rw [namesNow, List.mem_map]
        refine ⟨path, ?_, rfl⟩
        rw [List.mem_filter, List.mem_append]
        exact ⟨.inl (now.plainDirty.mem_toList plain dirty), listed'⟩
      have stored := known _ member
      rw [maps.names path plain, if_pos listed] at stored
      exact stored
    · rw [Bool.not_eq_true] at dirty
      rw [(namesIn_of_unchanged follows ((was.mem_iff plain).2 listed)
        ((now.mem_iff plain).2 listed') dirty).2]
  · rw [if_neg listed, if_neg listed]

/-- With the same names and files, the same files include each other. -/
theorem includes_of_needsGraph (still : engine.needsGraph after = false) (source target : Path) :
    before.Includes source target ↔ after.Includes source target := by
  obtain ⟨unmoved, -⟩ := unmoved_of_needsGraph still
  have eligible : after.eligible = before.eligible := by
    rw [← eligibleAfter_eq maps was now, eligibleAfter, unmoved, ← maps.eligible]
    rfl
  rw [PassSetup.Includes, PassSetup.Includes, eligible]
  refine and_congr_right fun sourceListed => and_congr_right fun _ => ?_
  have plain := was.plain_of_mem sourceListed
  have contained := PathSet.contains_of_mem_toList sourceListed
  have names : namesIn after.sources source = namesIn before.sources source := by
    have stored := names_of_needsGraph maps was now follows still plain
    rw [maps.names source plain, eligible, if_pos contained, if_pos contained] at stored
    exact (Option.some.inj stored).symm
  rw [names]
  refine exists_congr fun name => and_congr_right fun named => ?_
  -- No file came or went, so names lead where they led.
  have resolve : after.sources.resolve name source.directory =
      before.sources.resolve name source.directory := by
    have named' : name ∈ namesIn after.sources source := by rw [names]; exact named
    apply was.resolve_stable now (was.relative sourceListed named)
    · intro target led
      rw [eligible]
      exact PathSet.contains_of_mem_toList (was.includes_of_resolve sourceListed named led).2.1
    · intro target led
      rw [← eligible]
      exact PathSet.contains_of_mem_toList
        (now.includes_of_resolve (by rw [eligible]; exact sourceListed) named' led).2.1
  rw [resolve]

/-! ## The roots -/

omit maps was follows in
/-- The roots of a graph that shows the includes of a pass are the roots of the pass. -/
theorem contains_rootsOf {graph : Graph} (sources : graph.PlainSources)
    (shows : ∀ source target : Path, target.IsPlain →
      (graph.Includes source target ↔ after.Includes source target))
    {path : Path} (plain : path.IsPlain) :
    (rootsOf after.eligible graph).contains path = true ↔ after.IsRoot path := by
  rw [rootsOf, now.plainEligible.contains_filter _ plain, Bool.and_eq_true, Bool.and_eq_true,
    Bool.not_eq_true', ← now.mem_iff plain, PassSetup.IsRoot]
  refine and_congr_right fun _ => and_congr_right fun _ => ?_
  rw [Graph.hasOtherIncluder, List.any_eq_false]
  constructor
  · rintro alone other apart included
    obtain ⟨edge, member, rfl⟩ := (shows other path plain).2 included
    apply alone edge member
    cases same : (edge.source == path) with
    | false => rw [bne, same]; rfl
    | true => exact absurd ((sources path edge member).eq_of_beq plain same) apart
  · rintro alone edge member apart
    refine alone edge.source ?_ ((shows edge.source path plain).1 ⟨edge, member, rfl⟩)
    rintro same
    rw [same, bne, BEq.rfl] at apart
    exact absurd apart (by decide)

/-- **The first step brings the engine up to date** with the files that the pass is given. -/
theorem maps_restructure : (engine.restructure after).engine.Maps after := by
  rw [restructure]
  split
  · -- Graph and roots are built anew.
    have eligible := eligibleAfter_eq maps was now
    have shows : ∀ source target : Path, target.IsPlain →
        ((buildGraph after.eligible after.sources (engine.includesAfter after)).Includes source
          target ↔ after.Includes source target) :=
      fun source target plain => includes_buildGraph maps was now follows plain
    have sources : (buildGraph after.eligible after.sources
        (engine.includesAfter after)).PlainSources := by
      intro target edge member
      obtain ⟨entry, listed, leaves, -⟩ := mem_incoming_buildGraph.1 member
      rw [(mem_edgesOf.1 leaves).1]
      exact plainKeys_includesAfter maps now entry listed
    constructor <;> dsimp only
    · exact eligible
    · exact fun path plain => getElem?_includesAfter maps was now follows plain
    · exact plainKeys_includesAfter maps now
    · rw [eligible]
      exact sources
    · rw [eligible]
      exact shows
    · rw [eligible]
      exact now.plainEligible.filter _
    · rw [eligible]
      exact fun path plain => contains_rootsOf now sources shows plain
  · -- Graph and roots stay, and show the includes of this pass as they did of the last one.
    rename_i still
    rw [Bool.not_eq_true] at still
    obtain ⟨unmoved, -⟩ := unmoved_of_needsGraph still
    have includes := includes_of_needsGraph maps was now follows still
    have eligible : engine.eligible = after.eligible := by
      rw [← eligibleAfter_eq maps was now, eligibleAfter, unmoved]
      rfl
    constructor
    · exact eligible
    · exact fun path plain => names_of_needsGraph maps was now follows still plain
    · exact maps.keys
    · exact maps.sources
    · exact fun source target plain => (maps.graph source target plain).trans (includes _ _)
    · exact maps.plainRoots
    · intro path plain
      rw [maps.roots path plain, PassSetup.IsRoot, PassSetup.IsRoot, ← maps.eligible, eligible]
      simp only [includes]

end Step

end SvServer.Engine
