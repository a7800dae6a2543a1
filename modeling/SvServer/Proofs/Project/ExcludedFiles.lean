import SvServer.Proofs.Engine.Results
import SvServer.Proofs.Include.Resolve
import SvServer.Proofs.Project.FollowUps

/-!
# Excluded files are left out

Where no root lies inside another one, an exclusion covers files of its own root only, and a root
includes none that it excludes. So no file that may be compiled is excluded. An include name stands
for such a file, or it is an absolute path that no exclusion covers. Whatever the files include, no
unit of a pass over the project has to do with an excluded file.
-/

namespace SvServer.Project

variable {project : Project} {documents : Documents} {disk : Disk}

/-- No root lies at or beneath another one. -/
def Apart (project : Project) : Prop :=
  project.rootFiles.Pairwise fun set other =>
    set.root.isUnder other.root = false ∧ other.root.isUnder set.root = false

instance (project : Project) : Decidable project.Apart :=
  inferInstanceAs (Decidable (List.Pairwise _ _))

/-- Two roots with a path in common are one. -/
theorem Apart.eq_of_common (h : project.Apart) {set other : RootFiles}
    (listed : set ∈ project.rootFiles) (listed' : other ∈ project.rootFiles) {path : Path}
    (beneath : path.isUnder set.root = true) (beneath' : path.isUnder other.root = true) :
    set = other := by
  by_contra different
  have mirrored : Std.Symm fun set other : RootFiles =>
      set.root.isUnder other.root = false ∧ other.root.isUnder set.root = false :=
    ⟨fun _ _ apart => ⟨apart.2, apart.1⟩⟩
  have apart := List.Pairwise.forall h listed listed' different
  rcases Path.isUnder_or_isUnder beneath beneath' with inside | around
  · exact Bool.false_ne_true (apart.1.symm.trans inside)
  · exact Bool.false_ne_true (apart.2.symm.trans around)

/-- **No included file is excluded**, by its own root or by another one. -/
theorem Consistent.isExcluded_of_includes (h : project.Consistent) (apart : project.Apart)
    {file : Path} (included : project.includes file = true) : project.isExcluded file = false := by
  obtain ⟨place, set, found, included⟩ := includes_iff_files?.1 included
  rw [Bool.eq_false_iff]
  intro excluded
  obtain ⟨place', other, found', excluded⟩ := isExcluded_iff_files?.1 excluded
  obtain ⟨cover, member, covered⟩ := RootFiles.isExcluded_iff.1 excluded
  have beneath := (h.files place set found).files file included
  have beneath' := Path.isUnder_trans covered ((h.files place' other found').excluded cover member)
  have same := apart.eq_of_common (mem_rootFiles_iff.2 ⟨place, found⟩)
    (mem_rootFiles_iff.2 ⟨place', found'⟩) beneath beneath'
  have exact_ := h.exact place set found file included
  rw [same, excluded] at exact_
  exact absurd exact_ (by decide)

theorem isExcluded_congr (project : Project) {a b : Path} (same : (a == b) = true) :
    project.isExcluded a = project.isExcluded b := by
  simp only [isExcluded, RootFiles.isExcluded_congr _ same]

/-- **No file that may be compiled is excluded.** -/
theorem isExcluded_of_eligible (h : project.Reachable) (apart : project.Apart)
    {openPaths : List Path} {path : Path}
    (eligible : (project.eligible openPaths).contains path = true) :
    project.isExcluded path = false := by
  rw [Project.eligible, PathSet.contains_extend, PathSet.contains_collect, Bool.or_eq_true] at eligible
  rcases eligible with included | open_
  · rw [contains_includedFiles] at included
    exact h.consistent.isExcluded_of_includes apart included
  · obtain ⟨document, listed, same⟩ := List.contains_iff_exists_mem_beq.1 open_
    have admitted := (List.mem_filter.1 listed).2
    rw [admits, Bool.and_eq_true, Bool.not_eq_true'] at admitted
    rw [project.isExcluded_congr same]
    exact admitted.2

/-- **No include name stands for an excluded file.** -/
theorem isExcluded_of_resolve (h : project.Reachable) (apart : project.Apart) {name : String}
    {directory path : Path}
    (resolved : (project.sources documents disk).resolve name directory = some path) :
    project.isExcluded path = false := by
  rcases Include.eligible_or_uncovered_of_resolve? resolved with eligible | uncovered
  · exact isExcluded_of_eligible h apart eligible
  · rwa [isCoveredBy_exclusions] at uncovered

/-- No unit reads an excluded file unless it starts at one. -/
theorem isExcluded_of_filesRead (h : project.Reachable) (apart : project.Apart)
    {settings : Unit.Settings} (sources : settings.sources = project.sources documents disk)
    {root path : Path} (here : project.isExcluded root = false)
    (read : (compileUnit settings root).filesRead.contains path = true) :
    project.isExcluded path = false := by
  rcases resolved_of_filesRead read with same | ⟨name, directory, target, resolved, same⟩
  · rwa [← project.isExcluded_congr same]
  · rw [sources] at resolved
    rw [← project.isExcluded_congr same]
    exact isExcluded_of_resolve h apart resolved

/-- What a pass has to do with the files that a project excludes: nothing. -/
structure LeavesOut (project : Project) (engine : Engine) (input : PassSetup) : Prop where
  eligible : ∀ path, input.eligible.contains path = true → project.isExcluded path = false
  compiled : ∀ root, (engine.run input).2.compiled.contains root = true →
    project.isExcluded root = false
  read : ∀ root, (engine.run input).2.compiled.contains root = true →
    ∃ unit, (engine.run input).1.unit? root = some unit ∧
      ∀ path, unit.filesRead.contains path = true → project.isExcluded path = false

/-- **A pass over a project leaves excluded files out**, whatever passes came before it and whatever
is on the disk and in the open documents by then. -/
theorem leavesOut_of_sources (h : project.Reachable) (apart : project.Apart) (disk : Disk)
    (documents : Documents) (inputs : List PassSetup) {input : PassSetup}
    (eligible : input.eligible = project.eligible documents.paths)
    (sources : input.sources = project.sources documents disk) :
    project.LeavesOut (Engine.afterPasses inputs) input := by
  have usable : ∀ path, input.eligible.contains path = true → project.isExcluded path = false := by
    intro path member
    rw [eligible] at member
    exact isExcluded_of_eligible h apart member
  have rooted : (Engine.afterPasses inputs).RootsEligible :=
    Engine.invariant_afterPasses Engine.RootsEligible Engine.rootsEligible_empty
      (fun _ input h => h.run input) inputs
  have compiled : ∀ root, ((Engine.afterPasses inputs).run input).2.compiled.contains root = true →
      project.isExcluded root = false := by
    intro root compiled
    exact usable root (Engine.eligible_of_isRoot rooted (Engine.isRoot_of_compiled compiled))
  refine ⟨usable, compiled, fun root inBatch => ?_⟩
  obtain ⟨spelled, same, unit⟩ := Engine.unit?_of_compiled inBatch
  refine ⟨_, unit, fun path read => ?_⟩
  have here := compiled root inBatch
  rw [← project.isExcluded_congr same] at here
  have given : (Engine.settings input).sources = project.sources documents disk := sources
  exact isExcluded_of_filesRead h apart given here read

/-- The project once it has taken in that one of its files is excluded. -/
def prunedProject : Project := (pairProject.perform editedDisk .reload).1

/-- An open document in the place of the other file, which includes the excluded one by its name and
by its path. -/
def namingDocument : Documents :=
  Documents.empty.openDocument (.ofString "/p/top.sv")
    "`include \"side.sv\"\n`include \"/p/side.sv\"\n" 1

/-- The pass that compiles the document. -/
def namingSetup : PassSetup where
  eligible := prunedProject.eligible namingDocument.paths
  sources := prunedProject.sources namingDocument editedDisk
  macros := .empty
  redefinedSeverity := .warning
  dirty := ∅
  compileAdded := true
  crossFile := true

/-- The names of an excluded file lead nowhere, and the document is compiled without it. -/
theorem leavesOut_namingSetup :
    prunedProject.Reachable ∧ prunedProject.Apart ∧
      prunedProject.isExcluded (.ofString "/p/side.sv") = true ∧
      (Engine.empty.run namingSetup).2.compiled.contains (.ofString "/p/top.sv") = true ∧
      prunedProject.LeavesOut (Engine.afterPasses []) namingSetup := by
  have reachable : prunedProject.Reachable := .performed editedDisk .reload reachable_pairProject
  have apart : prunedProject.Apart := by decide +kernel
  exact ⟨reachable, apart, by decide +kernel, by decide +kernel,
    leavesOut_of_sources reachable apart editedDisk namingDocument [] rfl rfl⟩

end SvServer.Project
