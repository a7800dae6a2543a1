import SvServer.Proofs.Unit.Reads

/-!
# A unit depends on what it reads

Two compiles of a unit agree if the files that the first one opens have the same text for both, and
the include directives that the first one meets lead both to the same place. What an include
directive leads to is asked at the files that the compile goes through, so the premise is about the
stacks of open files that can come up. The revisions of buffers are noted and looked at nowhere; how
those that the two compiles note are related is a parameter.
-/

namespace SvServer

/-- Reports that differ at most in the revisions of buffers. -/
def UnitReport.Alike (a b : UnitReport) : Prop := ∃ revisions, b = { a with revisions := revisions }

namespace Unit

open Hdl

section Alike

-- How the revisions that two compiles have noted are related.
variable (agree : PathMap (Option Nat) → PathMap (Option Nat) → Prop)

/-- States that differ at most in the revisions of buffers. -/
def State.Alike (a b : State) : Prop :=
  ∃ revisions, agree a.reads.revisions revisions ∧
    b = a.withReads ⟨a.reads.root, a.reads.files, revisions⟩

def Progress.Alike (a b : Progress) : Prop :=
  ∃ revisions, agree a.reads.revisions revisions ∧
    b = a.withReads ⟨a.reads.root, a.reads.files, revisions⟩

end Alike

/-- Whether a text has an include directive with a name that can be read. -/
def NamesInclude (file : SourceFile) (name : String) : Prop :=
  ∃ token rest range, (token :: rest) <:+ tokens file.text ∧ token.kind = .directive ∧
    token.text = "include" ∧ includeName? file token rest = some (name, range)

/-- What two compiles of a unit must have in common. `kept` holds the files that the first one
reads, and `reach` says which stacks of open files come up, innermost first. -/
structure SameReading (before after : Settings) (kept : PathSet) (reach : List Path → Prop) :
    Prop where
  severity : after.redefinedSeverity = before.redefinedSeverity
  /-- Files that are opened have the same text -/
  text : ∀ path stack, reach (path :: stack) →
    after.sources.text path = before.sources.text path
  /-- Names lead to the same place: they lead nowhere, to an open file, to too deep a file, to one
  that is read, or to one that cannot be read -/
  resolve : ∀ path stack text name, reach (path :: stack) →
    before.sources.text path = some text → NamesInclude ⟨path, text.toList⟩ name →
    (∀ target, before.sources.resolve name path.directory = some target →
      (path :: stack).contains target = true ∨ (path :: stack).length = openFileLimit ∨
        kept.contains target = true ∨ before.sources.text target = none) →
    after.sources.resolve name path.directory = before.sources.resolve name path.directory
  /-- What could not be read still cannot -/
  unreadable : ∀ path stack text name target, reach (path :: stack) →
    before.sources.text path = some text → NamesInclude ⟨path, text.toList⟩ name →
    before.sources.resolve name path.directory = some target →
    before.sources.text target = none → after.sources.text target = none
  /-- Including a file leads to a further stack -/
  step : ∀ path stack text name target, reach (path :: stack) →
    before.sources.text path = some text → NamesInclude ⟨path, text.toList⟩ name →
    before.sources.resolve name path.directory = some target →
    after.sources.resolve name path.directory = some target →
    (path :: stack).contains target = false → kept.contains target = true →
    reach (target :: path :: stack)

/-- The revisions that two compiles note of a file that is opened keep those noted related. -/
def NotesAlike (before after : Settings) (reach : List Path → Prop)
    (agree : PathMap (Option Nat) → PathMap (Option Nat) → Prop) : Prop :=
  ∀ path stack revisions revisions', reach (path :: stack) → agree revisions revisions' →
    agree (revisions.put path (before.sources.revision path))
      (revisions'.put path (after.sources.revision path))

/-! ## States that are alike -/

section Steps

variable {agree : PathMap (Option Nat) → PathMap (Option Nat) → Prop} {a b : State}

theorem State.Alike.find (h : a.Alike agree b) (path : Path) (range : Range) (finding : Finding) :
    (a.find path range finding).Alike agree (b.find path range finding) := by
  obtain ⟨revisions, agreed, rfl⟩ := h
  exact ⟨revisions, agreed, rfl⟩

theorem State.Alike.addMissing (h : a.Alike agree b) (name : String) :
    (a.addMissing name).Alike agree (b.addMissing name) := by
  obtain ⟨revisions, agreed, rfl⟩ := h
  exact ⟨revisions, agreed, rfl⟩

theorem State.Alike.addFile (h : a.Alike agree b) {path : Path} {revision revision' : Option Nat}
    (notes : ∀ revisions revisions', agree revisions revisions' →
      agree (revisions.put path revision) (revisions'.put path revision')) :
    (a.addFile path revision).Alike agree (b.addFile path revision') := by
  obtain ⟨revisions, agreed, rfl⟩ := h
  exact ⟨revisions.put path revision', notes _ _ agreed, rfl⟩

end Steps

/-- Reading a further file inside of the open ones keeps states alike. -/
def ReadsAlike (before after : Settings) (kept : PathSet) (reach : List Path → Prop)
    (agree : PathMap (Option Nat) → PathMap (Option Nat) → Prop) (room : Nat)
    (around : List Path) : Prop :=
  ∀ room', room = room' + 1 → ∀ target text a b, reach (target :: around) →
    before.sources.text target = some text → State.Alike agree a b →
    (∀ file, (compileFile before room' around ⟨target, text.toList⟩ a).reads.files.contains file =
      true → kept.contains file = true) →
    (compileFile before room' around ⟨target, text.toList⟩ a).Alike agree
      (compileFile after room' around ⟨target, text.toList⟩ b)

/-- An include that is followed stands in the text. -/
theorem namesInclude_of_site {progress : Progress} {path : Path} {text : String} {token : Token}
    {rest : List Token} {site : String × Range}
    (h : includeSite? progress ⟨path, text.toList⟩ token rest = some site)
    (suffix : (token :: rest) <:+ tokens text.toList) :
    NamesInclude ⟨path, text.toList⟩ site.1 := by
  rw [includeSite?] at h
  split at h
  · rename_i here
    exact ⟨token, rest, site.2, suffix, here.1, here.2.1, h⟩
  · cases h

section Walk

variable {before after : Settings} {kept : PathSet} {reach : List Path → Prop}
variable {agree : PathMap (Option Nat) → PathMap (Option Nat) → Prop}
variable (same : SameReading before after kept reach)
variable (notes : NotesAlike before after reach agree)

include same notes

/-- **Following an include keeps states alike.** -/
theorem includeFile_alike {a b : State} (h : a.Alike agree b) {path : Path} {stack : List Path}
    {text : String} {room : Nat} (around : reach (path :: stack))
    (limit : room + (path :: stack).length = openFileLimit)
    (read : before.sources.text path = some text) {name : String} (range : Range)
    (named : NamesInclude ⟨path, text.toList⟩ name)
    (compiles : ReadsAlike before after kept reach agree room (path :: stack))
    (keeps : ∀ file, (a.includeFile before (path :: stack)
      (compiler? before room (path :: stack)) ⟨path, text.toList⟩ name range).reads.files.contains
        file = true → kept.contains file = true) :
    (a.includeFile before (path :: stack) (compiler? before room (path :: stack))
        ⟨path, text.toList⟩ name range).Alike agree
      (b.includeFile after (path :: stack) (compiler? after room (path :: stack))
        ⟨path, text.toList⟩ name range) := by
  have resolve := same.resolve path stack text name around read named
  have unreadable := same.unreadable path stack text name
  have step := same.step path stack text name
  rw [State.includeFile] at keeps ⊢
  rw [State.includeFile]
  cases resolved : before.sources.resolve name path.directory with
  | none =>
      -- The name leads nowhere, for both.
      rw [resolve fun _ led => (by cases resolved.symm.trans led), resolved]
      exact (h.addMissing name).find _ _ _
  | some target =>
      simp only [resolved] at keeps
      by_cases open_ : (path :: stack).contains target = true
      · -- The file is open already, so the include is reported as a cycle.
        have agreed := resolve fun other led =>
          .inl (Option.some.inj (resolved.symm.trans led) ▸ open_)
        simp only [agreed, resolved, open_, if_true]
        exact h.find _ _ _
      · simp only [open_, if_false, Bool.false_eq_true] at keeps
        cases room with
        | zero =>
            -- No further file may be opened.
            have agreed := resolve fun other _ => .inr (.inl (by omega))
            simp only [agreed, resolved, open_, if_false, Bool.false_eq_true, compiler?]
            exact h.find _ _ _
        | succ room =>
            simp only [compiler?] at keeps
            cases readable : before.sources.text target with
            | none =>
                -- The file cannot be read, before or after.
                have agreed := resolve fun other led => .inr (.inr (.inr
                  (Option.some.inj (resolved.symm.trans led) ▸ readable)))
                have still := unreadable target around read named resolved readable
                simp only [agreed, resolved, open_, if_false, Bool.false_eq_true, compiler?,
                  readable, still]
                exact (h.addMissing name).find _ _ _
            | some inner =>
                -- The file is read, so it is one of those kept.
                simp only [readable] at keeps
                have keptTarget : kept.contains target = true := by
                  apply keeps
                  apply files_compileFile
                  rw [State.reads_addFile, Reads.add, PathSet.contains_insert, BEq.rfl,
                    Bool.true_or]
                have agreed := resolve fun other led => .inr (.inr (.inl
                  (Option.some.inj (resolved.symm.trans led) ▸ keptTarget)))
                have reached := step target around read named resolved (agreed.trans resolved)
                  (by simpa using open_) keptTarget
                have text' := (same.text target _ reached).trans readable
                simp only [agreed, resolved, open_, if_false, Bool.false_eq_true, compiler?,
                  readable, text']
                exact compiles room rfl target inner _ _ reached readable
                  (h.addFile fun _ _ => notes target _ _ _ reached) keeps

/-- **Walking the tokens of a file keeps states alike.** The induction goes along the tokens that
are left, which are an end of those of the file. -/
theorem walkTokens_alike {path : Path} {stack : List Path} {text : String} {room : Nat}
    (around : reach (path :: stack)) (limit : room + (path :: stack).length = openFileLimit)
    (read : before.sources.text path = some text)
    (compiles : ReadsAlike before after kept reach agree room (path :: stack))
    (left : List Token) (a b : Progress) (h : a.Alike agree b)
    (suffix : left <:+ tokens text.toList)
    (keeps : ∀ file, (walkTokens before (path :: stack) (compiler? before room (path :: stack))
      ⟨path, text.toList⟩ left a).reads.files.contains file = true → kept.contains file = true) :
    (walkTokens before (path :: stack) (compiler? before room (path :: stack))
        ⟨path, text.toList⟩ left a).Alike agree
      (walkTokens after (path :: stack) (compiler? after room (path :: stack))
        ⟨path, text.toList⟩ left b) := by
  induction left, a using walkTokens.induct before (path :: stack)
      (compiler? before room (path :: stack)) ⟨path, text.toList⟩ generalizing b with
  | case1 a =>
      rw [walkTokens, walkTokens]
      exact h
  | case2 token rest a stepped used step ih =>
      obtain ⟨revisions, agreed, rfl⟩ := h
      have suffix' : rest.drop used <:+ tokens text.toList :=
        (List.drop_suffix used rest).trans ((List.suffix_cons token rest).trans suffix)
      rw [walkTokens, step] at keeps
      rw [walkTokens, walkTokens, step]
      have stepped_eq := congrArg Prod.fst step
      have used_eq := congrArg Prod.snd step
      dsimp only at stepped_eq used_eq keeps
      cases site : includeSite? a ⟨path, text.toList⟩ token rest with
      | none =>
          -- Away from includes the step does the same on both sides.
          rw [Progress.withReads_step before after _ _ _ _ _ _ _ a _ same.severity site]
          have steady := Progress.reads_step before (path :: stack)
            (compiler? before room (path :: stack)) ⟨path, text.toList⟩ token rest a site
          rw [stepped_eq, used_eq]
          rw [stepped_eq] at steady
          exact ih _ ⟨revisions, by rwa [steady], by rw [steady]⟩ suffix' keeps
      | some found =>
          -- The step follows an include, which may open further files.
          have site' : includeSite? (a.withReads ⟨a.reads.root, a.reads.files, revisions⟩)
              ⟨path, text.toList⟩ token rest = some found := site
          rw [Progress.step_of_site _ _ _ _ _ _ site']
          rw [Progress.step_of_site _ _ _ _ _ _ site] at stepped_eq used_eq
          dsimp only at stepped_eq used_eq ⊢
          rw [used_eq]
          have included : (a.walk.state.includeFile before (path :: stack)
              (compiler? before room (path :: stack)) ⟨path, text.toList⟩ found.1 found.2).Alike
              agree ((a.walk.state.withReads ⟨a.reads.root, a.reads.files, revisions⟩).includeFile
                after (path :: stack) (compiler? after room (path :: stack)) ⟨path, text.toList⟩
                found.1 found.2) := by
            refine includeFile_alike same notes ⟨revisions, agreed, rfl⟩ around limit read found.2
              (namesInclude_of_site site suffix) compiles ?_
            intro file member
            rw [← stepped_eq] at keeps
            exact keeps file (files_walkTokens before room (path :: stack) _ _ _ member)
          obtain ⟨revisions', agreed', eq⟩ := included
          refine ih _ ?_ suffix' keeps
          rw [← stepped_eq]
          exact ⟨revisions', agreed',
            congrArg (fun state => Progress.mk ⟨state, a.walk.look⟩ a.chains) eq⟩

/-- The compile of a file is a walk over its tokens, between two ends that report only. -/
theorem compileFile_alike_of_readsAlike {path : Path} {stack : List Path} {text : String}
    {room : Nat} {a b : State} (h : a.Alike agree b) (around : reach (path :: stack))
    (limit : room + (path :: stack).length = openFileLimit)
    (read : before.sources.text path = some text)
    (compiles : ReadsAlike before after kept reach agree room (path :: stack))
    (keeps : ∀ file, (compileFile before room stack ⟨path, text.toList⟩ a).reads.files.contains
      file = true → kept.contains file = true) :
    (compileFile before room stack ⟨path, text.toList⟩ a).Alike agree
      (compileFile after room stack ⟨path, text.toList⟩ b) := by
  obtain ⟨revisions, agreed, rfl⟩ := h
  rw [compileFile_eq, Progress.reads_close] at keeps
  rw [compileFile_eq, compileFile_eq]
  have begun : Progress.Alike agree ⟨⟨a.begin ⟨path, text.toList⟩, .start⟩, []⟩
      ⟨⟨(a.withReads ⟨a.reads.root, a.reads.files, revisions⟩).begin ⟨path, text.toList⟩, .start⟩,
        []⟩ := by
    refine ⟨revisions, by rwa [Progress.reads, State.reads_begin], ?_⟩
    rw [State.withReads_begin, Progress.reads, State.reads_begin]
    rfl
  obtain ⟨revisions', agreed', eq⟩ := walkTokens_alike same notes around limit read compiles _ _ _
    begun (List.suffix_refl _) keeps
  refine ⟨revisions', by rwa [Progress.reads_close], ?_⟩
  rw [eq, Progress.withReads_close, Progress.reads_close]

/-- **Compiling a file keeps states alike**, by induction on the files that may still be opened. -/
theorem compileFile_alike (room : Nat) {path : Path} {stack : List Path} {text : String}
    {a b : State} (h : a.Alike agree b) (around : reach (path :: stack))
    (limit : room + (path :: stack).length = openFileLimit)
    (read : before.sources.text path = some text)
    (keeps : ∀ file, (compileFile before room stack ⟨path, text.toList⟩ a).reads.files.contains
      file = true → kept.contains file = true) :
    (compileFile before room stack ⟨path, text.toList⟩ a).Alike agree
      (compileFile after room stack ⟨path, text.toList⟩ b) := by
  induction room generalizing path stack text a b with
  | zero =>
      have none : ReadsAlike before after kept reach agree 0 (path :: stack) := by
        intro room' impossible
        omega
      exact compileFile_alike_of_readsAlike same notes h around limit read none keeps
  | succ room ih =>
      have inner : ReadsAlike before after kept reach agree (room + 1) (path :: stack) := by
        intro room' eq target text a b reached readable alike keepsInner
        obtain rfl : room = room' := by omega
        refine ih alike reached ?_ readable keepsInner
        rw [List.length_cons]
        omega
      exact compileFile_alike_of_readsAlike same notes h around limit read inner keeps

end Walk

end Unit

open SvServer.Unit

section Unit

variable {before after : Settings} {kept : PathSet} {reach : List Path → Prop}
variable (same : SameReading before after kept reach)
variable (definitions : Definitions.ofProject after.macros = Definitions.ofProject before.macros)
variable {root : Path} (around : reach [root]) (readable : before.sources.text root ≠ none)
variable (keeps : ∀ file, (compileUnit before root).filesRead.contains file = true →
  kept.contains file = true)

include same definitions around readable keeps

/-- Units that read the same differ at most in the revisions of buffers, and those are related as
the compiles note them. -/
theorem exists_revisions_of_sameReading
    {agree : PathMap (Option Nat) → PathMap (Option Nat) → Prop}
    (notes : NotesAlike before after reach agree) (nothing : agree ∅ ∅) :
    ∃ revisions, agree (compileUnit before root).revisions revisions ∧
      compileUnit after root = { compileUnit before root with revisions := revisions } := by
  cases read : before.sources.text root with
  | none => exact absurd read readable
  | some text =>
      simp only [compileUnit, read] at keeps
      have read' := (same.text root [] around).trans read
      simp only [compileUnit, read, read']
      have begun : ((State.initial root before.macros).addFile root
          (before.sources.revision root)).Alike agree
          ((State.initial root after.macros).addFile root (after.sources.revision root)) := by
        have initial : (State.initial root before.macros).Alike agree
            (State.initial root after.macros) := by
          rw [State.initial, State.initial, definitions]
          exact ⟨∅, nothing, rfl⟩
        exact initial.addFile fun _ _ => notes root [] _ _ around
      obtain ⟨revisions, agreed, eq⟩ := compileFile_alike same notes (openFileLimit - 1) begun
        around rfl read keeps
      exact ⟨revisions, agreed, congrArg State.result
        (by rw [eq, State.withReads_finish] : (compileFile after (openFileLimit - 1) []
          ⟨root, text.toList⟩ _).finish = _)⟩

/-- **Units that read the same are alike.** The root can be read, the definitions of the project
are the same, and the files that the first compile reads are among those kept. -/
theorem compileUnit_alike : (compileUnit before root).Alike (compileUnit after root) := by
  have notes : NotesAlike before after reach fun _ _ => True := fun _ _ _ _ _ _ => trivial
  obtain ⟨revisions, -, eq⟩ :=
    exists_revisions_of_sameReading same definitions around readable keeps notes trivial
  exact ⟨revisions, eq⟩

/-- **Units that read the same are equal** if the files that are opened have the same revisions. -/
theorem compileUnit_eq_of_sameReading (revisions : ∀ path stack, reach (path :: stack) →
    after.sources.revision path = before.sources.revision path) :
    compileUnit after root = compileUnit before root := by
  have notes : NotesAlike before after reach Eq := by
    rintro path stack noted _ reached rfl
    rw [revisions path stack reached]
  obtain ⟨_, rfl, eq⟩ :=
    exists_revisions_of_sameReading same definitions around readable keeps notes rfl
  exact eq

end Unit

/-! ## Files that are not read -/

/-- **A unit depends only on what it reads.** Two sources lead each name to the same file, and they
differ, in text or revision, only at files that the first one can supply and that the unit does not
read. Then the unit is the same with both. -/
theorem compileUnit_eq_of_unread {macros : MacroTable} {severity : Severity} {root : Path}
    {before after : Sources}
    (resolve : ∀ name directory, after.resolve name directory = before.resolve name directory)
    (differ : ∀ path,
      after.text path ≠ before.text path ∨ after.revision path ≠ before.revision path →
      before.text path ≠ none ∧
        (compileUnit ⟨before, macros, severity⟩ root).filesRead.contains path = false) :
    compileUnit ⟨after, macros, severity⟩ root = compileUnit ⟨before, macros, severity⟩ root := by
  have kept : ∀ path, before.text path = none ∨
      (compileUnit ⟨before, macros, severity⟩ root).filesRead.contains path = true →
      after.text path = before.text path ∧ after.revision path = before.revision path := by
    intro path h
    refine Classical.byContradiction fun apart => ?_
    obtain ⟨readable, unread⟩ := differ path (Classical.not_and_iff_not_or_not.1 apart)
    rcases h with missing | read
    · exact readable missing
    · exact absurd (unread.symm.trans read) nofun
  cases read : before.text root with
  | none =>
      -- Without a readable root both units are empty.
      have missing := (kept root (.inl read)).1.trans read
      simp only [compileUnit, read, missing]
  | some text =>
      have readable : before.text root ≠ none := read ▸ Option.some_ne_none text
      -- The files on a stack that comes up have been read.
      have same : SameReading ⟨before, macros, severity⟩ ⟨after, macros, severity⟩
          (compileUnit ⟨before, macros, severity⟩ root).filesRead fun stack => ∀ path ∈ stack,
            (compileUnit ⟨before, macros, severity⟩ root).filesRead.contains path = true :=
        { severity := rfl
          text := fun path _ reached => (kept path (.inr (reached path (.head _)))).1
          resolve := fun path _ _ name _ _ _ _ => resolve name path.directory
          unreadable := fun _ _ _ _ target _ _ _ _ missing =>
            (kept target (.inl missing)).1.trans missing
          step := fun _ _ _ _ _ reached _ _ _ _ _ keptTarget =>
            List.forall_mem_cons.2 ⟨keptTarget, reached⟩ }
      refine compileUnit_eq_of_sameReading same rfl ?_ readable (fun _ member => member) ?_
      · exact List.forall_mem_singleton.2 (contains_filesRead_root _ readable)
      · exact fun path _ reached => (kept path (.inr (reached path (.head _)))).2

/-- A root includes a header that defines a macro, and another one below an inner condition. That
one has the given text, and is an open buffer with a revision. -/
def guardedSources (wide : String) (revision : Nat) : Sources :=
  { text := fun path =>
      if path == .ofString "/p/top.sv" then
        some ("`include \"depth.svh\"\n`ifdef DEPTH\n`ifdef WIDE\n`include \"wide.svh\"\n" ++
          "`endif\nmodule top;\n`MARK\n`endif\n")
      else if path == .ofString "/p/depth.svh" then some "`define DEPTH 4\n"
      else if path == .ofString "/p/wide.svh" then some wide
      else none
    resolve := fun name directory => some (directory.join (.ofString name))
    revision := fun path => if path == .ofString "/p/wide.svh" then some revision else none }

/-- The text and the revision that are given belong to one file. -/
theorem guardedSources_of_ne {path : Path} (other : ¬(path == .ofString "/p/wide.svh") = true)
    (wide wide' : String) (revision revision' : Nat) :
    (guardedSources wide revision).text path = (guardedSources wide' revision').text path ∧
      (guardedSources wide revision).revision path =
        (guardedSources wide' revision').revision path := by
  simp only [guardedSources, if_neg other, and_self]

theorem text_guardedSources_ne_none {path : Path} (there : (path == .ofString "/p/wide.svh") = true)
    (wide : String) (revision : Nat) : (guardedSources wide revision).text path ≠ none := by
  simp only [guardedSources, if_pos there]
  split
  · exact Option.some_ne_none _
  · split <;> exact Option.some_ne_none _

/-- The header below the condition that does not hold may change; the other one was read. -/
theorem compileUnit_eq_of_unread_guarded :
    let root : Path := .ofString "/p/top.sv"
    let before := guardedSources "module wide;\nendmodule\n" 1
    let after := guardedSources "`undef DEPTH\n" 2
    (∀ path, after.text path ≠ before.text path ∨ after.revision path ≠ before.revision path →
      before.text path ≠ none ∧
        (compileUnit ⟨before, .empty, .warning⟩ root).filesRead.contains path = false) ∧
    (compileUnit ⟨before, .empty, .warning⟩ root).filesRead.contains (.ofString "/p/depth.svh") =
      true ∧
    compileUnit ⟨after, .empty, .warning⟩ root = compileUnit ⟨before, .empty, .warning⟩ root := by
  intro root before after
  have differ : ∀ path,
      after.text path ≠ before.text path ∨ after.revision path ≠ before.revision path →
      before.text path ≠ none ∧
        (compileUnit ⟨before, .empty, .warning⟩ root).filesRead.contains path = false := by
    intro path apart
    by_cases there : (path == .ofString "/p/wide.svh") = true
    · have unread : (compileUnit ⟨before, .empty, .warning⟩ root).filesRead.contains
          (.ofString "/p/wide.svh") = false := by decide +kernel
      exact ⟨text_guardedSources_ne_none there _ _, (PathSet.contains_congr _ there).trans unread⟩
    · -- Elsewhere both have the same files, and no revisions.
      obtain ⟨texts, revisions⟩ := guardedSources_of_ne there "`undef DEPTH\n"
        "module wide;\nendmodule\n" 2 1
      exact absurd apart (not_or_intro (not_not_intro texts) (not_not_intro revisions))
  exact ⟨differ, by decide +kernel, compileUnit_eq_of_unread (fun _ _ => rfl) differ⟩

end SvServer
