import SvServer.Include.Sources
import SvServer.Proofs.Disk

/-!
# What can be read under two spellings of a path

A path may be spelled in several ways, and not under each of them can its file be read: no separator
may stand behind the name of a file. But all spellings under which it can be read lead to the same
text. For an open document this is so because documents are kept by what a path stands for, and on the
disk because the names that a look-up is left with are told by the components of the path.
-/

namespace SvServer

/-- The segments that stand for components are the same for all spellings of a path. -/
theorem Path.filterMap_ofSegment?_congr {a b : Path} (same : (a == b) = true) :
    a.segments.filterMap Component.ofSegment? = b.segments.filterMap Component.ofSegment? := by
  let inner (c : Component) : Bool := c ≠ .root && c ≠ .here
  have marks : ∀ segments : List String, (mark segments).filter inner = [] := by
    intro segments
    unfold mark
    split <;> rfl
  have kept : ∀ segments : List String, (segments.filterMap Component.ofSegment?).filter inner =
      segments.filterMap Component.ofSegment? := by
    intro segments
    rw [List.filter_eq_self]
    intro c member
    obtain ⟨segment, -, read⟩ := List.mem_filterMap.1 member
    rw [Component.ofSegment?] at read
    split at read
    · cases read
    · split at read <;> (cases read; rfl)
  have filtered := congrArg (List.filter inner) (beq_iff.1 same)
  rwa [components_eq_mark, components_eq_mark, List.filter_append, List.filter_append, marks, marks,
    kept, kept] at filtered

namespace Disk

theorem foldl_stackStep (segments stack : List String) : segments.foldl stackStep stack =
    (segments.filterMap Component.ofSegment?).foldl (fun stack c => stackStep stack c.text) stack := by
  induction segments generalizing stack with
  | nil => rfl
  | cons first rest ih =>
      rw [List.foldl_cons, ih]
      cases read : Component.ofSegment? first with
      | none =>
          have blank : first = "" ∨ first = "." := by
            rw [Component.ofSegment?] at read
            split at read
            · assumption
            · split at read <;> cases read
          rw [List.filterMap_cons_none read, stackStep, if_pos blank]
      | some c =>
          have spelled : c.text = first := by
            rw [Component.ofSegment?] at read
            split at read
            · cases read
            · split at read
              · rename_i up
                cases read
                exact up.symm
              · cases read
                rfl
          rw [List.filterMap_cons_some read, List.foldl_cons, spelled]

/-- All spellings of a path lead along the same names. -/
theorem stack_join_congr (base : Path) {a b : Path} (same : (a == b) = true) :
    (base.join a).segments.foldl stackStep [] = (base.join b).segments.foldl stackStep [] := by
  have absolute : a.isAbsolute = b.isAbsolute := by
    rw [Path.isAbsolute, Path.isAbsolute, Path.beq_iff.1 same]
  have rest : ∀ stack, a.segments.foldl stackStep stack = b.segments.foldl stackStep stack := by
    intro stack
    rw [foldl_stackStep, Path.filterMap_ofSegment?_congr same, ← foldl_stackStep]
  rw [Path.join, Path.join, absolute]
  split
  · exact rest []
  · split
    · simp only [List.foldl_append, rest]
    · simp only [List.foldl_append, rest]

/-- What a path leads to is what its names lead to. -/
theorem descend_of_entry? {disk : Disk} {path : Path} {entry : DiskEntry}
    (led : disk.entry? path = some entry) :
    DiskEntry.descend ((disk.current.join path).segments.foldl stackStep []).reverse
      (.folder true disk.top) = some entry := by
  unfold entry? at led
  rw [resolve] at led
  split at led
  · cases led
  · cases walked : disk.walk (disk.current.join path).segments with
    | error error =>
        rw [walked] at led
        cases led
    | ok found =>
        rw [walked] at led
        cases led
        obtain ⟨outer, steps⟩ := walk_iff.1 walked
        exact (Trail.top.foldlM steps).descend

/-- **Spellings of a path that lead anywhere lead to the same.** -/
theorem entry?_eq_of_beq {disk : Disk} {a b : Path} (same : (a == b) = true) {entry other : DiskEntry}
    (led : disk.entry? a = some entry) (led' : disk.entry? b = some other) : entry = other := by
  have here := descend_of_entry? led
  rw [stack_join_congr disk.current same, descend_of_entry? led'] at here
  exact (Option.some.inj here).symm

theorem text?_eq_of_beq {disk : Disk} {a b : Path} (same : (a == b) = true) {text other : String}
    (read : disk.text? a = some text) (read' : disk.text? b = some other) : text = other := by
  have file : ∀ {path text}, disk.text? path = some text →
      ∃ contents, disk.entry? path = some (.file contents) ∧ contents.text = some text := by
    intro path text read
    rw [text?, file?] at read
    obtain ⟨contents, found, stored⟩ := Option.bind_eq_some_iff.1 read
    split at found
    · rename_i led
      cases found
      exact ⟨contents, led, stored⟩
    · cases found
  obtain ⟨contents, led, stored⟩ := file read
  obtain ⟨contents', led', stored'⟩ := file read'
  cases entry?_eq_of_beq same led led'
  exact Option.some.inj (stored.symm.trans stored')

end Disk

/-- All spellings of a path under which it can be read have the same text. -/
def Sources.ReadsAlike (sources : Sources) : Prop :=
  ∀ a b : Path, (a == b) = true → ∀ text other, sources.text a = some text →
    sources.text b = some other → text = other

/-- **The sources of a pass over a project read alike.** -/
theorem Sources.readsAlike_ofProject (eligible : PathSet) (documents : Documents) (disk : Disk)
    (excluded : List Path) : (ofProject eligible documents disk excluded).ReadsAlike := by
  intro a b same text other read read'
  have documented : documents.text? a = documents.text? b := by
    rw [Documents.text?, Documents.get?, Documents.text?, Documents.get?,
      PathMap.getElem?_congr _ same]
  rw [ofProject] at read read'
  dsimp only at read read'
  rw [documented] at read
  cases opened : documents.text? b with
  | some shown =>
      rw [opened, Option.some_or] at read read'
      exact Option.some.inj (read.symm.trans read')
  | none =>
      rw [opened, Option.none_or] at read read'
      exact Disk.text?_eq_of_beq same read read'

end SvServer
