import SvServer.Proofs.Repeats

/-!
# Diagnostics up to the spelling of their paths

Two diagnostics count as the same when they agree in all but the spelling of their path. Sorting and
dropping repetitions look at no more than that, so lists that are the same stay the same.
-/

namespace SvServer

/-- What the text of a unit is enough for is none of the checks over the whole project. -/
theorem DiagnosticName.ne_of_isLocal {name : DiagnosticName} (isLocal : name.isCrossFile = false) :
    name ≠ .redefinition ∧ name ≠ .unknownModule := by
  constructor
  · rintro rfl
    cases isLocal
  · rintro rfl
    cases isLocal

namespace Diagnostic

/-- What a diagnostic says, with the path reduced to its components. -/
structure Content where
  path : List Component
  range : Range
  severity : Severity
  name : DiagnosticName
  message : String
deriving DecidableEq

def content (d : Diagnostic) : Content :=
  ⟨d.path.components, d.range, d.severity, d.name, d.message⟩

/-- Position, then name, then message, as for diagnostics. -/
def Content.order : Content → Content → Ordering :=
  compareLex (compareOn fun c => c.range.start.line)
    (compareLex (compareOn fun c => c.range.start.character)
      (compareLex (compareOn fun c => c.name.rank) (compareOn fun c => c.message)))

/-- **Diagnostics are the same when they say the same.** -/
theorem beq_eq_content (a b : Diagnostic) : (a == b) = (a.content == b.content) := by
  refine Bool.eq_iff_iff.2 (Iff.trans ?_ beq_iff_eq.symm)
  obtain ⟨path, range, severity, name, message⟩ := a
  obtain ⟨path', range', severity', name', message'⟩ := b
  show (path == path' && (range == range' && (severity == severity' && (name == name' &&
    message == message')))) = true ↔ _
  simp [content, Path.beq_iff]

theorem beq_iff_content {a b : Diagnostic} : (a == b) = true ↔ a.content = b.content := by
  rw [beq_eq_content, beq_iff_eq]

theorem beq_iff_parts {a b : Diagnostic} : (a == b) = true ↔ (a.path == b.path) = true ∧
    a.range = b.range ∧ a.severity = b.severity ∧ a.name = b.name ∧ a.message = b.message := by
  rw [beq_iff_content, content, content, Content.mk.injEq, Path.beq_iff]

instance : EquivBEq Diagnostic where
  rfl := beq_iff_content.2 rfl
  symm h := beq_iff_content.2 (beq_iff_content.1 h).symm
  trans h h' := beq_iff_content.2 ((beq_iff_content.1 h).trans (beq_iff_content.1 h'))

theorem order_content (a b : Diagnostic) : order a b = Content.order a.content b.content := rfl

theorem list_beq_iff {a b : List Diagnostic} :
    (a == b) = true ↔ a.map content = b.map content := by
  induction a generalizing b with
  | nil => cases b <;> simp
  | cons first rest ih =>
      cases b with
      | nil => simp
      | cons other more => simp [List.cons_beq_cons, beq_eq_content, ih]

/-- Sorted and without repetitions, lists that say the same still do. -/
theorem dropRepeats_sort_congr {a b : List Diagnostic} (h : a.map content = b.map content) :
    (dropRepeats (· == ·) (sort a) == dropRepeats (· == ·) (sort b)) = true := by
  have sorted : ∀ list : List Diagnostic,
      (dropRepeats (· == ·) (sort list)).map content =
        dropRepeats (· == ·)
          ((list.map content).mergeSort fun x y => (Content.order x y).isLE) := by
    intro list
    have merged : (sort list).map content =
        (list.map content).mergeSort fun x y => (Content.order x y).isLE :=
      List.map_mergeSort fun x _ y _ => congrArg Ordering.isLE (order_content x y)
    rw [map_dropRepeats content beq_eq_content, merged]
  rw [list_beq_iff, sorted, sorted, h]

end Diagnostic

end SvServer
