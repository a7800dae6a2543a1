import Mathlib.Data.List.Nodup
import SvServer.Proofs.Engine.Units

/-!
# A unit may be kept when nothing that it could read has moved

A root that is not in the batch of a pass keeps its unit. This is sound: compiling it again would
give the same, up to the revisions of buffers. The files that its last compile read are not dirty,
so they have their texts. An include name in one of them leads where it led. If what it led to had
left, the unit would have read a file that left. If it led to a new file, that file would be
included, through files that did not change, from the root, and the walk from the new file would
have found the root.
-/

namespace SvServer.Engine

open Include (Graph)

/-- A chain of includes leads from its first file to its last. -/
theorem reflTransGen_of_isChain {related : Path → Path → Prop} {stack : List Path}
    {innermost outermost : Path} (chain : (innermost :: stack).IsChain fun a b => related b a)
    (last : (innermost :: stack).getLast? = some outermost) :
    Relation.ReflTransGen related outermost innermost := by
  induction stack generalizing innermost with
  | nil =>
      obtain rfl : innermost = outermost := Option.some.inj last
      exact .refl
  | cons next rest ih =>
      rw [List.isChain_cons_cons] at chain
      rw [List.getLast?_cons_cons] at last
      exact (ih chain.2 last).tail chain.1

section

variable {excluded : List Path} {severity : Severity} {before after : PassSetup} {engine : Engine}

/-- The graph of a project has no long chains. -/
theorem shallow_graph (maps : engine.Maps after) (now : after.OverProject excluded severity) :
    engine.graph.Shallow Unit.openFileLimit := by
  intro chain plain distinct linked
  apply now.shallow chain distinct
  have step : ∀ list : List Path, (∀ path ∈ list, path.IsPlain) →
      list.IsChain engine.graph.Includes → list.IsChain after.Includes := by
    intro list
    induction list with
    | nil => exact fun _ _ => .nil
    | cons first rest ih =>
        intro plain linked
        cases rest with
        | nil => exact .singleton first
        | cons second more =>
            rw [List.isChain_cons_cons] at linked ⊢
            have plainSecond := plain second (List.mem_cons_of_mem _ List.mem_cons_self)
            exact ⟨(maps.graph first second plainSecond).1 linked.1,
              ih (fun path member => plain path (List.mem_cons_of_mem _ member)) linked.2⟩
  exact step chain plain linked

/-- A file that includes another one through others is found by the walk from the other. -/
theorem contains_includers (maps : engine.Maps after) (now : after.OverProject excluded severity)
    {source target : Path} (path : Relation.ReflTransGen after.Includes source target)
    (plain : target.IsPlain) (apart : (target == source) = false) :
    (engine.graph.includersWithin target Unit.openFileLimit).contains source = true := by
  apply Graph.contains_includersWithin (shallow_graph maps now) maps.sources plain _ apart
  clear plain apart
  induction path with
  | refl => exact .refl
  | tail _ step ih => exact ih.tail ((maps.graph _ _ (now.plain_of_mem step.2.1)).2 step)

/-! ## The open files of a unit that is not affected -/

/-- The stacks of open files that come up while a root is compiled: chains of distinct files that
the compile reads, each included by the next, before and after a pass. -/
structure Opens (before after : PassSetup) (kept : PathSet) (root : Path) (stack : List Path) :
    Prop where
  chain : stack.IsChain fun a b => before.Includes b a
  chain' : stack.IsChain fun a b => after.Includes b a
  distinct : stack.Nodup
  last : stack.getLast? = some root
  kept : ∀ path ∈ stack, kept.contains path = true
  listed : ∀ path ∈ stack, path ∈ before.eligible.toList ∧ path ∈ after.eligible.toList

/-- A file that is opened on top of the open files, because a name in the innermost one leads to it,
comes up as well. -/
theorem Opens.cons {kept : PathSet} {root path target : Path} {stack : List Path}
    (opens : Opens before after kept root (path :: stack))
    (included : before.Includes path target) (included' : after.Includes path target)
    (fresh : (path :: stack).contains target = false) (read : kept.contains target = true) :
    Opens before after kept root (target :: path :: stack) where
  chain := List.isChain_cons_cons.2 ⟨included, opens.chain⟩
  chain' := List.isChain_cons_cons.2 ⟨included', opens.chain'⟩
  distinct := by
    refine List.nodup_cons.2 ⟨?_, opens.distinct⟩
    intro member
    rw [List.contains_iff_exists_mem_beq.2 ⟨target, member, BEq.rfl⟩] at fresh
    exact absurd fresh (by decide)
  last := by
    rw [List.getLast?_cons_cons]
    exact opens.last
  kept file member := by
    rcases List.mem_cons.1 member with rfl | member
    · exact read
    · exact opens.kept file member
  listed file member := by
    rcases List.mem_cons.1 member with rfl | member
    · exact ⟨included.2.1, included'.2.1⟩
    · exact opens.listed file member

/-- What a pass must know when it keeps the unit of a root: everything that changed, came or went
is dirty, and nothing that is dirty bears on the root. -/
structure Spares (engine : Engine) (dirty : PathSet) (before after : PassSetup) (root : Path) :
    Prop where
  maps : engine.Maps after
  inverse : engine.index.Inverse
  reads : engine.index.filesOf root = (compileUnit (settings before) root).filesRead
  was : root ∈ before.eligible.toList
  isRoot : engine.roots.contains root = true
  changed : ∀ path, after.dirty.contains path = true → dirty.contains path = true
  came : ∀ path, after.eligible.contains path = true → before.eligible.contains path = false →
    dirty.contains path = true
  went : ∀ path, before.eligible.contains path = true → after.eligible.contains path = false →
    dirty.contains path = true
  plainDirty : dirty.Plain
  spared : (engine.rootsToCompile dirty).contains root = false

namespace Spares

variable {dirty : PathSet} {root : Path} (h : engine.Spares dirty before after root)
variable (prior : before.OverProject excluded severity)
variable (next : after.OverProject excluded severity) (follows : before.Follows after)

include h

/-- What is dirty does not bear on the root. -/
theorem unaffected {path : Path} (plain : path.IsPlain) (isDirty : dirty.contains path = true) :
    ¬((path == root) = true ∨ (engine.index.readersOf path).contains root = true ∨
      (engine.graph.includersWithin path Unit.openFileLimit).contains root = true) := by
  intro bears
  have spared := h.spared
  rw [contains_rootsToCompile.2 ⟨path, h.plainDirty.mem_toList plain isDirty,
    contains_rootsAffectedBy.2 ⟨h.isRoot, bears.imp_right (Or.imp_right .inr)⟩⟩] at spared
  exact absurd spared (by decide)

/-- The files that the unit read are clean. -/
theorem clean_of_read {path : Path} (plain : path.IsPlain)
    (read : (compileUnit (settings before) root).filesRead.contains path = true) :
    dirty.contains path = false := by
  by_contra isDirty
  rw [Bool.not_eq_false] at isDirty
  rw [← h.reads, ← h.inverse path root] at read
  exact h.unaffected plain isDirty (.inr (.inl read))

include next in
/-- What a name leads to was there: from a new file the walk would have found the root. -/
theorem was_of_opens {path target : Path} {stack : List Path}
    (opens : Opens before after (compileUnit (settings before) root).filesRead root
      (path :: stack))
    (included : after.Includes path target) : before.eligible.contains target = true := by
  have plain := next.plain_of_mem included.2.1
  by_contra new
  rw [Bool.not_eq_true] at new
  have isDirty := h.came target (PathSet.contains_of_mem_toList included.2.1) new
  have apart : (target == root) = false := by
    by_contra same
    rw [Bool.not_eq_false] at same
    rw [PathSet.contains_congr _ same, PathSet.contains_of_mem_toList h.was] at new
    exact absurd new (by decide)
  -- The open files include one another, from the root down to the one with the name.
  have leadsTo := (reflTransGen_of_isChain opens.chain' opens.last).tail included
  exact h.unaffected plain isDirty
    (.inr (.inr (contains_includers h.maps next leadsTo plain apart)))

include prior

theorem plain_root : root.IsPlain := prior.plain_of_mem h.was

theorem isRoot_after : after.IsRoot root :=
  (h.maps.roots root (h.plain_root prior)).1 h.isRoot

/-- The root itself is clean. -/
theorem clean_root : dirty.contains root = false := by
  by_contra isDirty
  rw [Bool.not_eq_false] at isDirty
  exact h.unaffected (h.plain_root prior) isDirty (.inl BEq.rfl)

/-- What a name led to is still there: it is open, or it was read, or else the chain of open files
were too long. -/
theorem stays_of_opens {path target : Path} {stack : List Path}
    (opens : Opens before after (compileUnit (settings before) root).filesRead root
      (path :: stack))
    (included : before.Includes path target)
    (seen : (path :: stack).contains target = true ∨ (path :: stack).length = Unit.openFileLimit ∨
      (compileUnit (settings before) root).filesRead.contains target = true) :
    after.eligible.contains target = true := by
  by_contra gone
  rw [Bool.not_eq_true] at gone
  rcases seen with isOpen | full | read
  · -- An open file is listed after the pass.
    obtain ⟨other, member, same⟩ := List.contains_iff_exists_mem_beq.1 isOpen
    have listed := (opens.listed other member).2
    rw [PathSet.contains_congr _ same, PathSet.contains_of_mem_toList listed] at gone
    exact absurd gone (by decide)
  · -- As many files are open as may be, so one more distinct file would make too long a chain.
    have fresh : target ∉ path :: stack := by
      intro member
      rw [PathSet.contains_of_mem_toList (opens.listed target member).2] at gone
      exact absurd gone (by decide)
    have linked : (target :: path :: stack).IsChain fun a b => before.Includes b a :=
      List.isChain_cons_cons.2 ⟨included, opens.chain⟩
    have bound := prior.shallow (target :: path :: stack).reverse
      (List.nodup_reverse.2 (List.nodup_cons.2 ⟨fresh, opens.distinct⟩))
      (List.isChain_reverse.2 linked)
    rw [List.length_reverse, List.length_cons] at bound
    omega
  · -- A file that went is dirty, and a file that was read is clean.
    have isDirty := h.went target (PathSet.contains_of_mem_toList included.2.1) gone
    rw [h.clean_of_read (prior.plain_of_mem included.2.1) read] at isDirty
    exact absurd isDirty (by decide)

include follows

/-- The macros define the same, or else all files would be dirty. -/
theorem definitions : Unit.Definitions.ofProject after.macros =
    Unit.Definitions.ofProject before.macros := by
  by_contra changed
  have isDirty := h.changed root (follows.macros changed root (h.isRoot_after prior).1)
  rw [h.clean_root prior] at isDirty
  exact absurd isDirty (by decide)

/-- Files that come up have the same text before and after. -/
theorem text_of_opens {path : Path} {stack : List Path}
    (opens : Opens before after (compileUnit (settings before) root).filesRead root
      (path :: stack)) :
    after.sources.text path = before.sources.text path := by
  obtain ⟨was, now⟩ := opens.listed path List.mem_cons_self
  by_contra changed
  have isDirty := h.changed path (follows.texts path was now changed)
  rw [h.clean_of_read (prior.plain_of_mem was) (opens.kept path List.mem_cons_self)] at isDirty
  exact absurd isDirty (by decide)

/-- A name that a file includes, of those that come up, is written in it before and after. -/
theorem named_of_opens {path : Path} {stack : List Path} {text name : String}
    (opens : Opens before after (compileUnit (settings before) root).filesRead root
      (path :: stack))
    (read : before.sources.text path = some text)
    (named : Unit.NamesInclude ⟨path, text.toList⟩ name) :
    name ∈ namesIn before.sources path ∧ name ∈ namesIn after.sources path := by
  obtain ⟨was, -⟩ := opens.listed path List.mem_cons_self
  have written : name ∈ namesIn before.sources path := by
    rw [namesIn, read]
    exact Include.mem_names_of_namesInclude (prior.quoted path was text read) named
  refine ⟨written, ?_⟩
  rw [namesIn, h.text_of_opens prior follows opens]
  exact written

include next

/-- **Include names lead where they led**, in the files that come up. -/
theorem resolve_of_opens {path : Path} {stack : List Path} {text name : String}
    (opens : Opens before after (compileUnit (settings before) root).filesRead root
      (path :: stack))
    (read : before.sources.text path = some text)
    (named : Unit.NamesInclude ⟨path, text.toList⟩ name)
    (led : ∀ target, before.sources.resolve name path.directory = some target →
      (path :: stack).contains target = true ∨ (path :: stack).length = Unit.openFileLimit ∨
        (compileUnit (settings before) root).filesRead.contains target = true ∨
          before.sources.text target = none) :
    after.sources.resolve name path.directory = before.sources.resolve name path.directory := by
  obtain ⟨was, now⟩ := opens.listed path List.mem_cons_self
  obtain ⟨written, written'⟩ := h.named_of_opens prior follows opens read named
  apply prior.resolve_stable next (prior.relative was written)
  · intro target leads
    have included := prior.includes_of_resolve was written leads
    rcases led target leads with isOpen | full | read | unreadable
    · exact h.stays_of_opens prior opens included (.inl isOpen)
    · exact h.stays_of_opens prior opens included (.inr (.inl full))
    · exact h.stays_of_opens prior opens included (.inr (.inr read))
    · exact absurd unreadable (prior.readable target included.2.1)
  · intro target leads
    exact h.was_of_opens next opens (next.includes_of_resolve now written' leads)

/-- **A compile of the root meets the same again.** -/
theorem sameReading : Unit.SameReading (settings before) (settings after)
    (compileUnit (settings before) root).filesRead
    (Opens before after (compileUnit (settings before) root).filesRead root) where
  severity := next.severity.trans prior.severity.symm
  text path stack opens := h.text_of_opens prior follows opens
  resolve path stack text name opens read named led :=
    h.resolve_of_opens prior next follows opens read named led
  unreadable path stack text name target opens read named led unreadable := by
    have was := (opens.listed path List.mem_cons_self).1
    have written := (h.named_of_opens prior follows opens read named).1
    exact absurd unreadable
      (prior.readable target (prior.includes_of_resolve was written led).2.1)
  step path stack text name target opens read named led led' fresh kept := by
    obtain ⟨was, now⟩ := opens.listed path List.mem_cons_self
    obtain ⟨written, written'⟩ := h.named_of_opens prior follows opens read named
    exact opens.cons (prior.includes_of_resolve was written led)
      (next.includes_of_resolve now written' led') fresh kept

/-- **Kept units are sound.** Compiling the unit of a root that a pass spares gives what it gave
before, up to the revisions of buffers. -/
theorem compileUnit_alike : (compileUnit (settings before) root).Alike
    (compileUnit (settings after) root) := by
  have readable := prior.readable root h.was
  have keptRoot : (compileUnit (settings before) root).filesRead.contains root = true :=
    contains_filesRead_root (settings before) readable
  refine SvServer.compileUnit_alike (h.sameReading prior next follows)
    (h.definitions prior follows) ?_ readable fun _ read => read
  constructor
  · exact .singleton root
  · exact .singleton root
  · exact List.nodup_singleton root
  · rfl
  · intro file member
    rw [List.mem_singleton.1 member]
    exact keptRoot
  · intro file member
    rw [List.mem_singleton.1 member]
    exact ⟨h.was, (h.isRoot_after prior).1⟩

end Spares

end

end SvServer.Engine
