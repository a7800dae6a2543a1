import SvServer.Finding

/-!
Conditional compilation as a stack of open chains, innermost first. Each step says what happens to
the stack at a directive and what there is to report; which branch is active never changes how the
directives pair up.
-/

namespace SvServer.Unit

/-- An open chain `ifdef … elsif … else`. -/
structure Chain where
  /-- Whether the text around the chain is active -/
  parentActive : Bool
  /-- Whether the current branch is active -/
  active : Bool
  /-- Whether a branch up to here had a true condition -/
  taken : Bool
  seenElse : Bool
  /-- Place of the directive that opened the chain -/
  range : Range
deriving DecidableEq, Repr

namespace Chain

/-- Text is active unless it stands in an inactive branch. -/
def isActive : List Chain → Bool
  | [] => true
  | chain :: _ => chain.active

/-- Opens a chain whose first condition is known. -/
def openChain (chains : List Chain) (condition : Bool) (range : Range) : List Chain :=
  let active := isActive chains
  ⟨active, active && condition, condition, false, range⟩ :: chains

/-- The branch of an `elsif`. -/
def elsifBranch (chains : List Chain) (condition : Bool) : List Chain × Option Finding :=
  match chains with
  | [] => ([], some .elsifAlone)
  | chain :: outer =>
    if chain.seenElse then ({ chain with active := false } :: outer, some .elsifAfterElse)
    else
      ({ chain with
          active := chain.parentActive && !chain.taken && condition
          taken := chain.taken || condition } :: outer, none)

/-- The branch of an `else`. -/
def elseBranch (chains : List Chain) : List Chain × Option Finding :=
  match chains with
  | [] => ([], some .elseAlone)
  | chain :: outer =>
    if chain.seenElse then ({ chain with active := false } :: outer, some .repeatedElse)
    else
      ({ chain with
          active := chain.parentActive && !chain.taken
          taken := true
          seenElse := true } :: outer, none)

/-- Closes the innermost chain. -/
def closeChain (chains : List Chain) : List Chain × Option Finding :=
  match chains with
  | [] => ([], some .endifAlone)
  | _ :: outer => (outer, none)

variable {chains : List Chain} {finding : Finding}

/-- Whatever a branch reports is about conditionals. -/
theorem name_elsifBranch {condition : Bool}
    (found : (elsifBranch chains condition).2 = some finding) :
    finding.name = .unbalancedConditional := by
  cases chains with
  | nil =>
      rw [← Option.some.inj found]
      rfl
  | cons chain outer =>
      dsimp only [elsifBranch] at found
      split at found
      · rw [← Option.some.inj found]
        rfl
      · cases found

theorem name_elseBranch (found : (elseBranch chains).2 = some finding) :
    finding.name = .unbalancedConditional := by
  cases chains with
  | nil =>
      rw [← Option.some.inj found]
      rfl
  | cons chain outer =>
      dsimp only [elseBranch] at found
      split at found
      · rw [← Option.some.inj found]
        rfl
      · cases found

theorem name_closeChain (found : (closeChain chains).2 = some finding) :
    finding.name = .unbalancedConditional := by
  cases chains with
  | nil =>
      rw [← Option.some.inj found]
      rfl
  | cons chain outer => cases found

/-- A branch changes what is active, and not where a chain was opened. -/
theorem ranges_elsifBranch (chains : List Chain) (condition : Bool) :
    (elsifBranch chains condition).1.map range = chains.map range := by
  cases chains with
  | nil => rfl
  | cons chain outer =>
      rw [elsifBranch]
      split <;> rfl

theorem ranges_elseBranch (chains : List Chain) :
    (elseBranch chains).1.map range = chains.map range := by
  cases chains with
  | nil => rfl
  | cons chain outer =>
      rw [elseBranch]
      split <;> rfl

theorem ranges_closeChain (chains : List Chain) :
    (closeChain chains).1.map range = (chains.map range).tail := by
  cases chains <;> rfl

end Chain

end SvServer.Unit
