import SvServer.Proofs.License.History

/-!
# What it takes to open a gate again

A key that is refused shuts the gate. From then on nothing new may come: the store is read again
while it holds what it held, and more bad keys are tried. Whether that can open the gate depends on
the store alone. A key that the store gave has been judged, so there is no good one in it. A key
that the editor gave says nothing about the store: a good key that lay there lies there still, and
the next look into the store finds it.
-/

namespace SvServer.License.Guard

variable {World : Type} (validator : String → Bool)

/-- Whether a look into the store would find a good key. -/
def holdsGood (guard : Guard World) : Bool := (guard.store.read guard.world).any validator

/-- An operation that brings nothing new to a guard: a look into the store, a bad key, or a change
of the world that the store does not show. -/
def IsStale (guard : Guard World) : Operation World → Prop
  | .takeKey given => validator (Text.trim given) = false
  | .loadStored => True
  | .setStore _ => False
  | .alter world => guard.store.read world = guard.store.read guard.world

variable {validator}

theorem isValid_takeKey (guard : Guard World) (given : String) :
    (guard.perform validator (.takeKey given)).1.gate.isValid = validator (Text.trim given) := by
  rw [perform, Gate.takeKey]
  dsimp only
  split
  · rename_i good
    rw [good]
    split <;> rfl
  · rename_i bad
    rw [(Bool.not_eq_true _).mp bad]
    rfl

theorem isValid_loadStored (guard : Guard World) :
    (guard.perform validator .loadStored).1.gate.isValid =
      (guard.gate.isValid || guard.holdsGood validator) := by
  rw [holdsGood]
  show (guard.gate.loadStored validator guard.store guard.world).1.isValid = _
  rw [Gate.loadStored]
  split
  · rename_i opened
    rw [opened]
    rfl
  · rename_i closed
    rw [(Bool.not_eq_true _).mp closed, Bool.false_or]
    cases guard.store.read guard.world with
    | none => exact (Bool.not_eq_true _).mp closed
    | some key =>
        rw [Option.any_some]
        cases judged : validator key <;> simp [judged] <;> rfl

/-- A refused key is kept nowhere. -/
theorem world_takeKey_of_bad (guard : Guard World) {given : String}
    (bad : validator (Text.trim given) = false) :
    (guard.perform validator (.takeKey given)).1.world = guard.world := by
  rw [perform, Gate.takeKey]
  simp [bad]

/-! ## While nothing new comes -/

/-- The same store, which shows the same. -/
def Shows (shut guard : Guard World) : Prop :=
  guard.store = shut.store ∧ guard.store.read guard.world = shut.store.read shut.world

theorem Shows.holdsGood_eq {shut guard : Guard World} (h : shut.Shows guard) :
    guard.holdsGood validator = shut.holdsGood validator := by
  rw [holdsGood, holdsGood, h.2]

/-- What brings nothing new leaves what the store shows. -/
theorem Shows.perform {shut guard : Guard World} (h : shut.Shows guard)
    {operation : Operation World} (stale : shut.IsStale validator operation) :
    shut.Shows (guard.perform validator operation).1 := by
  cases operation with
  | takeKey given =>
      refine ⟨h.1, ?_⟩
      rw [world_takeKey_of_bad guard stale]
      exact h.2
  | loadStored => exact h
  | setStore store => exact stale.elim
  | alter world =>
      refine ⟨h.1, ?_⟩
      rw [← stale]
      exact congrArg (·.read world) h.1

theorem shows_after {shut : Guard World} {later : List (Operation World)}
    (stale : ∀ operation ∈ later, shut.IsStale validator operation) :
    shut.Shows (shut.after validator later) := by
  induction later using List.reverseRecOn with
  | nil => exact ⟨rfl, rfl⟩
  | append_singleton later operation ih =>
      rw [after_concat]
      exact (ih fun other member => stale other (List.mem_append_left _ member)).perform
        (stale operation (List.mem_append_right _ List.mem_cons_self))

/-- What brings nothing new opens a gate only by a look at a good key. -/
theorem isValid_perform_of_stale {shut guard : Guard World} (h : shut.Shows guard)
    (closed : guard.gate.isValid = false) {operation : Operation World}
    (stale : shut.IsStale validator operation)
    (opened : (guard.perform validator operation).1.gate.isValid = true) :
    operation = .loadStored ∧ shut.holdsGood validator = true := by
  cases operation with
  | takeKey given =>
      rw [isValid_takeKey, stale] at opened
      cases opened
  | loadStored =>
      rw [isValid_loadStored, closed, Bool.false_or, h.holdsGood_eq] at opened
      exact ⟨rfl, opened⟩
  | setStore store => exact stale.elim
  | alter world => exact absurd (closed.symm.trans opened) Bool.false_ne_true

/-- **A shut gate opens again exactly if a look into the store finds a good key**, as long as
nothing new comes. -/
theorem opens_iff {shut : Guard World} (closed : shut.gate.isValid = false)
    {later : List (Operation World)}
    (stale : ∀ operation ∈ later, shut.IsStale validator operation) :
    (∃ row, row <+: later ∧ (shut.after validator row).gate.isValid = true) ↔
      .loadStored ∈ later ∧ shut.holdsGood validator = true := by
  constructor
  · rintro ⟨row, front, opened⟩
    -- Induction on the row, for the first operation after which the gate is open.
    induction row using List.reverseRecOn with
    | nil => exact absurd (closed.symm.trans opened) Bool.false_ne_true
    | append_singleton row operation ih =>
        have before : row <+: later := (List.prefix_append row [operation]).trans front
        cases was : (shut.after validator row).gate.isValid with
        | true => exact ih before was
        | false =>
            have listed : operation ∈ later :=
              front.subset (List.mem_append_right _ List.mem_cons_self)
            rw [after_concat] at opened
            obtain ⟨rfl, good⟩ := isValid_perform_of_stale
              (shows_after fun other member => stale other (before.subset member)) was
              (stale operation listed) opened
            exact ⟨listed, good⟩
  · rintro ⟨listed, good⟩
    obtain ⟨row, rest, rfl⟩ := List.append_of_mem listed
    have shown := shows_after fun other member =>
      stale other (List.mem_append_left _ member)
    refine ⟨row ++ [.loadStored], ⟨rest, by rw [List.append_assoc]; rfl⟩, ?_⟩
    rw [after_concat, isValid_loadStored, shown.holdsGood_eq, good, Bool.or_true]

/-! ## After a refusal -/

/-- An operation that only tells of a bad key leaves the gate shut. -/
theorem isValid_of_refused {guard : Guard World} {operation : Operation World}
    (refused : (guard.perform validator operation).2 = [.invalid]) :
    (guard.perform validator operation).1.gate.isValid = false := by
  have outcome : Outcome validator guard operation (guard.perform validator operation).1.gate
      (guard.perform validator operation).2 := outcome_perform guard operation
  rw [refused] at outcome
  generalize (guard.perform validator operation).1.gate = gate at outcome
  generalize told : [Event.invalid] = events at outcome
  cases outcome with
  | quiet silent => rcases silent with rfl | rfl <;> cases told
  | refused came bad held => rfl
  | accepted came good only =>
      have opened : Event.valid ∈ [Event.invalid] := by
        rw [told, accept_snd]
        simp
      exact absurd opened (by decide)

/-- What it takes to open a gate that the operation has shut. -/
structure Reopening (validator : String → Bool) (before : Guard World)
    (operation : Operation World) (shut : Guard World) : Prop where
  /-- While nothing new comes, only a good key in the store opens the gate. -/
  stale : ∀ later, (∀ other ∈ later, shut.IsStale validator other) →
    ((∃ row, row <+: later ∧ (shut.after validator row).gate.isValid = true) ↔
      .loadStored ∈ later ∧ shut.holdsGood validator = true)
  /-- A store whose key was refused holds no good key, -/
  stored : operation = .loadStored → shut.holdsGood validator = false
  /-- and a refused key from the editor leaves what the store held. -/
  taken : ∀ given, operation = .takeKey given →
    shut.holdsGood validator = before.holdsGood validator
  /-- A key from the editor opens the gate exactly if it is good. -/
  takes : ∀ later given,
    ((shut.after validator later).perform validator (.takeKey given)).1.gate.isValid =
      validator (Text.trim given)

/-- **How a gate opens again**, whatever came before it was shut. -/
theorem reopening_of_refused (validator : String → Bool) (store : Store World) (world : World)
    (earlier : List (Operation World)) (operation : Operation World)
    (refused : ((after validator ⟨.initial, store, world⟩ earlier).perform validator
      operation).2 = [.invalid]) :
    Reopening validator (after validator ⟨.initial, store, world⟩ earlier) operation
      ((after validator ⟨.initial, store, world⟩ earlier).perform validator operation).1 := by
  generalize after validator ⟨.initial, store, world⟩ earlier = before at refused
  have closed := isValid_of_refused refused
  refine ⟨fun later stale => opens_iff closed stale, ?_, ?_,
    fun _ given => isValid_takeKey _ given⟩
  · rintro rfl
    have looked : (before.gate.isValid || before.holdsGood validator) = false :=
      (isValid_loadStored before).symm.trans closed
    exact (Bool.or_eq_false_iff.1 looked).2
  · rintro given rfl
    have bad : validator (Text.trim given) = false :=
      (isValid_takeKey before given).symm.trans closed
    rw [holdsGood, holdsGood, world_takeKey_of_bad before bad]
    rfl

/-- A place in memory as a store. -/
def memory : Store (Option String) := ⟨id, fun key _ => .ok (some key)⟩

/-- A fresh gate whose store holds a key. -/
def keeping (key : String) : Guard (Option String) := ⟨.initial, memory, some key⟩

/-- The store holds a key that is refused. -/
theorem reopening_of_refused_stored :
    ((after (· == "good") (keeping "bad") []).perform (· == "good") .loadStored).2 =
        [.invalid] ∧
      Reopening (· == "good") (after (· == "good") (keeping "bad") []) .loadStored
        ((after (· == "good") (keeping "bad") []).perform (· == "good") .loadStored).1 :=
  ⟨rfl, reopening_of_refused (· == "good") memory (some "bad") [] .loadStored rfl⟩

/-- **A refused key does not keep the gate shut**: the next look into the store, which holds what it
held, opens it with the key that lay there. -/
theorem reopened_by_stored :
    (after (· == "good") (keeping "good") [.takeKey "bad"]).gate.status = .invalid ∧
    (after (· == "good") (keeping "good") [.takeKey "bad"]).world = some "good" ∧
    (after (· == "good") (keeping "good") [.takeKey "bad", .loadStored]).gate.status = .valid := by
  decide +kernel

end SvServer.License.Guard
