import Mathlib.Data.List.Induction
import SvServer.License.Gate
import SvServer.Proofs.Row

/-!
# The history of a license gate

Keys come from the editor and from a store, the store may be exchanged, and the world around may
change in between. Whatever comes in which order, the gate stands where the last verdict put it,
and it holds a key that was found good whenever it is open. A key is shared with the editor once: by
the operation that opens the gate for the first time.
-/

namespace SvServer.License

/-- What a gate is asked to do, and what may happen around it. -/
inductive Operation (World : Type) where
  | takeKey (given : String)
  | loadStored
  | setStore (store : Store World)
  /-- Something else changes the world. -/
  | alter (world : World)

/-- A gate with its store, and the world that the store is a part of. -/
structure Guard (World : Type) where
  gate : Gate
  store : Store World
  world : World

/-- Whether an event says how a key was judged. -/
def Event.isVerdict (event : Event) : Bool := event == .valid || event == .invalid

/-- Whether an event gives the editor a key to keep. -/
def Event.sharesKey : Event → Bool
  | .cacheKey _ => true
  | _ => false

/-- Whether an event is a warning. -/
def Event.isWarning : Event → Bool
  | .warning _ => true
  | _ => false

/-- The last verdict among some events. -/
def lastVerdict? (events : List Event) : Option Event := (events.filter Event.isVerdict).getLast?

namespace Guard

variable {World : Type} (validator : String → Bool)

/-- Carries out one operation. Also gives the events that it emits. -/
def perform (guard : Guard World) : Operation World → Guard World × List Event
  | .takeKey given =>
    let (gate, events, world) := guard.gate.takeKey validator guard.store guard.world given
    ({ guard with gate := gate, world := world }, events)
  | .loadStored =>
    let (gate, events) := guard.gate.loadStored validator guard.store guard.world
    ({ guard with gate := gate }, events)
  | .setStore store => ({ guard with store := store }, [])
  | .alter world => ({ guard with world := world }, [])

/-- The state after a row of operations. -/
def after (guard : Guard World) (operations : List (Operation World)) : Guard World :=
  Row.after (perform validator) guard operations

/-- The events of a row of operations, in order. -/
def told (guard : Guard World) (operations : List (Operation World)) : List Event :=
  Row.told (perform validator) guard operations

/-- The key that an operation puts before the validator, if there is one. -/
def key? (guard : Guard World) : Operation World → Option String
  | .takeKey given => some (Text.trim given)
  | .loadStored => guard.store.read guard.world
  | _ => none

variable {validator}

theorem after_concat (guard : Guard World) (operations : List (Operation World))
    (operation : Operation World) :
    guard.after validator (operations ++ [operation]) =
      ((guard.after validator operations).perform validator operation).1 :=
  Row.after_concat guard operations operation

theorem told_concat (guard : Guard World) (operations : List (Operation World))
    (operation : Operation World) :
    guard.told validator (operations ++ [operation]) = guard.told validator operations ++
      ((guard.after validator operations).perform validator operation).2 :=
  Row.told_concat guard operations operation

/-! ## One operation -/

/-- What one operation comes to. -/
inductive Outcome (validator : String → Bool) (guard : Guard World)
    (operation : Operation World) : Gate → List Event → Prop where
  /-- No key was judged. -/
  | quiet {events : List Event} (silent : events = [] ∨ events = [.missing]) :
      Outcome validator guard operation guard.gate events
  | refused {key : String} (came : guard.key? operation = some key)
      (bad : validator key = false) (held : Option String) :
      Outcome validator guard operation { guard.gate with status := .invalid, key := held }
        [.invalid]
  | accepted {key : String} (came : guard.key? operation = some key)
      (good : validator key = true) {warnings : List Event}
      (only : ∀ event ∈ warnings, event.isWarning = true) :
      Outcome validator guard operation (guard.gate.accept key).1
        (warnings ++ (guard.gate.accept key).2)

/-- **Every operation leaves the gate alone, refuses a key or accepts one.** -/
theorem outcome_perform (guard : Guard World) (operation : Operation World) :
    Outcome validator guard operation (guard.perform validator operation).1.gate
      (guard.perform validator operation).2 := by
  cases operation with
  | takeKey given =>
      rw [perform, Gate.takeKey]
      dsimp only
      split
      · rename_i good
        have shown : ∀ warnings : List Event, (∀ event ∈ warnings, event.isWarning = true) →
            Outcome validator guard (.takeKey given) (guard.gate.accept (Text.trim given)).1
              (warnings ++ (guard.gate.accept (Text.trim given)).2) :=
          fun _ only => .accepted rfl good only
        split
        · exact shown [] nofun
        · rename_i message _
          exact shown [.warning message] (by simp [Event.isWarning])
      · rename_i bad
        exact .refused rfl ((Bool.not_eq_true _).mp bad) none
  | loadStored =>
      show Outcome validator guard .loadStored
        (guard.gate.loadStored validator guard.store guard.world).1
        (guard.gate.loadStored validator guard.store guard.world).2
      rw [Gate.loadStored]
      split
      · exact .quiet (.inl rfl)
      · split
        · exact .quiet (.inr rfl)
        · rename_i key stored
          have came : guard.key? .loadStored = some key := stored
          split
          · rename_i good
            have shown : Outcome validator guard .loadStored (guard.gate.accept key).1
                ([] ++ (guard.gate.accept key).2) := .accepted came good nofun
            exact shown
          · rename_i bad
            exact .refused came ((Bool.not_eq_true _).mp bad) (some key)
  | setStore store => exact .quiet (.inl rfl)
  | alter world => exact .quiet (.inl rfl)

/-! ## What holds after every row of operations -/

/-- What the events of a row of operations say about the gate after it. -/
structure Told (validator : String → Bool) (gate : Gate) (events : List Event) : Prop where
  valid_iff : gate.isValid = true ↔ lastVerdict? events = some .valid
  /-- An open gate holds a key that was found good. -/
  key : gate.isValid = true → ∃ key, gate.key = some key ∧ validator key = true
  /-- The gate knows whether it was open at some time. -/
  shared_iff : gate.shared = true ↔ Event.valid ∈ events
  /-- If it was, then one key was shared. -/
  count : events.countP Event.sharesKey = if gate.shared then 1 else 0

theorem lastVerdict?_append_of_silent {events more : List Event}
    (silent : ∀ event ∈ more, event.isVerdict = false) :
    lastVerdict? (events ++ more) = lastVerdict? events := by
  have none : more.filter Event.isVerdict = [] := by
    rw [List.filter_eq_nil_iff]
    intro event member
    rw [silent event member]
    exact Bool.false_ne_true
  rw [lastVerdict?, List.filter_append, none, List.append_nil]
  rfl

theorem lastVerdict?_append_verdict (events : List Event) {verdict : Event}
    (isVerdict : verdict.isVerdict = true) :
    lastVerdict? (events ++ [verdict]) = some verdict := by
  rw [lastVerdict?, List.filter_append, List.filter_cons_of_pos isVerdict]
  exact List.getLast?_concat

/-- What a gate emits when it accepts a key: the verdict, and then perhaps the key. -/
theorem accept_snd (gate : Gate) (key : String) :
    (gate.accept key).2 = .valid :: if gate.shared then [] else [.cacheKey key] := by
  rw [Gate.accept]
  cases gate.shared <;> rfl

/-- Warnings share no key. -/
theorem sharesKey_of_isWarning {event : Event} (warns : event.isWarning = true) :
    event.sharesKey = false := by
  cases event <;> first | rfl | exact absurd warns Bool.false_ne_true

theorem countP_accept_snd (gate : Gate) (key : String) {warnings : List Event}
    (only : ∀ event ∈ warnings, event.isWarning = true) :
    (warnings ++ (gate.accept key).2).countP Event.sharesKey = if gate.shared then 0 else 1 := by
  have none : warnings.countP Event.sharesKey = 0 := by
    rw [List.countP_eq_zero]
    intro event member
    rw [sharesKey_of_isWarning (only event member)]
    exact Bool.false_ne_true
  rw [List.countP_append, none, accept_snd]
  cases gate.shared <;> rfl

theorem told_initial : Told validator .initial [] where
  valid_iff := ⟨nofun, nofun⟩
  key := nofun
  shared_iff := ⟨nofun, nofun⟩
  count := rfl

/-- **One operation keeps to what was told.** -/
theorem Outcome.told {guard : Guard World} {operation : Operation World} {gate : Gate}
    {events now : List Event} (outcome : Outcome validator guard operation gate now)
    (h : Told validator guard.gate events) : Told validator gate (events ++ now) := by
  cases outcome with
  | quiet silent =>
      have noVerdict : ∀ event ∈ now, event.isVerdict = false := by
        rcases silent with rfl | rfl <;> decide
      have noValid : Event.valid ∉ now := fun member => absurd (noVerdict _ member) (by decide)
      refine ⟨by rw [lastVerdict?_append_of_silent noVerdict, h.valid_iff], h.key, ?_, ?_⟩
      · rw [h.shared_iff, List.mem_append]
        exact ⟨.inl, fun h => h.resolve_right noValid⟩
      · rw [List.countP_append, h.count]
        rcases silent with rfl | rfl <;> rfl
  | refused came bad held =>
      refine ⟨?_, nofun, ?_, ?_⟩
      · rw [lastVerdict?_append_verdict events rfl]
        exact ⟨nofun, nofun⟩
      · rw [List.mem_append, ← h.shared_iff]
        exact ⟨.inl, fun h => h.resolve_right (by decide)⟩
      · rw [List.countP_append, h.count]
        rfl
  | accepted came good only =>
      rename_i key warnings
      refine ⟨?_, fun _ => ⟨key, rfl, good⟩, ?_, ?_⟩
      · -- Neither the warnings before the verdict nor the key after it are verdicts.
        have quiet : ∀ event ∈ (if guard.gate.shared then [] else [Event.cacheKey key]),
            event.isVerdict = false := by
          cases guard.gate.shared <;> simp [Event.isVerdict]
        rw [accept_snd, ← List.singleton_append, ← List.append_assoc, ← List.append_assoc,
          lastVerdict?_append_of_silent quiet, lastVerdict?_append_verdict _ rfl]
        exact ⟨fun _ => rfl, fun _ => rfl⟩
      · rw [accept_snd]
        exact ⟨fun _ => by simp, fun _ => rfl⟩
      · rw [List.countP_append, h.count, countP_accept_snd _ _ only]
        cases guard.gate.shared <;> rfl

/-- **What was told holds after every row of operations**, by induction on the row. -/
theorem told_after {guard : Guard World} (fresh : guard.gate = .initial)
    (operations : List (Operation World)) :
    Told validator (guard.after validator operations).gate
      (guard.told validator operations) := by
  induction operations using List.reverseRecOn with
  | nil =>
      show Told validator guard.gate []
      rw [fresh]
      exact told_initial
  | append_singleton operations operation ih =>
      rw [after_concat, told_concat]
      exact (outcome_perform _ operation).told ih

/-! ## The key that is shared -/

/-- The events `now` share a key: for the first time a verdict opens the gate, the key comes right
after it, and it is the one that was judged. -/
structure Shares (validator : String → Bool) (judged : Option String) (earlier now : List Event)
    (key : String) : Prop where
  first : Event.valid ∉ earlier
  now : ∃ warnings : List Event, (∀ event ∈ warnings, event.isWarning = true) ∧
    now = warnings ++ [.valid, .cacheKey key]
  judged : judged = some key
  good : validator key = true

/-- **An operation shares a key exactly if it opens the gate for the first time.** -/
theorem Outcome.shares {guard : Guard World} {operation : Operation World} {gate : Gate}
    {earlier now : List Event} (outcome : Outcome validator guard operation gate now)
    (h : Told validator guard.gate earlier) :
    (∀ key, .cacheKey key ∈ now →
      Shares validator (guard.key? operation) earlier now key) ∧
    (.valid ∈ now → Event.valid ∉ earlier → ∃ key, .cacheKey key ∈ now) := by
  cases outcome with
  | quiet silent => rcases silent with rfl | rfl <;> exact ⟨nofun, nofun⟩
  | refused came bad held => exact ⟨nofun, nofun⟩
  | accepted came good only =>
      rename_i key warnings
      rw [accept_snd]
      have given : ∀ other, .cacheKey other ∈
          warnings ++ .valid :: (if guard.gate.shared then [] else [Event.cacheKey key]) →
          guard.gate.shared = false ∧ other = key := by
        intro other member
        rcases List.mem_append.1 member with warning | now
        · exact absurd (only _ warning) Bool.false_ne_true
        · cases was : guard.gate.shared <;> simp_all
      constructor
      · intro other member
        obtain ⟨was, rfl⟩ := given other member
        refine ⟨?_, ⟨warnings, only, by rw [was]; rfl⟩, came, good⟩
        rw [← h.shared_iff, was]
        exact Bool.false_ne_true
      · intro _ first
        have was : guard.gate.shared = false := by
          rwa [← h.shared_iff, Bool.not_eq_true] at first
        exact ⟨key, by rw [was]; simp⟩

end Guard

/-- What the history of a gate comes to. -/
structure History {World : Type} (validator : String → Bool) (start : Guard World)
    (operations : List (Operation World)) : Prop where
  /-- The gate is open exactly if the last verdict opened it. -/
  valid_iff : (start.after validator operations).gate.isValid = true ↔
    lastVerdict? (start.told validator operations) = some .valid
  /-- An open gate holds a key that the validator accepts. -/
  key : (start.after validator operations).gate.isValid = true →
    ∃ key, (start.after validator operations).gate.key = some key ∧ validator key = true
  /-- A key is shared at most once. -/
  once : (start.told validator operations).countP Event.sharesKey ≤ 1
  /-- The operation that shares a key is the first to open the gate, the key comes right after the
  verdict, and it is the key that was judged. -/
  shares : ∀ earlier operation later, operations = earlier ++ operation :: later →
    ∀ key, .cacheKey key ∈ ((start.after validator earlier).perform validator operation).2 →
      Guard.Shares validator ((start.after validator earlier).key? operation)
        (start.told validator earlier)
        ((start.after validator earlier).perform validator operation).2 key
  /-- The first operation to open the gate shares a key. -/
  opens : ∀ earlier operation later, operations = earlier ++ operation :: later →
    .valid ∈ ((start.after validator earlier).perform validator operation).2 →
    Event.valid ∉ start.told validator earlier →
      ∃ key, .cacheKey key ∈ ((start.after validator earlier).perform validator operation).2

/-- **Every history of a gate**: whatever keys come, whatever the store holds or is exchanged for,
and whatever else happens to the world. -/
theorem history_of_operations {World : Type} (validator : String → Bool) (store : Store World)
    (world : World) (operations : List (Operation World)) :
    History validator ⟨.initial, store, world⟩ operations := by
  have told : ∀ row, Guard.Told validator
      (Guard.after validator ⟨.initial, store, world⟩ row).gate
      (Guard.told validator ⟨.initial, store, world⟩ row) := Guard.told_after rfl
  constructor
  · exact (told operations).valid_iff
  · exact (told operations).key
  · rw [(told operations).count]
    split <;> decide
  · intro earlier operation later _
    exact ((Guard.outcome_perform _ operation).shares (told earlier)).1
  · intro earlier operation later _
    exact ((Guard.outcome_perform _ operation).shares (told earlier)).2

end SvServer.License
