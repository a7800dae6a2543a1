import SvServer.Proofs.Server.Runs

/-!
# The course of a turn

A turn is a row of small steps. Books are kept and notices sent; the license takes a key; passes
run; files are cleared; another project takes the place of the one before. Publications come from
the last three only, what the engine knows changes by passes and with a new project, and the license
by keys alone. A course lists the passes of a turn, each with the turn as it was when the pass took
its input.
-/

namespace SvServer

namespace Turn

/-- The small steps from the start of a turn on, with the passes among them. -/
inductive Course (start : Turn) : List (Turn × PassScope) → Turn → Prop where
  | begin : Course start [] start
  /-- What is asked is taken in, books are kept and notices are sent. -/
  | book {passes : List (Turn × PassScope)} {turn after : Turn} (course : Course start passes turn)
      (engine : after.server.engine = turn.server.engine)
      (publisher : after.server.publisher = turn.server.publisher)
      (gate : after.server.gate = turn.server.gate)
      (sent : ∃ notices : List Notice, after.sent = turn.sent ++ notices.map .notice) :
      Course start passes after
  /-- The license takes the key that is given, or the one that is stored. -/
  | license {passes : List (Turn × PassScope)} {turn : Turn} {gate : License.Gate}
      (course : Course start passes turn)
      (taken : (∃ key, (turn.server.gate.takeKey License.isValidKey
          (License.fileStore turn.server.licenseFile) turn.disk key).1 = gate) ∨
        (turn.server.gate.loadStored License.isValidKey
          (License.fileStore turn.server.licenseFile) turn.disk).1 = gate) :
      Course start passes (turn.withServer { turn.server with gate := gate })
  /-- A pass runs, from its input to its publications. -/
  | pass {passes : List (Turn × PassScope)} {turn : Turn} {scope : PassScope}
      (course : Course start passes turn) (allowed : turn.server.allows scope = true) :
      Course start (passes ++ [(turn, scope)])
        (turn.publishing (turn.server.compile turn.disk scope))
  | clear {passes : List (Turn × PassScope)} {turn : Turn} (course : Course start passes turn)
      (paths : List Path) :
      Course start passes (turn.publishing (turn.server.clear paths))
  /-- Another project takes the place, and all that is shown is cleared. -/
  | restart {passes : List (Turn × PassScope)} {turn : Turn} (course : Course start passes turn) :
      Course start passes (turn.publishing
        ({ turn.server with publisher := .empty, engine := .empty }, turn.server.publisher.clears))

/-- A turn comes to this point, after some passes. -/
def ComesTo (start turn : Turn) : Prop := ∃ passes, Course start passes turn

variable {start turn : Turn}

theorem ComesTo.refl (start : Turn) : start.ComesTo start := ⟨[], .begin⟩

/-! ## Parts of a turn -/

theorem sent_notifyAll (turn : Turn) (notices : List Notice) :
    (turn.notifyAll notices).sent = turn.sent ++ notices.map .notice := by
  rw [notifyAll]
  induction notices generalizing turn with
  | nil => simp
  | cons first rest ih => rw [List.foldl_cons, ih]; simp [notify]

/-- Nothing is sent while books are kept. -/
theorem ComesTo.book (h : start.ComesTo turn) {after : Turn}
    (engine : after.server.engine = turn.server.engine)
    (publisher : after.server.publisher = turn.server.publisher)
    (gate : after.server.gate = turn.server.gate) (sent : after.sent = turn.sent) :
    start.ComesTo after := by
  obtain ⟨passes, course⟩ := h
  exact ⟨passes, course.book engine publisher gate ⟨[], by simp [sent]⟩⟩

theorem ComesTo.notifyAll (h : start.ComesTo turn) (notices : List Notice) :
    start.ComesTo (turn.notifyAll notices) := by
  obtain ⟨passes, course⟩ := h
  have same := server_notifyAll turn notices
  exact ⟨passes, course.book (by rw [same]) (by rw [same]) (by rw [same])
    ⟨notices, sent_notifyAll turn notices⟩⟩

theorem ComesTo.notify (h : start.ComesTo turn) (notice : Notice) :
    start.ComesTo (turn.notify notice) := h.notifyAll [notice]

/-- A pass that may not run does nothing. -/
theorem publishing_compile_of_not_allowed (turn : Turn) {scope : PassScope}
    (refused : turn.server.allows scope = false) :
    turn.publishing (turn.server.compile turn.disk scope) = turn := by
  have nothing : turn.server.compile turn.disk scope = (turn.server, []) := by
    rw [Server.compile, Server.setup?.eq_def, if_neg (by rw [refused]; decide)]
  rw [nothing, publishing]
  simp

theorem ComesTo.runPass (h : start.ComesTo turn) (scope : PassScope) :
    start.ComesTo (turn.runPass scope) := by
  rw [Turn.runPass]
  cases allowed : turn.server.allows scope with
  | false =>
      rw [publishing_compile_of_not_allowed turn allowed]
      exact h
  | true =>
      obtain ⟨passes, course⟩ := h
      exact ComesTo.book ⟨_, course.pass allowed⟩ rfl rfl rfl rfl

theorem ComesTo.runQueue (h : start.ComesTo turn) : start.ComesTo turn.runQueue :=
  List.foldlRecOn (motive := fun later : Turn => start.ComesTo later) turn.server.queue _
    (h.book rfl rfl rfl rfl) fun _ h path _ => h.runPass (.files {path})

theorem ComesTo.compile (h : start.ComesTo turn) (scope : PassScope) :
    start.ComesTo (turn.compile scope) := h.runQueue.runPass scope

theorem ComesTo.clear (h : start.ComesTo turn) (paths : List Path) :
    start.ComesTo (turn.publishing (turn.server.clear paths)) := by
  obtain ⟨passes, course⟩ := h
  exact ⟨passes, course.clear paths⟩

theorem ComesTo.settle (h : start.ComesTo turn) (followUp : FollowUp) :
    start.ComesTo (turn.settle followUp) := (h.runQueue.clear _).notifyAll _

theorem ComesTo.compileSoon (h : start.ComesTo turn) (path : Path) :
    start.ComesTo (turn.compileSoon path) := by
  rw [Turn.compileSoon]
  dsimp only
  split
  · apply ComesTo.compile
    exact h.book rfl rfl rfl rfl
  · exact h.book rfl rfl rfl rfl

/-! ## Requests -/

theorem comesTo_setLicenseKey (turn : Turn) (key : String) :
    turn.ComesTo (turn.setLicenseKey key) := by
  rw [setLicenseKey]
  rcases outcome : turn.server.gate.takeKey License.isValidKey
    (License.fileStore turn.server.licenseFile) turn.disk key with ⟨gate, events, disk⟩
  have licensed : turn.ComesTo (turn.withServer { turn.server with gate := gate }) :=
    ⟨[], .license .begin (.inl ⟨key, by rw [outcome]⟩)⟩
  dsimp only
  generalize (if !turn.server.gate.isValid && gate.isValid then
    turn.server.project.map Project.addAllWaiting else turn.server.project) = project
  split
  · apply ComesTo.compile
    apply ComesTo.notifyAll
    exact licensed.book rfl rfl rfl rfl
  · apply ComesTo.notifyAll
    exact licensed.book rfl rfl rfl rfl

/-- What the old project showed is cleared, and the stored key is looked for. -/
theorem comesTo_setProjectPath (turn : Turn) (path : Path) :
    turn.ComesTo (turn.setProjectPath path) := by
  have ran := (ComesTo.refl turn).runQueue
  rw [setProjectPath]
  dsimp only
  split
  · apply ComesTo.notify
    exact ran.book rfl rfl rfl rfl
  · rename_i project followUp _
    rcases outcome : turn.runQueue.server.lineUp.gate.loadStored License.isValidKey
      (License.fileStore turn.runQueue.server.lineUp.licenseFile) turn.runQueue.disk with
      ⟨gate, events⟩
    obtain ⟨passes, course⟩ := ran
    have licensed := course.restart.license (.inr (congrArg Prod.fst outcome))
    dsimp only
    have fresh : turn.ComesTo (turn.runQueue.publishing
        ({ turn.runQueue.server.lineUp with
          gate := gate
          project := some project
          publisher := .empty
          declarations := []
          engine := .empty }, turn.runQueue.server.lineUp.publisher.clears)) :=
      ComesTo.book ⟨passes, licensed⟩ rfl rfl rfl rfl
    have told := fresh.notifyAll (changeNotices followUp ++ events.map Notice.ofLicense)
    split
    · exact told.compile .project
    · exact told

theorem comesTo_changeExclusions (turn : Turn) (operation : Project → Disk → Project.Changed) :
    turn.ComesTo (turn.changeExclusions operation) := by
  have begun := ComesTo.refl turn
  rcases turn.changeExclusions_cases operation with
    ⟨-, same⟩ | ⟨project, -, ⟨followUp, -, same⟩ | ⟨error, -, same⟩⟩ <;> rw [same]
  · exact begun.notify _
  · apply ComesTo.settle
    apply ComesTo.notify
    exact begun.book rfl rfl rfl rfl
  · apply ComesTo.notify
    exact begun.book rfl rfl rfl rfl

theorem comesTo_changeRoots (turn : Turn) (operation : Project → Disk → Project.Changed) :
    turn.ComesTo (turn.changeRoots operation) := by
  have begun := ComesTo.refl turn
  rcases turn.changeRoots_cases operation with
    ⟨-, same⟩ | ⟨project, -, ⟨followUp, -, same⟩ | ⟨error, -, same⟩⟩ <;> rw [same]
  · exact begun
  · apply ComesTo.compile
    apply ComesTo.settle
    exact begun.book rfl rfl rfl rfl
  · apply ComesTo.notify
    exact begun.book rfl rfl rfl rfl

theorem comesTo_setMacros (turn : Turn) (macros : List ProjectMacro) :
    turn.ComesTo (turn.setMacros macros) := by
  have begun := ComesTo.refl turn
  rw [setMacros]
  split
  · exact begun.notify _
  · apply ComesTo.notify
    exact begun.book rfl rfl rfl rfl

theorem comesTo_reloadSettings (turn : Turn) : turn.ComesTo turn.reloadSettings := by
  have begun := ComesTo.refl turn
  rw [reloadSettings]
  split
  · exact begun
  · rename_i project _
    dsimp only
    have settled : turn.ComesTo ((turn.withProject (project.reload turn.disk).1.takeWaiting.1).settle
        (project.reload turn.disk).2) := by
      apply ComesTo.settle
      exact begun.book rfl rfl rfl rfl
    split
    · exact settled
    · exact settled.compile _

theorem comesTo_didClose (turn : Turn) (path : Path) : turn.ComesTo (turn.didClose path) := by
  have begun := ComesTo.refl turn
  rw [didClose]
  dsimp only
  split
  · apply ComesTo.compile
    exact begun.book rfl rfl rfl rfl
  · apply ComesTo.compile
    split
    · apply ComesTo.notify
      exact begun.book rfl rfl rfl rfl
    · exact begun.book rfl rfl rfl rfl

theorem comesTo_didChangeConfiguration (turn : Turn) (settings : Json) :
    turn.ComesTo (turn.didChangeConfiguration settings) := by
  have begun := ComesTo.refl turn
  rw [didChangeConfiguration]
  split
  · exact begun
  · dsimp only
    split
    · exact begun.book rfl rfl rfl rfl
    · split
      · apply ComesTo.settle
        exact begun.book rfl rfl rfl rfl
      · exact begun.book rfl rfl rfl rfl

/-- **Every request has a course.** -/
theorem comesTo_handle (turn : Turn) (request : Request) :
    turn.ComesTo (turn.handle request) := by
  have begun := ComesTo.refl turn
  cases request with
  | startUp options =>
      show turn.ComesTo (turn.startUp options)
      rw [startUp]
      split
      · exact begun
      · exact begun.book rfl rfl rfl rfl
  | setLicenseKey key => exact comesTo_setLicenseKey turn key
  | setProjectPath path => exact comesTo_setProjectPath turn path
  | excludeResource path => exact comesTo_changeExclusions turn _
  | includeResource path => exact comesTo_changeExclusions turn _
  | addRootUnit path => exact comesTo_changeRoots turn _
  | removeRootUnit path => exact comesTo_changeRoots turn _
  | recompile => exact begun.compile .project
  | setMacros macros => exact comesTo_setMacros turn macros
  | reloadSettings => exact comesTo_reloadSettings turn
  | didOpen path version text =>
      cases path with
      | none => exact begun
      | some path =>
          apply ComesTo.compileSoon
          exact begun.book rfl rfl rfl rfl
  | didChange path version text =>
      cases path with
      | none => exact begun
      | some path =>
          cases text with
          | none => exact begun
          | some text =>
              apply ComesTo.compileSoon
              exact begun.book rfl rfl rfl rfl
  | didClose path =>
      cases path with
      | none => exact begun
      | some path => exact comesTo_didClose turn path
  | didChangeConfiguration settings => exact comesTo_didChangeConfiguration turn settings
  | shutdown => exact begun.book rfl rfl rfl rfl
  | startedUp => exact begun
  | diagnosticNames path line => exact begun
  | completion path cursor => exact begun
  | definition path cursor => exact begun

/-! ## Time -/

/-- **A pause has a course.** -/
theorem comesTo_wait (turn : Turn) (milliseconds : Nat) :
    turn.ComesTo (turn.wait milliseconds) := by
  have advances : ∀ times : List Nat, turn.ComesTo (times.foldl advance turn) := by
    intro times
    refine List.foldlRecOn (motive := fun later : Turn => turn.ComesTo later) times advance
      (.refl turn) fun later moved time _ => ?_
    apply ComesTo.runQueue
    exact moved.book rfl rfl rfl rfl
  rw [wait]
  split
  · exact .refl turn
  · exact (advances _).book rfl rfl rfl rfl

end Turn

namespace Server

/-- The turn of an event, with all that is sent in it. -/
def turnOf (state : Server × Disk) : Event → Turn
  | .request request => Turn.handle ⟨state.1, state.2, []⟩ request
  | .pause milliseconds => Turn.wait ⟨state.1, state.2, []⟩ milliseconds
  | .edit disk => ⟨state.1, disk, []⟩

theorem react_eq (state : Server × Disk) (event : Event) :
    react state event = ((turnOf state event).server, (turnOf state event).disk) := by
  cases event <;> rfl

/-- **Every event has a course.** -/
theorem comesTo_turnOf (state : Server × Disk) (event : Event) :
    Turn.ComesTo ⟨state.1, state.2, []⟩ (turnOf state event) := by
  cases event with
  | request request => exact Turn.comesTo_handle _ request
  | pause milliseconds => exact Turn.comesTo_wait _ milliseconds
  | edit disk => exact (Turn.ComesTo.refl _).book rfl rfl rfl rfl

end Server

end SvServer
