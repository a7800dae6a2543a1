import SvServer.License.Key
import SvServer.Proofs.Engine.Grounded
import SvServer.Proofs.Server.Course
import SvServer.Text.Blank

/-!
# Without a license

Names that are declared twice and unknown modules are found by the checks over the whole project,
which are part of a pass only while the license is valid. No unit ever finds them. A pass without a
license throws away what earlier checks had found, and whatever this changes is published anew; so
after it nothing of the kind is shown any more.
-/

/-!
## Keys that are refused

The checksum of a key is folded from integers of 64 bits. A key whose digits add up so high that
the cube of the sum does not fit is refused, whatever the rest of the checksum would be.
-/

namespace SvServer.License

/-- **A key is refused when the cube of the sum of its digits leaves 64 bits.** -/
theorem isValidKey_of_large {key : String} (large : 2097152 ≤ (digits key).foldl (· + ·) 0) :
    isValidKey key = false := by
  have cube : 2097152 * 2097152 * 2097152 ≤ (digits key).foldl (· + ·) 0 *
      (digits key).foldl (· + ·) 0 * (digits key).foldl (· + ·) 0 :=
    Nat.mul_le_mul (Nat.mul_le_mul large large) large
  have bits : Nat.pow 2 63 = 2097152 * 2097152 * 2097152 := by decide
  rw [← bits] at cube
  rw [isValidKey, checksum?]
  dsimp only
  rw [if_pos cube]
  rfl

/-- A key of nines. -/
def nines (count : Nat) : String := String.ofList (List.replicate count '9')

theorem trim_nines (count : Nat) : Text.trim (nines count) = nines count := by
  have kept : ∀ text : List Char, text = List.replicate count '9' →
      text.dropWhile Text.isBlank = text := by
    rintro _ rfl
    rw [List.dropWhile_replicate]
    rfl
  rw [Text.trim, nines, String.toList_ofList, Text.trimChars, kept _ rfl, List.reverse_replicate,
    kept _ rfl, List.reverse_replicate]

theorem foldl_add_replicate (count digit start : Nat) :
    (List.replicate count digit).foldl (· + ·) start = start + count * digit := by
  induction count generalizing start with
  | zero => simp
  | succ count ih =>
      rw [List.replicate_succ, List.foldl_cons, ih, Nat.succ_mul]
      omega

/-- **A key of very many nines is refused.** -/
theorem isValidKey_nines {count : Nat} (many : 233017 ≤ count) :
    isValidKey (Text.trim (nines count)) = false := by
  apply isValidKey_of_large
  have nine : digits (nines count) = List.replicate count 9 := by
    rw [digits, nines, String.toList_ofList, List.filter_replicate_of_pos (by decide),
      List.map_replicate]
    rfl
  rw [trim_nines, nine, foldl_add_replicate]
  omega

end SvServer.License

namespace SvServer

namespace DiagnosticName

/-- Only the names of the checks over the whole project are spelled like this. -/
theorem text_of_isLocal {name : DiagnosticName} (isLocal : name.isCrossFile = false) :
    name.text ≠ "Redefinition" ∧ name.text ≠ "UnknownModule" := by
  cases name <;> first | exact absurd isLocal (by decide) | decide

end DiagnosticName

namespace Server

/-! ## What a pass sends -/

/-- Whatever is sent after a pass is from the report of some file. -/
theorem mem_publish {server : Server} {files : List FileReport} {publication : Publication}
    (sent : publication ∈ (server.publish files).2) :
    ∃ file ∈ files, ∀ d ∈ publication.diagnostics,
      ∃ found ∈ file.diagnostics, d = found.sent server.publishRules.source := by
  rw [publish] at sent
  dsimp only at sent
  revert sent
  refine List.foldlRecOn (motive := fun state : Publisher × List Publication =>
    publication ∈ state.2 → ∃ file ∈ files, ∀ d ∈ publication.diagnostics,
      ∃ found ∈ file.diagnostics, d = found.sent server.publishRules.source) _ _
    (fun sent => absurd sent List.not_mem_nil) ?_
  rintro ⟨publisher, sent⟩ known file listed member
  rcases List.mem_append.1 member with before | now
  · exact known before
  · refine ⟨file, (List.mem_filter.1 listed).1, fun d within => ?_⟩
    rw [Publisher.send] at now
    split at now
    · exact absurd now List.not_mem_nil
    · rw [List.mem_singleton.1 now] at within
      obtain ⟨found, kept, rfl⟩ := List.mem_map.1 within
      exact ⟨found, PublishRules.mem_of_mem_kept kept, rfl⟩

/-- What is sent under its names needs no more than the text of a unit. -/
theorem code_of_isLocal {d : Diagnostic} (isLocal : d.name.isCrossFile = false) (source : String) :
    (d.sent source).code ≠ "Redefinition" ∧ (d.sent source).code ≠ "UnknownModule" :=
  DiagnosticName.text_of_isLocal isLocal

/-- What holds between the steps of a turn: nothing is shown that the engine does not have, and no
unit has found anything that needs the whole project. -/
structure Sound (server : Server) : Prop extends Truthful server where
  localUnits : server.engine.LocalUnits

variable {before after server : Server}

theorem Sound.of_eq (engine : after.engine = before.engine)
    (publisher : after.publisher = before.publisher) (h : before.Sound) : after.Sound :=
  ⟨h.toTruthful.of_eq engine publisher, by rw [engine]; exact h.localUnits⟩

theorem sound_of_empty (server : Server) (engine : server.engine = .empty)
    (publisher : server.publisher = .empty) : server.Sound :=
  ⟨truthful_of_empty server engine publisher, by rw [engine]; exact Engine.localUnits_empty⟩

theorem Sound.clear (h : server.Sound) (paths : List Path) : (server.clear paths).1.Sound :=
  ⟨h.toTruthful.clear paths, by rw [clear_fst]; exact h.localUnits⟩

theorem Sound.move (move : Move before after) (h : before.Sound) : after.Sound := by
  cases move with
  | idle stage engine publisher => exact h.of_eq engine publisher
  | pass input revision =>
      refine ⟨h.toTruthful.pass input revision, ?_⟩
      rw [show ((before.compute input).1.publish (before.compute input).2).1 =
        before.afterPass input from rfl, engine_afterPass]
      exact h.localUnits.run input
  | clear paths => exact h.clear paths

theorem Sound.compile (h : server.Sound) (disk : Disk) (scope : PassScope) :
    (server.compile disk scope).1.Sound :=
  (moves_compile server disk scope).rec h fun _ move ih => ih.move move

/-- **Along every run the steps of a turn begin with what holds between them.** -/
theorem Reached.sound {state : Server × Disk} (h : Reached state) : state.1.Sound := by
  obtain ⟨config, licenseFile, gate, disk, events, rfl⟩ := h
  exact invariant_afterEvents Sound.of_eq sound_of_empty Sound.move events
    (sound_of_empty _ rfl rfl)

end Server

/-! ## Courses -/

namespace Turn

/-- Every pass of a turn begins with what holds between the steps, and so does what comes next. -/
theorem Course.sound {start turn : Turn} {passes : List (Turn × PassScope)}
    (course : Course start passes turn) (h : start.server.Sound) :
    turn.server.Sound ∧ ∀ pass ∈ passes, pass.1.server.Sound := by
  induction course with
  | begin => exact ⟨h, fun _ none => absurd none List.not_mem_nil⟩
  | book _ engine publisher _ _ ih => exact ⟨ih.1.of_eq engine publisher, ih.2⟩
  | license _ _ ih => exact ⟨.of_eq (by rfl) (by rfl) ih.1, ih.2⟩
  | pass _ _ ih =>
      refine ⟨ih.1.compile _ _, fun pass listed => ?_⟩
      rcases List.mem_append.1 listed with earlier | last
      · exact ih.2 pass earlier
      · rw [List.mem_singleton.1 last]
        exact ih.1
  | clear _ paths ih => exact ⟨ih.1.clear paths, ih.2⟩
  | restart _ ih => exact ⟨Server.sound_of_empty _ rfl rfl, ih.2⟩

/-- Whether a pass neither sends nor leaves anything that needs the whole project. -/
structure Withholds (turn : Turn) (scope : PassScope) : Prop where
  sent : ∀ publication ∈ (turn.server.compile turn.disk scope).2,
    ∀ d ∈ publication.diagnostics, d.code ≠ "Redefinition" ∧ d.code ≠ "UnknownModule"
  shown : ∀ path, ∀ d ∈ (turn.server.compile turn.disk scope).1.shown path,
    d.name ≠ .redefinition ∧ d.name ≠ .unknownModule

/-- A pass over documents takes its input at once and always runs. -/
theorem compile_files (turn : Turn) (paths : PathSet) :
    turn.server.compile turn.disk (.files paths) =
      (turn.server.compute (turn.server.passSetup turn.disk paths false)).1.publish
        (turn.server.compute (turn.server.passSetup turn.disk paths false)).2 := rfl

/-- A pass over documents that takes its input without a valid license. -/
theorem withholds_files {turn : Turn} (sound : turn.server.Sound)
    (unlicensed : turn.server.gate.isValid = false) (paths : PathSet) :
    turn.Withholds (.files paths) := by
  have known := sound.localUnits.isLocal_of_run
    (show (turn.server.passSetup turn.disk paths false).crossFile = false from unlicensed)
  constructor
  · intro publication sent d within
    rw [compile_files] at sent
    obtain ⟨file, reported, from_⟩ := Server.mem_publish sent
    obtain ⟨found, member, rfl⟩ := from_ d within
    rw [Server.reports_eq] at reported
    obtain ⟨path, -, rfl⟩ := List.mem_map.1 reported
    exact Server.code_of_isLocal (known path found member) _
  · intro path d shown
    have truthful := (sound.compile turn.disk (.files paths)).toTruthful
    obtain ⟨found, member, same⟩ := List.mem_map.1 (truthful.shown path d shown)
    rw [compile_files, ← Server.afterPass, Server.engine_afterPass] at member
    have name : found.name = d.name := congrArg (·.name) same
    rw [← name]
    exact DiagnosticName.ne_of_isLocal (known path found member)

/-- A pass without a license is one over documents: a full pass needs a license to run. -/
theorem withholds_of_unlicensed {turn : Turn} (sound : turn.server.Sound) {scope : PassScope}
    (allowed : turn.server.allows scope = true) (unlicensed : turn.server.gate.isValid = false) :
    turn.Withholds scope := by
  cases scope with
  | files paths => exact withholds_files sound unlicensed paths
  | project => exact absurd (unlicensed.symm.trans allowed) Bool.false_ne_true

/-- The passes of a course were allowed to run. -/
theorem Course.allowed {start turn : Turn} {passes : List (Turn × PassScope)}
    (course : Course start passes turn) :
    ∀ pass ∈ passes, pass.1.server.allows pass.2 = true := by
  induction course with
  | begin => exact fun _ none => absurd none List.not_mem_nil
  | book _ _ _ _ _ ih => exact ih
  | license _ _ ih => exact ih
  | pass _ allowed ih =>
      intro pass listed
      rcases List.mem_append.1 listed with earlier | last
      · exact ih pass earlier
      · rw [List.mem_singleton.1 last]
        exact allowed
  | clear _ _ ih => exact ih
  | restart _ ih => exact ih

end Turn

namespace Server

/-- **A pass without a license withholds what needs the whole project.** Along every run each event
is a row of steps, and in every such row a pass that takes its input while the license is not valid
neither sends a name that is declared twice or a module that is unknown, nor leaves one shown for
any file, whatever earlier passes had shown. -/
theorem withholds_of_reached {state : Server × Disk} (h : Reached state) (event : Event) :
    Turn.ComesTo ⟨state.1, state.2, []⟩ (turnOf state event) ∧
      ∀ passes after, Turn.Course ⟨state.1, state.2, []⟩ passes after →
        ∀ pass ∈ passes, pass.1.server.gate.isValid = false → pass.1.Withholds pass.2 := by
  refine ⟨comesTo_turnOf state event, fun passes after course pass listed unlicensed => ?_⟩
  exact Turn.withholds_of_unlicensed ((course.sound h.sound).2 pass listed)
    (course.allowed pass listed) unlicensed

/-- A disk with a project whose only file has an instance of a module that nothing declares. -/
def instanceDisk : Disk where
  top := .folder "p" true (.file "top.sv" ⟨some "module top;\nleaf u();\nendmodule\n", 32, 0⟩
    .empty) .empty
  current := .ofString "/"
  now := 1

/-- A run that opens the project with a license. -/
def licensedRun : Server × Disk :=
  afterEvents (opening .initial "license.txt" ⟨.valid, none, true⟩, instanceDisk)
    [.request (.setProjectPath (.ofString "/p"))]

/-- A key that is refused closes the gate, and nothing else happens. -/
theorem react_setLicenseKey_refused (state : Server × Disk) {key : String}
    (refused : License.isValidKey (Text.trim key) = false) :
    react state (.request (.setLicenseKey key)) =
      ({ state.1 with gate := { state.1.gate with status := .invalid, key := none } }, state.2) := by
  have closed : state.1.gate.takeKey License.isValidKey (License.fileStore state.1.licenseFile)
      state.2 key = ({ state.1.gate with status := .invalid, key := none }, [.invalid], state.2) := by
    rw [License.Gate.takeKey]
    dsimp only
    rw [if_neg (by rw [refused]; decide)]
  rw [react_eq]
  show ((Turn.setLicenseKey ⟨state.1, state.2, []⟩ key).server,
    (Turn.setLicenseKey ⟨state.1, state.2, []⟩ key).disk) = _
  rw [Turn.setLicenseKey]
  simp only [closed]
  have shut : ({ state.1.gate with status := .invalid, key := none } : License.Gate).isValid
      = false := rfl
  simp only [shut, Bool.and_false, Bool.false_and, Bool.false_eq_true, if_false]
  rfl

/-- The run goes on with a key that is refused. -/
def refusedRun : Server × Disk :=
  react licensedRun (.request (.setLicenseKey (License.nines 233017)))

theorem reached_refusedRun : Reached refusedRun :=
  ⟨.initial, "license.txt", ⟨.valid, none, true⟩, instanceDisk,
    [.request (.setProjectPath (.ofString "/p")),
      .request (.setLicenseKey (License.nines 233017))], rfl⟩

/-- Then the file is opened with one more line, which runs a pass. -/
def reopening : Event :=
  .request (.didOpen (some (.ofString "/p/top.sv")) 1 "module top;\n\nleaf u();\nendmodule\n")

/-- With a license the file is shown its unknown module. Once a key was refused, the pass over the
opened document takes that away. -/
theorem withholds_refusedRun :
    (licensedRun.1.shown (.ofString "/p/top.sv")).map (·.name) = [.unknownModule] ∧
      Reached refusedRun ∧ refusedRun.1.gate.isValid = false ∧
      ((react refusedRun reopening).1.shown (.ofString "/p/top.sv")).length = 0 ∧
      Turn.ComesTo ⟨refusedRun.1, refusedRun.2, []⟩ (turnOf refusedRun reopening) ∧
      ∀ passes after, Turn.Course ⟨refusedRun.1, refusedRun.2, []⟩ passes after →
        ∀ pass ∈ passes, pass.1.server.gate.isValid = false → pass.1.Withholds pass.2 := by
  have closed := react_setLicenseKey_refused licensedRun
    (License.isValidKey_nines (Nat.le_refl 233017))
  have cleared : ((react ({ licensedRun.1 with
      gate := { licensedRun.1.gate with status := .invalid, key := none } }, licensedRun.2)
      reopening).1.shown (.ofString "/p/top.sv")).length = 0 := by decide +kernel
  rw [← closed] at cleared
  have shut : refusedRun.1.gate.isValid = false := by
    rw [refusedRun, closed]
    rfl
  exact ⟨by decide +kernel, reached_refusedRun, shut, cleared,
    withholds_of_reached reached_refusedRun reopening⟩

end Server

end SvServer
