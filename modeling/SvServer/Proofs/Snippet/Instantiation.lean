import Mathlib.Data.List.Forall2
import SvServer.Completion
import SvServer.Proofs.Snippet.Grammar

/-!
# Instances as snippets

The snippet that instantiates a design element, as an editor reads it. Defaults of parameters are
escaped, so they are read as they stand, whatever they are. Names are not. A name in which no sign of
the notation begins is read as it stands, too, and then the snippet becomes the instance. A dollar
sign in a name becomes a place if a letter, a digit or an underscore follows it.
-/

namespace SvServer.Completion

open SnippetGrammar
open SnippetPart (renderAll)

/-! ## What is to be inserted -/

/-- The connections of an instance, one in a line. -/
def connectionLines : List (String × String) → List String
  | [] => []
  | [(name, value)] => ["  ." ++ name ++ "(" ++ value ++ ")"]
  | (name, value) :: next :: rest =>
    ("  ." ++ name ++ "(" ++ value ++ "),") :: connectionLines (next :: rest)

/-- The lines of an instance that is connected to the defaults of its parameters and to signals which
are called like its ports. -/
def instanceLines (declaration : Declaration) : List String :=
  let parameters := declaration.parameters.map fun p => (p.name, p.default)
  let ports := declaration.ports.map fun port => (port, port)
  let head :=
    if parameters.isEmpty then [declaration.name ++ " instance_name ("]
    else (declaration.name ++ " #(") :: connectionLines parameters ++ [") instance_name ("]
  head ++ connectionLines ports ++ [");"]

/-- The text of an instance. -/
def instanceText (declaration : Declaration) : String :=
  String.join ((instanceLines declaration).map fun line => line ++ "\n")

/-- What the places of an instance have at first, in their order: the defaults of the parameters, the
name of the instance, and the ports. -/
def initialTexts (declaration : Declaration) : List String :=
  declaration.parameters.map Parameter.default ++ "instance_name" :: declaration.ports

/-- What an editor makes of the snippet of a design element. -/
def readInstance (declaration : Declaration) : List Item :=
  read (renderAll (instantiation declaration)).toList

/-- **The snippet becomes the instance**: its places are numbered from one on, in their order, and the
cursor ends behind them; and what is inserted is the text of the instance. -/
structure Renders (declaration : Declaration) : Prop where
  places : places (readInstance declaration) =
    ((initialTexts declaration).zipIdx 1).map (fun (text, number) => (.number number, text.toList)) ++
      [(.number 0, [])]
  text : inserted (readInstance declaration) = (instanceText declaration).toList

/-! ## The snippet piece by piece -/

/-- A connection as it is read, with what its name and its value are read as. -/
def connectionItems (front : String) (name : List Item) (number : Nat) (value : List Item) :
    List Item :=
  chars front.toList ++ (name ++ (.char '(' ::
    (.filled (.number number) (inserted value) :: value ++ [.char ')'])))

/-- Connections as they are read, with their numbers from `first` on. -/
def allConnectionItems (first : Nat) (entries : List (List Item × List Item)) : List Item :=
  (entries.zipIdx first).flatMap fun ((name, value), number) =>
    connectionItems (if number = first then "  ." else ",\n  .") name number value

/-- How the name and the value of a connection are read where they stand. -/
structure ReadsAs (entry : String × String) (items : List Item × List Item) : Prop where
  name : ∀ rest, Reads [] entry.1.toList items.1 ('(' :: rest)
  value : ∀ frame rest, Reads [frame] entry.2.toList items.2 ('\x7d' :: rest)

theorem renderAll_append (a b : List SnippetPart) :
    (renderAll (a ++ b)).toList = (renderAll a).toList ++ (renderAll b).toList := by
  simp [renderAll, String.toList_join]

theorem render_placeholder (number : Nat) (text : String) :
    (SnippetPart.placeholder number text).render.toList =
      '$' :: '\x7b' :: ((toString number).toList ++ ':' :: (text.toList ++ ['\x7d'])) := by
  simp [SnippetPart.render]

theorem reads_connection {entry : String × String} {items : List Item × List Item}
    (h : ReadsAs entry items) {front : String} (number : Nat)
    (plain : front.toList.any SnippetPart.isSpecial = false) (rest : List Char) :
    Reads [] (renderAll [.plain (front ++ entry.1 ++ "("), .placeholder number entry.2,
      .plain ")"]).toList (connectionItems front items.1 number items.2) rest := by
  have text : (renderAll [.plain (front ++ entry.1 ++ "("), .placeholder number entry.2,
      .plain ")"]).toList = front.toList ++ (entry.1.toList ++ (['('] ++
        ((SnippetPart.placeholder number entry.2).render.toList ++ [')']))) := by
    simp [renderAll, SnippetPart.render]
  rw [text, render_placeholder]
  have bracket (c : Char) (rest : List Char) (plain : SnippetPart.isSpecial c = false) :
      Reads [] [c] (chars [c]) rest := .char (scan_of_not_special plain rest)
  exact (reads_literal plain).append ((h.name _).append ((bracket '(' _ (by decide)).append
    ((reads_filled fun outer => h.value (.number number, outer) _).append
      (bracket ')' rest (by decide)))))

/-- The parts of a connection. -/
theorem connections_eq (first : Nat) (entries : List (String × String)) :
    connections first entries = (entries.zipIdx first).flatMap fun (entry, number) =>
      [.plain ((if number = first then "  ." else ",\n  .") ++ entry.1 ++ "("),
        .placeholder number entry.2, .plain ")"] := by
  rw [connections, List.flatMap_def]

/-- **Connections are read one after the other.** -/
theorem reads_connections (first : Nat) {entries : List (String × String)}
    {items : List (List Item × List Item)} (h : List.Forall₂ ReadsAs entries items)
    (rest : List Char) :
    Reads [] (renderAll (connections first entries)).toList (allConnectionItems first items)
      rest := by
  rw [connections_eq, allConnectionItems]
  -- The numbers go on from the first one, which every number is compared with.
  suffices all : ∀ number, Reads [] (renderAll ((entries.zipIdx number).flatMap
      fun (entry, number) => [.plain ((if number = first then "  ." else ",\n  .") ++ entry.1 ++ "("),
        .placeholder number entry.2, .plain ")"])).toList
      ((items.zipIdx number).flatMap fun ((name, value), number) =>
        connectionItems (if number = first then "  ." else ",\n  .") name number value) rest from
    all first
  induction h with
  | nil => exact fun _ => .nil
  | cons same _ ih =>
      intro number
      rw [List.zipIdx_cons, List.zipIdx_cons, List.flatMap_cons, List.flatMap_cons,
        renderAll_append]
      exact (reads_connection same number (by split <;> decide) _).append (ih (number + 1))

/-- How the names of a declaration are read where they stand. -/
structure NamesReadAs (declaration : Declaration) (names : String → List Item) : Prop where
  name : ∀ rest, Reads [] declaration.name.toList (names declaration.name) (' ' :: rest)
  parameters : ∀ p ∈ declaration.parameters, ∀ rest,
    Reads [] p.name.toList (names p.name) ('(' :: rest)
  ports : ∀ port ∈ declaration.ports, ReadsAs (port, port) (names port, names port)

/-- The parameters of an instance, as they are written and as they are read. -/
def parameterText (declaration : Declaration) : List Char :=
  let parameters := declaration.parameters.map fun p => (p.name, SnippetPart.escape p.default)
  if parameters.isEmpty then [' ']
  else " #(\n".toList ++ ((renderAll (connections 1 parameters)).toList ++ "\n) ".toList)

@[inherit_doc parameterText]
def parameterItems (declaration : Declaration) (names : String → List Item) : List Item :=
  let parameters := declaration.parameters.map fun p => (names p.name, chars p.default.toList)
  if parameters.isEmpty then chars [' ']
  else chars " #(\n".toList ++ (allConnectionItems 1 parameters ++ chars "\n) ".toList)

/-- The ports of an instance, as they are written and as they are read. -/
def portText (declaration : Declaration) : List Char :=
  let ports := declaration.ports.map fun port => (port, port)
  if ports.isEmpty then []
  else (renderAll (connections (declaration.parameters.length + 2) ports)).toList ++ ['\n']

@[inherit_doc portText]
def portItems (declaration : Declaration) (names : String → List Item) : List Item :=
  let ports := declaration.ports.map fun port => (names port, names port)
  if ports.isEmpty then []
  else allConnectionItems (declaration.parameters.length + 2) ports ++ chars ['\n']

/-- The snippet of a declaration as it is read, with what its names are read as. -/
def instanceItems (declaration : Declaration) (names : String → List Item) : List Item :=
  names declaration.name ++ (parameterItems declaration names ++
    (.filled (.number (declaration.parameters.length + 1)) "instance_name".toList ::
      chars "instance_name".toList ++ (chars " (\n".toList ++ (portItems declaration names ++
        (chars ");\n".toList ++ [.stop (.number 0)])))))

theorem renderAll_instantiation (declaration : Declaration) :
    (renderAll (instantiation declaration)).toList = declaration.name.toList ++
      (parameterText declaration ++
        ((SnippetPart.placeholder (declaration.parameters.length + 1) "instance_name").render.toList
          ++ (" (\n".toList ++ (portText declaration ++ (");\n".toList ++ ['$', '0']))))) := by
  rw [instantiation, parameterText, portText]
  cases declaration.parameters <;> cases declaration.ports <;>
    simp [SnippetPart.render, renderAll]

section

variable {declaration : Declaration} {names : String → List Item}
  (h : NamesReadAs declaration names)

include h

theorem NamesReadAs.reads_parameterText (rest : List Char) :
    Reads [] (parameterText declaration) (parameterItems declaration names) rest := by
  rw [parameterText, parameterItems]
  rw [List.isEmpty_map, List.isEmpty_map]
  split
  · exact reads_literal (by decide)
  · have entries : List.Forall₂ ReadsAs
        (declaration.parameters.map fun p => (p.name, SnippetPart.escape p.default))
        (declaration.parameters.map fun p => (names p.name, chars p.default.toList)) := by
      rw [List.forall₂_map_left_iff, List.forall₂_map_right_iff, List.forall₂_same]
      exact fun p member => ⟨h.parameters p member, fun _ _ => reads_escape p.default⟩
    exact (reads_literal (by decide)).append ((reads_connections 1 entries _).append
      (reads_literal (by decide)))

theorem NamesReadAs.reads_portText (rest : List Char) :
    Reads [] (portText declaration) (portItems declaration names) rest := by
  rw [portText, portItems]
  rw [List.isEmpty_map, List.isEmpty_map]
  split
  · exact .nil
  · have entries : List.Forall₂ ReadsAs (declaration.ports.map fun port => (port, port))
        (declaration.ports.map fun port => (names port, names port)) := by
      rw [List.forall₂_map_left_iff, List.forall₂_map_right_iff, List.forall₂_same]
      exact h.ports
    exact (reads_connections _ entries _).append (reads_literal (by decide))

/-- **The snippet is read piece by piece**, as soon as its names are. -/
theorem NamesReadAs.readInstance_eq : readInstance declaration = instanceItems declaration names := by
  apply Reads.read_eq
  have blank (rest : List Char) : ∃ tail, parameterText declaration ++ rest = ' ' :: tail := by
    rw [parameterText]
    split <;> exact ⟨_, rfl⟩
  have name (rest : List Char) : Reads [] declaration.name.toList (names declaration.name)
      (parameterText declaration ++ rest) := by
    obtain ⟨tail, begins⟩ := blank rest
    rw [begins]
    exact h.name tail
  have word (frames rest) : Reads frames "instance_name".toList (chars "instance_name".toList) rest :=
    reads_literal (by decide)
  have place (rest : List Char) := @reads_filled [] _ rest _ (declaration.parameters.length + 1)
    fun outer => word [(_, outer)] ('\x7d' :: rest)
  have literal (text : String) (plain : text.toList.any SnippetPart.isSpecial = false)
      (rest : List Char) : Reads [] text.toList (chars text.toList) rest := reads_literal plain
  have final : Reads [] ['$', '0'] [.stop (.number 0)] [] := fun current => by
    have read : signs ['$', '0'] = [.stop (.number 0)] := by decide +kernel
    rw [List.append_nil, read, signs_nil]
    rfl
  rw [renderAll_instantiation, instanceItems, render_placeholder]
  rw [inserted_chars] at place
  refine Reads.append ?_ ((h.reads_parameterText _).append ((place _).append
    ((literal " (\n" (by decide) _).append ((h.reads_portText _).append
      ((literal ");\n" (by decide) _).append final)))))
  rw [List.append_assoc]
  exact name _

end

/-! ## Places -/

theorem places_connectionItems (front : String) (name : List Item) (number : Nat)
    (value : List Item) : places (connectionItems front name number value) =
      places name ++ (.number number, inserted value) :: places value := by
  simp [connectionItems]

theorem places_allConnectionItems (first : Nat) (entries : List (List Item × List Item)) :
    places (allConnectionItems first entries) = (entries.zipIdx first).flatMap
      fun ((name, value), number) =>
        places name ++ (.number number, inserted value) :: places value := by
  rw [allConnectionItems, places, List.filterMap_flatMap]
  congr
  funext entry
  obtain ⟨⟨name, value⟩, number⟩ := entry
  exact places_connectionItems _ name number value

theorem places_parameterItems (declaration : Declaration) (names : String → List Item) :
    places (parameterItems declaration names) = (declaration.parameters.zipIdx 1).flatMap
      fun (p, number) => places (names p.name) ++ [(.number number, p.default.toList)] := by
  rw [parameterItems, List.isEmpty_map]
  split
  · rename_i none_
    rw [List.isEmpty_iff.1 none_]
    rfl
  · rw [places_append, places_append, places_chars, places_chars, places_allConnectionItems,
      List.zipIdx_map, List.flatMap_map]
    simp

theorem places_portItems (declaration : Declaration) (names : String → List Item) :
    places (portItems declaration names) =
      (declaration.ports.zipIdx (declaration.parameters.length + 2)).flatMap fun (port, number) =>
        places (names port) ++ (.number number, inserted (names port)) :: places (names port) := by
  rw [portItems, List.isEmpty_map]
  split
  · rename_i none_
    rw [List.isEmpty_iff.1 none_]
    rfl
  · rw [places_append, places_chars, places_allConnectionItems, List.zipIdx_map, List.flatMap_map]
    simp

theorem places_instanceItems (declaration : Declaration) (names : String → List Item) :
    places (instanceItems declaration names) = places (names declaration.name) ++
      (places (parameterItems declaration names) ++
        (.number (declaration.parameters.length + 1), "instance_name".toList) ::
          (places (portItems declaration names) ++ [(.number 0, [])])) := by
  simp only [instanceItems, places_append, places_cons_filled, places_chars, List.cons_append,
    List.nil_append, places_cons_stop, places_nil]

/-! ## Names that are read as they stand -/

/-- No sign begins in a name where it stands, and no port closes a place. -/
structure NamesInert (declaration : Declaration) : Prop where
  name : inert ' ' declaration.name.toList = true
  parameters : ∀ p ∈ declaration.parameters, inert '(' p.name.toList = true
  ports : ∀ port ∈ declaration.ports, inert '(' port.toList = true ∧
    inert '\x7d' port.toList = true ∧ '\x7d' ∉ port.toList

/-- A name as it stands. -/
def written (name : String) : List Item := chars name.toList

theorem NamesInert.namesReadAs {declaration : Declaration} (h : NamesInert declaration) :
    NamesReadAs declaration written where
  name _ := reads_inert h.name fun _ => rfl
  parameters p member _ := reads_inert (h.parameters p member) fun _ => rfl
  ports port member :=
    ⟨fun _ => reads_inert (h.ports port member).1 fun _ => rfl,
      fun _ _ => reads_inert (h.ports port member).2.1 fun brace =>
        absurd brace (h.ports port member).2.2⟩

/-- The places, if names are read as they stand. -/
theorem places_written (declaration : Declaration) :
    places (instanceItems declaration written) =
      ((initialTexts declaration).zipIdx 1).map (fun (text, number) =>
        (.number number, text.toList)) ++ [(.number 0, [])] := by
  rw [places_instanceItems, places_parameterItems, places_portItems, initialTexts,
    List.zipIdx_append, List.zipIdx_cons, List.map_append, List.map_cons, List.zipIdx_map,
    List.map_map, List.length_map, Nat.add_comm 1]
  simp [written, Function.comp_def, List.map_eq_flatMap]

/-- Places that are numbered from one on share nothing with the place where the cursor ends. -/
theorem shared_zero {items : List Item} {texts : List String}
    (numbered : places items = (texts.zipIdx 1).map (fun (text, number) =>
      (.number number, text.toList)) ++ [(.number 0, [])]) : shared items 0 = [] := by
  rw [shared, numbered, List.find?_eq_none.2, Option.map_none, Option.getD_none]
  intro place listed
  rcases List.mem_append.1 listed with numbered | final
  · obtain ⟨⟨text, number⟩, member, rfl⟩ := List.mem_map.1 numbered
    have positive := List.le_snd_of_mem_zipIdx member
    simp only [ne_eq, decide_not, Bool.and_eq_true, decide_eq_true_eq, Label.number.injEq]
    omega
  · rw [List.mem_singleton.1 final]
    simp

/-! ## The text that is inserted -/

/-- A connection as text. -/
def connectionText (front : String) (entry : String × String) : List Char :=
  front.toList ++ (entry.1.toList ++ ('(' :: (entry.2.toList ++ [')'])))

/-- Behind the first one, every connection begins behind a comma. -/
theorem flatMap_zipIdx_connectionText (entries : List (String × String)) {first number : Nat}
    (behind : first < number) :
    ((entries.zipIdx number).flatMap fun (entry, number) =>
      connectionText (if number = first then "  ." else ",\n  .") entry) =
      entries.flatMap (connectionText ",\n  .") := by
  induction entries generalizing number with
  | nil => rfl
  | cons entry rest ih =>
      rw [List.zipIdx_cons, List.flatMap_cons, List.flatMap_cons, ih (Nat.lt_succ_of_lt behind)]
      dsimp only
      rw [if_neg (Nat.ne_of_gt behind)]

/-- **Connections with commas between them are the lines of the connections.** -/
theorem connectionText_eq_lines (entry : String × String) (rest : List (String × String)) :
    connectionText "  ." entry ++ (rest.flatMap (connectionText ",\n  .") ++ ['\n']) =
      (connectionLines (entry :: rest)).flatMap fun line => line.toList ++ ['\n'] := by
  induction rest generalizing entry with
  | nil => simp [connectionLines, connectionText]
  | cons next rest ih =>
      obtain ⟨name, value⟩ := entry
      have line : connectionText "  ." (name, value) ++ ",\n".toList =
          ("  ." ++ name ++ "(" ++ value ++ "),").toList ++ ['\n'] := by
        simp [connectionText]
      have comma : connectionText ",\n  ." next = ",\n".toList ++ connectionText "  ." next := by
        simp [connectionText]
      calc connectionText "  ." (name, value) ++
            ((next :: rest).flatMap (connectionText ",\n  .") ++ ['\n'])
          = (connectionText "  ." (name, value) ++ ",\n".toList) ++
              (connectionText "  ." next ++ (rest.flatMap (connectionText ",\n  .") ++ ['\n'])) := by
            rw [List.flatMap_cons, comma]
            simp only [List.append_assoc]
        _ = _ := by
            rw [line, ih next]
            rfl

/-- What connections show whose names and values are read as they stand. -/
theorem shown_connections (all : List Item) (first : Nat) (entries : List (String × String)) :
    (allConnectionItems first
      (entries.map fun entry => (written entry.1, written entry.2))).flatMap (Item.shown all) =
      (entries.zipIdx first).flatMap fun (entry, number) =>
        connectionText (if number = first then "  ." else ",\n  .") entry := by
  rw [allConnectionItems, List.flatMap_assoc, List.zipIdx_map, List.flatMap_map]
  congr
  funext ⟨entry, number⟩
  simp [connectionItems, connectionText, written, Item.shown]

/-- **Connections show their lines.** -/
theorem shown_connectionLines (all : List Item) (first : Nat) (entries : List (String × String))
    (some_ : entries ≠ []) :
    (allConnectionItems first
      (entries.map fun entry => (written entry.1, written entry.2))).flatMap (Item.shown all) ++
        ['\n'] = (connectionLines entries).flatMap fun line => line.toList ++ ['\n'] := by
  rw [shown_connections]
  cases entries with
  | nil => exact absurd rfl some_
  | cons entry rest =>
      rw [List.zipIdx_cons, List.flatMap_cons,
        flatMap_zipIdx_connectionText rest (Nat.lt_succ_self first), List.append_assoc,
        ← connectionText_eq_lines]
      dsimp only
      rw [if_pos rfl]

theorem shown_parameterItems (all : List Item) (declaration : Declaration) :
    (parameterItems declaration written).flatMap (Item.shown all) =
      let parameters := declaration.parameters.map fun p => (p.name, p.default)
      if parameters.isEmpty then [' ']
      else " #(\n".toList ++
        ((connectionLines parameters).flatMap (fun line => line.toList ++ ['\n']) ++ ") ".toList) := by
  dsimp only
  rw [parameterItems, List.isEmpty_map, List.isEmpty_map]
  split
  · rw [flatMap_shown_chars]
  · rename_i some_
    have lines := shown_connectionLines all 1
      (declaration.parameters.map fun p => (p.name, p.default)) (by simpa using some_)
    rw [List.map_map] at lines
    rw [List.flatMap_append, List.flatMap_append, flatMap_shown_chars, flatMap_shown_chars, ← lines,
      List.append_assoc]
    rfl

theorem shown_portItems (all : List Item) (declaration : Declaration) :
    (portItems declaration written).flatMap (Item.shown all) =
      (connectionLines (declaration.ports.map fun port => (port, port))).flatMap fun line =>
        line.toList ++ ['\n'] := by
  rw [portItems, List.isEmpty_map]
  split
  · rename_i none_
    rw [List.isEmpty_iff.1 none_]
    rfl
  · rename_i some_
    have lines := shown_connectionLines all (declaration.parameters.length + 2)
      (declaration.ports.map fun port => (port, port)) (by simpa using some_)
    rw [List.map_map] at lines
    rw [List.flatMap_append, flatMap_shown_chars, ← lines]
    rfl

theorem toList_instanceText (declaration : Declaration) : (instanceText declaration).toList =
    (instanceLines declaration).flatMap fun line => line.toList ++ ['\n'] := by
  simp [instanceText, String.toList_join, List.flatMap_map]

/-- **The instance is inserted**, if names are read as they stand. -/
theorem inserted_written (declaration : Declaration) :
    inserted (instanceItems declaration written) = (instanceText declaration).toList := by
  have shows (all : List Item) (final : shared all 0 = []) :
      (instanceItems declaration written).flatMap (Item.shown all) =
        (instanceText declaration).toList := by
    rw [toList_instanceText, instanceLines, instanceItems]
    simp only [List.flatMap_append, shown_parameterItems, shown_portItems, List.flatMap_cons,
      List.cons_append, flatMap_shown_chars]
    cases declaration.parameters with
    | nil => simp [written, Item.shown, final]
    | cons first rest => simp [written, Item.shown, final]
  exact shows _ (shared_zero (places_written declaration))

theorem NamesInert.renders {declaration : Declaration} (h : NamesInert declaration) :
    Renders declaration where
  places := by rw [h.namesReadAs.readInstance_eq, places_written]
  text := by rw [h.namesReadAs.readInstance_eq, inserted_written]

/-! ## Identifiers -/

/-- All names are identifiers that are not escaped. -/
structure NamesPlain (declaration : Declaration) : Prop where
  name : declaration.name.toList.all Hdl.isIdentifierChar = true
  parameters : ∀ p ∈ declaration.parameters, p.name.toList.all Hdl.isIdentifierChar = true
  ports : ∀ port ∈ declaration.ports, port.toList.all Hdl.isIdentifierChar = true

/-- What a name is read as, whatever separates it from what follows. -/
structure ReadApart (name : String) (items : List Item) : Prop where
  reads : ∀ frames next rest, separates next = true → Reads frames name.toList items (next :: rest)
  inert : places items = [] → ∀ next, separates next = true → inert next name.toList = true

theorem exists_readApart (name : String) :
    ∃ items, name.toList.all Hdl.isIdentifierChar = true → ReadApart name items := by
  by_cases plain : name.toList.all Hdl.isIdentifierChar = true
  · obtain ⟨items, reads, inert⟩ := exists_reads_identifier plain
    exact ⟨items, fun _ => ⟨reads, inert⟩⟩
  · exact ⟨[], fun other => absurd other plain⟩

/-- The places in the names of a declaration, besides those of the snippet. -/
def strayPlaces (declaration : Declaration) (names : String → List Item) :
    List (Label × List Char) :=
  places (names declaration.name) ++
    ((declaration.parameters.flatMap fun p => places (names p.name)) ++
      declaration.ports.flatMap fun port => places (names port) ++ places (names port))

theorem length_flatMap_zipIdx {α β : Type} (entries : List α) (number : Nat) (stray : α → List β)
    (step : α × Nat → List β) (one : ∀ entry, (step entry).length = (stray entry.1).length + 1) :
    ((entries.zipIdx number).flatMap step).length = (entries.flatMap stray).length + entries.length := by
  induction entries generalizing number with
  | nil => rfl
  | cons entry rest ih =>
      have first : (step (entry, number)).length = (stray entry).length + 1 := one (entry, number)
      rw [List.zipIdx_cons, List.flatMap_cons, List.flatMap_cons, List.length_append,
        List.length_append, List.length_cons, ih]
      omega

/-- **Every place in a name is one more in the snippet.** -/
theorem length_places_instanceItems (declaration : Declaration) (names : String → List Item) :
    (places (instanceItems declaration names)).length =
      (strayPlaces declaration names).length + (initialTexts declaration).length + 1 := by
  have parameters := length_flatMap_zipIdx declaration.parameters 1
    (fun p => places (names p.name))
    (fun (p, number) => places (names p.name) ++ [(.number number, p.default.toList)]) (by simp)
  have ports := length_flatMap_zipIdx declaration.ports (declaration.parameters.length + 2)
    (fun port => places (names port) ++ places (names port))
    (fun (port, number) =>
      places (names port) ++ (.number number, inserted (names port)) :: places (names port))
    (by simp [Nat.add_assoc])
  rw [places_instanceItems, places_parameterItems, places_portItems, strayPlaces, initialTexts]
  simp only [List.length_append, List.length_cons, List.length_nil, List.length_map, parameters,
    ports]
  omega

/-- **Among identifiers, only names without signs are read as they stand.** -/
theorem NamesPlain.inert_of_renders {declaration : Declaration} (plain : NamesPlain declaration)
    (renders : Renders declaration) : NamesInert declaration := by
  choose names apart using exists_readApart
  have name := apart _ plain.name
  have parameters (p) (member : p ∈ declaration.parameters) := apart _ (plain.parameters p member)
  have ports (port) (member : port ∈ declaration.ports) := apart _ (plain.ports port member)
  have readAs : NamesReadAs declaration names :=
    { name := fun rest => name.reads _ _ rest (by decide)
      parameters := fun p member rest => (parameters p member).reads _ _ rest (by decide)
      ports := fun port member =>
        ⟨fun rest => (ports port member).reads _ _ rest (by decide),
          fun frame rest => (ports port member).reads _ _ rest (by decide)⟩ }
  have count := length_places_instanceItems declaration names
  rw [← readAs.readInstance_eq, renders.places, List.length_append, List.length_map,
    List.length_zipIdx, List.length_singleton] at count
  have noStray : strayPlaces declaration names = [] := List.eq_nil_of_length_eq_zero (by omega)
  rw [strayPlaces, List.append_eq_nil_iff, List.append_eq_nil_iff, List.flatMap_eq_nil_iff,
    List.flatMap_eq_nil_iff] at noStray
  obtain ⟨ofName, ofParameters, ofPorts⟩ := noStray
  refine ⟨name.inert ofName _ (by decide), fun p member =>
    (parameters p member).inert (ofParameters p member) _ (by decide), fun port member => ?_⟩
  have none_ := (List.append_eq_nil_iff.1 (ofPorts port member)).1
  refine ⟨(ports port member).inert none_ _ (by decide),
    (ports port member).inert none_ _ (by decide), fun brace => ?_⟩
  exact absurd (List.all_eq_true.1 (plain.ports port member) _ brace) (by decide)

/-- **Which snippets become the instance.** Those of declarations in whose names no sign begins do.
Where all names are identifiers that are not escaped, no others do: a dollar sign that a letter, a
digit or an underscore follows is a place in the snippet. -/
theorem renders_iff_inert (declaration : Declaration) :
    (NamesInert declaration → Renders declaration) ∧
      (NamesPlain declaration → (Renders declaration ↔ NamesInert declaration)) :=
  ⟨NamesInert.renders, fun plain => ⟨plain.inert_of_renders, NamesInert.renders⟩⟩

/-- A declaration with names of all kinds: an escaped one, and dollar signs that mean nothing. -/
def harmlessNames : Declaration :=
  ⟨"\\fifo+", .module, .ofString "/p/fifo.sv", default, [⟨"T", "$bits(\x7ba\x7d)"⟩, ⟨"N$", "1"⟩],
    ["clk", "q$"]⟩

/-- A declaration with a dollar sign in its name and one in its port. -/
def dollarNames : Declaration :=
  ⟨"u$1", .module, .ofString "/p/m.sv", default, [], ["a$b"]⟩

theorem renders_of_harmlessNames :
    (NamesInert harmlessNames ∧ Renders harmlessNames) ∧
      (NamesPlain dollarNames ∧ (Renders dollarNames ↔ NamesInert dollarNames)) :=
  have inert : NamesInert harmlessNames := ⟨by decide, by decide, by decide⟩
  have plain : NamesPlain dollarNames := ⟨by decide, by decide, by decide⟩
  ⟨⟨inert, (renders_iff_inert harmlessNames).1 inert⟩,
    ⟨plain, (renders_iff_inert dollarNames).2 plain⟩⟩

/-- **Dollar signs in names are places.** The first place is there twice, and the port is connected
under another name. -/
theorem dollar_names_are_places :
    (renderAll (instantiation dollarNames)) =
        "u$1 $\x7b1:instance_name\x7d (\n  .a$b($\x7b2:a$b\x7d)\n);\n$0" ∧
      (places (readInstance dollarNames)).map Prod.fst =
        [.number 1, .number 1, .word ['b'], .number 2, .word ['b'], .number 0] ∧
      instanceText dollarNames = "u$1 instance_name (\n  .a$b(a$b)\n);\n" ∧
      ¬Renders dollarNames := by
  have read : (places (readInstance dollarNames)).map Prod.fst =
      [.number 1, .number 1, .word ['b'], .number 2, .word ['b'], .number 0] := by decide +kernel
  refine ⟨by decide +kernel, read, by decide +kernel, fun renders => ?_⟩
  rw [renders.places] at read
  exact absurd read (by decide +kernel)

end SvServer.Completion
