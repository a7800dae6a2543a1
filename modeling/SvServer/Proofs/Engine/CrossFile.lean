import SvServer.Proofs.Diagnostic
import SvServer.Proofs.Engine.Places

/-!
# What the checks over a project report

A name that is declared at several places is reported once at each of them, and an instance whose
target no leading declaration makes known is reported once. The diagnostics are kept by file; those of
both checks together are all that the table has for a file.
-/

namespace SvServer.CrossFile

variable {a b : Declaration}

/-! ## Names that are declared twice -/

/-- The name of the declaration is declared at another place too. -/
def Repeated (declarations : List Declaration) (d : Declaration) : Prop :=
  d ∈ declarations ∧ ∃ other ∈ declarations, other.name = d.name ∧ samePlace other d = false

/-- The diagnostic says of the name of a declaration, at its place, that it is declared elsewhere
too. -/
structure Reports (diagnostic : Diagnostic) (d : Declaration) : Prop where
  path : (diagnostic.path == d.path) = true
  range : diagnostic.range = d.range
  severity : diagnostic.severity = .error
  name : diagnostic.name = .redefinition
  message : ∃ kind other, diagnostic.message = (Finding.redeclared kind d.name other).message

theorem reports_located (d : Declaration) (other : String) :
    Reports ((Finding.redeclared d.kind d.name other).located d.path d.range) d :=
  ⟨BEq.rfl, rfl, rfl, rfl, ⟨d.kind, other, rfl⟩⟩

/-- Where and of which name a diagnostic reports does not depend on which of the declarations at the
place is taken. -/
theorem Reports.congr {diagnostic : Diagnostic} (h : Reports diagnostic a) (name : a.name = b.name)
    (place : samePlace a b = true) : Reports diagnostic b := by
  obtain ⟨path, range⟩ := samePlace_iff.1 place
  exact ⟨BEq.trans h.path path, h.range.trans range, h.severity, h.name, name ▸ h.message⟩

/-! A message is taken apart at its blanks. -/

theorem eq_of_append_blank {word word' rest rest' : List Char}
    (whole : ∀ c ∈ word, Text.isAsciiBlank c = false)
    (whole' : ∀ c ∈ word', Text.isAsciiBlank c = false)
    (same : word ++ ' ' :: rest = word' ++ ' ' :: rest') : word = word' ∧ rest = rest' := by
  have front : ∀ {word rest : List Char}, (∀ c ∈ word, Text.isAsciiBlank c = false) →
      (word ++ ' ' :: rest).takeWhile (fun c => !Text.isAsciiBlank c) = word := by
    intro word rest whole
    rw [List.takeWhile_append_of_pos fun c member => by rw [whole c member]; rfl]
    exact List.append_nil word
  have words := congrArg (List.takeWhile fun c => !Text.isAsciiBlank c) same
  rw [front whole, front whole'] at words
  subst words
  exact ⟨rfl, (List.cons.inj (List.append_cancel_left same)).2⟩

theorem isAsciiBlank_of_kind (kind : Hdl.DesignElement) :
    ∀ c ∈ kind.text.toList, Text.isAsciiBlank c = false := by
  have none : kind.text.toList.any Text.isAsciiBlank = false := by cases kind <;> rfl
  exact fun c member => (Bool.not_eq_true _).mp (List.any_eq_false.1 none c member)

/-- The message in words: the kind, the name in quotes, and the rest. -/
theorem toList_message (kind : Hdl.DesignElement) (name other : String) :
    (Finding.redeclared kind name other).message.toList = kind.text.toList ++ ' ' ::
      (('\'' :: (name.toList ++ ['\''])) ++ ' ' ::
        ("is already declared in ".toList ++ other.toList)) := by
  have message : (Finding.redeclared kind name other).message =
      kind.text ++ " " ++ ("'" ++ name ++ "'") ++ " is already declared in " ++ other := rfl
  have quote : "'".toList = ['\''] := rfl
  have blank : " ".toList = [' '] := rfl
  have tail : " is already declared in ".toList = ' ' :: "is already declared in ".toList := by
    decide
  rw [message]
  simp only [String.toList_append, quote, blank, tail, List.append_assoc, List.cons_append,
    List.nil_append]

/-- **The message about a name tells which name it is.** -/
theorem name_of_message {kind kind' : Hdl.DesignElement} {name name' other other' : String}
    (whole : ∀ c ∈ name.toList, Text.isAsciiBlank c = false)
    (whole' : ∀ c ∈ name'.toList, Text.isAsciiBlank c = false)
    (same : (Finding.redeclared kind name other).message =
      (Finding.redeclared kind' name' other').message) : name = name' := by
  have quoted : ∀ {name : String}, (∀ c ∈ name.toList, Text.isAsciiBlank c = false) →
      ∀ c ∈ '\'' :: (name.toList ++ ['\'']), Text.isAsciiBlank c = false := by
    intro name whole c member
    rcases List.mem_cons.1 member with rfl | member
    · rfl
    · rcases List.mem_append.1 member with member | member
      · exact whole c member
      · rw [List.mem_singleton.1 member]
        rfl
  have lists := congrArg String.toList same
  rw [toList_message, toList_message] at lists
  have rest := (eq_of_append_blank (isAsciiBlank_of_kind kind) (isAsciiBlank_of_kind kind') lists).2
  have words := (eq_of_append_blank (quoted whole) (quoted whole') rest).1
  exact String.toList_inj.1 (List.append_cancel_right (List.cons.inj words).2)

/-- **A diagnostic reports on one name at one place.** -/
theorem Reports.unique {diagnostic : Diagnostic}
    (whole : ∀ c ∈ a.name.toList, Text.isAsciiBlank c = false)
    (whole' : ∀ c ∈ b.name.toList, Text.isAsciiBlank c = false)
    (h : Reports diagnostic a) (h' : Reports diagnostic b) :
    a.name = b.name ∧ samePlace a b = true := by
  obtain ⟨kind, other, message⟩ := h.message
  obtain ⟨kind', other', message'⟩ := h'.message
  exact ⟨name_of_message whole whole' (message.symm.trans message'),
    samePlace_iff.2 ⟨BEq.trans (BEq.symm h.path) h'.path, h.range.symm.trans h'.range⟩⟩

/-- The diagnostics for the names that are declared at several places. -/
def repetitions (declarations : List Declaration) : List Diagnostic :=
  (declaredPlaces declarations).flatMap fun (_, declared) => redefinitions declared

theorem reports_of_mem_redefinitions {places : List Declaration} {diagnostic : Diagnostic}
    (h : diagnostic ∈ redefinitions places) :
    2 ≤ places.length ∧ ∃ place ∈ places, Reports diagnostic place := by
  rw [redefinitions] at h
  split at h
  · exact absurd h List.not_mem_nil
  · rename_i several
    obtain ⟨place, member, rfl⟩ := List.mem_map.1 h
    exact ⟨Nat.le_of_not_lt several, place, member, reports_located place _⟩

theorem exists_mem_redefinitions {places : List Declaration} (several : 2 ≤ places.length)
    {place : Declaration} (member : place ∈ places) :
    ∃ diagnostic ∈ redefinitions places, Reports diagnostic place := by
  rw [redefinitions, if_neg (Nat.not_lt.2 several)]
  exact ⟨_, List.mem_map_of_mem member, reports_located place _⟩

theorem mem_repetitions {declarations : List Declaration} {diagnostic : Diagnostic} :
    diagnostic ∈ repetitions declarations ↔ ∃ name, (∃ d ∈ declarations, d.name = name) ∧
      diagnostic ∈ redefinitions (placesOf declarations name) := by
  rw [repetitions, declaredPlaces_eq, List.flatMap_map, List.mem_flatMap]
  simp only [mem_declaredNames]

theorem two_le_length {list : List Declaration} (ha : a ∈ list) (hb : b ∈ list) (ne : a ≠ b) :
    2 ≤ list.length := by
  match list with
  | [] => exact absurd ha List.not_mem_nil
  | [c] => exact absurd ((List.mem_singleton.1 ha).trans (List.mem_singleton.1 hb).symm) ne
  | _ :: _ :: _ => exact Nat.le_add_left 2 _

/-- In a list of two or more of which no two are the same, each has another one. -/
theorem exists_other {list : List Declaration} (several : 2 ≤ list.length)
    (apart : list.Pairwise fun a b => samePlace a b = false) (h : a ∈ list) :
    ∃ other ∈ list, samePlace other a = false := by
  match list with
  | first :: second :: rest =>
      have below := (List.pairwise_cons.1 apart).1
      rcases List.mem_cons.1 h with rfl | h
      · exact ⟨second, .tail _ (.head _), by rw [samePlace_comm]; exact below second (.head _)⟩
      · exact ⟨first, .head _, below a h⟩

section

variable {declarations : List Declaration} (settled : Settled declarations)

include settled

/-- **Every repeated name is reported at each of its places.** -/
theorem exists_mem_repetitions {d : Declaration} (h : Repeated declarations d) :
    ∃ diagnostic ∈ repetitions declarations, Reports diagnostic d := by
  obtain ⟨member, other, member', name, apart⟩ := h
  obtain ⟨first, leads, firstName, place⟩ := exists_leads member
  obtain ⟨second, leads', secondName, place'⟩ := exists_leads member'
  have differ : first ≠ second := by
    rintro rfl
    rw [samePlace_trans ((samePlace_comm _ _).trans place') place] at apart
    cases apart
  have here := (mem_placesOf settled).2 ⟨leads, firstName⟩
  have there := (mem_placesOf settled).2 ⟨leads', secondName.trans name⟩
  obtain ⟨diagnostic, listed, reports⟩ :=
    exists_mem_redefinitions (two_le_length here there differ) here
  exact ⟨diagnostic, mem_repetitions.2 ⟨d.name, ⟨d, member, rfl⟩, listed⟩,
    reports.congr firstName place⟩

/-- **Nothing else is reported.** -/
theorem repeated_of_mem_repetitions {diagnostic : Diagnostic}
    (h : diagnostic ∈ repetitions declarations) :
    ∃ d, Repeated declarations d ∧ Reports diagnostic d := by
  obtain ⟨name, -, listed⟩ := mem_repetitions.1 h
  obtain ⟨several, place, member, reports⟩ := reports_of_mem_redefinitions listed
  obtain ⟨other, member', apart⟩ := exists_other several (pairwise_placesOf settled) member
  obtain ⟨leads, here⟩ := (mem_placesOf settled).1 member
  obtain ⟨leads', there⟩ := (mem_placesOf settled).1 member'
  exact ⟨place, ⟨leads.mem, other, leads'.mem, there.trans here.symm, apart⟩, reports⟩

/-- **Nothing is reported twice.** -/
theorem pairwise_repetitions (words : OneWord declarations) :
    (repetitions declarations).Pairwise fun a b => ¬∃ d ∈ declarations, Reports a d ∧ Reports b d := by
  rw [repetitions, declaredPlaces_eq, List.flatMap_map, List.pairwise_flatMap]
  constructor
  · intro name _
    show (redefinitions (placesOf declarations name)).Pairwise _
    rw [redefinitions]
    split
    · exact .nil
    · refine List.pairwise_map.2 ((pairwise_placesOf settled).imp fun {a b} apart => ?_)
      rintro ⟨d, -, reports, reports'⟩
      have place := samePlace_iff.2 ⟨BEq.trans reports.path (BEq.symm reports'.path),
        reports.range.trans reports'.range.symm⟩
      rw [show samePlace a b = true from place] at apart
      cases apart
  · refine (nodup_declaredNames declarations).imp fun {name name'} differ x hx y hy => ?_
    rintro ⟨d, member, reports, reports'⟩
    obtain ⟨-, place, listed, about⟩ := reports_of_mem_redefinitions hx
    obtain ⟨-, place', listed', about'⟩ := reports_of_mem_redefinitions hy
    obtain ⟨leads, here⟩ := (mem_placesOf settled).1 listed
    obtain ⟨leads', there⟩ := (mem_placesOf settled).1 listed'
    refine differ ?_
    rw [← here, ← there, (about.unique (words _ leads.mem) (words _ member) reports).1,
      (about'.unique (words _ leads'.mem) (words _ member) reports').1]

end

/-! ## Tables of diagnostics -/

/-- The diagnostics that a table has for a file. -/
def entriesOf (table : PathMap (List Diagnostic)) (path : Path) : List Diagnostic :=
  table[path]?.getD []

theorem entriesOf_empty (path : Path) : entriesOf ∅ path = [] := rfl

theorem entriesOf_congr (table : PathMap (List Diagnostic)) {path other : Path}
    (same : (path == other) = true) : entriesOf table path = entriesOf table other := by
  rw [entriesOf, entriesOf, PathMap.getElem?_congr _ same]

theorem entriesOf_add (table : PathMap (List Diagnostic)) (diagnostic : Diagnostic) (path : Path) :
    entriesOf (add table diagnostic) path = entriesOf table path ++
      if diagnostic.path == path then [diagnostic] else [] := by
  rw [entriesOf, add, PathMap.getElem?_put]
  split
  · rename_i here
    rw [entriesOf, ← PathMap.getElem?_congr table here]
    rfl
  · exact (List.append_nil _).symm

theorem entriesOf_foldl_add (table : PathMap (List Diagnostic)) (found : List Diagnostic)
    (path : Path) : entriesOf (found.foldl add table) path =
      entriesOf table path ++ found.filter (·.path == path) := by
  induction found generalizing table with
  | nil => exact (List.append_nil _).symm
  | cons first rest ih =>
      rw [List.foldl_cons, ih, entriesOf_add, List.append_assoc, List.filter_cons]
      split <;> rfl

theorem entriesOf_addNew (table : PathMap (List Diagnostic)) (diagnostic : Diagnostic)
    (path : Path) : entriesOf (addNew table diagnostic) path = entriesOf table path ++
      if diagnostic.path == path && !(entriesOf table path).contains diagnostic then [diagnostic]
      else [] := by
  have here : diagnostic.path == path → (table[diagnostic.path]?.getD []) = entriesOf table path :=
    fun same => entriesOf_congr table same
  rw [addNew]
  cases same : diagnostic.path == path with
  | false =>
      rw [Bool.false_and, if_neg Bool.false_ne_true]
      split
      · exact (List.append_nil _).symm
      · rw [entriesOf_add, same, if_neg Bool.false_ne_true]
  | true =>
      rw [here same, Bool.true_and]
      split
      · rename_i there
        rw [there, Bool.not_true, if_neg Bool.false_ne_true, List.append_nil]
      · rename_i fresh
        rw [entriesOf_add, same, if_pos rfl, (Bool.not_eq_true _).mp fresh, Bool.not_false,
          if_pos rfl]

theorem entriesOf_map_sort (table : PathMap (List Diagnostic)) (path : Path) :
    entriesOf (table.map fun _ found => Diagnostic.sort found) path =
      Diagnostic.sort (entriesOf table path) := by
  rw [entriesOf, PathMap.getElem?_mapValues, entriesOf]
  cases table[path]? with
  | none => exact List.mergeSort_nil.symm
  | some found => rfl

/-- What a series of additions brings to a file: each diagnostic once. -/
structure News (old found news : List Diagnostic) (path : Path) : Prop where
  only : ∀ d ∈ news, d ∈ found ∧ (d.path == path) = true
  all : ∀ d ∈ found, (d.path == path) = true → ∃ e ∈ old ++ news, (d == e) = true
  once : news.Pairwise fun a b => (a == b) = false
  fresh : ∀ d ∈ news, old.contains d = false

/-- One more addition, before the others. -/
theorem News.cons {old found news : List Diagnostic} {path : Path} {first : Diagnostic}
    (h : News (old ++ if first.path == path && !old.contains first then [first] else []) found news
      path) :
    News old (first :: found)
      ((if first.path == path && !old.contains first then [first] else []) ++ news) path := by
  cases taken : first.path == path && !old.contains first with
  | false =>
      rw [taken, if_neg Bool.false_ne_true, List.append_nil] at h
      rw [if_neg Bool.false_ne_true, List.nil_append]
      refine ⟨fun d member => (h.only d member).imp_left (.tail _), fun d member here => ?_,
        h.once, h.fresh⟩
      rcases List.mem_cons.1 member with rfl | member
      · rw [here, Bool.true_and, Bool.not_eq_false', List.contains_iff_exists_mem_beq] at taken
        obtain ⟨e, listed, same⟩ := taken
        exact ⟨e, List.mem_append_left _ listed, same⟩
      · exact h.all d member here
  | true =>
      rw [taken, if_pos rfl] at h
      rw [if_pos rfl]
      rw [Bool.and_eq_true, Bool.not_eq_true'] at taken
      have apart : ∀ d ∈ news, old.contains d = false ∧ (d == first) = false := by
        intro d member
        have fresh := h.fresh d member
        rw [List.contains_append, Bool.or_eq_false_iff] at fresh
        exact ⟨fresh.1, by simpa using fresh.2⟩
      refine ⟨fun d member => ?_, fun d member here => ?_, ?_, fun d member => ?_⟩
      · rcases List.mem_cons.1 member with rfl | member
        · exact ⟨.head _, taken.1⟩
        · exact (h.only d member).imp_left (.tail _)
      · rcases List.mem_cons.1 member with rfl | member
        · exact ⟨d, List.mem_append_right _ (.head _), BEq.rfl⟩
        · rw [← List.append_assoc]
          exact h.all d member here
      · exact List.pairwise_cons.2 ⟨fun d member => by rw [BEq.comm, (apart d member).2], h.once⟩
      · rcases List.mem_cons.1 member with rfl | member
        · exact taken.2
        · exact (apart d member).1

theorem exists_news (table : PathMap (List Diagnostic)) (found : List Diagnostic) (path : Path) :
    ∃ news, entriesOf (found.foldl addNew table) path = entriesOf table path ++ news ∧
      News (entriesOf table path) found news path := by
  induction found generalizing table with
  | nil => exact ⟨[], (List.append_nil _).symm, ⟨nofun, nofun, .nil, nofun⟩⟩
  | cons first rest ih =>
      obtain ⟨news, entries, h⟩ := ih (addNew table first)
      rw [entriesOf_addNew] at entries h
      exact ⟨_, by rw [List.foldl_cons, entries, List.append_assoc], h.cons⟩

/-! ## Exact reports -/

/-- The diagnostic says of an instance, at its place, that its target is unknown. -/
structure Marks (diagnostic : Diagnostic) (i : Instantiation) : Prop where
  path : (diagnostic.path == i.path) = true
  range : diagnostic.range = i.range
  severity : diagnostic.severity = .error
  name : diagnostic.name = .unknownModule
  message : diagnostic.message = (Finding.unknownModule i.target).message

theorem marks_located (i : Instantiation) :
    Marks ((Finding.unknownModule i.target).located i.path i.range) i :=
  ⟨BEq.rfl, rfl, rfl, rfl, rfl⟩

variable {diagnostic other : Diagnostic}

theorem Reports.of_beq {d : Declaration} (h : Reports diagnostic d)
    (same : (diagnostic == other) = true) : Reports other d := by
  obtain ⟨path, range, severity, name, message⟩ := Diagnostic.beq_iff_parts.1 same
  exact ⟨BEq.trans (BEq.symm path) h.path, range ▸ h.range, severity ▸ h.severity, name ▸ h.name,
    message ▸ h.message⟩

theorem Marks.of_beq {i : Instantiation} (h : Marks diagnostic i)
    (same : (diagnostic == other) = true) : Marks other i := by
  obtain ⟨path, range, severity, name, message⟩ := Diagnostic.beq_iff_parts.1 same
  exact ⟨BEq.trans (BEq.symm path) h.path, range ▸ h.range, severity ▸ h.severity, name ▸ h.name,
    message ▸ h.message⟩

theorem Marks.beq {i : Instantiation} (h : Marks diagnostic i) (h' : Marks other i) :
    (diagnostic == other) = true :=
  Diagnostic.beq_iff_parts.2 ⟨BEq.trans h.path (BEq.symm h'.path), h.range.trans h'.range.symm,
    h.severity.trans h'.severity.symm, h.name.trans h'.name.symm, h.message.trans h'.message.symm⟩

/-- Two diagnostics are about the same name at the same place. -/
def Twice (declarations : List Declaration) (a b : Diagnostic) : Prop :=
  (∃ d ∈ declarations, Reports a d ∧ Reports b d) ∨ ∃ i, Marks a i ∧ Marks b i

theorem Twice.symm {declarations : List Declaration} {a b : Diagnostic}
    (h : Twice declarations a b) : Twice declarations b a :=
  h.imp (fun ⟨d, member, reports, reports'⟩ => ⟨d, member, reports', reports⟩)
    fun ⟨i, marks, marks'⟩ => ⟨i, marks', marks⟩

theorem Twice.isCrossFile {declarations : List Declaration} {a b : Diagnostic}
    (h : Twice declarations a b) : a.name.isCrossFile = true := by
  rcases h with ⟨d, -, reports, -⟩ | ⟨i, marks, -⟩
  · rw [reports.name]
    rfl
  · rw [marks.name]
    rfl

/-- **What is found in the files** of a project about its declarations and instances: each repeated
name once at each of its places, each instance of a name that is not known once, and nothing else. -/
structure Exact (declarations : List Declaration) (instantiations : List Instantiation)
    (found : Path → List Diagnostic) : Prop where
  repeated : ∀ d, Repeated declarations d → ∃ diagnostic ∈ found d.path, Reports diagnostic d
  unknown : ∀ i ∈ instantiations, ¬Known declarations i.target →
    ∃ diagnostic ∈ found i.path, Marks diagnostic i
  only : ∀ path, ∀ diagnostic ∈ found path, diagnostic.name.isCrossFile = true →
    (diagnostic.path == path) = true ∧ ((∃ d, Repeated declarations d ∧ Reports diagnostic d) ∨
      ∃ i ∈ instantiations, ¬Known declarations i.target ∧ Marks diagnostic i)
  once : ∀ path, (found path).Pairwise fun a b => ¬Twice declarations a b
  single : ∀ diagnostic, ∀ a ∈ declarations, ∀ b ∈ declarations, Reports diagnostic a →
    Reports diagnostic b → a.name = b.name ∧ samePlace a b = true

/-- The diagnostics for the instances of names that are not known. -/
def unknowns (declarations : List Declaration) (instantiations : List Instantiation) :
    List Diagnostic :=
  (instantiations.filter fun i =>
    !(instantiableNames (declaredPlaces declarations)).contains i.target).map fun i =>
      (Finding.unknownModule i.target).located i.path i.range

theorem mem_unknowns {declarations : List Declaration} (settled : Settled declarations)
    {instantiations : List Instantiation} :
    diagnostic ∈ unknowns declarations instantiations ↔ ∃ i ∈ instantiations,
      ¬Known declarations i.target ∧
        (Finding.unknownModule i.target).located i.path i.range = diagnostic := by
  simp only [unknowns, List.mem_map, List.mem_filter, Bool.not_eq_true', ← Bool.not_eq_true,
    contains_instantiableNames settled, and_assoc]

/-- A table has for a file what both checks find there, in order. -/
theorem entriesOf_diagnostics (units : List UnitReport) (path : Path) : ∃ news,
    entriesOf (diagnostics units) path = Diagnostic.sort
      ((repetitions (units.flatMap UnitReport.declarations)).filter (·.path == path) ++ news) ∧
    News ((repetitions (units.flatMap UnitReport.declarations)).filter (·.path == path))
      (unknowns (units.flatMap UnitReport.declarations)
        (units.flatMap UnitReport.instantiations)) news path := by
  obtain ⟨news, entries, h⟩ := exists_news
    ((repetitions (units.flatMap UnitReport.declarations)).foldl add ∅)
    (unknowns (units.flatMap UnitReport.declarations) (units.flatMap UnitReport.instantiations)) path
  rw [entriesOf_foldl_add, entriesOf_empty, List.nil_append] at entries h
  refine ⟨news, ?_, h⟩
  rw [← entries, unknowns, List.foldl_map, diagnostics, entriesOf_map_sort]
  rfl

/-- A diagnostic about an instance is about the same as another one only if it is the same. -/
theorem not_twice_of_unknown {declarations : List Declaration}
    (unknown : other.name = .unknownModule) (differ : (diagnostic == other) = false) :
    ¬Twice declarations diagnostic other := by
  rintro (⟨d, -, -, reports⟩ | ⟨i, marks, marks'⟩)
  · exact absurd (unknown.symm.trans reports.name) nofun
  · rw [marks.beq marks'] at differ
    cases differ

section

variable {units : List UnitReport} (settled : Settled (units.flatMap UnitReport.declarations))
variable (words : OneWord (units.flatMap UnitReport.declarations))

include settled

/-- What the checks find in a file is about a repeated name or about an instance of a name that is not
known. -/
theorem about_of_mem_diagnostics {path : Path} (h : diagnostic ∈ entriesOf (diagnostics units) path) :
    (diagnostic.path == path) = true ∧
      ((∃ d, Repeated (units.flatMap UnitReport.declarations) d ∧ Reports diagnostic d) ∨
        ∃ i ∈ units.flatMap UnitReport.instantiations,
          ¬Known (units.flatMap UnitReport.declarations) i.target ∧ Marks diagnostic i) := by
  obtain ⟨news, entries, added⟩ := entriesOf_diagnostics units path
  rw [entries, Diagnostic.sort, List.mem_mergeSort, List.mem_append, List.mem_filter] at h
  rcases h with ⟨listed, here⟩ | listed
  · exact ⟨here, .inl (repeated_of_mem_repetitions settled listed)⟩
  · obtain ⟨found, here⟩ := added.only diagnostic listed
    obtain ⟨i, member, unknown, rfl⟩ := (mem_unknowns settled).1 found
    exact ⟨here, .inr ⟨i, member, unknown, marks_located i⟩⟩

include words

/-- No two of the diagnostics of the checks in a file are about the same. -/
theorem pairwise_entriesOf_diagnostics (path : Path) :
    (entriesOf (diagnostics units) path).Pairwise fun a b =>
      ¬Twice (units.flatMap UnitReport.declarations) a b := by
  obtain ⟨news, entries, added⟩ := entriesOf_diagnostics units path
  have unknown : ∀ d ∈ news, d.name = .unknownModule := by
    intro d member
    obtain ⟨i, -, -, rfl⟩ := (mem_unknowns settled).1 (added.only d member).1
    rfl
  rw [entries, Diagnostic.sort, (List.mergeSort_perm _ _).pairwise_iff fun differ twice =>
    differ twice.symm, List.pairwise_append]
  refine ⟨?_, ?_, ?_⟩
  · refine (pairwise_repetitions settled words).filter _ |>.imp_of_mem fun {a b} ha hb differ => ?_
    rintro (twice | ⟨i, marks, -⟩)
    · exact differ twice
    · obtain ⟨d, -, reports⟩ := repeated_of_mem_repetitions settled (List.mem_filter.1 ha).1
      exact absurd (reports.name.symm.trans marks.name) nofun
  · exact added.once.imp_of_mem fun _ hb differ => not_twice_of_unknown (unknown _ hb) differ
  · intro a ha b hb
    refine not_twice_of_unknown (unknown b hb) ?_
    have fresh := added.fresh b hb
    rw [Bool.eq_false_iff] at fresh ⊢
    exact fun same => fresh (List.contains_iff_exists_mem_beq.2 ⟨a, ha, BEq.symm same⟩)

/-- **The checks over a project are exact**, if its declarations are settled. -/
theorem exact_diagnostics :
    Exact (units.flatMap UnitReport.declarations) (units.flatMap UnitReport.instantiations)
      (entriesOf (diagnostics units)) where
  repeated d h := by
    obtain ⟨diagnostic, listed, reports⟩ := exists_mem_repetitions settled h
    obtain ⟨news, entries, -⟩ := entriesOf_diagnostics units d.path
    refine ⟨diagnostic, ?_, reports⟩
    rw [entries, Diagnostic.sort, List.mem_mergeSort, List.mem_append, List.mem_filter]
    exact .inl ⟨listed, reports.path⟩
  unknown i member unknown := by
    obtain ⟨news, entries, added⟩ := entriesOf_diagnostics units i.path
    obtain ⟨e, listed, same⟩ :=
      added.all _ ((mem_unknowns settled).2 ⟨i, member, unknown, rfl⟩) BEq.rfl
    refine ⟨e, ?_, (marks_located i).of_beq same⟩
    rw [entries, Diagnostic.sort, List.mem_mergeSort]
    exact listed
  only _ _ listed _ := about_of_mem_diagnostics settled listed
  once := pairwise_entriesOf_diagnostics settled words
  single _ a ha b hb reports reports' := reports.unique (words a ha) (words b hb) reports'

end

end SvServer.CrossFile
