import SvServer.Documents
import SvServer.Proofs.PathSet

/-!
# Open documents

What a store holds after documents were opened. Opening the documents of a store one by one, in a
store that holds nothing, gives the same buffers again, under the same spellings of their paths.
Only their revisions may be others.
-/

namespace SvServer

namespace PathMap

variable {β γ : Type}

theorem getKey?_put (table : PathMap β) (path other : Path) (value : β) :
    (table.put path value).getKey? other =
      if path == other then some (table.getKeyD path path) else table.getKey? other := by
  rw [put, Std.ExtTreeMap.getKey?_insert, Path.ite_compare,
    BEq.congr_left (getKeyD_beq table path)]

/-- Tables that spell the same keys list the same keys. -/
theorem keys_eq_of_getKey? {table : PathMap β} {table' : PathMap γ}
    (same : ∀ path, table.getKey? path = table'.getKey? path) : table.keys = table'.keys := by
  have keys : table.map (fun _ _ => ()) = table'.map (fun _ _ => ()) := by
    apply Std.ExtTreeMap.ext_getKey?_unit
    intro path
    rw [Std.ExtTreeMap.getKey?_map, Std.ExtTreeMap.getKey?_map, same]
  have listed := congrArg Std.ExtTreeMap.keys keys
  rwa [Std.ExtTreeMap.keys_map, Std.ExtTreeMap.keys_map] at listed

theorem isSome_getElem? (table : PathMap β) (path : Path) :
    table[path]?.isSome = (table.getKey? path).isSome := by
  rw [Bool.eq_iff_iff, Std.ExtTreeMap.isSome_getElem?_iff_mem,
    Std.ExtTreeMap.isSome_getKey?_iff_mem]

theorem getKey?_congr (table : PathMap β) {a b : Path} (same : (a == b) = true) :
    table.getKey? a = table.getKey? b :=
  Std.ExtTreeMap.getKey?_congr (Path.compare_eq_of_beq same)

theorem beq_of_getKey? {table : PathMap β} {path key : Path}
    (spelled : table.getKey? path = some key) : (path == key) = true := by
  have same : (table.getKey? path).all (compare · path = .eq) = true :=
    Std.ExtTreeMap.compare_getKey?_self
  rw [spelled, Option.all_some, decide_eq_true_eq] at same
  exact BEq.symm (Path.beq_iff.2 (Path.compare_eq_iff.1 same))

theorem getKey?_of_mem_toList {table : PathMap β} {entry : Path × β}
    (listed : entry ∈ table.toList) : table.getKey? entry.1 = some entry.1 :=
  (Std.ExtTreeMap.mem_toList_iff_getKey?_eq_some_and_getElem?_eq_some.1 listed).1

end PathMap

namespace Documents

/-- The same buffers: the same paths, in the same spellings, with the same texts. -/
structure SameBuffers (a b : Documents) : Prop where
  paths : b.paths = a.paths
  text : ∀ path, b.text? path = a.text? path

theorem text?_openDocument (documents : Documents) (path : Path) (text : String) (version : Int)
    (other : Path) : (documents.openDocument path text version).text? other =
      if path == other then some text else documents.text? other := by
  rw [text?, get?, openDocument, PathMap.getElem?_put, apply_ite (Option.map Document.text)]
  rfl

/-- Opens documents one by one. -/
def openAll (documents : Documents) (entries : List (Path × Document)) : Documents :=
  entries.foldl (fun documents entry =>
    documents.openDocument entry.1 entry.2.text entry.2.version) documents

theorem text?_of_mem {documents : Documents} {entry : Path × Document}
    (listed : entry ∈ documents.table.toList) {path : Path} (same : (entry.1 == path) = true) :
    documents.text? path = some entry.2.text := by
  rw [text?, get?, ← PathMap.getElem?_congr _ same, PathMap.getElem?_of_mem_toList listed]
  rfl

theorem text?_openAll (documents : Documents) (path : Path) :
    (empty.openAll documents.table.toList).text? path = documents.text? path := by
  have writes : ∀ (documents : Documents) (entry : Path × Document) path,
      (documents.openDocument entry.1 entry.2.text entry.2.version).text? path =
        if entry.1 == path then some entry.2.text else documents.text? path :=
    fun documents entry => text?_openDocument documents entry.1 entry.2.text entry.2.version
  by_cases present : ∃ entry ∈ documents.table.toList, (entry.1 == path) = true
  · obtain ⟨entry, listed, same, text⟩ := read_foldl_of_present text? _ writes present empty
    rw [openAll, text, text?_of_mem listed same]
  · have absent : ∀ entry ∈ documents.table.toList, (entry.1 == path) = false := by
      intro entry listed
      rw [Bool.eq_false_iff]
      exact fun same => present ⟨entry, listed, same⟩
    rw [openAll, read_foldl_of_absent text? _ writes absent empty, text?, text?]
    cases stored : documents.get? path with
    | none => rfl
    | some document =>
        obtain ⟨key, same, listed⟩ := PathMap.exists_mem_toList stored
        exact absurd (absent _ listed) (by simpa using BEq.symm same)

/-- Documents are opened under the spellings that are given. -/
theorem spelled_openAll {entries : List (Path × Document)} {path key : Path}
    (spelled : (empty.openAll entries).table.getKey? path = some key) :
    key ∈ entries.map Prod.fst := by
  have all : ∀ path key, (empty.openAll entries).table.getKey? path = some key →
      key ∈ entries.map Prod.fst := by
    refine List.foldlRecOn (motive := fun documents : Documents =>
      ∀ path key, documents.table.getKey? path = some key → key ∈ entries.map Prod.fst)
      entries _ (fun path key none => absurd none nofun) fun documents known entry listed => ?_
    intro path key spelled
    rw [openDocument, PathMap.getKey?_put] at spelled
    split at spelled
    · -- A path that is there already keeps its spelling.
      rw [← Option.some.inj spelled]
      cases held : documents.table.getKey? entry.1 with
      | none =>
          rw [Std.ExtTreeMap.getKeyD_eq_getD_getKey?, held]
          exact List.mem_map_of_mem listed
      | some before =>
          rw [Std.ExtTreeMap.getKeyD_eq_getD_getKey?, held]
          exact known entry.1 before held
    · exact known path key spelled
  exact all path key spelled

/-- **Opening the documents of a store gives the same buffers.** -/
theorem sameBuffers_openAll (documents : Documents) :
    documents.SameBuffers (empty.openAll documents.table.toList) where
  text := text?_openAll documents
  paths := by
    apply PathMap.keys_eq_of_getKey?
    intro path
    let opened := empty.openAll documents.table.toList
    have held : (opened.table.getKey? path).isSome = (documents.table.getKey? path).isSome := by
      have text := congrArg Option.isSome (text?_openAll documents path)
      rwa [text?, text?, Option.isSome_map, Option.isSome_map, get?, get?,
        PathMap.isSome_getElem?, PathMap.isSome_getElem?] at text
    cases spelled : opened.table.getKey? path with
    | none =>
        rw [spelled] at held
        exact (Option.not_isSome_iff_eq_none.1 (by rw [← held]; decide)).symm
    | some key =>
        -- The store has the entry under the spelling that it was opened with.
        obtain ⟨entry, listed, rfl⟩ := List.mem_map.1 (spelled_openAll spelled)
        rw [PathMap.getKey?_congr _ (PathMap.beq_of_getKey? spelled)]
        exact (PathMap.getKey?_of_mem_toList listed).symm

end Documents

end SvServer
