import Mathlib.Data.List.Nodup
import Mathlib.Data.List.Perm.Subperm
import SvServer.MacroTable

/-!
# When macros change

A table made from a list of macros has every name once. Two such tables agree, in whatever order
they hold their names, exactly when every name is defined alike in both. Its names and values are
trimmed already, so that the list of its entries makes the same table again.
-/

namespace SvServer

/-- **Trimming twice is trimming once.** -/
theorem Text.trimChars_trimChars (text : List Char) :
    Text.trimChars (Text.trimChars text) = Text.trimChars text := by
  have again : ∀ row : List Char, (row.dropWhile Text.isBlank).dropWhile Text.isBlank =
      row.dropWhile Text.isBlank := by
    intro row
    induction row with
    | nil => rfl
    | cons c rest ih =>
        by_cases blank : Text.isBlank c = true
        · simpa [blank] using ih
        · simp [blank]
  -- What is left of a row without blanks in front has none in front.
  have kept : ∀ row : List Char, row.dropWhile Text.isBlank = row →
      (row.reverse.dropWhile Text.isBlank).reverse.dropWhile Text.isBlank =
        (row.reverse.dropWhile Text.isBlank).reverse := by
    intro row whole
    obtain ⟨front, cut⟩ := List.dropWhile_suffix Text.isBlank (l := row.reverse)
    generalize row.reverse.dropWhile Text.isBlank = back at cut ⊢
    have split : row = back.reverse ++ front.reverse := by
      rw [← List.reverse_append, cut, List.reverse_reverse]
    cases first : back.reverse with
    | nil => rfl
    | cons c rest =>
        rw [split, first] at whole
        by_cases blank : Text.isBlank c = true
        · rw [List.cons_append, List.dropWhile_cons_of_pos blank] at whole
          have fewer := (List.dropWhile_suffix Text.isBlank (l := rest ++ front.reverse)).length_le
          rw [whole] at fewer
          simp only [List.length_cons] at fewer
          omega
        · simp [blank]
  rw [Text.trimChars, Text.trimChars, kept _ (again text), List.reverse_reverse, again]

theorem Text.trim_trim (text : String) : Text.trim (Text.trim text) = Text.trim text := by
  rw [trim, trim, String.toList_ofList, trimChars_trimChars]

namespace MacroTable

/-- The names of a table, in its order. -/
def names (table : MacroTable) : List String := table.entries.map Prod.fst

/-- Setting an entry adds its name at the end, or leaves the names as they are. -/
theorem map_fst_setEntry (name value : String) (entries : List (String × String)) :
    (setEntry name value entries).map Prod.fst =
      if name ∈ entries.map Prod.fst then entries.map Prod.fst
      else entries.map Prod.fst ++ [name] := by
  induction entries with
  | nil => rfl
  | cons entry rest ih =>
      rw [setEntry]
      by_cases same : entry.1 = name
      · simp [same]
      · have other : ¬name = entry.1 := fun h => same h.symm
        rw [if_neg same, List.map_cons, ih]
        by_cases later : name ∈ rest.map Prod.fst
        · simp [later]
        · rw [if_neg later, if_neg]
          · rfl
          · rw [List.map_cons, List.mem_cons, not_or]
            exact ⟨other, later⟩

theorem nodup_names_add {table : MacroTable} (h : table.names.Nodup) (given : ProjectMacro) :
    (table.add given).names.Nodup := by
  rw [add]
  split
  · rw [names, insert, map_fst_setEntry]
    split
    · exact h
    · rename_i new
      rw [List.nodup_append]
      refine ⟨h, by simp, fun known member other last => ?_⟩
      rintro rfl
      exact new (List.mem_singleton.1 last ▸ member)
  · exact h

/-- **A table of a list of macros has every name once.** -/
theorem nodup_names_ofList (macros : List ProjectMacro) : (ofList macros).names.Nodup :=
  List.foldlRecOn (motive := fun table : MacroTable => table.names.Nodup) macros add List.nodup_nil
    fun _ h given _ => nodup_names_add h given

theorem mem_of_get? {table : MacroTable} {name value : String} (h : table.get? name = some value) :
    (name, value) ∈ table.entries := by
  obtain ⟨entry, found, rfl⟩ := Option.map_eq_some_iff.1 h
  have here : entry.1 = name := by simpa using List.find?_some found
  rw [← here]
  exact List.mem_of_find?_eq_some found

theorem isSome_get?_iff {table : MacroTable} {name : String} :
    (table.get? name).isSome = true ↔ name ∈ table.names := by
  rw [get?, Option.isSome_map, List.find?_isSome, names, List.mem_map]
  simp

/-- A name that stands once in a table has the value that stands beside it. -/
theorem get?_of_mem {table : MacroTable} (h : table.names.Nodup) {entry : String × String}
    (listed : entry ∈ table.entries) : table.get? entry.1 = some entry.2 := by
  have known : entry.1 ∈ table.names := List.mem_map_of_mem listed
  obtain ⟨value, found⟩ := Option.isSome_iff_exists.1 (isSome_get?_iff.2 known)
  have same : (entry.1, value) = entry :=
    List.inj_on_of_nodup_map h (mem_of_get? found) listed rfl
  rw [found, ← same]

theorem agreesWith_self {table : MacroTable} (h : table.names.Nodup) :
    table.agreesWith table = true := by
  rw [agreesWith, beq_self_eq_true, Bool.true_and, List.all_eq_true]
  intro entry listed
  simp [get?_of_mem h listed]

/-- **Tables that agree define every name alike.** -/
theorem get?_eq_of_agreesWith {a b : MacroTable} (ha : a.names.Nodup) (agree : a.agreesWith b = true)
    (name : String) : a.get? name = b.get? name := by
  rw [agreesWith, Bool.and_eq_true, beq_iff_eq, List.all_eq_true] at agree
  obtain ⟨sizes, entries⟩ := agree
  have given : ∀ other value, a.get? other = some value → b.get? other = some value :=
    fun other value found => by simpa using entries (other, value) (mem_of_get? found)
  cases known : a.get? name with
  | some value => exact (given name value known).symm
  | none =>
      -- As many names, and those of the one among those of the other: there is no further one.
      have among : a.names ⊆ b.names := by
        intro other member
        obtain ⟨value, found⟩ := Option.isSome_iff_exists.1 (isSome_get?_iff.2 member)
        rw [← isSome_get?_iff, given other value found]
        rfl
      have lengths : b.names.length ≤ a.names.length := by
        rw [names, names, List.length_map, List.length_map]
        exact Nat.le_of_eq sizes.symm
      have same := (ha.subperm among).perm_of_length_le lengths
      rw [eq_comm, ← Option.not_isSome_iff_eq_none, isSome_get?_iff, ← same.mem_iff,
        ← isSome_get?_iff, known]
      decide

/-! ## A table as a list -/

/-- Whether the entries of a table are as `add` leaves them. -/
def Settled (table : MacroTable) : Prop :=
  ∀ entry ∈ table.entries, Text.trim entry.1 = entry.1 ∧ isValidName entry.1 = true ∧
    Text.trim entry.2 = entry.2 ∧ entry.2 ≠ ""

theorem mem_setEntry {name value : String} {entry : String × String}
    {entries : List (String × String)} (h : entry ∈ setEntry name value entries) :
    entry = (name, value) ∨ entry ∈ entries := by
  induction entries with
  | nil => exact .inl (List.mem_singleton.1 h)
  | cons first rest ih =>
      rw [setEntry] at h
      split at h
      · rcases List.mem_cons.1 h with rfl | later
        · exact .inl rfl
        · exact .inr (List.mem_cons_of_mem _ later)
      · rcases List.mem_cons.1 h with rfl | later
        · exact .inr List.mem_cons_self
        · exact (ih later).imp_right (List.mem_cons_of_mem _)

theorem Settled.add {table : MacroTable} (h : table.Settled) (given : ProjectMacro) :
    (table.add given).Settled := by
  rw [MacroTable.add]
  split
  · rename_i valid
    intro entry listed
    rcases mem_setEntry listed with rfl | known
    · by_cases blank : Text.trim given.value = ""
      · rw [if_pos blank]
        have one : Text.trim "1" = "1" := by decide
        exact ⟨Text.trim_trim _, valid, one, show "1" ≠ "" by decide⟩
      · rw [if_neg blank]
        exact ⟨Text.trim_trim _, valid, Text.trim_trim _, blank⟩
    · exact h entry known
  · exact h

theorem settled_ofList (macros : List ProjectMacro) : (ofList macros).Settled :=
  List.foldlRecOn (motive := Settled) macros MacroTable.add nofun fun _ h given _ => h.add given

theorem setEntry_of_not_mem {name : String} (value : String) {entries : List (String × String)}
    (new : name ∉ entries.map Prod.fst) :
    setEntry name value entries = entries ++ [(name, value)] := by
  induction entries with
  | nil => rfl
  | cons first rest ih =>
      rw [List.map_cons, List.mem_cons, not_or] at new
      rw [setEntry, if_neg (Ne.symm new.1), ih new.2, List.cons_append]

/-- Entries are added one behind the other, as they are. -/
theorem foldl_add_entries {front rest : List (String × String)}
    (names : ((front ++ rest).map Prod.fst).Nodup) (settled : Settled ⟨rest⟩) :
    (rest.map fun entry => (⟨entry.1, entry.2⟩ : ProjectMacro)).foldl add ⟨front⟩ =
      ⟨front ++ rest⟩ := by
  induction rest generalizing front with
  | nil => simp
  | cons first more ih =>
      obtain ⟨trimmed, valid, kept, nonempty⟩ := settled first List.mem_cons_self
      have new : first.1 ∉ front.map Prod.fst := by
        rw [List.map_append, List.nodup_append] at names
        exact fun known => names.2.2 _ known _ (by simp) rfl
      have added : add ⟨front⟩ ⟨first.1, first.2⟩ = ⟨front ++ [first]⟩ := by
        rw [add]
        simp only [trimmed, valid, kept, nonempty, if_true, if_false, insert]
        rw [setEntry_of_not_mem _ new]
      rw [List.map_cons, List.foldl_cons, added, ih (by simpa using names) fun entry listed =>
        settled entry (List.mem_cons_of_mem _ listed), List.append_assoc, List.singleton_append]

/-- **The list of a table makes the same table**, in the same order. -/
theorem ofList_toList (macros : List ProjectMacro) :
    ofList (ofList macros).toList = ofList macros :=
  @foldl_add_entries [] (ofList macros).entries (nodup_names_ofList macros) (settled_ofList macros)

end MacroTable

end SvServer
