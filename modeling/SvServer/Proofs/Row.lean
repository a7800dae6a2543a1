/-!
# Rows of steps

A step leads from one state to the next and says something. After a row of steps, what was said is
what the steps said, in order.

Much of the program goes through a list and writes something down for each item. What stands at a
key in the end is what the last step wrote that hit it.
-/

namespace SvServer

namespace Row

variable {State Item Said : Type} (step : State → Item → State × List Said)

/-- The state after a row of steps. -/
def after (start : State) (row : List Item) : State :=
  row.foldl (fun state item => (step state item).1) start

/-- All that is said in a row of steps. -/
def told (start : State) : List Item → List Said
  | [] => []
  | item :: rest => (step start item).2 ++ told (step start item).1 rest

variable {step}

theorem after_append (start : State) (earlier later : List Item) :
    after step start (earlier ++ later) = after step (after step start earlier) later :=
  List.foldl_append

theorem after_concat (start : State) (row : List Item) (item : Item) :
    after step start (row ++ [item]) = (step (after step start row) item).1 :=
  after_append start row [item]

theorem told_append (start : State) (earlier later : List Item) :
    told step start (earlier ++ later) =
      told step start earlier ++ told step (after step start earlier) later := by
  induction earlier generalizing start with
  | nil => rfl
  | cons first rest ih =>
      rw [List.cons_append, told, told, ih, List.append_assoc]
      rfl

theorem told_concat (start : State) (row : List Item) (item : Item) :
    told step start (row ++ [item]) =
      told step start row ++ (step (after step start row) item).2 := by
  rw [told_append, told, told, List.append_nil]

/-- A fold that collects what its steps say is a row of these steps. -/
theorem foldl_eq {Given : Type} (step : State → Item → State × List Said) (item : Given → Item)
    (given : List Given) (start : State) (said : List Said) :
    given.foldl (fun (state, said) given =>
      ((step state (item given)).1, said ++ (step state (item given)).2)) (start, said) =
        (after step start (given.map item), said ++ told step start (given.map item)) := by
  induction given generalizing start said with
  | nil => rw [List.foldl_nil, List.map_nil, told, List.append_nil]; rfl
  | cons first rest ih =>
      rw [List.foldl_cons, List.map_cons, told, ← List.append_assoc]
      exact ih _ _

end Row

/-! ## Steps that write at some keys each -/

section Writes

variable {σ κ α β : Type} {step : σ → α → σ} {value : α → β}
variable (read : σ → κ → β) (hits : α → κ → Bool)
variable (writes : ∀ state item key, read (step state item) key =
  if hits item key then value item else read state key)

include writes

/-- A key that no step hits reads as it did. -/
theorem read_foldl_of_absent {items : List α} {key : κ}
    (absent : ∀ item ∈ items, hits item key = false) (state : σ) :
    read (items.foldl step state) key = read state key := by
  induction items generalizing state with
  | nil => rfl
  | cons first rest ih =>
      rw [List.foldl_cons, ih fun item member => absent item (List.mem_cons_of_mem _ member),
        writes, absent first List.mem_cons_self]
      rfl

/-- **A key that some step hits reads as one of these steps left it.** -/
theorem read_foldl_of_present {items : List α} {key : κ}
    (present : ∃ item ∈ items, hits item key = true) (state : σ) :
    ∃ item ∈ items, hits item key = true ∧ read (items.foldl step state) key = value item := by
  induction items generalizing state with
  | nil =>
      obtain ⟨item, member, -⟩ := present
      exact absurd member List.not_mem_nil
  | cons first rest ih =>
      rw [List.foldl_cons]
      by_cases later : ∃ item ∈ rest, hits item key = true
      · obtain ⟨item, member, hit, eq⟩ := ih later (step state first)
        exact ⟨item, List.mem_cons_of_mem _ member, hit, eq⟩
      · -- Only the first step hits the key, and the others leave it alone.
        have absent : ∀ item ∈ rest, hits item key = false := by
          intro item member
          rw [Bool.eq_false_iff]
          exact fun hit => later ⟨item, member, hit⟩
        obtain ⟨item, member, hit⟩ := present
        rcases List.mem_cons.1 member with rfl | member
        · refine ⟨item, List.mem_cons_self, hit, ?_⟩
          rw [read_foldl_of_absent read hits writes absent, writes, if_pos hit]
        · exact absurd ⟨item, member, hit⟩ later

/-- Where all steps that hit a key write the same, it does not matter which was the last. -/
theorem read_foldl {items : List α} {key : κ} {written : β}
    (agree : ∀ item ∈ items, hits item key = true → value item = written) (state : σ) :
    read (items.foldl step state) key =
      if items.any (hits · key) then written else read state key := by
  split
  · rename_i hit
    rw [List.any_eq_true] at hit
    obtain ⟨item, member, hit, eq⟩ := read_foldl_of_present read hits writes hit state
    rw [eq, agree item member hit]
  · rename_i missed
    rw [List.any_eq_true] at missed
    apply read_foldl_of_absent read hits writes
    intro item member
    rw [Bool.eq_false_iff]
    exact fun hit => missed ⟨item, member, hit⟩

end Writes

end SvServer
