import Mathlib.Data.List.Find
import SvServer.Diagnostic

/-!
# Dropping repetitions

Repetitions are dropped by comparing each element of a list with the last one that stays. Where the
test is an equivalence, this is the same as comparing it with its predecessor. In a list that was sorted
what stays is in strict order, and of equal elements it is the one that came first before they were
sorted, unless the test takes the element before them for the same.
-/

namespace SvServer

variable {α β : Type} {same : α → α → Bool}

/-! ## What stays -/

theorem map_dropRepeats_go {same' : β → β → Bool} (f : α → β)
    (h : ∀ a b, same a b = same' (f a) (f b)) (kept : α) (list : List α) :
    (dropRepeats.go same kept list).map f = dropRepeats.go same' (f kept) (list.map f) := by
  induction list generalizing kept with
  | nil => rfl
  | cons first rest ih =>
      by_cases hs : same first kept = true
      · have hs' := (h first kept).symm.trans hs
        simp only [dropRepeats.go, List.map_cons, hs, hs', if_true, ih]
      · have hs' : ¬same' (f first) (f kept) = true := by rw [← h]; exact hs
        simp only [dropRepeats.go, List.map_cons, hs, hs', if_false, Bool.false_eq_true, ih]

/-- Repetitions are dropped alike before and after a map that keeps the test. -/
theorem map_dropRepeats {same' : β → β → Bool} (f : α → β)
    (h : ∀ a b, same a b = same' (f a) (f b)) (list : List α) :
    (dropRepeats same list).map f = dropRepeats same' (list.map f) := by
  cases list with
  | nil => rfl
  | cons first rest => simp only [dropRepeats, List.map_cons, map_dropRepeats_go f h]

theorem dropRepeats_go_sublist (kept : α) (list : List α) :
    (dropRepeats.go same kept list).Sublist list := by
  induction list generalizing kept with
  | nil => exact .slnil
  | cons first rest ih =>
      rw [dropRepeats.go]
      split
      · exact (ih kept).cons first
      · exact (ih first).cons_cons first

/-- What is left after repetitions were dropped was there before, in the same order. -/
theorem dropRepeats_sublist (list : List α) : (dropRepeats same list).Sublist list := by
  cases list with
  | nil => exact .slnil
  | cons first rest => exact (dropRepeats_go_sublist first rest).cons_cons first

theorem exists_mem_dropRepeats_go (refl : ∀ a, same a a = true) {x kept : α} {list : List α}
    (h : x ∈ list) :
    same x kept = true ∨ ∃ y ∈ dropRepeats.go same kept list, same x y = true := by
  induction list generalizing kept with
  | nil => exact absurd h List.not_mem_nil
  | cons first rest ih =>
      rw [dropRepeats.go]
      split
      · rename_i repeated
        rcases List.mem_cons.1 h with rfl | h
        · exact .inl repeated
        · exact ih h
      · rcases List.mem_cons.1 h with rfl | h
        · exact .inr ⟨x, .head _, refl x⟩
        · rcases ih h with same | ⟨y, listed, same⟩
          · exact .inr ⟨first, .head _, same⟩
          · exact .inr ⟨y, .tail _ listed, same⟩

/-- What is dropped is the same as something that stays. -/
theorem exists_mem_dropRepeats (refl : ∀ a, same a a = true) {x : α} {list : List α}
    (h : x ∈ list) : ∃ y ∈ dropRepeats same list, same x y = true := by
  cases list with
  | nil => exact absurd h List.not_mem_nil
  | cons first rest =>
      rcases List.mem_cons.1 h with rfl | h
      · exact ⟨x, .head _, refl x⟩
      · rcases exists_mem_dropRepeats_go refl h with same | ⟨y, listed, same⟩
        · exact ⟨first, .head _, same⟩
        · exact ⟨y, .tail _ listed, same⟩

section

variable (congr : ∀ {a b}, same a b = true → ∀ c, same c a = same c b)

include congr

theorem mem_dropRepeats_go {y kept : α} {list : List α} :
    y ∈ dropRepeats.go same kept list ↔
      ∃ before after, list = before ++ y :: after ∧ same y (before.getLastD kept) = false := by
  induction list generalizing kept with
  | nil => simp [dropRepeats.go]
  | cons first rest ih =>
      rw [dropRepeats.go]
      split
      · rename_i repeated
        -- An element that is dropped stands for the last one that stays.
        have stands : ∀ before : List α,
            same y (before.getLastD first) = same y (before.getLastD kept) := by
          intro before
          cases before with
          | nil => exact congr repeated y
          | cons => rfl
        rw [ih]
        constructor
        · rintro ⟨before, after, rfl, differs⟩
          exact ⟨first :: before, after, rfl, by rw [List.getLastD_cons, stands, differs]⟩
        · rintro ⟨before, after, split, differs⟩
          cases before with
          | nil =>
              obtain ⟨rfl, -⟩ := List.cons.inj split
              rw [List.getLastD_nil, repeated] at differs
              cases differs
          | cons other before =>
              obtain ⟨rfl, rfl⟩ := List.cons.inj split
              exact ⟨before, after, rfl, by rw [← stands, ← differs, List.getLastD_cons]⟩
      · rename_i fresh
        rw [List.mem_cons, ih]
        constructor
        · rintro (rfl | ⟨before, after, rfl, differs⟩)
          · exact ⟨[], rest, rfl, (Bool.not_eq_true _).mp fresh⟩
          · exact ⟨first :: before, after, rfl, by rw [List.getLastD_cons, differs]⟩
        · rintro ⟨before, after, split, differs⟩
          cases before with
          | nil => exact .inl (List.cons.inj split).1.symm
          | cons other before =>
              obtain ⟨rfl, rfl⟩ := List.cons.inj split
              exact .inr ⟨before, after, rfl, by rw [← differs, List.getLastD_cons]⟩

/-- **An element stays if it is not the same as its predecessor.** -/
theorem mem_dropRepeats {y : α} {list : List α} :
    y ∈ dropRepeats same list ↔ ∃ before after, list = before ++ y :: after ∧
      ∀ last, before.getLast? = some last → same y last = false := by
  cases list with
  | nil => simp [dropRepeats]
  | cons first rest =>
      rw [dropRepeats, List.mem_cons, mem_dropRepeats_go congr]
      constructor
      · rintro (rfl | ⟨before, after, rfl, differs⟩)
        · exact ⟨[], rest, rfl, fun _ none => by cases none⟩
        · refine ⟨first :: before, after, rfl, fun last ends => ?_⟩
          rw [List.getLast?_cons, Option.some.injEq, ← List.getLastD_eq_getLast?] at ends
          rwa [← ends]
      · rintro ⟨before, after, split, differs⟩
        cases before with
        | nil => exact .inl (List.cons.inj split).1.symm
        | cons other before =>
            obtain ⟨rfl, rfl⟩ := List.cons.inj split
            refine .inr ⟨before, after, rfl, differs _ ?_⟩
            rw [List.getLast?_cons, List.getLastD_eq_getLast?]

end

/-! ## Sorted lists -/

variable {cmp : α → α → Ordering} [Std.TransCmp cmp]

/-- A list in which no element comes after a greater one. -/
def Ascending (cmp : α → α → Ordering) (list : List α) : Prop :=
  list.Pairwise fun a b => (cmp a b).isLE = true

omit [Std.TransCmp cmp] in
theorem lt_of_isLE_of_ne {a b : α} (le : (cmp a b).isLE = true) (ne : cmp a b ≠ .eq) :
    cmp a b = .lt := by
  cases h : cmp a b <;> simp_all

theorem isLE_total (a b : α) : ((cmp a b).isLE || (cmp b a).isLE) = true := by
  have swap : cmp b a = (cmp a b).swap := Std.OrientedCmp.eq_swap
  rw [swap]
  cases cmp a b <;> rfl

theorem ascending_mergeSort (list : List α) :
    Ascending cmp (list.mergeSort fun a b => (cmp a b).isLE) :=
  List.pairwise_mergeSort (fun _ _ _ => Std.TransCmp.isLE_trans) isLE_total list

/-- **Sorting keeps the first of equal elements first.** -/
theorem find?_mergeSort (y : α) (list : List α) :
    (list.mergeSort fun a b => (cmp a b).isLE).find? (cmp y · == .eq) =
      list.find? (cmp y · == .eq) := by
  -- Equal elements are in ascending order already, so sorting leaves them in their order.
  have equal : ((list.filter (cmp y · == .eq)).Pairwise fun a b => (cmp a b).isLE = true) := by
    refine List.pairwise_of_forall_mem_list fun a ha b hb => ?_
    have here := beq_iff_eq.1 (List.mem_filter.1 ha).2
    have there := beq_iff_eq.1 (List.mem_filter.1 hb).2
    rw [← Std.TransCmp.congr_left here, there]
    rfl
  have kept := (List.sublist_mergeSort (fun _ _ _ => Std.TransCmp.isLE_trans) isLE_total equal
    List.filter_sublist).filter (cmp y · == .eq)
  rw [List.filter_filter] at kept
  simp only [Bool.and_self] at kept
  rw [← List.head?_filter, ← List.head?_filter, kept.eq_of_length
    ((List.mergeSort_perm list _).filter _).length_eq.symm]

theorem Ascending.isLE_of_head {first e : α} {rest : List α} (sorted : Ascending cmp (first :: rest))
    (member : e ∈ first :: rest) : (cmp first e).isLE = true := by
  rcases List.mem_cons.1 member with rfl | member
  · exact Std.ReflCmp.isLE_rfl
  · exact (List.pairwise_cons.1 sorted).1 e member

/-- Where an ascending list is split, all that comes before is at most the last before, and all that
comes after at least the first after. -/
theorem Ascending.around {initial after : List α} {last y : α}
    (sorted : Ascending cmp ((initial ++ [last]) ++ y :: after)) :
    (∀ e ∈ initial ++ [last], (cmp e last).isLE = true) ∧ (cmp last y).isLE = true ∧
      ∀ f ∈ y :: after, (cmp y f).isLE = true := by
  obtain ⟨before, rest, below⟩ := List.pairwise_append.1 sorted
  refine ⟨fun e member => ?_, below last (List.mem_append_right _ (.head _)) y (.head _),
    fun f member => isLE_of_head rest member⟩
  rcases List.mem_append.1 member with member | member
  · exact (List.pairwise_append.1 before).2.2 e member last (.head _)
  · rw [List.mem_singleton.1 member]
    exact Std.ReflCmp.isLE_rfl

variable {list : List α}

/-- **What stays of an ascending list is in strict order**, if elements that compare equal are the
same. -/
theorem pairwise_dropRepeats (sorted : Ascending cmp list)
    (equal : ∀ a ∈ list, ∀ b ∈ list, cmp a b = .eq → same b a = true) :
    (dropRepeats same list).Pairwise fun a b => cmp a b = .lt := by
  cases list with
  | nil => exact .nil
  | cons kept rest =>
      rw [dropRepeats]
      induction rest generalizing kept with
      | nil => exact List.pairwise_singleton _ _
      | cons first rest ih =>
          rw [dropRepeats.go]
          split
          · have sub : (kept :: rest).Sublist (kept :: first :: rest) :=
              (List.sublist_cons_self first rest).cons_cons kept
            exact ih kept (sorted.sublist sub) fun a ha b hb => equal a (sub.subset ha) b (sub.subset hb)
          · rename_i fresh
            obtain ⟨below, others⟩ := List.pairwise_cons.1 sorted
            have strict := ih first others fun a ha b hb => equal a (.tail _ ha) b (.tail _ hb)
            have less : cmp kept first = .lt := lt_of_isLE_of_ne (below first (.head _)) fun eq =>
              fresh (equal kept (.head _) first (.tail _ (.head _)) eq)
            refine List.pairwise_cons.2 ⟨fun other member => ?_, strict⟩
            rcases List.mem_cons.1 member with rfl | member
            · exact less
            · exact Std.TransCmp.lt_trans less ((List.pairwise_cons.1 strict).1 other member)

/-- An element comes right before one that is greater but the same. -/
def Shadowed (cmp : α → α → Ordering) (same : α → α → Bool) (list : List α) (y : α) : Prop :=
  ∃ e ∈ list, same y e = true ∧ cmp e y = .lt ∧ ∀ f ∈ list, cmp e f = .lt → cmp f y ≠ .lt

section

variable (congr : ∀ {a b}, same a b = true → ∀ c, same c a = same c b)
variable (equal : ∀ a ∈ list, ∀ b ∈ list, cmp a b = .eq → same b a = true)

include congr equal

/-- What stays of an ascending list is the first of equal elements, and it is not shadowed. -/
theorem first_of_mem_dropRepeats (sorted : Ascending cmp list) {y : α}
    (stays : y ∈ dropRepeats same list) :
    list.find? (cmp y · == .eq) = some y ∧ ¬Shadowed cmp same list y := by
  obtain ⟨before, after, rfl, differs⟩ := (mem_dropRepeats congr).1 stays
  rw [List.find?_eq_some_iff_append]
  have self : cmp y y = .eq := Std.ReflCmp.compare_self
  rcases List.eq_nil_or_concat before with rfl | ⟨initial, last, split⟩
  · refine ⟨⟨beq_iff_eq.2 self, [], after, rfl, nofun⟩, ?_⟩
    rintro ⟨e, member, -, less, -⟩
    exact absurd (sorted.isLE_of_head member) (by rw [Std.OrientedCmp.gt_of_lt less]; decide)
  · rw [List.concat_eq_append] at split
    subst split
    have there : last ∈ (initial ++ [last]) ++ y :: after :=
      List.mem_append_left _ (List.mem_append_right _ (.head _))
    have here : y ∈ (initial ++ [last]) ++ y :: after := List.mem_append_right _ (.head _)
    have differ := differs last List.getLast?_concat
    obtain ⟨atMost, le, atLeast⟩ := sorted.around
    have less : cmp last y = .lt := lt_of_isLE_of_ne le fun eq => by
      rw [equal last there y here eq] at differ
      cases differ
    refine ⟨⟨beq_iff_eq.2 self, initial ++ [last], after, rfl, fun e member => ?_⟩, ?_⟩
    · rw [Std.OrientedCmp.gt_of_lt (Std.TransCmp.lt_of_isLE_of_lt (atMost e member) less)]
      rfl
    · rintro ⟨e, member, repeated, below, between⟩
      rcases List.mem_append.1 member with member | member
      · refine between last there (lt_of_isLE_of_ne (atMost e member) fun eq => ?_) less
        rw [← congr (equal e (List.mem_append_left _ member) last there eq), differ] at repeated
        cases repeated
      · exact absurd (atLeast e member) (by rw [Std.OrientedCmp.gt_of_lt below]; decide)

omit equal in
/-- The first of equal elements stays of an ascending list, unless it is shadowed. -/
theorem mem_dropRepeats_of_first (sorted : Ascending cmp list) {y : α}
    (first : list.find? (cmp y · == .eq) = some y) (clear : ¬Shadowed cmp same list y) :
    y ∈ dropRepeats same list := by
  obtain ⟨-, before, after, rfl, apart⟩ := List.find?_eq_some_iff_append.1 first
  refine (mem_dropRepeats congr).2 ⟨before, after, rfl, fun last ends => ?_⟩
  rcases List.eq_nil_or_concat before with rfl | ⟨initial, other, split⟩
  · cases ends
  · rw [List.concat_eq_append] at split
    subst split
    rw [List.getLast?_concat, Option.some.injEq] at ends
    subst ends
    obtain ⟨atMost, le, atLeast⟩ := sorted.around
    have member : other ∈ initial ++ [other] := List.mem_append_right _ (.head _)
    have less : cmp other y = .lt := lt_of_isLE_of_ne le fun eq => by
      have differ := apart other member
      rw [Std.OrientedCmp.eq_comm.1 eq] at differ
      cases differ
    -- Were it the same as its predecessor, the predecessor would shadow it.
    by_contra repeated
    rw [Bool.not_eq_false] at repeated
    refine clear ⟨other, List.mem_append_left _ member, repeated, less, fun f listed up down => ?_⟩
    rcases List.mem_append.1 listed with listed | listed
    · exact absurd (atMost f listed) (by rw [Std.OrientedCmp.gt_of_lt up]; decide)
    · exact absurd (atLeast f listed) (by rw [Std.OrientedCmp.gt_of_lt down]; decide)

/-- **What stays of a list that is sorted** is what came first of equal elements, unless it is
shadowed. -/
theorem mem_dropRepeats_mergeSort {y : α} :
    y ∈ dropRepeats same (list.mergeSort fun a b => (cmp a b).isLE) ↔
      list.find? (cmp y · == .eq) = some y ∧ ¬Shadowed cmp same list y := by
  have member : ∀ {a}, a ∈ list.mergeSort (fun a b => (cmp a b).isLE) ↔ a ∈ list :=
    List.mem_mergeSort
  have shadowed : Shadowed cmp same (list.mergeSort fun a b => (cmp a b).isLE) y ↔
      Shadowed cmp same list y := by
    simp only [Shadowed, member]
  rw [← find?_mergeSort, ← shadowed]
  constructor
  · exact first_of_mem_dropRepeats congr
      (fun a ha b hb => equal a (member.1 ha) b (member.1 hb)) (ascending_mergeSort list)
  · exact fun ⟨first, clear⟩ => mem_dropRepeats_of_first congr (ascending_mergeSort list) first clear

end

end SvServer
