/-
# The list of completions

A list of completions is made in three steps: candidates that do not go on from what is typed are
left out, one candidate is kept of every label, and these are sorted.  The result can be told
without the steps.  Its members are the candidates that stand first under their label and go on from
what is typed, and it is in strict order, which allows each of them once.

A list in strict order is known by its members.  So what does not show in the members does not show
in the list: the order among candidates of different labels, and an earlier filtering by less of the
same word.
-/

import Dragonstone.Completion.Filter
import Mathlib.Data.Char
import Mathlib.Data.List.Lex
import Mathlib.Data.List.Sort
import Mathlib.Data.Prod.Lex

namespace Dragonstone.Completion

/-! ### The first candidate of a label -/

/-- The item is a candidate, and no candidate before it has its label. -/
def Item.IsFirst (item : Item) (items : List Item) : Prop :=
  ∃ front back, items = front ++ item :: back ∧ ∀ other ∈ front, other.label ≠ item.label

theorem isFirst_iff_find? {item : Item} {items : List Item} :
    item.IsFirst items ↔ items.find? (fun other => other.label == item.label) = some item := by
  simp only [Item.IsFirst, List.find?_eq_some_iff_append, beq_self_eq_true, true_and,
    Bool.not_eq_true', beq_eq_false_iff_ne]

theorem not_isFirst_nil {item : Item} : ¬ item.IsFirst [] := by
  simp [isFirst_iff_find?]

theorem isFirst_cons {item x : Item} {items : List Item} :
    item.IsFirst (x :: items) ↔ item = x ∨ x.label ≠ item.label ∧ item.IsFirst items := by
  rw [isFirst_iff_find?, isFirst_iff_find?]
  by_cases same : x.label = item.label
  · simp [same, eq_comm]
  · have other : item ≠ x := fun h => same (congrArg Item.label h).symm
    simp [List.find?_cons_of_neg, same, other]

theorem Item.IsFirst.mem {item : Item} {items : List Item} (first : item.IsFirst items) :
    item ∈ items := by
  obtain ⟨front, back, rfl, _⟩ := first
  exact List.mem_append_right front List.mem_cons_self

/-- A choice by the label takes all candidates of a label or none, so it keeps who is first. -/
theorem isFirst_filter (p : Text → Bool) {item : Item} {items : List Item} :
    item.IsFirst (items.filter fun other => p other.label) ↔
      p item.label = true ∧ item.IsFirst items := by
  induction items with
  | nil => simp [not_isFirst_nil]
  | cons x items ih =>
      by_cases chosen : p x.label = true
      · rw [List.filter_cons_of_pos (p := fun other : Item => p other.label) chosen, isFirst_cons,
          isFirst_cons, ih]
        constructor
        · rintro (rfl | ⟨other, here, first⟩)
          · exact ⟨chosen, .inl rfl⟩
          · exact ⟨here, .inr ⟨other, first⟩⟩
        · rintro ⟨here, rfl | ⟨other, first⟩⟩
          · exact .inl rfl
          · exact .inr ⟨other, here, first⟩
      · rw [List.filter_cons_of_neg (p := fun other : Item => p other.label) chosen, isFirst_cons,
          ih]
        constructor
        · rintro ⟨here, first⟩
          exact ⟨here, .inr ⟨fun same => chosen (same ▸ here), first⟩⟩
        · rintro ⟨here, rfl | ⟨_, first⟩⟩
          · exact absurd here chosen
          · exact ⟨here, first⟩

theorem mem_firstOfLabels_iff {item : Item} {items : List Item} :
    item ∈ firstOfLabels items ↔ item.IsFirst items := by
  induction items with
  | nil => simp [firstOfLabels, not_isFirst_nil]
  | cons x items ih =>
      simp only [firstOfLabels, List.mem_cons, List.mem_filter, ih, isFirst_cons, bne_iff_ne,
        ne_eq, and_comm, eq_comm (a := x.label)]

theorem pairwise_firstOfLabels (items : List Item) :
    (firstOfLabels items).Pairwise fun a b => a.label ≠ b.label := by
  induction items with
  | nil => exact List.Pairwise.nil
  | cons x items ih =>
      refine List.Pairwise.cons (fun other mem => ?_) (ih.filter _)
      exact (bne_iff_ne.mp (List.mem_filter.mp mem).2).symm

/-- Where no label stands twice, every candidate is the first of its label. -/
theorem isFirst_iff_mem {item : Item} {items : List Item}
    (once : items.Pairwise fun a b => a.label ≠ b.label) :
    item.IsFirst items ↔ item ∈ items := by
  refine ⟨Item.IsFirst.mem, fun mem => ?_⟩
  obtain ⟨front, back, rfl⟩ := List.append_of_mem mem
  refine ⟨front, back, rfl, fun other before => ?_⟩
  exact (List.pairwise_append.mp once).2.2 other before item List.mem_cons_self

/-! ### The order of the list -/

/-- What items are sorted by: the label in small letters, and then the label as it is. -/
def Item.key (item : Item) : Text ×ₗ Text :=
  toLex (lowercase item.label, item.label)

theorem precedes_iff_lt {a b : Text} : precedes a b = true ↔ a < b := by
  simp only [precedes, List.lex_eq_true_iff_lex, decide_eq_true_eq]
  exact (List.lt_iff_lex_lt a b).symm

theorem listedBefore_eq_decide (a b : Item) :
    Item.listedBefore a b = decide (a.key ≤ b.key) := by
  have notAfter : (!precedes b.label a.label) = true ↔ a.label ≤ b.label := by
    rw [Bool.not_eq_true', ← Bool.not_eq_true, precedes_iff_lt, not_lt]
  rw [Bool.eq_iff_iff, decide_eq_true_eq, Item.key, Item.key, Prod.Lex.toLex_le_toLex]
  simp only [Item.listedBefore, Bool.or_eq_true, Bool.and_eq_true, beq_iff_eq, precedes_iff_lt,
    notAfter]

theorem label_eq_of_key_eq {a b : Item} (same : a.key = b.key) : a.label = b.label :=
  congrArg (fun key => (ofLex key).2) same

/-! ### The list -/

theorem mem_filter_iff {candidates : List Item} {typed : Text} {item : Item} :
    item ∈ filter candidates typed ↔ typed <+: item.label ∧ item.IsFirst candidates := by
  rw [filter, List.mem_mergeSort, mem_firstOfLabels_iff,
    isFirst_filter fun label => typed.isPrefixOf label, List.isPrefixOf_iff_prefix]

/-- The items of a filtered list are among those that were there. -/
theorem mem_of_mem_filter {candidates : List Item} {typed : Text} {item : Item}
    (listed : item ∈ filter candidates typed) : item ∈ candidates :=
  (mem_filter_iff.mp listed).2.mem

/-- Sorting allows equal keys, but no label stands twice. -/
theorem pairwise_filter (candidates : List Item) (typed : Text) :
    (filter candidates typed).Pairwise fun a b => a.key < b.key := by
  let kept := firstOfLabels (candidates.filter fun item => typed.isPrefixOf item.label)
  have sorted : (filter candidates typed).Pairwise fun a b => a.key ≤ b.key := by
    have order : Item.listedBefore = fun a b => decide (a.key ≤ b.key) :=
      funext₂ listedBefore_eq_decide
    have : Std.Total fun a b : Item => a.key ≤ b.key := ⟨fun a b => le_total a.key b.key⟩
    have : IsTrans Item fun a b => a.key ≤ b.key := ⟨fun _ _ _ => le_trans⟩
    rw [filter, order]
    exact List.pairwise_mergeSort' (fun a b : Item => a.key ≤ b.key) kept
  have once : (filter candidates typed).Pairwise fun a b => a.label ≠ b.label :=
    (pairwise_firstOfLabels _).perm (List.mergeSort_perm _ _).symm Ne.symm
  refine (sorted.and once).imp fun ⟨notAfter, different⟩ => ?_
  exact lt_of_le_of_ne notAfter fun same => different (label_eq_of_key_eq same)

theorem labels_filter (candidates : List Item) (typed : Text) :
    (filter candidates typed).Pairwise fun a b => a.label ≠ b.label :=
  (pairwise_filter candidates typed).imp fun before same =>
    before.ne (congrArg (fun label => toLex (lowercase label, label)) same)

/-- A list of completions is known by its members. -/
theorem filter_eq_of_mem_iff {candidates others : List Item} {typed word : Text}
    (same : ∀ item, item ∈ filter candidates typed ↔ item ∈ filter others word) :
    filter candidates typed = filter others word := by
  have : Std.Irrefl fun a b : Item => a.key < b.key := ⟨fun a => lt_irrefl a.key⟩
  have : Std.Antisymm fun a b : Item => a.key < b.key :=
    ⟨fun _ _ before after => absurd after before.asymm⟩
  exact (pairwise_filter candidates typed).eq_of_mem_iff (pairwise_filter others word) same

/-! ### Other orders and shorter words -/

/-- Each label has the same candidates in the same order; how those of different labels are mixed is
left open. -/
def SameByLabel (a b : List Item) : Prop :=
  ∀ label, a.filter (fun item => item.label == label) = b.filter fun item => item.label == label

/-- Neighbours of different labels may change places. -/
theorem sameByLabel_swap (front back : List Item) {a b : Item} (different : a.label ≠ b.label) :
    SameByLabel (front ++ a :: b :: back) (front ++ b :: a :: back) := by
  intro label
  simp only [List.filter_append, List.filter_cons, beq_iff_eq]
  by_cases first : a.label = label
  · have second : ¬ b.label = label := fun same => different (first.trans same.symm)
    simp only [first, second, if_true, if_false]
  · simp only [first, if_false]

theorem SameByLabel.isFirst_iff {a b : List Item} (same : SameByLabel a b) {item : Item} :
    item.IsFirst a ↔ item.IsFirst b := by
  rw [isFirst_iff_find?, isFirst_iff_find?, ← List.head?_filter, ← List.head?_filter,
    same item.label]

/-- The list holds the first candidate of every label that goes on from what is typed, and nothing
else, in strict order.  It does not depend on the order among candidates of different labels, and
filtering it by more of the word gives what filtering all candidates gives. -/
theorem completions_are_firsts_in_order (candidates : List Item) (typed : Text) :
    (∀ item, item ∈ filter candidates typed ↔ typed <+: item.label ∧ item.IsFirst candidates) ∧
      (filter candidates typed).Pairwise (fun a b => a.key < b.key) ∧
      (∀ others, SameByLabel candidates others →
        filter others typed = filter candidates typed) ∧
      ∀ more, filter (filter candidates typed) (typed ++ more) =
        filter candidates (typed ++ more) := by
  refine ⟨fun _ => mem_filter_iff, pairwise_filter candidates typed, ?_, ?_⟩
  · intro others same
    refine filter_eq_of_mem_iff fun item => ?_
    rw [mem_filter_iff, mem_filter_iff, same.isFirst_iff]
  · intro more
    refine filter_eq_of_mem_iff fun item => ?_
    rw [mem_filter_iff, isFirst_iff_mem (labels_filter candidates typed), mem_filter_iff,
      mem_filter_iff]
    constructor
    · rintro ⟨whole, _, first⟩
      exact ⟨whole, first⟩
    · rintro ⟨whole, first⟩
      exact ⟨whole, (List.prefix_append typed more).trans whole, first⟩

/-- With "with" as a keyword and as a variable, the keyword is listed, also where another label has
changed places with it. -/
theorem completions_of_with_after_swap :
    let keyword : Item := ⟨"with".toList, .keyword, none, none, false⟩
    let loop : Item := ⟨"while".toList, .keyword, none, none, false⟩
    let var : Item := ⟨"with".toList, .variableName, none, none, false⟩
    SameByLabel [loop, keyword, var] [keyword, loop, var] ∧
      filter [keyword, loop, var] ['w'] = filter [loop, keyword, var] ['w'] ∧
      keyword ∈ filter [keyword, loop, var] ['w'] ∧ var ∉ filter [keyword, loop, var] ['w'] ∧
      filter (filter [keyword, loop, var] ['w']) ['w', 'i'] =
        filter [keyword, loop, var] ['w', 'i'] := by
  intro keyword loop var
  have swapped : SameByLabel [loop, keyword, var] [keyword, loop, var] :=
    sameByLabel_swap [] [var] (by decide)
  obtain ⟨members, _, _, narrowed⟩ := completions_are_firsts_in_order [keyword, loop, var] ['w']
  obtain ⟨_, _, reordered, _⟩ := completions_are_firsts_in_order [loop, keyword, var] ['w']
  refine ⟨swapped, reordered _ swapped, ?_, ?_, narrowed ['i']⟩
  · rw [members, isFirst_iff_find?]
    decide
  · rw [members, isFirst_iff_find?]
    decide

end Dragonstone.Completion
