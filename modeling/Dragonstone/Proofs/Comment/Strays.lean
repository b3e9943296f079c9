/-
# Strays

The depth of comments is clamped in two ways.  The count over a line clamps once, at the end of the
line; the walk over its markers clamps at every marker, and each time this takes effect it has found
a stray.  A stray that an opening marker behind it makes up for is one that the count does not see.
So the walk never ends below the count, and it ends above it by just the strays that the count
misses.

A count below zero is thus never without a stray, and what is reported then is the column of the
first one.  The strays are, from left to right, the closing markers in front of which the depth
clamped at every marker is zero.
-/

import Dragonstone.Proofs.Comment.Nesting
import Dragonstone.Validation

namespace Dragonstone

/-! ### Where the markers stand -/

/-- The two characters of a marker. -/
def Marker.written : Marker → Text
  | .opening => ['#', '[']
  | .closing => [']', '#']

theorem Marker.ofPair?_eq_some_iff {a b : Char} {m : Marker} :
    Marker.ofPair? a b = some m ↔ m.written = [a, b] := by
  by_cases opens : a = '#' ∧ b = '['
  · obtain ⟨rfl, rfl⟩ := opens
    cases m <;> decide
  · by_cases closes : a = ']' ∧ b = '#'
    · obtain ⟨rfl, rfl⟩ := closes
      cases m <;> decide
    · have none : Marker.ofPair? a b = none := by simp [Marker.ofPair?, opens, closes]
      rw [none]
      cases m
      · simpa [Marker.written, eq_comm] using opens
      · simpa [Marker.written, eq_comm] using closes

theorem Marker.written_prefix_cons_iff {m : Marker} {a : Char} {s : Text} :
    m.written <+: a :: s ↔ ∃ b rest, s = b :: rest ∧ m.written = [a, b] := by
  cases s with
  | nil => cases m <;> simp [Marker.written, List.cons_prefix_cons]
  | cons b rest => cases m <;> simp [Marker.written, List.cons_prefix_cons]

theorem mem_markersFrom_cons {col c : Nat} {m : Marker} {a : Char} {s : Text} :
    (c, m) ∈ markersFrom col (a :: s) ↔
      c = col ∧ m.written <+: a :: s ∨ (c, m) ∈ markersFrom (col + 1) s := by
  rw [Marker.written_prefix_cons_iff]
  cases s with
  | nil => simp [markersFrom]
  | cons b rest =>
      have spelt : (∃ b' rest', b :: rest = b' :: rest' ∧ m.written = [a, b']) ↔
          Marker.ofPair? a b = some m := by
        simp [Marker.ofPair?_eq_some_iff]
      rw [spelt, markersFrom]
      cases Marker.ofPair? a b with
      | none => simp
      | some found => simp [eq_comm (a := m)]

theorem mem_markersFrom_iff {col c : Nat} {m : Marker} {s : Text} :
    (c, m) ∈ markersFrom col s ↔ ∃ k, c = col + k ∧ m.written <+: s.drop k := by
  induction s generalizing col with
  | nil => cases m <;> simp [markersFrom, Marker.written]
  | cons a s ih =>
      rw [mem_markersFrom_cons, ih]
      constructor
      · rintro (⟨rfl, here⟩ | ⟨k, rfl, later⟩)
        · exact ⟨0, rfl, here⟩
        · exact ⟨k + 1, Nat.add_right_comm col 1 k, later⟩
      · rintro ⟨k, rfl, at_⟩
        cases k with
        | zero => exact .inl ⟨rfl, at_⟩
        | succ k => exact .inr ⟨k, Nat.add_right_comm col k 1, at_⟩

/-- The walk meets each marker of the line at the column where it is written. -/
theorem mem_markers_iff {c : Nat} {m : Marker} {line : Line} :
    (c, m) ∈ markers line ↔ m.written <+: line.drop c := by
  simp [markers, mem_markersFrom_iff]

theorem pairwise_markersFrom (col : Nat) (s : Text) :
    (markersFrom col s).Pairwise fun a b => a.1 < b.1 := by
  induction s generalizing col with
  | nil => exact List.Pairwise.nil
  | cons a s ih =>
      cases s with
      | nil => exact List.Pairwise.nil
      | cons b rest =>
          rw [markersFrom]
          cases Marker.ofPair? a b with
          | none => exact ih (col + 1)
          | some m =>
              refine List.Pairwise.cons (fun later mem => ?_) (ih (col + 1))
              obtain ⟨k, place, _⟩ := mem_markersFrom_iff.mp mem
              rw [place]
              exact Nat.lt_of_lt_of_le (Nat.lt_succ_self col) (Nat.le_add_right _ k)

/-! ### What the walk passes over -/

/-- The depth after some markers, clamped at every one of them. -/
def clampedDepth (depth : Int) (ms : List (Nat × Marker)) : Int :=
  ms.foldl (fun depth m => max (depth + m.2.weight) 0) depth

/-- One marker: where the clamp changes the depth, the marker is a stray. -/
theorem walkMarkers_cons {depth : Int} (nonneg : 0 ≤ depth) (m : Nat × Marker)
    (rest : List (Nat × Marker)) :
    walkMarkers depth (m :: rest) =
      ((if m.2 = .closing ∧ depth = 0 then [m.1] else []) ++
          (walkMarkers (max (depth + m.2.weight) 0) rest).1,
        (walkMarkers (max (depth + m.2.weight) 0) rest).2) := by
  obtain ⟨column, kind⟩ := m
  cases kind with
  | opening =>
      have raised : max (depth + Marker.opening.weight) 0 = depth + 1 := by
        rw [Marker.weight]
        omega
      rw [raised, walkMarkers_opening]
      rfl
  | closing =>
      by_cases bottom : depth = 0
      · subst bottom
        rw [walkMarkers_stray]
        rfl
      · have lowered : max (depth + Marker.closing.weight) 0 = depth - 1 := by
          rw [Marker.weight]
          omega
        rw [lowered, walkMarkers_closing bottom, if_neg fun stray => bottom stray.2]
        rfl

theorem snd_walkMarkers {depth : Int} (nonneg : 0 ≤ depth) (ms : List (Nat × Marker)) :
    (walkMarkers depth ms).2 = clampedDepth depth ms := by
  induction ms generalizing depth with
  | nil => rfl
  | cons m rest ih =>
      rw [walkMarkers_cons nonneg]
      exact ih (Int.le_max_right _ _)

/-- Every stray is one of the closing markers, and the walk keeps their order. -/
theorem strays_sublist (depth : Int) (ms : List (Nat × Marker)) :
    ((walkMarkers depth ms).1.map fun column => (column, Marker.closing)).Sublist ms := by
  induction ms generalizing depth with
  | nil => exact List.Sublist.slnil
  | cons m rest ih =>
      obtain ⟨column, kind⟩ := m
      rw [walkMarkers]
      split
      case isTrue stray =>
        obtain rfl : kind = .closing := by
          simp only [Bool.and_eq_true, beq_iff_eq] at stray
          exact stray.1
        exact (ih depth).cons_cons _
      case isFalse => exact (ih _).cons _

theorem mem_of_mem_walkMarkers {column : Nat} {depth : Int} {ms : List (Nat × Marker)}
    (stray : column ∈ (walkMarkers depth ms).1) : (column, .closing) ∈ ms :=
  (strays_sublist depth ms).subset (List.mem_map_of_mem stray)

/-- The strays are the closing markers in front of which the depth is zero. -/
theorem mem_walkMarkers_iff {depth : Int} (nonneg : 0 ≤ depth) {ms : List (Nat × Marker)}
    {c : Nat} :
    c ∈ (walkMarkers depth ms).1 ↔
      ∃ front back, ms = front ++ (c, .closing) :: back ∧ clampedDepth depth front = 0 := by
  induction ms generalizing depth with
  | nil => simp [walkMarkers]
  | cons m rest ih =>
      obtain ⟨column, kind⟩ := m
      rw [walkMarkers_cons nonneg, List.mem_append, List.mem_ite_nil_right, List.mem_singleton,
        ih (Int.le_max_right _ _)]
      constructor
      · rintro (⟨⟨rfl, bottom⟩, rfl⟩ | ⟨front, back, rfl, bottom⟩)
        · exact ⟨[], rest, rfl, bottom⟩
        · exact ⟨(column, kind) :: front, back, rfl, bottom⟩
      · rintro ⟨front, back, cut, bottom⟩
        cases front with
        | nil =>
            cases cut
            exact .inl ⟨⟨rfl, bottom⟩, rfl⟩
        | cons first front =>
            obtain ⟨rfl, rfl⟩ := List.cons.inj cut
            exact .inr ⟨front, back, rfl, bottom⟩

/-! ### The strays of a line -/

/-- The depth of comments in front of a column, clamped at every marker. -/
def depthInFront (line : Line) (depth : Int) (column : Nat) : Int :=
  clampedDepth depth ((markers line).filter fun m => m.1 < column)

theorem pairwise_strayCloses (depth : Int) (line : Line) :
    (strayCloses line depth).Pairwise (· < ·) := by
  have columns : ((strayCloses line depth).map fun column => (column, Marker.closing)).Pairwise
      fun a b => a.1 < b.1 :=
    (pairwise_markersFrom 0 line).sublist (strays_sublist depth (markers line))
  rw [List.pairwise_map] at columns
  exact columns

theorem written_of_mem_strayCloses {line : Line} {depth : Int} {column : Nat}
    (stray : column ∈ strayCloses line depth) : [']', '#'] <+: line.drop column :=
  mem_markers_iff.mp (mem_of_mem_walkMarkers stray)

/-- The markers in front of a marker are those of smaller columns. -/
theorem filter_markers_eq {line : Line} {column : Nat} {m : Marker}
    {front back : List (Nat × Marker)} (cut : markers line = front ++ (column, m) :: back) :
    (markers line).filter (fun m => m.1 < column) = front := by
  have ordered := pairwise_markersFrom 0 line
  rw [← markers, cut, List.pairwise_append, List.pairwise_cons] at ordered
  obtain ⟨_, ⟨behind, _⟩, before⟩ := ordered
  rw [cut, List.filter_append, List.filter_cons_of_neg (by simp),
    List.filter_eq_self.mpr fun m mem => by simpa using before m mem _ List.mem_cons_self,
    List.filter_eq_nil_iff.mpr fun m mem => by simpa using Nat.le_of_lt (behind m mem),
    List.append_nil]

theorem mem_strayCloses_iff {depth : Int} (nonneg : 0 ≤ depth) {line : Line} {column : Nat} :
    column ∈ strayCloses line depth ↔
      [']', '#'] <+: line.drop column ∧ depthInFront line depth column = 0 := by
  constructor
  · intro stray
    refine ⟨written_of_mem_strayCloses stray, ?_⟩
    obtain ⟨front, back, cut, bottom⟩ := (mem_walkMarkers_iff nonneg).mp stray
    rw [depthInFront, filter_markers_eq cut]
    exact bottom
  · rintro ⟨written, bottom⟩
    obtain ⟨front, back, cut⟩ := List.append_of_mem (mem_markers_iff (m := .closing).mpr written)
    rw [depthInFront, filter_markers_eq cut] at bottom
    exact (mem_walkMarkers_iff nonneg).mpr ⟨front, back, cut, bottom⟩

/-- A count below zero is reported at a stray of the line, so no other column ever stands in. -/
theorem strayClose?_eq {depth : Int} (nonneg : 0 ≤ depth) (n fallback : Nat) (line : Line) :
    strayClose? n line depth =
      if (scanComments line depth).overClosed = 0 then none
      else
        let column := (strayCloses line depth).headD fallback
        some ⟨Range.inLine n column (column + 2), .strayCommentClose⟩ := by
  rw [strayClose?]
  split
  case isTrue => rfl
  case isFalse below =>
    cases strays : strayCloses line depth with
    | nil => exact absurd (overClosed_eq_zero_of_strayCloses nonneg strays) below
    | cons column rest => rfl

/-- The walk ends above the depth after the line by the strays that the count does not see.  A count
below zero has a stray, and it is the first stray that is reported.  The strays stand in their order
at the closing markers in front of which no comment is open. -/
theorem walk_accounts_for_clamp {depth : Int} (nonneg : 0 ≤ depth) (line : Line) :
    let walk := walkMarkers depth (markers line)
    let scan := scanComments line depth
    walk.2 = clampedDepth depth (markers line) ∧
      walk.2 - scan.depth = walk.1.length - scan.overClosed ∧
      0 ≤ (walk.1.length : Int) - scan.overClosed ∧
      (0 < scan.overClosed → strayCloses line depth ≠ []) ∧
      (∀ n fallback, strayClose? n line depth =
        if scan.overClosed = 0 then none
        else
          let column := (strayCloses line depth).headD fallback
          some ⟨Range.inLine n column (column + 2), .strayCommentClose⟩) ∧
      (strayCloses line depth).Pairwise (· < ·) ∧
      ∀ column, column ∈ strayCloses line depth ↔
        [']', '#'] <+: line.drop column ∧ depthInFront line depth column = 0 := by
  intro walk scan
  have balance : walk.2 + scan.overClosed = scan.depth + walk.1.length :=
    length_strayCloses nonneg line
  have bound : scan.overClosed ≤ walk.1.length := overClosed_le_length nonneg line
  refine ⟨snd_walkMarkers nonneg _, by omega, by omega, ?_,
    fun n fallback => strayClose?_eq nonneg n fallback line, pairwise_strayCloses depth line,
    fun _ => mem_strayCloses_iff nonneg⟩
  intro below none
  exact Nat.ne_of_gt below (overClosed_eq_zero_of_strayCloses nonneg none)

/-- The opening marker at the end makes up for one of two strays, and the count sees the other. -/
theorem walk_accounts_for_clamp_of_hidden_stray :
    let line := "]#[ x ]# ]# #[".toList
    let walk := walkMarkers 0 (markers line)
    let scan := scanComments line 0
    (0 : Int) ≤ 0 ∧ walk = ([0, 9], 1) ∧ scan.depth = 0 ∧ scan.overClosed = 1 ∧
      walk.2 - scan.depth = walk.1.length - scan.overClosed ∧ strayCloses line 0 ≠ [] := by
  intro line walk scan
  obtain ⟨_, balance, _, stray, _⟩ := walk_accounts_for_clamp (Int.le_refl 0) line
  exact ⟨by decide, by decide, by decide, by decide, balance, stray (by decide)⟩

end Dragonstone
