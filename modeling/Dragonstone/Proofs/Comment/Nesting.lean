/-
# Nested comments and the depth of lines

Read one by one in the order of a document, comment markers are balanced if no comment is closed
that is not open and none is left open.  The depth of lines is coarser: it counts what the markers
of a whole line add up to, so that the order of markers on one line has no influence on it.

Both can be told from the same pass over the lines.  Markers are balanced if on no line the walk
from left to right meets a closing marker at depth zero, and the depth after the last line is zero.
The depth of lines goes below zero on no line, and ends at zero, exactly if the markers are balanced
once each line's openings are read before its closings.  So the two differ on a line alone where a
closing marker has nothing to close and an opening one behind it makes up for that.
-/

import Dragonstone.Comment
import Dragonstone.Text.Lines

namespace Dragonstone

/-! ### Lines without markers -/

/-- A line in which no block comment opens or closes. -/
def IsUnmarked (line : Line) : Prop :=
  ¬ ['#', '['] <:+: line ∧ ¬ [']', '#'] <:+: line

instance (line : Line) : Decidable (IsUnmarked line) :=
  inferInstanceAs (Decidable (¬ _ ∧ ¬ _))

theorem IsUnmarked.tail {c : Char} {line : Line} (h : IsUnmarked (c :: line)) : IsUnmarked line :=
  ⟨fun opens => h.1 (List.infix_cons opens), fun closes => h.2 (List.infix_cons closes)⟩

theorem IsUnmarked.ofPair?_eq_none {a b : Char} {rest : Line} (h : IsUnmarked (a :: b :: rest)) :
    Marker.ofPair? a b = none := by
  have hopen : ¬ (a = '#' ∧ b = '[') := by
    rintro ⟨rfl, rfl⟩
    exact h.1 ⟨[], rest, rfl⟩
  have hclose : ¬ (a = ']' ∧ b = '#') := by
    rintro ⟨rfl, rfl⟩
    exact h.2 ⟨[], rest, rfl⟩
  simp [Marker.ofPair?, hopen, hclose]

theorem markersFrom_eq_nil {line : Line} (h : IsUnmarked line) (col : Nat) :
    markersFrom col line = [] := by
  induction line generalizing col with
  | nil => rfl
  | cons a rest ih =>
      cases rest with
      | nil => rfl
      | cons b rest =>
          rw [markersFrom, h.ofPair?_eq_none]
          exact ih h.tail (col + 1)

/-- Outside comments, a line without markers stays outside and is looked into. -/
theorem scanComments_of_isUnmarked {line : Line} (h : IsUnmarked line) :
    scanComments line 0 = ⟨0, false, 0⟩ := by
  have hcount (kind : Marker) : markerCount kind line = 0 := by
    rw [markerCount, markers, markersFrom_eq_nil h]
    rfl
  rw [scanComments, hcount, hcount]
  rfl

/-! ### Balanced markers -/

/-- How many comments are open after some markers, where `depth` are open before them; none if a
comment is closed while no comment is open. -/
def openAfter? (depth : Nat) : List Marker → Option Nat
  | [] => some depth
  | .opening :: rest => openAfter? (depth + 1) rest
  | .closing :: rest =>
    match depth with
    | 0 => none
    | outer + 1 => openAfter? outer rest

/-- No comment is closed that is not open, and none is left open. -/
def BalancedMarkers (ms : List Marker) : Prop :=
  openAfter? 0 ms = some 0

instance (ms : List Marker) : Decidable (BalancedMarkers ms) :=
  inferInstanceAs (Decidable (_ = _))

/-- The markers of a line in the order of their columns. -/
def lineMarkers (line : Line) : List Marker :=
  (markers line).map Prod.snd

/-- The markers of a document, line after line. -/
def commentMarkers (text : Text) : List Marker :=
  (lines text).flatMap lineMarkers

/-- The openings of a line, and then its closings. -/
def openingsFirst (line : Line) : List Marker :=
  (lineMarkers line).filter (· == .opening) ++ (lineMarkers line).filter (· == .closing)

theorem openAfter?_append (depth : Nat) (s t : List Marker) :
    openAfter? depth (s ++ t) = (openAfter? depth s).bind fun between => openAfter? between t := by
  induction s generalizing depth with
  | nil => rfl
  | cons m rest ih =>
      cases m with
      | opening => exact ih (depth + 1)
      | closing =>
          cases depth with
          | zero => rfl
          | succ outer => exact ih outer

theorem openAfter?_openings (depth k : Nat) :
    openAfter? depth (List.replicate k .opening) = some (depth + k) := by
  induction k generalizing depth with
  | zero => rfl
  | succ k ih =>
      rw [List.replicate_succ, openAfter?, ih]
      congr 1
      omega

theorem openAfter?_closings (depth k : Nat) :
    openAfter? depth (List.replicate k .closing) = if k ≤ depth then some (depth - k) else none := by
  induction k generalizing depth with
  | zero => simp [openAfter?]
  | succ k ih =>
      cases depth with
      | zero => rfl
      | succ outer =>
          rw [List.replicate_succ, openAfter?, ih]
          simp

theorem count_lineMarkers (kind : Marker) (line : Line) :
    (lineMarkers line).count kind = markerCount kind line := by
  rw [lineMarkers, List.count, List.countP_map, markerCount]
  rfl

/-! ### The walk over a line -/

theorem walkMarkers_opening (depth : Int) (column : Nat) (rest : List (Nat × Marker)) :
    walkMarkers depth ((column, .opening) :: rest) = walkMarkers (depth + 1) rest := by
  simp [walkMarkers, Marker.weight]

theorem walkMarkers_closing {depth : Int} (above : depth ≠ 0) (column : Nat)
    (rest : List (Nat × Marker)) :
    walkMarkers depth ((column, .closing) :: rest) = walkMarkers (depth - 1) rest := by
  simp [walkMarkers, Marker.weight, above, Int.sub_eq_add_neg]

theorem walkMarkers_stray (column : Nat) (rest : List (Nat × Marker)) :
    walkMarkers 0 ((column, .closing) :: rest) =
      (column :: (walkMarkers 0 rest).1, (walkMarkers 0 rest).2) := by
  simp [walkMarkers]

/-- The walk ends where the count ends, moved up by one for every closing marker that it passes
over, and never below zero. -/
theorem final_walkMarkers {depth : Int} (nonneg : 0 ≤ depth) (ms : List (Nat × Marker)) :
    (walkMarkers depth ms).2 = depth + (ms.map Prod.snd).count .opening -
        (ms.map Prod.snd).count .closing + (walkMarkers depth ms).1.length ∧
      0 ≤ (walkMarkers depth ms).2 := by
  induction ms generalizing depth with
  | nil => simpa [walkMarkers] using nonneg
  | cons m rest ih =>
      obtain ⟨column, kind⟩ := m
      cases kind with
      | opening =>
          obtain ⟨final, above⟩ := ih (show 0 ≤ depth + 1 by omega)
          rw [walkMarkers_opening]
          refine ⟨?_, above⟩
          simp only [List.map_cons, List.count_cons_self, List.count_cons_of_ne (by decide :
            Marker.opening ≠ .closing)]
          omega
      | closing =>
          by_cases bottom : depth = 0
          · subst bottom
            obtain ⟨final, above⟩ := ih (Int.le_refl 0)
            rw [walkMarkers_stray]
            refine ⟨?_, above⟩
            simp only [List.map_cons, List.count_cons_self, List.count_cons_of_ne (by decide :
              Marker.closing ≠ .opening), List.length_cons]
            omega
          · obtain ⟨final, above⟩ := ih (show 0 ≤ depth - 1 by omega)
            rw [walkMarkers_closing bottom]
            refine ⟨?_, above⟩
            simp only [List.map_cons, List.count_cons_self, List.count_cons_of_ne (by decide :
              Marker.closing ≠ .opening)]
            omega

/-- The markers are taken one by one exactly if the walk passes over none. -/
theorem openAfter?_map_snd (depth : Nat) (ms : List (Nat × Marker)) :
    openAfter? depth (ms.map Prod.snd) =
      if (walkMarkers depth ms).1 = [] then some (walkMarkers depth ms).2.toNat else none := by
  induction ms generalizing depth with
  | nil => rfl
  | cons m rest ih =>
      obtain ⟨column, kind⟩ := m
      cases kind with
      | opening =>
          rw [walkMarkers_opening]
          exact ih (depth + 1)
      | closing =>
          cases depth with
          | zero => simp [openAfter?, walkMarkers]
          | succ outer =>
              have above : ((outer + 1 : Nat) : Int) ≠ 0 := by omega
              have next : ((outer + 1 : Nat) : Int) - 1 = outer := by omega
              rw [walkMarkers_closing above, next]
              exact ih outer

/-! ### One line -/

theorem overClosed_eq_zero_iff (line : Line) (depth : Int) :
    (scanComments line depth).overClosed = 0 ↔
      markerCount .closing line ≤ depth + markerCount .opening line := by
  simp only [scanComments]
  omega

/-- Where the walk over a line ends, in terms of what the count of the line reads. -/
theorem final_walkMarkers_line {depth : Int} (nonneg : 0 ≤ depth) (line : Line) :
    (walkMarkers depth (markers line)).2 = depth + markerCount .opening line -
        markerCount .closing line + (strayCloses line depth).length ∧
      0 ≤ (walkMarkers depth (markers line)).2 := by
  rw [← count_lineMarkers, ← count_lineMarkers]
  exact final_walkMarkers nonneg (markers line)

/-- The walk over a line ends at the depth after the line, moved up by one for every stray that the
count does not see. -/
theorem length_strayCloses {depth : Int} (nonneg : 0 ≤ depth) (line : Line) :
    (walkMarkers depth (markers line)).2 + (scanComments line depth).overClosed =
      (scanComments line depth).depth + (strayCloses line depth).length := by
  obtain ⟨final, above⟩ := final_walkMarkers_line nonneg line
  simp only [scanComments]
  omega

/-- The count goes below zero by no more than there are strays. -/
theorem overClosed_le_length {depth : Int} (nonneg : 0 ≤ depth) (line : Line) :
    (scanComments line depth).overClosed ≤ (strayCloses line depth).length := by
  obtain ⟨final, above⟩ := final_walkMarkers_line nonneg line
  simp only [scanComments]
  omega

/-- A line whose count goes below zero has a stray. -/
theorem overClosed_eq_zero_of_strayCloses {depth : Int} (nonneg : 0 ≤ depth) {line : Line}
    (none : strayCloses line depth = []) : (scanComments line depth).overClosed = 0 := by
  have bound := overClosed_le_length nonneg line
  rw [none] at bound
  exact Nat.le_zero.mp bound

/-- The markers of a line are taken one by one exactly if the line has no stray. -/
theorem openAfter?_lineMarkers_iff (depth after : Nat) (line : Line) :
    openAfter? depth (lineMarkers line) = some after ↔
      strayCloses line depth = [] ∧ (scanComments line depth).depth = after := by
  rw [lineMarkers, openAfter?_map_snd, ← strayCloses]
  split
  case isTrue none =>
      have balance := length_strayCloses (Int.natCast_nonneg depth) line
      have above := scanComments_depth_nonneg line depth
      rw [none, overClosed_eq_zero_of_strayCloses (Int.natCast_nonneg depth) none] at balance
      simp only [none, Option.some.injEq, true_and, List.length_nil] at balance ⊢
      omega
  case isFalse some => simp [some]

/-- With its openings in front, the markers of a line are taken exactly if their count does not go
below zero. -/
theorem openAfter?_openingsFirst_iff (depth after : Nat) (line : Line) :
    openAfter? depth (openingsFirst line) = some after ↔
      (scanComments line depth).overClosed = 0 ∧ (scanComments line depth).depth = after := by
  rw [openingsFirst, List.filter_beq, List.filter_beq, openAfter?_append, openAfter?_openings,
    Option.bind_some, openAfter?_closings, count_lineMarkers, count_lineMarkers,
    overClosed_eq_zero_iff]
  simp only [scanComments]
  split
  · simp only [Option.some.injEq]
    omega
  · simp only [reduceCtorEq, false_iff]
    omega

/-! ### All lines -/

/-- The depth after some lines, where comments are `depth` deep before them. -/
def depthAfter (depth : Int) (ls : List Line) : Int :=
  ls.foldl (fun depth line => (scanComments line depth).depth) depth

/-- Every line has a property, given the depth of comments before it. -/
def EachLine (holds : Int → Line → Prop) (depth : Int) : List Line → Prop
  | [] => True
  | line :: rest => holds depth line ∧ EachLine holds (scanComments line depth).depth rest

theorem depthAfter_cons (depth : Int) (line : Line) (rest : List Line) :
    depthAfter depth (line :: rest) = depthAfter (scanComments line depth).depth rest :=
  rfl

theorem depthAfter_nonneg {depth : Int} (nonneg : 0 ≤ depth) (ls : List Line) :
    0 ≤ depthAfter depth ls := by
  induction ls generalizing depth with
  | nil => exact nonneg
  | cons line rest ih => exact ih (scanComments_depth_nonneg line depth)

theorem eachLine_of_nonneg {holds : Int → Line → Prop}
    (each : ∀ depth line, 0 ≤ depth → holds depth line) {depth : Int} (nonneg : 0 ≤ depth)
    (ls : List Line) : EachLine holds depth ls := by
  induction ls generalizing depth with
  | nil => trivial
  | cons line rest ih =>
      exact ⟨each depth line nonneg, ih (scanComments_depth_nonneg line depth)⟩

/-- A reading of lines that takes each line on a condition, and is then as deep as the line leaves
comments, takes all lines on this condition. -/
theorem openAfter?_flatMap_iff {read : Line → List Marker} {holds : Int → Line → Prop}
    (one : ∀ (depth after : Nat) (line : Line), openAfter? depth (read line) = some after ↔
      holds depth line ∧ (scanComments line depth).depth = after)
    (depth after : Nat) (ls : List Line) :
    openAfter? depth (ls.flatMap read) = some after ↔
      EachLine holds depth ls ∧ depthAfter depth ls = after := by
  induction ls generalizing depth with
  | nil =>
      simp only [List.flatMap_nil, openAfter?, EachLine, depthAfter, List.foldl_nil,
        Option.some.injEq, Int.ofNat_inj, true_and]
  | cons line rest ih =>
      obtain ⟨next, hnext⟩ := Int.eq_ofNat_of_zero_le (scanComments_depth_nonneg line depth)
      have here (between : Nat) : openAfter? depth (read line) = some between ↔
          holds depth line ∧ next = between := by
        rw [one, hnext, Int.ofNat_inj]
      calc openAfter? depth ((line :: rest).flatMap read) = some after
          ↔ ∃ between, openAfter? depth (read line) = some between ∧
              openAfter? between (rest.flatMap read) = some after := by
            rw [List.flatMap_cons, openAfter?_append, Option.bind_eq_some_iff]
        _ ↔ holds depth line ∧ openAfter? next (rest.flatMap read) = some after := by
            simp only [here, and_assoc, exists_and_left, exists_eq_left']
        _ ↔ EachLine holds depth (line :: rest) ∧ depthAfter depth (line :: rest) = after := by
            rw [ih, ← and_assoc, EachLine, depthAfter_cons, hnext]

/-- The line closes a comment that is not open, and opens enough behind it to make up for that. -/
def HidesStray (depth : Int) (line : Line) : Prop :=
  (scanComments line depth).overClosed = 0 ∧ strayCloses line depth ≠ []

/-- No line has a stray exactly if no line's count goes below zero and no line hides a stray. -/
theorem eachLine_noStray_iff {depth : Int} (nonneg : 0 ≤ depth) (ls : List Line) :
    EachLine (fun depth line => strayCloses line depth = []) depth ls ↔
      EachLine (fun depth line => (scanComments line depth).overClosed = 0) depth ls ∧
        EachLine (fun depth line => ¬ HidesStray depth line) depth ls := by
  induction ls generalizing depth with
  | nil => simp [EachLine]
  | cons line rest ih =>
      have here : strayCloses line depth = [] ↔
          (scanComments line depth).overClosed = 0 ∧ ¬ HidesStray depth line := by
        constructor
        · intro none
          exact ⟨overClosed_eq_zero_of_strayCloses nonneg none, fun hidden => hidden.2 none⟩
        · rintro ⟨count, shown⟩
          exact Decidable.not_not.mp fun stray => shown ⟨count, stray⟩
      rw [EachLine, EachLine, EachLine, here, ih (scanComments_depth_nonneg line depth),
        and_and_and_comm]

/-- The markers of a document are balanced exactly if no line has a stray and the depth after the
last line is zero. -/
theorem balancedMarkers_commentMarkers_iff (text : Text) :
    BalancedMarkers (commentMarkers text) ↔
      EachLine (fun depth line => strayCloses line depth = []) 0 (lines text) ∧
        depthAfter 0 (lines text) = 0 :=
  openAfter?_flatMap_iff openAfter?_lineMarkers_iff 0 0 (lines text)

/-- With the openings of each line in front they are balanced exactly if no line's count goes below
zero and the depth after the last line is zero. -/
theorem balancedMarkers_openingsFirst_iff (text : Text) :
    BalancedMarkers ((lines text).flatMap openingsFirst) ↔
      EachLine (fun depth line => (scanComments line depth).overClosed = 0) 0 (lines text) ∧
        depthAfter 0 (lines text) = 0 :=
  openAfter?_flatMap_iff openAfter?_openingsFirst_iff 0 0 (lines text)

end Dragonstone
