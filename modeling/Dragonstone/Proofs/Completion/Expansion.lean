/-
# The expansion of a snippet

The stops of a snippet are the leftmost ones that do not overlap, each as long as the text allows at
its place.  This tells them completely: of two such lists neither can begin before the other, so
they begin with the same stop, and behind it the same holds of the rest.  The pieces of a snippet
list them.

The expanded text has the default of every stop in the place of the stop, and all else as it was.
The cursor goes to the last final stop.  As no stop overlaps it, the text in front of it, taken for
itself, has the same stops, and the cursor stands where the expansion of that text ends.
-/

import Dragonstone.Proofs.Completion.TabStop

namespace Dragonstone.Completion

/-! ### The stops of a text -/

/-- A stop and the offset at which it stands. -/
structure PlacedStop where
  start : Nat
  stop : TabStop
  deriving DecidableEq, Repr

/-- The offset behind the stop. -/
def PlacedStop.after (p : PlacedStop) : Nat :=
  p.start + p.stop.written.length

/-- The leftmost stops of a text that do not overlap, from offset `n` on. -/
structure LeftmostStops (n : Nat) (text : Text) (found : List PlacedStop) : Prop where
  leads : ∀ p ∈ found, p.stop.Leads (text.drop p.start)
  behind : ∀ p ∈ found, n ≤ p.start
  apart : found.Pairwise fun p q => p.after ≤ q.start
  /-- Wherever the text has a stop, one of the list begins there or has begun before. -/
  leftmost : ∀ k stop, n ≤ k → IsTabStop stop → stop.written <+: text.drop k →
    ∃ p ∈ found, p.start ≤ k ∧ k < p.after

namespace LeftmostStops

variable {n : Nat} {text : Text} {found : List PlacedStop} {p : PlacedStop}

theorem start_le (h : LeftmostStops n text (p :: found)) : ∀ q ∈ p :: found, p.start ≤ q.start := by
  intro q mem
  obtain rfl | later := List.mem_cons.mp mem
  · exact Nat.le_refl _
  · exact Nat.le_trans (Nat.le_add_right _ _) ((List.pairwise_cons.mp h.apart).1 q later)

theorem tail (h : LeftmostStops n text (p :: found)) : LeftmostStops p.after text found where
  leads q mem := h.leads q (List.mem_cons_of_mem p mem)
  behind q mem := (List.pairwise_cons.mp h.apart).1 q mem
  apart := (List.pairwise_cons.mp h.apart).2
  leftmost k stop behind form written := by
    have start : n ≤ p.start := h.behind p List.mem_cons_self
    have past : p.start ≤ p.after := Nat.le_add_right _ _
    obtain ⟨q, mem, covers⟩ := h.leftmost k stop (by omega) form written
    obtain rfl | later := List.mem_cons.mp mem
    · omega
    · exact ⟨q, later, covers⟩

/-- Some stop of the list begins where this one begins or before. -/
theorem exists_start_le {other : List PlacedStop} (h : LeftmostStops n text (p :: found))
    (h' : LeftmostStops n text other) : ∃ q ∈ other, q.start ≤ p.start := by
  have leads := h.leads p List.mem_cons_self
  obtain ⟨q, mem, before, _⟩ :=
    h'.leftmost p.start p.stop (h.behind p List.mem_cons_self) leads.form leads.written
  exact ⟨q, mem, before⟩

theorem unique {other : List PlacedStop} (h : LeftmostStops n text found)
    (h' : LeftmostStops n text other) : found = other := by
  induction found generalizing n other with
  | nil =>
      cases other with
      | nil => rfl
      | cons q other =>
          obtain ⟨_, mem, _⟩ := h'.exists_start_le h
          cases mem
  | cons p found ih =>
      cases other with
      | nil =>
          obtain ⟨_, mem, _⟩ := h.exists_start_le h'
          cases mem
      | cons q other =>
          obtain ⟨q', mem', before⟩ := h.exists_start_le h'
          obtain ⟨p', mem, before'⟩ := h'.exists_start_le h
          have start : p.start = q.start :=
            Nat.le_antisymm (Nat.le_trans (h.start_le p' mem) before')
              (Nat.le_trans (h'.start_le q' mem') before)
          have here := tabStop?_eq_some_iff.mpr (h.leads p List.mem_cons_self)
          have here' := tabStop?_eq_some_iff.mpr (h'.leads q List.mem_cons_self)
          rw [start] at here
          have stop : p.stop = q.stop := Option.some.inj (here.symm.trans here')
          obtain rfl : p = q := by
            cases p
            cases q
            cases start
            cases stop
            rfl
          rw [ih h.tail h'.tail]

/-- No stop is missed over a character at which none begins. -/
theorem of_succ (none : tabStop? (text.drop n) = none) (h : LeftmostStops (n + 1) text found) :
    LeftmostStops n text found where
  leads := h.leads
  behind q mem := Nat.le_of_succ_le (h.behind q mem)
  apart := h.apart
  leftmost k stop behind form written := by
    obtain rfl | later := Nat.eq_or_lt_of_le behind
    · exact absurd written (tabStop?_eq_none_iff.mp none stop form)
    · exact h.leftmost k stop later form written

theorem cons {stop : TabStop} (here : tabStop? (text.drop n) = some stop)
    (h : LeftmostStops (n + stop.written.length) text found) :
    LeftmostStops n text (⟨n, stop⟩ :: found) where
  leads := List.forall_mem_cons.mpr ⟨tabStop?_eq_some_iff.mp here, h.leads⟩
  behind := List.forall_mem_cons.mpr ⟨Nat.le_refl n, fun q mem =>
    Nat.le_trans (Nat.le_add_right n _) (h.behind q mem)⟩
  apart := List.pairwise_cons.mpr ⟨h.behind, h.apart⟩
  leftmost k other behind form written := by
    by_cases inside : k < n + stop.written.length
    · exact ⟨_, List.mem_cons_self, behind, inside⟩
    · obtain ⟨q, mem, covers⟩ := h.leftmost k other (Nat.le_of_not_lt inside) form written
      exact ⟨q, List.mem_cons_of_mem _ mem, covers⟩

end LeftmostStops

/-! ### The pieces of a text -/

/-- The text of a piece as it is written. -/
def Piece.written : Piece → Text
  | .char c => [c]
  | .stop s => s.written

/-- The text is cut into the pieces from left to right: a stop where one is read, else one
character. -/
inductive CutInto : Text → List Piece → Prop where
  | nil : CutInto [] []
  | char {c : Char} {rest : Text} {parts : List Piece} (plain : tabStop? (c :: rest) = none)
      (later : CutInto rest parts) : CutInto (c :: rest) (.char c :: parts)
  | stop {s : TabStop} {rest : Text} {parts : List Piece}
      (here : tabStop? (s.written ++ rest) = some s) (later : CutInto rest parts) :
      CutInto (s.written ++ rest) (.stop s :: parts)

theorem piecesFrom_append (front rest : Text) :
    piecesFrom front.length (front ++ rest) = piecesFrom 0 rest := by
  induction front with
  | nil => rfl
  | cons c front ih => exact ih

theorem cutInto_piecesFrom (skip : Nat) (text : Text) :
    CutInto (text.drop skip) (piecesFrom skip text) := by
  induction text generalizing skip with
  | nil => simpa [piecesFrom] using CutInto.nil
  | cons c rest ih =>
      cases skip with
      | succ k => exact ih k
      | zero =>
          rw [piecesFrom]
          cases read : tabStop? (c :: rest) with
          | none => exact .char read (ih 0)
          | some s =>
              obtain ⟨form, more, whole⟩ := isTabStop_of_tabStop? read
              obtain ⟨c', tail, written⟩ := form.exists_cons
              obtain ⟨rfl, rfl⟩ : c' = c ∧ tail ++ more = rest := by simpa [written] using whole
              have later : CutInto more (piecesFrom (s.written.length - 1) (tail ++ more)) := by
                simpa [written] using ih tail.length
              rw [← whole] at read
              rw [List.drop_zero, ← whole]
              exact .stop read later

theorem cutInto_pieces (text : Text) : CutInto text (pieces text) :=
  cutInto_piecesFrom 0 text

/-- The pieces are the only ones that a text is cut into. -/
theorem CutInto.pieces_eq {text : Text} {parts : List Piece} (cut : CutInto text parts) :
    pieces text = parts := by
  induction cut with
  | nil => rfl
  | @char c rest parts plain _ ih =>
      rw [pieces, piecesFrom, plain]
      exact congrArg _ ih
  | @stop s rest parts here _ ih =>
      obtain ⟨c, tail, written⟩ := (isTabStop_of_tabStop? here).1.exists_cons
      have behind : piecesFrom (s.written.length - 1) (tail ++ rest) = parts := by
        rw [written]
        exact (piecesFrom_append tail rest).trans ih
      rw [written, List.cons_append] at here ⊢
      rw [pieces, piecesFrom, here]
      exact congrArg _ behind

theorem CutInto.flatMap_written {text : Text} {parts : List Piece} (cut : CutInto text parts) :
    parts.flatMap Piece.written = text := by
  induction cut with
  | nil => rfl
  | char _ _ ih => exact congrArg _ ih
  | stop _ _ ih => exact congrArg _ ih

theorem CutInto.written_prefix {text : Text} {front back : List Piece}
    (cut : CutInto text (front ++ back)) : front.flatMap Piece.written <+: text := by
  rw [← cut.flatMap_written, List.flatMap_append]
  exact List.prefix_append _ _

/-- What is written by the first pieces of a text is cut into these pieces. -/
theorem CutInto.front {text : Text} {front back : List Piece}
    (cut : CutInto text (front ++ back)) : CutInto (front.flatMap Piece.written) front := by
  induction front generalizing text with
  | nil => exact .nil
  | cons p front ih =>
      cases cut with
      | @char c rest _ plain later =>
          have part : front.flatMap Piece.written <+: rest := later.written_prefix
          refine .char (tabStop?_eq_none_iff.mpr fun stop form written => ?_) (ih later)
          exact tabStop?_eq_none_iff.mp plain stop form
            (written.trans (List.cons_prefix_cons.mpr ⟨rfl, part⟩))
      | @stop s rest _ here later =>
          have part : front.flatMap Piece.written <+: rest := later.written_prefix
          refine .stop (tabStop?_eq_some_iff.mpr ?_) (ih later)
          exact (tabStop?_eq_some_iff.mp here).shorten
            ((List.prefix_append_right_inj _).mpr part) (List.prefix_append _ _)

/-! ### The stops among the pieces -/

/-- The stops among some pieces, the first of which stands at offset `n`. -/
def placedStops (n : Nat) : List Piece → List PlacedStop
  | [] => []
  | .char _ :: rest => placedStops (n + 1) rest
  | .stop s :: rest => ⟨n, s⟩ :: placedStops (n + s.written.length) rest

theorem drop_length_append {text front rest : Text} {n : Nat}
    (whole : text.drop n = front ++ rest) : text.drop (n + front.length) = rest := by
  rw [← List.drop_drop, whole, List.drop_left]

theorem drop_succ_of_cons {text rest : Text} {n : Nat} {c : Char}
    (place : text.drop n = c :: rest) : text.drop (n + 1) = rest := by
  rw [← List.drop_drop, place, List.drop_one, List.tail_cons]

theorem CutInto.leftmostStops {n : Nat} {text t : Text} {parts : List Piece}
    (cut : CutInto t parts) (place : text.drop n = t) :
    LeftmostStops n text (placedStops n parts) := by
  induction cut generalizing n with
  | nil =>
      refine ⟨by simp [placedStops], by simp [placedStops], .nil, ?_⟩
      intro k stop behind form written
      obtain ⟨j, rfl⟩ := Nat.exists_eq_add_of_le behind
      rw [← List.drop_drop, place, List.drop_nil, List.prefix_nil] at written
      exact absurd (congrArg List.length written) (Nat.ne_of_gt form.length_pos)
  | char plain _ ih => exact .of_succ (place ▸ plain) (ih (drop_succ_of_cons place))
  | stop here _ ih => exact .cons (place ▸ here) (ih (drop_length_append place))

/-! ### The expanded text -/

/-- The text from offset `n` on, with the default of every stop of a list in the place of the
stop. -/
def replaced (n : Nat) (text : Text) : List PlacedStop → Text
  | [] => text.drop n
  | p :: rest => (text.take p.start).drop n ++ p.stop.default ++ replaced p.after text rest

theorem replaced_succ {n : Nat} {text rest : Text} {c : Char} {found : List PlacedStop}
    (place : text.drop n = c :: rest) (behind : ∀ p ∈ found, n + 1 ≤ p.start) :
    replaced n text found = c :: replaced (n + 1) text found := by
  have next := drop_succ_of_cons place
  cases found with
  | nil => rw [replaced, replaced, place, next]
  | cons p found =>
      obtain ⟨k, start⟩ := Nat.exists_eq_add_of_le (behind p List.mem_cons_self)
      have here : (text.take p.start).drop n = c :: (text.take p.start).drop (n + 1) := by
        have longer : p.start - n = k + 1 := by omega
        have left : p.start - (n + 1) = k := by omega
        rw [List.drop_take, List.drop_take, place, next, longer, left, List.take_succ_cons]
      rw [replaced, replaced, here]
      rfl

theorem CutInto.replaced_eq {n : Nat} {text t : Text} {parts : List Piece}
    (cut : CutInto t parts) (place : text.drop n = t) :
    replaced n text (placedStops n parts) = parts.flatMap Piece.plain := by
  induction cut generalizing n with
  | nil => exact place
  | char _ later ih =>
      have next := drop_succ_of_cons place
      rw [placedStops, replaced_succ place (later.leftmostStops next).behind, ih next]
      rfl
  | stop _ _ ih =>
      have nothing : (text.take n).drop n = [] :=
        List.drop_eq_nil_of_le (List.length_take_le n text)
      rw [placedStops, replaced, nothing, PlacedStop.after, ih (drop_length_append place)]
      rfl

/-! ### The cursor -/

def PlacedStop.isFinal (p : PlacedStop) : Bool :=
  p.stop.isFinal

/-- The offset of the last final stop of a list. -/
def lastFinal? (found : List PlacedStop) : Option Nat :=
  (found.filter PlacedStop.isFinal).getLast?.map PlacedStop.start

/-- No piece is a final stop, or one is and no piece behind it. -/
theorem final_cases (parts : List Piece) :
    (∀ p ∈ parts, p.isFinal = false) ∨ ∃ front s back, parts = front ++ .stop s :: back ∧
      s.isFinal = true ∧ ∀ p ∈ back, p.isFinal = false := by
  induction parts with
  | nil => exact .inl fun p mem => by cases mem
  | cons p parts ih =>
      obtain none | ⟨front, s, back, rfl, final, none⟩ := ih
      · cases final : p.isFinal with
        | false => exact .inl (List.forall_mem_cons.mpr ⟨final, none⟩)
        | true =>
            cases p with
            | char c => cases final
            | stop s => exact .inr ⟨[], s, parts, rfl, final, none⟩
      · exact .inr ⟨p :: front, s, back, rfl, final, none⟩

theorem placedStops_append (n : Nat) (front back : List Piece) :
    placedStops n (front ++ back) =
      placedStops n front ++ placedStops (n + (front.flatMap Piece.written).length) back := by
  induction front generalizing n with
  | nil => rfl
  | cons p front ih =>
      rw [List.flatMap_cons, List.length_append, ← Nat.add_assoc]
      cases p with
      | char c => exact ih (n + 1)
      | stop s => exact congrArg _ (ih (n + s.written.length))

theorem filter_placedStops_eq_nil {parts : List Piece} (none : ∀ p ∈ parts, p.isFinal = false)
    (n : Nat) : (placedStops n parts).filter PlacedStop.isFinal = [] := by
  induction parts generalizing n with
  | nil => rfl
  | cons p parts ih =>
      obtain ⟨here, later⟩ := List.forall_mem_cons.mp none
      cases p with
      | char c => exact ih later (n + 1)
      | stop s =>
          have other : ¬ PlacedStop.isFinal ⟨n, s⟩ = true := Bool.eq_false_iff.mp here
          rw [placedStops, List.filter_cons_of_neg other]
          exact ih later _

theorem finalOffset?_eq_none {parts : List Piece} (none : ∀ p ∈ parts, p.isFinal = false)
    (offset : Nat) : finalOffset? offset parts = Option.none := by
  induction parts generalizing offset with
  | nil => rfl
  | cons p parts ih =>
      obtain ⟨here, later⟩ := List.forall_mem_cons.mp none
      rw [finalOffset?, ih later, here]
      rfl

/-- The last final stop is where the pieces in front of it expand to. -/
theorem finalOffset?_append {s : TabStop} {front back : List Piece} (final : s.isFinal = true)
    (none : ∀ p ∈ back, p.isFinal = false) (offset : Nat) :
    finalOffset? offset (front ++ .stop s :: back) =
      some (offset + (front.flatMap Piece.plain).length) := by
  induction front generalizing offset with
  | nil =>
      rw [List.nil_append, finalOffset?, finalOffset?_eq_none none, Piece.isFinal, final]
      rfl
  | cons p front ih =>
      rw [List.cons_append, finalOffset?, ih, List.flatMap_cons, List.length_append,
        Nat.add_assoc]
      rfl

theorem lastFinal?_placedStops {s : TabStop} {front back : List Piece} (final : s.isFinal = true)
    (none : ∀ p ∈ back, p.isFinal = false) (n : Nat) :
    lastFinal? (placedStops n (front ++ .stop s :: back)) =
      some (n + (front.flatMap Piece.written).length) := by
  have here : PlacedStop.isFinal ⟨n + (front.flatMap Piece.written).length, s⟩ = true := final
  rw [lastFinal?, placedStops_append, List.filter_append, placedStops,
    List.filter_cons_of_pos here, filter_placedStops_eq_nil none, List.getLast?_concat]
  rfl

/-- A final stop lies within the text that the parts expand to. -/
theorem finalOffset?_le {offset k : Nat} {parts : List Piece}
    (final : finalOffset? offset parts = some k) :
    k ≤ offset + (parts.flatMap Piece.plain).length := by
  induction parts generalizing offset with
  | nil => cases final
  | cons p rest ih =>
      rw [List.flatMap_cons, List.length_append]
      rw [finalOffset?, Option.or_eq_some_iff] at final
      obtain later | ⟨_, here⟩ := final
      · exact Nat.le_trans (ih later) (Nat.le_of_eq (Nat.add_assoc _ _ _))
      · split at here
        · cases here
          exact Nat.le_add_right _ _
        · cases here

theorem cursorOffset_le (snippet : Text) : cursorOffset snippet ≤ (plainText snippet).length := by
  unfold cursorOffset
  cases final : finalOffset? 0 (pieces snippet) with
  | none => exact Nat.le_refl _
  | some k => exact Nat.le_trans (finalOffset?_le final) (Nat.le_of_eq (Nat.zero_add _))

/-- The cursor stands where the text in front of the last final stop would end, expanded for itself,
and at the end of the whole expansion if there is no final stop. -/
theorem cursorOffset_eq (text : Text) :
    cursorOffset text =
      match lastFinal? (placedStops 0 (pieces text)) with
      | some k => (plainText (text.take k)).length
      | none => (plainText text).length := by
  have cut := cutInto_pieces text
  obtain none | ⟨front, s, back, whole, final, none⟩ := final_cases (pieces text)
  · rw [cursorOffset, finalOffset?_eq_none none, lastFinal?, filter_placedStops_eq_nil none]
    rfl
  · rw [whole] at cut
    have place : text.take (front.flatMap Piece.written).length = front.flatMap Piece.written :=
      (List.prefix_iff_eq_take.mp cut.written_prefix).symm
    rw [cursorOffset, whole, finalOffset?_append final none, lastFinal?_placedStops final none]
    simp only [Nat.zero_add, Option.getD_some, place]
    rw [plainText, cut.front.pieces_eq]

/-- The stops of a snippet are the leftmost ones that do not overlap, and no other list is.  The
expanded text has their defaults in their places.  The cursor stands in it where the text in front
of the last final stop, expanded for itself, would end, and at the end if there is no final stop. -/
theorem snippet_expands_at_leftmost_stops (text : Text) :
    ∃ found, (∀ other, LeftmostStops 0 text other ↔ other = found) ∧
      plainText text = replaced 0 text found ∧
      cursorOffset text ≤ (plainText text).length ∧
      cursorOffset text =
        match lastFinal? found with
        | some k => (plainText (text.take k)).length
        | none => (plainText text).length := by
  have cut := cutInto_pieces text
  have leftmost := cut.leftmostStops List.drop_zero
  refine ⟨placedStops 0 (pieces text), fun other => ⟨fun h => h.unique leftmost, ?_⟩,
    (cut.replaced_eq List.drop_zero).symm, cursorOffset_le text, cursorOffset_eq text⟩
  rintro rfl
  exact leftmost

end Dragonstone.Completion
