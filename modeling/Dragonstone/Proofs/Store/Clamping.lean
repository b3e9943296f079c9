/-
# Positions outside the text

A client may name any line and any character, also ones that are not there.  The store moves such a
place to one that is: to the end of the text where there is no such line, and to the end of the line,
in front of its break, where the line is shorter.  This does no harm.  The offsets of two positions
lie in the text, in the order of the positions, and none of them lies between the two characters of
a line break.

So a change whose range does not end before it starts keeps all of the text in front of its start
and behind its stop, and each line break of the old text is kept whole or goes whole.
-/

import Dragonstone.Proofs.Store.Splice

namespace Dragonstone

/-- The position counts lines and characters from zero. -/
structure Position.IsNatural (p : Position) : Prop where
  line : 0 ≤ p.line
  character : 0 ≤ p.character

/-! ### The walk past line feeds -/

/-- A walk past some line feeds has as many of them behind it, and the last one ends it. -/
theorem exists_of_afterFeeds? {n : Nat} {s rest : Text} (walked : afterFeeds? n s = some rest) :
    ∃ whole, s = whole ++ rest ∧ whole.count '\n' = n ∧
      ∀ c, whole.getLast? = some c → c = '\n' := by
  fun_induction afterFeeds? n s with
  | case1 s =>
      cases walked
      exact ⟨[], rfl, rfl, fun _ last => by cases last⟩
  | case2 => cases walked
  | case3 n c s feed ih =>
      obtain ⟨whole, rfl, count, ends⟩ := ih walked
      obtain rfl : c = '\n' := beq_iff_eq.mp feed
      refine ⟨'\n' :: whole, rfl, by rw [List.count_cons_self, count], fun d last => ?_⟩
      rw [List.getLast?_cons, Option.some.injEq] at last
      cases behind : whole.getLast? with
      | none => rw [← last, behind]; rfl
      | some e => rw [← last, behind]; exact ends e behind
  | case4 n c s other ih =>
      obtain ⟨whole, rfl, count, ends⟩ := ih walked
      have different : c ≠ '\n' := fun feed => other (beq_iff_eq.mpr feed)
      refine ⟨c :: whole, rfl, by rw [List.count_cons_of_ne different, count], fun d last => ?_⟩
      -- A line feed is still to come, so this character is not the last one.
      have more : whole ≠ [] := by
        rintro rfl
        cases count
      rw [List.getLast?_cons_of_ne_nil more] at last
      exact ends d last

/-- A walk may be taken in two parts. -/
theorem afterFeeds?_add (n m : Nat) (s : Text) :
    afterFeeds? (n + m) s = (afterFeeds? n s).bind (afterFeeds? m) := by
  fun_induction afterFeeds? n s with
  | case1 s => rw [Nat.zero_add]; rfl
  | case2 n => rw [Nat.succ_add]; rfl
  | case3 n c s feed ih => rw [Nat.succ_add, afterFeeds?, if_pos feed, ih]
  | case4 n c s other ih =>
      rw [Nat.succ_add, afterFeeds?, if_neg other, ← ih, Nat.succ_add]

theorem firstLineLength_le (s : Text) :
    firstLineLength s ≤ (s.takeWhile (· != '\n')).length := by
  simp only [firstLineLength]
  split <;> omega

theorem firstLineLength_le_length (s : Text) : firstLineLength s ≤ s.length :=
  Nat.le_trans (firstLineLength_le s) (List.takeWhile_prefix _).length_le

/-- A line ends in front of the line feed behind which the next one begins. -/
theorem firstLineLength_lt_of_afterFeeds? {n : Nat} {s rest : Text}
    (walked : afterFeeds? (n + 1) s = some rest) :
    firstLineLength s + rest.length < s.length := by
  obtain ⟨whole, rfl, count, -⟩ := exists_of_afterFeeds? walked
  have feed : '\n' ∈ whole := List.count_pos_iff.mp (by omega)
  have stops : ((whole ++ rest).takeWhile (· != '\n')).length < whole.length := by
    rw [List.takeWhile_append]
    split
    case isTrue all =>
        rw [← (List.takeWhile_prefix (· != '\n')).eq_of_length all] at feed
        simpa using List.all_eq_true.mp List.all_takeWhile _ feed
    case isFalse short =>
        exact Nat.lt_of_le_of_ne (List.takeWhile_prefix _).length_le short
  have le := firstLineLength_le (whole ++ rest)
  rw [List.length_append]
  omega

/-! ### Line breaks stay whole -/

/-- An offset splits a line break if it stands behind the first of its two characters. -/
theorem splitsBreak_succ_iff {text : Text} {k : Nat} :
    SplitsBreak text (k + 1) ↔ text[k]? = some '\r' ∧ text[k + 1]? = some '\n' := by
  rw [SplitsBreak, List.head?_drop]
  refine and_congr_left fun feed => ?_
  have inside : k < text.length := Nat.lt_of_succ_lt (List.getElem?_eq_some_iff.mp feed).1
  rw [List.getLast?_take, if_neg (Nat.succ_ne_zero k), Nat.add_sub_cancel,
    List.getElem?_eq_getElem inside, Option.some_or]

/-- No place in a line, and not its end, splits a line break. -/
theorem not_splitsBreak_of_le_firstLineLength {s : Text} {k : Nat} (le : k ≤ firstLineLength s) :
    ¬ SplitsBreak s k := by
  rintro ⟨last, first⟩
  obtain ⟨behind, after⟩ := List.head?_eq_some_iff.mp first
  have feed : '\n' ∉ s.take k := by
    intro member
    have inLine : s.take k <+: s.takeWhile (· != '\n') :=
      List.prefix_of_prefix_length_le (List.take_prefix k s) (List.takeWhile_prefix _) <| by
        have := firstLineLength_le s
        rw [List.length_take]
        omega
    simpa using List.all_eq_true.mp List.all_takeWhile _ (inLine.subset member)
  have short := firstLineLength_append_feed feed last behind
  rw [← after, List.take_append_drop, List.length_take] at short
  obtain rfl : k = 0 := by omega
  cases last

/-- Nor does such a place where whole lines stand in front of the line. -/
theorem not_splitsBreak_append {whole rest : Text} (ends : ∀ c, whole.getLast? = some c → c = '\n')
    {k : Nat} (le : k ≤ firstLineLength rest) : ¬ SplitsBreak (whole ++ rest) (whole.length + k) := by
  rintro ⟨last, first⟩
  rw [List.drop_length_add_append] at first
  rw [List.take_length_add_append, List.getLast?_append, Option.or_eq_some_iff] at last
  obtain here | ⟨-, before⟩ := last
  · exact not_splitsBreak_of_le_firstLineLength le ⟨here, first⟩
  · cases ends _ before

/-! ### Offsets of positions -/

section Offset

variable {text : Text} {p q : Position}

/-- A line that there is not means the end of the text. -/
theorem offsetOf_of_none (walked : afterFeeds? p.line.toNat text = none) :
    offsetOf text p = text.length := by
  rw [offsetOf, walked]

/-- A character of a line means its place, or the end of the line if it is shorter. -/
theorem offsetOf_of_some {rest : Text} (walked : afterFeeds? p.line.toNat text = some rest) :
    offsetOf text p = text.length - rest.length + min p.character (firstLineLength rest) := by
  rw [offsetOf, walked]
  simp only
  omega

/-- A position means an offset of the text that splits no line break. -/
theorem exists_offsetOf_eq (text : Text) (natural : p.IsNatural) :
    ∃ i : Nat, offsetOf text p = i ∧ i ≤ text.length ∧ ¬ SplitsBreak text i := by
  cases walked : afterFeeds? p.line.toNat text with
  | none =>
      refine ⟨text.length, offsetOf_of_none walked, Nat.le_refl _, fun split => ?_⟩
      have first := split.2
      rw [List.drop_length] at first
      cases first
  | some rest =>
      have place := offsetOf_of_some walked
      obtain ⟨whole, rfl, -, ends⟩ := exists_of_afterFeeds? walked
      have fits := firstLineLength_le_length rest
      have counted := natural.character
      refine ⟨whole.length + min p.character.toNat (firstLineLength rest), ?_, ?_,
        not_splitsBreak_append ends (Nat.min_le_right _ _)⟩
      · rw [place, List.length_append]
        omega
      · rw [List.length_append]
        omega

/-- Positions in order mean offsets in order. -/
theorem offsetOf_le_offsetOf (text : Text) (start : p.IsNatural) (stop : q.IsNatural)
    (ordered : q.before p = false) : offsetOf text p ≤ offsetOf text q := by
  simp only [Position.before, Bool.or_eq_false_iff, Bool.and_eq_false_iff, decide_eq_false_iff_not,
    beq_eq_false_iff_ne] at ordered
  obtain ⟨lines, columns⟩ := ordered
  have counted := start.line
  have countedStop := stop.character
  obtain ⟨n, later⟩ : ∃ n, q.line.toNat = p.line.toNat + n :=
    Nat.exists_eq_add_of_le (by omega)
  have further : afterFeeds? q.line.toNat text =
      (afterFeeds? p.line.toNat text).bind (afterFeeds? n) := by
    rw [later, afterFeeds?_add]
  cases walked : afterFeeds? p.line.toNat text with
  | none =>
      rw [walked] at further
      exact Int.le_of_eq ((offsetOf_of_none walked).trans (offsetOf_of_none further).symm)
  | some rest =>
      rw [walked, Option.bind_some] at further
      rw [offsetOf_of_some walked]
      cases n with
      | zero =>
          -- Both positions are on one line, and the order is that of their columns.
          rw [offsetOf_of_some (further.trans (afterFeeds?.eq_1 rest))]
          omega
      | succ n =>
          cases walkedOn : afterFeeds? (n + 1) rest with
          | none =>
              have fits := firstLineLength_le_length rest
              rw [offsetOf_of_none (further.trans walkedOn)]
              omega
          | some rest' =>
              -- The later line begins behind the end of this one.
              have behind := firstLineLength_lt_of_afterFeeds? walkedOn
              rw [offsetOf_of_some (further.trans walkedOn)]
              omega

end Offset

/-! ### Changes -/

/-- Every line break is in front of two places that split none, between them or behind them. -/
theorem break_cases {text : Text} {i j k : Nat} (wholeStart : ¬ SplitsBreak text i)
    (wholeStop : ¬ SplitsBreak text j) (cr : text[k]? = some '\r') (lf : text[k + 1]? = some '\n') :
    k + 2 ≤ i ∨ (i ≤ k ∧ k + 2 ≤ j) ∨ j ≤ k := by
  have split : SplitsBreak text (k + 1) := splitsBreak_succ_iff.mpr ⟨cr, lf⟩
  have : i ≠ k + 1 := fun here => wholeStart (here ▸ split)
  have : j ≠ k + 1 := fun here => wholeStop (here ▸ split)
  omega

/-- Two positions in order, with lines and characters counted from zero, mean offsets of the text in
order, and neither splits a line break.  A change of a document from the one to the other keeps what
is in front of the first offset and what is behind the second, and the document holds the result.
Each line break of the old text is kept in front, kept behind or replaced, but as a whole. -/
theorem change_keeps_outside (text : Text) {p q : Position} (start : p.IsNatural)
    (stop : q.IsNatural) (ordered : q.before p = false) :
    0 ≤ offsetOf text p ∧ offsetOf text p ≤ offsetOf text q ∧ offsetOf text q ≤ text.length ∧
      ∃ i j : Nat, offsetOf text p = i ∧ offsetOf text q = j ∧
        ¬ SplitsBreak text i ∧ ¬ SplitsBreak text j ∧
        (∀ (store : Store) (uri : String) (replacement : Text),
          (store.get? uri).getD [] = text →
          store.changed uri ⟨p, q⟩ replacement = text.take i ++ replacement ++ text.drop j ∧
          (store.applyChange uri ⟨p, q⟩ replacement).get? uri =
            some (text.take i ++ replacement ++ text.drop j)) ∧
        ∀ k, text[k]? = some '\r' → text[k + 1]? = some '\n' →
          k + 2 ≤ i ∨ (i ≤ k ∧ k + 2 ≤ j) ∨ j ≤ k := by
  have inOrder := offsetOf_le_offsetOf text start stop ordered
  obtain ⟨i, place, _, wholeStart⟩ := exists_offsetOf_eq text start
  obtain ⟨j, placeStop, inside, wholeStop⟩ := exists_offsetOf_eq text stop
  refine ⟨by omega, inOrder, by omega, i, j, place, placeStop, wholeStart, wholeStop, ?_,
    fun k => break_cases wholeStart wholeStop⟩
  intro store uri replacement stored
  have changed : store.changed uri ⟨p, q⟩ replacement =
      text.take i ++ replacement ++ text.drop j := by
    have later : max (i : Int) (j : Int) = j := by omega
    rw [Store.changed, stored]
    simp only [replaceRange, place, placeStop, later, upTo_natCast, fromOn_natCast]
  exact ⟨changed, by rw [Store.applyChange, KeyMap.get?_put, if_pos rfl, changed]⟩

/-- A change from behind the end of a line to behind the end of the empty line after it. -/
theorem change_keeps_outside_of_short_lines :
    let text := "ab\r\n\r\nc\rd".toList
    let store : Store := ⟨[("a", text)]⟩
    let p : Position := ⟨0, 9⟩
    let q : Position := ⟨1, 5⟩
    p.IsNatural ∧ q.IsNatural ∧ q.before p = false ∧ offsetOf text p = 2 ∧ offsetOf text q = 4 ∧
      ¬ SplitsBreak text 2 ∧ ¬ SplitsBreak text 4 ∧
      (store.applyChange "a" ⟨p, q⟩ "-".toList).get? "a" = some "ab-\r\nc\rd".toList := by
  intro text store p q
  have start : p.IsNatural := ⟨by decide, by decide⟩
  have stop : q.IsNatural := ⟨by decide, by decide⟩
  have place : offsetOf text p = 2 := by decide
  have placeStop : offsetOf text q = 4 := by decide
  obtain ⟨-, -, -, i, j, hi, hj, wholeStart, wholeStop, changes, -⟩ :=
    change_keeps_outside text start stop (by decide)
  obtain rfl : i = 2 := Int.ofNat_inj.mp (hi.symm.trans place)
  obtain rfl : j = 4 := Int.ofNat_inj.mp (hj.symm.trans placeStop)
  exact ⟨start, stop, by decide, place, placeStop, wholeStart, wholeStop,
    (changes store "a" "-".toList (by decide)).2⟩

end Dragonstone
