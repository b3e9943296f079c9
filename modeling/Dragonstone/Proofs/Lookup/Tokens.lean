/-
# Tokens of a line

A token is a stretch of a line that reads as a name and that becomes no name when it is made longer
at one of its ends.  This says nothing about how tokens are found.  Cutting identifiers off a line
from the left finds exactly the tokens, in order and apart from each other, and with them every
letter of the line.

What could go wrong is that a cut begins too late, inside a run of letters and digits whose front
part was passed over.  A run is passed over only as long as it holds digits, and the next cut begins
behind a run or behind a mark; so where a cut can begin, no letter of the run stands in front of it.
-/

import Dragonstone.Proofs.Lookup.Identifiers
import Mathlib.Data.List.Pairwise
import Mathlib.Logic.ExistsUnique

namespace Dragonstone

/-- In front of the last character of a name stand letters and digits only, and a character that is
none can only be the mark at its end. -/
theorem IsMarkedName.split {start : Char → Bool} {u v : Text} {c : Char}
    (isName : IsMarkedName start (u ++ c :: v)) :
    (∀ d ∈ u, isWordChar d = true) ∧ (isWordChar c = true ∨ isNameMark c = true ∧ v = []) := by
  obtain ⟨stem, identifier, whole | ⟨mark, isMark, whole⟩⟩ := isName
  · have letters := identifier.2
    rw [← whole] at letters
    exact ⟨fun d mem => letters d (List.mem_append_left _ mem),
      .inl (letters c (List.mem_append_right _ List.mem_cons_self))⟩
  · obtain rfl | ⟨w, x, rfl⟩ := List.eq_nil_or_concat v
    · obtain ⟨rfl, last⟩ := List.append_inj' whole rfl
      obtain rfl := (List.cons.inj last).1
      exact ⟨identifier.2, .inr ⟨isMark, rfl⟩⟩
    · have front : u ++ c :: w ++ [x] = stem ++ [mark] := by
        rw [← whole, List.concat_eq_append, List.append_assoc, List.cons_append]
      obtain ⟨rfl, _⟩ := List.append_inj' front rfl
      exact ⟨fun d mem => identifier.2 d (List.mem_append_left _ mem),
        .inl (identifier.2 c (List.mem_append_right _ List.mem_cons_self))⟩

theorem IsMarkedName.length_pos {start : Char → Bool} {name : Text}
    (isName : IsMarkedName start name) : 0 < name.length := by
  have head := isName.head
  cases name with
  | nil => cases head
  | cons c name => exact Nat.zero_lt_succ _

/-- A name with letters and digits in front of it is a name, if what stands in front could begin
one. -/
theorem IsMarkedName.append {start start' : Char → Bool} {u name : Text}
    (isName : IsMarkedName start' name) (head : u.head?.any start = true)
    (letters : ∀ c ∈ u, isWordChar c = true) : IsMarkedName start (u ++ name) := by
  have extended {stem : Text} (identifier : IsIdentifier start' stem) :
      IsIdentifier start (u ++ stem) :=
    ⟨head?_any_append head stem, List.forall_mem_append.mpr ⟨letters, identifier.2⟩⟩
  obtain ⟨stem, identifier, rfl | ⟨mark, isMark, rfl⟩⟩ := isName
  · exact ⟨u ++ name, extended identifier, .inl rfl⟩
  · exact ⟨u ++ stem, extended identifier, .inr ⟨mark, isMark, (List.append_assoc _ _ _).symm⟩⟩

/-- A name that was taken from a text goes no further: what follows it makes no longer name. -/
theorem not_isMarkedName_of_markedName? {start : Char → Bool}
    (letters : ∀ c, start c = true → isWordChar c = true) {s name rest more : Text}
    (taken : markedName? start s = some (name, rest)) (some : more ≠ []) (front : more <+: rest) :
    ¬ IsMarkedName start (name ++ more) := by
  intro longer
  obtain ⟨c, v, rfl⟩ := List.exists_cons_of_ne_nil some
  obtain ⟨behind, rfl⟩ := front
  obtain ⟨inner, next⟩ := longer.split
  obtain ⟨⟨stem, after⟩, found, taken⟩ := Option.map_eq_some_iff.mp taken
  obtain ⟨_, _, ends⟩ := (identifier?_eq_some_iff letters).mp found
  cases after with
  | nil => cases taken
  | cons d after =>
      have other : isWordChar d = false := ends
      simp only at taken
      split at taken
      case isTrue mark =>
        cases taken
        have inside := inner d (List.mem_append_right _ List.mem_cons_self)
        exact Bool.noConfusion (other.symm.trans inside)
      case isFalse unmarked =>
        cases taken
        obtain word | ⟨mark, _⟩ := next
        · exact Bool.noConfusion (other.symm.trans word)
        · exact unmarked mark

namespace Lookup

/-- A stretch of a line that reads as an ASCII identifier with at most one mark behind it.  Longer at
its end it is none, nor longer at its front: what stands there begins with a digit, or is no word. -/
structure IsToken (line : Line) (start stop : Nat) : Prop where
  inside : stop ≤ line.length
  isName : IsMarkedName isIdentStart (between line start stop)
  not_behind : ∀ further, stop < further → further ≤ line.length →
    ¬ IsMarkedName isIdentStart (between line start further)
  not_before : ∀ earlier, earlier < start →
    ¬ IsMarkedName isIdentStart (between line earlier stop)

/-- The column stands in a stretch of a line or at one of its ends. -/
def Touches (column : Int) (start stop : Nat) : Prop :=
  start ≤ column ∧ column ≤ stop

instance (column : Int) (start stop : Nat) : Decidable (Touches column start stop) :=
  inferInstanceAs (Decidable (_ ∧ _))

/-! ### Parts of a line -/

/-- The columns of a stretch cut the line into three parts. -/
theorem exists_cut {line : Line} {start stop : Nat} (le : start ≤ stop)
    (inside : stop ≤ line.length) :
    ∃ front name rest, line = front ++ (name ++ rest) ∧ front.length = start ∧
      front.length + name.length = stop := by
  refine ⟨line.take start, (line.drop start).take (stop - start), line.drop stop, ?_, ?_, ?_⟩
  · have behind : line.drop stop = (line.drop start).drop (stop - start) := by
      rw [List.drop_drop]
      congr 1
      omega
    rw [behind, List.take_append_drop, List.take_append_drop]
  · exact List.length_take_of_le (Nat.le_trans le inside)
  · simp only [List.length_take, List.length_drop]
    omega

theorem between_append_append (front u v rest : Text) :
    between (front ++ (u ++ (v ++ rest))) front.length (front.length + u.length + v.length) =
      u ++ v := by
  have whole := between_append front (u ++ v) rest
  rw [List.length_append, ← Nat.add_assoc, List.append_assoc] at whole
  exact whole

theorem IsToken.lt {line : Line} {start stop : Nat} (token : IsToken line start stop) :
    start < stop := by
  have some := token.isName.length_pos
  rw [between, List.length_drop, List.length_take] at some
  omega

/-- A token is a name between a front part and the rest of the line. -/
theorem isToken_iff {front name rest : Text} :
    IsToken (front ++ (name ++ rest)) front.length (front.length + name.length) ↔
      IsMarkedName isIdentStart name ∧
        (∀ more, more ≠ [] → more <+: rest → ¬ IsMarkedName isIdentStart (name ++ more)) ∧
        ∀ run, run ≠ [] → run <:+ front → ¬ IsMarkedName isIdentStart (run ++ name) := by
  have here := between_append front name rest
  constructor
  · intro token
    refine ⟨here ▸ token.isName, ?_, ?_⟩
    · rintro more some ⟨behind, rfl⟩
      have longer := token.not_behind (front.length + name.length + more.length)
        (Nat.lt_add_of_pos_right (List.length_pos_iff.mpr some))
        (by simp only [List.length_append]; omega)
      rwa [between_append_append] at longer
    · rintro run some ⟨before, rfl⟩
      have longer := token.not_before before.length (by
        rw [List.length_append]
        exact Nat.lt_add_of_pos_right (List.length_pos_iff.mpr some))
      rwa [List.append_assoc, List.length_append, between_append_append] at longer
  · rintro ⟨isName, behind, before⟩
    refine ⟨by simp only [List.length_append]; omega, here.symm ▸ isName, ?_, ?_⟩
    · intro further past inside
      obtain ⟨front', name', rest', whole, atFront, atName⟩ :=
        exists_cut (Nat.le_of_lt past : front.length + name.length ≤ further) inside
      rw [← List.append_assoc] at whole
      obtain ⟨rfl, rfl⟩ := List.append_inj whole (by rw [atFront, List.length_append])
      rw [← atName, List.length_append, between_append_append]
      exact behind name' (List.length_pos_iff.mp (by omega)) (List.prefix_append _ _)
    · intro earlier early
      obtain ⟨front', run, rest', whole, rfl, atRun⟩ :=
        exists_cut (Nat.le_of_lt early) (Nat.le_refl front.length)
      have empty : rest' = [] := by
        have total := congrArg List.length whole
        simp only [List.length_append] at total
        exact List.length_eq_zero_iff.mp (by omega)
      subst empty
      rw [List.append_nil] at whole
      subst whole
      rw [List.append_assoc, List.length_append, between_append_append]
      exact before run (List.length_pos_iff.mp (by omega)) (List.suffix_append _ _)

/-! ### One cut -/

/-- The run of letters and digits at the end of a text holds digits only. -/
def EndsClear (front : Text) : Prop :=
  ∀ run, run <:+ front → (∀ c ∈ run, isWordChar c = true) → ∀ c ∈ run, isIdentStart c = false

/-- A cut may begin: where the text goes on with a letter or a digit, no letter of the same run stands
in front of it. -/
def IsFresh (front s : Text) : Prop :=
  s.head?.any isWordChar = true → EndsClear front

/-- A run that ends with a given character is this character behind a run. -/
theorem exists_of_suffix_append {run front : Text} {c : Char} (ends : run <:+ front ++ [c])
    (some : run ≠ []) : ∃ run', run = run' ++ [c] ∧ run' <:+ front := by
  obtain ⟨before, whole⟩ := ends
  obtain rfl | ⟨run', d, rfl⟩ := List.eq_nil_or_concat run
  · exact absurd rfl some
  · rw [List.concat_eq_append, ← List.append_assoc] at whole
    obtain ⟨rfl, last⟩ := List.append_inj' whole rfl
    cases last
    exact ⟨run', List.concat_eq_append, List.suffix_append _ _⟩

theorem EndsClear.append_singleton {front : Text} {c : Char} (passed : isIdentStart c = false)
    (clear : isWordChar c = true → EndsClear front) : EndsClear (front ++ [c]) := by
  intro run ends letters d mem
  obtain ⟨run', rfl, ends'⟩ := exists_of_suffix_append ends (List.ne_nil_of_mem mem)
  have word := letters c (List.mem_append_right _ List.mem_cons_self)
  obtain mem | mem := List.mem_append.mp mem
  · exact clear word run' ends' (fun d mem => letters d (List.mem_append_left _ mem)) d mem
  · rwa [List.mem_singleton.mp mem]

/-- Behind a character that begins no identifier a cut may begin, if it could begin in front. -/
theorem IsFresh.pass {front rest : Text} {c : Char} (fresh : IsFresh front (c :: rest))
    (passed : isIdentStart c = false) : IsFresh (front ++ [c]) rest :=
  fun _ => .append_singleton passed fresh

/-- Behind a name that was taken a cut may begin. -/
theorem IsFresh.behind {start : Char → Bool}
    (letters : ∀ c, start c = true → isWordChar c = true) (front : Text) {s name rest : Text}
    (taken : markedName? start s = some (name, rest)) : IsFresh (front ++ name) rest := by
  intro word
  obtain ⟨⟨stem, after⟩, found, taken⟩ := Option.map_eq_some_iff.mp taken
  obtain ⟨_, _, ends⟩ := (identifier?_eq_some_iff letters).mp found
  cases after with
  | nil =>
      cases taken
      cases word
  | cons c after =>
      simp only at taken
      split at taken
      case isTrue mark =>
        cases taken
        have other : isWordChar c = false := ends
        have passed : isIdentStart c = false := by
          refine Bool.eq_false_iff.mpr fun letter => ?_
          exact Bool.noConfusion (other.symm.trans (isWordChar_of_isIdentStart letter))
        rw [← List.append_assoc]
        exact .append_singleton passed fun word => Bool.noConfusion (other.symm.trans word)
      case isFalse =>
        cases taken
        exact Bool.noConfusion (ends.symm.trans word)

/-- A name that is taken where a cut may begin is a token. -/
theorem isToken_of_markedName? {front s name rest : Text} (fresh : IsFresh front s)
    (taken : markedName? isIdentStart s = some (name, rest)) :
    IsToken (front ++ s) front.length (front.length + name.length) := by
  have isName := isMarkedName_of_markedName? (fun _ => isWordChar_of_isIdentStart) taken
  have whole : s = name ++ rest := append_of_markedName? taken
  have clear : EndsClear front :=
    fresh (whole ▸ head?_any_append (head_of_isMarkedName isName) rest)
  rw [whole]
  refine isToken_iff.mpr ⟨isName,
    fun more some front => not_isMarkedName_of_markedName?
      (fun _ => isWordChar_of_isIdentStart) taken some front, ?_⟩
  intro run some ends longer
  obtain ⟨c, name, rfl⟩ := List.exists_cons_of_length_pos isName.length_pos
  obtain ⟨d, run, rfl⟩ := List.exists_cons_of_ne_nil some
  have letter : isIdentStart d = true := longer.head
  exact Bool.noConfusion
    ((clear _ ends longer.split.1 d List.mem_cons_self).symm.trans letter)

/-- A token begins with a letter. -/
theorem IsToken.isIdentStart {front s : Text} {stop : Nat}
    (token : IsToken (front ++ s) front.length stop) : s.head?.any isIdentStart = true := by
  have head := token.isName.head
  rw [between, List.head?_drop, List.getElem?_take_of_lt token.lt, List.getElem?_append_right
    (Nat.le_refl _), Nat.sub_self, ← List.head?_eq_getElem?] at head
  exact head

/-- Tokens that begin at the same column are the same. -/
theorem IsToken.stop_unique {line : Line} {start stop stop' : Nat}
    (token : IsToken line start stop) (token' : IsToken line start stop') : stop = stop' := by
  obtain less | same | more := Nat.lt_trichotomy stop stop'
  · exact absurd token'.isName (token.not_behind stop' less token'.inside)
  · exact same
  · exact absurd token.isName (token'.not_behind stop more token.inside)

/-- No token begins inside a name but at its front. -/
theorem not_isToken_of_inside {front u v rest : Text} {stop : Nat}
    (isName : IsMarkedName isIdentStart (u ++ v)) (some : u ≠ []) (inner : v ≠ []) :
    ¬ IsToken (front ++ (u ++ (v ++ rest))) (front ++ u).length stop := by
  intro token
  obtain ⟨front', w, rest', whole, atFront, rfl⟩ := exists_cut (Nat.le_of_lt token.lt) token.inside
  rw [← List.append_assoc] at whole token
  obtain ⟨rfl, behind⟩ := List.append_inj whole atFront.symm
  rw [behind] at token
  obtain ⟨isToken, _, before⟩ := isToken_iff.mp token
  obtain ⟨c, u, rfl⟩ := List.exists_cons_of_ne_nil some
  obtain ⟨d, v, rfl⟩ := List.exists_cons_of_ne_nil inner
  exact before _ some (List.suffix_append _ _) (isToken.append isName.head isName.split.1)

/-! ### All cuts -/

theorem identifierSpans_skip (col : Nat) {skip : Nat} {s : Text} (within : skip ≤ s.length) :
    identifierSpans col skip s = identifierSpans (col + skip) 0 (s.drop skip) := by
  induction skip generalizing col s with
  | zero => rfl
  | succ k ih =>
      cases s with
      | nil => cases within
      | cons c s =>
          rw [identifierSpans, ih (col + 1) (Nat.le_of_succ_le_succ within), List.drop_succ_cons]
          congr 1
          omega

/-- The next identifier is taken whole, and the cut goes on behind it. -/
theorem identifierSpans_of_markedName? (col : Nat) {s name rest : Text}
    (taken : markedName? isIdentStart s = some (name, rest)) :
    identifierSpans col 0 s =
      (col, col + name.length) :: identifierSpans (col + name.length) 0 rest := by
  have whole : s = name ++ rest := append_of_markedName? taken
  have isName := isMarkedName_of_markedName? (fun _ => isWordChar_of_isIdentStart) taken
  obtain ⟨c, name, rfl⟩ := List.exists_cons_of_length_pos isName.length_pos
  subst whole
  rw [List.cons_append] at taken ⊢
  rw [identifierSpans, taken]
  have within : name.length ≤ (name ++ rest).length := by
    rw [List.length_append]
    exact Nat.le_add_right _ _
  simp only [List.length_cons, Nat.add_sub_cancel]
  rw [identifierSpans_skip _ within, List.drop_left, Nat.add_assoc, Nat.add_comm 1]

/-- What is done to a line from the left: a character that begins no identifier is passed over, and
an identifier is taken whole. -/
theorem cut_induction {motive : Text → Text → Prop} (nil : ∀ front, motive front [])
    (pass : ∀ front c rest, markedName? isIdentStart (c :: rest) = none →
      motive (front ++ [c]) rest → motive front (c :: rest))
    (take : ∀ front s name rest, markedName? isIdentStart s = some (name, rest) →
      motive (front ++ name) rest → motive front s) (front s : Text) : motive front s := by
  induction n : s.length using Nat.strongRecOn generalizing front s with
  | ind n ih =>
      subst n
      cases s with
      | nil => exact nil front
      | cons c rest =>
          cases taken : markedName? isIdentStart (c :: rest) with
          | none =>
              exact pass front c rest taken (ih _ (Nat.lt_succ_self _) _ rest rfl)
          | some found =>
              obtain ⟨name, behind⟩ := found
              refine take front _ name behind taken (ih _ ?_ _ behind rfl)
              have whole := append_of_markedName? taken
              have isName :=
                isMarkedName_of_markedName? (fun _ => isWordChar_of_isIdentStart) taken
              have some := isName.length_pos
              rw [whole, List.length_append]
              omega

/-- A character at which no identifier is taken begins none. -/
theorem isIdentStart_of_markedName?_eq_none {c : Char} {rest : Text}
    (passed : markedName? isIdentStart (c :: rest) = none) : isIdentStart c = false := by
  rw [markedName?, Option.map_eq_none_iff, identifier?] at passed
  split at passed
  · cases passed
  case isFalse other => exact Bool.eq_false_iff.mpr other

/-- From where a cut may begin, the identifiers that are cut off are the tokens that begin there or
later. -/
theorem mem_identifierSpans_iff_isToken {front s : Text} (fresh : IsFresh front s)
    {start stop : Nat} :
    (start, stop) ∈ identifierSpans front.length 0 s ↔
      front.length ≤ start ∧ IsToken (front ++ s) start stop := by
  induction front, s using cut_induction with
  | nil front =>
      refine iff_of_false List.not_mem_nil fun ⟨le, token⟩ => ?_
      have inside := token.inside
      have lt := token.lt
      rw [List.append_nil] at inside
      omega
  | pass front c rest passed ih =>
      have other := isIdentStart_of_markedName?_eq_none passed
      have later := ih (fresh.pass other)
      rw [List.length_append, List.length_singleton, List.append_assoc] at later
      rw [identifierSpans, passed, later]
      refine and_congr_left fun token => ⟨fun lt => Nat.le_of_lt lt, fun le => ?_⟩
      obtain rfl | lt := Nat.eq_or_lt_of_le le
      · exact Bool.noConfusion (other.symm.trans token.isIdentStart)
      · exact lt
  | take front s name rest taken ih =>
      have later := ih (.behind (fun _ => isWordChar_of_isIdentStart) front taken)
      have here := isToken_of_markedName? fresh taken
      have isName := isMarkedName_of_markedName? (fun _ => isWordChar_of_isIdentStart) taken
      have whole : s = name ++ rest := append_of_markedName? taken
      rw [List.length_append, List.append_assoc, ← whole] at later
      rw [identifierSpans_of_markedName? _ taken, List.mem_cons, later, Prod.mk.injEq]
      constructor
      · rintro (⟨rfl, rfl⟩ | ⟨le, token⟩)
        · exact ⟨Nat.le_refl _, here⟩
        · exact ⟨by omega, token⟩
      · rintro ⟨le, token⟩
        obtain rfl | inner := Nat.eq_or_lt_of_le le
        · exact .inl ⟨rfl, token.stop_unique here⟩
        · refine .inr ⟨Nat.le_of_not_lt fun before => ?_, token⟩
          -- The token would begin inside the name that was just taken.
          obtain ⟨u, v, rfl, length⟩ : ∃ u v, name = u ++ v ∧ u.length = start - front.length :=
            ⟨_, _, (List.take_append_drop _ _).symm, List.length_take_of_le (by omega)⟩
          have place : (front ++ u).length = start := by
            rw [List.length_append]
            omega
          rw [List.length_append] at before
          rw [whole, List.append_assoc, ← place] at token
          exact not_isToken_of_inside isName (List.length_pos_iff.mp (by omega))
            (List.length_pos_iff.mp (by omega)) token

theorem mem_identifierSpans_iff {line : Line} {start stop : Nat} :
    (start, stop) ∈ identifierSpans 0 0 line ↔ IsToken line start stop := by
  have fresh : IsFresh [] line := fun _ run ends _ c mem => by
    rw [List.suffix_nil.mp ends] at mem
    cases mem
  exact (mem_identifierSpans_iff_isToken fresh).trans (and_iff_right (Nat.zero_le _))

theorem le_of_mem_identifierSpans {front s : Text} {span : Nat × Nat}
    (mem : span ∈ identifierSpans front.length 0 s) : front.length ≤ span.1 := by
  induction front, s using cut_induction with
  | nil front => cases mem
  | pass front c rest passed ih =>
      rw [identifierSpans, passed] at mem
      rw [List.length_append, List.length_singleton] at ih
      exact Nat.le_of_succ_le (ih mem)
  | take front s name rest taken ih =>
      rw [identifierSpans_of_markedName? _ taken] at mem
      rw [List.length_append] at ih
      obtain rfl | later := List.mem_cons.mp mem
      · exact Nat.le_refl _
      · exact Nat.le_trans (Nat.le_add_right _ _) (ih later)

/-- Identifiers are cut off in order and do not overlap. -/
theorem pairwise_identifierSpans (front s : Text) :
    (identifierSpans front.length 0 s).Pairwise fun a b => a.2 ≤ b.1 := by
  induction front, s using cut_induction with
  | nil front => exact .nil
  | pass front c rest passed ih =>
      rw [identifierSpans, passed]
      rwa [List.length_append, List.length_singleton] at ih
  | take front s name rest taken ih =>
      rw [identifierSpans_of_markedName? _ taken]
      have behind {span} := @le_of_mem_identifierSpans (front ++ name) rest span
      rw [List.length_append] at ih behind
      exact .cons (fun span later => behind later) ih

/-- No letter is passed over. -/
theorem exists_identifierSpan_of_isIdentStart (front : Text) {s : Text} {i : Nat}
    (letter : s[i]?.any isIdentStart = true) :
    ∃ span ∈ identifierSpans front.length 0 s, span.1 ≤ front.length + i ∧
      front.length + i < span.2 := by
  induction front, s using cut_induction generalizing i with
  | nil front => cases letter
  | pass front c rest passed ih =>
      have other := isIdentStart_of_markedName?_eq_none passed
      rw [identifierSpans, passed]
      cases i with
      | zero => exact Bool.noConfusion (other.symm.trans letter)
      | succ i =>
          have later := ih letter
          rwa [List.length_append, List.length_singleton, Nat.add_assoc, Nat.add_comm 1] at later
  | take front s name rest taken ih =>
      have whole : s = name ++ rest := append_of_markedName? taken
      rw [identifierSpans_of_markedName? _ taken]
      by_cases inner : i < name.length
      · exact ⟨_, List.mem_cons_self, Nat.le_add_right _ _, Nat.add_lt_add_left inner _⟩
      · obtain ⟨k, rfl⟩ := Nat.exists_eq_add_of_le (Nat.le_of_not_lt inner)
        rw [whole, List.getElem?_append_right (Nat.le_add_right _ _), Nat.add_sub_cancel_left]
          at letter
        obtain ⟨span, mem, from_, to_⟩ := ih letter
        rw [List.length_append] at mem from_ to_
        exact ⟨span, List.mem_cons_of_mem _ mem, by omega, by omega⟩

/-- Of two different tokens one ends where the other begins, or earlier. -/
theorem IsToken.apart {line : Line} {start stop start' stop' : Nat}
    (token : IsToken line start stop) (token' : IsToken line start' stop')
    (other : (start, stop) ≠ (start', stop')) : stop ≤ start' ∨ stop' ≤ start := by
  have symmetric : Std.Symm fun a b : Nat × Nat => a.2 ≤ b.1 ∨ b.2 ≤ a.1 := ⟨fun _ _ => Or.symm⟩
  have apart : (identifierSpans 0 0 line).Pairwise fun a b => a.2 ≤ b.1 ∨ b.2 ≤ a.1 :=
    (pairwise_identifierSpans [] line).imp .inl
  exact apart.forall (mem_identifierSpans_iff.mpr token) (mem_identifierSpans_iff.mpr token') other

/-- Every letter stands in a token, and in no other. -/
theorem existsUnique_isToken {s : Line} {i : Nat} (letter : s[i]?.any isIdentStart = true) :
    ∃! token : Nat × Nat, IsToken s token.1 token.2 ∧ token.1 ≤ i ∧ i < token.2 := by
  obtain ⟨span, mem, from_, to_⟩ := exists_identifierSpan_of_isIdentStart [] letter
  have token := mem_identifierSpans_iff.mp mem
  rw [List.length_nil, Nat.zero_add] at from_ to_
  refine ⟨span, ⟨token, from_, to_⟩, fun span' ⟨token', from', to'⟩ => ?_⟩
  by_contra other
  have := token'.apart token other
  omega

/-! ### The word at a column -/

theorem wordAt?_eq_find? (line : Line) (column : Int) :
    wordAt? line column = (identifierSpans 0 0 line).find? fun span =>
      decide (Touches column span.1 span.2) := by
  rw [wordAt?]
  congr 1
  funext span
  exact (Bool.decide_and _ _).symm

theorem wordAt?_eq_none_iff {line : Line} {column : Int} :
    wordAt? line column = none ↔
      ∀ start stop, IsToken line start stop → ¬ Touches column start stop := by
  rw [wordAt?_eq_find?, List.find?_eq_none]
  constructor
  · intro passed start stop token touches
    exact passed _ (mem_identifierSpans_iff.mpr token) (decide_eq_true touches)
  · intro untouched span mem touches
    exact untouched _ _ (mem_identifierSpans_iff.mp mem) (of_decide_eq_true touches)

/-- The word at a column is the first of the tokens that the column touches. -/
theorem wordAt?_eq_some_iff {line : Line} {column : Int} {start stop : Nat} :
    wordAt? line column = some (start, stop) ↔
      IsToken line start stop ∧ Touches column start stop ∧
        ∀ start' stop', IsToken line start' stop' → Touches column start' stop' →
          start ≤ start' := by
  have first {start stop : Nat} (found : wordAt? line column = some (start, stop)) :
      IsToken line start stop ∧ Touches column start stop ∧
        ∀ start' stop', IsToken line start' stop' → Touches column start' stop' →
          start ≤ start' := by
    rw [wordAt?_eq_find?, List.find?_eq_some_iff_append] at found
    obtain ⟨touches, earlier, later, spans, passed⟩ := found
    have token : IsToken line start stop := by
      rw [← mem_identifierSpans_iff, spans]
      exact List.mem_append_right _ List.mem_cons_self
    refine ⟨token, of_decide_eq_true touches, fun start' stop' token' touches' => ?_⟩
    have mem := mem_identifierSpans_iff.mpr token'
    have ordered := pairwise_identifierSpans [] line
    rw [List.length_nil, spans] at ordered
    rw [spans] at mem
    obtain mem | mem := List.mem_append.mp mem
    · have untouched := passed _ mem
      rw [decide_eq_true touches'] at untouched
      cases untouched
    · obtain same | mem := List.mem_cons.mp mem
      · cases same
        exact Nat.le_refl _
      · have behind := (List.pairwise_cons.mp (List.pairwise_append.mp ordered).2.1).1 _ mem
        exact Nat.le_trans (Nat.le_of_lt token.lt) behind
  refine ⟨first, fun ⟨token, touches, least⟩ => ?_⟩
  cases found : wordAt? line column with
  | none => exact absurd touches (wordAt?_eq_none_iff.mp found _ _ token)
  | some span =>
      obtain ⟨start', stop'⟩ := span
      obtain ⟨token', touches', least'⟩ := first found
      obtain rfl : start = start' :=
        Nat.le_antisymm (least _ _ token' touches') (least' _ _ token touches)
      rw [token.stop_unique token']

/-- The tokens of a line are disjoint, and each of its letters stands in exactly one.  The word at a
column is the first token that the column touches, and there is none only where the column touches
no token; so there is one beside every letter. -/
theorem word_at_column_is_first_token (s : Line) :
    (∀ column start stop, wordAt? s column = some (start, stop) ↔
      IsToken s start stop ∧ Touches column start stop ∧
        ∀ start' stop', IsToken s start' stop' → Touches column start' stop' →
          start ≤ start') ∧
    (∀ column, wordAt? s column = none ↔
      ∀ start stop, IsToken s start stop → ¬ Touches column start stop) ∧
    (∀ start stop start' stop', IsToken s start stop → IsToken s start' stop' →
      (start, stop) ≠ (start', stop') → stop ≤ start' ∨ stop' ≤ start) ∧
    (∀ i : Nat, s[i]?.any isIdentStart = true →
      ∃! token : Nat × Nat, IsToken s token.1 token.2 ∧ token.1 ≤ i ∧ i < token.2) ∧
    ∀ c : Nat, (s[c]?.any isIdentStart = true ∨
        0 < c ∧ s[c - 1]?.any isIdentStart = true) → wordAt? s c ≠ none := by
  refine ⟨fun _ _ _ => wordAt?_eq_some_iff, fun _ => wordAt?_eq_none_iff,
    fun _ _ _ _ token token' other => token.apart token' other,
    fun _ letter => existsUnique_isToken letter, fun c beside untouched => ?_⟩
  obtain letter | ⟨pos, letter⟩ := beside
  all_goals
    obtain ⟨token, ⟨isToken, from_, to_⟩, _⟩ := existsUnique_isToken letter
    refine wordAt?_eq_none_iff.mp untouched _ _ isToken ⟨?_, ?_⟩ <;> omega

/-- A column between two tokens, of which the first ends with a mark and begins behind a digit. -/
theorem word_at_column_between_tokens :
    wordAt? "2ab?c=1".toList 4 = some (1, 4) ∧ IsToken "2ab?c=1".toList 1 4 ∧
      IsToken "2ab?c=1".toList 4 6 ∧ Touches 4 4 6 ∧ wordAt? "2ab?c=1".toList 3 ≠ none ∧
      wordAt? "2ab?c=1".toList 7 = none ∧ ¬ Touches 7 4 6 := by
  obtain ⟨some_iff, none_iff, _, _, beside⟩ := word_at_column_is_first_token "2ab?c=1".toList
  have first : wordAt? "2ab?c=1".toList 4 = some (1, 4) := by decide
  have second : IsToken "2ab?c=1".toList 4 6 := ((some_iff 6 4 6).mp (by decide)).1
  have nothing : wordAt? "2ab?c=1".toList 7 = none := by decide
  exact ⟨first, ((some_iff 4 1 4).mp first).1, second, by decide, beside 3 (.inr ⟨by decide, by decide⟩),
    nothing, (none_iff 7).mp nothing 4 6 second⟩

end Lookup

end Dragonstone
