/-
# Findings on names cover names

A finding on a name covers one whole identifier: no letter stands directly in front of it or behind
it.  The checks read masked lines, where this holds because a name is taken as one word behind a
gap, or at the front of the line.  It then holds of the line itself.  What the mask shows as letters
is code, and code has no literal next to it: where the mask has blanked the character in front of a
name or behind it, that is the sign of a comment.
-/

import Dragonstone.Lookup
import Dragonstone.Proofs.Definition.Front
import Dragonstone.Proofs.Role.Reading

namespace Dragonstone

/-- From one column to the other stands one whole identifier. -/
structure IdentifierAt (line : Line) (start stop : Nat) : Prop where
  identifier : IsIdentifier isIdentStart (Lookup.between line start stop)
  front : (line.take start).getLast?.any isWordChar = false
  back : (line.drop stop).head?.any isWordChar = false

/-! ### From the mask to the line -/

theorem getElem?_between {s : Line} {start stop : Nat} (j : Nat) :
    (Lookup.between s start stop)[j]? =
      if start + j < stop then s[start + j]? else none := by
  rw [Lookup.between, List.getElem?_drop, List.getElem?_take]

theorem getLast?_take_succ {s : Text} {k : Nat} {c : Char} (h : s[k]? = some c) :
    (s.take (k + 1)).getLast? = some c := by
  simp [List.getLast?_take, h]

section Mask

variable {s : Line} {start stop : Nat}

/-- Where the mask shows an identifier, the line has it, and it is code. -/
theorem IdentifierAt.code_of_mask (shown : IdentifierAt (mask s) start stop)
    (inside : stop ≤ s.length) {i : Nat} (from_ : start ≤ i) (to_ : i < stop) :
    (mask s)[i]? = s[i]? ∧ (roles s)[i]? = some .code := by
  have within : i < (mask s).length := by
    rw [length_mask]
    omega
  have char : (mask s)[i]? = some (mask s)[i] := List.getElem?_eq_getElem within
  have mem : (mask s)[i] ∈ Lookup.between (mask s) start stop := by
    apply List.mem_of_getElem? (i := i - start)
    rw [getElem?_between, if_pos (by omega), Nat.add_sub_cancel' from_, char]
  obtain ⟨same, role⟩ := code_of_wordChar_mask char (shown.identifier.2 _ mem)
  exact ⟨char.trans same.symm, role⟩

/-- In front of the code of an identifier the mask has blanked nothing. -/
theorem IdentifierAt.front_of_mask (shown : IdentifierAt (mask s) start stop)
    (nonempty : start < stop) (inside : stop ≤ s.length) :
    (s.take start).getLast?.any isWordChar = false := by
  cases start with
  | zero => rfl
  | succ k =>
      obtain ⟨_, behind⟩ := shown.code_of_mask inside (Nat.le_refl _) nonempty
      have within : k < (mask s).length := by
        rw [length_mask]
        omega
      obtain ⟨role, c, here, char, masked⟩ :=
        getElem?_mask_eq_some_iff.mp (List.getElem?_eq_getElem within)
      obtain ⟨literal, comment, _⟩ := neighbouring_roles here behind
      have none := shown.front
      rw [getLast?_take_succ (List.getElem?_eq_getElem within), ← masked] at none
      rw [getLast?_take_succ char]
      cases role with
      | code | quote => exact none
      | literal => cases literal rfl with | _ h => cases h
      | comment => cases comment rfl

/-- Behind the code of an identifier the mask has blanked nothing, or a number sign. -/
theorem IdentifierAt.back_of_mask (shown : IdentifierAt (mask s) start stop)
    (nonempty : start < stop) (inside : stop ≤ s.length) :
    (s.drop stop).head?.any isWordChar = false := by
  obtain ⟨last, rfl⟩ : ∃ last, stop = last + 1 := ⟨stop - 1, by omega⟩
  rw [List.head?_drop]
  cases char : s[last + 1]? with
  | none => rfl
  | some c =>
      obtain ⟨_, here⟩ :=
        shown.code_of_mask inside (Nat.le_of_lt_succ nonempty) (Nat.lt_succ_self _)
      have within : last + 1 < (mask s).length := by
        rw [length_mask]
        exact (List.getElem?_eq_some_iff.mp char).1
      obtain ⟨role, d, behind, same, masked⟩ :=
        getElem?_mask_eq_some_iff.mp (List.getElem?_eq_getElem within)
      obtain rfl : c = d := Option.some.inj (char.symm.trans same)
      obtain ⟨literal, sign⟩ := (neighbouring_roles here behind).2.2 rfl
      have none := shown.back
      rw [List.head?_drop, List.getElem?_eq_getElem within, ← masked] at none
      cases role with
      | code | quote => exact none
      | literal => exact absurd rfl literal
      | comment =>
          obtain rfl : c = '#' := Option.some.inj (char.symm.trans (sign rfl))
          rfl

/-- An identifier that the mask shows stands in the line. -/
theorem IdentifierAt.of_mask (shown : IdentifierAt (mask s) start stop)
    (nonempty : start < stop) (inside : stop ≤ s.length) : IdentifierAt s start stop := by
  have same : Lookup.between s start stop = Lookup.between (mask s) start stop := by
    apply List.ext_getElem?
    intro j
    rw [getElem?_between, getElem?_between]
    split
    case isTrue within =>
        exact (shown.code_of_mask inside (Nat.le_add_right _ _) within).1.symm
    case isFalse => rfl
  exact ⟨same ▸ shown.identifier, shown.front_of_mask nonempty inside,
    shown.back_of_mask nonempty inside⟩

end Mask

/-! ### Names that the checks find -/

/-- The text ends the line, and no word reaches over its front. -/
def StandsApart (line rest : Text) : Prop :=
  ∃ front, line = front ++ rest ∧ front.getLast?.any isWordChar = false

theorem getLast?_any_of_blanks {gap : Text} (blanks : ∀ c ∈ gap, isBlank c = true) :
    gap.getLast?.any isWordChar = false := by
  cases last : gap.getLast? with
  | none => rfl
  | some c =>
      exact isWordChar_of_isSpace (isSpace_of_isBlank (blanks c (List.mem_of_getLast? last)))

theorem standsApart_skipBlanks (line : Line) : StandsApart line (skipBlanks line) :=
  ⟨line.takeWhile isBlank, List.takeWhile_append_dropWhile.symm,
    getLast?_any_of_blanks (List.all_eq_true.mp List.all_takeWhile)⟩

/-- What follows a keyword and its gap stands apart from them. -/
theorem StandsApart.behind_keyword {line s keyword rest : Text} {keywords : List Text}
    (apart : StandsApart line s) (found : leadingKeyword? keywords s = some (keyword, rest)) :
    StandsApart line rest := by
  obtain ⟨front, rfl, _⟩ := apart
  obtain ⟨_, _, gap, rfl, some, blanks, _⟩ := leadingKeyword?_eq_some_iff.mp found
  refine ⟨front ++ keyword ++ gap, by simp only [List.append_assoc], ?_⟩
  have last : (front ++ keyword ++ gap).getLast? = gap.getLast? := by
    rw [List.getLast?_append, List.getLast?_eq_some_getLast some, Option.some_or]
  rw [last]
  exact getLast?_any_of_blanks blanks

theorem standsApart_afterAbstract (line : Line) :
    StandsApart line (Definition.afterAbstract line) := by
  simp only [Definition.afterAbstract]
  split
  case h_1 found => exact (standsApart_skipBlanks line).behind_keyword found
  case h_2 => exact standsApart_skipBlanks line

namespace Naming

/-- The finding covers one whole identifier of the line. -/
def CoversIdentifier (n : Nat) (line : Line) (f : Finding) : Prop :=
  ∃ start stop, f.range = Range.inLine n start stop ∧ start < stop ∧ stop ≤ line.length ∧
    IdentifierAt line start stop

/-- A name that is taken where the line begins a new word is covered whole. -/
theorem coversIdentifier_findingAt {start : Char → Bool}
    (letters : ∀ c, start c = true → isIdentStart c = true) {line rest name after : Text}
    (apart : StandsApart line rest) (found : identifier? start rest = some (name, after)) (n : Nat)
    (problem : Problem) : CoversIdentifier n line (findingAt n line rest name problem) := by
  obtain ⟨front, rfl, before⟩ := apart
  obtain ⟨rfl, isName, behind⟩ :=
    (identifier?_eq_some_iff fun c first => isWordChar_of_isIdentStart (letters c first)).mp found
  have column : (front ++ (name ++ after)).length - (name ++ after).length = front.length := by
    rw [List.length_append, Nat.add_sub_cancel]
  have between : Lookup.between (front ++ (name ++ after)) front.length
      (front.length + name.length) = name := by
    rw [Lookup.between, ← List.append_assoc, ← List.length_append, List.take_left, List.drop_left]
  refine ⟨front.length, front.length + name.length, by rw [findingAt, column],
    Nat.lt_add_of_pos_right isName.length_pos, ?inside, ?identifier, ?front, ?back⟩
  case inside =>
    simp only [List.length_append]
    omega
  case identifier =>
    rw [between]
    exact isName.mono letters
  case front =>
    rw [List.take_left]
    exact before
  case back =>
    rw [← List.append_assoc, ← List.length_append, List.drop_left]
    exact behind

theorem coversIdentifier_of_mem_check {n : Nat} {line : Line} {inEnum : Bool} {f : Finding}
    (found : f ∈ check n line inEnum) : CoversIdentifier n line f := by
  obtain type | callable | constant := mem_check_iff.mp found
  · obtain ⟨_, _, _, _, front, identifier, rfl⟩ := typeName?_eq_some_iff.mp type
    exact coversIdentifier_findingAt (fun _ => isIdentStart_of_isLower)
      ((standsApart_afterAbstract line).behind_keyword front) identifier n _
  · obtain ⟨_, _, _, _, front, identifier, _, rfl⟩ := callableName?_eq_some_iff.mp callable
    exact coversIdentifier_findingAt (fun _ => isIdentStart_of_isUpper)
      ((standsApart_skipBlanks line).behind_keyword front) identifier n _
  · obtain ⟨_, capital, _, rfl⟩ := constantName?_eq_some_iff.mp constant
    exact coversIdentifier_findingAt (fun _ => isIdentStart_of_isUpper)
      (standsApart_skipBlanks line) (identifier?_of_startsCapitalized capital) n _

/-- A finding on a name of a masked line covers one whole identifier of the line itself. -/
theorem coversIdentifier_of_mem_check_mask {n : Nat} {line : Line} {inEnum : Bool} {f : Finding}
    (found : f ∈ check n (mask line) inEnum) : CoversIdentifier n line f := by
  obtain ⟨start, stop, range, nonempty, inside, shown⟩ := coversIdentifier_of_mem_check found
  rw [length_mask] at inside
  exact ⟨start, stop, range, nonempty, inside, shown.of_mask nonempty inside⟩

end Naming

end Dragonstone
