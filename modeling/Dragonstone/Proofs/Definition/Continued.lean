/-
# What goes on behind a definition

A definition is read up to what its form asks for, and nothing behind that is looked at.  For two
forms this is too early.

A constant asks for an equals sign, and the sign may be the first half of a comparison, an arrow or
a match.  The rule for names has a stricter notion of assignment, which looks at both neighbours of
the sign.  The neighbour in front is always as it should be; the one behind decides.

The lower-case types of a variable are read as soon as the text begins with one, and the text may go
on with letters or digits.  A type that is shown is a whole word exactly if it is capitalised or the
word that is written is itself in the list; otherwise the outline shows its first few letters.
-/

import Dragonstone.Proofs.Definition.Canonical
import Dragonstone.Proofs.Definition.Parts
import Dragonstone.Vocabulary.Entries

namespace Dragonstone

open Vocabulary

/-! ### Plain assignments -/

/-- Behind this character, an equals sign is the end of a comparison. -/
def joinsLeft (c : Char) : Bool :=
  c == '=' || c == '!' || c == '<' || c == '>'

/-- In front of this character, an equals sign is the beginning of a comparison, arrow or match. -/
def joinsRight (c : Char) : Bool :=
  c == '=' || c == '>' || c == '~'

/-- At this column stands an equals sign that neither of its neighbours joins. -/
structure AssignsAt (s : Line) (column : Nat) : Prop where
  sign : s[column]? = some '='
  left : (s.take column).getLast?.any joinsLeft = false
  right : s[column + 1]?.any joinsRight = false

/-- The search for an assignment finds a sign that nothing joins; at the front of the text the
neighbour is the character before it. -/
theorem assignsAfter_eq_true_iff {before : Option Char} {s : Text} :
    Naming.assignsAfter before s = true ↔
      ∃ column, s[column]? = some '=' ∧
        (before.toList ++ s.take column).getLast?.any joinsLeft = false ∧
        s[column + 1]?.any joinsRight = false := by
  induction s generalizing before with
  | nil => simp [Naming.assignsAfter]
  | cons c rest ih =>
      have last (column : Nat) : (before.toList ++ (c :: rest).take (column + 1)).getLast? =
          ((some c).toList ++ rest.take column).getLast? := by
        rw [List.take_succ_cons, List.getLast?_append_of_ne_nil _ (List.cons_ne_nil _ _)]
        rfl
      have here : (c == '=' && !before.any joinsLeft && !rest.head?.any joinsRight) = true ↔
          (c :: rest)[0]? = some '=' ∧
            (before.toList ++ (c :: rest).take 0).getLast?.any joinsLeft = false ∧
            (c :: rest)[0 + 1]?.any joinsRight = false := by
        cases before <;> simp [and_assoc, List.head?_eq_getElem?]
      have step : Naming.assignsAfter before (c :: rest) = true ↔
          (c == '=' && !before.any joinsLeft && !rest.head?.any joinsRight) = true ∨
            Naming.assignsAfter (some c) rest = true := by
        rw [Naming.assignsAfter, Bool.or_eq_true]
        rfl
      rw [step, here, ih]
      constructor
      · rintro (sign | ⟨column, sign, left, right⟩)
        · exact ⟨0, sign⟩
        · exact ⟨column + 1, sign, (last column).symm ▸ left, right⟩
      · rintro ⟨_ | column, sign, left, right⟩
        · exact .inl ⟨sign, left, right⟩
        · exact .inr ⟨column, sign, last column ▸ left, right⟩

/-- The rule for names speaks of an assignment where the line has one at some column. -/
theorem hasAssignment_eq_true_iff {line : Line} :
    Naming.hasAssignment line = true ↔ ∃ column, AssignsAt line column := by
  rw [Naming.hasAssignment, assignsAfter_eq_true_iff]
  constructor
  · rintro ⟨column, sign, left, right⟩
    exact ⟨column, sign, left, right⟩
  · rintro ⟨column, sign, left, right⟩
    exact ⟨column, sign, left, right⟩

namespace Definition

variable {line : Line}

/-! ### Constants -/

theorem ofLine?_eq_constant_iff {name : Text} :
    ofLine? line = some (.constantDecl name) ↔
      ∃ indent gap rest, SetsConstant line name indent gap rest := by
  rw [ofLine?_eq_some_iff_ownForm, ownForm, parseConstant?_eq_some_iff]
  constructor
  · rintro ⟨_, indent, gap, rest, same, sets⟩
    cases same
    exact ⟨indent, gap, rest, sets⟩
  · rintro ⟨indent, gap, rest, sets⟩
    exact ⟨name, indent, gap, rest, rfl, sets⟩

/-- Nothing that stands in front of the sign of a constant joins it. -/
theorem SetsConstant.left {name indent gap rest : Text}
    (sets : SetsConstant line name indent gap rest) :
    (indent ++ (name ++ gap)).getLast?.any joinsLeft = false := by
  have plain (c : Char) (front : isWordChar c = true ∨ isBlank c = true) : joinsLeft c = false := by
    rw [Bool.eq_false_iff]
    intro joins
    simp only [joinsLeft, Bool.or_eq_true, beq_iff_eq] at joins
    obtain ((rfl | rfl) | rfl) | rfl := joins <;> revert front <;> decide
  cases last : (indent ++ (name ++ gap)).getLast? with
  | none => rfl
  | some c =>
      apply plain c
      obtain blank | letter | blank := by simpa using List.mem_of_getLast? last
      · exact .inr (sets.blanks c blank)
      · exact .inl (sets.isIdentifier.2 c letter)
      · exact .inr (sets.gapBlanks c blank)

/-- The lines that are read as constants are those with a name in capitals and an equals sign in
front, whatever stands behind the sign.  The sign is a plain assignment exactly if it is followed by
no character that makes a comparison, an arrow or a match of it. -/
theorem constants_are_assigned_iff (line : Line) (name : Text) :
    (ofLine? line = some (.constantDecl name) ↔
        ∃ indent gap rest, SetsConstant line name indent gap rest) ∧
      ∀ indent gap rest, SetsConstant line name indent gap rest →
        (AssignsAt line (indent ++ (name ++ gap)).length ↔ rest.head?.any joinsRight = false) := by
  refine ⟨ofLine?_eq_constant_iff, fun indent gap rest sets => ?_⟩
  have whole : line = (indent ++ (name ++ gap)) ++ '=' :: rest := by
    rw [sets.whole]
    simp only [List.append_assoc]
  have behind : (line)[(indent ++ (name ++ gap)).length + 1]? = rest.head? := by
    rw [whole, List.getElem?_append_right (Nat.le_add_right _ 1), Nat.add_sub_cancel_left,
      List.getElem?_cons_succ, List.head?_eq_getElem?]
  constructor
  · intro assigns
    rw [← behind]
    exact assigns.right
  · intro right
    refine ⟨?sign, ?left, by rwa [behind]⟩
    case sign => rw [whole, List.getElem?_append_right (Nat.le_refl _), Nat.sub_self]; rfl
    case left =>
      rw [whole, List.take_left]
      exact sets.left

/-- A match behind a name in capitals is read as a constant, and is no assignment. -/
theorem constants_are_assigned_iff_of_match :
    ofLine? "\tMAX =~ x".toList = some (.constantDecl "MAX".toList) ∧
      ¬ AssignsAt "\tMAX =~ x".toList 5 := by
  obtain ⟨read, assigned⟩ := constants_are_assigned_iff "\tMAX =~ x".toList "MAX".toList
  have sets : SetsConstant "\tMAX =~ x".toList "MAX".toList "\t".toList " ".toList "~ x".toList :=
    ⟨rfl, by decide, by decide, by decide, List.all_eq_true.mp (by decide)⟩
  refine ⟨read.mpr ⟨_, _, _, sets⟩, fun assigns => ?_⟩
  exact absurd ((assigned _ _ _ sets).mp assigns) (by decide)

/-- Not every constant is set by a plain assignment. -/
theorem comparison_is_read_as_constant :
    ¬ ∀ (line : Line) (name indent gap rest : Text), ofLine? line = some (.constantDecl name) →
      SetsConstant line name indent gap rest → AssignsAt line (indent ++ (name ++ gap)).length := by
  intro assigned
  have sets : SetsConstant "FOO == 1".toList "FOO".toList [] " ".toList "= 1".toList :=
    ⟨rfl, by decide, by decide, by decide, List.all_eq_true.mp (by decide)⟩
  have assigns := assigned "FOO == 1".toList "FOO".toList [] " ".toList "= 1".toList
    (by decide +kernel) sets
  exact absurd assigns.right (by decide)

/-- The outline shows the left side of a comparison as a constant. -/
example : (outline "FOO == 1".toList).map Symbol.name = ["FOO".toList] := by decide +kernel

/-! ### Types of variables -/

theorem isIdentifier_of_mem_variableTypes :
    ∀ t ∈ variableTypes, IsIdentifier Char.isLower t ∧ t.head?.any Char.isUpper = false := by
  decide

/-- None of the lower-case types begins with another one. -/
theorem eq_of_prefix_of_mem_variableTypes :
    ∀ t ∈ variableTypes, ∀ w ∈ variableTypes, t <+: w → t = w := by
  decide

/-- A type is read from what begins with it, in one of two ways: a capitalised identifier is taken
whole, one of the lower-case types as it is in the list. -/
theorem exists_of_declaredType? {s type : Text} (h : declaredType? s = some type) :
    ∃ gap gap' rest, s = gap ++ ':' :: (gap' ++ (type ++ rest)) ∧ IsBlanks gap ∧ IsBlanks gap' ∧
      (IsIdentifier Char.isUpper type ∧ rest.head?.any isWordChar = false ∨
        type ∈ variableTypes) := by
  obtain ⟨gap, blanks, whole⟩ := exists_indent s
  simp only [declaredType?] at h
  split at h
  case h_1 behind front =>
      obtain ⟨gap', blanks', whole'⟩ := exists_indent behind
      rw [front, whole'] at whole
      split at h
      case h_1 name rest found =>
          cases h
          obtain ⟨taken, identifier, ends⟩ :=
            (identifier?_eq_some_iff isWordChar_of_isUpper).mp found
          exact ⟨gap, gap', rest, taken ▸ whole, blanks, blanks', .inl ⟨identifier, ends⟩⟩
      case h_2 =>
          have front : type.isPrefixOf (skipBlanks behind) = true :=
            List.find?_some (p := fun v : Text => v.isPrefixOf (skipBlanks behind)) h
          obtain ⟨rest, taken⟩ := List.isPrefixOf_iff_prefix.mp front
          exact ⟨gap, gap', rest, taken ▸ whole, blanks, blanks',
            .inr (List.mem_of_find?_eq_some h)⟩
  case h_2 => cases h

/-- A word stops where the text behind it does not go on with letters or digits. -/
theorem word_append_eq_iff {w : Text} (letters : ∀ c ∈ w, isWordChar c = true) (rest : Text) :
    word (w ++ rest) = w ↔ rest.head?.any isWordChar = false := by
  constructor
  · intro whole
    rw [word, List.takeWhile_append_of_pos letters, List.append_right_eq_self] at whole
    cases rest with
    | nil => rfl
    | cons c rest =>
        rw [Bool.eq_false_iff]
        intro letter
        have first : isWordChar c = true := letter
        rw [List.takeWhile_cons_of_pos first] at whole
        cases whole
  · intro ends
    exact (word_append letters ends).1

/-- The line declares a variable of this type: its name, a colon and the type, perhaps with blanks
in between, and a rest that nothing asks for. -/
structure Annotates (line : Line) (keyword name type front gap gap' rest : Text) : Prop where
  whole : line = front ++ (name ++ (gap ++ ':' :: (gap' ++ (type ++ rest))))
  leads : (variableDecl keyword name (some type)).Leads front
  gapBlanks : IsBlanks gap
  gapBlanks' : IsBlanks gap'

/-- In both ways a type is read as an identifier. -/
theorem isIdentifier_of_read {type : Text} {ends : Prop}
    (read : IsIdentifier Char.isUpper type ∧ ends ∨ type ∈ variableTypes) :
    IsIdentifier isIdentStart type := by
  obtain ⟨capitalised, _⟩ | basic := read
  · exact capitalised.mono fun _ => isIdentStart_of_isUpper
  · exact (isIdentifier_of_mem_variableTypes type basic).1.mono fun _ => isIdentStart_of_isLower

section Annotation

variable {keyword name type : Text}
  (defines : ofLine? line = some (.variableDecl keyword name (some type)))

include defines

/-- A line that declares a variable with a type has the parts of such a line. -/
theorem exists_annotates :
    ∃ front gap gap' rest, Annotates line keyword name type front gap gap' rest := by
  obtain ⟨_, _, front, behind, same, ⟨whole, leads⟩, _⟩ :=
    exists_nameStands_of_parseVariable? (ofLine?_eq_some_iff_ownForm.mp defines)
  injection same with _ _ declared
  obtain ⟨gap, gap', rest, rfl, blanks, blanks', read⟩ := exists_of_declaredType? declared.symm
  exact ⟨front, gap, gap', rest, whole, leads, blanks, blanks'⟩

/-- However the line is cut into these parts, the type is read from where it stands. -/
theorem Annotates.read {front gap gap' rest : Text}
    (annotates : Annotates line keyword name type front gap gap' rest) :
    IsIdentifier Char.isUpper type ∧ rest.head?.any isWordChar = false ∨ type ∈ variableTypes := by
  obtain ⟨_, _, _, behind, same, stands, takes⟩ :=
    exists_nameStands_of_parseVariable? (ofLine?_eq_some_iff_ownForm.mp defines)
  injection same with _ _ declared
  obtain ⟨_, rfl⟩ := stands.unique ⟨annotates.whole, annotates.leads⟩ takes
  obtain ⟨gap₀, gap₀', rest₀, parts, blanks, blanks', read⟩ := exists_of_declaredType? declared.symm
  have identifier := isIdentifier_of_read read
  have colon (s : Text) : (':' :: s).head?.any isBlank = false := (by decide : isBlank ':' = false)
  obtain ⟨_, behindColon⟩ := run_unique parts annotates.gapBlanks blanks (colon _) (colon _)
  obtain ⟨_, typed⟩ := run_unique (List.cons.inj behindColon).2 annotates.gapBlanks' blanks'
    (identifier.head_append _) (identifier.head_append _)
  obtain rfl := List.append_cancel_left typed
  exact read

/-- The type of a variable is a whole word of its line exactly if it is capitalised or the word that
is written there is one of the lower-case types.  Exactly then the outline shows the variable with
its type as it is written. -/
theorem annotations_are_whole_iff :
    (∃ front gap gap' rest, Annotates line keyword name type front gap gap' rest) ∧
      ∀ front gap gap' rest, Annotates line keyword name type front gap gap' rest →
        (rest.head?.any isWordChar = false ↔
          type.head?.any Char.isUpper = true ∨ word (type ++ rest) ∈ variableTypes) ∧
        ((variableDecl keyword name (some type)).detail =
            keyword ++ ' ' :: name ++ (": ".toList ++ word (type ++ rest)) ↔
          type.head?.any Char.isUpper = true ∨ word (type ++ rest) ∈ variableTypes) := by
  refine ⟨exists_annotates defines, fun front gap gap' rest annotates => ?_⟩
  have read := annotates.read defines
  have letters := (isIdentifier_of_read read).2
  have whole_iff := word_append_eq_iff letters rest
  have whole : rest.head?.any isWordChar = false ↔
      type.head?.any Char.isUpper = true ∨ word (type ++ rest) ∈ variableTypes := by
    obtain ⟨capitalised, ends⟩ | basic := read
    · exact ⟨fun _ => .inl capitalised.1, fun _ => ends⟩
    · have lower := (isIdentifier_of_mem_variableTypes type basic).2
      rw [← whole_iff]
      constructor
      · intro same
        exact .inr (by rwa [same])
      · rintro (upper | written)
        · cases lower.symm.trans upper
        · have front : type <+: word (type ++ rest) := by
            rw [word, List.takeWhile_append_of_pos letters]
            exact List.prefix_append type _
          exact (eq_of_prefix_of_mem_variableTypes type basic _ written front).symm
  have shown : (variableDecl keyword name (some type)).detail =
      keyword ++ ' ' :: name ++ (": ".toList ++ type) := rfl
  refine ⟨whole, ?_⟩
  rw [← whole, ← whole_iff, shown, List.append_right_inj, List.append_right_inj]
  exact eq_comm

end Annotation

/-- A capitalised type is whole, with the number at its end. -/
theorem annotations_are_whole_iff_of_capitalised :
    (variableDecl "var".toList "p".toList (some "Point2".toList)).detail =
      "var p: Point2".toList := by
  have leads : (variableDecl "var".toList "p".toList (some "Point2".toList)).Leads
      ([] ++ ("var".toList ++ "  ".toList)) :=
    .word rfl (by decide) rfl (by decide) ⟨by decide, by decide⟩
  have annotates : Annotates "var  p :Point2= q".toList "var".toList "p".toList "Point2".toList
      "var  ".toList " ".toList [] "= q".toList := ⟨rfl, leads, by decide, by decide⟩
  have defines : ofLine? "var  p :Point2= q".toList =
      some (.variableDecl "var".toList "p".toList (some "Point2".toList)) := by decide +kernel
  obtain ⟨_, iffs⟩ := annotations_are_whole_iff defines
  exact (iffs _ _ _ _ annotates).2.mpr (.inl (by decide))

/-- Not every type that is read is a whole word of its line. -/
theorem annotation_is_cut_short :
    ¬ ∀ (line : Line) (keyword name type front gap gap' rest : Text),
      ofLine? line = some (.variableDecl keyword name (some type)) →
        Annotates line keyword name type front gap gap' rest →
          rest.head?.any isWordChar = false := by
  intro whole
  have leads : (variableDecl "let".toList "x".toList (some "int".toList)).Leads
      ([] ++ ("let".toList ++ " ".toList)) :=
    .word rfl (by decide) rfl (by decide) ⟨by decide, by decide⟩
  have annotates : Annotates "let x: int64".toList "let".toList "x".toList "int".toList
      "let ".toList [] " ".toList "64".toList := ⟨rfl, leads, by decide, by decide⟩
  have ends := whole _ _ _ _ _ _ _ _ (by decide +kernel) annotates
  exact absurd ends (by decide)

/-- Of the types that are offered behind a colon, these are shown as they are written. -/
example : (typeEntries.map Completion.Item.label).filter
    (fun label => declaredType? (':' :: label) == some label) =
      ["str", "int", "float", "bool", "char", "nil"].map String.toList := by decide +kernel

end Definition

end Dragonstone
