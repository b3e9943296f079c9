/-
# Words and the recognisers that read them

A recogniser takes a word, a gap or a name from the front of a text and gives back the rest.  Here
stands, as one equivalence for each, what it takes and when: the parts put together are the text,
and the part that is taken could not be longer.  Read from left to right this tells where the rest
begins; read from right to left it tells what is recognised in a text that was written part by part.
-/

import Dragonstone.Proofs.LeadingSpace.Character

namespace Dragonstone

/-- A word that begins with a character of the given class. -/
def IsIdentifier (start : Char → Bool) (name : Text) : Prop :=
  name.head?.any start = true ∧ ∀ c ∈ name, isWordChar c = true

instance (start : Char → Bool) (name : Text) : Decidable (IsIdentifier start name) :=
  decidable_of_iff (name.head?.any start = true ∧ name.all isWordChar = true)
    (by rw [IsIdentifier, List.all_eq_true])

theorem IsIdentifier.mono {start start' : Char → Bool} {name : Text}
    (identifier : IsIdentifier start name) (wider : ∀ c, start c = true → start' c = true) :
    IsIdentifier start' name := by
  refine ⟨?_, identifier.2⟩
  cases name with
  | nil => cases identifier.1
  | cons c name => exact wider c identifier.1

theorem IsIdentifier.length_pos {start : Char → Bool} {name : Text}
    (identifier : IsIdentifier start name) : 0 < name.length := by
  cases name with
  | nil => cases identifier.1
  | cons c name => exact Nat.zero_lt_succ _

/-- An identifier, or an identifier with one mark behind it. -/
def IsMarkedName (start : Char → Bool) (name : Text) : Prop :=
  ∃ stem, IsIdentifier start stem ∧
    (name = stem ∨ ∃ mark, isNameMark mark = true ∧ name = stem ++ [mark])

theorem isWordChar_of_isIdentStart {c : Char} (letter : isIdentStart c = true) :
    isWordChar c = true := by
  simp only [isIdentStart, isWordChar, Char.isAlphanum, Bool.or_eq_true] at letter ⊢
  exact letter.imp_left .inl

theorem isIdentStart_of_isUpper {c : Char} (upper : c.isUpper = true) : isIdentStart c = true := by
  have letter : c.isAlpha = true := Bool.or_eq_true_iff.mpr (.inl upper)
  exact Bool.or_eq_true_iff.mpr (.inl letter)

theorem isIdentStart_of_isLower {c : Char} (lower : c.isLower = true) : isIdentStart c = true := by
  have letter : c.isAlpha = true := Bool.or_eq_true_iff.mpr (.inr lower)
  exact Bool.or_eq_true_iff.mpr (.inl letter)

theorem isWordChar_of_isUpper (c : Char) (upper : c.isUpper = true) : isWordChar c = true :=
  isWordChar_of_isIdentStart (isIdentStart_of_isUpper upper)

/-! ### Runs of characters -/

section Run

variable {p : Char → Bool}

/-- A run is taken whole where the next character does not belong to it. -/
theorem takeWhile_append_of_head {run rest : Text} (all : ∀ c ∈ run, p c = true)
    (ends : rest.head?.any p = false) :
    (run ++ rest).takeWhile p = run ∧ (run ++ rest).dropWhile p = rest := by
  rw [List.takeWhile_append_of_pos all, List.dropWhile_append_of_pos all]
  cases rest with
  | nil => exact ⟨List.append_nil run, rfl⟩
  | cons c rest =>
      have other : ¬ p c = true := by simpa using ends
      rw [List.takeWhile_cons_of_neg other, List.dropWhile_cons_of_neg other, List.append_nil]
      exact ⟨rfl, rfl⟩

theorem head?_any_dropWhile (s : Text) : (s.dropWhile p).head?.any p = false := by
  have head := List.head?_dropWhile_not p s
  cases h : (s.dropWhile p).head? with
  | none => rfl
  | some c =>
      rw [h] at head
      exact head

end Run

theorem word_append {w rest : Text} (all : ∀ c ∈ w, isWordChar c = true)
    (ends : rest.head?.any isWordChar = false) :
    word (w ++ rest) = w ∧ afterWord (w ++ rest) = rest :=
  takeWhile_append_of_head all ends

theorem forall_mem_word (s : Text) : ∀ c ∈ word s, isWordChar c = true :=
  List.all_eq_true.mp List.all_takeWhile

/-- The word in front of a text stays the same where the text that is put behind does not go on
with a letter. -/
theorem word_append_of_head (s : Text) {t : Text} (ends : t.head?.any isWordChar = false) :
    word (s ++ t) = word s ∧ afterWord (s ++ t) = afterWord s ++ t := by
  have stops : (afterWord s ++ t).head?.any isWordChar = false := by
    have behind : (afterWord s).head?.any isWordChar = false := head?_any_dropWhile s
    cases h : afterWord s with
    | nil => exact ends
    | cons c rest =>
        rw [h] at behind
        exact behind
  have whole : s ++ t = word s ++ (afterWord s ++ t) := by
    rw [← List.append_assoc, word_append_afterWord]
  rw [whole]
  exact word_append (forall_mem_word s) stops

/-! ### Words in front -/

/-- Nothing is skipped in front of a word. -/
theorem skipBlanks_of_isWordChar {s : Text} (front : s.head?.any isWordChar = true) :
    s.head?.any isBlank = false ∧ skipBlanks s = s := by
  cases s with
  | nil => cases front
  | cons c rest =>
      have ink : ¬ isBlank c = true := by
        intro blank
        cases (isWordChar_of_isSpace (isSpace_of_isBlank blank)).symm.trans front
      exact ⟨by simpa using ink, List.dropWhile_cons_of_neg ink⟩

theorem head?_any_append {p : Char → Bool} {s : Text} (front : s.head?.any p = true)
    (rest : Text) : (s ++ rest).head?.any p = true := by
  cases s with
  | nil => cases front
  | cons c s => exact front

theorem head_of_isIdentifier {start : Char → Bool} {name : Text}
    (identifier : IsIdentifier start name) : name.head?.any isWordChar = true := by
  cases name with
  | nil => cases identifier.1
  | cons c name => exact identifier.2 c List.mem_cons_self

theorem IsMarkedName.head {start : Char → Bool} {name : Text} (isName : IsMarkedName start name) :
    name.head?.any start = true := by
  obtain ⟨stem, identifier, rfl | ⟨mark, _, rfl⟩⟩ := isName
  · exact identifier.1
  · exact head?_any_append identifier.1 [mark]

theorem head_of_isMarkedName {start : Char → Bool} {name : Text}
    (isName : IsMarkedName start name) : name.head?.any isWordChar = true := by
  obtain ⟨stem, identifier, rfl | ⟨mark, _, rfl⟩⟩ := isName
  · exact head_of_isIdentifier identifier
  · exact head?_any_append (head_of_isIdentifier identifier) [mark]

/-! ### Gaps -/

/-- A gap takes all blanks, and at least one. -/
theorem afterGap?_eq_some_iff {s rest : Text} :
    afterGap? s = some rest ↔ ∃ gap, s = gap ++ rest ∧ gap ≠ [] ∧ (∀ c ∈ gap, isBlank c = true) ∧
      rest.head?.any isBlank = false := by
  constructor
  · intro h
    unfold afterGap? at h
    split at h
    case isTrue blank =>
        cases h
        refine ⟨s.takeWhile isBlank, List.takeWhile_append_dropWhile.symm, ?_,
          List.all_eq_true.mp List.all_takeWhile, head?_any_dropWhile s⟩
        cases s with
        | nil => cases blank
        | cons c s =>
            have first : isBlank c = true := blank
            rw [List.takeWhile_cons_of_pos first]
            exact List.cons_ne_nil _ _
    case isFalse => cases h
  · rintro ⟨gap, rfl, some, all, ends⟩
    have starts : startsBlank (gap ++ rest) = true := by
      cases gap with
      | nil => exact absurd rfl some
      | cons c gap => exact all c List.mem_cons_self
    rw [afterGap?, if_pos starts, skipBlanks, (takeWhile_append_of_head all ends).2]

/-! ### Keywords and names -/

/-- A keyword is a whole word with a gap behind it. -/
theorem leadingKeyword?_eq_some_iff {keywords : List Text} {s keyword rest : Text} :
    leadingKeyword? keywords s = some (keyword, rest) ↔
      keyword ∈ keywords ∧ (∀ c ∈ keyword, isWordChar c = true) ∧
        ∃ gap, s = keyword ++ (gap ++ rest) ∧ gap ≠ [] ∧ (∀ c ∈ gap, isBlank c = true) ∧
          rest.head?.any isBlank = false := by
  constructor
  · intro h
    unfold leadingKeyword? at h
    split at h
    case isTrue known =>
        obtain ⟨rest', gap, h⟩ := Option.map_eq_some_iff.mp h
        cases h
        obtain ⟨gap, whole, some, all, ends⟩ := afterGap?_eq_some_iff.mp gap
        refine ⟨List.contains_iff_mem.mp known, forall_mem_word s, gap, ?_, some, all, ends⟩
        rw [← whole, word_append_afterWord]
    case isFalse => cases h
  · rintro ⟨known, letters, gap, rfl, some, all, ends⟩
    have stops : (gap ++ rest).head?.any isWordChar = false := by
      cases gap with
      | nil => exact absurd rfl some
      | cons c gap => exact isWordChar_of_isSpace (isSpace_of_isBlank (all c List.mem_cons_self))
    obtain ⟨front, behind⟩ := word_append letters stops
    rw [leadingKeyword?, front, behind, if_pos (List.contains_iff_mem.mpr known),
      afterGap?_eq_some_iff.mpr ⟨gap, rfl, some, all, ends⟩]
    rfl

theorem word_mem_of_leadingKeyword? {keywords : List Text} {s : Text} {found : Text × Text}
    (h : leadingKeyword? keywords s = some found) : word s ∈ keywords := by
  unfold leadingKeyword? at h
  split at h
  case isTrue known => exact List.contains_iff_mem.mp known
  case isFalse => cases h

theorem leadingKeyword?_eq_none {keywords : List Text} {s : Text} (h : word s ∉ keywords) :
    leadingKeyword? keywords s = none := by
  rw [Option.eq_none_iff_forall_ne_some]
  exact fun found known => h (word_mem_of_leadingKeyword? known)

section Keyword

variable {start : Char → Bool} {keywords : List Text} {keyword rest : Text}

theorem skipBlanks_append (identifier : IsIdentifier start keyword) (rest : Text) :
    skipBlanks (keyword ++ rest) = keyword ++ rest :=
  (skipBlanks_of_isWordChar (head?_any_append (head_of_isIdentifier identifier) rest)).2

/-- A keyword is found in front of a word, with one space between them. -/
theorem leadingKeyword?_append (known : keyword ∈ keywords)
    (identifier : IsIdentifier start keyword) (front : rest.head?.any isWordChar = true) :
    leadingKeyword? keywords (skipBlanks (keyword ++ ' ' :: rest)) = some (keyword, rest) := by
  rw [skipBlanks_append identifier]
  refine leadingKeyword?_eq_some_iff.mpr ⟨known, identifier.2, [' '], rfl, List.cons_ne_nil _ _, ?_,
    (skipBlanks_of_isWordChar front).1⟩
  intro c blank
  rw [List.mem_singleton.mp blank]
  rfl

/-- Another keyword is not found there. -/
theorem leadingKeyword?_append_eq_none (other : keyword ∉ keywords)
    (identifier : IsIdentifier start keyword) (rest : Text) :
    leadingKeyword? keywords (skipBlanks (keyword ++ ' ' :: rest)) = none := by
  rw [skipBlanks_append identifier]
  apply leadingKeyword?_eq_none
  have space : (' ' :: rest).head?.any isWordChar = false := (by decide : isWordChar ' ' = false)
  rw [(word_append identifier.2 space).1]
  exact other

end Keyword

/-- An identifier is one whole word. -/
theorem identifier?_eq_some_iff {start : Char → Bool}
    (letters : ∀ c, start c = true → isWordChar c = true) {s name rest : Text} :
    identifier? start s = some (name, rest) ↔
      s = name ++ rest ∧ IsIdentifier start name ∧ rest.head?.any isWordChar = false := by
  constructor
  · intro h
    cases s with
    | nil => cases h
    | cons c s =>
        rw [identifier?] at h
        split at h
        case isTrue first =>
            cases h
            refine ⟨(word_append_afterWord _).symm, ⟨?_, forall_mem_word _⟩, head?_any_dropWhile _⟩
            rw [word, List.takeWhile_cons_of_pos (letters c first)]
            exact first
        case isFalse => cases h
  · rintro ⟨rfl, ⟨first, all⟩, ends⟩
    obtain ⟨front, behind⟩ := word_append all ends
    cases name with
    | nil => cases first
    | cons c name =>
        rw [List.cons_append] at front behind ⊢
        rw [identifier?, if_pos (by exact first), front, behind]

theorem identifier?_of_isIdentifier {start : Char → Bool}
    (letters : ∀ c, start c = true → isWordChar c = true) {name : Text}
    (identifier : IsIdentifier start name) : identifier? start name = some (name, []) :=
  (identifier?_eq_some_iff letters).mpr ⟨(List.append_nil name).symm, identifier, rfl⟩

theorem isWordChar_of_isNameMark {c : Char} (mark : isNameMark c = true) :
    isWordChar c = false := by
  simp only [isNameMark, Bool.or_eq_true, beq_iff_eq] at mark
  obtain (rfl | rfl) | rfl := mark <;> decide

/-- Of a name, the identifier is taken, and the mark is left if there is one. -/
theorem identifier?_append_of_isMarkedName {start : Char → Bool}
    (letters : ∀ c, start c = true → isWordChar c = true) {name rest : Text}
    (isName : IsMarkedName start name) (ends : rest.head?.any isWordChar = false) :
    ∃ stem, name = stem ∧ identifier? start (name ++ rest) = some (stem, rest) ∨
      ∃ mark, isNameMark mark = true ∧ name = stem ++ [mark] ∧
        identifier? start (name ++ rest) = some (stem, mark :: rest) := by
  obtain ⟨stem, identifier, rfl | ⟨mark, isMark, rfl⟩⟩ := isName
  · exact ⟨name, .inl ⟨rfl, (identifier?_eq_some_iff letters).mpr ⟨rfl, identifier, ends⟩⟩⟩
  · refine ⟨stem, .inr ⟨mark, isMark, rfl, ?_⟩⟩
    rw [List.append_assoc, List.singleton_append]
    exact (identifier?_eq_some_iff letters).mpr
      ⟨rfl, identifier, isWordChar_of_isNameMark isMark⟩

/-- A name is taken whole, with its mark, where neither a word nor a mark goes on behind it. -/
theorem markedName?_append {start : Char → Bool}
    (letters : ∀ c, start c = true → isWordChar c = true) {name rest : Text}
    (isName : IsMarkedName start name) (ends : rest.head?.any isWordChar = false)
    (unmarked : rest.head?.any isNameMark = false) :
    markedName? start (name ++ rest) = some (name, rest) := by
  obtain ⟨stem, ⟨rfl, taken⟩ | ⟨mark, isMark, rfl, taken⟩⟩ :=
    identifier?_append_of_isMarkedName letters isName ends
  · rw [markedName?, taken]
    cases rest with
    | nil => rfl
    | cons c rest =>
        have other : ¬ isNameMark c = true := by simpa using unmarked
        rw [Option.map_some]
        simp only [if_neg other]
  · rw [markedName?, taken, Option.map_some]
    simp only [if_pos isMark]

/-- A name is taken from the front of a text, with the mark that ends it, and nothing is lost. -/
theorem append_of_markedName? {start : Char → Bool} {s name rest : Text}
    (h : markedName? start s = some (name, rest)) : s = name ++ rest := by
  obtain ⟨⟨stem, behind⟩, found, h⟩ := Option.map_eq_some_iff.mp h
  have whole : s = stem ++ behind := by
    unfold identifier? at found
    split at found
    · cases found
    · split at found
      · cases found
        exact (word_append_afterWord _).symm
      · cases found
  rw [whole]
  cases behind with
  | nil => cases h; rfl
  | cons c after =>
      simp only at h
      split at h
      · cases h
        rw [List.append_assoc]
        rfl
      · cases h
        rfl

/-- What is taken as a name is one. -/
theorem isMarkedName_of_markedName? {start : Char → Bool}
    (letters : ∀ c, start c = true → isWordChar c = true) {s name rest : Text}
    (h : markedName? start s = some (name, rest)) : IsMarkedName start name := by
  obtain ⟨⟨stem, behind⟩, found, h⟩ := Option.map_eq_some_iff.mp h
  obtain ⟨_, identifier, _⟩ := (identifier?_eq_some_iff letters).mp found
  refine ⟨stem, identifier, ?_⟩
  cases behind with
  | nil =>
      cases h
      exact .inl rfl
  | cons c after =>
      simp only at h
      split at h
      case isTrue mark =>
          cases h
          exact .inr ⟨c, mark, rfl⟩
      case isFalse =>
          cases h
          exact .inl rfl

end Dragonstone
