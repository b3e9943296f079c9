/-
# The word in front decides

Six forms of definition are tried one after the other, and three checks look for names that breach a
convention.  None of them gets in the way of another.  A form or check that begins with a keyword
needs this word in front of the line, no word belongs to two of them, and what has no keyword begins
with a capital, which no keyword does.  So a line defines something exactly if one of the forms
fits, no matter in which order they are tried, and it breaches at most one convention.

For each form and each check it is stated here what it makes of a line, and the other modules read
definitions and findings on names from these statements.
-/

import Dragonstone.Naming
import Dragonstone.Proofs.Text.Word

namespace Dragonstone

open Vocabulary

variable {line : Line}

/-! ### Words in front, and letters of names -/

namespace Definition

/-- The words that a definition can begin with. -/
def frontWords : List Text :=
  abstractModifiers ++ typeKeywords ++ moduleKeywords ++ methodKeywords ++ functionKeywords ++
    variableKeywords

theorem isIdentifier_of_mem_frontWords : ∀ w ∈ frontWords, IsIdentifier isIdentStart w := by
  decide

theorem isIdentStart_of_isLowerStart (c : Char) (letter : isLowerStart c = true) :
    isIdentStart c = true := by
  obtain lower | underscore := Bool.or_eq_true_iff.mp letter
  · exact isIdentStart_of_isLower lower
  · exact Bool.or_eq_true_iff.mpr (.inr underscore)

theorem isWordChar_of_isLowerStart (c : Char) (letter : isLowerStart c = true) :
    isWordChar c = true :=
  isWordChar_of_isIdentStart (isIdentStart_of_isLowerStart c letter)

theorem isWordChar_of_isConstantChar {c : Char} (constant : isConstantChar c = true) :
    isWordChar c = true := by
  simp only [isConstantChar, Bool.or_eq_true] at constant
  obtain (upper | underscore) | digit := constant
  · exact isWordChar_of_isUpper c upper
  · exact Bool.or_eq_true_iff.mpr (.inr underscore)
  · simp [isWordChar, Char.isAlphanum, digit]

end Definition

/-! ### Forms of definition -/

namespace Definition

variable {d : Definition}

theorem parseType?_eq_some_iff :
    parseType? line = some d ↔
      ∃ keyword behind name rest,
        leadingKeyword? typeKeywords (afterAbstract line) = some (keyword, behind) ∧
          identifier? Char.isUpper behind = some (name, rest) ∧ .typeDecl keyword name = d := by
  simp only [parseType?, Option.bind_eq_bind, Option.bind_eq_some_iff, Option.pure_def,
    Option.some.injEq, Prod.exists, exists_and_left]

theorem parseModule?_eq_some_iff :
    parseModule? line = some d ↔
      ∃ keyword behind name rest,
        leadingKeyword? moduleKeywords (skipBlanks line) = some (keyword, behind) ∧
          identifier? Char.isUpper behind = some (name, rest) ∧ .moduleDecl keyword name = d := by
  simp only [parseModule?, Option.bind_eq_bind, Option.bind_eq_some_iff, Option.pure_def,
    Option.some.injEq, Prod.exists, exists_and_left]

/-- The name of a method is read behind its receiver, if there is one, and else behind the
keyword. -/
theorem parseMethod?_eq_some_iff :
    parseMethod? line = some d ↔
      ∃ keyword behind,
        leadingKeyword? methodKeywords (skipBlanks line) = some (keyword, behind) ∧
          ((∃ receiver own name rest, receiver? behind = some (receiver, own) ∧
              markedName? isIdentStart own = some (name, rest) ∧
              .methodDecl keyword (some receiver) name (params? rest) = d) ∨
            receiver? behind = none ∧ ∃ name rest,
              markedName? isIdentStart behind = some (name, rest) ∧
              .methodDecl keyword none name (params? rest) = d) := by
  simp only [parseMethod?, Option.bind_eq_bind, Option.bind_eq_some_iff, Prod.exists]
  refine exists_congr fun keyword => exists_congr fun behind => and_congr_right fun _ => ?_
  obtain _ | ⟨receiver, own⟩ := receiver? behind
  · simp [Option.bind_eq_some_iff]
  · simp [Option.bind_eq_some_iff, and_assoc]

theorem parseFunction?_eq_some_iff :
    parseFunction? line = some d ↔
      ∃ keyword behind name rest,
        leadingKeyword? functionKeywords (skipBlanks line) = some (keyword, behind) ∧
          markedName? isLowerStart behind = some (name, rest) ∧
          .functionDecl keyword name (params? rest) = d := by
  simp only [parseFunction?, Option.bind_eq_bind, Option.bind_eq_some_iff, Option.pure_def,
    Option.some.injEq, Prod.exists, exists_and_left]

theorem parseVariable?_eq_some_iff :
    parseVariable? line = some d ↔
      ∃ keyword behind name rest,
        leadingKeyword? variableKeywords (skipBlanks line) = some (keyword, behind) ∧
          identifier? isLowerStart behind = some (name, rest) ∧
          .variableDecl keyword name (declaredType? rest) = d := by
  simp only [parseVariable?, Option.bind_eq_bind, Option.bind_eq_some_iff, Option.pure_def,
    Option.some.injEq, Prod.exists, exists_and_left]

/-- A keyword behind an optional modifier: one of the two stands in front of the line. -/
theorem front_of_afterAbstract {keywords : List Text} {found : Text × Text}
    (h : leadingKeyword? keywords (afterAbstract line) = some found) :
    word (skipBlanks line) ∈ abstractModifiers ++ keywords := by
  simp only [afterAbstract] at h
  split at h
  case h_1 modifier => exact List.mem_append_left _ (word_mem_of_leadingKeyword? modifier)
  case h_2 => exact List.mem_append_right _ (word_mem_of_leadingKeyword? h)

theorem front_of_parseType? (h : parseType? line = some d) :
    word (skipBlanks line) ∈ abstractModifiers ++ typeKeywords := by
  obtain ⟨_, _, _, _, keyword, _⟩ := parseType?_eq_some_iff.mp h
  exact front_of_afterAbstract keyword

theorem front_of_parseModule? (h : parseModule? line = some d) :
    word (skipBlanks line) ∈ moduleKeywords := by
  obtain ⟨_, _, _, _, keyword, _⟩ := parseModule?_eq_some_iff.mp h
  exact word_mem_of_leadingKeyword? keyword

theorem front_of_parseMethod? (h : parseMethod? line = some d) :
    word (skipBlanks line) ∈ methodKeywords := by
  obtain ⟨_, _, keyword, _⟩ := parseMethod?_eq_some_iff.mp h
  exact word_mem_of_leadingKeyword? keyword

theorem front_of_parseFunction? (h : parseFunction? line = some d) :
    word (skipBlanks line) ∈ functionKeywords := by
  obtain ⟨_, _, _, _, keyword, _⟩ := parseFunction?_eq_some_iff.mp h
  exact word_mem_of_leadingKeyword? keyword

theorem front_of_parseVariable? (h : parseVariable? line = some d) :
    word (skipBlanks line) ∈ variableKeywords := by
  obtain ⟨_, _, _, _, keyword, _⟩ := parseVariable?_eq_some_iff.mp h
  exact word_mem_of_leadingKeyword? keyword

end Definition

/-- The word of a text that begins with a capital begins with it too. -/
theorem word_cons_of_isUpper {c : Char} (upper : c.isUpper = true) (rest : Text) :
    word (c :: rest) = c :: word rest :=
  List.takeWhile_cons_of_pos (isWordChar_of_isUpper c upper)

namespace Definition

variable {d : Definition}

theorem front_of_parseConstant? (h : parseConstant? line = some d) :
    (word (skipBlanks line)).head?.any Char.isUpper = true := by
  simp only [parseConstant?] at h
  split at h
  case h_1 => cases h
  case h_2 c rest front =>
      obtain ⟨constant, _⟩ := Option.ite_none_right_eq_some.mp h
      have upper : c.isUpper = true := (Bool.and_eq_true_iff.mp constant).1
      rw [front, word_cons_of_isUpper upper]
      exact upper

theorem exists_eq_of_parseConstant? (h : parseConstant? line = some d) :
    ∃ name, d = .constantDecl name := by
  simp only [parseConstant?] at h
  split at h
  case h_1 => cases h
  case h_2 =>
      obtain ⟨_, same⟩ := Option.ite_none_right_eq_some.mp h
      exact ⟨_, (Option.some.inj same).symm⟩

/-- A line defines what one of the six forms makes of it.  At most one of them fits, so none has to
be tried in front of another. -/
theorem ofLine?_eq_some_iff :
    ofLine? line = some d ↔
      parseType? line = some d ∨ parseModule? line = some d ∨ parseMethod? line = some d ∨
        parseFunction? line = some d ∨ parseConstant? line = some d ∨
        parseVariable? line = some d := by
  constructor
  · have either {a b : Option Definition} (h : (a <|> b) = some d) : a = some d ∨ b = some d := by
      cases a with
      | none => exact .inr h
      | some _ => exact .inl h
    exact fun h => (either h).imp_right fun h => (either h).imp_right fun h =>
      (either h).imp_right fun h => (either h).imp_right either
  · have type (other : word (skipBlanks line) ∉ abstractModifiers ++ typeKeywords) :
        parseType? line = none :=
      Option.eq_none_iff_forall_ne_some.mpr fun _ h => other (front_of_parseType? h)
    have module (other : word (skipBlanks line) ∉ moduleKeywords) : parseModule? line = none :=
      Option.eq_none_iff_forall_ne_some.mpr fun _ h => other (front_of_parseModule? h)
    have method (other : word (skipBlanks line) ∉ methodKeywords) : parseMethod? line = none :=
      Option.eq_none_iff_forall_ne_some.mpr fun _ h => other (front_of_parseMethod? h)
    have function (other : word (skipBlanks line) ∉ functionKeywords) :
        parseFunction? line = none :=
      Option.eq_none_iff_forall_ne_some.mpr fun _ h => other (front_of_parseFunction? h)
    rintro (h | h | h | h | h | h)
    · simp [ofLine?, h]
    · have apart : ∀ w ∈ moduleKeywords, w ∉ abstractModifiers ++ typeKeywords := by decide
      simp [ofLine?, type (apart _ (front_of_parseModule? h)), h]
    · have apart : ∀ w ∈ methodKeywords, w ∉ abstractModifiers ++ typeKeywords ∧
          w ∉ moduleKeywords := by decide
      obtain ⟨noType, noModule⟩ := apart _ (front_of_parseMethod? h)
      simp [ofLine?, type noType, module noModule, h]
    · have apart : ∀ w ∈ functionKeywords, w ∉ abstractModifiers ++ typeKeywords ∧
          w ∉ moduleKeywords ∧ w ∉ methodKeywords := by decide
      obtain ⟨noType, noModule, noMethod⟩ := apart _ (front_of_parseFunction? h)
      simp [ofLine?, type noType, module noModule, method noMethod, h]
    · have upper := front_of_parseConstant? h
      have noKeyword {keywords : List Text}
          (lower : ∀ w ∈ keywords, w.head?.any Char.isUpper = false) :
          word (skipBlanks line) ∉ keywords := by
        intro mem
        cases upper.symm.trans (lower _ mem)
      simp [ofLine?, type (noKeyword (by decide)), module (noKeyword (by decide)),
        method (noKeyword (by decide)), function (noKeyword (by decide)), h]
    · have apart : ∀ w ∈ variableKeywords, w ∉ abstractModifiers ++ typeKeywords ∧
          w ∉ moduleKeywords ∧ w ∉ methodKeywords ∧ w ∉ functionKeywords ∧
          w.head?.any Char.isUpper = false := by decide
      obtain ⟨noType, noModule, noMethod, noFunction, lower⟩ := apart _ (front_of_parseVariable? h)
      have constant : parseConstant? line = none := by
        rw [Option.eq_none_iff_forall_ne_some]
        intro d found
        cases lower.symm.trans (front_of_parseConstant? found)
      simp [ofLine?, type noType, module noModule, method noMethod, function noFunction, constant,
        h]

/-- The one form that makes definitions of this kind. -/
def ownForm : Definition → Line → Option Definition
  | .typeDecl .. => parseType?
  | .moduleDecl .. => parseModule?
  | .methodDecl .. => parseMethod?
  | .functionDecl .. => parseFunction?
  | .constantDecl _ => parseConstant?
  | .variableDecl .. => parseVariable?

/-- A line defines something exactly if the form of its kind makes it. -/
theorem ofLine?_eq_some_iff_ownForm : ofLine? line = some d ↔ d.ownForm line = some d := by
  rw [ofLine?_eq_some_iff]
  constructor
  · rintro (h | h | h | h | h | h)
    · obtain ⟨_, _, _, _, _, _, rfl⟩ := parseType?_eq_some_iff.mp h
      exact h
    · obtain ⟨_, _, _, _, _, _, rfl⟩ := parseModule?_eq_some_iff.mp h
      exact h
    · obtain ⟨_, _, _, ⟨_, _, _, _, _, _, rfl⟩ | ⟨_, _, _, _, rfl⟩⟩ :=
        parseMethod?_eq_some_iff.mp h
      · exact h
      · exact h
    · obtain ⟨_, _, _, _, _, _, rfl⟩ := parseFunction?_eq_some_iff.mp h
      exact h
    · obtain ⟨name, rfl⟩ := exists_eq_of_parseConstant? h
      exact h
    · obtain ⟨_, _, _, _, _, _, rfl⟩ := parseVariable?_eq_some_iff.mp h
      exact h
  · intro h
    cases d with
    | typeDecl => exact .inl h
    | moduleDecl => exact .inr (.inl h)
    | methodDecl => exact .inr (.inr (.inl h))
    | functionDecl => exact .inr (.inr (.inr (.inl h)))
    | constantDecl => exact .inr (.inr (.inr (.inr (.inl h))))
    | variableDecl => exact .inr (.inr (.inr (.inr (.inr h))))

end Definition

/-! ### Conventions of names -/

namespace Naming

variable {n : Nat} {inEnum : Bool} {f : Finding}

theorem identifier?_of_startsCapitalized {s : Text} (capital : startsCapitalized s = true) :
    identifier? Char.isUpper s = some (word s, afterWord s) := by
  unfold startsCapitalized at capital
  split at capital
  case h_1 =>
      simp only [Bool.and_eq_true] at capital
      rw [identifier?, if_pos capital.1]
  case h_2 => cases capital

theorem mem_check_iff :
    f ∈ check n line inEnum ↔
      typeName? n line = some f ∨ callableName? n line = some f ∨
        constantName? n line inEnum = some f := by
  simp only [check, List.mem_append, Option.mem_toList, or_assoc]

/-- What the check of types and modules finds is a small name behind a keyword. -/
theorem typeName?_eq_some_iff :
    typeName? n line = some f ↔
      ∃ keyword rest name after,
        leadingKeyword? (typeKeywords ++ moduleKeywords) (Definition.afterAbstract line) =
            some (keyword, rest) ∧
          identifier? Char.isLower rest = some (name, after) ∧
          findingAt n line rest name (.lowercaseType keyword) = f := by
  simp only [typeName?, Option.bind_eq_bind, Option.bind_eq_some_iff, Option.pure_def,
    Option.some.injEq, Prod.exists, exists_and_left]

/-- What the check of methods and functions finds is a capitalised name behind a keyword, without a
dot behind it. -/
theorem callableName?_eq_some_iff :
    callableName? n line = some f ↔
      ∃ keyword rest name after,
        leadingKeyword? (methodKeywords ++ functionKeywords) (skipBlanks line) =
            some (keyword, rest) ∧
          identifier? Char.isUpper rest = some (name, after) ∧ after.head? ≠ some '.' ∧
          findingAt n line rest name (.capitalizedCallable keyword) = f := by
  simp only [callableName?, Option.bind_eq_bind, Option.bind_eq_some_iff, Option.pure_def,
    Option.ite_none_left_eq_some, beq_iff_eq, Option.some.injEq, Prod.exists, exists_and_left]

/-- What the check of constants finds is the capitalised word in front of an assignment. -/
theorem constantName?_eq_some_iff :
    constantName? n line inEnum = some f ↔
      inEnum = false ∧ startsCapitalized (skipBlanks line) = true ∧ hasAssignment line = true ∧
        findingAt n line (skipBlanks line) (word (skipBlanks line)) .mixedCaseConstant = f := by
  simp only [constantName?, Option.ite_none_right_eq_some, Option.some.injEq, Bool.and_eq_true,
    Bool.not_eq_true', and_assoc]

/-- A line that names a type begins with a modifier or with a keyword of types and modules. -/
theorem front_of_typeName? (found : typeName? n line = some f) :
    word (skipBlanks line) ∈ abstractModifiers ++ (typeKeywords ++ moduleKeywords) := by
  obtain ⟨_, _, _, _, keyword, _⟩ := typeName?_eq_some_iff.mp found
  exact Definition.front_of_afterAbstract keyword

theorem front_of_callableName? (found : callableName? n line = some f) :
    word (skipBlanks line) ∈ methodKeywords ++ functionKeywords := by
  obtain ⟨_, _, _, _, keyword, _⟩ := callableName?_eq_some_iff.mp found
  exact word_mem_of_leadingKeyword? keyword

theorem front_of_constantName? (found : constantName? n line inEnum = some f) :
    (word (skipBlanks line)).head?.any Char.isUpper = true := by
  obtain ⟨_, capital, _, _⟩ := constantName?_eq_some_iff.mp found
  have name := identifier?_of_startsCapitalized capital
  exact ((identifier?_eq_some_iff isWordChar_of_isUpper).mp name).2.1.1

theorem typeName?_eq_none
    (other : word (skipBlanks line) ∉ abstractModifiers ++ (typeKeywords ++ moduleKeywords)) :
    typeName? n line = none :=
  Option.eq_none_iff_forall_ne_some.mpr fun _ found => other (front_of_typeName? found)

theorem callableName?_eq_none
    (other : word (skipBlanks line) ∉ methodKeywords ++ functionKeywords) :
    callableName? n line = none :=
  Option.eq_none_iff_forall_ne_some.mpr fun _ found => other (front_of_callableName? found)

theorem constantName?_eq_none (lower : (word (skipBlanks line)).head?.any Char.isUpper = false) :
    constantName? n line inEnum = none := by
  rw [Option.eq_none_iff_forall_ne_some]
  intro f found
  cases lower.symm.trans (front_of_constantName? found)

/-- Behind a modifier or a keyword of types and modules, only the name of one is looked at. -/
theorem check_eq_typeName?
    (front : word (skipBlanks line) ∈ abstractModifiers ++ (typeKeywords ++ moduleKeywords)) :
    check n line inEnum = (typeName? n line).toList := by
  have apart : ∀ w ∈ abstractModifiers ++ (typeKeywords ++ moduleKeywords),
      w ∉ methodKeywords ++ functionKeywords ∧ w.head?.any Char.isUpper = false := by decide
  obtain ⟨other, lower⟩ := apart _ front
  simp [check, callableName?_eq_none other, constantName?_eq_none lower]

/-- Behind a keyword of methods and functions, only the name of one is looked at. -/
theorem check_eq_callableName?
    (front : word (skipBlanks line) ∈ methodKeywords ++ functionKeywords) :
    check n line inEnum = (callableName? n line).toList := by
  have apart : ∀ w ∈ methodKeywords ++ functionKeywords,
      w ∉ abstractModifiers ++ (typeKeywords ++ moduleKeywords) ∧
        w.head?.any Char.isUpper = false := by decide
  obtain ⟨other, lower⟩ := apart _ front
  simp [check, typeName?_eq_none other, constantName?_eq_none lower]

/-- The three checks never find something on the same line. -/
theorem exists_check_eq_toList (n : Nat) (line : Line) (inEnum : Bool) :
    ∃ found? : Option Finding, check n line inEnum = found?.toList := by
  by_cases type : word (skipBlanks line) ∈ abstractModifiers ++ (typeKeywords ++ moduleKeywords)
  · exact ⟨_, check_eq_typeName? type⟩
  by_cases callable : word (skipBlanks line) ∈ methodKeywords ++ functionKeywords
  · exact ⟨_, check_eq_callableName? callable⟩
  exact ⟨constantName? n line inEnum,
    by simp [check, typeName?_eq_none type, callableName?_eq_none callable]⟩

end Naming

end Dragonstone
