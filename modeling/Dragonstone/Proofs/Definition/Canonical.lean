/-
# Definitions are read as they are written

A definition that is written in its canonical form, behind any number of spaces, is read as the
definition that it is, and is the one symbol of its line.

No other form of definition can get in the way, because at most one fits a line.  What is left is to
read each form from front to back, part by part: a part is taken whole because what stands behind it
cannot belong to it.
-/

import Dragonstone.Proofs.Comment.Nesting
import Dragonstone.Proofs.Definition.Parts
import Dragonstone.Proofs.LeadingSpace.Definition
import Dragonstone.Proofs.Text.Weaving
import Dragonstone.Symbol

namespace Dragonstone

open Vocabulary

namespace Definition

/-! ### The canonical form -/

/-- A parameter list behind a name. -/
def parenthesised : Option Text → Text
  | none => []
  | some params => '(' :: params ++ [')']

/-- The type of a variable behind its name. -/
def ascription : Option Text → Text
  | none => []
  | some type => ':' :: ' ' :: type

/-- A definition as it is written, apart from modifiers and leading space. -/
def written : Definition → Text
  | .typeDecl keyword name => keyword ++ ' ' :: name
  | .moduleDecl keyword name => keyword ++ ' ' :: name
  | .methodDecl keyword receiver name params =>
    keyword ++ ' ' :: (qualified receiver name ++ parenthesised params)
  | .functionDecl keyword name params => keyword ++ ' ' :: (name ++ parenthesised params)
  | .constantDecl name => name ++ " = ".toList
  | .variableDecl keyword name type => keyword ++ ' ' :: (name ++ ascription type)

/-- What may stand in front of a definition: nothing, or a modifier if it is one of a type. -/
def fronts : Definition → List Text
  | .typeDecl .. => [] :: abstractModifiers.map (· ++ [' '])
  | _ => [[]]

/-- Keyword and names are such as the form of the definition allows.  A parameter list is anything
on one line that does not end it, and the type of a variable is a capitalised identifier or one of
the lower-case types. -/
def WellFormed : Definition → Prop
  | .typeDecl keyword name => keyword ∈ typeKeywords ∧ IsIdentifier Char.isUpper name
  | .moduleDecl keyword name => keyword ∈ moduleKeywords ∧ IsIdentifier Char.isUpper name
  | .methodDecl keyword receiver name params =>
    keyword ∈ methodKeywords ∧ (∀ r ∈ receiver, IsIdentifier isIdentStart r) ∧
      IsMarkedName isIdentStart name ∧ ∀ p ∈ params, ')' ∉ p ∧ '\n' ∉ p
  | .functionDecl keyword name params =>
    keyword ∈ functionKeywords ∧ IsMarkedName isLowerStart name ∧
      ∀ p ∈ params, ')' ∉ p ∧ '\n' ∉ p
  | .constantDecl name =>
    name.head?.any Char.isUpper = true ∧ ∀ c ∈ name, isConstantChar c = true
  | .variableDecl keyword name type =>
    keyword ∈ variableKeywords ∧ IsIdentifier isLowerStart name ∧
      ∀ t ∈ type, IsIdentifier Char.isUpper t ∨ t ∈ variableTypes

/-! ### Reading the parts -/

/-- Behind a name, a parameter list goes on with neither a word nor a mark. -/
theorem head_parenthesised (params : Option Text) :
    (parenthesised params).head?.any isWordChar = false ∧
      (parenthesised params).head?.any isNameMark = false := by
  cases params with
  | none => exact ⟨rfl, rfl⟩
  | some p => exact ⟨(by decide : isWordChar '(' = false), (by decide : isNameMark '(' = false)⟩

theorem params?_parenthesised {params : Option Text} (plain : ∀ p ∈ params, ')' ∉ p) :
    params? (parenthesised params) = params := by
  cases params with
  | none => rfl
  | some p =>
      have inner : ∀ c ∈ p, (c != ')') = true := by
        intro c mem
        rw [bne_iff_ne]
        rintro rfl
        exact plain p rfl mem
      have opens : skipBlanks (parenthesised (some p)) = '(' :: (p ++ [')']) := rfl
      rw [params?, opens]
      simp [(takeWhile_append_of_head inner (by rfl : [')'].head?.any (· != ')') = false)).1]

theorem declaredType?_ascription {type : Option Text}
    (known : ∀ t ∈ type, IsIdentifier Char.isUpper t ∨ t ∈ variableTypes) :
    declaredType? (ascription type) = type := by
  cases type with
  | none => rfl
  | some t =>
      obtain capitalised | basic := known t rfl
      · have front : skipBlanks (' ' :: t) = t := by
          rw [skipBlanks_cons (by decide)]
          exact (skipBlanks_of_isWordChar (head_of_isIdentifier capitalised)).2
        have colon : skipBlanks (ascription (some t)) = ':' :: ' ' :: t := rfl
        simp only [declaredType?, colon, front,
          identifier?_of_isIdentifier isWordChar_of_isUpper capitalised]
      · have each : ∀ t ∈ variableTypes, declaredType? (ascription (some t)) = some t := by decide
        exact each t basic

/-- A receiver is found in front of its dot. -/
theorem receiver?_append {receiver name rest : Text}
    (isReceiver : IsIdentifier isIdentStart receiver) (isName : IsMarkedName isIdentStart name)
    (ends : rest.head?.any isWordChar = false) :
    receiver? (receiver ++ '.' :: (name ++ rest)) = some (receiver, name ++ rest) := by
  have taken : identifier? isIdentStart (receiver ++ '.' :: (name ++ rest)) =
      some (receiver, '.' :: (name ++ rest)) :=
    (identifier?_eq_some_iff fun _ => isWordChar_of_isIdentStart).mpr
      ⟨rfl, isReceiver, (by decide : isWordChar '.' = false)⟩
  have named : (identifier? isIdentStart (name ++ rest)).isSome = true := by
    obtain ⟨stem, ⟨_, found⟩ | ⟨_, _, _, found⟩⟩ :=
      identifier?_append_of_isMarkedName (fun _ => isWordChar_of_isIdentStart) isName ends
    · rw [found]
      rfl
    · rw [found]
      rfl
  rw [receiver?, taken, Option.bind_eq_bind, Option.bind_some]
  simp only [if_pos named]

/-- A name without a dot behind it has no receiver in front of it. -/
theorem receiver?_eq_none {name : Text} (isName : IsMarkedName isIdentStart name)
    (params : Option Text) : receiver? (name ++ parenthesised params) = none := by
  obtain ⟨stem, ⟨_, found⟩ | ⟨mark, isMark, _, found⟩⟩ := identifier?_append_of_isMarkedName
    (fun _ => isWordChar_of_isIdentStart) isName (head_parenthesised params).1
  · rw [receiver?, found]
    cases params with
    | none => rfl
    | some p => rfl
  · have other : mark ≠ '.' := by
      rintro rfl
      cases isMark
    rw [receiver?, found]
    simp [other]

/-! ### Reading the forms -/

section Forms

variable {keyword name : Text}

/-- A modifier in front of a type is taken off. -/
theorem afterAbstract_written (known : keyword ∈ typeKeywords)
    (identifier : IsIdentifier isIdentStart keyword) {front : Text}
    (leads : front ∈ (typeDecl keyword name).fronts) :
    afterAbstract (front ++ written (.typeDecl keyword name)) =
      skipBlanks (keyword ++ ' ' :: name) := by
  obtain rfl | modifier := List.mem_cons.mp leads
  · have other := not_mem_abstractModifiers keyword known
    simp only [List.nil_append, written, afterAbstract,
      leadingKeyword?_append_eq_none other identifier]
  · obtain ⟨w, isModifier, rfl⟩ := List.mem_map.mp modifier
    have found := leadingKeyword?_append isModifier
      (isIdentifier_of_mem_frontWords w (by simp [frontWords, isModifier]))
      (head?_any_append (head_of_isIdentifier identifier) (' ' :: name))
    simp only [List.append_assoc, List.singleton_append, written, afterAbstract, found,
      skipBlanks_append identifier]

theorem parseType?_written (known : keyword ∈ typeKeywords)
    (isName : IsIdentifier Char.isUpper name) {front : Text}
    (leads : front ∈ (typeDecl keyword name).fronts) :
    parseType? (front ++ written (.typeDecl keyword name)) = some (.typeDecl keyword name) := by
  have identifier := isIdentifier_of_mem_frontWords keyword (by simp [frontWords, known])
  rw [parseType?, afterAbstract_written known identifier leads,
    leadingKeyword?_append known identifier (head_of_isIdentifier isName), Option.bind_eq_bind,
    Option.bind_some]
  simp only [identifier?_of_isIdentifier isWordChar_of_isUpper isName]
  rfl

theorem parseModule?_written (known : keyword ∈ moduleKeywords)
    (isName : IsIdentifier Char.isUpper name) :
    parseModule? (written (.moduleDecl keyword name)) = some (.moduleDecl keyword name) := by
  have identifier := isIdentifier_of_mem_frontWords keyword (by simp [frontWords, known])
  rw [written, parseModule?,
    leadingKeyword?_append known identifier (head_of_isIdentifier isName), Option.bind_eq_bind,
    Option.bind_some]
  simp only [identifier?_of_isIdentifier isWordChar_of_isUpper isName]
  rfl

theorem parseMethod?_written (known : keyword ∈ methodKeywords) {receiver : Option Text}
    (isReceiver : ∀ r ∈ receiver, IsIdentifier isIdentStart r)
    (isName : IsMarkedName isIdentStart name) {params : Option Text}
    (plain : ∀ p ∈ params, ')' ∉ p) :
    parseMethod? (written (.methodDecl keyword receiver name params)) =
      some (.methodDecl keyword receiver name params) := by
  have identifier := isIdentifier_of_mem_frontWords keyword (by simp [frontWords, known])
  obtain ⟨ends, unmarked⟩ := head_parenthesised params
  have named := markedName?_append (fun _ => isWordChar_of_isIdentStart) isName ends unmarked
  cases receiver with
  | none =>
      have body := head?_any_append (head_of_isMarkedName isName) (parenthesised params)
      rw [written, parseMethod?, qualified, leadingKeyword?_append known identifier body,
        Option.bind_eq_bind, Option.bind_some]
      simp only [receiver?_eq_none isName, named, Option.bind_some, params?_parenthesised plain]
      rfl
  | some r =>
      have first := isReceiver r rfl
      have body := head?_any_append (head_of_isIdentifier first)
        ('.' :: (name ++ parenthesised params))
      rw [written, parseMethod?, qualified, List.append_assoc, List.cons_append,
        leadingKeyword?_append known identifier body, Option.bind_eq_bind, Option.bind_some]
      simp only [receiver?_append first isName ends, named, Option.bind_some,
        params?_parenthesised plain]
      rfl

theorem parseFunction?_written (known : keyword ∈ functionKeywords)
    (isName : IsMarkedName isLowerStart name) {params : Option Text}
    (plain : ∀ p ∈ params, ')' ∉ p) :
    parseFunction? (written (.functionDecl keyword name params)) =
      some (.functionDecl keyword name params) := by
  have identifier := isIdentifier_of_mem_frontWords keyword (by simp [frontWords, known])
  obtain ⟨ends, unmarked⟩ := head_parenthesised params
  have body := head?_any_append (head_of_isMarkedName isName) (parenthesised params)
  rw [written, parseFunction?, leadingKeyword?_append known identifier body, Option.bind_eq_bind,
    Option.bind_some]
  simp only [markedName?_append isWordChar_of_isLowerStart isName ends unmarked, Option.bind_some,
    params?_parenthesised plain]
  rfl

theorem parseConstant?_written (upper : name.head?.any Char.isUpper = true)
    (constant : ∀ c ∈ name, isConstantChar c = true) :
    parseConstant? (written (.constantDecl name)) = some (.constantDecl name) := by
  have sets : SetsConstant (written (.constantDecl name)) name [] " ".toList " ".toList :=
    ⟨rfl, by decide, by decide, upper, constant⟩
  exact parseConstant?_eq_some_iff.mpr ⟨name, [], _, _, rfl, sets⟩

theorem parseVariable?_written (known : keyword ∈ variableKeywords)
    (isName : IsIdentifier isLowerStart name) {type : Option Text}
    (isType : ∀ t ∈ type, IsIdentifier Char.isUpper t ∨ t ∈ variableTypes) :
    parseVariable? (written (.variableDecl keyword name type)) =
      some (.variableDecl keyword name type) := by
  have identifier := isIdentifier_of_mem_frontWords keyword (by simp [frontWords, known])
  have body := head?_any_append (head_of_isIdentifier isName) (ascription type)
  have ends : (ascription type).head?.any isWordChar = false := by
    cases type with
    | none => rfl
    | some t => exact (by decide : isWordChar ':' = false)
  have named : identifier? isLowerStart (name ++ ascription type) = some (name, ascription type) :=
    (identifier?_eq_some_iff isWordChar_of_isLowerStart).mpr ⟨rfl, isName, ends⟩
  rw [written, parseVariable?, leadingKeyword?_append known identifier body, Option.bind_eq_bind,
    Option.bind_some]
  simp only [named, Option.bind_some, declaredType?_ascription isType]
  rfl

end Forms

/-- A definition in canonical form is read as it is written. -/
theorem ofLine?_written {d : Definition} (wellFormed : d.WellFormed) {front : Text}
    (leads : front ∈ d.fronts) : ofLine? (front ++ d.written) = some d := by
  rw [ofLine?_eq_some_iff]
  cases d with
  | typeDecl keyword name =>
      obtain ⟨known, isName⟩ := wellFormed
      exact .inl (parseType?_written known isName leads)
  | moduleDecl keyword name =>
      obtain ⟨known, isName⟩ := wellFormed
      obtain rfl := List.mem_singleton.mp leads
      exact .inr (.inl (parseModule?_written known isName))
  | methodDecl keyword receiver name params =>
      obtain ⟨known, isReceiver, isName, plain⟩ := wellFormed
      obtain rfl := List.mem_singleton.mp leads
      exact .inr (.inr (.inl
        (parseMethod?_written known isReceiver isName fun p mem => (plain p mem).1)))
  | functionDecl keyword name params =>
      obtain ⟨known, isName, plain⟩ := wellFormed
      obtain rfl := List.mem_singleton.mp leads
      exact .inr (.inr (.inr (.inl
        (parseFunction?_written known isName fun p mem => (plain p mem).1))))
  | constantDecl name =>
      obtain ⟨upper, constant⟩ := wellFormed
      obtain rfl := List.mem_singleton.mp leads
      exact .inr (.inr (.inr (.inr (.inl (parseConstant?_written upper constant)))))
  | variableDecl keyword name type =>
      obtain ⟨known, isName, isType⟩ := wellFormed
      obtain rfl := List.mem_singleton.mp leads
      exact .inr (.inr (.inr (.inr (.inr (parseVariable?_written known isName isType)))))

/-! ### One line -/

theorem not_mem_of_isWordChar {s : Text} (letters : ∀ c ∈ s, isWordChar c = true) : '\n' ∉ s :=
  fun feed => absurd (letters _ feed) (by decide)

theorem not_mem_of_isMarkedName {start : Char → Bool} {name : Text}
    (isName : IsMarkedName start name) : '\n' ∉ name := by
  obtain ⟨stem, identifier, rfl | ⟨mark, isMark, rfl⟩⟩ := isName
  · exact not_mem_of_isWordChar identifier.2
  · have other : '\n' ≠ mark := by
      rintro rfl
      cases isMark
    simp [not_mem_of_isWordChar identifier.2, other]

theorem not_mem_parenthesised {params : Option Text} (plain : ∀ p ∈ params, '\n' ∉ p) :
    '\n' ∉ parenthesised params := by
  cases params with
  | none => exact List.not_mem_nil
  | some p => simp [parenthesised, plain p rfl]

theorem not_mem_ascription {type : Option Text}
    (isType : ∀ t ∈ type, IsIdentifier Char.isUpper t ∨ t ∈ variableTypes) :
    '\n' ∉ ascription type := by
  cases type with
  | none => exact List.not_mem_nil
  | some t =>
      have inner : '\n' ∉ t := by
        obtain capitalised | basic := isType t rfl
        · exact not_mem_of_isWordChar capitalised.2
        · have each : ∀ t ∈ variableTypes, '\n' ∉ t := by decide
          exact each t basic
      simp [ascription, inner]

theorem not_mem_front {d : Definition} {front : Text} (leads : front ∈ d.fronts) :
    '\n' ∉ front := by
  cases d with
  | typeDecl keyword name =>
      have modifiers : ∀ front ∈ [] :: abstractModifiers.map (· ++ [' ']), '\n' ∉ front := by decide
      exact modifiers front leads
  | moduleDecl | methodDecl | functionDecl | constantDecl | variableDecl =>
      rw [List.mem_singleton.mp leads]
      exact List.not_mem_nil

/-- A definition in canonical form is written on one line. -/
theorem not_mem_written {d : Definition} (wellFormed : d.WellFormed) : '\n' ∉ d.written := by
  have keywords (keyword : Text) (known : keyword ∈ frontWords) : '\n' ∉ keyword :=
    not_mem_of_isWordChar (isIdentifier_of_mem_frontWords keyword known).2
  cases d with
  | typeDecl keyword name =>
      obtain ⟨known, isName⟩ := wellFormed
      simp [written, keywords keyword (by simp [frontWords, known]), not_mem_of_isWordChar isName.2]
  | moduleDecl keyword name =>
      obtain ⟨known, isName⟩ := wellFormed
      simp [written, keywords keyword (by simp [frontWords, known]), not_mem_of_isWordChar isName.2]
  | methodDecl keyword receiver name params =>
      obtain ⟨known, isReceiver, isName, plain⟩ := wellFormed
      have noParams := not_mem_parenthesised fun p mem => (plain p mem).2
      cases receiver with
      | none =>
          simp [written, qualified, keywords keyword (by simp [frontWords, known]),
            not_mem_of_isMarkedName isName, noParams]
      | some r =>
          simp [written, qualified, keywords keyword (by simp [frontWords, known]),
            not_mem_of_isWordChar (isReceiver r rfl).2, not_mem_of_isMarkedName isName, noParams]
  | functionDecl keyword name params =>
      obtain ⟨known, isName, plain⟩ := wellFormed
      have noParams := not_mem_parenthesised fun p mem => (plain p mem).2
      simp [written, keywords keyword (by simp [frontWords, known]),
        not_mem_of_isMarkedName isName, noParams]
  | constantDecl name =>
      obtain ⟨_, constant⟩ := wellFormed
      have letters : ∀ c ∈ name, isWordChar c = true := fun c mem =>
        isWordChar_of_isConstantChar (constant c mem)
      simp [written, not_mem_of_isWordChar letters]
  | variableDecl keyword name type =>
      obtain ⟨known, isName, isType⟩ := wellFormed
      simp [written, keywords keyword (by simp [frontWords, known]), not_mem_of_isWordChar isName.2,
        not_mem_ascription isType]

end Definition

/-! ### Symbols -/

/-- A line without markers has the symbol of what it defines, and no other. -/
theorem outline_of_isUnmarked {line : Line} (feed : '\n' ∉ line) (unmarked : IsUnmarked line) :
    outline line = ((Definition.ofLine? line).map (·.toSymbol 0 line)).toList := by
  rw [outline, (lines_of_no_feed feed).1, outlineFrom, scanComments_of_isUnmarked unmarked]
  simp [outlineFrom]

end Dragonstone
