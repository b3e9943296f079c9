/-
# Breaches of naming are reported once, and at the name

The checks of names read the mask of a line.  In front of the name of a type or a module stand only
words and blanks, which the mask leaves as they are; so the checks meet the keyword and the name
that stand on the line, whatever is a literal or a comment behind the name.  The keyword decides
which check looks at the name, and it is looked at once.

The outline reads the line itself and takes a type, a module or a function only under a name of the
right case.  Such a line breaches no convention.
-/

import Dragonstone.Proofs.Block.Defining
import Dragonstone.Proofs.Validation.OneLine

namespace Dragonstone

open Vocabulary

namespace Naming

/-! ### In front of the name of a type -/

/-- What may stand in front of the name of a type or a module: blanks, perhaps a modifier with its
gap, the keyword and a gap. -/
inductive TypeFront (keyword : Text) : Text → Prop
  | word {indent gap : Text} (known : keyword ∈ typeKeywords ++ moduleKeywords)
      (blanks : IsBlanks indent) (isGap : IsGap gap) :
      TypeFront keyword (indent ++ (keyword ++ gap))
  | modifier {indent modifier gap gap' : Text} (known : keyword ∈ typeKeywords ++ moduleKeywords)
      (modifies : modifier ∈ abstractModifiers) (blanks : IsBlanks indent) (isGap : IsGap gap)
      (isGap' : IsGap gap') :
      TypeFront keyword (indent ++ (modifier ++ (gap ++ (keyword ++ gap'))))

/-- The keywords of types and modules are words, and none is a modifier. -/
theorem isIdentifier_of_mem_typeWords : ∀ w ∈ typeKeywords ++ moduleKeywords,
    IsIdentifier isIdentStart w ∧ w ∉ abstractModifiers := by
  decide

namespace TypeFront

variable {keyword front : Text} (leads : TypeFront keyword front)

include leads

theorem isQuiet : IsQuiet front := by
  cases leads with
  | word known blanks isGap =>
      have identifier := (isIdentifier_of_mem_typeWords keyword known).1
      exact blanks.isQuiet.append (identifier.isQuiet.append isGap.blanks.isQuiet)
  | @modifier _ modifier _ _ known modifies blanks isGap isGap' =>
      have identifier := (isIdentifier_of_mem_typeWords keyword known).1
      have isModifier := Definition.isIdentifier_of_mem_abstractModifiers modifier modifies
      exact blanks.isQuiet.append (isModifier.isQuiet.append
        (isGap.blanks.isQuiet.append (identifier.isQuiet.append isGap'.blanks.isQuiet)))

/-- The check of types finds the keyword, and goes on behind its gap. -/
theorem leadingKeyword?_eq {s : Text} (name : s.head?.any isWordChar = true) :
    leadingKeyword? (typeKeywords ++ moduleKeywords) (Definition.afterAbstract (front ++ s)) =
      some (keyword, s) := by
  have ink : s.head?.any isBlank = false := (skipBlanks_of_isWordChar name).1
  cases leads with
  | @word indent gap known blanks isGap =>
      obtain ⟨identifier, other⟩ := isIdentifier_of_mem_typeWords keyword known
      have bare : leadingKeyword? abstractModifiers (keyword ++ (gap ++ s)) = none := by
        apply leadingKeyword?_eq_none
        rwa [(word_front identifier isGap s).1]
      have behind : Definition.afterAbstract (indent ++ (keyword ++ (gap ++ s))) =
          keyword ++ (gap ++ s) := by
        simp only [Definition.afterAbstract, skipBlanks_front blanks identifier, bare]
      simp only [List.append_assoc, behind]
      exact leadingKeyword?_front identifier isGap known ink
  | @modifier indent modifier gap gap' known modifies blanks isGap isGap' =>
      have identifier := (isIdentifier_of_mem_typeWords keyword known).1
      have isModifier := Definition.isIdentifier_of_mem_abstractModifiers modifier modifies
      have passed : leadingKeyword? abstractModifiers
          (modifier ++ (gap ++ (keyword ++ (gap' ++ s)))) =
            some (modifier, keyword ++ (gap' ++ s)) :=
        leadingKeyword?_front isModifier isGap modifies (identifier.head_append _)
      have behind : Definition.afterAbstract
          (indent ++ (modifier ++ (gap ++ (keyword ++ (gap' ++ s))))) =
            keyword ++ (gap' ++ s) := by
        simp only [Definition.afterAbstract, skipBlanks_front blanks isModifier, passed]
      simp only [List.append_assoc, behind]
      exact leadingKeyword?_front identifier isGap' known ink

/-- A letter begins the line, behind its blanks. -/
theorem head_skipBlanks (s : Text) :
    (skipBlanks (front ++ s)).head?.any isWordChar = true := by
  cases leads with
  | word known blanks isGap =>
      have identifier := (isIdentifier_of_mem_typeWords keyword known).1
      simp only [List.append_assoc, skipBlanks_front blanks identifier]
      exact head?_any_append (head_of_isIdentifier identifier) _
  | @modifier _ modifier _ _ known modifies blanks isGap isGap' =>
      have isModifier := Definition.isIdentifier_of_mem_abstractModifiers modifier modifies
      simp only [List.append_assoc, skipBlanks_front blanks isModifier]
      exact head?_any_append (head_of_isIdentifier isModifier) _

end TypeFront

variable {keyword front name rest s : Text} {n : Nat} {inEnum : Bool}

/-! ### What the checks find behind it -/

/-- The mask shows the letter that a text begins with. -/
theorem head?_mask (letter : s.head?.any isWordChar = true) : (mask s).head? = s.head? := by
  cases s with
  | nil => cases letter
  | cons c s =>
      have quiet : IsQuiet [c] := fun d mem => .inl (List.mem_singleton.mp mem ▸ letter)
      have masked : mask (c :: s) = c :: mask s := mask_append_of_isQuiet quiet s
      rw [masked]
      rfl

/-- It shows none where there is none. -/
theorem head_mask (ends : rest.head?.any isWordChar = false) :
    (mask rest).head?.any isWordChar = false := by
  rw [Bool.eq_false_iff]
  intro letter
  obtain ⟨c, first, isLetter⟩ := (Option.any_eq_true _ _).mp letter
  have shown : (mask rest)[0]? = some c := List.head?_eq_getElem?.symm.trans first
  have here : rest.head? = some c :=
    List.head?_eq_getElem?.trans (code_of_wordChar_mask shown isLetter).1
  rw [here] at ends
  exact Bool.false_ne_true (ends.symm.trans isLetter)

/-- No name is read from the mask of a text that begins with a letter of another kind. -/
theorem identifier?_mask_eq_none {start : Char → Bool} (letter : s.head?.any isWordChar = true)
    (other : s.head?.any start = false) : identifier? start (mask s) = none := by
  rw [← head?_mask letter] at other
  cases shown : mask s with
  | nil => rfl
  | cons c rest =>
      rw [shown] at other
      exact if_neg (Bool.eq_false_iff.mp other)

/-- Behind the front of a type or a module, the checks find what the check of types makes of the
name. -/
theorem check_mask_of_typeFront (leads : TypeFront keyword front)
    (letter : s.head?.any isWordChar = true) :
    check n (mask (front ++ s)) inEnum =
      ((identifier? Char.isLower (mask s)).map fun found =>
        findingAt n (mask (front ++ s)) (mask s) found.1 (.lowercaseType keyword)).toList := by
  have read : leadingKeyword? (typeKeywords ++ moduleKeywords)
      (Definition.afterAbstract (mask (front ++ s))) = some (keyword, mask s) := by
    rw [mask_append_of_isQuiet leads.isQuiet]
    apply leads.leadingKeyword?_eq
    rwa [head?_mask letter]
  rw [check_eq_typeName? (Definition.front_of_afterAbstract read), typeName?, read]
  simp only [Option.bind_eq_bind, Option.bind_some]
  cases identifier? Char.isLower (mask s) <;> rfl

/-- A small letter begins the name: this is found, and nothing else. -/
theorem check_mask_of_isLower (leads : TypeFront keyword front)
    (isName : IsIdentifier Char.isLower name) (ends : rest.head?.any isWordChar = false) :
    check n (mask (front ++ (name ++ rest))) inEnum =
      [⟨Range.inLine n front.length (front.length + name.length), .lowercaseType keyword⟩] := by
  have letters (c : Char) (lower : c.isLower = true) : isWordChar c = true :=
    isWordChar_of_isIdentStart (isIdentStart_of_isLower lower)
  have masked : mask (name ++ rest) = name ++ mask rest :=
    mask_append_of_isQuiet isName.isQuiet rest
  have found : identifier? Char.isLower (mask (name ++ rest)) = some (name, mask rest) :=
    (identifier?_eq_some_iff letters).mpr ⟨masked, isName, head_mask ends⟩
  have column : (mask (front ++ (name ++ rest))).length - (mask (name ++ rest)).length =
      front.length := by
    rw [length_mask, length_mask, List.length_append, Nat.add_sub_cancel]
  rw [check_mask_of_typeFront leads (head?_any_append (head_of_isIdentifier isName) rest), found]
  simp only [Option.map_some, Option.toList_some, findingAt, column]

/-- Behind a keyword of methods and functions, a name that begins with no capital is in order. -/
theorem check_mask_of_callable {indent gap : Text}
    (known : keyword ∈ methodKeywords ++ functionKeywords) (blanks : IsBlanks indent)
    (isGap : IsGap gap) (letter : s.head?.any isWordChar = true)
    (small : s.head?.any Char.isUpper = false) :
    check n (mask (indent ++ (keyword ++ (gap ++ s)))) inEnum = [] := by
  have identifiers : ∀ w ∈ methodKeywords ++ functionKeywords, IsIdentifier isIdentStart w := by
    decide
  have identifier := identifiers keyword known
  have ink : (mask s).head?.any isBlank = false := by
    apply (skipBlanks_of_isWordChar _).1
    rwa [head?_mask letter]
  have read : leadingKeyword? (methodKeywords ++ functionKeywords)
      (skipBlanks (mask (indent ++ (keyword ++ (gap ++ s))))) = some (keyword, mask s) := by
    rw [mask_front blanks identifier isGap, skipBlanks_front blanks identifier]
    exact leadingKeyword?_front identifier isGap known ink
  rw [check_eq_callableName? (word_mem_of_leadingKeyword? read), callableName?, read]
  simp only [Option.bind_eq_bind, Option.bind_some, identifier?_mask_eq_none letter small,
    Option.bind_none, Option.toList_none]

end Naming

/-! ### Definitions breach nothing -/

namespace Definition

/-- The forms that are recognised only under a name of the case that the conventions ask for. -/
def isCased : Definition → Bool
  | .typeDecl .. => true
  | .moduleDecl .. => true
  | .functionDecl .. => true
  | _ => false

end Definition

namespace Naming

theorem isLower_eq_false_of_isUpper {c : Char} (upper : c.isUpper = true) : c.isLower = false := by
  have last : c.val.toNat ≤ 90 :=
    UInt32.le_iff_toNat_le.mp (of_decide_eq_true (p := 65 ≤ c.val ∧ c.val ≤ 90) upper).2
  rw [Bool.eq_false_iff]
  intro lower
  have first : 97 ≤ c.val.toNat :=
    UInt32.le_iff_toNat_le.mp (of_decide_eq_true (Bool.and_eq_true_iff.mp lower).1)
  omega

theorem isUpper_eq_false_of_isLowerStart {c : Char} (lower : Definition.isLowerStart c = true) :
    c.isUpper = false := by
  obtain small | underscore := Bool.or_eq_true_iff.mp lower
  · rw [Bool.eq_false_iff]
    intro upper
    cases (isLower_eq_false_of_isUpper upper).symm.trans small
  · rw [beq_iff_eq.mp underscore]
    decide

variable {line : Line} {d : Definition} {n : Nat} {inEnum : Bool}

/-- A type, a module or a function that the outline recognises has a name of the right case. -/
theorem check_mask_of_ofLine? (defines : Definition.ofLine? line = some d)
    (cased : d.isCased = true) : check n (mask line) inEnum = [] := by
  have first := Definition.startLetter_of_ofLine? defines
  obtain ⟨front, rest, ⟨rfl, leads⟩, takes⟩ := Definition.hasName_of_ofLine? defines
  have letter : (d.ownName ++ rest).head?.any isWordChar = true := head?_any_append takes.head rest
  -- the name of a type or a module begins with a capital, so the check of types reads none
  have upper {keyword : Text} (leads : TypeFront keyword front)
      (capital : d.ownName.head?.any Char.isUpper = true) :
      check n (mask (front ++ (d.ownName ++ rest))) inEnum = [] := by
    have small : (d.ownName ++ rest).head?.any Char.isLower = false := by
      cases name : d.ownName with
      | nil =>
          rw [name] at capital
          cases capital
      | cons c s =>
          rw [name] at capital
          exact isLower_eq_false_of_isUpper capital
    rw [check_mask_of_typeFront leads letter, identifier?_mask_eq_none letter small]
    rfl
  cases d with
  | typeDecl =>
      cases leads with
      | word own known direct blanks isGap =>
          exact upper (.word (List.mem_append_left _ known) blanks isGap) first
      | modifier known modifies blanks isGap isGap' =>
          exact upper (.modifier (List.mem_append_left _ known) modifies blanks isGap isGap') first
  | moduleDecl =>
      cases leads with
      | word own known direct blanks isGap =>
          exact upper (.word (List.mem_append_right _ known) blanks isGap) first
  | functionDecl keyword name params =>
      cases leads with
      | @word _ own indent gap isOwn known direct blanks isGap =>
          have small : (name ++ rest).head?.any Char.isUpper = false := by
            cases name with
            | nil => cases first
            | cons c name => exact isUpper_eq_false_of_isLowerStart first
          simp only [List.append_assoc]
          exact check_mask_of_callable (List.mem_append_right _ known) blanks isGap letter small
  | methodDecl | constantDecl | variableDecl => cases cased

/-! ### In the diagnostics of a document -/

variable {config : Config} {text : Text}

/-- At most one diagnostic about names begins on a line. -/
theorem length_naming_le_one (named : config.checkNaming = true) (text : Text) (n : Nat) :
    (diagnosticsOn config text .naming n).length ≤ 1 := by
  cases at_ : (lines text)[n]? with
  | none =>
      rw [namingOn_eq_nil at_]
      exact Nat.zero_le 1
  | some line =>
      rw [namingOn_eq named at_, List.length_map]
      split
      · exact Nat.zero_le 1
      · obtain ⟨found?, same⟩ :=
          exists_check_eq_toList n (mask line) (Block.inEnum (stackBefore config text n))
        rw [same]
        exact Option.length_toList_le

/-- Conventions of names are reported once and at the name.  At most one diagnostic about names
begins on a line.  Where a line of code has a type or a module under a name that begins with a small
letter, it is the error that covers this name from its first letter to its last, whatever stands
behind it.  Where the outline recognises a type, a module or a function, there is none. -/
theorem naming_breach_is_reported_once (named : config.checkNaming = true) (text : Text) (n : Nat) :
    (diagnosticsOn config text .naming n).length ≤ 1 ∧
    (∀ keyword front name rest, (lines text)[n]? = some (front ++ (name ++ rest)) →
      (scanComments (front ++ (name ++ rest)) (depthBefore (lines text) n)).inComment = false →
      TypeFront keyword front → IsIdentifier Char.isLower name →
      rest.head?.any isWordChar = false →
      diagnosticsOn config text .naming n =
        [⟨.error, Range.inLine n front.length (front.length + name.length),
          String.ofList keyword ++ " name must start with a capital letter", config.source⟩]) ∧
    (∀ line d, (lines text)[n]? = some line → Definition.ofLine? line = some d →
      d.isCased = true → diagnosticsOn config text .naming n = []) := by
  refine ⟨length_naming_le_one named text n, ?breach, ?definition⟩
  case breach =>
    intro keyword front name rest at_ code leads isName ends
    have looked : isSkipped (front ++ (name ++ rest)) = false :=
      isSkipped_of_head (leads.head_skipBlanks _)
    rw [namingOn_eq named at_, code, looked, check_mask_of_isLower leads isName ends]
    rfl
  case definition =>
    intro line d at_ defines cased
    rw [namingOn_eq named at_, check_mask_of_ofLine? defines cased, ite_self]
    rfl

/-- The literal that is open behind the name is found too, and the name is reported all the same. -/
theorem naming_breach_is_reported_once_behind_modifier :
    diagnosticsOn {} "x = 1\n  abs\tmodule point' class b".toList .naming 1 =
      [⟨.error, Range.inLine 1 13 18, "module name must start with a capital letter",
        Config.source {}⟩] :=
  (naming_breach_is_reported_once rfl "x = 1\n  abs\tmodule point' class b".toList 1).2.1
    "module".toList "  abs\tmodule ".toList "point".toList "' class b".toList
    (by decide +kernel) (by decide +kernel)
    (@TypeFront.modifier _ "  ".toList "abs".toList ['\t'] [' '] (by decide) (by decide) (by decide)
      ⟨by decide, by decide⟩ ⟨by decide, by decide⟩)
    (by decide) rfl

end Naming

end Dragonstone
