/-
# Leading blanks, definitions and names

Definitions are recognised from the front of a line behind its blanks, and so are the names that
conventions speak of.  A finding on a name covers the name, so its columns move with the
indentation; the problem and the line stay.
-/

import Dragonstone.Naming
import Dragonstone.Proofs.LeadingSpace.Line

namespace Dragonstone

/-- What a finding says apart from columns: the problem and the line on which it begins. -/
def Finding.apartFromColumns (f : Finding) : Problem × Int :=
  (f.problem, f.range.start.line)

variable {c : Char}

namespace Definition

theorem afterAbstract_cons (hc : isBlank c = true) (line : Line) :
    afterAbstract (c :: line) = afterAbstract line := by
  rw [afterAbstract, skipBlanks_cons hc, afterAbstract]

/-- A blank in front of a line leaves what the line defines. -/
theorem ofLine?_cons (hc : isBlank c = true) (line : Line) :
    ofLine? (c :: line) = ofLine? line := by
  simp only [ofLine?, parseType?, parseModule?, parseMethod?, parseFunction?, parseConstant?,
    parseVariable?, afterAbstract_cons hc, skipBlanks_cons hc]

theorem ofLine?_skipBlanks (line : Line) : ofLine? (skipBlanks line) = ofLine? line :=
  apply_dropWhile (fun _ rest hc => ofLine?_cons hc rest) line

end Definition

namespace Naming

open Vocabulary

theorem typeName?_cons (hc : isBlank c = true) (n : Nat) (line : Line) :
    (typeName? n (c :: line)).map Finding.apartFromColumns =
      (typeName? n line).map Finding.apartFromColumns := by
  rw [typeName?, typeName?, Definition.afterAbstract_cons hc]
  cases leadingKeyword? (typeKeywords ++ moduleKeywords) (Definition.afterAbstract line) with
  | none => rfl
  | some found =>
      obtain ⟨keyword, rest⟩ := found
      show Option.map _ ((identifier? Char.isLower rest).bind _) =
        Option.map _ ((identifier? Char.isLower rest).bind _)
      cases identifier? Char.isLower rest with
      | none => rfl
      | some name => rfl

theorem callableName?_cons (hc : isBlank c = true) (n : Nat) (line : Line) :
    (callableName? n (c :: line)).map Finding.apartFromColumns =
      (callableName? n line).map Finding.apartFromColumns := by
  rw [callableName?, callableName?, skipBlanks_cons hc]
  cases leadingKeyword? (methodKeywords ++ functionKeywords) (skipBlanks line) with
  | none => rfl
  | some found =>
      obtain ⟨keyword, rest⟩ := found
      show Option.map _ ((identifier? Char.isUpper rest).bind _) =
        Option.map _ ((identifier? Char.isUpper rest).bind _)
      cases identifier? Char.isUpper rest with
      | none => rfl
      | some name =>
          show Option.map _ (if name.2.head? == some '.' then none else _) =
            Option.map _ (if name.2.head? == some '.' then none else _)
          by_cases hdot : (name.2.head? == some '.') = true
          · rw [if_pos hdot, if_pos hdot]
          · rw [if_neg hdot, if_neg hdot]
            rfl

/-- A blank is no part of an assignment, and none of the characters that make an equals sign part
of something else. -/
theorem hasAssignment_cons (hc : isBlank c = true) (line : Line) :
    hasAssignment (c :: line) = hasAssignment line := by
  have hspace : isSpace c = true := isSpace_of_isBlank hc
  have hequals : (c == '=') = false := beq_false_of_ne (ne_of_isSpace hspace (by decide))
  have hnot : (c == '!') = false := beq_false_of_ne (ne_of_isSpace hspace (by decide))
  have hless : (c == '<') = false := beq_false_of_ne (ne_of_isSpace hspace (by decide))
  have hgreater : (c == '>') = false := beq_false_of_ne (ne_of_isSpace hspace (by decide))
  cases line with
  | nil => simp [hasAssignment, assignsAfter, hequals]
  | cons d rest => simp [hasAssignment, assignsAfter, hequals, hnot, hless, hgreater]

theorem constantName?_cons (hc : isBlank c = true) (n : Nat) (line : Line) (inEnum : Bool) :
    (constantName? n (c :: line) inEnum).map Finding.apartFromColumns =
      (constantName? n line inEnum).map Finding.apartFromColumns := by
  simp only [constantName?, skipBlanks_cons hc, hasAssignment_cons hc,
    apply_ite (Option.map Finding.apartFromColumns)]
  rfl

/-- A blank in front of a line moves the findings on its names, and no more. -/
theorem check_cons (hc : isBlank c = true) (n : Nat) (line : Line) (inEnum : Bool) :
    (check n (c :: line) inEnum).map Finding.apartFromColumns =
      (check n line inEnum).map Finding.apartFromColumns := by
  simp only [check, List.map_append, ← Option.toList_map, typeName?_cons hc, callableName?_cons hc,
    constantName?_cons hc]

theorem check_mask_skipBlanks (n : Nat) (line : Line) (inEnum : Bool) :
    (check n (mask (skipBlanks line)) inEnum).map Finding.apartFromColumns =
      (check n (mask line) inEnum).map Finding.apartFromColumns :=
  apply_mask_skipBlanks
    (f := fun masked => (check n masked inEnum).map Finding.apartFromColumns)
    (fun _ rest hc => check_cons hc n rest inEnum) line

end Naming

end Dragonstone
