/-
# Definitions open their blocks

The outline reads a line as it stands, the structure of blocks reads its mask, and each has its own
list of words that may stand in front.  They agree on what has a body: a line that defines a type, a
module, a method or a function opens exactly one block, under the keyword of the definition, or it
ends with `end` and leaves the open blocks alone.

The reason is that a definition is read from the front of its line up to the name, and nothing in
front of the name can begin a literal or a comment.  So the mask shows this part unchanged, whatever
it blanks behind it.
-/

import Dragonstone.Indentation
import Dragonstone.Proofs.Definition.Parts
import Dragonstone.Proofs.LeadingSpace.Line
import Dragonstone.Proofs.Validation.Pass

namespace Dragonstone

open Block Vocabulary

/-! ### What the mask leaves in front -/

/-- Letters and blanks are nothing to the automaton that reads a line. -/
def IsQuiet (s : Text) : Prop :=
  ∀ c ∈ s, isWordChar c = true ∨ isBlank c = true

theorem IsQuiet.append {s t : Text} (first : IsQuiet s) (second : IsQuiet t) : IsQuiet (s ++ t) :=
  fun c mem => (List.mem_append.mp mem).elim (first c) (second c)

theorem IsIdentifier.isQuiet {start : Char → Bool} {w : Text} (identifier : IsIdentifier start w) :
    IsQuiet w :=
  fun c mem => .inl (identifier.2 c mem)

theorem IsBlanks.isQuiet {s : Text} (blanks : IsBlanks s) : IsQuiet s :=
  fun c mem => .inr (blanks c mem)

theorem rolesFrom_cons_of_isWordChar {c : Char} (letter : isWordChar c = true) (line : Line) :
    rolesFrom none false (c :: line) =
      (.code :: (rolesFrom none false line).1, (rolesFrom none false line).2) := by
  have escape : c ≠ '\\' := by
    rintro rfl
    cases letter
  have comment : c ≠ '#' := by
    rintro rfl
    cases letter
  have quote (q : Quote) : c ≠ q.char := by
    rintro rfl
    cases q.isWordChar_char.symm.trans letter
  exact rolesFrom_cons_of_plain escape comment quote line

/-- The mask leaves letters and blanks in front of a line as they are. -/
theorem mask_append_of_isQuiet {front : Text} (quiet : IsQuiet front) (rest : Line) :
    mask (front ++ rest) = front ++ mask rest := by
  induction front with
  | nil => rfl
  | cons c front ih =>
      have later : mask (front ++ rest) = front ++ mask rest :=
        ih fun d mem => quiet d (List.mem_cons_of_mem c mem)
      rw [List.cons_append, List.cons_append, ← later]
      obtain letter | blank := quiet c List.mem_cons_self
      · rw [mask, roles, rolesFrom_cons_of_isWordChar letter]
        rfl
      · exact mask_cons (isSpace_of_isBlank blank) _

/-- The mask leaves a word in front of a line and the gap behind it as they are. -/
theorem mask_front {indent w gap : Text} (blanks : IsBlanks indent)
    (identifier : IsIdentifier isIdentStart w) (isGap : IsGap gap) (rest : Line) :
    mask (indent ++ (w ++ (gap ++ rest))) = indent ++ (w ++ (gap ++ mask rest)) := by
  have quiet := blanks.isQuiet.append (identifier.isQuiet.append isGap.blanks.isQuiet)
  have masked := mask_append_of_isQuiet quiet rest
  simpa only [List.append_assoc] using masked

/-! ### The recognisers on a line with a word in front -/

theorem skipBlanks_front {indent w : Text} (blanks : IsBlanks indent)
    (identifier : IsIdentifier isIdentStart w) (s : Text) :
    skipBlanks (indent ++ (w ++ s)) = w ++ s :=
  (takeWhile_append_of_head blanks (identifier.head_append s)).2

section Front

variable {w gap : Text} (identifier : IsIdentifier isIdentStart w) (isGap : IsGap gap)

include identifier isGap

theorem word_front (s : Text) :
    word (w ++ (gap ++ s)) = w ∧ afterWord (w ++ (gap ++ s)) = gap ++ s :=
  word_append identifier.2 (isGap.head_append s)

theorem leadingKeyword?_front {keywords : List Text} (known : w ∈ keywords) {s : Text}
    (ink : s.head?.any isBlank = false) :
    leadingKeyword? keywords (w ++ (gap ++ s)) = some (w, s) :=
  leadingKeyword?_eq_some_iff.mpr
    ⟨known, identifier.2, gap, rfl, isGap.some, isGap.blanks, ink⟩

/-- A word that is no modifier is not passed over. -/
theorem afterModifiers_of_not_mem (other : w ∉ visibilityModifiers ++ abstractModifiers)
    (s : Text) :
    afterModifiers (w ++ (gap ++ s)) = w ++ (gap ++ s) := by
  have unknown : ¬ (visibilityModifiers ++ abstractModifiers).contains w = true := by
    rwa [List.contains_iff_mem]
  rw [afterModifiers, (word_front identifier isGap s).1]
  split
  · rw [if_neg unknown]
  · rfl

/-- A modifier is passed over together with its gap. -/
theorem afterModifiers_of_mem (modifies : w ∈ visibilityModifiers ++ abstractModifiers) {s : Text}
    (ink : s.head?.any isBlank = false) : afterModifiers (w ++ (gap ++ s)) = afterModifiers s := by
  have known : (visibilityModifiers ++ abstractModifiers).contains w = true :=
    List.contains_iff_mem.mpr modifies
  have behind : afterGap? (afterWord (w ++ (gap ++ s))) = some s := by
    rw [(word_front identifier isGap s).2]
    exact afterGap?_eq_some_iff.mpr ⟨gap, rfl, isGap.some, isGap.blanks, ink⟩
  rw [afterModifiers, (word_front identifier isGap s).1]
  split
  case h_1 rest found =>
      cases behind.symm.trans found
      rw [if_pos known]
  case h_2 none => cases behind.symm.trans none

end Front

/-! ### Definitions with a body -/

namespace Definition

/-- The keyword of a definition whose body is a block. -/
def blockKeyword? : Definition → Option Text
  | .typeDecl keyword _ => some keyword
  | .moduleDecl keyword _ => some keyword
  | .methodDecl keyword _ _ _ => some keyword
  | .functionDecl keyword _ _ => some keyword
  | .constantDecl _ => none
  | .variableDecl .. => none

/-- The keywords of the definitions whose body is a block. -/
def bodyKeywords : List Text :=
  typeKeywords ++ moduleKeywords ++ methodKeywords ++ functionKeywords

variable {line : Line} {d : Definition} {keyword : Text}

theorem mem_bodyKeywords (body : d.blockKeyword? = some keyword) {own : Text}
    (known : own ∈ d.keywords) : own ∈ bodyKeywords := by
  cases d with
  | typeDecl | moduleDecl | methodDecl | functionDecl => simp_all [keywords, bodyKeywords]
  | constantDecl | variableDecl => cases body

/-- Every keyword of a body opens a block, and none is a modifier. -/
theorem opens_of_mem_bodyKeywords : ∀ w ∈ bodyKeywords,
    blockKeywords.contains w = true ∧ w ∉ visibilityModifiers ++ abstractModifiers := by
  decide

/-- Neither a modifier nor a keyword of a body begins a branch or ends a block. -/
theorem stays_of_mem : ∀ w ∈ abstractModifiers ++ bodyKeywords,
    branchKeywords.contains w = false ∧ w ≠ endKeyword := by
  decide

/-- A line with a keyword of a body in front is led by this keyword, also behind its mask. -/
theorem leadingOpener?_front {indent gap : Text} (blanks : IsBlanks indent)
    (known : keyword ∈ bodyKeywords) (identifier : IsIdentifier isIdentStart keyword)
    (isGap : IsGap gap) (s : Text) :
    let masked := mask (indent ++ (keyword ++ (gap ++ s)))
    word (skipBlanks masked) ∈ abstractModifiers ++ bodyKeywords ∧
      leadingOpener? masked = some keyword := by
  intro masked
  obtain ⟨opens, other⟩ := opens_of_mem_bodyKeywords keyword known
  have front : skipBlanks masked = keyword ++ (gap ++ mask s) := by
    rw [← skipBlanks_front blanks identifier, ← mask_front blanks identifier isGap]
  have first : word (keyword ++ (gap ++ mask s)) = keyword := (word_front identifier isGap _).1
  rw [leadingOpener?, front, afterModifiers_of_not_mem identifier isGap other, first]
  exact ⟨List.mem_append_right _ known, if_pos opens⟩

/-- A modifier in front of the keyword is passed over. -/
theorem leadingOpener?_front_modifier {indent modifier gap gap' : Text} (blanks : IsBlanks indent)
    (modifies : modifier ∈ abstractModifiers) (isGap : IsGap gap) (known : keyword ∈ bodyKeywords)
    (identifier : IsIdentifier isIdentStart keyword) (isGap' : IsGap gap') (s : Text) :
    let masked := mask (indent ++ (modifier ++ (gap ++ (keyword ++ (gap' ++ s)))))
    word (skipBlanks masked) ∈ abstractModifiers ++ bodyKeywords ∧
      leadingOpener? masked = some keyword := by
  intro masked
  obtain ⟨opens, other⟩ := opens_of_mem_bodyKeywords keyword known
  have isModifier := isIdentifier_of_mem_abstractModifiers modifier modifies
  have nothing : IsBlanks [] := fun _ mem => absurd mem List.not_mem_nil
  have behind : mask (keyword ++ (gap' ++ s)) = keyword ++ (gap' ++ mask s) :=
    mask_front nothing identifier isGap' s
  have front : skipBlanks masked = modifier ++ (gap ++ (keyword ++ (gap' ++ mask s))) := by
    rw [← behind, ← skipBlanks_front blanks isModifier, ← mask_front blanks isModifier isGap]
  have first : word (modifier ++ (gap ++ (keyword ++ (gap' ++ mask s)))) = modifier :=
    (word_front isModifier isGap _).1
  rw [leadingOpener?, front, first, afterModifiers_of_mem isModifier isGap
    (List.mem_append_right _ modifies) (identifier.head_append _),
    afterModifiers_of_not_mem identifier isGap' other, (word_front identifier isGap' _).1]
  exact ⟨List.mem_append_left _ modifies, if_pos opens⟩

/-- The mask of a line that defines something with a body is led by its keyword, behind a modifier
at most. -/
theorem leadingOpener?_of_ofLine? (defines : ofLine? line = some d)
    (body : d.blockKeyword? = some keyword) :
    word (skipBlanks (mask line)) ∈ abstractModifiers ++ bodyKeywords ∧
      leadingOpener? (mask line) = some keyword := by
  obtain ⟨front, rest, ⟨rfl, leads⟩, -⟩ := hasName_of_ofLine? defines
  cases leads with
  | bare => cases body
  | @word _ own _ _ isOwn known direct blanks isGap =>
      obtain rfl : own = keyword := by
        cases d with
        | typeDecl | moduleDecl | methodDecl | functionDecl =>
            exact Option.some.inj (isOwn.symm.trans body)
        | constantDecl | variableDecl => cases body
      simp only [List.append_assoc]
      exact leadingOpener?_front blanks (mem_bodyKeywords body known)
        (isIdentifier_of_mem_keywords known) isGap _
  | modifier known modifies blanks isGap isGap' =>
      cases body
      have isBody : keyword ∈ bodyKeywords := by simp [bodyKeywords, known]
      simp only [List.append_assoc]
      exact leadingOpener?_front_modifier blanks modifies isGap isBody
        (isIdentifier_of_mem_frontWords keyword (by simp [frontWords, known])) isGap' _
  | receiver known isReceiver blanks isGap =>
      cases body
      have isBody : keyword ∈ bodyKeywords := by simp [bodyKeywords, known]
      simp only [List.append_assoc]
      exact leadingOpener?_front blanks isBody
        (isIdentifier_of_mem_frontWords keyword (by simp [frontWords, known])) isGap _

end Definition

namespace Block

variable {line : Line} {d : Definition} {keyword : Text}

/-- A line that defines something with a body neither begins a branch nor ends a block. -/
theorem branch?_of_ofLine? (defines : Definition.ofLine? line = some d)
    (body : d.blockKeyword? = some keyword) :
    branch? (mask line) = none ∧ isTerminator (mask line) = false := by
  obtain ⟨noBranch, noEnd⟩ :=
    Definition.stays_of_mem _ (Definition.leadingOpener?_of_ofLine? defines body).1
  constructor
  · rw [branch?, noBranch]
    rfl
  · rw [isTerminator]
    exact beq_eq_false_iff_ne.mpr noEnd

/-- It opens a block under its keyword, unless it ends with `end`. -/
theorem opener?_of_ofLine? (defines : Definition.ofLine? line = some d)
    (body : d.blockKeyword? = some keyword) :
    opener? (mask line) = if closesInline (mask line) then none else some keyword := by
  rw [opener?, (Definition.leadingOpener?_of_ofLine? defines body).2]
  rfl

/-- The outline and the structure of blocks agree on definitions.  A line that defines a type, a
module, a method or a function neither begins a branch nor ends a block.  If its mask ends with
`end`, it leaves the stack of open blocks as it is; otherwise it opens one block, with the keyword
of the definition, and nothing else happens to the stack. -/
theorem definition_opens_its_block (defines : Definition.ofLine? line = some d)
    (body : d.blockKeyword? = some keyword) :
    branch? (mask line) = none ∧ isTerminator (mask line) = false ∧
      ((closesInline (mask line) = true ∧
          ∀ n stack, feed n stack (Form.ofLine (mask line)) = (stack, none)) ∨
        (closesInline (mask line) = false ∧ opener? (mask line) = some keyword ∧
          ∀ n stack, feed n stack (Form.ofLine (mask line)) = (⟨keyword, n⟩ :: stack, none))) := by
  obtain ⟨noBranch, noEnd⟩ := branch?_of_ofLine? defines body
  have opener := opener?_of_ofLine? defines body
  refine ⟨noBranch, noEnd, ?_⟩
  cases closes : closesInline (mask line) with
  | true =>
      rw [closes, if_pos rfl] at opener
      have plain : Form.ofLine (mask line) = .plain := by
        simp [Form.ofLine, noBranch, opener, noEnd]
      exact .inl ⟨rfl, fun n stack => by rw [plain, feed]⟩
  | false =>
      rw [closes, if_neg Bool.false_ne_true] at opener
      have opens : Form.ofLine (mask line) = .opening keyword := by
        simp [Form.ofLine, noBranch, opener]
      exact .inr ⟨rfl, opener, fun n stack => by rw [opens, feed]⟩

/-- The words in the literal and in the comment would end the block and open another. -/
theorem definition_opens_its_block_behind_modifier :
    let line := " abs\tclass Point < 'a end' # do".toList
    opener? (mask line) = some "class".toList ∧
      feed 7 [⟨"if".toList, 3⟩] (Form.ofLine (mask line)) =
        ([⟨"class".toList, 7⟩, ⟨"if".toList, 3⟩], none) := by
  intro line
  have defines : Definition.ofLine? line = some (.typeDecl "class".toList "Point".toList) := by
    decide +kernel
  obtain ⟨_, _, ⟨closes, _⟩ | ⟨_, opener, feeds⟩⟩ := definition_opens_its_block defines rfl
  · exact absurd closes (by decide +kernel)
  · exact ⟨opener, feeds 7 _⟩

end Block

/-! ### What both passes make of such a line -/

/-- A line that begins with a letter behind its blanks is looked into. -/
theorem isSkipped_of_head {line : Line} (letter : (skipBlanks line).head?.any isWordChar = true) :
    isSkipped line = false := by
  have spaces : isSkipped (skipBlanks line) = isSkipped line :=
    apply_dropWhile (fun _ rest blank => isSkipped_cons (isSpace_of_isBlank blank) rest) line
  rw [← spaces]
  cases front : skipBlanks line with
  | nil =>
      rw [front] at letter
      cases letter
  | cons c rest =>
      rw [front] at letter
      have isLetter : isWordChar c = true := letter
      have ink : ¬ isSpace c = true := fun space =>
        Bool.false_ne_true ((isWordChar_of_isSpace space).symm.trans isLetter)
      have other : c ≠ '#' := by
        rintro rfl
        cases isLetter
      simp [isSkipped, firstInk, List.dropWhile_cons_of_neg ink, other]

/-- A line that defines something is looked into. -/
theorem isSkipped_of_ofLine? {line : Line} {d : Definition}
    (defines : Definition.ofLine? line = some d) : isSkipped line = false :=
  isSkipped_of_head (Definition.head_skipBlanks_of_ofLine? defines)

section Passes

variable {line : Line} {d : Definition} {keyword : Text}
  (defines : Definition.ofLine? line = some d) (body : d.blockKeyword? = some keyword)

include defines body

/-- For the checker, the line opens one block, unless it is comment or ends with `end`. -/
theorem stack_step_of_ofLine? (config : Config) (n : Nat) (p : Progress)
    (code : (scanComments line p.depth).inComment = false) :
    (p.step config n line).1.stack =
      if closesInline (mask line) then p.stack else ⟨keyword, n⟩ :: p.stack := by
  obtain ⟨noBranch, noEnd⟩ := branch?_of_ofLine? defines body
  have opener := opener?_of_ofLine? defines body
  have feeds : (feed n p.stack (Form.ofLine (mask line))).1 =
      if closesInline (mask line) then p.stack else ⟨keyword, n⟩ :: p.stack := by
    cases closes : closesInline (mask line) <;>
      simp [Form.ofLine, noBranch, noEnd, opener, closes, feed]
  rw [stack_step, code, isSkipped_of_ofLine? defines, ← feeds]
  rfl

/-- For the formatter, the line stands at the level of what is in front of it, and its body one
level further in. -/
theorem levels_of_ofLine? (level : Nat) :
    ownLevel (mask line) level = level ∧
      nextLevel (mask line) level = if closesInline (mask line) then level else level + 1 := by
  obtain ⟨noBranch, noEnd⟩ := branch?_of_ofLine? defines body
  have opener := opener?_of_ofLine? defines body
  refine ⟨by simp [ownLevel, noBranch, noEnd], ?_⟩
  cases closes : closesInline (mask line) <;> simp [nextLevel, noBranch, opener, closes]

end Passes

end Dragonstone
