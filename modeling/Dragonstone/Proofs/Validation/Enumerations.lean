/-
# Members of enumerations

A name that is assigned without a keyword is to be written in capitals, but the members of an
enumeration are exempt, and so is all that stands in blocks among them.  The pass decides this by
its stack, in front of the line.  In a well nested document this is the same as to ask whether the
line stands within an enumeration: behind the line that opens it and in front of the line that ends
it.

The stack forgets an enumeration as soon as a branch begins in it, since the frame of the branch
takes the place of the frame of the opening.  Such documents are left out.  A branch that ends the
enumeration on its own line does no harm.
-/

import Dragonstone.Proofs.Block.Enclosing
import Dragonstone.Proofs.Validation.OneLine
import Dragonstone.Proofs.Validation.Skipped

namespace Dragonstone

open Block Vocabulary

namespace Block

/-- A block of the grammar reaches from line `first`, which opens it under the keyword, to line
`last`, which ends it. -/
def IsBlock (ps : List LineForm) (keyword : Text) (first last : Nat) : Prop :=
  ∃ front inner form back,
    ps = front ++ ⟨first, .opening keyword⟩ :: (inner ++ ⟨last, form⟩ :: back) ∧
      Derives .block (.opening :: (inner.map LineForm.token ++ [form.token]))

/-- A branch that goes on behind line `k` belongs to the block that line `first` opens under the
keyword, and not to a block within it: where the branch stands, the block could end. -/
def HasBranch (ps : List LineForm) (keyword : Text) (first k : Nat) : Prop :=
  ∃ front inner word back,
    ps = front ++ ⟨first, .opening keyword⟩ :: (inner ++ ⟨k, .branch word false⟩ :: back) ∧
      Derives .block (.opening :: (inner.map LineForm.token ++ [.closing]))

theorem Derives.exists_ending_of_block {s : List Token}
    (block : Derives .block (.opening :: s)) :
    ∃ body e, s = body ++ e ∧ Derives .body body ∧ Derives .ending e := by
  cases block with
  | @block body e isBody ending => exact ⟨body, e, rfl, isBody, ending⟩

variable {ps : List LineForm} {keyword : Text} {first last : Nat}

theorem exists_branch_of_token {p : LineForm} (branches : p.token = .branch) :
    ∃ word, p = ⟨p.line, .branch word false⟩ := by
  obtain ⟨line, form⟩ := p
  cases form with
  | branch word closed =>
      cases closed with
      | true => cases branches
      | false => exact ⟨word, rfl⟩
  | opening | closing | plain => cases branches

/-- A block that has no branch is one section. -/
theorem IsBlock.isSection (block : IsBlock ps keyword first last)
    (unbranched : ∀ k, ¬ HasBranch ps keyword first k) :
    IsSection ps ⟨keyword, first⟩ last := by
  obtain ⟨front, inner, form, back, rfl, derived⟩ := block
  obtain ⟨body, e, same, isBody, ending⟩ := derived.exists_ending_of_block
  have whole {t : Token} (ends : e = [t]) (isEnd : t.endsSection = true) :
      IsSection (front ++ ⟨first, .opening keyword⟩ :: (inner ++ ⟨last, form⟩ :: back))
        ⟨keyword, first⟩ last := by
    subst ends
    obtain ⟨rfl, token⟩ := List.append_inj' same rfl
    refine ⟨front, ⟨first, .opening keyword⟩, inner, ⟨last, form⟩, back, rfl, rfl, isBody, ?_, rfl⟩
    rw [LineForm.token, (List.cons.inj token).1]
    exact isEnd
  obtain ends | ends | ⟨s, e', rfl, isBody', ending'⟩ := ending.ending_cases
  · exact whole ends rfl
  · exact whole ends rfl
  · -- The block goes on behind its first body with a branch, which is then one of the parts.
    exfalso
    obtain ⟨_, _, rfl, _⟩ := ending'.exists_cons_of_ending
    obtain ⟨more, _, short⟩ | ⟨more, tokens, _⟩ := append_eq_append_cons same
    · have length := congrArg List.length short
      simp at length
      omega
    · obtain ⟨between, tail, rfl, rfl, tailTokens⟩ := List.map_eq_append_iff.mp tokens
      obtain ⟨branch, rest, rfl, branches, _⟩ := List.map_eq_cons_iff.mp tailTokens
      obtain ⟨word, known⟩ := exists_branch_of_token branches
      rw [known] at unbranched
      apply unbranched branch.line
      refine ⟨front, between, word, rest ++ ⟨last, form⟩ :: back, ?_, .block isBody .closing⟩
      simp only [List.append_assoc, List.cons_append]

/-- A section that an opening begins is a block, if no branch follows. -/
theorem IsSection.isBlock
    (opens : ∀ p ∈ ps, p.frame? = some ⟨keyword, first⟩ → p = ⟨first, .opening keyword⟩)
    (unbranched : ∀ k, ¬ HasBranch ps keyword first k)
    (isSection : IsSection ps ⟨keyword, first⟩ last) : IsBlock ps keyword first last := by
  obtain ⟨front, begins, inner, ⟨line, form⟩, back, rfl, pushes, isBody, isEnd, rfl⟩ := isSection
  obtain rfl := opens begins (by simp) pushes
  have ending : Derives .ending [form.token] := by
    cases form with
    | branch word closed =>
        cases closed with
        | true => exact .closedBranch
        | false =>
            exact absurd ⟨front, inner, word, back, rfl, .block isBody .closing⟩ (unbranched line)
    | closing => exact .closing
    | opening | plain => cases isEnd
  exact ⟨front, inner, form, back, rfl, .block isBody ending⟩

/-- The part that ends a section is one of the parts. -/
theorem IsSection.exists_end {frame : Frame} (isSection : IsSection ps frame last) :
    ∃ p ∈ ps, p.token.endsSection = true ∧ p.line = last := by
  obtain ⟨_, _, _, ends, _, rfl, _, _, isEnd, number⟩ := isSection
  exact ⟨ends, by simp, isEnd, number⟩

end Block

/-! ### Lines on which no constant is found -/

section Lines

variable {line : Line} {masked : Line} {n : Nat} {enclosed : Bool}

theorem constantName?_of_isSkipped (skipped : isSkipped line = true) :
    Naming.constantName? n (mask line) enclosed = none := by
  apply Naming.constantName?_eq_none
  rw [word_of_spaces (isSpace_of_mem_mask skipped)]
  rfl

/-- Neither a branch nor an `end` begins with a capital. -/
theorem constantName?_of_endsSection (isEnd : (Form.ofLine masked).token.endsSection = true) :
    Naming.constantName? n masked enclosed = none := by
  have front : word (skipBlanks masked) ∈ endKeyword :: branchKeywords := by
    unfold Form.ofLine at isEnd
    split at isEnd
    case h_1 keyword branches =>
        obtain ⟨known, _⟩ := Option.ite_none_right_eq_some.mp branches
        exact List.mem_cons_of_mem _ (List.contains_iff_mem.mp known)
    case h_2 =>
        split at isEnd
        · cases isEnd
        · split at isEnd
          case isTrue closes => exact List.mem_cons.mpr (.inl (eq_of_beq closes))
          case isFalse => cases isEnd
  have lower : ∀ w ∈ endKeyword :: branchKeywords, w.head?.any Char.isUpper = false := by decide
  exact Naming.constantName?_eq_none (lower _ front)

theorem isSome_constantName? (n : Nat) (masked : Line) (enclosed : Bool) :
    (Naming.constantName? n masked enclosed).isSome = true ↔
      (Naming.constantName? n masked false).isSome = true ∧ enclosed = false := by
  cases enclosed with
  | true => simp [Naming.constantName?]
  | false => simp

/-- Of all that the checks of names find, only a constant is worded like one. -/
theorem exists_constant_iff (source : String) :
    (∃ f ∈ Naming.check n masked enclosed,
        (f.toDiagnostic source).message =
          "Constants without keyword should be in SCREAMING_SNAKE_CASE") ↔
      (Naming.constantName? n masked enclosed).isSome = true := by
  constructor
  · rintro ⟨f, found, wording⟩
    have problem : f.problem = .mixedCaseConstant := Problem.eq_of_message_eq (by simp) wording
    obtain type | callable | constant := Naming.mem_check_iff.mp found
    · obtain ⟨_, _, _, _, _, _, rfl⟩ := Naming.typeName?_eq_some_iff.mp type
      cases problem
    · obtain ⟨_, _, _, _, _, _, _, rfl⟩ := Naming.callableName?_eq_some_iff.mp callable
      cases problem
    · exact Option.isSome_iff_exists.mpr ⟨f, constant⟩
  · intro found
    obtain ⟨f, constant⟩ := Option.isSome_iff_exists.mp found
    obtain ⟨_, _, _, rfl⟩ := Naming.constantName?_eq_some_iff.mp constant
    exact ⟨_, Naming.mem_check_iff.mpr (.inr (.inr constant)), rfl⟩

end Lines

/-! ### In a document -/

section Document

variable {config : Config} {text : Text} {i : Nat} {line : Line}

/-- Only an opening has the keyword of enumerations. -/
theorem opens_of_mem_parts {p : LineForm} {first : Nat} (mem : p ∈ parts text)
    (pushes : p.frame? = some ⟨enumKeyword, first⟩) : p = ⟨first, .opening enumKeyword⟩ := by
  have number : first = p.line := line_of_frame? pushes
  obtain ⟨_, line, _, _, known⟩ := exists_of_mem_partsFrom mem
  obtain ⟨n, form⟩ := p
  cases form with
  | branch word closed =>
      cases closed with
      | true => cases pushes
      | false =>
          obtain rfl : word = enumKeyword := congrArg Frame.keyword (Option.some.inj pushes)
          unfold codeForm? at known
          split at known
          · cases known
          · have branches := mem_branchKeywords_of_ofLine (Option.some.inj known)
            exact absurd branches (by decide)
  | opening word =>
      obtain rfl : word = enumKeyword := congrArg Frame.keyword (Option.some.inj pushes)
      rw [number]
  | closing | plain => cases pushes

/-- In a well nested document in which no enumeration has a branch, the pass knows in front of a
line that it stands in an enumeration. -/
theorem inEnum_stackBefore_iff (nested : Derives .body (blockTokens text))
    (unbranched : ∀ first k, ¬ HasBranch (parts text) enumKeyword first k) :
    inEnum (stackBefore config text i) = true ↔
      ∃ first last, IsBlock (parts text) enumKeyword first last ∧ first < i ∧ i ≤ last := by
  rw [inEnum, List.any_eq_true]
  constructor
  · rintro ⟨⟨keyword, first⟩, mem, enum⟩
    obtain rfl : keyword = enumKeyword := beq_iff_eq.mp enum
    obtain ⟨last, isSection, begun, going⟩ := (mem_stackBefore_iff nested).mp mem
    exact ⟨first, last, isSection.isBlock (fun p => opens_of_mem_parts) (unbranched first), begun,
      going⟩
  · rintro ⟨first, last, block, begun, going⟩
    exact ⟨⟨enumKeyword, first⟩,
      (mem_stackBefore_iff nested).mpr ⟨last, block.isSection (unbranched first), begun, going⟩,
      beq_self_eq_true _⟩

/-- A line of code has the warning about constants if the check finds one there, given whether the
pass knows an enumeration to be open. -/
theorem exists_constantWarning_iff (named : config.checkNaming = true)
    (at_ : (lines text)[i]? = some line)
    (code : (scanComments line (depthBefore (lines text) i)).inComment = false) :
    (∃ d ∈ validate config text, d.range.start.line = i ∧
        d.message = "Constants without keyword should be in SCREAMING_SNAKE_CASE") ↔
      (Naming.constantName? i (mask line) (inEnum (stackBefore config text i))).isSome = true := by
  have naming : (∃ d ∈ validate config text, d.range.start.line = i ∧
      d.message = "Constants without keyword should be in SCREAMING_SNAKE_CASE") ↔
        ∃ d ∈ diagnosticsOn config text .naming i,
          d.message = "Constants without keyword should be in SCREAMING_SNAKE_CASE" := by
    simp only [diagnosticsOn, List.mem_filter, decide_eq_true_eq]
    constructor
    · rintro ⟨d, mem, here, wording⟩
      exact ⟨d, ⟨mem, here, .inr (.inr wording)⟩, wording⟩
    · rintro ⟨d, ⟨mem, here, _⟩, wording⟩
      exact ⟨d, mem, here, wording⟩
  rw [naming, namingOn_eq named at_, code, Bool.false_or, ← exists_constant_iff config.source]
  split
  case isTrue skipped =>
      rw [exists_constant_iff, constantName?_of_isSkipped skipped]
      simp
  case isFalse => simp only [List.mem_map, exists_exists_and_eq_and]

/-- The exemption of enumerations follows the nesting of blocks.  In a well nested document in which
no enumeration has a branch that goes on, a line of code has the warning about constants exactly if
the check finds a constant on the line as it stands, and the line is not strictly within an
enumeration, however deep in blocks it stands there. -/
theorem constants_are_exempt_within_enumerations (named : config.checkNaming = true)
    (nested : Derives .body (blockTokens text))
    (unbranched : ∀ first k, ¬ HasBranch (parts text) enumKeyword first k)
    (at_ : (lines text)[i]? = some line)
    (code : (scanComments line (depthBefore (lines text) i)).inComment = false) :
    (∃ d ∈ validate config text, d.range.start.line = i ∧
        d.message = "Constants without keyword should be in SCREAMING_SNAKE_CASE") ↔
      (Naming.constantName? i (mask line) false).isSome = true ∧
        ¬ ∃ first last, IsBlock (parts text) enumKeyword first last ∧ first < i ∧ i < last := by
  rw [exists_constantWarning_iff named at_ code, isSome_constantName?, Bool.eq_false_iff, ne_eq,
    inEnum_stackBefore_iff nested unbranched]
  refine and_congr_right fun found => not_congr ?_
  refine exists_congr fun first => exists_congr fun last => and_congr_right fun block =>
    and_congr_right fun _ => ⟨fun going => Nat.lt_of_le_of_ne going ?_, Nat.le_of_lt⟩
  -- The line that ends an enumeration begins with a small letter, so no constant is found on it.
  rintro rfl
  obtain ⟨ends, mem, isEnd, number⟩ := (block.isSection (unbranched first)).exists_end
  obtain ⟨k, other, there, same, known⟩ := exists_of_mem_partsFrom mem
  obtain rfl : k = i := by omega
  obtain rfl : other = line := Option.some.inj (there.symm.trans at_)
  unfold codeForm? at known
  split at known
  case isTrue => cases known
  case isFalse =>
      rw [LineForm.token, ← Option.some.inj known] at isEnd
      rw [constantName?_of_endsSection isEnd] at found
      cases found

/-- The member in the method is exempt like the one in front of it; the constant behind the
enumeration is not. -/
theorem constants_are_exempt_within_enumerations_and_their_methods :
    let text := "enum Color\n  Red = 1\n  fun f\n    Deep = 2\n  end\nend\nBlue = 3".toList
    let warned := fun i : Nat => ∃ d ∈ validate {} text, d.range.start.line = i ∧
      d.message = "Constants without keyword should be in SCREAMING_SNAKE_CASE"
    ¬ warned 3 ∧ warned 6 := by
  intro text warned
  have shown : parts text = [⟨0, .opening enumKeyword⟩, ⟨1, .plain⟩, ⟨2, .opening "fun".toList⟩,
      ⟨3, .plain⟩, ⟨4, .closing⟩, ⟨5, .closing⟩, ⟨6, .plain⟩] := by decide +kernel
  have nested : Derives .body (blockTokens text) := by
    rw [blockTokens, ← map_token_partsFrom 0, ← parts, shown, derives_body_iff_heightAfter?]
    decide
  have unbranched (first k : Nat) : ¬ HasBranch (parts text) enumKeyword first k := by
    rintro ⟨front, inner, word, back, whole, _⟩
    have plain : ∀ p ∈ parts text, p.token ≠ .branch := by
      rw [shown]
      decide
    exact plain ⟨k, .branch word false⟩ (by rw [whole]; simp) rfl
  constructor
  · have inside : IsBlock (parts text) enumKeyword 0 5 := by
      refine ⟨[], [⟨1, .plain⟩, ⟨2, .opening "fun".toList⟩, ⟨3, .plain⟩, ⟨4, .closing⟩], .closing,
        [⟨6, .plain⟩], shown, ?_⟩
      exact .block (e := [.closing]) (.plain (.nested (.block (.plain .empty) .closing) .empty))
        .closing
    intro warned
    have both := (@constants_are_exempt_within_enumerations {} text 3 "    Deep = 2".toList rfl
      nested unbranched (by decide +kernel) (by decide +kernel)).mp warned
    exact both.2 ⟨0, 5, inside, by decide, by decide⟩
  · refine (@constants_are_exempt_within_enumerations {} text 6 "Blue = 3".toList rfl nested
      unbranched (by decide +kernel) (by decide +kernel)).mpr ⟨by decide +kernel, ?_⟩
    rintro ⟨first, last, ⟨front, inner, form, back, whole, _⟩, _, behind⟩
    have within : ∀ p ∈ parts text, p.line ≤ 6 := by
      rw [shown]
      decide
    exact absurd (within ⟨last, form⟩ (by rw [whole]; simp)) (Nat.not_le_of_lt behind)

end Document

end Dragonstone
