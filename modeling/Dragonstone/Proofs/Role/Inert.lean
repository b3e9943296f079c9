/-
# Literals and line comments are inert

What stands inside a literal or behind the sign of a line comment has no influence on what is found
in a document or on how it is formatted, as long as the roles of the characters stay what they are
and no marker of a block comment comes into play.  Brackets are the exception: they are counted over
the whole document, by a scan of its own that does not go by lines.

Everything else reads a line in one of three ways: through its mask, through the quote that is left
open at its end, or through the space and the first ink in front.  The mask is read off the roles
and the characters of code.  For the quote the two readings of the automaton are followed side by
side: inside a literal they may differ in what is escaped, but outside they are in the same state.
In front of a line nothing can differ, because nothing is open there yet.
-/

import Dragonstone.Proofs.Indentation.Level
import Dragonstone.Proofs.Role.Reading

namespace Dragonstone

open Block

/-- Two lines have the same characters wherever the role is code or a quote. -/
def AgreeInCode (rs : List Role) (a b : Line) : Prop :=
  ∀ i < rs.length, rs[i]? = some .code ∨ rs[i]? = some .quote → a[i]? = b[i]?

/-- Two lines have the same roles column by column, and the same characters wherever the role is
code or a quote. -/
def SameCode (a b : Line) : Prop :=
  roles a = roles b ∧ AgreeInCode (roles a) a b

instance (a b : Line) : Decidable (SameCode a b) :=
  inferInstanceAs (Decidable (_ ∧ ∀ i < _, _ → _))

theorem AgreeInCode.tail {role : Role} {rs : List Role} {c d : Char} {a b : Line}
    (agree : AgreeInCode (role :: rs) (c :: a) (d :: b)) : AgreeInCode rs a b :=
  fun i inside => agree (i + 1) (Nat.succ_lt_succ inside)

/-! ### The automaton on two lines -/

/-- Read in a literal, a character closes it or belongs to it. -/
theorem Reading.of_some {c : Char} {q : Quote} {escaped escaped' : Bool} {role : Role}
    {open' : Option Quote} (reading : Reading c (some q) escaped role open' escaped') :
    (role = .quote ∧ open' = none ∧ escaped' = false) ∨ (role = .literal ∧ open' = some q) := by
  cases reading with
  | closing => exact .inl ⟨rfl, rfl, rfl⟩
  | escaped | backslash | plain => exact .inr ⟨rfl, rfl⟩

/-- Read outside literals, a character is code or a quote. -/
theorem Reading.of_none {c : Char} {escaped escaped' : Bool} {role : Role} {open' : Option Quote}
    (reading : Reading c none escaped role open' escaped') : role = .code ∨ role = .quote := by
  cases reading with
  | opening => exact .inr rfl
  | escaped | backslash | plain => exact .inl rfl

/-- Where nothing is open, the first characters are the same. -/
theorem head_eq_of_agreeInCode {escaped : Bool} {a b : Line}
    (same : (rolesFrom none escaped a).1 = (rolesFrom none escaped b).1)
    (agree : AgreeInCode (rolesFrom none escaped a).1 a b) : a[0]? = b[0]? := by
  cases a with
  | nil =>
      have length := congrArg List.length same
      rw [length_rolesFrom, length_rolesFrom] at length
      rw [List.length_eq_zero_iff.mp length.symm]
  | cons c rest =>
      obtain ⟨_, rfl, comment⟩ | ⟨role, open', escaped', reading, next⟩ :=
        rolesFrom_cons_cases none escaped c
      · have head : (rolesFrom none escaped b).1[0]? = some .comment := by
          rw [← same, comment]
          rfl
        exact ((head_roles_of_none head).2 rfl).symm
      · rw [next] at agree
        apply agree 0 (Nat.zero_lt_succ _)
        exact reading.of_none.imp (congrArg some) (congrArg some)

/-- Two lines with the same roles and the same code leave the same quote open.  It may be that a
character of a literal is escaped in one of them only, but none of code is. -/
theorem snd_rolesFrom_eq {open? : Option Quote} {escaped₁ escaped₂ : Bool}
    (escapes : open? = none → escaped₁ = escaped₂) {a b : Line}
    (same : (rolesFrom open? escaped₁ a).1 = (rolesFrom open? escaped₂ b).1)
    (agree : AgreeInCode (rolesFrom open? escaped₁ a).1 a b) :
    (rolesFrom open? escaped₁ a).2 = (rolesFrom open? escaped₂ b).2 := by
  induction a generalizing open? escaped₁ escaped₂ b with
  | nil =>
      have length := congrArg List.length same
      rw [length_rolesFrom, length_rolesFrom] at length
      rw [List.length_eq_zero_iff.mp length.symm]
      rfl
  | cons c a ih =>
      obtain _ | ⟨d, b⟩ := b
      · have length := congrArg List.length same
        rw [length_rolesFrom, length_rolesFrom] at length
        cases length
      cases open? with
      | none =>
          obtain rfl := escapes rfl
          obtain rfl : c = d := Option.some.inj (head_eq_of_agreeInCode same agree)
          obtain ⟨_, _, comment⟩ | ⟨role, open', escaped', _, next⟩ :=
            rolesFrom_cons_cases none escaped₁ c
          · rw [comment, comment]
          · rw [next, next] at same
            rw [next] at agree
            rw [next, next]
            exact ih (fun _ => rfl) (List.cons.inj same).2 agree.tail
      | some q =>
          obtain ⟨none, _⟩ | ⟨role, open₁, escaped₁', reading₁, next₁⟩ :=
            rolesFrom_cons_cases (some q) escaped₁ c
          · cases none
          obtain ⟨none, _⟩ | ⟨role', open₂, escaped₂', reading₂, next₂⟩ :=
            rolesFrom_cons_cases (some q) escaped₂ d
          · cases none
          rw [next₁, next₂] at same
          rw [next₁] at agree
          rw [next₁, next₂]
          obtain ⟨rfl, later⟩ := List.cons.inj same
          obtain ⟨closed, rfl, rfl⟩ | ⟨within, rfl⟩ := reading₁.of_some
          · obtain ⟨_, rfl, rfl⟩ | ⟨within, _⟩ := reading₂.of_some
            · exact ih (fun _ => rfl) later agree.tail
            · cases closed.symm.trans within
          · obtain ⟨closed, _⟩ | ⟨_, rfl⟩ := reading₂.of_some
            · cases closed.symm.trans within
            · refine ih ?_ later agree.tail
              intro none
              cases none

theorem zipWith_masked_eq {rs : List Role} {a b : Line} (length : a.length = b.length)
    (agree : AgreeInCode rs a b) :
    List.zipWith Role.masked rs a = List.zipWith Role.masked rs b := by
  induction rs generalizing a b with
  | nil => rfl
  | cons role rs ih =>
      obtain _ | ⟨c, a⟩ := a
      · rw [List.length_eq_zero_iff.mp length.symm]
      obtain _ | ⟨d, b⟩ := b
      · cases length
      have here : role.masked c = role.masked d := by
        have char := agree 0 (Nat.zero_lt_succ _)
        cases role with
        | code => exact Option.some.inj (char (.inl rfl))
        | quote => exact Option.some.inj (char (.inr rfl))
        | literal | comment => rfl
      rw [List.zipWith_cons_cons, List.zipWith_cons_cons, here, ih (Nat.succ.inj length) agree.tail]

/-! ### Two lines -/

namespace SameCode

variable {a b : Line}

theorem length_eq (same : SameCode a b) : a.length = b.length := by
  rw [← length_roles a, same.1, length_roles]

theorem mask_eq (same : SameCode a b) : mask a = mask b := by
  rw [mask, zipWith_masked_eq same.length_eq same.2, same.1, mask]

theorem unclosedQuote?_eq (same : SameCode a b) : unclosedQuote? a = unclosedQuote? b :=
  snd_rolesFrom_eq (fun _ => rfl) same.1 same.2

/-- The same space stands in front of both lines, and the same character behind it. -/
theorem front_eq (same : SameCode a b) :
    leadingSpace a = leadingSpace b ∧ firstInk a = firstInk b := by
  induction a generalizing b with
  | nil => rw [List.length_eq_zero_iff.mp same.length_eq.symm]; exact ⟨rfl, rfl⟩
  | cons c a ih =>
      obtain _ | ⟨d, b⟩ := b
      · cases same.length_eq
      obtain rfl : c = d := Option.some.inj (head_eq_of_agreeInCode same.1 same.2)
      by_cases space : isSpace c = true
      · have roles_cons (line : Line) : roles (c :: line) = .code :: roles line := by
          rw [roles, rolesFrom_cons space, roles]
        obtain ⟨roles, agree⟩ := same
        rw [roles_cons, roles_cons] at roles
        rw [roles_cons] at agree
        obtain ⟨spaces, ink⟩ := ih ⟨(List.cons.inj roles).2, agree.tail⟩
        constructor
        · simpa only [leadingSpace, List.takeWhile_cons_of_pos space, List.cons.injEq, true_and]
            using spaces
        · simpa only [firstInk, List.dropWhile_cons_of_pos space] using ink
      · constructor
        · simp only [leadingSpace, List.takeWhile_cons_of_neg space]
        · simp only [firstInk, List.dropWhile_cons_of_neg space, List.head?_cons]

theorem isSkipped_eq (same : SameCode a b) : isSkipped a = isSkipped b := by
  rw [isSkipped, same.front_eq.2, isSkipped]

theorem onLine_eq (same : SameCode a b) (n : Nat) (problem : Problem) :
    onLine n a problem = onLine n b problem := by
  rw [onLine, same.length_eq, onLine]

end SameCode

/-! ### Two documents -/

/-- Two documents have the same code, line by line, and no markers of block comments. -/
structure SameCodeThroughout (as bs : List Line) : Prop where
  code : List.Forall₂ SameCode as bs
  unmarked : ∀ line ∈ as ++ bs, IsUnmarked line

namespace SameCodeThroughout

variable {as bs : List Line}

theorem head {a b : Line} (same : SameCodeThroughout (a :: as) (b :: bs)) :
    SameCode a b ∧ IsUnmarked a ∧ IsUnmarked b := by
  obtain ⟨⟨⟩ | ⟨here, _⟩, unmarked⟩ := same
  exact ⟨here, unmarked a (by simp), unmarked b (by simp)⟩

theorem tail {a b : Line} (same : SameCodeThroughout (a :: as) (b :: bs)) :
    SameCodeThroughout as bs := by
  obtain ⟨⟨⟩ | ⟨_, later⟩, unmarked⟩ := same
  refine ⟨later, fun line mem => unmarked line ?_⟩
  simp only [List.cons_append, List.mem_cons, List.mem_append] at mem ⊢
  exact mem.elim (fun h => .inr (.inl h)) fun h => .inr (.inr (.inr h))

/-- Outside comments, the pass of the validation finds the same in both documents. -/
theorem run_eq (same : SameCodeThroughout as bs) (config : Config) (n : Nat) {p : Progress}
    (flat : p.depth = 0) : p.run config n as = p.run config n bs := by
  induction as generalizing n p bs with
  | nil => cases same.code; rfl
  | cons a as ih =>
      obtain _ | ⟨b, bs⟩ := bs
      · cases same.code
      obtain ⟨line, unmarkedA, unmarkedB⟩ := same.head
      have step : p.step config n a = p.step config n b := by
        simp only [step_eq, strayClose?, checkCode, flat,
          scanComments_of_isUnmarked unmarkedA, scanComments_of_isUnmarked unmarkedB,
          line.isSkipped_eq, line.mask_eq,
          line.unclosedQuote?_eq, line.onLine_eq, if_pos]
      have next : (p.step config n b).1.depth = 0 := by
        rw [depth_step, flat, scanComments_of_isUnmarked unmarkedB]
      simp only [Progress.run, step, ih same.tail (n + 1) next]

/-- A finding on a line that is remembered covers as much in both documents. -/
theorem onLine_getElem?_eq (same : SameCodeThroughout as bs) (n : Nat) (problem : Problem) :
    onLine n (as[n]?.getD []) problem = onLine n (bs[n]?.getD []) problem := by
  have lengths : as.map List.length = bs.map List.length := by
    rw [← List.forall₂_eq_eq_eq, List.forall₂_map_left_iff, List.forall₂_map_right_iff]
    exact same.code.imp fun _ _ line => line.length_eq
  have here : (as[n]?.getD []).length = (bs[n]?.getD []).length := by
    rw [← Option.getD_map List.length, ← Option.getD_map List.length, ← List.getElem?_map, lengths,
      List.getElem?_map]
  rw [onLine, here, onLine]

/-- Outside comments, the formatter makes the same edits in both documents. -/
theorem edits_eq (same : SameCodeThroughout as bs) (width n : Nat) {l : Layout}
    (flat : l.depth = 0) : l.edits width n as = l.edits width n bs := by
  induction as generalizing n l bs with
  | nil => cases same.code; rfl
  | cons a as ih =>
      obtain _ | ⟨b, bs⟩ := bs
      · cases same.code
      obtain ⟨line, unmarkedA, unmarkedB⟩ := same.head
      have step : l.step width n a = l.step width n b := by
        simp only [Layout.step, keepsLayout, reindent?, flat, scanComments_of_isUnmarked unmarkedA,
          scanComments_of_isUnmarked unmarkedB, line.isSkipped_eq, line.mask_eq, line.front_eq.1]
      have next : (l.step width n b).1.depth = 0 := by
        rw [fst_step, depth_next, flat, scanComments_of_isUnmarked unmarkedB]
      simp only [Layout.edits, step, ih same.tail (n + 1) next]

end SameCodeThroughout

/-- Two documents whose lines have the same roles, and the same characters where the role is code or
a quote, get the same diagnostics and the same edits, if neither has a marker of a block comment and
brackets are not counted.  What their literals and line comments say has no influence, nor have the
breaks between their lines. -/
theorem literals_and_comments_are_inert {a b : Text}
    (same : List.Forall₂ SameCode (lines a) (lines b))
    (unmarked : ∀ line ∈ lines a ++ lines b, IsUnmarked line) :
    (∀ config : Config, config.checkBrackets = false → validate config a = validate config b) ∧
      ∀ width, formatEdits width a = formatEdits width b := by
  have documents : SameCodeThroughout (lines a) (lines b) := ⟨same, unmarked⟩
  constructor
  · intro config uncounted
    have run : Progress.run config 0 {} (lines a) = Progress.run config 0 {} (lines b) :=
      documents.run_eq config 0 rfl
    have found : inspect config a = inspect config b := by
      simp only [inspect, run, uncounted, unclosedBlocks, unclosedComment?,
        documents.onLine_getElem?_eq]
      rfl
    rw [validate, found, validate]
  · exact fun width => documents.edits_eq width 0 rfl

/-- In the first literals, the quote that is escaped stands at different columns.  Outside literals
and comments, their words would open, branch and close blocks. -/
theorem literals_and_comments_are_inert_behind_backslash :
    let a := "if x == \"\\\"d\" # end\r\nfoo 'begin' # class\nend".toList
    let b := "if x == \"o\\\"\" # ]x]\nfoo 'elsif' # while\nend".toList
    (∀ config : Config, config.checkBrackets = false → validate config a = validate config b) ∧
      ∀ width, formatEdits width a = formatEdits width b := by
  intro a b
  have linesA : lines a = ["if x == \"\\\"d\" # end".toList, "foo 'begin' # class".toList,
    "end".toList] := by decide +kernel
  have linesB : lines b = ["if x == \"o\\\"\" # ]x]".toList, "foo 'elsif' # while".toList,
    "end".toList] := by decide +kernel
  apply literals_and_comments_are_inert
  · rw [linesA, linesB]
    exact .cons (by decide +kernel) (.cons (by decide +kernel) (.cons (by decide +kernel) .nil))
  · decide +kernel

end Dragonstone
