/-
# Brackets counted line by line

Two scans decide which brackets of a document count.  The balance check reads the document as one
text and drops comments and the bodies of literals; the mask reads every line on its own and blanks
them.  They go apart in three places.  Only the first knows block comments.  A literal that is open
at the end of a line goes on for the first and ends for the second.  And outside literals a
backslash takes the next character with it for the second only.

In a document without these three, both scans are in the same state in front of every character:
inside the same literal or outside, up to the end of the line or to the sign of a line comment.  So
they show the same characters of every line, and what is left of the document holds as many brackets
of each kind as the masks of its lines together.
-/

import Dragonstone.Proofs.Comment.Nesting
import Dragonstone.Proofs.LeadingSpace.Balance
import Dragonstone.Proofs.Role.Reading
import Dragonstone.Proofs.Text.Weaving
import Mathlib.Algebra.GroupWithZero.Nat
import Mathlib.Algebra.Ring.Int.Defs

namespace Dragonstone

namespace Balance

/-! ### What the mask shows -/

/-- What the mask shows of a character: the character itself if it is code or a quote. -/
def shownChar (role : Role) (c : Char) : Text :=
  if role = .code ∨ role = .quote then [c] else []

/-- The characters of a line that are code or quotes. -/
def shown (rs : List Role) (line : Line) : Text :=
  (rs.zip line).flatMap fun p => shownChar p.1 p.2

theorem shown_cons (role : Role) (rs : List Role) (c : Char) (line : Line) :
    shown (role :: rs) (c :: line) = shownChar role c ++ shown rs line :=
  rfl

/-- A comment shows nothing. -/
theorem shown_comment (n : Nat) (line : Line) : shown (List.replicate n .comment) line = [] := by
  rw [shown, List.flatMap_eq_nil_iff]
  intro p member
  rw [List.eq_of_mem_replicate (List.of_mem_zip member).1]
  rfl

/-- The mask has the characters that it shows, and spaces in place of the others. -/
theorem count_mask {c : Char} (space : c ≠ ' ') (line : Line) :
    (mask line).count c = (shown (roles line) line).count c := by
  rw [mask]
  generalize roles line = rs
  induction rs generalizing line with
  | nil => rfl
  | cons role rs ih =>
      cases line with
      | nil => rfl
      | cons d line =>
          rw [List.zipWith_cons_cons, shown_cons, List.count_append, ← ih, List.count_cons]
          cases role with
          | code | quote => simp [Role.masked, shownChar, List.count_singleton, Nat.add_comm]
          | literal | comment => simp [Role.masked, shownChar, space.symm]

/-! ### The two scans side by side -/

/-- The mode of the document's scan where the automaton of a line has the given quote open. -/
def Mode.ofQuote : Option Quote → Mode
  | none => .code
  | some q => .literal q

/-- What the document's scan still has to read: it takes a backslash together with the character
after it, where the automaton of a line remembers the backslash. -/
def pending (escaped : Bool) (s : Text) : Text :=
  if escaped then '\\' :: s else s

/-- No marker begins in a line without markers, nor at its end in front of a blank. -/
theorem noMarker_append {c : Char} {rest : Line} (unmarked : IsUnmarked (c :: rest))
    {behind : Text} (blank : ∀ d, behind.head? = some d → isBlank d = true) :
    NoMarker (c :: (rest ++ behind)) := by
  have apart {a b : Char} {later : Text} (marker : ¬ [a, b] <:+: c :: rest)
      (ink : isBlank b = false) (char : c = a) (next : rest ++ behind = b :: later) : False := by
    cases rest with
    | nil =>
        rw [blank b (by rw [← List.nil_append behind, next]; rfl)] at ink
        cases ink
    | cons d rest =>
        obtain ⟨rfl, -⟩ := List.cons.inj next
        exact marker ⟨[], rest, by rw [char]; rfl⟩
  exact noMarker_cons (fun _ => apart unmarked.1 (by decide)) fun _ => apart unmarked.2 (by decide)

/-- A line comment reaches as far as there is no line feed. -/
theorem stripFrom_lineComment_append {comment : Text} (feed : '\n' ∉ comment) (behind : Text) :
    stripFrom .lineComment (comment ++ behind) = stripFrom .lineComment behind := by
  induction comment with
  | nil => rfl
  | cons c comment ih =>
      have other : c ≠ '\n' := (List.ne_of_not_mem_cons feed).symm
      rw [List.cons_append, stripFrom, if_neg (by simpa using other)]
      exact ih (List.not_mem_of_not_mem_cons feed)

/-- Both scans take one character.  Where it begins no block comment and is no backslash in code,
the document's scan keeps what the mask shows of it, and goes on where the line's automaton goes
on. -/
theorem stripFrom_pending_cons {c : Char} {open? open' : Option Quote} {escaped escaped' : Bool}
    {role : Role} (reading : Reading c open? escaped role open' escaped')
    (inLiteral : escaped = true → open? ≠ none) (escapes : ¬ (role = .code ∧ c = '\\'))
    {rest : Text} (marker : NoMarker (c :: rest)) :
    stripFrom (.ofQuote open?) (pending escaped (c :: rest)) =
        shownChar role c ++ stripFrom (.ofQuote open') (pending escaped' rest) ∧
      (escaped' = true → open' ≠ none) := by
  cases reading with
  | escaped =>
      obtain ⟨q, rfl⟩ := Option.ne_none_iff_exists'.mp (inLiteral rfl)
      exact ⟨stripFrom.eq_4 q c rest, fun h => absurd h Bool.false_ne_true⟩
  | backslash char =>
      cases open? with
      | none => exact absurd ⟨rfl, char⟩ escapes
      | some q => exact ⟨by rw [char]; rfl, fun _ => Option.some_ne_none q⟩
  | @opening q char =>
      have sign : (c == '#') = false := by rw [char]; cases q <;> decide
      refine ⟨(stripFrom_code marker).trans ?_, fun h => absurd h Bool.false_ne_true⟩
      rw [sign, char, Quote.ofChar?_char]
      rfl
  | @closing q char =>
      have backslash : c ≠ '\\' := by rw [char]; cases q <;> decide
      exact ⟨(stripFrom_literal q backslash rest).trans (if_pos (by rw [char, beq_self_eq_true])),
        fun h => absurd h Bool.false_ne_true⟩
  | plain char sign quote =>
      refine ⟨?_, fun h => absurd h Bool.false_ne_true⟩
      cases open? with
      | none =>
          have plain : Quote.ofChar? c = none := by
            refine Quote.ofChar?_eq_none_iff.mpr fun q char => ?_
            obtain ⟨p, isOpen, -⟩ := quote q char
            cases isOpen
          refine (stripFrom_code marker).trans ?_
          rw [if_neg (by simpa using sign rfl), plain]
          rfl
      | some q =>
          have other : c ≠ q.char := by
            intro same
            obtain ⟨p, isOpen, different⟩ := quote q same
            exact different (Option.some.inj isOpen).symm
          exact (stripFrom_literal q char rest).trans (if_neg (by simpa using other))

/-- Of a line without markers, which leaves no literal open and in whose code there is no backslash,
the document's scan keeps what the mask shows.  Behind it the scan is in code or in a line
comment. -/
theorem exists_stripFrom_line {open? : Option Quote} {escaped : Bool} {line : Line}
    (inLiteral : escaped = true → open? ≠ none) (feed : '\n' ∉ line) (unmarked : IsUnmarked line)
    (closed : (rolesFrom open? escaped line).2 = none)
    (escapes : (Role.code, '\\') ∉ (rolesFrom open? escaped line).1.zip line) :
    ∃ mode, (mode = .code ∨ mode = .lineComment) ∧
      ∀ behind : Text, (∀ c, behind.head? = some c → isBlank c = true) →
        stripFrom (.ofQuote open?) (pending escaped (line ++ behind)) =
          shown (rolesFrom open? escaped line).1 line ++ stripFrom mode behind := by
  have notEscaped (code : open? = none) : escaped = false :=
    Bool.eq_false_iff.mpr fun h => inLiteral h code
  induction line generalizing open? escaped with
  | nil =>
      obtain rfl : open? = none := closed
      obtain rfl := notEscaped rfl
      exact ⟨.code, .inl rfl, fun _ _ => rfl⟩
  | cons c rest ih =>
      have feedRest : '\n' ∉ rest := List.not_mem_of_not_mem_cons feed
      obtain ⟨rfl, rfl, comment⟩ | ⟨role, open', escaped', reading, next⟩ :=
        rolesFrom_cons_cases open? escaped c
      · -- The sign of a line comment: nothing more is shown of the line.
        obtain rfl := notEscaped rfl
        refine ⟨.lineComment, .inr rfl, fun behind blank => ?_⟩
        rw [comment, shown_comment, List.nil_append]
        calc stripFrom .code ('#' :: (rest ++ behind))
            = stripFrom .lineComment (rest ++ behind) := by
              rw [stripFrom_code (noMarker_append unmarked blank), if_pos (beq_self_eq_true _)]
          _ = stripFrom .lineComment behind := stripFrom_lineComment_append feedRest behind
      · rw [next] at closed escapes ⊢
        rw [List.zip_cons_cons, List.mem_cons, not_or, Prod.mk.injEq, @eq_comm _ Role.code,
          @eq_comm _ '\\'] at escapes
        have alone : NoMarker (c :: (rest ++ [])) := noMarker_append unmarked nofun
        obtain ⟨-, inLiteral'⟩ := stripFrom_pending_cons reading inLiteral escapes.1 alone
        obtain ⟨mode, ends, strip⟩ := ih inLiteral' feedRest unmarked.tail closed escapes.2
          fun code => Bool.eq_false_iff.mpr fun h => inLiteral' h code
        refine ⟨mode, ends, fun behind blank => ?_⟩
        obtain ⟨step, -⟩ := stripFrom_pending_cons reading inLiteral escapes.1
          (noMarker_append unmarked blank)
        rw [List.cons_append, step, strip behind blank, shown_cons, List.append_assoc]

/-! ### The whole document -/

/-- A line that both scans read alike. -/
structure PlainLine (line : Line) : Prop where
  unmarked : IsUnmarked line
  closed : unclosedQuote? line = none
  /-- No backslash of the line is code. -/
  escapes : (Role.code, '\\') ∉ (roles line).zip line

instance (line : Line) : Decidable (PlainLine line) :=
  decidable_of_iff
    (IsUnmarked line ∧ unclosedQuote? line = none ∧ (Role.code, '\\') ∉ (roles line).zip line)
    ⟨fun h => ⟨h.1, h.2.1, h.2.2⟩, fun h => ⟨h.unmarked, h.closed, h.escapes⟩⟩

/-- Of a plain line the document's scan keeps what the mask shows. -/
theorem PlainLine.exists_stripFrom {line : Line} (plain : PlainLine line) (feed : '\n' ∉ line) :
    ∃ mode, (mode = .code ∨ mode = .lineComment) ∧
      ∀ behind : Text, (∀ c, behind.head? = some c → isBlank c = true) →
        stripFrom .code (line ++ behind) = shown (roles line) line ++ stripFrom mode behind :=
  have notEscaped : false = true → (none : Option Quote) ≠ none := nofun
  exists_stripFrom_line notEscaped feed plain.unmarked plain.closed plain.escapes

/-- A line break leaves nothing but blanks, and behind it the scan is in code. -/
theorem exists_stripFrom_break {mode : Mode} (ends : mode = .code ∨ mode = .lineComment)
    (b : LineBreak) (behind : Text) :
    ∃ gap, (∀ c ∈ gap, isBlank c = true) ∧
      stripFrom mode (b.text ++ behind) = gap ++ stripFrom .code behind := by
  have blank : ∀ c ∈ b.text, isBlank c = true := by cases b <;> simp [LineBreak.text, isBlank]
  obtain rfl | rfl := ends
  · exact ⟨b.text, blank, stripFrom_blanks (by decide) blank behind⟩
  · refine ⟨['\n'], List.forall_mem_singleton.mpr rfl, ?_⟩
    cases b <;> rfl

/-- Characters that are no blanks are as many in the stripped text as in the masks of its lines. -/
theorem count_stripFrom_weave {c : Char} (ink : isBlank c = false) {ls : List Line}
    {bs : List LineBreak} (cut : IsCut ls bs) (plain : ∀ line ∈ ls, PlainLine line) :
    (stripFrom .code (weave ls bs)).count c = (ls.map fun line => (mask line).count c).sum := by
  have space : c ≠ ' ' := by
    rintro rfl
    cases ink
  induction cut with
  | @last line feed =>
      obtain ⟨mode, -, strip⟩ := (plain line List.mem_cons_self).exists_stripFrom feed
      have whole := strip [] nofun
      rw [List.append_nil, stripFrom, List.append_nil] at whole
      rw [weave, whole, List.map_singleton, List.sum_singleton, count_mask space]
  | @next line b rest bs feed bare cut ih =>
      obtain ⟨mode, ends, strip⟩ := (plain line List.mem_cons_self).exists_stripFrom feed
      obtain ⟨gap, blanks, resume⟩ := exists_stripFrom_break ends b (weave rest bs)
      have front := strip (b.text ++ weave rest bs) (by cases b <;> simp [LineBreak.text, isBlank])
      have blank : gap.count c = 0 := by
        rw [List.count_eq_zero]
        intro member
        rw [blanks c member] at ink
        cases ink
      rw [weave_cons cut.ne_nil, List.append_assoc, front, resume, List.count_append,
        List.count_append, blank, Nat.zero_add, List.map_cons, List.sum_cons, count_mask space,
        ih fun other member => plain other (List.mem_cons_of_mem line member)]

theorem count_strip {c : Char} (ink : isBlank c = false) {text : Text}
    (plain : ∀ line ∈ lines text, PlainLine line) :
    (strip text).count c = ((lines text).map fun line => (mask line).count c).sum := by
  have whole := count_stripFrom_weave ink (isCut_lines text) plain
  rwa [weave_lines] at whole

/-- The surplus of lines is what they hold of the one bracket less what they hold of the other. -/
theorem sum_surplus (opening closing : Char) (ls : List Line) :
    (ls.map (surplus opening closing)).sum =
      ((ls.map (List.count opening)).sum : Nat) - ((ls.map (List.count closing)).sum : Nat) := by
  induction ls with
  | nil => rfl
  | cons line rest ih =>
      rw [List.map_cons, List.sum_cons, ih, List.map_cons, List.sum_cons, List.map_cons,
        List.sum_cons, surplus]
      omega

theorem surplus_strip {opening closing : Char} (inkOpening : isBlank opening = false)
    (inkClosing : isBlank closing = false) {text : Text}
    (plain : ∀ line ∈ lines text, PlainLine line) :
    surplus opening closing (strip text) =
      ((lines text).map fun line => surplus opening closing (mask line)).sum := by
  have sum := sum_surplus opening closing ((lines text).map mask)
  simp only [List.map_map] at sum
  rw [surplus, count_strip inkOpening plain, count_strip inkClosing plain]
  exact sum.symm

/-- In a document without block comments, without literals that go on behind their line and without
backslashes in code, stripping the whole text and masking each line agree on brackets: of each of
the six, the stripped text has as many as the masks have together, and the surplus of each kind of
brackets in the stripped text is the sum of the surpluses in the masks. -/
theorem strip_agrees_with_masks {text : Text} (plain : ∀ line ∈ lines text, PlainLine line) :
    (∀ c ∈ ['(', ')', '[', ']', '{', '}'],
      (strip text).count c = ((lines text).map fun line => (mask line).count c).sum) ∧
    Surplus.of (strip text) =
      ⟨((lines text).map fun line => (Surplus.of (mask line)).paren).sum,
        ((lines text).map fun line => (Surplus.of (mask line)).square).sum,
        ((lines text).map fun line => (Surplus.of (mask line)).brace).sum⟩ := by
  have ink : ∀ c ∈ ['(', ')', '[', ']', '{', '}'], isBlank c = false := by simp [isBlank]
  refine ⟨fun c member => count_strip (ink c member) plain, ?_⟩
  rw [Surplus.of, surplus_strip (by decide) (by decide) plain,
    surplus_strip (by decide) (by decide) plain, surplus_strip (by decide) (by decide) plain]
  rfl

/-- Brackets in literals, behind an escaped quote and in a line comment, and both kinds of line
breaks. -/
theorem strip_agrees_with_masks_behind_escaped_quote :
    let text := "f(\"[\\\"(\", \x7ba # ]\x7d)\r\n\x7d '\\\\') # \"\n[".toList
    (∀ line ∈ lines text, PlainLine line) ∧ Surplus.of (strip text) = ⟨0, 1, 0⟩ := by
  intro text
  have plain : ∀ line ∈ lines text, PlainLine line := by decide +kernel
  refine ⟨plain, ?_⟩
  rw [(strip_agrees_with_masks plain).2]
  decide +kernel

end Balance

end Dragonstone
