/-
# Stripping is a projection

What is left of a text when comments are dropped and literals are reduced to their quotes is such a
text itself: nothing is left to drop.  Characters that were far apart are neighbours now, and they
might have spelled something new.  They do not.  A marker of a block comment or the sign of a line
comment needs a number sign, and none is left; and every quote that is left stands directly in front
of the one that closes it, so no literal has anything in it.

The texts that are left are exactly those with these two properties, and on them stripping does
nothing.
-/

import Dragonstone.Proofs.LeadingSpace.Balance
import Dragonstone.Proofs.Role.Reading

namespace Dragonstone

namespace Balance

/-- Read from the left, every quote stands directly in front of a quote of its kind, which closes
it.  Only the last character may be a quote that is not closed. -/
inductive QuotesPaired : Text → Prop
  | nil : QuotesPaired []
  | other {c : Char} {s : Text} (plain : ∀ q : Quote, c ≠ q.char) (later : QuotesPaired s) :
      QuotesPaired (c :: s)
  | pair (q : Quote) {s : Text} (later : QuotesPaired s) : QuotesPaired (q.char :: q.char :: s)
  | last (q : Quote) : QuotesPaired [q.char]

/-! ### What is left of a text -/

/-- The quote that is open in a mode. -/
def Mode.quote? : Mode → Option Quote
  | .literal q => some q
  | _ => none

/-- What may be left of a text that begins where the given quote is open.  Any character can be
dropped.  A quote that is kept opens a literal or closes it, and nothing else is kept of a literal;
outside, no number sign is kept. -/
inductive Leaves : Option Quote → Text → Text → Prop
  | done {open? : Option Quote} : Leaves open? [] []
  | drop {open? : Option Quote} {c : Char} {rest out : Text} (later : Leaves open? rest out) :
      Leaves open? (c :: rest) out
  | plain {c : Char} {rest out : Text} (sign : c ≠ '#') (other : ∀ q : Quote, c ≠ q.char)
      (later : Leaves none rest out) : Leaves none (c :: rest) (c :: out)
  | opening {q : Quote} {rest out : Text} (later : Leaves (some q) rest out) :
      Leaves none (q.char :: rest) (q.char :: out)
  | closing {q : Quote} {rest out : Text} (later : Leaves none rest out) :
      Leaves (some q) (q.char :: rest) (q.char :: out)

/-- What stripping leaves is of this kind, in every mode. -/
theorem leaves_stripFrom (mode : Mode) (s : Text) : Leaves mode.quote? s (stripFrom mode s) := by
  fun_induction stripFrom mode s with
  | case1 => exact .done
  | case2 c rest feed ih =>
      -- The line feed behind a line comment.
      obtain rfl : c = '\n' := eq_of_beq feed
      exact .plain (by decide) (fun q => q.char_ne_feed.symm) ih
  | case3 c rest _ ih => exact ih.drop
  | case4 => exact .drop .done
  | case5 q escaped rest ih => exact ih.drop.drop
  | case6 q c rest _ _ closes ih =>
      obtain rfl : c = q.char := eq_of_beq closes
      exact .closing ih
  | case7 q c rest _ _ _ ih => exact ih.drop
  | case8 n rest ih => exact ih.drop.drop
  | case9 n rest ih =>
      cases n with
      | zero => exact ih.drop.drop
      | succ outer => exact ih.drop.drop
  | case10 n c rest _ _ ih => exact ih.drop
  | case11 rest ih => exact ih.drop.drop
  | case12 rest ih => exact ih.drop.drop
  | case13 c rest _ _ _ ih => exact ih.drop
  | case14 c rest _ _ _ q found ih =>
      obtain rfl := Quote.char_of_ofChar? found
      exact .opening ih
  | case15 c rest _ _ sign none ih =>
      exact .plain (by simpa using sign) (Quote.ofChar?_eq_none_iff.mp none) ih

namespace Leaves

variable {open? : Option Quote} {s out : Text}

theorem sublist (leaves : Leaves open? s out) : out.Sublist s := by
  induction leaves with
  | done => exact .slnil
  | drop _ ih => exact ih.cons _
  | plain _ _ _ ih | opening _ ih | closing _ ih => exact ih.cons_cons _

theorem not_mem_sign (leaves : Leaves open? s out) : '#' ∉ out := by
  induction leaves with
  | done => exact List.not_mem_nil
  | drop _ ih => exact ih
  | plain sign _ _ ih => exact List.not_mem_cons_of_ne_of_not_mem sign.symm ih
  | @opening q _ _ _ ih | @closing q _ _ _ ih =>
      exact List.not_mem_cons_of_ne_of_not_mem q.char_ne_sign.symm ih

/-- With the quote that is open in front of it, what is left has all its quotes paired. -/
theorem quotesPaired (leaves : Leaves open? s out) :
    QuotesPaired ((open?.map Quote.char).toList ++ out) := by
  induction leaves with
  | @done open? =>
      cases open? with
      | none => exact .nil
      | some q => exact .last q
  | drop _ ih => exact ih
  | plain _ other _ ih => exact .other other ih
  | opening _ ih => exact ih
  | @closing q _ _ _ ih => exact .pair q ih

end Leaves

/-! ### Texts with nothing to drop -/

/-- Markers of block comments have a number sign. -/
theorem noMarker_of_not_mem {s : Text} (sign : '#' ∉ s) : NoMarker s := by
  intro rest
  constructor
  · rintro rfl
    exact sign (by simp)
  · rintro rfl
    exact sign (by simp)

section Code

variable {rest : Text}

/-- Without number signs, a character of code that is no quote is kept, and code goes on. -/
theorem stripFrom_code_plain {c : Char} (sign : '#' ∉ c :: rest) (other : ∀ q : Quote, c ≠ q.char) :
    stripFrom .code (c :: rest) = c :: stripFrom .code rest := by
  have plain : c ≠ '#' := (List.ne_of_not_mem_cons sign).symm
  rw [stripFrom_code (noMarker_of_not_mem sign), if_neg (by simpa using plain),
    Quote.ofChar?_eq_none_iff.mpr other]

/-- A quote is kept too, and a literal begins. -/
theorem stripFrom_code_quote {q : Quote} (sign : '#' ∉ q.char :: rest) :
    stripFrom .code (q.char :: rest) = q.char :: stripFrom (.literal q) rest := by
  rw [stripFrom_code (noMarker_of_not_mem sign), if_neg (by simpa using q.char_ne_sign),
    Quote.ofChar?_char]

/-- Its other quote ends it. -/
theorem stripFrom_literal_quote (q : Quote) :
    stripFrom (.literal q) (q.char :: rest) = q.char :: stripFrom .code rest := by
  rw [stripFrom_literal q q.char_ne_backslash, if_pos (beq_self_eq_true _)]

end Code

/-- Where there is no number sign and quotes are paired, nothing is dropped. -/
theorem strip_of_quotesPaired {s : Text} (paired : QuotesPaired s) (sign : '#' ∉ s) :
    strip s = s := by
  rw [strip]
  induction paired with
  | nil => rfl
  | other plain _ ih =>
      rw [stripFrom_code_plain sign plain, ih (List.not_mem_of_not_mem_cons sign)]
  | @pair q rest _ ih =>
      have later : '#' ∉ rest := List.not_mem_of_not_mem_cons (List.not_mem_of_not_mem_cons sign)
      rw [stripFrom_code_quote sign, stripFrom_literal_quote, ih later]
  | last q => rw [stripFrom_code_quote sign, stripFrom]

theorem sublist_strip (text : Text) : (strip text).Sublist text :=
  (leaves_stripFrom .code text).sublist

theorem not_mem_strip (text : Text) : '#' ∉ strip text :=
  (leaves_stripFrom .code text).not_mem_sign

theorem quotesPaired_strip (text : Text) : QuotesPaired (strip text) :=
  (leaves_stripFrom .code text).quotesPaired

/-- Stripping is a projection onto code.  Some characters of the text are left, in their order.
There is no number sign among them, and every quote stands directly in front of the one that closes
it, unless it is the last character and not closed.  Stripping what is left changes nothing, and the
texts that it does not change are those that are left of some text. -/
theorem stripping_is_projection (text : Text) :
    (strip text).Sublist text ∧ '#' ∉ strip text ∧ QuotesPaired (strip text) ∧
      strip (strip text) = strip text ∧
      (strip text = text ↔ '#' ∉ text ∧ QuotesPaired text) := by
  refine ⟨sublist_strip text, not_mem_strip text, quotesPaired_strip text,
    strip_of_quotesPaired (quotesPaired_strip text) (not_mem_strip text), ?kept, ?alone⟩
  case kept =>
    intro same
    rw [← same]
    exact ⟨not_mem_strip text, quotesPaired_strip text⟩
  case alone =>
    rintro ⟨sign, paired⟩
    exact strip_of_quotesPaired paired sign

end Balance

end Dragonstone
