/-
# Texts, lines and blank characters

A document is handled as the plain sequence of its characters, so that columns, offsets and
lengths all count characters.  Two notions of blank coexist.  The grammar of the language knows
six blank characters, all of them ASCII; the layout of a document (what counts as an empty line,
what is indentation) goes by every space character of Unicode.  The first notion is contained in
the second, which is what keeps the two views of one line compatible.
-/

namespace Dragonstone

/-- A text is the sequence of its characters. -/
abbrev Text := List Char

/-- A line is the text between two line breaks. -/
abbrev Line := List Char

/-- Texts are ordered by the code points of their characters, the first difference deciding. -/
def precedes (a b : Text) : Bool :=
  List.lex a b fun c d => c.toNat < d.toNat

/-- The six blank characters of the grammar: space, tab, line feed, carriage return, vertical tab
and form feed. -/
def isBlank (c : Char) : Bool :=
  c == ' ' || (9 ≤ c.toNat && c.toNat ≤ 13)

/-- The space characters of Unicode, together with the four ASCII separators. -/
def isSpace (c : Char) : Bool :=
  let n := c.toNat
  (9 ≤ n && n ≤ 13) || (0x1c ≤ n && n ≤ 0x20) || n == 0x85 || n == 0xa0 || n == 0x1680 ||
    (0x2000 ≤ n && n ≤ 0x200a) || n == 0x2028 || n == 0x2029 || n == 0x202f || n == 0x205f ||
    n == 0x3000

/-- What the grammar calls blank is also a space of the layout. -/
theorem isSpace_of_isBlank {c : Char} (h : isBlank c = true) : isSpace c = true := by
  have : c.toNat = 32 ∨ (9 ≤ c.toNat ∧ c.toNat ≤ 13) := by
    simp only [isBlank, Bool.or_eq_true, Bool.and_eq_true, beq_iff_eq, decide_eq_true_eq] at h
    rcases h with h | h
    · left; subst h; rfl
    · exact Or.inr h
  simp only [isSpace, Bool.or_eq_true, Bool.and_eq_true, beq_iff_eq, decide_eq_true_eq]
  omega

def skipBlanks (s : Text) : Text :=
  s.dropWhile isBlank

/-- The leading run of spaces, which is the indentation of a line. -/
def leadingSpace (s : Text) : Text :=
  s.takeWhile isSpace

/-- The first character of a line that is not a space. -/
def firstInk (s : Text) : Option Char :=
  (s.dropWhile isSpace).head?

def startsBlank : Text → Bool
  | [] => false
  | c :: _ => isBlank c

/-- The text after at least one blank, if there is one. -/
def afterGap? (s : Text) : Option Text :=
  if startsBlank s then some (skipBlanks s) else none

/-- A gap takes at least one character. -/
theorem length_lt_of_afterGap? {s rest : Text} (h : afterGap? s = some rest) :
    rest.length < s.length := by
  match s with
  | [] => simp [afterGap?, startsBlank] at h
  | c :: after =>
    by_cases blank : isBlank c = true
    · have shorter := (List.dropWhile_suffix (l := after) isBlank).length_le
      simp only [afterGap?, startsBlank, skipBlanks, List.dropWhile_cons, blank, if_true,
        Option.some.injEq] at h
      subst h
      simpa using Nat.lt_succ_of_le shorter
    · simp [afterGap?, startsBlank, blank] at h

end Dragonstone
