/-
# Masking is a projection

The mask of a line is a line again, and masking it once more changes nothing.  For this the
automaton has to read the mask in the states in which it read the line.  It does, although the
backslashes of a literal are gone: a character that was escaped there is a space now, and so is the
backslash in front of it, so nothing is left that would have to be escaped.  In code every character
stands as before, backslashes too.  The comment is the one part that is read differently, since
nothing is left of its sign: its spaces are code.
-/

import Dragonstone.Proofs.Role.Reading

namespace Dragonstone

/-- The role of a column once the line is masked.  What was a comment is blank code. -/
def Role.afterMask : Role → Role
  | .comment => .code
  | role => role

/-- A character that is masked already stays as the mask shows it. -/
theorem Role.masked_masked (role : Role) (c : Char) :
    role.afterMask.masked (role.masked c) = role.masked c := by
  cases role <;> rfl

theorem Role.afterMask_inside (open? : Option Quote) : (inside open?).afterMask = inside open? := by
  cases open? <;> rfl

/-! ### One character -/

namespace Reading

/-- A space is read in any state and leaves the quote that is open. -/
theorem space (open? : Option Quote) : Reading ' ' open? false (.inside open?) open? false := by
  refine .plain (by decide) (fun _ => by decide) fun q same => ?_
  cases q <;> cases same

variable {c : Char} {open? open' : Option Quote} {escaped escaped' : Bool} {role : Role}

/-- What is read is no comment. -/
theorem afterMask_eq (reading : Reading c open? escaped role open' escaped') :
    role.afterMask = role := by
  cases reading with
  | opening | closing => rfl
  | escaped | backslash | plain => exact Role.afterMask_inside open?

/-- What the mask shows of a character is read in the same state and leads to the same state, apart
from backslashes: none of a literal is left, so nothing is escaped there. -/
theorem masked (reading : Reading c open? escaped role open' escaped') :
    Reading (role.masked c) open? (escaped && open?.isNone) role open'
      (escaped' && open'.isNone) := by
  cases open? with
  | none =>
      -- Nothing is masked outside of literals.
      cases reading with
      | escaped => exact .escaped
      | backslash char => exact .backslash char
      | opening char => exact .opening char
      | plain char sign quote => exact .plain char sign quote
  | some q =>
      cases reading with
      | closing char =>
          rw [Bool.false_and]
          exact .closing char
      | escaped | backslash | plain =>
          simp only [Option.isNone_some, Bool.and_false]
          exact .space (some q)

end Reading

/-! ### A whole line -/

/-- Outside literals, spaces are code. -/
theorem rolesFrom_spaces (n : Nat) :
    rolesFrom none false (List.replicate n ' ') = (List.replicate n .code, none) := by
  induction n with
  | zero => rfl
  | succ n ih => rw [List.replicate_succ, (Reading.space none).rolesFrom_cons, ih]; rfl

/-- Nothing of a comment is shown. -/
theorem zipWith_masked_comment (s : Line) :
    List.zipWith Role.masked (List.replicate s.length .comment) s =
      List.replicate s.length ' ' := by
  induction s with
  | nil => rfl
  | cons c s ih =>
      rw [List.length_cons, List.replicate_succ, List.zipWith_cons_cons, ih]
      rfl

/-- A line comment is masked whole. -/
theorem mask_comment (rest : Line) :
    mask ('#' :: rest) = List.replicate (rest.length + 1) ' ' :=
  zipWith_masked_comment ('#' :: rest)

/-- The automaton reads what the mask shows of a line as it reads the line, from any state on; only
a comment becomes code. -/
theorem rolesFrom_masked (open? : Option Quote) (escaped : Bool) (line : Line) :
    rolesFrom open? (escaped && open?.isNone)
        (List.zipWith Role.masked (rolesFrom open? escaped line).1 line) =
      ((rolesFrom open? escaped line).1.map Role.afterMask, (rolesFrom open? escaped line).2) := by
  induction line generalizing open? escaped with
  | nil => rfl
  | cons c rest ih =>
      obtain ⟨rfl, rfl, comment⟩ | ⟨role, open', escaped', reading, next⟩ :=
        rolesFrom_cons_cases open? escaped c
      · cases escaped with
        | true => exact absurd (comment []) (by decide)
        | false =>
            have blank : List.zipWith Role.masked (List.replicate (rest.length + 1) .comment)
                ('#' :: rest) = List.replicate (rest.length + 1) ' ' := mask_comment rest
            rw [comment, blank, Bool.false_and, rolesFrom_spaces, List.map_replicate]
            rfl
      · rw [next, List.zipWith_cons_cons, reading.masked.rolesFrom_cons, ih, List.map_cons,
          reading.afterMask_eq]

theorem rolesFrom_mask (line : Line) :
    rolesFrom none false (mask line) = ((roles line).map Role.afterMask, unclosedQuote? line) :=
  rolesFrom_masked none false line

theorem roles_mask (line : Line) : roles (mask line) = (roles line).map Role.afterMask := by
  rw [roles, rolesFrom_mask]

theorem mask_mask (line : Line) : mask (mask line) = mask line := by
  rw [mask, roles_mask, mask]
  generalize roles line = rs
  induction rs generalizing line with
  | nil => rfl
  | cons role rs ih =>
      cases line with
      | nil => rfl
      | cons c line =>
          rw [List.zipWith_cons_cons, List.map_cons, List.zipWith_cons_cons, role.masked_masked, ih]

/-- In every column the mask shows what the role there lets through. -/
theorem exists_getElem?_mask {s : Line} {i : Nat} {role : Role}
    (here : (roles s)[i]? = some role) :
    ∃ c, s[i]? = some c ∧ (mask s)[i]? = some (role.masked c) := by
  have inside : i < s.length := by
    rw [← length_roles s]
    exact (List.getElem?_eq_some_iff.mp here).1
  have char := List.getElem?_eq_getElem inside
  exact ⟨s[i], char, getElem?_mask_eq_some_iff.mpr ⟨role, s[i], here, char, rfl⟩⟩

/-- Masking is a projection.  It keeps the length of a line and all that is code or a quote, and it
blanks everything else.  A mask is its own mask.  The quote that is left open is the same in the
line and in its mask, and so are the roles, except that a comment has become code. -/
theorem masking_is_projection (s : Line) :
    (mask s).length = s.length ∧
      (∀ i : Nat, (roles s)[i]? = some .code ∨ (roles s)[i]? = some .quote →
        (mask s)[i]? = s[i]?) ∧
      (∀ i : Nat, (roles s)[i]? = some .literal ∨ (roles s)[i]? = some .comment →
        (mask s)[i]? = some ' ') ∧
      mask (mask s) = mask s ∧
      unclosedQuote? (mask s) = unclosedQuote? s ∧
      roles (mask s) = (roles s).map Role.afterMask := by
  refine ⟨length_mask s, ?shown, ?blank, mask_mask s, ?quote, roles_mask s⟩
  case shown =>
    rintro i (code | quote)
    · obtain ⟨c, char, same⟩ := exists_getElem?_mask code
      exact same.trans char.symm
    · obtain ⟨c, char, same⟩ := exists_getElem?_mask quote
      exact same.trans char.symm
  case blank =>
    rintro i (literal | comment)
    · obtain ⟨_, _, space⟩ := exists_getElem?_mask literal
      exact space
    · obtain ⟨_, _, space⟩ := exists_getElem?_mask comment
      exact space
  case quote => rw [unclosedQuote?, rolesFrom_mask]

end Dragonstone
