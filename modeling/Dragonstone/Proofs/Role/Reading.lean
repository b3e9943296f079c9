/-
# One character of the automaton

The automaton that gives roles to the characters of a line knows two things in front of a character:
the quote that is open, and whether a backslash stands before it.  What one character does to this
is told here once, one case after another.  The only other thing that can happen is that a comment
begins, and then the rest of the line is comment.

Two facts about neighbouring roles follow.  Code and literals never touch: a quote stands between
them.  And behind code a comment begins with a number sign.
-/

import Dragonstone.Role
import Dragonstone.Text.Word

namespace Dragonstone

/-- What a character does in front of which the given quote is open, escaped or not: its role, the
quote that is open behind it, and whether it escapes the next character. -/
inductive Reading (c : Char) : Option Quote → Bool → Role → Option Quote → Bool → Prop
  | escaped {open? : Option Quote} : Reading c open? true (.inside open?) open? false
  | backslash {open? : Option Quote} (char : c = '\\') :
      Reading c open? false (.inside open?) open? true
  | opening {q : Quote} (char : c = q.char) : Reading c none false .quote (some q) false
  | closing {q : Quote} (char : c = q.char) : Reading c (some q) false .quote none false
  /-- No backslash, no quote that opens or closes a literal, and no beginning of a comment. -/
  | plain {open? : Option Quote} (char : c ≠ '\\') (sign : open? = none → c ≠ '#')
      (quote : ∀ q : Quote, c = q.char → ∃ p, open? = some p ∧ p ≠ q) :
      Reading c open? false (.inside open?) open? false

theorem Quote.char_of_ofChar? {c : Char} {q : Quote} (h : Quote.ofChar? c = some q) :
    c = q.char := by
  have same : (q.char == c) = true := List.find?_some (p := fun q : Quote => q.char == c) h
  exact (beq_iff_eq.mp same).symm

theorem Quote.ofChar?_eq_none_iff {c : Char} : ofChar? c = none ↔ ∀ q : Quote, c ≠ q.char := by
  constructor
  · rintro none q rfl
    rw [ofChar?_char] at none
    cases none
  · intro other
    rw [Option.eq_none_iff_forall_ne_some]
    exact fun q found => other q (char_of_ofChar? found)

theorem Quote.char_ne_backslash (q : Quote) : q.char ≠ '\\' := by
  cases q <;> decide

theorem Quote.char_ne_sign (q : Quote) : q.char ≠ '#' := by
  cases q <;> decide

theorem Quote.char_ne_feed (q : Quote) : q.char ≠ '\n' := by
  cases q <;> decide

theorem Quote.isWordChar_char (q : Quote) : isWordChar q.char = false := by
  cases q <;> decide

/-- A reading tells how the automaton goes on. -/
theorem Reading.rolesFrom_cons {c : Char} {open? open' : Option Quote} {escaped escaped' : Bool}
    {role : Role} (reading : Reading c open? escaped role open' escaped') (rest : Line) :
    rolesFrom open? escaped (c :: rest) =
      (role :: (rolesFrom open' escaped' rest).1, (rolesFrom open' escaped' rest).2) := by
  cases reading with
  | escaped => simp [rolesFrom]
  | backslash char => simp [rolesFrom, char]
  | @opening q char => simp [rolesFrom, char, q.char_ne_backslash, q.char_ne_sign]
  | @closing q char => simp [rolesFrom, char, q.char_ne_backslash]
  | plain char sign quote =>
      have noComment : (open?.isNone && c == '#') = false := by
        cases open? with
        | none => simpa using sign rfl
        | some q => rfl
      cases found : Quote.ofChar? c with
      | none => simp [rolesFrom, char, noComment, found]
      | some q =>
          obtain ⟨p, rfl, other⟩ := quote q (Quote.char_of_ofChar? found)
          simp [rolesFrom, char, found, other.symm]

/-- Outside literals, a character that begins nothing is code. -/
theorem rolesFrom_cons_of_plain {c : Char} (escape : c ≠ '\\') (sign : c ≠ '#')
    (other : ∀ q : Quote, c ≠ q.char) (rest : Line) :
    rolesFrom none false (c :: rest) =
      (.code :: (rolesFrom none false rest).1, (rolesFrom none false rest).2) := by
  have reading : Reading c none false .code none false :=
    .plain escape (fun _ => sign) fun q same => absurd same (other q)
  exact reading.rolesFrom_cons rest

/-- A character in a given state begins a comment, whatever stands behind it, or the automaton reads
it and goes on with the rest. -/
theorem rolesFrom_cons_cases (open? : Option Quote) (escaped : Bool) (c : Char) :
    (open? = none ∧ c = '#' ∧ ∀ rest,
        rolesFrom open? escaped (c :: rest) = (List.replicate (rest.length + 1) .comment, none)) ∨
      ∃ role open' escaped', Reading c open? escaped role open' escaped' ∧ ∀ rest,
        rolesFrom open? escaped (c :: rest) =
          (role :: (rolesFrom open' escaped' rest).1, (rolesFrom open' escaped' rest).2) := by
  have read {role : Role} {open' : Option Quote} {escaped' : Bool}
      (reading : Reading c open? escaped role open' escaped') :
      ∃ role open' escaped', Reading c open? escaped role open' escaped' ∧ ∀ rest,
        rolesFrom open? escaped (c :: rest) =
          (role :: (rolesFrom open' escaped' rest).1, (rolesFrom open' escaped' rest).2) :=
    ⟨role, open', escaped', reading, reading.rolesFrom_cons⟩
  cases escaped with
  | true => exact .inr (read .escaped)
  | false =>
      by_cases backslash : c = '\\'
      · exact .inr (read (.backslash backslash))
      by_cases comment : open? = none ∧ c = '#'
      · refine .inl ⟨comment.1, comment.2, fun rest => ?_⟩
        simp [rolesFrom, comment.1, comment.2]
      right
      have sign : open? = none → c ≠ '#' := fun none char => comment ⟨none, char⟩
      cases found : Quote.ofChar? c with
      | none =>
          have other := Quote.ofChar?_eq_none_iff.mp found
          exact read (.plain backslash sign fun q char => absurd char (other q))
      | some q =>
          have char := Quote.char_of_ofChar? found
          cases open? with
          | none => exact read (.opening char)
          | some p =>
              by_cases same : q = p
              · subst same
                exact read (.closing char)
              · refine read (.plain backslash sign ?_)
                rintro q' rfl
                obtain rfl : q' = q := by simpa using found
                exact ⟨p, rfl, fun h => same h.symm⟩

theorem Reading.char_of_quote {c : Char} {open? open' : Option Quote} {escaped escaped' : Bool}
    {role : Role} (reading : Reading c open? escaped role open' escaped') (quote : role = .quote) :
    ∃ q : Quote, c = q.char := by
  cases reading with
  | @opening q char | @closing q char => exact ⟨q, char⟩
  | escaped | backslash | plain => cases open? <;> cases quote

/-! ### Neighbouring roles -/

/-- Outside literals, the first role is no literal, and a comment begins with a number sign. -/
theorem head_roles_of_none {escaped : Bool} {s : Line} {role : Role}
    (head : (rolesFrom none escaped s).1[0]? = some role) :
    role ≠ .literal ∧ (role = .comment → s[0]? = some '#') := by
  cases s with
  | nil => cases head
  | cons c rest =>
      obtain ⟨_, rfl, comment⟩ | ⟨first, open', escaped', reading, next⟩ :=
        rolesFrom_cons_cases none escaped c
      · rw [comment] at head
        cases head
        exact ⟨Role.noConfusion, fun _ => rfl⟩
      · rw [next] at head
        cases head
        cases reading <;> exact ⟨Role.noConfusion, Role.noConfusion⟩

/-- Inside a literal, the first role is part of the literal or its closing quote. -/
theorem head_roles_of_some {q : Quote} {escaped : Bool} {s : Line} {role : Role}
    (head : (rolesFrom (some q) escaped s).1[0]? = some role) :
    role = .literal ∨ role = .quote := by
  cases s with
  | nil => cases head
  | cons c rest =>
      obtain ⟨none, _⟩ | ⟨first, open', escaped', reading, next⟩ :=
        rolesFrom_cons_cases (some q) escaped c
      · cases none
      · rw [next] at head
        cases head
        cases reading with
        | closing => exact .inr rfl
        | escaped | backslash | plain => exact .inl rfl

/-- Behind a literal the literal goes on or is closed, a comment goes on, and behind code there is
no literal, and a comment only from a number sign on. -/
theorem neighbouring_roles {open? : Option Quote} {escaped : Bool} {s : Line} {i : Nat}
    {role next : Role} (here : (rolesFrom open? escaped s).1[i]? = some role)
    (behind : (rolesFrom open? escaped s).1[i + 1]? = some next) :
    (role = .literal → next = .literal ∨ next = .quote) ∧ (role = .comment → next = .comment) ∧
      (role = .code → next ≠ .literal ∧ (next = .comment → s[i + 1]? = some '#')) := by
  induction s generalizing open? escaped i with
  | nil => cases here
  | cons c rest ih =>
      obtain ⟨_, _, comment⟩ | ⟨first, open', escaped', reading, step⟩ :=
        rolesFrom_cons_cases open? escaped c
      · rw [comment] at here behind
        obtain rfl := List.eq_of_mem_replicate (List.mem_of_getElem? here)
        obtain rfl := List.eq_of_mem_replicate (List.mem_of_getElem? behind)
        exact ⟨Role.noConfusion, fun _ => rfl, Role.noConfusion⟩
      · rw [step] at here behind
        cases i with
        | succ i => exact ih here behind
        | zero =>
            cases here
            cases reading with
            | opening | closing => exact ⟨Role.noConfusion, Role.noConfusion, Role.noConfusion⟩
            | escaped | backslash char | plain char sign quote =>
                cases open? with
                | none =>
                    exact ⟨Role.noConfusion, Role.noConfusion, fun _ => head_roles_of_none behind⟩
                | some q =>
                    exact ⟨fun _ => head_roles_of_some behind, Role.noConfusion, Role.noConfusion⟩

/-- What has the role of a quote is one. -/
theorem char_of_quote_role {open? : Option Quote} {escaped : Bool} {s : Line} {i : Nat}
    (role : (rolesFrom open? escaped s).1[i]? = some .quote) :
    ∃ q : Quote, s[i]? = some q.char := by
  induction s generalizing open? escaped i with
  | nil => cases role
  | cons c rest ih =>
      obtain ⟨_, _, comment⟩ | ⟨first, open', escaped', reading, step⟩ :=
        rolesFrom_cons_cases open? escaped c
      · rw [comment] at role
        cases List.eq_of_mem_replicate (List.mem_of_getElem? role)
      · rw [step] at role
        cases i with
        | succ i => exact ih role
        | zero =>
            obtain ⟨q, rfl⟩ := reading.char_of_quote (Option.some.inj role)
            exact ⟨q, rfl⟩

/-! ### The mask -/

/-- The mask shows a character of the line, or a space in its place. -/
theorem getElem?_mask_eq_some_iff {s : Line} {i : Nat} {c : Char} :
    (mask s)[i]? = some c ↔
      ∃ role d, (roles s)[i]? = some role ∧ s[i]? = some d ∧ role.masked d = c :=
  List.getElem?_zipWith_eq_some

/-- A letter that the mask shows is a character of code. -/
theorem code_of_wordChar_mask {s : Line} {i : Nat} {c : Char}
    (shown : (mask s)[i]? = some c) (letter : isWordChar c = true) :
    s[i]? = some c ∧ (roles s)[i]? = some .code := by
  obtain ⟨role, d, here, char, rfl⟩ := getElem?_mask_eq_some_iff.mp shown
  cases role with
  | code => exact ⟨char, here⟩
  | literal | comment => cases (show isWordChar ' ' = true from letter)
  | quote =>
      obtain ⟨q, quote⟩ := char_of_quote_role here
      obtain rfl : d = q.char := Option.some.inj (char.symm.trans quote)
      cases q.isWordChar_char.symm.trans letter

end Dragonstone
