/-
# The parts of a line

The roles of a line cut it into parts: characters of code, literals from one quote to the next one
of the same kind, and at the end perhaps a literal that is not closed, or a comment.  Two
descriptions of this stand here.  The first follows the characters and is what the automaton is
proved to give, part by part.  The second speaks of columns: the columns of the quotes, taken in
pairs from left to right, are the ends of the literals, and what is outside of them and in front of
the comment is code.

Both also say that nothing is overlooked.  A backslash escapes the next character unless it is
escaped itself, and whatever begins a literal or a comment and has not done so, or ends a literal
and has not done so, is escaped.
-/

import Dragonstone.Proofs.Role.Reading
import Mathlib.Data.List.Basic

namespace Dragonstone

/-! ### Escaped characters -/

/-- The character behind the text is escaped: a backslash stands in front of it that is not escaped
itself.  The flag tells whether the first character of the text is escaped. -/
def escapesNext (escaped : Bool) (s : Line) : Bool :=
  s.foldl (fun escaped c => c == '\\' && !escaped) escaped

/-- The character in the column is escaped. -/
def isEscaped (line : Line) (column : Nat) : Bool :=
  escapesNext false (line.take column)

theorem escapesNext_append (escaped : Bool) (s t : Line) :
    escapesNext escaped (s ++ t) = escapesNext (escapesNext escaped s) t :=
  List.foldl_append

/-- Every quote of this kind in the text is escaped. -/
def OnlyEscaped (q : Quote) (escaped : Bool) (s : Line) : Prop :=
  ∀ j, s[j]? = some q.char → escapesNext escaped (s.take j) = true

theorem OnlyEscaped.cons {q : Quote} {escaped : Bool} {c : Char} {s : Line}
    (here : c = q.char → escaped = true) (later : OnlyEscaped q (c == '\\' && !escaped) s) :
    OnlyEscaped q escaped (c :: s) := by
  intro j at_
  cases j with
  | zero => exact here (Option.some.inj at_)
  | succ j => exact later j at_

/-! ### Part by part -/

/-- A line, its roles and the quote that is left open, part by part.  The flag tells whether the
first character is escaped. -/
inductive Segmented : Bool → Line → List Role → Option Quote → Prop
  | last {escaped : Bool} : Segmented escaped [] [] none
  | comment (rest : Line) :
      Segmented false ('#' :: rest) (List.replicate (rest.length + 1) .comment) none
  | code {escaped : Bool} {c : Char} {line : Line} {rs : List Role} {open? : Option Quote}
      (plain : escaped = false → c ≠ '#' ∧ ∀ q : Quote, c ≠ q.char)
      (later : Segmented (c == '\\' && !escaped) line rs open?) :
      Segmented escaped (c :: line) (.code :: rs) open?
  | literal {q : Quote} {body line : Line} {rs : List Role} {open? : Option Quote}
      (inner : OnlyEscaped q false body) (closes : escapesNext false body = false)
      (later : Segmented false line rs open?) :
      Segmented false (q.char :: (body ++ q.char :: line))
        (.quote :: (List.replicate body.length .literal ++ .quote :: rs)) open?
  | unclosed {q : Quote} {body : Line} (inner : OnlyEscaped q false body) :
      Segmented false (q.char :: body) (.quote :: List.replicate body.length .literal) (some q)

/-- What follows an opening quote: the rest of its literal, closed or not, and the parts behind. -/
inductive Inside (q : Quote) (escaped : Bool) : Line → List Role → Option Quote → Prop
  | closed {body line : Line} {rs : List Role} {open? : Option Quote}
      (inner : OnlyEscaped q escaped body) (closes : escapesNext escaped body = false)
      (later : Segmented false line rs open?) :
      Inside q escaped (body ++ q.char :: line)
        (List.replicate body.length .literal ++ .quote :: rs) open?
  | unclosed {body : Line} (inner : OnlyEscaped q escaped body) :
      Inside q escaped body (List.replicate body.length .literal) (some q)

theorem Inside.segmented {q : Quote} {s : Line} {rs : List Role} {open? : Option Quote}
    (inside : Inside q false s rs open?) :
    Segmented false (q.char :: s) (.quote :: rs) open? := by
  cases inside with
  | closed inner closes later => exact .literal inner closes later
  | unclosed inner => exact .unclosed inner

theorem Inside.cons {q : Quote} {escaped : Bool} {c : Char} {s : Line} {rs : List Role}
    {open? : Option Quote} (here : c = q.char → escaped = true)
    (inside : Inside q (c == '\\' && !escaped) s rs open?) :
    Inside q escaped (c :: s) (.literal :: rs) open? := by
  cases inside with
  | @closed body line rs _ inner closes later =>
      exact @Inside.closed q escaped (c :: body) line rs _ (inner.cons here) closes later
  | unclosed inner => exact .unclosed (inner.cons here)

/-- The automaton goes part by part. -/
theorem segmented_rolesFrom (line : Line) :
    (∀ escaped, Segmented escaped line (rolesFrom none escaped line).1
      (rolesFrom none escaped line).2) ∧
    ∀ (q : Quote) escaped, Inside q escaped line (rolesFrom (some q) escaped line).1
      (rolesFrom (some q) escaped line).2 := by
  induction line with
  | nil => exact ⟨fun _ => .last, fun q _ => .unclosed fun j none => by cases none⟩
  | cons c rest ih =>
      obtain ⟨outside, inside⟩ := ih
      refine ⟨fun escaped => ?outside, fun q escaped => ?inside⟩
      case outside =>
        obtain ⟨_, rfl, comment⟩ | ⟨role, open', escaped', reading, next⟩ :=
          rolesFrom_cons_cases none escaped c
        · cases escaped with
          | true => exact absurd (comment []) (by decide)
          | false =>
              rw [comment]
              exact .comment rest
        · rw [next]
          cases reading with
          | escaped => exact .code (fun h => by cases h) (by simpa using outside false)
          | backslash char =>
              subst char
              exact .code (fun _ => ⟨by decide, fun q same => q.char_ne_backslash same.symm⟩)
                (outside true)
          | opening char =>
              subst char
              exact (inside _ false).segmented
          | plain backslash sign quote =>
              have flag : (c == '\\') = false := beq_eq_false_iff_ne.mpr backslash
              refine .code (fun _ => ⟨sign rfl, fun q same => ?_⟩)
                (by simpa [flag] using outside false)
              obtain ⟨_, none, _⟩ := quote q same
              cases none
      case inside =>
        obtain ⟨none, _⟩ | ⟨role, open', escaped', reading, next⟩ :=
          rolesFrom_cons_cases (some q) escaped c
        · cases none
        · rw [next]
          cases reading with
          | escaped => exact Inside.cons (fun _ => rfl) (by simpa using inside q false)
          | backslash char =>
              subst char
              exact (inside q true).cons fun same => absurd same.symm q.char_ne_backslash
          | closing char =>
              subst char
              have nothing : OnlyEscaped q false [] := fun j none => by cases none
              exact @Inside.closed q false [] rest _ _ nothing rfl (outside false)
          | plain backslash sign quote =>
              have flag : (c == '\\') = false := beq_eq_false_iff_ne.mpr backslash
              refine Inside.cons (fun same => ?_) (by simpa [flag] using inside q false)
              obtain ⟨_, p, other⟩ := quote q same
              exact absurd (Option.some.inj p).symm other

/-! ### Column by column -/

/-- The columns of the quotes of some roles, from left to right; the first role is that of column
`start`. -/
def quoteColumns (start : Nat) (rs : List Role) : List Nat :=
  rs.idxsOf .quote start

/-- Columns in pairs: the first and the second, the third and the fourth, and so on. -/
def pairs : List Nat → List (Nat × Nat)
  | a :: b :: rest => (a, b) :: pairs rest
  | _ => []

/-- Every column behind `start` and in front of `stop` is part of a literal, and the quote stands
there only escaped. -/
def IsBody (s : Line) (rs : List Role) (q : Quote) (start stop : Nat) : Prop :=
  ∀ i, start < i → i < stop →
    rs[i]? = some .literal ∧ (s[i]? = some q.char → isEscaped s i = true)

/-- In the two columns stand the quotes of a literal. -/
def IsLiteral (s : Line) (rs : List Role) (a b : Nat) : Prop :=
  a < b ∧ ∃ q : Quote, s[a]? = some q.char ∧ s[b]? = some q.char ∧ IsBody s rs q a b

/-- In this column nothing is mistaken: a quote is not escaped, and in code every quote and every
number sign is. -/
structure IsExact (s : Line) (rs : List Role) (i : Nat) : Prop where
  quote : rs[i]? = some .quote → isEscaped s i = false
  plain : rs[i]? = some .code → isEscaped s i = false → ∀ c, s[i]? = some c →
    c ≠ '#' ∧ ∀ q : Quote, c ≠ q.char

/-- Where there is no code, only quotes are to be looked at. -/
theorem IsExact.of_role {s : Line} {rs : List Role} {i : Nat} {role : Role}
    (here : rs[i]? = some role) (noCode : role ≠ .code)
    (free : role = .quote → isEscaped s i = false) : IsExact s rs i where
  quote isQuote := free (Option.some.inj (here.symm.trans isQuote))
  plain isCode := absurd (Option.some.inj (here.symm.trans isCode)) noCode

/-- The end of a line from column `start` on is cut by its roles into code, literals and a comment;
`columns` are those of its quotes, and `open?` is the quote that is left open. -/
structure Partition (s : Line) (rs : List Role) (start : Nat) (columns : List Nat)
    (open? : Option Quote) : Prop where
  /-- From an unescaped number sign to the end of the line there is comment, and nowhere else. -/
  comment : ∃ k, start ≤ k ∧ (∀ i, start ≤ i → (rs[i]? = some .comment ↔ k ≤ i ∧ i < s.length)) ∧
    (k < s.length → s[k]? = some '#' ∧ isEscaped s k = false)
  /-- The quotes in a pair of columns belong to one literal. -/
  paired : ∀ a b, (a, b) ∈ pairs columns → IsLiteral s rs a b
  /-- What is neither in a literal nor in the comment is code. -/
  code : ∀ i, start ≤ i → i < s.length → (∀ a b, (a, b) ∈ pairs columns → ¬ (a ≤ i ∧ i ≤ b)) →
    (∀ a, open?.isSome = true → columns.getLast? = some a → i < a) → rs[i]? ≠ some .comment →
    rs[i]? = some .code
  /-- A quote without a partner is left open. -/
  odd : open?.isSome = true ↔ columns.length % 2 = 1
  /-- It is the last one, and its literal goes on to the end of the line. -/
  unclosed : ∀ q, open? = some q → ∃ a, columns.getLast? = some a ∧ s[a]? = some q.char ∧
    IsBody s rs q a s.length
  /-- Nothing is mistaken. -/
  isExact : ∀ i, start ≤ i → IsExact s rs i

/-! ### From parts to columns -/

theorem getLast?_cons_cons {cs : List Nat} {a b last : Nat} (h : cs.getLast? = some last) :
    (a :: b :: cs).getLast? = some last := by
  rw [List.getLast?_cons, List.getLast?_cons, h]
  rfl

namespace Partition

variable {s : Line} {rs : List Role} {start stop : Nat} {columns : List Nat}
  {open? : Option Quote}

/-- The comment does not begin earlier than before where no more of the line is comment. -/
theorem comment_of_le (later : Partition s rs stop columns open?) (le : start ≤ stop)
    (none : ∀ i, start ≤ i → i < stop → rs[i]? ≠ some .comment) :
    ∃ k, start ≤ k ∧ (∀ i, start ≤ i → (rs[i]? = some .comment ↔ k ≤ i ∧ i < s.length)) ∧
      (k < s.length → s[k]? = some '#' ∧ isEscaped s k = false) := by
  obtain ⟨k, behind, everywhere, sign⟩ := later.comment
  refine ⟨k, Nat.le_trans le behind, fun i from_ => ?_, sign⟩
  obtain before | from_' := Nat.lt_or_ge i stop
  · have further : ¬ (k ≤ i ∧ i < s.length) := by omega
    exact iff_of_false (none i from_ before) further
  · exact everywhere i from_'

/-- In front of more of the line there may be a character of code. -/
theorem cons_code (later : Partition s rs (start + 1) columns open?)
    (role : rs[start]? = some .code) (plain : IsExact s rs start) :
    Partition s rs start columns open? := by
  have split {i : Nat} (from_ : start ≤ i) : i = start ∨ start + 1 ≤ i := by omega
  refine ⟨later.comment_of_le (Nat.le_succ start) fun i from_ to_ => ?_, later.paired, ?code,
    later.odd, later.unclosed, fun i from_ => ?_⟩
  case code =>
    intro i from_ inside outside before noComment
    obtain rfl | behind := split from_
    · exact role
    · exact later.code i behind inside outside before noComment
  · obtain rfl : i = start := by omega
    rw [role]
    exact fun same => by cases same
  · obtain rfl | behind := split from_
    · exact plain
    · exact later.isExact i behind

/-- In front of more of the line there may be a literal. -/
theorem cons_literal (later : Partition s rs (stop + 1) columns open?)
    (literal : IsLiteral s rs start stop) (opens : rs[start]? = some .quote)
    (closes : rs[stop]? = some .quote) (free : isEscaped s start = false)
    (free' : isEscaped s stop = false) :
    Partition s rs start (start :: stop :: columns) open? := by
  obtain ⟨less, q, char, char', body⟩ := literal
  have within {i : Nat} (from_ : start ≤ i) (to_ : i < stop + 1) :
      (rs[i]? = some .quote ∧ isEscaped s i = false) ∨ rs[i]? = some .literal := by
    obtain rfl | rfl | ⟨above, below⟩ : i = start ∨ i = stop ∨ start < i ∧ i < stop := by omega
    · exact .inl ⟨opens, free⟩
    · exact .inl ⟨closes, free'⟩
    · exact .inr (body i above below).1
  have le : start ≤ stop + 1 := by omega
  refine ⟨later.comment_of_le le fun i from_ to_ => ?_, ?paired, ?code, ?odd, ?unclosed,
    fun i from_ => ?_⟩
  case paired =>
    intro a b mem
    obtain same | mem := List.mem_cons.mp mem
    · cases same
      exact ⟨less, q, char, char', body⟩
    · exact later.paired a b mem
  case code =>
    intro i from_ inside outside before noComment
    have behind : stop + 1 ≤ i := by
      have := outside start stop List.mem_cons_self
      omega
    exact later.code i behind inside (fun a b mem => outside a b (List.mem_cons_of_mem _ mem))
      (fun a isOpen last => before a isOpen (getLast?_cons_cons last)) noComment
  case odd =>
    rw [later.odd]
    simp only [List.length_cons]
    omega
  case unclosed =>
    intro q isOpen
    obtain ⟨a, last, rest⟩ := later.unclosed q isOpen
    exact ⟨a, getLast?_cons_cons last, rest⟩
  · obtain ⟨role, _⟩ | role := within from_ to_
    all_goals
      rw [role]
      exact fun same => by cases same
  · obtain before | behind := Nat.lt_or_ge i (stop + 1)
    · obtain ⟨role, free⟩ | role := within from_ before
      · exact .of_role role (by decide) fun _ => free
      · exact .of_role role (by decide) fun isQuote => by cases isQuote
    · exact later.isExact i behind

/-- At the end of the line there may be a literal that is not closed. -/
theorem of_unclosed {q : Quote} (char : s[start]? = some q.char)
    (opens : rs[start]? = some .quote) (free : isEscaped s start = false)
    (length : rs.length = s.length) (body : IsBody s rs q start s.length) :
    Partition s rs start [start] (some q) := by
  have within {i : Nat} (from_ : start ≤ i) {role : Role} (here : rs[i]? = some role) :
      (i = start ∧ role = .quote) ∨ role = .literal := by
    obtain rfl | above := Nat.eq_or_lt_of_le from_
    · exact .inl ⟨rfl, Option.some.inj (here.symm.trans opens)⟩
    · have inside : i < s.length := length ▸ (List.getElem?_eq_some_iff.mp here).1
      exact .inr (Option.some.inj (here.symm.trans (body i above inside).1))
  refine ⟨⟨max start s.length, ?above, ?comment, ?sign⟩, ?paired, ?code, ?odd, ?unclosed, ?isExact⟩
  case above => exact Nat.le_max_left _ _
  case comment =>
    intro i from_
    refine iff_of_false (fun isComment => ?_) (by omega)
    obtain ⟨_, role⟩ | role := within from_ isComment <;> cases role
  case sign =>
    intro below
    omega
  case paired =>
    intro a b none
    cases none
  case code =>
    intro i from_ _ _ before
    have := before start rfl rfl
    omega
  case odd => exact iff_of_true rfl rfl
  case unclosed =>
    intro q' same
    cases same
    exact ⟨start, rfl, char, body⟩
  case isExact =>
    intro i from_
    constructor
    · intro isQuote
      obtain ⟨rfl, _⟩ | role := within from_ isQuote
      · exact free
      · cases role
    · intro isCode
      obtain ⟨_, role⟩ | role := within from_ isCode <;> cases role

/-- The line may end, or the rest of it be comment. -/
theorem of_comment (length : rs.length = s.length)
    (role : ∀ i, start ≤ i → i < s.length → rs[i]? = some .comment)
    (sign : start < s.length → s[start]? = some '#' ∧ isEscaped s start = false) :
    Partition s rs start [] none := by
  have within {i : Nat} (from_ : start ≤ i) {other : Role} (here : rs[i]? = some other) :
      other = .comment := by
    have inside : i < s.length := length ▸ (List.getElem?_eq_some_iff.mp here).1
    exact Option.some.inj (here.symm.trans (role i from_ inside))
  refine ⟨⟨start, Nat.le_refl start, ?comment, sign⟩, ?paired, ?code, ?odd, ?unclosed, ?isExact⟩
  case comment =>
    intro i from_
    constructor
    · intro here
      exact ⟨from_, length ▸ (List.getElem?_eq_some_iff.mp here).1⟩
    · rintro ⟨_, inside⟩
      exact role i from_ inside
  case paired =>
    intro a b none
    cases none
  case code =>
    intro i from_ inside _ _ none
    exact absurd (role i from_ inside) none
  case odd => exact iff_of_false Bool.false_ne_true (by decide)
  case unclosed =>
    intro q none
    cases none
  case isExact =>
    intro i from_
    constructor
    · intro isQuote
      cases within from_ isQuote
    · intro isCode
      cases within from_ isCode

end Partition

/-- In front of column `start` the automaton has `rest` to read, with the given roles. -/
structure Reaches (s : Line) (rs : List Role) (start : Nat) (escaped : Bool) (rest : Line)
    (restRoles : List Role) : Prop where
  chars : s.drop start = rest
  roles : rs.drop start = restRoles
  flag : isEscaped s start = escaped

namespace Reaches

variable {s : Line} {rs : List Role} {start : Nat} {escaped : Bool} {front back : Line}
  {frontRoles backRoles : List Role}

theorem getElem? (reaches : Reaches s rs start escaped front frontRoles) (j : Nat) :
    s[start + j]? = front[j]? ∧ rs[start + j]? = frontRoles[j]? := by
  rw [← reaches.chars, ← reaches.roles, List.getElem?_drop, List.getElem?_drop]
  exact ⟨rfl, rfl⟩

theorem isEscaped_add (reaches : Reaches s rs start escaped (front ++ back) frontRoles) {j : Nat}
    (le : j ≤ front.length) : isEscaped s (start + j) = escapesNext escaped (front.take j) := by
  rw [isEscaped, List.take_add, escapesNext_append, reaches.chars,
    List.take_append_of_le_length le, ← reaches.flag]
  rfl

theorem behind (front : Line) (frontRoles : List Role)
    (reaches : Reaches s rs start escaped (front ++ back) (frontRoles ++ backRoles))
    (same : frontRoles.length = front.length) :
    Reaches s rs (start + front.length) (escapesNext escaped front) back backRoles := by
  refine ⟨?_, ?_, ?_⟩
  · rw [← List.drop_drop, reaches.chars, List.drop_left]
  · rw [← List.drop_drop, reaches.roles, ← same, List.drop_left]
  · rw [reaches.isEscaped_add (Nat.le_refl _), List.take_length]

/-- A quote escapes nothing. -/
theorem behind_quote {q : Quote}
    (reaches : Reaches s rs start escaped (q.char :: back) (.quote :: backRoles)) :
    Reaches s rs (start + 1) false back backRoles := by
  have free : escapesNext escaped [q.char] = false := by
    simp [escapesNext, q.char_ne_backslash]
  exact free ▸ reaches.behind [q.char] [.quote] rfl

theorem isBody {q : Quote}
    (reaches : Reaches s rs (start + 1) false (front ++ back)
      (List.replicate front.length .literal ++ backRoles))
    (inner : OnlyEscaped q false front) : IsBody s rs q start (start + 1 + front.length) := by
  intro i above below
  obtain ⟨j, rfl⟩ := Nat.exists_eq_add_of_le (show start + 1 ≤ i from above)
  have inside : j < front.length := by omega
  obtain ⟨char, role⟩ := reaches.getElem? j
  rw [char, role, List.getElem?_append_left inside, reaches.isEscaped_add (Nat.le_of_lt inside),
    List.getElem?_append_left (by simpa using inside), List.getElem?_replicate, if_pos inside]
  exact ⟨rfl, inner j⟩

end Reaches

theorem quoteColumns_replicate {role : Role} (other : role ≠ .quote) (start n : Nat) :
    quoteColumns start (List.replicate n role) = [] := by
  induction n generalizing start with
  | zero => rfl
  | succ n ih =>
      rw [List.replicate_succ, quoteColumns, List.idxsOf_cons, if_neg (by simpa using other)]
      exact ih (start + 1)

theorem quoteColumns_quote (start : Nat) (rs : List Role) :
    quoteColumns start (.quote :: rs) = start :: quoteColumns (start + 1) rs :=
  List.idxsOf_cons

theorem quoteColumns_code (start : Nat) (rs : List Role) :
    quoteColumns start (.code :: rs) = quoteColumns (start + 1) rs :=
  List.idxsOf_cons

theorem quoteColumns_literal (start n : Nat) (rs : List Role) :
    quoteColumns start (List.replicate n .literal ++ rs) = quoteColumns (start + n) rs := by
  have none : (List.replicate n Role.literal).idxsOf .quote start = [] :=
    quoteColumns_replicate (by decide) start n
  rw [quoteColumns, List.idxsOf_append, none, List.length_replicate]
  rfl

/-- What is cut part by part is cut column by column. -/
theorem Segmented.partition {s rest : Line} {rs restRoles : List Role} {start : Nat}
    {escaped : Bool} {open? : Option Quote} (segmented : Segmented escaped rest restRoles open?)
    (length : rs.length = s.length) (reaches : Reaches s rs start escaped rest restRoles) :
    Partition s rs start (quoteColumns start restRoles) open? := by
  induction segmented generalizing start with
  | last =>
      have ends : s.length ≤ start := List.drop_eq_nil_iff.mp reaches.chars
      refine .of_comment length (fun i from_ inside => ?_) fun inside => ?_
      all_goals omega
  | comment rest =>
      rw [quoteColumns_replicate (by decide)]
      refine .of_comment length (fun i from_ inside => ?_) fun inside => ?_
      · obtain ⟨j, rfl⟩ := Nat.exists_eq_add_of_le from_
        have here := List.getElem?_eq_getElem (length ▸ inside : start + j < rs.length)
        have role := here.symm.trans (reaches.getElem? j).2
        rw [here, List.eq_of_mem_replicate (List.mem_of_getElem? role.symm)]
      · exact ⟨(reaches.getElem? 0).1, reaches.flag⟩
  | @code escaped c later rs' open? plain _ ih =>
      rw [quoteColumns_code]
      refine (ih (reaches.behind [c] [.code] rfl)).cons_code
        (reaches.getElem? 0).2 ⟨fun isQuote => ?_, fun _ free d char => ?_⟩
      · cases (reaches.getElem? 0).2.symm.trans isQuote
      · cases (reaches.getElem? 0).1.symm.trans char
        exact plain (reaches.flag.symm.trans free)
  | @literal q body later rs' open? inner closes _ ih =>
      rw [quoteColumns_quote, quoteColumns_literal, quoteColumns_quote]
      have opened := reaches.behind_quote
      have ended := opened.behind body (List.replicate body.length .literal) List.length_replicate
      have stop := ended.getElem? 0
      refine (ih ended.behind_quote).cons_literal
        ⟨by omega, q, (reaches.getElem? 0).1, stop.1, opened.isBody inner⟩
        (reaches.getElem? 0).2 stop.2 reaches.flag (ended.flag.trans closes)
  | @unclosed q body inner =>
      have opened := reaches.behind_quote
      have nothing : quoteColumns (start + 1) (List.replicate body.length .literal) = [] :=
        quoteColumns_replicate (by decide) _ _
      have total : s.length = start + 1 + body.length := by
        have rest := congrArg List.length opened.chars
        have inside := (List.getElem?_eq_some_iff.mp (reaches.getElem? 0).1).1
        rw [List.length_drop] at rest
        omega
      rw [quoteColumns_quote, nothing]
      refine .of_unclosed (reaches.getElem? 0).1 (reaches.getElem? 0).2 reaches.flag length ?_
      rw [total]
      have whole : Reaches s rs (start + 1) false (body ++ [])
          (List.replicate body.length .literal ++ []) := by
        simpa only [List.append_nil] using opened
      exact whole.isBody inner

/-- The roles of a line are a lexical partition of it.  Every character has one role.  A comment is
the end of the line, and begins with a number sign.  The quotes, paired from left to right, are
those of literals: both are of one kind, and between them there is nothing but literal.  The number
of quotes is odd exactly if a quote is left open, which is the last one, and everything behind it is
literal.  All else is code.  No quote is overlooked, nor the beginning of a comment, unless it is
escaped. -/
theorem roles_partition_line (line : Line) :
    (roles line).length = line.length ∧
      Partition line (roles line) 0 (quoteColumns 0 (roles line)) (unclosedQuote? line) :=
  ⟨length_roles line,
    ((segmented_rolesFrom line).1 false).partition (length_roles line) ⟨rfl, rfl, rfl⟩⟩

end Dragonstone
