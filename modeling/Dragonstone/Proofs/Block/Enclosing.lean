/-
# The blocks around a line

The checker asks its stack which blocks are open.  In a document that is well nested the stack
answers as the grammar does.  A block is cut into sections: the first reaches from its opening to
its first branch, the others from one branch to the next, and the last ends where the block ends.
In front of a line, the stack holds one frame for every section that the line stands in, and no
other.

A frame is told by the line that put it on the stack.  One direction of the proof therefore goes by
the numbers of lines, which grow; the other goes by the height of the stack, which nothing within a
body brings below the frame.
-/

import Dragonstone.Proofs.Indentation.Level

namespace Dragonstone

open Vocabulary

namespace Block

/-! ### The parts of a document -/

/-- A line of code, and what its mask does to the stack of open blocks. -/
structure LineForm where
  line : Nat
  form : Form
  deriving DecidableEq, Repr

def LineForm.token (p : LineForm) : Token :=
  p.form.token

/-- The frame that a part puts on the stack. -/
def LineForm.frame? (p : LineForm) : Option Frame :=
  match p.form with
  | .opening keyword => some ⟨keyword, p.line⟩
  | .branch keyword false => some ⟨keyword, p.line⟩
  | _ => none

/-- The stack of open blocks after some parts. -/
def stackAfter (stack : List Frame) (ps : List LineForm) : List Frame :=
  ps.foldl (fun stack p => (feed p.line stack p.form).1) stack

@[simp] theorem stackAfter_nil (stack : List Frame) : stackAfter stack [] = stack :=
  rfl

@[simp] theorem stackAfter_cons (stack : List Frame) (p : LineForm) (ps : List LineForm) :
    stackAfter stack (p :: ps) = stackAfter (feed p.line stack p.form).1 ps :=
  rfl

@[simp] theorem stackAfter_append (stack : List Frame) (ps qs : List LineForm) :
    stackAfter stack (ps ++ qs) = stackAfter (stackAfter stack ps) qs :=
  List.foldl_append

variable {stack under : List Frame} {frame : Frame} {p : LineForm} {ps : List LineForm} {n : Nat}
  {form : Form}

theorem line_of_frame? (pushes : p.frame? = some frame) : frame.line = p.line := by
  unfold LineForm.frame? at pushes
  split at pushes
  all_goals cases pushes
  all_goals rfl

/-- A frame on the stack was there before, or the part has put it there. -/
theorem mem_feed (mem : frame ∈ (feed p.line stack p.form).1) :
    frame ∈ stack ∨ p.frame? = some frame := by
  obtain ⟨line, form⟩ := p
  cases form with
  | branch keyword closed =>
      cases stack with
      | nil => cases mem
      | cons top outer =>
          cases closed with
          | true => exact .inl (List.mem_cons_of_mem top mem)
          | false =>
              obtain rfl | below := List.mem_cons.mp mem
              · exact .inr rfl
              · exact .inl (List.mem_cons_of_mem top below)
  | opening keyword =>
      obtain rfl | below := List.mem_cons.mp mem
      · exact .inr rfl
      · exact .inl below
  | closing =>
      cases stack with
      | nil => cases mem
      | cons top outer => exact .inl (List.mem_cons_of_mem top mem)
  | plain => exact .inl mem

theorem mem_stackAfter (mem : frame ∈ stackAfter stack ps) :
    frame ∈ stack ∨ ∃ p ∈ ps, p.frame? = some frame := by
  induction ps generalizing stack with
  | nil => exact .inl mem
  | cons p ps ih =>
      obtain here | ⟨q, later, pushes⟩ := ih mem
      · obtain before | pushes := mem_feed here
        · exact .inl before
        · exact .inr ⟨p, List.mem_cons_self, pushes⟩
      · exact .inr ⟨q, List.mem_cons_of_mem p later, pushes⟩

/-! ### What lies under the stack -/

/-- A form that finds the block it needs does not look at what lies under the stack. -/
theorem feed_append (found : (feed n stack form).2 = none) (under : List Frame) :
    (feed n (stack ++ under) form).1 = (feed n stack form).1 ++ under := by
  cases form with
  | branch keyword closed =>
      cases stack with
      | nil => cases found
      | cons top outer => cases closed <;> rfl
  | opening keyword => rfl
  | closing =>
      cases stack with
      | nil => cases found
      | cons top outer => rfl
  | plain => rfl

/-- Parts that the stack takes leave it as high as the grammar says, and leave alone what lies under
it. -/
theorem stackAfter_of_heightAfter? (stack : List Frame) {m : Nat}
    (taken : heightAfter? stack.length (ps.map LineForm.token) = some m) :
    (stackAfter stack ps).length = m ∧
      ∀ under, stackAfter (stack ++ under) ps = stackAfter stack ps ++ under := by
  induction ps generalizing stack with
  | nil => exact ⟨Option.some.inj taken, fun _ => rfl⟩
  | cons p ps ih =>
      obtain ⟨height, here, later⟩ := Option.bind_eq_some_iff.mp taken
      rw [LineForm.token, height?_token p.line] at here
      split at here
      case isTrue => cases here
      case isFalse found =>
          cases here
          obtain ⟨length, keeps⟩ := ih _ later
          refine ⟨length, fun under => ?_⟩
          have none : (feed p.line stack p.form).2 = none := by simpa using found
          rw [stackAfter_cons, feed_append none, keeps, stackAfter_cons]

/-- In front of any part of a body, the stack still has on it what it had before the body. -/
theorem stackAfter_of_body {seen later : List LineForm}
    (body : Derives .body ((seen ++ later).map LineForm.token)) (stack : List Frame) :
    ∃ upper, stackAfter stack seen = upper ++ stack := by
  have taken := (derives_body_iff_heightAfter? _).mp body
  rw [List.map_append, heightAfter?_append] at taken
  obtain ⟨m, seen, _⟩ := Option.bind_eq_some_iff.mp taken
  exact ⟨_, (stackAfter_of_heightAfter? [] seen).2 stack⟩

/-- After the whole body it has nothing else. -/
theorem stackAfter_body (body : Derives .body (ps.map LineForm.token)) (stack : List Frame) :
    stackAfter stack ps = stack := by
  have taken := (derives_body_iff_heightAfter? _).mp body
  obtain ⟨length, keeps⟩ := stackAfter_of_heightAfter? [] taken
  rw [List.length_eq_zero_iff] at length
  simpa [length] using keeps stack

/-- The frame of a part lies on what the stack had before, or on what a branch has left of it. -/
theorem feed_of_frame? (pushes : p.frame? = some frame)
    (found : (feed p.line stack p.form).2 = none) :
    ∃ outer, (feed p.line stack p.form).1 = frame :: outer ∧ outer <:+ stack := by
  obtain ⟨line, form⟩ := p
  cases form with
  | branch keyword closed =>
      cases closed with
      | true => cases pushes
      | false =>
          cases pushes
          cases stack with
          | nil => cases found
          | cons top outer => exact ⟨outer, rfl, List.suffix_cons top outer⟩
  | opening keyword =>
      cases pushes
      exact ⟨stack, rfl, List.suffix_refl stack⟩
  | closing => cases pushes
  | plain => cases pushes

/-! ### Sections -/

/-- A part that ends the section before it: the next branch, or the end of the block. -/
def Token.endsSection : Token → Bool
  | .branch => true
  | .closedBranch => true
  | .closing => true
  | _ => false

/-- From the part that puts the frame on the stack to the part on line `last` there is a body, and
the latter ends it. -/
def IsSection (ps : List LineForm) (frame : Frame) (last : Nat) : Prop :=
  ∃ front first inner ends back, ps = front ++ first :: (inner ++ ends :: back) ∧
    first.frame? = some frame ∧ Derives .body (inner.map LineForm.token) ∧
    ends.token.endsSection = true ∧ ends.line = last

theorem Derives.ending_cases {e : List Token} (ending : Derives .ending e) :
    e = [.closing] ∨ e = [.closedBranch] ∨
      ∃ s e', e = .branch :: (s ++ e') ∧ Derives .body s ∧ Derives .ending e' := by
  cases ending with
  | @branch s e' body later => exact .inr (.inr ⟨s, e', rfl, body, later⟩)
  | closing => exact .inl rfl
  | closedBranch => exact .inr (.inl rfl)

/-- An ending begins with a part that ends a section. -/
theorem Derives.exists_cons_of_ending {e : List Token} (ending : Derives .ending e) :
    ∃ t later, e = t :: later ∧ t.endsSection = true := by
  obtain rfl | rfl | ⟨s, e', rfl, _⟩ := ending.ending_cases
  · exact ⟨_, _, rfl, rfl⟩
  · exact ⟨_, _, rfl, rfl⟩
  · exact ⟨_, _, rfl, rfl⟩

/-- Behind a frame on the stack, the parts that bring the stack down to its ground begin with a body
and the end of the section. -/
theorem exists_section_of_heightAfter?
    (taken : heightAfter? (n + 1) (ps.map LineForm.token) = some 0) :
    ∃ inner ends back, ps = inner ++ ends :: back ∧ Derives .body (inner.map LineForm.token) ∧
      ends.token.endsSection = true := by
  generalize tokens : ps.map LineForm.token = ts at taken
  obtain _ | @⟨_, s, e, later, body, ending, _⟩ := unwinds_of_heightAfter? taken
  obtain ⟨t, e', rfl, ends⟩ := ending.exists_cons_of_ending
  obtain ⟨inner, tail, rfl, rfl, tail_tokens⟩ := List.map_eq_append_iff.mp tokens
  obtain ⟨last, back, rfl, rfl, _⟩ := List.map_eq_cons_iff.mp tail_tokens
  exact ⟨inner, last, back, rfl, body, ends⟩

/-- The end of a section takes its frame from the stack. -/
theorem mem_feed_of_endsSection {ends : LineForm} {top : Frame} {outer : List Frame}
    (isEnd : ends.token.endsSection = true)
    (mem : frame ∈ (feed ends.line (top :: outer) ends.form).1) :
    frame ∈ outer ∨ ends.frame? = some frame := by
  obtain ⟨line, form⟩ := ends
  cases form with
  | branch keyword closed =>
      cases closed with
      | true => exact .inl mem
      | false =>
          obtain rfl | below := List.mem_cons.mp mem
          · exact .inr rfl
          · exact .inl below
  | closing => exact .inl mem
  | opening | plain => cases isEnd

section WellNested

variable {front rest : List LineForm}

/-- A part of a well nested document that puts its frame on the stack leaves it on top. -/
theorem exists_stackAfter_of_frame?
    (taken : heightAfter? 0 ((front ++ p :: rest).map LineForm.token) = some 0)
    (pushes : p.frame? = some frame) :
    ∃ outer, (∀ ps, stackAfter [] (front ++ p :: ps) = stackAfter (frame :: outer) ps) ∧
      outer <:+ stackAfter [] front ∧
      heightAfter? (outer.length + 1) (rest.map LineForm.token) = some 0 := by
  rw [List.map_append, heightAfter?_append] at taken
  obtain ⟨n, front_taken, taken⟩ := Option.bind_eq_some_iff.mp taken
  have length : (stackAfter [] front).length = n :=
    (stackAfter_of_heightAfter? [] front_taken).1
  obtain ⟨m, here, later⟩ := Option.bind_eq_some_iff.mp taken
  rw [LineForm.token, ← length, height?_token p.line] at here
  split at here
  case isTrue => cases here
  case isFalse found =>
      have none : (feed p.line (stackAfter [] front) p.form).2 = none := by simpa using found
      obtain ⟨outer, stack, below⟩ := feed_of_frame? pushes none
      refine ⟨outer, fun ps => ?_, below, ?_⟩
      · rw [stackAfter_append, stackAfter_cons, stack]
      · cases here
        rwa [stack] at later

/-- Two cuts of one list: the second is behind the first, or in front of it. -/
theorem append_eq_append_cons {α : Type} {s t u v : List α} {a : α}
    (same : s ++ t = u ++ a :: v) :
    (∃ more, u = s ++ more ∧ t = more ++ a :: v) ∨ ∃ more, s = u ++ a :: more ∧ v = more ++ t := by
  obtain ⟨more, rfl, rfl⟩ | ⟨more, rfl, behind⟩ := List.append_eq_append_iff.mp same
  · exact .inl ⟨more, rfl, rfl⟩
  · cases more with
    | nil => exact .inl ⟨[], by simp, behind.symm⟩
    | cons b more =>
        obtain ⟨rfl, rfl⟩ := List.cons.inj behind
        exact .inr ⟨more, rfl, rfl⟩

/-- Parts are in the order of their lines. -/
def InOrder (ps : List LineForm) : Prop :=
  ps.Pairwise fun p q => p.line < q.line

theorem InOrder.line_lt (ordered : InOrder (front ++ p :: rest)) :
    (∀ q ∈ front, q.line < p.line) ∧ ∀ q ∈ rest, p.line < q.line := by
  obtain ⟨_, behind, across⟩ := List.pairwise_append.mp ordered
  exact ⟨fun q mem => across q mem p List.mem_cons_self, (List.pairwise_cons.mp behind).1⟩

/-- After some parts of a well nested document, the stack has just the frames of the sections that
have begun and have not ended. -/
theorem mem_stackAfter_iff {seen later : List LineForm} {i : Nat}
    (nested : Derives .body ((seen ++ later).map LineForm.token))
    (ordered : InOrder (seen ++ later))
    (before : ∀ p ∈ seen, p.line < i) (behind : ∀ p ∈ later, i ≤ p.line) :
    frame ∈ stackAfter [] seen ↔
      ∃ last, IsSection (seen ++ later) frame last ∧ frame.line < i ∧ i ≤ last := by
  have taken := (derives_body_iff_heightAfter? _).mp nested
  constructor
  · intro mem
    obtain none | ⟨p, here, pushes⟩ := mem_stackAfter mem
    · cases none
    have line := line_of_frame? pushes
    obtain ⟨front, rest, rfl⟩ := List.append_of_mem here
    rw [List.append_assoc, List.cons_append] at taken ordered ⊢
    obtain ⟨outer, stack, below, open_⟩ := exists_stackAfter_of_frame? taken pushes
    obtain ⟨inner, ends, back, whole, body, isEnd⟩ := exists_section_of_heightAfter? open_
    refine ⟨ends.line, ⟨front, p, inner, ends, back, by rw [whole], pushes, body, isEnd, rfl⟩,
      line ▸ before p here, ?_⟩
    obtain ⟨more, _, rfl⟩ | ⟨more, rfl, rfl⟩ := append_eq_append_cons whole
    · exact behind ends (by simp)
    -- The section has ended, and no other part has the frame of this one.
    obtain ⟨frontLess, restGreater⟩ := ordered.line_lt
    have other {q : LineForm} (pushes : q.frame? = some frame) : ¬ p.line < q.line := by
      rw [← line_of_frame? pushes, line]
      exact Nat.lt_irrefl _
    exfalso
    rw [stack, stackAfter_append, stackAfter_body body, stackAfter_cons] at mem
    obtain here | ⟨q, later, pushes⟩ := mem_stackAfter mem
    · obtain outside | pushes := mem_feed_of_endsSection isEnd here
      · obtain none | ⟨q, earlier, pushes⟩ := mem_stackAfter (below.subset outside)
        · cases none
        · have less := frontLess q earlier
          rw [← line_of_frame? pushes, line] at less
          exact Nat.lt_irrefl _ less
      · exact other pushes (restGreater ends (by simp))
    · exact other pushes (restGreater q (by simp [later]))
  · rintro ⟨_, ⟨front, first, inner, ends, back, whole, pushes, body, _, rfl⟩, begun, going⟩
    rw [line_of_frame? pushes] at begun
    rw [whole] at taken
    obtain ⟨outer, stack, _⟩ := exists_stackAfter_of_frame? taken pushes
    obtain ⟨more, _, rfl⟩ | ⟨more, rfl, same⟩ := append_eq_append_cons whole
    · exact absurd (behind first (by simp)) (Nat.not_le_of_lt begun)
    obtain ⟨left, rfl, _⟩ | ⟨left, rfl, _⟩ := append_eq_append_cons same.symm
    · obtain ⟨upper, inside⟩ := stackAfter_of_body body (frame :: outer)
      rw [stack, inside]
      exact List.mem_append_right _ List.mem_cons_self
    · exact absurd (before ends (by simp)) (Nat.not_lt_of_le going)

end WellNested

end Block

/-! ### In a document -/

open Block

/-- What a line does to the open blocks where block comments are `depth` deep before it. -/
def codeForm? (depth : Int) (line : Line) : Option Form :=
  if (scanComments line depth).inComment || isSkipped line then none
  else some (Form.ofLine (mask line))

/-- The parts of lines from line `n` on that begin where block comments are `depth` deep. -/
def partsFrom (n : Nat) (depth : Int) : List Line → List LineForm
  | [] => []
  | line :: rest =>
    ((codeForm? depth line).map (LineForm.mk n)).toList ++
      partsFrom (n + 1) (scanComments line depth).depth rest

/-- The parts of a document, one for each line of code. -/
def parts (text : Text) : List LineForm :=
  partsFrom 0 0 (lines text)

section Document

variable {config : Config} {text : Text} {n i : Nat} {depth : Int} {ls : List Line} {p : LineForm}
  {frame : Frame}

theorem token?_of_codeForm? (depth : Int) (line : Line) :
    (codeForm? depth line).map Form.token = codeToken? depth line := by
  unfold codeForm? codeToken?
  split
  · rfl
  · exact congrArg some (token_ofLine _)

theorem map_token_partsFrom (n : Nat) (depth : Int) (ls : List Line) :
    (partsFrom n depth ls).map LineForm.token = tokensFrom depth ls := by
  induction ls generalizing n depth with
  | nil => rfl
  | cons line rest ih =>
      rw [partsFrom, List.map_append, ih, tokensFrom, ← token?_of_codeForm?]
      cases codeForm? depth line <;> rfl

theorem partsFrom_append (n : Nat) (depth : Int) (s t : List Line) :
    partsFrom n depth (s ++ t) =
      partsFrom n depth s ++ partsFrom (n + s.length) (depthAfter depth s) t := by
  induction s generalizing n depth with
  | nil => rfl
  | cons line rest ih =>
      rw [List.cons_append, partsFrom, ih, partsFrom, List.append_assoc, List.length_cons,
        depthAfter_cons, Nat.add_right_comm n 1, Nat.add_assoc n]

/-- A part is a line of code that is looked into. -/
theorem exists_of_mem_partsFrom (mem : p ∈ partsFrom n depth ls) :
    ∃ i line, ls[i]? = some line ∧ p.line = n + i ∧
      codeForm? (depthAfter depth (ls.take i)) line = some p.form := by
  induction ls generalizing n depth with
  | nil => cases mem
  | cons line rest ih =>
      obtain here | later := List.mem_append.mp mem
      · obtain ⟨form, known, rfl⟩ := Option.map_eq_some_iff.mp (Option.mem_toList.mp here)
        exact ⟨0, line, rfl, rfl, known⟩
      · obtain ⟨i, other, at_, number, known⟩ := ih later
        refine ⟨i + 1, other, at_, by omega, ?_⟩
        rwa [List.take_succ_cons, depthAfter_cons]

theorem line_lt_of_mem_partsFrom (mem : p ∈ partsFrom n depth ls) :
    n ≤ p.line ∧ p.line < n + ls.length := by
  obtain ⟨i, line, at_, number, _⟩ := exists_of_mem_partsFrom mem
  have inside := (List.getElem?_eq_some_iff.mp at_).1
  omega

theorem inOrder_partsFrom (n : Nat) (depth : Int) (ls : List Line) :
    InOrder (partsFrom n depth ls) := by
  induction ls generalizing n depth with
  | nil => exact List.Pairwise.nil
  | cons line rest ih =>
      refine List.pairwise_append.mpr ⟨?_, ih _ _, fun p here q later => ?_⟩
      · cases codeForm? depth line with
        | none => exact List.Pairwise.nil
        | some form => exact List.pairwise_singleton _ _
      · obtain ⟨form, _, rfl⟩ := Option.map_eq_some_iff.mp (Option.mem_toList.mp here)
        exact (line_lt_of_mem_partsFrom later).1

/-- The stack of the pass is the one that the parts of its lines make. -/
theorem stack_run (config : Config) (n : Nat) (p : Progress) (ls : List Line) :
    (p.run config n ls).1.stack = stackAfter p.stack (partsFrom n p.depth ls) := by
  induction ls generalizing n p with
  | nil => rfl
  | cons line rest ih =>
      rw [Progress.run, ih, depth_step, stack_step, partsFrom, stackAfter_append, codeForm?]
      split <;> rfl

/-- The parts of the lines in front of line `i`. -/
def partsBefore (text : Text) (i : Nat) : List LineForm :=
  partsFrom 0 0 ((lines text).take i)

theorem stackBefore_eq (config : Config) (text : Text) (i : Nat) :
    stackBefore config text i = stackAfter [] (partsBefore text i) :=
  stack_run config 0 {} _

/-- What is left of the parts of a document stands on line `i` or behind it. -/
theorem exists_parts_eq_append (text : Text) (i : Nat) :
    ∃ later, parts text = partsBefore text i ++ later ∧ (∀ p ∈ partsBefore text i, p.line < i) ∧
      ∀ p ∈ later, i ≤ p.line := by
  refine ⟨partsFrom (min i (lines text).length) (depthAfter 0 ((lines text).take i))
    ((lines text).drop i), ?whole, fun p mem => ?before, fun p mem => ?behind⟩
  case whole =>
    have cut := partsFrom_append 0 0 ((lines text).take i) ((lines text).drop i)
    rwa [List.take_append_drop, List.length_take, Nat.zero_add] at cut
  case before =>
    have inside := (line_lt_of_mem_partsFrom mem).2
    rw [List.length_take] at inside
    omega
  case behind =>
    obtain ⟨from_, to_⟩ := line_lt_of_mem_partsFrom mem
    rw [List.length_drop] at to_
    omega

/-- In front of a line of a well nested document, the open blocks are just the sections that the
line stands in. -/
theorem mem_stackBefore_iff (nested : Derives .body (blockTokens text)) :
    frame ∈ stackBefore config text i ↔
      ∃ last, IsSection (parts text) frame last ∧ frame.line < i ∧ i ≤ last := by
  obtain ⟨later, whole, before, behind⟩ := exists_parts_eq_append text i
  have ordered : InOrder (parts text) := inOrder_partsFrom 0 0 _
  rw [blockTokens, ← map_token_partsFrom 0, ← parts, whole] at nested
  rw [whole] at ordered
  rw [stackBefore_eq, mem_stackAfter_iff nested ordered before behind, ← whole]

end Document

end Dragonstone
