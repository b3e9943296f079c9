/-
# The grammar of blocks

A line of code plays one of five parts in the nesting of blocks, and a document is well nested if
the parts of its lines, in order, form a body of this grammar:

    body   ::= (plain | block)*
    block  ::= opening body (branch body)* (closing | closedBranch)

The checker does not parse.  It keeps a stack of open blocks, of which only the height matters
here.  The central fact is that the two agree: a sequence of parts is a body exactly if the stack
takes every part of it and is empty at the end.  One direction reads a derivation; the other
rebuilds a derivation from a run, where a stack of height `n` stands for `n` blocks whose endings
are still to come.
-/

import Dragonstone.Block

namespace Dragonstone.Block

/-- The part that a line of code plays in the nesting of blocks. -/
inductive Token where
  | plain
  | opening
  /-- A new branch of a block that goes on after its line. -/
  | branch
  /-- A new branch of a block that ends with its line. -/
  | closedBranch
  | closing
  deriving DecidableEq, Repr

/-- The part of a masked line: a branch is looked for first, then an opener, then the
terminator. -/
def Token.ofMasked (masked : Line) : Token :=
  if (branch? masked).isSome then
    if closesInline masked then .closedBranch else .branch
  else if (opener? masked).isSome then .opening
  else if isTerminator masked then .closing
  else .plain

/-- The phrases of the grammar. -/
inductive Phrase where
  | body
  | block
  /-- What follows the first body of a block. -/
  | ending
  deriving DecidableEq, Repr

/-- The sequences of parts that a phrase derives. -/
inductive Derives : Phrase → List Token → Prop
  | empty : Derives .body []
  | plain {s : List Token} : Derives .body s → Derives .body (.plain :: s)
  | nested {b s : List Token} : Derives .block b → Derives .body s → Derives .body (b ++ s)
  | block {s e : List Token} :
      Derives .body s → Derives .ending e → Derives .block (.opening :: (s ++ e))
  | branch {s e : List Token} :
      Derives .body s → Derives .ending e → Derives .ending (.branch :: (s ++ e))
  | closing : Derives .ending [.closing]
  | closedBranch : Derives .ending [.closedBranch]

/-! ### The height of the stack -/

/-- The number of open blocks after a part, if the stack takes it. -/
def Token.height? : Token → Nat → Option Nat
  | .plain, n => some n
  | .opening, n => some (n + 1)
  | .branch, n + 1 => some (n + 1)
  | .closedBranch, n + 1 => some n
  | .closing, n + 1 => some n
  | _, 0 => none

/-- The number of open blocks after a sequence of parts, if the stack takes all of them. -/
def heightAfter? (n : Nat) : List Token → Option Nat
  | [] => some n
  | t :: rest => (t.height? n).bind fun n' => heightAfter? n' rest

/-- How many open blocks a phrase takes off the stack. -/
def Phrase.closes : Phrase → Nat
  | .body => 0
  | .block => 0
  | .ending => 1

/-- After a derived phrase the stack is as high as before, less the block that the phrase ends.
It does not matter what follows. -/
theorem heightAfter?_append_of_derives {p : Phrase} {s : List Token} (derived : Derives p s)
    (n : Nat) (rest : List Token) :
    heightAfter? (n + p.closes) (s ++ rest) = heightAfter? n rest := by
  induction derived generalizing n rest with
  | empty => rfl
  | plain _ ih => exact ih n rest
  | @nested b s _ _ ihBlock ihBody =>
      calc heightAfter? n (b ++ s ++ rest)
          = heightAfter? n (b ++ (s ++ rest)) := by rw [List.append_assoc]
        _ = heightAfter? n (s ++ rest) := ihBlock n (s ++ rest)
        _ = heightAfter? n rest := ihBody n rest
  | @block s e _ _ ihBody ihEnding =>
      calc heightAfter? n (.opening :: (s ++ e) ++ rest)
          = heightAfter? (n + 1) (s ++ (e ++ rest)) := by
            rw [List.cons_append, List.append_assoc]
            rfl
        _ = heightAfter? (n + 1) (e ++ rest) := ihBody (n + 1) (e ++ rest)
        _ = heightAfter? n rest := ihEnding n rest
  | @branch s e _ _ ihBody ihEnding =>
      calc heightAfter? (n + 1) (.branch :: (s ++ e) ++ rest)
          = heightAfter? (n + 1) (s ++ (e ++ rest)) := by
            rw [List.cons_append, List.append_assoc]
            rfl
        _ = heightAfter? (n + 1) (e ++ rest) := ihBody (n + 1) (e ++ rest)
        _ = heightAfter? n rest := ihEnding n rest
  | closing => rfl
  | closedBranch => rfl

/-! ### Derivations from runs -/

/-- The sequence is a body, then `n` times an ending with a body after it: what may stand after
`n` blocks have been opened. -/
inductive Unwinds : Nat → List Token → Prop
  | last {s : List Token} : Derives .body s → Unwinds 0 s
  | next {n : Nat} {s e rest : List Token} :
      Derives .body s → Derives .ending e → Unwinds n rest → Unwinds (n + 1) (s ++ (e ++ rest))

theorem Unwinds.plain {n : Nat} {s : List Token} (h : Unwinds n s) : Unwinds n (.plain :: s) := by
  cases h with
  | last body => exact .last (.plain body)
  | next body ending rest => exact .next (.plain body) ending rest

theorem Unwinds.nested {n : Nat} {b s : List Token} (block : Derives .block b)
    (h : Unwinds n s) : Unwinds n (b ++ s) := by
  cases h with
  | last body => exact .last (.nested block body)
  | @next n s e rest body ending later =>
      rw [← List.append_assoc]
      exact .next (.nested block body) ending later

theorem Unwinds.ending {n : Nat} {e s : List Token} (ending : Derives .ending e)
    (h : Unwinds n s) : Unwinds (n + 1) (e ++ s) :=
  .next (s := []) .empty ending h

/-- With an opening in front, one open block less is needed: the first ending is now the end of
the block that opens here. -/
theorem Unwinds.opening {n : Nat} {s : List Token} (h : Unwinds (n + 1) s) :
    Unwinds n (.opening :: s) := by
  obtain _ | @⟨_, b, e, rest, body, ending, later⟩ := h
  have block : Derives .block (.opening :: (b ++ e)) := .block body ending
  simpa [List.append_assoc] using later.nested block

/-- With a branch in front, the first ending becomes the longer one that begins with it. -/
theorem Unwinds.branch {n : Nat} {s : List Token} (h : Unwinds (n + 1) s) :
    Unwinds (n + 1) (.branch :: s) := by
  obtain _ | @⟨_, b, e, rest, body, ending, later⟩ := h
  have longer : Derives .ending (.branch :: (b ++ e)) := .branch body ending
  simpa [List.append_assoc] using later.ending longer

/-- A run that begins with `n` open blocks and leaves none open unwinds them. -/
theorem unwinds_of_heightAfter? {n : Nat} {s : List Token} (h : heightAfter? n s = some 0) :
    Unwinds n s := by
  induction s generalizing n with
  | nil =>
      obtain rfl : n = 0 := by simpa [heightAfter?] using h
      exact .last .empty
  | cons t rest ih =>
      obtain ⟨n', taken, later⟩ := Option.bind_eq_some_iff.mp h
      have unwound : Unwinds n' rest := ih later
      -- No part but a plain one or an opening is taken where no block is open.
      cases t with
      | plain =>
          cases taken
          exact unwound.plain
      | opening =>
          cases taken
          exact unwound.opening
      | branch =>
          cases n with
          | zero => cases taken
          | succ n =>
              cases taken
              exact unwound.branch
      | closedBranch =>
          cases n with
          | zero => cases taken
          | succ n =>
              cases taken
              exact unwound.ending .closedBranch
      | closing =>
          cases n with
          | zero => cases taken
          | succ n =>
              cases taken
              exact unwound.ending .closing

/-- The grammar and the stack accept the same sequences. -/
theorem derives_body_iff_heightAfter? (s : List Token) :
    Derives .body s ↔ heightAfter? 0 s = some 0 := by
  constructor
  · intro derived
    simpa [Phrase.closes, heightAfter?] using heightAfter?_append_of_derives derived 0 []
  · intro h
    cases unwinds_of_heightAfter? h with
    | last body => exact body

/-! ### The stack of the checker -/

/-- The part that a form of line plays. -/
def Form.token : Form → Token
  | .branch _ closed => if closed then .closedBranch else .branch
  | .opening _ => .opening
  | .closing => .closing
  | .plain => .plain

/-- The form of a masked line plays the part of the line. -/
theorem token_ofLine (masked : Line) : (Form.ofLine masked).token = Token.ofMasked masked := by
  unfold Form.ofLine Token.ofMasked
  cases hbranch : branch? masked with
  | some keyword => rfl
  | none =>
      cases hopener : opener? masked with
      | some keyword => rfl
      | none => cases hclosing : isTerminator masked <;> rfl

/-- A form finds no open block exactly if the stack does not take its part; otherwise the height
after the part is the height of the stack. -/
theorem height?_token (n : Nat) (stack : List Frame) (form : Form) :
    form.token.height? stack.length =
      if (feed n stack form).2.isSome then none else some (feed n stack form).1.length := by
  cases form with
  | branch keyword closed => cases stack <;> cases closed <;> rfl
  | opening keyword => rfl
  | closing => cases stack <;> rfl
  | plain => rfl

end Dragonstone.Block
