/-
# Stretches of equal values

A list that gives some of its places a value is read as the stretches of neighbours with the same
value.
-/

namespace Dragonstone

/-- A stretch of places with one value. -/
structure Span (α : Type) where
  start : Nat
  length : Nat
  value : α
  deriving DecidableEq, Repr

/-- The stretches of a list whose first place is `col`. -/
def spansFrom {α : Type} [DecidableEq α] (col : Nat) : List (Option α) → List (Span α)
  | [] => []
  | none :: rest => spansFrom (col + 1) rest
  | some a :: rest =>
    match spansFrom (col + 1) rest with
    | [] => [⟨col, 1, a⟩]
    | next :: later =>
      if next.start = col + 1 ∧ next.value = a then ⟨col, next.length + 1, a⟩ :: later
      else ⟨col, 1, a⟩ :: next :: later

/-- The stretches of a list. -/
def spans {α : Type} [DecidableEq α] (values : List (Option α)) : List (Span α) :=
  spansFrom 0 values

end Dragonstone
