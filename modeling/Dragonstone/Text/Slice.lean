/-
# Cutting a text at integer bounds

Bounds of a cut may be any integers.  A negative bound counts from the end, and a bound outside the
text is moved to its nearer end.
-/

import Dragonstone.Text

namespace Dragonstone

/-- The place that a bound means in a text of the given length. -/
def cutPoint (length : Nat) (i : Int) : Nat :=
  if i < 0 then (length + i).toNat else min i.toNat length

/-- The text up to a bound. -/
def upTo (i : Int) (s : Text) : Text :=
  s.take (cutPoint s.length i)

/-- The text from a bound on. -/
def fromOn (i : Int) (s : Text) : Text :=
  s.drop (cutPoint s.length i)

/-- The text between two bounds, which is empty where they are in the wrong order. -/
def slice (i j : Int) (s : Text) : Text :=
  (s.take (cutPoint s.length j)).drop (cutPoint s.length i)

/-- A natural bound is taken as it is, as far as the text reaches. -/
@[simp] theorem cutPoint_natCast (length i : Nat) : cutPoint length (i : Int) = min i length := by
  rw [cutPoint, if_neg (Int.not_lt.mpr (Int.natCast_nonneg i)), Int.toNat_natCast]

@[simp] theorem upTo_natCast (i : Nat) (s : Text) : upTo i s = s.take i := by
  rw [upTo, cutPoint_natCast, List.take_eq_take_iff]
  omega

@[simp] theorem fromOn_natCast (i : Nat) (s : Text) : fromOn i s = s.drop i := by
  rw [fromOn, cutPoint_natCast, List.drop_eq_drop_iff]
  omega

/-- Between natural bounds stand as many characters as the bounds are apart. -/
@[simp] theorem slice_natCast (i j : Nat) (s : Text) :
    slice i j s = (s.drop i).take (j - i) := by
  have front : s.drop (min i s.length) = s.drop i := by
    rw [List.drop_eq_drop_iff]
    omega
  rw [slice, cutPoint_natCast, cutPoint_natCast, List.drop_take, front, List.take_eq_take_iff,
    List.length_drop]
  omega

/-- Cutting at one bound loses nothing. -/
@[simp] theorem upTo_append_fromOn (i : Int) (s : Text) : upTo i s ++ fromOn i s = s :=
  List.take_append_drop _ _

end Dragonstone
