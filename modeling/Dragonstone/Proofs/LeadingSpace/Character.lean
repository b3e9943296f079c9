/-
# Leading space

The space in front of a line carries no meaning of its own.  Here stand the facts about single
characters that this rests on: a space is no letter of a word, no quote, no backslash and no part
of a comment marker.  What holds of one character in front of a text then holds of its whole
leading run, by the one induction of `apply_append_of_forall`.
-/

import Dragonstone.Role
import Dragonstone.Text.Word

namespace Dragonstone

/-- A function that ignores any single character of a class in front of a text ignores any run of
them. -/
theorem apply_append_of_forall {α β : Type} {p : α → Bool} {f : List α → β}
    (ignores : ∀ c rest, p c = true → f (c :: rest) = f rest) {front : List α}
    (run : ∀ c ∈ front, p c = true) (s : List α) : f (front ++ s) = f s := by
  induction front with
  | nil => rfl
  | cons c front ih =>
      have hc : p c = true := run c List.mem_cons_self
      have hfront : ∀ d ∈ front, p d = true := fun d member =>
        run d (List.mem_cons_of_mem c member)
      rw [List.cons_append, ignores c _ hc, ih hfront]

/-- A function that ignores any single character of a class in front of a text ignores the whole
leading run of the class. -/
theorem apply_dropWhile {α β : Type} {p : α → Bool} {f : List α → β}
    (ignores : ∀ c rest, p c = true → f (c :: rest) = f rest) (s : List α) :
    f (s.dropWhile p) = f s := by
  have run : ∀ c ∈ s.takeWhile p, p c = true := List.all_eq_true.mp List.all_takeWhile
  calc f (s.dropWhile p)
      = f (s.takeWhile p ++ s.dropWhile p) := (apply_append_of_forall ignores run _).symm
    _ = f s := by rw [List.takeWhile_append_dropWhile]

/-! ### Spaces among the characters -/

theorem ne_of_isSpace {c d : Char} (hc : isSpace c = true) (hd : isSpace d = false) : c ≠ d := by
  rintro rfl
  rw [hc] at hd
  exact Bool.noConfusion hd

theorem ofChar?_of_isSpace {c : Char} (hc : isSpace c = true) : Quote.ofChar? c = none := by
  rw [Quote.ofChar?, List.find?_eq_none]
  intro q _ heq
  refine ne_of_isSpace hc ?_ (beq_iff_eq.mp heq).symm
  cases q <;> decide

theorem isWordChar_of_isSpace {c : Char} (hc : isSpace c = true) : isWordChar c = false := by
  rw [Bool.eq_false_iff]
  intro hword
  have hrange : (48 ≤ c.toNat ∧ c.toNat ≤ 57) ∨ (65 ≤ c.toNat ∧ c.toNat ≤ 90) ∨
      c.toNat = 95 ∨ (97 ≤ c.toNat ∧ c.toNat ≤ 122) := by
    unfold isWordChar Char.isAlphanum Char.isAlpha Char.isUpper Char.isLower Char.isDigit at hword
    simp only [Bool.or_eq_true, Bool.and_eq_true, decide_eq_true_eq, beq_iff_eq, ge_iff_le,
      UInt32.le_iff_toNat_le] at hword
    rcases hword with ((⟨h, h'⟩ | ⟨h, h'⟩) | ⟨h, h'⟩) | rfl
    · exact Or.inr (Or.inl ⟨h, h'⟩)
    · exact Or.inr (Or.inr (Or.inr ⟨h, h'⟩))
    · exact Or.inl ⟨h, h'⟩
    · exact Or.inr (Or.inr (Or.inl rfl))
  simp only [isSpace, Bool.or_eq_true, Bool.and_eq_true, beq_iff_eq, decide_eq_true_eq] at hc
  omega

end Dragonstone
