/-
# The word being typed

A word is typed from an ASCII letter or an underscore on, goes on with letters and numbers of any
script, and may end with a mark.  What is taken as the word being typed at the end of a line is the
longest such word that the line ends with.  It is found from the end: the run of letters and numbers
there is cut in front of its first ASCII letter, since a word can begin at no character before.
-/

import Dragonstone.Completion.Filter

namespace Dragonstone.Completion

/-- A word as it may be typed before it is completed. -/
def IsTypedWord (w : Text) : Prop :=
  ∃ stem : Text, stem.head?.any isIdentStart = true ∧ (∀ c ∈ stem, isProseWordChar c = true) ∧
    (w = stem ∨ ∃ mark, isTypedMark mark = true ∧ w = stem ++ [mark])

theorem isProseWordChar_of_isTypedMark {c : Char} (mark : isTypedMark c = true) :
    isProseWordChar c = false := by
  simp only [isTypedMark, Bool.or_eq_true, beq_iff_eq] at mark
  obtain rfl | rfl := mark <;> decide +kernel

/-! ### The stem -/

theorem typedStem_suffix (s : Text) : typedStem s <:+ s := by
  have run : (s.reverse.takeWhile isProseWordChar).reverse <:+ s := by
    have front := List.reverse_suffix.mpr (List.takeWhile_prefix isProseWordChar (l := s.reverse))
    rwa [List.reverse_reverse] at front
  exact (List.dropWhile_suffix _).trans run

theorem isProseWordChar_of_mem_typedStem {s : Text} {c : Char} (mem : c ∈ typedStem s) :
    isProseWordChar c = true := by
  have run := (List.dropWhile_suffix _).subset mem
  exact List.all_eq_true.mp List.all_takeWhile c (List.mem_reverse.mp run)

theorem head_typedStem {s : Text} (some : typedStem s ≠ []) :
    (typedStem s).head?.any isIdentStart = true := by
  have first := List.head?_dropWhile_not (fun c => !isIdentStart c)
    (s.reverse.takeWhile isProseWordChar).reverse
  cases stem : typedStem s with
  | nil => exact absurd stem some
  | cons c rest =>
      rw [← typedStem, stem] at first
      simpa using first

/-- Every stem that a text ends with is a part of the longest one. -/
theorem suffix_typedStem {s stem : Text} (head : stem.head?.any isIdentStart = true)
    (letters : ∀ c ∈ stem, isProseWordChar c = true) (ends : stem <:+ s) :
    stem <:+ typedStem s := by
  obtain ⟨front, rfl⟩ := ends
  have letters' : ∀ c ∈ stem.reverse, isProseWordChar c = true :=
    fun c mem => letters c (List.mem_reverse.mp mem)
  rw [typedStem, List.reverse_append, List.takeWhile_append_of_pos letters', List.reverse_append,
    List.reverse_reverse, List.dropWhile_append]
  split
  · cases stem with
    | nil => cases head
    | cons c stem =>
        have letter : isIdentStart c = true := head
        have whole : (c :: stem).dropWhile (fun c => !isIdentStart c) = c :: stem :=
          List.dropWhile_cons_of_neg (by simp [letter])
        exact ⟨[], whole.symm⟩
  · exact List.suffix_append _ _

/-! ### The word -/

theorem withoutFinalFeed_of_not_mem {s : Text} (line : '\n' ∉ s) : withoutFinalFeed s = s := by
  rw [withoutFinalFeed, if_neg]
  intro feed
  exact line (List.mem_of_getLast? (beq_iff_eq.mp feed))

/-- The word being typed at the end of a line is one, or there is none. -/
theorem typedPrefix_cases {before : Text} (line : '\n' ∉ before) :
    typedPrefix before <:+ before ∧
      (typedPrefix before = [] ∨ IsTypedWord (typedPrefix before)) := by
  rw [typedPrefix, withoutFinalFeed_of_not_mem line]
  obtain rfl | ⟨front, c, rfl⟩ := List.eq_nil_or_concat before
  · exact ⟨List.nil_suffix, .inl rfl⟩
  · rw [List.concat_eq_append]
    simp only [List.getLast?_append, List.getLast?_singleton, Option.some_or, List.dropLast_concat]
    have word {s : Text} (some : typedStem s ≠ []) : IsTypedWord (typedStem s) :=
      ⟨_, head_typedStem some, fun _ => isProseWordChar_of_mem_typedStem, .inl rfl⟩
    split
    case isTrue mark =>
      split
      case isTrue => exact ⟨List.nil_suffix, .inl rfl⟩
      case isFalse inked =>
        have some : typedStem front ≠ [] := fun empty => inked (List.isEmpty_iff.mpr empty)
        obtain ⟨rest, whole⟩ := typedStem_suffix front
        refine ⟨⟨rest, ?_⟩, .inr ⟨_, head_typedStem some,
          fun _ => isProseWordChar_of_mem_typedStem, .inr ⟨c, mark, rfl⟩⟩⟩
        rw [← List.append_assoc, whole]
    case isFalse =>
      refine ⟨typedStem_suffix _, ?_⟩
      by_cases some : typedStem (front ++ [c]) = []
      · exact .inl some
      · exact .inr (word some)

/-- Every word that a line ends with is a part of the word being typed. -/
theorem suffix_typedPrefix {before w : Text} (line : '\n' ∉ before) (word : IsTypedWord w)
    (ends : w <:+ before) : w <:+ typedPrefix before := by
  obtain ⟨stem, head, letters, rfl | ⟨mark, isMark, rfl⟩⟩ := word
  all_goals
    rw [typedPrefix, withoutFinalFeed_of_not_mem line]
    obtain ⟨rest, rfl⟩ := ends
  · -- The last character belongs to the stem, so it is no mark.
    obtain rfl | ⟨front, c, rfl⟩ := List.eq_nil_or_concat w
    · cases head
    · rw [List.concat_eq_append] at *
      have letter := letters c (List.mem_append_right _ List.mem_cons_self)
      have unmarked : ¬ isTypedMark c = true := fun mark =>
        Bool.noConfusion ((isProseWordChar_of_isTypedMark mark).symm.trans letter)
      simp only [List.getLast?_append, List.getLast?_singleton, Option.some_or, if_neg unmarked]
      exact suffix_typedStem head letters (List.suffix_append _ _)
  · have longest := suffix_typedStem head letters (List.suffix_append rest stem)
    have some : ¬ (typedStem (rest ++ stem)).isEmpty = true := fun empty => by
      rw [List.isEmpty_iff.mp empty, List.suffix_nil] at longest
      subst longest
      cases head
    rw [← List.append_assoc]
    simp only [List.getLast?_append, List.getLast?_singleton, Option.some_or, if_pos isMark,
      List.dropLast_concat, if_neg some]
    obtain ⟨front, whole⟩ := longest
    exact ⟨front, by rw [← List.append_assoc, whole]⟩

end Dragonstone.Completion
