/-
# Identifiers of a line

The identifiers of a line are found one behind the other, so what is found in a part of the line
could depend on all that stands in front of it.  A character that belongs to no identifier stops
this: the identifiers behind it are those of the rest of the line alone.  So the word at a column is
known as soon as the column touches an identifier that begins behind such a character.
-/

import Dragonstone.Lookup
import Dragonstone.Proofs.Text.Word

namespace Dragonstone

/-- No identifier has the character in it, and no mark behind an identifier is this character. -/
def isApart (c : Char) : Bool :=
  !isWordChar c && !isNameMark c

theorem isApart_of_isBlank {c : Char} (blank : isBlank c = true) : isApart c = true := by
  have space : isSpace c = true := isSpace_of_isBlank blank
  have mark : isNameMark c = false := by
    simp [isNameMark, ne_of_isSpace space (by decide : isSpace '?' = false),
      ne_of_isSpace space (by decide : isSpace '!' = false),
      ne_of_isSpace space (by decide : isSpace '=' = false)]
  simp [isApart, mark, isWordChar_of_isSpace space]

section Apart

variable {x : Char} (apart : isApart x = true)

include apart

theorem isWordChar_of_isApart : isWordChar x = false := by
  simpa using (Bool.and_eq_true_iff.mp apart).1

theorem isNameMark_of_isApart : isNameMark x = false := by
  simpa using (Bool.and_eq_true_iff.mp apart).2

/-- No identifier reaches over a character that is apart, nor begins there. -/
theorem identifier?_append_cons {start : Char → Bool}
    (letters : ∀ c, start c = true → isWordChar c = true) (s t : Text) :
    identifier? start (s ++ x :: t) =
      (identifier? start s).map fun (name, rest) => (name, rest ++ x :: t) := by
  have ends : (x :: t).head?.any isWordChar = false := isWordChar_of_isApart apart
  obtain ⟨front, behind⟩ := word_append_of_head s ends
  cases s with
  | nil =>
      have other : ¬ start x = true := fun first =>
        Bool.noConfusion ((isWordChar_of_isApart apart).symm.trans (letters x first))
      simp only [List.nil_append, identifier?, if_neg other, Option.map_none]
  | cons c s =>
      rw [List.cons_append] at front behind ⊢
      rw [identifier?, identifier?, front, behind]
      split <;> rfl

theorem markedName?_append_cons {start : Char → Bool}
    (letters : ∀ c, start c = true → isWordChar c = true) (s t : Text) :
    markedName? start (s ++ x :: t) =
      (markedName? start s).map fun (name, rest) => (name, rest ++ x :: t) := by
  rw [markedName?, markedName?, identifier?_append_cons apart letters, Option.map_map,
    Option.map_map]
  congr 1
  funext found
  obtain ⟨name, rest⟩ := found
  cases rest with
  | nil => simp [isNameMark_of_isApart apart]
  | cons c rest =>
      simp only [Function.comp_apply, List.cons_append]
      split <;> rfl

end Apart

namespace Lookup

/-- Identifiers stand within the text that is cut into them. -/
theorem bounds_of_mem_identifierSpans {col skip start stop : Nat} {s : Text}
    (mem : (start, stop) ∈ identifierSpans col skip s) :
    start ≤ stop ∧ stop ≤ col + s.length := by
  induction s generalizing col skip with
  | nil => cases mem
  | cons c rest ih =>
      have behind {skip' : Nat} (later : (start, stop) ∈ identifierSpans (col + 1) skip' rest) :
          start ≤ stop ∧ stop ≤ col + (c :: rest).length := by
        have bounds := ih later
        rw [List.length_cons]
        omega
      cases skip with
      | succ k => exact behind mem
      | zero =>
          rw [identifierSpans] at mem
          split at mem
          case h_1 name after taken =>
              obtain here | later := List.mem_cons.mp mem
              · cases here
                rw [append_of_markedName? taken, List.length_append]
                omega
              · exact behind later
          case h_2 => exact behind mem

/-- The identifiers of a text with a character in it that is apart are those in front of it and
those behind it.  An identifier that was begun earlier ends in front of it too. -/
theorem identifierSpans_append_cons {x : Char} (apart : isApart x = true) (s t : Text)
    {col skip : Nat} (within : skip ≤ s.length) :
    identifierSpans col skip (s ++ x :: t) =
      identifierSpans col skip s ++ identifierSpans (col + s.length + 1) 0 t := by
  have taken := markedName?_append_cons apart (fun _ => isWordChar_of_isIdentStart)
  induction s generalizing col skip with
  | nil =>
      obtain rfl : skip = 0 := Nat.le_zero.mp within
      have none : markedName? isIdentStart (x :: t) = none := taken [] t
      have here : identifierSpans col 0 (x :: t) = identifierSpans (col + 1) 0 t := by
        rw [identifierSpans, none]
      exact here
  | cons c s ih =>
      have column : col + (c :: s).length + 1 = col + 1 + s.length + 1 := by
        rw [List.length_cons]
        omega
      rw [column]
      cases skip with
      | succ k => exact ih (Nat.le_of_succ_le_succ within)
      | zero =>
          rw [List.cons_append, identifierSpans, identifierSpans, ← List.cons_append, taken]
          cases name : markedName? isIdentStart (c :: s) with
          | none => exact ih (Nat.zero_le _)
          | some found =>
              have whole := congrArg List.length (append_of_markedName? name)
              rw [List.length_append, List.length_cons] at whole
              simp only [Option.map_some, List.cons_append]
              rw [ih (by omega)]

/-- The identifiers of a line behind a front part that ends apart: those in front end before. -/
theorem exists_identifierSpans_append {front : Text} (ends : front.getLast?.all isApart = true)
    (s : Text) :
    ∃ earlier, identifierSpans 0 0 (front ++ s) = earlier ++ identifierSpans front.length 0 s ∧
      ∀ span ∈ earlier, span.2 < front.length := by
  obtain rfl | ⟨init, x, rfl⟩ := List.eq_nil_or_concat front
  · exact ⟨[], rfl, fun _ mem => nomatch mem⟩
  · have apart : isApart x = true := by simpa using ends
    refine ⟨identifierSpans 0 0 init, ?_, ?_⟩
    · rw [List.concat_eq_append, List.append_assoc, List.singleton_append,
        identifierSpans_append_cons apart init s (Nat.zero_le _), Nat.zero_add,
        List.length_append, List.length_singleton]
    · rintro ⟨start, stop⟩ mem
      have bounds := bounds_of_mem_identifierSpans mem
      rw [List.concat_eq_append, List.length_append, List.length_singleton]
      omega

/-- A column that touches the identifier behind such a front part has this identifier as its
word. -/
theorem wordAt?_append {front s name rest : Text} (ends : front.getLast?.all isApart = true)
    (taken : markedName? isIdentStart s = some (name, rest)) {c : Nat} (from_ : front.length ≤ c)
    (to_ : c ≤ front.length + name.length) :
    wordAt? (front ++ s) c = some (front.length, front.length + name.length) := by
  obtain ⟨earlier, spans, before⟩ := exists_identifierSpans_append ends s
  have first : ∃ later, identifierSpans front.length 0 s =
      (front.length, front.length + name.length) :: later := by
    cases s with
    | nil => cases taken
    | cons d s =>
        rw [identifierSpans, taken]
        exact ⟨_, rfl⟩
  obtain ⟨later, first⟩ := first
  rw [wordAt?, spans, first, List.find?_append, List.find?_eq_none.mpr ?passed, Option.none_or,
    List.find?_cons_of_pos ?touched]
  case passed =>
    intro span mem touched
    have stop := before span mem
    simp only [Bool.and_eq_true, decide_eq_true_eq] at touched
    omega
  case touched =>
    simp only [Bool.and_eq_true, decide_eq_true_eq]
    omega

/-- What stands at the columns of a part of a line. -/
theorem between_append (front w rest : Text) :
    between (front ++ (w ++ rest)) front.length (front.length + w.length) = w := by
  rw [between, List.drop_take, List.drop_left, Nat.add_sub_cancel_left, List.take_left]

end Lookup

end Dragonstone
