/-
# Tab stops

A tab stop is written in one of three forms: a dollar sign and a number, the same with the number in
braces, or with a colon and a default text between the number and the closing brace.  No text begins
with stops of two forms, and only with stops of the first form it may begin in more than one way,
since a shorter number is a part of a longer one.  The reader takes the longest.

So the end of a text may be cut off without a change to what it begins with, as long as the stop in
front stays whole: every stop that the shorter text begins with is one that the longer text begins
with.
-/

import Dragonstone.Completion.Snippet
import Dragonstone.Proofs.Text.Word

namespace Dragonstone.Completion

/-! ### The three forms -/

/-- A number has digits of any script, and at least one. -/
def IsNumber (digits : Text) : Prop :=
  digits ≠ [] ∧ ∀ d ∈ digits, isDecimalDigit d = true

/-- The forms of a stop, each with the text that takes its place. -/
inductive IsTabStop : TabStop → Prop where
  | bare {digits : Text} (number : IsNumber digits) : IsTabStop ⟨'$' :: digits, []⟩
  | braced {digits : Text} (number : IsNumber digits) :
      IsTabStop ⟨['$', '\x7b'] ++ digits ++ ['\x7d'], []⟩
  | withDefault {digits default : Text} (number : IsNumber digits) (closed : '\x7d' ∉ default) :
      IsTabStop ⟨['$', '\x7b'] ++ digits ++ ':' :: default ++ ['\x7d'], default⟩

theorem IsTabStop.length_pos {stop : TabStop} (form : IsTabStop stop) :
    0 < stop.written.length := by
  cases form <;> simp

theorem IsTabStop.exists_cons {stop : TabStop} (form : IsTabStop stop) :
    ∃ c tail, stop.written = c :: tail :=
  List.exists_cons_of_length_pos form.length_pos

/-- The text begins with the stop, and with no longer one. -/
structure TabStop.Leads (stop : TabStop) (t : Text) : Prop where
  form : IsTabStop stop
  written : stop.written <+: t
  longest : ∀ other, IsTabStop other → other.written <+: t →
    other.written.length ≤ stop.written.length

/-- The text that is left if the end is cut off begins with the same stop. -/
theorem TabStop.Leads.shorten {stop : TabStop} {t u : Text} (leads : stop.Leads t) (cut : u <+: t)
    (whole : stop.written <+: u) : stop.Leads u :=
  ⟨leads.form, whole, fun other form here => leads.longest other form (here.trans cut)⟩

/-! ### Numbers -/

/-- The number at the front of a text is taken whole. -/
theorem stopNumber?_eq_some_iff {s digits after : Text} :
    stopNumber? s = some (digits, after) ↔
      IsNumber digits ∧ s = digits ++ after ∧ after.head?.any isDecimalDigit = false := by
  simp only [stopNumber?, Option.ite_none_left_eq_some, Option.some.injEq, Prod.mk.injEq,
    List.isEmpty_iff]
  constructor
  · rintro ⟨inked, rfl, rfl⟩
    exact ⟨⟨inked, List.all_eq_true.mp List.all_takeWhile⟩,
      List.takeWhile_append_dropWhile.symm, head?_any_dropWhile s⟩
  · rintro ⟨number, rfl, ends⟩
    obtain ⟨taken, left⟩ := takeWhile_append_of_head number.2 ends
    rw [taken, left]
    exact ⟨number.1, rfl, rfl⟩

theorem stopNumber?_append {digits : Text} (number : IsNumber digits) {c : Char}
    (other : isDecimalDigit c = false) (rest : Text) :
    stopNumber? (digits ++ c :: rest) = some (digits, c :: rest) :=
  stopNumber?_eq_some_iff.mpr ⟨number, rfl, other⟩

theorem IsNumber.head_ne_brace {digits : Text} (number : IsNumber digits) :
    ∃ d rest, digits = d :: rest ∧ d ≠ '\x7b' := by
  cases digits with
  | nil => exact absurd rfl number.1
  | cons d rest =>
      refine ⟨d, rest, rfl, ?_⟩
      rintro rfl
      exact absurd (number.2 _ List.mem_cons_self) (by decide)

/-! ### The reader -/

theorem tabStop?_braced (rest : Text) :
    tabStop? ('$' :: '\x7b' :: rest) = (stopNumber? rest).bind fun (digits, after) =>
      bracedStop? ['$', '\x7b'] digits after :=
  rfl

theorem tabStop?_bare {c : Char} (bare : c ≠ '\x7b') (rest : Text) :
    tabStop? ('$' :: c :: rest) =
      (stopNumber? (c :: rest)).map fun (digits, _) => ⟨'$' :: digits, []⟩ := by
  rw [tabStop?]
  rintro _ ⟨⟩
  exact bare rfl

/-- What follows the number in braces is read up to the first closing brace. -/
theorem bracedStop?_withDefault (opening digits : Text) {default : Text}
    (closed : '\x7d' ∉ default) (rest : Text) :
    bracedStop? opening digits (':' :: default ++ '\x7d' :: rest) =
      some ⟨opening ++ digits ++ ':' :: default ++ ['\x7d'], default⟩ := by
  have taken : (default ++ '\x7d' :: rest).takeWhile (· != '\x7d') = default := by
    refine (takeWhile_append_of_head (fun c mem => ?_) rfl).1
    exact bne_iff_ne.mpr fun same => closed (same ▸ mem)
  rw [List.cons_append, bracedStop?, taken, if_pos (by simp)]

/-- Where the run up to a brace is not the whole text, the brace is there. -/
theorem exists_dropWhile_of_length_lt {brace : Char} {body : Text}
    (shorter : (body.takeWhile (· != brace)).length < body.length) :
    ∃ rest, body.dropWhile (· != brace) = brace :: rest := by
  have ends := head?_any_dropWhile (p := (· != brace)) body
  cases behind : body.dropWhile (· != brace) with
  | nil =>
      have whole := List.takeWhile_append_dropWhile (p := (· != brace)) (l := body)
      rw [behind, List.append_nil] at whole
      rw [whole] at shorter
      exact absurd shorter (Nat.lt_irrefl _)
  | cons c rest =>
      rw [behind] at ends
      have same : c = brace := by simpa using ends
      exact ⟨rest, by rw [same]⟩

theorem isTabStop_of_bracedStop? {digits after : Text} {stop : TabStop} (number : IsNumber digits)
    (found : bracedStop? ['$', '\x7b'] digits after = some stop) :
    IsTabStop stop ∧ stop.written <+: ['$', '\x7b'] ++ digits ++ after := by
  unfold bracedStop? at found
  split at found
  case h_1 rest =>
    cases found
    exact ⟨.braced number, rest, by simp⟩
  case h_2 body =>
    obtain ⟨shorter, same⟩ := Option.ite_none_right_eq_some.mp found
    cases same
    have closed : '\x7d' ∉ body.takeWhile (· != '\x7d') := fun mem => by
      simpa using List.all_eq_true.mp List.all_takeWhile _ mem
    obtain ⟨rest, behind⟩ := exists_dropWhile_of_length_lt shorter
    refine ⟨.withDefault number closed, rest, ?_⟩
    have cut := List.takeWhile_append_dropWhile (p := (· != '\x7d')) (l := body)
    rw [behind] at cut
    simp only [List.append_assoc, List.cons_append, List.nil_append, cut]
  case h_3 => cases found

/-- A stop that is read stands at the front of the text. -/
theorem isTabStop_of_tabStop? {t : Text} {stop : TabStop} (found : tabStop? t = some stop) :
    IsTabStop stop ∧ stop.written <+: t := by
  unfold tabStop? at found
  split at found
  case h_1 rest =>
    obtain ⟨⟨digits, after⟩, read, braced⟩ := Option.bind_eq_some_iff.mp found
    obtain ⟨number, rfl, _⟩ := stopNumber?_eq_some_iff.mp read
    exact isTabStop_of_bracedStop? number braced
  case h_2 rest _ =>
    obtain ⟨⟨digits, after⟩, read, rfl⟩ := Option.map_eq_some_iff.mp found
    obtain ⟨number, rfl, _⟩ := stopNumber?_eq_some_iff.mp read
    exact ⟨.bare number, List.prefix_append ('$' :: digits) after⟩
  case h_3 => cases found

/-- Where a text begins with a stop, that stop is read, or a bare one with a longer number. -/
theorem exists_tabStop?_of_isTabStop {t : Text} {stop : TabStop} (form : IsTabStop stop)
    (written : stop.written <+: t) :
    ∃ found, tabStop? t = some found ∧
      (found = stop ∨ stop.written.length < found.written.length) := by
  obtain ⟨rest, rfl⟩ := written
  cases form with
  | @bare digits number =>
      -- More digits may follow, and they belong to the stop that is read.
      have more : IsNumber (digits ++ rest.takeWhile isDecimalDigit) := by
        refine ⟨fun none => number.1 (List.append_eq_nil_iff.mp none).1, fun d mem => ?_⟩
        obtain mem | mem := List.mem_append.mp mem
        · exact number.2 d mem
        · exact List.all_eq_true.mp List.all_takeWhile d mem
      have read := stopNumber?_eq_some_iff.mpr ⟨more, rfl, head?_any_dropWhile rest⟩
      rw [List.append_assoc, List.takeWhile_append_dropWhile] at read
      obtain ⟨d, tail, rfl, bare⟩ := number.head_ne_brace
      refine ⟨_, (tabStop?_bare bare (tail ++ rest)).trans (congrArg _ read), ?_⟩
      cases rest.takeWhile isDecimalDigit with
      | nil => exact .inl (by simp)
      | cons c more => exact .inr (by simp)
  | @braced digits number =>
      refine ⟨_, ?_, .inl rfl⟩
      have whole : ['$', '\x7b'] ++ digits ++ ['\x7d'] ++ rest =
          '$' :: '\x7b' :: (digits ++ '\x7d' :: rest) := by simp
      rw [whole, tabStop?_braced, stopNumber?_append number (by decide)]
      rfl
  | @withDefault digits default number closed =>
      refine ⟨_, ?_, .inl rfl⟩
      have whole : ['$', '\x7b'] ++ digits ++ ':' :: default ++ ['\x7d'] ++ rest =
          '$' :: '\x7b' :: (digits ++ ':' :: (default ++ '\x7d' :: rest)) := by simp
      rw [whole, tabStop?_braced, stopNumber?_append number (by decide)]
      exact bracedStop?_withDefault _ digits closed rest

theorem tabStop?_eq_some_iff {t : Text} {stop : TabStop} :
    tabStop? t = some stop ↔ stop.Leads t := by
  constructor
  · intro found
    obtain ⟨form, written⟩ := isTabStop_of_tabStop? found
    refine ⟨form, written, fun other form' written' => ?_⟩
    obtain ⟨_, found', same | longer⟩ := exists_tabStop?_of_isTabStop form' written'
    all_goals cases found.symm.trans found'
    · cases same
      exact Nat.le_refl _
    · exact Nat.le_of_lt longer
  · intro leads
    obtain ⟨found, read, rfl | longer⟩ := exists_tabStop?_of_isTabStop leads.form leads.written
    · exact read
    · obtain ⟨form, written⟩ := isTabStop_of_tabStop? read
      exact absurd (leads.longest found form written) (Nat.not_le_of_lt longer)

theorem tabStop?_eq_none_iff {t : Text} :
    tabStop? t = none ↔ ∀ stop, IsTabStop stop → ¬ stop.written <+: t := by
  constructor
  · intro none stop form written
    obtain ⟨found, read, _⟩ := exists_tabStop?_of_isTabStop form written
    cases none.symm.trans read
  · intro unmarked
    cases read : tabStop? t with
    | none => rfl
    | some stop =>
        obtain ⟨form, written⟩ := isTabStop_of_tabStop? read
        exact absurd written (unmarked stop form)

end Dragonstone.Completion
