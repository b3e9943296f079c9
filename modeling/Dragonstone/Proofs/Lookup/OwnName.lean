/-
# Definitions found from their own names

A definition names something on its line.  Looking up what stands there should lead to the
definition, or to an earlier one that answers to the same word.

It does, up to one thing.  The word at a column takes the mark that stands right behind an
identifier, and so does the name of a method or a function; the names of types, modules, constants
and variables end in front of it.  Where such a name has a mark glued to it, the word is the name
with the mark, and no symbol that is named without the mark answers to it.  Then the definition is
found only if something above it has the mark in its name.
-/

import Dragonstone.Proofs.Definition.Parts
import Dragonstone.Proofs.Lookup.Identifiers
import Dragonstone.Proofs.Lookup.Outline

namespace Dragonstone

namespace Definition

/-- The mark that the word has and the name has not, where `rest` stands behind the name. -/
def gluedMark? (d : Definition) (rest : Text) : Option Char :=
  if d.isCallable then none else rest.head?.filter isNameMark

variable {line : Line} {d : Definition} {front rest : Text}

/-- What stands in front of a name does not touch it. -/
theorem Leads.ends (leads : d.Leads front) : front.getLast?.all isApart = true := by
  have blanks {s : Text} (all : IsBlanks s) : s.getLast?.all isApart = true := by
    cases h : s.getLast? with
    | none => rfl
    | some c => exact isApart_of_isBlank (all c (List.mem_of_getLast? h))
  have behind (s : Text) {gap : Text} (isGap : IsGap gap) :
      (s ++ gap).getLast?.all isApart = true := by
    obtain ⟨c, last⟩ := Option.isSome_iff_exists.mp (List.getLast?_isSome.mpr isGap.some)
    have ends := blanks isGap.blanks
    rw [last] at ends
    rwa [List.getLast?_append, last]
  cases leads with
  | bare all => exact blanks all
  | @word _ keyword indent gap _ _ _ _ isGap =>
      rw [← List.append_assoc]
      exact behind _ isGap
  | @modifier keyword _ modifier indent gap gap' _ _ _ _ isGap' =>
      simp only [← List.append_assoc]
      exact behind _ isGap'
  | @receiver keyword receiver _ indent gap _ =>
      simp only [← List.append_assoc]
      rw [List.getLast?_concat]
      exact (by decide : isApart '.' = true)

/-- The word that begins with the name is the name with the mark that is glued to it. -/
theorem TakesName.exists_markedName? (takes : d.TakesName rest) :
    ∃ behind, markedName? isIdentStart (d.ownName ++ rest) =
      some (d.ownName ++ (d.gluedMark? rest).toList, behind) := by
  unfold TakesName at takes
  unfold gluedMark?
  split at takes
  case isTrue callable =>
      rw [if_pos callable, takes]
      exact ⟨rest, by simp⟩
  case isFalse plain =>
      rw [if_neg plain, markedName?, takes, Option.map_some]
      cases rest with
      | nil => exact ⟨[], by simp⟩
      | cons c behind =>
          by_cases mark : isNameMark c = true
          · exact ⟨behind, by simp [mark, Option.filter]⟩
          · exact ⟨c :: behind, by simp [mark, Option.filter]⟩

end Definition

namespace Lookup

open Definition

/-- A symbol answers to its name without the receiver. -/
theorem answersTo_ownName (d : Definition) (n : Nat) (line : Line) :
    answersTo (d.toSymbol n line) d.ownName = true := by
  have answers : d.name = d.ownName ∨ '.' :: d.ownName <:+ d.name := by
    rw [name_eq_qualified]
    cases d.owner? with
    | none => exact .inl rfl
    | some receiver => exact .inr (List.suffix_append receiver _)
  rw [answersTo, toSymbol]
  simp only [Bool.or_eq_true, beq_iff_eq, List.isSuffixOf_iff_suffix]
  exact .inl answers

/-- A name has no receiver and is shorter than the name with a mark: it does not answer to it. -/
theorem answersTo_gluedMark {d : Definition} {rest : Text} {mark : Char}
    (glued : d.gluedMark? rest = some mark) (n : Nat) (line : Line) :
    answersTo (d.toSymbol n line) (d.ownName ++ [mark]) = false := by
  have own : d.name = d.ownName := by
    cases d with
    | methodDecl => simp [gluedMark?, isCallable] at glued
    | typeDecl | moduleDecl | functionDecl | constantDecl | variableDecl => rfl
  rw [Bool.eq_false_iff]
  intro answers
  simp only [answersTo, toSymbol, own, Bool.or_eq_true, beq_iff_eq, List.isSuffixOf_iff_suffix,
    List.any_eq_true] at answers
  obtain (same | suffix) | ⟨mark', _, same⟩ := answers
  · have length := congrArg List.length same
    rw [List.length_append, List.length_singleton] at length
    omega
  · have length := suffix.length_le
    rw [List.length_cons, List.length_append, List.length_singleton] at length
    omega
  · have length := congrArg List.length same
    simp only [List.length_append, List.length_singleton] at length
    omega

/-- Where symbols are listed by their lines, the one that is found is not behind a line if any that
answers is not. -/
theorem exists_find?_iff {symbols : List Symbol}
    (sorted : symbols.Pairwise fun s t => s.line < t.line) (word : Text) (k : Int) :
    (∃ t, find? symbols word = some t ∧ t.line ≤ k) ↔
      ∃ t ∈ symbols, t.line ≤ k ∧ answersTo t word = true := by
  constructor
  · rintro ⟨t, found, before⟩
    have answers := List.find?_some (p := fun t => answersTo t word) found
    exact ⟨t, List.mem_of_find?_eq_some found, before, answers⟩
  · rintro ⟨t, mem, before, answers⟩
    have answered : (find? symbols word).isSome = true :=
      List.find?_isSome.mpr ⟨t, mem, answers⟩
    obtain ⟨first, found⟩ := Option.isSome_iff_exists.mp answered
    refine ⟨first, found, Int.le_trans ?_ before⟩
    obtain ⟨_, passed, later, whole, none⟩ := List.find?_eq_some_iff_append.mp found
    rw [whole] at mem sorted
    obtain early | late := List.mem_append.mp mem
    · exact absurd answers (by simpa using none t early)
    · obtain rfl | late := List.mem_cons.mp late
      · exact Int.le_refl _
      · exact Int.le_of_lt (List.rel_of_pairwise_cons (List.pairwise_append.mp sorted).2.1 late)

/-- A word leads to a definition that begins not behind a line exactly if a symbol up to this line
answers to the word. -/
theorem exists_definition?_iff {text : Text} {p : Position} {word : Text} {range : Range}
    (found : wordIn? text p = some (word, range)) (uri : String) (k : Int) :
    (∃ target, definition? uri text p = some target ∧ target.range.start.line ≤ k) ↔
      ∃ t ∈ outline text, t.line ≤ k ∧ answersTo t word = true := by
  have symbol : symbolAt? text p = find? (outline text) word := by
    rw [symbolAt?, found, Option.bind_some]
  rw [← exists_find?_iff (pairwise_line_outline text), definition?, symbol]
  constructor
  · rintro ⟨target, h, before⟩
    obtain ⟨t, first, rfl⟩ := Option.map_eq_some_iff.mp h
    have start := start_line_of_mem_outline (List.mem_of_find?_eq_some first)
    exact ⟨t, first, start ▸ before⟩
  · rintro ⟨t, first, before⟩
    have start := start_line_of_mem_outline (List.mem_of_find?_eq_some first)
    exact ⟨⟨uri, t.range⟩, by rw [first, Option.map_some], start.symm ▸ before⟩

end Lookup

/-- The symbol is made from what the line defines, whose name stands there between the two parts of
the line. -/
structure Symbol.NamedBy (s : Symbol) (text : Text) (line : Line) (d : Definition)
    (front rest : Text) : Prop where
  at_ : (lines text)[s.line.toNat]? = some line
  defines : Definition.ofLine? line = some d
  stands : Definition.NameStands line d front rest

namespace Lookup

open Definition

section Named

variable {text : Text} {s : Symbol} (mem : s ∈ outline text)

include mem

theorem exists_namedBy : ∃ line d front rest, s.NamedBy text line d front rest := by
  obtain ⟨i, line, d, at_, defines, rfl⟩ := exists_toSymbol_of_mem_outline mem
  obtain ⟨front, rest, stands, _⟩ := hasName_of_ofLine? defines
  exact ⟨line, d, front, rest, at_, defines, stands⟩

variable {line : Line} {d : Definition} {front rest : Text}
  (named : s.NamedBy text line d front rest)

include named

theorem eq_toSymbol_of_namedBy : ∃ i : Nat, s = d.toSymbol i line := by
  obtain ⟨i, line', d', at_, defines, rfl⟩ := exists_toSymbol_of_mem_outline mem
  obtain rfl : line' = line := Option.some.inj (at_.symm.trans named.at_)
  obtain rfl : d' = d := Option.some.inj (defines.symm.trans named.defines)
  exact ⟨i, rfl⟩

omit mem in
/-- The name is taken from where it stands. -/
theorem takesName_of_namedBy : d.TakesName rest := by
  obtain ⟨front', rest', stands, takes⟩ := hasName_of_ofLine? named.defines
  obtain ⟨_, rfl⟩ := stands.unique named.stands takes
  exact takes

/-- The word on the name of a definition is the name with the mark that is glued to it. -/
theorem exists_wordIn?_of_namedBy {c : Nat} (from_ : front.length ≤ c)
    (to_ : c ≤ front.length + d.ownName.length) :
    ∃ range, wordIn? text ⟨s.line, c⟩ = some (d.ownName ++ (d.gluedMark? rest).toList, range) := by
  obtain ⟨behind, taken⟩ := (takesName_of_namedBy named).exists_markedName?
  obtain ⟨i, made⟩ := eq_toSymbol_of_namedBy mem named
  have natural : (0 : Int) ≤ s.line := made ▸ Int.natCast_nonneg i
  have whole := named.stands.whole
  have touched := wordAt?_append named.stands.leads.ends taken from_ (by
    rw [List.length_append]
    omega)
  rw [append_of_markedName? taken] at whole
  rw [append_of_markedName? taken, ← whole] at touched
  simp only [wordIn?, if_pos natural, named.at_, touched, Option.bind_eq_bind, Option.bind_some]
  rw [whole, between_append]
  exact ⟨_, rfl⟩

end Named

/-- A definition is found from its own name if no mark is glued to the name, and otherwise exactly
if a symbol above answers to the name with the mark. -/
theorem name_leads_to_definition_iff (uri : String) (text : Text) {s : Symbol}
    (mem : s ∈ outline text) :
    (∃ line d front rest, s.NamedBy text line d front rest) ∧
      ∀ line d front rest, s.NamedBy text line d front rest →
        ∀ c : Nat, front.length ≤ c → c ≤ front.length + d.ownName.length →
          ((∃ target, definition? uri text ⟨s.line, c⟩ = some target ∧
              target.range.start.line ≤ s.line) ↔
            ∀ mark, d.gluedMark? rest = some mark →
              ∃ t ∈ outline text, t.line < s.line ∧ answersTo t (d.ownName ++ [mark]) = true) := by
  refine ⟨exists_namedBy mem, ?_⟩
  intro line d front rest named c from_ to_
  obtain ⟨range, word⟩ := exists_wordIn?_of_namedBy mem named from_ to_
  obtain ⟨i, made⟩ := eq_toSymbol_of_namedBy mem named
  rw [exists_definition?_iff word]
  cases glued : d.gluedMark? rest with
  | none =>
      refine ⟨fun _ mark h => (nomatch h), fun _ => ⟨s, mem, Int.le_refl _, ?_⟩⟩
      rw [Option.toList_none, List.append_nil, made]
      exact answersTo_ownName d i line
  | some mark =>
      constructor
      · rintro ⟨t, mem', before, answers⟩ mark' same
        cases same
        refine ⟨t, mem', Int.lt_iff_le_and_ne.mpr ⟨before, fun sameLine => ?_⟩, answers⟩
        rw [symbol_eq_of_line_eq mem mem' sameLine, made] at answers
        cases (answersTo_gluedMark glued i line).symm.trans answers
      · intro above
        obtain ⟨t, mem', before, answers⟩ := above mark rfl
        exact ⟨t, mem', Int.le_of_lt before, answers⟩

/-- Below a setter of the same name, a constant with the sign glued to it leads to the setter. -/
theorem name_leads_to_definition_iff_below_setter :
    let text := "def LIMIT=(x)\nend\nLIMIT=10".toList
    let s := (Definition.constantDecl "LIMIT".toList).toSymbol 2 "LIMIT=10".toList
    s ∈ outline text ∧ ∃ target, definition? "u" text ⟨s.line, 3⟩ = some target ∧
      target.range.start.line ≤ s.line := by
  intro text s
  have mem : s ∈ outline text := by decide +kernel
  have named : s.NamedBy text "LIMIT=10".toList (.constantDecl "LIMIT".toList) [] "=10".toList :=
    ⟨by decide +kernel, by decide +kernel, rfl, .bare (by decide)⟩
  refine ⟨mem, ((name_leads_to_definition_iff "u" text mem).2 _ _ _ _ named 3 (by decide)
    (by decide)).mpr ?_⟩
  intro mark glued
  obtain rfl : mark = '=' := Option.some.inj (glued.symm.trans (by decide))
  let setter := Definition.methodDecl "def".toList none "LIMIT=".toList (some "x".toList)
  have above : setter.toSymbol 0 "def LIMIT=(x)".toList ∈ outline text := by decide +kernel
  exact ⟨_, above, by decide, by decide +kernel⟩

/-- Without the setter, the constant is not found from its name. -/
theorem glued_constant_is_not_found :
    ¬ ∀ (uri : String) (text : Text), ∀ s ∈ outline text, ∀ line d front rest,
      s.NamedBy text line d front rest →
        ∀ c : Nat, front.length ≤ c → c < front.length + d.ownName.length →
          ∃ target, definition? uri text ⟨s.line, c⟩ = some target ∧
            target.range.start.line ≤ s.line := by
  intro always
  let text := "LIMIT=10".toList
  let s := (Definition.constantDecl "LIMIT".toList).toSymbol 0 text
  have mem : s ∈ outline text := by decide +kernel
  have named : s.NamedBy text text (.constantDecl "LIMIT".toList) [] "=10".toList :=
    ⟨by decide +kernel, by decide +kernel, rfl, .bare (by decide)⟩
  obtain ⟨target, found, _⟩ := always "u" text s mem _ _ _ _ named 0 (by decide) (by decide)
  have nothing : definition? "u" text ⟨s.line, 0⟩ = none := by decide +kernel
  cases nothing.symm.trans found

end Lookup

end Dragonstone
