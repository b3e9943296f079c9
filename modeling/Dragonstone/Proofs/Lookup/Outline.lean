/-
# Symbols and their lines

A symbol is what its line defines, so the line of a symbol tells which symbol it is, and the outline
lists the symbols by their lines.
-/

import Dragonstone.Symbol

namespace Dragonstone

/-- Every symbol is made from what one of the lines defines. -/
theorem exists_toSymbol_of_mem_outlineFrom {n : Nat} {depth : Int} {ls : List Line} {s : Symbol}
    (mem : s ∈ outlineFrom n depth ls) :
    ∃ i line d, ls[i]? = some line ∧ Definition.ofLine? line = some d ∧
      s = d.toSymbol (n + i) line := by
  induction ls generalizing n depth with
  | nil => cases mem
  | cons line rest ih =>
      rw [outlineFrom] at mem
      obtain here | later := List.mem_append.mp mem
      · rw [Option.mem_toList] at here
        split at here
        · cases here
        · obtain ⟨d, defines, rfl⟩ := Option.map_eq_some_iff.mp here
          exact ⟨0, line, d, rfl, defines, rfl⟩
      · obtain ⟨i, other, d, at_, defines, made⟩ := ih later
        rw [Nat.add_assoc, Nat.add_comm 1 i] at made
        exact ⟨i + 1, other, d, at_, defines, made⟩

theorem exists_toSymbol_of_mem_outline {text : Text} {s : Symbol} (mem : s ∈ outline text) :
    ∃ (i : Nat) (line : Line) (d : Definition), (lines text)[i]? = some line ∧
      Definition.ofLine? line = some d ∧ s = d.toSymbol i line := by
  obtain ⟨i, line, d, at_, defines, made⟩ := exists_toSymbol_of_mem_outlineFrom mem
  rw [Nat.zero_add] at made
  exact ⟨i, line, d, at_, defines, made⟩

/-- The range of a symbol begins on its line. -/
theorem start_line_of_mem_outline {text : Text} {s : Symbol} (mem : s ∈ outline text) :
    s.range.start.line = s.line := by
  obtain ⟨i, line, d, _, _, rfl⟩ := exists_toSymbol_of_mem_outline mem
  rfl

/-- No line makes two symbols. -/
theorem symbol_eq_of_line_eq {text : Text} {s t : Symbol} (mem : s ∈ outline text)
    (mem' : t ∈ outline text) (same : t.line = s.line) : t = s := by
  obtain ⟨i, line, d, at_, defines, rfl⟩ := exists_toSymbol_of_mem_outline mem
  obtain ⟨j, line', d', at_', defines', rfl⟩ := exists_toSymbol_of_mem_outline mem'
  obtain rfl : j = i := Int.ofNat_inj.mp same
  obtain rfl : line' = line := Option.some.inj (at_'.symm.trans at_)
  obtain rfl : d' = d := Option.some.inj (defines'.symm.trans defines)
  rfl

theorem pairwise_line_outlineFrom (n : Nat) (depth : Int) (ls : List Line) :
    (outlineFrom n depth ls).Pairwise (fun s t => s.line < t.line) := by
  induction ls generalizing n depth with
  | nil => exact .nil
  | cons line rest ih =>
      rw [outlineFrom, List.pairwise_append]
      refine ⟨?here, ih _ _, ?later⟩
      case here =>
        split
        · exact .nil
        · cases Definition.ofLine? line with
          | none => exact .nil
          | some d => exact List.pairwise_singleton _ _
      case later =>
        intro s mem t mem'
        obtain ⟨i, _, _, _, _, rfl⟩ := exists_toSymbol_of_mem_outlineFrom mem'
        rw [Option.mem_toList] at mem
        split at mem
        · cases mem
        · obtain ⟨d, _, rfl⟩ := Option.map_eq_some_iff.mp mem
          have before : (n : Int) < (n + 1 + i : Nat) := by omega
          exact before

/-- Symbols are listed by their lines. -/
theorem pairwise_line_outline (text : Text) :
    (outline text).Pairwise (fun s t => s.line < t.line) :=
  pairwise_line_outlineFrom 0 0 (lines text)

end Dragonstone
