/-
# Texts without carriage returns

The editor's buffers separate lines by line feeds alone.  Loading a text takes its carriage returns
out, and nothing that the editor itself puts into a buffer brings one back: formatting moves lines
and keeps their breaks, and completions insert words of the language, their snippets, and names that
the document defines.
-/

import Dragonstone.Completion.Candidates
import Dragonstone.Completion.Snippet
import Dragonstone.Editor.Buffer
import Dragonstone.Proofs.Definition.Parts
import Dragonstone.Proofs.Indentation.Applied
import Dragonstone.Proofs.Lookup.Outline

namespace Dragonstone

namespace Editor

theorem not_mem_loaded (text : Text) : '\r' ∉ loaded text := by
  fun_induction loaded text with
  | case1 => exact List.not_mem_nil
  | case2 rest ih => simpa using ih
  | case3 rest _ ih => simpa using ih
  | case4 c rest _ other ih =>
      have hc : '\r' ≠ c := fun h => other h.symm
      simpa [hc] using ih

end Editor

/-! ### Formatting -/

theorem mem_of_mem_consChar {c d : Char} {line : Line} {ls : List Line}
    (h : line ∈ consChar c ls) (hd : d ∈ line) : d = c ∨ ∃ line ∈ ls, d ∈ line := by
  cases ls with
  | nil =>
      obtain rfl := List.mem_singleton.mp h
      exact .inl (List.mem_singleton.mp hd)
  | cons first rest =>
      obtain rfl | h := List.mem_cons.mp h
      · obtain rfl | hd := List.mem_cons.mp hd
        · exact .inl rfl
        · exact .inr ⟨first, List.mem_cons_self, hd⟩
      · exact .inr ⟨line, List.mem_cons_of_mem _ h, hd⟩

/-- The characters of the lines are characters of the text. -/
theorem mem_of_mem_lines {text : Text} {line : Line} (h : line ∈ lines text) {c : Char}
    (hc : c ∈ line) : c ∈ text := by
  fun_induction lines text generalizing line with
  | case1 => simp_all
  | case2 rest ih =>
      obtain rfl | h := List.mem_cons.mp h
      · cases hc
      · exact List.mem_cons_of_mem _ (List.mem_cons_of_mem _ (ih h hc))
  | case3 rest ih =>
      obtain rfl | h := List.mem_cons.mp h
      · cases hc
      · exact List.mem_cons_of_mem _ (ih h hc)
  | case4 d rest _ _ ih =>
      obtain rfl | ⟨line, h, hc⟩ := mem_of_mem_consChar h hc
      · exact List.mem_cons_self
      · exact List.mem_cons_of_mem _ (ih h hc)

theorem mem_lineBreaks_lf {text : Text} (plain : '\r' ∉ text) {b : LineBreak}
    (h : b ∈ lineBreaks text) : b = .lf := by
  fun_induction lineBreaks text with
  | case1 => cases h
  | case2 rest ih => exact absurd List.mem_cons_self plain
  | case3 rest ih =>
      obtain rfl | h := List.mem_cons.mp h
      · rfl
      · exact ih (List.not_mem_of_not_mem_cons plain) h
  | case4 d rest _ _ ih => exact ih (List.not_mem_of_not_mem_cons plain) h

/-- A woven text has the characters of its lines and breaks. -/
theorem mem_of_mem_weave {ls : List Line} {bs : List LineBreak} {c : Char}
    (h : c ∈ weave ls bs) : (∃ line ∈ ls, c ∈ line) ∨ ∃ b ∈ bs, c ∈ b.text := by
  fun_induction weave ls bs with
  | case1 => cases h
  | case2 line bs => exact .inl ⟨line, List.mem_singleton_self _, h⟩
  | case3 line rest _ ih =>
      obtain h | h := List.mem_append.mp h
      · exact .inl ⟨line, List.mem_cons_self, h⟩
      · obtain ⟨line, hl, hc⟩ | ⟨b, hb, _⟩ := ih h
        · exact .inl ⟨line, List.mem_cons_of_mem _ hl, hc⟩
        · cases hb
  | case4 line rest b bs _ ih =>
      obtain h | h := List.mem_append.mp h
      · obtain h | h := List.mem_append.mp h
        · exact .inl ⟨line, List.mem_cons_self, h⟩
        · exact .inr ⟨b, List.mem_cons_self, h⟩
      · obtain ⟨line, hl, hc⟩ | ⟨b, hb, hc⟩ := ih h
        · exact .inl ⟨line, List.mem_cons_of_mem _ hl, hc⟩
        · exact .inr ⟨b, List.mem_cons_of_mem _ hb, hc⟩

/-- The characters of a line in its place are spaces or characters of the line. -/
theorem mem_of_mem_place {width : Nat} {l : Layout} {line : Line} {c : Char}
    (h : c ∈ l.place width line) : c = ' ' ∨ c ∈ line := by
  unfold Layout.place at h
  split at h
  · exact .inr h
  · obtain h | h := List.mem_append.mp h
    · exact .inl (List.eq_of_mem_replicate h)
    · exact .inr ((List.dropWhile_suffix isSpace).subset h)

theorem mem_of_mem_placed {width : Nat} {l : Layout} {ls : List Line} {placed : Line}
    (h : placed ∈ l.placed width ls) {c : Char} (hc : c ∈ placed) :
    c = ' ' ∨ ∃ line ∈ ls, c ∈ line := by
  induction ls generalizing l with
  | nil => cases h
  | cons line rest ih =>
      obtain rfl | h := List.mem_cons.mp h
      · obtain space | hc := mem_of_mem_place hc
        · exact .inl space
        · exact .inr ⟨line, List.mem_cons_self, hc⟩
      · obtain space | ⟨other, hl, hc⟩ := ih h
        · exact .inl space
        · exact .inr ⟨other, List.mem_cons_of_mem _ hl, hc⟩

/-- Formatting brings no carriage return into a text. -/
theorem not_mem_formatted {text : Text} (plain : '\r' ∉ text) (width : Nat) :
    '\r' ∉ formatted width text := by
  have result : formatted width text =
      weave (Layout.placed width {} (lines text)) (lineBreaks text) := by
    rw [formatted, applyEdits_formatEdits]
  rw [result]
  intro h
  obtain ⟨placed, hp, hc⟩ | ⟨b, hb, hc⟩ := mem_of_mem_weave h
  · obtain space | ⟨line, hl, hc⟩ := mem_of_mem_placed hp hc
    · cases space
    · exact plain (mem_of_mem_lines hl hc)
  · rw [mem_lineBreaks_lf plain hb] at hc
    cases List.mem_singleton.mp hc

/-! ### Names -/

/-- No name that the document defines has a carriage return in it. -/
theorem not_mem_name_of_mem_outline {text : Text} {s : Symbol} (h : s ∈ outline text) :
    '\r' ∉ s.name := by
  obtain ⟨_, _, d, _, hd, rfl⟩ := exists_toSymbol_of_mem_outline h
  intro hr
  obtain letter | mark | dot := Definition.isWordChar_or_of_mem_name hd hr
  · cases letter
  · cases mark
  · cases dot

/-! ### Completions -/

namespace Completion

/-- Nothing that the vocabulary offers inserts a carriage return. -/
theorem not_mem_insertion_of_mem_vocabulary : ∀ item ∈ Vocabulary.keywordEntries ++
    Vocabulary.builtinEntries ++ Vocabulary.constantEntries ++ Vocabulary.specialMethodEntries ++
      Vocabulary.typeEntries, '\r' ∉ item.insertion.1 := by
  decide +kernel

/-- No candidate inserts a carriage return. -/
theorem not_mem_insertion_of_mem_candidates {text : Text} {p : Position} {item : Item}
    (h : item ∈ candidates text p) : '\r' ∉ item.insertion.1 := by
  unfold candidates at h
  obtain h | h := List.mem_append.mp h
  · refine not_mem_insertion_of_mem_vocabulary item ?_
    obtain h | h := List.mem_append.mp h
    · exact List.mem_append_left _ h
    · split at h
      · exact List.mem_append_right _ h
      · cases h
  · obtain ⟨s, hs, rfl⟩ := List.mem_map.mp h
    exact not_mem_name_of_mem_outline hs

end Completion

end Dragonstone
