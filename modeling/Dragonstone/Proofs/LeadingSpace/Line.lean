/-
# Leading space of a line

What is read off a line is the same with and without the space in front of it.  The scan for
comment markers, the roles of the characters and the test for lines without code ignore every
space of Unicode.  The recognisers of block structure ignore the six blanks of the grammar only:
another space in front of a keyword hides the keyword from them.

Every statement is about one character in front of a line first, and about the whole leading run
by `apply_dropWhile`.
-/

import Dragonstone.Block
import Dragonstone.Comment
import Dragonstone.Proofs.Role.Reading
import Dragonstone.Proofs.Text.Word

namespace Dragonstone

open Block

/-- The line without its leading space. -/
def ink (line : Line) : Line :=
  line.dropWhile isSpace

@[simp] theorem leadingSpace_append_ink (line : Line) : leadingSpace line ++ ink line = line :=
  List.takeWhile_append_dropWhile

theorem isSpace_of_ink_eq_cons {line rest : Line} {c : Char} (h : ink line = c :: rest) :
    isSpace c = false := by
  have hhead := List.head?_dropWhile_not isSpace line
  rw [show line.dropWhile isSpace = c :: rest from h] at hhead
  exact hhead

/-- No class of spaces finds anything to take in front of ink. -/
theorem takeWhile_ink {p : Char → Bool} (spaces : ∀ c, p c = true → isSpace c = true)
    (line : Line) : (ink line).takeWhile p = [] := by
  cases hink : ink line with
  | nil => rfl
  | cons c rest =>
      apply List.takeWhile_cons_of_neg
      intro hc
      have hspace := spaces c hc
      rw [isSpace_of_ink_eq_cons hink] at hspace
      cases hspace

/-- No class of spaces finds anything to drop in front of ink. -/
theorem dropWhile_ink {p : Char → Bool} (spaces : ∀ c, p c = true → isSpace c = true)
    (line : Line) : (ink line).dropWhile p = ink line := by
  calc (ink line).dropWhile p
      = (ink line).takeWhile p ++ (ink line).dropWhile p := by rw [takeWhile_ink spaces]; rfl
    _ = ink line := List.takeWhile_append_dropWhile

/-- A line that is looked into has ink. -/
theorem ink_ne_nil {line : Line} (h : isSkipped line = false) : ink line ≠ [] := by
  intro hink
  have hfirst : firstInk line = none := congrArg List.head? hink
  rw [isSkipped, hfirst] at h
  cases h

/-! ### Comment markers -/

theorem ofPair?_of_isSpace {c : Char} (hc : isSpace c = true) (d : Char) :
    Marker.ofPair? c d = none := by
  have hopen : c ≠ '#' := ne_of_isSpace hc (by decide)
  have hclose : c ≠ ']' := ne_of_isSpace hc (by decide)
  simp [Marker.ofPair?, hopen, hclose]

theorem markersFrom_succ (col : Nat) (s : Text) :
    markersFrom (col + 1) s = (markersFrom col s).map fun m => (m.1 + 1, m.2) := by
  induction s generalizing col with
  | nil => rfl
  | cons a rest ih =>
      cases rest with
      | nil => rfl
      | cons b rest =>
          simp only [markersFrom]
          cases Marker.ofPair? a b with
          | none => exact ih (col + 1)
          | some m => rw [ih (col + 1), List.map_cons]

theorem markers_cons {c : Char} (hc : isSpace c = true) (line : Line) :
    markers (c :: line) = (markers line).map fun m => (m.1 + 1, m.2) := by
  rw [markers, markers, ← markersFrom_succ]
  cases line with
  | nil => rfl
  | cons d line => simp only [markersFrom, ofPair?_of_isSpace hc d]

/-- A space in front of a line does not change what the line does to the depth of comments. -/
theorem scanComments_cons {c : Char} (hc : isSpace c = true) (line : Line) (depth : Int) :
    scanComments (c :: line) depth = scanComments line depth := by
  have hcount (kind : Marker) : markerCount kind (c :: line) = markerCount kind line := by
    rw [markerCount, markerCount, markers_cons hc, List.countP_map]
    rfl
  rw [scanComments, scanComments, hcount, hcount]

/-- The walk goes the same way over markers that stand one column further on. -/
theorem walkMarkers_succ (depth : Int) (ms : List (Nat × Marker)) :
    (walkMarkers depth (ms.map fun m => (m.1 + 1, m.2))).1 =
      (walkMarkers depth ms).1.map (· + 1) := by
  induction ms generalizing depth with
  | nil => rfl
  | cons m rest ih =>
      obtain ⟨col, kind⟩ := m
      simp only [List.map_cons, walkMarkers]
      split
      · simp only [List.map_cons, ih depth]
      · exact ih (depth + kind.weight)

theorem strayCloses_cons {c : Char} (hc : isSpace c = true) (line : Line) (depth : Int) :
    strayCloses (c :: line) depth = (strayCloses line depth).map (· + 1) := by
  rw [strayCloses, markers_cons hc, walkMarkers_succ, strayCloses]

theorem isSkipped_cons {c : Char} (hc : isSpace c = true) (line : Line) :
    isSkipped (c :: line) = isSkipped line := by
  simp only [isSkipped, firstInk, List.dropWhile_cons_of_pos hc]

/-! ### Roles -/

/-- A space in front of a line is code and leaves the roles of the line as they are. -/
theorem rolesFrom_cons {c : Char} (hc : isSpace c = true) (line : Line) :
    rolesFrom none false (c :: line) =
      (.code :: (rolesFrom none false line).1, (rolesFrom none false line).2) :=
  rolesFrom_cons_of_plain (ne_of_isSpace hc (by decide)) (ne_of_isSpace hc (by decide))
    (Quote.ofChar?_eq_none_iff.mp (ofChar?_of_isSpace hc)) line

theorem mask_cons {c : Char} (hc : isSpace c = true) (line : Line) :
    mask (c :: line) = c :: mask line := by
  rw [mask, roles, rolesFrom_cons hc]
  rfl

theorem unclosedQuote?_cons {c : Char} (hc : isSpace c = true) (line : Line) :
    unclosedQuote? (c :: line) = unclosedQuote? line := by
  rw [unclosedQuote?, rolesFrom_cons hc]
  rfl

/-! ### Words and blocks -/

theorem skipBlanks_cons {c : Char} (hc : isBlank c = true) (s : Text) :
    skipBlanks (c :: s) = skipBlanks s :=
  List.dropWhile_cons_of_pos hc

/-- No word reaches over a space. -/
theorem wordStarts_append_cons {c : Char} (hc : isSpace c = true) (inside : Bool) (s t : Text) :
    wordStarts inside (s ++ c :: t) =
      (wordStarts inside s).map (· ++ c :: t) ++ wordStarts false t := by
  induction s generalizing inside with
  | nil => simp [wordStarts, isWordChar_of_isSpace hc]
  | cons d s ih =>
      rw [List.cons_append, wordStarts, wordStarts]
      split
      · rw [ih, List.map_cons, List.cons_append, List.cons_append]
      · exact ih (isWordChar d)

/-- A word ends at a space if not before. -/
theorem word_append_cons {c : Char} (hc : isSpace c = true) (s t : Text) :
    word (s ++ c :: t) = word s ∧ afterWord (s ++ c :: t) = afterWord s ++ c :: t := by
  have ends : (c :: t).head?.any isWordChar = false := isWordChar_of_isSpace hc
  exact word_append_of_head s ends

/-- The words of a text with a space in it are those before the space and those after it. -/
theorem words_append_cons {c : Char} (hc : isSpace c = true) (s t : Text) :
    words (s ++ c :: t) = (words s).map (fun w => (w.1, w.2 ++ c :: t)) ++ words t := by
  have hparts (u : Text) := word_append_cons hc u t
  simp only [words, wordStarts_append_cons hc, List.map_append, List.map_map, Function.comp_def,
    hparts]

theorem words_cons {c : Char} (hc : isSpace c = true) (s : Text) : words (c :: s) = words s :=
  words_append_cons hc [] s

theorem branch?_cons {c : Char} (hc : isBlank c = true) (masked : Line) :
    branch? (c :: masked) = branch? masked := by
  rw [branch?, skipBlanks_cons hc, branch?]

theorem isTerminator_cons {c : Char} (hc : isBlank c = true) (masked : Line) :
    isTerminator (c :: masked) = isTerminator masked := by
  rw [isTerminator, skipBlanks_cons hc, isTerminator]

theorem closesInline_cons {c : Char} (hc : isSpace c = true) (masked : Line) :
    closesInline (c :: masked) = closesInline masked := by
  rw [closesInline, words_cons hc, closesInline]

theorem opener?_cons {c : Char} (hc : isBlank c = true) (masked : Line) :
    opener? (c :: masked) = opener? masked := by
  have hspace : isSpace c = true := isSpace_of_isBlank hc
  have hleading : leadingOpener? (c :: masked) = leadingOpener? masked := by
    rw [leadingOpener?, skipBlanks_cons hc, leadingOpener?]
  have hanonymous : anonymousFunction? (c :: masked) = anonymousFunction? masked := by
    rw [anonymousFunction?, words_cons hspace, anonymousFunction?]
  have hdo : hasWord Vocabulary.doKeyword (c :: masked) = hasWord Vocabulary.doKeyword masked := by
    rw [hasWord, words_cons hspace, hasWord]
  rw [opener?, closesInline_cons hspace, hleading, hanonymous, hdo, opener?]

/-- A blank in front of a masked line leaves what the line does to the open blocks. -/
theorem ofLine_cons {c : Char} (hc : isBlank c = true) (masked : Line) :
    Form.ofLine (c :: masked) = Form.ofLine masked := by
  rw [Form.ofLine, branch?_cons hc, closesInline_cons (isSpace_of_isBlank hc), opener?_cons hc,
    isTerminator_cons hc, Form.ofLine]

/-! ### The whole leading run -/

/-- What ignores a blank in front of a masked line ignores the blanks in front of a line. -/
theorem apply_mask_skipBlanks {β : Type} {f : Line → β}
    (ignores : ∀ c rest, isBlank c = true → f (c :: rest) = f rest) (line : Line) :
    f (mask (skipBlanks line)) = f (mask line) := by
  apply apply_dropWhile (f := fun line => f (mask line))
  intro c rest hc
  rw [mask_cons (isSpace_of_isBlank hc), ignores c _ hc]

theorem scanComments_ink (line : Line) (depth : Int) :
    scanComments (ink line) depth = scanComments line depth :=
  apply_dropWhile (f := fun line => scanComments line depth)
    (fun _ rest hc => scanComments_cons hc rest depth) line

theorem scanComments_skipBlanks (line : Line) (depth : Int) :
    scanComments (skipBlanks line) depth = scanComments line depth :=
  apply_dropWhile (f := fun line => scanComments line depth)
    (fun _ rest hc => scanComments_cons (isSpace_of_isBlank hc) rest depth) line

end Dragonstone
