/-
# The comment that is open at the end

A document may open block comments, close them and close more than were open, any number of times,
and still end within a comment.  The comment that is reported then is the one that is really open:
it begins on the last line in front of which no comment was open, and from there to the end of the
document there is always one open.

All that the pass keeps of this is a line number, which is written whenever a line leaves a comment
open and none was open in front of it, and which is never cleared.  While no comment is open it says
nothing.  While one is, it is the line where this one begins, and this is what every line keeps.
-/

import Dragonstone.Proofs.Indentation.Applied
import Dragonstone.Proofs.Validation.CommentNesting

namespace Dragonstone

variable {config : Config}

/-- The comment that is open behind the last line begins on line `k`.  No comment is open in front
of this line, and one is open behind it and behind every line that follows. -/
structure OpenSince (ls : List Line) (k : Nat) : Prop where
  inside : k < ls.length
  before : depthBefore ls k = 0
  behind : ∀ j < ls.length, k ≤ j → 0 < depthBefore ls (j + 1)

instance (ls : List Line) (k : Nat) : Decidable (OpenSince ls k) :=
  decidable_of_iff (k < ls.length ∧ depthBefore ls k = 0 ∧
      ∀ j < ls.length, k ≤ j → 0 < depthBefore ls (j + 1))
    ⟨fun ⟨inside, before, behind⟩ => ⟨inside, before, behind⟩,
      fun since => ⟨since.inside, since.before, since.behind⟩⟩

/-! ### One more line -/

section Append

variable {seen : List Line} {line : Line} {k : Nat}

theorem depthBefore_append (more : List Line) (seenBefore : k ≤ seen.length) :
    depthBefore (seen ++ more) k = depthBefore seen k := by
  rw [depthBefore, List.take_append_of_le_length seenBefore, depthBefore]

theorem depthBefore_length (seen : List Line) :
    depthBefore seen seen.length = depthAfter 0 seen := by
  rw [depthBefore, List.take_length, depthAfter]

theorem depthAfter_append_singleton (depth : Int) (seen : List Line) (line : Line) :
    depthAfter depth (seen ++ [line]) = (scanComments line (depthAfter depth seen)).depth := by
  rw [depthAfter, List.foldl_append, depthAfter]
  rfl

namespace OpenSince

/-- There is at most one such line. -/
theorem unique {ls : List Line} {k k' : Nat} (since : OpenSince ls k) (since' : OpenSince ls k') :
    k = k' := by
  have le {a b : Nat} (here : OpenSince ls a) (there : OpenSince ls b) : b ≤ a := by
    -- Otherwise a comment is open behind the line in front of `b`.
    by_contra later
    have deep := here.behind (b - 1) (by have := there.inside; omega) (by omega)
    rw [Nat.sub_add_cancel (by omega), there.before] at deep
    exact Int.lt_irrefl 0 deep
  exact Nat.le_antisymm (le since' since) (le since since')

/-- A comment is open behind the last line. -/
theorem depthAfter_pos {ls : List Line} (since : OpenSince ls k) : 0 < depthAfter 0 ls := by
  have inside := since.inside
  have last := since.behind (ls.length - 1) (by omega) (by omega)
  rwa [Nat.sub_add_cancel (by omega), depthBefore_length] at last

/-- Where it is so in front of the last line, only the last line needs a look. -/
theorem behind_append (seenBehind : ∀ j < seen.length, k ≤ j → 0 < depthBefore seen (j + 1))
    (deep : 0 < depthAfter 0 (seen ++ [line])) :
    ∀ j < (seen ++ [line]).length, k ≤ j → 0 < depthBefore (seen ++ [line]) (j + 1) := by
  intro j inside from_
  rw [List.length_append, List.length_singleton] at inside
  obtain before | rfl := Nat.lt_or_eq_of_le (Nat.le_of_lt_succ inside)
  · rw [depthBefore_append [line] before]
    exact seenBehind j before from_
  · have last := depthBefore_length (seen ++ [line])
    rw [List.length_append, List.length_singleton] at last
    rwa [last]

/-- A line that leaves a comment open goes on with the one that was open. -/
theorem next (since : OpenSince seen k) (deep : 0 < depthAfter 0 (seen ++ [line])) :
    OpenSince (seen ++ [line]) k where
  inside := by
    rw [List.length_append]
    exact Nat.lt_add_right _ since.inside
  before := by rw [depthBefore_append [line] (Nat.le_of_lt since.inside), since.before]
  behind := behind_append since.behind deep

/-- Where none was open, it begins one. -/
theorem begin (flat : depthAfter 0 seen = 0) (deep : 0 < depthAfter 0 (seen ++ [line])) :
    OpenSince (seen ++ [line]) seen.length where
  inside := by
    rw [List.length_append]
    exact Nat.lt_succ_self _
  before := by rw [depthBefore_append [line] (Nat.le_refl _), depthBefore_length, flat]
  behind := behind_append (fun j inside from_ => absurd inside (Nat.not_lt.mpr from_)) deep

end OpenSince

end Append

/-! ### The pass -/

/-- What the pass knows of comments behind some lines: how deep they are, and where the one begins
that is open. -/
structure Progress.Tracks (seen : List Line) (p : Progress) : Prop where
  depth : p.depth = depthAfter 0 seen
  start : 0 < p.depth → ∃ k, p.commentStart = some k ∧ OpenSince seen k

namespace Progress.Tracks

variable {seen : List Line} {p : Progress}

/-- One line: the number that is written is that of the line where the open comment begins. -/
theorem step (tracks : p.Tracks seen) (config : Config) (line : Line) :
    (p.step config seen.length line).1.Tracks (seen ++ [line]) := by
  have depth : (p.step config seen.length line).1.depth = depthAfter 0 (seen ++ [line]) := by
    rw [depth_step, tracks.depth, depthAfter_append_singleton]
  refine ⟨depth, fun deep => ?_⟩
  have scan : 0 < (scanComments line p.depth).depth := by rwa [depth_step] at deep
  rw [depth] at deep
  rw [commentStart_step]
  by_cases flat : p.depth ≤ 0
  · have none : depthAfter 0 seen = 0 := by
      have nonneg := depthAfter_nonneg (Int.le_refl 0) seen
      have same := tracks.depth
      omega
    exact ⟨seen.length, by simp [flat, scan], .begin none deep⟩
  · obtain ⟨k, start, since⟩ := tracks.start (Int.not_le.mp flat)
    exact ⟨k, by simp [flat, start], since.next deep⟩

/-- A run over lines: the same holds behind all of them. -/
theorem run (tracks : p.Tracks seen) (config : Config) (ls : List Line) :
    (p.run config seen.length ls).1.Tracks (seen ++ ls) := by
  induction ls generalizing seen p with
  | nil =>
      rw [List.append_nil]
      exact tracks
  | cons line rest ih =>
      have later := ih (tracks.step config line)
      rw [List.length_append, List.append_assoc] at later
      exact later

end Progress.Tracks

theorem tracks_lines (config : Config) (ls : List Line) :
    (Progress.run config 0 {} ls).1.Tracks ls := by
  have start : Progress.Tracks [] {} := ⟨rfl, fun deep => absurd deep (by decide)⟩
  exact start.run config ls

/-- What is found about a comment that is open at the end covers the line where it begins. -/
theorem unclosedComment?_run_eq_some_iff {ls : List Line} {f : Finding} :
    unclosedComment? ls (Progress.run config 0 {} ls).1 = some f ↔
      ∃ k line, ls[k]? = some line ∧ OpenSince ls k ∧ f = onLine k line .unclosedComment := by
  have tracks := tracks_lines config ls
  rw [unclosedComment?]
  split
  case isTrue deep =>
      obtain ⟨k, start, since⟩ := tracks.start deep
      have at_ := List.getElem?_eq_getElem since.inside
      simp only [start, Option.getD_some, at_, Option.some.injEq, eq_comm (b := f)]
      constructor
      · intro same
        exact ⟨k, _, at_, since, same⟩
      · rintro ⟨k', line, here, since', rfl⟩
        obtain rfl := since.unique since'
        rw [Option.some.inj (at_.symm.trans here)]
  case isFalse flat =>
      refine iff_of_false (fun none => by cases none) ?_
      rintro ⟨k, line, _, since, _⟩
      exact flat (tracks.depth ▸ since.depthAfter_pos)

theorem isSome_unclosedComment?_iff (config : Config) (ls : List Line) :
    (unclosedComment? ls (Progress.run config 0 {} ls).1).isSome = true ↔ 0 < depthAfter 0 ls := by
  rw [unclosedComment?, (tracks_lines config ls).depth]
  split
  case isTrue deep => exact iff_of_true rfl deep
  case isFalse flat => exact iff_of_false Bool.false_ne_true flat

/-! ### The diagnostic -/

/-- Of all that is found in a document, only the comment that is open at the end is worded like
one. -/
theorem filter_unclosedComment_validate (reported : config.reportCommentNesting = true)
    (text : Text) :
    (validate config text).filter (fun d => d.message = "Unclosed block comment") =
      (unclosedComment? (lines text) (Progress.run config 0 {} (lines text)).1).toList.map
        (Finding.toDiagnostic config.source) := by
  have told (f : Finding) : (f.toDiagnostic config.source).message = "Unclosed block comment" ↔
      f.problem = .unclosedComment :=
    ⟨Problem.eq_of_message_eq (q := .unclosedComment) (by simp), congrArg Problem.message⟩
  have strays : (Progress.run config 0 {} (lines text)).2.comments.filter
      (fun f => f.problem = .unclosedComment) = [] := by
    rw [List.filter_eq_nil_iff]
    intro f found
    rw [problem_of_mem_comments found]
    decide
  have unclosed (p : Progress) : (unclosedComment? (lines text) p).toList.filter
      (fun f => f.problem = .unclosedComment) = (unclosedComment? (lines text) p).toList := by
    rw [List.filter_eq_self]
    intro f found
    obtain ⟨_, rfl⟩ := unclosedComment?_eq_some_iff.mp (Option.mem_toList.mp found)
    rfl
  rw [validate, List.filter_map]
  simp only [Function.comp_def, told]
  rw [filter_all_eq_filter_comments fun f picked => by rw [of_decide_eq_true picked]; rfl]
  simp only [inspect, reported, if_true, List.filter_append, strays, unclosed, List.nil_append]

/-- Where the nesting of comments is reported, a document has the warning about an open comment
exactly if a comment is open behind its last line.  It has one such warning then.  The warning
covers the one line that has no open comment in front of it and an open comment behind it and behind
every line that follows. -/
theorem unclosed_comment_is_reported_where_it_begins (reported : config.reportCommentNesting = true)
    (text : Text) :
    ((∃ d ∈ validate config text, d.message = "Unclosed block comment") ↔
        0 < depthAfter 0 (lines text)) ∧
      (0 < depthAfter 0 (lines text) → ∃ k line, (lines text)[k]? = some line ∧
        (OpenSince (lines text) k ∧ ∀ k', OpenSince (lines text) k' → k' = k) ∧
        (validate config text).filter (fun d => d.message = "Unclosed block comment") =
          [⟨.warning, Range.wholeLine k line.length, "Unclosed block comment", config.source⟩]) := by
  have only := filter_unclosedComment_validate reported text
  have isOpen := isSome_unclosedComment?_iff config (lines text)
  constructor
  · have some_iff : (∃ d ∈ validate config text, d.message = "Unclosed block comment") ↔
        (validate config text).filter (fun d => d.message = "Unclosed block comment") ≠ [] := by
      simp [List.filter_eq_nil_iff]
    rw [some_iff, only, ← isOpen, ne_eq, List.map_eq_nil_iff, Option.toList_eq_nil_iff,
      Option.isSome_iff_ne_none]
  · intro deep
    obtain ⟨f, found⟩ := Option.isSome_iff_exists.mp (isOpen.mpr deep)
    obtain ⟨k, line, at_, since, rfl⟩ := unclosedComment?_run_eq_some_iff.mp found
    refine ⟨k, line, at_, ⟨since, fun k' since' => since'.unique since⟩, ?_⟩
    rw [only, found]
    rfl

/-- Two comments were closed before, the second one twice, and a third is open within the one that
is reported. -/
theorem unclosed_comment_is_reported_where_it_begins_behind_closed_ones :
    let text := "#[ a ]#\n#[ b\n]# ]#\nx #[ c\n#[ d\ne".toList
    (validate {} text).filter (fun d => d.message = "Unclosed block comment") =
      [⟨.warning, Range.wholeLine 3 6, "Unclosed block comment", "dragonstone"⟩] := by
  intro text
  have reported : ({} : Config).reportCommentNesting = true := rfl
  obtain ⟨_, opened⟩ := unclosed_comment_is_reported_where_it_begins reported text
  obtain ⟨k, line, at_, ⟨_, unique⟩, only⟩ := opened (by decide +kernel)
  obtain rfl : 3 = k := unique 3 (by decide +kernel)
  have here : (lines text)[3]? = some "x #[ c".toList := by decide +kernel
  obtain rfl : "x #[ c".toList = line := Option.some.inj (here.symm.trans at_)
  exact only

end Dragonstone
