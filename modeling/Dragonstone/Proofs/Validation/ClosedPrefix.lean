/-
# A closed prefix leaves no trace

A document that is put behind another, on lines of its own, has the symbols that it has by itself,
only further down, as long as the first document leaves no comment open.  If the first leaves no
block open either, the same holds of what validation finds, brackets apart, which are counted over
the whole document.

The pass over the second document begins where the pass over the first one ended, and the two ends
are not alike: the line of the comment that was opened last stays behind.  What the induction over
the lines keeps is a relation that forgets this line while no comment is open, and otherwise moves
every line that the pass remembers.
-/

import Dragonstone.Proofs.Text.Weaving
import Dragonstone.Proofs.Validation.CommentNesting
import Dragonstone.Symbol

namespace Dragonstone

open Block

/-! ### Further down -/

def Range.down (k : Nat) (r : Range) : Range :=
  ⟨⟨r.start.line + k, r.start.character⟩, ⟨r.stop.line + k, r.stop.character⟩⟩

def Symbol.down (k : Nat) (s : Symbol) : Symbol :=
  { s with line := s.line + k, range := s.range.down k }

def Finding.down (k : Nat) (f : Finding) : Finding :=
  { f with range := f.range.down k }

def Block.Frame.down (k : Nat) (frame : Frame) : Frame :=
  { frame with line := frame.line + k }

/-- The findings of a report, each `k` lines further down. -/
def Report.down (k : Nat) (r : Report) : Report where
  code := r.code.map (Finding.down k)
  blocks := r.blocks.map (Finding.down k)
  comments := r.comments.map (Finding.down k)
  brackets := r.brackets.map (Finding.down k)

/-- Two reports joined group by group. -/
def Report.append (a b : Report) : Report where
  code := a.code ++ b.code
  blocks := a.blocks ++ b.blocks
  comments := a.comments ++ b.comments
  brackets := a.brackets ++ b.brackets

/-! ### The outline -/

theorem outlineFrom_append (n : Nat) (depth : Int) (s t : List Line) :
    outlineFrom n depth (s ++ t) =
      outlineFrom n depth s ++ outlineFrom (n + s.length) (depthAfter depth s) t := by
  induction s generalizing n depth with
  | nil => rfl
  | cons line rest ih =>
      rw [List.cons_append, outlineFrom, ih, outlineFrom, List.append_assoc, List.length_cons,
        depthAfter_cons, Nat.add_right_comm n 1, Nat.add_assoc n]

theorem outlineFrom_down (k n : Nat) (depth : Int) (ls : List Line) :
    outlineFrom (n + k) depth ls = (outlineFrom n depth ls).map (Symbol.down k) := by
  induction ls generalizing n depth with
  | nil => rfl
  | cons line rest ih =>
      have here : (if (scanComments line depth).inComment then none
            else (Definition.ofLine? line).map (·.toSymbol (n + k) line)) =
          (if (scanComments line depth).inComment then none
            else (Definition.ofLine? line).map (·.toSymbol n line)).map (Symbol.down k) := by
        split
        · rfl
        · rw [Option.map_map]
          rfl
      rw [outlineFrom, outlineFrom, here, Nat.add_right_comm, ih, List.map_append,
        Option.toList_map]

/-! ### One line further down -/

section OneLine

variable (config : Config) (k n : Nat) (line : Line)

theorem typeName?_down :
    Naming.typeName? (n + k) line = (Naming.typeName? n line).map (Finding.down k) := by
  simp only [Naming.typeName?, Option.bind_eq_bind, Option.map_bind]
  congr 1
  funext keyword
  simp only [Function.comp_apply, Option.map_bind]
  rfl

theorem callableName?_down :
    Naming.callableName? (n + k) line = (Naming.callableName? n line).map (Finding.down k) := by
  simp only [Naming.callableName?, Option.bind_eq_bind, Option.map_bind]
  congr 1
  funext keyword
  simp only [Function.comp_apply, Option.map_bind]
  congr 1
  funext name
  show _ = Option.map (Finding.down k) (if _ then none else _)
  rw [apply_ite (Option.map (Finding.down k))]
  rfl

theorem namingCheck_down (enclosed : Bool) :
    Naming.check (n + k) line enclosed = (Naming.check n line enclosed).map (Finding.down k) := by
  have constant : Naming.constantName? (n + k) line enclosed =
      (Naming.constantName? n line enclosed).map (Finding.down k) := by
    simp only [Naming.constantName?]
    split <;> rfl
  simp only [Naming.check, typeName?_down, callableName?_down, constant, List.map_append,
    Option.toList_map]

theorem strayClose?_down (depth : Int) :
    strayClose? (n + k) line depth = (strayClose? n line depth).map (Finding.down k) := by
  unfold strayClose?
  split
  · rfl
  · rw [Option.map_map]
    rfl

theorem feed_down (stack : List Frame) (form : Form) :
    feed (n + k) (stack.map (Frame.down k)) form =
      ((feed n stack form).1.map (Frame.down k), (feed n stack form).2) := by
  cases form with
  | plain => rfl
  | opening keyword => rfl
  | closing => cases stack <;> rfl
  | branch keyword closed =>
      cases stack with
      | nil => rfl
      | cons frame outer => cases closed <;> rfl

theorem inEnum_down (stack : List Frame) : inEnum (stack.map (Frame.down k)) = inEnum stack := by
  rw [inEnum, List.any_map]
  rfl

theorem checkCode_down (stack : List Frame) :
    checkCode config (n + k) line (stack.map (Frame.down k)) =
      ((checkCode config n line stack).1.map (Finding.down k),
        (checkCode config n line stack).2.map (Frame.down k)) := by
  have literal : ((unclosedQuote? line).map fun q => onLine (n + k) line (.unclosedLiteral q)) =
      ((unclosedQuote? line).map fun q => onLine n line (.unclosedLiteral q)).map
        (Finding.down k) := by
    rw [Option.map_map]
    rfl
  have structural (orphan : Option Text) :
      (orphan.map fun keyword => onLine (n + k) line (.unexpected keyword)) =
        (orphan.map fun keyword => onLine n line (.unexpected keyword)).map (Finding.down k) := by
    rw [Option.map_map]
    rfl
  simp only [checkCode, literal, structural, feed_down, inEnum_down, namingCheck_down,
    List.map_append, Option.toList_map, apply_ite (List.map (Finding.down k)), List.map_nil]

end OneLine

/-! ### The pass further down -/

/-- A pass remembers what another remembers, `k` lines further down.  The line of the comment that
was opened last counts only while a comment is open. -/
structure Progress.Follows (k : Nat) (p q : Progress) : Prop where
  depth : p.depth = q.depth
  stack : p.stack = q.stack.map (Frame.down k)
  start : 0 < q.depth → ∃ n, q.commentStart = some n ∧ p.commentStart = some (n + k)

variable {k : Nat} {p q : Progress}

/-- One line: what one pass finds, the other finds further down, and it still follows. -/
theorem Progress.Follows.step (follows : p.Follows k q) (config : Config) (n : Nat) (line : Line) :
    (p.step config (n + k) line).1.Follows k (q.step config n line).1 ∧
      (p.step config (n + k) line).2.code =
        (q.step config n line).2.code.map (Finding.down k) ∧
      (p.step config (n + k) line).2.comments =
        (q.step config n line).2.comments.map (Finding.down k) := by
  have code := checkCode_down config k n line q.stack
  refine ⟨⟨?_, ?_, ?_⟩, ?_, ?_⟩
  · rw [depth_step, depth_step, follows.depth]
  · rw [stack_step, stack_step, follows.depth, follows.stack, code]
    split <;> rfl
  · rw [depth_step, commentStart_step, commentStart_step, follows.depth]
    intro deep
    -- A comment that is open behind the line was opened on it, or was open before and has a start.
    by_cases opens : q.depth ≤ 0
    · exact ⟨n, by simp [opens, deep], by simp [opens, deep]⟩
    · simpa only [opens, decide_false, Bool.false_and, Bool.false_eq_true, if_false] using
        follows.start (Int.not_le.mp opens)
  · rw [code_step, code_step, follows.depth, follows.stack, code]
    split <;> rfl
  · rw [comments_step, comments_step, follows.depth, strayClose?_down]
    split
    · exact Option.toList_map
    · rfl

/-- A run over lines: the same holds of all of them. -/
theorem Progress.Follows.run (follows : p.Follows k q) (config : Config) (n : Nat)
    (ls : List Line) :
    (p.run config (n + k) ls).1.Follows k (q.run config n ls).1 ∧
      (p.run config (n + k) ls).2.code = (q.run config n ls).2.code.map (Finding.down k) ∧
      (p.run config (n + k) ls).2.comments =
        (q.run config n ls).2.comments.map (Finding.down k) := by
  induction ls generalizing n p q with
  | nil => exact ⟨follows, rfl, rfl⟩
  | cons line rest ih =>
      obtain ⟨next, code, comments⟩ := follows.step config n line
      obtain ⟨last, laterCode, laterComments⟩ := ih next (n + 1)
      rw [Nat.add_right_comm] at last laterCode laterComments
      simp only [Progress.run, LineFindings.append, code, comments, laterCode, laterComments,
        List.map_append, and_self, and_true]
      exact last

theorem run_append (config : Config) (n : Nat) (p : Progress) (s t : List Line) :
    p.run config n (s ++ t) =
      (((p.run config n s).1.run config (n + s.length) t).1,
        (p.run config n s).2.append ((p.run config n s).1.run config (n + s.length) t).2) := by
  induction s generalizing n p with
  | nil => rfl
  | cons line rest ih =>
      simp only [List.cons_append, Progress.run, ih, List.length_cons, LineFindings.append,
        List.append_assoc, Nat.add_right_comm n 1, Nat.add_assoc n]

/-! ### The end of the document -/

/-- The finding on a line that is remembered is the one on the line itself, if this is among the
later lines. -/
theorem onLine_append (front back : List Line) (n : Nat) (problem : Problem) :
    onLine (n + front.length) ((front ++ back)[n + front.length]?.getD []) problem =
      (onLine n (back[n]?.getD []) problem).down front.length := by
  rw [List.getElem?_append_right (Nat.le_add_left _ _), Nat.add_sub_cancel]
  rfl

theorem unclosedBlocks_append (front back : List Line) (stack : List Frame) :
    unclosedBlocks (front ++ back) (stack.map (Frame.down front.length)) =
      (unclosedBlocks back stack).map (Finding.down front.length) := by
  simp only [unclosedBlocks, ← List.map_reverse, List.map_map]
  refine List.map_congr_left fun frame _ => ?_
  exact onLine_append front back frame.line (.unclosedBlock frame.keyword)

theorem unclosedComment?_append {front : List Line} (follows : p.Follows front.length q)
    (back : List Line) :
    unclosedComment? (front ++ back) p =
      (unclosedComment? back q).map (Finding.down front.length) := by
  unfold unclosedComment?
  rw [follows.depth]
  split
  case isTrue deep =>
      obtain ⟨n, own, moved⟩ := follows.start deep
      rw [own, moved]
      exact congrArg some (onLine_append front back n .unclosedComment)
  case isFalse => rfl

/-! ### Two documents -/

theorem inspect_append_feed {config : Config} {a : Text} (bare : a.getLast? ≠ some '\r')
    (flat : depthAfter 0 (lines a) = 0) (uncounted : config.checkBrackets = false)
    (closed : (Progress.run config 0 {} (lines a)).1.stack = []) (b : Text) :
    inspect config (a ++ '\n' :: b) =
      (inspect config a).append ((inspect config b).down (lines a).length) := by
  have shallow : (Progress.run config 0 {} (lines a)).1.depth = 0 :=
    (depth_run config 0 {} (lines a)).trans flat
  have follows : (Progress.run config 0 {} (lines a)).1.Follows (lines a).length {} :=
    ⟨shallow, closed, fun deep => absurd deep (Int.lt_irrefl 0)⟩
  obtain ⟨last, code, comments⟩ := follows.run config 0 (lines b)
  have unclosed : unclosedComment? (lines a) (Progress.run config 0 {} (lines a)).1 = none := by
    rw [unclosedComment?, shallow, if_neg (Int.lt_irrefl 0)]
  simp only [inspect, Report.append, Report.down, lines_append_feed bare, run_append,
    LineFindings.append, code, comments, last.stack, closed, uncounted, unclosed,
    unclosedBlocks_append, unclosedComment?_append last]
  have nothing : unclosedBlocks (lines a) [] = [] := rfl
  cases config.reportCommentNesting with
  | false => simp [nothing]
  | true => simp [nothing, Option.toList_map]

/-- Behind a document that ends outside of comments, and not in a carriage return, the symbols of
another document are its own, moved down by the lines in front of it.  If all blocks are closed
there and brackets are not counted, the same holds of what is found, whatever the other options
are: group by group, the findings of the first document come first and those of the second
follow. -/
theorem closed_prefix_leaves_no_trace {a : Text} (bare : a.getLast? ≠ some '\r')
    (flat : depthAfter 0 (lines a) = 0) (b : Text) :
    outline (a ++ '\n' :: b) = outline a ++ (outline b).map (Symbol.down (lines a).length) ∧
      ∀ config : Config, config.checkBrackets = false →
        (Progress.run config 0 {} (lines a)).1.stack = [] →
        let front := inspect config a
        let back := (inspect config b).down (lines a).length
        inspect config (a ++ '\n' :: b) = front.append back ∧
          validate config (a ++ '\n' :: b) =
            ((front.code ++ back.code) ++ (front.blocks ++ back.blocks) ++
              (front.comments ++ back.comments)).map (Finding.toDiagnostic config.source) := by
  constructor
  · rw [outline, lines_append_feed bare, outlineFrom_append, flat, outlineFrom_down, outline,
      outline]
  · intro config uncounted closed front back
    have joined : inspect config (a ++ '\n' :: b) = front.append back :=
      inspect_append_feed bare flat uncounted closed b
    have brackets : (inspect config (a ++ '\n' :: b)).brackets = [] := by
      simp [inspect, uncounted]
    refine ⟨joined, ?_⟩
    rw [validate, Report.all, brackets, List.append_nil, joined]
    rfl

/-- A comment and a block are open and closed again in front; a small class name, an `end` too many
and an open comment are found behind, four lines further down. -/
theorem closed_prefix_leaves_no_trace_behind_comment :
    let a := "def f\n#[ note\n]#\nend".toList
    let b := "class c\r\nend\nend\nfun g\n#[ note".toList
    let config : Config := { checkBrackets := false }
    (a.getLast? ≠ some '\r' ∧ depthAfter 0 (lines a) = 0 ∧ config.checkBrackets = false ∧
      (Progress.run config 0 {} (lines a)).1.stack = []) ∧
    ((outline (a ++ '\n' :: b)).map Symbol.line = [0, 7] ∧
      (validate config (a ++ '\n' :: b)).map (fun d => d.range.start.line) = [4, 6, 7, 8]) := by
  intro a b config
  have bare : a.getLast? ≠ some '\r' := by decide +kernel
  have flat : depthAfter 0 (lines a) = 0 := by decide +kernel
  have closed : (Progress.run config 0 {} (lines a)).1.stack = [] := by decide +kernel
  refine ⟨⟨bare, flat, rfl, closed⟩, ?_⟩
  obtain ⟨symbols, findings⟩ := closed_prefix_leaves_no_trace bare flat b
  rw [symbols, (findings config rfl closed).2]
  decide +kernel

end Dragonstone
