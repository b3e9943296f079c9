/-
# Validation of a document

One pass over the lines keeps the depth of block comments and the stack of open blocks.  What it
finds is kept in groups: findings of single lines, blocks left open, comment nesting and brackets.
The list of diagnostics is the four groups in this order.  Options switch whole groups or the naming
findings off; no option has an influence on the state that the pass carries.
-/

import Dragonstone.Balance
import Dragonstone.Block
import Dragonstone.Comment
import Dragonstone.Config
import Dragonstone.Naming
import Dragonstone.Text.Lines

namespace Dragonstone

open Block

/-- What the pass knows before a line. -/
structure Progress where
  /-- The nesting depth of block comments. -/
  depth : Int := 0
  /-- The line on which the outermost comment was opened last. -/
  commentStart : Option Nat := none
  /-- The open blocks, the innermost first. -/
  stack : List Frame := []
  deriving DecidableEq, Repr

/-- The findings of a stretch of lines. -/
structure LineFindings where
  /-- Literals, names and block structure. -/
  code : List Finding := []
  /-- Comments closed without being open. -/
  comments : List Finding := []
  deriving DecidableEq, Repr

def LineFindings.append (a b : LineFindings) : LineFindings :=
  ⟨a.code ++ b.code, a.comments ++ b.comments⟩

/-- The finding that covers a whole line. -/
def onLine (n : Nat) (line : Line) (problem : Problem) : Finding :=
  ⟨Range.wholeLine n line.length, problem⟩

/-- The first comment that a line closes without its being open. -/
def strayClose? (n : Nat) (line : Line) (depth : Int) : Option Finding :=
  if (scanComments line depth).overClosed = 0 then none
  else
    (strayCloses line depth).head?.map fun column =>
      ⟨Range.inLine n column (column + 2), .strayCommentClose⟩

/-- The findings of a line of code and the stack after it. -/
def checkCode (config : Config) (n : Nat) (line : Line) (stack : List Frame) :
    List Finding × List Frame :=
  let masked := mask line
  let literal := (unclosedQuote? line).map fun q => onLine n line (.unclosedLiteral q)
  let names := if config.checkNaming then Naming.check n masked (inEnum stack) else []
  let (stack', orphan) := feed n stack (Form.ofLine masked)
  let structure' := orphan.map fun keyword => onLine n line (.unexpected keyword)
  (literal.toList ++ names ++ structure'.toList, stack')

/-- One line of the pass. -/
def Progress.step (config : Config) (n : Nat) (line : Line) (p : Progress) :
    Progress × LineFindings :=
  let scan := scanComments line p.depth
  let start := if p.depth ≤ 0 && 0 < scan.depth then some n else p.commentStart
  let strays := if config.reportCommentNesting then (strayClose? n line p.depth).toList else []
  if scan.inComment || isSkipped line then (⟨scan.depth, start, p.stack⟩, ⟨[], strays⟩)
  else
    let (found, stack) := checkCode config n line p.stack
    (⟨scan.depth, start, stack⟩, ⟨found, strays⟩)

/-- The pass over the lines from line `n` on. -/
def Progress.run (config : Config) (n : Nat) (p : Progress) : List Line → Progress × LineFindings
  | [] => (p, {})
  | line :: rest =>
    let (p', here) := p.step config n line
    let (last, later) := p'.run config (n + 1) rest
    (last, here.append later)

/-- The blocks that are open at the end, the outermost first. -/
def unclosedBlocks (lines : List Line) (stack : List Frame) : List Finding :=
  stack.reverse.map fun frame =>
    onLine frame.line (lines[frame.line]?.getD []) (.unclosedBlock frame.keyword)

/-- The comment that is open at the end. -/
def unclosedComment? (lines : List Line) (p : Progress) : Option Finding :=
  if 0 < p.depth then
    let start := p.commentStart.getD 0
    some (onLine start (lines[start]?.getD []) .unclosedComment)
  else none

structure Report where
  code : List Finding
  blocks : List Finding
  comments : List Finding
  brackets : List Finding
  deriving DecidableEq, Repr

/-- All findings in the order in which they are reported. -/
def Report.all (r : Report) : List Finding :=
  r.code ++ r.blocks ++ r.comments ++ r.brackets

/-- Everything that is found in a document. -/
def inspect (config : Config) (text : Text) : Report :=
  let ls := lines text
  let (last, found) := Progress.run config 0 {} ls
  let open? := if config.reportCommentNesting then unclosedComment? ls last else none
  let brackets := if config.checkBrackets then Balance.check text ls else none
  { code := found.code
    blocks := unclosedBlocks ls last.stack
    comments := found.comments ++ open?.toList
    brackets := brackets.toList }

def validate (config : Config) (text : Text) : List Diagnostic :=
  (inspect config text).all.map (Finding.toDiagnostic config.source)

end Dragonstone
