/-
# Files that the checker rewrites

The checker writes to a file only to put its layout in order.  What it does to the nodes of a
directory is told for one input first: the node that the input leads to is reformatted, if it is a
file that holds a text, and every other node stays.  Where the inputs lead does not change on the
way, so after all of them each node has been reformatted once for every input that leads to it, and
an input that cannot be read makes no difference to the others.

From this follows which files change: those with a text that needs edits, under a name that some
input leads to, if the command line asks for writing and its configuration is valid.  All other
files keep their bytes.  What changes keeps its line breaks and everything but leading space.
-/

import Dragonstone.Proofs.CommandLine.Inputs
import Dragonstone.Proofs.Indentation.Repeated
import Dragonstone.Proofs.Text.Utf8

namespace Dragonstone

/-! ### One node -/

/-- A node with its layout put in order.  Bytes that are no text, and bytes of a text that needs no
edits, stay as they are. -/
def Node.reformatted (width : Nat) : Node → Node
  | .folder => .folder
  | .file bytes =>
    match Utf8.decode bytes with
    | .error _ => .file bytes
    | .ok text =>
      if formatEdits width text = [] then .file bytes
      else .file (Utf8.encode (formatted width text))

namespace Node

variable {width : Nat} {node : Node} {bytes : List UInt8} {text : Text}

theorem reformatted_of_text (decoded : Utf8.decode bytes = .ok text) :
    (Node.file bytes).reformatted width =
      if formatEdits width text = [] then .file bytes
      else .file (Utf8.encode (formatted width text)) := by
  rw [reformatted, decoded]

theorem reformatted_of_error {e : Utf8.Error} (decoded : Utf8.decode bytes = .error e) :
    (Node.file bytes).reformatted width = .file bytes := by
  rw [reformatted, decoded]

/-- What reformatting changes is a file with a text that needs edits. -/
theorem exists_text_of_reformatted_ne (changed : node.reformatted width ≠ node) :
    ∃ bytes text, node = .file bytes ∧ Utf8.decode bytes = .ok text ∧
      formatEdits width text ≠ [] := by
  cases node with
  | folder => exact absurd rfl changed
  | file bytes =>
      cases decoded : Utf8.decode bytes with
      | error e => exact absurd (reformatted_of_error decoded) changed
      | ok text =>
          refine ⟨bytes, text, rfl, decoded, fun settled => changed ?_⟩
          rw [reformatted_of_text decoded, if_pos settled]

theorem reformatted_encode (width : Nat) (text : Text) :
    (Node.file (Utf8.encode text)).reformatted width =
      .file (Utf8.encode (formatted width text)) := by
  rw [reformatted_of_text (Utf8.decode_encode text)]
  split
  · next settled => rw [(formatEdits_eq_nil_iff_formatted width text).mp settled]
  · rfl

/-- Reformatted any number of times, a file with a text that needs edits holds the text formatted as
often. -/
theorem iterate_reformatted (decoded : Utf8.decode bytes = .ok text)
    (edits : formatEdits width text ≠ []) (n : Nat) :
    (reformatted width)^[n + 1] (.file bytes) =
      .file (Utf8.encode ((formatted width)^[n + 1] text)) := by
  induction n with
  | zero =>
      rw [Function.iterate_one, Function.iterate_one, reformatted_of_text decoded, if_neg edits]
  | succ n ih =>
      rw [Function.iterate_succ_apply', ih, reformatted_encode,
        ← Function.iterate_succ_apply' (formatted width)]

/-- It never holds its old bytes again. -/
theorem iterate_reformatted_ne (decoded : Utf8.decode bytes = .ok text)
    (edits : formatEdits width text ≠ []) (n : Nat) :
    (reformatted width)^[n + 1] (.file bytes) ≠ .file bytes := by
  rw [iterate_reformatted decoded edits]
  intro back
  rw [← Node.file.inj back, Utf8.decode_encode] at decoded
  exact edits (formatEdits_eq_nil_of_iterate (Except.ok.inj decoded))

end Node

namespace CommandLine

/-! ### One input -/

/-- The second directory is the first one with the node reformatted that a path leads to. -/
structure Reformats (width : Nat) (p : Path) (d d' : Directory) : Prop where
  keys : d'.keys = d.keys
  target : ∀ q, d'.target? q = d.target? q
  node : ∀ name, d'.get? name =
    if d.target? p = some name then (d.get? name).map (Node.reformatted width) else d.get? name

/-- Nothing happens where there is nothing to reformat. -/
theorem Reformats.refl {width : Nat} {p : Path} {d : Directory}
    (settled : ∀ name bytes, d.target? p = some name → d.get? name = some (.file bytes) →
      (Node.file bytes).reformatted width = .file bytes) :
    Reformats width p d d := by
  refine ⟨rfl, fun _ => rfl, fun name => ?_⟩
  split
  · next target =>
    cases there : d.get? name with
    | none => rfl
    | some node =>
        cases node with
        | folder => rfl
        | file bytes => rw [Option.map_some, settled name bytes target there]
  · rfl

/-- A file with new bytes is reformatted if these are the bytes of its formatted text. -/
theorem Reformats.put {width : Nat} {p : Path} {d : Directory} {name : String}
    {bytes : List UInt8} {text : Text} (target : d.target? p = some name)
    (file : d.get? name = some (.file bytes)) (decoded : Utf8.decode bytes = .ok text)
    (edits : formatEdits width text ≠ []) :
    Reformats width p d (d.put name (.file (Utf8.encode (formatted width text)))) := by
  refine ⟨Directory.keys_put_file file _, Directory.target?_put_file file _, fun other => ?_⟩
  rw [KeyMap.get?_put, target]
  by_cases here : other = name
  · rw [if_pos here, if_pos (by rw [here]), here, file, Option.map_some,
      Node.reformatted_of_text decoded, if_neg edits]
  · rw [if_neg here, if_neg fun same => here (Option.some.inj same).symm]

/-- Every input, whether it can be read or not, leaves the directory with its node reformatted. -/
theorem reformats_checkInput {o : CheckOptions} (write : o.write = true) (c : Config)
    (s : CheckState) (p : Path) :
    Reformats c.indentWidth p s.directory (checkInput o c s p).directory := by
  cases read : readInput s.directory p with
  | error complaint =>
      rw [checkInput_of_complaint read]
      refine Reformats.refl fun name bytes target file => ?_
      cases decoded : Utf8.decode bytes with
      | error e => exact Node.reformatted_of_error decoded
      | ok text =>
          rw [readInput_of_file target file decoded] at read
          cases read
  | ok text =>
      obtain ⟨name, bytes, target, file, decoded⟩ := exists_file_of_readInput read
      rw [checkInput_of_text read (written_eq_ok target file o c text)]
      by_cases edits : formatEdits c.indentWidth text = []
      · rw [if_neg fun h => h.2 edits]
        refine Reformats.refl fun name' bytes' target' file' => ?_
        obtain rfl := Option.some.inj (target.symm.trans target')
        obtain rfl := Node.file.inj (Option.some.inj (file.symm.trans file'))
        rw [Node.reformatted_of_text decoded, if_pos edits]
      · rw [if_pos ⟨write, edits⟩]
        exact Reformats.put target file decoded edits

/-! ### All inputs -/

theorem directory_foldl_of_not_write {o : CheckOptions} (print : o.write = false) (c : Config)
    (s : CheckState) (ps : List Path) :
    (ps.foldl (checkInput o c) s).directory = s.directory := by
  induction ps generalizing s with
  | nil => rfl
  | cons p ps ih =>
      rw [List.foldl_cons, ih, directory_checkInput_of_not_write print]

/-- After some inputs every node has been reformatted once for each of them that leads to it.  No
node came or went, and paths lead where they led. -/
theorem node_foldl {o : CheckOptions} (write : o.write = true) (c : Config) (s : CheckState)
    (ps : List Path) :
    (ps.foldl (checkInput o c) s).directory.keys = s.directory.keys ∧
      (∀ q, (ps.foldl (checkInput o c) s).directory.target? q = s.directory.target? q) ∧
      ∀ name, (ps.foldl (checkInput o c) s).directory.get? name =
        (s.directory.get? name).map
          (Node.reformatted c.indentWidth)^[ps.countP fun p => s.directory.target? p = some name]
      := by
  induction ps generalizing s with
  | nil => exact ⟨rfl, fun _ => rfl, fun name => by simp⟩
  | cons p ps ih =>
      obtain ⟨keys, target, node⟩ := reformats_checkInput write c s p
      obtain ⟨keys', target', node'⟩ := ih (checkInput o c s p)
      rw [List.foldl_cons]
      refine ⟨keys'.trans keys, fun q => (target' q).trans (target q), fun name => ?_⟩
      simp only [node', target, node, List.countP_cons, decide_eq_true_eq]
      split
      · rw [Option.map_map, Function.iterate_succ]
      · rfl

/-! ### A whole run -/

variable {d : Directory} {args : List String} {name : String} {text : Text}

/-- An accepted command line with a valid configuration asks for writing, one of the inputs that it
reaches leads to the name, and the text of the file there needs edits. -/
def AsksToRewrite (d : Directory) (args : List String) (name : String) (text : Text) : Prop :=
  ∃ o inputs c, checkGrammar.read {} args = .ok (o, inputs) ∧ o.write = true ∧ o.config = .ok c ∧
    (∃ p ∈ reachedInputs inputs, d.target? p = some name) ∧
    (∃ bytes, d.get? name = some (.file bytes) ∧ Utf8.decode bytes = .ok text) ∧
    formatEdits c.indentWidth text ≠ []

/-- A command line that is refused, has no valid configuration or does not ask for writing leaves
the directory as it is. -/
theorem directoryAfter_eq_or (d : Directory) (args : List String) :
    directoryAfter d args = d ∨
      ∃ o inputs c, checkGrammar.read {} args = .ok (o, inputs) ∧ o.write = true ∧
        o.config = .ok c := by
  unfold directoryAfter
  cases accepted : checkGrammar.read {} args with
  | error stop => exact .inl rfl
  | ok reading =>
      obtain ⟨o, inputs⟩ := reading
      cases config : o.config with
      | error e => exact .inl (by simp only [check_of_error config])
      | ok c =>
          cases write : o.write with
          | true => exact .inr ⟨o, inputs, c, rfl, write, config⟩
          | false =>
              left
              simp only [check_of_config config]
              exact directory_foldl_of_not_write write c _ _

/-- A command line that asks for writing has every node reformatted once for each of the inputs
reached that lead to it. -/
theorem node_directoryAfter {o : CheckOptions} {inputs : List String} {c : Config}
    (accepted : checkGrammar.read {} args = .ok (o, inputs)) (write : o.write = true)
    (config : o.config = .ok c) :
    (directoryAfter d args).keys = d.keys ∧
      ∀ name, (directoryAfter d args).get? name =
        (d.get? name).map (Node.reformatted c.indentWidth)^[(reachedInputs inputs).countP
          fun p => d.target? p = some name] := by
  have after : directoryAfter d args =
      ((reachedInputs inputs).foldl (checkInput o c) { directory := d }).directory := by
    rw [directoryAfter, accepted]
    simp only [check_of_config config]
  obtain ⟨keys, -, node⟩ := node_foldl write c { directory := d } (reachedInputs inputs)
  rw [after]
  exact ⟨keys, node⟩

theorem keys_directoryAfter (d : Directory) (args : List String) :
    (directoryAfter d args).keys = d.keys := by
  obtain idle | ⟨o, inputs, c, accepted, write, config⟩ := directoryAfter_eq_or d args
  · rw [idle]
  · exact (node_directoryAfter accepted write config).1

/-- What the command line does not ask for is not done. -/
theorem get?_directoryAfter_of_not_asked (notAsked : ∀ text, ¬ AsksToRewrite d args name text) :
    (directoryAfter d args).get? name = d.get? name := by
  obtain idle | ⟨o, inputs, c, accepted, write, config⟩ := directoryAfter_eq_or d args
  · rw [idle]
  · rw [(node_directoryAfter accepted write config).2 name]
    cases there : d.get? name with
    | none => rfl
    | some node =>
        rw [Option.map_some, Option.some.injEq]
        by_cases settled : node.reformatted c.indentWidth = node
        · exact Function.iterate_fixed settled _
        · -- The file would be rewritten, so no input leads to it.
          obtain ⟨bytes, text, rfl, decoded, edits⟩ := Node.exists_text_of_reformatted_ne settled
          have never : (reachedInputs inputs).countP (fun p => d.target? p = some name) = 0 := by
            rw [List.countP_eq_zero]
            intro p member target
            exact notAsked text ⟨o, inputs, c, accepted, write, config,
              ⟨p, member, by simpa using target⟩, ⟨bytes, there, decoded⟩, edits⟩
          rw [never, Function.iterate_zero, id_eq]

/-- What the command line asks for is done: the text is formatted once or more often. -/
theorem get?_directoryAfter_of_asked (asked : AsksToRewrite d args name text) :
    ∃ width n, (directoryAfter d args).get? name =
        some (.file (Utf8.encode ((formatted width)^[n + 1] text))) ∧
      (directoryAfter d args).get? name ≠ d.get? name := by
  obtain ⟨o, inputs, c, accepted, write, config, ⟨p, member, target⟩, ⟨bytes, file, decoded⟩,
    edits⟩ := asked
  have often : 0 < (reachedInputs inputs).countP fun p => d.target? p = some name :=
    List.countP_pos_iff.mpr ⟨p, member, by simpa using target⟩
  obtain ⟨n, count⟩ := Nat.exists_eq_add_one.mpr often
  have after := (node_directoryAfter (d := d) accepted write config).2 name
  rw [count, file, Option.map_some] at after
  refine ⟨c.indentWidth, n, after.trans ?_, ?_⟩
  · rw [Node.iterate_reformatted decoded edits]
  · rw [after, file]
    exact fun same => Node.iterate_reformatted_ne decoded edits n (Option.some.inj same)

/-- The checker damages no file.  However a command line ends, no file comes or goes, and a file is
left as it was, unless the command line asks to rewrite it: then, and only then, its bytes change,
and the new ones are those of a text with the same line breaks and the same lines up to leading
space. -/
theorem check_rewrites_only_what_needs_edits (d : Directory) (args : List String) :
    (∀ r, runCheck d args = .ok r → r.directory = directoryAfter d args) ∧
      (directoryAfter d args).keys = d.keys ∧
      ∀ name,
        ((directoryAfter d args).get? name = d.get? name ∧
          ∀ text, ¬ AsksToRewrite d args name text) ∨
        ∃ text text', AsksToRewrite d args name text ∧
          (directoryAfter d args).get? name ≠ d.get? name ∧
          (directoryAfter d args).get? name = some (.file (Utf8.encode text')) ∧
          Utf8.decode (Utf8.encode text') = .ok text' ∧
          lineBreaks text' = lineBreaks text ∧ (lines text').map ink = (lines text).map ink := by
  refine ⟨fun r => directory_of_runCheck, keys_directoryAfter d args, fun name => ?_⟩
  by_cases asked : ∃ text, AsksToRewrite d args name text
  · obtain ⟨text, asked⟩ := asked
    obtain ⟨width, n, file, changed⟩ := get?_directoryAfter_of_asked asked
    exact .inr ⟨text, (formatted width)^[n + 1] text, asked, changed, file, Utf8.decode_encode _,
      lineBreaks_iterate_formatted width (n + 1) text,
      map_ink_lines_iterate_formatted width (n + 1) text⟩
  · have notAsked : ∀ text, ¬ AsksToRewrite d args name text := not_exists.mp asked
    exact .inl ⟨get?_directoryAfter_of_not_asked notAsked, notAsked⟩

/-- A file is put in order, although it is given twice and stands between two inputs that cannot be
read. -/
theorem check_rewrites_file_between_unreadable_ones :
    ∃ r, runCheck ((({} : Directory).put "a.ds" (.file [32, 120])).put "b.ds" (.file [255]))
          ["--write", "b.ds", "a.ds", "a.ds", "gone.ds"] = .ok r ∧
      r.directory.keys = ["a.ds", "b.ds"] ∧ r.directory.get? "a.ds" = some (.file [120]) ∧
      r.directory.get? "b.ds" = some (.file [255]) := by
  have accepted : checkGrammar.read {} ["--write", "b.ds", "a.ds", "a.ds", "gone.ds"] =
      .ok ({ write := true }, ["b.ds", "a.ds", "a.ds", "gone.ds"]) := by decide +kernel
  have config : ({ write := true } : CheckOptions).config = .ok {} := rfl
  have ran := runCheck_of_config
    (d := (({} : Directory).put "a.ds" (.file [32, 120])).put "b.ds" (.file [255])) accepted config
  rw [if_neg (by decide +kernel)] at ran
  obtain ⟨after, keys, -⟩ := check_rewrites_only_what_needs_edits
    ((({} : Directory).put "a.ds" (.file [32, 120])).put "b.ds" (.file [255]))
    ["--write", "b.ds", "a.ds", "a.ds", "gone.ds"]
  refine ⟨_, ran, ?_⟩
  rw [after _ ran]
  exact ⟨keys.trans (by decide +kernel), by decide +kernel, by decide +kernel⟩

end CommandLine

end Dragonstone
