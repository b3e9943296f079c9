/-
# What the checker does with its inputs

Everything that the checker does to one input is told in one lemma for each of two cases.  An input
that cannot be read as a text adds one complaint and one error, and nothing else.  An input that can
be read adds what is printed on it and its errors, and puts the formatted text in place of the old
one if it is to be written and needs edits; this writing cannot fail, because the input could be
read.

A command line that is accepted goes through its inputs in this way if its configuration is valid.
A path with a null character ends the program, and nothing is known of its output then; what it left
of the directory is what the inputs in front of this path left.
-/

import Dragonstone.CommandLine.Check
import Dragonstone.Proofs.Files.Rewriting
import Mathlib.Data.List.TakeWhile

namespace Dragonstone.CommandLine

/-- The symbols of a text, where they are asked for. -/
def listing (o : CheckOptions) (p : Path) (text : Text) : String :=
  if o.symbols then printed ((outline text).map (symbolLine p)) else ""

/-- What is printed on formatting: that the file was written, or the formatted text. -/
def formatReport (o : CheckOptions) (c : Config) (p : Path) (text : Text) : String :=
  if o.write then
    if formatEdits c.indentWidth text = [] then ""
    else
      "reformatted " ++ p.toString ++ " (" ++
        toString (formatEdits c.indentWidth text).length ++ " lines)\n"
  else printedText (formatted c.indentWidth text)

/-- What is printed on an input that holds the text. -/
def report (o : CheckOptions) (c : Config) (p : Path) (text : Text) : String :=
  listing o p text ++
    if o.format || o.write then formatReport o c p text
    else printed ((validate c text).map (diagnosticLine p))

/-- How many errors an input counts for.  To be formatted, a text need not be free of errors. -/
def errorCount (o : CheckOptions) (c : Config) (text : Text) : Nat :=
  if o.format || o.write then 0
  else (validate c text).countP fun found => found.severity = .error

/-- What an input leaves of the directory. -/
def written (o : CheckOptions) (c : Config) (d : Directory) (p : Path) (text : Text) :
    Except FileError Directory :=
  if o.write = true ∧ formatEdits c.indentWidth text ≠ [] then
    d.write p (Utf8.encode (formatted c.indentWidth text))
  else .ok d

theorem readInput_eq_ok_iff {d : Directory} {p : Path} {text : Text} :
    readInput d p = .ok text ↔ ∃ bytes, d.read p = .ok bytes ∧ Utf8.decode bytes = .ok text := by
  unfold readInput
  cases d.read p with
  | error e => cases e <;> simp
  | ok bytes => cases decoded : Utf8.decode bytes <;> simp [decoded]

/-- An input that holds a text is the file under a name. -/
theorem exists_file_of_readInput {d : Directory} {p : Path} {text : Text}
    (read : readInput d p = .ok text) :
    ∃ name bytes, d.target? p = some name ∧ d.get? name = some (.file bytes) ∧
      Utf8.decode bytes = .ok text := by
  obtain ⟨bytes, found, decoded⟩ := readInput_eq_ok_iff.mp read
  obtain ⟨name, target, file⟩ := Directory.read_eq_ok_iff.mp found
  exact ⟨name, bytes, target, file, decoded⟩

theorem readInput_of_file {d : Directory} {p : Path} {name : String} {bytes : List UInt8}
    {text : Text} (target : d.target? p = some name) (file : d.get? name = some (.file bytes))
    (decoded : Utf8.decode bytes = .ok text) : readInput d p = .ok text :=
  readInput_eq_ok_iff.mpr ⟨bytes, Directory.read_eq_ok_iff.mpr ⟨name, target, file⟩, decoded⟩

/-- What could be read can be written. -/
theorem written_eq_ok {d : Directory} {p : Path} {name : String} {bytes : List UInt8}
    (target : d.target? p = some name) (file : d.get? name = some (.file bytes))
    (o : CheckOptions) (c : Config) (text : Text) :
    written o c d p text = .ok
      (if o.write = true ∧ formatEdits c.indentWidth text ≠ [] then
        d.put name (.file (Utf8.encode (formatted c.indentWidth text)))
      else d) := by
  unfold written
  split
  · exact Directory.write_eq_ok target file _
  · rfl

theorem written_of_not_write {o : CheckOptions} (print : o.write = false) (c : Config)
    (d : Directory) (p : Path) (text : Text) : written o c d p text = .ok d := by
  rw [written, print, if_neg (by simp)]

theorem checkInput_of_complaint {o : CheckOptions} {c : Config} {s : CheckState} {p : Path}
    {complaint : Complaint} (read : readInput s.directory p = .error complaint) :
    checkInput o c s p =
      { s with complaints := s.complaints ++ [complaint], errors := s.errors + 1 } := by
  rw [checkInput, read]

theorem formatInput_eq {o : CheckOptions} {c : Config} {s : CheckState} {p : Path} {text : Text}
    {d : Directory} (wrote : written o c s.directory p text = .ok d) :
    formatInput o c p text s =
      { s with directory := d, output := s.output ++ formatReport o c p text } := by
  unfold written at wrote
  unfold formatInput formatReport
  cases write : o.write with
  | false =>
      rw [if_neg (by simp [write])] at wrote
      cases wrote
      rfl
  | true =>
      by_cases settled : formatEdits c.indentWidth text = []
      · rw [if_neg (by simp [settled])] at wrote
        cases wrote
        simp [settled]
      · rw [if_pos ⟨write, settled⟩] at wrote
        simp [settled, wrote, String.append_assoc]

theorem checkInput_of_text {o : CheckOptions} {c : Config} {s : CheckState} {p : Path}
    {text : Text} {d : Directory} (read : readInput s.directory p = .ok text)
    (wrote : written o c s.directory p text = .ok d) :
    checkInput o c s p =
      ⟨d, s.output ++ report o c p text, s.complaints, s.errors + errorCount o c text⟩ := by
  have listed : (if o.symbols then
      { s with output := s.output ++ printed ((outline text).map (symbolLine p)) } else s) =
        { s with output := s.output ++ listing o p text } := by
    unfold listing
    split
    · rfl
    · rw [String.append_empty]
  rw [checkInput, read]
  simp only [listed, report, errorCount]
  cases asked : o.format || o.write with
  | true =>
      simp only [if_true]
      rw [formatInput_eq (s := { s with output := s.output ++ listing o p text }) wrote]
      simp only [String.append_assoc, Nat.add_zero]
  | false =>
      have unchanged : d = s.directory := by
        rw [written_of_not_write (Bool.or_eq_false_iff.mp asked).2] at wrote
        exact (Except.ok.inj wrote).symm
      simp only [Bool.false_eq_true, if_false, reportInput, String.append_assoc, unchanged]

/-- All that one input can lead to. -/
theorem checkInput_cases (o : CheckOptions) (c : Config) (s : CheckState) (p : Path) :
    (∃ complaint, readInput s.directory p = .error complaint ∧
        checkInput o c s p =
          { s with complaints := s.complaints ++ [complaint], errors := s.errors + 1 }) ∨
      ∃ text d, readInput s.directory p = .ok text ∧ written o c s.directory p text = .ok d ∧
        checkInput o c s p =
          ⟨d, s.output ++ report o c p text, s.complaints, s.errors + errorCount o c text⟩ := by
  cases read : readInput s.directory p with
  | error complaint => exact .inl ⟨complaint, rfl, checkInput_of_complaint read⟩
  | ok text =>
      obtain ⟨name, bytes, target, file, -⟩ := exists_file_of_readInput read
      have wrote := written_eq_ok target file o c text
      exact .inr ⟨text, _, rfl, wrote, checkInput_of_text read wrote⟩

/-- Without the option to write, no input changes the directory. -/
theorem directory_checkInput_of_not_write {o : CheckOptions} (print : o.write = false)
    (c : Config) (s : CheckState) (p : Path) :
    (checkInput o c s p).directory = s.directory := by
  obtain ⟨complaint, -, step⟩ | ⟨text, d, -, wrote, step⟩ := checkInput_cases o c s p
  · rw [step]
  · rw [written_of_not_write print] at wrote
    rw [step, Except.ok.inj wrote]

/-! ### A command line -/

theorem check_of_error {o : CheckOptions} {e : ConfigError} (config : o.config = .error e)
    (d : Directory) (ps : List Path) : check d o ps = ⟨2, "", [.badConfig e], d⟩ := by
  rw [check, config]

theorem check_of_config {o : CheckOptions} {c : Config} (config : o.config = .ok c)
    (d : Directory) (ps : List Path) :
    check d o ps =
      ⟨if (ps.foldl (checkInput o c) { directory := d }).errors = 0 then 0 else 1,
        (ps.foldl (checkInput o c) { directory := d }).output,
        (ps.foldl (checkInput o c) { directory := d }).complaints,
        (ps.foldl (checkInput o c) { directory := d }).directory⟩ := by
  rw [check, config]

variable {d : Directory} {args : List String} {o : CheckOptions} {inputs : List String}

theorem runCheck_of_error (accepted : checkGrammar.read {} args = .ok (o, inputs))
    {e : ConfigError} (config : o.config = .error e) :
    runCheck d args = .ok ⟨2, "", [.badConfig e], d⟩ := by
  rw [runCheck, accepted]
  simp only [bind, Except.bind, config, check_of_error config]
  rfl

theorem runCheck_of_config (accepted : checkGrammar.read {} args = .ok (o, inputs))
    {c : Config} (config : o.config = .ok c) :
    runCheck d args =
      if (inputs.map Path.ofString).any Path.hasNull then .error .nullInPath
      else .ok (check d o (inputs.map Path.ofString)) := by
  rw [runCheck, accepted]
  simp only [bind, Except.bind, config]
  cases (inputs.map Path.ofString).any Path.hasNull <;> rfl

theorem reachedInputs_of_no_null (whole : (inputs.map Path.ofString).any Path.hasNull = false) :
    reachedInputs inputs = inputs.map Path.ofString := by
  rw [reachedInputs, List.takeWhile_eq_self_iff]
  simpa using whole

/-- A run that gives an outcome has reached all its inputs. -/
theorem directory_of_runCheck {r : CheckOutcome} (ran : runCheck d args = .ok r) :
    r.directory = directoryAfter d args := by
  cases accepted : checkGrammar.read {} args with
  | error stop => rw [runCheck, accepted] at ran; cases ran
  | ok reading =>
      obtain ⟨o, inputs⟩ := reading
      rw [directoryAfter, accepted]
      cases config : o.config with
      | error e =>
          rw [runCheck_of_error accepted config] at ran
          cases ran
          simp only [check_of_error config]
      | ok c =>
          rw [runCheck_of_config accepted config] at ran
          split at ran
          · cases ran
          · next whole =>
            cases ran
            simp only [reachedInputs_of_no_null (Bool.eq_false_iff.mpr whole)]

end Dragonstone.CommandLine
