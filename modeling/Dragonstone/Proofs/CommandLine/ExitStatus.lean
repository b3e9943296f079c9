/-
# The exit status of the checker

The checker has three exit codes.  Two stands for a configuration that is not valid, and then
nothing has happened: no input was read.  Only the indentation width can be at fault, which has to
be an integer of at least one.  Otherwise all inputs are gone through, and one says that something
was found wrong: an input that holds no text that can be read, or an error in one of the texts, if
these are checked and not formatted.  Zero is left for all else.

Inputs are gone through in their order, each in the directory that those before it left.  Still what
is wrong with an input can be told beforehand: what was written is a text under a path that held a
text before, so no input becomes legible or illegible on the way.
-/

import Dragonstone.Proofs.CommandLine.Inputs
import Dragonstone.Proofs.Text.Utf8

namespace Dragonstone.CommandLine

/-! ### Configurations -/

/-- The configuration of the options, with a width that can be in force. -/
def CheckOptions.configOfWidth (o : CheckOptions) (width : Nat) : Config where
  indentWidth := width
  checkNaming := !o.skipNaming
  checkBrackets := !o.skipBrackets

/-- The values that the options set, with the defaults for the other fields. -/
def CheckOptions.draft (o : CheckOptions) : Draft
  | .indentWidth => .ofInt? o.indentWidth
  | .checkNaming => .flag !o.skipNaming
  | .checkBrackets => .flag !o.skipBrackets
  | field => Config.setting {} field

theorem config_eq_check (o : CheckOptions) : o.config = o.draft.check :=
  congrArg Draft.check (funext fun field => by cases field <;> rfl)

theorem config_of_no_width {o : CheckOptions} (width : o.indentWidth = none) :
    o.config = .error (.widthNotInteger (.list [])) := by
  have fault : o.draft.width? = .error (.widthNotInteger (.list [])) := by
    rw [Draft.width?, CheckOptions.draft, width]
    rfl
  rw [config_eq_check, Draft.check, fault]
  rfl

theorem config_of_low_width {o : CheckOptions} {n : Int} (width : o.indentWidth = some n)
    (low : n < 1) : o.config = .error (.widthBelowOne n) := by
  have fault : o.draft.width? = .error (.widthBelowOne n) := by
    rw [Draft.width?, CheckOptions.draft, width]
    exact if_pos low
  rw [config_eq_check, Draft.check, fault]
  rfl

theorem config_of_width {o : CheckOptions} {n : Int} (width : o.indentWidth = some n)
    (visible : 1 ≤ n) : o.config = .ok (o.configOfWidth n.toNat) := by
  have taken : o.draft.width? = .ok n.toNat := by
    rw [Draft.width?, CheckOptions.draft, width]
    exact if_neg (Int.not_lt.mpr visible)
  rw [config_eq_check, Draft.check, taken]
  rfl

/-! ### Inputs gone through in order -/

/-- What is printed while the inputs are gone through, and the directory at their end.  An input
that holds no text that can be read is complained about, and the next one has its turn. -/
inductive Proceeds (o : CheckOptions) (c : Config) :
    Directory → List Path → String → List Complaint → Directory → Prop where
  | done (d : Directory) : Proceeds o c d [] "" [] d
  | illegible {d d' : Directory} {p : Path} {ps : List Path} {output : String}
      {complaint : Complaint} {complaints : List Complaint}
      (read : readInput d p = .error complaint) (rest : Proceeds o c d ps output complaints d') :
      Proceeds o c d (p :: ps) output (complaint :: complaints) d'
  | legible {d between d' : Directory} {p : Path} {ps : List Path} {text : Text}
      {output : String} {complaints : List Complaint}
      (read : readInput d p = .ok text) (wrote : written o c d p text = .ok between)
      (rest : Proceeds o c between ps output complaints d') :
      Proceeds o c d (p :: ps) (report o c p text ++ output) complaints d'

theorem proceeds_foldl (o : CheckOptions) (c : Config) (s : CheckState) (ps : List Path) :
    ∃ output complaints,
      Proceeds o c s.directory ps output complaints (ps.foldl (checkInput o c) s).directory ∧
        (ps.foldl (checkInput o c) s).output = s.output ++ output ∧
        (ps.foldl (checkInput o c) s).complaints = s.complaints ++ complaints := by
  induction ps generalizing s with
  | nil => exact ⟨"", [], .done _, by simp, by simp⟩
  | cons p ps ih =>
      obtain ⟨output, complaints, rest, printed, complained⟩ := ih (checkInput o c s p)
      rw [List.foldl_cons, printed, complained]
      obtain ⟨complaint, read, step⟩ | ⟨text, d, read, wrote, step⟩ := checkInput_cases o c s p
      · rw [step] at rest ⊢
        exact ⟨output, complaint :: complaints, .illegible read rest, rfl, by simp⟩
      · rw [step] at rest ⊢
        exact ⟨report o c p text ++ output, complaints, .legible read wrote rest,
          String.append_assoc .., rfl⟩

/-! ### What is wrong with an input -/

/-- The complaint about an input, if it holds no text that can be read. -/
def complaint? (d : Directory) (p : Path) : Option Complaint :=
  match readInput d p with
  | .ok _ => none
  | .error complaint => some complaint

/-- The input is missing or cannot be read, or its bytes are no text. -/
def Illegible (d : Directory) (p : Path) : Prop :=
  (∃ e, d.read p = .error e) ∨ ∃ bytes e, d.read p = .ok bytes ∧ Utf8.decode bytes = .error e

/-- The input holds a text with an error. -/
def HoldsError (c : Config) (d : Directory) (p : Path) : Prop :=
  ∃ bytes text, d.read p = .ok bytes ∧ Utf8.decode bytes = .ok text ∧
    ∃ found ∈ validate c text, found.severity = .error

/-- The input makes the run fail. -/
def Fails (o : CheckOptions) (c : Config) (d : Directory) (p : Path) : Prop :=
  Illegible d p ∨ o.format = false ∧ o.write = false ∧ HoldsError c d p

theorem illegible_iff_complaint? {d : Directory} {p : Path} :
    Illegible d p ↔ complaint? d p ≠ none := by
  unfold Illegible complaint? readInput
  cases d.read p with
  | error e => cases e <;> simp
  | ok bytes => cases decoded : Utf8.decode bytes <;> simp [decoded]

theorem holdsError_iff {c : Config} {d : Directory} {p : Path} {text : Text}
    (read : readInput d p = .ok text) :
    HoldsError c d p ↔ ∃ found ∈ validate c text, found.severity = .error := by
  obtain ⟨bytes, found, decoded⟩ := readInput_eq_ok_iff.mp read
  constructor
  · rintro ⟨bytes', text', found', decoded', error⟩
    obtain rfl := Except.ok.inj (found.symm.trans found')
    obtain rfl := Except.ok.inj (decoded.symm.trans decoded')
    exact error
  · exact fun error => ⟨bytes, text, found, decoded, error⟩

/-- A text in place of another text makes no path legible or illegible. -/
theorem complaint?_put_text {d : Directory} {name : String} {bytes : List UInt8} {text : Text}
    (file : d.get? name = some (.file bytes)) (decoded : Utf8.decode bytes = .ok text)
    (new : Text) (q : Path) :
    complaint? (d.put name (.file (Utf8.encode new))) q = complaint? d q := by
  by_cases same : d.target? q = some name
  · have leads := (Directory.target?_put_file file (Utf8.encode new) q).trans same
    have after : (d.put name (.file (Utf8.encode new))).get? name =
        some (.file (Utf8.encode new)) := by
      rw [KeyMap.get?_put, if_pos rfl]
    rw [complaint?, readInput_of_file leads after (Utf8.decode_encode new), complaint?,
      readInput_of_file same file decoded]
  · rw [complaint?, readInput, Directory.read_put_file_of_ne file _ same, complaint?, readInput]

/-- A complaint about an input can be told before those in front of it have been gone through. -/
theorem complaint?_checkInput (o : CheckOptions) (c : Config) (s : CheckState) (p q : Path) :
    complaint? (checkInput o c s p).directory q = complaint? s.directory q := by
  cases read : readInput s.directory p with
  | error complaint => rw [checkInput_of_complaint read]
  | ok text =>
      obtain ⟨name, bytes, target, file, decoded⟩ := exists_file_of_readInput read
      rw [checkInput_of_text read (written_eq_ok target file o c text)]
      dsimp only
      split
      · exact complaint?_put_text file decoded _ q
      · rfl

/-- The same holds of all that makes a run fail. -/
theorem fails_checkInput (o : CheckOptions) (c : Config) (s : CheckState) (p q : Path) :
    Fails o c (checkInput o c s p).directory q ↔ Fails o c s.directory q := by
  have illegible : Illegible (checkInput o c s p).directory q ↔ Illegible s.directory q := by
    rw [illegible_iff_complaint?, complaint?_checkInput, illegible_iff_complaint?]
  unfold Fails
  rw [illegible]
  cases write : o.write with
  | true => simp
  | false => rw [directory_checkInput_of_not_write write]

theorem errorCount_eq_zero_iff {o : CheckOptions} {c : Config} {d : Directory} {p : Path}
    {text : Text} (read : readInput d p = .ok text) :
    errorCount o c text = 0 ↔ ¬ Fails o c d p := by
  have legible : ¬ Illegible d p := by
    rw [illegible_iff_complaint?, not_not, complaint?, read]
  rw [Fails, or_iff_right legible, holdsError_iff read, errorCount]
  cases o.format <;> cases o.write <;> simp

/-- One input adds to the errors if it makes the run fail. -/
theorem errors_checkInput_eq_zero_iff (o : CheckOptions) (c : Config) (s : CheckState) (p : Path) :
    (checkInput o c s p).errors = 0 ↔ s.errors = 0 ∧ ¬ Fails o c s.directory p := by
  obtain ⟨complaint, read, step⟩ | ⟨text, d, read, -, step⟩ := checkInput_cases o c s p
  · have illegible : Illegible s.directory p := by
      rw [illegible_iff_complaint?, complaint?, read]
      exact Option.some_ne_none complaint
    rw [step]
    simp [Fails, illegible]
  · rw [step, ← errorCount_eq_zero_iff read]
    exact Nat.add_eq_zero_iff

theorem complaints_checkInput (o : CheckOptions) (c : Config) (s : CheckState) (p : Path) :
    (checkInput o c s p).complaints = s.complaints ++ (complaint? s.directory p).toList := by
  obtain ⟨complaint, read, step⟩ | ⟨text, d, read, -, step⟩ := checkInput_cases o c s p
  · rw [step, complaint?, read]
    rfl
  · rw [step, complaint?, read]
    exact (List.append_nil _).symm

theorem errors_foldl_eq_zero_iff (o : CheckOptions) (c : Config) (s : CheckState)
    (ps : List Path) :
    (ps.foldl (checkInput o c) s).errors = 0 ↔
      s.errors = 0 ∧ ∀ p ∈ ps, ¬ Fails o c s.directory p := by
  induction ps generalizing s with
  | nil => simp
  | cons p ps ih =>
      rw [List.foldl_cons, ih, errors_checkInput_eq_zero_iff, List.forall_mem_cons, and_assoc]
      simp only [fails_checkInput]

theorem complaints_foldl (o : CheckOptions) (c : Config) (s : CheckState) (ps : List Path) :
    (ps.foldl (checkInput o c) s).complaints =
      s.complaints ++ ps.filterMap (complaint? s.directory) := by
  induction ps generalizing s with
  | nil => simp
  | cons p ps ih =>
      have same : complaint? (checkInput o c s p).directory = complaint? s.directory :=
        funext (complaint?_checkInput o c s p)
      rw [List.foldl_cons, ih, complaints_checkInput, same, List.append_assoc]
      cases complaint : complaint? s.directory p with
      | none => rw [List.filterMap_cons_none complaint]; rfl
      | some complaint' => rw [List.filterMap_cons_some complaint]; rfl

/-! ### A whole run -/

/-- The outcome of a run that goes through all its inputs, each with a complaint for every time it
is given if it holds no text that can be read. -/
structure Processed (o : CheckOptions) (c : Config) (d : Directory) (ps : List Path)
    (r : CheckOutcome) : Prop where
  proceeds : Proceeds o c d ps r.output r.complaints r.directory
  complaints : r.complaints = ps.filterMap (complaint? d)
  one : r.exitCode = 1 ↔ ∃ p ∈ ps, Fails o c d p
  zero : r.exitCode = 0 ↔ ∀ p ∈ ps, ¬ Fails o c d p

theorem processed_check {o : CheckOptions} {c : Config} (config : o.config = .ok c)
    (d : Directory) (ps : List Path) : Processed o c d ps (check d o ps) := by
  obtain ⟨output, complaints, proceeds, printed, complained⟩ :=
    proceeds_foldl o c { directory := d } ps
  have failed := errors_foldl_eq_zero_iff o c { directory := d } ps
  rw [check_of_config config]
  refine ⟨?_, by rw [complaints_foldl]; rfl, ?_, ?_⟩
  · rw [printed, complained, String.empty_append, List.nil_append]
    exact proceeds
  · simp [failed]
  · simp [failed]

end Dragonstone.CommandLine
