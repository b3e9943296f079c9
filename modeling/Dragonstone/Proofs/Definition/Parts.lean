/-
# The parts of a line that defines something

A definition is read from the front of its line: blanks, the words that its form asks for, each with
a gap behind it, perhaps a receiver with its dot, and then the name.  Here the line is put together
again from these parts, and nothing is lost.  What stands in front of the name is told apart from
the name by the kinds of its characters alone, so the name has one place on the line.

A name is read in one of two ways.  Methods and functions take the mark behind the identifier into
their name.  The other forms stop in front of it and look no further.
-/

import Dragonstone.Proofs.Definition.Front

namespace Dragonstone

open Vocabulary

/-! ### Runs of blanks -/

def IsBlanks (s : Text) : Prop :=
  ∀ c ∈ s, isBlank c = true

/-- Blanks between two words: at least one. -/
structure IsGap (gap : Text) : Prop where
  some : gap ≠ []
  blanks : IsBlanks gap

instance (s : Text) : Decidable (IsBlanks s) :=
  decidable_of_iff (s.all isBlank = true) List.all_eq_true

theorem exists_indent (line : Line) :
    ∃ indent, IsBlanks indent ∧ line = indent ++ skipBlanks line :=
  ⟨line.takeWhile isBlank, List.all_eq_true.mp List.all_takeWhile,
    List.takeWhile_append_dropWhile.symm⟩

/-- A character that is no blank is the next one after blanks. -/
theorem opensWith_eq_true_iff {c : Char} (ink : isBlank c = false) {s : Text} :
    opensWith c s = true ↔ ∃ gap rest, s = gap ++ c :: rest ∧ IsBlanks gap := by
  constructor
  · intro h
    have head : (skipBlanks s).head? = some c := eq_of_beq h
    obtain ⟨gap, blanks, whole⟩ := exists_indent s
    obtain ⟨rest, behind⟩ := List.head?_eq_some_iff.mp head
    exact ⟨gap, rest, behind ▸ whole, blanks⟩
  · rintro ⟨gap, rest, rfl, blanks⟩
    have ends : (c :: rest).head?.any isBlank = false := ink
    have behind : skipBlanks (gap ++ c :: rest) = c :: rest :=
      (takeWhile_append_of_head blanks ends).2
    rw [opensWith, behind]
    exact beq_self_eq_true _

/-- No word goes on into blanks, nor into what is no letter itself. -/
theorem head_blanks_append {blanks rest : Text} (all : IsBlanks blanks)
    (ends : rest.head?.any isWordChar = false) : (blanks ++ rest).head?.any isWordChar = false := by
  cases blanks with
  | nil => exact ends
  | cons c blanks => exact isWordChar_of_isSpace (isSpace_of_isBlank (all c List.mem_cons_self))

theorem IsGap.head_append {gap : Text} (isGap : IsGap gap) (rest : Text) :
    (gap ++ rest).head?.any isWordChar = false := by
  cases gap with
  | nil => exact absurd rfl isGap.some
  | cons c gap =>
      exact isWordChar_of_isSpace (isSpace_of_isBlank (isGap.blanks c List.mem_cons_self))

theorem IsIdentifier.head_append {w : Text} (identifier : IsIdentifier isIdentStart w)
    (rest : Text) : (w ++ rest).head?.any isBlank = false :=
  (skipBlanks_of_isWordChar (head?_any_append (head_of_isIdentifier identifier) rest)).1

/-- A run of characters of one class, and what follows it and begins with no such character, are
found in the text that they make. -/
theorem run_unique {p : Char → Bool} {a a' b b' : Text} (same : a ++ b = a' ++ b')
    (all : ∀ c ∈ a, p c = true) (all' : ∀ c ∈ a', p c = true) (ends : b.head?.any p = false)
    (ends' : b'.head?.any p = false) : a = a' ∧ b = b' := by
  obtain ⟨run, rest⟩ := takeWhile_append_of_head all ends
  obtain ⟨run', rest'⟩ := takeWhile_append_of_head all' ends'
  rw [same] at run rest
  exact ⟨run.symm.trans run', rest.symm.trans rest'⟩

/-- A word between blanks in front and a gap behind is found in the text that they make. -/
theorem words_unique {indent indent' w w' gap gap' rest rest' : Text}
    (same : indent ++ (w ++ (gap ++ rest)) = indent' ++ (w' ++ (gap' ++ rest')))
    (blanks : IsBlanks indent) (blanks' : IsBlanks indent')
    (identifier : IsIdentifier isIdentStart w) (identifier' : IsIdentifier isIdentStart w')
    (isGap : IsGap gap) (isGap' : IsGap gap') :
    indent = indent' ∧ w = w' ∧ gap ++ rest = gap' ++ rest' := by
  obtain ⟨sameIndent, behind⟩ := run_unique same blanks blanks' (identifier.head_append _)
    (identifier'.head_append _)
  exact ⟨sameIndent, run_unique behind identifier.2 identifier'.2 (isGap.head_append rest)
    (isGap'.head_append rest')⟩

namespace Definition

/-! ### In front of the name -/

/-- The keyword of a definition, if its form has one. -/
def keyword? : Definition → Option Text
  | .typeDecl keyword _ => some keyword
  | .moduleDecl keyword _ => some keyword
  | .methodDecl keyword _ _ _ => some keyword
  | .functionDecl keyword _ _ => some keyword
  | .constantDecl _ => none
  | .variableDecl keyword _ _ => some keyword

/-- The keywords that the form of a definition allows. -/
def keywords : Definition → List Text
  | .typeDecl .. => typeKeywords
  | .moduleDecl .. => moduleKeywords
  | .methodDecl .. => methodKeywords
  | .functionDecl .. => functionKeywords
  | .constantDecl _ => []
  | .variableDecl .. => variableKeywords

def owner? : Definition → Option Text
  | .methodDecl _ receiver _ _ => receiver
  | _ => none

/-- The name without its receiver. -/
def ownName : Definition → Text
  | .typeDecl _ name => name
  | .moduleDecl _ name => name
  | .methodDecl _ _ name _ => name
  | .functionDecl _ name _ => name
  | .constantDecl name => name
  | .variableDecl _ name _ => name

theorem name_eq_qualified (d : Definition) : d.name = qualified d.owner? d.ownName := by
  cases d <;> rfl

/-- Methods and functions: the forms whose name may end with a mark. -/
def isCallable : Definition → Bool
  | .methodDecl .. => true
  | .functionDecl .. => true
  | _ => false

theorem isIdentifier_of_mem_keywords {d : Definition} {keyword : Text}
    (known : keyword ∈ d.keywords) : IsIdentifier isIdentStart keyword := by
  apply isIdentifier_of_mem_frontWords
  cases d with
  | typeDecl | moduleDecl | methodDecl | functionDecl | variableDecl =>
      simp_all [keywords, frontWords]
  | constantDecl => cases known

theorem isIdentifier_of_mem_abstractModifiers :
    ∀ w ∈ abstractModifiers, IsIdentifier isIdentStart w := by
  decide

/-- No keyword of a type is a modifier. -/
theorem not_mem_abstractModifiers : ∀ w ∈ typeKeywords, w ∉ abstractModifiers := by
  decide

/-- What a line has in front of the name that it defines. -/
inductive Leads : Definition → Text → Prop
  | bare {name indent : Text} (blanks : IsBlanks indent) : Leads (.constantDecl name) indent
  | word {d : Definition} {keyword indent gap : Text} (own : d.keyword? = some keyword)
      (known : keyword ∈ d.keywords) (direct : d.owner? = none) (blanks : IsBlanks indent)
      (isGap : IsGap gap) : Leads d (indent ++ (keyword ++ gap))
  | modifier {keyword name modifier indent gap gap' : Text} (known : keyword ∈ typeKeywords)
      (modifies : modifier ∈ abstractModifiers) (blanks : IsBlanks indent) (isGap : IsGap gap)
      (isGap' : IsGap gap') :
      Leads (.typeDecl keyword name) (indent ++ (modifier ++ (gap ++ (keyword ++ gap'))))
  | receiver {keyword receiver name indent gap : Text} {params : Option Text}
      (known : keyword ∈ methodKeywords) (identifier : IsIdentifier isIdentStart receiver)
      (blanks : IsBlanks indent) (isGap : IsGap gap) :
      Leads (.methodDecl keyword (some receiver) name params)
        (indent ++ (keyword ++ (gap ++ (receiver ++ ['.']))))

/-! ### The name -/

/-- The name that the line defines stands between the two parts of the line. -/
structure NameStands (line : Line) (d : Definition) (front rest : Text) : Prop where
  whole : line = front ++ (d.ownName ++ rest)
  leads : d.Leads front

/-- The form takes this name and no more from the text that begins with it. -/
def TakesName (d : Definition) (rest : Text) : Prop :=
  if d.isCallable then markedName? isIdentStart (d.ownName ++ rest) = some (d.ownName, rest)
  else identifier? isIdentStart (d.ownName ++ rest) = some (d.ownName, rest)

/-- The name stands on the line, and is taken from there. -/
def HasName (line : Line) (d : Definition) : Prop :=
  ∃ front rest, NameStands line d front rest ∧ d.TakesName rest

end Definition

theorem identifier?_mono {start start' : Char → Bool}
    (wider : ∀ c, start c = true → start' c = true) {s : Text} {found : Text × Text}
    (h : identifier? start s = some found) : identifier? start' s = some found := by
  unfold identifier? at h
  split at h
  case h_1 => cases h
  case h_2 c rest =>
      split at h
      case isTrue first => rw [identifier?, if_pos (wider c first), h]
      case isFalse => cases h

theorem markedName?_mono {start start' : Char → Bool}
    (wider : ∀ c, start c = true → start' c = true) {s : Text} {found : Text × Text}
    (h : markedName? start s = some found) : markedName? start' s = some found := by
  obtain ⟨stem, taken, h⟩ := Option.map_eq_some_iff.mp h
  rw [markedName?, identifier?_mono wider taken, Option.map_some, h]

namespace Definition

variable {line : Line} {d : Definition}

theorem takesName_of_identifier? {start : Char → Bool}
    (wider : ∀ c, start c = true → isIdentStart c = true) {s rest : Text}
    (plain : d.isCallable = false) (found : identifier? start s = some (d.ownName, rest)) :
    s = d.ownName ++ rest ∧ d.TakesName rest := by
  have letters (c : Char) (first : start c = true) : isWordChar c = true :=
    isWordChar_of_isIdentStart (wider c first)
  obtain ⟨rfl, _⟩ := (identifier?_eq_some_iff letters).mp found
  refine ⟨rfl, ?_⟩
  rw [TakesName, plain, if_neg Bool.false_ne_true]
  exact identifier?_mono wider found

theorem takesName_of_markedName? {start : Char → Bool}
    (wider : ∀ c, start c = true → isIdentStart c = true) {s rest : Text}
    (callable : d.isCallable = true) (found : markedName? start s = some (d.ownName, rest)) :
    s = d.ownName ++ rest ∧ d.TakesName rest := by
  obtain rfl := append_of_markedName? found
  refine ⟨rfl, ?_⟩
  rw [TakesName, callable, if_pos rfl]
  exact markedName?_mono wider found

/-- A name is an identifier, perhaps with a mark behind it. -/
theorem TakesName.isMarkedName {rest : Text} (takes : d.TakesName rest) :
    IsMarkedName isIdentStart d.ownName := by
  have letters (c : Char) : isIdentStart c = true → isWordChar c = true :=
    isWordChar_of_isIdentStart
  unfold TakesName at takes
  split at takes
  · exact isMarkedName_of_markedName? letters takes
  · exact ⟨d.ownName, ((identifier?_eq_some_iff letters).mp takes).2.1, .inl rfl⟩

theorem TakesName.head {rest : Text} (takes : d.TakesName rest) :
    d.ownName.head?.any isWordChar = true :=
  head_of_isMarkedName takes.isMarkedName

/-! ### The parts of each form -/

theorem exists_gap_of_leadingKeyword? {keywords : List Text} {s keyword rest : Text}
    (found : leadingKeyword? keywords s = some (keyword, rest)) :
    keyword ∈ keywords ∧ ∃ gap, IsGap gap ∧ s = keyword ++ (gap ++ rest) := by
  obtain ⟨known, _, gap, whole, some, blanks, _⟩ := leadingKeyword?_eq_some_iff.mp found
  exact ⟨known, gap, ⟨some, blanks⟩, whole⟩

/-- A keyword stands in front of the line, and nothing but blanks around it. -/
theorem exists_nameStands_of_leadingKeyword? (d : Definition) {keyword rest : Text}
    (own : d.keyword? = some keyword) (direct : d.owner? = none)
    (found : leadingKeyword? d.keywords (skipBlanks line) = some (keyword, d.ownName ++ rest)) :
    ∃ front, NameStands line d front rest := by
  obtain ⟨indent, blanks, line_eq⟩ := exists_indent line
  obtain ⟨known, gap, isGap, behind⟩ := exists_gap_of_leadingKeyword? found
  refine ⟨indent ++ (keyword ++ gap), ?_, .word own known direct blanks isGap⟩
  rw [line_eq, behind]
  simp only [List.append_assoc]

theorem hasName_of_parseType? (h : parseType? line = some d) : HasName line d := by
  obtain ⟨keyword, behind, name, rest, found, identifier, rfl⟩ := parseType?_eq_some_iff.mp h
  obtain ⟨rfl, takes⟩ := takesName_of_identifier? (d := .typeDecl keyword name)
    (fun _ => isIdentStart_of_isUpper) rfl identifier
  simp only [afterAbstract] at found
  split at found
  case h_1 modifier behind before =>
      obtain ⟨indent, blanks, line_eq⟩ := exists_indent line
      obtain ⟨modifies, gap, isGap, front⟩ := exists_gap_of_leadingKeyword? before
      obtain ⟨known, gap', isGap', rfl⟩ := exists_gap_of_leadingKeyword? found
      refine ⟨indent ++ (modifier ++ (gap ++ (keyword ++ gap'))), rest,
        ⟨?_, .modifier known modifies blanks isGap isGap'⟩, takes⟩
      rw [line_eq, front]
      simp only [List.append_assoc]
  case h_2 =>
      obtain ⟨front, stands⟩ :=
        exists_nameStands_of_leadingKeyword? (.typeDecl keyword name) rfl rfl found
      exact ⟨front, rest, stands, takes⟩

theorem hasName_of_parseModule? (h : parseModule? line = some d) : HasName line d := by
  obtain ⟨keyword, behind, name, rest, found, identifier, rfl⟩ := parseModule?_eq_some_iff.mp h
  obtain ⟨rfl, takes⟩ := takesName_of_identifier? (d := .moduleDecl keyword name)
    (fun _ => isIdentStart_of_isUpper) rfl identifier
  obtain ⟨front, stands⟩ :=
    exists_nameStands_of_leadingKeyword? (.moduleDecl keyword name) rfl rfl found
  exact ⟨front, rest, stands, takes⟩

/-- A receiver is an identifier and ends at its dot. -/
theorem append_of_receiver? {s receiver own : Text} (h : receiver? s = some (receiver, own)) :
    s = receiver ++ '.' :: own ∧ IsIdentifier isIdentStart receiver := by
  simp only [receiver?, Option.bind_eq_bind, Option.bind_eq_some_iff] at h
  obtain ⟨⟨first, after⟩, identifier, dot⟩ := h
  simp only at dot
  split at dot
  case h_1 =>
      split at dot
      case isTrue =>
          cases dot
          obtain ⟨whole, isReceiver, _⟩ :=
            (identifier?_eq_some_iff fun _ => isWordChar_of_isIdentStart).mp identifier
          exact ⟨whole, isReceiver⟩
      case isFalse => cases dot
  case h_2 => cases dot

theorem hasName_of_parseMethod? (h : parseMethod? line = some d) : HasName line d := by
  obtain ⟨keyword, behind, found, received | direct⟩ := parseMethod?_eq_some_iff.mp h
  · obtain ⟨receiver, own, name, rest, received, marked, rfl⟩ := received
    obtain ⟨rfl, takes⟩ := takesName_of_markedName?
      (d := .methodDecl keyword (some receiver) name (params? rest)) (fun _ => id) rfl marked
    obtain ⟨dotted, identifier⟩ := append_of_receiver? received
    obtain ⟨indent, blanks, line_eq⟩ := exists_indent line
    obtain ⟨known, gap, isGap, front⟩ := exists_gap_of_leadingKeyword? found
    refine ⟨indent ++ (keyword ++ (gap ++ (receiver ++ ['.']))), rest,
      ⟨?_, .receiver known identifier blanks isGap⟩, takes⟩
    rw [line_eq, front, dotted]
    simp only [List.append_assoc, List.singleton_append]
  · obtain ⟨_, name, rest, marked, rfl⟩ := direct
    obtain ⟨rfl, takes⟩ := takesName_of_markedName?
      (d := .methodDecl keyword none name (params? rest)) (fun _ => id) rfl marked
    obtain ⟨front, stands⟩ := exists_nameStands_of_leadingKeyword?
      (.methodDecl keyword none name (params? rest)) rfl rfl found
    exact ⟨front, rest, stands, takes⟩

theorem hasName_of_parseFunction? (h : parseFunction? line = some d) : HasName line d := by
  obtain ⟨keyword, behind, name, rest, found, marked, rfl⟩ := parseFunction?_eq_some_iff.mp h
  obtain ⟨rfl, takes⟩ := takesName_of_markedName?
    (d := .functionDecl keyword name (params? rest)) isIdentStart_of_isLowerStart rfl marked
  obtain ⟨front, stands⟩ := exists_nameStands_of_leadingKeyword?
    (.functionDecl keyword name (params? rest)) rfl rfl found
  exact ⟨front, rest, stands, takes⟩

/-- The type of a variable is read from what stands behind its name. -/
theorem exists_nameStands_of_parseVariable? (h : parseVariable? line = some d) :
    ∃ keyword name front rest, d = .variableDecl keyword name (declaredType? rest) ∧
      NameStands line d front rest ∧ d.TakesName rest := by
  obtain ⟨keyword, behind, name, rest, found, identifier, rfl⟩ := parseVariable?_eq_some_iff.mp h
  obtain ⟨rfl, takes⟩ := takesName_of_identifier?
    (d := .variableDecl keyword name (declaredType? rest)) isIdentStart_of_isLowerStart rfl
    identifier
  obtain ⟨front, stands⟩ := exists_nameStands_of_leadingKeyword?
    (.variableDecl keyword name (declaredType? rest)) rfl rfl found
  exact ⟨keyword, name, front, rest, rfl, stands, takes⟩

theorem head_isConstantChar {s : Text} (h : s.head?.any isWordChar = false) :
    s.head?.any isConstantChar = false := by
  cases s with
  | nil => rfl
  | cons c s =>
      rw [Bool.eq_false_iff]
      intro constant
      cases (isWordChar_of_isConstantChar constant).symm.trans h

/-- The line is a name in capitals with an equals sign behind it, and a rest that nothing asks for.
Blanks may stand in front of the name and of the sign. -/
structure SetsConstant (line : Line) (name indent gap rest : Text) : Prop where
  whole : line = indent ++ (name ++ (gap ++ '=' :: rest))
  blanks : IsBlanks indent
  gapBlanks : IsBlanks gap
  upper : name.head?.any Char.isUpper = true
  letters : ∀ c ∈ name, isConstantChar c = true

namespace SetsConstant

variable {name indent gap rest : Text} (sets : SetsConstant line name indent gap rest)

include sets

theorem isIdentifier : IsIdentifier Char.isUpper name :=
  ⟨sets.upper, fun c mem => isWordChar_of_isConstantChar (sets.letters c mem)⟩

/-- The name ends in front of the sign. -/
theorem ends : (gap ++ '=' :: rest).head?.any isWordChar = false :=
  head_blanks_append sets.gapBlanks (by decide : isWordChar '=' = false)

theorem skipBlanks_eq : skipBlanks line = name ++ (gap ++ '=' :: rest) := by
  have letters : IsIdentifier isIdentStart name :=
    sets.isIdentifier.mono fun _ => isIdentStart_of_isUpper
  rw [sets.whole]
  exact (takeWhile_append_of_head sets.blanks (letters.head_append _)).2

end SetsConstant

/-- The lines that are read as constants. -/
theorem parseConstant?_eq_some_iff :
    parseConstant? line = some d ↔
      ∃ name indent gap rest, d = .constantDecl name ∧ SetsConstant line name indent gap rest := by
  constructor
  · intro h
    obtain ⟨indent, blanks, whole⟩ := exists_indent line
    simp only [parseConstant?] at h
    split at h
    case h_1 => cases h
    case h_2 c s front =>
        split at h
        case isTrue constant =>
            cases h
            rw [front] at constant whole ⊢
            obtain ⟨upper, equals⟩ := Bool.and_eq_true_iff.mp constant
            obtain ⟨gap, rest, behind, gapBlanks⟩ := (opensWith_eq_true_iff (by decide)).mp equals
            have first : isConstantChar c = true := by simp [isConstantChar, upper]
            refine ⟨(c :: s).takeWhile isConstantChar, indent, gap, rest, rfl, ?_, blanks,
              gapBlanks, ?_, List.all_eq_true.mp List.all_takeWhile⟩
            · rw [← behind, List.takeWhile_append_dropWhile, whole]
            · rw [List.takeWhile_cons_of_pos first]
              exact upper
        case isFalse => cases h
  · rintro ⟨name, indent, gap, rest, rfl, sets⟩
    obtain ⟨taken, left⟩ :=
      takeWhile_append_of_head sets.letters (head_isConstantChar sets.ends)
    have equals : opensWith '=' (gap ++ '=' :: rest) = true :=
      (opensWith_eq_true_iff (by decide)).mpr ⟨gap, rest, rfl, sets.gapBlanks⟩
    have front := sets.skipBlanks_eq
    obtain _ | ⟨c, s⟩ := name
    · cases sets.upper
    have capital : c.isUpper = true := sets.upper
    rw [parseConstant?, front]
    simp only [List.cons_append] at taken left ⊢
    simp only [capital, left, equals, taken, Bool.and_self, if_pos]

theorem hasName_of_parseConstant? (h : parseConstant? line = some d) : HasName line d := by
  obtain ⟨name, indent, gap, rest, rfl, sets⟩ := parseConstant?_eq_some_iff.mp h
  have found : identifier? Char.isUpper (name ++ (gap ++ '=' :: rest)) =
      some (name, gap ++ '=' :: rest) :=
    (identifier?_eq_some_iff isWordChar_of_isUpper).mpr ⟨rfl, sets.isIdentifier, sets.ends⟩
  obtain ⟨_, takes⟩ := takesName_of_identifier? (d := .constantDecl name)
    (fun _ => isIdentStart_of_isUpper) rfl found
  exact ⟨indent, _, ⟨sets.whole, .bare sets.blanks⟩, takes⟩

/-- The name of a definition stands on its line and is taken from there. -/
theorem hasName_of_ofLine? (h : ofLine? line = some d) : HasName line d := by
  obtain h | h | h | h | h | h := ofLine?_eq_some_iff.mp h
  · exact hasName_of_parseType? h
  · exact hasName_of_parseModule? h
  · exact hasName_of_parseMethod? h
  · exact hasName_of_parseFunction? h
  · exact hasName_of_parseConstant? h
  · obtain ⟨_, _, front, rest, _, stands, takes⟩ := exists_nameStands_of_parseVariable? h
    exact ⟨front, rest, stands, takes⟩

/-- The letters with which a name of this form begins. -/
def startLetter : Definition → Char → Bool
  | .typeDecl .. => Char.isUpper
  | .moduleDecl .. => Char.isUpper
  | .methodDecl .. => isIdentStart
  | .functionDecl .. => isLowerStart
  | .constantDecl _ => Char.isUpper
  | .variableDecl .. => isLowerStart

/-- The name of a definition begins with a letter of its form. -/
theorem startLetter_of_ofLine? (h : ofLine? line = some d) :
    d.ownName.head?.any d.startLetter = true := by
  obtain h | h | h | h | h | h := ofLine?_eq_some_iff.mp h
  · obtain ⟨_, _, _, _, _, identifier, rfl⟩ := parseType?_eq_some_iff.mp h
    exact ((identifier?_eq_some_iff isWordChar_of_isUpper).mp identifier).2.1.1
  · obtain ⟨_, _, _, _, _, identifier, rfl⟩ := parseModule?_eq_some_iff.mp h
    exact ((identifier?_eq_some_iff isWordChar_of_isUpper).mp identifier).2.1.1
  · obtain ⟨_, _, _, received | direct⟩ := parseMethod?_eq_some_iff.mp h
    · obtain ⟨_, _, _, _, _, marked, rfl⟩ := received
      exact (isMarkedName_of_markedName? (fun _ => isWordChar_of_isIdentStart) marked).head
    · obtain ⟨_, _, _, marked, rfl⟩ := direct
      exact (isMarkedName_of_markedName? (fun _ => isWordChar_of_isIdentStart) marked).head
  · obtain ⟨_, _, _, _, _, marked, rfl⟩ := parseFunction?_eq_some_iff.mp h
    exact (isMarkedName_of_markedName? isWordChar_of_isLowerStart marked).head
  · obtain ⟨_, _, _, _, rfl, sets⟩ := parseConstant?_eq_some_iff.mp h
    exact sets.upper
  · obtain ⟨_, _, _, _, _, identifier, rfl⟩ := parseVariable?_eq_some_iff.mp h
    exact ((identifier?_eq_some_iff isWordChar_of_isLowerStart).mp identifier).2.1.1

theorem Leads.isIdentifier {front owner : Text} (leads : d.Leads front)
    (owned : d.owner? = some owner) : IsIdentifier isIdentStart owner := by
  cases leads with
  | bare | modifier => cases owned
  | word _ _ direct => cases direct.symm.trans owned
  | receiver _ isReceiver =>
      cases owned
      exact isReceiver

/-- A name consists of letters, a mark and the dot behind a receiver. -/
theorem isWordChar_or_of_mem_name (h : ofLine? line = some d) {c : Char} (mem : c ∈ d.name) :
    isWordChar c = true ∨ isNameMark c = true ∨ c = '.' := by
  obtain ⟨front, rest, ⟨_, leads⟩, takes⟩ := hasName_of_ofLine? h
  have own (mem : c ∈ d.ownName) : isWordChar c = true ∨ isNameMark c = true ∨ c = '.' := by
    obtain ⟨stem, identifier, same⟩ := takes.isMarkedName
    obtain plain | ⟨mark, isMark, marked⟩ := same
    · exact .inl (identifier.2 c (plain ▸ mem))
    · rw [marked] at mem
      obtain letter | last := List.mem_append.mp mem
      · exact .inl (identifier.2 c letter)
      · exact .inr (.inl (List.mem_singleton.mp last ▸ isMark))
  rw [name_eq_qualified] at mem
  cases owned : d.owner? with
  | none =>
      rw [owned] at mem
      exact own mem
  | some owner =>
      rw [owned] at mem
      obtain letter | behind := List.mem_append.mp mem
      · exact .inl ((leads.isIdentifier owned).2 c letter)
      · obtain dot | behind := List.mem_cons.mp behind
        · exact .inr (.inr dot)
        · exact own behind

/-- A line that defines something begins with a letter behind its blanks. -/
theorem head_skipBlanks_of_ofLine? (h : ofLine? line = some d) :
    (skipBlanks line).head?.any isWordChar = true := by
  have behind {indent s : Text} (blanks : IsBlanks indent) (front : s.head?.any isWordChar = true) :
      (skipBlanks (indent ++ s)).head?.any isWordChar = true := by
    have skipped : skipBlanks (indent ++ s) = s :=
      (takeWhile_append_of_head blanks (skipBlanks_of_isWordChar front).1).2
    rwa [skipped]
  obtain ⟨front, rest, ⟨rfl, leads⟩, takes⟩ := hasName_of_ofLine? h
  cases leads with
  | bare blanks => exact behind blanks (head?_any_append takes.head rest)
  | word _ known _ blanks =>
      simp only [List.append_assoc]
      exact behind blanks
        (head?_any_append (head_of_isIdentifier (isIdentifier_of_mem_keywords known)) _)
  | modifier _ modifies blanks =>
      simp only [List.append_assoc]
      exact behind blanks (head?_any_append
        (head_of_isIdentifier (isIdentifier_of_mem_abstractModifiers _ modifies)) _)
  | @receiver keyword _ _ _ _ _ known _ blanks =>
      have identifier := isIdentifier_of_mem_frontWords keyword (by simp [frontWords, known])
      simp only [List.append_assoc]
      exact behind blanks (head?_any_append (head_of_isIdentifier identifier) _)

/-! ### One place for the name -/

/-- What stands in front of a name is told apart from it, so a name that is taken has one place on
the line. -/
theorem NameStands.unique {front front' rest rest' : Text} (stands : NameStands line d front rest)
    (stands' : NameStands line d front' rest') (takes : d.TakesName rest) :
    front' = front ∧ rest' = rest := by
  have ink (s : Text) : (d.ownName ++ s).head?.any isBlank = false :=
    (skipBlanks_of_isWordChar (head?_any_append takes.head s)).1
  obtain ⟨whole, leads⟩ := stands
  obtain ⟨whole', leads'⟩ := stands'
  have same := whole'.symm.trans whole
  suffices sameFront : front' = front by
    subst sameFront
    exact ⟨rfl, List.append_cancel_left (List.append_cancel_left same)⟩
  cases leads with
  | bare blanks =>
      cases leads' with
      | bare blanks' => exact (run_unique same blanks' blanks (ink _) (ink _)).1
      | word own => cases own
  | @word _ keyword _ gap own known direct blanks isGap =>
      have identifier := isIdentifier_of_mem_keywords known
      cases leads' with
      | bare => cases own
      | word own' known' _ blanks' isGap' =>
          simp only [List.append_assoc] at same
          obtain ⟨rfl, rfl, behind⟩ := words_unique same blanks' blanks
            (isIdentifier_of_mem_keywords known') identifier isGap' isGap
          rw [(run_unique behind isGap'.blanks isGap.blanks (ink _) (ink _)).1]
      | modifier known' modifies blanks' isGap' =>
          simp only [List.append_assoc] at same
          obtain ⟨_, modifier, _⟩ := words_unique same blanks' blanks
            (isIdentifier_of_mem_abstractModifiers _ modifies) identifier isGap' isGap
          exact absurd (modifier ▸ modifies) (not_mem_abstractModifiers _ known)
      | receiver => cases direct
  | @modifier keyword _ _ _ _ _ known modifies blanks isGap isGap' =>
      have identifier := isIdentifier_of_mem_abstractModifiers _ modifies
      cases leads' with
      | word _ known' _ blanks' isGap'' =>
          simp only [List.append_assoc] at same
          obtain ⟨_, modifier, _⟩ := words_unique same blanks' blanks
            (isIdentifier_of_mem_keywords known') identifier isGap'' isGap
          exact absurd (modifier ▸ modifies) (not_mem_abstractModifiers _ known')
      | modifier _ modifies' blanks' isGap₁ isGap₂ =>
          simp only [List.append_assoc] at same
          obtain ⟨rfl, rfl, behind⟩ := words_unique same blanks' blanks
            (isIdentifier_of_mem_abstractModifiers _ modifies') identifier isGap₁ isGap
          have isKeyword := isIdentifier_of_mem_frontWords keyword (by simp [frontWords, known])
          obtain ⟨rfl, _, behind⟩ := words_unique behind isGap₁.blanks isGap.blanks isKeyword
            isKeyword isGap₂ isGap'
          rw [(run_unique behind isGap₂.blanks isGap'.blanks (ink _) (ink _)).1]
  | @receiver keyword _ _ _ _ _ known isReceiver blanks isGap =>
      have identifier := isIdentifier_of_mem_frontWords keyword (by simp [frontWords, known])
      cases leads' with
      | word _ _ direct => cases direct
      | receiver _ _ blanks' isGap' =>
          simp only [List.append_assoc] at same
          obtain ⟨rfl, _, behind⟩ := words_unique same blanks' blanks identifier identifier isGap'
            isGap
          rw [(run_unique behind isGap'.blanks isGap.blanks (isReceiver.head_append _)
            (isReceiver.head_append _)).1]

end Definition

end Dragonstone
