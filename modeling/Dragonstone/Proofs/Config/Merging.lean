/-
# Merging of options

Options are written one after the other into a draft, under two spellings for each field, and the
draft is checked when all of them are written.  Told without the order of writing: a field gets the
value of the last option that spells it, or keeps the one it had, and the draft is accepted exactly
if every field has a value that fits it.

All laws of merging are laws about last options.  An option under the other spelling, an option that
spells no field and an option that is overridden leave all last options as they were.  An accepted
draft is the configuration that it becomes, so merging in two steps writes what merging in one step
writes.  The converse does not hold: what is overridden by the second step may not fit, and then the
first step fails where the single one succeeds.
-/

import Dragonstone.Proofs.Server.Publication

namespace Dragonstone

namespace ConfigField

/-- The two spellings of a field. -/
def IsSpelled (f : ConfigField) (key : String) : Prop :=
  key = f.name ∨ key = f.clientName

instance (f : ConfigField) (key : String) : Decidable (f.IsSpelled key) :=
  inferInstanceAs (Decidable (_ ∨ _))

/-- The values that a field can have in a configuration that is in force. -/
def Fits : ConfigField → Setting → Prop
  | .indentWidth, value => ∃ n : Int, value = .int n ∧ 1 ≤ n
  | .source, value => ∃ s : String, value = .text s ∧ s ≠ ""
  | _, value => ∃ b : Bool, value = .flag b

theorem mem_all (f : ConfigField) : f ∈ all := by
  cases f <;> decide

/-- No two fields share a spelling. -/
theorem eq_of_isSpelled {f g : ConfigField} {key : String} (hf : f.IsSpelled key)
    (hg : g.IsSpelled key) : f = g := by
  have apart : ∀ f ∈ all, ∀ g ∈ all, f ≠ g → f.name ≠ g.name ∧ f.name ≠ g.clientName ∧
      f.clientName ≠ g.clientName := by
    decide +kernel
  by_contra other
  have fg := apart f f.mem_all g g.mem_all other
  have gf := apart g g.mem_all f f.mem_all (Ne.symm other)
  obtain rfl | rfl := hf <;> obtain same | same := hg
  · exact fg.1 same
  · exact fg.2.1 same
  · exact gf.2.1 same.symm
  · exact fg.2.2 same

theorem ofKey?_eq_some_iff {key : String} {f : ConfigField} :
    ofKey? key = some f ↔ f.IsSpelled key := by
  have spells (f : ConfigField) :
      (f.name == key || f.clientName == key) = true ↔ f.IsSpelled key := by
    rw [Bool.or_eq_true, beq_iff_eq, beq_iff_eq]
    exact or_congr eq_comm eq_comm
  have sound {f : ConfigField} (found : ofKey? key = some f) : f.IsSpelled key := by
    have spelled := List.find?_some found
    exact (spells f).mp spelled
  refine ⟨sound, fun here => ?_⟩
  have found : (ofKey? key).isSome = true := by
    rw [ofKey?, List.find?_isSome]
    exact ⟨f, f.mem_all, (spells f).mpr here⟩
  obtain ⟨g, found⟩ := Option.isSome_iff_exists.mp found
  rw [found, eq_of_isSpelled (sound found) here]

end ConfigField

open ConfigField (IsSpelled Fits)

/-! ### Last options -/

/-- The value of the last option for a field. -/
def lastOption? (options : List (String × Setting)) (f : ConfigField) : Option Setting :=
  (options.reverse.find? fun option => decide (f.IsSpelled option.1)).map Prod.snd

theorem lastOption?_append (a b : List (String × Setting)) (f : ConfigField) :
    lastOption? (a ++ b) f = (lastOption? b f).or (lastOption? a f) := by
  rw [lastOption?, List.reverse_append, List.find?_append, Option.map_or]
  rfl

theorem lastOption?_cons (option : String × Setting) (rest : List (String × Setting))
    (f : ConfigField) : lastOption? (option :: rest) f =
      (lastOption? rest f).or (if f.IsSpelled option.1 then some option.2 else none) := by
  rw [← List.singleton_append, lastOption?_append]
  congr 1
  by_cases here : f.IsSpelled option.1 <;> simp [lastOption?, here]

/-- Writing options one after the other leaves the last one for each field. -/
theorem foldl_set (options : List (String × Setting)) (d : Draft) (f : ConfigField) :
    options.foldl Draft.set d f = (lastOption? options f).getD (d f) := by
  induction options generalizing d with
  | nil => rfl
  | cons option rest ih =>
      have written : d.set option f = if f.IsSpelled option.1 then option.2 else d f := by
        rw [Draft.set]
        cases found : ConfigField.ofKey? option.1 with
        | none =>
            have unspelled : ¬ f.IsSpelled option.1 := fun here => by
              rw [ConfigField.ofKey?_eq_some_iff.mpr here] at found
              cases found
            rw [if_neg unspelled]
        | some g =>
            have here := ConfigField.ofKey?_eq_some_iff.mp found
            have same : f = g ↔ f.IsSpelled option.1 :=
              ⟨fun same => same ▸ here, fun spelled => ConfigField.eq_of_isSpelled spelled here⟩
            simp only [same]
      rw [List.foldl_cons, ih, lastOption?_cons, written]
      cases lastOption? rest f <;> by_cases here : f.IsSpelled option.1 <;> simp [here]

/-! ### Drafts -/

namespace Draft

variable {d : Draft}

theorem width?_eq_ok_iff {n : Nat} : d.width? = .ok n ↔ d .indentWidth = .int n ∧ 1 ≤ n := by
  unfold width?
  split
  case h_1 k value =>
    rw [value]
    split
    case isTrue low =>
      refine iff_of_false nofun fun ⟨same, le⟩ => ?_
      cases same
      omega
    case isFalse =>
      simp only [Except.ok.injEq, Setting.int.injEq]
      omega
  case h_2 other =>
    exact iff_of_false nofun fun ⟨same, _⟩ => other _ same

theorem source?_eq_ok_iff {s : String} : d.source? = .ok s ↔ d .source = .text s ∧ s ≠ "" := by
  unfold source?
  split
  case h_1 t value =>
    rw [value]
    split
    case isTrue empty =>
      refine iff_of_false nofun fun ⟨same, named⟩ => named ?_
      cases same
      exact String.isEmpty_iff.mp empty
    case isFalse named =>
      rw [String.isEmpty_iff] at named
      simp only [Except.ok.injEq, Setting.text.injEq]
      exact ⟨fun same => ⟨same, same ▸ named⟩, And.left⟩
  case h_2 other =>
    exact iff_of_false nofun fun ⟨same, _⟩ => other _ same

theorem flag?_eq_ok_iff {f : ConfigField} {b : Bool} : d.flag? f = .ok b ↔ d f = .flag b := by
  unfold flag?
  split
  case h_1 value =>
    rw [value]
    simp only [Except.ok.injEq, Setting.flag.injEq]
  case h_2 other => exact iff_of_false nofun (other _)

/-- An accepted draft is the configuration that it becomes. -/
theorem check_eq_ok_iff {c : Config} : d.check = .ok c ↔ c.Valid ∧ ∀ f, c.setting f = d f := by
  have parts : d.check = .ok c ↔ d.width? = .ok c.indentWidth ∧ d.source? = .ok c.source ∧
      d.flag? .checkNaming = .ok c.checkNaming ∧ d.flag? .checkBrackets = .ok c.checkBrackets ∧
      d.flag? .reportCommentNesting = .ok c.reportCommentNesting := by
    obtain ⟨width, source, naming, brackets, nesting⟩ := c
    unfold check
    cases d.width? <;> cases d.source? <;> cases d.flag? .checkNaming <;>
      cases d.flag? .checkBrackets <;> cases d.flag? .reportCommentNesting <;>
      simp [bind, Except.bind, pure, Except.pure]
  rw [parts, width?_eq_ok_iff, source?_eq_ok_iff, flag?_eq_ok_iff, flag?_eq_ok_iff,
    flag?_eq_ok_iff]
  constructor
  · rintro ⟨⟨width, wide⟩, ⟨source, named⟩, naming, brackets, nesting⟩
    refine ⟨⟨wide, named⟩, fun f => ?_⟩
    cases f with
    | indentWidth => exact width.symm
    | source => exact source.symm
    | checkNaming => exact naming.symm
    | checkBrackets => exact brackets.symm
    | reportCommentNesting => exact nesting.symm
  · rintro ⟨⟨wide, named⟩, same⟩
    exact ⟨⟨(same .indentWidth).symm, wide⟩, ⟨(same .source).symm, named⟩,
      (same .checkNaming).symm, (same .checkBrackets).symm, (same .reportCommentNesting).symm⟩

end Draft

namespace Config

variable {c : Config}

theorem Valid.fits (valid : c.Valid) (f : ConfigField) : f.Fits (c.setting f) := by
  cases f with
  | indentWidth => exact ⟨c.indentWidth, rfl, Int.ofNat_le.mpr valid.1⟩
  | source => exact ⟨c.source, rfl, valid.2⟩
  | checkNaming => exact ⟨c.checkNaming, rfl⟩
  | checkBrackets => exact ⟨c.checkBrackets, rfl⟩
  | reportCommentNesting => exact ⟨c.reportCommentNesting, rfl⟩

/-- Values that fit make a configuration. -/
theorem exists_setting_eq {d : Draft} (fits : ∀ f : ConfigField, f.Fits (d f)) :
    ∃ c : Config, c.Valid ∧ ∀ f, c.setting f = d f := by
  obtain ⟨n, width, wide⟩ := fits .indentWidth
  obtain ⟨source, text, named⟩ := fits .source
  obtain ⟨naming, first⟩ := fits .checkNaming
  obtain ⟨brackets, second⟩ := fits .checkBrackets
  obtain ⟨nesting, third⟩ := fits .reportCommentNesting
  have visible : 1 ≤ n.toNat := by omega
  refine ⟨⟨n.toNat, source, naming, brackets, nesting⟩, ⟨visible, named⟩, fun f => ?_⟩
  cases f with
  | indentWidth =>
      rw [width, setting, Int.toNat_of_nonneg (by omega)]
  | source => exact text.symm
  | checkNaming => exact first.symm
  | checkBrackets => exact second.symm
  | reportCommentNesting => exact third.symm

/-- What a field is to be after options: the last option for it decides. -/
def chosen (c : Config) (options : List (String × Setting)) : Draft :=
  fun f => (lastOption? options f).getD (c.setting f)

/-- Options are merged by checking what was chosen for each field. -/
theorem merged_object (valid : c.Valid) (options : List (String × Setting)) :
    c.merged (.object options) = (c.chosen options).check := by
  have written : options.foldl Draft.set c.setting = c.chosen options :=
    funext fun f => foldl_set options c.setting f
  cases options with
  | nil => exact (Draft.check_eq_ok_iff.mpr ⟨valid, fun _ => rfl⟩).symm
  | cons option rest =>
      rw [← written]
      rfl

theorem merged_eq_ok_iff (valid : c.Valid) {options : List (String × Setting)} {c' : Config} :
    c.merged (.object options) = .ok c' ↔ c'.Valid ∧ ∀ f, c'.setting f = c.chosen options f := by
  rw [merged_object valid, Draft.check_eq_ok_iff]

theorem exists_merged_iff (valid : c.Valid) {options : List (String × Setting)} :
    (∃ c', c.merged (.object options) = .ok c') ↔
      ∀ f : ConfigField, f.Fits (c.chosen options f) := by
  constructor
  · rintro ⟨c', merged⟩ f
    obtain ⟨valid', same⟩ := (merged_eq_ok_iff valid).mp merged
    exact same f ▸ valid'.fits f
  · intro fits
    obtain ⟨c', valid', same⟩ := exists_setting_eq fits
    exact ⟨c', (merged_eq_ok_iff valid).mpr ⟨valid', same⟩⟩

/-- Options with the same last value for each field have the same effect. -/
theorem merged_congr (valid : c.Valid) {a b : List (String × Setting)}
    (same : ∀ f, lastOption? a f = lastOption? b f) :
    c.merged (.object a) = c.merged (.object b) := by
  rw [merged_object valid, merged_object valid]
  congr 1
  funext f
  rw [chosen, chosen, same]

/-- Merging in two steps, where both succeed, is merging in one step. -/
theorem merged_append (valid : c.Valid) {a b : List (String × Setting)} {c₁ c₂ : Config}
    (first : c.merged (.object a) = .ok c₁) (second : c₁.merged (.object b) = .ok c₂) :
    c.merged (.object (a ++ b)) = .ok c₂ := by
  obtain ⟨valid₁, same₁⟩ := (merged_eq_ok_iff valid).mp first
  obtain ⟨valid₂, same₂⟩ := (merged_eq_ok_iff valid₁).mp second
  refine (merged_eq_ok_iff valid).mpr ⟨valid₂, fun f => ?_⟩
  rw [same₂, chosen, same₁, chosen, chosen, lastOption?_append]
  cases lastOption? b f <;> rfl

/-- Whatever is offered, the configuration that is then in force is valid. -/
theorem Valid.configWith (valid : c.Valid) (options : Setting) :
    (Server.configWith c options).Valid := by
  unfold Server.configWith
  cases offered : c.merged options with
  | error e => exact valid
  | ok c' =>
      unfold merged at offered
      split at offered
      · cases offered
        exact valid
      · split at offered
        · exact (Draft.check_eq_ok_iff.mp offered).1
        · cases offered

theorem Valid.foldl_configWith (valid : c.Valid) (offers : List Setting) :
    (offers.foldl Server.configWith c).Valid := by
  induction offers generalizing c with
  | nil => exact valid
  | cons options rest ih => exact ih (valid.configWith options)

theorem Valid.configAfter (valid : c.Valid) (m : Server.Message) : (m.configAfter c).Valid := by
  cases m with
  | initializeWith options => exact valid.configWith options
  | configure settings => exact valid.configWith _
  | _ => exact valid

theorem Valid.configOf (valid : c.Valid) (session : List Server.Message) :
    (Server.configOf c session).Valid := by
  induction session generalizing c with
  | nil => exact valid
  | cons m rest ih => exact ih (valid.configAfter m)

/-- Merging options into a valid configuration takes over, for each field, the last option that
spells it, and fails exactly if a value that was chosen so does not fit; what it gives is valid.  The
spelling of an option does not matter, an option that spells no field has no effect, and neither has
one that is overridden.  Two mergings that succeed are the merging of both.  Where failures leave the
configuration as it was, it stays valid, whatever is offered to it and to a server that holds it. -/
theorem merging_is_last_writer_wins (c : Config) (valid : c.Valid) :
    (∀ options, (∃ c', c.merged (.object options) = .ok c') ↔
      ∀ f : ConfigField, f.Fits (c.chosen options f)) ∧
    (∀ options c', c.merged (.object options) = .ok c' →
      c'.Valid ∧ ∀ f : ConfigField, f.Fits (c'.setting f) ∧ c'.setting f = c.chosen options f) ∧
    (∀ front back (f : ConfigField) value,
      c.merged (.object (front ++ (f.clientName, value) :: back)) =
        c.merged (.object (front ++ (f.name, value) :: back))) ∧
    (∀ front back key value, (∀ f : ConfigField, ¬ f.IsSpelled key) →
      c.merged (.object (front ++ (key, value) :: back)) = c.merged (.object (front ++ back))) ∧
    (∀ front middle back (f : ConfigField) key key' value value', f.IsSpelled key →
      f.IsSpelled key' →
      c.merged (.object (front ++ (key, value) :: (middle ++ (key', value') :: back))) =
        c.merged (.object (front ++ (middle ++ (key', value') :: back)))) ∧
    (∀ a b c₁ c₂, c.merged (.object a) = .ok c₁ → c₁.merged (.object b) = .ok c₂ →
      c.merged (.object (a ++ b)) = .ok c₂) ∧
    (∀ offers : List Setting, (offers.foldl Server.configWith c).Valid) ∧
    ∀ (s : Server.State) session, s.config = c → (s.after session).config.Valid := by
  refine ⟨fun options => exists_merged_iff valid, fun options c' merged => ?taken,
    fun front back f value => merged_congr valid fun g => ?spelling,
    fun front back key value unknown => merged_congr valid fun g => ?unknown,
    fun front middle back f key key' value value' spelled spelled' =>
      merged_congr valid fun g => ?overridden,
    fun a b c₁ c₂ first second => merged_append valid first second, valid.foldl_configWith,
    fun s session held => ?server⟩
  case taken =>
    obtain ⟨valid', same⟩ := (merged_eq_ok_iff valid).mp merged
    exact ⟨valid', fun f => ⟨valid'.fits f, same f⟩⟩
  case spelling =>
    have either : g.IsSpelled f.clientName ↔ g.IsSpelled f.name :=
      ⟨fun here => ConfigField.eq_of_isSpelled here (.inr rfl) ▸ .inl rfl,
        fun here => ConfigField.eq_of_isSpelled here (.inl rfl) ▸ .inr rfl⟩
    simp only [lastOption?_append, lastOption?_cons, either]
  case unknown =>
    rw [lastOption?_append, lastOption?_cons, if_neg (unknown g), Option.or_none,
      lastOption?_append]
  case overridden =>
    rw [lastOption?_append front, lastOption?_cons, lastOption?_append front]
    by_cases here : g.IsSpelled key
    · -- The field has a later option, so the first of the two is not its last one.
      obtain rfl := ConfigField.eq_of_isSpelled spelled here
      have later : (lastOption? (middle ++ (key', value') :: back) f).isSome = true := by
        rw [lastOption?_append, lastOption?_cons, if_pos spelled', Option.isSome_or,
          Option.isSome_or]
        simp
      obtain ⟨last, later⟩ := Option.isSome_iff_exists.mp later
      rw [later, Option.some_or]
    · rw [if_neg here, Option.or_none]
  case server =>
    rw [s.config_after session, held]
    exact valid.configOf session

/-- The width is given in both spellings beside an unknown option; then it is given as a flag. -/
theorem merging_is_last_writer_wins_over_both_spellings :
    let c : Config := {}
    let width : List (String × Setting) :=
      [("indentWidth", .int 0), ("colour", .null), ("indent_width", .int 2)]
    c.Valid ∧ c.merged (.object width) = .ok { indentWidth := 2 } ∧
      Config.merged { indentWidth := 2 } (.object [("checkNaming", .flag false)]) =
        .ok { indentWidth := 2, checkNaming := false } ∧
      c.merged (.object (width ++ [("checkNaming", .flag false)])) =
        .ok { indentWidth := 2, checkNaming := false } ∧
      c.merged (.object width) = c.merged (.object [("indent_width", .int 2)]) ∧
      ([.object width, .object [("indentWidth", .flag true)]].foldl Server.configWith c).Valid := by
  intro c width
  have valid : c.Valid := ⟨by decide, by decide⟩
  obtain ⟨-, -, -, unknown, overridden, twice, offers, -⟩ := merging_is_last_writer_wins c valid
  have first : c.merged (.object width) = .ok { indentWidth := 2 } := rfl
  have second : Config.merged { indentWidth := 2 } (.object [("checkNaming", .flag false)]) =
      .ok { indentWidth := 2, checkNaming := false } := rfl
  have unspelled : ∀ f : ConfigField, ¬ f.IsSpelled "colour" := by
    intro f
    cases f <;> decide
  have alone := (overridden [] [("colour", .null)] [] .indentWidth "indentWidth" "indent_width"
    (.int 0) (.int 2) (by decide) (by decide)).trans
    (unknown [] [("indent_width", .int 2)] "colour" .null unspelled)
  exact ⟨valid, first, second, twice _ _ _ _ first second, alone, offers _⟩

end Config

end Dragonstone
