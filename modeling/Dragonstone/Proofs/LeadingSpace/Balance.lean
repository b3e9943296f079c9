/-
# Leading blanks and the balance of brackets

The balance of brackets is read off the whole document at once, after comments and the bodies of
literals are dropped.  What is inside of what is decided anew after every line feed: there the scan
is in code, in a block comment or in a literal, and no longer in a line comment, after a backslash
or half way through a marker.  In code it copies the blanks that follow, elsewhere it drops them.
So blanks at the beginning of a line either stay such blanks or vanish, and nothing that the check
looks at depends on blanks at the beginning of a line.
-/

import Dragonstone.Balance
import Dragonstone.Proofs.LeadingSpace.Dedent
import Dragonstone.Proofs.LeadingSpace.Line

namespace Dragonstone

namespace Balance

/-! ### One character -/

/-- No marker of a comment stands at the front of the text. -/
def NoMarker (s : Text) : Prop :=
  ∀ rest, s ≠ '#' :: '[' :: rest ∧ s ≠ ']' :: '#' :: rest

theorem noMarker_cons {c : Char} {rest : Text}
    (opening : ∀ later, c = '#' → rest = '[' :: later → False)
    (closing : ∀ later, c = ']' → rest = '#' :: later → False) : NoMarker (c :: rest) := by
  intro later
  constructor
  · intro h
    exact opening later (List.cons.inj h).1 (List.cons.inj h).2
  · intro h
    exact closing later (List.cons.inj h).1 (List.cons.inj h).2

/-- No marker reaches over a line feed. -/
theorem NoMarker.append_feed {c : Char} {rest : Text} (h : NoMarker (c :: rest)) (t : Text) :
    NoMarker (c :: rest ++ '\n' :: t) := by
  intro later
  cases rest with
  | nil => exact ⟨by simp, by simp⟩
  | cons d rest =>
      constructor
      · intro hopen
        obtain ⟨rfl, rfl, -⟩ : c = '#' ∧ d = '[' ∧ _ := by simpa using hopen
        exact (h rest).1 rfl
      · intro hclose
        obtain ⟨rfl, rfl, -⟩ : c = ']' ∧ d = '#' ∧ _ := by simpa using hclose
        exact (h rest).2 rfl

theorem noMarker_of_isBlank {c : Char} (hc : isBlank c = true) (s : Text) : NoMarker (c :: s) := by
  have hspace : isSpace c = true := isSpace_of_isBlank hc
  intro rest
  constructor
  · intro hopen
    exact ne_of_isSpace hspace (by decide) (List.cons.inj hopen).1
  · intro hclose
    exact ne_of_isSpace hspace (by decide) (List.cons.inj hclose).1

/-- In a literal, any character but a backslash is read alone. -/
theorem stripFrom_literal (q : Quote) {c : Char} (hc : c ≠ '\\') (rest : Text) :
    stripFrom (.literal q) (c :: rest) =
      if c == q.char then c :: stripFrom .code rest else stripFrom (.literal q) rest :=
  stripFrom.eq_5 q c rest (fun h _ => hc h) (fun _ _ h _ => hc h)

theorem stripFrom_blockComment (n : Nat) {c : Char} {rest : Text} (h : NoMarker (c :: rest)) :
    stripFrom (.blockComment n) (c :: rest) = stripFrom (.blockComment n) rest := by
  refine stripFrom.eq_8 n c rest ?_ ?_
  · rintro later rfl rfl
    exact (h later).1 rfl
  · rintro later rfl rfl
    exact (h later).2 rfl

/-- In code, a character that begins no marker is read alone. -/
theorem stripFrom_code {c : Char} {rest : Text} (h : NoMarker (c :: rest)) :
    stripFrom .code (c :: rest) =
      if c == '#' then stripFrom .lineComment rest
      else
        match Quote.ofChar? c with
        | some q => c :: stripFrom (.literal q) rest
        | none => c :: stripFrom .code rest := by
  refine stripFrom.eq_11 c rest ?_ ?_
  · rintro later rfl rfl
    exact (h later).1 rfl
  · rintro later rfl rfl
    exact (h later).2 rfl

/-- Code copies blanks; block comments and literals drop them. -/
theorem stripFrom_blanks {mode : Mode} (hmode : mode ≠ .lineComment) {p : Text}
    (blanks : ∀ c ∈ p, isBlank c = true) (t : Text) :
    stripFrom mode (p ++ t) = (if mode = .code then p else []) ++ stripFrom mode t := by
  induction p with
  | nil => simp
  | cons c p ih =>
      have hc : isBlank c = true := blanks c List.mem_cons_self
      have hspace : isSpace c = true := isSpace_of_isBlank hc
      have hmarker : NoMarker (c :: (p ++ t)) := noMarker_of_isBlank hc _
      have hlater := ih fun d member => blanks d (List.mem_cons_of_mem c member)
      rw [List.cons_append]
      cases mode with
      | lineComment => exact absurd rfl hmode
      | code =>
          have hcomment : c ≠ '#' := ne_of_isSpace hspace (by decide)
          rw [stripFrom_code hmarker, ofChar?_of_isSpace hspace, hlater]
          simp [hcomment]
      | blockComment n =>
          rw [stripFrom_blockComment n hmarker, hlater]
          simp
      | literal q =>
          have hescape : c ≠ '\\' := ne_of_isSpace hspace (by decide)
          have hquote : c ≠ q.char := Quote.ofChar?_eq_none_iff.mp (ofChar?_of_isSpace hspace) q
          rw [stripFrom_literal q hescape, hlater]
          simp [hquote]

/-! ### Stripping goes on after a line feed -/

/-- Stripping the text and a line feed after it puts out `out` and goes on in `mode`, whatever
follows.  If it goes on in code, a line has just begun in the output too. -/
structure Resumes (start : Mode) (s out : Text) (mode : Mode) : Prop where
  mode_ne : mode ≠ .lineComment
  feed : mode = .code → ∃ front, out = front ++ ['\n']
  stripFrom_eq : ∀ t, stripFrom start (s ++ '\n' :: t) = out ++ stripFrom mode t

variable {start start' mode : Mode} {s s' out : Text}

/-- Something at the front of the text is dropped. -/
theorem Resumes.drop (h : Resumes start' s' out mode)
    (dropped : ∀ t, stripFrom start (s ++ '\n' :: t) = stripFrom start' (s' ++ '\n' :: t)) :
    Resumes start s out mode :=
  ⟨h.mode_ne, h.feed, fun t => (dropped t).trans (h.stripFrom_eq t)⟩

/-- A character at the front of the text is copied. -/
theorem Resumes.copy {c : Char} (h : Resumes start' s' out mode)
    (copied : ∀ t, stripFrom start (s ++ '\n' :: t) = c :: stripFrom start' (s' ++ '\n' :: t)) :
    Resumes start s (c :: out) mode := by
  refine ⟨h.mode_ne, ?_, ?_⟩
  · intro hcode
    obtain ⟨front, rfl⟩ := h.feed hcode
    exact ⟨c :: front, rfl⟩
  · intro t
    rw [copied, h.stripFrom_eq]
    rfl

/-- The line feed itself: code and line comments copy it and go on in code, block comments and
literals drop it. -/
theorem exists_resumes_nil (start : Mode) : ∃ out mode, Resumes start [] out mode := by
  have blank : ∀ c ∈ ['\n'], isBlank c = true := List.forall_mem_singleton.mpr (by decide)
  cases start with
  | lineComment =>
      exact ⟨['\n'], .code, by simp, fun _ => ⟨[], rfl⟩, fun t => by simp [stripFrom]⟩
  | code => exact ⟨['\n'], .code, by simp, fun _ => ⟨[], rfl⟩, stripFrom_blanks (by simp) blank⟩
  | blockComment n =>
      exact ⟨[], .blockComment n, by simp, by simp, stripFrom_blanks (by simp) blank⟩
  | literal q => exact ⟨[], .literal q, by simp, by simp, stripFrom_blanks (by simp) blank⟩

/-- A character that is neither the last backslash nor one with a character after it is no
backslash. -/
theorem ne_backslash {c : Char} {rest : Text} (last : c = '\\' → rest = [] → False)
    (escape : ∀ d later, c = '\\' → rest = d :: later → False) : c ≠ '\\' := by
  intro hc
  cases rest with
  | nil => exact last hc rfl
  | cons d later => exact escape d later hc rfl

/-- After every line feed, stripping goes on in a mode that depends only on what stands before. -/
theorem exists_resumes (start : Mode) (s : Text) : ∃ out mode, Resumes start s out mode := by
  fun_induction stripFrom start s with
  | case1 start => exact exists_resumes_nil start
  | case2 c rest hfeed ih =>
      obtain ⟨out, mode, h⟩ := ih
      exact ⟨c :: out, mode, h.copy fun t => by simp [stripFrom, hfeed]⟩
  | case3 c rest hfeed ih =>
      obtain ⟨out, mode, h⟩ := ih
      exact ⟨out, mode, h.drop fun t => by simp [stripFrom, hfeed]⟩
  | case4 q =>
      -- The backslash takes the line feed with it.
      exact ⟨[], .literal q, by simp, by simp, fun t => by simp [stripFrom]⟩
  | case5 q d rest ih =>
      obtain ⟨out, mode, h⟩ := ih
      exact ⟨out, mode, h.drop fun t => by simp [stripFrom]⟩
  | case6 q c rest hlast hescape hquote ih =>
      obtain ⟨out, mode, h⟩ := ih
      refine ⟨c :: out, mode, h.copy fun t => ?_⟩
      rw [List.cons_append, stripFrom_literal q (ne_backslash hlast hescape), if_pos hquote]
  | case7 q c rest hlast hescape hquote ih =>
      obtain ⟨out, mode, h⟩ := ih
      refine ⟨out, mode, h.drop fun t => ?_⟩
      rw [List.cons_append, stripFrom_literal q (ne_backslash hlast hescape), if_neg hquote]
  | case8 n rest ih =>
      obtain ⟨out, mode, h⟩ := ih
      exact ⟨out, mode, h.drop fun t => by simp [stripFrom]⟩
  | case9 n rest ih =>
      obtain ⟨out, mode, h⟩ := ih
      exact ⟨out, mode, h.drop fun t => by simp [stripFrom]⟩
  | case10 n c rest hopen hclose ih =>
      obtain ⟨out, mode, h⟩ := ih
      have hmarker : NoMarker (c :: rest) := noMarker_cons hopen hclose
      exact ⟨out, mode, h.drop fun t => stripFrom_blockComment n (hmarker.append_feed t)⟩
  | case11 rest ih =>
      obtain ⟨out, mode, h⟩ := ih
      exact ⟨out, mode, h.drop fun t => by simp [stripFrom]⟩
  | case12 rest ih =>
      obtain ⟨out, mode, h⟩ := ih
      exact ⟨out, mode, h.drop fun t => by simp [stripFrom]⟩
  | case13 c rest hopen hclose hcomment ih =>
      obtain ⟨out, mode, h⟩ := ih
      have hmarker : NoMarker (c :: rest) := noMarker_cons hopen hclose
      refine ⟨out, mode, h.drop fun t => ?_⟩
      exact (stripFrom_code (hmarker.append_feed t)).trans (if_pos hcomment)
  | case14 c rest hopen hclose hcomment q hquote ih =>
      obtain ⟨out, mode, h⟩ := ih
      have hmarker : NoMarker (c :: rest) := noMarker_cons hopen hclose
      refine ⟨c :: out, mode, h.copy fun t => ?_⟩
      refine (stripFrom_code (hmarker.append_feed t)).trans ?_
      rw [if_neg hcomment, hquote]
      rfl
  | case15 c rest hopen hclose hcomment hquote ih =>
      obtain ⟨out, mode, h⟩ := ih
      have hmarker : NoMarker (c :: rest) := noMarker_cons hopen hclose
      refine ⟨c :: out, mode, h.copy fun t => ?_⟩
      refine (stripFrom_code (hmarker.append_feed t)).trans ?_
      rw [if_neg hcomment, hquote]
      rfl

/-- What ignores blanks at the beginning of a line in the stripped text ignores them in the
document. -/
theorem ignoresIndents_strip {β : Type} {f : Text → β} (hf : IgnoresIndents f) :
    IgnoresIndents fun s => f (strip s) := by
  intro u p v hu blanks
  show f (stripFrom .code (u ++ (p ++ v))) = f (stripFrom .code (u ++ v))
  rcases hu with rfl | ⟨front, rfl⟩
  · rw [List.nil_append, stripFrom_blanks (by simp) blanks, if_pos rfl]
    exact hf [] p (stripFrom .code v) (Or.inl rfl) blanks
  · obtain ⟨out, mode, h⟩ := exists_resumes .code front
    rw [List.append_assoc, List.append_assoc, List.singleton_append, List.singleton_append,
      h.stripFrom_eq, h.stripFrom_eq, stripFrom_blanks h.mode_ne blanks]
    by_cases hcode : mode = .code
    · rw [if_pos hcode]
      exact hf out p (stripFrom mode v) (Or.inr (h.feed hcode)) blanks
    · rw [if_neg hcode, List.nil_append]

/-! ### What the check looks at -/

/-- Counting a character that is no blank ignores blanks. -/
theorem ignoresIndents_count {c : Char} (hc : isBlank c = false) :
    IgnoresIndents fun s => List.count c s := by
  intro u p v _ blanks
  have hzero : List.count c p = 0 := by
    rw [List.count_eq_zero]
    intro member
    rw [blanks c member] at hc
    cases hc
  simp only [List.count_append, hzero, Nat.zero_add]

theorem ignoresIndents_surplus : IgnoresIndents Surplus.of := by
  intro u p v hu blanks
  have hcount {c : Char} (hc : isBlank c = false) :
      List.count c (u ++ (p ++ v)) = List.count c (u ++ v) :=
    ignoresIndents_count hc u p v hu blanks
  simp only [Surplus.of, surplus, hcount (show isBlank '(' = false by decide),
    hcount (show isBlank ')' = false by decide), hcount (show isBlank '[' = false by decide),
    hcount (show isBlank ']' = false by decide), hcount (show isBlank '\x7b' = false by decide),
    hcount (show isBlank '\x7d' = false by decide)]

theorem hasArrow_cons (c : Char) (rest : Text) :
    hasArrow (c :: rest) = (c == '-' && rest.head? == some '>' || hasArrow rest) := by
  by_cases harrow : c = '-' ∧ rest.head? = some '>'
  · obtain ⟨rfl, hhead⟩ := harrow
    obtain ⟨later, rfl⟩ := List.head?_eq_some_iff.mp hhead
    simp [hasArrow]
  · have hlater : hasArrow (c :: rest) = hasArrow rest := by
      refine hasArrow.eq_3 c rest ?_
      rintro later rfl rfl
      exact harrow ⟨rfl, rfl⟩
    have hnone : (c == '-' && rest.head? == some '>') = false := by
      simpa using harrow
    rw [hlater, hnone, Bool.false_or]

/-- No arrow reaches over a blank. -/
theorem hasArrow_append_blank {c : Char} (hc : isBlank c = true) (u v : Text) :
    hasArrow (u ++ c :: v) = (hasArrow u || hasArrow v) := by
  have hspace : isSpace c = true := isSpace_of_isBlank hc
  have hdash : c ≠ '-' := ne_of_isSpace hspace (by decide)
  have hhead : c ≠ '>' := ne_of_isSpace hspace (by decide)
  induction u with
  | nil => simp [hasArrow_cons, hdash, hasArrow]
  | cons d u ih =>
      have hnext : ((u ++ c :: v).head? == some '>') = (u.head? == some '>') := by
        cases u with
        | nil => simpa using hhead
        | cons e u => rfl
      rw [List.cons_append, hasArrow_cons, hasArrow_cons, hnext, ih, Bool.or_assoc]

theorem ignoresIndents_hasArrow : IgnoresIndents hasArrow := by
  have hcons : ∀ c rest, isBlank c = true → hasArrow (c :: rest) = hasArrow rest :=
    fun c rest hc => hasArrow_append_blank hc [] rest
  intro u p v hu blanks
  rcases hu with rfl | ⟨front, rfl⟩
  · exact apply_append_of_forall hcons blanks v
  · have hfeed : isBlank '\n' = true := by decide
    rw [List.append_assoc, List.append_assoc, List.singleton_append, List.singleton_append,
      hasArrow_append_blank hfeed, hasArrow_append_blank hfeed,
      apply_append_of_forall hcons blanks]

theorem opensWith_append (d : Char) (s t : Text) :
    opensWith d (s ++ t) = if (skipBlanks s).isEmpty then opensWith d t else opensWith d s := by
  rw [opensWith, skipBlanks, List.dropWhile_append]
  cases hskip : s.dropWhile isBlank with
  | nil => simp [skipBlanks, hskip, opensWith]
  | cons c rest => simp [skipBlanks, hskip, opensWith]

/-- A bracketed alias is found without regard to blanks at the beginning of a line: the bracket
may stand on a later line than the word. -/
theorem ignoresIndents_hasBracketedAlias : IgnoresIndents hasBracketedAlias := by
  have hwords : ∀ c rest, isBlank c = true → words (c :: rest) = words rest :=
    fun c rest hc => words_cons (isSpace_of_isBlank hc) rest
  intro u p v hu blanks
  rcases hu with rfl | ⟨front, rfl⟩
  · rw [hasBracketedAlias, List.nil_append, apply_append_of_forall hwords blanks]
    rfl
  · have hfeed : isBlank '\n' = true := by decide
    have hopens (rest : Text) :
        opensWith '[' (rest ++ '\n' :: (p ++ v)) = opensWith '[' (rest ++ '\n' :: v) := by
      have hlater : opensWith '[' ('\n' :: (p ++ v)) = opensWith '[' ('\n' :: v) := by
        rw [opensWith, opensWith, skipBlanks_cons hfeed, skipBlanks_cons hfeed,
          apply_append_of_forall (fun _ s hc => skipBlanks_cons hc s) blanks]
      rw [opensWith_append, opensWith_append, hlater]
    simp only [hasBracketedAlias, List.append_assoc, List.singleton_append,
      words_append_cons (isSpace_of_isBlank hfeed), List.any_append, List.any_map,
      Function.comp_def, hopens, apply_append_of_forall hwords blanks]

/-- The idioms that unbalance brackets are found without regard to indentation. -/
theorem hasBenignIdiom_strip_dedent (text : Text) :
    hasBenignIdiom (strip (dedent text)) = hasBenignIdiom (strip text) := by
  have harrow : hasArrow (strip (dedent text)) = hasArrow (strip text) :=
    (ignoresIndents_strip ignoresIndents_hasArrow).apply_dedent text
  have halias : hasBracketedAlias (strip (dedent text)) = hasBracketedAlias (strip text) :=
    (ignoresIndents_strip ignoresIndents_hasBracketedAlias).apply_dedent text
  rw [hasBenignIdiom, harrow, halias, hasBenignIdiom]

theorem surplus_strip_dedent (text : Text) :
    Surplus.of (strip (dedent text)) = Surplus.of (strip text) :=
  (ignoresIndents_strip ignoresIndents_surplus).apply_dedent text

end Balance

end Dragonstone
