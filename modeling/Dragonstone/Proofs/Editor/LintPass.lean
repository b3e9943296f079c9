/-
# Lint passes that are lost

A change of a text asks for a lint pass, and the pass that comes validates the document.  A window
waits for one pass only, though, and serves it only while its document is current.  So a pass is
lost if another document is edited in the meantime, which then waits instead, or if the time for
the pass comes while another document is current.

Apart from this, what is held about a document is what validation finds in its pane: after every
event the two agree or a pass for the document is due.  A lost pass leaves what is held as right or
wrong as it was, and it is right again only if something later validates the document.
-/

import Dragonstone.Proofs.Editor.Held

namespace Dragonstone.Editor

namespace Window

variable {w w' : Window} {uri : String}

/-! ### One event -/

/-- A pass that is due for a document is lost: another document is current, and afterwards the pass
is not due any more. -/
structure LosesPass (w : Window) (uri : String) (turn : Turn) : Prop where
  due : w.lint = some uri
  away : w.uri? ≠ some uri
  gone : (w.turned turn).lint ≠ some uri

instance (w : Window) (uri : String) (turn : Turn) : Decidable (w.LosesPass uri turn) :=
  decidable_of_iff (w.lint = some uri ∧ w.uri? ≠ some uri ∧ (w.turned turn).lint ≠ some uri)
    ⟨fun ⟨due, away, gone⟩ => ⟨due, away, gone⟩, fun ⟨due, away, gone⟩ => ⟨due, away, gone⟩⟩

/-- The pass that is due for the current document makes right what is held about it. -/
theorem fresh_lintPass_of_due (right : w.papers.Right uri) (due : w.lint = some uri)
    (current : w.uri? = some uri) : w.lintPass.Fresh uri := by
  intro s mem hs
  rw [papers_lintPass] at mem
  rw [w.notice_lintPass due current, Notice.found_receive, if_pos rfl, Store.diagnostics,
    right.agrees s mem hs]
  rfl

theorem fresh_lintPass (right : w.papers.Right uri) (fresh : w.Fresh uri) :
    w.lintPass.Fresh uri := by
  cases due : w.lint with
  | none =>
      rw [lintPass, due]
      exact fresh
  | some v =>
      by_cases current : w.uri? = some v
      · by_cases same : v = uri
        · subst same
          exact fresh_lintPass_of_due right due current
        · intro s mem hs
          rw [papers_lintPass] at mem
          rw [w.notice_lintPass due current, Notice.found_receive, if_neg (Ne.symm same)]
          exact fresh s mem hs
      · rw [w.lintPass_of_away due current]
        exact fresh

/-- What is right about a document stays right, or the document waits for a pass. -/
theorem Treats.fresh (treats : Treats uri w w') (before : w.copies uri ≤ 1)
    (after : w'.copies uri ≤ 1) (right : w.papers.Right uri) (fresh : w.Fresh uri) :
    w'.Fresh uri ∨ w'.lint = some uri := by
  cases treats with
  | quiet quiet => exact .inl (quiet.fresh before after fresh)
  | pass => exact .inl (fresh_lintPass right fresh)
  | edits edits =>
      by_cases waits : w'.lint = some uri
      · exact .inr waits
      · refine .inl fun s mem hs => ?_
        rw [Notice.found, edits.published, edits.config]
        obtain due | ⟨t, old, uri, text⟩ := edits.sheets s mem
        · exact absurd (hs ▸ due) waits
        · exact text ▸ fresh t old (uri.trans hs)

/-- A document that waits for a pass goes on waiting or gets it, unless the pass is lost. -/
theorem Treats.due (treats : Treats uri w w') (right : w.papers.Right uri)
    (due : w.lint = some uri) (served : w.uri? = some uri ∨ w'.lint = some uri) :
    w'.Fresh uri ∨ w'.lint = some uri := by
  obtain current | waits := served
  · cases treats with
    | quiet quiet => exact .inr (quiet.lint.trans due)
    | pass => exact .inl (fresh_lintPass_of_due right due current)
    | edits edits =>
        exact .inr (edits.lint.elim (fun kept => kept.trans due) fun moved => moved.trans current)
  · exact .inr waits

/-- Where a pass is lost, what is held about the document is as right or wrong as it was. -/
theorem LosesPass.fresh_iff {turn : Turn} (loses : w.LosesPass uri turn)
    (between : ∀ v ∈ w.between ⟨turn.2, []⟩ turn.1, v.copies uri ≤ 1) :
    (w.turned turn).Fresh uri ↔ w.Fresh uri := by
  have treats : Treats uri w (w.turned turn) := w.treats_step _ _ between
  obtain ⟨due, away, gone⟩ := loses
  generalize w.turned turn = w' at treats gone ⊢
  cases treats with
  | quiet quiet => exact absurd (quiet.lint.trans due) gone
  | pass =>
      rw [w.lintPass_of_away due away]
      rfl
  | edits edits =>
      have held : w'.notice.found uri = w.notice.found uri := by
        rw [Notice.found, edits.published]
        rfl
      have sheets (s : Sheet) (hs : s.uri = uri) :
          s ∈ w'.papers.sheets ↔ s ∈ w.papers.sheets := edits.others s (hs ▸ away)
      rw [Fresh, Fresh, held, edits.config]
      exact ⟨fun fresh s mem hs => fresh s ((sheets s hs).mpr mem) hs,
        fun fresh s mem hs => fresh s ((sheets s hs).mp mem) hs⟩

/-! ### All events -/

/-- Every pass for a document that is lost in a run is made up for: what is held is right at some
moment after it. -/
def Recovers (uri : String) (w : Window) : List Turn → Prop
  | [] => True
  | turn :: rest =>
    (w.LosesPass uri turn → ∃ v ∈ rest.scanl turned (w.turned turn), v.Fresh uri) ∧
      (w.turned turn).Recovers uri rest

theorem start_mem_scanl (w : Window) (turns : List Turn) : w ∈ turns.scanl turned w := by
  cases turns with
  | nil => exact List.mem_singleton_self w
  | cons turn rest =>
      rw [List.scanl_cons]
      exact List.mem_cons_self

instance decidableRecovers (uri : String) (w : Window) :
    (turns : List Turn) → Decidable (w.Recovers uri turns)
  | [] => inferInstanceAs (Decidable True)
  | turn :: rest =>
    have := decidableRecovers uri (w.turned turn) rest
    inferInstanceAs (Decidable (_ ∧ _))

/-- A run keeps that what is held is right now or later, or that a pass is due, as long as lost
passes are made up for. -/
theorem fresh_or_due_after {turns : List Turn} (typed : ∀ turn ∈ turns, '\r' ∉ turn.1.typedText)
    (alone : ∀ v ∈ w.history turns, v.copies uri ≤ 1) (right : w.papers.Right uri)
    (recovers : w.Recovers uri turns)
    (known : (∃ v ∈ turns.scanl turned w, v.Fresh uri) ∨ w.lint = some uri) :
    (w.after turns).Fresh uri ∨ (w.after turns).lint = some uri := by
  induction turns generalizing w with
  | nil =>
      refine known.imp (fun ⟨v, mem, fresh⟩ => ?_) id
      rw [List.scanl_nil, List.mem_singleton] at mem
      exact mem ▸ fresh
  | cons turn rest ih =>
      obtain ⟨typedNow, typedLater⟩ := List.forall_mem_cons.mp typed
      obtain ⟨before, later⟩ := List.forall_mem_cons.mp alone
      obtain ⟨between, after⟩ := List.forall_mem_append.mp later
      obtain ⟨recoversNow, recoversLater⟩ := recovers
      have now : (w.turned turn).copies uri ≤ 1 := after _ (mem_history_self _ _)
      have rightNow : (w.turned turn).papers.Right uri :=
        w.keeps_step _ _ typedNow between before now right
      have treats : Treats uri w (w.turned turn) := w.treats_step _ _ between
      have step (h : (w.turned turn).Fresh uri ∨ (w.turned turn).lint = some uri) :
          (∃ v ∈ rest.scanl turned (w.turned turn), v.Fresh uri) ∨
            (w.turned turn).lint = some uri :=
        h.imp (fun fresh => ⟨_, start_mem_scanl _ rest, fresh⟩) id
      refine ih typedLater after rightNow recoversLater ?_
      -- Where a pass is lost nothing is due any more, and nothing need be right yet: from there the
      -- invariant is carried by the later moment at which the pass is made up for.
      obtain ⟨v, mem, fresh⟩ | due := known
      · rw [List.scanl_cons] at mem
        obtain rfl | mem := List.mem_cons.mp mem
        · exact step (treats.fresh before now right fresh)
        · exact .inl ⟨v, mem, fresh⟩
      · by_cases served : w.uri? = some uri ∨ (w.turned turn).lint = some uri
        · exact step (treats.due right due served)
        · obtain ⟨away, gone⟩ := not_or.mp served
          exact .inl (recoversNow ⟨due, away, gone⟩)

theorem after_mem_scanl (w : Window) (turns : List Turn) :
    w.after turns ∈ turns.scanl turned w := by
  induction turns generalizing w with
  | nil => exact List.mem_singleton_self _
  | cons turn rest ih =>
      rw [List.scanl_cons]
      exact List.mem_cons_of_mem _ (ih (w.turned turn))

theorem after_mem_history (w : Window) (turns : List Turn) : w.after turns ∈ w.history turns := by
  induction turns generalizing w with
  | nil => exact List.mem_singleton_self _
  | cons turn rest ih =>
      exact List.mem_cons_of_mem _ (List.mem_append_right _ (ih (w.turned turn)))

theorem between_mem_history (w : Window) (early : List Turn) (turn : Turn) (late : List Turn) :
    ∀ v ∈ (w.after early).between ⟨turn.2, []⟩ turn.1, v ∈ w.history (early ++ turn :: late) := by
  induction early generalizing w with
  | nil => exact fun v mem => List.mem_cons_of_mem _ (List.mem_append_left _ mem)
  | cons first rest ih =>
      exact fun v mem => List.mem_cons_of_mem _ (List.mem_append_right _ (ih (w.turned first) v mem))

theorem recovers_of_fresh {turns : List Turn} (fresh : (w.after turns).Fresh uri) :
    w.Recovers uri turns := by
  induction turns generalizing w with
  | nil => trivial
  | cons turn rest ih =>
      exact ⟨fun _ => ⟨_, after_mem_scanl _ rest, fresh⟩, ih fresh⟩

end Window

open Window

/-- Two documents are made and an `end` is typed into the second one.  Before its pass comes, the
first document is edited too, and waits instead. -/
def lossyRun : List Turn :=
  [(.openText [], []), (.openText [], []), (.insert "end".toList, []), (.select 0, []),
    (.insert "x".toList, []), (.tick, [])]

/-- The run after which names are not checked any more. -/
def recoveredRun : List Turn :=
  lossyRun ++ [(.configure (.object [("checkNaming", .flag false)]), [])]

end Dragonstone.Editor
