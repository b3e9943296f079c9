/-
# Publications of the server are up to date

A client sees of the server only what it publishes.  What it ought to see after a session is told
here without the server: the text of a document is what the messages about it make of it, and the
configuration is what the accepted options make of the first one.  After every message, what the
client last got for an open document are the diagnostics of that text under that configuration, and
for a closed document it has nothing or the empty list.

The proof carries one invariant through the session, from the sent publications to the state.  A
message keeps it in one of two ways: it changes one document and publishes that one, or it changes
no document and publishes all of them.  All other messages change neither documents nor
configuration.
-/

import Dragonstone.Server.State
import Mathlib.Data.List.Induction

namespace Dragonstone.Server

/-! ### What a client knows and what it did -/

/-- What was last sent about a document. -/
def lastSent? (uri : String) (sent : List Publication) : Option (List SentDiagnostic) :=
  (sent.reverse.find? fun p => p.uri == uri).map fun p => p.diagnostics.map Diagnostic.sent

/-- The text of a document after a message, if the document is open then. -/
def Message.textAfter (uri : String) (text? : Option Text) : Message → Option Text
  | .initializeWith _ => none
  | .didOpen opened text => if opened = uri then some text else text?
  | .didChange changed changes =>
    if changed = uri then text?.map fun text => changes.foldl Change.apply text else text?
  | .didClose closed => if closed = uri then none else text?
  | _ => text?

/-- The configuration after options were offered: options that do not fit leave it as it was. -/
def configWith (c : Config) (options : Setting) : Config :=
  match c.merged options with
  | .ok merged => merged
  | .error _ => c

/-- The configuration after a message. -/
def Message.configAfter (c : Config) : Message → Config
  | .initializeWith options => configWith c options
  | .configure settings => configWith c (State.ownSettings settings)
  | _ => c

/-- The text of a document after a session, if the document is open then. -/
def textOf? (uri : String) (session : List Message) : Option Text :=
  session.foldl (Message.textAfter uri) none

/-- The configuration after a session that began with another. -/
def configOf (c : Config) (session : List Message) : Config :=
  session.foldl Message.configAfter c

def Message.isInitialize : Message → Bool
  | .initializeWith _ => true
  | _ => false

def Message.isConfiguration : Message → Bool
  | .configure _ => true
  | _ => false

/-- The document that a message is about. -/
def Message.uri? : Message → Option String
  | .initializeWith _ | .configure _ => none
  | .didOpen uri _ | .didChange uri _ | .didClose uri => some uri
  | .symbols uri | .hover uri _ | .definition uri _ | .format uri | .complete uri _ => some uri

theorem lastSent?_append (uri : String) (first second : List Publication) :
    lastSent? uri (first ++ second) = (lastSent? uri second).or (lastSent? uri first) := by
  simp only [lastSent?, List.reverse_append, List.find?_append]
  cases second.reverse.find? fun p => p.uri == uri <;> rfl

theorem lastSent?_singleton (uri : String) (p : Publication) :
    lastSent? uri [p] =
      if p.uri = uri then some (p.diagnostics.map Diagnostic.sent) else none := by
  by_cases h : p.uri = uri <;> simp [lastSent?, h]

namespace State

/-- The state after a session. -/
def after (s : State) (session : List Message) : State :=
  session.foldl (fun s m => (s.step m).state) s

/-- The publications of a session, the first one first. -/
def sent (s : State) (session : List Message) : List Publication :=
  (s.run session).flatMap Outcome.published

theorem after_cons (s : State) (m : Message) (rest : List Message) :
    s.after (m :: rest) = (s.step m).state.after rest :=
  rfl

theorem sent_cons (s : State) (m : Message) (rest : List Message) :
    s.sent (m :: rest) = (s.step m).published ++ (s.step m).state.sent rest :=
  rfl

/-! ### Options -/

@[simp] theorem setLogLevel_documents (s : State) (value : Setting) :
    (s.setLogLevel value).1.documents = s.documents := by
  fun_cases setLogLevel s value <;> rfl

@[simp] theorem setLogLevel_config (s : State) (value : Setting) :
    (s.setLogLevel value).1.config = s.config := by
  fun_cases setLogLevel s value <;> rfl

@[simp] theorem mergeConfig_documents (s : State) (options : Setting) :
    (s.mergeConfig options).1.documents = s.documents := by
  unfold mergeConfig
  cases s.config.merged options <;> rfl

@[simp] theorem mergeConfig_config (s : State) (options : Setting) :
    (s.mergeConfig options).1.config = configWith s.config options := by
  unfold mergeConfig configWith
  cases s.config.merged options <;> rfl

@[simp] theorem applyOptions_documents (s : State) (options : Setting) :
    (s.applyOptions options).1.documents = s.documents := by
  unfold applyOptions
  split
  · rfl
  · split <;> simp

/-- Blank options and options that are no object leave the configuration as it was, as does
merging them. -/
@[simp] theorem applyOptions_config (s : State) (options : Setting) :
    (s.applyOptions options).1.config = configWith s.config options := by
  unfold applyOptions
  split
  case isTrue blank => simp [configWith, Config.merged, blank]
  case isFalse inked =>
    split
    · simp
    case h_2 shape =>
      have kept : configWith s.config options = s.config := by
        unfold configWith Config.merged
        rw [if_neg inked]
        cases options with
        | object fields => exact absurd rfl (shape fields)
        | _ => rfl
      exact kept.symm

/-! ### Documents and configuration after a session -/

/-- The changes of an open document are made to its text. -/
theorem step_didChange_of_open {s : State} {uri : String} {text : Text}
    (open? : s.documents.get? uri = some text) (changes : List Change) :
    s.step (.didChange uri changes) =
      let next := { s with documents := s.documents.put uri (changes.foldl Change.apply text) }
      { state := next, published := [next.publication uri] } := by
  simp only [step, open?]

/-- The changes of a closed document are not made. -/
theorem step_didChange_of_closed {s : State} {uri : String}
    (open? : s.documents.get? uri = none) (changes : List Change) :
    s.step (.didChange uri changes) =
      { state := s, published := if changes.isEmpty then [s.publication uri] else [] } := by
  simp only [step, open?, publication, Store.diagnostics]

theorem config_step (s : State) (m : Message) :
    (s.step m).state.config = m.configAfter s.config := by
  cases m with
  | initializeWith options => exact applyOptions_config _ options
  | configure settings => exact applyOptions_config s _
  | didChange uri changes =>
      cases open? : s.documents.get? uri with
      | some text => rw [step_didChange_of_open open?]; rfl
      | none => rw [step_didChange_of_closed open?]; rfl
  | _ => rfl

/-- A message makes of every document what its history says. -/
theorem get?_step (s : State) (m : Message) (uri : String) :
    (s.step m).state.documents.get? uri = m.textAfter uri (s.documents.get? uri) := by
  cases m with
  | initializeWith options =>
      simp [step, Message.textAfter]
  | configure settings => simp [step, Message.textAfter]
  | didOpen opened text => simp [step, Message.textAfter, KeyMap.get?_put, eq_comm]
  | didChange changed changes =>
      by_cases same : changed = uri
      · subst same
        cases open? : s.documents.get? changed with
        | some text =>
            simp [step_didChange_of_open open?, Message.textAfter, KeyMap.get?_put]
        | none => simp [step_didChange_of_closed open?, Message.textAfter, open?]
      · have other : ¬ uri = changed := fun h => same h.symm
        cases open? : s.documents.get? changed with
        | some text =>
            simp [step_didChange_of_open open?, Message.textAfter, KeyMap.get?_put, same, other]
        | none => simp [step_didChange_of_closed open?, Message.textAfter, same]
  | didClose closed => simp [step, Message.textAfter, KeyMap.get?_erase, eq_comm]
  | _ => rfl

theorem config_after (s : State) (session : List Message) :
    (s.after session).config = configOf s.config session := by
  induction session generalizing s with
  | nil => rfl
  | cons m rest ih =>
      rw [after_cons, ih, config_step]
      rfl

theorem get?_after (s : State) (session : List Message) (uri : String) :
    (s.after session).documents.get? uri =
      session.foldl (Message.textAfter uri) (s.documents.get? uri) := by
  induction session generalizing s with
  | nil => rfl
  | cons m rest ih =>
      rw [after_cons, ih, get?_step]
      rfl

/-! ### The invariant -/

/-- What a client ought to know about a document: its diagnostics, or none if it is closed. -/
def due (s : State) (uri : String) : List SentDiagnostic :=
  (s.documents.diagnostics s.config uri).map Diagnostic.sent

theorem due_of_get? {s : State} {uri : String} {text : Text}
    (held : s.documents.get? uri = some text) :
    s.due uri = (validate s.config text).map Diagnostic.sent := by
  rw [due, Store.diagnostics, held]

theorem due_of_closed {s : State} {uri : String} (closed : s.documents.get? uri = none) :
    s.due uri = [] := by
  rw [due, Store.diagnostics, closed]
  rfl

/-- A client that got these publications knows what it ought to know of the state. -/
structure UpToDate (s : State) (sent : List Publication) : Prop where
  /-- What was last sent is still right. -/
  right : ∀ uri held, lastSent? uri sent = some held → held = s.due uri
  /-- Something was sent about every open document. -/
  complete : ∀ uri, (s.documents.get? uri).isSome → (lastSent? uri sent).isSome

variable {s next : State} {sent : List Publication}

theorem UpToDate.of_closed (closed : ∀ uri, s.documents.get? uri = none) : s.UpToDate [] where
  right uri held known := by cases known
  complete uri opened := by simp [closed uri] at opened

/-- A message that changes at most one document keeps the client up to date by publishing it. -/
theorem UpToDate.publish_one (h : s.UpToDate sent) {uri : String}
    (config : next.config = s.config)
    (only : ∀ other, other ≠ uri → next.documents.get? other = s.documents.get? other) :
    next.UpToDate (sent ++ [next.publication uri]) := by
  have last (other : String) : lastSent? other (sent ++ [next.publication uri]) =
      if uri = other then some (next.due uri) else lastSent? other sent := by
    rw [lastSent?_append, lastSent?_singleton]
    split
    case isTrue same => rw [if_pos (show uri = other from same)]; rfl
    case isFalse apart => rw [if_neg (show ¬ uri = other from apart)]; rfl
  constructor
  · intro other held known
    rw [last] at known
    split at known
    case isTrue same =>
      subst same
      exact (Option.some.inj known).symm
    case isFalse apart =>
      have kept : next.due other = s.due other := by
        rw [due, due, Store.diagnostics, Store.diagnostics, config, only other (Ne.symm apart)]
      rw [kept]
      exact h.right other held known
  · intro other opened
    rw [last]
    split
    case isTrue => rfl
    case isFalse apart =>
      rw [only other (Ne.symm apart)] at opened
      exact h.complete other opened

/-- What was last sent after all documents of a list were published. -/
theorem lastSent?_publications (s : State) (uri : String) (keys : List String) :
    lastSent? uri (keys.map s.publication) = if uri ∈ keys then some (s.due uri) else none := by
  induction keys using List.reverseRecOn with
  | nil => rfl
  | append_singleton keys last ih =>
      rw [List.map_append, List.map_singleton, lastSent?_append, lastSent?_singleton, ih]
      by_cases same : last = uri
      · subst same
        simp [publication, due]
      · have other : ¬ uri = last := fun h => same h.symm
        simp [publication, same, other]

/-- A change of the configuration keeps the client up to date by publishing all documents. -/
theorem UpToDate.publish_all (h : s.UpToDate sent) (documents : next.documents = s.documents) :
    next.UpToDate (sent ++ next.documents.keys.map next.publication) := by
  have last (uri : String) :
      lastSent? uri (sent ++ next.documents.keys.map next.publication) =
        if (next.documents.get? uri).isSome then some (next.due uri) else lastSent? uri sent := by
    simp only [lastSent?_append, lastSent?_publications, KeyMap.mem_keys_iff]
    split <;> rfl
  constructor
  · intro uri held known
    rw [last] at known
    split at known
    case isTrue => exact (Option.some.inj known).symm
    case isFalse closed =>
      have none : next.documents.get? uri = none := by simpa using closed
      rw [h.right uri held known, due_of_closed none, due_of_closed (documents ▸ none)]
  · intro uri opened
    rw [last, if_pos opened]
    rfl

/-- A message that publishes nothing and changes nothing that matters keeps the client up to
date. -/
theorem UpToDate.publish_nothing (h : s.UpToDate sent) : s.UpToDate (sent ++ []) := by
  rwa [List.append_nil]

/-- After the session has begun, every message keeps the client up to date. -/
theorem UpToDate.step (h : s.UpToDate sent) {m : Message} (running : m.isInitialize = false) :
    (s.step m).state.UpToDate (sent ++ (s.step m).published) := by
  cases m with
  | initializeWith options => cases running
  | configure settings =>
      exact h.publish_all (applyOptions_documents s _)
  | didOpen uri text =>
      refine h.publish_one rfl fun other apart => ?_
      exact (KeyMap.get?_put _ _ _ _).trans (if_neg apart)
  | didChange uri changes =>
      cases open? : s.documents.get? uri with
      | some text =>
          rw [step_didChange_of_open open?]
          refine h.publish_one rfl fun other apart => ?_
          exact (KeyMap.get?_put _ _ _ _).trans (if_neg apart)
      | none =>
          rw [step_didChange_of_closed open?]
          cases changes with
          | nil => exact h.publish_one rfl fun _ _ => rfl
          | cons change rest => exact h.publish_nothing
  | didClose uri =>
      let closed : State := { s with documents := s.documents.erase uri }
      have gone : closed.documents.get? uri = none :=
        (KeyMap.get?_erase _ _ _).trans (if_pos rfl)
      have empty : (⟨uri, []⟩ : Publication) = closed.publication uri := by
        rw [publication, Store.diagnostics, gone]
      change closed.UpToDate (sent ++ [⟨uri, []⟩])
      rw [empty]
      refine h.publish_one rfl fun other apart => ?_
      exact (KeyMap.get?_erase _ _ _).trans (if_neg apart)
  | _ => exact h.publish_nothing

theorem UpToDate.run (h : s.UpToDate sent) {session : List Message}
    (running : ∀ m ∈ session, m.isInitialize = false) :
    (s.after session).UpToDate (sent ++ s.sent session) := by
  induction session generalizing s sent with
  | nil => exact h.publish_nothing
  | cons m rest ih =>
      obtain ⟨first, later⟩ := List.forall_mem_cons.mp running
      rw [after_cons, sent_cons, ← List.append_assoc]
      exact ih (h.step first) later

/-- The beginning of a session leaves nothing open and publishes nothing. -/
theorem upToDate_initialize (s : State) (options : Setting) :
    (s.step (.initializeWith options)).state.UpToDate [] :=
  .of_closed fun uri => get?_step s (.initializeWith options) uri

/-- A message about one document publishes nothing about another. -/
theorem uri?_of_mem_published {m : Message} (about : m.isConfiguration = false)
    {p : Publication} (published : p ∈ (s.step m).published) : m.uri? = some p.uri := by
  cases m with
  | configure settings => cases about
  | didOpen uri text =>
      obtain rfl := List.mem_singleton.mp published
      rfl
  | didChange uri changes =>
      cases open? : s.documents.get? uri with
      | some text =>
          rw [step_didChange_of_open open?] at published
          obtain rfl := List.mem_singleton.mp published
          rfl
      | none =>
          rw [step_didChange_of_closed open?] at published
          cases changes with
          | nil =>
              obtain rfl := List.mem_singleton.mp published
              rfl
          | cons change rest => cases published
  | didClose uri =>
      obtain rfl := List.mem_singleton.mp published
      rfl
  | _ => cases published

end State

/-! ### Sessions -/

/-- After every session that begins with `initialize`, what was last published about an open
document are the diagnostics of its text under the configuration in force, and about a closed one
nothing or the empty list.  The next message publishes nothing about another document, unless it
changes the configuration. -/
theorem publications_are_never_stale (s : State) (options : Setting) (rest : List Message)
    (running : ∀ m ∈ rest, m.isInitialize = false) (uri : String) :
    let session := Message.initializeWith options :: rest
    (∀ text, textOf? uri session = some text →
      lastSent? uri (s.sent session) =
        some ((validate (configOf s.config session) text).map Diagnostic.sent)) ∧
    (textOf? uri session = none →
      lastSent? uri (s.sent session) = none ∨ lastSent? uri (s.sent session) = some []) ∧
    ∀ m : Message, m.isConfiguration = false →
      ∀ p ∈ ((s.after session).step m).published, m.uri? = some p.uri := by
  intro session
  have upToDate : (s.after session).UpToDate (s.sent session) :=
    (s.upToDate_initialize options).run running
  have text : (s.after session).documents.get? uri = textOf? uri session :=
    s.get?_after session uri
  have config : (s.after session).config = configOf s.config session :=
    s.config_after session
  refine ⟨fun held opened => ?_, fun closed => ?_,
    fun m about p => State.uri?_of_mem_published about⟩
  · rw [opened] at text
    obtain ⟨known, last⟩ := Option.isSome_iff_exists.mp
      (upToDate.complete uri (by rw [text]; rfl))
    rw [last, upToDate.right uri known last, State.due_of_get? text, config]
  · rw [closed] at text
    cases last : lastSent? uri (s.sent session) with
    | none => exact .inl rfl
    | some known => exact .inr (by rw [upToDate.right uri known last, State.due_of_closed text])

/-- A session in which one document is opened and changed, another is closed again, and an indent
width of zero is offered and rejected in between. -/
def sampleSession : List Message :=
  [.didOpen "a.ds" "end\n".toList,
    .didOpen "b.ds" "fi".toList,
    .configure (.object [("dragonstone", .object [("indentWidth", .int 0)])]),
    .didClose "b.ds",
    .didChange "a.ds" [⟨some ⟨⟨0, 0⟩, ⟨0, 3⟩⟩, "if x".toList⟩]]

theorem publications_are_never_stale_after_rejected_width :
    (∀ m ∈ sampleSession, m.isInitialize = false) ∧
    lastSent? "a.ds" (({} : State).sent (.initializeWith .null :: sampleSession)) =
      some ((validate {} "if x\n".toList).map Diagnostic.sent) := by
  have running : ∀ m ∈ sampleSession, m.isInitialize = false := by decide
  have h := publications_are_never_stale {} .null sampleSession running "a.ds"
  have text : textOf? "a.ds" (.initializeWith .null :: sampleSession) = some "if x\n".toList := by
    decide +kernel
  have config : configOf {} (.initializeWith .null :: sampleSession) = {} := by
    rfl
  refine ⟨running, ?_⟩
  rw [h.1 _ text]
  exact config ▸ rfl

end Dragonstone.Server
