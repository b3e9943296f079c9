/-
# What the user does

Every event changes the window and may show dialogs, which take their answers from a list.
-/

import Dragonstone.Editor.Action
import Dragonstone.Editor.Window.Files

namespace Dragonstone.Editor

/-- What happens to the window.  Indices and rows may be any integers; one that does not exist changes
nothing. -/
inductive Event where
  | openPath (path : Path)
  | openText (text : Text)
  | act (action : Action)
  | press (button : Button)
  | closePane (index : Int)
  | closeWindow
  | select (index : Int)
  /-- The time for the lint pass has come. -/
  | tick
  | configure (options : Setting)
  | filterProblems (name : String)
  | clickProblem (row : Int)
  | clickSymbol (row : Int)
  | insert (text : Text)
  | replace (start stop : Nat) (text : Text)
  | moveTo (p : Position)
  | mouseOver (p : Position)
  | focus
  | blur
  | clickPopup (row : Int)
  | key (key : Key) (ctrl : Bool)

/-- What an event tells whoever caused it. -/
inductive Reply where
  | nothing
  | flag (value : Bool)
  | place (p : Option Position)
  | configRejected (e : ConfigError)
  | broken (fault : Fault)

/-- The reply where only a fault is told. -/
def Reply.ofFault : Except Fault Bool → Reply
  | .ok _ => .nothing
  | .error fault => .broken fault

/-- The reply where it is told whether something was done. -/
def Reply.ofDone : Except Fault Bool → Reply
  | .ok done => .flag done
  | .error fault => .broken fault

namespace Window

/-- The log line for a number of formatted lines. -/
def formatMessage (count : Nat) : String :=
  if count = 0 then "Already formatted" else "Formatted " ++ toString count ++ " line(s)"

def formatCurrent (w : Window) : Window :=
  match w.onDesk Desk.format with
  | (w, some count) => w.note .info (formatMessage count)
  | (w, none) => w

/-- The cursor goes to the definition of the word at the cursor; the status bar tells if there is
none. -/
def goToDefinition (w : Window) : Window :=
  match w.onDesk Desk.goToDefinition with
  | (w, some none) => { w with status := some ("No definition found", 3000) }
  | (w, _) => w

def saveCurrent (w : Window) (t : Talk) (askAlways : Bool) : Window × Talk × Reply :=
  match w.pane? with
  | none => (w.note .warning "No document to save", t, .nothing)
  | some _ =>
    let (w, t, saved) := w.save t w.current askAlways
    (w, t, .ofFault saved)

def askTheme (w : Window) (t : Talk) : Window × Talk :=
  let form := t.next.filled
  let asked := t.after (.theme w.theme.mode)
  if form.accepted then (w.chooseTheme (form.themeMode w.theme.mode), asked) else (w, asked)

/-- The user is asked for the options of the analyzer. -/
def askSettings (w : Window) (t : Talk) : Window × Talk × Reply :=
  let form := t.next.filled
  let asked := t.after (.settings w.session.config)
  if form.accepted then
    match w.session.config.merged (.object (form.options w.session.config)) with
    | .ok c => (w.configure c, asked, .nothing)
    | .error e => (w, asked, .configRejected e)
  else (w, asked, .nothing)

def showKeywordHelp (t : Talk) : Talk :=
  t.after (.keywordHelp (searchKeywords (t.next.filled.search?.getD "").toList))

def act (w : Window) (t : Talk) : Action → Window × Talk × Reply
  | .newFile => ((w.openText []).note .info "Created new file", t, .nothing)
  | .openFile =>
    let (w, t, opened) := w.askOpen t
    (w, t, .ofFault opened)
  | .save => w.saveCurrent t false
  | .saveAs => w.saveCurrent t true
  | .format => (w.formatCurrent, t, .nothing)
  | .definition => (w.goToDefinition, t, .nothing)
  | .complete => (w.edit Desk.offerCompletions, t, .nothing)
  | .validate => (w.validateCurrent, t, .nothing)
  | .enlargeFont => (w.modifyPane w.current Pane.enlarge, t, .nothing)
  | .shrinkFont => (w.modifyPane w.current Pane.shrink, t, .nothing)
  | .resetFont => (w.modifyPane w.current Pane.resetFont, t, .nothing)
  | .outline => ({ w with outlineShown := !w.outlineShown }, t, .nothing)
  | .theme =>
    let (w, t) := w.askTheme t
    (w, t, .nothing)
  | .settings => w.askSettings t
  | .keywordHelp => (w, showKeywordHelp t, .nothing)
  | .about => (w, t.after .about, .nothing)

def clickProblem (w : Window) (row : Nat) : Window :=
  match w.problems.shown[row]? with
  | some d => { w with problems := w.problems.click row }.jumpTo d.range.start
  | none => w

def clickSymbol (w : Window) (row : Nat) : Window :=
  match w.outline[row]? with
  | some s => w.jumpTo s.range.start
  | none => w

/-- The text between two offsets of the current buffer is replaced. -/
def replaceText (w : Window) (start stop : Nat) (new : Text) : Window :=
  w.edit fun d =>
    let stop := min stop d.pane.buffer.text.length
    d.replace (min start stop) stop new

def step (w : Window) (t : Talk) : Event → Window × Talk × Reply
  | .openPath path =>
    let (w, opened) := w.openPath path
    (w, t, .ofDone opened)
  | .openText text => (w.openText text, t, .nothing)
  | .act action => w.act t action
  | .press .clearLog => ({ w with log := [] }, t, .nothing)
  | .press (.act action) => w.act t action
  | .closePane index =>
    match index.toNat? with
    | some i =>
      let (w, t, closed) := w.closePane t i
      (w, t, .ofFault closed)
    | none => (w, t, .nothing)
  | .closeWindow =>
    let (w, t, accepted) := w.confirmAll t w.panes.length
    (w, t, .ofDone accepted)
  | .select index => ((index.toNat?.map w.select).getD w, t, .nothing)
  | .tick => (w.lintPass, t, .nothing)
  | .configure options =>
    match w.session.config.merged options with
    | .ok c => (w.configure c, t, .nothing)
    | .error e => (w, t, .configRejected e)
  | .filterProblems name => ({ w with problems := w.problems.choose name }, t, .nothing)
  | .clickProblem row =>
    let w := (row.toNat?.map w.clickProblem).getD w
    (w, t, .place w.problems.selected?)
  | .clickSymbol row => ((row.toNat?.map w.clickSymbol).getD w, t, .nothing)
  | .insert text => (w.edit fun d => d.insert text, t, .nothing)
  | .replace start stop text => (w.replaceText start stop text, t, .nothing)
  | .moveTo p => (w.edit fun d => d.goTo p, t, .nothing)
  | .mouseOver p => (w.edit fun d => d.mouseOver p, t, .nothing)
  | .focus => ({ w with focused := !w.panes.isEmpty }, t, .nothing)
  | .blur => (w.edit Desk.blur, t, .nothing)
  | .clickPopup row =>
    (w.edit fun d => (row.toNat?.map d.clickPopup).getD d, t, .nothing)
  | .key key ctrl => (w.edit fun d => d.press key ctrl, t, .nothing)

/-- The window of the editor after its start: the files of the command line are opened, and an
empty document is made where none of them could be.  A fault stops the start. -/
def launch (w : Window) : List Path → Except Fault Window
  | [] => .ok (if w.panes.isEmpty then (w.openText []).note .info "Created new file" else w)
  | path :: rest =>
    match w.openPath path with
    | (w, .ok _) => w.launch rest
    | (_, .error e) => .error e

end Window

end Dragonstone.Editor
