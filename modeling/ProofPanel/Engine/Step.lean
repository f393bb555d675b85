import ProofPanel.Command
import ProofPanel.Engine.Basic
import ProofPanel.PlainText

/-!
# What the engine does

Each trigger changes the state and has effects: the panel is drawn anew or told something small,
the backend is asked or told that an answer is no longer needed, the editor is asked to do
something. A trigger asks the backend at most once, at its end; whether the backend takes the
request settles the turn.
-/
namespace ProofPanel

inductive Effect
  | redraw (s : Snapshot)
  | post (m : HostMessage)
  | configured (c : Config)
  | request (ticket : Ticket) (l : Location)
  | cancel (ticket : Ticket)
  | reveal (fileName : String) (p : Position)
  | hover (fileName : String) (p : Position)
  | stopHover
  | insert (fileName : String) (line : Nat) (text : String)
deriving DecidableEq

inductive Trigger
  | selectionChanged
  | refresh
  | diagnostics (ds : List Diagnostic)
  | statusChanged
  | respond (ticket : Ticket) (answer : Answer)
  | configure (p : Patch)
  | pause
  | resume
  | setMode (mode : Mode)
  | toggleUpdating
  | execute (c : Command)
  | copyToComment
  | dispose

/-- What a trigger leads to before the backend's verdict. -/
structure Turn where
  engine : Engine
  effects : List Effect := []
  /-- The fetch that the last effect requests. -/
  asked : Option Fetch := none
  failure : Option BackendError := none

/-- The state after the verdict on the request, if there was one, and the outcome. A refused
request leaves no fetch pending. -/
def Turn.settle (t : Turn) (verdict : Verdict) : Engine × Verdict :=
  match t.asked, verdict with
  | some fetch, .ok () => ({ t.engine with pending := some fetch }, .ok ())
  | some _, .error err => (t.engine, .error err)
  | none, _ =>
    (t.engine, match t.failure with
      | none => .ok ()
      | some err => .error err)

def Turn.after (effects : List Effect) (t : Turn) : Turn :=
  { t with effects := effects ++ t.effects }

namespace Engine

def redraw (e : Engine) : List Effect := if e.publishing then [.redraw e.snapshot] else []

def post (e : Engine) (m : HostMessage) : List Effect := if e.publishing then [.post m] else []

def cancelPending (e : Engine) : Engine × List Effect :=
  match e.pending with
  | none => (e, [])
  | some fetch => ({ e with pending := none }, [.cancel fetch.ticket])

/-- Asks for the goal at the location under a new ticket. A fetch that this one supersedes is given
up and leaves its reasons to it. -/
def fetchGoal (e : Engine) (reasons : Reasons) : Turn :=
  match e.location? with
  | none => { engine := e }
  | some l =>
    let inherited := match e.pending with
      | none => reasons
      | some fetch => reasons.merge fetch.reasons
    let (e, effects) := e.cancelPending
    { engine := { e with nextTicket := e.nextTicket + 1 }
      effects := effects ++ [.request e.nextTicket l]
      asked := some ⟨e.nextTicket, inherited⟩ }

def decide (e : Engine) (reasons : Reasons) : Turn :=
  match e.view.mode with
  | .onlyState =>
    if e.location?.isSome then e.fetchGoal reasons
    else { engine := e, effects := if reasons.forced then e.redraw else [] }
  | .allMessages =>
    let (e, effects) := e.cancelPending
    let shown :=
      if reasons.forced || reasons.messagesChanged then e.redraw
      else match e.location? with
        | none => []
        | some l => e.post (.position l)
    { engine := e, effects := effects ++ shown }

def updatePosition (e : Engine) (cursor : Option Cursor) (reasons : Reasons) : Turn :=
  if e.view.stopped then { engine := e }
  else
    let (e, moved) := e.follow cursor
    if !moved && !reasons.forced then { engine := e }
    else
      let (e, messagesChanged) := e.acceptMessages
      e.decide (reasons.merge { moved, messagesChanged })

def receiveDiagnostics (e : Engine) (ds : List Diagnostic) : Turn :=
  let e := { e with diagnostics := ds }
  if e.view.stopped then { engine := e }
  else
    match e.acceptMessages with
    | (e, false) => { engine := e }
    | (e, true) => e.decide { messagesChanged := true }

def statusChanged (e : Engine) : Turn :=
  if e.view.stopped || e.view.mode != .onlyState then { engine := e } else e.fetchGoal {}

def configure (e : Engine) (p : Patch) : Turn :=
  let config := e.config.merge p
  let (e, _) := { e with config }.acceptMessages
  { engine := e, effects := .configured config :: e.redraw }

def pause (e : Engine) : Turn :=
  let (e, effects) := { e with view := { e.view with stopped := true } }.cancelPending
  { engine := e, effects := effects ++ e.post .pause }

/-- Switches the mode and resumes. The panel is drawn anew even if nothing else changed; only the
mode that is already running makes no difference. -/
def setMode (e : Engine) (cursor : Option Cursor) (mode : Mode) : Turn :=
  if e.view.mode = mode && !e.view.stopped then { engine := e }
  else
    let (e, effects) := if mode = .onlyState then (e, []) else e.cancelPending
    let e := { e with view := { e.view with mode, stopped := false } }
    (e.updatePosition cursor { moved := true, forced := true }).after effects

def resume (e : Engine) (cursor : Option Cursor) : Turn := e.setMode cursor e.view.mode

def toggleUpdating (e : Engine) (cursor : Option Cursor) : Turn :=
  if e.view.stopped then e.resume cursor else e.pause

/-- Takes the answer to the pending fetch; any other answer is dropped. An error keeps what was
shown. -/
def receiveAnswer (e : Engine) (ticket : Ticket) (answer : Answer) : Turn :=
  match e.pending with
  | none => { engine := e }
  | some fetch =>
    if fetch.ticket != ticket then { engine := e }
    else
      let e := { e with pending := none }
      if e.view.stopped || e.view.mode != .onlyState then { engine := e }
      else
        match answer with
        | .error err => { engine := e, failure := some err }
        | .ok record =>
          let (e, goalChanged) := e.acceptGoal (record.bind Record.goal?)
          let reasons := fetch.reasons
          let effects :=
            if reasons.moved || reasons.messagesChanged || goalChanged then e.redraw
            else if reasons.forced then e.post .continue
            else []
          { engine := e, effects }

def comment (e : Engine) : String := "/-\n" ++ PlainText.render e.snapshot ++ "\n-/\n"

def copyToComment (e : Engine) (cursor : Option Cursor) : Turn :=
  match cursor with
  | none => { engine := e }
  | some c => { engine := e, effects := [.insert c.fileName (c.position.line + 1) e.comment] }

def execute (e : Engine) (cursor : Option Cursor) : Command → Turn
  | .reveal target => { engine := e, effects := [.reveal target.fileName target.toPosition] }
  | .hover target => { engine := e, effects := [.hover target.fileName target.toPosition] }
  | .stopHover => { engine := e, effects := [.stopHover] }
  | .pause => e.pause
  | .continue => e.resume cursor
  | .toggleUpdating => e.toggleUpdating cursor
  | .setMode mode => e.setMode cursor mode
  | .copyToComment => e.copyToComment cursor

def dispose (e : Engine) : Turn :=
  let (e, effects) := e.cancelPending
  { engine := { e with publishing := false, config := {} }, effects }

def react (e : Engine) (cursor : Option Cursor) : Trigger → Turn
  | .selectionChanged => e.updatePosition cursor {}
  | .refresh => e.updatePosition cursor { forced := true }
  | .diagnostics ds => e.receiveDiagnostics ds
  | .statusChanged => e.statusChanged
  | .respond ticket answer => e.receiveAnswer ticket answer
  | .configure p => e.configure p
  | .pause => e.pause
  | .resume => e.resume cursor
  | .setMode mode => e.setMode cursor mode
  | .toggleUpdating => e.toggleUpdating cursor
  | .execute c => e.execute cursor c
  | .copyToComment => e.copyToComment cursor
  | .dispose => e.dispose

def step (e : Engine) (cursor : Option Cursor) (verdict : Verdict) (t : Trigger) :
    Engine × List Effect × Verdict :=
  let turn := e.react cursor t
  let (e, outcome) := turn.settle verdict
  (e, turn.effects, outcome)

end Engine

end ProofPanel
