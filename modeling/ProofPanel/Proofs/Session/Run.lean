import ProofPanel.Proofs.Run
import ProofPanel.Session

/-!
# The sessions' runs

A run starts with a new session. Each move does one thing to it, with the editor's cursor and the
link as they then are, so that the link may change its mind from move to move.
-/
namespace ProofPanel

/-- What is done to a session. Besides what is asked of it, something may arrive on the link at any
moment, and a pump may get only so far with the queued news before that happens. -/
inductive Act
  | trigger (t : Trigger)
  | hear (arrivals : List Arrival)
  | pump (arrivals : List Arrival)
  | drain (most : Nat)
  | sync (fileName content : String)
  | configure (p : Patch)
  | followUri (uri : String)
  | dispose

namespace Act

/-- Whether an act leaves the session undisposed and forges no answer of the backend. -/
def isOrdinary : Act → Bool
  | .trigger (.respond _ _) | .trigger .dispose | .dispose => false
  | _ => true

def isSync : Act → Bool
  | .sync _ _ => true
  | _ => false

def arrivals : Act → List Arrival
  | .hear arrivals | .pump arrivals => arrivals
  | _ => []

end Act

structure Move where
  act : Act
  cursor : Option Cursor := none
  link : Json → Delivery := fun _ => {}

def SessionEffect.sent? : SessionEffect → Option Json
  | .sent value => some value
  | _ => none

def sentIn (effects : List SessionEffect) : List Json := effects.filterMap SessionEffect.sent?

@[simp] theorem sentIn_append (effects more : List SessionEffect) :
    sentIn (effects ++ more) = sentIn effects ++ sentIn more := List.filterMap_append

namespace Session

def move (s : Session) (m : Move) : Session × List SessionEffect :=
  match m.act with
  | .trigger t =>
    let (s, effects, _) := s.trigger m.link m.cursor t
    (s, effects)
  | .hear arrivals => (s.hear arrivals, [])
  | .pump arrivals =>
    let (s, effects, _) := s.pump m.link m.cursor arrivals
    (s, effects)
  | .drain most =>
    let (s, effects, _) := drain m.link m.cursor most 0 s
    (s, effects)
  | .sync fileName content =>
    let (s, effects, _) := s.sync m.link fileName content
    (s, effects)
  | .configure p => s.configure m.link m.cursor p
  | .followUri uri =>
    let (s, effects, _) := s.followUri m.link m.cursor uri
    (s, effects)
  | .dispose => (s.dispose, [])

end Session

end ProofPanel
