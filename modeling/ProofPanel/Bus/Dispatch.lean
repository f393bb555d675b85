import ProofPanel.Bus.Basic

/-!
# Firing

A value fired on an idle event starts a dispatch: rounds, one for each value, in which the handlers
then subscribed are called in order, those unsubscribed in the meantime left out. A value fired on
an event during its own dispatch waits for a round of its own. A handler may fire other events,
whose dispatches run inside its call. If that never ends, as it may where handlers make new events
without end, the fire has no result.
-/
namespace ProofPanel.Bus

def isSubscribed (b : Bus) (event handler : Nat) : Bool :=
  (b.eventAt event).isSubscribed handler

def takeNext? (b : Bus) (event : Nat) : Option (Int × Bus) :=
  match (b.eventAt event).queued with
  | [] => none
  | next :: waiting => some (next, b.modifyEvent event fun e => { e with queued := waiting })

def settle (b : Bus) (event : Nat) : Bus :=
  (b.modifyEvent event Event.settle).record (.settled event)

mutual

/-- Fires a value: nothing on a disposed event, a place in the queue during a dispatch, a dispatch
of its own otherwise. -/
def fire (b : Bus) (event : Nat) (value : Int) : Option Bus :=
  match b.events[event]? with
  | none => some b
  | some e =>
    if e.disposed then some b
    else if e.dispatching then some (b.change event (.fired event value) (·.queue value))
    else b.change event (.fired event value) Event.begin |>.rounds event value
partial_fixpoint

/-- Rounds for a value and for those that wait, until none does or the event is disposed. -/
def rounds (b : Bus) (event : Nat) (value : Int) : Option Bus :=
  if (b.eventAt event).disposed then some (b.settle event)
  else do
    let b ← b.record (.round event value) |>.turns event value (b.eventAt event).handlers
    match b.takeNext? event with
    | some (next, b) => b |>.rounds event next
    | none => return b.settle event
partial_fixpoint

/-- The given handlers in order, each if it is still subscribed. -/
def turns (b : Bus) (event : Nat) (value : Int) (handlers : List (Nat × Handler)) : Option Bus :=
  match handlers with
  | [] => some b
  | (number, handler) :: rest =>
    if b.isSubscribed event number then do
      let b ← b.record (.call event number value) |>.call value handler
      b |>.turns event value rest
    else b |>.turns event value rest
partial_fixpoint

def call (b : Bus) (value : Int) (handler : Handler) : Option Bus :=
  match handler with
  | .listener name body => b.record (.heard name value) |>.run value (body value)
  | .folding signal =>
    match b.signals[signal]? with
    | none => some b
    | some s =>
      let current := s.fold.apply s.current value
      b.modifySignal signal (fun s => { s with current }) |>.fire s.event current
partial_fixpoint

def run (b : Bus) (handled : Int) (body : Body) : Option Bus :=
  match body with
  | .done => some b
  | .act action rest => do
    let b ← b |>.act handled action
    b |>.run handled rest
  | .look next => b |>.run handled (next b.past)
partial_fixpoint

def act (b : Bus) (handled : Int) (action : Action) : Option Bus :=
  match action with
  | .fire name amount =>
    match b.eventNames.get? name with
    | none => some b
    | some event => b |>.fire event (amount.value handled)
  | action => some (b.manage action)
partial_fixpoint

end

/-- An action from outside of any handler. -/
def step (b : Bus) (action : Action) : Option Bus := b.act 0 action

def stepAll (b : Bus) (actions : List Action) : Option Bus := actions.foldlM step b

end ProofPanel.Bus
