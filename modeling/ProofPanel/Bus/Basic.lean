/-!
# Events, signals and subscriptions

An event delivers values to the handlers subscribed to it; a signal folds the values of a source
event into a current value and passes each new one on to an event of its own. What a handler does
is a sequence of actions on events, signals and subscriptions that go by name. Creating something
under a name that is taken moves the name and leaves the older thing as it is.
-/
namespace ProofPanel

/-- How a signal takes the next value into its current one. -/
structure Fold where
  apply : (current value : Int) → Int

namespace Fold

def sum : Fold := ⟨(· + ·)⟩

def max : Fold := ⟨Max.max⟩

def count : Fold := ⟨fun current _ => current + 1⟩

def last : Fold := ⟨fun _ value => value⟩

end Fold

inductive Amount
  | fixed (value : Int)
  | handledPlus (more : Int)
deriving DecidableEq

def Amount.value (handled : Int) : Amount → Int
  | .fixed value => value
  | .handledPlus more => handled + more

/-- What happens on the bus. Events and their handlers are told by their numbers. -/
inductive Occurrence
  /-- A handler is subscribed; a listener has a name that it is heard under. -/
  | subscribed (event handler : Nat) (name : Option String)
  | unsubscribed (event handler : Nat)
  | disposed (event : Nat)
  /-- A value is fired on an event that has not been disposed. -/
  | fired (event : Nat) (value : Int)
  /-- A round begins: the event delivers a value to its handlers. -/
  | round (event : Nat) (value : Int)
  /-- A handler is called. -/
  | call (event handler : Nat) (value : Int)
  /-- A dispatch is over. -/
  | settled (event : Nat)
  | heard (name : String) (value : Int)
  | read (current : Int)
  /-- A signal goes back to its initial value. -/
  | reset (signal : Nat)
deriving DecidableEq

mutual

inductive Action
  | newEvent (event : String)
  | newSignal (signal source : String) (fold : Fold) (initial : Int)
  /-- Subscribes a handler that is heard under the subscription's name and then does what its
  body for the value says. -/
  | listen (event name : String) (body : (value : Int) → Body)
  /-- Subscribes a handler whose body is the routine of that name. -/
  | enlist (event name routine : String)
  | fire (event : String) (amount : Amount)
  | unsubscribe (name : String)
  | disposeEvent (event : String)
  | disposeSignal (signal : String)
  | resetSignal (signal : String)
  | readSignal (signal : String)
  /-- Moves a subscription into the bag; its name is gone. -/
  | bagSubscription (name : String)
  | bagEvent (event : String)
  | bagSignal (signal : String)
  | disposeBag

/-- What a handler does with a value: some actions, one after the other. In between it may look at
all that has happened on the bus, the latest first, and go on accordingly; so it may depend on
whatever it remembers or shares with other handlers. -/
inductive Body
  | done
  | act (action : Action) (rest : Body)
  | look (next : (past : List Occurrence) → Body)

end

structure Guard where
  below : Option Int := none
  equal : Option Int := none
deriving DecidableEq

def Guard.holds (g : Guard) (value : Int) : Bool :=
  g.below.all (value < ·) && g.equal.all (value = ·)

def Body.reacting (reactions : List (Guard × Action)) (value : Int) : Body :=
  reactions.foldr
    (fun (guard, action) rest => if guard.holds value then .act action rest else rest) .done

def Action.subscribe (event name : String) (reactions : List (Guard × Action)) : Action :=
  .listen event name (Body.reacting reactions)

inductive Handler
  | listener (name : String) (body : (value : Int) → Body)
  /-- Folds the value into the signal of that number. -/
  | folding (signal : Nat)

def Handler.name? : Handler → Option String
  | .listener name _ => some name
  | .folding _ => none

structure Event where
  /-- The handlers with their numbers, in the order of their subscription. -/
  handlers : List (Nat × Handler) := []
  nextHandler : Nat := 0
  disposed : Bool := false
  dispatching : Bool := false
  /-- Values fired during the dispatch and not yet delivered. -/
  queued : List Int := []
  /-- How many values were queued since the dispatch began. -/
  refires : Nat := 0

/-- How many values one dispatch queues at most; further ones are dropped. -/
def Event.maxRefires : Nat := 1024

def Event.isSubscribed (e : Event) (handler : Nat) : Bool := e.handlers.any (·.1 == handler)

namespace Event

def subscribe (e : Event) (handler : Handler) : Event :=
  { e with
    handlers := e.handlers ++ [(e.nextHandler, handler)]
    nextHandler := e.nextHandler + 1 }

def unsubscribe (e : Event) (handler : Nat) : Event :=
  { e with handlers := e.handlers.filter (·.1 != handler) }

def dispose (e : Event) : Event := { e with disposed := true, handlers := [], queued := [] }

def begin (e : Event) : Event := { e with dispatching := true, refires := 0 }

def queue (e : Event) (value : Int) : Event :=
  if e.refires < maxRefires then
    { e with queued := e.queued ++ [value], refires := e.refires + 1 }
  else e

def settle (e : Event) : Event := { e with dispatching := false, queued := [] }

end Event

/-- A handler of an event, by their numbers. An inactive subscription has been disposed, or was
made on a disposed event. -/
structure Subscription where
  event : Nat
  handler : Nat
  active : Bool
deriving DecidableEq

structure Signal where
  fold : Fold
  initial : Int
  current : Int
  /-- The event that passes the current value on. -/
  event : Nat
  source : Subscription

inductive Disposable
  | subscription (s : Subscription)
  | event (event : Nat)
  | signal (signal : Nat)

abbrev Names (α : Type) := List (String × α)

def Names.get? (names : Names α) (name : String) : Option α :=
  (names.find? (·.1 == name)).map (·.2)

def Names.erase (names : Names α) (name : String) : Names α := names.filter (·.1 != name)

def Names.set (names : Names α) (name : String) (a : α) : Names α :=
  (name, a) :: names.erase name

structure Bus where
  /-- Bodies that go by name, so that what a handler does can subscribe the same handler anew. -/
  routines : (routine : String) → (value : Int) → Body := fun _ _ => .done
  events : List Event := []
  signals : List Signal := []
  eventNames : Names Nat := []
  signalNames : Names Nat := []
  subscriptions : Names Subscription := []
  bag : List Disposable := []
  /-- Everything that happened, the latest first. -/
  past : List Occurrence := []

namespace Bus

def eventAt (b : Bus) (event : Nat) : Event := b.events[event]?.getD {}

def modifyEvent (b : Bus) (event : Nat) (f : Event → Event) : Bus :=
  { b with events := b.events.modify event f }

def modifySignal (b : Bus) (signal : Nat) (f : Signal → Signal) : Bus :=
  { b with signals := b.signals.modify signal f }

def record (b : Bus) (o : Occurrence) : Bus := { b with past := o :: b.past }

/-- Changes an event, if there is one of that number, and records what happens to it. -/
def change (b : Bus) (event : Nat) (o : Occurrence) (f : Event → Event) : Bus :=
  if event < b.events.length then (b.modifyEvent event f).record o else b

def addEvent (b : Bus) : Bus × Nat := ({ b with events := b.events ++ [{}] }, b.events.length)

def addHandler (b : Bus) (event : Nat) (handler : Handler) : Bus × Subscription :=
  match b.events[event]? with
  | none => (b, ⟨event, 0, false⟩)
  | some e =>
    if e.disposed then (b, ⟨event, e.nextHandler, false⟩)
    else
      (b.change event (.subscribed event e.nextHandler handler.name?) (·.subscribe handler),
       ⟨event, e.nextHandler, true⟩)

def removeHandler (b : Bus) (s : Subscription) : Bus :=
  if s.active then b.change s.event (.unsubscribed s.event s.handler) (·.unsubscribe s.handler)
  else b

def disposeEventAt (b : Bus) (event : Nat) : Bus := b.change event (.disposed event) Event.dispose

def disposeSignalAt (b : Bus) (signal : Nat) : Bus :=
  match b.signals[signal]? with
  | none => b
  | some s =>
    ((b.removeHandler s.source).modifySignal signal fun s =>
      { s with source := { s.source with active := false } }).disposeEventAt s.event

def disposeOf (b : Bus) : Disposable → Bus
  | .subscription s => b.removeHandler s
  | .event event => b.disposeEventAt event
  | .signal signal => b.disposeSignalAt signal

def eventOf? (b : Bus) (name : String) : Option Nat :=
  match b.eventNames.get? name with
  | some event => some event
  | none => do
    let signal ← b.signals[← b.signalNames.get? name]?
    return signal.event

def listen (b : Bus) (event name : String) (body : (value : Int) → Body) : Bus :=
  match b.eventOf? event with
  | none => b
  | some event =>
    let (b, subscription) := b.addHandler event (.listener name body)
    { b with subscriptions := b.subscriptions.set name subscription }

/-- An action that fires nothing. -/
def manage (b : Bus) : Action → Bus
  | .fire _ _ => b
  | .newEvent name =>
    let (b, event) := b.addEvent
    { b with eventNames := b.eventNames.set name event }
  | .newSignal name source fold initial =>
    match b.eventNames.get? source with
    | none => b
    | some source =>
      let (b, event) := b.addEvent
      let (b, subscription) := b.addHandler source (.folding b.signals.length)
      { b with
        signals := b.signals ++ [⟨fold, initial, initial, event, subscription⟩]
        signalNames := b.signalNames.set name b.signals.length }
  | .listen event name body => b.listen event name body
  | .enlist event name routine => b.listen event name (b.routines routine)
  | .unsubscribe name =>
    match b.subscriptions.get? name with
    | none => b
    | some s =>
      let b := b.removeHandler s
      { b with subscriptions := b.subscriptions.set name { s with active := false } }
  | .disposeEvent name => ((b.eventNames.get? name).map b.disposeEventAt).getD b
  | .disposeSignal name => ((b.signalNames.get? name).map b.disposeSignalAt).getD b
  | .resetSignal name =>
    match b.signalNames.get? name with
    | none => b
    | some signal =>
      (b.modifySignal signal fun s => { s with current := s.initial }).record (.reset signal)
  | .readSignal name =>
    match b.signalNames.get? name >>= fun signal => b.signals[signal]? with
    | none => b
    | some s => b.record (.read s.current)
  | .bagSubscription name =>
    match b.subscriptions.get? name with
    | none => b
    | some s =>
      { b with bag := b.bag ++ [.subscription s], subscriptions := b.subscriptions.erase name }
  | .bagEvent name =>
    match b.eventNames.get? name with
    | none => b
    | some event => { b with bag := b.bag ++ [.event event] }
  | .bagSignal name =>
    match b.signalNames.get? name with
    | none => b
    | some signal => { b with bag := b.bag ++ [.signal signal] }
  | .disposeBag => { b.bag.foldl disposeOf b with bag := [] }

end Bus

end ProofPanel
