import ProofPanel.Bus.Dispatch

/-!
# Executions

What the bus does when it fires, by rules: each says how a job leads to a later bus and what
happens on the way, the latest first. A job has an execution exactly if its function has a result,
so that what every execution keeps can be shown by going through the rules once.
-/
namespace ProofPanel

def Occurrence.isAside : Occurrence → Bool
  | .heard _ _ | .read _ | .reset _ => true
  | _ => false

namespace Action

def Creates : Action → Prop
  | .newEvent _ | .newSignal _ _ _ _ => True
  | _ => False

def Adds (routines : String → Int → Body) (handler : Handler) : Action → Prop
  | .listen _ name body => handler = .listener name body
  | .enlist _ name routine => handler = .listener name (routines routine)
  | .newSignal _ _ _ _ => ∃ signal, handler = .folding signal
  | _ => False

end Action

namespace Bus

/-! ## Actions that fire nothing -/

/-- What an action that fires nothing makes of the bus: one change after the other. -/
inductive Alters (action : Action) : Bus → List Occurrence → Bus → Prop
  | aside {b b' : Bus} {t : List Occurrence} : b'.routines = b.routines →
    b'.events = b.events → b'.past = t ++ b.past → (∀ o ∈ t, o.isAside = true) →
    Alters action b t b'
  | created {b : Bus} : action.Creates → Alters action b [] b.addEvent.1
  | subscribed {b : Bus} {event : Nat} {e : Event} {handler : Handler} :
    action.Adds b.routines handler →
    b.events[event]? = some e → e.disposed = false →
    Alters action b [.subscribed event e.nextHandler handler.name?]
      (b.change event (.subscribed event e.nextHandler handler.name?) (·.subscribe handler))
  | unsubscribed {b : Bus} {event number : Nat} : event < b.events.length →
    Alters action b [.unsubscribed event number]
      (b.change event (.unsubscribed event number) (·.unsubscribe number))
  | disposed {b : Bus} {event : Nat} : event < b.events.length →
    Alters action b [.disposed event] (b.change event (.disposed event) Event.dispose)
  | trans {b b₁ b' : Bus} {t t' : List Occurrence} : Alters action b t b₁ →
    Alters action b₁ t' b' → Alters action b (t' ++ t) b'

variable {b b' : Bus} {action : Action} {t : List Occurrence}

/-- Nothing is altered but names, signals and the bag. -/
theorem Alters.same (hr : b'.routines = b.routines) (he : b'.events = b.events)
    (hp : b'.past = b.past) : Alters action b [] b' :=
  .aside hr he hp nofun

theorem exists_alters_trans {b₁ : Bus} (h : ∃ t, Alters action b t b₁)
    (h' : ∃ t, Alters action b₁ t b') : ∃ t, Alters action b t b' := by
  obtain ⟨t, ht⟩ := h
  obtain ⟨t', ht'⟩ := h'
  exact ⟨_, ht.trans ht'⟩

theorem change_eq_self {event : Nat} (h : ¬ event < b.events.length) (o : Occurrence)
    (f : Event → Event) : b.change event o f = b := by
  rw [change, if_neg h]

theorem addHandler_alters {handler : Handler} (h : action.Adds b.routines handler)
    (event : Nat) : ∃ t, Alters action b t (b.addHandler event handler).1 := by
  rw [addHandler]
  split
  · exact ⟨[], .same rfl rfl rfl⟩
  · next e he =>
    cases hd : e.disposed with
    | true => exact ⟨[], .same rfl rfl rfl⟩
    | false => exact ⟨_, .subscribed h he hd⟩

theorem removeHandler_alters (action : Action) (b : Bus) (s : Subscription) :
    ∃ t, Alters action b t (b.removeHandler s) := by
  rw [removeHandler]
  split
  · by_cases h : s.event < b.events.length
    · exact ⟨_, .unsubscribed h⟩
    · rw [change_eq_self h]
      exact ⟨[], .same rfl rfl rfl⟩
  · exact ⟨[], .same rfl rfl rfl⟩

theorem disposeEventAt_alters (action : Action) (b : Bus) (event : Nat) :
    ∃ t, Alters action b t (b.disposeEventAt event) := by
  by_cases h : event < b.events.length
  · exact ⟨_, .disposed h⟩
  · rw [disposeEventAt, change_eq_self h]
    exact ⟨[], .same rfl rfl rfl⟩

theorem disposeSignalAt_alters (action : Action) (b : Bus) (signal : Nat) :
    ∃ t, Alters action b t (b.disposeSignalAt signal) := by
  rw [disposeSignalAt]
  split
  · exact ⟨[], .same rfl rfl rfl⟩
  · next s _ =>
    refine exists_alters_trans ?_ (disposeEventAt_alters action _ s.event)
    exact exists_alters_trans (removeHandler_alters action b s.source) ⟨[], .same rfl rfl rfl⟩

theorem disposeOf_alters (action : Action) (b : Bus) (d : Disposable) :
    ∃ t, Alters action b t (b.disposeOf d) := by
  cases d with
  | subscription s => exact removeHandler_alters action b s
  | event event => exact disposeEventAt_alters action b event
  | signal signal => exact disposeSignalAt_alters action b signal

theorem foldl_disposeOf_alters (action : Action) (ds : List Disposable) (b : Bus) :
    ∃ t, Alters action b t (ds.foldl disposeOf b) := by
  induction ds generalizing b with
  | nil => exact ⟨[], .same rfl rfl rfl⟩
  | cons d ds ih => exact exists_alters_trans (disposeOf_alters action b d) (ih _)

theorem listen_alters {event name : String} {body : Int → Body}
    (h : action.Adds b.routines (.listener name body)) :
    ∃ t, Alters action b t (b.listen event name body) := by
  rw [listen]
  split
  · exact ⟨[], .same rfl rfl rfl⟩
  · next number _ => exact exists_alters_trans (addHandler_alters h number) ⟨[], .same rfl rfl rfl⟩

theorem manage_alters (b : Bus) (action : Action) : ∃ t, Alters action b t (b.manage action) := by
  have same : ∀ b' : Bus, b'.routines = b.routines → b'.events = b.events → b'.past = b.past →
      ∃ t, Alters action b t b' := fun b' hr he hp => ⟨[], .same hr he hp⟩
  have onward : ∀ b₁ b' : Bus, (∃ t, Alters action b t b₁) → b'.routines = b₁.routines →
      b'.events = b₁.events → b'.past = b₁.past → ∃ t, Alters action b t b' :=
    fun b₁ b' h hr he hp => exists_alters_trans h ⟨[], .same hr he hp⟩
  cases action with
  | fire name amount => exact same _ rfl rfl rfl
  | newEvent name => exact onward _ _ ⟨[], .created trivial⟩ rfl rfl rfl
  | newSignal name source fold initial =>
    rw [manage]
    split
    · exact same _ rfl rfl rfl
    · next event _ =>
      have hadds : (Action.newSignal name source fold initial).Adds b.addEvent.1.routines
          (.folding b.signals.length) := ⟨_, rfl⟩
      obtain ⟨t, ht⟩ := addHandler_alters hadds event
      exact onward _ _ ⟨_, .trans (.created trivial) ht⟩ rfl rfl rfl
  | listen event name body => exact listen_alters rfl
  | enlist event name routine => exact listen_alters rfl
  | unsubscribe name =>
    rw [manage]
    split
    · exact same _ rfl rfl rfl
    · next s _ => exact onward _ _ (removeHandler_alters _ b s) rfl rfl rfl
  | disposeEvent name =>
    rw [manage]
    cases b.eventNames.get? name with
    | none => exact same _ rfl rfl rfl
    | some event => exact disposeEventAt_alters _ b event
  | disposeSignal name =>
    rw [manage]
    cases b.signalNames.get? name with
    | none => exact same _ rfl rfl rfl
    | some signal => exact disposeSignalAt_alters _ b signal
  | resetSignal name =>
    rw [manage]
    split
    · exact same _ rfl rfl rfl
    · next signal _ => exact ⟨[.reset signal], .aside rfl rfl rfl (by simp [Occurrence.isAside])⟩
  | readSignal name =>
    rw [manage]
    split
    · exact same _ rfl rfl rfl
    · next s _ => exact ⟨[.read s.current], .aside rfl rfl rfl (by simp [Occurrence.isAside])⟩
  | bagSubscription name =>
    rw [manage]
    split <;> exact same _ rfl rfl rfl
  | bagEvent name =>
    rw [manage]
    split <;> exact same _ rfl rfl rfl
  | bagSignal name =>
    rw [manage]
    split <;> exact same _ rfl rfl rfl
  | disposeBag => exact onward _ _ (foldl_disposeOf_alters _ b.bag b) rfl rfl rfl

/-! ## The rules -/

/-- Something that the bus is to do. -/
inductive Job
  | fire (event : Nat) (value : Int)
  | rounds (event : Nat) (value : Int)
  | turns (event : Nat) (value : Int) (handlers : List (Nat × Handler))
  | call (value : Int) (handler : Handler)
  | run (handled : Int) (body : Body)
  | act (handled : Int) (action : Action)

def perform (b : Bus) : Job → Option Bus
  | .fire event value => b.fire event value
  | .rounds event value => b.rounds event value
  | .turns event value handlers => b.turns event value handlers
  | .call value handler => b.call value handler
  | .run handled body => b.run handled body
  | .act handled action => b.act handled action

inductive Skips (b : Bus) : Job → Prop
  | fire {event : Nat} {value : Int} :
    (∀ e, b.events[event]? = some e → e.disposed = true) → b.Skips (.fire event value)
  | turns {event : Nat} {value : Int} : b.Skips (.turns event value [])
  | call {signal : Nat} {value : Int} : b.signals[signal]? = none →
    b.Skips (.call value (.folding signal))
  | run {handled : Int} : b.Skips (.run handled .done)
  | act {name : String} {amount : Amount} {handled : Int} : b.eventNames.get? name = none →
    b.Skips (.act handled (.fire name amount))

inductive Leads (b : Bus) : Job → Job → Prop
  | looked {handled : Int} {next : List Occurrence → Body} :
    b.Leads (.run handled (.look next)) (.run handled (next b.past))
  | fired {event : Nat} {name : String} {amount : Amount} {handled : Int} :
    b.eventNames.get? name = some event →
    b.Leads (.act handled (.fire name amount)) (.fire event (amount.value handled))

/-- The bus does a job, this happens and it ends as another bus. -/
inductive Does : Bus → Job → List Occurrence → Bus → Prop
  | skips {b : Bus} {job : Job} : b.Skips job → Does b job [] b
  | leads {b b' : Bus} {job job' : Job} {t : List Occurrence} : b.Leads job job' →
    Does b job' t b' → Does b job t b'
  | queued {b : Bus} {event : Nat} {value : Int} {e : Event} :
    b.events[event]? = some e → e.disposed = false → e.dispatching = true →
    Does b (.fire event value) [.fired event value]
      (b.change event (.fired event value) (·.queue value))
  | dispatched {b b' : Bus} {event : Nat} {value : Int} {e : Event} {t : List Occurrence} :
    b.events[event]? = some e → e.disposed = false → e.dispatching = false →
    Does (b.change event (.fired event value) Event.begin) (.rounds event value) t b' →
    Does b (.fire event value) (t ++ [.fired event value]) b'
  | cut {b : Bus} {event : Nat} {value : Int} : (b.eventAt event).disposed = true →
    Does b (.rounds event value) [.settled event] (b.settle event)
  | last {b b' : Bus} {event : Nat} {value : Int} {t : List Occurrence} :
    (b.eventAt event).disposed = false →
    Does (b.record (.round event value)) (.turns event value (b.eventAt event).handlers) t b' →
    b'.takeNext? event = none →
    Does b (.rounds event value) (.settled event :: (t ++ [.round event value]))
      (b'.settle event)
  | next {b b₁ b₂ b' : Bus} {event : Nat} {value value' : Int} {t t' : List Occurrence} :
    (b.eventAt event).disposed = false →
    Does (b.record (.round event value)) (.turns event value (b.eventAt event).handlers) t b₁ →
    b₁.takeNext? event = some (value', b₂) →
    Does b₂ (.rounds event value') t' b' →
    Does b (.rounds event value) (t' ++ (t ++ [.round event value])) b'
  | gone {b b' : Bus} {event number : Nat} {value : Int} {handler : Handler}
      {rest : List (Nat × Handler)} {t : List Occurrence} :
    b.isSubscribed event number = false → Does b (.turns event value rest) t b' →
    Does b (.turns event value ((number, handler) :: rest)) t b'
  | called {b b₁ b' : Bus} {event number : Nat} {value : Int} {handler : Handler}
      {rest : List (Nat × Handler)} {t t' : List Occurrence} :
    b.isSubscribed event number = true →
    Does (b.record (.call event number value)) (.call value handler) t b₁ →
    Does b₁ (.turns event value rest) t' b' →
    Does b (.turns event value ((number, handler) :: rest))
      (t' ++ (t ++ [.call event number value])) b'
  | listener {b b' : Bus} {name : String} {body : Int → Body} {value : Int}
      {t : List Occurrence} :
    Does (b.record (.heard name value)) (.run value (body value)) t b' →
    Does b (.call value (.listener name body)) (t ++ [.heard name value]) b'
  | folding {b b' : Bus} {signal : Nat} {s : Signal} {value : Int} {t : List Occurrence} :
    b.signals[signal]? = some s →
    Does (b.modifySignal signal fun s' => { s' with current := s.fold.apply s.current value })
      (.fire s.event (s.fold.apply s.current value)) t b' →
    Does b (.call value (.folding signal)) t b'
  | acted {b b₁ b' : Bus} {handled : Int} {action : Action} {rest : Body}
      {t t' : List Occurrence} :
    Does b (.act handled action) t b₁ → Does b₁ (.run handled rest) t' b' →
    Does b (.run handled (.act action rest)) (t' ++ t) b'
  | managed {b : Bus} {handled : Int} {action : Action} {t : List Occurrence} :
    (∀ name amount, action ≠ .fire name amount) → Alters action b t (b.manage action) →
    Does b (.act handled action) t (b.manage action)

/-! ## Executions and results -/

theorem Does.perform_eq {job : Job} (h : Does b job t b') : b.perform job = some b' := by
  induction h with
  | skips h =>
    cases h with
    | fire h =>
      rw [perform, fire]
      split
      · rfl
      · next e he => rw [if_pos (h e he)]
    | turns => rw [perform, turns]
    | call h => rw [perform, call, h]
    | run => rw [perform, run]
    | act h => rw [perform, act, h]
  | leads h _ ih =>
    rw [← ih]
    cases h with
    | looked => rw [perform, perform, run]
    | fired h => rw [perform, perform, act, h]
  | queued he hd hi =>
    rw [perform, fire, he]
    simp only [hd, hi, Bool.false_eq_true, if_false, if_true]
  | dispatched he hd hi _ ih =>
    rw [← ih, perform, perform, fire, he]
    simp only [hd, hi, Bool.false_eq_true, if_false]
  | cut hd => rw [perform, rounds, if_pos hd]
  | last hd _ hn ih =>
    rw [perform] at ih
    rw [perform, rounds, hd, if_neg Bool.false_ne_true, ih]
    simp only [Option.bind_eq_bind, Option.bind_some, hn]
    rfl
  | next hd _ hn _ ih ih' =>
    rw [perform] at ih
    rw [← ih', perform, perform, rounds, hd, if_neg Bool.false_ne_true, ih]
    simp only [Option.bind_eq_bind, Option.bind_some, hn]
  | gone hs _ ih =>
    rw [← ih, perform, perform, turns, hs, if_neg Bool.false_ne_true]
  | called hs _ _ ih ih' =>
    rw [perform] at ih
    rw [← ih', perform, perform, turns, if_pos hs, ih]
    rfl
  | listener _ ih => rw [← ih, perform, perform, call]
  | folding hs _ ih => rw [← ih, perform, perform, call, hs]
  | acted _ _ ih ih' =>
    rw [perform] at ih
    rw [← ih', perform, perform, run, ih]
    rfl
  | managed hne _ =>
    rw [perform, act]
    exact hne

def Executed (job : Job) (f : Bus → Option Bus) : Prop :=
  ∀ b b', f b = some b' → ∃ t, Does b job t b'

section Unfolding

-- One unfolding of each function, with functions that are executed in the place of its calls.

variable {rounds : Bus → Nat → Int → Option Bus} {fire : Bus → Nat → Int → Option Bus}
  {turns : Bus → Nat → Int → List (Nat × Handler) → Option Bus}
  {call : Bus → Int → Handler → Option Bus} {run : Bus → Int → Body → Option Bus}
  {act : Bus → Int → Action → Option Bus}

theorem executed_fire
    (ih : ∀ event value, Executed (.rounds event value) (rounds · event value))
    (event : Nat) (value : Int) :
    Executed (.fire event value) fun b =>
      match b.events[event]? with
      | none => some b
      | some e =>
        if e.disposed then some b
        else if e.dispatching then some (b.change event (.fired event value) (·.queue value))
        else rounds (b.change event (.fired event value) Event.begin) event value := by
  intro b b' h
  cases he : b.events[event]? with
  | none =>
    simp only [he] at h
    cases h
    exact ⟨_, .skips (.fire fun e h => by rw [he] at h; cases h)⟩
  | some e =>
    cases hd : e.disposed with
    | true =>
      simp only [he, hd, if_true] at h
      cases h
      exact ⟨_, .skips (.fire fun e' h => by rw [he] at h; cases h; exact hd)⟩
    | false =>
      cases hi : e.dispatching with
      | true =>
        simp only [he, hd, hi, Bool.false_eq_true, if_false, if_true] at h
        cases h
        exact ⟨_, .queued he hd hi⟩
      | false =>
        simp only [he, hd, hi, Bool.false_eq_true, if_false] at h
        obtain ⟨t, ht⟩ := ih _ _ _ _ h
        exact ⟨_, .dispatched he hd hi ht⟩

theorem executed_rounds
    (ih : ∀ event value, Executed (.rounds event value) (rounds · event value))
    (iht : ∀ event value handlers,
      Executed (.turns event value handlers) (turns · event value handlers))
    (event : Nat) (value : Int) :
    Executed (.rounds event value) fun b =>
      if (b.eventAt event).disposed then some (b.settle event)
      else do
        let b ← turns (b.record (.round event value)) event value (b.eventAt event).handlers
        match b.takeNext? event with
        | some (next, b) => rounds b event next
        | none => return b.settle event := by
  intro b b' h
  cases hd : (b.eventAt event).disposed with
  | true =>
    simp only [hd, if_true] at h
    cases h
    exact ⟨_, .cut hd⟩
  | false =>
    simp only [hd, Bool.false_eq_true, if_false] at h
    obtain ⟨b₁, hb, h⟩ := Option.bind_eq_some_iff.mp h
    obtain ⟨t, ht⟩ := iht _ _ _ _ _ hb
    cases hn : b₁.takeNext? event with
    | none =>
      simp only [hn] at h
      cases h
      exact ⟨_, .last hd ht hn⟩
    | some p =>
      simp only [hn] at h
      obtain ⟨t', ht'⟩ := ih _ _ _ _ h
      exact ⟨_, .next hd ht hn ht'⟩

theorem executed_turns
    (ih : ∀ event value handlers,
      Executed (.turns event value handlers) (turns · event value handlers))
    (ihc : ∀ value handler, Executed (.call value handler) (call · value handler))
    (event : Nat) (value : Int) (handlers : List (Nat × Handler)) :
    Executed (.turns event value handlers) fun b =>
      match handlers with
      | [] => some b
      | (number, handler) :: rest =>
        if b.isSubscribed event number then do
          let b ← call (b.record (.call event number value)) value handler
          turns b event value rest
        else turns b event value rest := by
  intro b b' h
  cases handlers with
  | nil =>
    cases h
    exact ⟨_, .skips .turns⟩
  | cons first rest =>
    obtain ⟨number, handler⟩ := first
    cases hs : b.isSubscribed event number with
    | false =>
      simp only [hs, Bool.false_eq_true, if_false] at h
      obtain ⟨t, ht⟩ := ih _ _ _ _ _ h
      exact ⟨_, .gone hs ht⟩
    | true =>
      simp only [hs, if_true] at h
      obtain ⟨b₁, hb, h⟩ := Option.bind_eq_some_iff.mp h
      obtain ⟨t, ht⟩ := ihc _ _ _ _ hb
      obtain ⟨t', ht'⟩ := ih _ _ _ _ _ h
      exact ⟨_, .called hs ht ht'⟩

theorem executed_call
    (ih : ∀ event value, Executed (.fire event value) (fire · event value))
    (ihr : ∀ handled body, Executed (.run handled body) (run · handled body))
    (value : Int) (handler : Handler) :
    Executed (.call value handler) fun b =>
      match handler with
      | .listener name body => run (b.record (.heard name value)) value (body value)
      | .folding signal =>
        match b.signals[signal]? with
        | none => some b
        | some s =>
          let current := s.fold.apply s.current value
          fire (b.modifySignal signal fun s => { s with current }) s.event current := by
  intro b b' h
  cases handler with
  | listener name body =>
    obtain ⟨t, ht⟩ := ihr _ _ _ _ h
    exact ⟨_, .listener ht⟩
  | folding signal =>
    cases hs : b.signals[signal]? with
    | none =>
      simp only [hs] at h
      cases h
      exact ⟨_, .skips (.call hs)⟩
    | some s =>
      simp only [hs] at h
      obtain ⟨t, ht⟩ := ih _ _ _ _ h
      exact ⟨_, .folding hs ht⟩

theorem executed_run
    (ih : ∀ handled body, Executed (.run handled body) (run · handled body))
    (iha : ∀ handled action, Executed (.act handled action) (act · handled action))
    (handled : Int) (body : Body) :
    Executed (.run handled body) fun b =>
      match body with
      | .done => some b
      | .act action rest => do
        let b ← act b handled action
        run b handled rest
      | .look next => run b handled (next b.past) := by
  intro b b' h
  cases body with
  | done =>
    cases h
    exact ⟨_, .skips .run⟩
  | act action rest =>
    obtain ⟨b₁, hb, h⟩ := Option.bind_eq_some_iff.mp h
    obtain ⟨t, ht⟩ := iha _ _ _ _ hb
    obtain ⟨t', ht'⟩ := ih _ _ _ _ h
    exact ⟨_, .acted ht ht'⟩
  | look next =>
    obtain ⟨t, ht⟩ := ih _ _ _ _ h
    exact ⟨_, .leads .looked ht⟩

theorem executed_act (ih : ∀ event value, Executed (.fire event value) (fire · event value))
    (handled : Int) (action : Action) :
    Executed (.act handled action) fun b =>
      match action with
      | .fire name amount =>
        match b.eventNames.get? name with
        | none => some b
        | some event => fire b event (amount.value handled)
      | action => some (b.manage action) := by
  intro b b' h
  cases action with
  | fire name amount =>
    cases hn : b.eventNames.get? name with
    | none =>
      simp only [hn] at h
      cases h
      exact ⟨_, .skips (.act hn)⟩
    | some event =>
      simp only [hn] at h
      obtain ⟨t, ht⟩ := ih _ _ _ _ h
      exact ⟨_, .leads (.fired hn) ht⟩
  | _ =>
    cases h
    exact (b.manage_alters _).imp fun _ => .managed fun _ _ h => by cases h

end Unfolding

/-- What a function returns, an execution leads to. -/
theorem exists_does {job : Job} (h : b.perform job = some b') : ∃ t, Does b job t b' := by
  obtain ⟨hfire, hrounds, hturns, hcall, hrun, hact⟩ := fire.mutual_partial_correctness
    (fun b event value b' => ∃ t, Does b (.fire event value) t b')
    (fun b event value b' => ∃ t, Does b (.rounds event value) t b')
    (fun b event value handlers b' => ∃ t, Does b (.turns event value handlers) t b')
    (fun b value handler b' => ∃ t, Does b (.call value handler) t b')
    (fun b handled body b' => ∃ t, Does b (.run handled body) t b')
    (fun b handled action b' => ∃ t, Does b (.act handled action) t b')
    (fun _ ih b event value b' =>
      executed_fire (fun event value b => ih b event value) event value b b')
    (fun _ _ ih iht b event value b' =>
      executed_rounds (fun event value b => ih b event value)
        (fun event value handlers b => iht b event value handlers) event value b b')
    (fun _ _ ih ihc b event value handlers b' =>
      executed_turns (fun event value handlers b => ih b event value handlers)
        (fun value handler b => ihc b value handler) event value handlers b b')
    (fun _ _ ih ihr b value handler b' =>
      executed_call (fun event value b => ih b event value)
        (fun handled body b => ihr b handled body) value handler b b')
    (fun _ _ ih iha b handled body b' =>
      executed_run (fun handled body b => ih b handled body)
        (fun handled action b => iha b handled action) handled body b b')
    (fun _ ih b handled action b' =>
      executed_act (fun event value b => ih b event value) handled action b b')
  cases job with
  | fire event value => exact hfire _ _ _ _ h
  | rounds event value => exact hrounds _ _ _ _ h
  | turns event value handlers => exact hturns _ _ _ _ _ h
  | call value handler => exact hcall _ _ _ _ h
  | run handled body => exact hrun _ _ _ _ h
  | act handled action => exact hact _ _ _ _ h

end Bus

end ProofPanel
