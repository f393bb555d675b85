import ProofPanel.Proofs.Bus.Rounds

/-!
# What a fire depends on

Between the actions from outside every event is idle, and of its earlier dispatches nothing is left
but a count that the next one resets. So two buses with the same handlers, whose handlers have the
same in memory, do the same when a value is fired.
-/
namespace ProofPanel

open Occurrence

/-! ## Resting events -/

namespace Event

/-- The event without the count that its last dispatch left. -/
def rested (e : Event) : Event := if e.dispatching then e else { e with refires := 0 }

theorem rested_of_dispatching {e : Event} (h : e.dispatching = true) : e.rested = e := if_pos h

theorem rested_of_idle {e : Event} (h : ¬ e.dispatching = true) :
    e.rested = { e with refires := 0 } :=
  if_neg h

theorem rested_comm {f : Event → Event} (hi : ∀ e, (f e).dispatching = e.dispatching)
    (hr : ∀ e, f { e with refires := 0 } = { f e with refires := 0 }) (e : Event) :
    (f e).rested = f e.rested := by
  by_cases h : e.dispatching = true
  · rw [rested_of_dispatching h, rested_of_dispatching ((hi e).trans h)]
  · rw [rested_of_idle h, rested_of_idle (by rw [hi]; exact h), hr]

theorem rested_rested (e : Event) : e.rested.rested = e.rested := by
  by_cases h : e.dispatching = true
  · rw [rested_of_dispatching h, rested_of_dispatching h]
  · rw [rested_of_idle h]
    exact rested_of_idle h

theorem rested_begin (e : Event) : e.rested.begin = e.begin := by
  rw [rested]
  split <;> rfl

theorem rested_settle (e : Event) : e.rested.settle.rested = e.settle.rested := by
  by_cases h : e.dispatching = true
  · rw [rested_of_dispatching h]
  · rw [rested_of_idle h]
    rfl

/-- What a resting event has in common with the event. -/
theorem rested_same (e : Event) : e.rested.handlers = e.handlers ∧
    e.rested.disposed = e.disposed ∧ e.rested.dispatching = e.dispatching ∧
    e.rested.queued = e.queued ∧ e.rested.nextHandler = e.nextHandler := by
  rw [rested]
  split <;> exact ⟨rfl, rfl, rfl, rfl, rfl⟩

/-- Two events that rest alike. -/
theorem same_of_rested {e e' : Event} (h : e'.rested = e.rested) : e'.handlers = e.handlers ∧
    e'.disposed = e.disposed ∧ e'.dispatching = e.dispatching ∧ e'.queued = e.queued := by
  obtain ⟨hh, hd, hi, hq, _⟩ := e.rested_same
  obtain ⟨hh', hd', hi', hq', _⟩ := e'.rested_same
  rw [h] at hh' hd' hi' hq'
  exact ⟨hh'.symm.trans hh, hd'.symm.trans hd, hi'.symm.trans hi, hq'.symm.trans hq⟩

/-- A change of events that goes with everything that is done to them outside of dispatches. -/
structure Plain (f : Event → Event) : Prop where
  fresh : f {} = {}
  subscribe : ∀ e handler, f (e.subscribe handler) = (f e).subscribe handler
  unsubscribe : ∀ e number, f (e.unsubscribe number) = (f e).unsubscribe number
  dispose : ∀ e, f e.dispose = (f e).dispose
  disposed : ∀ e, (f e).disposed = e.disposed
  nextHandler : ∀ e, (f e).nextHandler = e.nextHandler

theorem plain_id : Plain id where
  fresh := rfl
  subscribe _ _ := rfl
  unsubscribe _ _ := rfl
  dispose _ := rfl
  disposed _ := rfl
  nextHandler _ := rfl

theorem plain_rested : Plain rested where
  fresh := rfl
  subscribe e handler := rested_comm (f := (·.subscribe handler)) (fun _ => rfl) (fun _ => rfl) e
  unsubscribe e number := rested_comm (f := (·.unsubscribe number)) (fun _ => rfl) (fun _ => rfl) e
  dispose := rested_comm (fun _ => rfl) fun _ => rfl
  disposed e := e.rested_same.2.1
  nextHandler e := e.rested_same.2.2.2.2

end Event

theorem map_modify {f g : Event → Event} (h : ∀ e, f (g e) = g (f e)) (events : List Event)
    (i : Nat) : (events.modify i g).map f = (events.map f).modify i g := by
  induction events generalizing i with
  | nil => rw [List.modify_nil, List.map_nil, List.modify_nil]
  | cons e events ih =>
    cases i with
    | zero => simp only [List.modify_zero_cons, List.map_cons, h]
    | succ i => simp only [List.modify_succ_cons, List.map_cons, ih]

namespace Bus

/-! ## Actions on a bus with other events and another past -/

def recast (f : Event → Event) (earlier : List Occurrence) (b : Bus) : Bus :=
  { b with events := b.events.map f, past := b.past ++ earlier }

section

variable {f : Event → Event} (hf : Event.Plain f) (earlier : List Occurrence)

theorem recast_change {g : Event → Event} (h : ∀ e, f (g e) = g (f e)) (b : Bus) (i : Nat)
    (o : Occurrence) : (b.recast f earlier).change i o g = (b.change i o g).recast f earlier := by
  simp only [change, recast, List.length_map]
  split
  · simp only [modifyEvent, record, map_modify h, List.cons_append]
  · rfl

include hf

theorem recast_addEvent (b : Bus) :
    (b.recast f earlier).addEvent = (b.addEvent.1.recast f earlier, b.addEvent.2) := by
  simp only [addEvent, recast, List.map_append, List.map_cons, List.map_nil, hf.fresh,
    List.length_map]

theorem recast_addHandler (b : Bus) (i : Nat) (handler : Handler) :
    (b.recast f earlier).addHandler i handler =
      ((b.addHandler i handler).1.recast f earlier, (b.addHandler i handler).2) := by
  have hget : (b.recast f earlier).events[i]? = b.events[i]?.map f := List.getElem?_map
  rw [addHandler, addHandler, hget]
  cases b.events[i]? with
  | none => rfl
  | some e =>
    simp only [Option.map_some, hf.disposed, hf.nextHandler]
    split
    · rfl
    · rw [recast_change earlier fun e => hf.subscribe e handler]

theorem recast_removeHandler (b : Bus) (s : Subscription) :
    (b.recast f earlier).removeHandler s = (b.removeHandler s).recast f earlier := by
  rw [removeHandler, removeHandler]
  split
  · exact recast_change earlier (fun e => hf.unsubscribe e s.handler) b _ _
  · rfl

theorem recast_disposeEventAt (b : Bus) (i : Nat) :
    (b.recast f earlier).disposeEventAt i = (b.disposeEventAt i).recast f earlier :=
  recast_change earlier hf.dispose b i _

theorem recast_disposeSignalAt (b : Bus) (signal : Nat) :
    (b.recast f earlier).disposeSignalAt signal = (b.disposeSignalAt signal).recast f earlier := by
  have hsignals : (b.recast f earlier).signals = b.signals := rfl
  rw [disposeSignalAt, disposeSignalAt, hsignals]
  cases b.signals[signal]? with
  | none => rfl
  | some s =>
    simp only [recast_removeHandler hf]
    exact recast_disposeEventAt hf earlier ((b.removeHandler s.source).modifySignal signal _) _

theorem recast_disposeOf (b : Bus) (d : Disposable) :
    (b.recast f earlier).disposeOf d = (b.disposeOf d).recast f earlier := by
  cases d with
  | subscription s => exact recast_removeHandler hf earlier b s
  | event event => exact recast_disposeEventAt hf earlier b event
  | signal signal => exact recast_disposeSignalAt hf earlier b signal

theorem recast_foldl_disposeOf (ds : List Disposable) (b : Bus) :
    ds.foldl disposeOf (b.recast f earlier) = (ds.foldl disposeOf b).recast f earlier := by
  induction ds generalizing b with
  | nil => rfl
  | cons d ds ih => rw [List.foldl_cons, List.foldl_cons, recast_disposeOf hf, ih]

theorem recast_listen (b : Bus) (event name : String) (body : Int → Body) :
    (b.recast f earlier).listen event name body = (b.listen event name body).recast f earlier := by
  have hevent : (b.recast f earlier).eventOf? event = b.eventOf? event := rfl
  rw [listen, listen, hevent]
  cases b.eventOf? event with
  | none => rfl
  | some i =>
    simp only [recast_addHandler hf]
    rfl

/-- An action does the same whatever the past, and leaves out what it does not change. -/
theorem recast_manage (b : Bus) (action : Action) :
    (b.recast f earlier).manage action = (b.manage action).recast f earlier := by
  have hevents : (b.recast f earlier).eventNames = b.eventNames := rfl
  have hsignals : (b.recast f earlier).signalNames = b.signalNames := rfl
  have hsubscriptions : (b.recast f earlier).subscriptions = b.subscriptions := rfl
  cases action with
  | fire name amount => rfl
  | newEvent name =>
    simp only [manage, recast_addEvent hf]
    rfl
  | newSignal name source fold initial =>
    rw [manage, manage, hevents]
    cases b.eventNames.get? source with
    | none => rfl
    | some event =>
      simp only [recast_addEvent hf, recast_addHandler hf]
      rfl
  | listen event name body => exact recast_listen hf earlier b event name body
  | enlist event name routine => exact recast_listen hf earlier b event name (b.routines routine)
  | unsubscribe name =>
    rw [manage, manage, hsubscriptions]
    cases b.subscriptions.get? name with
    | none => rfl
    | some s =>
      simp only [recast_removeHandler hf]
      rfl
  | disposeEvent name =>
    rw [manage, manage, hevents]
    cases b.eventNames.get? name with
    | none => rfl
    | some event => exact recast_disposeEventAt hf earlier b event
  | disposeSignal name =>
    rw [manage, manage, hsignals]
    cases b.signalNames.get? name with
    | none => rfl
    | some signal => exact recast_disposeSignalAt hf earlier b signal
  | resetSignal name =>
    rw [manage, manage, hsignals]
    cases b.signalNames.get? name <;> rfl
  | readSignal name =>
    have hcurrent : ((b.recast f earlier).signalNames.get? name >>= fun signal =>
        (b.recast f earlier).signals[signal]?) =
        (b.signalNames.get? name >>= fun signal => b.signals[signal]?) := rfl
    rw [manage, manage, hcurrent]
    cases (b.signalNames.get? name >>= fun signal => b.signals[signal]?) <;> rfl
  | bagSubscription name =>
    rw [manage, manage, hsubscriptions]
    cases b.subscriptions.get? name <;> rfl
  | bagEvent name =>
    rw [manage, manage, hevents]
    cases b.eventNames.get? name <;> rfl
  | bagSignal name =>
    rw [manage, manage, hsignals]
    cases b.signalNames.get? name <;> rfl
  | disposeBag =>
    have hbag : (b.recast f earlier).bag = b.bag := rfl
    rw [manage, manage, hbag, recast_foldl_disposeOf hf]
    rfl

end

/-! ## Buses of one standing -/

/-- The bus without its past and without what earlier dispatches left. -/
def standing (b : Bus) : Bus := { b with events := b.events.map Event.rested, past := [] }

variable {b b' c : Bus} {i : Nat}

theorem recast_standing (b : Bus) :
    b.recast Event.rested [] = b.standing.recast id b.past := by
  simp only [recast, standing, List.append_nil, List.nil_append, List.map_id]

theorem standing_recast_rested (b : Bus) : (b.recast Event.rested []).standing = b.standing := by
  have hrested : Event.rested ∘ Event.rested = Event.rested := funext Event.rested_rested
  simp only [recast, standing, List.map_map, hrested]

theorem standing_recast_id (b : Bus) (earlier : List Occurrence) :
    (b.recast id earlier).standing = b.standing := by
  simp only [recast, standing, List.map_id]

/-- Buses of one standing are of one standing after an action that fires nothing, and the same has
happened on both. -/
theorem manage_standing (h : c.standing = b.standing) (action : Action) :
    (c.manage action).standing = (b.manage action).standing ∧
      ∃ t, (b.manage action).past = t ++ b.past ∧ (c.manage action).past = t ++ c.past := by
  have hmanage : ∀ b : Bus, (b.manage action).recast Event.rested [] =
      (b.standing.manage action).recast id b.past := by
    intro b
    rw [← recast_manage Event.plain_rested, recast_standing, recast_manage Event.plain_id]
  have hstanding : ∀ b : Bus, (b.manage action).standing = (b.standing.manage action).standing := by
    intro b
    rw [← standing_recast_rested (b.manage action), hmanage, standing_recast_id]
  have hpast : ∀ b : Bus, (b.manage action).past = (b.standing.manage action).past ++ b.past :=
    fun b => (List.append_nil _).symm.trans (congrArg Bus.past (hmanage b))
  refine ⟨?_, (b.standing.manage action).past, hpast b, ?_⟩
  · rw [hstanding c, h, ← hstanding b]
  · rw [hpast c, h]

theorem eventAt_standing (b : Bus) (i : Nat) : b.standing.eventAt i = (b.eventAt i).rested := by
  simp only [eventAt, standing, List.getElem?_map]
  cases b.events[i]? <;> rfl

theorem rested_eq (h : c.standing = b.standing) (i : Nat) :
    (c.eventAt i).rested = (b.eventAt i).rested := by
  rw [← eventAt_standing, h, eventAt_standing]

theorem getElem?_standing (h : c.standing = b.standing) {e : Event} (he : b.events[i]? = some e) :
    ∃ e', c.events[i]? = some e' ∧ e'.rested = e.rested := by
  have hevents : (c.events.map Event.rested)[i]? = (b.events.map Event.rested)[i]? :=
    congrArg (·.events[i]?) h
  rw [List.getElem?_map, List.getElem?_map, he] at hevents
  exact Option.map_eq_some_iff.mp hevents

theorem length_standing (h : c.standing = b.standing) : c.events.length = b.events.length := by
  have hlength := congrArg (·.events.length) h
  simpa only [standing, List.length_map] using hlength

theorem modifyEvent_standing (h : c.standing = b.standing) {f : Event → Event}
    (hf : (f (c.eventAt i)).rested = (f (b.eventAt i)).rested) :
    (c.modifyEvent i f).standing = (b.modifyEvent i f).standing := by
  have hevents : (c.events.modify i f).map Event.rested =
      (b.events.modify i f).map Event.rested := by
    refine List.ext_getElem? fun j => ?_
    have hj : (c.events.map Event.rested)[j]? = (b.events.map Event.rested)[j]? :=
      congrArg (·.events[j]?) h
    rw [List.getElem?_map, List.getElem?_map] at hj ⊢
    by_cases hij : i = j
    · subst hij
      rw [List.getElem?_modify_eq, List.getElem?_modify_eq]
      cases hc : c.events[i]? with
      | none =>
        rw [hc] at hj
        rw [Option.map_eq_none_iff.mp hj.symm]
      | some e' =>
        obtain ⟨e, he, _⟩ := getElem?_standing h.symm hc
        rw [eventAt_eq hc, eventAt_eq he] at hf
        rw [he]
        exact congrArg some hf
    · rw [List.getElem?_modify_ne _ _ hij, List.getElem?_modify_ne _ _ hij]
      exact hj
  have hrest : { c.standing with events := [] } = { b.standing with events := [] } := by rw [h]
  have hc : (c.modifyEvent i f).standing =
      { ({ c.standing with events := [] } : Bus) with
        events := (c.events.modify i f).map Event.rested } := rfl
  rw [hc, hrest, hevents]
  rfl

theorem change_standing (h : c.standing = b.standing) {f : Event → Event}
    (hf : (f (c.eventAt i)).rested = (f (b.eventAt i)).rested) (o : Occurrence) :
    (c.change i o f).standing = (b.change i o f).standing := by
  rw [change, change, length_standing h]
  split
  · exact modifyEvent_standing h hf
  · exact h

theorem begin_standing (h : c.standing = b.standing) (i : Nat) (o : Occurrence) :
    (c.change i o Event.begin).standing = (b.change i o Event.begin).standing := by
  refine change_standing h ?_ o
  rw [← Event.rested_begin, rested_eq h, Event.rested_begin]

theorem queue_standing (h : c.standing = b.standing) (hi : (b.eventAt i).dispatching = true)
    (o : Occurrence) (value : Int) :
    (c.change i o (·.queue value)).standing = (b.change i o (·.queue value)).standing := by
  have hrested := rested_eq h i
  have hi' : (c.eventAt i).dispatching = true := (Event.same_of_rested hrested).2.2.1.trans hi
  rw [Event.rested_of_dispatching hi, Event.rested_of_dispatching hi'] at hrested
  exact change_standing h (by rw [hrested]) o

theorem settle_standing (h : c.standing = b.standing) (i : Nat) :
    (c.settle i).standing = (b.settle i).standing := by
  refine modifyEvent_standing h ?_
  rw [← Event.rested_settle, rested_eq h, Event.rested_settle]

theorem takeNext?_standing (h : c.standing = b.standing) {value : Int}
    (hn : b.takeNext? i = some (value, b')) :
    ∃ c', c.takeNext? i = some (value, c') ∧ c'.standing = b'.standing ∧ c'.past = c.past := by
  have hq := (Event.same_of_rested (rested_eq h i)).2.2.2
  rw [takeNext?] at hn ⊢
  rw [hq]
  cases hb : (b.eventAt i).queued with
  | nil =>
    rw [hb] at hn
    cases hn
  | cons next waiting =>
    rw [hb] at hn
    cases hn
    refine ⟨_, rfl, modifyEvent_standing h ?_, rfl⟩
    have htake := Event.rested_comm (f := fun e => { e with queued := waiting })
      (fun _ => rfl) fun _ => rfl
    rw [htake, rested_eq h, ← htake]

theorem eventNames_standing (h : c.standing = b.standing) : c.eventNames = b.eventNames := by
  have hnames : c.standing.eventNames = b.standing.eventNames := by rw [h]
  exact hnames

theorem signals_standing (h : c.standing = b.standing) : c.signals = b.signals := by
  have hsignals : c.standing.signals = b.standing.signals := by rw [h]
  exact hsignals

theorem isSubscribed_standing (h : c.standing = b.standing) (i number : Nat) :
    c.isSubscribed i number = b.isSubscribed i number := by
  rw [isSubscribed, isSubscribed, Event.isSubscribed, Event.isSubscribed,
    (Event.same_of_rested (rested_eq h i)).1]

/-! ## Executions on buses of one standing -/

theorem Skips.follow {job : Job} (h : b.Skips job) (hc : c.standing = b.standing) :
    c.Skips job := by
  cases h with
  | fire hdisposed =>
    refine .fire fun e he => ?_
    obtain ⟨e', he', hrested⟩ := getElem?_standing hc.symm he
    rw [← (Event.same_of_rested hrested).2.1]
    exact hdisposed e' he'
  | turns => exact .turns
  | call hnone => exact .call ((signals_standing hc).symm ▸ hnone)
  | run => exact .run
  | act hnone => exact .act ((eventNames_standing hc).symm ▸ hnone)

/-- On every bus of the same standing, whose handlers have the same in memory, the job comes to the
same. -/
def Repeats {Memory : Type} (memory : List Occurrence → Memory) (job : Job) (t : List Occurrence)
    (b b' : Bus) : Prop :=
  ∀ c : Bus, c.standing = b.standing → memory c.past = memory b.past →
    ∃ c', Does c job t c' ∧ c'.standing = b'.standing

section

variable {Memory : Type} {memory : List Occurrence → Memory} {t t' : List Occurrence}
  {event number : Nat} {value : Int} {e : Event} {b₁ b₂ : Bus}

theorem repeats_queued (he : b.events[event]? = some e) (hd : e.disposed = false)
    (hi : e.dispatching = true) :
    Repeats memory (.fire event value) [.fired event value] b
      (b.change event (.fired event value) (·.queue value)) := by
  intro c hc hm
  obtain ⟨e', he', hrested⟩ := getElem?_standing hc he
  obtain ⟨_, hd', hi', _⟩ := Event.same_of_rested hrested
  rw [← eventAt_eq he] at hi
  refine ⟨_, .queued he' (hd'.trans hd) (hi'.trans ?_), queue_standing hc hi _ value⟩
  rw [← eventAt_eq he]
  exact hi

theorem repeats_managed {handled : Int} {action : Action}
    (hne : ∀ name amount, action ≠ .fire name amount) (ha : Alters action b t (b.manage action)) :
    Repeats memory (.act handled action) t b (b.manage action) := by
  intro c hc hm
  obtain ⟨hc', t', ht, ht'⟩ := manage_standing hc action
  obtain ⟨t'', ha'⟩ := c.manage_alters action
  have hsame : t'' = t := by
    have h₁ := List.append_cancel_right (ha.past_eq.symm.trans ht)
    have h₂ := List.append_cancel_right (ha'.past_eq.symm.trans ht')
    rw [h₁, h₂]
  exact ⟨_, .managed hne (hsame ▸ ha'), hc'⟩

theorem Repeats.folding {signal : Nat} {s : Signal} (hs : b.signals[signal]? = some s)
    (h : Repeats memory (.fire s.event (s.fold.apply s.current value)) t
      (b.modifySignal signal fun s' => { s' with current := s.fold.apply s.current value }) b') :
    Repeats memory (.call value (.folding signal)) t b b' := by
  intro c hc hm
  have hfolded : (c.modifySignal signal fun s' =>
        { s' with current := s.fold.apply s.current value }).standing =
      (b.modifySignal signal fun s' =>
        { s' with current := s.fold.apply s.current value }).standing :=
    congrArg (·.modifySignal signal fun s' =>
      { s' with current := s.fold.apply s.current value }) hc
  obtain ⟨c', hdoes, hc'⟩ := h _ hfolded hm
  exact ⟨c', .folding ((signals_standing hc).symm ▸ hs) hdoes, hc'⟩

variable (hmemory : ∀ o past past', memory past = memory past' →
  memory (o :: past) = memory (o :: past'))
include hmemory

theorem memory_append {past past' : List Occurrence} (h : memory past = memory past')
    (t : List Occurrence) : memory (t ++ past) = memory (t ++ past') := by
  induction t with
  | nil => exact h
  | cons o t ih => exact hmemory o _ _ ih

theorem Does.memory_eq {c' : Bus} {job job' : Job} (h : Does b job t b') (h' : Does c job' t c')
    (hm : memory c.past = memory b.past) : memory c'.past = memory b'.past := by
  rw [h.past_eq, h'.past_eq]
  exact memory_append hmemory hm t

theorem Repeats.dispatched (he : b.events[event]? = some e) (hd : e.disposed = false)
    (hi : e.dispatching = false)
    (h : Repeats memory (.rounds event value) t
      (b.change event (.fired event value) Event.begin) b') :
    Repeats memory (.fire event value) (t ++ [.fired event value]) b b' := by
  intro c hc hm
  obtain ⟨e', he', hrested⟩ := getElem?_standing hc he
  obtain ⟨_, hd', hi', _⟩ := Event.same_of_rested hrested
  have hpast : memory (c.change event (.fired event value) Event.begin).past =
      memory (b.change event (.fired event value) Event.begin).past := by
    rw [past_change (lt_of_getElem? he'), past_change (lt_of_getElem? he)]
    exact hmemory _ _ _ hm
  obtain ⟨c', hdoes, hc'⟩ := h _ (begin_standing hc event _) hpast
  exact ⟨c', .dispatched he' (hd'.trans hd) (hi'.trans hi) hdoes, hc'⟩

theorem Repeats.last (hd : (b.eventAt event).disposed = false)
    (h : Repeats memory (.turns event value (b.eventAt event).handlers) t
      (b.record (.round event value)) b')
    (hn : b'.takeNext? event = none) :
    Repeats memory (.rounds event value) (.settled event :: (t ++ [.round event value])) b
      (b'.settle event) := by
  intro c hc hm
  obtain ⟨hh, hd', _⟩ := Event.same_of_rested (rested_eq hc event)
  obtain ⟨c', hdoes, hc'⟩ := h (c.record (.round event value)) hc (hmemory _ _ _ hm)
  rw [← hh] at hdoes
  refine ⟨_, .last (hd'.trans hd) hdoes ?_, settle_standing hc' event⟩
  rw [takeNext?_eq_none, (Event.same_of_rested (rested_eq hc' event)).2.2.2]
  exact takeNext?_eq_none.mp hn

theorem Repeats.next {value' : Int} (hd : (b.eventAt event).disposed = false)
    (hturns : Does (b.record (.round event value))
      (.turns event value (b.eventAt event).handlers) t b₁)
    (h : Repeats memory (.turns event value (b.eventAt event).handlers) t
      (b.record (.round event value)) b₁)
    (hn : b₁.takeNext? event = some (value', b₂))
    (h' : Repeats memory (.rounds event value') t' b₂ b') :
    Repeats memory (.rounds event value) (t' ++ (t ++ [.round event value])) b b' := by
  intro c hc hm
  obtain ⟨hh, hd', _⟩ := Event.same_of_rested (rested_eq hc event)
  obtain ⟨c₁, hdoes, hc₁⟩ := h (c.record (.round event value)) hc (hmemory _ _ _ hm)
  obtain ⟨c₂, hn', hc₂, hpast⟩ := takeNext?_standing hc₁ hn
  obtain ⟨_, _, hpast', _⟩ := takeNext?_eq_some hn
  have hm₂ : memory c₂.past = memory b₂.past := by
    rw [hpast, hpast']
    exact hturns.memory_eq hmemory hdoes (hmemory _ _ _ hm)
  obtain ⟨c', hdoes', hc'⟩ := h' c₂ hc₂ hm₂
  rw [← hh] at hdoes
  exact ⟨c', .next (hd'.trans hd) hdoes hn' hdoes', hc'⟩

theorem Repeats.called {handler : Handler} {rest : List (Nat × Handler)}
    (hs : b.isSubscribed event number = true)
    (hcall : Does (b.record (.call event number value)) (.call value handler) t b₁)
    (h : Repeats memory (.call value handler) t (b.record (.call event number value)) b₁)
    (h' : Repeats memory (.turns event value rest) t' b₁ b') :
    Repeats memory (.turns event value ((number, handler) :: rest))
      (t' ++ (t ++ [.call event number value])) b b' := by
  intro c hc hm
  obtain ⟨c₁, hdoes, hc₁⟩ := h (c.record (.call event number value)) hc (hmemory _ _ _ hm)
  obtain ⟨c', hdoes', hc'⟩ := h' c₁ hc₁ (hcall.memory_eq hmemory hdoes (hmemory _ _ _ hm))
  exact ⟨c', .called ((isSubscribed_standing hc event number).trans hs) hdoes hdoes', hc'⟩

theorem Repeats.acted {handled : Int} {action : Action} {rest : Body}
    (hact : Does b (.act handled action) t b₁)
    (h : Repeats memory (.act handled action) t b b₁)
    (h' : Repeats memory (.run handled rest) t' b₁ b') :
    Repeats memory (.run handled (.act action rest)) (t' ++ t) b b' := by
  intro c hc hm
  obtain ⟨c₁, hdoes, hc₁⟩ := h c hc hm
  obtain ⟨c', hdoes', hc'⟩ := h' c₁ hc₁ (hact.memory_eq hmemory hdoes hm)
  exact ⟨c', .acted hdoes hdoes', hc'⟩

/-- What a confined job comes to, it comes to again. -/
theorem Does.repeats {job : Job} (h : Does b job t b') (hb : b.Confined (lookingAt memory))
    (hjob : job.Confined (lookingAt memory)) : Repeats memory job t b b' := by
  induction h with
  | skips hskips => exact fun c hc _ => ⟨c, .skips (hskips.follow hc), hc⟩
  | @leads b b' job job' t hleads _ ih =>
    intro c hc hm
    cases hleads with
    | @looked _ next =>
      obtain ⟨c', hdoes, hc'⟩ := ih hb (hjob.2 _) c hc hm
      rw [← hjob.1 c.past b.past hm] at hdoes
      exact ⟨c', .leads .looked hdoes, hc'⟩
    | fired hsome =>
      obtain ⟨c', hdoes, hc'⟩ := ih hb trivial c hc hm
      exact ⟨c', .leads (.fired ((eventNames_standing hc).symm ▸ hsome)) hdoes, hc'⟩
  | queued he hd hi => exact repeats_queued he hd hi
  | dispatched he hd hi _ ih =>
    exact (ih (hb.change _ _ fun e he => he) trivial).dispatched hmemory he hd hi
  | @cut b event value hd =>
    intro c hc hm
    have hd' := (Event.same_of_rested (rested_eq hc event)).2.1
    exact ⟨_, .cut (hd'.trans hd), settle_standing hc event⟩
  | @last b b' event value t hd _ hn ih =>
    exact (ih (hb.of_events rfl rfl) (hb.handlers event)).last hmemory hd hn
  | @next b b₁ b₂ b' event value value' t t' hd hturns hn _ ih ih' =>
    obtain ⟨hb₁, _⟩ := hturns.confined (hb.handlers event) (hb.of_events rfl rfl)
    exact (ih (hb.of_events rfl rfl) (hb.handlers event)).next hmemory hd hturns hn
      (ih' (hb₁.takeNext hn) trivial)
  | @gone b b' event number value handler rest t hs _ ih =>
    intro c hc hm
    obtain ⟨c', hdoes, hc'⟩ := ih hb (List.forall_mem_cons.mp hjob).2 c hc hm
    exact ⟨c', .gone ((isSubscribed_standing hc event number).trans hs) hdoes, hc'⟩
  | called hs hcall _ ih ih' =>
    obtain ⟨hhead, hrest⟩ := List.forall_mem_cons.mp hjob
    obtain ⟨hb₁, _⟩ := hcall.confined hhead (hb.of_events rfl rfl)
    exact (ih (hb.of_events rfl rfl) hhead).called hmemory hs hcall (ih' hb₁ hrest)
  | @listener b b' name body value t _ ih =>
    intro c hc hm
    obtain ⟨c', hdoes, hc'⟩ := ih (hb.of_events rfl rfl) (hjob value)
      (c.record (.heard name value)) hc (hmemory _ _ _ hm)
    exact ⟨c', .listener hdoes, hc'⟩
  | folding hs _ ih => exact (ih (hb.of_events rfl rfl) trivial).folding hs
  | acted hact _ ih ih' =>
    obtain ⟨hb₁, _⟩ := hact.confined hjob.1 hb
    exact (ih hb hjob.1).acted hmemory hact (ih' hb₁ hjob.2)
  | managed hne ha => exact repeats_managed hne ha

end

/-! ## Every fire leaves the bus idle -/

theorem Settled.idle (hb : b.Settled) (event : Nat) :
    (b.eventAt event).dispatching = false ∧ (b.eventAt event).queued = [] :=
  ⟨hb.rests event, (hb.recorded event).waiting (.inr (hb.rests event))⟩

/-- Where no handler makes new events, a fire from outside comes to an end and leaves every event
idle, however the handlers fire into one another. No dispatch has more rounds than one for its own
value and one for each value that it takes, and it takes as many whatever was fired before. What
happens in a fire depends on nothing but the standing of the bus and what the handlers have in
memory. -/
theorem fire_settles {Memory : Type} (memory : List Occurrence → Memory)
    (hmemory : ∀ o past past', memory past = memory past' →
      memory (o :: past) = memory (o :: past'))
    (routines : String → Int → Body)
    (hroutines : ∀ routine value, (routines routine value).Confined (lookingAt memory))
    (actions : List Action) (hactions : ∀ action ∈ actions, action.Brings (lookingAt memory)) :
    ∃ b, stepAll { routines } actions = some b ∧ ∀ event value, ∃ b',
      b.fire event value = some b' ∧
      (∀ i, (b'.eventAt i).dispatching = false ∧ (b'.eventAt i).queued = []) ∧
      (∀ later i v earlier, b'.past = later ++ .fired i v :: earlier →
        inDispatch i earlier = false →
        ∃ rest during, later = rest ++ .settled i :: during ∧
          Dispatches i v (.fired i v :: earlier) during ∧
          during.countP (isRoundOf i) ≤ Event.maxRefires + 1) ∧
      ∀ c : Bus, c.standing = b.standing → memory c.past = memory b.past →
        ∃ (c' : Bus) (t : List Occurrence), c.fire event value = some c' ∧
          c'.standing = b'.standing ∧ b'.past = t ++ b.past ∧ c'.past = t ++ c.past := by
  obtain ⟨b, h, hb, hc⟩ :=
    (settled_start routines).stepAll_returns ⟨hroutines, fun _ => nofun⟩ hactions
  refine ⟨b, h, fun event value => ?_⟩
  obtain ⟨t, b', ht⟩ := fire_returns hb.recorded hc event value
  have hb' : b'.Settled := hb.of_does ht fun _ => rfl
  refine ⟨b', ht.perform_eq, hb'.idle, ?_, ?_⟩
  · intro later i v earlier heq hout
    rw [← List.append_nil earlier] at hout
    obtain ⟨rest, during, hlater, hdispatch⟩ := hb'.inRounds later i v earlier heq hout
    rw [List.append_nil] at hdispatch
    exact ⟨rest, during, hlater, hdispatch, hdispatch.countP_round⟩
  · intro c hstanding hm
    obtain ⟨c', hdoes, hc'⟩ := ht.repeats hmemory hc trivial c hstanding hm
    exact ⟨c', t, hdoes.perform_eq, hc', ht.past_eq, hdoes.past_eq⟩

/-- On two events that fire into one another, with a handler that each time subscribes itself
anew. -/
theorem fire_settles_cyclic :
    let renew : String → Int → Body := fun routine _ =>
      .act (.unsubscribe "ping") (.act (.enlist "ping" "ping" routine)
        (.act (.fire "pong" (.handledPlus 1)) .done))
    let actions : List Action := [.newEvent "ping", .newEvent "pong",
      .newSignal "sum" "ping" .sum 0, .enlist "ping" "ping" "renew",
      .listen "pong" "pong" fun _ => .act (.fire "ping" (.handledPlus 1)) .done,
      .fire "ping" (.fixed 0)]
    ∃ b, stepAll { routines := renew } actions = some b ∧
      ∀ event value, ∃ b', b.fire event value = some b' ∧
        ∀ i, (b'.eventAt i).dispatching = false ∧ (b'.eventAt i).queued = [] := by
  intro renew actions
  have hroutines : ∀ routine value, (renew routine value).Confined (lookingAt fun _ => ()) :=
    fun _ _ => ⟨trivial, trivial, trivial, trivial⟩
  have hactions : ∀ action ∈ actions, action.Brings (lookingAt fun _ => ()) := by
    simp [actions, Action.Brings, Body.Confined, Action.Confined]
  obtain ⟨b, h, hfire⟩ :=
    fire_settles (fun _ => ()) (fun _ _ _ _ => rfl) renew hroutines actions hactions
  refine ⟨b, h, fun event value => ?_⟩
  obtain ⟨b', hb', hidle, _⟩ := hfire event value
  exact ⟨b', hb', hidle⟩

end Bus

end ProofPanel
