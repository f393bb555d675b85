import ProofPanel.Proofs.Bus.Handle

/-!
# Live subscriptions

At every moment the handlers of an event are its live subscriptions. Whatever subscribes a handler
adds it behind the others, and whatever disposes of something takes away what belongs to it and
nothing else.
-/
namespace ProofPanel

open Occurrence

/-- A subscription is live: it was made on an event that had not been disposed, and neither it nor
the event has been disposed since. -/
def Live (event number : Nat) (name : Option String) (past : List Occurrence) : Prop :=
  ∃ later earlier, past = later ++ .subscribed event number name :: earlier ∧
    .disposed event ∉ earlier ∧ .unsubscribed event number ∉ later ∧ .disposed event ∉ later

theorem mem_subscribers {event number : Nat} {name : Option String} {past : List Occurrence} :
    (number, name) ∈ subscribers event past ↔
      ∃ later earlier, past = later ++ .subscribed event number name :: earlier ∧
        .unsubscribed event number ∉ later ∧ .disposed event ∉ later := by
  induction past with
  | nil => simp [subscribers]
  | cons o past ih =>
    rw [mem_subscribers_cons, ih]
    constructor
    · rintro (rfl | ⟨hunsubscribed, hdisposed, later, earlier, rfl, hu, hd⟩)
      · exact ⟨[], past, rfl, List.not_mem_nil, List.not_mem_nil⟩
      · exact ⟨o :: later, earlier, rfl,
          List.not_mem_cons_of_ne_of_not_mem hunsubscribed.symm hu,
          List.not_mem_cons_of_ne_of_not_mem hdisposed.symm hd⟩
    · rintro ⟨later, earlier, heq, hu, hd⟩
      cases later with
      | nil =>
        cases heq
        exact .inl rfl
      | cons o' later =>
        cases heq
        exact .inr ⟨(List.ne_of_not_mem_cons hu).symm, (List.ne_of_not_mem_cons hd).symm, later,
          earlier, rfl, List.not_mem_of_not_mem_cons hu, List.not_mem_of_not_mem_cons hd⟩

namespace Bus

/-! ## What becomes of events -/

structure SameEvents (b b' : Bus) : Prop where
  past : b'.past = b.past
  eventAt : ∀ i, b'.eventAt i = b.eventAt i

/-- From one moment to the next an event gets a handler, behind all that it has. -/
structure Adds (event number : Nat) (handler : Handler) (b b' : Bus) : Prop where
  past : b'.past = .subscribed event number handler.name? :: b.past
  disposed : ∀ i, (b'.eventAt i).disposed = (b.eventAt i).disposed
  handlers : ∀ i, (b'.eventAt i).handlers =
    (b.eventAt i).handlers ++ if i = event then [(number, handler)] else []

/-- From one moment to the next the handler of a handle is gone, and no other one. -/
structure Removes (s : Subscription) (b b' : Bus) : Prop where
  past : b'.past = if s.active then .unsubscribed s.event s.handler :: b.past else b.past
  disposed : ∀ i, (b'.eventAt i).disposed = (b.eventAt i).disposed
  handlers : ∀ i, (b'.eventAt i).handlers =
    (b.eventAt i).handlers.filter fun p => !(i == s.event && p.1 == s.handler)

/-- From one moment to the next an event is disposed, without handlers and without values that wait
for a round, and all other events are as they were. -/
structure Disposes (event : Nat) (b b' : Bus) : Prop where
  past : b'.past = .disposed event :: b.past
  disposed : (b'.eventAt event).disposed = true
  handlers : (b'.eventAt event).handlers = []
  queued : (b'.eventAt event).queued = []
  others : ∀ i ≠ event, b'.eventAt i = b.eventAt i

variable {b b' : Bus} {s : Subscription} {event number : Nat} {name : Option String}

theorem disposed_change (b : Bus) (event : Nat) (o : Occurrence) {f : Event → Event}
    (hf : ∀ e, (f e).disposed = e.disposed) (i : Nat) :
    ((b.change event o f).eventAt i).disposed = (b.eventAt i).disposed := by
  by_cases hlen : event < b.events.length
  · by_cases hi : event = i
    · rw [← hi, eventAt_change hlen, hf]
    · rw [eventAt_change_ne b hi]
  · rw [change_eq_self hlen]

theorem disposes_disposeEventAt (hlen : event < b.events.length) :
    b.Disposes event (b.disposeEventAt event) := by
  have hself : (b.disposeEventAt event).eventAt event = (b.eventAt event).dispose :=
    eventAt_change hlen _ _
  exact {
    past := past_change hlen _ _
    disposed := congrArg (·.disposed) hself
    handlers := congrArg (·.handlers) hself
    queued := congrArg (·.queued) hself
    others := fun i hi => eventAt_change_ne b hi.symm _ _ }

/-- A signal leaves its source first, and then its own event is disposed of. -/
theorem disposes_disposeSignalAt {signal : Nat} {s : Signal} (hb : b.Sound)
    (hsignal : b.signals[signal]? = some s) :
    (b.removeHandler s.source).Disposes s.event (b.disposeSignalAt signal) := by
  have hlen : s.event < (b.removeHandler s.source).events.length := by
    rw [(b.sameBus_removeHandler s.source).length]
    exact hb.relayed _ (List.mem_map_of_mem (List.mem_of_getElem? hsignal))
  have hdisposes := disposes_disposeEventAt hlen
  rw [disposeSignalAt_eq hsignal]
  exact ⟨hdisposes.past, hdisposes.disposed, hdisposes.handlers, hdisposes.queued,
    hdisposes.others⟩

theorem adds_addHandler (hlen : event < b.events.length)
    (hdisposed : (b.eventAt event).disposed = false) (handler : Handler) :
    ∃ b', b.addHandler event handler = (b', ⟨event, (b.eventAt event).nextHandler, true⟩) ∧
      b.Adds event (b.eventAt event).nextHandler handler b' := by
  cases b.addHandler_cases hlen handler with
  | inl hcase => exact absurd (hdisposed.symm.trans hcase.1) Bool.false_ne_true
  | inr hcase =>
    refine ⟨_, hcase.2, past_change hlen _ _, disposed_change b _ _ fun _ => rfl, fun i => ?_⟩
    by_cases hi : event = i
    · rw [← hi, eventAt_change hlen, if_pos rfl]
      rfl
    · rw [eventAt_change_ne b hi, if_neg (Ne.symm hi), List.append_nil]

/-- An inactive handle has no handler that could be removed. -/
theorem filter_of_inactive (hs : s.Fits (b.eventAt s.event)) (hactive : s.active = false) (i : Nat) :
    ((b.eventAt i).handlers.filter fun p => !(i == s.event && p.1 == s.handler)) =
      (b.eventAt i).handlers := by
  refine List.filter_eq_self.mpr fun p hp => ?_
  rw [Bool.not_eq_true', Bool.and_eq_false_imp, beq_iff_eq]
  rintro rfl
  refine beq_false_of_ne fun heq => ?_
  have hlive := hs.live.mp (heq ▸ List.mem_map_of_mem hp)
  exact Bool.false_ne_true (hactive.symm.trans hlive.1)

theorem removes_removeHandler (hs : s.Fits (b.eventAt s.event)) :
    b.Removes s (b.removeHandler s) := by
  rw [Bus.removeHandler]
  cases hactive : s.active with
  | false =>
    rw [if_neg Bool.false_ne_true]
    exact ⟨by rw [hactive]; rfl, fun _ => rfl, fun i => (filter_of_inactive hs hactive i).symm⟩
  | true =>
    have hlen := lt_of_fits hs hactive
    rw [if_pos rfl]
    refine ⟨by rw [past_change hlen, hactive]; rfl, disposed_change b _ _ fun _ => rfl, fun i => ?_⟩
    by_cases hi : s.event = i
    · rw [← hi, eventAt_change hlen]
      simp [Event.unsubscribe, bne]
    · rw [eventAt_change_ne b hi]
      refine (List.filter_eq_self.mpr fun p _ => ?_).symm
      rw [beq_false_of_ne (Ne.symm hi), Bool.false_and]
      rfl

/-- An event that was just made makes no difference to subscribing a handler to another one. -/
theorem sameEvents_addEvent_addHandler (hlen : event < b.events.length) (handler : Handler) :
    (b.addHandler event handler).1.SameEvents (b.addEvent.1.addHandler event handler).1 ∧
      (b.addEvent.1.addHandler event handler).2 = (b.addHandler event handler).2 := by
  have hlen' : event < b.addEvent.1.events.length := by
    rw [length_addEvent]
    exact Nat.lt_succ_of_lt hlen
  have hevent := b.eventAt_addEvent
  cases b.addHandler_cases hlen handler with
  | inl hcase =>
    obtain ⟨hdisposed, heq⟩ := hcase
    cases b.addEvent.1.addHandler_cases hlen' handler with
    | inl hcase' =>
      rw [heq, hcase'.2, hevent]
      exact ⟨⟨rfl, hevent⟩, rfl⟩
    | inr hcase' =>
      rw [hevent, hdisposed] at hcase'
      exact absurd hcase'.1.symm Bool.false_ne_true
  | inr hcase =>
    obtain ⟨hdisposed, heq⟩ := hcase
    cases b.addEvent.1.addHandler_cases hlen' handler with
    | inl hcase' =>
      rw [hevent, hdisposed] at hcase'
      exact absurd hcase'.1 Bool.false_ne_true
    | inr hcase' =>
      rw [heq, hcase'.2, hevent]
      refine ⟨⟨?_, fun i => ?_⟩, rfl⟩
      · rw [past_change hlen, past_change hlen']
        rfl
      · by_cases hi : event = i
        · rw [← hi, eventAt_change hlen, eventAt_change hlen', hevent]
        · rw [eventAt_change_ne _ hi, eventAt_change_ne _ hi, hevent]

/-! ## What actions come to -/

/-- What the actions that subscribe and dispose come to: they change events as subscribing a handler
and disposing of a handle, of an event or of a signal do, and names stand for the handles. -/
structure Manages (b : Bus) : Prop where
  listen : ∀ source name body event, b.eventOf? source = some event →
    event < b.events.length ∧
      (b.addHandler event (.listener name body)).1.SameEvents
        (b.manage (.listen source name body)) ∧
      (b.manage (.listen source name body)).subscriptions.get? name =
        some (b.addHandler event (.listener name body)).2
  enlist : ∀ source name routine,
    b.manage (.enlist source name routine) = b.manage (.listen source name (b.routines routine))
  newSignal : ∀ name source fold initial event, b.eventNames.get? source = some event →
    event < b.events.length ∧
      (b.addHandler event (.folding b.signals.length)).1.SameEvents
        (b.manage (.newSignal name source fold initial)) ∧
      (b.manage (.newSignal name source fold initial)).signals = b.signals ++
        [⟨fold, initial, initial, b.events.length,
          (b.addHandler event (.folding b.signals.length)).2⟩]
  unsubscribe : ∀ name s, b.subscriptions.get? name = some s →
    s ∈ b.handles ∧ (b.removeHandler s).SameEvents (b.manage (.unsubscribe name)) ∧
      (b.manage (.unsubscribe name)).subscriptions.get? name = some { s with active := false }
  disposeEvent : ∀ name event, b.eventNames.get? name = some event →
    event < b.events.length ∧ b.manage (.disposeEvent name) = b.disposeEventAt event
  disposeSignal : ∀ name signal, b.signalNames.get? name = some signal →
    b.manage (.disposeSignal name) = b.disposeSignalAt signal

theorem manage_listen {source : String} (hb : b.Sound) (hname : b.eventOf? source = some event)
    (name : String) (body : Int → Body) :
    event < b.events.length ∧
      (b.addHandler event (.listener name body)).1.SameEvents
        (b.manage (.listen source name body)) ∧
      (b.manage (.listen source name body)).subscriptions.get? name =
        some (b.addHandler event (.listener name body)).2 := by
  refine ⟨hb.lt_of_eventOf? hname, ?_⟩
  rw [manage, listen, hname]
  exact ⟨⟨rfl, fun _ => rfl⟩, Names.get?_set_self _ _ _⟩

theorem manage_newSignal {source : String} (hb : b.Sound)
    (hname : b.eventNames.get? source = some event) (name : String) (fold : Fold) (initial : Int) :
    event < b.events.length ∧
      (b.addHandler event (.folding b.signals.length)).1.SameEvents
        (b.manage (.newSignal name source fold initial)) ∧
      (b.manage (.newSignal name source fold initial)).signals = b.signals ++
        [⟨fold, initial, initial, b.events.length,
          (b.addHandler event (.folding b.signals.length)).2⟩] := by
  have hlen := (hb.named _ (Names.mem_of_get? hname)).1
  obtain ⟨hsame, hhandle⟩ :=
    sameEvents_addEvent_addHandler hlen (.folding b.addEvent.1.signals.length)
  refine ⟨hlen, ?_⟩
  rw [manage, hname]
  refine ⟨⟨hsame.past, hsame.eventAt⟩, ?_⟩
  dsimp only
  rw [hhandle, signals_addHandler]
  rfl

theorem manages (hb : b.Sound) : b.Manages where
  listen _ name body _ hname := manage_listen hb hname name body
  enlist _ _ _ := rfl
  newSignal name _ fold initial _ hname := manage_newSignal hb hname name fold initial
  unsubscribe name s hname := by
    refine ⟨List.mem_append_left _ (List.mem_map_of_mem (Names.mem_of_get? hname)), ?_⟩
    rw [manage, hname]
    exact ⟨⟨rfl, fun _ => rfl⟩, Names.get?_set_self _ _ _⟩
  disposeEvent name event hname := by
    refine ⟨(hb.named _ (Names.mem_of_get? hname)).1, ?_⟩
    rw [manage, hname]
    rfl
  disposeSignal name signal hname := by
    rw [manage, hname]
    rfl

theorem source_mem_handles {signal : Nat} {s : Signal} (hsignal : b.signals[signal]? = some s) :
    s.source ∈ b.handles :=
  List.mem_append_right _ (List.mem_append_right _
    (List.mem_map_of_mem (List.mem_of_getElem? hsignal)))

theorem signals_disposeSignalAt {signal : Nat} {s : Signal}
    (hsignal : b.signals[signal]? = some s) :
    (b.disposeSignalAt signal).signals[signal]? =
      some { s with source := { s.source with active := false } } := by
  rw [disposeSignalAt_eq hsignal]
  dsimp only
  rw [List.getElem?_modify_eq, hsignal]
  rfl

theorem addHandler_disposed (hdisposed : (b.eventAt event).disposed = true) (handler : Handler) :
    ∃ s, s.active = false ∧ b.addHandler event handler = (b, s) := by
  have hlen : event < b.events.length := by
    by_contra hlen
    rw [eventAt, List.getElem?_eq_none_iff.mpr (Nat.le_of_not_lt hlen)] at hdisposed
    cases hdisposed
  cases b.addHandler_cases hlen handler with
  | inl hcase => exact ⟨_, rfl, hcase.2⟩
  | inr hcase => exact absurd (hcase.1.symm.trans hdisposed) Bool.false_ne_true

/-! ## At every moment -/

variable {routines : String → Int → Body}

theorem mem_roster_iff (hr : b.Recorded) (hb : b.Sound) (event number : Nat)
    (name : Option String) :
    (number, name) ∈ (b.eventAt event).roster ↔ Live event number name b.past := by
  rw [(hr event).handlers, mem_subscribers]
  constructor
  · rintro ⟨later, earlier, hpast, hu, hd⟩
    refine ⟨later, earlier, hpast, fun hdisposed => ?_, hu, hd⟩
    -- A handler that is there stands against an earlier end of its event.
    have hnil := hb.retired event ((hr event).disposed.mpr (by rw [hpast]; simp [hdisposed]))
    have hmem : (number, name) ∈ (b.eventAt event).roster := by
      rw [(hr event).handlers]
      exact mem_subscribers.mpr ⟨later, earlier, hpast, hu, hd⟩
    rw [Event.roster, hnil] at hmem
    cases hmem
  · rintro ⟨later, earlier, hpast, _, hu, hd⟩
    exact ⟨later, earlier, hpast, hu, hd⟩

theorem made_numbers (hr : b.Recorded) (event : Nat) :
    (made event b.past).map Prod.fst = List.range (b.eventAt event).nextHandler := by
  rw [made_map_fst, (hr event).numbers, List.reverse_reverse]

/-- At every moment, in a dispatch or not, the handlers of an event are its live subscriptions, in
the order that they were made in and with numbers never given twice; a handle is active exactly
until its handler has been removed by it, and no two active ones are of one handler. Whoever then
subscribes a handler adds it behind all others, with a new number, or nothing if the event has been
disposed. Whoever disposes of a handle removes its own handler and nothing else, and the second time
nothing; of an event, all its handlers and no other event's; of a signal, its handler at its source
and the event of its own. The bag disposes of what is in it one after the other and is empty then:
to put things into it and dispose of it is to dispose of it and then of each of them. -/
theorem mem_roster_iff_live_and_disposals_exact (h : Found routines b) :
    (∀ event, (b.eventAt event).roster.Sublist (made event b.past) ∧
      ((made event b.past).map Prod.fst).Nodup ∧
      ∀ number name, (number, name) ∈ (b.eventAt event).roster ↔
        Live event number name b.past) ∧
    (∀ s ∈ b.handles, b.isSubscribed s.event s.handler = true ↔
      s.active = true ∧ (b.eventAt s.event).disposed = false) ∧
    b.handles.Pairwise (fun s s' => s.active = true → s'.active = true →
      (s.event, s.handler) ≠ (s'.event, s'.handler)) ∧
    (∀ event handler, (b.eventAt event).disposed = true → ∃ s, s.active = false ∧
      b.addHandler event handler = (b, s)) ∧
    (∀ event handler, event < b.events.length → (b.eventAt event).disposed = false →
      ∃ b' number, b.addHandler event handler = (b', ⟨event, number, true⟩) ∧
        number ∉ (made event b.past).map Prod.fst ∧ b.Adds event number handler b') ∧
    (∀ s ∈ b.handles, b.Removes s (b.removeHandler s)) ∧
    (∀ event, event < b.events.length → b.Disposes event (b.disposeEventAt event)) ∧
    (∀ (signal : Nat) s, b.signals[signal]? = some s → s.source ∈ b.handles ∧
      (b.removeHandler s.source).Disposes s.event (b.disposeSignalAt signal) ∧
      (b.disposeSignalAt signal).signals[signal]? =
        some { s with source := { s.source with active := false } }) ∧
    b.Manages ∧
    (∀ name, (b.manage (.unsubscribe name)).manage (.unsubscribe name) =
      b.manage (.unsubscribe name)) ∧
    b.manage .disposeBag = { b.bag.foldl disposeOf b with bag := [] } ∧
    (b.manage .disposeBag).manage .disposeBag = b.manage .disposeBag ∧
    ∀ items : List Item, ((items.map Item.dispose).foldl manage (b.manage .disposeBag)).Alike
      (((items.map Item.keep).foldl manage b).manage .disposeBag) := by
  have hr := h.recorded
  have hb := h.tracked
  refine ⟨fun event => ⟨?_, ?_, mem_roster_iff hr hb.sound event⟩, fun s hs => ?_, hb.keeps.apart,
    fun event handler hdisposed => addHandler_disposed hdisposed handler,
    fun event handler hlen hdisposed => ?_,
    fun s hs => removes_removeHandler (hb.keeps.fits s hs),
    fun event hlen => disposes_disposeEventAt hlen,
    fun signal s hsignal => ⟨source_mem_handles hsignal, disposes_disposeSignalAt hb.sound hsignal,
      signals_disposeSignalAt hsignal⟩,
    manages hb.sound, b.manage_unsubscribe_twice, rfl, rfl, fun items => alike_keeps items b⟩
  · rw [(hr event).handlers]
    exact subscribers_sublist_made event b.past
  · rw [made_numbers hr]
    exact List.nodup_range
  · rw [← (hb.keeps.fits s hs).live, isSubscribed, Event.isSubscribed, List.any_eq_true,
      List.mem_map]
    simp only [beq_iff_eq]
  · obtain ⟨b', hadded, hadds⟩ := adds_addHandler hlen hdisposed handler
    refine ⟨b', _, hadded, ?_, hadds⟩
    rw [made_numbers hr, List.mem_range]
    exact Nat.lt_irrefl _

/-- In the midst of a round, a handler removes itself, subscribes another one and disposes of an
event whose own handler has no part in the round. -/
theorem mem_roster_iff_live_amid_disposals : ∃ b : Bus, Found (fun _ _ => .done) b ∧
    (b.eventAt 0).dispatching = true ∧ (b.eventAt 0).roster = [(1, some "second")] ∧
    Live 0 1 (some "second") b.past ∧ ¬ Live 0 0 (some "first") b.past ∧
    Live 1 0 (some "bystander") b.past ∧
    b.Disposes 1 (b.manage (.disposeEvent "other")) ∧
    Found (fun _ _ => .done) (b.manage (.disposeEvent "other")) ∧
    ¬ Live 1 0 (some "bystander") (b.manage (.disposeEvent "other")).past := by
  let replace : Int → Body := fun _ => .act (.unsubscribe "first")
    (.act (.listen "event" "second" fun _ => .done) (.act (.disposeEvent "other") .done))
  let prepare : List Action := [.newEvent "event", .newEvent "other",
    .listen "event" "first" replace, .listen "other" "bystander" fun _ => .done]
  let b₀ : Bus := prepare.foldl Bus.manage {}
  let b₁ : Bus := b₀.change 0 (.fired 0 1) Event.begin |>.record (.round 0 1)
    |>.record (.call 0 0 1) |>.record (.heard "first" 1)
  let b₂ : Bus := (b₁.manage (.unsubscribe "first")).manage
    (.listen "event" "second" fun _ => .done)
  have hsteps : stepAll {} prepare = some b₀ := by
    simp [stepAll, step, act, prepare, b₀]
  have hmanaged : ∀ (b : Bus) (action : Action), (∀ name amount, action ≠ .fire name amount) →
      ∃ t, Does b (.act 1 action) t (b.manage action) := fun b action h =>
    (b.manage_alters action).imp fun _ => .managed h
  obtain ⟨_, hremoved⟩ := hmanaged b₁ (.unsubscribe "first") (by rintro _ _ ⟨⟩)
  obtain ⟨_, hadded⟩ := hmanaged (b₁.manage (.unsubscribe "first"))
    (.listen "event" "second" fun _ => .done) (by rintro _ _ ⟨⟩)
  obtain ⟨_, hdisposed⟩ := hmanaged b₂ (.disposeEvent "other") (by rintro _ _ ⟨⟩)
  have hparts : Relation.ReflTransGen Part (b₀, .act 0 (.fire "event" (.fixed 1)))
      (b₂, .run 1 (.act (.disposeEvent "other") .done)) :=
    .head (.leads (.fired rfl)) <| .head (.rounds rfl rfl rfl) <| .head (.turns rfl) <|
      .head (.called rfl) <| .head .listener <| .head (.acted hremoved) <|
      .single (.acted hadded)
  have hbefore := Found.inside hsteps hparts
  have hafter := Found.inside hsteps (hparts.tail (.acted hdisposed))
  obtain ⟨hroster, _, _, _, _, _, hdisposes, _, hmanages, _⟩ :=
    mem_roster_iff_live_and_disposals_exact hbefore
  have hroster' := (mem_roster_iff_live_and_disposals_exact hafter).1
  have hother := (hmanages.disposeEvent "other" 1 rfl).2
  refine ⟨b₂, hbefore, rfl, rfl, ((hroster 0).2.2 1 _).mp (by decide), fun h => ?_,
    ((hroster 1).2.2 0 _).mp (by decide), ?_, hafter, fun h => ?_⟩
  · exact absurd (((hroster 0).2.2 0 _).mpr h) (by decide)
  · rw [hother]
    exact hdisposes 1 (by decide)
  · exact absurd (((hroster' 1).2.2 0 _).mpr h) (by decide)

end Bus

end ProofPanel
