import Mathlib.Data.List.Nodup
import ProofPanel.Proofs.Bus.Bag
import ProofPanel.Proofs.Bus.Past

/-!
# How the bus is wired

Names, signals and the bag stand for events that there are; a signal passes on its values by an
event of its own that has no name. Subscribing and disposing leaves it at that.
-/
namespace ProofPanel.Bus

def relays (b : Bus) : List Nat := b.signals.map (·.event)

def followed (b : Bus) : List Nat := b.signals.map (·.source.event)

/-- There is an event of that number, and no signal passes on its values by it. -/
def Ordinary (b : Bus) (event : Nat) : Prop := event < b.events.length ∧ event ∉ b.relays

/-- What goes by a name is there, signals have events of their own that have no name, and a disposed
event has no handlers. -/
structure Sound (b : Bus) : Prop where
  named : ∀ p ∈ b.eventNames, b.Ordinary p.2
  bagged : ∀ event, .event event ∈ b.bag → b.Ordinary event
  followed : ∀ event ∈ b.followed, b.Ordinary event
  relayed : ∀ event ∈ b.relays, event < b.events.length
  distinct : b.relays.Nodup
  retired : ∀ event, (b.eventAt event).disposed = true → (b.eventAt event).handlers = []

variable {b b' b'' : Bus} {s : Subscription} {event i : Nat}

/-! ## What happens to events -/

structure SameRoster (e e' : Event) : Prop where
  handlers : e'.handlers = e.handlers
  nextHandler : e'.nextHandler = e.nextHandler
  disposed : e'.disposed = e.disposed

theorem SameRoster.refl (e : Event) : SameRoster e e := ⟨rfl, rfl, rfl⟩

/-- What comes of a handler that is to be subscribed. -/
theorem addHandler_cases (hlen : event < b.events.length) (handler : Handler) :
    (b.eventAt event).disposed = true ∧
        b.addHandler event handler = (b, ⟨event, (b.eventAt event).nextHandler, false⟩) ∨
      (b.eventAt event).disposed = false ∧ b.addHandler event handler =
        (b.change event (.subscribed event (b.eventAt event).nextHandler handler.name?)
          (·.subscribe handler), ⟨event, (b.eventAt event).nextHandler, true⟩) := by
  have he := List.getElem?_eq_getElem hlen
  rw [addHandler, he, eventAt_eq he]
  cases hd : b.events[event].disposed with
  | true => exact .inl ⟨rfl, if_pos hd⟩
  | false => exact .inr ⟨rfl, if_neg (by simp [hd])⟩

theorem addHandler_event (hlen : event < b.events.length) (handler : Handler) :
    (b.addHandler event handler).2.event = event := by
  cases b.addHandler_cases hlen handler with
  | inl hcase => rw [hcase.2]
  | inr hcase => rw [hcase.2]

theorem length_addEvent (b : Bus) : b.addEvent.1.events.length = b.events.length + 1 :=
  List.length_append ..

/-! ## What happens to signals -/

theorem signals_change (b : Bus) (event : Nat) (o : Occurrence) (f : Event → Event) :
    (b.change event o f).signals = b.signals := by
  rw [change]
  split <;> rfl

theorem signals_removeHandler (b : Bus) (s : Subscription) :
    (b.removeHandler s).signals = b.signals := by
  rw [Bus.removeHandler]
  split
  · exact b.signals_change _ _ _
  · rfl

theorem signals_addHandler (b : Bus) (event : Nat) (handler : Handler) :
    (b.addHandler event handler).1.signals = b.signals := by
  rw [addHandler]
  split
  · rfl
  · split
    · rfl
    · exact b.signals_change _ _ _

theorem disposeSignalAt_eq {signal : Nat} {s : Signal} (h : b.signals[signal]? = some s) :
    b.disposeSignalAt signal = { (b.removeHandler s.source).disposeEventAt s.event with
      signals := b.signals.modify signal fun s =>
        { s with source := { s.source with active := false } } } := by
  have hmodified : ∀ (c : Bus) (f : Signal → Signal),
      (c.modifySignal signal f).disposeEventAt s.event =
        { c.disposeEventAt s.event with signals := c.signals.modify signal f } := by
    intro c f
    have hevents : (c.modifySignal signal f).events = c.events := rfl
    rw [Bus.disposeEventAt, Bus.disposeEventAt, change, change, hevents]
    split <;> rfl
  rw [Bus.disposeSignalAt, h]
  dsimp only
  rw [hmodified, signals_removeHandler]

theorem map_modify_eq {α β : Type} {f : α → α} {g : α → β} (h : ∀ a, g (f a) = g a) (l : List α)
    (i : Nat) : (l.modify i f).map g = l.map g := by
  refine List.ext_getElem? fun j => ?_
  rw [List.getElem?_map, List.getElem?_map, List.getElem?_modify]
  cases l[j]? with
  | none => rfl
  | some a => by_cases hij : i = j <;> simp [hij, h]

/-! ## What names stand for -/

structure SameBus (b b' : Bus) : Prop where
  names : b'.eventNames = b.eventNames
  bag : b'.bag = b.bag
  subscriptions : b'.subscriptions = b.subscriptions
  relays : b'.relays = b.relays
  followed : b'.followed = b.followed
  length : b'.events.length = b.events.length

theorem SameBus.refl (b : Bus) : SameBus b b := ⟨rfl, rfl, rfl, rfl, rfl, rfl⟩

theorem SameBus.trans (h : SameBus b b') (h' : SameBus b' b'') : SameBus b b'' where
  names := h'.names.trans h.names
  bag := h'.bag.trans h.bag
  subscriptions := h'.subscriptions.trans h.subscriptions
  relays := h'.relays.trans h.relays
  followed := h'.followed.trans h.followed
  length := h'.length.trans h.length

theorem sameBus_change (b : Bus) (event : Nat) (o : Occurrence) (f : Event → Event) :
    SameBus b (b.change event o f) := by
  by_cases hlen : event < b.events.length
  · rw [change, if_pos hlen]
    exact ⟨rfl, rfl, rfl, rfl, rfl, List.length_modify ..⟩
  · rw [change_eq_self hlen]
    exact .refl b

theorem sameBus_removeHandler (b : Bus) (s : Subscription) : SameBus b (b.removeHandler s) := by
  rw [Bus.removeHandler]
  split
  · exact b.sameBus_change _ _ _
  · exact .refl b

theorem sameBus_addHandler (b : Bus) (event : Nat) (handler : Handler) :
    SameBus b (b.addHandler event handler).1 := by
  rw [addHandler]
  split
  · exact .refl b
  · split
    · exact .refl b
    · exact b.sameBus_change _ _ _

theorem sameBus_disposeSignalAt (b : Bus) (signal : Nat) :
    SameBus b (b.disposeSignalAt signal) := by
  cases hsignal : b.signals[signal]? with
  | none =>
    rw [Bus.disposeSignalAt, hsignal]
    exact .refl b
  | some s =>
    have hdisposed : SameBus b ((b.removeHandler s.source).disposeEventAt s.event) :=
      (b.sameBus_removeHandler s.source).trans (sameBus_change _ _ _ _)
    rw [disposeSignalAt_eq hsignal]
    refine ⟨hdisposed.names, hdisposed.bag, hdisposed.subscriptions, ?_, ?_, hdisposed.length⟩
    · refine map_modify_eq ?_ b.signals signal
      exact fun _ => rfl
    · refine map_modify_eq ?_ b.signals signal
      exact fun _ => rfl

theorem sameBus_disposeOf (b : Bus) (d : Disposable) : SameBus b (b.disposeOf d) := by
  cases d with
  | subscription s => exact b.sameBus_removeHandler s
  | event event => exact b.sameBus_change _ _ _
  | signal signal => exact b.sameBus_disposeSignalAt signal

theorem Ordinary.mono (h : b.Ordinary event) (hlen : b.events.length ≤ b'.events.length)
    (hrelays : ∀ i ∈ b'.relays, i ∈ b.relays ∨ b.events.length ≤ i) : b'.Ordinary event := by
  refine ⟨Nat.lt_of_lt_of_le h.1 hlen, fun hmem => ?_⟩
  cases hrelays event hmem with
  | inl hrelay => exact h.2 hrelay
  | inr hge => exact absurd h.1 (Nat.not_lt_of_le hge)

/-! ## What keeps a bus sound -/

theorem Sound.of_same (h : b.Sound) (hsame : SameBus b b')
    (hretired : ∀ event, (b'.eventAt event).disposed = true → (b'.eventAt event).handlers = []) :
    b'.Sound := by
  have hordinary : ∀ event, b.Ordinary event → b'.Ordinary event := fun event hevent =>
    hevent.mono (Nat.le_of_eq hsame.length.symm) fun i hi => .inl (hsame.relays ▸ hi)
  refine ⟨?_, ?_, ?_, ?_, ?_, hretired⟩
  · rw [hsame.names]
    exact fun p hp => hordinary _ (h.named p hp)
  · rw [hsame.bag]
    exact fun event hevent => hordinary _ (h.bagged event hevent)
  · rw [hsame.followed]
    exact fun event hevent => hordinary _ (h.followed event hevent)
  · rw [hsame.relays, hsame.length]
    exact h.relayed
  · rw [hsame.relays]
    exact h.distinct

theorem Sound.change (h : b.Sound) (event : Nat) (o : Occurrence) {f : Event → Event}
    (hf : (f (b.eventAt event)).disposed = true → (f (b.eventAt event)).handlers = []) :
    (b.change event o f).Sound := by
  refine h.of_same (b.sameBus_change event o f) fun i => ?_
  by_cases hlen : event < b.events.length
  · by_cases hi : event = i
    · rw [← hi, eventAt_change hlen]
      exact hf
    · rw [eventAt_change_ne b hi]
      exact h.retired i
  · rw [change_eq_self hlen]
    exact h.retired i

theorem Sound.removeHandler (h : b.Sound) (s : Subscription) : (b.removeHandler s).Sound := by
  rw [Bus.removeHandler]
  split
  · refine h.change _ _ fun hdisposed => ?_
    have hnil : (b.eventAt s.event).handlers = [] := h.retired s.event hdisposed
    simp [Event.unsubscribe, hnil]
  · exact h

theorem Sound.disposeEventAt (h : b.Sound) (event : Nat) : (b.disposeEventAt event).Sound :=
  h.change _ _ fun _ => rfl

theorem Sound.addHandler (h : b.Sound) (hlen : event < b.events.length) (handler : Handler) :
    (b.addHandler event handler).1.Sound := by
  cases b.addHandler_cases hlen handler with
  | inl hcase => rw [hcase.2]; exact h
  | inr hcase =>
    rw [hcase.2]
    exact h.change _ _ fun hdisposed => absurd (hcase.1.symm.trans hdisposed) Bool.false_ne_true

theorem Sound.disposeSignalAt (h : b.Sound) (signal : Nat) : (b.disposeSignalAt signal).Sound := by
  refine h.of_same (b.sameBus_disposeSignalAt signal) ?_
  cases hsignal : b.signals[signal]? with
  | none =>
    rw [Bus.disposeSignalAt, hsignal]
    exact h.retired
  | some s =>
    rw [disposeSignalAt_eq hsignal]
    exact ((h.removeHandler s.source).disposeEventAt s.event).retired

theorem Sound.disposeOf (h : b.Sound) (d : Disposable) : (b.disposeOf d).Sound := by
  cases d with
  | subscription s => exact h.removeHandler s
  | event event => exact h.disposeEventAt event
  | signal signal => exact h.disposeSignalAt signal

theorem Sound.foldl_disposeOf (h : b.Sound) (ds : List Disposable) :
    (ds.foldl Bus.disposeOf b).Sound := by
  induction ds generalizing b with
  | nil => exact h
  | cons d ds ih => exact ih (h.disposeOf d)

theorem Sound.addEvent (h : b.Sound) : b.addEvent.1.Sound := by
  have hlen := b.length_addEvent
  have hordinary : ∀ event, b.Ordinary event → b.addEvent.1.Ordinary event := fun event hevent =>
    hevent.mono (by omega) fun i hi => .inl hi
  exact {
    named := fun p hp => hordinary _ (h.named p hp)
    bagged := fun event hevent => hordinary _ (h.bagged event hevent)
    followed := fun event hevent => hordinary _ (h.followed event hevent)
    relayed := fun event hevent => Nat.lt_of_lt_of_le (h.relayed event hevent) (by omega)
    distinct := h.distinct
    retired := fun event hd => by
      rw [eventAt_addEvent] at hd ⊢
      exact h.retired event hd }

/-- Other names and another bag do as well, as long as they are for ordinary events. -/
theorem Sound.rename (h : b.Sound) (hevents : b'.events = b.events)
    (hsignals : b'.signals = b.signals) (hnamed : ∀ p ∈ b'.eventNames, b.Ordinary p.2)
    (hbagged : ∀ event, .event event ∈ b'.bag → b.Ordinary event) : b'.Sound := by
  have hordinary : ∀ event, b.Ordinary event → b'.Ordinary event := fun event hevent =>
    hevent.mono (Nat.le_of_eq (congrArg List.length hevents.symm)) fun i hi =>
      .inl (by rwa [relays, hsignals] at hi)
  exact {
    named := fun p hp => hordinary _ (hnamed p hp)
    bagged := fun event hevent => hordinary _ (hbagged event hevent)
    followed := by
      rw [Bus.followed, hsignals]
      exact fun event hevent => hordinary _ (h.followed event hevent)
    relayed := by
      rw [relays, hsignals, hevents]
      exact h.relayed
    distinct := by
      rw [relays, hsignals]
      exact h.distinct
    retired := fun event hd => by
      rw [eventAt_congr hevents] at hd ⊢
      exact h.retired event hd }

theorem Sound.lt_of_eventOf? (h : b.Sound) {name : String} (hname : b.eventOf? name = some event) :
    event < b.events.length := by
  rw [eventOf?] at hname
  cases hevent : b.eventNames.get? name with
  | some i =>
    rw [hevent] at hname
    cases hname
    exact (h.named _ (Names.mem_of_get? hevent)).1
  | none =>
    rw [hevent] at hname
    obtain ⟨signal, _, hname⟩ := Option.bind_eq_some_iff.mp hname
    obtain ⟨s, hs, hname⟩ := Option.bind_eq_some_iff.mp hname
    cases hname
    exact h.relayed _ (List.mem_map_of_mem (List.mem_of_getElem? hs))

end ProofPanel.Bus
