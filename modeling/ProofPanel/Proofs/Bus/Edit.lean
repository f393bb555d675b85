import ProofPanel.Proofs.Bus.Handle

/-!
# Edits

An action that fires nothing comes down to a few edits of the bus, one after the other.
-/
namespace ProofPanel.Bus

open Relation

def withSignal (b : Bus) (event : Nat) (fold : Fold) (initial : Int) : Bus :=
  let (b', source) := b.addEvent.1.addHandler event (.folding b.signals.length)
  { b' with signals := b.signals ++ [⟨fold, initial, initial, b.events.length, source⟩] }

inductive Edits : Bus → Bus → Prop
  /-- Names, handles or the bag change. -/
  | renamed {b b' : Bus} : b'.events = b.events → b'.signals = b.signals → b'.past = b.past →
    Edits b b'
  | read {b : Bus} {current : Int} : Edits b (b.record (.read current))
  | reset {b : Bus} {signal : Nat} :
    Edits b ((b.modifySignal signal fun s => { s with current := s.initial }).record
      (.reset signal))
  | created {b : Bus} : Edits b b.addEvent.1
  | listening {b : Bus} {event : Nat} {name : String} {body : Int → Body} : b.Recorded →
    b.Tracked → event < b.events.length → Edits b (b.addHandler event (.listener name body)).1
  | following {b : Bus} {event : Nat} {fold : Fold} {initial : Int} : b.Recorded → b.Tracked →
    b.Ordinary event → Edits b (b.withSignal event fold initial)
  | removed {b : Bus} {s : Subscription} : Edits b (b.removeHandler s)
  | disposed {b : Bus} {event : Nat} : event ∉ b.relays → Edits b (b.disposeEventAt event)
  | silenced {b : Bus} {signal : Nat} : b.relays.Nodup → Edits b (b.disposeSignalAt signal)

variable {b b' : Bus}

/-! ## A new signal -/

theorem length_withSignal (b : Bus) (event : Nat) (fold : Fold) (initial : Int) :
    (b.withSignal event fold initial).events.length = b.events.length + 1 := by
  have hsame := b.addEvent.1.sameBus_addHandler event (.folding b.signals.length)
  exact hsame.length.trans b.length_addEvent

section withSignal

variable {event : Nat} (h : event < b.events.length) (fold : Fold) (initial : Int)
include h

theorem signals_withSignal : (b.withSignal event fold initial).signals =
    b.signals ++ [⟨fold, initial, initial, b.events.length,
      ⟨event, (b.eventAt event).nextHandler, !(b.eventAt event).disposed⟩⟩] := by
  have hlen : event < b.addEvent.1.events.length := by rw [length_addEvent]; omega
  have hcases := addHandler_cases hlen (.folding b.signals.length)
  rw [eventAt_addEvent] at hcases
  cases hcases with
  | inl hcase => rw [withSignal, hcase.2, hcase.1]; rfl
  | inr hcase => rw [withSignal, hcase.2, hcase.1]; rfl

/-- The handler of the signal is subscribed unless its source has been disposed. -/
theorem withSignal_cases :
    (b.eventAt event).disposed = true ∧ (b.withSignal event fold initial).past = b.past ∧
        (∀ i, (b.withSignal event fold initial).eventAt i = b.eventAt i) ∨
      (b.eventAt event).disposed = false ∧ (b.withSignal event fold initial).past =
        .subscribed event (b.eventAt event).nextHandler none :: b.past ∧
        (b.withSignal event fold initial).eventAt event =
          (b.eventAt event).subscribe (.folding b.signals.length) ∧
        ∀ i, event ≠ i → (b.withSignal event fold initial).eventAt i = b.eventAt i := by
  have hlen : event < b.addEvent.1.events.length := by rw [length_addEvent]; omega
  have hcases := addHandler_cases hlen (.folding b.signals.length)
  rw [eventAt_addEvent] at hcases
  refine hcases.imp (fun hcase => ⟨hcase.1, ?_⟩) fun hcase => ⟨hcase.1, ?_⟩
  · rw [withSignal, hcase.2]
    exact ⟨rfl, b.eventAt_addEvent⟩
  · have hself := eventAt_change hlen (.subscribed event (b.eventAt event).nextHandler none)
      (·.subscribe (.folding b.signals.length))
    have hother := fun i (hi : event ≠ i) => eventAt_change_ne b.addEvent.1 hi
      (.subscribed event (b.eventAt event).nextHandler none)
      (·.subscribe (.folding b.signals.length))
    simp only [eventAt_addEvent] at hself hother
    rw [withSignal, hcase.2]
    exact ⟨past_change hlen _ _, hself, hother⟩

end withSignal

/-! ## Actions -/

theorem Edits.renames {c : Bus} (h : ReflTransGen Edits b b') (he : c.events = b'.events)
    (hs : c.signals = b'.signals) (hp : c.past = b'.past) : ReflTransGen Edits b c :=
  h.tail (.renamed he hs hp)

theorem listen_edits (hr : b.Recorded) (ht : b.Tracked) (event name : String)
    (body : Int → Body) : ReflTransGen Edits b (b.listen event name body) := by
  rw [listen]
  cases hevent : b.eventOf? event with
  | none => exact .refl
  | some i =>
    have hlen := ht.sound.lt_of_eventOf? hevent
    exact Edits.renames (.single (.listening hr ht hlen)) rfl rfl rfl

theorem disposeOf_edits {d : Disposable} (hrelays : b.relays.Nodup)
    (hd : ∀ event, d = .event event → event ∉ b.relays) : Edits b (b.disposeOf d) := by
  cases d with
  | subscription s => exact .removed
  | event event => exact .disposed (hd event rfl)
  | signal signal => exact .silenced hrelays

theorem foldl_disposeOf_edits {ds : List Disposable} (hrelays : b.relays.Nodup)
    (hds : ∀ event, .event event ∈ ds → event ∉ b.relays) :
    ReflTransGen Edits b (ds.foldl disposeOf b) := by
  induction ds generalizing b with
  | nil => exact .refl
  | cons d ds ih =>
    have hfirst := disposeOf_edits hrelays fun event heq => hds event (heq ▸ List.mem_cons_self)
    have hsame := (b.sameBus_disposeOf d).relays
    refine .head hfirst (ih (hsame ▸ hrelays) fun event hevent => ?_)
    rw [hsame]
    exact hds event (List.mem_cons_of_mem _ hevent)

/-- What an action that fires nothing makes of the bus. -/
theorem manage_edits (hr : b.Recorded) (ht : b.Tracked) (action : Action) :
    ReflTransGen Edits b (b.manage action) := by
  cases action with
  | fire name amount => exact .refl
  | newEvent name => exact Edits.renames (.single .created) rfl rfl rfl
  | newSignal name source fold initial =>
    rw [manage]
    cases hsource : b.eventNames.get? source with
    | none => exact .refl
    | some event =>
      have hevent : b.Ordinary event := ht.sound.named _ (Names.mem_of_get? hsource)
      have hfollowing : Edits b (b.withSignal event fold initial) := .following hr ht hevent
      have hsignals := b.addEvent.1.signals_addHandler event (.folding b.signals.length)
      exact Edits.renames (.single hfollowing) rfl (congrArg (· ++ [_]) hsignals) rfl
  | listen event name body => exact listen_edits hr ht event name body
  | enlist event name routine => exact listen_edits hr ht event name (b.routines routine)
  | unsubscribe name =>
    rw [manage]
    cases b.subscriptions.get? name with
    | none => exact .refl
    | some s => exact Edits.renames (.single .removed) rfl rfl rfl
  | disposeEvent name =>
    rw [manage]
    cases hevent : b.eventNames.get? name with
    | none => exact .refl
    | some event =>
      exact .single (.disposed (ht.sound.named _ (Names.mem_of_get? hevent)).2)
  | disposeSignal name =>
    rw [manage]
    cases b.signalNames.get? name with
    | none => exact .refl
    | some signal => exact .single (.silenced ht.sound.distinct)
  | resetSignal name =>
    rw [manage]
    cases b.signalNames.get? name with
    | none => exact .refl
    | some signal => exact .single .reset
  | readSignal name =>
    rw [manage]
    cases b.signalNames.get? name >>= fun signal => b.signals[signal]? with
    | none => exact .refl
    | some s => exact .single .read
  | bagSubscription name =>
    rw [manage]
    cases b.subscriptions.get? name with
    | none => exact .refl
    | some s => exact .single (.renamed rfl rfl rfl)
  | bagEvent name =>
    rw [manage]
    cases b.eventNames.get? name with
    | none => exact .refl
    | some event => exact .single (.renamed rfl rfl rfl)
  | bagSignal name =>
    rw [manage]
    cases b.signalNames.get? name with
    | none => exact .refl
    | some signal => exact .single (.renamed rfl rfl rfl)
  | disposeBag =>
    have hbag := foldl_disposeOf_edits ht.sound.distinct fun event hevent =>
      (ht.sound.bagged event hevent).2
    exact Edits.renames hbag rfl rfl rfl

end ProofPanel.Bus
