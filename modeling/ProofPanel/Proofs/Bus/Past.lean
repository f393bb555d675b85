import Mathlib.Data.List.Nodup
import ProofPanel.Proofs.Bus.Execution

/-!
# What the past tells of an event

The past is a list of occurrences, the latest first. Who is subscribed to an event, whether it has
been disposed and whether it is in a dispatch can be read off the past alone, and at any time the
event is as the past tells.
-/
namespace ProofPanel

namespace Occurrence

def event? : Occurrence → Option Nat
  | subscribed event _ _ | unsubscribed event _ | disposed event | fired event _
  | settled event => some event
  | _ => none

def numberFor? (event : Nat) : Occurrence → Option Nat
  | subscribed i number _ => if i = event then some number else none
  | _ => none

def madeOn? (event : Nat) : Occurrence → Option (Nat × Option String)
  | subscribed i number name => if i = event then some (number, name) else none
  | _ => none

def firedOn? (event : Nat) : Occurrence → Option Int
  | fired i value => if i = event then some value else none
  | _ => none

/-- Whether an occurrence belongs to the event's own rounds. -/
def isTurnOf (event : Nat) : Occurrence → Bool
  | round i _ | call i _ _ | settled i => i == event
  | _ => false

end Occurrence

open Occurrence

def numbers (event : Nat) (past : List Occurrence) : List Nat :=
  past.filterMap (numberFor? event)

/-- The handlers ever subscribed to an event, with their numbers, in the order of their
subscription. -/
def made (event : Nat) (past : List Occurrence) : List (Nat × Option String) :=
  (past.filterMap (madeOn? event)).reverse

/-- The handlers that are subscribed to an event, with the names that they are heard under, in the
order of their subscription. -/
def subscribers (event : Nat) : List Occurrence → List (Nat × Option String)
  | [] => []
  | .subscribed i number name :: past =>
    if i = event then subscribers event past ++ [(number, name)] else subscribers event past
  | .unsubscribed i number :: past =>
    if i = event then (subscribers event past).filter (·.1 != number) else subscribers event past
  | .disposed i :: past => if i = event then [] else subscribers event past
  | _ :: past => subscribers event past

/-- Whether an event is in a dispatch: a value has been fired on it that is not yet dealt with. -/
def inDispatch (event : Nat) : List Occurrence → Bool
  | [] => false
  | .fired i _ :: past => i == event || inDispatch event past
  | .settled i :: past => i != event && inDispatch event past
  | _ :: past => inDispatch event past

def valuesFired (event : Nat) (past : List Occurrence) : List Int :=
  (past.filterMap (firedOn? event)).reverse

variable {event i : Nat} {past : List Occurrence} {o : Occurrence}

/-! ## Reading the past -/

theorem valuesFired_append (event : Nat) (t past : List Occurrence) :
    valuesFired event (t ++ past) = valuesFired event past ++ valuesFired event t := by
  simp only [valuesFired, List.filterMap_append, List.reverse_append]

theorem valuesFired_eq_nil (h : ∀ o ∈ past, o.firedOn? event = none) :
    valuesFired event past = [] := by
  rw [valuesFired, List.filterMap_eq_nil_iff.mpr h, List.reverse_nil]

/-- What happens to other events tells nothing of this one. -/
theorem read_other (h : o.event? ≠ some event) (past : List Occurrence) :
    numbers event (o :: past) = numbers event past ∧
      subscribers event (o :: past) = subscribers event past ∧
      inDispatch event (o :: past) = inDispatch event past ∧
      (.disposed event ∈ o :: past ↔ .disposed event ∈ past) := by
  have hnumber : o.numberFor? event = none := by
    cases o <;> simp_all [Occurrence.event?, numberFor?]
  refine ⟨List.filterMap_cons_none hnumber, ?_, ?_, ?_⟩
  · cases o <;> simp_all [Occurrence.event?, subscribers]
  · cases o <;> simp_all [Occurrence.event?, inDispatch]
  · have hne : Occurrence.disposed event ≠ o := by
      rintro rfl
      exact h rfl
    simp [hne]

theorem numbers_subscribed (event number : Nat) (name : Option String) (past : List Occurrence) :
    numbers event (.subscribed event number name :: past) = number :: numbers event past :=
  List.filterMap_cons_some (if_pos rfl)

theorem made_map_fst (event : Nat) (past : List Occurrence) :
    (made event past).map Prod.fst = (numbers event past).reverse := by
  have hnumber : Option.map Prod.fst ∘ madeOn? event = numberFor? event := by
    funext o
    cases o <;> simp [madeOn?, numberFor?]
  rw [made, numbers, List.map_reverse, List.map_filterMap]
  exact congrArg (fun f => (past.filterMap f).reverse) hnumber

theorem made_subscribed (event number : Nat) (name : Option String) (past : List Occurrence) :
    made event (.subscribed event number name :: past) = made event past ++ [(number, name)] := by
  have hmade : (Occurrence.subscribed event number name).madeOn? event = some (number, name) :=
    if_pos rfl
  rw [made, List.filterMap_cons_some hmade, List.reverse_cons]
  rfl

theorem made_cons_none (h : o.madeOn? event = none) (past : List Occurrence) :
    made event (o :: past) = made event past :=
  congrArg List.reverse (List.filterMap_cons_none h)

/-- Those that are subscribed are among those that ever were, in the same order. -/
theorem subscribers_sublist_made (event : Nat) (past : List Occurrence) :
    (subscribers event past).Sublist (made event past) := by
  induction past with
  | nil => exact List.Sublist.refl _
  | cons o past ih =>
    by_cases h : o.event? = some event
    · cases o with
      | subscribed i number name =>
        obtain rfl : i = event := Option.some.inj h
        simp only [subscribers, if_true, made_subscribed]
        exact ih.append_right _
      | unsubscribed i number =>
        obtain rfl : i = event := Option.some.inj h
        simp only [subscribers, if_true]
        exact List.filter_sublist.trans ih
      | disposed i =>
        obtain rfl : i = event := Option.some.inj h
        simp only [subscribers, if_true]
        exact List.nil_sublist _
      | fired i value => exact ih
      | settled i => exact ih
      | round _ _ => cases h
      | call _ _ _ => cases h
      | heard _ _ => cases h
      | read _ => cases h
      | reset _ => cases h
    · obtain ⟨_, hs, _⟩ := read_other h past
      have hnone : o.madeOn? event = none := by cases o <;> simp_all [event?, madeOn?]
      rw [hs, made_cons_none hnone]
      exact ih

theorem subscribers_sublist (event : Nat) (past : List Occurrence) :
    ((subscribers event past).map Prod.fst).Sublist (numbers event past).reverse :=
  made_map_fst event past ▸ (subscribers_sublist_made event past).map Prod.fst

namespace Event

def roster (e : Event) : List (Nat × Option String) :=
  e.handlers.map fun (number, handler) => (number, handler.name?)

/-- The event is as the past tells, and values wait for it only in a dispatch. -/
structure Recorded (e : Event) (event : Nat) (past : List Occurrence) : Prop where
  handlers : e.roster = subscribers event past
  numbers : ProofPanel.numbers event past = (List.range e.nextHandler).reverse
  disposed : e.disposed = true ↔ .disposed event ∈ past
  dispatching : e.dispatching = inDispatch event past
  waiting : e.disposed = true ∨ e.dispatching = false → e.queued = []

variable {e : Event}

theorem recorded_nil (event : Nat) : Recorded {} event [] where
  handlers := rfl
  numbers := rfl
  disposed := by simp
  dispatching := rfl
  waiting _ := rfl

theorem Recorded.other (h : e.Recorded event past) (ho : o.event? ≠ some event) :
    e.Recorded event (o :: past) := by
  obtain ⟨hn, hs, hi, hd⟩ := read_other ho past
  exact ⟨hs ▸ h.handlers, hn ▸ h.numbers, h.disposed.trans hd.symm, hi ▸ h.dispatching,
    h.waiting⟩

theorem Recorded.subscribe (h : e.Recorded event past) (handler : Handler) :
    (e.subscribe handler).Recorded event
      (.subscribed event e.nextHandler handler.name? :: past) where
  handlers := by
    simp only [subscribers, if_true, ← h.handlers]
    exact List.map_append
  numbers := by
    rw [numbers_subscribed, h.numbers]
    simp [Event.subscribe, List.range_succ]
  disposed := by simpa [Event.subscribe] using h.disposed
  dispatching := h.dispatching
  waiting := h.waiting

theorem Recorded.unsubscribe (h : e.Recorded event past) (number : Nat) :
    (e.unsubscribe number).Recorded event (.unsubscribed event number :: past) where
  handlers := by
    simp only [subscribers, if_true, ← h.handlers, roster, List.filter_map]
    rfl
  numbers := h.numbers
  disposed := by simpa [Event.unsubscribe] using h.disposed
  dispatching := h.dispatching
  waiting := h.waiting

theorem Recorded.dispose (h : e.Recorded event past) :
    e.dispose.Recorded event (.disposed event :: past) where
  handlers := by simp only [subscribers, if_true]; rfl
  numbers := h.numbers
  disposed := by simp [Event.dispose]
  dispatching := h.dispatching
  waiting _ := rfl

theorem Recorded.begin (h : e.Recorded event past) (hi : e.dispatching = false) (value : Int) :
    e.begin.Recorded event (.fired event value :: past) where
  handlers := h.handlers
  numbers := h.numbers
  disposed := by simpa [Event.begin] using h.disposed
  dispatching := by simp [Event.begin, inDispatch]
  waiting _ := h.waiting (.inr hi)

theorem Recorded.queue (h : e.Recorded event past) (hd : e.disposed = false)
    (hi : e.dispatching = true) (value : Int) :
    (e.queue value).Recorded event (.fired event value :: past) := by
  have hin : inDispatch event (.fired event value :: past) = true := by simp [inDispatch]
  rw [Event.queue]
  split
  · refine ⟨h.handlers, h.numbers, by simpa using h.disposed, hi.trans hin.symm, ?_⟩
    rintro (hd' | hi')
    · exact absurd (hd.symm.trans hd') Bool.false_ne_true
    · exact absurd (hi'.symm.trans hi) Bool.false_ne_true
  · exact ⟨h.handlers, h.numbers, by simpa using h.disposed, hi.trans hin.symm, h.waiting⟩

theorem Recorded.settle (h : e.Recorded event past) :
    e.settle.Recorded event (.settled event :: past) where
  handlers := h.handlers
  numbers := h.numbers
  disposed := by simpa [Event.settle] using h.disposed
  dispatching := by simp [Event.settle, inDispatch]
  waiting _ := rfl

end Event

namespace Bus

/-! ## The event of a number -/

variable {b b' : Bus}

theorem eventAt_eq {e : Event} (h : b.events[event]? = some e) : b.eventAt event = e := by
  rw [eventAt, h]
  rfl

theorem eventAt_congr (h : b'.events = b.events) (event : Nat) :
    b'.eventAt event = b.eventAt event := by
  rw [eventAt, h, eventAt]

theorem lt_of_getElem? {e : Event} (h : b.events[event]? = some e) : event < b.events.length :=
  (List.getElem?_eq_some_iff.mp h).1

theorem eventAt_modifyEvent (b : Bus) {f : Event → Event}
    (hf : event < b.events.length ∨ f {} = {}) :
    (b.modifyEvent event f).eventAt event = f (b.eventAt event) := by
  simp only [eventAt, modifyEvent, List.getElem?_modify_eq]
  cases he : b.events[event]? with
  | some e => rfl
  | none =>
    have hlen := List.getElem?_eq_none_iff.mp he
    exact (hf.resolve_left (by omega)).symm

theorem eventAt_modifyEvent_ne (b : Bus) (h : event ≠ i) (f : Event → Event) :
    (b.modifyEvent event f).eventAt i = b.eventAt i := by
  simp only [eventAt, modifyEvent, List.getElem?_modify_ne _ _ h]

theorem eventAt_change (h : event < b.events.length) (o : Occurrence) (f : Event → Event) :
    (b.change event o f).eventAt event = f (b.eventAt event) := by
  rw [change, if_pos h]
  exact b.eventAt_modifyEvent (.inl h)

theorem eventAt_change_ne (b : Bus) (h : event ≠ i) (o : Occurrence) (f : Event → Event) :
    (b.change event o f).eventAt i = b.eventAt i := by
  rw [change]
  split
  · exact b.eventAt_modifyEvent_ne h f
  · rfl

theorem past_change (h : event < b.events.length) (o : Occurrence) (f : Event → Event) :
    (b.change event o f).past = o :: b.past := by
  rw [change, if_pos h]
  rfl

theorem eventAt_addEvent (b : Bus) (event : Nat) :
    b.addEvent.1.eventAt event = b.eventAt event := by
  simp only [eventAt, addEvent]
  rcases Nat.lt_trichotomy event b.events.length with h | h | h
  · rw [List.getElem?_append_left h]
  · rw [h, List.getElem?_concat_length, List.getElem?_eq_none_iff.mpr (Nat.le_refl _)]
    rfl
  · rw [List.getElem?_eq_none_iff.mpr (Nat.le_of_lt h), List.getElem?_eq_none_iff.mpr]
    rw [List.length_append]
    exact h

theorem eventAt_settle (b : Bus) (event : Nat) :
    (b.settle event).eventAt event = (b.eventAt event).settle :=
  b.eventAt_modifyEvent (.inr rfl)

theorem eventAt_settle_ne (b : Bus) (h : event ≠ i) : (b.settle event).eventAt i = b.eventAt i :=
  b.eventAt_modifyEvent_ne h _

theorem takeNext?_eq_none : b.takeNext? event = none ↔ (b.eventAt event).queued = [] := by
  rw [takeNext?]
  cases (b.eventAt event).queued <;> simp

theorem takeNext?_eq_some {value : Int} (h : b.takeNext? event = some (value, b')) :
    ∃ waiting, (b.eventAt event).queued = value :: waiting ∧ b'.past = b.past ∧
      b'.eventAt event = { b.eventAt event with queued := waiting } ∧
      ∀ i, event ≠ i → b'.eventAt i = b.eventAt i := by
  rw [takeNext?] at h
  cases hq : (b.eventAt event).queued with
  | nil => rw [hq] at h; cases h
  | cons next waiting =>
    rw [hq] at h
    cases h
    have hlen : event < b.events.length := by
      by_contra hlen
      rw [eventAt, List.getElem?_eq_none_iff.mpr (Nat.le_of_not_lt hlen)] at hq
      cases hq
    exact ⟨waiting, rfl, rfl, b.eventAt_modifyEvent (.inl hlen),
      fun i hi => b.eventAt_modifyEvent_ne hi _⟩

/-! ## Every execution keeps to the past -/

def Recorded (b : Bus) : Prop := ∀ event, (b.eventAt event).Recorded event b.past

theorem Recorded.change (hb : b.Recorded) {e : Event} (he : b.events[event]? = some e)
    (ho : o.event? = some event) {f : Event → Event}
    (hf : e.Recorded event b.past → (f e).Recorded event (o :: b.past)) :
    (b.change event o f).Recorded := by
  have hlen := lt_of_getElem? he
  have hevent := hb event
  rw [eventAt_eq he] at hevent
  intro i
  rw [past_change hlen]
  by_cases h : event = i
  · rw [← h, eventAt_change hlen, eventAt_eq he]
    exact hf hevent
  · rw [eventAt_change_ne b h]
    exact (hb i).other (by rw [ho]; exact fun he => h (Option.some.inj he))

theorem Recorded.begin (hb : b.Recorded) {e : Event} (he : b.events[event]? = some e)
    (hi : e.dispatching = false) (value : Int) :
    (b.change event (.fired event value) Event.begin).Recorded :=
  hb.change he rfl fun hr => hr.begin hi value

theorem Recorded.record (hb : b.Recorded) (ho : o.event? = none) : (b.record o).Recorded :=
  fun i => (hb i).other (by rw [ho]; exact nofun)

theorem Recorded.append (hb : b.Recorded) (he : b'.events = b.events) {t : List Occurrence}
    (hp : b'.past = t ++ b.past) (ht : ∀ o ∈ t, o.event? = none) : b'.Recorded := by
  intro i
  rw [eventAt_congr he, hp]
  clear hp
  induction t with
  | nil => exact hb i
  | cons o t ih =>
    refine (ih fun o ho => ht o (List.mem_cons_of_mem _ ho)).other ?_
    rw [ht o List.mem_cons_self]
    exact nofun

theorem Recorded.settle (hb : b.Recorded) (event : Nat) : (b.settle event).Recorded := by
  intro i
  by_cases h : event = i
  · rw [← h, eventAt_settle]
    exact (hb event).settle
  · rw [eventAt_settle_ne b h]
    exact (hb i).other fun he => h (Option.some.inj he)

theorem Recorded.takeNext (hb : b.Recorded) {value : Int}
    (h : b.takeNext? event = some (value, b')) : b'.Recorded := by
  obtain ⟨waiting, hq, hp, he, hother⟩ := takeNext?_eq_some h
  intro i
  rw [hp]
  by_cases hi : event = i
  · rw [← hi, he]
    have hr := hb event
    refine ⟨hr.handlers, hr.numbers, hr.disposed, hr.dispatching, fun hrest => ?_⟩
    have hnil := hr.waiting hrest
    rw [hq] at hnil
    cases hnil
  · rw [hother i hi]
    exact hb i

theorem event?_of_aside (h : o.isAside = true) : o.event? = none := by
  cases o <;> first | rfl | cases h

theorem Alters.recorded {action : Action} {t : List Occurrence} (h : Alters action b t b')
    (hb : b.Recorded) : b'.Recorded := by
  induction h with
  | aside _ he hp ht => exact hb.append he hp fun o ho => event?_of_aside (ht o ho)
  | created _ =>
    intro i
    rw [eventAt_addEvent]
    exact hb i
  | subscribed _ he _ => exact hb.change he rfl fun hr => hr.subscribe _
  | unsubscribed hlen =>
    exact hb.change (List.getElem?_eq_getElem hlen) rfl fun hr => hr.unsubscribe _
  | disposed hlen => exact hb.change (List.getElem?_eq_getElem hlen) rfl fun hr => hr.dispose
  | trans _ _ ih ih' => exact ih' (ih hb)

theorem Does.recorded {job : Job} {t : List Occurrence} (h : Does b job t b') (hb : b.Recorded) :
    b'.Recorded := by
  induction h with
  | skips _ => exact hb
  | leads _ _ ih => exact ih hb
  | queued he hd hi => exact hb.change he rfl fun hr => hr.queue hd hi _
  | dispatched he _ hi _ ih => exact ih (hb.begin he hi _)
  | cut _ => exact hb.settle _
  | last _ _ _ ih => exact (ih (hb.record rfl)).settle _
  | next _ _ hn _ ih ih' => exact ih' ((ih (hb.record rfl)).takeNext hn)
  | gone _ _ ih => exact ih hb
  | called _ _ _ ih ih' => exact ih' (ih (hb.record rfl))
  | listener _ ih => exact ih (hb.record rfl)
  | folding _ _ ih => exact ih hb
  | acted _ _ ih ih' => exact ih' (ih hb)
  | managed _ ha => exact ha.recorded hb

theorem Alters.past_eq {action : Action} {t : List Occurrence} (h : Alters action b t b') :
    b'.past = t ++ b.past := by
  induction h with
  | aside _ _ hp _ => exact hp
  | created _ => rfl
  | subscribed _ he _ => exact past_change (lt_of_getElem? he) _ _
  | unsubscribed hlen => exact past_change hlen _ _
  | disposed hlen => exact past_change hlen _ _
  | trans _ _ ih ih' => rw [ih', ih, List.append_assoc]

theorem Does.past_eq {job : Job} {t : List Occurrence} (h : Does b job t b') :
    b'.past = t ++ b.past := by
  induction h with
  | skips _ => rfl
  | leads _ _ ih => exact ih
  | queued he _ _ => exact past_change (lt_of_getElem? he) _ _
  | dispatched he _ _ _ ih =>
    rw [ih, past_change (lt_of_getElem? he), List.append_assoc]
    rfl
  | cut _ => rfl
  | last _ _ _ ih => exact congrArg (List.cons _) (ih.trans (List.append_cons _ _ _))
  | next _ _ hn _ ih ih' =>
    obtain ⟨_, _, hp, _⟩ := takeNext?_eq_some hn
    rw [ih', hp, ih, List.append_assoc, List.append_assoc]
    rfl
  | gone _ _ ih => exact ih
  | called _ _ _ ih ih' =>
    rw [ih', ih, List.append_assoc, List.append_assoc]
    rfl
  | listener _ ih =>
    rw [ih, List.append_assoc]
    rfl
  | folding _ _ ih => exact ih
  | acted _ _ ih ih' => rw [ih', ih, List.append_assoc]
  | managed _ ha => exact ha.past_eq

end Bus

end ProofPanel
