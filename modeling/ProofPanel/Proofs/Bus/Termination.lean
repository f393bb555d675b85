import Mathlib.Data.Finset.Card
import ProofPanel.Proofs.Bus.Queue

/-!
# Termination

Where no handler makes new events, every fire comes to an end, however the handlers fire into one
another. A dispatch inside another one is of an event that was idle, so that fewer are idle within
it. Within one dispatch the values that wait and those that there is room for become fewer from
round to round; within one round so do the handlers that are left, and within one call what is left
of the handler's body.
-/
namespace ProofPanel

open Occurrence

/-! ## Confined handlers -/

abbrev Looking := ((past : List Occurrence) → Body) → Prop

def anyLook : Looking := fun _ => True

/-- How a handler goes on depends only on what is kept in memory of the past. -/
def lookingAt {Memory : Type} (memory : List Occurrence → Memory) : Looking :=
  fun next => ∀ past past', memory past = memory past' → next past = next past'

mutual

/-- Neither the action nor a handler that comes with it makes a new event or signal. -/
def Action.Confined (looks : Looking) : Action → Prop
  | .newEvent _ => False
  | .newSignal _ _ _ _ => False
  | .listen _ _ body => ∀ value, (body value).Confined looks
  | _ => True

def Body.Confined (looks : Looking) : Body → Prop
  | .done => True
  | .act action rest => action.Confined looks ∧ rest.Confined looks
  | .look next => looks next ∧ ∀ past, (next past).Confined looks

end

def Action.Brings (looks : Looking) : Action → Prop
  | .listen _ _ body => ∀ value, (body value).Confined looks
  | _ => True

def Handler.Confined (looks : Looking) : Handler → Prop
  | .listener _ body => ∀ value, (body value).Confined looks
  | .folding _ => True

variable {looks : Looking}

theorem Action.Confined.brings {action : Action} (h : action.Confined looks) :
    action.Brings looks := by
  cases action <;> first | exact trivial | exact h

theorem Action.Confined.not_creates {action : Action} (h : action.Confined looks) :
    ¬ action.Creates := by
  intro hcreates
  cases action <;> first | exact h | exact hcreates

theorem Action.Adds.confined {action : Action} {routines : String → Int → Body}
    {handler : Handler} (h : action.Adds routines handler)
    (hroutines : ∀ routine value, (routines routine value).Confined looks)
    (haction : action.Brings looks) : handler.Confined looks := by
  cases action with
  | newSignal _ _ _ _ =>
    obtain ⟨signal, rfl⟩ := h
    exact trivial
  | listen event name body =>
    obtain rfl : handler = .listener name body := h
    exact haction
  | enlist event name routine =>
    obtain rfl : handler = .listener name (routines routine) := h
    exact hroutines routine
  | _ => exact absurd h id

namespace Bus

variable {b b' : Bus} {action : Action} {event : Nat} {t : List Occurrence}

structure Confined (looks : Looking) (b : Bus) : Prop where
  routines : ∀ routine value, (b.routines routine value).Confined looks
  handlers : ∀ event, ∀ p ∈ (b.eventAt event).handlers, p.2.Confined looks

def Job.Confined (looks : Looking) : Job → Prop
  | .fire _ _ | .rounds _ _ => True
  | .turns _ _ handlers => ∀ p ∈ handlers, p.2.Confined looks
  | .call _ handler => handler.Confined looks
  | .run _ body => body.Confined looks
  | .act _ action => action.Confined looks

theorem Confined.of_events (hb : b.Confined looks) (hr : b'.routines = b.routines)
    (he : b'.events = b.events) : b'.Confined looks := by
  refine ⟨hr ▸ hb.routines, fun event => ?_⟩
  rw [eventAt_congr he]
  exact hb.handlers event

theorem routines_change (b : Bus) (event : Nat) (o : Occurrence) (f : Event → Event) :
    (b.change event o f).routines = b.routines := by
  rw [change]
  split <;> rfl

theorem length_change (b : Bus) (event : Nat) (o : Occurrence) (f : Event → Event) :
    (b.change event o f).events.length = b.events.length := by
  rw [change]
  split
  · exact List.length_modify _ _ _
  · rfl

theorem Confined.change (hb : b.Confined looks) (event : Nat) (o : Occurrence) {f : Event → Event}
    (hf : ∀ e : Event, (∀ p ∈ e.handlers, p.2.Confined looks) →
      ∀ p ∈ (f e).handlers, p.2.Confined looks) :
    (b.change event o f).Confined looks := by
  refine ⟨by rw [routines_change]; exact hb.routines, fun i => ?_⟩
  by_cases hlen : event < b.events.length
  · by_cases h : event = i
    · subst h
      rw [eventAt_change hlen]
      exact hf _ (hb.handlers event)
    · rw [eventAt_change_ne b h]
      exact hb.handlers i
  · rw [change_eq_self hlen]
    exact hb.handlers i

theorem Confined.settle (hb : b.Confined looks) (event : Nat) :
    (b.settle event).Confined looks := by
  refine ⟨hb.routines, fun i => ?_⟩
  by_cases h : event = i
  · subst h
    rw [eventAt_settle]
    exact hb.handlers event
  · rw [eventAt_settle_ne b h]
    exact hb.handlers i

theorem takeNext?_events {value : Int} (h : b.takeNext? event = some (value, b')) :
    b'.routines = b.routines ∧ b'.events.length = b.events.length ∧
      ∀ i, (b'.eventAt i).handlers = (b.eventAt i).handlers := by
  obtain ⟨waiting, _, _, he, hother⟩ := takeNext?_eq_some h
  rw [takeNext?] at h
  split at h
  · cases h
  · cases h
    refine ⟨rfl, List.length_modify _ _ _, fun i => ?_⟩
    by_cases hi : event = i
    · rw [← hi, he]
    · rw [hother i hi]

theorem Confined.takeNext (hb : b.Confined looks) {value : Int}
    (h : b.takeNext? event = some (value, b')) : b'.Confined looks := by
  obtain ⟨hr, _, hh⟩ := takeNext?_events h
  exact ⟨hr ▸ hb.routines, fun i => hh i ▸ hb.handlers i⟩

theorem Alters.confined (h : Alters action b t b') (haction : action.Brings looks)
    (hb : b.Confined looks) : b'.Confined looks := by
  induction h with
  | aside hr he _ _ => exact hb.of_events hr he
  | created _ => exact ⟨hb.routines, fun event => by rw [eventAt_addEvent]; exact hb.handlers event⟩
  | subscribed hadds _ _ =>
    have hhandler := hadds.confined hb.routines haction
    refine hb.change _ _ fun e he => ?_
    exact List.forall_mem_append.mpr ⟨he, List.forall_mem_singleton.mpr hhandler⟩
  | unsubscribed _ => exact hb.change _ _ fun e he p hp => he p (List.mem_of_mem_filter hp)
  | disposed _ => exact hb.change _ _ fun e he => nofun
  | trans _ _ ih ih' => exact ih' (ih hb)

theorem Alters.length_eq (h : Alters action b t b') (haction : ¬ action.Creates) :
    b'.events.length = b.events.length := by
  induction h with
  | aside _ he _ _ => rw [he]
  | created hcreates => exact absurd hcreates haction
  | subscribed _ _ _ => exact length_change _ _ _ _
  | unsubscribed _ => exact length_change _ _ _ _
  | disposed _ => exact length_change _ _ _ _
  | trans _ _ ih ih' => rw [ih', ih]

/-- What is confined stays so, and there are as many events as before. -/
theorem Does.confined {job : Job} (h : Does b job t b') (hjob : job.Confined looks)
    (hb : b.Confined looks) : b'.Confined looks ∧ b'.events.length = b.events.length := by
  induction h with
  | skips _ => exact ⟨hb, rfl⟩
  | leads h _ ih =>
    refine ih ?_ hb
    cases h with
    | looked => exact hjob.2 _
    | fired _ => exact trivial
  | queued _ _ _ =>
    refine ⟨hb.change _ _ fun e he => ?_, length_change _ _ _ _⟩
    rw [Event.queue]
    split <;> exact he
  | dispatched _ _ _ _ ih =>
    obtain ⟨hb', hlen⟩ := ih trivial (hb.change _ _ fun e he => he)
    exact ⟨hb', hlen.trans (length_change _ _ _ _)⟩
  | cut _ => exact ⟨hb.settle _, List.length_modify _ _ _⟩
  | last _ _ _ ih =>
    obtain ⟨hb', hlen⟩ := ih (hb.handlers _) (hb.of_events rfl rfl)
    exact ⟨hb'.settle _, (List.length_modify _ _ _).trans hlen⟩
  | next _ _ hn _ ih ih' =>
    obtain ⟨hb₁, hlen⟩ := ih (hb.handlers _) (hb.of_events rfl rfl)
    obtain ⟨_, hlen₂, _⟩ := takeNext?_events hn
    obtain ⟨hb', hlen'⟩ := ih' trivial (hb₁.takeNext hn)
    exact ⟨hb', hlen'.trans (hlen₂.trans hlen)⟩
  | gone _ _ ih => exact ih (List.forall_mem_cons.mp hjob).2 hb
  | called _ _ _ ih ih' =>
    obtain ⟨hhead, hrest⟩ := List.forall_mem_cons.mp hjob
    obtain ⟨hb₁, hlen⟩ := ih hhead (hb.of_events rfl rfl)
    obtain ⟨hb', hlen'⟩ := ih' hrest hb₁
    exact ⟨hb', hlen'.trans hlen⟩
  | listener _ ih => exact ih (hjob _) (hb.of_events rfl rfl)
  | folding _ _ ih => exact ih trivial (hb.of_events rfl rfl)
  | acted _ _ ih ih' =>
    obtain ⟨hb₁, hlen⟩ := ih hjob.1 hb
    obtain ⟨hb', hlen'⟩ := ih' hjob.2 hb₁
    exact ⟨hb', hlen'.trans hlen⟩
  | managed _ ha => exact ⟨ha.confined hjob.brings hb, ha.length_eq hjob.not_creates⟩

/-! ## The measure -/

def idle (b : Bus) : Finset Nat :=
  (Finset.range b.events.length).filter fun event => (b.eventAt event).dispatching = false

theorem idle_eq (hlen : b'.events.length = b.events.length)
    (h : ∀ event, (b'.eventAt event).dispatching = (b.eventAt event).dispatching) :
    b'.idle = b.idle := by
  simp only [idle, hlen, h]

theorem idle_begin {e : Event} (he : b.events[event]? = some e) (hi : e.dispatching = false)
    (o : Occurrence) : (b.change event o Event.begin).idle.card < b.idle.card := by
  have hlen := lt_of_getElem? he
  refine Finset.card_lt_card (Finset.ssubset_iff_subset_ne.mpr ⟨fun i hmem => ?_, fun heq => ?_⟩)
  · rw [idle, Finset.mem_filter, length_change] at hmem
    rw [idle, Finset.mem_filter]
    by_cases h : event = i
    · exact ⟨hmem.1, by rw [← h, eventAt_eq he, hi]⟩
    · rw [eventAt_change_ne b h] at hmem
      exact hmem
  · have hmem : event ∈ b.idle :=
      Finset.mem_filter.mpr ⟨Finset.mem_range.mpr hlen, by rw [eventAt_eq he, hi]⟩
    rw [← heq, idle, Finset.mem_filter, eventAt_change hlen] at hmem
    exact absurd hmem.2 Bool.true_eq_false.mp

structure Within (looks : Looking) (n : Nat) (b : Bus) : Prop where
  recorded : b.Recorded
  confined : b.Confined looks
  idle : b.idle.card = n

variable {n : Nat}

theorem Within.of_events (hb : b.Within looks n) {o : Option Occurrence}
    (ho : ∀ o' ∈ o, o'.event? = none) (hr : b'.routines = b.routines) (he : b'.events = b.events)
    (hp : b'.past = o.toList ++ b.past) : b'.Within looks n := by
  refine ⟨hb.recorded.append he hp fun o' h => ho o' (Option.mem_toList.mp h),
    hb.confined.of_events hr he, ?_⟩
  have hidle : b'.idle = b.idle :=
    idle_eq (congrArg List.length he) fun event => by rw [eventAt_congr he]
  exact hidle ▸ hb.idle

theorem Within.record (hb : b.Within looks n) {o : Occurrence} (ho : o.event? = none) :
    (b.record o).Within looks n := by
  have hone : ∀ o' ∈ some o, o'.event? = none := by
    rintro _ ⟨⟩
    exact ho
  exact hb.of_events hone rfl rfl rfl

theorem Within.takeNext (hb : b.Within looks n) {value : Int}
    (h : b.takeNext? event = some (value, b')) : b'.Within looks n := by
  obtain ⟨_, hlen, _⟩ := takeNext?_events h
  refine ⟨hb.recorded.takeNext h, hb.confined.takeNext h, ?_⟩
  rw [idle_eq hlen (dispatching_takeNext h)]
  exact hb.idle

theorem Does.within {job : Job} (h : Does b job t b') (hjob : job.Confined looks)
    (hrounds : ∀ event, job.isRoundsOf event = false) (hb : b.Within looks n) :
    b'.Within looks n := by
  obtain ⟨hconfined, hlen⟩ := h.confined hjob hb.confined
  refine ⟨h.recorded hb.recorded, hconfined, ?_⟩
  rw [idle_eq hlen fun event => by rw [h.dispatching_eq event, hrounds]; rfl]
  exact hb.idle

/-! ## Every job comes to an end -/

def Returns (b : Bus) (job : Job) : Prop := ∃ t b', Does b job t b'

theorem act_returns (hfire : ∀ event value, b.Returns (.fire event value)) (handled : Int)
    (action : Action) : b.Returns (.act handled action) := by
  by_cases h : ∃ name amount, action = .fire name amount
  · obtain ⟨name, amount, rfl⟩ := h
    cases hname : b.eventNames.get? name with
    | none => exact ⟨_, _, .skips (.act hname)⟩
    | some event =>
      obtain ⟨t, b', ht⟩ := hfire event (amount.value handled)
      exact ⟨_, _, .leads (.fired hname) ht⟩
  · obtain ⟨t, ht⟩ := b.manage_alters action
    exact ⟨_, _, .managed (fun name amount heq => h ⟨name, amount, heq⟩) ht⟩

section

-- What is fired within a dispatch comes to an end.
variable (hfire : ∀ b : Bus, b.Within looks n → ∀ event value, b.Returns (.fire event value))
include hfire

theorem run_returns (handled : Int) :
    ∀ (body : Body) (b : Bus), body.Confined looks → b.Within looks n →
      b.Returns (.run handled body)
  | .done, _, _, _ => ⟨_, _, .skips .run⟩
  | .act action rest, b, hbody, hb => by
    obtain ⟨t, b₁, ht⟩ := act_returns (hfire b hb) handled action
    have hb₁ := ht.within hbody.1 (fun _ => rfl) hb
    obtain ⟨t', b', ht'⟩ := run_returns handled rest b₁ hbody.2 hb₁
    exact ⟨_, _, .acted ht ht'⟩
  | .look next, b, hbody, hb => by
    obtain ⟨t, b', ht⟩ := run_returns handled (next b.past) b (hbody.2 b.past) hb
    exact ⟨_, _, .leads .looked ht⟩

theorem call_returns (hb : b.Within looks n) (value : Int) {handler : Handler}
    (hhandler : handler.Confined looks) : b.Returns (.call value handler) := by
  cases handler with
  | listener name body =>
    obtain ⟨t, b', ht⟩ := run_returns hfire value (body value) (b.record (.heard name value))
      (hhandler value) (hb.record rfl)
    exact ⟨_, _, .listener ht⟩
  | folding signal =>
    cases hs : b.signals[signal]? with
    | none => exact ⟨_, _, .skips (.call hs)⟩
    | some s =>
      have hfolded : (b.modifySignal signal fun s' =>
          { s' with current := s.fold.apply s.current value }).Within looks n :=
        hb.of_events (o := none) nofun rfl rfl rfl
      obtain ⟨t, b', ht⟩ := hfire _ hfolded s.event (s.fold.apply s.current value)
      exact ⟨_, _, .folding hs ht⟩

theorem turns_returns (event : Nat) (value : Int) {handlers : List (Nat × Handler)}
    (hhandlers : ∀ p ∈ handlers, p.2.Confined looks) (hb : b.Within looks n) :
    b.Returns (.turns event value handlers) := by
  induction handlers generalizing b with
  | nil => exact ⟨_, _, .skips .turns⟩
  | cons p rest ih =>
    obtain ⟨number, handler⟩ := p
    obtain ⟨hhead, hrest⟩ := List.forall_mem_cons.mp hhandlers
    cases hs : b.isSubscribed event number with
    | false =>
      obtain ⟨t, b', ht⟩ := ih hrest hb
      exact ⟨_, _, .gone hs ht⟩
    | true =>
      have hcalled : (b.record (.call event number value)).Within looks n := hb.record rfl
      obtain ⟨t, b₁, ht⟩ := call_returns hfire hcalled value hhead
      have hb₁ := ht.within hhead (fun _ => rfl) hcalled
      obtain ⟨t', b', ht'⟩ := ih hrest hb₁
      exact ⟨_, _, .called hs ht ht'⟩

/-- From round to round there are fewer values that wait and that there is room for. -/
theorem rounds_returns (event : Nat) (value : Int) (hb : b.Within looks n)
    (hi : (b.eventAt event).dispatching = true) : b.Returns (.rounds event value) := by
  induction hk : (b.eventAt event).queued.length + (Event.maxRefires - (b.eventAt event).refires)
    using Nat.strong_induction_on generalizing b value with
  | _ k ih =>
  cases hd : (b.eventAt event).disposed with
  | true => exact ⟨_, _, .cut hd⟩
  | false =>
    have hhandlers := hb.confined.handlers event
    have hround : (b.record (.round event value)).Within looks n := hb.record rfl
    obtain ⟨t, b₁, ht⟩ := turns_returns hfire event value hhandlers hround
    have hb₁ := ht.within hhandlers (fun _ => rfl) hround
    cases hn : b₁.takeNext? event with
    | none => exact ⟨_, _, .last hd ht hn⟩
    | some p =>
      obtain ⟨value', b₂⟩ := p
      obtain ⟨waiting, hq, _, he, _⟩ := takeNext?_eq_some hn
      have hi₂ : (b₂.eventAt event).dispatching = true :=
        (dispatching_takeNext hn event).trans ((ht.dispatching_eq event).trans hi)
      have hgoes : (b.eventAt event).Goes event t (b₁.eventAt event) := ht.goes rfl hi
      -- Were the event disposed in the round, nothing would wait.
      have hnd : .disposed event ∉ t := by
        intro hmem
        have hdisposed := (hb₁.recorded event).disposed.mpr
          (ht.past_eq ▸ List.mem_append_left _ hmem)
        have hnil := (hb₁.recorded event).waiting (.inl hdisposed)
        rw [hq] at hnil
        cases hnil
      have hlength := congrArg List.length (hgoes.queued hnd)
      rw [hq, List.length_append, List.length_cons, List.length_take] at hlength
      have hrefires := hgoes.refires
      rw [List.length_take] at hrefires
      have hless : (b₂.eventAt event).queued.length +
          (Event.maxRefires - (b₂.eventAt event).refires) < k := by
        rw [he, ← hk]
        dsimp only
        omega
      obtain ⟨t', b', ht'⟩ := ih _ hless value' (hb₁.takeNext hn) hi₂ rfl
      exact ⟨_, _, .next hd ht hn ht'⟩

end

/-- Every fire comes to an end: a dispatch within a dispatch leaves fewer events idle. -/
theorem fire_returns (hr : b.Recorded) (hc : b.Confined looks) (event : Nat) (value : Int) :
    b.Returns (.fire event value) := by
  induction hn : b.idle.card using Nat.strong_induction_on generalizing b event value with
  | _ n ih =>
  cases he : b.events[event]? with
  | none => exact ⟨_, _, .skips (.fire fun e h => by rw [he] at h; cases h)⟩
  | some e =>
    cases hd : e.disposed with
    | true => exact ⟨_, _, .skips (.fire fun e' h => by rw [he] at h; cases h; exact hd)⟩
    | false =>
      cases hi : e.dispatching with
      | true => exact ⟨_, _, .queued he hd hi⟩
      | false =>
        have hlen := lt_of_getElem? he
        have hless := idle_begin he hi (.fired event value)
        rw [hn] at hless
        have hbegun : (b.change event (.fired event value) Event.begin).Within looks _ :=
          ⟨hr.begin he hi value, hc.change _ _ fun e he => he, rfl⟩
        have hwithin : ((b.change event (.fired event value) Event.begin).eventAt
            event).dispatching = true := by rw [eventAt_change hlen]; rfl
        obtain ⟨t, b', ht⟩ := rounds_returns
          (fun b hb event value => ih _ hless hb.recorded hb.confined event value hb.idle)
          event value hbegun hwithin
        exact ⟨_, _, .dispatched he hd hi ht⟩

end Bus

end ProofPanel
