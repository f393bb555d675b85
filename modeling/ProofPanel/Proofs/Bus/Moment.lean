import Mathlib.Logic.Relation
import ProofPanel.Proofs.Bus.Past

/-!
# Moments

Whoever acts on the bus finds it as it is at that moment: between two actions from outside, or in
the course of one, at some point of a handler's body. An execution need not come to an end for
that. At every moment some rounds are under way, the one inside the other. What every move of an
execution keeps, of the bus and of these rounds, holds at all moments.
-/
namespace ProofPanel.Bus

open Relation

/-! ## Moves -/

/-- A round under way: its value and the handlers whose turns are still to come. -/
structure Frame where
  event : Nat
  value : Int
  rest : List (Nat × Handler)

inductive Opens (b : Bus) (event : Nat) (value : Int) (ds : List Frame) :
    Bus × List Frame → Prop
  | cut : (b.eventAt event).disposed = true → Opens b event value ds (b.settle event, ds)
  | round : (b.eventAt event).disposed = false → Opens b event value ds
    (b.record (.round event value), ⟨event, value, (b.eventAt event).handlers⟩ :: ds)

inductive Starts (b : Bus) (event : Nat) (value : Int) (ds : List Frame) :
    Bus × List Frame → Prop
  | skipped : (∀ e, b.events[event]? = some e → e.disposed = true) →
    Starts b event value ds (b, ds)
  | queued {e : Event} : b.events[event]? = some e → e.disposed = false → e.dispatching = true →
    Starts b event value ds (b.change event (.fired event value) (·.queue value), ds)
  | opened {e : Event} {q : Bus × List Frame} : b.events[event]? = some e →
    e.disposed = false → e.dispatching = false →
    Opens (b.change event (.fired event value) Event.begin) event value ds q →
    Starts b event value ds q

inductive Enters (b : Bus) (value : Int) (ds : List Frame) :
    Handler → Bus × List Frame → Prop
  | listener {name : String} {body : Int → Body} :
    Enters b value ds (.listener name body) (b.record (.heard name value), ds)
  | unknown {signal : Nat} : b.signals[signal]? = none → Enters b value ds (.folding signal) (b, ds)
  | folding {signal : Nat} {s : Signal} {q : Bus × List Frame} : b.signals[signal]? = some s →
    Starts (b.modifySignal signal fun s' => { s' with current := s.fold.apply s.current value })
      s.event (s.fold.apply s.current value) ds q →
    Enters b value ds (.folding signal) q

/-- One move of an execution. What the body of a handler does next may be anything. -/
inductive Moves : Bus × List Frame → Bus × List Frame → Prop
  | managed {b : Bus} {ds : List Frame} {action : Action} : Moves (b, ds) (b.manage action, ds)
  | fired {b : Bus} {ds : List Frame} {name : String} {event : Nat} {value : Int}
      {q : Bus × List Frame} : b.eventNames.get? name = some event →
    Starts b event value ds q → Moves (b, ds) q
  | gone {b : Bus} {ds : List Frame} {event number : Nat} {value : Int} {handler : Handler}
      {rest : List (Nat × Handler)} : b.isSubscribed event number = false →
    Moves (b, ⟨event, value, (number, handler) :: rest⟩ :: ds) (b, ⟨event, value, rest⟩ :: ds)
  | called {b : Bus} {ds : List Frame} {event number : Nat} {value : Int} {handler : Handler}
      {rest : List (Nat × Handler)} {q : Bus × List Frame} :
    b.isSubscribed event number = true →
    Enters (b.record (.call event number value)) value (⟨event, value, rest⟩ :: ds) handler q →
    Moves (b, ⟨event, value, (number, handler) :: rest⟩ :: ds) q
  | next {b b' : Bus} {ds : List Frame} {event : Nat} {value value' : Int}
      {q : Bus × List Frame} : b.takeNext? event = some (value', b') →
    Opens b' event value' ds q → Moves (b, ⟨event, value, []⟩ :: ds) q
  | settled {b : Bus} {ds : List Frame} {event : Nat} {value : Int} :
    b.takeNext? event = none → Moves (b, ⟨event, value, []⟩ :: ds) (b.settle event, ds)

/-- From here the next thing to happen is the job, on that bus and inside of those rounds. -/
def Awaits (p : Bus × List Frame) (b : Bus) (ds : List Frame) : Job → Prop
  | .fire event value => ∀ q, Starts b event value ds q → Moves p q
  | .rounds event value => ∀ q, Opens b event value ds q → Moves p q
  | .turns event value handlers => p = (b, ⟨event, value, handlers⟩ :: ds)
  | .call value handler => ∀ q, Enters b value ds handler q → Moves p q
  | .run _ _ | .act _ _ => p = (b, ds)

def Job.leaves (ds : List Frame) : Job → List Frame
  | .turns event value _ => ⟨event, value, []⟩ :: ds
  | _ => ds

variable {b b' c : Bus} {t : List Occurrence} {p q : Bus × List Frame} {ds : List Frame}

theorem Does.moves {job : Job} (h : Does b job t b') (hp : Awaits p b ds job) :
    ReflTransGen Moves p (b', job.leaves ds) := by
  induction h generalizing p ds with
  | skips h =>
    cases h with
    | fire h => exact .single (hp _ (.skipped h))
    | turns => rw [hp]; exact .refl
    | call h => exact .single (hp _ (.unknown h))
    | run => rw [hp]; exact .refl
    | act _ => rw [hp]; exact .refl
  | leads h _ ih =>
    cases h with
    | looked => exact ih hp
    | fired h => exact ih fun q hq => hp ▸ .fired h hq
  | queued he hd hi => exact .single (hp _ (.queued he hd hi))
  | dispatched he hd hi _ ih => exact ih fun q hq => hp q (.opened he hd hi hq)
  | cut hd => exact .single (hp _ (.cut hd))
  | last hd _ hn ih => exact (ReflTransGen.head (hp _ (.round hd)) (ih rfl)).tail (.settled hn)
  | next hd _ hn _ ih ih' =>
    exact (ReflTransGen.head (hp _ (.round hd)) (ih rfl)).trans (ih' fun q hq => .next hn hq)
  | gone hs _ ih => exact .head (hp ▸ .gone hs) (ih rfl)
  | called hs _ _ ih ih' => exact (ih fun q hq => hp ▸ .called hs hq).trans (ih' rfl)
  | listener _ ih => exact .head (hp _ .listener) (ih rfl)
  | folding hs _ ih => exact ih fun q hq => hp q (.folding hs hq)
  | acted _ _ ih ih' => exact (ih hp).trans (ih' rfl)
  | managed _ _ => exact .single (hp ▸ .managed)

/-! ## Parts of a job -/

/-- In the course of a job on one bus, another bus comes to do another job. -/
inductive Part : Bus × Job → Bus × Job → Prop
  | leads {b : Bus} {job job' : Job} : b.Leads job job' → Part (b, job) (b, job')
  | rounds {b : Bus} {event : Nat} {value : Int} {e : Event} :
    b.events[event]? = some e → e.disposed = false → e.dispatching = false →
    Part (b, .fire event value)
      (b.change event (.fired event value) Event.begin, .rounds event value)
  | turns {b : Bus} {event : Nat} {value : Int} : (b.eventAt event).disposed = false →
    Part (b, .rounds event value)
      (b.record (.round event value), .turns event value (b.eventAt event).handlers)
  | next {b b₁ b₂ : Bus} {event : Nat} {value value' : Int} {t : List Occurrence} :
    (b.eventAt event).disposed = false →
    Does (b.record (.round event value)) (.turns event value (b.eventAt event).handlers) t b₁ →
    b₁.takeNext? event = some (value', b₂) →
    Part (b, .rounds event value) (b₂, .rounds event value')
  | gone {b : Bus} {event number : Nat} {value : Int} {handler : Handler}
      {rest : List (Nat × Handler)} : b.isSubscribed event number = false →
    Part (b, .turns event value ((number, handler) :: rest)) (b, .turns event value rest)
  | called {b : Bus} {event number : Nat} {value : Int} {handler : Handler}
      {rest : List (Nat × Handler)} : b.isSubscribed event number = true →
    Part (b, .turns event value ((number, handler) :: rest))
      (b.record (.call event number value), .call value handler)
  | returned {b b₁ : Bus} {event number : Nat} {value : Int} {handler : Handler}
      {rest : List (Nat × Handler)} {t : List Occurrence} : b.isSubscribed event number = true →
    Does (b.record (.call event number value)) (.call value handler) t b₁ →
    Part (b, .turns event value ((number, handler) :: rest)) (b₁, .turns event value rest)
  | listener {b : Bus} {name : String} {body : Int → Body} {value : Int} :
    Part (b, .call value (.listener name body))
      (b.record (.heard name value), .run value (body value))
  | folding {b : Bus} {signal : Nat} {s : Signal} {value : Int} : b.signals[signal]? = some s →
    Part (b, .call value (.folding signal))
      (b.modifySignal signal fun s' => { s' with current := s.fold.apply s.current value },
        .fire s.event (s.fold.apply s.current value))
  | acts {b : Bus} {handled : Int} {action : Action} {rest : Body} :
    Part (b, .run handled (.act action rest)) (b, .act handled action)
  | acted {b b₁ : Bus} {handled : Int} {action : Action} {rest : Body} {t : List Occurrence} :
    Does b (.act handled action) t b₁ →
    Part (b, .run handled (.act action rest)) (b₁, .run handled rest)

/-- Some rounds are under way where a part of a job begins, and it takes moves to come there. -/
theorem Part.moves {job job' : Job} (h : Part (b, job) (c, job')) (hp : Awaits p b ds job) :
    ∃ q ds', ReflTransGen Moves p q ∧ Awaits q c ds' job' := by
  cases h with
  | leads h =>
    cases h with
    | looked => exact ⟨p, ds, .refl, hp⟩
    | fired h => exact ⟨p, ds, .refl, fun q hq => hp ▸ .fired h hq⟩
  | rounds he hd hi => exact ⟨p, ds, .refl, fun q hq => hp q (.opened he hd hi hq)⟩
  | turns hd => exact ⟨_, ds, .single (hp _ (.round hd)), rfl⟩
  | next hd hturns hn =>
    exact ⟨_, ds, .head (hp _ (.round hd)) (hturns.moves rfl), fun q hq => .next hn hq⟩
  | gone hs => exact ⟨_, ds, .single (hp ▸ .gone hs), rfl⟩
  | called hs => exact ⟨p, _, .refl, fun q hq => hp ▸ .called hs hq⟩
  | returned hs hcall =>
    exact ⟨_, ds, hcall.moves fun q hq => hp ▸ .called hs hq, rfl⟩
  | listener => exact ⟨_, ds, .single (hp _ .listener), rfl⟩
  | folding hs => exact ⟨p, ds, .refl, fun q hq => hp q (.folding hs hq)⟩
  | acts => exact ⟨p, ds, .refl, hp⟩
  | acted hact => exact ⟨_, ds, hact.moves hp, rfl⟩

/-! ## Moments -/

/-- The bus as it may be found on the way from one without events. -/
inductive Found (routines : String → Int → Body) : Bus → Prop
  /-- Between actions from outside. -/
  | outside {actions : List Action} {b : Bus} : stepAll { routines } actions = some b →
    Found routines b
  /-- In the course of an action, where a handler has come to the rest of its body. -/
  | inside {actions : List Action} {b c : Bus} {action : Action} {handled : Int} {rest : Body} :
    stepAll { routines } actions = some b →
    ReflTransGen Part (b, .act 0 action) (c, .run handled rest) → Found routines c

theorem stepAll_moves {actions : List Action} (h : b.stepAll actions = some b') :
    ReflTransGen Moves (b, []) (b', []) := by
  induction actions generalizing b with
  | nil =>
    cases h
    exact .refl
  | cons action rest ih =>
    obtain ⟨b₁, hstep, hrest⟩ := Option.bind_eq_some_iff.mp h
    have hact : b.perform (.act 0 action) = some b₁ := hstep
    obtain ⟨t, ht⟩ := exists_does hact
    have hfirst : ReflTransGen Moves (b, []) (b₁, []) := ht.moves rfl
    exact hfirst.trans (ih hrest)

theorem parts_moves {j k : Bus × Job} (h : ReflTransGen Part j k) (hp : Awaits p j.1 ds j.2) :
    ∃ q ds', ReflTransGen Moves p q ∧ Awaits q k.1 ds' k.2 := by
  induction h with
  | refl => exact ⟨p, ds, .refl, hp⟩
  | tail _ hpart ih =>
    obtain ⟨q, ds', hq, hawaits⟩ := ih
    obtain ⟨r, ds'', hr, hawaits'⟩ := hpart.moves hawaits
    exact ⟨r, ds'', hq.trans hr, hawaits'⟩

theorem Found.moves {routines : String → Int → Body} (h : Found routines b) :
    ∃ ds, ReflTransGen Moves ({ routines }, []) (b, ds) := by
  cases h with
  | outside hsteps => exact ⟨[], stepAll_moves hsteps⟩
  | @inside _ b₀ _ action _ _ hsteps hparts =>
    have hstart : Awaits (b₀, []) b₀ [] (.act 0 action) := rfl
    obtain ⟨q, ds, hq, rfl⟩ := parts_moves hparts hstart
    exact ⟨ds, (stepAll_moves hsteps).trans hq⟩

theorem keeps_closure {α : Type} {r : α → α → Prop} {I : α → Prop}
    (keeps : ∀ x y, I x → r x y → I y) {x y : α} (h : ReflTransGen r x y) (hx : I x) : I y := by
  induction h with
  | refl => exact hx
  | tail _ hr ih => exact keeps _ _ ih hr

/-- What every move keeps holds at every moment. -/
theorem Found.invariant {routines : String → Int → Body} {I : Bus × List Frame → Prop}
    (moves : ∀ p q, I p → Moves p q → I q) (start : I ({ routines }, [])) (h : Found routines b) :
    ∃ ds, I (b, ds) := by
  obtain ⟨ds, hds⟩ := h.moves
  exact ⟨ds, keeps_closure moves hds start⟩

/-! ## Changes of the bus alone -/

inductive Changes : Bus → Bus → Prop
  | round {b : Bus} {event : Nat} {value : Int} : Changes b (b.record (.round event value))
  | called {b : Bus} {event number : Nat} {value : Int} : b.isSubscribed event number = true →
    Changes b (b.record (.call event number value))
  | heard {b : Bus} {name : String} {value : Int} : Changes b (b.record (.heard name value))
  | queued {b : Bus} {event : Nat} {value : Int} {e : Event} :
    b.events[event]? = some e → e.disposed = false → e.dispatching = true →
    Changes b (b.change event (.fired event value) (·.queue value))
  | begun {b : Bus} {event : Nat} {value : Int} {e : Event} :
    b.events[event]? = some e → e.disposed = false → e.dispatching = false →
    Changes b (b.change event (.fired event value) Event.begin)
  | taken {b b' : Bus} {event : Nat} {value : Int} : b.takeNext? event = some (value, b') →
    Changes b b'
  | settled {b : Bus} {event : Nat} : Changes b (b.settle event)
  | folded {b : Bus} {signal : Nat} {current : Int} :
    Changes b (b.modifySignal signal fun s => { s with current })
  | managed {b : Bus} {action : Action} : Changes b (b.manage action)

theorem Opens.changes {event : Nat} {value : Int} (h : Opens b event value ds q) :
    Changes b q.1 := by
  cases h with
  | cut _ => exact .settled
  | round _ => exact .round

theorem Starts.changes {event : Nat} {value : Int} (h : Starts b event value ds q) :
    ReflTransGen Changes b q.1 := by
  cases h with
  | skipped _ => exact .refl
  | queued he hd hi => exact .single (.queued he hd hi)
  | opened he hd hi h => exact .head (.begun he hd hi) (.single h.changes)

theorem Enters.changes {value : Int} {handler : Handler} (h : Enters b value ds handler q) :
    ReflTransGen Changes b q.1 := by
  cases h with
  | listener => exact .single .heard
  | unknown _ => exact .refl
  | folding _ h => exact .head .folded h.changes

theorem Moves.changes (h : Moves p q) : ReflTransGen Changes p.1 q.1 := by
  cases h with
  | managed => exact .single .managed
  | fired _ h => exact h.changes
  | gone _ => exact .refl
  | called hs h => exact .head (.called hs) h.changes
  | next hn h => exact .head (.taken hn) (.single h.changes)
  | settled _ => exact .single .settled

/-- What every change keeps, every move keeps. -/
theorem Moves.kept {I : Bus → Prop} (changes : ∀ b b', I b → Changes b b' → I b')
    (h : Moves p q) (hp : I p.1) : I q.1 :=
  keeps_closure changes h.changes hp

/-- What every change of the bus keeps holds at every moment. -/
theorem Found.kept {routines : String → Int → Body} {I : Bus → Prop}
    (changes : ∀ b b', I b → Changes b b' → I b') (start : I { routines })
    (h : Found routines b) : I b := by
  obtain ⟨_, hb⟩ := h.invariant (I := fun p => I p.1) (fun _ _ hp hmove => hmove.kept changes hp)
    start
  exact hb

theorem Recorded.changes (b b' : Bus) (hb : b.Recorded) (h : Changes b b') : b'.Recorded := by
  cases h with
  | round => exact hb.record rfl
  | called _ => exact hb.record rfl
  | heard => exact hb.record rfl
  | queued he hd hi => exact hb.change he rfl fun hr => hr.queue hd hi _
  | begun he _ hi => exact hb.begin he hi _
  | taken hn => exact hb.takeNext hn
  | settled => exact hb.settle _
  | folded => exact hb
  | managed =>
    obtain ⟨_, halters⟩ := b.manage_alters _
    exact halters.recorded hb

end ProofPanel.Bus
