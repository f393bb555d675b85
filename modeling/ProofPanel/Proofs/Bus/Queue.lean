import ProofPanel.Proofs.Bus.Past

/-!
# Events in a dispatch

While an event is in a dispatch it stays in it, whatever its handlers do, and the values fired on
it are appended to its queue as long as there is room.
-/
namespace ProofPanel

open Occurrence

variable {event i : Nat} {o : Occurrence}

/-! ## Which events are in a dispatch -/

namespace Bus

variable {b b' : Bus} {t : List Occurrence}

def Job.isRoundsOf (event : Nat) : Job → Bool
  | .rounds i _ => i == event
  | _ => false

def Job.isTurnsOf (event : Nat) : Job → Bool
  | .rounds i _ | .turns i _ _ => i == event
  | _ => false

theorem dispatching_change (b : Bus) (event i : Nat) (o : Occurrence) {f : Event → Event}
    (hf : ∀ e, (f e).dispatching = e.dispatching) :
    ((b.change i o f).eventAt event).dispatching = (b.eventAt event).dispatching := by
  by_cases h : i = event
  · subst h
    by_cases hlen : i < b.events.length
    · rw [eventAt_change hlen, hf]
    · rw [change_eq_self hlen]
  · rw [eventAt_change_ne b h]

theorem dispatching_settle (b : Bus) (event i : Nat) :
    ((b.settle i).eventAt event).dispatching =
      (!(i == event) && (b.eventAt event).dispatching) := by
  by_cases h : i = event
  · subst h
    rw [eventAt_settle, beq_self_eq_true]
    rfl
  · rw [eventAt_settle_ne b h, beq_false_of_ne h]
    rfl

theorem dispatching_queue (e : Event) (value : Int) :
    (e.queue value).dispatching = e.dispatching := by
  rw [Event.queue]
  split <;> rfl

theorem dispatching_takeNext {value : Int} (h : b.takeNext? i = some (value, b')) (event : Nat) :
    (b'.eventAt event).dispatching = (b.eventAt event).dispatching := by
  obtain ⟨waiting, _, _, he, hother⟩ := takeNext?_eq_some h
  by_cases hi : i = event
  · rw [← hi, he]
  · rw [hother event hi]

theorem Alters.dispatching_eq {action : Action} (h : Alters action b t b') (event : Nat) :
    (b'.eventAt event).dispatching = (b.eventAt event).dispatching := by
  induction h with
  | aside _ he _ _ => rw [eventAt_congr he]
  | created _ => rw [eventAt_addEvent]
  | subscribed _ _ _ => exact dispatching_change _ _ _ _ fun _ => rfl
  | unsubscribed _ => exact dispatching_change _ _ _ _ fun _ => rfl
  | disposed _ => exact dispatching_change _ _ _ _ fun _ => rfl
  | trans _ _ ih ih' => rw [ih', ih]

/-- Whatever is done, only the end of an event's own dispatch changes whether it is in one. -/
theorem Does.dispatching_eq {job : Job} (h : Does b job t b') (event : Nat) :
    (b'.eventAt event).dispatching =
      (!job.isRoundsOf event && (b.eventAt event).dispatching) := by
  induction h with
  | skips h => cases h <;> rfl
  | leads h _ ih => cases h <;> exact ih
  | queued _ _ _ => exact dispatching_change _ _ _ _ fun e => dispatching_queue e _
  | @dispatched b b' i value e t he _ hi _ ih =>
    rw [ih]
    by_cases h : i = event
    · subst h
      rw [eventAt_eq he, hi, Job.isRoundsOf, beq_self_eq_true]
      rfl
    · rw [eventAt_change_ne b h, Job.isRoundsOf, beq_false_of_ne h]
      rfl
  | cut _ => exact dispatching_settle _ event _
  | last _ _ _ ih =>
    rw [dispatching_settle, ih]
    rfl
  | next _ _ hn _ ih ih' =>
    rw [ih', dispatching_takeNext hn, ih]
    rfl
  | gone _ _ ih => exact ih
  | called _ _ _ ih ih' => exact ih'.trans ih
  | listener _ ih => exact ih
  | folding _ _ ih => exact ih
  | acted _ _ ih ih' => exact ih'.trans ih
  | managed _ ha => exact ha.dispatching_eq event

/-! ## Nothing else happens to it -/

theorem Alters.quiet {action : Action} (h : Alters action b t b') (event : Nat) :
    ∀ o ∈ t, o.firedOn? event = none ∧ o.isTurnOf event = false := by
  induction h with
  | aside _ _ _ ht =>
    intro o ho
    have haside := ht o ho
    cases o <;> first | exact ⟨rfl, rfl⟩ | cases haside
  | created _ => exact nofun
  | subscribed _ _ _ => exact List.forall_mem_singleton.mpr ⟨rfl, rfl⟩
  | unsubscribed _ => exact List.forall_mem_singleton.mpr ⟨rfl, rfl⟩
  | disposed _ => exact List.forall_mem_singleton.mpr ⟨rfl, rfl⟩
  | trans _ _ ih ih' => exact List.forall_mem_append.mpr ⟨ih', ih⟩

theorem ne_of_dispatching {e : Event} (he : b.events[i]? = some e) (hi : e.dispatching = false)
    (hevent : (b.eventAt event).dispatching = true) : i ≠ event := by
  rintro rfl
  rw [eventAt_eq he, hi] at hevent
  exact Bool.false_ne_true hevent

/-- In a dispatch of an event, nothing that its handlers do belongs to its own rounds. -/
theorem Does.quiet {job : Job} (h : Does b job t b') (hjob : job.isTurnsOf event = false)
    (hi : (b.eventAt event).dispatching = true) : ∀ o ∈ t, o.isTurnOf event = false := by
  induction h with
  | skips _ => exact nofun
  | leads h _ ih => exact ih (by cases h <;> rfl) hi
  | queued _ _ _ => exact List.forall_mem_singleton.mpr rfl
  | @dispatched b b' i value e t he _ hd _ ih =>
    have hne := ne_of_dispatching he hd hi
    rw [← eventAt_change_ne b hne (.fired i value) Event.begin] at hi
    exact List.forall_mem_append.mpr
      ⟨ih (beq_false_of_ne hne) hi, List.forall_mem_singleton.mpr rfl⟩
  | cut _ => exact List.forall_mem_singleton.mpr hjob
  | last _ _ _ ih =>
    exact List.forall_mem_cons.mpr ⟨hjob, List.forall_mem_append.mpr
      ⟨ih hjob hi, List.forall_mem_singleton.mpr hjob⟩⟩
  | next _ hturns hn _ ih ih' =>
    have hnext := (dispatching_takeNext hn event).trans ((hturns.dispatching_eq event).trans hi)
    exact List.forall_mem_append.mpr ⟨ih' hjob hnext, List.forall_mem_append.mpr
      ⟨ih hjob hi, List.forall_mem_singleton.mpr hjob⟩⟩
  | gone _ _ ih => exact ih hjob hi
  | called _ hcall _ ih ih' =>
    have hrest := (hcall.dispatching_eq event).trans hi
    exact List.forall_mem_append.mpr ⟨ih' hjob hrest, List.forall_mem_append.mpr
      ⟨ih rfl hi, List.forall_mem_singleton.mpr hjob⟩⟩
  | listener _ ih =>
    exact List.forall_mem_append.mpr ⟨ih rfl hi, List.forall_mem_singleton.mpr rfl⟩
  | folding _ _ ih => exact ih rfl hi
  | acted hact _ ih ih' =>
    have hrest := (hact.dispatching_eq event).trans hi
    exact List.forall_mem_append.mpr ⟨ih' rfl hrest, ih rfl hi⟩
  | managed _ ha => exact fun o ho => (ha.quiet event o ho).2

end Bus

/-! ## The queue -/

namespace Event

/-- What happens to the queue of an event in a dispatch: as many of the values fired on it as there
is room for are appended, unless it is disposed. -/
structure Goes (e : Event) (event : Nat) (t : List Occurrence) (e' : Event) : Prop where
  refires : e'.refires =
    e.refires + ((valuesFired event t).take (maxRefires - e.refires)).length
  queued : .disposed event ∉ t →
    e'.queued = e.queued ++ (valuesFired event t).take (maxRefires - e.refires)

variable {e e₁ e' : Event} {t t' : List Occurrence}

theorem Goes.of_none_fired (ht : ∀ o ∈ t, o.firedOn? event = none) (hr : e'.refires = e.refires)
    (hq : .disposed event ∉ t → e'.queued = e.queued) : e.Goes event t e' := by
  have hnil := valuesFired_eq_nil ht
  refine ⟨?_, fun hd => ?_⟩
  · rw [hnil, List.take_nil]
    exact hr
  · rw [hnil, List.take_nil, List.append_nil]
    exact hq hd

theorem Goes.refl (e : Event) (event : Nat) : e.Goes event [] e :=
  .of_none_fired nofun rfl fun _ => rfl

theorem Goes.other (e : Event) (ho : o.firedOn? event = none) : e.Goes event [o] e :=
  .of_none_fired (List.forall_mem_singleton.mpr ho) rfl fun _ => rfl

theorem Goes.room (h : e.Goes event t e₁) :
    maxRefires - e₁.refires = maxRefires - e.refires - (valuesFired event t).length := by
  rw [h.refires, List.length_take]
  omega

/-- The values that find room in two stretches, by the stretch that they are fired in. -/
theorem Goes.take_append (h : e.Goes event t e₁) (t' : List Occurrence) :
    (valuesFired event (t' ++ t)).take (maxRefires - e.refires) =
      (valuesFired event t).take (maxRefires - e.refires) ++
        (valuesFired event t').take (maxRefires - e₁.refires) := by
  rw [valuesFired_append, List.take_append, h.room]

theorem Goes.queued_append (h : e.Goes event t e₁) (hd : .disposed event ∉ t)
    (t' : List Occurrence) :
    e.queued ++ (valuesFired event (t' ++ t)).take (maxRefires - e.refires) =
      e₁.queued ++ (valuesFired event t').take (maxRefires - e₁.refires) := by
  rw [h.take_append, h.queued hd, List.append_assoc]

theorem Goes.trans (h : e.Goes event t e₁) (h' : e₁.Goes event t' e') :
    e.Goes event (t' ++ t) e' := by
  refine ⟨?_, fun hd => ?_⟩
  · rw [h.take_append, List.length_append, ← Nat.add_assoc, ← h.refires]
    exact h'.refires
  · rw [List.mem_append, not_or] at hd
    rw [h.queued_append hd.2]
    exact h'.queued hd.1

theorem Goes.queue (e : Event) (event : Nat) (value : Int) :
    e.Goes event [.fired event value] (e.queue value) := by
  have hvalue : valuesFired event [.fired event value] = [value] := by
    simp [valuesFired, firedOn?]
  rw [Event.queue]
  split
  · next hroom =>
    have htake : [value].take (maxRefires - e.refires) = [value] :=
      List.take_of_length_le (Nat.sub_pos_of_lt hroom)
    exact ⟨by rw [hvalue, htake]; rfl, fun _ => by rw [hvalue, htake]⟩
  · next hroom =>
    have htake : [value].take (maxRefires - e.refires) = [] := by
      rw [Nat.sub_eq_zero_of_le (Nat.le_of_not_lt hroom), List.take_zero]
    exact ⟨by rw [hvalue, htake]; rfl, fun _ => by rw [hvalue, htake, List.append_nil]⟩

end Event

namespace Bus

variable {b b' : Bus} {t : List Occurrence}

theorem goes_change (hlen : i < b.events.length) (ho : o.firedOn? event = none)
    {f : Event → Event} (hr : ∀ e, (f e).refires = e.refires)
    (hq : ∀ e, .disposed event ∉ [o] → (f e).queued = e.queued) :
    (b.eventAt event).Goes event [o] ((b.change i o f).eventAt event) := by
  by_cases h : i = event
  · subst h
    rw [eventAt_change hlen]
    exact .of_none_fired (List.forall_mem_singleton.mpr ho) (hr _) (hq _)
  · rw [eventAt_change_ne b h]
    exact .other _ ho

theorem Alters.goes {action : Action} (h : Alters action b t b') (event : Nat) :
    (b.eventAt event).Goes event t (b'.eventAt event) := by
  have hquiet := h.quiet event
  induction h with
  | aside _ he _ _ =>
    rw [eventAt_congr he]
    exact .of_none_fired (fun o ho => (hquiet o ho).1) rfl fun _ => rfl
  | created _ =>
    rw [eventAt_addEvent]
    exact .refl _ event
  | subscribed _ he _ => exact goes_change (lt_of_getElem? he) rfl (fun _ => rfl) fun _ _ => rfl
  | unsubscribed hlen => exact goes_change hlen rfl (fun _ => rfl) fun _ _ => rfl
  | @disposed b i hlen =>
    by_cases h : i = event
    · refine goes_change hlen rfl (fun _ => rfl) fun _ hd => absurd ?_ hd
      rw [h]
      exact List.mem_cons_self
    · rw [eventAt_change_ne b h]
      exact .other _ rfl
  | trans ha ha' ih ih' =>
    exact (ih (ha.quiet event)).trans (ih' (ha'.quiet event))

/-- What happens to an event in a dispatch while something is done within it. -/
theorem Does.goes {job : Job} (h : Does b job t b') (hjob : job.isRoundsOf event = false)
    (hi : (b.eventAt event).dispatching = true) :
    (b.eventAt event).Goes event t (b'.eventAt event) := by
  induction h with
  | skips _ => exact .refl _ event
  | leads h _ ih => exact ih (by cases h <;> rfl) hi
  | @queued b i value e he _ _ =>
    by_cases h : i = event
    · subst h
      rw [eventAt_change (lt_of_getElem? he)]
      exact .queue _ i value
    · rw [eventAt_change_ne b h]
      exact .other _ (if_neg h)
  | @dispatched b b' i value e t he _ hd _ ih =>
    have hne := ne_of_dispatching he hd hi
    have hsame := eventAt_change_ne b hne (.fired i value) Event.begin
    have hrounds := ih (beq_false_of_ne hne) (hsame ▸ hi)
    rw [hsame] at hrounds
    have hfired : (b.eventAt event).Goes event [.fired i value] (b.eventAt event) :=
      .other _ (if_neg hne)
    exact hfired.trans hrounds
  | @cut b i _ _ =>
    rw [eventAt_settle_ne b (ne_of_beq_false hjob)]
    exact .other _ rfl
  | @last b b' i value t _ _ _ ih =>
    rw [eventAt_settle_ne b' (ne_of_beq_false hjob)]
    have hround : (b.eventAt event).Goes event [.round i value] (b.eventAt event) :=
      .other _ rfl
    have hsettled : (b'.eventAt event).Goes event [.settled i] (b'.eventAt event) :=
      .other _ rfl
    exact (hround.trans (ih rfl hi)).trans hsettled
  | @next b b₁ b₂ b' i value _ t t' _ hturns hn _ ih ih' =>
    have hsame : b₂.eventAt event = b₁.eventAt event := by
      obtain ⟨_, _, _, _, hother⟩ := takeNext?_eq_some hn
      exact hother event (ne_of_beq_false hjob)
    have hnext := ih' hjob ((dispatching_takeNext hn event).trans
      ((hturns.dispatching_eq event).trans hi))
    rw [hsame] at hnext
    have hround : (b.eventAt event).Goes event [.round i value] (b.eventAt event) :=
      .other _ rfl
    exact (hround.trans (ih rfl hi)).trans hnext
  | gone _ _ ih => exact ih rfl hi
  | @called b _ _ i number value _ _ _ _ _ hcall _ ih ih' =>
    have hhead : (b.eventAt event).Goes event [.call i number value] (b.eventAt event) :=
      .other _ rfl
    have hrest := ih' rfl ((hcall.dispatching_eq event).trans hi)
    exact (hhead.trans (ih rfl hi)).trans hrest
  | @listener b _ name _ value _ _ ih =>
    have hhead : (b.eventAt event).Goes event [.heard name value] (b.eventAt event) :=
      .other _ rfl
    exact hhead.trans (ih rfl hi)
  | folding _ _ ih => exact ih rfl hi
  | acted hact _ ih ih' => exact (ih rfl hi).trans (ih' rfl ((hact.dispatching_eq event).trans hi))
  | managed _ ha => exact ha.goes event

end Bus

end ProofPanel
