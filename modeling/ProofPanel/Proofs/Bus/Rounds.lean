import ProofPanel.Proofs.Bus.Termination

/-!
# Rounds

A value fired on an event outside of its dispatches is dealt with in a dispatch of its own: round
after round, one for each value, and in each round one call after the other. In between the calls
of an event nothing happens that belongs to its rounds, whatever else its handlers do.
-/
namespace ProofPanel

open Occurrence

/-! ## What a dispatch looks like -/

/-- From one past to a later one, those handlers have their turns in a round for a value: one that
is no longer subscribed is left out, the others are called, and nothing else belongs to the event's
rounds while one is. What a listener that is called does begins with its being heard. -/
inductive Turns (event : Nat) (value : Int) :
    List (Nat × Option String) → List Occurrence → List Occurrence → Prop
  | done {past : List Occurrence} : Turns event value [] past past
  | gone {number : Nat} {name : Option String} {rest : List (Nat × Option String)}
      {past past' : List Occurrence} :
    number ∉ (subscribers event past).map Prod.fst → Turns event value rest past past' →
    Turns event value ((number, name) :: rest) past past'
  | called {number : Nat} {name : Option String} {rest : List (Nat × Option String)}
      {past during past' : List Occurrence} :
    number ∈ (subscribers event past).map Prod.fst →
    (∀ o ∈ during, o.isTurnOf event = false) →
    (∀ n ∈ name, during.getLast? = some (.heard n value)) →
    Turns event value rest (during ++ .call event number value :: past) past' →
    Turns event value ((number, name) :: rest) past past'

/-- From one past to a later one, the event has a round for each of those values. In a round those
have their turns that are subscribed when it begins, in the order of their subscription. -/
inductive Rounds (event : Nat) : List Int → List Occurrence → List Occurrence → Prop
  | done {past : List Occurrence} : Rounds event [] past past
  | round {value : Int} {values : List Int} {past mid past' : List Occurrence} :
    ((subscribers event past).map Prod.fst).Nodup →
    Turns event value (subscribers event past) (.round event value :: past) mid →
    Rounds event values mid past' → Rounds event (value :: values) past past'

/-- A value fired on an event leads to rounds, for it and for the values fired on the event from
then on, as many as a dispatch takes; only if the event is disposed may there be fewer. -/
def Dispatches (event : Nat) (value : Int) (past during : List Occurrence) : Prop :=
  ∃ values, Rounds event (value :: values) past (during ++ past) ∧
    values <+: (valuesFired event during).take Event.maxRefires ∧
    (.disposed event ∉ during → values = (valuesFired event during).take Event.maxRefires)

variable {event : Nat} {value : Int} {past past' t t' : List Occurrence}

def Occurrence.isRoundOf (event : Nat) : Occurrence → Bool
  | round i _ => i == event
  | _ => false

theorem isRoundOf_of_isTurnOf {o : Occurrence} (h : o.isTurnOf event = false) :
    o.isRoundOf event = false := by
  cases o <;> first | rfl | exact h

theorem Turns.countP_round {rest : List (Nat × Option String)}
    (h : Turns event value rest past past') :
    past'.countP (isRoundOf event) = past.countP (isRoundOf event) := by
  induction h with
  | done => rfl
  | gone _ _ ih => exact ih
  | called _ hduring _ _ ih =>
    have hnone := List.countP_eq_zero.mpr fun o ho =>
      Bool.not_eq_true _ ▸ isRoundOf_of_isTurnOf (hduring o ho)
    rw [ih, List.countP_append, hnone, Nat.zero_add]
    exact List.countP_cons_of_neg Bool.false_ne_true

theorem Rounds.countP_round {values : List Int} (h : Rounds event values past past') :
    past'.countP (isRoundOf event) = past.countP (isRoundOf event) + values.length := by
  induction h with
  | done => rfl
  | @round value _ _ _ _ _ hturns _ ih =>
    have hround : (Occurrence.round event value).isRoundOf event = true := beq_self_eq_true event
    rw [ih, hturns.countP_round, List.countP_cons_of_pos hround, List.length_cons]
    omega

theorem Dispatches.countP_round {during : List Occurrence}
    (h : Dispatches event value past during) :
    during.countP (isRoundOf event) ≤ Event.maxRefires + 1 := by
  obtain ⟨values, hrounds, hprefix, _⟩ := h
  have hcount := hrounds.countP_round
  have hlength := hprefix.length_le
  rw [List.countP_append, List.length_cons] at hcount
  rw [List.length_take] at hlength
  omega

namespace Bus

variable {b b' : Bus}

theorem Recorded.isSubscribed_iff (hb : b.Recorded) (event number : Nat) :
    b.isSubscribed event number = true ↔
      number ∈ (subscribers event b.past).map Prod.fst := by
  rw [isSubscribed, Event.isSubscribed, List.any_eq_true, ← (hb event).handlers, Event.roster,
    List.map_map, List.mem_map]
  simp only [beq_iff_eq, Function.comp_apply]

theorem Recorded.nodup (hb : b.Recorded) (event : Nat) :
    ((subscribers event b.past).map Prod.fst).Nodup := by
  refine (subscribers_sublist event b.past).nodup ?_
  rw [(hb event).numbers, List.reverse_reverse]
  exact List.nodup_range

/-! ## Turns and rounds of an execution -/

theorem Does.heard {handler : Handler} (h : Does b (.call value handler) t b') {name : String}
    (hname : handler.name? = some name) : t.getLast? = some (.heard name value) := by
  cases h with
  | skips hskips =>
    cases hskips
    cases hname
  | leads hleads _ => cases hleads
  | listener _ =>
    cases hname
    exact List.getLast?_concat
  | folding _ _ => cases hname

theorem Does.turns {handlers : List (Nat × Handler)} (h : Does b (.turns event value handlers) t b')
    (hb : b.Recorded) (hi : (b.eventAt event).dispatching = true) :
    Turns event value (handlers.map fun (number, handler) => (number, handler.name?))
      b.past b'.past := by
  induction handlers generalizing b t with
  | nil =>
    cases h with
    | skips _ => exact .done
    | leads h _ => cases h
  | cons p rest ih =>
    cases h with
    | skips h => cases h
    | leads h _ => cases h
    | @gone _ _ _ number _ handler _ _ hs hrest =>
      refine .gone (fun hmem => ?_) (ih hrest hb hi)
      rw [(hb.isSubscribed_iff event number).mpr hmem] at hs
      cases hs
    | @called _ b₁ _ _ number _ handler _ t t' hs hcall hrest =>
      have hcalled : (b.record (.call event number value)).Recorded := hb.record rfl
      have hturns := ih hrest (hcall.recorded hcalled) ((hcall.dispatching_eq event).trans hi)
      rw [hcall.past_eq] at hturns
      exact .called ((hb.isSubscribed_iff event number).mp hs) (hcall.quiet rfl hi)
        (fun name hname => hcall.heard hname) hturns

/-- A round of an execution: its turns, and what becomes of the queue. -/
theorem Does.round (h : Does (b.record (.round event value))
      (.turns event value (b.eventAt event).handlers) t b') (hb : b.Recorded)
    (hi : (b.eventAt event).dispatching = true) :
    Turns event value (subscribers event b.past) (.round event value :: b.past) b'.past ∧
      (b.eventAt event).Goes event (t ++ [.round event value]) (b'.eventAt event) ∧
      b'.past = t ++ [.round event value] ++ b.past := by
  refine ⟨?_, ?_, ?_⟩
  · rw [← (hb event).handlers]
    exact h.turns (hb.record rfl) hi
  · have hround : (b.eventAt event).Goes event [.round event value] (b.eventAt event) :=
      .other _ rfl
    exact hround.trans (h.goes rfl hi)
  · exact h.past_eq.trans (List.append_cons _ _ _)

/-- The rounds of a dispatch are for the value that it begins with and then for those that wait and
those that are queued meanwhile. -/
theorem Does.rounds (h : Does b (.rounds event value) t b') (hb : b.Recorded)
    (hd : (b.eventAt event).disposed = false) (hi : (b.eventAt event).dispatching = true) :
    ∃ during values, t = .settled event :: during ∧
      Rounds event (value :: values) b.past (during ++ b.past) ∧
      values <+: (b.eventAt event).queued ++
        (valuesFired event during).take (Event.maxRefires - (b.eventAt event).refires) ∧
      (.disposed event ∉ during → values = (b.eventAt event).queued ++
        (valuesFired event during).take (Event.maxRefires - (b.eventAt event).refires)) := by
  generalize hjob : Job.rounds event value = job at h
  induction h generalizing value with
  | skips hskips =>
    cases hjob
    cases hskips
  | leads hleads _ _ =>
    cases hjob
    cases hleads
  | cut hdisposed =>
    cases hjob
    rw [hd] at hdisposed
    cases hdisposed
  | last _ hturns hn _ =>
    obtain ⟨rfl, rfl⟩ := Job.rounds.inj hjob
    obtain ⟨hround, hgoes, hpast⟩ := hturns.round hb hi
    have hnil := takeNext?_eq_none.mp hn
    refine ⟨_, [], rfl, ?_, List.nil_prefix, fun hnd => ?_⟩
    · rw [← hpast]
      exact .round (hb.nodup event) hround .done
    · rw [← hgoes.queued hnd, hnil]
  | @next b b₁ b₂ b' _ _ value' t t' _ hturns hn _ _ ih =>
    obtain ⟨rfl, rfl⟩ := Job.rounds.inj hjob
    obtain ⟨hround, hgoes, hpast⟩ := hturns.round hb hi
    obtain ⟨waiting, hq, hpast₂, he, _⟩ := takeNext?_eq_some hn
    have hb₁ : b₁.Recorded := hturns.recorded (hb.record rfl)
    -- A value waits, so the event was not disposed in the round and all that found room is queued.
    have hd₁ : (b₁.eventAt event).disposed = false := by
      by_contra hdisposed
      have hnil := (hb₁ event).waiting (.inl (Bool.not_eq_false _ ▸ hdisposed))
      rw [hq] at hnil
      cases hnil
    have hnd : .disposed event ∉ t ++ [.round event value] := by
      intro hmem
      have hdisposed := (hb₁ event).disposed.mpr (hpast ▸ List.mem_append_left _ hmem)
      rw [hd₁] at hdisposed
      cases hdisposed
    have hi₂ : (b₂.eventAt event).dispatching = true :=
      (dispatching_takeNext hn event).trans ((hturns.dispatching_eq event).trans hi)
    obtain ⟨during, values, rfl, hrounds, hprefix, heq⟩ :=
      ih (hb₁.takeNext hn) (by rw [he]; exact hd₁) hi₂ rfl
    have hqueue := hgoes.queued_append hnd during
    rw [he] at hprefix heq
    rw [hq, List.cons_append] at hqueue
    refine ⟨during ++ (t ++ [.round event value]), value' :: values, rfl, ?_, ?_, fun hnot => ?_⟩
    · rw [hpast₂, hpast] at hrounds
      rw [hpast] at hround
      rw [List.append_assoc]
      exact .round (hb.nodup event) hround hrounds
    · rw [hqueue]
      exact List.cons_prefix_cons.mpr ⟨rfl, hprefix⟩
    · rw [List.mem_append, not_or] at hnot
      rw [hqueue, heq hnot.1]
  | _ => cases hjob

/-- A dispatch that starts with a value. -/
theorem Does.dispatches {e : Event} (he : b.events[event]? = some e) (hd : e.disposed = false)
    (hi : e.dispatching = false) (hb : b.Recorded)
    (h : Does (b.change event (.fired event value) Event.begin) (.rounds event value) t b') :
    ∃ during, t = .settled event :: during ∧
      Dispatches event value (.fired event value :: b.past) during := by
  have hlen := lt_of_getElem? he
  have hr := hb event
  rw [eventAt_eq he] at hr
  have hbegun : (b.change event (.fired event value) Event.begin).eventAt event = e.begin := by
    rw [eventAt_change hlen, eventAt_eq he]
  obtain ⟨during, values, ht, hrounds, hprefix, heq⟩ :=
    h.rounds (hb.begin he hi value) (by rw [hbegun]; exact hd) (by rw [hbegun]; rfl)
  have hqueue : e.begin.queued = [] := hr.waiting (.inr hi)
  have hroom : Event.maxRefires - e.begin.refires = Event.maxRefires := rfl
  rw [past_change hlen] at hrounds
  rw [hbegun, hqueue, hroom, List.nil_append] at hprefix heq
  exact ⟨during, ht, values, hrounds, hprefix, heq⟩

end Bus

/-! ## Every value fired outside of a dispatch -/

/-- In a stretch that follows a past, each value fired on an event outside of its dispatches is
dealt with in a dispatch, before the stretch is over. -/
def InRounds (past t : List Occurrence) : Prop :=
  ∀ later event value earlier, t = later ++ .fired event value :: earlier →
    inDispatch event (earlier ++ past) = false →
    ∃ rest during, later = rest ++ .settled event :: during ∧
      Dispatches event value (.fired event value :: (earlier ++ past)) during

theorem append_eq_split {later earlier : List Occurrence} {o : Occurrence}
    (h : t' ++ t = later ++ o :: earlier) :
    (∃ mid, t' = later ++ o :: mid ∧ earlier = mid ++ t) ∨
      ∃ mid, later = t' ++ mid ∧ t = mid ++ o :: earlier := by
  obtain ⟨mid, hlater, ht⟩ | ⟨mid, ht', hmid⟩ := List.append_eq_append_iff.mp h
  · exact .inr ⟨mid, hlater, ht⟩
  · cases mid with
    | nil => exact .inr ⟨[], by rw [ht', List.append_nil, List.append_nil], hmid.symm⟩
    | cons o' mid =>
      obtain ⟨rfl, hearlier⟩ := List.cons.inj hmid
      exact .inl ⟨mid, ht', hearlier⟩

theorem inRounds_of_none_fired (h : ∀ event, ∀ o ∈ t, o.firedOn? event = none)
    (past : List Occurrence) : InRounds past t := by
  rintro later event value earlier rfl _
  have hnone := h event (.fired event value) (by simp)
  rw [firedOn?, if_pos rfl] at hnone
  cases hnone

theorem inRounds_nil (past : List Occurrence) : InRounds past [] :=
  inRounds_of_none_fired (fun _ _ h => absurd h List.not_mem_nil) past

theorem inRounds_singleton {o : Occurrence} (h : ∀ event, o.firedOn? event = none)
    (past : List Occurrence) : InRounds past [o] :=
  inRounds_of_none_fired (fun event => List.forall_mem_singleton.mpr (h event)) past

theorem InRounds.append (h : InRounds past t) (h' : InRounds (t ++ past) t') :
    InRounds past (t' ++ t) := by
  intro later event value earlier heq hout
  obtain ⟨mid, rfl, rfl⟩ | ⟨mid, rfl, rfl⟩ := append_eq_split heq
  · rw [List.append_assoc] at hout ⊢
    exact h' _ _ _ _ rfl hout
  · obtain ⟨rest, during, rfl, hdispatch⟩ := h _ _ _ _ rfl hout
    exact ⟨t' ++ rest, during, (List.append_assoc _ _ _).symm, hdispatch⟩

theorem InRounds.dispatched {during : List Occurrence}
    (h : InRounds (.fired event value :: past) (.settled event :: during))
    (hdispatch : Dispatches event value (.fired event value :: past) during) :
    InRounds past (.settled event :: during ++ [.fired event value]) := by
  intro later i v earlier heq hout
  obtain ⟨mid, hlater, rfl⟩ | ⟨mid, rfl, hlast⟩ := append_eq_split heq
  · rw [List.append_assoc] at hout ⊢
    exact h _ _ _ _ hlater hout
  · obtain ⟨rfl, hfired⟩ | ⟨_, hnil⟩ := List.append_eq_singleton_iff.mp hlast.symm
    · cases hfired
      exact ⟨[], during, by rw [List.append_nil]; rfl, hdispatch⟩
    · cases hnil

namespace Bus

variable {b b' : Bus} {looks : Looking}

theorem Does.inRounds {job : Job} (h : Does b job t b') (hb : b.Recorded) :
    InRounds b.past t := by
  induction h with
  | skips _ => exact inRounds_nil _
  | leads _ _ ih => exact ih hb
  | @queued b event value e he _ hi =>
    intro later i v earlier heq hout
    obtain ⟨rfl, hfired⟩ | ⟨_, hnil⟩ := List.append_eq_singleton_iff.mp heq.symm
    · cases hfired
      have hin := (hb event).dispatching
      rw [eventAt_eq he, hi] at hin
      exact absurd (hin.trans hout) Bool.true_eq_false.mp
    · cases hnil
  | @dispatched b b' event value e t he hd hi hrounds ih =>
    obtain ⟨during, rfl, hdispatch⟩ := hrounds.dispatches he hd hi hb
    have hin := ih (hb.begin he hi value)
    rw [past_change (lt_of_getElem? he)] at hin
    exact hin.dispatched hdispatch
  | cut _ => exact inRounds_singleton (fun _ => rfl) _
  | last _ _ _ ih =>
    have hround := (inRounds_singleton (fun _ => rfl) _).append (ih (hb.record rfl))
    exact hround.append (inRounds_singleton (fun _ => rfl) _)
  | next _ hturns hn _ ih ih' =>
    have hround := (inRounds_singleton (fun _ => rfl) _).append (ih (hb.record rfl))
    have hnext := ih' ((hturns.recorded (hb.record rfl)).takeNext hn)
    obtain ⟨_, _, hpast, _⟩ := takeNext?_eq_some hn
    rw [hpast, hturns.past_eq] at hnext
    exact hround.append (by rw [List.append_assoc]; exact hnext)
  | gone _ _ ih => exact ih hb
  | called _ hcall _ ih ih' =>
    have hhead := (inRounds_singleton (fun _ => rfl) _).append (ih (hb.record rfl))
    have hrest := ih' (hcall.recorded (hb.record rfl))
    rw [hcall.past_eq] at hrest
    exact hhead.append (by rw [List.append_assoc]; exact hrest)
  | listener _ ih => exact (inRounds_singleton (fun _ => rfl) _).append (ih (hb.record rfl))
  | folding _ _ ih => exact ih hb
  | acted hact _ ih ih' =>
    have hrest := ih' (hact.recorded hb)
    rw [hact.past_eq] at hrest
    exact (ih hb).append hrest
  | managed _ ha =>
    exact inRounds_of_none_fired (fun event o ho => (ha.quiet event o ho).1) _

/-! ## The bus between the actions from outside -/

structure Settled (b : Bus) : Prop where
  recorded : b.Recorded
  rests : ∀ event, (b.eventAt event).dispatching = false
  inRounds : InRounds [] b.past

theorem settled_start (routines : String → Int → Body) : Settled { routines } where
  recorded := Event.recorded_nil
  rests _ := rfl
  inRounds := inRounds_nil []

theorem Settled.of_does {job : Job} (hb : b.Settled) (h : Does b job t b')
    (hjob : ∀ event, job.isRoundsOf event = false) : b'.Settled where
  recorded := h.recorded hb.recorded
  rests event := by
    rw [h.dispatching_eq event, hjob, hb.rests]
    rfl
  inRounds := by
    rw [h.past_eq]
    have hstretch := h.inRounds hb.recorded
    rw [← List.append_nil b.past] at hstretch
    exact hb.inRounds.append hstretch

theorem Settled.stepAll {actions : List Action} (hb : b.Settled)
    (h : b.stepAll actions = some b') : b'.Settled := by
  induction actions generalizing b with
  | nil =>
    cases h
    exact hb
  | cons action rest ih =>
    obtain ⟨b₁, hstep, hrest⟩ := Option.bind_eq_some_iff.mp h
    have hact : b.perform (.act 0 action) = some b₁ := hstep
    obtain ⟨t, ht⟩ := exists_does hact
    exact ih (hb.of_does ht fun _ => rfl) hrest

theorem Settled.stepAll_returns {actions : List Action} (hb : b.Settled) (hc : b.Confined looks)
    (ha : ∀ action ∈ actions, action.Brings looks) :
    ∃ b', b.stepAll actions = some b' ∧ b'.Settled ∧ b'.Confined looks := by
  induction actions generalizing b with
  | nil => exact ⟨b, rfl, hb, hc⟩
  | cons action rest ih =>
    obtain ⟨haction, hrest⟩ := List.forall_mem_cons.mp ha
    obtain ⟨t, b₁, ht⟩ := act_returns (fire_returns hb.recorded hc) 0 action
    have hc₁ : b₁.Confined looks := by
      cases ht with
      | skips _ => exact hc
      | leads hleads hfire =>
        cases hleads
        exact (hfire.confined trivial hc).1
      | managed _ halters => exact halters.confined haction hc
    obtain ⟨b', h', hb', hc'⟩ := ih (hb.of_does ht fun _ => rfl) hc₁ hrest
    have hstep : b.step action = some b₁ := ht.perform_eq
    exact ⟨b', by rw [Bus.stepAll, List.foldlM_cons, hstep]; exact h', hb', hc'⟩

/-- A fire from outside, on an event that has not been disposed. -/
theorem Settled.fire (hb : b.Settled) (hlen : event < b.events.length)
    (hd : (b.eventAt event).disposed = false) (h : b.fire event value = some b') :
    ∃ during, b'.past = .settled event :: during ++ .fired event value :: b.past ∧
      Dispatches event value (.fired event value :: b.past) during := by
  have he : b.events[event]? = some (b.eventAt event) := by
    rw [eventAt, List.getElem?_eq_getElem hlen]
    rfl
  have hfire : b.perform (.fire event value) = some b' := h
  obtain ⟨t, ht⟩ := exists_does hfire
  cases ht with
  | skips hskips =>
    cases hskips with
    | fire hskips =>
      have hdisposed := hskips _ he
      rw [hd] at hdisposed
      cases hdisposed
  | leads hleads _ => cases hleads
  | queued he' _ hi =>
    rw [he] at he'
    cases he'
    rw [hb.rests] at hi
    cases hi
  | dispatched he' hd' hi hrounds =>
    obtain ⟨during, rfl, hdispatch⟩ := hrounds.dispatches he' hd' hi hb.recorded
    refine ⟨during, ?_, hdispatch⟩
    rw [hrounds.past_eq, past_change hlen]

/-- Whatever is done on a bus, a value fired on an event outside of its dispatches is dealt with in
rounds, one for each value and none within another: first for that value, then for the values
fired on the event meanwhile, up to the number that a dispatch takes, unless the event is disposed.
Where no handler makes new events, all that is done comes to an end. -/
theorem fired_in_rounds (routines : String → Int → Body) (actions : List Action) :
    (∀ b, stepAll { routines } actions = some b →
      (∀ event, (b.eventAt event).roster = subscribers event b.past) ∧
      (∀ later event value earlier, b.past = later ++ .fired event value :: earlier →
        inDispatch event earlier = false →
        ∃ rest during, later = rest ++ .settled event :: during ∧
          Dispatches event value (.fired event value :: earlier) during) ∧
      ∀ event value b', event < b.events.length → (b.eventAt event).disposed = false →
        b.fire event value = some b' →
        ∃ during, b'.past = .settled event :: during ++ .fired event value :: b.past ∧
          Dispatches event value (.fired event value :: b.past) during) ∧
    ((∀ routine value, (routines routine value).Confined anyLook) →
      (∀ action ∈ actions, action.Brings anyLook) →
      ∃ b, stepAll { routines } actions = some b ∧
        ∀ event value, ∃ b', b.fire event value = some b') := by
  refine ⟨fun b h => ?_, fun hroutines hactions => ?_⟩
  · have hb := (settled_start routines).stepAll h
    refine ⟨fun event => (hb.recorded event).handlers, fun later event value earlier heq hout => ?_,
      fun event value b' hlen hd => hb.fire hlen hd⟩
    have hdispatch := hb.inRounds later event value earlier heq
    rw [List.append_nil] at hdispatch
    exact hdispatch hout
  · obtain ⟨b, h, hb, hc⟩ :=
      (settled_start routines).stepAll_returns ⟨hroutines, fun _ => nofun⟩ hactions
    refine ⟨b, h, fun event value => ?_⟩
    obtain ⟨t, b', ht⟩ := fire_returns hb.recorded hc event value
    exact ⟨b', ht.perform_eq⟩

/-- The first handler fires the event again and removes the second one before its turn. -/
example :
    let again : Int → Body := fun value =>
      if value = 0 then .act (.fire "e" (.fixed 1)) (.act (.unsubscribe "b") .done) else .done
    (stepAll {} [.newEvent "e", .listen "e" "a" again, .listen "e" "b" fun _ => .done,
      .fire "e" (.fixed 0)]).map (·.past.reverse) =
    some [.subscribed 0 0 (some "a"), .subscribed 0 1 (some "b"), .fired 0 0, .round 0 0,
      .call 0 0 0, .heard "a" 0, .fired 0 1, .unsubscribed 0 1, .round 0 1, .call 0 0 1,
      .heard "a" 1, .settled 0] := by
  cbv

end Bus

end ProofPanel
