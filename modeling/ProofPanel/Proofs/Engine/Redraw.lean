import ProofPanel.Proofs.Engine.Validity

/-!
# Goal and place in a drawing

A drawing shows the engine as it is after the turn. Where a goal is shown, a drawing comes from an
answer or from a change of the configuration. The answer is to a fetch for the place that is
drawn. A change of the configuration draws at once, also while the goal of the place is still
unanswered; the goal it draws then belongs to an earlier place.
-/
namespace ProofPanel

def AnsweredAt (history : List FetchEvent) (l : Location) (goal : String) : Prop :=
  ∃ ticket record, FetchEvent.asked ticket l (.ok ()) ∈ history ∧
    FetchEvent.answered ticket (.ok record) ∈ history ∧ record.bind Record.goal? = some goal

namespace Engine

variable {e : Engine} {o : Occasion} {s : Snapshot}

/-! ## Who draws what -/

theorem mem_redraw (h : Effect.redraw s ∈ e.redraw) : s = e.snapshot := by
  unfold redraw at h
  split at h
  · cases List.mem_singleton.mp h
    rfl
  · cases h

theorem redraw_notMem_post (m : HostMessage) : Effect.redraw s ∉ e.post m := by
  cases h : e.publishing <;> simp [post, h]

theorem redraw_notMem_cancelPending : Effect.redraw s ∉ e.cancelPending.2 := by
  cases h : e.pending <;> simp [cancelPending_snd, h]

theorem mem_told {reasons : Reasons} (h : Effect.redraw s ∈ e.told reasons) : s = e.snapshot := by
  unfold told at h
  split at h
  · exact mem_redraw h
  · split at h
    · cases h
    · exact absurd h (redraw_notMem_post _)

/-- What a turn draws, unless it takes an answer or a patch: the engine it ends with, all messages
or nowhere. -/
theorem decide_draws {reasons : Reasons} (h : Effect.redraw s ∈ (e.decide reasons).effects) :
    s = e.snapshot ∧ (e.view.mode = .allMessages ∨ e.location? = none) := by
  cases hm : e.view.mode with
  | allMessages =>
    rw [e.decide_allMessages hm] at h
    exact ⟨mem_told ((List.mem_append.mp h).resolve_left redraw_notMem_cancelPending),
      Or.inl rfl⟩
  | onlyState =>
    cases hl : e.location? with
    | none =>
      rw [e.decide_onlyState_nowhere hm hl] at h
      split at h
      · exact ⟨mem_redraw h, Or.inr rfl⟩
      · cases h
    | some l =>
      rw [e.decide_onlyState hm (by rw [hl]; rfl), e.fetchGoal_some hl] at h
      rcases List.mem_append.mp h with h | h
      · exact absurd h redraw_notMem_cancelPending
      · cases List.mem_singleton.mp h

/-- A turn draws the engine it ends with. Where a goal is shown, only an answer to the pending
fetch and a change of the configuration draw. -/
structure Draws (e : Engine) (t : Trigger) (turn : Turn) (s : Snapshot) : Prop where
  current : s = turn.engine.snapshot
  cause : (turn.engine.view.mode = .allMessages ∨ turn.engine.location? = none) ∨
    (∃ p, t = .configure p) ∨
      ∃ ticket record, t = .respond ticket (.ok record) ∧ e.pendingTicket? = some ticket

theorem draws_of_decide {d : Engine} {t : Trigger} {turn : Turn} {reasons : Reasons}
    (hd : turn.engine = (d.decide reasons).engine)
    (h : Effect.redraw s ∈ (d.decide reasons).effects) : Draws e t turn s := by
  obtain ⟨hs, hwhere⟩ := decide_draws h
  have hview : turn.engine.view = d.view := by rw [hd, decide_view]
  refine ⟨hs.trans (congrArg View.snapshot hview.symm), Or.inl ?_⟩
  rw [location?, hview]
  exact hwhere

theorem Does.draws {cursor : Option Cursor} {t : Trigger} {turn : Turn}
    (hd : Does e cursor t turn) (h : Effect.redraw s ∈ turn.effects) : Draws e t turn s := by
  cases hd with
  | update _ reasons _ =>
    rcases e.updatePosition_cases cursor reasons with ⟨hu, _⟩ | ⟨_, _, hu⟩
    · rw [hu] at h
      cases h
    · rw [hu] at h ⊢
      exact draws_of_decide rfl h
  | report ds =>
    rcases e.receiveDiagnostics_cases ds with ⟨hr, _⟩ | ⟨l, _, _, _, hr⟩
    · rw [hr] at h
      cases h
    · rw [hr] at h ⊢
      exact draws_of_decide rfl h
  | status =>
    rcases e.statusChanged_cases with hf | ⟨l, due, hf⟩
    · rw [hf] at h
      cases h
    · rw [hf, e.fetchGoal_some ((due?_eq_some _).mp due).2.2] at h
      rcases List.mem_append.mp h with h | h
      · exact absurd h redraw_notMem_cancelPending
      · cases List.mem_singleton.mp h
  | answer ticket answer =>
    rcases e.receiveAnswer_cases ticket answer with
      ⟨_, ha⟩ | ⟨fetch, hp, rfl, ⟨_, ha⟩ | ⟨_, ⟨_, _, ha⟩ | ⟨record, rfl, ha⟩⟩⟩
    · rw [ha] at h
      cases h
    · rw [ha] at h
      cases h
    · rw [ha] at h
      cases h
    · rw [ha] at h ⊢
      refine ⟨?_, Or.inr (Or.inr ⟨_, record, rfl, pendingTicket?_some hp⟩)⟩
      simp only [answerEffects] at h
      split at h
      · exact mem_redraw h
      · split at h
        · exact absurd h (redraw_notMem_post _)
        · cases h
  | configure p =>
    refine ⟨?_, Or.inr (Or.inl ⟨p, rfl⟩)⟩
    rcases List.mem_cons.mp h with h | h
    · cases h
    · exact mem_redraw h
  | pause _ _ =>
    rw [pause_eq] at h
    rcases List.mem_append.mp h with h | h
    · exact absurd h redraw_notMem_cancelPending
    · exact absurd h (redraw_notMem_post _)
  | switch _ mode _ =>
    rcases e.setMode_cases cursor mode with ⟨_, _, hm⟩ | ⟨_, hm⟩
    · rw [hm] at h
      cases h
    · rw [hm] at h ⊢
      rcases List.mem_append.mp h with h | h
      · split at h
        · cases h
        · exact absurd h redraw_notMem_cancelPending
      · exact draws_of_decide rfl h
  | aside _ effects _ aside =>
    have hside := aside _ h
    cases hside
  | dispose => exact absurd h redraw_notMem_cancelPending

theorem meet_snapshot (o : Occasion) :
    (e.meet o).1.snapshot = (e.react o.cursor o.trigger).engine.snapshot :=
  congrArg View.snapshot (meet_view o)

/-- Whatever is drawn is the engine after the turn. -/
theorem meet_draws (h : Effect.redraw s ∈ (e.meet o).2) : s = (e.meet o).1.snapshot :=
  ((e.react_does o.cursor o.trigger).draws h).current.trans (meet_snapshot o).symm

/-! ## The newest request -/

theorem decide_still {reasons : Reasons}
    (next : (e.decide reasons).engine.nextTicket = e.nextTicket) :
    e.view.mode = .allMessages ∨ e.location? = none := by
  cases hm : e.view.mode with
  | allMessages => exact Or.inl rfl
  | onlyState =>
    cases hl : e.location? with
    | none => exact Or.inr rfl
    | some l =>
      rw [e.decide_onlyState hm (by rw [hl]; rfl), e.fetchGoal_some hl] at next
      exact absurd next (Nat.succ_ne_self _)

theorem still_of_decide {d : Engine} {turn : Turn} {reasons : Reasons}
    (hd : turn.engine = (d.decide reasons).engine) (hn : d.nextTicket = e.nextTicket)
    (next : turn.engine.nextTicket = e.nextTicket) :
    turn.engine.view.mode = .allMessages ∨ turn.engine.location? = none := by
  have hview : turn.engine.view = d.view := by rw [hd, decide_view]
  rw [location?, hview]
  exact decide_still (by rw [← hd, next, hn])

theorem acceptMessages_still (e : Engine) :
    e.acceptMessages.1.view.mode = e.view.mode ∧ e.acceptMessages.1.location? = e.location? := by
  rcases e.acceptMessages_cases with ⟨ha, _⟩ | ⟨l, _, _, ha⟩ <;> rw [ha] <;> exact ⟨rfl, rfl⟩

/-- A turn that asks for nothing leaves mode and place as they are, or no goal is shown where it
ends. -/
theorem Does.still {cursor : Option Cursor} {t : Trigger} {turn : Turn} (hd : Does e cursor t turn)
    (next : turn.engine.nextTicket = e.nextTicket) :
    (turn.engine.view.mode = e.view.mode ∧ turn.engine.location? = e.location?) ∨
      turn.engine.view.mode = .allMessages ∨ turn.engine.location? = none := by
  cases hd with
  | update _ reasons _ =>
    rcases e.updatePosition_cases cursor reasons with ⟨hu, _⟩ | ⟨_, _, hu⟩
    · rw [hu]
      exact Or.inl ⟨rfl, rfl⟩
    · obtain ⟨_, _, _, ha⟩ := e.arrived_view cursor
      exact Or.inr (still_of_decide (congrArg Turn.engine hu) (by rw [ha]) next)
  | report ds =>
    rcases e.receiveDiagnostics_cases ds with ⟨hr, _⟩ | ⟨l, _, _, _, hr⟩
    · rw [hr]
      exact Or.inl ⟨rfl, rfl⟩
    · exact Or.inr (still_of_decide (congrArg Turn.engine hr) rfl next)
  | status =>
    rcases e.statusChanged_cases with hf | ⟨l, _, hf⟩
    · rw [hf]
      exact Or.inl ⟨rfl, rfl⟩
    · obtain ⟨_, _, hd⟩ := e.fetchGoal_engine {}
      rw [hf, hd]
      exact Or.inl ⟨rfl, rfl⟩
  | answer ticket answer =>
    left
    rcases e.receiveAnswer_cases ticket answer with
      ⟨_, ha⟩ | ⟨_, _, _, ⟨_, ha⟩ | ⟨_, ⟨_, _, ha⟩ | ⟨_, _, ha⟩⟩⟩ <;> rw [ha] <;> exact ⟨rfl, rfl⟩
  | configure p =>
    exact Or.inl ({ e with config := e.config.merge p } : Engine).acceptMessages_still
  | pause _ _ =>
    rw [pause_eq]
    exact Or.inl ⟨rfl, rfl⟩
  | switch _ mode _ =>
    rcases e.setMode_cases cursor mode with ⟨_, _, hm⟩ | ⟨_, hm⟩
    · rw [hm]
      exact Or.inl ⟨rfl, rfl⟩
    · obtain ⟨_, _, _, ha⟩ := e.landed_view cursor mode
      have hlanded : (e.setMode cursor mode).engine = ((e.landed cursor mode).decide
          (switching.merge ((e.switched mode).arrival cursor))).engine := by
        rw [hm]
        rfl
      exact Or.inr (still_of_decide hlanded (by rw [ha]; rfl) next)
  | aside _ _ _ _ => exact Or.inl ⟨rfl, rfl⟩
  | dispose =>
    have hd : e.dispose.engine = { e with pending := none, publishing := false, config := {} } := by
      simp only [Engine.dispose, cancelPending_fst]
    rw [hd]
    exact Or.inl ⟨rfl, rfl⟩

end Engine

theorem View.Resides.located {v w : View} (hr : Resides v w) (h : v.location?.isSome = true) :
    w.location?.isSome = true := by
  cases hr with
  | stays fileName position _ _ =>
    rw [View.location?, fileName, position]
    exact h
  | nowhere fileName position location _ =>
    rw [View.location?, fileName, position] at location
    rw [View.location?, location] at h
    cases h
  | arrives furnished =>
    obtain ⟨l, _, hl, _⟩ := furnished
    rw [hl]
    rfl

namespace Engine

variable {e : Engine} {o : Occasion} {s : Snapshot} {history : List FetchEvent}

structure Sought (e : Engine) (history : List FetchEvent) : Prop where
  newest : e.view.mode = .onlyState → ∀ l, e.location? = some l → ∃ ticket verdict,
    ticket + 1 = e.nextTicket ∧ FetchEvent.asked ticket l verdict ∈ history
  placed : e.view.goal.isSome = true → e.location?.isSome = true

theorem meet_located (h : e.location?.isSome = true) : (e.meet o).1.location?.isSome = true := by
  rw [location?, meet_view]
  exact (e.react_does o.cursor o.trigger).resides.located h

theorem Sought.newest_of_still (h : Sought e history)
    (next : (e.meet o).1.nextTicket = e.nextTicket) :
    (e.meet o).1.view.mode = .onlyState → ∀ l, (e.meet o).1.location? = some l →
      ∃ ticket verdict, ticket + 1 = (e.meet o).1.nextTicket ∧
        FetchEvent.asked ticket l verdict ∈ history ++ e.fetchEvents o := by
  intro hm l hl
  have hturn : (e.react o.cursor o.trigger).engine.nextTicket = e.nextTicket := by
    obtain ⟨_, hp⟩ := settle_engine (e.react o.cursor o.trigger) o.verdict
    rwa [meet_fst, hp] at next
  rw [location?, meet_view] at hl
  rw [meet_view] at hm
  rcases (e.react_does o.cursor o.trigger).still hturn with ⟨hmode, hplace⟩ | hall | hnowhere
  · obtain ⟨ticket, verdict, ht, hasked⟩ := h.newest (hmode ▸ hm) l (hplace ▸ hl)
    exact ⟨ticket, verdict, by rw [ht, next], List.mem_append_left _ hasked⟩
  · rw [hall] at hm
    cases hm
  · rw [location?, hl] at hnowhere
    cases hnowhere

theorem Sought.meet (hs : e.Sound) (h : Sought e history) (o : Occasion) :
    Sought (e.meet o).1 (history ++ e.fetchEvents o) := by
  refine ⟨?_, fun hgoal => ?_⟩
  · have asked : ∀ l' verdict, (e.meet o).1.due? = some l' →
        (e.meet o).1.nextTicket = e.nextTicket + 1 → e.fetchEvents o = e.asking l' verdict →
        ∀ l, (e.meet o).1.location? = some l → ∃ ticket verdict,
          ticket + 1 = (e.meet o).1.nextTicket ∧
            FetchEvent.asked ticket l verdict ∈ history ++ e.fetchEvents o := by
      intro l' verdict due next events l hl
      cases hl.symm.trans ((due?_eq_some _).mp due).2.2
      refine ⟨e.nextTicket, verdict, next.symm, List.mem_append_right _ ?_⟩
      rw [events]
      exact List.mem_append_right _ (List.mem_singleton.mpr rfl)
    cases meet_settles hs o with
    | keep _ next _ _ => exact h.newest_of_still next
    | giveUp _ _ _ next _ => exact h.newest_of_still next
    | take l' _ due _ next events => exact fun _ => asked l' _ due next events
    | refuse l' _ due _ next events => exact fun _ => asked l' _ due next events
    | answer _ _ _ _ _ next _ => exact h.newest_of_still next
  · rcases meet_goal hs o with ⟨_, hsame⟩ | ⟨fetch, _, hp, _, _⟩
    · rw [hsame] at hgoal
      exact meet_located (h.placed hgoal)
    · obtain ⟨l, hl⟩ := hs fetch hp
      exact meet_located (by rw [((due?_eq_some _).mp hl).2.2]; rfl)

theorem run_sought (selector : Selector) (config : Config) (occasions : List Occasion) :
    Sought (run recorded (start selector config) occasions).1
      (run recorded (start selector config) occasions).2 := by
  have hstart : Sought (start selector config) [] := ⟨nofun, nofun⟩
  exact (run_invariant (motive := fun e history => e.Sound ∧ Sought e history)
    (fun _ _ o h => ⟨meet_sound h.1 o, h.2.meet h.1 o⟩)
    ⟨start_sound selector config, hstart⟩ occasions).2

theorem Balanced.asked_of_answered (h : Balanced e history) {ticket : Ticket} {answer : Answer}
    (hm : FetchEvent.answered ticket answer ∈ history) :
    ∃ l, FetchEvent.asked ticket l (.ok ()) ∈ history := by
  have htaken : ticket ∈ history.filterMap FetchEvent.accepted? := by
    by_contra hne
    exact (h.not_accepted hne).2.2 (List.mem_filterMap.mpr ⟨_, hm, rfl⟩)
  obtain ⟨event, hevent, ht⟩ := List.mem_filterMap.mp htaken
  match event, ht with
  | .asked _ l (.ok ()), rfl => exact ⟨l, hevent⟩

theorem meet_configure {p : Patch} (hp : o.trigger = .configure p) :
    (e.meet o).1.view.mode = e.view.mode ∧ (e.meet o).1.location? = e.location? ∧
      (e.meet o).1.view.goal = e.view.goal := by
  have hstill := ({ e with config := e.config.merge p } : Engine).acceptMessages_still
  refine ⟨?_, ?_, ?_⟩
  · rw [meet_view, hp]
    exact hstill.1
  · rw [location?, meet_view, hp]
    exact hstill.2
  · rw [meet_view]
    exact e.react_goal o.cursor (by simp [hp])

/-- If the newest request has been answered, its answer gives the goal. -/
theorem Current.goal_of_newest (hc : Current e history) {ticket : Ticket} {record : Option Record}
    (next : ticket + 1 = e.nextTicket) (hm : FetchEvent.answered ticket (.ok record) ∈ history) :
    e.view.goal = record.bind Record.goal? := by
  have hmem : (ticket, record) ∈ history.filterMap FetchEvent.applied? :=
    List.mem_filterMap.mpr ⟨_, hm, rfl⟩
  have hdistinct : ((history.filterMap FetchEvent.applied?).map Prod.fst).Nodup :=
    hc.increasing.imp Nat.ne_of_lt
  rw [hc.goal, newestGoal]
  cases ha : (history.filterMap FetchEvent.applied?).argmax Prod.fst with
  | none =>
    rw [List.argmax_eq_none.mp ha] at hmem
    cases hmem
  | some a =>
    have hle := List.le_of_mem_argmax hmem ha
    have hlt : a.1 < ticket + 1 := by
      rw [next]
      exact (hc.earlier a (List.argmax_mem ha)).1
    have heq : a.1 = ticket := Nat.le_antisymm (Nat.le_of_lt_succ hlt) hle
    cases List.inj_on_of_nodup_map hdistinct (List.argmax_mem ha) hmem heq
    rfl

theorem Current.answeredAt_of_newest (hb : Balanced e history) (hc : Current e history)
    {ticket : Ticket} {record : Option Record} {l : Location} {verdict : Verdict} {goal : String}
    (next : ticket + 1 = e.nextTicket) (hasked : FetchEvent.asked ticket l verdict ∈ history)
    (hm : FetchEvent.answered ticket (.ok record) ∈ history) (hgoal : e.view.goal = some goal) :
    AnsweredAt history l goal := by
  obtain ⟨l', htaken⟩ := hb.asked_of_answered hm
  obtain ⟨rfl, rfl⟩ := hb.asked_unique htaken hasked
  exact ⟨ticket, record, htaken, hm, (hc.goal_of_newest next hm).symm.trans hgoal⟩

/-- The answer to the pending fetch gives the goal of the place where the engine is. -/
theorem Current.answeredAt_of_respond (hs : e.Sound) (hc : Current e history) {ticket : Ticket}
    {record : Option Record} {l : Location} {goal : String}
    (ht : o.trigger = .respond ticket (.ok record)) (hp : e.pendingTicket? = some ticket)
    (hl : (e.meet o).1.location? = some l) (hgoal : (e.meet o).1.view.goal = some goal) :
    AnsweredAt (history ++ e.fetchEvents o) l goal := by
  rcases hs.receiveAnswer_cases ticket (.ok record) with
    ⟨hne, _⟩ | ⟨fetch, hf, rfl, ⟨_, herr, _⟩ | ⟨_, hok, ha⟩⟩
  · exact absurd hp hne
  · cases herr
  · cases hok
    have hanswered : (e.meet o).1.view = (e.answered (record.bind Record.goal?)).view := by
      rw [meet_view, ht, react, ha]
    rw [location?, hanswered] at hl
    rw [hanswered] at hgoal
    obtain ⟨l', due, hasked⟩ := hc.placed fetch hf
    cases ((due?_eq_some _).mp due).2.2.symm.trans hl
    refine ⟨fetch.ticket, record, List.mem_append_left _ hasked, ?_, hgoal⟩
    rw [fetchEvents_respond ht, if_pos hp]
    exact List.mem_append_right _ (List.mem_singleton.mpr rfl)

/-- Whatever comes next in whatever run, refused and failed fetches included: a drawing with a goal
carries the goal that the backend answered for the place drawn. Only a change of the configuration
may draw another, and only while the newest request, which is for that place, has no record in
answer. -/
theorem run_redraw_goal (selector : Selector) (config : Config) (occasions : List Occasion)
    (o : Occasion) (s : Snapshot) (goal : String) :
    let e := (run recorded (start selector config) occasions).1
    let history := (run recorded (start selector config) occasions).2
    Effect.redraw s ∈ (e.meet o).2 → s.mode = .onlyState → s.goal = some goal →
      ∃ l, s.location = some l ∧
        (AnsweredAt (history ++ e.fetchEvents o) l goal ∨
          (∃ p, o.trigger = .configure p) ∧ ∃ ticket verdict, ticket + 1 = e.nextTicket ∧
            FetchEvent.asked ticket l verdict ∈ history ∧
            ∀ record, FetchEvent.answered ticket (.ok record) ∉ history) := by
  intro e history hdrawn hmode hgoal
  obtain ⟨hs, hb, hc⟩ : e.Sound ∧ Balanced e history ∧ Current e history :=
    run_current selector config occasions
  have hsought : Sought e history := run_sought selector config occasions
  have hcause := ((e.react_does o.cursor o.trigger).draws hdrawn).cause
  rw [location?, ← meet_view] at hcause
  rw [meet_draws hdrawn] at hmode hgoal ⊢
  have hmode : (e.meet o).1.view.mode = .onlyState := hmode
  have hgoal : (e.meet o).1.view.goal = some goal := hgoal
  -- An engine that shows a goal is somewhere.
  obtain ⟨l, hl⟩ : ∃ l, (e.meet o).1.location? = some l :=
    Option.isSome_iff_exists.mp ((hsought.meet hs o).placed (by rw [hgoal]; rfl))
  refine ⟨l, hl, ?_⟩
  rcases hcause with (hall | hnowhere) | ⟨p, hp⟩ | ⟨ticket, record, ht, hpending⟩
  · rw [hmode] at hall
    cases hall
  · rw [← location?, hl] at hnowhere
    cases hnowhere
  · obtain ⟨hsame, hplace, hkept⟩ := meet_configure hp
    obtain ⟨ticket, verdict, next, hasked⟩ := hsought.newest (hsame ▸ hmode) l (hplace ▸ hl)
    by_cases hanswered : ∃ record, FetchEvent.answered ticket (.ok record) ∈ history
    · obtain ⟨record, hm⟩ := hanswered
      obtain ⟨t, r, ha⟩ := hc.answeredAt_of_newest hb next hasked hm (hkept ▸ hgoal)
      exact Or.inl ⟨t, r, List.mem_append_left _ ha.1, List.mem_append_left _ ha.2.1, ha.2.2⟩
    · exact Or.inr ⟨⟨p, hp⟩, ticket, verdict, next, hasked, not_exists.mp hanswered⟩
  · exact Or.inl (hc.answeredAt_of_respond hs ht hpending hl hgoal)

/-- The answer to a fetch draws its goal where it was asked for. -/
theorem run_redraw_goal_answered :
    let cursor : Option Cursor := some ⟨"/a.lean", "lean", ⟨2, 5⟩⟩
    let occasions : List Occasion := [⟨cursor, .ok (), .setMode .onlyState⟩]
    let o : Occasion := ⟨cursor, .ok (), .respond 0 (.ok (some { state := some "⊢ P" }))⟩
    let e := (run recorded (start {} {}) occasions).1
    let history := (run recorded (start {} {}) occasions).2
    let s : Snapshot := ⟨false, .onlyState, some ⟨"/a.lean", 3, 5⟩, some "⊢ P", []⟩
    Effect.redraw s ∈ (e.meet o).2 ∧ s.mode = .onlyState ∧ s.goal = some "⊢ P" ∧
      ∃ l, s.location = some l ∧
        (AnsweredAt (history ++ e.fetchEvents o) l "⊢ P" ∨
          (∃ p, o.trigger = .configure p) ∧ ∃ ticket verdict, ticket + 1 = e.nextTicket ∧
            FetchEvent.asked ticket l verdict ∈ history ∧
            ∀ record, FetchEvent.answered ticket (.ok record) ∉ history) := by
  intro cursor occasions o e history s
  have hdrawn : Effect.redraw s ∈ (e.meet o).2 := by
    unfold s e o occasions cursor
    decide +kernel
  exact ⟨hdrawn, rfl, rfl, run_redraw_goal {} {} occasions o s "⊢ P" hdrawn rfl rfl⟩

/-- The cursor has moved on and the goal there is asked for but not yet answered when the
configuration changes. The drawing shows the goal of the old place at the new one, although no
fetch has been refused and none has failed. -/
theorem run_redraw_goal_elsewhere :
    let there : Option Cursor := some ⟨"/a.lean", "lean", ⟨2, 5⟩⟩
    let here : Option Cursor := some ⟨"/a.lean", "lean", ⟨7, 0⟩⟩
    let occasions : List Occasion :=
      [⟨there, .ok (), .setMode .onlyState⟩,
        ⟨there, .ok (), .respond 0 (.ok (some { state := some "⊢ P" }))⟩,
        ⟨here, .ok (), .selectionChanged⟩]
    let o : Occasion := ⟨here, .ok (), .configure { fontSize := some 16 }⟩
    let e := (run recorded (start {} {}) occasions).1
    let history := (run recorded (start {} {}) occasions).2 ++ e.fetchEvents o
    (∀ event ∈ history, event.refused? = none ∧
        ∀ ticket err, event ≠ .answered ticket (.error err)) ∧
      ∃ s l, Effect.redraw s ∈ (e.meet o).2 ∧ s.mode = .onlyState ∧ s.goal = some "⊢ P" ∧
        s.location = some l ∧ ¬ AnsweredAt history l "⊢ P" := by
  intro there here occasions o e history
  have hhistory : history = [.asked 0 ⟨"/a.lean", 3, 5⟩ (.ok ()),
      .answered 0 (.ok (some { state := some "⊢ P" })), .asked 1 ⟨"/a.lean", 8, 0⟩ (.ok ())] := by
    unfold history e o occasions there here
    decide +kernel
  have hdrawn : Effect.redraw ⟨false, .onlyState, some ⟨"/a.lean", 8, 0⟩, some "⊢ P", []⟩ ∈
      (e.meet o).2 := by
    unfold e o occasions there here
    decide +kernel
  refine ⟨?_, _, _, hdrawn, rfl, rfl, rfl, ?_⟩
  · rw [hhistory]
    simp [FetchEvent.refused?]
  · rintro ⟨ticket, record, hasked, hanswered, _⟩
    rw [hhistory] at hasked hanswered
    obtain rfl : ticket = 1 := by simpa using hasked
    simp at hanswered

end Engine

end ProofPanel
