import ProofPanel.Proofs.Engine.Redraw
import ProofPanel.Proofs.Engine.Repaint

/-!
# What a refresh repairs

A fetch that is refused or fails takes along the reasons to draw that it had on record, so that the
panel may lag behind an engine that awaits no answer. A refresh brings it up to date where it draws
the panel anew, at once or by the answer to its fetch. Where nothing has changed for the engine
itself it only tells the panel to continue, and the panel goes on showing what it showed.
-/
namespace ProofPanel

namespace Engine

variable {e d : Engine} {panel : Snapshot} {o : Occasion}

/-! ## The goal that the panel shows -/

theorem hear_goal {effect : Effect} (panel : Snapshot)
    (h : ∀ s, effect = .redraw s → s.goal = panel.goal) :
    (panel.hear effect).goal = panel.goal := by
  cases effect with
  | redraw s => exact h s rfl
  | post m => cases m <;> rfl
  | _ => rfl

theorem hearAll_filter (effects : List Effect) :
    panel.hearAll (effects.filter Effect.isHeard) = panel.hearAll effects := by
  induction effects generalizing panel with
  | nil => rfl
  | cons effect rest ih =>
    cases effect with
    | redraw _ | post _ => exact ih
    | _ => exact ih

theorem hearAll_goal {effects : List Effect}
    (h : ∀ s, Effect.redraw s ∈ effects → s.goal = panel.goal) :
    (panel.hearAll effects).goal = panel.goal := by
  induction effects generalizing panel with
  | nil => rfl
  | cons effect rest ih =>
    have hfirst := hear_goal panel fun s hs => h s (hs ▸ List.mem_cons_self)
    refine Eq.trans (ih fun s hs => ?_) hfirst
    exact (h s (List.mem_cons_of_mem effect hs)).trans hfirst.symm

/-- A new goal is always drawn, and whatever is drawn has the goal of the engine. -/
theorem meet_shown_goal (hs : e.Sound) (heard : e.publishing = true)
    (h : panel.goal = e.view.goal) (o : Occasion) :
    (panel.hearAll (e.meet o).2).goal = (e.meet o).1.view.goal := by
  by_cases hsame : (e.meet o).1.view.goal = e.view.goal
  · rw [hsame, ← h]
    refine hearAll_goal fun s hm => ?_
    rw [meet_draws hm, h]
    exact hsame
  · by_cases hrespond : ∃ ticket answer, o.trigger = .respond ticket answer
    · obtain ⟨ticket, answer, ht⟩ := hrespond
      have hview := meet_view (e := e) o
      rw [meet_snd, ht]
      rw [ht] at hview
      rcases hs.receiveAnswer_cases ticket answer with
        ⟨_, ha⟩ | ⟨fetch, _, _, ⟨_, _, ha⟩ | ⟨record, _, ha⟩⟩
      · rw [react, ha] at hview
        exact absurd (congrArg View.goal hview) hsame
      · rw [react, ha] at hview
        exact absurd (congrArg View.goal hview) hsame
      · rw [react, ha] at hview ⊢
        have hnew : (e.view.goal != record.bind Record.goal?) = true := by
          rw [bne_iff_ne]
          intro heq
          exact hsame ((congrArg View.goal hview).trans heq.symm)
        rw [answerEffects, hnew, Bool.or_true, if_pos rfl, hearAll_redraw (by exact heard), hview]
        rfl
    · have ht : ∀ ticket answer, o.trigger ≠ .respond ticket answer := by
        simpa only [not_exists] using hrespond
      rw [meet_view] at hsame
      exact absurd (e.react_goal o.cursor ht) hsame

theorem run_shown_goal (selector : Selector) (config : Config) (occasions : List Occasion)
    (h : ∀ o ∈ occasions, o.trigger ≠ .dispose) :
    (({} : Snapshot).hearAll (run meet (start selector config) occasions).2).goal =
      (run meet (start selector config) occasions).1.view.goal := by
  have hall : Along meet (fun _ _ o => o.trigger ≠ .dispose) (start selector config) []
      occasions := along_of_forall (fun o ho _ _ => h o ho) _ _
  refine (run_induction (motive := fun _ (e : Engine) effects => e.Sound ∧ e.publishing = true ∧
    (({} : Snapshot).hearAll effects).goal = e.view.goal) ?_
    ⟨start_sound selector config, rfl, rfl⟩ hall).2.2
  rintro _ e effects o ⟨hs, heard, hgoal⟩ ho
  refine ⟨meet_sound hs o, (meet_publishing ho).trans heard, ?_⟩
  rw [hearAll_append]
  exact meet_shown_goal hs heard hgoal o

/-! ## The refresh and its answer -/

def answering (e : Engine) (record : Option Record) : List Occasion :=
  e.pendingTicket?.toList.map fun ticket => ⟨none, .ok (), .respond ticket (.ok record)⟩

def refreshing (e : Engine) (cursor : Option Cursor) (verdict : Verdict)
    (record : Option Record) : List Occasion :=
  ⟨cursor, verdict, .refresh⟩ ::
    (e.meet ⟨cursor, verdict, .refresh⟩).1.answering record

/-- A refresh draws at once, or it leaves it to the answer. In that case, without another reason
than the refresh on record, the view has stayed as it was. -/
inductive Refreshes (e d : Engine) (effects : List Effect) : Prop
  | draws (idle : d.pending = none) (heard : effects.filter Effect.isHeard = [.redraw d.snapshot])
  | awaits (fetch : Fetch) (waiting : d.pending = some fetch) (due : d.due?.isSome = true)
      (silent : effects.filter Effect.isHeard = []) (forced : fetch.reasons.forced = true)
      (stays : fetch.reasons.moved = false → fetch.reasons.messagesChanged = false →
        d.view = e.view)

theorem inheriting_forced {reasons : Reasons} (h : reasons.forced = true) :
    (e.inheriting reasons).forced = true := by
  cases hp : e.pending <;> simp [inheriting, hp, h]

theorem refresh_cases (hs : e.Sound) (heard : e.publishing = true) (hrun : e.view.stopped = false)
    {cursor : Option Cursor} {verdict : Verdict}
    (hok : (e.step cursor verdict .refresh).2.2 = .ok ()) :
    let refreshed := e.meet ⟨cursor, verdict, .refresh⟩
    refreshed.1.view.stopped = false ∧ Refreshes e refreshed.1 refreshed.2 := by
  intro refreshed
  obtain ⟨_, _, _, ha⟩ := e.arrived_view cursor
  have hrunning : (e.arrived cursor).view.stopped = false := by rw [ha]; exact hrun
  have hheard : (e.arrived cursor).publishing = true := arrived_publishing heard cursor
  obtain ⟨reasons, hturn, hforced, hstays⟩ : ∃ reasons : Reasons,
      e.react cursor .refresh = (e.arrived cursor).decide reasons ∧ reasons.forced = true ∧
        (reasons.moved = false → reasons.messagesChanged = false → e.arrived cursor = e) := by
    rcases e.updatePosition_cases cursor { forced := true } with ⟨_, hs' | ⟨_, hf⟩⟩ | ⟨_, _, hu⟩
    · rw [hrun] at hs'
      cases hs'
    · cases hf
    · exact ⟨_, hu, rfl, fun hm hc => arrived_eq_self hm hc⟩
  have hview : refreshed.1.view = (e.arrived cursor).view := by
    rw [meet_view, hturn, decide_view]
  refine ⟨by rw [hview, hrunning], ?_⟩
  cases hdue : (e.arrived cursor).due? with
  | none =>
    -- Nothing is due where all messages are shown or there is no place yet.
    have hwhere : (e.arrived cursor).view.mode = .allMessages ∨
        (e.arrived cursor).location? = none := by
      cases hmode : (e.arrived cursor).view.mode with
      | allMessages => exact Or.inl rfl
      | onlyState => exact Or.inr (by simpa [due?, hrunning, hmode] using hdue)
    refine .draws ((meet_sound hs _).due_of_pending ?_) ?_
    · rw [due?, location?, hview]
      exact hdue
    · rw [meet_snd, hturn, decide_redraws hheard hforced hwhere, snapshot, ← hview]
      rfl
  | some l =>
    obtain ⟨_, hmode, hl⟩ := (due?_eq_some _).mp hdue
    rw [decide_onlyState _ hmode (by rw [hl]; rfl), fetchGoal_some _ hl] at hturn
    have hverdict : verdict = .ok () := by
      refine verdict_of_settle (t := e.react cursor .refresh) ?_ hok
      rw [hturn]
      rfl
    refine .awaits ⟨(e.arrived cursor).nextTicket, (e.arrived cursor).inheriting reasons⟩ ?_ ?_ ?_
      ?_ (fun hm hc => ?_)
    · simp only [refreshed, meet_fst, hturn, Turn.settle, hverdict]
    · rw [due?, location?, hview]
      exact Option.isSome_iff_exists.mpr ⟨l, hdue⟩
    · rw [meet_snd, hturn, List.filter_append, filter_isHeard_cancelPending]
      rfl
    · exact inheriting_forced hforced
    · obtain ⟨hmoved, hchanged⟩ := inheriting_eq_false hm hc
      rw [hview, hstays hmoved hchanged]

theorem Shows.run (hs : e.Sound) (h : Shows panel e) {later : List Occasion}
    (hsmooth : Along Engine.meet (fun e _ o => e.Smooth o) e [] later) :
    (run Engine.meet e later).1.Sound ∧
      Shows (panel.hearAll (run Engine.meet e later).2) (run Engine.meet e later).1 := by
  refine run_induction (motive := fun _ e effects => Sound e ∧ Shows (panel.hearAll effects) e)
    ?_ ⟨hs, h⟩ hsmooth
  intro _ e effects o he ho
  refine ⟨meet_sound he.1 o, ?_⟩
  rw [hearAll_append]
  exact meet_shows he.1 he.2 ho

theorem answering_some {fetch : Fetch} (h : e.pending = some fetch) (record : Option Record) :
    e.answering record = [⟨none, .ok (), .respond fetch.ticket (.ok record)⟩] := by
  rw [answering, pendingTicket?_some h]
  rfl

theorem answering_none (h : e.pending = none) (record : Option Record) :
    e.answering record = [] := by
  rw [answering, pendingTicket?_none h]
  rfl

inductive Refreshed (e d : Engine) (effects : List Effect) : Prop
  | redrawn (heard : effects.filter Effect.isHeard = [.redraw d.snapshot])
  | continued (heard : effects.filter Effect.isHeard = [.post .continue]) (stays : d.view = e.view)
      (mode : e.view.mode = .onlyState) (located : e.location?.isSome = true)

theorem Refreshed.hearAll_of_redraw {effects : List Effect} (h : Refreshed e d effects)
    {s : Snapshot} (hs : Effect.redraw s ∈ effects) (panel : Snapshot) :
    panel.hearAll effects = d.snapshot := by
  rw [← hearAll_filter]
  cases h with
  | redrawn heard =>
    rw [heard]
    rfl
  | continued heard _ _ _ =>
    have hmem : Effect.redraw s ∈ effects.filter Effect.isHeard := List.mem_filter.mpr ⟨hs, rfl⟩
    rw [heard] at hmem
    cases List.mem_singleton.mp hmem

theorem Refreshed.of_silent {effects : List Effect} (h : Refreshed e d effects)
    (hnone : ∀ s, Effect.redraw s ∉ effects) (panel : Snapshot) :
    effects.filter Effect.isHeard = [.post .continue] ∧ d.view = e.view ∧
      e.view.mode = .onlyState ∧ e.location?.isSome = true ∧
      panel.hearAll effects = { panel with stopped := false } := by
  cases h with
  | redrawn heard =>
    have hmem : Effect.redraw d.snapshot ∈ effects.filter Effect.isHeard := by
      rw [heard]
      exact List.mem_singleton.mpr rfl
    exact absurd (List.mem_filter.mp hmem).1 (hnone _)
  | continued heard stays mode located =>
    refine ⟨heard, stays, mode, located, ?_⟩
    rw [← hearAll_filter, heard]
    rfl

/-- The answer to a fetch that has to say something, if only that nothing changed. -/
theorem meet_answered (hs : e.Sound) (heard : e.publishing = true) {fetch : Fetch}
    (hp : e.pending = some fetch) (forced : fetch.reasons.forced = true) (cursor : Option Cursor)
    (verdict : Verdict) (record : Option Record) :
    let done := e.meet ⟨cursor, verdict, .respond fetch.ticket (.ok record)⟩
    done.1.pending = none ∧ done.1.view.stopped = e.view.stopped ∧
      (done.2 = [.redraw done.1.snapshot] ∨
        done.2 = [.post .continue] ∧ done.1.view = e.view ∧ fetch.reasons.moved = false ∧
          fetch.reasons.messagesChanged = false) := by
  rcases hs.receiveAnswer_cases fetch.ticket (.ok record) with
    ⟨hne, _⟩ | ⟨fetch', hp', _, ⟨_, herr, _⟩ | ⟨_, hok, ha⟩⟩
  · exact absurd (pendingTicket?_some hp) hne
  · cases herr
  · cases hp.symm.trans hp'
    cases hok
    simp only [meet, step, react, ha, Turn.settle]
    refine ⟨rfl, rfl, ?_⟩
    by_cases hnew : (fetch.reasons.moved || fetch.reasons.messagesChanged ||
        e.view.goal != record.bind Record.goal?) = true
    · left
      rw [answerEffects, if_pos hnew, redraw, if_pos (by exact heard)]
    · right
      have hold : (fetch.reasons.moved = false ∧ fetch.reasons.messagesChanged = false) ∧
          e.view.goal = record.bind Record.goal? := by simpa using hnew
      refine ⟨?_, ?_, hold.1⟩
      · rw [answerEffects, if_neg hnew, if_pos forced, post, if_pos heard]
      · rw [answered, ← hold.2]

theorem run_refreshing (e : Engine) (cursor : Option Cursor) (verdict : Verdict)
    (record : Option Record) :
    let refreshed := e.meet ⟨cursor, verdict, .refresh⟩
    let answered := run meet refreshed.1 (refreshed.1.answering record)
    run meet e (e.refreshing cursor verdict record) =
      (answered.1, refreshed.2 ++ answered.2) := rfl

theorem refreshing_refreshed (hs : e.Sound) (heard : e.publishing = true)
    (hrun : e.view.stopped = false) {cursor : Option Cursor} {verdict : Verdict}
    (hok : (e.step cursor verdict .refresh).2.2 = .ok ()) (record : Option Record) :
    let done := run meet e (e.refreshing cursor verdict record)
    done.1.pending = none ∧ done.1.view.stopped = false ∧ Refreshed e done.1 done.2 := by
  intro done
  obtain ⟨hrunning, hrefreshes⟩ := refresh_cases hs heard hrun hok
  have hsound := meet_sound hs ⟨cursor, verdict, .refresh⟩
  have hdone : done = _ := run_refreshing e cursor verdict record
  cases hrefreshes with
  | draws idle hdrawn =>
    rw [answering_none idle] at hdone
    rw [hdone]
    simp only [run, List.append_nil]
    exact ⟨idle, hrunning, .redrawn hdrawn⟩
  | awaits fetch waiting due silent forced stays =>
    have hnot : Trigger.refresh ≠ .dispose := fun h => by cases h
    have hheard := (meet_publishing (o := ⟨cursor, verdict, .refresh⟩) hnot).trans heard
    obtain ⟨hidle, hsame, hanswer⟩ :=
      meet_answered hsound hheard waiting forced none (.ok ()) record
    rw [answering_some waiting] at hdone
    simp only [run, List.append_nil] at hdone
    rw [hdone]
    refine ⟨hidle, hsame.trans hrunning, ?_⟩
    rcases hanswer with hdrawn | ⟨hcontinued, hview, hm, hc⟩
    · refine .redrawn ?_
      rw [List.filter_append, silent, hdrawn]
      rfl
    · have hstays := stays hm hc
      obtain ⟨_, hmode, hl⟩ := due?_isSome.mp due
      rw [location?, hstays] at hl
      rw [hstays] at hmode
      refine .continued ?_ (hview.trans hstays) hmode hl
      rw [List.filter_append, silent, hcontinued]
      rfl

/-- A refresh that succeeds goes smoothly, and so does its answer. -/
theorem refreshing_smooth {cursor : Option Cursor} {verdict : Verdict}
    (hok : (e.step cursor verdict .refresh).2.2 = .ok ()) (record : Option Record) :
    Along meet (fun e _ o => e.Smooth o) e [] (e.refreshing cursor verdict record) := by
  refine ⟨⟨nofun, fun ha => verdict_of_settle ha hok, nofun⟩, ?_⟩
  refine along_of_forall (fun o ho d _ => ?_) _ _
  obtain ⟨ticket, _, rfl⟩ := List.mem_map.mp ho
  exact ⟨nofun, fun _ => rfl, nofun⟩

theorem Shows.refreshing (hs : e.Sound) (h : Shows panel e) (hrun : e.view.stopped = false)
    {cursor : Option Cursor} {verdict : Verdict}
    (hok : (e.step cursor verdict .refresh).2.2 = .ok ()) (record : Option Record) :
    let done := ProofPanel.run meet e (e.refreshing cursor verdict record)
    panel.hearAll done.2 = done.1.snapshot := by
  intro done
  obtain ⟨hidle, hrunning, _⟩ := refreshing_refreshed hs h.heard hrun hok record
  exact (h.run hs (refreshing_smooth hok record)).2.settled hrunning hidle

/-- A smooth stretch after a moment at which the panel showed the snapshot. -/
theorem run_shows_since (selector : Selector) (config : Config) {before since : List Occasion}
    (h : ∀ o ∈ before, o.trigger ≠ .dispose)
    (hshown : ({} : Snapshot).hearAll (run meet (start selector config) before).2 =
      (run meet (start selector config) before).1.snapshot)
    (hsmooth : Along meet (fun e _ o => e.Smooth o) (run meet (start selector config) before).1
      [] since) :
    Shows (({} : Snapshot).hearAll (run meet (start selector config) (before ++ since)).2)
      (run meet (start selector config) (before ++ since)).1 := by
  have heard : (run meet (start selector config) before).1.publishing = true :=
    Live.publishing ⟨selector, config, before, h, rfl⟩
  simp only [run_append, hearAll_append]
  exact ((Shows.of_snapshot heard hshown).run (run_sound selector config before) hsmooth).2

/-- Whatever has become of the fetches so far, the panel shows the snapshot after a refresh that
succeeds and is answered if it draws the panel anew, or if no fetch has been refused or has failed
since the panel showed the snapshot last. If it draws nothing, it has found nothing new where
goals are shown: the panel is only told to continue and shows the goal, but may lag behind in the
rest. -/
theorem run_refresh_resynchronizes (selector : Selector) (config : Config)
    (occasions : List Occasion) (h : ∀ o ∈ occasions, o.trigger ≠ .dispose)
    (cursor : Option Cursor) (verdict : Verdict) (record : Option Record) :
    let engine := fun occasions => (run meet (start selector config) occasions).1
    let shown := fun occasions =>
      ({} : Snapshot).hearAll (run meet (start selector config) occasions).2
    let e := engine occasions
    let done := run meet e (e.refreshing cursor verdict record)
    let panel := (shown occasions).hearAll done.2
    e.view.stopped = false → (e.step cursor verdict .refresh).2.2 = .ok () →
      ((∃ s, Effect.redraw s ∈ done.2) → panel = done.1.snapshot) ∧
      ((∀ s, Effect.redraw s ∉ done.2) →
        done.2.filter Effect.isHeard = [.post .continue] ∧ done.1.view = e.view ∧
          e.view.mode = .onlyState ∧ e.location?.isSome = true ∧
          panel = { shown occasions with stopped := false } ∧
          panel.goal = done.1.snapshot.goal ∧ panel.stopped = done.1.snapshot.stopped) ∧
      ∀ before since, occasions = before ++ since → shown before = (engine before).snapshot →
        Along meet (fun e _ o => e.Smooth o) (engine before) [] since →
        panel = done.1.snapshot := by
  intro engine shown e done panel hrun hok
  have he : e.Live := ⟨selector, config, occasions, h, rfl⟩
  obtain ⟨_, hrunning, hrefreshed⟩ := refreshing_refreshed he.sound he.publishing hrun hok record
  refine ⟨fun ⟨s, hs⟩ => hrefreshed.hearAll_of_redraw hs _, fun hnone => ?_,
    fun before since hsplit hshown hsmooth => ?_⟩
  · obtain ⟨heard, stays, mode, located, hcontinued⟩ :=
      hrefreshed.of_silent hnone (shown occasions)
    have hpanel : panel = { shown occasions with stopped := false } := hcontinued
    refine ⟨heard, stays, mode, located, hpanel, ?_, ?_⟩
    · rw [hpanel, snapshot, stays]
      exact run_shown_goal selector config occasions h
    · rw [hpanel]
      exact hrunning.symm
  · have hbefore : ∀ o ∈ before, o.trigger ≠ .dispose := fun o ho =>
      h o (hsplit ▸ List.mem_append_left since ho)
    have hshows : Shows (shown occasions) e := by
      simp only [shown, e, engine, hsplit]
      exact run_shows_since selector config hbefore hshown hsmooth
    exact hshows.refreshing he.sound hrun hok record

/-- The goal of the first place could not be fetched. The refresh finds the cursor at another place,
so that the answer draws the panel anew. -/
theorem run_refresh_resynchronizes_moved :
    let there : Option Cursor := some ⟨"/a.lean", "lean", ⟨2, 5⟩⟩
    let here : Option Cursor := some ⟨"/a.lean", "lean", ⟨7, 0⟩⟩
    let occasions : List Occasion :=
      [⟨there, .ok (), .setMode .onlyState⟩, ⟨there, .ok (), .respond 0 (.error .timeout)⟩]
    let e := (run meet (start {} {}) occasions).1
    let done := run meet e (e.refreshing here (.ok ()) none)
    (∀ o ∈ occasions, o.trigger ≠ .dispose) ∧ e.view.stopped = false ∧
      (e.step here (.ok ()) .refresh).2.2 = .ok () ∧ (∃ s, Effect.redraw s ∈ done.2) ∧
      (({} : Snapshot).hearAll (run meet (start {} {}) occasions).2).hearAll done.2 =
        done.1.snapshot := by
  intro there here occasions e done
  have hlasting : ∀ o ∈ occasions, o.trigger ≠ .dispose := by
    unfold occasions
    simp
  have hrun : e.view.stopped = false := by
    unfold e occasions there
    cbv
  have hok : (e.step here (.ok ()) .refresh).2.2 = .ok () := by
    unfold e occasions there here
    decide +kernel
  have hdrawn : Effect.redraw ⟨false, .onlyState, some ⟨"/a.lean", 8, 0⟩, none, []⟩ ∈ done.2 := by
    unfold done e occasions there here
    decide +kernel
  exact ⟨hlasting, hrun, hok, ⟨_, hdrawn⟩, (run_refresh_resynchronizes {} {} occasions hlasting
    here (.ok ()) none hrun hok).1 ⟨_, hdrawn⟩⟩

/-- The fetch after a move has failed, so that the panel shows the old place. The refresh finds the
cursor, the diagnostics and the goal as they were and leaves the panel at the old place. -/
theorem run_refresh_elsewhere :
    let there : Option Cursor := some ⟨"/a.lean", "lean", ⟨2, 5⟩⟩
    let here : Option Cursor := some ⟨"/a.lean", "lean", ⟨7, 0⟩⟩
    let record : Option Record := some { state := some "⊢ P" }
    let occasions : List Occasion :=
      [⟨there, .ok (), .setMode .onlyState⟩, ⟨there, .ok (), .respond 0 (.ok record)⟩,
        ⟨here, .ok (), .selectionChanged⟩, ⟨here, .ok (), .respond 1 (.error .timeout)⟩]
    let e := (run meet (start {} {}) occasions).1
    let done := run meet e (e.refreshing here (.ok ()) record)
    e.view.stopped = false ∧ (e.step here (.ok ()) .refresh).2.2 = .ok () ∧
      done.1.pending = none ∧
      (({} : Snapshot).hearAll (run meet (start {} {}) occasions).2).hearAll done.2 ≠
        done.1.snapshot := by
  intro there here record occasions e done
  unfold done e occasions there here record
  decide +kernel

end Engine

end ProofPanel
