import ProofPanel.Proofs.Engine.Answers
import ProofPanel.Proofs.Engine.Panel

/-!
# A switch draws the panel anew

Whoever switches the mode or resumes sees the panel drawn anew: at once if all messages are shown
or there is nowhere to ask for, else by the answer to the fetch, however often that fetch is
superseded until then. A fetch that supersedes another takes over that a page is owed.
-/
namespace ProofPanel

def Effect.isHeard : Effect → Bool
  | .redraw _ | .post _ => true
  | _ => false

def Trigger.isNews : Trigger → Bool
  | .selectionChanged | .refresh | .diagnostics _ | .statusChanged | .configure _ => true
  | _ => false

namespace Engine

def switchTo? (e : Engine) : Trigger → Option Mode
  | .setMode mode | .execute (.setMode mode) => some mode
  | .resume | .execute .continue => some e.view.mode
  | .toggleUpdating | .execute .toggleUpdating =>
    if e.view.stopped then some e.view.mode else none
  | _ => none

variable {e : Engine} {o : Occasion}

theorem toggleUpdating_switch {cursor : Option Cursor} {mode : Mode}
    (h : (if e.view.stopped then some e.view.mode else none) = some mode) :
    e.toggleUpdating cursor = e.setMode cursor mode := by
  by_cases hs : e.view.stopped = true
  · rw [if_pos hs] at h
    cases h
    rw [toggleUpdating, if_pos hs, resume]
  · rw [if_neg hs] at h
    cases h

theorem react_switch {cursor : Option Cursor} {t : Trigger} {mode : Mode}
    (h : e.switchTo? t = some mode) : e.react cursor t = e.setMode cursor mode := by
  cases t with
  | setMode m => cases h; rfl
  | resume => cases h; rfl
  | toggleUpdating => exact toggleUpdating_switch h
  | execute c =>
    cases c with
    | setMode m => cases h; rfl
    | «continue» => cases h; rfl
    | toggleUpdating => exact toggleUpdating_switch h
    | _ => cases h
  | _ => cases h

/-- A page is owed: the pending fetch is due and has a move on record. -/
structure Owes (e : Engine) : Prop where
  heard : e.publishing = true
  due : e.due?.isSome = true
  moved : ∃ fetch, e.pending = some fetch ∧ fetch.reasons.moved = true

theorem due?_isSome : e.due?.isSome = true ↔
    e.view.stopped = false ∧ e.view.mode = .onlyState ∧ e.location?.isSome = true := by
  simp only [Option.isSome_iff_exists, due?_eq_some, exists_and_left]

theorem fetchGoal_owes {reasons : Reasons} (heard : e.publishing = true)
    (due : e.due?.isSome = true) (h : (e.inheriting reasons).moved = true) :
    Owes (taken (e.fetchGoal reasons)) := by
  obtain ⟨l, hl⟩ := Option.isSome_iff_exists.mp (due?_isSome.mp due).2.2
  rw [e.fetchGoal_some hl]
  exact ⟨heard, due, _, rfl, h⟩

theorem decide_owes {reasons : Reasons} (heard : e.publishing = true)
    (due : e.due?.isSome = true) (h : (e.inheriting reasons).moved = true) :
    Owes (taken (e.decide reasons)) := by
  obtain ⟨_, hmode, hl⟩ := due?_isSome.mp due
  rw [e.decide_onlyState hmode hl]
  exact fetchGoal_owes heard due h

theorem decide_asked {reasons : Reasons} (due : e.due?.isSome = true) :
    (e.decide reasons).asked.isSome = true := by
  obtain ⟨_, hmode, hl⟩ := due?_isSome.mp due
  obtain ⟨l, hl'⟩ := Option.isSome_iff_exists.mp hl
  rw [e.decide_onlyState hmode hl, e.fetchGoal_some hl']
  rfl

theorem inheriting_moved {reasons : Reasons} (h : reasons.moved = true) :
    (e.inheriting reasons).moved = true := by
  cases hp : e.pending <;> simp [inheriting, hp, h]

namespace Owes

variable (h : Owes e)
include h

/-- Whatever its own reasons, a fetch that supersedes this one has the move on record. -/
theorem inheriting_moved (reasons : Reasons) : (e.inheriting reasons).moved = true := by
  obtain ⟨fetch, hp, hm⟩ := h.moved
  simp [inheriting, hp, hm]

theorem sound : e.Sound := fun _ _ => Option.isSome_iff_exists.mp h.due

theorem showing (l : Location) : Owes (e.showing l) := ⟨h.heard, h.due, h.moved⟩

theorem placedAt (c : Cursor) : Owes (e.placedAt c) := by
  obtain ⟨hrun, hmode, _⟩ := due?_isSome.mp h.due
  exact ⟨h.heard, due?_isSome.mpr ⟨hrun, hmode, rfl⟩, h.moved⟩

theorem acceptMessages : Owes e.acceptMessages.1 := by
  rcases e.acceptMessages_cases with ⟨ha, _⟩ | ⟨l, _, _, ha⟩
  · rw [ha]
    exact h
  · rw [ha]
    exact h.showing l

theorem arrived (cursor : Option Cursor) : Owes (e.arrived cursor) := by
  rw [Engine.arrived]
  rcases e.follow_cases cursor with hf | ⟨c, _, _, hf⟩
  · rw [hf]
    exact h.acceptMessages
  · rw [hf]
    exact (h.placedAt c).acceptMessages

theorem decide (reasons : Reasons) : Owes (taken (e.decide reasons)) :=
  decide_owes h.heard h.due (h.inheriting_moved reasons)

theorem updatePosition (cursor : Option Cursor) (reasons : Reasons) :
    Owes (taken (e.updatePosition cursor reasons)) := by
  rcases e.updatePosition_cases cursor reasons with ⟨hu, _⟩ | ⟨_, _, hu⟩
  · rw [hu]
    exact h
  · rw [hu]
    exact (h.arrived cursor).decide _

theorem receiveDiagnostics (ds : List Diagnostic) :
    Owes (taken (e.receiveDiagnostics ds)) := by
  have hreported : Owes (e.brought (.diagnostics ds)) := ⟨h.heard, h.due, h.moved⟩
  rcases e.receiveDiagnostics_cases ds with ⟨hr, _⟩ | ⟨l, _, _, _, hr⟩
  · rw [hr]
    exact hreported
  · rw [hr]
    exact (hreported.showing l).decide _

theorem statusChanged : Owes (taken e.statusChanged) := by
  rcases e.statusChanged_cases with hf | ⟨_, _, hf⟩
  · rw [hf]
    exact h
  · rw [hf]
    exact fetchGoal_owes h.heard h.due (h.inheriting_moved _)

theorem configure (p : Patch) : Owes (taken (e.configure p)) := by
  have hconfigured : Owes { e with config := e.config.merge p } := ⟨h.heard, h.due, h.moved⟩
  exact hconfigured.acceptMessages

theorem news {cursor : Option Cursor} {t : Trigger} (ht : t.isNews = true) :
    Owes (taken (e.react cursor t)) := by
  cases t with
  | selectionChanged => exact h.updatePosition cursor _
  | refresh => exact h.updatePosition cursor _
  | diagnostics ds => exact h.receiveDiagnostics ds
  | statusChanged => exact h.statusChanged
  | configure p => exact h.configure p
  | _ => cases ht

/-- The answer draws the page that is owed, and nothing else is heard. -/
theorem answered {fetch : Fetch} (hp : e.pending = some fetch) (cursor : Option Cursor)
    (verdict : Verdict) (record : Option Record) :
    let done := e.meet ⟨cursor, verdict, .respond fetch.ticket (.ok record)⟩
    done.2 = [.redraw done.1.snapshot] := by
  have hmoved : fetch.reasons.moved = true := by
    obtain ⟨fetch', hp', hm⟩ := h.moved
    rw [hp] at hp'
    cases hp'
    exact hm
  rcases h.sound.receiveAnswer_cases fetch.ticket (.ok record) with
    ⟨hne, _⟩ | ⟨fetch', hp', _, ⟨_, herr, _⟩ | ⟨_, hok, ha⟩⟩
  · exact absurd (pendingTicket?_some hp) hne
  · cases herr
  · rw [hp] at hp'
    cases hp'
    cases hok
    have hheard : (e.answered (record.bind Record.goal?)).publishing = true := h.heard
    have heffects : e.answerEffects fetch.reasons (record.bind Record.goal?) =
        [.redraw (e.answered (record.bind Record.goal?)).snapshot] := by
      rw [answerEffects, hmoved, Bool.true_or, Bool.true_or, if_pos rfl, redraw, if_pos hheard]
    simp only [Engine.meet, step, react, ha, heffects, Turn.settle]

end Owes

structure Quiet (e : Engine) (o : Occasion) : Prop where
  kind : o.trigger.isNews = true ∨ e.isStale o = true
  accepted : (e.react o.cursor o.trigger).asked.isSome = true → o.verdict = .ok ()

theorem Owes.meet (h : Owes e) (hq : e.Quiet o) : Owes (e.meet o).1 := by
  rcases hq.kind with hnews | hstale
  · rw [meet_fst, settle_eq_taken hq.accepted]
    exact h.news hnews
  · rw [meet_stale hstale]
    exact h

theorem Owes.run (h : Owes e) {later : List Occasion}
    (hq : Along Engine.meet (fun e _ o => e.Quiet o) e [] later) :
    Owes (run Engine.meet e later).1 :=
  run_induction (motive := fun _ (e : Engine) _ => Owes e) (fun _ _ _ _ he ho => he.meet ho) h hq

theorem filter_isHeard_cancelPending : e.cancelPending.2.filter Effect.isHeard = [] := by
  cases h : e.pending <;> simp [cancelPending_snd, h, Effect.isHeard]

theorem filter_isHeard_redraw (h : e.publishing = true) :
    e.redraw.filter Effect.isHeard = [.redraw e.snapshot] := by
  simp [redraw, h, Effect.isHeard]

theorem landed_running (cursor : Option Cursor) (mode : Mode) :
    (e.landed cursor mode).publishing = e.publishing ∧
      (e.landed cursor mode).view.mode = mode ∧ (e.landed cursor mode).view.stopped = false := by
  obtain ⟨_, _, _, ha⟩ := e.landed_view cursor mode
  rw [ha]
  exact ⟨rfl, rfl, rfl⟩

/-- A switch that is none because that mode is already running apart, it all comes down to deciding
for the engine that has landed. -/
theorem switch_cases {mode : Mode} (hswitch : e.switchTo? o.trigger = some mode)
    (hnew : e.view.mode ≠ mode ∨ e.view.stopped = true) :
    ∃ given reasons, given.filter Effect.isHeard = [] ∧ reasons.moved = true ∧
      reasons.forced = true ∧
      e.react o.cursor o.trigger = ((e.landed o.cursor mode).decide reasons).after given := by
  rcases e.setMode_cases o.cursor mode with ⟨hmode, hrun, _⟩ | ⟨_, hm⟩
  · rcases hnew with hne | hs
    · exact absurd hmode hne
    · rw [hrun] at hs
      cases hs
  · refine ⟨_, _, ?_, rfl, rfl, (react_switch hswitch).trans hm⟩
    split
    · rfl
    · exact filter_isHeard_cancelPending

/-- The engine that shows all messages, or is nowhere, draws at once what it is forced to. -/
theorem decide_redraws {reasons : Reasons} (heard : e.publishing = true)
    (hforced : reasons.forced = true)
    (h : e.view.mode = .allMessages ∨ e.location? = none) :
    (e.decide reasons).effects.filter Effect.isHeard = [.redraw e.snapshot] := by
  have hdraw := filter_isHeard_redraw heard
  cases hm : e.view.mode with
  | allMessages =>
    rw [e.decide_allMessages hm]
    simp only [List.filter_append, filter_isHeard_cancelPending, told, hforced, Bool.true_or,
      if_true, hdraw, List.nil_append]
  | onlyState =>
    have hl : e.location? = none := h.resolve_left (by simp [hm])
    rw [e.decide_onlyState_nowhere hm hl]
    simp only [hforced, if_true, hdraw]

theorem verdict_of_settle {t : Turn} {verdict : Verdict} (ha : t.asked.isSome = true)
    (hok : (t.settle verdict).2 = .ok ()) : verdict = .ok () := by
  obtain ⟨fetch, hf⟩ := Option.isSome_iff_exists.mp ha
  cases verdict with
  | ok _ => rfl
  | error err =>
    simp only [Turn.settle, hf] at hok
    cases hok

section Switch
variable {mode : Mode} (hswitch : e.switchTo? o.trigger = some mode)
  (hnew : e.view.mode ≠ mode ∨ e.view.stopped = true)
include hswitch hnew

theorem switch_view : (e.meet o).1.view = (e.landed o.cursor mode).view := by
  obtain ⟨given, reasons, _, _, _, hreact⟩ := switch_cases hswitch hnew
  rw [meet_view, hreact, Turn.after, decide_view]

theorem switch_redraws (heard : e.publishing = true)
    (hwhere : mode = .allMessages ∨ (e.landed o.cursor mode).location? = none) :
    (e.meet o).2.filter Effect.isHeard = [.redraw (e.landed o.cursor mode).snapshot] := by
  obtain ⟨given, reasons, hgiven, _, hforced, hreact⟩ := switch_cases hswitch hnew
  obtain ⟨hpublishing, hmode, _⟩ := landed_running (e := e) o.cursor mode
  have hdraw := decide_redraws (hpublishing.trans heard) hforced (hwhere.imp_left hmode.trans)
  rw [meet_snd, hreact, Turn.after, List.filter_append, hgiven, hdraw, List.nil_append]

theorem switch_owes (heard : e.publishing = true) (honly : mode = .onlyState)
    (hsome : (e.landed o.cursor mode).location?.isSome = true)
    (hok : (e.step o.cursor o.verdict o.trigger).2.2 = .ok ()) : Owes (e.meet o).1 := by
  obtain ⟨given, reasons, _, hmoved, _, hreact⟩ := switch_cases hswitch hnew
  obtain ⟨hpublishing, hmode, hrun⟩ := landed_running (e := e) o.cursor mode
  have hdue : (e.landed o.cursor mode).due?.isSome = true :=
    due?_isSome.mpr ⟨hrun, hmode.trans honly, hsome⟩
  have hverdict : o.verdict = .ok () := by
    refine verdict_of_settle (t := e.react o.cursor o.trigger) ?_ hok
    rw [hreact]
    exact decide_asked hdue
  have htaken : (e.meet o).1 = taken ((e.landed o.cursor mode).decide reasons) := by
    simp only [meet_fst, hreact, hverdict]
    rfl
  rw [htaken]
  exact decide_owes (hpublishing.trans heard) hdue (inheriting_moved hmoved)

end Switch

/-- A switch of the mode or a resumption that succeeds has the panel drawn anew. If all messages
are shown then, or no location is known, it does so itself. Else a fetch is pending, and whatever
news and stale answers come, as long as the backend takes all requests, the answer to the fetch
that is pending then draws the panel and tells it nothing else. -/
theorem switch_repaints (he : e.Live) {mode : Mode} (hswitch : e.switchTo? o.trigger = some mode)
    (hnew : e.view.mode ≠ mode ∨ e.view.stopped = true)
    (hok : (e.step o.cursor o.verdict o.trigger).2.2 = .ok ()) :
    let d := (e.meet o).1
    (mode = .allMessages ∨ d.location? = none →
        (e.meet o).2.filter Effect.isHeard = [.redraw d.snapshot]) ∧
      (mode = .onlyState → d.location? ≠ none → d.pending ≠ none ∧
        ∀ later, Along meet (fun e _ o => Quiet e o) d [] later →
          ∃ ticket, (run meet d later).1.pendingTicket? = some ticket ∧
            ∀ cursor verdict record,
              let done := (run meet d later).1.meet
                ⟨cursor, verdict, .respond ticket (.ok record)⟩
              done.2 = [.redraw done.1.snapshot]) := by
  intro d
  have hview : d.view = (e.landed o.cursor mode).view := switch_view hswitch hnew
  have hlocation : (e.landed o.cursor mode).location? = d.location? :=
    congrArg View.location? hview.symm
  constructor
  · intro hwhere
    have hsnapshot : d.snapshot = (e.landed o.cursor mode).snapshot := congrArg View.snapshot hview
    rw [hsnapshot]
    exact switch_redraws hswitch hnew he.publishing (hwhere.imp_right hlocation.trans)
  · intro honly hsome
    have howes : Owes d := switch_owes hswitch hnew he.publishing honly
      (hlocation ▸ Option.isSome_iff_ne_none.mpr hsome) hok
    refine ⟨?_, fun later hq => ?_⟩
    · obtain ⟨fetch, hp, _⟩ := howes.moved
      rw [hp]
      exact Option.some_ne_none fetch
    · have hlater := howes.run hq
      obtain ⟨fetch, hp, _⟩ := hlater.moved
      exact ⟨fetch.ticket, pendingTicket?_some hp, hlater.answered hp⟩

/-- After a switch the cursor moves on and the answer for its old place comes too late; then the
backend reports its status. The third fetch still owes the page, also if the goal is the one that
is shown. -/
theorem switch_repaints_superseded :
    let there : Option Cursor := some ⟨"/a.lean", "lean", ⟨2, 4⟩⟩
    let here : Option Cursor := some ⟨"/a.lean", "lean", ⟨6, 0⟩⟩
    let e := (run meet (start {} {}) [⟨there, .ok (), .selectionChanged⟩]).1
    let o : Occasion := ⟨there, .ok (), .setMode .onlyState⟩
    let later : List Occasion :=
      [⟨here, .ok (), .selectionChanged⟩, ⟨here, .ok (), .respond 0 (.ok none)⟩,
        ⟨here, .ok (), .statusChanged⟩]
    e.Live ∧ e.switchTo? o.trigger = some .onlyState ∧ e.view.mode ≠ .onlyState ∧
      (e.step o.cursor o.verdict o.trigger).2.2 = .ok () ∧ (e.meet o).1.location? ≠ none ∧
      Along meet (fun e _ o => Quiet e o) (e.meet o).1 [] later ∧
      ∃ ticket, (run meet (e.meet o).1 later).1.pendingTicket? = some ticket ∧
        ∀ cursor verdict record,
          let done := (run meet (e.meet o).1 later).1.meet
            ⟨cursor, verdict, .respond ticket (.ok record)⟩
          done.2 = [.redraw done.1.snapshot] := by
  intro there here e o later
  have he : e.Live := ⟨{}, {}, [⟨there, .ok (), .selectionChanged⟩], by simp, rfl⟩
  have hmode : e.view.mode ≠ .onlyState := by
    unfold e there
    decide
  have hok : (e.step o.cursor o.verdict o.trigger).2.2 = .ok () := by
    unfold e o there
    decide +kernel
  have hsome : (e.meet o).1.location? ≠ none := by
    have hl : (e.meet o).1.location? = some ⟨"/a.lean", 3, 4⟩ := by
      unfold e o there
      cbv
    rw [hl]
    exact Option.some_ne_none _
  have hlater : Along meet (fun e _ o => Quiet e o) (e.meet o).1 [] later := by
    refine ⟨⟨Or.inl rfl, fun _ => rfl⟩, ⟨Or.inr ?_, fun _ => rfl⟩, ⟨Or.inl rfl, fun _ => rfl⟩,
      trivial⟩
    unfold e o there here
    cbv
  have hswitch : e.switchTo? o.trigger = some .onlyState := rfl
  have hrepaints := switch_repaints he hswitch (Or.inl hmode) hok
  exact ⟨he, hswitch, hmode, hok, hsome, hlater, (hrepaints.2 rfl hsome).2 later hlater⟩

end Engine

end ProofPanel
