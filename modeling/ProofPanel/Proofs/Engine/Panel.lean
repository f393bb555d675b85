import ProofPanel.Proofs.Engine.Fetch

/-!
# No drawing is lost

A panel that hears the engine shows what the engine's snapshot says whenever the engine runs and
awaits no answer. Until then it may lag behind, but not without a reason on record: as long as a
fetch is pending, its reasons speak of every difference, so that its answer or that of a fetch
which inherits them draws the panel anew.
-/
namespace ProofPanel

def Snapshot.hear (panel : Snapshot) : Effect → Snapshot
  | .redraw s => s
  | .post (.position l) => { panel with location := some l }
  | .post .pause => { panel with stopped := true }
  | .post .continue => { panel with stopped := false }
  | _ => panel

def Snapshot.hearAll (panel : Snapshot) (effects : List Effect) : Snapshot :=
  effects.foldl Snapshot.hear panel

namespace Engine

variable {e : Engine} {panel : Snapshot}

theorem hearAll_append (effects more : List Effect) :
    panel.hearAll (effects ++ more) = (panel.hearAll effects).hearAll more :=
  List.foldl_append

theorem hearAll_redraw (h : e.publishing = true) : panel.hearAll e.redraw = e.snapshot := by
  simp [Snapshot.hearAll, redraw, h, Snapshot.hear]

theorem hearAll_post (h : e.publishing = true) (m : HostMessage) :
    panel.hearAll (e.post m) = panel.hear (.post m) := by
  simp [Snapshot.hearAll, post, h]

theorem hearAll_cancelPending : panel.hearAll e.cancelPending.2 = panel := by
  cases h : e.pending <;> simp [cancelPending_snd, h, Snapshot.hearAll, Snapshot.hear]

theorem hearAll_aside {effects : List Effect}
    (h : ∀ effect ∈ effects, effect.isAside = true) : panel.hearAll effects = panel := by
  induction effects with
  | nil => rfl
  | cons effect rest ih =>
    have hside := h effect List.mem_cons_self
    have hrest := ih fun other ho => h other (List.mem_cons_of_mem _ ho)
    cases effect with
    | reveal _ _ | hover _ _ | stopHover | insert _ _ _ => exact hrest
    | _ => cases hside

/-- The panel shows the snapshot while the engine runs and awaits no answer. While it awaits one,
only a move or changed diagnostics, on record in the fetch, excuse a difference. -/
structure Shows (panel : Snapshot) (e : Engine) : Prop where
  heard : e.publishing = true
  settled : e.view.stopped = false → e.pending = none → panel = e.snapshot
  waiting : ∀ fetch, e.pending = some fetch → fetch.reasons.moved = false →
    fetch.reasons.messagesChanged = false → panel = e.snapshot

def taken (t : Turn) : Engine := (t.settle (.ok ())).1

theorem Shows.of_snapshot (heard : e.publishing = true) (h : panel = e.snapshot) :
    Shows panel e := ⟨heard, fun _ _ => h, fun _ _ _ _ => h⟩

theorem Shows.of_stopped (heard : e.publishing = true) (hs : e.view.stopped = true)
    (hp : e.pending = none) : Shows panel e := by
  refine ⟨heard, fun hrun => ?_, fun fetch hf => ?_⟩
  · rw [hs] at hrun
    cases hrun
  · rw [hp] at hf
    cases hf

/-- Asking for a goal records every reason there is. -/
theorem fetchGoal_shows {reasons : Reasons} (heard : e.publishing = true) {l : Location}
    (hl : e.location? = some l)
    (h : (e.inheriting reasons).moved = false → (e.inheriting reasons).messagesChanged = false →
      panel = e.snapshot) :
    Shows (panel.hearAll (e.fetchGoal reasons).effects) (taken (e.fetchGoal reasons)) := by
  rw [e.fetchGoal_some hl, hearAll_append, hearAll_cancelPending]
  refine ⟨heard, fun _ hp => ?_, fun fetch hf hm hc => ?_⟩
  · cases hp
  · cases hf
    exact h hm hc

/-- The panel can be brought from what it shows to the snapshot of an engine that shows all
messages by telling it the place, unless other reasons call for a page. -/
theorem decide_allMessages_shows {reasons : Reasons} (heard : e.publishing = true)
    (hm : e.view.mode = .allMessages)
    (h : reasons.forced = false → reasons.messagesChanged = false →
      ∃ l, e.location? = some l ∧ { panel with location := some l } = e.snapshot) :
    Shows (panel.hearAll (e.decide reasons).effects) (taken (e.decide reasons)) := by
  rw [e.decide_allMessages hm, hearAll_append, hearAll_cancelPending]
  refine Shows.of_snapshot heard ?_
  by_cases hf : (reasons.forced || reasons.messagesChanged) = true
  · rw [told, if_pos hf, hearAll_redraw heard]
    rfl
  · have hr : reasons.forced = false ∧ reasons.messagesChanged = false := by simpa using hf
    obtain ⟨l, hl, hs⟩ := h hr.1 hr.2
    rw [told, if_neg hf, hl]
    simp only [hearAll_post heard]
    exact hs

theorem decide_shows {reasons : Reasons} (heard : e.publishing = true)
    (hall : e.view.mode = .allMessages → reasons.forced = false →
      reasons.messagesChanged = false →
      ∃ l, e.location? = some l ∧ { panel with location := some l } = e.snapshot)
    (hgoal : (e.inheriting reasons).moved = false →
      (e.inheriting reasons).messagesChanged = false → panel = e.snapshot)
    (hnowhere : e.location? = none → reasons.forced = true) :
    Shows (panel.hearAll (e.decide reasons).effects) (taken (e.decide reasons)) := by
  cases hm : e.view.mode with
  | allMessages => exact decide_allMessages_shows heard hm (hall hm)
  | onlyState =>
    cases hl : e.location? with
    | none =>
      rw [e.decide_onlyState_nowhere hm hl, if_pos (hnowhere hl)]
      exact Shows.of_snapshot heard (hearAll_redraw heard)
    | some l =>
      rw [e.decide_onlyState hm (by rw [hl]; rfl)]
      exact fetchGoal_shows heard hl hgoal

/-- If neither new reasons nor those on record excuse a difference, there is none. -/
theorem Shows.snapshot_of_inheriting (h : Shows panel e) (hrun : e.view.stopped = false)
    {reasons : Reasons} (hm : (e.inheriting reasons).moved = false)
    (hc : (e.inheriting reasons).messagesChanged = false) : panel = e.snapshot := by
  cases hp : e.pending with
  | none => exact h.settled hrun hp
  | some fetch =>
    simp only [inheriting, hp, Reasons.merge_moved, Reasons.merge_messagesChanged,
      Bool.or_eq_false_iff] at hm hc
    exact h.waiting fetch hp hm.2 hc.2

theorem arrived_publishing (heard : e.publishing = true) (cursor : Option Cursor) :
    (e.arrived cursor).publishing = true := by
  obtain ⟨_, _, _, ha⟩ := e.arrived_view cursor
  rw [ha]
  exact heard

theorem updatePosition_shows (hs : e.Sound) (h : Shows panel e) (cursor : Option Cursor)
    {reasons : Reasons} :
    Shows (panel.hearAll (e.updatePosition cursor reasons).effects)
      (taken (e.updatePosition cursor reasons)) := by
  rcases e.updatePosition_cases cursor reasons with ⟨hu, _⟩ | ⟨hrun, hcause, hu⟩
  · rw [hu]
    exact h
  · obtain ⟨_, _, _, ha⟩ := e.arrived_view cursor
    rw [hu]
    refine decide_shows (arrived_publishing h.heard cursor) ?_ ?_ ?_
    -- All messages: nothing but the cursor's place differs from the old snapshot.
    · intro hall hforced hc
      simp only [Reasons.merge_forced, Reasons.merge_messagesChanged, Bool.or_eq_false_iff]
        at hforced hc
      have hmoved : (e.arrival cursor).moved = true := hcause.resolve_right (by simp [hforced.1])
      obtain ⟨c, hplaced⟩ := arrived_eq_placedAt hmoved hc.2
      rw [hplaced] at hall
      have hp : e.pending = none := hs.due_of_pending (due?_eq_none_of_mode hall)
      rw [hplaced, h.settled hrun hp]
      exact ⟨_, e.location?_placedAt c, rfl⟩
    -- A goal is asked for: without a reason on record nothing differs at all.
    · intro hm hc
      have hpending : (e.arrived cursor).pending = e.pending := by rw [ha]
      rw [inheriting_congr hpending] at hm hc
      have hown := inheriting_eq_false hm hc
      simp only [Reasons.merge_moved, Reasons.merge_messagesChanged, Bool.or_eq_false_iff] at hown
      rw [arrived_eq_self hown.1.2 hown.2.2]
      exact h.snapshot_of_inheriting hrun hm hc
    · intro hn
      rw [Reasons.merge_forced, hcause.resolve_left (fun hm => location?_of_moved hm hn)]
      rfl

/-- A switch of the mode draws the panel anew, at once or when the goal is known. -/
theorem setMode_shows (h : Shows panel e) (cursor : Option Cursor) (mode : Mode) :
    Shows (panel.hearAll (e.setMode cursor mode).effects) (taken (e.setMode cursor mode)) := by
  rcases e.setMode_cases cursor mode with ⟨_, _, hm⟩ | ⟨_, hm⟩
  · rw [hm]
    exact h
  · have hprefix : panel.hearAll (if mode = .onlyState then [] else e.cancelPending.2) = panel := by
      split
      · rfl
      · exact hearAll_cancelPending
    rw [hm]
    simp only [Turn.after, hearAll_append, hprefix]
    refine decide_shows (arrived_publishing (e := e.switched mode) h.heard cursor) ?_ ?_
      (fun _ => rfl)
    · intro _ hforced _
      cases hforced
    · intro hmoved hc
      have hown := inheriting_eq_false hmoved hc
      cases hown.1

theorem receiveDiagnostics_shows (h : Shows panel e) (ds : List Diagnostic) :
    Shows (panel.hearAll (e.receiveDiagnostics ds).effects) (taken (e.receiveDiagnostics ds)) := by
  rcases e.receiveDiagnostics_cases ds with ⟨hr, _⟩ | ⟨l, _, hl, _, hr⟩
  · rw [hr]
    exact ⟨h.heard, h.settled, h.waiting⟩
  · rw [hr]
    refine decide_shows h.heard ?_ ?_ ?_
    · intro _ _ hc
      cases hc
    · intro hm hc
      have hown := inheriting_eq_false hm hc
      cases hown.2
    · intro hn
      cases hl.symm.trans hn

theorem statusChanged_shows (h : Shows panel e) :
    Shows (panel.hearAll e.statusChanged.effects) (taken e.statusChanged) := by
  rcases e.statusChanged_cases with hf | ⟨l, due, hf⟩
  · rw [hf]
    exact h
  · obtain ⟨hrun, _, hl⟩ := (due?_eq_some _).mp due
    rw [hf]
    exact fetchGoal_shows h.heard hl (h.snapshot_of_inheriting hrun)

theorem configure_shows (h : Shows panel e) (p : Patch) :
    Shows (panel.hearAll (e.configure p).effects) (taken (e.configure p)) := by
  rcases ({ e with config := e.config.merge p } : Engine).acceptMessages_cases with
    ⟨ha, _⟩ | ⟨l, _, _, ha⟩
  all_goals
    simp only [configure, ha]
    exact Shows.of_snapshot h.heard (hearAll_redraw h.heard)

theorem pause_shows (h : Shows panel e) :
    Shows (panel.hearAll e.pause.effects) (taken e.pause) := by
  rw [pause_eq]
  exact Shows.of_stopped h.heard rfl rfl

/-- An answer that is no error settles what its fetch has on record. -/
theorem receiveAnswer_shows (hs : e.Sound) (h : Shows panel e) {ticket : Ticket} {answer : Answer}
    (hok : ∀ err, answer = .error err → e.pendingTicket? ≠ some ticket) :
    Shows (panel.hearAll (e.receiveAnswer ticket answer).effects)
      (taken (e.receiveAnswer ticket answer)) := by
  rcases hs.receiveAnswer_cases ticket answer with
    ⟨_, ha⟩ | ⟨fetch, hp, ht, ⟨err, herr, _⟩ | ⟨record, _, ha⟩⟩
  · rw [ha]
    exact h
  · exact absurd (ht ▸ pendingTicket?_some hp) (hok err herr)
  · rw [ha]
    obtain ⟨l, hl⟩ := hs fetch hp
    obtain ⟨hrun, _, _⟩ := (due?_eq_some _).mp hl
    by_cases hnew : (fetch.reasons.moved || fetch.reasons.messagesChanged ||
        e.view.goal != record.bind Record.goal?) = true
    · rw [answerEffects, if_pos hnew]
      refine Shows.of_snapshot h.heard ?_
      rw [hearAll_redraw (by exact h.heard)]
      rfl
    · have hold : (fetch.reasons.moved = false ∧ fetch.reasons.messagesChanged = false) ∧
          e.view.goal = record.bind Record.goal? := by simpa using hnew
      have hpanel : panel = (e.answered (record.bind Record.goal?)).snapshot := by
        rw [h.waiting fetch hp hold.1.1 hold.1.2, ← hold.2]
        rfl
      rw [answerEffects, if_neg hnew]
      refine Shows.of_snapshot h.heard ?_
      split
      · rw [hearAll_post h.heard, hpanel]
        simp [Snapshot.hear, snapshot, View.snapshot, answered, hrun, taken, Turn.settle]
      · exact hpanel

/-- A run goes smoothly where the backend takes the request, if there is one, the pending fetch is
not answered by an error and the engine is not disposed of. -/
structure Smooth (e : Engine) (o : Occasion) : Prop where
  lasting : o.trigger ≠ .dispose
  accepted : (e.react o.cursor o.trigger).asked.isSome = true → o.verdict = .ok ()
  answered : ∀ ticket err, o.trigger = .respond ticket (.error err) →
    e.pendingTicket? ≠ some ticket

theorem Does.shows {cursor : Option Cursor} {t : Trigger} {turn : Turn}
    (hd : Does e cursor t turn) (hs : e.Sound) (h : Shows panel e) (lasting : t ≠ .dispose)
    (answered : ∀ ticket err, t = .respond ticket (.error err) →
      e.pendingTicket? ≠ some ticket) :
    Shows (panel.hearAll turn.effects) (taken turn) := by
  cases hd with
  | update _ _ _ => exact updatePosition_shows hs h cursor
  | report ds => exact receiveDiagnostics_shows h ds
  | status => exact statusChanged_shows h
  | answer ticket answer =>
    exact receiveAnswer_shows hs h (fun err herr => answered ticket err (by rw [herr]))
  | configure p => exact configure_shows h p
  | pause _ _ => exact pause_shows h
  | switch _ mode _ => exact setMode_shows h cursor mode
  | aside _ effects _ aside =>
    rw [hearAll_aside aside]
    exact h
  | dispose => exact absurd rfl lasting

theorem settle_eq_taken {t : Turn} {verdict : Verdict}
    (h : t.asked.isSome = true → verdict = .ok ()) : (t.settle verdict).1 = taken t := by
  cases ha : t.asked with
  | none => simp only [taken, Turn.settle, ha]
  | some fetch => rw [taken, h (by rw [ha]; rfl)]

theorem meet_shows (hs : e.Sound) (h : Shows panel e) {o : Occasion} (ho : e.Smooth o) :
    Shows (panel.hearAll (e.meet o).2) (e.meet o).1 := by
  rw [meet_fst, meet_snd, settle_eq_taken ho.accepted]
  exact (e.react_does o.cursor o.trigger).shows hs h ho.lasting ho.answered

/-- After any smooth run that leaves the engine running and without a fetch, a panel that heard
all of it shows the engine's snapshot. -/
theorem run_panel_eq_snapshot (selector : Selector) (config : Config)
    (occasions : List Occasion)
    (h : Along meet (fun e _ o => e.Smooth o) (start selector config) [] occasions)
    (hrun : (run meet (start selector config) occasions).1.view.stopped = false)
    (hp : (run meet (start selector config) occasions).1.pending = none) :
    ({} : Snapshot).hearAll (run meet (start selector config) occasions).2 =
      (run meet (start selector config) occasions).1.snapshot := by
  have hshown : (run meet (start selector config) occasions).1.Sound ∧
      Shows (({} : Snapshot).hearAll (run meet (start selector config) occasions).2)
        (run meet (start selector config) occasions).1 := by
    refine run_induction
      (motive := fun _ e effects => Sound e ∧ Shows (({} : Snapshot).hearAll effects) e)
      ?_ ⟨start_sound selector config, Shows.of_snapshot rfl rfl⟩ h
    intro _ e effects o he ho
    refine ⟨meet_sound he.1 o, ?_⟩
    rw [hearAll_append]
    exact meet_shows he.1 he.2 ho
  exact hshown.2.settled hrun hp

/-- A move whose fetch is superseded before its answer comes is drawn by the answer to the next
fetch. -/
theorem run_panel_eq_snapshot_superseded :
    let cursor : Option Cursor := some ⟨"/a.lean", "lean", ⟨2, 4⟩⟩
    let occasions : List Occasion :=
      [⟨cursor, .ok (), .setMode .onlyState⟩, ⟨cursor, .ok (), .statusChanged⟩,
        ⟨cursor, .ok (), .respond 0 (.error .timeout)⟩, ⟨cursor, .ok (), .respond 1 (.ok none)⟩]
    Along meet (fun e _ o => Smooth e o) (start {} {}) [] occasions ∧
      (run meet (start {} {}) occasions).1.location? = some ⟨"/a.lean", 3, 4⟩ ∧
      ({} : Snapshot).hearAll (run meet (start {} {}) occasions).2 =
        (run meet (start {} {}) occasions).1.snapshot := by
  intro cursor occasions
  have h : Along meet (fun e _ o => Smooth e o) (start {} {}) [] occasions := by
    refine ⟨⟨nofun, fun _ => rfl, nofun⟩, ⟨nofun, fun _ => rfl, nofun⟩,
      ⟨nofun, fun _ => rfl, ?_⟩, ⟨nofun, fun _ => rfl, nofun⟩, trivial⟩
    intro ticket err ht
    cases ht
    unfold cursor
    decide
  refine ⟨h, ?_, run_panel_eq_snapshot {} {} occasions h ?_ ?_⟩
  all_goals
    unfold occasions cursor
    cbv

end Engine

end ProofPanel
