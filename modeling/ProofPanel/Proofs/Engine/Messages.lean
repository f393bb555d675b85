import ProofPanel.Proofs.Engine.Run

/-!
# The accepted diagnostics

Whenever the engine runs and knows a location, the diagnostics it has accepted are those that
belong there by the backend's last report, whatever triggers came before: each trigger that
changes the cursor, the mode, the configuration or the report of a running engine accepts anew.
-/
namespace ProofPanel

theorem Diagnostic.sameList_refl (ds : List Diagnostic) : Diagnostic.sameList ds ds = true := by
  simp [Diagnostic.sameList]

namespace Engine

/-- Nothing is accepted without a location, and a running engine has accepted what belongs at its
location. -/
structure Coherent (e : Engine) : Prop where
  nowhere : e.location? = none → e.view.messages = none
  here : e.view.stopped = false → ∀ l, e.location? = some l →
    ∃ ms, e.view.messages = some ms ∧ Diagnostic.sameList ms (e.relevantAt l) = true

variable {e : Engine}

theorem Coherent.withFetch (h : e.Coherent) (pending : Option Fetch) (next : Ticket) :
    Coherent { e with pending := pending, nextTicket := next } := ⟨h.nowhere, h.here⟩

theorem acceptMessages_coherent (h : e.location? = none → e.view.messages = none) :
    e.acceptMessages.1.Coherent := by
  rcases e.acceptMessages_cases with ⟨ha, hs⟩ | ⟨l, _, hl, ha⟩
  · rw [ha]
    refine ⟨h, fun hrun l hl => ?_⟩
    rcases hs with hs | hs | ⟨l', old, hl', ho, hsame⟩
    · rw [hs] at hrun
      cases hrun
    · rw [hs] at hl
      cases hl
    · rw [hl'] at hl
      cases hl
      exact ⟨old, ho, hsame⟩
  · rw [ha]
    refine ⟨fun hn => ?_, fun _ l' hl' => ?_⟩
    · rw [location?_showing, hl] at hn
      cases hn
    · rw [location?_showing, hl] at hl'
      cases hl'
      exact ⟨_, rfl, Diagnostic.sameList_refl _⟩

theorem arrived_coherent (h : e.location? = none → e.view.messages = none)
    (cursor : Option Cursor) : (e.arrived cursor).Coherent := by
  apply acceptMessages_coherent
  rcases e.follow_cases cursor with hf | ⟨c, _, _, hf⟩
  · rw [hf]
    exact h
  · rw [hf, location?_placedAt]
    intro hn
    cases hn

theorem decide_coherent (h : e.Coherent) (reasons : Reasons) :
    (e.decide reasons).engine.Coherent := by
  obtain ⟨pending, next, hd⟩ := e.decide_engine reasons
  rw [hd]
  exact h.withFetch pending next

theorem fetchGoal_coherent (h : e.Coherent) (reasons : Reasons) :
    (e.fetchGoal reasons).engine.Coherent := by
  obtain ⟨pending, next, hd⟩ := e.fetchGoal_engine reasons
  rw [hd]
  exact h.withFetch pending next

theorem updatePosition_coherent (h : e.Coherent) (cursor : Option Cursor) (reasons : Reasons) :
    (e.updatePosition cursor reasons).engine.Coherent := by
  rcases e.updatePosition_cases cursor reasons with ⟨hu, _⟩ | ⟨_, _, hu⟩
  · rw [hu]
    exact h
  · rw [hu]
    exact decide_coherent (arrived_coherent h.nowhere cursor) _

theorem receiveDiagnostics_coherent (h : e.Coherent) (ds : List Diagnostic) :
    (e.receiveDiagnostics ds).engine.Coherent := by
  have ha : (e.brought (.diagnostics ds)).acceptMessages.1.Coherent :=
    acceptMessages_coherent h.nowhere
  rcases e.receiveDiagnostics_cases ds with ⟨hr, hs | hsame⟩ | ⟨l, _, _, hnew, hr⟩
  · rw [hr]
    refine ⟨h.nowhere, fun hrun => ?_⟩
    rw [show e.view.stopped = false from hrun] at hs
    cases hs
  · rw [hsame] at ha
    rw [hr]
    exact ha
  · rw [hnew] at ha
    rw [hr]
    exact decide_coherent ha _

/-- A switch accepts anew, so that of a stopped engine no more need be known. -/
theorem setMode_coherent (h : e.Coherent) (cursor : Option Cursor) (mode : Mode) :
    (e.setMode cursor mode).engine.Coherent := by
  rcases e.setMode_cases cursor mode with ⟨_, _, hm⟩ | ⟨_, hm⟩
  · rw [hm]
    exact h
  · have hlanded : (e.landed cursor mode).Coherent :=
      arrived_coherent (e := e.switched mode) h.nowhere cursor
    rw [hm]
    exact decide_coherent hlanded _

theorem pause_coherent (h : e.Coherent) : e.pause.engine.Coherent := by
  rw [pause_eq]
  exact ⟨h.nowhere, fun hrun => by cases hrun⟩

theorem receiveAnswer_coherent (h : e.Coherent) (ticket : Ticket) (answer : Answer) :
    (e.receiveAnswer ticket answer).engine.Coherent := by
  rcases e.receiveAnswer_cases ticket answer with
    ⟨_, ha⟩ | ⟨_, _, _, ⟨_, ha⟩ | ⟨_, ⟨_, _, ha⟩ | ⟨_, _, ha⟩⟩⟩
  · rw [ha]
    exact h
  all_goals
    rw [ha]
    exact ⟨h.nowhere, h.here⟩

theorem statusChanged_coherent (h : e.Coherent) : e.statusChanged.engine.Coherent := by
  rcases e.statusChanged_cases with hf | ⟨l, _, hf⟩
  · rw [hf]
    exact h
  · rw [hf]
    exact fetchGoal_coherent h _

/-- Only disposing leaves the accepted diagnostics behind, as it resets the configuration. -/
theorem Does.coherent {cursor : Option Cursor} {t : Trigger} {turn : Turn}
    (hd : Does e cursor t turn) (h : e.Coherent) (ht : t ≠ .dispose) : turn.engine.Coherent := by
  cases hd with
  | update _ reasons _ => exact updatePosition_coherent h cursor reasons
  | report ds => exact receiveDiagnostics_coherent h ds
  | status => exact statusChanged_coherent h
  | answer ticket answer => exact receiveAnswer_coherent h ticket answer
  | configure p => exact acceptMessages_coherent h.nowhere
  | pause _ _ => exact pause_coherent h
  | switch _ mode _ => exact setMode_coherent h cursor mode
  | aside _ _ _ _ => exact h
  | dispose => exact absurd rfl ht

theorem meet_coherent (h : e.Coherent) {o : Occasion} (ho : o.trigger ≠ .dispose) :
    (e.meet o).1.Coherent := by
  obtain ⟨pending, hp⟩ := settle_engine (e.react o.cursor o.trigger) o.verdict
  rw [meet_fst, hp]
  exact ((e.react_does o.cursor o.trigger).coherent h ho).withFetch pending _

end Engine

def Occasion.report? (o : Occasion) : Option (List Diagnostic) :=
  match o.trigger with
  | .diagnostics ds => some ds
  | _ => none

/-- The last report that came up in a run, also if it came while the engine was stopped. -/
def lastReport (occasions : List Occasion) : List Diagnostic :=
  ((occasions.filterMap Occasion.report?).getLast?).getD []

theorem lastReport_snoc (occasions : List Occasion) (o : Occasion) :
    lastReport (occasions ++ [o]) = o.report?.getD (lastReport occasions) := by
  cases h : o.report? <;> simp [lastReport, h]

namespace Engine

theorem meet_diagnostics (e : Engine) (o : Occasion) :
    (e.meet o).1.diagnostics = o.report?.getD e.diagnostics := by
  obtain ⟨pending, hp⟩ := settle_engine (e.react o.cursor o.trigger) o.verdict
  have hs := congrArg (·.2.1) (e.react_surroundings o.cursor o.trigger)
  rw [meet_fst, hp]
  refine hs.trans ?_
  cases ht : o.trigger <;> simp [brought, surroundings, Occasion.report?, ht]

/-- After any run that does not dispose of the engine, refused and failed fetches included, the
accepted diagnostics are coherent, and the report they are taken from is the last one. -/
theorem run_coherent (selector : Selector) (config : Config) (occasions : List Occasion)
    (h : ∀ o ∈ occasions, o.trigger ≠ .dispose) :
    (run meet (start selector config) occasions).1.Coherent ∧
      (run meet (start selector config) occasions).1.diagnostics = lastReport occasions := by
  have start_coherent : (start selector config).Coherent :=
    ⟨fun _ => rfl, fun _ l hl => by cases hl⟩
  have hall : Along meet (fun _ _ o => o.trigger ≠ .dispose) (start selector config) []
      occasions := along_of_forall (fun o ho _ _ => h o ho) _ _
  refine run_induction
    (motive := fun before (e : Engine) _ => e.Coherent ∧ e.diagnostics = lastReport before)
    ?_ ⟨start_coherent, rfl⟩ hall
  intro before e _ o he ho
  refine ⟨meet_coherent he.1 ho, ?_⟩
  rw [meet_diagnostics, lastReport_snoc, he.2]

theorem run_messages_belong (selector : Selector) (config : Config) (occasions : List Occasion)
    (h : ∀ o ∈ occasions, o.trigger ≠ .dispose) :
    let e := (run meet (start selector config) occasions).1
    (e.location? = none → e.view.messages = none) ∧
      (e.view.stopped = false → ∀ l, e.location? = some l →
        ∃ ms, e.view.messages = some ms ∧
          Diagnostic.sameList ms (Diagnostic.relevant (lastReport occasions) l e.view.mode
            e.config.allErrorsOnLine) = true) := by
  intro e
  obtain ⟨hc, hd⟩ := run_coherent selector config occasions h
  refine ⟨hc.nowhere, fun hrun l hl => ?_⟩
  obtain ⟨ms, hms, hsame⟩ := hc.here hrun l hl
  rw [relevantAt, hd] at hsame
  exact ⟨ms, hms, hsame⟩

/-- A report that comes while the engine is stopped counts when it is resumed, even if the fetch
is then refused. -/
theorem run_messages_belong_reported_while_stopped :
    let cursor : Option Cursor := some ⟨"/a.lean", "lean", ⟨2, 4⟩⟩
    let ds : List Diagnostic := [⟨"/a.lean", 3, 0, .error, "", "unknown identifier", none, none⟩]
    let occasions : List Occasion :=
      [⟨cursor, .ok (), .selectionChanged⟩, ⟨cursor, .ok (), .pause⟩,
        ⟨cursor, .ok (), .diagnostics ds⟩, ⟨cursor, .error .disconnected, .setMode .onlyState⟩]
    let e := (run meet (start {} {}) occasions).1
    (∀ o ∈ occasions, o.trigger ≠ .dispose) ∧ e.view.stopped = false ∧
      ∃ ms, e.view.messages = some ms ∧
        Diagnostic.sameList ms
          (Diagnostic.relevant ds ⟨"/a.lean", 3, 4⟩ e.view.mode
            e.config.allErrorsOnLine) = true := by
  intro cursor ds occasions e
  have h : ∀ o ∈ occasions, o.trigger ≠ .dispose := by simp [occasions]
  have hrun : e.view.stopped = false := by unfold e occasions ds cursor; cbv
  have hl : e.location? = some ⟨"/a.lean", 3, 4⟩ := by unfold e occasions ds cursor; cbv
  exact ⟨h, hrun, (run_messages_belong {} {} occasions h).2 hrun _ hl⟩

end Engine

end ProofPanel
