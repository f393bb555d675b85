import ProofPanel.Proofs.Engine.Answers
import ProofPanel.Proofs.Engine.Decision
import ProofPanel.Proofs.Engine.Messages

/-!
# Turns that fail

A turn fails if the backend refuses a request or answers the pending fetch with an error, and it
fails with that error. The panel hears nothing of it and what it shows stays; the fetch is over,
and one that the refused request was to supersede has been given up.
-/
namespace ProofPanel

/-- A turn outside of answers: it has no failure of its own, and one that asks the backend lets the
panel hear nothing. -/
structure Turn.Reserved (t : Turn) : Prop where
  unfailing : t.failure = none
  silent : t.asked.isSome → t.heard = []

theorem Turn.settle_eq_error {t : Turn} {verdict : Verdict} {err : BackendError} :
    (t.settle verdict).2 = .error err ↔
      t.asked.isSome ∧ verdict = .error err ∨ t.asked = none ∧ t.failure = some err := by
  unfold settle
  cases t.asked with
  | none => cases t.failure <;> simp
  | some fetch => cases verdict <;> simp

namespace Engine

variable {e : Engine} {o : Occasion} {cursor : Option Cursor} {t : Trigger} {err : BackendError}

/-! ## Turns outside of answers -/

theorem reserved_of_idle {t : Turn} (asked : t.asked = none) (failure : t.failure = none) :
    t.Reserved := by
  refine ⟨failure, fun h => ?_⟩
  rw [asked] at h
  cases h

theorem fetchGoal_reserved (e : Engine) (reasons : Reasons) : (e.fetchGoal reasons).Reserved := by
  refine ⟨?_, fun _ => fetchGoal_heard e reasons⟩
  cases hl : e.location? with
  | none => rw [e.fetchGoal_none hl]
  | some l => rw [e.fetchGoal_some hl]

theorem decide_reserved (e : Engine) (reasons : Reasons) : (e.decide reasons).Reserved := by
  cases hm : e.view.mode with
  | allMessages =>
    rw [e.decide_allMessages hm]
    exact reserved_of_idle rfl rfl
  | onlyState =>
    cases hl : e.location? with
    | none =>
      rw [e.decide_onlyState_nowhere hm hl]
      exact reserved_of_idle rfl rfl
    | some l =>
      rw [e.decide_onlyState hm (by rw [hl]; rfl)]
      exact e.fetchGoal_reserved reasons

theorem setMode_reserved (e : Engine) (cursor : Option Cursor) (mode : Mode) :
    (e.setMode cursor mode).Reserved := by
  rcases e.setMode_cases cursor mode with ⟨_, _, hm⟩ | ⟨_, hm⟩
  · rw [hm]
    exact reserved_of_idle rfl rfl
  · have hdecided := (e.landed cursor mode).decide_reserved
      (switching.merge ((e.switched mode).arrival cursor))
    rw [hm]
    refine ⟨hdecided.unfailing, fun hasked => ?_⟩
    rw [switch_heard]
    exact hdecided.silent hasked

theorem Does.reserved {t : Trigger} {turn : Turn} (hd : Does e cursor t turn)
    (ht : ∀ ticket answer, t ≠ .respond ticket answer) : turn.Reserved := by
  cases hd with
  | update _ reasons _ =>
    rcases e.updatePosition_cases cursor reasons with ⟨hu, _⟩ | ⟨_, _, hu⟩
    · rw [hu]
      exact reserved_of_idle rfl rfl
    · rw [hu]
      exact decide_reserved _ _
  | report ds =>
    rcases e.receiveDiagnostics_cases ds with ⟨hr, _⟩ | ⟨_, _, _, _, hr⟩
    · rw [hr]
      exact reserved_of_idle rfl rfl
    · rw [hr]
      exact decide_reserved _ _
  | status =>
    rcases e.statusChanged_cases with hf | ⟨_, _, hf⟩
    · rw [hf]
      exact reserved_of_idle rfl rfl
    · rw [hf]
      exact e.fetchGoal_reserved _
  | answer ticket answer => exact absurd rfl (ht ticket answer)
  | configure _ => exact reserved_of_idle rfl rfl
  | pause _ _ => exact reserved_of_idle rfl rfl
  | switch _ mode _ => exact e.setMode_reserved cursor mode
  | aside _ _ _ _ => exact reserved_of_idle rfl rfl
  | dispose => exact reserved_of_idle rfl rfl

/-! ## Why a turn fails and what it leaves -/

/-- A turn fails with an error of the backend: as the verdict on a request, before which the pending
fetch is given up, or as the answer to the pending fetch. The backend hears nothing else. -/
inductive FailsWith (e : Engine) (o : Occasion) (err : BackendError) : Prop
  | refused (l : Location) (verdict : o.verdict = .error err)
      (calls : (e.meet o).2.filter Effect.isCall =
        e.pendingTicket?.toList.map .cancel ++ [.request e.nextTicket l])
  | answered (ticket : Ticket) (trigger : o.trigger = .respond ticket (.error err))
      (pending : e.pendingTicket? = some ticket) (calls : (e.meet o).2.filter Effect.isCall = [])

/-- What is left of a turn that fails: the panel hears nothing, goal and configuration stay as they
are, of the reports a new one is kept, no fetch is pending. Where only an answer or a change of the
status came up, nothing that is shown has changed. -/
structure Kept (e : Engine) (o : Occasion) : Prop where
  silent : (e.meet o).2.filter Effect.isHeard = []
  goal : (e.meet o).1.view.goal = e.view.goal
  config : (e.meet o).1.config = e.config
  diagnostics : (e.meet o).1.diagnostics = o.report?.getD e.diagnostics
  idle : (e.meet o).1.pending = none
  view : ((∃ ticket answer, o.trigger = .respond ticket answer) ∨ o.trigger = .statusChanged) →
    (e.meet o).1.view = e.view

theorem cancelPending_calls (e : Engine) :
    e.cancelPending.2 = e.pendingTicket?.toList.map .cancel := by
  cases h : e.pending <;> simp [cancelPending_snd, pendingTicket?, h]

theorem step_outcome (e : Engine) (o : Occasion) :
    (e.step o.cursor o.verdict o.trigger).2.2 =
      ((e.react o.cursor o.trigger).settle o.verdict).2 := rfl

/-- A turn that asks is over with the refusal. -/
theorem refused_kept (h : e.Sound) (ho : o.trigger.isOrdinary = true)
    (hasked : (e.react o.cursor o.trigger).asked.isSome) (hv : o.verdict = .error err) :
    FailsWith e o err ∧ Kept e o := by
  have hrespond : ∀ ticket answer, o.trigger ≠ .respond ticket answer := by
    intro ticket answer ht
    rw [ht] at ho
    cases ho
  have hreserved := (e.react_does o.cursor o.trigger).reserved hrespond
  cases react_deals h o.cursor ho with
  | keep asked _ _ _ _ =>
    rw [asked] at hasked
    cases hasked
  | giveUp _ _ asked _ _ _ _ =>
    rw [asked] at hasked
    cases hasked
  | ask l reasons _ asked calls pending _ =>
    have hmeet : (e.meet o).1 = (e.react o.cursor o.trigger).engine := by
      simp only [meet_fst, Turn.settle, asked, hv]
    refine ⟨.refused l hv ?_, ?_⟩
    · rw [← cancelPending_calls]
      exact calls
    · refine ⟨hreserved.silent hasked, ?_, ?_, meet_diagnostics e o, ?_, fun ht => ?_⟩
      · rw [hmeet]
        exact e.react_goal o.cursor hrespond
      · have hconfig := congrArg (·.2.2.1) (e.react_surroundings o.cursor o.trigger)
        rw [hmeet]
        refine hconfig.trans ?_
        cases ht : o.trigger with
        | configure p =>
          rw [ht] at asked
          cases asked
        | dispose =>
          rw [ht] at ho
          cases ho
        | _ => rfl
      · rw [hmeet, pending]
      · obtain ⟨ticket, answer, ht⟩ | ht := ht
        · exact absurd ht (hrespond ticket answer)
        · rw [hmeet, ht]
          rcases e.statusChanged_cases with hf | ⟨_, _, hf⟩
          · rw [react, hf]
          · obtain ⟨_, _, hd⟩ := e.fetchGoal_engine {}
            rw [react, hf, hd]

theorem answered_kept (h : e.Sound) {ticket : Ticket}
    (ht : o.trigger = .respond ticket (.error err)) (hp : e.pendingTicket? = some ticket) :
    (e.step o.cursor o.verdict o.trigger).2.2 = .error err ∧ FailsWith e o err ∧ Kept e o := by
  rcases h.receiveAnswer_cases ticket (.error err) with
    ⟨hne, _⟩ | ⟨fetch, _, _, ⟨_, herr, ha⟩ | ⟨_, hok, _⟩⟩
  · exact absurd hp hne
  · cases herr
    have hreact : e.react o.cursor o.trigger =
        { engine := { e with pending := none }, failure := some err } := by rw [ht, react, ha]
    have hmeet : e.meet o = ({ e with pending := none }, []) := by
      simp only [meet, step, hreact, Turn.settle]
    refine ⟨?_, .answered ticket ht hp ?_, ⟨?_, ?_, ?_, meet_diagnostics e o, ?_, fun _ => ?_⟩⟩
    · rw [step_outcome, hreact]
      rfl
    · rw [hmeet]
      rfl
    · rw [hmeet]
      rfl
    all_goals rw [hmeet]
  · cases hok

theorem isOrdinary_of_asked (h : (e.react cursor t).asked.isSome) : t.isOrdinary = true := by
  cases t with
  | respond ticket answer =>
    rw [react, (e.receiveAnswer_idle ticket answer).1] at h
    cases h
  | dispose => cases h
  | _ => rfl

theorem fails_kept (h : e.Sound) (hf : (e.step o.cursor o.verdict o.trigger).2.2 = .error err) :
    FailsWith e o err ∧ Kept e o := by
  rw [step_outcome, Turn.settle_eq_error] at hf
  rcases hf with ⟨hasked, hv⟩ | ⟨_, hfailure⟩
  · exact refused_kept h (isOrdinary_of_asked hasked) hasked hv
  · by_cases ht : ∃ ticket answer, o.trigger = .respond ticket answer
    · obtain ⟨ticket, answer, ht⟩ := ht
      rw [ht, react] at hfailure
      rcases h.receiveAnswer_cases ticket answer with
        ⟨_, ha⟩ | ⟨fetch, hp, rfl, ⟨err', rfl, ha⟩ | ⟨_, _, ha⟩⟩
      · rw [ha] at hfailure
        cases hfailure
      · rw [ha] at hfailure
        cases hfailure
        exact (answered_kept h ht (pendingTicket?_some hp)).2
      · rw [ha] at hfailure
        cases hfailure
    · have hreserved := (e.react_does o.cursor o.trigger).reserved fun ticket answer hr =>
        ht ⟨ticket, answer, hr⟩
      rw [hreserved.unfailing] at hfailure
      cases hfailure

/-- Nothing but a turn that asks calls the backend with a request. -/
theorem asked_of_calls (h : e.Sound) {ticket : Ticket} {l : Location}
    (hm : .request ticket l ∈ (e.react cursor t).calls) : (e.react cursor t).asked.isSome := by
  cases ho : t.isOrdinary with
  | true =>
    cases react_deals h cursor ho with
    | keep _ calls _ _ _ =>
      rw [calls] at hm
      cases hm
    | giveUp fetch _ _ calls _ _ _ =>
      rw [calls] at hm
      cases List.mem_singleton.mp hm
    | ask _ _ _ asked _ _ _ =>
      rw [asked]
      rfl
  | false =>
    cases t with
    | respond ticket answer =>
      rw [react, (e.receiveAnswer_idle ticket answer).2] at hm
      cases hm
    | dispose =>
      have hcalls : (e.react cursor .dispose).calls = e.cancelPending.2 := filter_cancelPending
      rw [hcalls, cancelPending_calls] at hm
      obtain ⟨_, _, hcancel⟩ := List.mem_map.mp hm
      cases hcancel
    | _ => cases ho

theorem FailsWith.fails (h : e.Sound) (hf : FailsWith e o err) :
    (e.step o.cursor o.verdict o.trigger).2.2 = .error err := by
  cases hf with
  | refused l verdict calls =>
    have hm : .request e.nextTicket l ∈ (e.react o.cursor o.trigger).calls := by
      refine (congrArg (Effect.request e.nextTicket l ∈ ·) calls).mpr ?_
      exact List.mem_append_right _ (List.mem_singleton.mpr rfl)
    exact Turn.settle_eq_error.mpr (.inl ⟨asked_of_calls h hm, verdict⟩)
  | answered ticket trigger pending _ => exact (answered_kept h trigger pending).1

/-- In every state that a run reaches, disposed of or not, a turn fails exactly with the error of a
refused request or of an answer to the pending fetch. Then what the panel shows is kept, and an
answer can fail for no other ticket. -/
theorem run_failure_keeps_shown (selector : Selector) (config : Config) (occasions : List Occasion)
    (o : Occasion) (err : BackendError) :
    let e := (run meet (start selector config) occasions).1
    let outcome := (e.step o.cursor o.verdict o.trigger).2.2
    (outcome = .error err ↔ FailsWith e o err) ∧ (outcome = .error err → Kept e o) ∧
      ∀ ticket answer, o.trigger = .respond ticket answer → outcome = .error err →
        e.pendingTicket? = some ticket ∧ answer = .error err := by
  intro e outcome
  have h : e.Sound := run_sound selector config occasions
  refine ⟨⟨fun hf => (fails_kept h hf).1, FailsWith.fails h⟩, fun hf => (fails_kept h hf).2,
    fun ticket answer ht hf => ?_⟩
  cases (fails_kept h hf).1 with
  | refused l _ calls =>
    have hnone : (e.meet o).2.filter Effect.isCall = [] := by
      rw [meet_snd, ht]
      exact (e.receiveAnswer_idle ticket answer).2
    rw [hnone] at calls
    simp at calls
  | answered ticket' trigger pending _ =>
    rw [ht] at trigger
    cases trigger
    exact ⟨pending, rfl⟩

/-- The goal is being fetched when the cursor moves on, and the backend refuses the request for the
new place: the first fetch is given up, and the goal that was shown stays. -/
theorem run_failure_keeps_shown_superseding :
    let there : Option Cursor := some ⟨"/a.lean", "lean", ⟨2, 4⟩⟩
    let occasions : List Occasion :=
      [⟨there, .ok (), .setMode .onlyState⟩,
        ⟨there, .ok (), .respond 0 (.ok (some { state := some "⊢ P" }))⟩,
        ⟨there, .ok (), .refresh⟩]
    let move : Occasion :=
      ⟨some ⟨"/a.lean", "lean", ⟨6, 0⟩⟩, .error .timeout, .selectionChanged⟩
    let e := (run meet (start {} {}) occasions).1
    e.pendingTicket? = some 1 ∧
      (e.step move.cursor move.verdict move.trigger).2.2 = .error .timeout ∧
      FailsWith e move .timeout ∧ (e.meet move).2.filter Effect.isHeard = [] ∧
      (e.meet move).1.view.goal = some "⊢ P" ∧ (e.meet move).1.pending = none := by
  intro there occasions move e
  have hp : e.pendingTicket? = some 1 ∧ e.view.goal = some "⊢ P" := by
    unfold e occasions there
    cbv
  have hf : (e.step move.cursor move.verdict move.trigger).2.2 = .error .timeout := by
    unfold e occasions there move
    decide +kernel
  obtain ⟨hiff, hkeeps, _⟩ := run_failure_keeps_shown {} {} occasions move .timeout
  have hwhy : FailsWith e move .timeout := hiff.mp hf
  have hkept : Kept e move := hkeeps hf
  refine ⟨hp.1, hf, hwhy, hkept.silent, ?_, hkept.idle⟩
  rw [hkept.goal]
  exact hp.2

end Engine

end ProofPanel
