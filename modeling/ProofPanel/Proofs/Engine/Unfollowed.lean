import Mathlib.Data.List.Forall2
import ProofPanel.Proofs.Engine.Fetch

/-!
# Documents that are not followed

The engine looks at the cursor only to follow it, and where its document is not followed it is as
good as no cursor at all. Two runs that differ in nothing but such cursors agree in all that the
engine does; only what is copied goes to the cursor wherever it is.
-/
namespace ProofPanel

def Selector.followed (s : Selector) (cursor : Option Cursor) : Option Cursor :=
  cursor.filter s.follows

def Trigger.copies : Trigger → Bool
  | .copyToComment | .execute .copyToComment => true
  | _ => false

def Effect.isInsertion : Effect → Bool
  | .insert _ _ _ => true
  | _ => false

/-- The same trigger with the same cursor, or with cursors of which neither is followed. -/
structure Occasion.Resembles (s : Selector) (o o' : Occasion) : Prop where
  trigger : o'.trigger = o.trigger
  cursor : s.followed o'.cursor = s.followed o.cursor

structure Report where
  trigger : Trigger
  engine : Engine
  effects : List Effect
  outcome : Verdict

def calls (reports : List Report) : List Effect :=
  (reports.flatMap (·.effects)).filter Effect.isCall

/-- The same comes of two turns, except that they may insert different things when they copy. -/
structure Report.Agrees (r r' : Report) : Prop where
  engine : r'.engine = r.engine
  outcome : r'.outcome = r.outcome
  effects : r'.effects = r.effects ∨ r.trigger.copies = true ∧
    ∀ effect ∈ r.effects ++ r'.effects, effect.isInsertion = true

/-- The backend's verdict is its own on the calls made so far and in this turn. -/
def Occasion.JudgedBy (backend : List Effect → Verdict) (e : Engine) (past : List Report)
    (o : Occasion) : Prop :=
  o.verdict = backend (calls past ++ (e.react o.cursor o.trigger).calls)

namespace Engine

variable {e : Engine} {cursor : Option Cursor} {o o' : Occasion}

/-! ## One turn -/

theorem follow_followed (e : Engine) (cursor : Option Cursor) :
    e.follow (e.selector.followed cursor) = e.follow cursor := by
  cases cursor with
  | none => rfl
  | some c =>
    cases hc : e.selector.follows c with
    | true => rw [Selector.followed, Option.filter_some, if_pos hc]
    | false =>
      rw [Selector.followed, Option.filter_some, hc, if_neg Bool.false_ne_true]
      simp only [follow, hc, Bool.false_eq_true, if_false]

theorem updatePosition_followed (e : Engine) (cursor : Option Cursor) (reasons : Reasons) :
    e.updatePosition (e.selector.followed cursor) reasons = e.updatePosition cursor reasons := by
  simp only [updatePosition, follow_followed]

theorem setMode_followed (e : Engine) (cursor : Option Cursor) (mode : Mode) :
    e.setMode (e.selector.followed cursor) mode = e.setMode cursor mode := by
  have hupdate : ∀ d : Engine, d.selector = e.selector → ∀ reasons,
      d.updatePosition (e.selector.followed cursor) reasons = d.updatePosition cursor reasons := by
    intro d hd reasons
    rw [← hd, updatePosition_followed]
  have hcancel : e.cancelPending.1.selector = e.selector := by rw [cancelPending_fst]
  by_cases hm : mode = .onlyState
  · simp only [setMode, if_pos hm,
      hupdate { e with view := { e.view with mode, stopped := false } } rfl]
  · simp only [setMode, if_neg hm, hupdate { e.cancelPending.1 with
      view := { e.cancelPending.1.view with mode, stopped := false } } hcancel]

theorem toggleUpdating_followed (e : Engine) (cursor : Option Cursor) :
    e.toggleUpdating (e.selector.followed cursor) = e.toggleUpdating cursor := by
  simp only [toggleUpdating, resume, setMode_followed]

/-- Unless something is to be copied, a cursor that is not followed is as good as none. -/
theorem react_followed (e : Engine) (cursor : Option Cursor) {t : Trigger}
    (ht : t.copies = false) : e.react (e.selector.followed cursor) t = e.react cursor t := by
  cases t with
  | selectionChanged => exact updatePosition_followed e cursor _
  | refresh => exact updatePosition_followed e cursor _
  | resume => exact setMode_followed e cursor _
  | setMode mode => exact setMode_followed e cursor mode
  | toggleUpdating => exact toggleUpdating_followed e cursor
  | execute c =>
    cases c with
    | «continue» => exact setMode_followed e cursor _
    | toggleUpdating => exact toggleUpdating_followed e cursor
    | setMode mode => exact setMode_followed e cursor mode
    | copyToComment => cases ht
    | _ => rfl
  | copyToComment => cases ht
  | _ => rfl

theorem react_copies (e : Engine) (cursor : Option Cursor) {t : Trigger} (ht : t.copies = true) :
    ∃ effects : List Effect, e.react cursor t = { engine := e, effects } ∧
      ∀ effect ∈ effects, effect.isInsertion = true := by
  have hcopy : e.react cursor t = e.copyToComment cursor := by
    cases t with
    | copyToComment => rfl
    | execute c => cases c <;> first | rfl | cases ht
    | _ => cases ht
  rw [hcopy]
  cases cursor with
  | none => exact ⟨[], rfl, nofun⟩
  | some c => exact ⟨[_], rfl, List.forall_mem_singleton.mpr rfl⟩

theorem filter_insertions {effects : List Effect}
    (h : ∀ effect ∈ effects, effect.isInsertion = true) : effects.filter Effect.isCall = [] := by
  refine List.filter_eq_nil_iff.mpr fun effect hm hcall => ?_
  have hinsertion := h effect hm
  cases effect with
  | insert _ _ _ => cases hcall
  | _ => cases hinsertion

/-- Turns on occasions that resemble each other differ at most in what they insert. -/
theorem react_resembling (h : o.Resembles e.selector o') :
    e.react o'.cursor o'.trigger = e.react o.cursor o.trigger ∨
      o.trigger.copies = true ∧ ∃ effects effects' : List Effect,
        e.react o.cursor o.trigger = { engine := e, effects } ∧
        e.react o'.cursor o'.trigger = { engine := e, effects := effects' } ∧
        ∀ effect ∈ effects ++ effects', effect.isInsertion = true := by
  rw [h.trigger]
  cases ht : o.trigger.copies with
  | false =>
    left
    rw [← react_followed e o'.cursor ht, h.cursor, react_followed e o.cursor ht]
  | true =>
    obtain ⟨effects, hr, hall⟩ := react_copies e o.cursor ht
    obtain ⟨effects', hr', hall'⟩ := react_copies e o'.cursor ht
    exact .inr ⟨rfl, effects, effects', hr, hr', List.forall_mem_append.mpr ⟨hall, hall'⟩⟩

theorem calls_resembling (h : o.Resembles e.selector o') :
    (e.react o'.cursor o'.trigger).calls = (e.react o.cursor o.trigger).calls := by
  rcases react_resembling h with hr | ⟨_, effects, effects', hr, hr', hall⟩
  · rw [hr]
  · obtain ⟨hall, hall'⟩ := List.forall_mem_append.mp hall
    rw [hr, hr', Turn.calls, Turn.calls, filter_insertions hall, filter_insertions hall']

/-! ## Runs -/

def reported (e : Engine) (o : Occasion) : Engine × List Report :=
  let (d, effects, outcome) := e.step o.cursor o.verdict o.trigger
  (d, [⟨o.trigger, d, effects, outcome⟩])

theorem reported_selector (e : Engine) (o : Occasion) :
    (e.reported o).1.selector = e.selector := by
  obtain ⟨pending, hp⟩ := settle_engine (e.react o.cursor o.trigger) o.verdict
  have hturn := congrArg (·.1) (e.react_surroundings o.cursor o.trigger)
  have hstep : (e.reported o).1 = ((e.react o.cursor o.trigger).settle o.verdict).1 := rfl
  rw [hstep, hp]
  refine hturn.trans ?_
  cases o.trigger <;> rfl

theorem reported_agrees (h : o.Resembles e.selector o') (hv : o'.verdict = o.verdict) :
    (e.reported o').1 = (e.reported o).1 ∧
      List.Forall₂ Report.Agrees (e.reported o).2 (e.reported o').2 := by
  rcases react_resembling h with hr | ⟨ht, effects, effects', hr, hr', hall⟩
  · have hstep : e.step o'.cursor o'.verdict o'.trigger = e.step o.cursor o.verdict o.trigger := by
      rw [step, step, hr, hv]
    have hengine : (e.reported o').1 = (e.reported o).1 := by
      simp only [reported, hstep]
    exact ⟨hengine, .cons ⟨hengine, congrArg (·.2.2) hstep, .inl (congrArg (·.2.1) hstep)⟩ .nil⟩
  · have hstep : e.step o.cursor o.verdict o.trigger = (e, effects, .ok ()) := by
      rw [step, hr]
      rfl
    have hstep' : e.step o'.cursor o'.verdict o'.trigger = (e, effects', .ok ()) := by
      rw [step, hr']
      rfl
    simp only [reported, hstep, hstep', true_and]
    exact .cons ⟨rfl, rfl, .inr ⟨ht, hall⟩⟩ .nil

theorem calls_reported (past : List Report) (e : Engine) (o : Occasion) :
    calls (past ++ (e.reported o).2) = calls past ++ (e.react o.cursor o.trigger).calls := by
  simp only [calls, reported, step, List.flatMap_append, List.flatMap_singleton,
    List.filter_append, Turn.calls]

theorem run_resembling (backend : List Effect → Verdict) {s : Selector}
    {occasions occasions' : List Occasion}
    (h : List.Forall₂ (Occasion.Resembles s) occasions occasions') (hs : e.selector = s)
    {past past' : List Report} (hcalls : calls past' = calls past)
    (judged : Along reported (Occasion.JudgedBy backend) e past occasions)
    (judged' : Along reported (Occasion.JudgedBy backend) e past' occasions') :
    List.Forall₂ Report.Agrees (run reported e occasions).2
      (run reported e occasions').2 := by
  induction h generalizing e past past' with
  | nil => exact .nil
  | @cons o o' rest rest' ho _ ih =>
    subst hs
    have hsame := calls_resembling ho
    have hv : o'.verdict = o.verdict := by rw [judged.1, judged'.1, hcalls, hsame]
    obtain ⟨hengine, hreport⟩ := reported_agrees ho hv
    have hrest := judged'.2
    rw [hengine] at hrest
    have hmore := ih (reported_selector e o)
      (by rw [calls_reported, calls_reported, hcalls, hsame]) judged.2 hrest
    simp only [run, hengine]
    exact List.rel_append hreport hmore

/-- Whatever the selector and the backend, after every turn of two runs that differ only in cursors
which are not followed, or in that there is none, the engine is the same, down to the pending
fetch, the outcome is the same, and so is everything that it draws, posts and asks of the backend
and the editor. What is copied may go elsewhere, or nowhere. -/
theorem run_agrees_of_unfollowed (selector : Selector) (config : Config) (backend : List Effect → Verdict)
    (occasions occasions' : List Occasion)
    (h : List.Forall₂ (Occasion.Resembles selector) occasions occasions')
    (judged : Along reported (Occasion.JudgedBy backend) (start selector config) [] occasions)
    (judged' : Along reported (Occasion.JudgedBy backend) (start selector config) [] occasions') :
    List.Forall₂ Report.Agrees (run reported (start selector config) occasions).2
      (run reported (start selector config) occasions').2 :=
  run_resembling backend h rfl rfl judged judged'

/-- The mode is switched and a goal is fetched in between visits to a document in another language;
there the backend refuses what it is asked when its status changes, and what is shown is copied. The
other run leaves the editor instead. -/
theorem run_agrees_of_unfollowed_notes :
    let selector : Selector := { languages := ["lean"] }
    let backend : List Effect → Verdict := fun calls =>
      if calls.length < 2 then .ok () else .error .disconnected
    let proof : Option Cursor := some ⟨"/a.lean", "lean", ⟨2, 4⟩⟩
    let notes : Option Cursor := some ⟨"/notes.md", "markdown", ⟨0, 0⟩⟩
    let occasions (away : Option Cursor) : List Occasion :=
      [⟨away, .ok (), .setMode .onlyState⟩, ⟨proof, .ok (), .selectionChanged⟩,
        ⟨away, .ok (), .selectionChanged⟩, ⟨away, .error .disconnected, .statusChanged⟩,
        ⟨away, .error .disconnected, .copyToComment⟩]
    let judged (away : Option Cursor) :=
      Along reported (Occasion.JudgedBy backend) (start selector {}) [] (occasions away)
    let reports (away : Option Cursor) := (run reported (start selector {}) (occasions away)).2
    judged notes ∧ judged none ∧ List.Forall₂ Report.Agrees (reports notes) (reports none) ∧
      (reports notes).map (·.effects.length) = [1, 1, 0, 2, 1] ∧
      (reports none).map (·.effects.length) = [1, 1, 0, 2, 0] := by
  intro selector backend proof notes occasions judged reports
  have hnotes : selector.followed notes = none := rfl
  have h : List.Forall₂ (Occasion.Resembles selector) (occasions notes) (occasions none) :=
    .cons ⟨rfl, hnotes.symm⟩ (.cons ⟨rfl, rfl⟩ (.cons ⟨rfl, hnotes.symm⟩
      (.cons ⟨rfl, hnotes.symm⟩ (.cons ⟨rfl, hnotes.symm⟩ .nil))))
  have hjudged : judged notes := by
    unfold judged occasions proof notes selector
    exact ⟨rfl, rfl, rfl, rfl, rfl, trivial⟩
  have hjudged' : judged none := by
    unfold judged occasions proof selector
    exact ⟨rfl, rfl, rfl, rfl, rfl, trivial⟩
  refine ⟨hjudged, hjudged', run_agrees_of_unfollowed selector {} backend _ _ h hjudged hjudged', ?_, ?_⟩
  · unfold reports occasions proof notes selector
    rfl
  · unfold reports occasions proof selector
    rfl

end Engine

end ProofPanel
