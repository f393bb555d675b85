import ProofPanel.Engine.Step

/-!
# The parts of a turn

What the parts of a turn can do: following the cursor, accepting diagnostics, giving a fetch up,
asking for a goal, deciding what to draw. Every property of the engine's runs rests on the
equations and case distinctions of this module; none of them looks into these functions again.
-/
namespace ProofPanel

namespace Reasons

@[simp] theorem merge_moved (a b : Reasons) : (a.merge b).moved = (a.moved || b.moved) := rfl

@[simp] theorem merge_messagesChanged (a b : Reasons) :
    (a.merge b).messagesChanged = (a.messagesChanged || b.messagesChanged) := rfl

@[simp] theorem merge_forced (a b : Reasons) : (a.merge b).forced = (a.forced || b.forced) := rfl

end Reasons

def Effect.isAside : Effect → Bool
  | .reveal _ _ | .hover _ _ | .stopHover | .insert _ _ _ => true
  | _ => false

namespace Engine

variable (e : Engine)

def placedAt (c : Cursor) : Engine :=
  { e with view := { e.view with fileName := some c.fileName, position := some c.position } }

def showing (l : Location) : Engine :=
  { e with view := { e.view with messages := some (e.relevantAt l) } }

def brought : Trigger → Engine
  | .diagnostics ds => { e with diagnostics := ds }
  | .configure p => { e with config := e.config.merge p }
  | .dispose => { e with config := {}, publishing := false }
  | _ => e

theorem location?_placedAt (c : Cursor) :
    (e.placedAt c).location? = some (.ofPosition c.fileName c.position) := rfl

@[simp] theorem location?_showing (l : Location) : (e.showing l).location? = e.location? := rfl

theorem follow_cases (cursor : Option Cursor) :
    e.follow cursor = (e, false) ∨ ∃ c, cursor = some c ∧ e.selector.follows c = true ∧
      e.follow cursor = (e.placedAt c, true) := by
  cases cursor with
  | none => exact Or.inl rfl
  | some c =>
    by_cases hc : e.selector.follows c = true
    · by_cases hm : (e.view.fileName != some c.fileName ||
          e.view.position != some c.position) = true
      · exact Or.inr ⟨c, rfl, hc, by simp only [follow, if_pos hc, hm, placedAt]⟩
      · left
        have hs : e.view.fileName = some c.fileName ∧ e.view.position = some c.position := by
          simpa using hm
        have he : e.placedAt c = e := by simp only [placedAt, ← hs.1, ← hs.2]
        rw [Bool.not_eq_true] at hm
        simp only [follow, if_pos hc, hm]
        exact congrArg (·, false) he
    · exact Or.inl (by simp only [follow, if_neg hc])

theorem acceptMessages_cases :
    (e.acceptMessages = (e, false) ∧ (e.view.stopped = true ∨ e.location? = none ∨
      ∃ l old, e.location? = some l ∧ e.view.messages = some old ∧
        Diagnostic.sameList old (e.relevantAt l) = true)) ∨
    ∃ l, e.view.stopped = false ∧ e.location? = some l ∧
      e.acceptMessages = (e.showing l, true) := by
  unfold acceptMessages
  by_cases hs : e.view.stopped = true
  · exact Or.inl ⟨if_pos hs, Or.inl hs⟩
  · rw [if_neg hs]
    cases hl : e.location? with
    | none => exact Or.inl ⟨rfl, Or.inr (Or.inl rfl)⟩
    | some l =>
      cases ho : e.view.messages with
      | none => exact Or.inr ⟨l, by simpa using hs, rfl, by simp [showing]⟩
      | some old =>
        by_cases hm : Diagnostic.sameList old (e.relevantAt l) = true
        · exact Or.inl ⟨by simp [hm], Or.inr (Or.inr ⟨l, old, rfl, rfl, hm⟩)⟩
        · exact Or.inr ⟨l, by simpa using hs, rfl, by simp [hm, showing]⟩

/-- Nothing is accepted anew where the same was accepted before. -/
theorem acceptMessages_of_same {l : Location} (hl : e.location? = some l)
    {old : List Diagnostic} (ho : e.view.messages = some old)
    (hs : Diagnostic.sameList old (e.relevantAt l) = true) : e.acceptMessages = (e, false) := by
  unfold acceptMessages
  split
  · rfl
  · simp [hl, ho, hs]

@[simp] theorem cancelPending_fst : e.cancelPending.1 = { e with pending := none } := by
  cases h : e.pending with
  | none => simp only [cancelPending, h]; rw [← h]
  | some fetch => simp only [cancelPending, h]

theorem cancelPending_snd :
    e.cancelPending.2 = (e.pending.map fun fetch => Effect.cancel fetch.ticket).toList := by
  cases h : e.pending with
  | none => simp [cancelPending, h]
  | some fetch => simp [cancelPending, h]

theorem pendingTicket?_some {e : Engine} {fetch : Fetch} (h : e.pending = some fetch) :
    e.pendingTicket? = some fetch.ticket := by
  rw [pendingTicket?, h, Option.map_some]

theorem pendingTicket?_none {e : Engine} (h : e.pending = none) : e.pendingTicket? = none := by
  rw [pendingTicket?, h, Option.map_none]

def inheriting (reasons : Reasons) : Reasons :=
  match e.pending with
  | none => reasons
  | some fetch => reasons.merge fetch.reasons

section
variable {e}

theorem inheriting_congr {d : Engine} (h : d.pending = e.pending) (reasons : Reasons) :
    d.inheriting reasons = e.inheriting reasons := by
  simp only [inheriting, h]

theorem inheriting_eq_false {reasons : Reasons} (hm : (e.inheriting reasons).moved = false)
    (hc : (e.inheriting reasons).messagesChanged = false) :
    reasons.moved = false ∧ reasons.messagesChanged = false := by
  cases hp : e.pending with
  | none => exact ⟨by simpa [inheriting, hp] using hm, by simpa [inheriting, hp] using hc⟩
  | some fetch =>
    simp only [inheriting, hp, Reasons.merge_moved, Reasons.merge_messagesChanged,
      Bool.or_eq_false_iff] at hm hc
    exact ⟨hm.1, hc.1⟩

end

theorem fetchGoal_none {reasons : Reasons} (h : e.location? = none) :
    e.fetchGoal reasons = { engine := e } := by
  simp only [fetchGoal, h]

theorem fetchGoal_some {reasons : Reasons} {l : Location} (h : e.location? = some l) :
    e.fetchGoal reasons =
      { engine := { e with pending := none, nextTicket := e.nextTicket + 1 }
        effects := e.cancelPending.2 ++ [.request e.nextTicket l]
        asked := some ⟨e.nextTicket, e.inheriting reasons⟩ } := by
  simp only [fetchGoal, h, cancelPending_fst]
  rfl

theorem decide_onlyState {reasons : Reasons} (hm : e.view.mode = .onlyState)
    (hl : e.location?.isSome = true) : e.decide reasons = e.fetchGoal reasons := by
  simp only [decide, hm, if_pos hl]

theorem decide_onlyState_nowhere {reasons : Reasons} (hm : e.view.mode = .onlyState)
    (hl : e.location? = none) :
    e.decide reasons = { engine := e, effects := if reasons.forced then e.redraw else [] } := by
  simp only [decide, hm, hl, Option.isSome_none, Bool.false_eq_true, if_false]

def told (reasons : Reasons) : List Effect :=
  if reasons.forced || reasons.messagesChanged then e.redraw
  else match e.location? with
    | none => []
    | some l => e.post (.position l)

theorem decide_allMessages {reasons : Reasons} (hm : e.view.mode = .allMessages) :
    e.decide reasons =
      { engine := { e with pending := none }
        effects := e.cancelPending.2 ++ e.told reasons } := by
  simp only [decide, hm, cancelPending_fst]
  rfl

theorem decide_engine (reasons : Reasons) :
    ∃ pending next, (e.decide reasons).engine =
      { e with pending := pending, nextTicket := next } := by
  cases hm : e.view.mode with
  | allMessages => exact ⟨none, e.nextTicket, by rw [e.decide_allMessages hm]⟩
  | onlyState =>
    cases hl : e.location? with
    | none => exact ⟨e.pending, e.nextTicket, by rw [e.decide_onlyState_nowhere hm hl]⟩
    | some l =>
      refine ⟨none, e.nextTicket + 1, ?_⟩
      rw [e.decide_onlyState hm (by rw [hl]; rfl), e.fetchGoal_some hl]

theorem decide_view (reasons : Reasons) : (e.decide reasons).engine.view = e.view := by
  obtain ⟨_, _, hd⟩ := e.decide_engine reasons
  rw [hd]

theorem fetchGoal_engine (reasons : Reasons) :
    ∃ pending next, (e.fetchGoal reasons).engine =
      { e with pending := pending, nextTicket := next } := by
  cases hl : e.location? with
  | none => exact ⟨e.pending, e.nextTicket, by rw [e.fetchGoal_none hl]⟩
  | some l => exact ⟨none, e.nextTicket + 1, by rw [e.fetchGoal_some hl]⟩

def arrived (cursor : Option Cursor) : Engine := (e.follow cursor).1.acceptMessages.1

def arrival (cursor : Option Cursor) : Reasons where
  moved := (e.follow cursor).2
  messagesChanged := (e.follow cursor).1.acceptMessages.2

section
variable {e}

/-- The place where the cursor is followed to keeps the fetch, the mode and the goal. -/
theorem arrived_view (cursor : Option Cursor) : ∃ fileName position messages,
    e.arrived cursor = { e with view := { e.view with fileName, position, messages } } := by
  rcases e.follow_cases cursor with hf | ⟨c, _, _, hf⟩
  · rcases e.acceptMessages_cases with ⟨ha, _⟩ | ⟨l, _, _, ha⟩
    · exact ⟨_, _, _, by rw [arrived, hf, ha]⟩
    · exact ⟨_, _, _, by rw [arrived, hf, ha, showing]⟩
  · rcases (e.placedAt c).acceptMessages_cases with ⟨ha, _⟩ | ⟨l, _, _, ha⟩
    · exact ⟨_, _, _, by rw [arrived, hf, ha, placedAt]⟩
    · exact ⟨_, _, _, by rw [arrived, hf, ha, showing, placedAt]⟩

theorem location?_arrived (cursor : Option Cursor) :
    (e.arrived cursor).location? = (e.follow cursor).1.location? := by
  rcases (e.follow cursor).1.acceptMessages_cases with ⟨ha, _⟩ | ⟨l, _, _, ha⟩
  · rw [arrived, ha]
  · rw [arrived, ha, location?_showing]

theorem arrived_nowhere {cursor : Option Cursor} (h : (e.arrived cursor).location? = none) :
    e.location? = none := by
  rw [location?_arrived] at h
  rcases e.follow_cases cursor with hf | ⟨c, _, _, hf⟩
  · rwa [hf] at h
  · rw [hf, location?_placedAt] at h
    cases h

theorem arrived_eq_self {cursor : Option Cursor} (hm : (e.arrival cursor).moved = false)
    (hc : (e.arrival cursor).messagesChanged = false) : e.arrived cursor = e := by
  simp only [arrival] at hm hc
  rcases e.follow_cases cursor with hf | ⟨c, _, _, hf⟩
  · rcases e.acceptMessages_cases with ⟨ha, _⟩ | ⟨l, _, _, ha⟩
    · rw [arrived, hf, ha]
    · rw [hf, ha] at hc
      cases hc
  · rw [hf] at hm
    cases hm

theorem arrived_eq_placedAt {cursor : Option Cursor} (hm : (e.arrival cursor).moved = true)
    (hc : (e.arrival cursor).messagesChanged = false) : ∃ c, e.arrived cursor = e.placedAt c := by
  simp only [arrival] at hm hc
  rcases e.follow_cases cursor with hf | ⟨c, _, _, hf⟩
  · rw [hf] at hm
    cases hm
  · rw [hf] at hc
    rcases (e.placedAt c).acceptMessages_cases with ⟨ha, _⟩ | ⟨l, _, _, ha⟩
    · exact ⟨c, by rw [arrived, hf, ha]⟩
    · rw [ha] at hc
      cases hc

theorem location?_of_moved {cursor : Option Cursor} (hm : (e.arrival cursor).moved = true) :
    (e.arrived cursor).location? ≠ none := by
  rw [location?_arrived]
  simp only [arrival] at hm
  rcases e.follow_cases cursor with hf | ⟨c, _, _, hf⟩
  · rw [hf] at hm
    cases hm
  · rw [hf, location?_placedAt]
    exact Option.some_ne_none _

end

/-- An update of the position does nothing while the engine is stopped or if the cursor stayed and
nothing is forced; else it decides what to draw where the cursor arrived. -/
theorem updatePosition_cases (cursor : Option Cursor) (reasons : Reasons) :
    (e.updatePosition cursor reasons = { engine := e } ∧
      (e.view.stopped = true ∨ (e.arrival cursor).moved = false ∧ reasons.forced = false)) ∨
    e.view.stopped = false ∧ ((e.arrival cursor).moved = true ∨ reasons.forced = true) ∧
      e.updatePosition cursor reasons =
        (e.arrived cursor).decide (reasons.merge (e.arrival cursor)) := by
  by_cases hs : e.view.stopped = true
  · exact Or.inl ⟨by simp only [updatePosition, if_pos hs], Or.inl hs⟩
  · have hs' : e.view.stopped = false := by simpa using hs
    by_cases hm : (!(e.follow cursor).2 && !reasons.forced) = true
    · have h : (e.follow cursor).2 = false ∧ reasons.forced = false := by simpa using hm
      refine Or.inl ⟨?_, Or.inr h⟩
      rcases e.follow_cases cursor with hf | ⟨c, _, _, hf⟩
      · simp [updatePosition, hs', hf, h.2]
      · simp [hf] at h
    · refine Or.inr ⟨hs', ?_, ?_⟩
      · cases hf : (e.follow cursor).2 with
        | true => exact Or.inl hf
        | false => exact Or.inr (by simpa [hf] using hm)
      · simp only [updatePosition, if_neg hs, if_neg hm]
        rfl

/-- Diagnostics that change nothing of what is shown, or come while the engine is stopped, are kept
for later. -/
theorem receiveDiagnostics_cases (ds : List Diagnostic) :
    let reported := e.brought (.diagnostics ds)
    (e.receiveDiagnostics ds = { engine := reported } ∧
      (e.view.stopped = true ∨ reported.acceptMessages = (reported, false))) ∨
    ∃ l, e.view.stopped = false ∧ e.location? = some l ∧
      reported.acceptMessages = (reported.showing l, true) ∧
      e.receiveDiagnostics ds = (reported.showing l).decide { messagesChanged := true } := by
  intro reported
  by_cases hs : e.view.stopped = true
  · refine Or.inl ⟨?_, Or.inl hs⟩
    simp only [receiveDiagnostics, if_pos hs, reported, brought]
  · rcases reported.acceptMessages_cases with ⟨ha, _⟩ | ⟨l, hrun, hl, ha⟩
    · refine Or.inl ⟨?_, Or.inr ha⟩
      simp only [reported, brought] at ha ⊢
      simp only [receiveDiagnostics, if_neg hs, ha]
    · refine Or.inr ⟨l, hrun, hl, ha, ?_⟩
      simp only [reported, brought] at ha ⊢
      simp only [receiveDiagnostics, if_neg hs, ha]

def switched (mode : Mode) : Engine :=
  { e with
    view := { e.view with mode, stopped := false }
    pending := if mode = .onlyState then e.pending else none }

def switching : Reasons := { moved := true, forced := true }

def landed (cursor : Option Cursor) (mode : Mode) : Engine := (e.switched mode).arrived cursor

theorem landed_view (cursor : Option Cursor) (mode : Mode) : ∃ fileName position messages,
    e.landed cursor mode =
      { e.switched mode with
        view := { (e.switched mode).view with fileName, position, messages } } :=
  arrived_view cursor

theorem updatePosition_switching (hrun : e.view.stopped = false) (cursor : Option Cursor) :
    e.updatePosition cursor switching =
      (e.arrived cursor).decide (switching.merge (e.arrival cursor)) := by
  rcases e.updatePosition_cases cursor switching with ⟨_, hs | ⟨_, hf⟩⟩ | ⟨_, _, hu⟩
  · rw [hrun] at hs
    cases hs
  · cases hf
  · exact hu

/-- A switch to the mode that is already running does nothing. Any other decides what to draw where
it lands. -/
theorem setMode_cases (cursor : Option Cursor) (mode : Mode) :
    (e.view.mode = mode ∧ e.view.stopped = false ∧ e.setMode cursor mode = { engine := e }) ∨
    (e.view.mode = mode → e.view.stopped = true) ∧
      e.setMode cursor mode =
        ((e.landed cursor mode).decide
          (switching.merge ((e.switched mode).arrival cursor))).after
          (if mode = .onlyState then [] else e.cancelPending.2) := by
  by_cases h : (Decidable.decide (e.view.mode = mode) && !e.view.stopped) = true
  · have hs : e.view.mode = mode ∧ e.view.stopped = false := by simpa using h
    exact Or.inl ⟨hs.1, hs.2, by simp only [setMode, if_pos h]⟩
  · refine Or.inr ⟨fun hm => ?_, ?_⟩
    · simpa [hm] using h
    · rw [landed, ← (e.switched mode).updatePosition_switching rfl]
      by_cases hg : mode = .onlyState
      · simp only [setMode, if_neg h, if_pos hg]
        simp only [switched, if_pos hg]
        rfl
      · simp only [setMode, if_neg h, if_neg hg, cancelPending_fst]
        simp only [switched, if_neg hg]
        rfl

theorem pause_eq : e.pause =
    { engine := { e with view := { e.view with stopped := true }, pending := none }
      effects := e.cancelPending.2 ++ e.post .pause } := by
  simp only [pause, cancelPending_fst, cancelPending_snd]
  rfl

/-- Where the shown goal belongs: the location of an engine that runs and shows goals. -/
def due? : Option Location :=
  if e.view.stopped || e.view.mode != .onlyState then none else e.location?

theorem due?_eq_some {l : Location} : e.due? = some l ↔
    e.view.stopped = false ∧ e.view.mode = .onlyState ∧ e.location? = some l := by
  unfold due?
  by_cases h : (e.view.stopped || e.view.mode != .onlyState) = true
  · simp only [if_pos h, reduceCtorEq, false_iff]
    rintro ⟨hs, hm, _⟩
    simp [hs, hm] at h
  · have hr : e.view.stopped = false ∧ e.view.mode = .onlyState := by simpa using h
    simp [hr]

theorem statusChanged_cases :
    e.statusChanged = { engine := e } ∨
      ∃ l, e.due? = some l ∧ e.statusChanged = e.fetchGoal {} := by
  by_cases hs : (e.view.stopped || e.view.mode != .onlyState) = true
  · exact Or.inl (by simp only [statusChanged, if_pos hs])
  · have hf : e.statusChanged = e.fetchGoal {} := by simp only [statusChanged, if_neg hs]
    cases hl : e.location? with
    | none => exact Or.inl (hf.trans (e.fetchGoal_none hl))
    | some l => exact Or.inr ⟨l, by simp only [due?, if_neg hs, hl], hf⟩

def answered (goal : Option String) : Engine :=
  { e with view := { e.view with goal }, pending := none }

def answerEffects (reasons : Reasons) (goal : Option String) : List Effect :=
  if reasons.moved || reasons.messagesChanged || e.view.goal != goal then
    (e.answered goal).redraw
  else if reasons.forced then e.post .continue
  else []

/-- The answer to another fetch than the pending one is dropped. The answer to that one ends it,
and where a goal belongs it is taken: an error as the turn's failure, a record for its goal. -/
theorem receiveAnswer_cases (ticket : Ticket) (answer : Answer) :
    (e.pendingTicket? ≠ some ticket ∧ e.receiveAnswer ticket answer = { engine := e }) ∨
    ∃ fetch, e.pending = some fetch ∧ fetch.ticket = ticket ∧
      (((e.view.stopped || e.view.mode != .onlyState) = true ∧
          e.receiveAnswer ticket answer = { engine := { e with pending := none } }) ∨
        (e.view.stopped || e.view.mode != .onlyState) = false ∧
          ((∃ err, answer = .error err ∧ e.receiveAnswer ticket answer =
              { engine := { e with pending := none }, failure := some err }) ∨
            ∃ record, answer = .ok record ∧ e.receiveAnswer ticket answer =
              { engine := e.answered (record.bind Record.goal?)
                effects := e.answerEffects fetch.reasons (record.bind Record.goal?) })) := by
  cases hp : e.pending with
  | none => exact Or.inl ⟨by simp [pendingTicket?_none hp], by simp only [receiveAnswer, hp]⟩
  | some fetch =>
    by_cases ht : fetch.ticket = ticket
    · refine Or.inr ⟨fetch, rfl, ht, ?_⟩
      have hne : ¬ (fetch.ticket != ticket) = true := by simp [ht]
      simp only [receiveAnswer, hp, if_neg hne]
      cases hs : e.view.stopped || e.view.mode != .onlyState with
      | true => exact Or.inl ⟨rfl, by rw [if_pos rfl]⟩
      | false =>
        refine Or.inr ⟨rfl, ?_⟩
        cases answer with
        | error err => exact Or.inl ⟨err, rfl, rfl⟩
        | ok record => exact Or.inr ⟨record, rfl, rfl⟩
    · refine Or.inl ⟨by simp [pendingTicket?_some hp, ht], ?_⟩
      have hne : (fetch.ticket != ticket) = true := by simp [ht]
      simp only [receiveAnswer, hp, if_pos hne]

/-! ## What a turn comes down to -/

/-- What can be done on a trigger. Resuming, toggling and the commands add nothing of their own:
they pause, switch the mode or have effects aside. -/
inductive Does (cursor : Option Cursor) : Trigger → Turn → Prop
  | update (t : Trigger) (reasons : Reasons) (brings : e.brought t = e) :
      Does cursor t (e.updatePosition cursor reasons)
  | report (ds : List Diagnostic) : Does cursor (.diagnostics ds) (e.receiveDiagnostics ds)
  | status : Does cursor .statusChanged e.statusChanged
  | answer (ticket : Ticket) (answer : Answer) :
      Does cursor (.respond ticket answer) (e.receiveAnswer ticket answer)
  | configure (p : Patch) : Does cursor (.configure p) (e.configure p)
  | pause (t : Trigger) (brings : e.brought t = e) : Does cursor t e.pause
  | switch (t : Trigger) (mode : Mode) (brings : e.brought t = e) :
      Does cursor t (e.setMode cursor mode)
  | aside (t : Trigger) (effects : List Effect) (brings : e.brought t = e)
      (aside : ∀ effect ∈ effects, effect.isAside = true) :
      Does cursor t { engine := e, effects := effects }
  | dispose : Does cursor .dispose e.dispose

section
variable {e} {cursor : Option Cursor} {t : Trigger}

theorem toggleUpdating_does (brings : e.brought t = e) :
    Does e cursor t (e.toggleUpdating cursor) := by
  unfold toggleUpdating
  split
  · exact .switch t _ brings
  · exact .pause t brings

theorem copyToComment_does (brings : e.brought t = e) :
    Does e cursor t (e.copyToComment cursor) := by
  cases cursor with
  | none => exact .aside t [] brings nofun
  | some c => exact .aside t [_] brings (by simp [Effect.isAside])

theorem execute_does (c : Command) : Does e cursor (.execute c) (e.execute cursor c) := by
  cases c with
  | pause => exact .pause _ rfl
  | «continue» => exact .switch _ _ rfl
  | toggleUpdating => exact toggleUpdating_does rfl
  | setMode mode => exact .switch _ mode rfl
  | copyToComment => exact copyToComment_does rfl
  | _ => exact .aside _ [_] rfl (by simp [Effect.isAside])

end

theorem react_does (cursor : Option Cursor) (t : Trigger) :
    Does e cursor t (e.react cursor t) := by
  cases t with
  | selectionChanged => exact .update _ _ rfl
  | refresh => exact .update _ _ rfl
  | diagnostics ds => exact .report ds
  | statusChanged => exact .status
  | respond ticket answer => exact .answer ticket answer
  | configure p => exact .configure p
  | pause => exact .pause _ rfl
  | resume => exact .switch _ _ rfl
  | setMode mode => exact .switch _ mode rfl
  | toggleUpdating => exact toggleUpdating_does rfl
  | execute c => exact execute_does c
  | copyToComment => exact copyToComment_does rfl
  | dispose => exact .dispose

/-! ## What a turn leaves alone -/

structure Steady (holds : Engine → Prop) : Prop where
  placing : ∀ e c, holds e → holds (placedAt e c)
  showing : ∀ e l, holds e → holds (showing e l)
  running : ∀ e mode stopped, holds e → holds { e with view := { e.view with mode, stopped } }
  fetching : ∀ e pending next, holds e →
    holds { e with pending := pending, nextTicket := next }

namespace Steady

variable {e} {holds : Engine → Prop} (h : Steady holds)
include h

theorem acceptMessages (he : holds e) : holds e.acceptMessages.1 := by
  rcases e.acceptMessages_cases with ⟨ha, _⟩ | ⟨l, _, _, ha⟩
  · rwa [ha]
  · rw [ha]
    exact h.showing e l he

theorem arrived (he : holds e) (cursor : Option Cursor) : holds (e.arrived cursor) := by
  refine h.acceptMessages ?_
  rcases e.follow_cases cursor with hf | ⟨c, _, _, hf⟩
  · rwa [hf]
  · rw [hf]
    exact h.placing e c he

theorem decide (he : holds e) (reasons : Reasons) : holds (e.decide reasons).engine := by
  obtain ⟨pending, next, hd⟩ := e.decide_engine reasons
  rw [hd]
  exact h.fetching e pending next he

theorem fetchGoal (he : holds e) (reasons : Reasons) : holds (e.fetchGoal reasons).engine := by
  obtain ⟨pending, next, hd⟩ := e.fetchGoal_engine reasons
  rw [hd]
  exact h.fetching e pending next he

theorem updatePosition (he : holds e) (cursor : Option Cursor) (reasons : Reasons) :
    holds (e.updatePosition cursor reasons).engine := by
  rcases e.updatePosition_cases cursor reasons with ⟨hu, _⟩ | ⟨_, _, hu⟩
  · rwa [hu]
  · rw [hu]
    exact h.decide (h.arrived he cursor) _

theorem switched (he : holds e) (mode : Mode) : holds (e.switched mode) :=
  h.fetching _ _ e.nextTicket (h.running e mode false he)

theorem setMode (he : holds e) (cursor : Option Cursor) (mode : Mode) :
    holds (e.setMode cursor mode).engine := by
  rcases e.setMode_cases cursor mode with ⟨_, _, hm⟩ | ⟨_, hm⟩
  · rwa [hm]
  · rw [hm]
    exact h.decide (h.arrived (h.switched he mode) cursor) _

theorem pause (he : holds e) : holds e.pause.engine := by
  rw [pause_eq]
  exact h.fetching _ none e.nextTicket (h.running e e.view.mode true he)

theorem receiveDiagnostics {ds : List Diagnostic} (he : holds (e.brought (.diagnostics ds))) :
    holds (e.receiveDiagnostics ds).engine := by
  rcases e.receiveDiagnostics_cases ds with ⟨hr, _⟩ | ⟨l, _, _, _, hr⟩
  · rwa [hr]
  · rw [hr]
    exact h.decide (h.showing _ l he) _

theorem statusChanged (he : holds e) : holds e.statusChanged.engine := by
  rcases e.statusChanged_cases with hf | ⟨l, _, hf⟩
  · rwa [hf]
  · rw [hf]
    exact h.fetchGoal he _

theorem does {cursor : Option Cursor} {t : Trigger} {turn : Turn} (hd : Does e cursor t turn)
    (ht : ∀ ticket answer, t ≠ .respond ticket answer) (he : holds (e.brought t)) :
    holds turn.engine := by
  cases hd with
  | update _ reasons brings => exact h.updatePosition (brings ▸ he) cursor reasons
  | report ds => exact h.receiveDiagnostics he
  | status => exact h.statusChanged he
  | answer ticket answer => exact absurd rfl (ht ticket answer)
  | configure p => exact h.acceptMessages he
  | pause _ brings => exact h.pause (brings ▸ he)
  | switch _ mode brings => exact h.setMode (brings ▸ he) cursor mode
  | aside _ _ brings _ => exact brings ▸ he
  | dispose =>
    simp only [dispose, cancelPending_fst]
    exact h.fetching (e.brought .dispose) none e.nextTicket he

/-- Unless it takes an answer, a turn keeps what holds with what its trigger brings along. -/
theorem react (cursor : Option Cursor) {t : Trigger}
    (ht : ∀ ticket answer, t ≠ .respond ticket answer) (he : holds (e.brought t)) :
    holds (e.react cursor t).engine :=
  h.does (e.react_does cursor t) ht he

end Steady

structure Apart {α : Type} (part : Engine → α) : Prop where
  placing : ∀ e c, part (placedAt e c) = part e
  showing : ∀ e l, part (showing e l) = part e
  running : ∀ e mode stopped, part { e with view := { e.view with mode, stopped } } = part e
  fetching : ∀ e pending next, part { e with pending := pending, nextTicket := next } = part e

namespace Apart

variable {e} {α : Type} {part : Engine → α} (h : Apart part)
include h

theorem steady (value : α) : Steady (part · = value) where
  placing e c := (h.placing e c).trans
  showing e l := (h.showing e l).trans
  running e mode stopped := (h.running e mode stopped).trans
  fetching e pending next := (h.fetching e pending next).trans

/-- Unless it takes an answer, a turn changes nothing else but what its trigger brings along. -/
theorem react (cursor : Option Cursor) {t : Trigger}
    (ht : ∀ ticket answer, t ≠ .respond ticket answer) :
    part (e.react cursor t).engine = part (e.brought t) :=
  (h.steady (part (e.brought t))).react cursor ht rfl

end Apart

def surroundings : Selector × List Diagnostic × Config × Bool :=
  (e.selector, e.diagnostics, e.config, e.publishing)

theorem surroundings_apart : Apart surroundings :=
  ⟨fun _ _ => rfl, fun _ _ => rfl, fun _ _ _ => rfl, fun _ _ _ => rfl⟩

theorem goal_apart : Apart (·.view.goal) :=
  ⟨fun _ _ => rfl, fun _ _ => rfl, fun _ _ _ => rfl, fun _ _ _ => rfl⟩

theorem receiveAnswer_surroundings (ticket : Ticket) (answer : Answer) :
    (e.receiveAnswer ticket answer).engine.surroundings = e.surroundings := by
  rcases e.receiveAnswer_cases ticket answer with
    ⟨_, ha⟩ | ⟨_, _, _, ⟨_, ha⟩ | ⟨_, ⟨_, _, ha⟩ | ⟨_, _, ha⟩⟩⟩ <;> rw [ha] <;> rfl

/-- A turn changes nothing besides the view and the fetch but what its trigger brings along. -/
theorem react_surroundings (cursor : Option Cursor) (t : Trigger) :
    (e.react cursor t).engine.surroundings = (e.brought t).surroundings := by
  cases t with
  | respond ticket answer => exact e.receiveAnswer_surroundings ticket answer
  | _ => exact surroundings_apart.react cursor (fun _ _ => nofun)

theorem react_publishing (cursor : Option Cursor) (t : Trigger) :
    (e.react cursor t).engine.publishing = (e.brought t).publishing :=
  congrArg (·.2.2.2) (e.react_surroundings cursor t)

theorem react_goal (cursor : Option Cursor) {t : Trigger}
    (ht : ∀ ticket answer, t ≠ .respond ticket answer) :
    (e.react cursor t).engine.view.goal = e.view.goal := by
  rw [goal_apart.react cursor ht]
  cases t <;> rfl

end Engine

end ProofPanel
