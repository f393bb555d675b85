import ProofPanel.Proofs.Engine.Redraw
import ProofPanel.Proofs.Engine.Repaint

/-!
# What a trigger decides

Of one turn the panel hears at most one thing: a page, which shows the engine as it is then, or a
notice. Which of them it hears of a move and of a report, and when the backend is asked instead,
is a matter of the mode, of the place and of whether the diagnostics there differ from those
accepted last.
-/
namespace ProofPanel

def Turn.heard (t : Turn) : List Effect := t.effects.filter Effect.isHeard

def Effect.request? : Effect → Option (Ticket × Location)
  | .request ticket l => some (ticket, l)
  | _ => none

namespace Reasons

@[simp] theorem merge_none (reasons : Reasons) : ({} : Reasons).merge reasons = reasons := rfl

end Reasons

namespace Engine

variable {e d : Engine} {cursor : Option Cursor} {l : Location}

/-! ## One output at most -/

/-- What the panel hears of an engine: at most one thing, a page with the engine as it is or a
notice, which names no other place than the engine's. -/
inductive Announces (d : Engine) : List Effect → Prop
  | nothing : Announces d []
  | page : Announces d [.redraw d.snapshot]
  | notice (m : HostMessage) (place : ∀ l, m = .position l → d.location? = some l) :
      Announces d [.post m]

theorem Announces.of_view {outputs : List Effect} (h : Announces e outputs)
    (view : d.view = e.view) : Announces d outputs := by
  have hsnapshot : d.snapshot = e.snapshot := congrArg View.snapshot view
  have hlocation : d.location? = e.location? := congrArg View.location? view
  cases h with
  | nothing => exact .nothing
  | page =>
    rw [← hsnapshot]
    exact .page
  | notice m place =>
    refine .notice m fun l hm => ?_
    rw [hlocation]
    exact place l hm

theorem redraw_announces (e : Engine) : Announces e (e.redraw.filter Effect.isHeard) := by
  unfold redraw
  split
  · exact .page
  · exact .nothing

theorem post_announces (e : Engine) {m : HostMessage}
    (place : ∀ l, m = .position l → d.location? = some l) :
    Announces d ((e.post m).filter Effect.isHeard) := by
  unfold post
  split
  · exact .notice m place
  · exact .nothing

theorem told_announces (e : Engine) (reasons : Reasons) :
    Announces e ((e.told reasons).filter Effect.isHeard) := by
  unfold told
  split
  · exact e.redraw_announces
  · split
    · exact .nothing
    · rename_i l hl
      refine post_announces e fun l' hm => ?_
      cases hm
      exact hl

theorem fetchGoal_heard (e : Engine) (reasons : Reasons) : (e.fetchGoal reasons).heard = [] := by
  cases hl : e.location? with
  | none =>
    rw [e.fetchGoal_none hl]
    rfl
  | some l =>
    rw [e.fetchGoal_some hl, Turn.heard, List.filter_append, filter_isHeard_cancelPending]
    rfl

theorem decide_announces (e : Engine) (reasons : Reasons) :
    Announces e (e.decide reasons).heard := by
  cases hm : e.view.mode with
  | allMessages =>
    rw [e.decide_allMessages hm, Turn.heard, List.filter_append, filter_isHeard_cancelPending]
    exact e.told_announces reasons
  | onlyState =>
    cases hl : e.location? with
    | none =>
      rw [e.decide_onlyState_nowhere hm hl, Turn.heard]
      split
      · exact e.redraw_announces
      · exact .nothing
    | some l =>
      rw [e.decide_onlyState hm (by rw [hl]; rfl), fetchGoal_heard]
      exact .nothing

theorem decide_turn_announces (e : Engine) (reasons : Reasons) :
    Announces (e.decide reasons).engine (e.decide reasons).heard :=
  (e.decide_announces reasons).of_view (e.decide_view reasons)

theorem receiveAnswer_announces (e : Engine) (ticket : Ticket) (answer : Answer) :
    Announces (e.receiveAnswer ticket answer).engine (e.receiveAnswer ticket answer).heard := by
  rcases e.receiveAnswer_cases ticket answer with
    ⟨_, ha⟩ | ⟨fetch, _, _, ⟨_, ha⟩ | ⟨_, ⟨_, _, ha⟩ | ⟨record, _, ha⟩⟩⟩
  · rw [ha]
    exact .nothing
  · rw [ha]
    exact .nothing
  · rw [ha]
    exact .nothing
  · rw [ha, Turn.heard]
    simp only [answerEffects]
    split
    · exact redraw_announces _
    · split
      · refine post_announces e fun l hm => ?_
        cases hm
      · exact .nothing

/-- That a switch gives a fetch up is not heard. -/
theorem switch_heard (e : Engine) (mode : Mode) (t : Turn) :
    (t.after (if mode = .onlyState then [] else e.cancelPending.2)).heard = t.heard := by
  rw [Turn.heard, Turn.after, List.filter_append]
  split
  · rfl
  · rw [filter_isHeard_cancelPending]
    rfl

theorem setMode_announces (e : Engine) (cursor : Option Cursor) (mode : Mode) :
    Announces (e.setMode cursor mode).engine (e.setMode cursor mode).heard := by
  rcases e.setMode_cases cursor mode with ⟨_, _, hm⟩ | ⟨_, hm⟩
  · rw [hm]
    exact .nothing
  · rw [hm, switch_heard]
    exact decide_turn_announces _ _

theorem filter_isHeard_aside {effects : List Effect}
    (h : ∀ effect ∈ effects, effect.isAside = true) : effects.filter Effect.isHeard = [] := by
  refine List.filter_eq_nil_iff.mpr fun effect he => ?_
  have hside := h effect he
  cases effect <;> simp_all [Effect.isAside, Effect.isHeard]

theorem Does.announces {t : Trigger} {turn : Turn} (hd : Does e cursor t turn) :
    Announces turn.engine turn.heard := by
  cases hd with
  | update _ reasons _ =>
    rcases e.updatePosition_cases cursor reasons with ⟨hu, _⟩ | ⟨_, _, hu⟩
    · rw [hu]
      exact .nothing
    · rw [hu]
      exact decide_turn_announces _ _
  | report ds =>
    rcases e.receiveDiagnostics_cases ds with ⟨hr, _⟩ | ⟨_, _, _, _, hr⟩
    · rw [hr]
      exact .nothing
    · rw [hr]
      exact decide_turn_announces _ _
  | status =>
    rcases e.statusChanged_cases with hf | ⟨_, _, hf⟩
    · rw [hf]
      exact .nothing
    · rw [hf, fetchGoal_heard]
      exact .nothing
  | answer ticket answer => exact e.receiveAnswer_announces ticket answer
  | configure p => exact redraw_announces _
  | pause _ _ =>
    rw [pause_eq, Turn.heard, List.filter_append, filter_isHeard_cancelPending]
    refine post_announces e fun l hm => ?_
    cases hm
  | switch _ mode _ => exact e.setMode_announces cursor mode
  | aside _ effects _ aside =>
    rw [Turn.heard, filter_isHeard_aside aside]
    exact .nothing
  | dispose =>
    have hd : e.dispose.heard = [] := filter_isHeard_cancelPending
    rw [hd]
    exact .nothing

theorem meet_announces (e : Engine) (o : Occasion) :
    Announces (e.meet o).1 ((e.meet o).2.filter Effect.isHeard) :=
  (e.react_does o.cursor o.trigger).announces.of_view (meet_view o)

/-! ## Moves and reports -/

/-- The place to which a cursor moves the engine. There is none without a cursor, if its document
is not followed or if the engine is there already. -/
def destination? (e : Engine) : Option Cursor → Option Location
  | none => none
  | some c =>
    if e.selector.follows c ∧
        ¬(e.view.fileName = some c.fileName ∧ e.view.position = some c.position) then
      some (.ofPosition c.fileName c.position)
    else none

/-- Whether the diagnostics at a place differ from those accepted last, in the fields by which
diagnostics are compared, or none have been accepted yet. -/
def differsAt (e : Engine) (l : Location) : Bool :=
  e.view.messages.all fun accepted => !Diagnostic.sameList accepted (e.relevantAt l)

theorem follow_of_stays (h : e.destination? cursor = none) : (e.follow cursor).2 = false := by
  rcases e.follow_cases cursor with hf | ⟨c, rfl, hc, hf⟩
  · rw [hf]
  · rw [destination?, ite_eq_right_iff] at h
    have hplaced : e.view.fileName = some c.fileName ∧ e.view.position = some c.position := by
      by_contra hne
      cases h ⟨hc, hne⟩
    simp [follow, hc, hplaced]

theorem follow_of_moves (h : e.destination? cursor = some l) :
    ∃ c, e.follow cursor = (e.placedAt c, true) ∧ (e.placedAt c).location? = some l := by
  cases cursor with
  | none => cases h
  | some c =>
    rw [destination?, Option.ite_none_right_eq_some] at h
    obtain ⟨⟨hc, hne⟩, hl⟩ := h
    refine ⟨c, ?_, hl⟩
    rcases e.follow_cases (some c) with hf | ⟨c', hcursor, _, hf⟩
    · have hmoved : (e.follow (some c)).2 = false := by rw [hf]
      simp only [follow, if_pos hc, Bool.or_eq_false_iff, bne_eq_false_iff_eq] at hmoved
      exact absurd hmoved hne
    · cases hcursor
      exact hf

theorem acceptMessages_at (hrun : e.view.stopped = false) (hl : e.location? = some l) :
    e.acceptMessages = if e.differsAt l then (e.showing l, true) else (e, false) := by
  unfold acceptMessages differsAt
  cases ho : e.view.messages with
  | none => simp [hrun, hl, showing]
  | some old =>
    cases hs : Diagnostic.sameList old (e.relevantAt l) <;> simp [hrun, hl, hs, showing]

theorem updatePosition_stays (h : e.destination? cursor = none) :
    e.updatePosition cursor {} = { engine := e } := by
  rcases e.updatePosition_cases cursor {} with ⟨hu, _⟩ | ⟨_, hm | hf, _⟩
  · exact hu
  · rw [arrival, follow_of_stays h] at hm
    cases hm
  · cases hf

/-- A move leads to the destination with what is accepted there. -/
theorem updatePosition_moves (hrun : e.view.stopped = false)
    (h : e.destination? cursor = some l) :
    (e.arrived cursor).location? = some l ∧
      e.updatePosition cursor {} =
        (e.arrived cursor).decide { moved := true, messagesChanged := e.differsAt l } := by
  obtain ⟨c, hf, hl⟩ := follow_of_moves h
  have haccept := acceptMessages_at (e := e.placedAt c) hrun hl
  have hdiffers : (e.placedAt c).differsAt l = e.differsAt l := rfl
  have harrival : e.arrival cursor = { moved := true, messagesChanged := e.differsAt l } := by
    rw [arrival, hf, haccept, hdiffers]
    split <;> simp_all
  refine ⟨by rw [location?_arrived, hf, hl], ?_⟩
  rcases e.updatePosition_cases cursor {} with ⟨_, hs | ⟨hm, _⟩⟩ | ⟨_, _, hu⟩
  · rw [hrun] at hs
    cases hs
  · rw [harrival] at hm
    cases hm
  · rw [hu, harrival, Reasons.merge_none]

/-- A report that leaves what is shown as it is, or comes where nothing is shown, is only kept. -/
theorem receiveDiagnostics_same (ds : List Diagnostic)
    (h : ∀ l, e.location? = some l → (e.brought (.diagnostics ds)).differsAt l = false) :
    e.receiveDiagnostics ds = { engine := e.brought (.diagnostics ds) } := by
  rcases e.receiveDiagnostics_cases ds with ⟨hr, _⟩ | ⟨l, hrun, hl, hnew, _⟩
  · exact hr
  · rw [acceptMessages_at (e := e.brought (.diagnostics ds)) hrun hl, h l hl] at hnew
    cases congrArg Prod.snd hnew

theorem receiveDiagnostics_differs (hrun : e.view.stopped = false) (hl : e.location? = some l)
    (ds : List Diagnostic) (h : (e.brought (.diagnostics ds)).differsAt l = true) :
    e.receiveDiagnostics ds =
      ((e.brought (.diagnostics ds)).showing l).decide { messagesChanged := true } := by
  have hnew := acceptMessages_at (e := e.brought (.diagnostics ds)) hrun hl
  rw [if_pos h] at hnew
  rcases e.receiveDiagnostics_cases ds with ⟨_, hs | hkept⟩ | ⟨l', _, hl', _, hr⟩
  · rw [hrun] at hs
    cases hs
  · rw [hkept] at hnew
    cases congrArg Prod.snd hnew
  · rw [hl] at hl'
    cases hl'
    exact hr

/-! ## The tables of both modes -/

/-- All messages: the panel is told of a move unless it has to be drawn anew. -/
theorem decide_heard_allMessages (heard : e.publishing = true) (hm : e.view.mode = .allMessages)
    (hl : e.location? = some l) {reasons : Reasons} (hforced : reasons.forced = false) :
    (e.decide reasons).heard =
      if reasons.messagesChanged then [.redraw (e.decide reasons).engine.snapshot]
      else [.post (.position l)] := by
  have hsnapshot : (e.decide reasons).engine.snapshot = e.snapshot :=
    congrArg View.snapshot (e.decide_view reasons)
  rw [hsnapshot, e.decide_allMessages hm, Turn.heard, List.filter_append,
    filter_isHeard_cancelPending, told, hforced, Bool.false_or, List.nil_append]
  split
  · exact filter_isHeard_redraw heard
  · simp [hl, post, heard, Effect.isHeard]

theorem filterMap_request_cancelPending : e.cancelPending.2.filterMap Effect.request? = [] := by
  cases h : e.pending <;> simp [cancelPending_snd, h, Effect.request?]

theorem fetchGoal_requests (hl : e.location? = some l) (reasons : Reasons) :
    (e.fetchGoal reasons).effects.filterMap Effect.request? = [(e.nextTicket, l)] := by
  rw [e.fetchGoal_some hl, List.filterMap_append, filterMap_request_cancelPending]
  rfl

theorem decide_onlyState_at (hm : e.view.mode = .onlyState) (hl : e.location? = some l)
    (reasons : Reasons) : (e.decide reasons).heard = [] ∧
      (e.decide reasons).effects.filterMap Effect.request? = [(e.nextTicket, l)] := by
  rw [e.decide_onlyState hm (by rw [hl]; rfl)]
  exact ⟨fetchGoal_heard e reasons, fetchGoal_requests hl reasons⟩

/-- What the panel hears of moves and reports while it shows all messages. A move to another place
draws it if the diagnostics there differ, and is told if they do not; a report draws it if they
differ where the engine is. -/
structure AllMessagesTable (e : Engine) (o : Occasion) : Prop where
  moved : o.trigger = .selectionChanged → (e.meet o).2.filter Effect.isHeard =
    match e.destination? o.cursor with
    | none => []
    | some l => if e.differsAt l then [.redraw (e.meet o).1.snapshot] else [.post (.position l)]
  reported : ∀ ds, o.trigger = .diagnostics ds → (e.meet o).2.filter Effect.isHeard =
    match e.location? with
    | none => []
    | some l =>
      if (e.brought (.diagnostics ds)).differsAt l then [.redraw (e.meet o).1.snapshot] else []

/-- What the backend is asked on moves, reports and changes of its status while the panel shows the
goal: the goal at the place where the engine then is. The panel hears nothing of them yet. -/
structure OnlyStateTable (e : Engine) (o : Occasion) : Prop where
  moved : o.trigger = .selectionChanged → (e.meet o).2.filter Effect.isHeard = [] ∧
    (e.meet o).2.filterMap Effect.request? =
      match e.destination? o.cursor with
      | none => []
      | some l => [(e.nextTicket, l)]
  reported : ∀ ds, o.trigger = .diagnostics ds → (e.meet o).2.filter Effect.isHeard = [] ∧
    (e.meet o).2.filterMap Effect.request? =
      match e.location? with
      | none => []
      | some l => if (e.brought (.diagnostics ds)).differsAt l then [(e.nextTicket, l)] else []
  status : o.trigger = .statusChanged → (e.meet o).2.filter Effect.isHeard = [] ∧
    (e.meet o).2.filterMap Effect.request? =
      match e.location? with
      | none => []
      | some l => [(e.nextTicket, l)]

variable {o : Occasion}

theorem allMessagesTable (heard : e.publishing = true) (hrun : e.view.stopped = false)
    (hm : e.view.mode = .allMessages) (o : Occasion) : AllMessagesTable e o := by
  refine ⟨fun ht => ?_, fun ds ht => ?_⟩
  · rw [meet_snapshot, meet_snd, ht]
    simp only [react]
    cases hd : e.destination? o.cursor with
    | none =>
      rw [updatePosition_stays hd]
      rfl
    | some l =>
      obtain ⟨hl, hu⟩ := updatePosition_moves hrun hd
      obtain ⟨_, _, _, ha⟩ := e.arrived_view o.cursor
      rw [hu]
      exact decide_heard_allMessages (by rw [ha]; exact heard) (by rw [ha]; exact hm) hl rfl
  · rw [meet_snapshot, meet_snd, ht]
    simp only [react]
    cases hl : e.location? with
    | none =>
      rw [receiveDiagnostics_same ds (by simp [hl])]
      rfl
    | some l =>
      cases hd : (e.brought (.diagnostics ds)).differsAt l with
      | false =>
        simp only [hd, Bool.false_eq_true, if_false]
        rw [receiveDiagnostics_same ds (by simp [hl, hd])]
        rfl
      | true =>
        simp only [hd, if_true]
        rw [receiveDiagnostics_differs hrun hl ds hd]
        exact decide_heard_allMessages (e := (e.brought (.diagnostics ds)).showing l) heard hm hl
          rfl

theorem onlyStateTable (hrun : e.view.stopped = false) (hm : e.view.mode = .onlyState)
    (o : Occasion) : OnlyStateTable e o := by
  refine ⟨fun ht => ?_, fun ds ht => ?_, fun ht => ?_⟩
  · rw [meet_snd, ht]
    simp only [react]
    cases hd : e.destination? o.cursor with
    | none =>
      rw [updatePosition_stays hd]
      exact ⟨rfl, rfl⟩
    | some l =>
      obtain ⟨hl, hu⟩ := updatePosition_moves hrun hd
      obtain ⟨_, _, _, ha⟩ := e.arrived_view o.cursor
      have hnext : (e.arrived o.cursor).nextTicket = e.nextTicket := by rw [ha]
      rw [hu, ← hnext]
      exact decide_onlyState_at (by rw [ha]; exact hm) hl _
  · rw [meet_snd, ht]
    simp only [react]
    cases hl : e.location? with
    | none =>
      rw [receiveDiagnostics_same ds (by simp [hl])]
      exact ⟨rfl, rfl⟩
    | some l =>
      cases hd : (e.brought (.diagnostics ds)).differsAt l with
      | false =>
        simp only [hd, Bool.false_eq_true, if_false]
        rw [receiveDiagnostics_same ds (by simp [hl, hd])]
        exact ⟨rfl, rfl⟩
      | true =>
        simp only [hd, if_true]
        rw [receiveDiagnostics_differs hrun hl ds hd]
        exact decide_onlyState_at (e := (e.brought (.diagnostics ds)).showing l) hm hl _
  · rw [meet_snd, ht]
    simp only [react]
    have hf : e.statusChanged = e.fetchGoal {} := by simp [statusChanged, hrun, hm]
    rw [hf]
    refine ⟨fetchGoal_heard e _, ?_⟩
    cases hl : e.location? with
    | none =>
      rw [e.fetchGoal_none hl]
      rfl
    | some l => exact fetchGoal_requests hl _

theorem Announces.length_le {outputs : List Effect} (h : Announces e outputs) :
    outputs.length ≤ 1 := by
  cases h <;> simp

theorem Announces.of_position {outputs : List Effect} (h : Announces e outputs)
    (hm : Effect.post (.position l) ∈ outputs) : e.location? = some l := by
  cases h with
  | nothing => cases hm
  | page => cases List.mem_singleton.mp hm
  | notice m place =>
    obtain rfl : HostMessage.position l = m := by simpa using hm
    exact place l rfl

/-- In every state that a run reaches without a disposal, a trigger lets the panel hear at most one
thing: a page that shows the engine after the turn, or a notice, which names no other place than
the engine's. What it hears of moves and reports, and when the backend is asked instead, is told by
the tables of the two modes. -/
theorem run_outputs_by_tables (selector : Selector) (config : Config) (occasions : List Occasion)
    (h : ∀ o ∈ occasions, o.trigger ≠ .dispose) (o : Occasion) :
    let e := (run meet (start selector config) occasions).1
    ((e.meet o).2.filter Effect.isHeard).length ≤ 1 ∧
      (∀ s, .redraw s ∈ (e.meet o).2 → s = (e.meet o).1.snapshot) ∧
      (∀ l, .post (.position l) ∈ (e.meet o).2 → (e.meet o).1.location? = some l) ∧
      (e.view.stopped = false → e.view.mode = .allMessages → AllMessagesTable e o) ∧
      (e.view.stopped = false → e.view.mode = .onlyState → OnlyStateTable e o) := by
  intro e
  have he : e.Live := ⟨selector, config, occasions, h, rfl⟩
  have hannounces := e.meet_announces o
  refine ⟨hannounces.length_le, fun s => meet_draws, fun l hm => ?_, fun hrun hm => ?_,
    fun hrun hm => ?_⟩
  · exact hannounces.of_position (List.mem_filter.mpr ⟨hm, rfl⟩)
  · exact allMessagesTable he.publishing hrun hm o
  · exact onlyStateTable hrun hm o

/-- The cursor moves down in a file with one error. While all messages are shown, they stay the
same, and the panel is told the place; while the goal is shown, the goal there is asked for. -/
theorem run_outputs_by_tables_move :
    let there : Option Cursor := some ⟨"/a.lean", "lean", ⟨2, 4⟩⟩
    let ds : List Diagnostic := [⟨"/a.lean", 7, 0, .error, "", "unknown identifier", none, none⟩]
    let listing : List Occasion :=
      [⟨there, .ok (), .selectionChanged⟩, ⟨there, .ok (), .diagnostics ds⟩]
    let asking : List Occasion := listing ++ [⟨there, .ok (), .setMode .onlyState⟩]
    let move : Occasion := ⟨some ⟨"/a.lean", "lean", ⟨6, 0⟩⟩, .ok (), .selectionChanged⟩
    let e := (run meet (start {} {}) listing).1
    let d := (run meet (start {} {}) asking).1
    (∀ o ∈ listing, o.trigger ≠ .dispose) ∧ (∀ o ∈ asking, o.trigger ≠ .dispose) ∧
      e.view.stopped = false ∧ e.view.mode = .allMessages ∧
      d.view.stopped = false ∧ d.view.mode = .onlyState ∧
      (e.meet move).2.filter Effect.isHeard = [.post (.position ⟨"/a.lean", 7, 0⟩)] ∧
      (d.meet move).2.filterMap Effect.request? = [(1, ⟨"/a.lean", 7, 0⟩)] := by
  intro there ds listing asking move e d
  have hlisting : ∀ o ∈ listing, o.trigger ≠ .dispose := by simp [listing]
  have hasking : ∀ o ∈ asking, o.trigger ≠ .dispose := by simp [asking, listing]
  have he : e.view.stopped = false ∧ e.view.mode = .allMessages := by
    unfold e listing ds there
    cbv
  have hd : d.view.stopped = false ∧ d.view.mode = .onlyState := by
    unfold d asking listing ds there
    cbv
  obtain ⟨_, _, _, hall, _⟩ := run_outputs_by_tables {} {} listing hlisting move
  obtain ⟨_, _, _, _, honly⟩ := run_outputs_by_tables {} {} asking hasking move
  refine ⟨hlisting, hasking, he.1, he.2, hd.1, hd.2, ?_, ?_⟩
  · refine ((hall he.1 he.2).moved rfl).trans ?_
    unfold listing ds there move
    cbv
  · refine ((honly hd.1 hd.2).moved rfl).2.trans ?_
    unfold asking listing ds there move
    cbv

end Engine

end ProofPanel
