import ProofPanel.Proofs.Diagnostic.Relevant
import ProofPanel.Proofs.Engine.Answers

/-!
# The engine's state is always valid

After any run, also one that disposes of the engine or goes on after that, a pending fetch belongs
to an engine that runs, shows goals and knows its location, file and position are known together,
and the accepted diagnostics are there exactly with them and belong there. So an answer to the
pending fetch is never turned away.
-/
namespace ProofPanel

namespace View

variable {v w : View}

theorem location?_eq_some {l : Location} : v.location? = some l ↔
    ∃ fileName p, v.fileName = some fileName ∧ v.position = some p ∧
      Location.ofPosition fileName p = l := by
  simp [location?, Option.bind_eq_some_iff]

def Furnished (v : View) : Prop :=
  ∃ l ms, v.location? = some l ∧ v.messages = some ms ∧ Diagnostic.Listed l v.mode ms

/-- What a turn makes of place, mode and accepted diagnostics: they stay, or the diagnostics are
those of where the engine is, unless it is nowhere yet. -/
inductive Resides (v w : View) : Prop
  | stays (fileName : w.fileName = v.fileName) (position : w.position = v.position)
      (mode : w.mode = v.mode) (messages : w.messages = v.messages)
  | nowhere (fileName : w.fileName = v.fileName) (position : w.position = v.position)
      (location : w.location? = none) (messages : w.messages = v.messages)
  | arrives (furnished : w.Furnished)

theorem Resides.refl (v : View) : Resides v v := .stays rfl rfl rfl rfl

end View

open View

namespace Engine

variable {e d : Engine}

theorem showing_furnished {l : Location} (hl : e.location? = some l) :
    (e.showing l).view.Furnished :=
  ⟨l, _, hl, rfl, Diagnostic.relevant_listed _ _ _ _⟩

/-- A running engine without a location accepts nothing; any other has what belongs there. -/
theorem acceptMessages_furnished (hrun : e.view.stopped = false) :
    (e.location? = none ∧ e.acceptMessages.1 = e) ∨ e.acceptMessages.1.view.Furnished := by
  rcases e.acceptMessages_cases with ⟨ha, hs | hn | ⟨l, old, hl, ho, hsame⟩⟩ | ⟨l, _, hl, ha⟩
  · rw [hrun] at hs
    cases hs
  · exact Or.inl ⟨hn, by rw [ha]⟩
  · rw [ha]
    exact Or.inr ⟨l, old, hl, ho, (Diagnostic.relevant_listed _ _ _ _).of_sameList hsame⟩
  · rw [ha]
    exact Or.inr (showing_furnished hl)

theorem acceptMessages_resides (e : Engine) : Resides e.view e.acceptMessages.1.view := by
  rcases e.acceptMessages_cases with ⟨ha, _⟩ | ⟨l, _, hl, ha⟩
  · rw [ha]
    exact .refl _
  · rw [ha]
    exact .arrives (showing_furnished hl)

/-- Of the view from which it comes the arriving engine need only have place and diagnostics: its
mode may just have been switched. -/
theorem arrived_resides {v : View} (hrun : d.view.stopped = false)
    (fileName : d.view.fileName = v.fileName) (position : d.view.position = v.position)
    (messages : d.view.messages = v.messages) (cursor : Option Cursor) :
    Resides v (d.arrived cursor).view := by
  rw [arrived]
  rcases d.follow_cases cursor with hf | ⟨c, _, _, hf⟩
  · rw [hf]
    rcases acceptMessages_furnished hrun with ⟨hn, ha⟩ | ha
    · rw [ha]
      exact .nowhere fileName position hn messages
    · exact .arrives ha
  · rw [hf]
    rcases acceptMessages_furnished (e := d.placedAt c) hrun with ⟨hn, _⟩ | ha
    · cases hn
    · exact .arrives ha

theorem updatePosition_resides (e : Engine) (cursor : Option Cursor) (reasons : Reasons) :
    Resides e.view (e.updatePosition cursor reasons).engine.view := by
  rcases e.updatePosition_cases cursor reasons with ⟨hu, _⟩ | ⟨hrun, _, hu⟩
  · rw [hu]
    exact .refl _
  · rw [hu, decide_view]
    exact arrived_resides hrun rfl rfl rfl cursor

theorem receiveDiagnostics_resides (e : Engine) (ds : List Diagnostic) :
    Resides e.view (e.receiveDiagnostics ds).engine.view := by
  rcases e.receiveDiagnostics_cases ds with ⟨hr, _⟩ | ⟨l, _, hl, _, hr⟩
  · rw [hr]
    exact .refl _
  · rw [hr, decide_view]
    exact .arrives (showing_furnished (e := e.brought (.diagnostics ds)) hl)

theorem setMode_resides (e : Engine) (cursor : Option Cursor) (mode : Mode) :
    Resides e.view (e.setMode cursor mode).engine.view := by
  rcases e.setMode_cases cursor mode with ⟨_, _, hm⟩ | ⟨_, hm⟩
  · rw [hm]
    exact .refl _
  · rw [hm, Turn.after, decide_view]
    exact arrived_resides (v := e.view) (d := e.switched mode) rfl rfl rfl rfl cursor

theorem pause_resides (e : Engine) : Resides e.view e.pause.engine.view := by
  rw [pause_eq]
  exact .stays rfl rfl rfl rfl

theorem statusChanged_resides (e : Engine) : Resides e.view e.statusChanged.engine.view := by
  rcases e.statusChanged_cases with hf | ⟨l, _, hf⟩
  · rw [hf]
    exact .refl _
  · obtain ⟨_, _, hd⟩ := e.fetchGoal_engine {}
    rw [hf, hd]
    exact .refl _

theorem receiveAnswer_resides (e : Engine) (ticket : Ticket) (answer : Answer) :
    Resides e.view (e.receiveAnswer ticket answer).engine.view := by
  rcases e.receiveAnswer_cases ticket answer with
    ⟨_, ha⟩ | ⟨_, _, _, ⟨_, ha⟩ | ⟨_, ⟨_, _, ha⟩ | ⟨_, _, ha⟩⟩⟩ <;> rw [ha] <;>
    exact .stays rfl rfl rfl rfl

theorem Does.resides {cursor : Option Cursor} {t : Trigger} {turn : Turn}
    (hd : Does e cursor t turn) : Resides e.view turn.engine.view := by
  cases hd with
  | update _ reasons _ => exact e.updatePosition_resides cursor reasons
  | report ds => exact e.receiveDiagnostics_resides ds
  | status => exact e.statusChanged_resides
  | answer ticket answer => exact e.receiveAnswer_resides ticket answer
  | configure p => exact ({ e with config := e.config.merge p } : Engine).acceptMessages_resides
  | pause _ _ => exact e.pause_resides
  | switch _ mode _ => exact e.setMode_resides cursor mode
  | aside _ _ _ _ => exact .refl _
  | dispose =>
    simp only [Engine.dispose, cancelPending_fst]
    exact .refl _

end Engine

structure View.Settled (v : View) : Prop where
  placed : v.fileName.isSome = v.position.isSome
  accepted : v.messages.isSome = v.location?.isSome
  listed : ∀ l ms, v.location? = some l → v.messages = some ms → Diagnostic.Listed l v.mode ms

theorem View.Furnished.settled {v : View} (h : v.Furnished) : v.Settled := by
  obtain ⟨l, ms, hl, hms, hlisted⟩ := h
  obtain ⟨fileName, p, hf, hp, _⟩ := location?_eq_some.mp hl
  refine ⟨by rw [hf, hp]; rfl, by rw [hms, hl]; rfl, fun l' ms' hl' hms' => ?_⟩
  rw [hl] at hl'
  rw [hms] at hms'
  cases hl'
  cases hms'
  exact hlisted

theorem View.Resides.settled {v w : View} (hr : Resides v w) (h : v.Settled) : w.Settled := by
  have hlocation : w.fileName = v.fileName → w.position = v.position →
      w.location? = v.location? := by
    intro hf hp
    simp only [location?, hf, hp]
  cases hr with
  | stays fileName position mode messages =>
    have hl := hlocation fileName position
    refine ⟨?_, ?_, ?_⟩
    · rw [fileName, position]
      exact h.placed
    · rw [messages, hl]
      exact h.accepted
    · rw [messages, hl, mode]
      exact h.listed
  | nowhere fileName position location messages =>
    have hl := hlocation fileName position
    refine ⟨?_, ?_, ?_⟩
    · rw [fileName, position]
      exact h.placed
    · rw [messages, hl]
      exact h.accepted
    · rw [location]
      nofun
  | arrives furnished => exact furnished.settled

namespace Engine

variable {e : Engine} {o : Occasion} {history : List FetchEvent}

theorem goal?_ne_empty (record : Option Record) : record.bind Record.goal? ≠ some "" := by
  intro h
  obtain ⟨r, _, hr⟩ := Option.bind_eq_some_iff.mp h
  simp [Record.goal?, Option.filter_eq_some_iff] at hr

theorem newestGoal_ne_empty (applied : List (Ticket × Option Record)) :
    newestGoal applied ≠ some "" := by
  intro h
  obtain ⟨a, _, ha⟩ := Option.bind_eq_some_iff.mp h
  exact goal?_ne_empty a.2 ha

theorem run_settled (selector : Selector) (config : Config) (occasions : List Occasion) :
    (run meet (start selector config) occasions).1.view.Settled := by
  refine run_invariant (motive := fun (e : Engine) _ => e.view.Settled) ?_
    ⟨rfl, rfl, fun _ _ _ hms => by cases hms⟩ occasions
  intro e _ o he
  rw [meet_view]
  exact (e.react_does o.cursor o.trigger).resides.settled he

structure Valid (e : Engine) : Prop where
  waiting : ∀ fetch, e.pending = some fetch → e.view.stopped = false ∧
    e.view.mode = .onlyState ∧ e.location?.isSome = true ∧ fetch.ticket < e.nextTicket
  placed : e.view.fileName.isSome = e.view.position.isSome
  accepted : e.view.messages.isSome = e.location?.isSome
  inFile : ∀ ms, e.view.messages = some ms → ∀ d ∈ ms, e.view.fileName = some d.fileName
  ordered : ∀ ms, e.view.messages = some ms →
    ms.Pairwise fun a b => a.line < b.line ∨ a.line = b.line ∧ a.column ≤ b.column
  onLine : e.view.mode = .onlyState → ∀ ms, e.view.messages = some ms →
    ∀ d ∈ ms, ∃ p, e.view.position = some p ∧ d.line = p.line + 1
  goal : e.view.goal ≠ some ""

theorem valid_of_current (h : e.view.Settled) (hb : Balanced e history)
    (hc : Current e history) : e.Valid := by
  have hplaced : ∀ ms, e.view.messages = some ms → ∃ fileName p,
      e.view.fileName = some fileName ∧ e.view.position = some p ∧
        Diagnostic.Listed (.ofPosition fileName p) e.view.mode ms := by
    intro ms hms
    have hsome : e.view.location?.isSome = true := by
      rw [← h.accepted, hms]
      rfl
    obtain ⟨l, hl⟩ := Option.isSome_iff_exists.mp hsome
    obtain ⟨fileName, p, hf, hp, rfl⟩ := location?_eq_some.mp hl
    exact ⟨fileName, p, hf, hp, h.listed _ ms hl hms⟩
  refine ⟨fun fetch hf => ?_, h.placed, h.accepted, fun ms hms d hd => ?_, fun ms hms => ?_,
    fun hm ms hms d hd => ?_, ?_⟩
  · obtain ⟨l, hl, _⟩ := hc.placed fetch hf
    obtain ⟨hrun, hmode, hlocation⟩ := (due?_eq_some _).mp hl
    exact ⟨hrun, hmode, by rw [hlocation]; rfl, hc.below hb hf⟩
  · obtain ⟨fileName, p, hf, _, hlisted⟩ := hplaced ms hms
    rw [hf, hlisted.inFile d hd]
    rfl
  · obtain ⟨_, _, _, _, hlisted⟩ := hplaced ms hms
    exact hlisted.ordered
  · obtain ⟨fileName, p, _, hp, hlisted⟩ := hplaced ms hms
    exact ⟨p, hp, hlisted.onLine hm d hd⟩
  · rw [hc.goal]
    exact newestGoal_ne_empty _

/-- Every state that a run reaches is valid, and it takes the answer to its pending fetch whatever
it is. -/
theorem run_valid (selector : Selector) (config : Config) (occasions : List Occasion) :
    let e := (run meet (start selector config) occasions).1
    e.Valid ∧ ∀ ticket, e.pendingTicket? = some ticket →
      (∀ record, (e.receiveAnswer ticket (.ok record)).engine.view.goal =
        record.bind Record.goal?) ∧
      ∀ err, (e.receiveAnswer ticket (.error err)).failure = some err := by
  intro e
  have hstate : (run recorded (start selector config) occasions).1 = e :=
    run_recorded_fst _ occasions
  obtain ⟨hs, hb, hc⟩ := run_current selector config occasions
  rw [hstate] at hs hb hc
  refine ⟨valid_of_current (run_settled selector config occasions) hb hc,
    fun ticket ht => ⟨fun record => ?_, fun err => ?_⟩⟩
  · rcases hs.receiveAnswer_cases ticket (.ok record) with
      ⟨hne, _⟩ | ⟨_, _, _, ⟨_, herr, _⟩ | ⟨_, hok, ha⟩⟩
    · exact absurd ht hne
    · cases herr
    · cases hok
      rw [ha]
      rfl
  · rcases hs.receiveAnswer_cases ticket (.error err) with
      ⟨hne, _⟩ | ⟨_, _, _, ⟨_, herr, ha⟩ | ⟨_, hok, _⟩⟩
    · exact absurd ht hne
    · cases herr
      rw [ha]
    · cases hok

end Engine

end ProofPanel
