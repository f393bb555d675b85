import ProofPanel.Proofs.Engine.Run

/-!
# What a turn does about the goal fetch

A turn calls the backend to give a fetch up, to ask for a goal or both, in this order. `Deals`
lists what a turn can do besides taking an answer; with it a fetch is pending only while a goal is
due, and this holds after every run.
-/
namespace ProofPanel

def Effect.isCall : Effect → Bool
  | .request _ _ | .cancel _ => true
  | _ => false

def Turn.calls (t : Turn) : List Effect := t.effects.filter Effect.isCall

@[simp] theorem Turn.after_nil (t : Turn) : Turn.after [] t = t := rfl

namespace Engine

/-- A fetch is pending only while a goal is due. -/
def Sound (e : Engine) : Prop := ∀ fetch, e.pending = some fetch → ∃ l, e.due? = some l

inductive Deals (e : Engine) (t : Turn) : Prop
  /-- The fetch stays, or there is none. The goal stays as it is where it is due. -/
  | keep (asked : t.asked = none) (calls : t.calls = []) (pending : t.engine.pending = e.pending)
      (next : t.engine.nextTicket = e.nextTicket)
      (goal : t.engine.due? = e.due? ∧ t.engine.view.goal = e.view.goal ∨
        e.pending = none ∧ t.engine.due? = none)
  /-- The fetch is given up, as no goal is due any more. -/
  | giveUp (fetch : Fetch) (was : e.pending = some fetch) (asked : t.asked = none)
      (calls : t.calls = [.cancel fetch.ticket]) (pending : t.engine.pending = none)
      (next : t.engine.nextTicket = e.nextTicket) (due : t.engine.due? = none)
  /-- A goal is asked for under the next ticket, and a pending fetch is given up for it. -/
  | ask (l : Location) (reasons : Reasons) (due : t.engine.due? = some l)
      (asked : t.asked = some ⟨e.nextTicket, reasons⟩)
      (calls : t.calls = e.cancelPending.2 ++ [.request e.nextTicket l])
      (pending : t.engine.pending = none) (next : t.engine.nextTicket = e.nextTicket + 1)

variable {e : Engine}

theorem filter_redraw : e.redraw.filter Effect.isCall = [] := by
  cases h : e.publishing <;> simp [redraw, h, Effect.isCall]

theorem filter_post (m : HostMessage) : (e.post m).filter Effect.isCall = [] := by
  cases h : e.publishing <;> simp [post, h, Effect.isCall]

theorem filter_told (reasons : Reasons) : (e.told reasons).filter Effect.isCall = [] := by
  unfold told
  split
  · exact filter_redraw
  · split
    · rfl
    · exact filter_post _

theorem filter_cancelPending :
    e.cancelPending.2.filter Effect.isCall = e.cancelPending.2 := by
  cases h : e.pending <;> simp [cancelPending_snd, h, Effect.isCall]

theorem cancelPending_snd_none (h : e.pending = none) : e.cancelPending.2 = [] := by
  simp [cancelPending_snd, h]

theorem Sound.due_of_pending (h : e.Sound) (hd : e.due? = none) : e.pending = none := by
  cases hp : e.pending with
  | none => rfl
  | some fetch =>
    obtain ⟨l, hl⟩ := h fetch hp
    rw [hd] at hl
    cases hl

theorem pendingTicket?_ne (h : e.pending = none) (ticket : Ticket) :
    e.pendingTicket? ≠ some ticket := by
  rw [pendingTicket?_none h]
  exact Option.some_ne_none ticket ∘ Eq.symm

theorem sound_of_idle (h : e.pending = none) : e.Sound := by
  intro fetch hf
  rw [h] at hf
  cases hf

theorem Sound.keep {d : Engine} (h : e.Sound) (pending : d.pending = e.pending)
    (due : d.due? = e.due? ∨ e.pending = none) : d.Sound := by
  rcases due with due | hnone
  · intro fetch hf
    rw [due]
    exact h fetch (pending ▸ hf)
  · exact sound_of_idle (pending.trans hnone)

theorem due?_eq_none_of_stopped (h : e.view.stopped = true) : e.due? = none := by
  simp [due?, h]

theorem due?_eq_none_of_mode (h : e.view.mode = .allMessages) : e.due? = none := by
  simp [due?, h]

theorem deals_of_idle {t : Turn} (asked : t.asked = none) (calls : t.calls = e.cancelPending.2)
    (pending : t.engine.pending = none) (next : t.engine.nextTicket = e.nextTicket)
    (due : t.engine.due? = none) : Deals e t := by
  cases hp : e.pending with
  | none =>
    refine .keep asked ?_ (pending.trans hp.symm) next (Or.inr ⟨hp, due⟩)
    rw [calls, cancelPending_snd_none hp]
  | some fetch =>
    refine .giveUp fetch hp asked ?_ pending next due
    simp [calls, cancelPending_snd, hp]

/-- Deciding for an engine whose fetch is that of `e` and whose location is not lost. -/
theorem decide_deals {d : Engine} (h : e.Sound) (hp : d.pending = e.pending)
    (hn : d.nextTicket = e.nextTicket) (hrun : d.view.stopped = false)
    (hl : d.location? = none → e.location? = none) (reasons : Reasons) :
    Deals e (d.decide reasons) := by
  have hc : d.cancelPending.2 = e.cancelPending.2 := by
    rw [cancelPending_snd, cancelPending_snd, hp]
  cases hm : d.view.mode with
  | allMessages =>
    rw [d.decide_allMessages hm]
    refine deals_of_idle rfl ?_ rfl hn (due?_eq_none_of_mode hm)
    simp [Turn.calls, filter_cancelPending, filter_told, hc]
  | onlyState =>
    cases hd : d.location? with
    | none =>
      have hnone : e.pending = none := h.due_of_pending (by simp [due?, hl hd])
      rw [d.decide_onlyState_nowhere hm hd]
      refine .keep rfl ?_ hp hn (Or.inr ⟨hnone, by simp [due?, hd]⟩)
      cases hf : reasons.forced <;> simp [Turn.calls, filter_redraw]
    | some l =>
      rw [d.decide_onlyState hm (by rw [hd]; rfl), d.fetchGoal_some hd, hn, hc]
      refine .ask l (d.inheriting reasons) ?_ rfl ?_ rfl rfl
      · exact (due?_eq_some _).mpr ⟨hrun, hm, hd⟩
      · simp [Turn.calls, filter_cancelPending, Effect.isCall]

theorem updatePosition_deals (h : e.Sound) (cursor : Option Cursor) (reasons : Reasons) :
    Deals e (e.updatePosition cursor reasons) := by
  rcases e.updatePosition_cases cursor reasons with ⟨hu, _⟩ | ⟨hrun, _, hu⟩
  · rw [hu]
    exact .keep rfl rfl rfl rfl (Or.inl ⟨rfl, rfl⟩)
  · obtain ⟨_, _, _, ha⟩ := e.arrived_view cursor
    rw [hu]
    refine decide_deals h ?_ ?_ ?_ arrived_nowhere _
    · rw [ha]
    · rw [ha]
    · rw [ha]
      exact hrun

theorem receiveDiagnostics_deals (h : e.Sound) (ds : List Diagnostic) :
    Deals e (e.receiveDiagnostics ds) := by
  rcases e.receiveDiagnostics_cases ds with ⟨hr, _⟩ | ⟨l, hrun, _, _, hr⟩
  · rw [hr]
    exact .keep rfl rfl rfl rfl (Or.inl ⟨rfl, rfl⟩)
  · rw [hr]
    exact decide_deals (d := (e.brought (.diagnostics ds)).showing l) h rfl rfl hrun
      (fun hn => hn) _

theorem statusChanged_deals (e : Engine) : Deals e e.statusChanged := by
  rcases e.statusChanged_cases with hf | ⟨l, due, hf⟩
  · rw [hf]
    exact .keep rfl rfl rfl rfl (Or.inl ⟨rfl, rfl⟩)
  · rw [hf, e.fetchGoal_some ((due?_eq_some _).mp due).2.2]
    refine .ask l (e.inheriting {}) due rfl ?_ rfl rfl
    simp [Turn.calls, filter_cancelPending, Effect.isCall]

theorem configure_deals (e : Engine) (p : Patch) : Deals e (e.configure p) := by
  have hc : ∀ d : Engine,
      (Effect.configured (e.config.merge p) :: d.redraw).filter Effect.isCall = [] := by
    intro d
    simp [Effect.isCall, filter_redraw]
  rcases ({ e with config := e.config.merge p } : Engine).acceptMessages_cases with
    ⟨ha, _⟩ | ⟨l, _, _, ha⟩
  · simp only [configure, ha]
    exact .keep rfl (hc _) rfl rfl (Or.inl ⟨rfl, rfl⟩)
  · simp only [configure, ha]
    exact .keep rfl (hc _) rfl rfl (Or.inl ⟨rfl, rfl⟩)

theorem pause_deals (e : Engine) : Deals e e.pause := by
  rw [pause_eq]
  refine deals_of_idle rfl ?_ rfl rfl (due?_eq_none_of_stopped rfl)
  simp [Turn.calls, filter_cancelPending, filter_post]

/-- Only an engine without a goal to show, and so without a fetch, switches to the mode with one;
a switch to the other mode gives the fetch up. -/
theorem switched_pending (h : e.Sound) {mode : Mode}
    (hs : e.view.mode = mode → e.view.stopped = true) : (e.switched mode).pending = none := by
  cases mode with
  | allMessages => rfl
  | onlyState =>
    apply h.due_of_pending
    cases hm : e.view.mode with
    | onlyState => exact due?_eq_none_of_stopped (hs hm)
    | allMessages => exact due?_eq_none_of_mode hm

theorem setMode_deals (h : e.Sound) (cursor : Option Cursor) (mode : Mode) :
    Deals e (e.setMode cursor mode) := by
  rcases e.setMode_cases cursor mode with ⟨_, _, hm⟩ | ⟨hs, hm⟩
  · rw [hm]
    exact .keep rfl rfl rfl rfl (Or.inl ⟨rfl, rfl⟩)
  · have hnone := switched_pending h hs
    obtain ⟨_, _, _, ha⟩ := e.landed_view cursor mode
    rw [hm]
    cases mode with
    | onlyState =>
      rw [if_pos rfl, Turn.after_nil]
      refine decide_deals (d := e.landed cursor .onlyState) h ?_ ?_ ?_
        (fun hn => (e.switched .onlyState).arrived_nowhere hn) _
      all_goals
        rw [ha]
        rfl
    | allMessages =>
      have hall : (e.landed cursor .allMessages).view.mode = .allMessages := by
        rw [ha]
        rfl
      have hidle : (e.landed cursor .allMessages).pending = none := by
        rw [ha]
        exact hnone
      rw [decide_allMessages _ hall]
      refine deals_of_idle rfl ?_ rfl ?_ (due?_eq_none_of_mode hall)
      · simp [Turn.after, Turn.calls, filter_cancelPending, filter_told,
          cancelPending_snd_none hidle]
      · simp only [Turn.after, ha]
        rfl

end Engine

def Trigger.isOrdinary : Trigger → Bool
  | .respond _ _ | .dispose => false
  | _ => true

namespace Engine

variable {e : Engine}

theorem filter_aside {effects : List Effect} (h : ∀ effect ∈ effects, effect.isAside = true) :
    effects.filter Effect.isCall = [] := by
  refine List.filter_eq_nil_iff.mpr fun effect he => ?_
  have hside := h effect he
  cases effect <;> simp_all [Effect.isAside, Effect.isCall]

theorem Does.deals {cursor : Option Cursor} {t : Trigger} {turn : Turn}
    (hd : Does e cursor t turn) (h : e.Sound) (ht : t.isOrdinary = true) : Deals e turn := by
  cases hd with
  | update _ reasons _ => exact updatePosition_deals h cursor reasons
  | report ds => exact receiveDiagnostics_deals h ds
  | status => exact e.statusChanged_deals
  | configure p => exact e.configure_deals p
  | pause _ _ => exact e.pause_deals
  | switch _ mode _ => exact setMode_deals h cursor mode
  | aside _ effects _ aside => exact .keep rfl (filter_aside aside) rfl rfl (Or.inl ⟨rfl, rfl⟩)
  | answer _ _ => cases ht
  | dispose => cases ht

theorem react_deals (h : e.Sound) (cursor : Option Cursor) {t : Trigger}
    (ht : t.isOrdinary = true) : Deals e (e.react cursor t) :=
  (e.react_does cursor t).deals h ht

theorem Deals.settle_sound {t : Turn} (h : e.Sound) (hd : Deals e t) (verdict : Verdict) :
    (t.settle verdict).1.Sound := by
  cases hd with
  | keep asked _ pending _ goal =>
    simp only [Turn.settle, asked]
    exact h.keep pending (goal.imp And.left And.left)
  | giveUp fetch _ asked _ pending _ _ =>
    simp only [Turn.settle, asked]
    exact sound_of_idle pending
  | ask l reasons due asked _ pending _ =>
    simp only [Turn.settle, asked]
    cases verdict with
    | ok _ => exact fun _ _ => ⟨l, due⟩
    | error err => exact sound_of_idle pending

theorem receiveAnswer_idle (ticket : Ticket) (answer : Answer) :
    (e.receiveAnswer ticket answer).asked = none ∧ (e.receiveAnswer ticket answer).calls = [] := by
  rcases e.receiveAnswer_cases ticket answer with
    ⟨_, ha⟩ | ⟨fetch, _, _, ⟨_, ha⟩ | ⟨_, ⟨_, _, ha⟩ | ⟨record, _, ha⟩⟩⟩
  · exact ⟨by rw [ha], by rw [ha]; rfl⟩
  · exact ⟨by rw [ha], by rw [ha]; rfl⟩
  · exact ⟨by rw [ha], by rw [ha]; rfl⟩
  · refine ⟨by rw [ha], ?_⟩
    simp only [ha, Turn.calls, answerEffects]
    split
    · exact filter_redraw
    · split
      · exact filter_post _
      · rfl

theorem receiveAnswer_sound (h : e.Sound) (ticket : Ticket) (answer : Answer) (verdict : Verdict) :
    ((e.receiveAnswer ticket answer).settle verdict).1.Sound := by
  rcases e.receiveAnswer_cases ticket answer with
    ⟨_, ha⟩ | ⟨_, _, _, ⟨_, ha⟩ | ⟨_, ⟨_, _, ha⟩ | ⟨_, _, ha⟩⟩⟩
  · rw [ha]
    exact h
  all_goals
    rw [ha]
    exact sound_of_idle rfl

/-- A sound engine turns no answer to its pending fetch away. -/
theorem Sound.receiveAnswer_cases (h : e.Sound) (ticket : Ticket) (answer : Answer) :
    (e.pendingTicket? ≠ some ticket ∧ e.receiveAnswer ticket answer = { engine := e }) ∨
      ∃ fetch, e.pending = some fetch ∧ fetch.ticket = ticket ∧
        ((∃ err, answer = .error err ∧ e.receiveAnswer ticket answer =
            { engine := { e with pending := none }, failure := some err }) ∨
          ∃ record, answer = .ok record ∧ e.receiveAnswer ticket answer =
            { engine := e.answered (record.bind Record.goal?)
              effects := e.answerEffects fetch.reasons (record.bind Record.goal?) }) := by
  rcases Engine.receiveAnswer_cases e ticket answer with
    hstale | ⟨fetch, hp, ht, ⟨hidle, _⟩ | ⟨_, ha⟩⟩
  · exact Or.inl hstale
  · obtain ⟨l, hl⟩ := h fetch hp
    simp [due?, hidle] at hl
  · exact Or.inr ⟨fetch, hp, ht, ha⟩

theorem dispose_sound (e : Engine) (verdict : Verdict) : (e.dispose.settle verdict).1.Sound :=
  sound_of_idle (by simp [dispose, Turn.settle])

theorem meet_sound (h : e.Sound) (o : Occasion) : (e.meet o).1.Sound := by
  rw [meet_fst]
  cases ho : o.trigger.isOrdinary with
  | true => exact (react_deals h o.cursor ho).settle_sound h o.verdict
  | false =>
    cases ht : o.trigger with
    | respond ticket answer => exact receiveAnswer_sound h ticket answer o.verdict
    | dispose => exact e.dispose_sound o.verdict
    | _ => simp [ht, Trigger.isOrdinary] at ho

theorem start_sound (selector : Selector) (config : Config) : (start selector config).Sound :=
  sound_of_idle rfl

theorem run_sound (selector : Selector) (config : Config) (occasions : List Occasion) :
    (run meet (start selector config) occasions).1.Sound :=
  run_invariant (motive := fun (e : Engine) _ => e.Sound) (fun _ _ o h => meet_sound h o)
    (start_sound selector config) occasions

theorem Live.sound (h : e.Live) : e.Sound := by
  obtain ⟨selector, config, occasions, _, rfl⟩ := h
  exact run_sound selector config occasions

end Engine

end ProofPanel
