import Mathlib.Data.List.MinMax
import Mathlib.Data.List.Pairwise
import ProofPanel.Proofs.Engine.History

/-!
# No stale answer is applied

Answers may come in any order, late, twice or for tickets that nobody asked under. One is applied
only to the pending fetch, and that fetch was asked for at the place where the engine still is. So
the tickets of applied answers grow and the shown goal is that of the newest; all other answers
might as well not have come.
-/
namespace ProofPanel

def FetchEvent.applied? : FetchEvent → Option (Ticket × Option Record)
  | .answered ticket (.ok record) => some (ticket, record)
  | _ => none

namespace Engine

variable {e : Engine} {o : Occasion} {history : List FetchEvent}

theorem applied_eq_nil (ht : ∀ ticket answer, o.trigger ≠ .respond ticket answer) :
    (e.fetchEvents o).filterMap FetchEvent.applied? = [] := by
  have hnone : e.answerEvent o.trigger = [] := by
    cases h : o.trigger with
    | respond ticket answer => exact absurd h (ht ticket answer)
    | _ => rfl
  rw [fetchEvents, hnone, List.nil_append, List.filterMap_filterMap]
  refine List.filterMap_eq_nil_iff.mpr fun effect _ => ?_
  cases effect <;> rfl

theorem meet_view (o : Occasion) :
    (e.meet o).1.view = (e.react o.cursor o.trigger).engine.view := by
  obtain ⟨_, hp⟩ := settle_engine (e.react o.cursor o.trigger) o.verdict
  rw [meet_fst, hp]

/-- A turn applies a record as the answer to the pending fetch, or it leaves the goal alone. -/
theorem meet_goal (h : e.Sound) (o : Occasion) :
    ((e.fetchEvents o).filterMap FetchEvent.applied? = [] ∧
        (e.meet o).1.view.goal = e.view.goal) ∨
      ∃ fetch record, e.pending = some fetch ∧
        e.fetchEvents o = [.answered fetch.ticket (.ok record)] ∧
        (e.meet o).1.view.goal = record.bind Record.goal? := by
  rw [meet_view]
  by_cases hrespond : ∃ ticket answer, o.trigger = .respond ticket answer
  · obtain ⟨ticket, answer, ht⟩ := hrespond
    simp only [fetchEvents_respond ht, ht, react]
    rcases h.receiveAnswer_cases ticket answer with
      ⟨hne, ha⟩ | ⟨fetch, hp, rfl, ⟨err, rfl, ha⟩ | ⟨record, rfl, ha⟩⟩
    · rw [if_neg hne, ha]
      exact Or.inl ⟨rfl, rfl⟩
    · rw [if_pos (pendingTicket?_some hp), ha]
      exact Or.inl ⟨rfl, rfl⟩
    · rw [if_pos (pendingTicket?_some hp), ha]
      exact Or.inr ⟨fetch, record, hp, rfl, rfl⟩
  · have ht : ∀ ticket answer, o.trigger ≠ .respond ticket answer := by
      simpa only [not_exists] using hrespond
    exact Or.inl ⟨applied_eq_nil ht, e.react_goal o.cursor ht⟩

def newestGoal (applied : List (Ticket × Option Record)) : Option String :=
  (applied.argmax Prod.fst).bind fun a => a.2.bind Record.goal?

theorem newestGoal_snoc {applied : List (Ticket × Option Record)} {ticket : Ticket}
    (record : Option Record) (h : ∀ a ∈ applied, a.1 < ticket) :
    newestGoal (applied ++ [(ticket, record)]) = record.bind Record.goal? := by
  rw [newestGoal, List.argmax_concat]
  cases ha : applied.argmax Prod.fst with
  | none => rfl
  | some a => simp [h a (List.argmax_mem ha)]

/-- The pending fetch was asked for where its goal is due, later than any answer that was applied.
The goal is that of the newest of these. -/
structure Current (e : Engine) (history : List FetchEvent) : Prop where
  placed : ∀ fetch, e.pending = some fetch →
    ∃ l, e.due? = some l ∧ FetchEvent.asked fetch.ticket l (.ok ()) ∈ history
  increasing : ((history.filterMap FetchEvent.applied?).map Prod.fst).Pairwise (· < ·)
  earlier : ∀ a ∈ history.filterMap FetchEvent.applied?, a.1 < e.nextTicket ∧
    ∀ fetch, e.pending = some fetch → a.1 < fetch.ticket
  goal : e.view.goal = newestGoal (history.filterMap FetchEvent.applied?)

theorem Settles.placed (h : Settles e o)
    (hp : ∀ fetch, e.pending = some fetch →
      ∃ l, e.due? = some l ∧ FetchEvent.asked fetch.ticket l (.ok ()) ∈ history) :
    ∀ fetch, (e.meet o).1.pending = some fetch →
      ∃ l, (e.meet o).1.due? = some l ∧
        FetchEvent.asked fetch.ticket l (.ok ()) ∈ history ++ e.fetchEvents o := by
  intro fetch hf
  cases h with
  | keep pending _ _ due =>
    rw [pending] at hf
    obtain ⟨l, hl, hasked⟩ := hp fetch hf
    rcases due with due | hnone
    · exact ⟨l, due ▸ hl, List.mem_append_left _ hasked⟩
    · rw [hnone] at hf
      cases hf
  | take l reasons due pending _ events =>
    rw [pending] at hf
    cases hf
    refine ⟨l, due, List.mem_append_right _ ?_⟩
    rw [events]
    exact List.mem_append_right _ (List.mem_singleton.mpr rfl)
  | giveUp _ _ pending _ _ => rw [pending] at hf; cases hf
  | refuse _ _ _ pending _ _ => rw [pending] at hf; cases hf
  | answer _ _ _ _ pending _ _ => rw [pending] at hf; cases hf

/-- A fetch that is pending after a turn was so before, or has the ticket that was next. -/
theorem Settles.tickets (h : Settles e o) :
    e.nextTicket ≤ (e.meet o).1.nextTicket ∧ ∀ fetch, (e.meet o).1.pending = some fetch →
      e.pending = some fetch ∨ fetch.ticket = e.nextTicket := by
  cases h with
  | keep pending next _ _ => exact ⟨next.ge, fun fetch hf => Or.inl (pending ▸ hf)⟩
  | take l reasons _ pending next _ =>
    refine ⟨next ▸ Nat.le_succ _, fun fetch hf => Or.inr ?_⟩
    rw [pending] at hf
    cases hf
    rfl
  | giveUp _ _ pending next _ => exact ⟨next.ge, fun fetch hf => by rw [pending] at hf; cases hf⟩
  | refuse _ _ _ pending next _ =>
    exact ⟨next ▸ Nat.le_succ _, fun fetch hf => by rw [pending] at hf; cases hf⟩
  | answer _ _ _ _ pending next _ =>
    exact ⟨next.ge, fun fetch hf => by rw [pending] at hf; cases hf⟩

theorem Settles.ended (h : Settles e o) {ticket : Ticket} {answer : Answer}
    (hm : FetchEvent.answered ticket answer ∈ e.fetchEvents o) : (e.meet o).1.pending = none := by
  cases h with
  | keep _ _ events _ => simp [events] at hm
  | giveUp _ _ pending _ _ => exact pending
  | take _ _ _ _ _ events => simp [events, asking] at hm
  | refuse _ _ _ pending _ _ => exact pending
  | answer _ _ _ _ pending _ _ => exact pending

theorem Current.below (h : Current e history) (hb : Balanced e history) {fetch : Fetch}
    (hp : e.pending = some fetch) : fetch.ticket < e.nextTicket := by
  obtain ⟨l, _, hasked⟩ := h.placed fetch hp
  exact hb.below _ (List.mem_filterMap.mpr ⟨_, hasked, rfl⟩)

theorem Current.meet (hs : e.Sound) (hb : Balanced e history) (h : Current e history)
    (o : Occasion) : Current (e.meet o).1 (history ++ e.fetchEvents o) := by
  have hsettles := meet_settles hs o
  obtain ⟨hnext, htickets⟩ := hsettles.tickets
  -- Only an applied answer changes the goal, and its ticket is above those of all before it.
  rcases meet_goal hs o with ⟨hnone, hgoal⟩ | ⟨fetch, record, hp, hevents, hgoal⟩
  · have happlied : (history ++ e.fetchEvents o).filterMap FetchEvent.applied? =
        history.filterMap FetchEvent.applied? := by
      rw [List.filterMap_append, hnone, List.append_nil]
    refine ⟨hsettles.placed h.placed, happlied ▸ h.increasing, ?_, ?_⟩
    · rw [happlied]
      intro a ha
      obtain ⟨hlt, hpending⟩ := h.earlier a ha
      refine ⟨hlt.trans_le hnext, fun fetch hf => ?_⟩
      rcases htickets fetch hf with hf | hf
      · exact hpending fetch hf
      · exact hf ▸ hlt
    · rw [happlied, hgoal, h.goal]
  · have happlied : (history ++ e.fetchEvents o).filterMap FetchEvent.applied? =
        history.filterMap FetchEvent.applied? ++ [(fetch.ticket, record)] := by
      rw [List.filterMap_append, hevents]
      rfl
    have hbefore : ∀ a ∈ history.filterMap FetchEvent.applied?, a.1 < fetch.ticket :=
      fun a ha => (h.earlier a ha).2 fetch hp
    have hended : (e.meet o).1.pending = none :=
      hsettles.ended (hevents ▸ List.mem_singleton.mpr rfl)
    refine ⟨hsettles.placed h.placed, ?_, ?_, ?_⟩
    · rw [happlied, List.map_append]
      refine List.pairwise_append.mpr ⟨h.increasing, List.pairwise_singleton _ _, ?_⟩
      intro earlier he ticket ht
      obtain ⟨a, ha, rfl⟩ := List.mem_map.mp he
      rw [List.mem_singleton.mp ht]
      exact hbefore a ha
    · rw [happlied]
      intro a ha
      refine ⟨?_, fun fetch hf => by rw [hended] at hf; cases hf⟩
      have hticket := (h.below hb hp).trans_le hnext
      rcases List.mem_append.mp ha with ha | ha
      · exact (hbefore a ha).trans hticket
      · rw [List.mem_singleton.mp ha]
        exact hticket
    · rw [happlied, hgoal, newestGoal_snoc record hbefore]

theorem run_current (selector : Selector) (config : Config) (occasions : List Occasion) :
    let e := (run recorded (start selector config) occasions).1
    let history := (run recorded (start selector config) occasions).2
    e.Sound ∧ Balanced e history ∧ Current e history :=
  run_invariant (motive := fun e history => e.Sound ∧ Balanced e history ∧ Current e history)
    (fun _ _ o h => ⟨meet_sound h.1 o, h.2.1.meet h.1 o, h.2.2.meet h.1 h.2.1 o⟩)
    ⟨start_sound selector config, start_balanced selector config,
      ⟨nofun, List.Pairwise.nil, nofun, rfl⟩⟩ occasions

/-- Requests under one ticket are one request. -/
theorem Balanced.asked_unique (h : Balanced e history) {ticket : Ticket} {l l' : Location}
    {verdict verdict' : Verdict} (hl : FetchEvent.asked ticket l verdict ∈ history)
    (hl' : FetchEvent.asked ticket l' verdict' ∈ history) : l' = l ∧ verdict' = verdict := by
  by_contra hne
  have hdistinct : history.Pairwise fun a b => ∀ s ∈ a.asked?, ∀ t ∈ b.asked?, s ≠ t :=
    List.pairwise_filterMap.mp (h.ordered.imp Nat.ne_of_lt)
  have hsymm : Std.Symm fun a b : FetchEvent => ∀ s ∈ a.asked?, ∀ t ∈ b.asked?, s ≠ t :=
    ⟨fun a b hab s hs t ht => (hab t ht s hs).symm⟩
  refine hdistinct.forall hl hl' (fun heq => hne ?_) ticket rfl ticket rfl rfl
  cases heq
  exact ⟨rfl, rfl⟩

def isStale (e : Engine) (o : Occasion) : Bool :=
  match o.trigger with
  | .respond ticket _ => e.pendingTicket? != some ticket
  | _ => false

def withoutStale (e : Engine) : List Occasion → List Occasion
  | [] => []
  | o :: rest =>
    if e.isStale o then withoutStale (e.meet o).1 rest
    else o :: withoutStale (e.meet o).1 rest

theorem meet_stale (h : e.isStale o = true) : e.meet o = (e, []) := by
  rw [isStale] at h
  split at h
  · next ticket answer ht =>
    have hne : e.pendingTicket? ≠ some ticket := by simpa using h
    rcases e.receiveAnswer_cases ticket answer with ⟨_, ha⟩ | ⟨fetch, hp, rfl, _⟩
    · simp only [Engine.meet, step, ht, react, ha, Turn.settle]
    · exact absurd (pendingTicket?_some hp) hne
  · cases h

theorem run_withoutStale (e : Engine) (occasions : List Occasion) :
    run meet e (e.withoutStale occasions) = run meet e occasions := by
  -- A stale answer leaves the engine as it is, so both runs go on from one state.
  induction occasions generalizing e with
  | nil => rfl
  | cons o rest ih =>
    cases h : e.isStale o with
    | true =>
      rw [withoutStale, if_pos h, meet_stale h, ih]
      simp only [run, meet_stale h, List.nil_append]
    | false =>
      rw [withoutStale, if_neg (by simp [h])]
      simp only [run, ih]

/-- Whatever answers a run meets: one that is applied was asked for where the engine is, in one
request that the backend took, and gives the goal. Applied answers come in the order of their
tickets and the goal is that of the newest. Without the stale answers the run has the same end and
the same effects. -/
theorem run_answers_current (selector : Selector) (config : Config)
    (occasions : List Occasion) :
    let e := (run recorded (start selector config) occasions).1
    let history := (run recorded (start selector config) occasions).2
    (∀ o ticket record, FetchEvent.answered ticket (.ok record) ∈ e.fetchEvents o →
      (e.meet o).1.view.goal = record.bind Record.goal? ∧
        ∃ l, e.location? = some l ∧ ∀ l' verdict,
          FetchEvent.asked ticket l' verdict ∈ history ↔ l' = l ∧ verdict = .ok ()) ∧
      ((history.filterMap FetchEvent.applied?).map Prod.fst).Pairwise (· < ·) ∧
      e.view.goal = newestGoal (history.filterMap FetchEvent.applied?) ∧
      run meet (start selector config) ((start selector config).withoutStale occasions) =
        run meet (start selector config) occasions := by
  intro e history
  obtain ⟨hs, hb, hc⟩ : e.Sound ∧ Balanced e history ∧ Current e history :=
    run_current selector config occasions
  refine ⟨fun o ticket record hm => ?_, hc.increasing, hc.goal, run_withoutStale _ _⟩
  rcases meet_goal hs o with ⟨hnone, _⟩ | ⟨fetch, record', hp, hevents, hgoal⟩
  · have hmem : (ticket, record) ∈ (e.fetchEvents o).filterMap FetchEvent.applied? :=
      List.mem_filterMap.mpr ⟨_, hm, rfl⟩
    rw [hnone] at hmem
    cases hmem
  · rw [hevents] at hm
    cases List.mem_singleton.mp hm
    obtain ⟨l, hl, hasked⟩ := hc.placed fetch hp
    refine ⟨hgoal, l, ((due?_eq_some _).mp hl).2.2, fun l' verdict => ⟨fun h => ?_, ?_⟩⟩
    · exact hb.asked_unique hasked h
    · rintro ⟨rfl, rfl⟩
      exact hasked

end Engine

end ProofPanel
