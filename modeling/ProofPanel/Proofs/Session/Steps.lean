import ProofPanel.Proofs.Client.Requests
import ProofPanel.Proofs.Engine.Fetch
import ProofPanel.Proofs.Session.Run

/-!
# The steps of a session

Engine, client and queue change together in a few ways only: a turn of the engine keeps its fetch,
gives it up or asks for a goal, and the first news in the queue is dropped or is the answer that
the engine awaits. Any move of an undisposed session, but a sync, hears what arrives and then goes
such steps.
-/
namespace ProofPanel

theorem Act.isOrdinary_trigger {t : Trigger} :
    (Act.trigger t).isOrdinary = true ↔ t.isOrdinary = true := by
  cases t <;> rfl

namespace Session

def relieved (s : Session) : Client :=
  match s.engine.pending with
  | none => s.client
  | some fetch => s.client.cancel fetch.ticket

inductive Step (link : Json → Delivery) : Session → List Json → Session → Prop
  | keep {s : Session} (e : Engine) (pending : e.pending = s.engine.pending)
      (next : e.nextTicket = s.engine.nextTicket)
      (goal : e.due? = s.engine.due? ∧ e.view.goal = s.engine.view.goal ∨
        s.engine.pending = none ∧ e.due? = none) :
      Step link s [] { s with engine := e }
  | giveUp {s : Session} (e : Engine) (fetch : Fetch) (was : s.engine.pending = some fetch)
      (pending : e.pending = none) (next : e.nextTicket = s.engine.nextTicket)
      (due : e.due? = none) :
      Step link s [] { s with engine := e, client := s.client.cancel fetch.ticket }
  | taken {s : Session} (e : Engine) (l : Location) (reasons : Reasons) (due : e.due? = some l)
      (next : e.nextTicket = s.engine.nextTicket + 1) (asked : Client.Asked)
      (made : asked = s.relieved.askInfo link s.engine.nextTicket l) (seq : Nat)
      (outcome : asked.outcome = .ok seq) :
      Step link s asked.sent.toList
        { (s.ask asked).1 with
          engine := { e with pending := some ⟨s.engine.nextTicket, reasons⟩ } }
  | refused {s : Session} (e : Engine) (l : Location) (pending : e.pending = none)
      (next : e.nextTicket = s.engine.nextTicket + 1) (asked : Client.Asked)
      (made : asked = s.relieved.askInfo link s.engine.nextTicket l) (err : BackendError)
      (outcome : asked.outcome = .error err) :
      Step link s asked.sent.toList { (s.ask asked).1 with engine := e }
  | drop {s : Session} (news : News) (rest : List News) (queue : s.queue = news :: rest)
      (other : ∀ ticket, s.engine.pendingTicket? = some ticket → news.ticket? ≠ some ticket) :
      Step link s [] { s with queue := rest }
  | answer {s : Session} (e : Engine) (ticket : Ticket) (answer : Answer) (rest : List News)
      (queue : s.queue = .answer ticket answer :: rest)
      (was : s.engine.pendingTicket? = some ticket) (pending : e.pending = none)
      (next : e.nextTicket = s.engine.nextTicket) (due : e.due? = s.engine.due?)
      (goal : ∀ record l, answer = .ok record → e.due? = some l →
        e.view.goal = record.bind Record.goal?) :
      Step link s [] { s with engine := e, queue := rest }

inductive Steps (link : Json → Delivery) : Session → List Json → Session → Prop
  | refl (s : Session) : Steps link s [] s
  | head {s t u : Session} {sent more : List Json} (first : Step link s sent t)
      (rest : Steps link t more u) : Steps link s (sent ++ more) u

variable {link : Json → Delivery} {s t u : Session} {sent more : List Json}

theorem Steps.trans (h : Steps link s sent t) (h' : Steps link t more u) :
    Steps link s (sent ++ more) u := by
  induction h with
  | refl s => exact h'
  | head first _ ih =>
    rw [List.append_assoc]
    exact .head first (ih h')

theorem Step.steps (h : Step link s sent t) : Steps link s sent t := by
  have hs := Steps.head h (.refl t)
  rwa [List.append_nil] at hs

/-! ## What a step keeps -/

theorem enqueue_eq (h : s.publishing = true) (news : List News) :
    s.enqueue news = { s with queue := s.queue ++ news } := by
  rw [enqueue, if_pos h]

theorem ask_eq (h : s.publishing = true) (asked : Client.Asked) :
    (s.ask asked).1 = { s with client := asked.client, queue := s.queue ++ asked.news } :=
  enqueue_eq (s := { s with client := asked.client }) h asked.news

theorem hear_eq (h : s.publishing = true) (arrivals : List Arrival) :
    s.hear arrivals = { s with
      client := (s.client.hearAll arrivals).1
      queue := s.queue ++ (s.client.hearAll arrivals).2 } :=
  enqueue_eq (s := { s with client := (s.client.hearAll arrivals).1 }) h _

theorem sync_eq (h : s.publishing = true) (link : Json → Delivery) (fileName content : String) :
    (s.sync link fileName content).1 = { s with
      client := (s.client.askSync link fileName content).client
      queue := s.queue ++ (s.client.askSync link fileName content).news } := ask_eq h _

theorem enqueue_engine (s : Session) (news : List News) : (s.enqueue news).engine = s.engine := by
  unfold enqueue
  split <;> rfl

theorem hear_engine (s : Session) (arrivals : List Arrival) :
    (s.hear arrivals).engine = s.engine := enqueue_engine _ _

theorem hear_nil (s : Session) : s.hear [] = s := by
  rcases s with ⟨engine, client, queue, assets, _ | _⟩
  · rfl
  · simp only [hear, Client.hearAll, enqueue, if_true, List.append_nil]

theorem Step.sound (h : Step link s sent t) (hs : s.engine.Sound) : t.engine.Sound := by
  cases h with
  | keep e pending next goal => exact hs.keep pending (goal.imp And.left And.left)
  | giveUp e fetch was pending => exact Engine.sound_of_idle pending
  | taken e l reasons due => exact fun _ _ => ⟨l, due⟩
  | refused e l pending => exact Engine.sound_of_idle pending
  | drop => exact hs
  | answer e ticket answer rest queue was pending => exact Engine.sound_of_idle pending

/-! ## Turns -/

theorem sentIn_publish (s : Session) {effect : SessionEffect} (h : effect.sent? = none) :
    sentIn (s.publish effect) = [] := by
  unfold publish
  split
  · simp [sentIn, h]
  · rfl

theorem perform_other (s : Session) (link : Json → Delivery) {effect : Effect}
    (h : effect.isCall = false) :
    (s.perform link effect).1 = s ∧ sentIn (s.perform link effect).2.1 = [] ∧
      (s.perform link effect).2.2 = none := by
  cases effect with
  | request ticket l => cases h
  | cancel ticket => cases h
  | redraw snapshot => exact ⟨rfl, s.sentIn_publish rfl, rfl⟩
  | post m => exact ⟨rfl, s.sentIn_publish rfl, rfl⟩
  | _ => exact ⟨rfl, rfl, rfl⟩

/-- Of all effects only the calls matter to the client, the link and the verdict. -/
theorem performAll_calls (s : Session) (link : Json → Delivery) (verdict : Verdict)
    (effects : List Effect) :
    let all := s.performAll link verdict effects
    let calls := s.performAll link verdict (effects.filter Effect.isCall)
    all.1 = calls.1 ∧ sentIn all.2.1 = sentIn calls.2.1 ∧ all.2.2 = calls.2.2 := by
  induction effects generalizing s verdict with
  | nil => exact ⟨rfl, rfl, rfl⟩
  | cons effect rest ih =>
    cases hc : effect.isCall with
    | true =>
      rw [List.filter_cons, if_pos hc]
      obtain ⟨hs, hv, ho⟩ := ih (s.perform link effect).1 ((s.perform link effect).2.2.getD verdict)
      refine ⟨hs, ?_, ho⟩
      simp only [performAll, sentIn_append, hv]
    | false =>
      have hskip : ¬ effect.isCall = true := by simp [hc]
      rw [List.filter_cons, if_neg hskip]
      obtain ⟨hs, hv, ho⟩ := s.perform_other link hc
      simp only [performAll, sentIn_append, hs, hv, ho, Option.getD_none, List.nil_append]
      exact ih s verdict

theorem sent_ask (s : Session) (asked : Client.Asked) :
    sentIn (s.ask asked).2 = asked.sent.toList := by
  rw [ask]
  cases asked.sent <;> rfl

theorem ask_with (s : Session) (e e' : Engine) (c : Client) (asked : Client.Asked) :
    { (({ s with engine := e, client := c } : Session).ask asked).1 with engine := e' } =
      { (s.ask asked).1 with engine := e' } := by
  rcases s with ⟨_, _, _, _, _ | _⟩ <;> rfl

theorem performAll_ask (s : Session) (link : Json → Delivery) (e : Engine) (verdict : Verdict)
    (ticket : Ticket) (l : Location) :
    ∃ c, ({ s with engine := e } : Session).performAll link verdict
        (s.engine.cancelPending.2 ++ [.request ticket l]) =
      ((({ s with engine := e, client := c } : Session).ask (s.relieved.askInfo link ticket l)).1,
        (s.ask (s.relieved.askInfo link ticket l)).2,
        (s.relieved.askInfo link ticket l).outcome.map fun _ => ()) := by
  refine ⟨s.relieved, ?_⟩
  cases hp : s.engine.pending with
  | none =>
    rw [Engine.cancelPending_snd_none hp, relieved, hp]
    simp [performAll, perform, ask]
  | some fetch =>
    rw [Engine.cancelPending_snd, hp, relieved, hp]
    simp [performAll, perform, ask]

/-- A turn of the engine is one step, unless it brings an answer or disposes. -/
theorem trigger_step (h : s.engine.Sound) (link : Json → Delivery) (cursor : Option Cursor)
    {t : Trigger} (ht : t.isOrdinary = true) :
    Step link s (sentIn (s.trigger link cursor t).2.1) (s.trigger link cursor t).1 := by
  -- Only the calls among the effects matter, and those `Deals` names.
  have hdeals := Engine.react_deals h cursor ht
  obtain ⟨hs, hv, ho⟩ := performAll_calls { s with engine := (s.engine.react cursor t).engine } link
    (.ok ()) (s.engine.react cursor t).effects
  simp only [trigger, hs, hv, ho]
  clear hs hv ho
  generalize s.engine.react cursor t = turn at hdeals ⊢
  cases hdeals with
  | keep asked calls pending next goal =>
    rw [Turn.calls] at calls
    simp only [calls, performAll, Turn.settle, asked]
    exact .keep turn.engine pending next goal
  | giveUp fetch was asked calls pending next due =>
    rw [Turn.calls] at calls
    simp only [calls, performAll, perform, Turn.settle, asked]
    exact .giveUp turn.engine fetch was pending next due
  | ask l reasons due asked calls pending next =>
    rw [Turn.calls] at calls
    obtain ⟨c, hc⟩ := s.performAll_ask link turn.engine (.ok ()) s.engine.nextTicket l
    rw [calls, hc]
    simp only [sent_ask, Turn.settle, asked]
    cases ho : (s.relieved.askInfo link s.engine.nextTicket l).outcome with
    | ok seq =>
      simp only [Except.map, ask_with]
      exact .taken turn.engine l reasons due next _ rfl seq ho
    | error err =>
      simp only [Except.map, ask_with]
      exact .refused turn.engine l pending next _ rfl err ho

/-! ## News -/

/-- The engine's turn on an answer calls nobody, so the session just takes its state over. -/
theorem respond_eq (s : Session) (link : Json → Delivery) (cursor : Option Cursor) (ticket : Ticket)
    (answer : Answer) :
    sentIn (s.trigger link cursor (.respond ticket answer)).2.1 = [] ∧
      (s.trigger link cursor (.respond ticket answer)).1 =
        { s with engine := (s.engine.receiveAnswer ticket answer).engine } := by
  obtain ⟨asked, calls⟩ := s.engine.receiveAnswer_idle ticket answer
  obtain ⟨hs, hv, ho⟩ := performAll_calls
    { s with engine := (s.engine.react cursor (.respond ticket answer)).engine } link (.ok ())
    (s.engine.react cursor (.respond ticket answer)).effects
  have hcalls :
      (s.engine.react cursor (.respond ticket answer)).effects.filter Effect.isCall = [] := calls
  simp only [trigger, hs, hv, hcalls, performAll]
  refine ⟨rfl, ?_⟩
  simp only [Engine.react, Turn.settle, asked]

theorem answer_step (h : s.engine.Sound) (link : Json → Delivery) {ticket : Ticket}
    {answer : Answer} {rest : List News} (hq : s.queue = .answer ticket answer :: rest) :
    Step link s [] { s with
      engine := (s.engine.receiveAnswer ticket answer).engine, queue := rest } := by
  rcases h.receiveAnswer_cases ticket answer with
    ⟨hne, ha⟩ | ⟨fetch, hp, ht, ⟨err, he, ha⟩ | ⟨record, hr, ha⟩⟩
  · rw [ha]
    refine .drop _ rest hq (fun t hpt hnt => hne ?_)
    cases hnt
    exact hpt
  · rw [ha]
    refine .answer _ ticket answer rest hq (ht ▸ Engine.pendingTicket?_some hp) rfl rfl rfl ?_
    intro record l hr
    rw [he] at hr
    cases hr
  · rw [ha]
    refine .answer _ ticket answer rest hq (ht ▸ Engine.pendingTicket?_some hp) rfl rfl rfl ?_
    intro record' l hr' _
    rw [hr] at hr'
    cases hr'
    rfl

theorem apply_steps (h : s.engine.Sound) (link : Json → Delivery) (cursor : Option Cursor)
    {news : News} {rest : List News} (hq : s.queue = news :: rest) :
    Steps link s (sentIn (({ s with queue := rest } : Session).apply link cursor news).2.1)
      (({ s with queue := rest } : Session).apply link cursor news).1 := by
  have hdrop (hn : news.ticket? = none) : Step link s [] { s with queue := rest } :=
    .drop news rest hq (fun t _ ht => by rw [hn] at ht; cases ht)
  cases news with
  | diagnostics ds =>
    exact .head (hdrop rfl)
      (trigger_step (s := { s with queue := rest }) h link cursor (t := .diagnostics ds) rfl).steps
  | status st =>
    exact .head (hdrop rfl)
      (trigger_step (s := { s with queue := rest }) h link cursor (t := .statusChanged) rfl).steps
  | answer ticket answer =>
    obtain ⟨hv, hs⟩ := ({ s with queue := rest } : Session).respond_eq link cursor ticket answer
    simp only [apply, hv, hs]
    exact (answer_step h link hq).steps
  | failure err =>
    have hnone : sentIn (({ s with queue := rest } : Session).publish (.failure err)) = [] :=
      sentIn_publish _ rfl
    simp only [apply, hnone]
    exact (hdrop rfl).steps

theorem Steps.sound (h : Steps link s sent t) (hs : s.engine.Sound) : t.engine.Sound := by
  induction h with
  | refl => exact hs
  | head first _ ih => exact ih (first.sound hs)

theorem drain_steps (h : s.engine.Sound) (link : Json → Delivery) (cursor : Option Cursor)
    (most applied : Nat) :
    Steps link s (sentIn (drain link cursor most applied s).2.1)
      (drain link cursor most applied s).1 := by
  -- An error ends the pump early, so the steps of the rest are needed only after a success.
  induction most generalizing s applied with
  | zero => exact .refl s
  | succ most ih =>
    cases hq : s.queue with
    | nil =>
      simp only [drain, hq]
      exact .refl s
    | cons news rest =>
      have happly := apply_steps h link cursor hq
      simp only [drain, hq]
      generalize ({ s with queue := rest } : Session).apply link cursor news = done at happly ⊢
      rcases done with ⟨t, effects, err | ⟨⟩⟩
      · exact happly
      · simp only [sentIn_append]
        exact happly.trans (ih (happly.sound h) (applied + 1))

/-! ## Moves -/

/-- An ordinary move, but a sync, hears what arrives and then goes steps. -/
theorem move_steps (h : s.engine.Sound) {m : Move} (ho : m.act.isOrdinary = true)
    (hs : m.act.isSync = false) :
    Steps m.link (s.hear m.act.arrivals) (sentIn (s.move m).2) (s.move m).1 := by
  have hquiet (hn : m.act.arrivals = []) : s.hear m.act.arrivals = s := by rw [hn, hear_nil]
  rcases m with ⟨act, cursor, link⟩
  cases act with
  | trigger t =>
    rw [hquiet rfl]
    exact (trigger_step h link cursor (Act.isOrdinary_trigger.mp ho)).steps
  | hear arrivals => exact .refl _
  | pump arrivals => exact drain_steps (by rwa [hear_engine]) link cursor _ 0
  | drain most =>
    rw [hquiet rfl]
    exact drain_steps h link cursor most 0
  | sync fileName content => cases hs
  | configure p =>
    rw [hquiet rfl]
    simp only [move, configure]
    split
    · exact .refl s
    · have hnone : sentIn (s.publish (.panel (.configChanged p))) = [] := s.sentIn_publish rfl
      simp only [sentIn_append, hnone, List.nil_append]
      exact (trigger_step h link cursor (t := .configure p) rfl).steps
  | followUri uri =>
    rw [hquiet rfl]
    simp only [move, followUri]
    split
    · exact .refl s
    · exact (trigger_step h link cursor (t := .execute _) rfl).steps
  | dispose => cases ho

end Session

end ProofPanel
