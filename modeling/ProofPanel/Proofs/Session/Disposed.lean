import ProofPanel.Proofs.Client.Cancel
import ProofPanel.Proofs.Session.Steps

/-!
# Disposed sessions

A disposed session can still be called, but with a link that takes nothing any more it is over:
whatever is done to it and whatever arrives, nobody hears of it but the editor, no news wait, and
neither the engine nor the client has a fetch. Only patches still change its configuration, until it
is disposed once more.
-/
namespace ProofPanel

def Refuses (link : Json → Delivery) : Prop := ∀ value, (link value).outcome ≠ .ok ()

def SessionEffect.isAside : SessionEffect → Bool
  | .reveal _ _ | .hover _ _ | .stopHover | .insert _ _ _ => true
  | _ => false

variable {link : Json → Delivery}

/-! ## The client -/

namespace Client

structure Disposed (c : Client) : Prop where
  deaf : c.listening = false
  unheard : c.publishing = false
  settled : c.pending = []

variable {c : Client}

theorem dispose_disposed (c : Client) : c.dispose.Disposed := ⟨rfl, rfl, rfl⟩

theorem hearAll_deaf (hl : c.listening = false) (arrivals : List Arrival) :
    c.hearAll arrivals = (c, []) := by
  induction arrivals with
  | nil => rfl
  | cons a rest ih => simp only [hearAll, hear_deaf hl, ih, List.append_nil]

namespace Disposed

theorem cancel (h : c.Disposed) (ticket : Ticket) : (c.cancel ticket).Disposed :=
  ⟨h.deaf, h.unheard, List.sublist_nil.mp (h.settled ▸ c.cancel_sublist ticket)⟩

theorem dispose (h : c.Disposed) : c.dispose = c := by
  rcases c with ⟨_, _, _, _, _⟩
  cases h.deaf
  cases h.unheard
  cases h.settled
  rfl

/-- A request that is refused leaves nothing behind, and nothing is heard while it is made. -/
theorem ask (h : c.Disposed) (hl : Refuses link) (purpose : Purpose) (request : Nat → Request) :
    ∃ d err, d.Disposed ∧ c.ask link purpose request = ⟨d, none, [], .error err⟩ := by
  obtain ⟨d, news, hheard, _, ⟨ho, _⟩ | ⟨err, _, ha⟩⟩ := c.ask_cases link purpose request
  · exact absurd ho (hl _)
  · rw [hearAll_deaf (c := c.opened purpose) h.deaf] at hheard
    obtain ⟨rfl, rfl⟩ := Prod.mk.inj hheard
    exact ⟨((c.opened purpose).close c.nextSeq).1, refusalOf err,
      ⟨h.deaf, h.unheard, opened_close_nil h.settled purpose⟩, ha⟩

end Disposed

end Client

/-! ## The engine -/

namespace Engine

/-- An engine without a fetch asks for a goal or calls nobody. -/
theorem react_idle {e : Engine} (h : e.pending = none) (cursor : Option Cursor) (t : Trigger) :
    (e.react cursor t).engine.pending = none ∧ ((e.react cursor t).asked = none ∨
      ∃ ticket l, (e.react cursor t).calls = [.request ticket l]) := by
  cases ht : t.isOrdinary with
  | true =>
    cases react_deals (sound_of_idle h) cursor ht with
    | keep asked _ pending _ _ => exact ⟨pending.trans h, Or.inl asked⟩
    | giveUp fetch was _ _ _ _ _ =>
      rw [h] at was
      cases was
    | ask l reasons _ _ calls pending _ =>
      rw [cancelPending_snd_none h] at calls
      exact ⟨pending, Or.inr ⟨_, l, calls⟩⟩
  | false =>
    cases t with
    | respond ticket answer =>
      refine ⟨?_, Or.inl (e.receiveAnswer_idle ticket answer).1⟩
      rcases e.receiveAnswer_cases ticket answer with ⟨_, ha⟩ | ⟨fetch, hp, _⟩
      · simp only [react, ha, h]
      · rw [h] at hp
        cases hp
    | dispose => exact ⟨by simp [react, dispose], Or.inl rfl⟩
    | _ => cases ht

theorem react_unheard {e : Engine} (h : e.publishing = false) (cursor : Option Cursor)
    (t : Trigger) : (e.react cursor t).engine.publishing = false := by
  rw [react_publishing]
  cases t with
  | dispose => rfl
  | _ => exact h

end Engine

/-! ## The session -/

namespace Session

structure Disposed (s : Session) : Prop where
  unheard : s.publishing = false
  queue : s.queue = []
  client : s.client.Disposed
  engine : s.engine.publishing = false
  idle : s.engine.pending = none

/-- What a disposed session comes to: it stays disposed and says something to the editor at most. -/
structure Quiet (s : Session) (effects : List SessionEffect) : Prop where
  disposed : s.Disposed
  aside : ∀ effect ∈ effects, effect.isAside = true

variable {s t : Session} {effects more : List SessionEffect}

theorem Quiet.after (h : Quiet s effects) (h' : Quiet t more) : Quiet t (effects ++ more) :=
  ⟨h'.disposed, List.forall_mem_append.mpr ⟨h.aside, h'.aside⟩⟩

theorem dispose_disposed (s : Session) : s.dispose.Disposed :=
  ⟨rfl, rfl, s.client.dispose_disposed, rfl, by simp [dispose, Engine.dispose]⟩

namespace Disposed

theorem quiet (h : s.Disposed) : Quiet s [] := ⟨h, fun _ he => absurd he List.not_mem_nil⟩

theorem publish (h : s.Disposed) (effect : SessionEffect) : s.publish effect = [] := by
  simp only [Session.publish, h.unheard, Bool.false_eq_true, if_false]

theorem hear (h : s.Disposed) (arrivals : List Arrival) : s.hear arrivals = s := by
  rw [Session.hear, Client.hearAll_deaf h.client.deaf]
  exact s.hear_nil

/-- A session asks with the client; if the link refuses, only the client has changed. -/
theorem ask (h : s.Disposed) (hl : Refuses link) (purpose : Purpose) (request : Nat → Request) :
    Quiet (s.ask (s.client.ask link purpose request)).1
        (s.ask (s.client.ask link purpose request)).2 ∧
      ∃ err, (s.client.ask link purpose request).outcome = .error err := by
  obtain ⟨d, err, hd, ha⟩ := h.client.ask hl purpose request
  have hs : s.ask (s.client.ask link purpose request) = ({ s with client := d }, []) := by
    rw [ha]
    exact congrArg (·, []) (hear_nil { s with client := d })
  rw [hs, ha]
  exact ⟨quiet ⟨h.unheard, h.queue, hd, h.engine, h.idle⟩, err, rfl⟩

theorem perform (h : s.Disposed) (hl : Refuses link) (effect : Effect) :
    Quiet (s.perform link effect).1 (s.perform link effect).2.1 := by
  cases effect with
  | redraw snapshot =>
    simp only [Session.perform, h.publish]
    exact h.quiet
  | post m =>
    simp only [Session.perform, h.publish]
    exact h.quiet
  | configured c => exact h.quiet
  | request ticket l => exact (h.ask hl _ _).1
  | cancel ticket => exact quiet ⟨h.unheard, h.queue, h.client.cancel ticket, h.engine, h.idle⟩
  | _ => exact ⟨h, by simp [Session.perform, SessionEffect.isAside]⟩

theorem performAll (h : s.Disposed) (hl : Refuses link) (verdict : Verdict)
    (effects : List Effect) :
    Quiet (s.performAll link verdict effects).1 (s.performAll link verdict effects).2.1 := by
  induction effects generalizing s verdict with
  | nil => exact h.quiet
  | cons effect rest ih =>
    have hfirst := h.perform hl effect
    exact hfirst.after (ih hfirst.disposed _)

theorem performAll_request (h : s.Disposed) (hl : Refuses link) (verdict : Verdict)
    {effects : List Effect} {ticket : Ticket} {l : Location}
    (calls : effects.filter Effect.isCall = [.request ticket l]) :
    ∃ err, (s.performAll link verdict effects).2.2 = .error err := by
  obtain ⟨err, ho⟩ := (h.ask hl (.info ticket) (.info · l)).2
  refine ⟨err, (s.performAll_calls link verdict effects).2.2.trans ?_⟩
  rw [calls]
  simp only [Session.performAll, Session.perform, Client.askInfo, ho]
  rfl

/-- No turn leaves a fetch behind, as the only one that it may ask for is refused. -/
theorem trigger (h : s.Disposed) (hl : Refuses link) (cursor : Option Cursor) (t : Trigger) :
    Quiet (s.trigger link cursor t).1 (s.trigger link cursor t).2.1 := by
  obtain ⟨hidle, hasked⟩ := Engine.react_idle h.idle cursor t
  have hunheard := Engine.react_unheard h.engine cursor t
  simp only [Session.trigger]
  generalize s.engine.react cursor t = turn at hidle hasked hunheard ⊢
  have hturn : ({ s with engine := turn.engine } : Session).Disposed :=
    ⟨h.unheard, h.queue, h.client, hunheard, hidle⟩
  have hdone := hturn.performAll hl (.ok ()) turn.effects
  have hsettled : (turn.settle (({ s with engine := turn.engine } : Session).performAll link
      (.ok ()) turn.effects).2.2).1 = turn.engine := by
    rcases hasked with hnone | ⟨ticket, l, calls⟩
    · simp only [Turn.settle, hnone]
    · obtain ⟨err, herr⟩ := hturn.performAll_request hl (.ok ()) calls
      rw [herr]
      cases ha : turn.asked <;> simp only [Turn.settle, ha]
  rw [hsettled]
  have hend := hdone.disposed
  exact ⟨⟨hend.unheard, hend.queue, hend.client, hunheard, hidle⟩, hdone.aside⟩

theorem drain (h : s.Disposed) (link : Json → Delivery) (cursor : Option Cursor) (most : Nat) :
    drain link cursor most 0 s = (s, [], .ok 0) := by
  cases most with
  | zero => rfl
  | succ most => simp only [Session.drain, h.queue]

theorem pump (h : s.Disposed) (link : Json → Delivery) (cursor : Option Cursor)
    (arrivals : List Arrival) : s.pump link cursor arrivals = (s, [], .ok 0) := by
  rw [Session.pump, h.hear]
  exact h.drain link cursor _

theorem dispose (h : s.Disposed) :
    s.dispose = { s with engine := { s.engine with config := {} } } := by
  have hengine : s.engine.dispose.engine = { s.engine with config := {} } := by
    simp only [Engine.dispose, Engine.cancelPending_fst, ← h.idle, ← h.engine]
  rw [Session.dispose, hengine, h.client.dispose, ← h.queue, ← h.unheard]

theorem move (h : s.Disposed) {m : Move} (hl : Refuses m.link) :
    Quiet (s.move m).1 (s.move m).2 := by
  rcases m with ⟨act, cursor, link⟩
  cases act with
  | trigger t => exact h.trigger hl cursor t
  | hear arrivals =>
    simp only [Session.move, h.hear]
    exact h.quiet
  | pump arrivals =>
    simp only [Session.move, h.pump]
    exact h.quiet
  | drain most =>
    simp only [Session.move, h.drain]
    exact h.quiet
  | sync fileName content => exact (h.ask hl _ _).1
  | configure p =>
    simp only [Session.move, configure]
    split
    · exact h.quiet
    · rw [h.publish, List.nil_append]
      exact h.trigger hl cursor (.configure p)
  | followUri uri =>
    simp only [Session.move, followUri]
    split
    · exact h.quiet
    · exact h.trigger hl cursor (.execute _)
  | dispose => exact s.dispose_disposed.quiet

theorem run (h : s.Disposed) {moves : List Move} (hl : ∀ m ∈ moves, Refuses m.link) :
    Quiet (run Session.move s moves).1 (run Session.move s moves).2 := by
  have hall : Along Session.move (fun _ _ m => Refuses m.link) s [] moves :=
    along_of_forall (fun m hm _ _ => hl m hm) _ _
  exact run_induction (motive := fun _ s effects => Quiet s effects)
    (fun _ _ _ _ hq hm => hq.after (hq.disposed.move hm)) h.quiet hall

end Disposed

/-- Once a session is disposed, in whatever state, and its link takes nothing any more: whatever is
done to it and whatever arrives, no page is drawn, the panel is told nothing, no failure comes out
and nothing is sent. No news and no fetch wait anywhere, a pump finds nothing to apply, and
disposing once more only takes the configuration back. -/
theorem run_disposed_silent (s : Session) (moves : List Move)
    (h : ∀ m ∈ moves, Refuses m.link) :
    let t := (run move s.dispose moves).1
    (∀ effect ∈ (run move s.dispose moves).2, effect.isAside = true) ∧
      t.queue = [] ∧ t.engine.pending = none ∧ t.client.pending = [] ∧
      (∀ link cursor arrivals, t.pump link cursor arrivals = (t, [], .ok 0)) ∧
      t.dispose = { t with engine := { t.engine with config := {} } } := by
  intro t
  obtain ⟨ht, haside⟩ := s.dispose_disposed.run h
  exact ⟨haside, ht.queue, ht.idle, ht.client.settled, ht.pump, ht.dispose⟩

/-- A session is disposed while it awaits an answer and diagnostics wait for a pump. The answer
comes when the next fetch is refused, and a patch and a comment are asked for. -/
theorem run_disposed_silent_fetching :
    let cursor : Option Cursor := some ⟨"/a.lean", "lean", ⟨2, 4⟩⟩
    let news : Arrival := .message (Response.allMessages []).toJson
    let answer : Arrival := .message (Response.ok 1 (some { state := some "⊢ p" })).toJson
    let s := (run move (init {} {})
      [{ act := .trigger (.setMode .onlyState), cursor }, { act := .hear [news] }]).1
    let link : Json → Delivery := fun _ => { arrivals := [answer], outcome := .error .disposed }
    let moves : List Move :=
      [{ act := .trigger .refresh, cursor, link }, { act := .pump [news, answer], cursor, link },
        { act := .configure { fontSize := some 20 }, cursor, link },
        { act := .trigger .copyToComment, cursor, link }]
    let t := (run move s.dispose moves).1
    s.engine.pendingTicket? = some 0 ∧ s.queue.length = 1 ∧ (∀ m ∈ moves, Refuses m.link) ∧
      (run move s.dispose moves).2.length = 1 ∧
      (∀ effect ∈ (run move s.dispose moves).2, effect.isAside = true) ∧
      t.engine.config.fontSize = 20 ∧ t.pump link cursor [news] = (t, [], .ok 0) ∧
      t.dispose.engine.config = {} := by
  intro cursor news answer s link moves t
  have h : ∀ m ∈ moves, Refuses m.link := by simp [moves, link, Refuses]
  obtain ⟨haside, _, _, _, hpump, hdispose⟩ := run_disposed_silent s moves h
  refine ⟨?_, ?_, h, ?_, haside, ?_, hpump link cursor [news], ?_⟩
  · unfold s news cursor
    decide +kernel
  · unfold s news cursor
    decide +kernel
  · unfold moves s news answer link cursor
    decide +kernel
  · unfold t moves s news answer link cursor
    decide +kernel
  · rw [hdispose]

end Session

end ProofPanel
