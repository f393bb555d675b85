import ProofPanel.Proofs.Client.Run
import ProofPanel.Proofs.Pipe.Poll

/-!
# The end of a backend

A client with its connection to a process, from the first request on. The process leaves whatever
it likes and ends when it likes, and its owner polls, asks and cancels in between. Once the owner
has found the end of the output, or has disposed of the client, no request stays open, every new
one is refused, and nothing is heard or sent any more.
-/
namespace ProofPanel

/-! ## What is waiting -/

theorem Pipe.take_closed {front : List Inbound} (h : .closed ∉ front) (rest : List Inbound) :
    take (front ++ .closed :: rest) = (front.countP Inbound.isMessage,
      front.map Inbound.arrival ++ [.failure closedError], rest, false) := by
  induction front with
  | nil => rfl
  | cons first front ih =>
    obtain ⟨hfirst, hfront⟩ := not_or.mp (mt List.mem_cons.mpr h)
    cases first with
    | closed => exact absurd rfl hfirst
    | _ => simp [take, ih hfront, List.countP_cons, Inbound.isMessage, Inbound.arrival]

theorem Client.hearAll_append (c : Client) (arrivals more : List Arrival) :
    c.hearAll (arrivals ++ more) = (((c.hearAll arrivals).1.hearAll more).1,
      (c.hearAll arrivals).2 ++ ((c.hearAll arrivals).1.hearAll more).2) := by
  induction arrivals generalizing c with
  | nil => rfl
  | cons a rest ih => simp only [List.cons_append, hearAll, ih, List.append_assoc]

/-! ## The acts of the process and of the owner -/

structure Wired where
  client : Client := {}
  connection : Pipe.Connection := {}

structure Deed where
  /-- How many messages a poll says it has delivered. -/
  delivered : Nat := 0
  arrivals : List Arrival := []
  news : List News := []
  /-- What the writer is given. -/
  written : Option Json := none
  outcome : Option (Except BackendError Nat) := none

namespace Wired

inductive Act
  /-- The reader or the writer leaves something for the owner. -/
  | leave (found : List Pipe.Inbound)
  /-- The writer stops. -/
  | stop
  | poll
  | make (wish : Wish)
  | cancel (ticket : Ticket)
  | failPending (err : BackendError)
  | dispose

def act (w : Wired) : Act → Wired × Deed
  | .leave found => ({ w with connection := w.connection.leave found }, {})
  | .stop => ({ w with connection := { w.connection with writing := false } }, {})
  | .poll =>
    let (connection, delivered, arrivals) := w.connection.poll
    let (client, news) := w.client.hearAll arrivals
    ({ client, connection }, { delivered, arrivals, news })
  | .make wish =>
    let asked := w.client.make w.connection.deliver wish
    ({ w with client := asked.client },
     { written := asked.sent, news := asked.news, outcome := some asked.outcome })
  | .cancel ticket => ({ w with client := w.client.cancel ticket }, {})
  | .failPending err =>
    let (client, news) := w.client.failPending err
    ({ w with client }, { news })
  | .dispose => ({ client := w.client.dispose, connection := w.connection.dispose }, {})

def step (w : Wired) (a : Act) : Wired × List Deed := ((w.act a).1, [(w.act a).2])

/-- What an act leads to when the backend has ended: a request is refused, and nothing else is
seen. -/
def Act.afterwards : Act → Deed
  | .make _ => { outcome := some (.error .disconnected) }
  | _ => {}

variable {w : Wired}

/-! ## While the connection is alive -/

def Attentive (w : Wired) : Prop := w.connection.alive = true → w.client.Ready

theorem poll_alive {c : Pipe.Connection} (h : c.poll.1.alive = true) : c.alive = true := by
  cases hc : c.alive with
  | true => rfl
  | false =>
    rw [Pipe.Connection.poll, hc] at h
    exact hc.symm.trans h

theorem Attentive.act (h : w.Attentive) (a : Act) : (w.act a).1.Attentive := by
  intro halive
  cases a with
  | leave found => exact h halive
  | stop => exact h halive
  | poll => exact (h (poll_alive halive)).of_hears (Client.hearAll_hears w.client _)
  | make wish => exact (h halive).act (.make wish fun _ => w.connection.accept)
  | cancel ticket => exact (h halive).act (.cancel ticket)
  | failPending err => exact (h halive).act (.failPending err)
  | dispose => cases halive

theorem run_attentive (acts : List Act) : (run step {} acts).1.Attentive :=
  run_invariant (motive := fun (w : Wired) (_ : List Deed) => w.Attentive)
    (fun _ _ a h => h.act a) (fun _ => ⟨rfl, rfl⟩) acts

/-! ## When the backend has ended -/

structure Over (w : Wired) : Prop where
  dead : w.connection.alive = false
  settled : w.client.pending = []

theorem Over.poll (h : w.Over) : w.act .poll = (w, {}) := by
  have hpoll : w.connection.poll = (w.connection, 0, []) := by
    rw [Pipe.Connection.poll, h.dead]
    rfl
  simp only [Wired.act, hpoll]
  rfl

/-- A request is open only for as long as the link has not refused it. -/
theorem Over.make (h : w.Over) (wish : Wish) :
    (w.act (.make wish)).1.Over ∧
      (w.act (.make wish)).2 = { outcome := some (.error .disconnected) } := by
  have hrefused : w.connection.accept = .error .disposed := by
    rw [Pipe.Connection.accept, h.dead]
    rfl
  simp only [Wired.act, Client.make_eq]
  rcases w.client.ask_silent (fun _ => w.connection.accept) wish.purpose (wish.request ·) with
    ⟨htaken, _⟩ | ⟨err, he, hasked⟩
  · rw [hrefused] at htaken
    cases htaken
  · rw [hrefused] at he
    cases he
    have hdeliver : w.connection.deliver = Client.silent fun _ => w.connection.accept := rfl
    rw [hdeliver, hasked]
    exact ⟨⟨h.dead, Client.opened_close_nil h.settled _⟩, rfl⟩

theorem Over.act (h : w.Over) (a : Act) :
    (w.act a).1.Over ∧ (w.act a).2 = a.afterwards := by
  cases a with
  | leave found => exact ⟨⟨h.dead, h.settled⟩, rfl⟩
  | stop => exact ⟨⟨h.dead, h.settled⟩, rfl⟩
  | poll =>
    rw [h.poll]
    exact ⟨h, rfl⟩
  | make wish => exact h.make wish
  | cancel ticket =>
    refine ⟨⟨h.dead, ?_⟩, rfl⟩
    exact List.sublist_nil.mp (h.settled ▸ w.client.cancel_sublist ticket)
  | failPending err =>
    have hnone : w.client.tickets = [] := by
      rw [Client.tickets, h.settled]
      rfl
    simp only [Wired.act, Client.failPending_eq, hnone, Client.publish]
    exact ⟨⟨h.dead, rfl⟩, by simp [Act.afterwards]⟩
  | dispose => exact ⟨⟨rfl, rfl⟩, rfl⟩

theorem Over.run (h : w.Over) (acts : List Act) :
    (run step w acts).1.Over ∧ (run step w acts).2 = acts.map Act.afterwards := by
  induction acts generalizing w with
  | nil => exact ⟨h, rfl⟩
  | cons a rest ih =>
    obtain ⟨hover, hdeed⟩ := h.act a
    obtain ⟨hlater, hdeeds⟩ := ih hover
    refine ⟨hlater, ?_⟩
    change [(w.act a).2] ++ _ = _
    rw [hdeed]
    exact congrArg (a.afterwards :: ·) hdeeds

/-! ## The poll that finds the end -/

/-- Up to the end everything that was left is heard. Then the failure is told, and every fetch that
is open by then is answered once. -/
theorem act_poll_closed {front rest : List Pipe.Inbound} (hr : w.client.Ready)
    (halive : w.connection.alive = true)
    (hw : w.connection.waiting = front ++ .closed :: rest) (hfirst : .closed ∉ front) :
    let heard := w.client.hearAll (front.map Pipe.Inbound.arrival)
    (w.act .poll).1.Over ∧ (w.act .poll).2 =
      { delivered := front.countP Pipe.Inbound.isMessage
        arrivals := front.map Pipe.Inbound.arrival ++ [.failure Pipe.closedError]
        news := heard.2 ++ .failure Pipe.closedError ::
          heard.1.tickets.map fun ticket => .answer ticket (.error .disconnected) } := by
  intro heard
  have hready : heard.1.Ready := hr.of_hears (Client.hearAll_hears w.client _)
  have hpoll : w.connection.poll = ({ w.connection with waiting := rest, alive := false },
      front.countP Pipe.Inbound.isMessage,
      front.map Pipe.Inbound.arrival ++ [.failure Pipe.closedError]) := by
    rw [Pipe.Connection.poll, if_pos halive, hw, Pipe.take_closed hfirst]
  have hend : heard.1.hearAll [.failure Pipe.closedError] = ((heard.1.failPending .disconnected).1,
      .failure Pipe.closedError :: heard.1.tickets.map fun t => .answer t (.error .disconnected)) := by
    rw [Client.hearAll, Client.hear_final hready rfl, Client.failPending_eq, Client.publish,
      if_pos hready.publishing]
    simp [Client.hearAll]
  simp only [Wired.act, hpoll, Client.hearAll_append]
  rw [hend]
  exact ⟨⟨rfl, rfl⟩, rfl⟩

/-- Whatever happened before, and whatever happens afterwards: when a poll comes upon the end of
the output, every fetch that is open by then gets one answer, which is that the backend is gone.
From then on no request is open after any act, a new one is refused and never gets to the writer,
and nothing is heard. The same holds from the moment on when the client is disposed, except that
nothing is answered. -/
theorem run_after_closed_pending_nil (before after : List Act) :
    let w := (run step {} before).1
    (∀ front rest, w.connection.alive = true →
      w.connection.waiting = front ++ .closed :: rest → .closed ∉ front →
      let heard := w.client.hearAll (front.map Pipe.Inbound.arrival)
      (∃ replies, (w.act .poll).2.news = heard.2 ++ .failure Pipe.closedError :: replies ∧
        replies.Perm (heard.1.tickets.map fun ticket => .answer ticket (.error .disconnected))) ∧
      (run step (w.act .poll).1 after).1.client.pending = [] ∧
      (run step (w.act .poll).1 after).2 = after.map Act.afterwards) ∧
    (w.act .dispose).2 = {} ∧
    (run step (w.act .dispose).1 after).1.client.pending = [] ∧
    (run step (w.act .dispose).1 after).2 = after.map Act.afterwards := by
  intro w
  constructor
  · intro front rest halive hw hfirst heard
    have hr : w.client.Ready := run_attentive before halive
    obtain ⟨hover, hdeed⟩ := act_poll_closed hr halive hw hfirst
    obtain ⟨hlater, hdeeds⟩ := hover.run after
    refine ⟨⟨_, ?_, List.Perm.refl _⟩, hlater.settled, hdeeds⟩
    rw [hdeed]
  · have hover : (w.act .dispose).1.Over := ⟨rfl, rfl⟩
    obtain ⟨hlater, hdeeds⟩ := hover.run after
    exact ⟨rfl, hlater.settled, hdeeds⟩

/-- A fetch and a sync are open when the process writes something and ends, and the owner asks again
afterwards. -/
theorem run_after_closed_pending_nil_asked :
    let l : Location := ⟨"/a.lean", 3, 5⟩
    let before : List Act :=
      [.make (.info 7 l), .make (.sync "/a.lean" "x"), .leave [.malformed "?", .closed]]
    let w := (run step {} before).1
    w.connection.alive = true ∧ w.connection.waiting = [.malformed "?"] ++ .closed :: [] ∧
      .closed ∉ [Pipe.Inbound.malformed "?"] ∧
      (w.client.hearAll [.failure (.json "?")]).1.tickets = [7] ∧
      (w.act .poll).2.news = [.failure (.json "?"), .failure Pipe.closedError,
        .answer 7 (.error .disconnected)] ∧
      (run step (w.act .poll).1 [.make (.info 8 l), .poll]).1.client.pending = [] ∧
      (run step (w.act .poll).1 [.make (.info 8 l), .poll]).2 =
        [{ outcome := some (.error .disconnected) }, {}] := by
  intro l before w
  have hfirst : .closed ∉ [Pipe.Inbound.malformed "?"] := by simp
  obtain ⟨hpoll, _⟩ := run_after_closed_pending_nil before [.make (.info 8 l), .poll]
  obtain ⟨⟨replies, hnews, hperm⟩, hpending, hdeeds⟩ := hpoll [.malformed "?"] [] rfl rfl hfirst
  refine ⟨rfl, rfl, hfirst, rfl, ?_, hpending, hdeeds⟩
  rw [hnews, List.perm_singleton.mp hperm]
  rfl

end Wired

end ProofPanel
