import ProofPanel.Pipe.Connection
import ProofPanel.Proofs.Client.Run
import ProofPanel.Proofs.Session.Steps

/-!
# The bound of a pump

A pump applies news until none is left, and a piece of news asks the backend at most once. Over a
link that lets at most an error arrive while it takes a request, the news that comes up meanwhile
asks for nothing more, so twice as many applications as there was news are enough: the bound in
`Session.pump` cuts nothing off. The links of the library are such. Over any other link a pump
without a bound is a drain that comes to its end, whichever bound lets it.
-/
namespace ProofPanel

/-- Whatever client hears it: all that arrives while the link takes a request is an error, if
anything. -/
def Terse (link : Json → Delivery) : Prop :=
  ∀ (c : Client) (request : Request), ∃ errs : List LinkError, errs.length ≤ 1 ∧
    (c.hearAll (link request.toJson).arrivals).2 = errs.map .failure

theorem Request.toJson_notResponse (request : Request) :
    Response.ofJson? request.toJson = none := by
  cases request <;> rfl

theorem terse_silent (accepts : Json → Except LinkError Unit) : Terse (Client.silent accepts) :=
  fun _ _ => ⟨[], Nat.zero_le 1, rfl⟩

theorem Pipe.Connection.terse_deliver (c : Connection) : Terse c.deliver :=
  terse_silent fun _ => c.accept

/-- A request that comes back is no response. -/
theorem Client.hearAll_request (c : Client) (request : Request) :
    ∃ errs : List LinkError, errs.length ≤ 1 ∧
      (c.hearAll [.message request.toJson]).2 = errs.map .failure := by
  simp only [hearAll, hear, request.toJson_notResponse, publish]
  split
  · exact ⟨[], Nat.zero_le 1, rfl⟩
  · split
    · exact ⟨[_], Nat.le_refl 1, rfl⟩
    · exact ⟨[], Nat.zero_le 1, rfl⟩

theorem LocalLink.terse_deliver (l : LocalLink) : Terse l.deliver := by
  intro c request
  have hnone : ∃ errs : List LinkError, errs.length ≤ 1 ∧
      (c.hearAll []).2 = errs.map .failure := ⟨[], Nat.zero_le 1, rfl⟩
  rw [deliver]
  split
  · exact hnone
  · cases l.refusal with
    | some err => exact hnone
    | none =>
      dsimp only
      split
      · exact c.hearAll_request request
      · exact hnone

def News.stirs : News → Bool
  | .failure _ => false
  | _ => true

namespace Session

variable {s t : Session} {link : Json → Delivery} {cursor : Option Cursor} {sent : List Json}

/-- How many applications come of what waits in the queue: one for each piece of news, and one for
each that may bring up an error. -/
def load (s : Session) : Nat := s.queue.length + s.queue.countP News.stirs

theorem load_le (s : Session) : s.load ≤ 2 * s.queue.length := by
  have hstirs := List.countP_le_length (p := News.stirs) (l := s.queue)
  rw [load]
  omega

theorem load_cons {news : News} {rest : List News} (hq : s.queue = news :: rest) :
    s.load = ({ s with queue := rest } : Session).load + if news.stirs then 2 else 1 := by
  rw [load, load, hq, List.length_cons, List.countP_cons]
  split <;> simp only <;> omega

theorem load_enqueue_le (s : Session) {errs : List LinkError} (h : errs.length ≤ 1) :
    (s.enqueue (errs.map .failure)).load ≤ s.load + 1 := by
  have hstirs : (errs.map News.failure).countP News.stirs = 0 := by
    rw [List.countP_map, List.countP_eq_zero]
    exact fun _ _ => Bool.false_ne_true
  rw [enqueue]
  split
  · rw [load, load, List.length_append, List.countP_append, hstirs, List.length_map]
    omega
  · exact Nat.le_succ _

theorem askInfo_news (c : Client) (link : Json → Delivery) (ticket : Ticket) (l : Location) :
    ∃ (c' : Client) (request : Request),
      (c.askInfo link ticket l).news = (c'.hearAll (link request.toJson).arrivals).2 := by
  refine ⟨{ (c.close c.nextSeq).1 with
    nextSeq := min (c.nextSeq + 1) Client.maxSeq
    pending := (c.close c.nextSeq).1.pending ++ [(c.nextSeq, .info ticket)] },
    .info c.nextSeq l, ?_⟩
  rw [Client.askInfo, Client.ask]
  dsimp only
  split <;> rfl

/-- Asking for a goal brings up at most an error. -/
theorem load_ask_le (hlink : Terse link) (s : Session) (c : Client) (ticket : Ticket)
    (l : Location) : (s.ask (c.askInfo link ticket l)).1.load ≤ s.load + 1 := by
  obtain ⟨c', request, hnews⟩ := askInfo_news c link ticket l
  obtain ⟨errs, hlength, herrs⟩ := hlink c' request
  rw [ask, hnews, herrs]
  exact load_enqueue_le { s with client := (c.askInfo link ticket l).client } hlength

/-- A turn of the engine asks at most once. -/
theorem Step.load_le (h : Step link s sent t) (hlink : Terse link) : t.load ≤ s.load + 1 := by
  cases h with
  | keep => exact Nat.le_succ _
  | giveUp => exact Nat.le_succ _
  | taken e l reasons due next asked made => rw [made]; exact load_ask_le hlink s _ _ l
  | refused e l pending next asked made => rw [made]; exact load_ask_le hlink s _ _ l
  | drop news rest queue =>
    rw [load_cons queue]
    split <;> omega
  | answer e ticket answer rest queue =>
    have hload := load_cons queue
    have hsame : ({ s with engine := e, queue := rest } : Session).load =
        ({ s with queue := rest } : Session).load := rfl
    rw [hload, hsame]
    split <;> omega

/-- Applying the first news in the queue takes away more than it brings up. -/
theorem load_apply_lt (hlink : Terse link) (h : s.engine.Sound) (cursor : Option Cursor)
    {news : News} {rest : List News} (hq : s.queue = news :: rest) :
    (({ s with queue := rest } : Session).apply link cursor news).1.load < s.load := by
  rw [load_cons hq]
  cases news with
  | diagnostics ds =>
    have hstep := trigger_step (s := { s with queue := rest }) h link cursor
      (t := .diagnostics ds) rfl
    exact Nat.lt_succ_of_le (hstep.load_le hlink)
  | status status =>
    have hstep := trigger_step (s := { s with queue := rest }) h link cursor
      (t := .statusChanged) rfl
    exact Nat.lt_succ_of_le (hstep.load_le hlink)
  | answer ticket answer =>
    rw [apply, (({ s with queue := rest } : Session).respond_eq link cursor ticket answer).2]
    exact Nat.lt_add_of_pos_right Nat.two_pos
  | failure err => exact Nat.lt_succ_self _

theorem load_eq_zero (h : s.load = 0) : s.queue = [] :=
  List.length_eq_zero_iff.mp (Nat.eq_zero_of_add_eq_zero_right h)

/-- Over any link: a drain that came to its end would do the same if it might apply more. -/
theorem drain_add (link : Json → Delivery) (cursor : Option Cursor) {most : Nat} (applied : Nat)
    (hdone : ∀ count, (drain link cursor most applied s).2.2 = .ok count →
      (drain link cursor most applied s).1.queue = []) (more : Nat) :
    drain link cursor (most + more) applied s = drain link cursor most applied s := by
  induction most generalizing s applied with
  | zero =>
    have hq : s.queue = [] := hdone applied rfl
    cases more with
    | zero => rfl
    | succ more => simp only [drain, hq]
  | succ most ih =>
    rw [Nat.add_right_comm]
    cases hq : s.queue with
    | nil => simp only [drain, hq]
    | cons news rest =>
      simp only [drain, hq] at hdone ⊢
      rcases ha : ({ s with queue := rest } : Session).apply link cursor news with
        ⟨t, effects, err | ⟨⟩⟩
      · rfl
      · rw [ha] at hdone
        simp only [ih (applied + 1) hdone]

/-- A drain that may apply as much as comes up leaves nothing in the queue unless it fails. -/
theorem drain_of_load_le (hlink : Terse link) (h : s.engine.Sound) (cursor : Option Cursor)
    {most : Nat} (hmost : s.load ≤ most) (applied count : Nat)
    (hok : (drain link cursor most applied s).2.2 = .ok count) :
    (drain link cursor most applied s).1.queue = [] := by
  induction most generalizing s applied with
  | zero => exact load_eq_zero (Nat.le_zero.mp hmost)
  | succ most ih =>
    cases hq : s.queue with
    | nil => simp only [drain, hq]
    | cons news rest =>
      have hless := load_apply_lt hlink h cursor hq
      have hsound := (apply_steps h link cursor hq).sound h
      simp only [drain, hq] at hok ⊢
      rcases ha : ({ s with queue := rest } : Session).apply link cursor news with
        ⟨t, effects, err | ⟨⟩⟩
      · rw [ha] at hok
        cases hok
      · rw [ha] at hless hsound hok
        exact ih hsound (by omega) (applied + 1) hok

/-- Over such a link a pump that does not fail leaves nothing in the queue, and if it might apply
more than it may, it would still do the same. -/
theorem pump_unbounded (hlink : Terse link) (h : s.engine.Sound) (cursor : Option Cursor)
    (arrivals : List Arrival) :
    (∀ count, (s.pump link cursor arrivals).2.2 = .ok count →
      (s.pump link cursor arrivals).1.queue = []) ∧
    ∀ more, drain link cursor (2 * (s.hear arrivals).queue.length + more) 0 (s.hear arrivals) =
      s.pump link cursor arrivals := by
  have hsound : (s.hear arrivals).engine.Sound := by rwa [hear_engine]
  have hempty := fun count => drain_of_load_le hlink hsound cursor (load_le _) 0 count
  exact ⟨hempty, drain_add link cursor 0 hempty⟩

end Session

end ProofPanel
