import ProofPanel.Proofs.Client.Requests
import ProofPanel.Proofs.Run

/-!
# The client's runs

A client makes requests, cancels fetches or fails all of them, and hears what arrives, in any order.
Its link takes a value or refuses it, and lets nothing arrive while it does. A request is made once
and ends once, and every request that an act ends is one that is open.
-/
namespace ProofPanel

inductive Wish
  | info (ticket : Ticket) (l : Location)
  | sync (fileName content : String)

namespace Wish

def purpose : Wish → Purpose
  | .info ticket _ => .info ticket
  | .sync _ _ => .sync

def request (seq : Nat) : Wish → Request
  | .info _ l => .info seq l
  | .sync fileName content => .sync seq fileName content

end Wish

inductive Ending
  | answered (answer : Answer)
  | cancelled

inductive RequestEvent
  /-- The link took the request's value or refused it. -/
  | made (seq : Nat) (purpose : Purpose) (outcome : Except LinkError Unit)
  | ended (seq : Nat) (purpose : Purpose) (ending : Ending)

def Purpose.reply? (purpose : Purpose) (answer : Answer) : Option (Ticket × Answer) :=
  purpose.ticket?.map (·, answer)

def News.reply? : News → Option (Ticket × Answer)
  | .answer ticket reply => some (ticket, reply)
  | _ => none

def Response.seq? : Response → Option Nat
  | .ok seq _ => some seq
  | .error seq _ => seq
  | _ => none

theorem Response.seq_of_answer {r : Response} {seq : Nat} {reply : Answer}
    (h : r.answer? seq = some reply) : r.seq? = some seq := by
  cases r with
  | ok n record =>
    by_cases hn : n = seq
    · rw [hn, Response.seq?]
    · simp only [answer?, if_neg hn] at h
      cases h
  | error n message =>
    cases n with
    | none => cases h
    | some n =>
      by_cases hn : n = seq
      · rw [hn, Response.seq?]
      · simp only [answer?, if_neg hn] at h
        cases h
  | _ => cases h

namespace RequestEvent

def made? : RequestEvent → Option Nat
  | .made seq _ _ => some seq
  | .ended _ _ _ => none

def taken? : RequestEvent → Option (Nat × Purpose)
  | .made seq purpose (.ok _) => some (seq, purpose)
  | _ => none

def refused? : RequestEvent → Option Nat
  | .made seq _ (.error _) => some seq
  | _ => none

def ended? : RequestEvent → Option (Nat × Purpose)
  | .ended seq purpose _ => some (seq, purpose)
  | .made _ _ _ => none

def answered? : RequestEvent → Option (Nat × Ticket)
  | .ended seq (.info ticket) (.answered _) => some (seq, ticket)
  | _ => none

def cancelled? : RequestEvent → Option (Nat × Ticket)
  | .ended seq (.info ticket) .cancelled => some (seq, ticket)
  | _ => none

def reply? : RequestEvent → Option (Ticket × Answer)
  | .ended _ purpose (.answered answer) => purpose.reply? answer
  | _ => none

end RequestEvent

namespace Client

/-- A link that lets nothing arrive while it takes a value. -/
def silent (accepts : Json → Except LinkError Unit) (value : Json) : Delivery :=
  { outcome := accepts value }

def make (c : Client) (link : Json → Delivery) : Wish → Asked
  | .info ticket l => c.askInfo link ticket l
  | .sync fileName content => c.askSync link fileName content

inductive Act
  | make (wish : Wish) (accepts : Json → Except LinkError Unit)
  | cancel (ticket : Ticket)
  | failPending (err : BackendError)
  | hear (a : Arrival)

def Act.isRequest : Act → Bool
  | .make _ _ => true
  | _ => false

def act (c : Client) : Act → Client × List News
  | .make wish accepts =>
    let asked := c.make (silent accepts) wish
    (asked.client, asked.news)
  | .cancel ticket => (c.cancel ticket, [])
  | .failPending err => c.failPending err
  | .hear a => c.hear a

def Act.ending? : Act → Nat × Purpose → Option Ending
  | .make _ _, _ => none
  | .cancel ticket, p => if p.2 = .info ticket then some .cancelled else none
  | .failPending err, _ => some (.answered (.error err))
  | .hear a, p => (a.answer? p.1).map .answered

def makes (c : Client) : Act → List RequestEvent
  | .make wish accepts =>
    [.made c.nextSeq wish.purpose (accepts (wish.request c.nextSeq).toJson)]
  | _ => []

def ends (c : Client) (a : Act) : List RequestEvent :=
  c.pending.filterMap fun p => (a.ending? p).map (.ended p.1 p.2)

def recorded (c : Client) (a : Act) : Client × List RequestEvent :=
  ((c.act a).1, c.makes a ++ c.ends a)

variable {c : Client}

/-! ## Making a request -/

theorem ask_silent (c : Client) (accepts : Json → Except LinkError Unit) (purpose : Purpose)
    (request : Nat → Request) :
    (accepts (request c.nextSeq).toJson = .ok () ∧ c.ask (silent accepts) purpose request =
      ⟨c.opened purpose, some (request c.nextSeq).toJson, [], .ok c.nextSeq⟩) ∨
    ∃ err, accepts (request c.nextSeq).toJson = .error err ∧
      c.ask (silent accepts) purpose request =
        ⟨((c.opened purpose).close c.nextSeq).1, none, [], .error (refusalOf err)⟩ := by
  obtain ⟨d, news, hheard, _, h⟩ := c.ask_cases (silent accepts) purpose request
  cases hheard
  exact h

theorem make_eq (c : Client) (link : Json → Delivery) (wish : Wish) :
    c.make link wish = c.ask link wish.purpose (wish.request ·) := by
  cases wish <;> rfl

theorem opened_pending (fresh : ∀ p ∈ c.pending, p.1 ≠ c.nextSeq) (purpose : Purpose) :
    (c.opened purpose).pending = c.pending ++ [(c.nextSeq, purpose)] := by
  rw [opened, close_eq_self fresh]

/-- A request that is closed again at once leaves the open ones as they were. -/
theorem opened_close_pending (fresh : ∀ p ∈ c.pending, p.1 ≠ c.nextSeq) (purpose : Purpose) :
    ((c.opened purpose).close c.nextSeq).1.pending = c.pending := by
  have hkeep : c.pending.filter (·.1 != c.nextSeq) = c.pending :=
    List.filter_eq_self.mpr fun p hp => by simpa using fresh p hp
  rw [close_pending, opened_pending fresh, List.filter_append, hkeep]
  simp

theorem opened_close_nil (h : c.pending = []) (purpose : Purpose) :
    ((c.opened purpose).close c.nextSeq).1.pending = [] := by
  have hfresh : ∀ p ∈ c.pending, p.1 ≠ c.nextSeq := by simp [h]
  exact (opened_close_pending hfresh purpose).trans h

theorem ends_make (c : Client) (wish : Wish) (accepts : Json → Except LinkError Unit) :
    c.ends (.make wish accepts) = [] :=
  List.filterMap_eq_nil_iff.mpr fun _ _ => rfl

/-! ## Ending requests -/

/-- The requests that an act ends are those that leave the open ones. -/
theorem filterMap_ended_ends (c : Client) (a : Act) :
    (c.ends a).filterMap RequestEvent.ended? = c.pending.filter fun p => (a.ending? p).isSome := by
  rw [ends, List.filterMap_filterMap, ← List.filterMap_eq_filter]
  refine List.filterMap_congr fun p _ => ?_
  cases h : a.ending? p <;> simp [Option.guard, h, RequestEvent.ended?]

theorem filterMap_made_ends (c : Client) (a : Act) :
    (c.ends a).filterMap RequestEvent.made? = [] ∧
      (c.ends a).filterMap RequestEvent.taken? = [] := by
  constructor
  all_goals
    refine List.filterMap_eq_nil_iff.mpr fun event he => ?_
    obtain ⟨p, _, hp⟩ := List.mem_filterMap.mp he
    obtain ⟨ending, _, rfl⟩ := Option.map_eq_some_iff.mp hp
    rfl

theorem filterMap_reply_ends (c : Client) (a : Act) :
    (c.ends a).filterMap RequestEvent.reply? = c.pending.filterMap fun p =>
      (a.ending? p).bind fun
        | .answered answer => p.2.reply? answer
        | .cancelled => none := by
  rw [ends, List.filterMap_filterMap]
  refine List.filterMap_congr fun p _ => ?_
  rcases a.ending? p with _ | _ | _ <;> rfl

/-! ## Responses and failures -/

theorem close_snd (c : Client) (seq : Nat) :
    (c.close seq).2 = (c.pending.find? (·.1 == seq)).map (·.2) := rfl

/-- Numbers are distinct, so that closing finds what the open requests have under a number. -/
theorem filterMap_close_perm {β : Type} (hd : c.Distinct) (seq : Nat) (f : Purpose → Option β) :
    ((c.close seq).2.bind f).toList.Perm
      (c.pending.filterMap fun p => if seq = p.1 then f p.2 else none) := by
  cases hf : c.pending.find? (·.1 == seq) with
  | none =>
    have hnone : (c.pending.filterMap fun p => if seq = p.1 then f p.2 else none) = [] := by
      refine List.filterMap_eq_nil_iff.mpr fun p hp => if_neg fun he => ?_
      simpa [he] using List.find?_eq_none.mp hf p hp
    rw [hnone, close_snd, hf]
    exact List.Perm.refl _
  | some p =>
    have hseq : p.1 = seq := by simpa using List.find?_some hf
    have hothers : ((c.pending.filter (·.1 != seq)).filterMap
        fun p => if seq = p.1 then f p.2 else none) = [] := by
      refine List.filterMap_eq_nil_iff.mpr fun q hq => if_neg fun he => ?_
      simpa [he] using (List.mem_filter.mp hq).2
    refine List.Perm.trans ?_ ((pending_perm_of_close hd hf).filterMap _).symm
    rw [List.filterMap_cons, hothers, if_pos hseq.symm, close_snd, hf, Option.map_some,
      Option.bind_some]
    cases f p.2 <;> exact List.Perm.refl _

theorem receive_pending (c : Client) (r : Response) :
    (c.receive r).1.pending = c.pending.filter fun p => (r.answer? p.1).isNone := by
  have hkeep : c.pending.filter (fun _ => true) = c.pending := List.filter_true _
  have hclose : ∀ seq (answer : Answer), (c.close seq).1.pending =
      c.pending.filter fun p => (if seq = p.1 then some answer else none).isNone := by
    intro seq answer
    rw [close_pending]
    refine List.filter_congr fun p _ => ?_
    by_cases h : seq = p.1
    · simp [h]
    · simp [h, Ne.symm h]
  cases r with
  | ok seq record =>
    refine Eq.trans ?_ (hclose seq (.ok record))
    rcases hc : c.close seq with ⟨d, _ | _ | _⟩ <;> simp only [receive, hc]
  | error seq message =>
    cases seq with
    | none => exact hkeep.symm
    | some seq => exact hclose seq (.error (.request message))
  | allMessages ds => exact hkeep.symm
  | currentTasks status =>
    simp only [receive]
    split <;> exact hkeep.symm

theorem publish_replies {news : List News} (h : ∀ n ∈ news, n.reply? = none) :
    (c.publish news).filterMap News.reply? = [] :=
  List.filterMap_eq_nil_iff.mpr fun n hn => h n (mem_publish hn)

theorem filterMap_unanswered {r : Response} (h : ∀ seq, r.answer? seq = none) :
    (c.pending.filterMap fun p => (r.answer? p.1).bind p.2.reply?) = [] := by
  refine List.filterMap_eq_nil_iff.mpr fun p _ => ?_
  rw [h, Option.bind_none]

/-- A response is the reply to the open request that it names, if that is a fetch. -/
theorem receive_replies (hp : c.publishing = true) (hd : c.Distinct) (r : Response) :
    ((c.receive r).2.filterMap News.reply?).Perm
      (c.pending.filterMap fun p => (r.answer? p.1).bind p.2.reply?) := by
  have hclose : ∀ seq (answer : Answer),
      ((c.close seq).2.bind (·.reply? answer)).toList.Perm
        (c.pending.filterMap fun p =>
          (if seq = p.1 then some answer else none).bind p.2.reply?) := by
    intro seq answer
    refine (filterMap_close_perm hd seq _).trans (List.Perm.of_eq ?_)
    refine List.filterMap_congr fun p _ => ?_
    by_cases h : seq = p.1 <;> simp [h]
  have hpub : ∀ seq, (c.close seq).1.publishing = true := fun _ => hp
  cases r with
  | ok seq record =>
    have h := hclose seq (.ok record)
    have hheard := hpub seq
    rcases hc : c.close seq with ⟨d, _ | ticket | _⟩
    all_goals
      simp only [hc] at h hheard
      simp only [receive, hc]
    · exact h
    · rw [publish, if_pos hheard]
      exact h
    · exact h
  | error seq message =>
    cases seq with
    | none =>
      rw [receive, publish_replies (by simp [News.reply?, remoteError]),
        filterMap_unanswered fun _ => rfl]
    | some seq =>
      have h := hclose seq (.error (.request message))
      have hheard := hpub seq
      rcases hc : c.close seq with ⟨d, _ | ticket | _⟩
      all_goals
        simp only [hc] at h hheard
        simp only [receive, hc]
        rw [publish, if_pos hheard]
        exact h
  | allMessages ds =>
    rw [receive, publish_replies (by simp [News.reply?]), filterMap_unanswered fun _ => rfl]
  | currentTasks status =>
    have hnone : (c.receive (.currentTasks status)).2.filterMap News.reply? = [] := by
      rw [receive]
      split
      · rfl
      · exact publish_replies (by simp [News.reply?])
    rw [hnone, filterMap_unanswered fun _ => rfl]

structure Ready (c : Client) : Prop where
  listening : c.listening = true
  publishing : c.publishing = true

theorem failPending_replies (hr : c.Ready) (err : BackendError) :
    (c.failPending err).2.filterMap News.reply? = c.tickets.map (·, .error err) := by
  rw [failPending_eq, publish, if_pos hr.publishing, List.filterMap_map, ← List.filterMap_eq_map]
  rfl

theorem filterMap_reply_error (c : Client) (err : BackendError) :
    (c.pending.filterMap fun p => p.2.reply? (.error err)) = c.tickets.map (·, .error err) := by
  rw [tickets, List.map_filterMap]
  rfl

theorem hear_message (hr : c.Ready) {value : Json} {r : Response}
    (hv : Response.ofJson? value = some r) : c.hear (.message value) = c.receive r := by
  simp only [hear, hr.listening, hv]
  rfl

theorem hear_noise (hr : c.Ready) {value : Json} (hv : Response.ofJson? value = none) :
    c.hear (.message value) = (c, [.failure (notAResponse value)]) := by
  simp only [hear, hr.listening, hv, publish, hr.publishing]
  rfl

/-- A failure after which responses may still come changes nothing. -/
theorem hear_passing (hr : c.Ready) {err : LinkError} (hf : isFinal err = false) :
    c.hear (.failure err) = (c, [.failure err]) := by
  simp only [hear, hr.listening, hf, publish, hr.publishing]
  rfl

theorem hear_final (hr : c.Ready) {err : LinkError} (hf : isFinal err = true) :
    c.hear (.failure err) = ((c.failPending .disconnected).1,
      .failure err :: (c.failPending .disconnected).2) := by
  simp only [hear, hr.listening, hf, publish, hr.publishing]
  rfl

theorem Ready.lost (hr : c.Ready) {err : LinkError} (hf : isFinal err = true) :
    (c.hear (.failure err)).1.pending = [] ∧
      ((c.hear (.failure err)).2.filterMap News.reply?).Perm
        (c.tickets.map (·, .error .disconnected)) := by
  rw [hear_final hr hf, List.filterMap_cons_none rfl, failPending_replies hr]
  exact ⟨rfl, List.Perm.refl _⟩

/-- What arrives closes the open requests that it answers. -/
theorem hear_pending (hr : c.Ready) (a : Arrival) :
    (c.hear a).1.pending = c.pending.filter fun p => (a.answer? p.1).isNone := by
  cases a with
  | message value =>
    cases hv : Response.ofJson? value with
    | none =>
      rw [hear_noise hr hv]
      simp [Arrival.answer?, hv]
    | some r =>
      rw [hear_message hr hv, receive_pending]
      simp [Arrival.answer?, hv]
  | failure err =>
    cases hf : isFinal err with
    | false =>
      rw [hear_passing hr hf]
      simp [Arrival.answer?, hf]
    | true =>
      rw [hear_final hr hf]
      simp [Arrival.answer?, hf, failPending]

theorem hear_replies (hr : c.Ready) (hd : c.Distinct) (a : Arrival) :
    ((c.hear a).2.filterMap News.reply?).Perm
      (c.pending.filterMap fun p => (a.answer? p.1).bind p.2.reply?) := by
  cases a with
  | message value =>
    cases hv : Response.ofJson? value with
    | none =>
      rw [hear_noise hr hv]
      simp [Arrival.answer?, hv, News.reply?]
    | some r =>
      rw [hear_message hr hv]
      simpa [Arrival.answer?, hv] using receive_replies hr.publishing hd r
  | failure err =>
    cases hf : isFinal err with
    | false =>
      rw [hear_passing hr hf]
      simp [Arrival.answer?, hf, News.reply?]
    | true =>
      rw [hear_final hr hf, List.filterMap_cons_none rfl, failPending_replies hr,
        ← filterMap_reply_error]
      simp [Arrival.answer?, hf]

theorem act_pending (hr : c.Ready) {a : Act} (ha : a.isRequest = false) :
    (c.act a).1.pending = c.pending.filter fun p => (a.ending? p).isNone := by
  cases a with
  | make _ _ => cases ha
  | cancel ticket =>
    refine List.filter_congr fun p _ => ?_
    by_cases h : p.2 = .info ticket <;> simp [Act.ending?, h]
  | failPending err => simp [act, failPending, Act.ending?]
  | hear a => simpa [act, Act.ending?] using hear_pending hr a

/-- What an act replies is what it ends with an answer. -/
theorem act_replies (hr : c.Ready) (hd : c.Distinct) (a : Act) :
    ((c.act a).2.filterMap News.reply?).Perm
      ((c.makes a ++ c.ends a).filterMap RequestEvent.reply?) := by
  rw [List.filterMap_append, filterMap_reply_ends]
  cases a with
  | make wish accepts =>
    have hquiet : (c.act (.make wish accepts)).2 = [] := by
      simp only [act, make_eq]
      rcases c.ask_silent accepts wish.purpose (wish.request ·) with ⟨_, h⟩ | ⟨_, _, h⟩ <;> rw [h]
    rw [hquiet]
    simp [makes, Act.ending?, RequestEvent.reply?]
  | cancel ticket =>
    refine List.Perm.of_eq (Eq.symm ?_)
    refine List.filterMap_eq_nil_iff.mpr fun p _ => ?_
    by_cases h : p.2 = .info ticket <;> simp [Act.ending?, h]
  | failPending err =>
    rw [act, failPending_replies hr, ← filterMap_reply_error]
    exact List.Perm.refl _
  | hear a =>
    refine (hear_replies hr hd a).trans (List.Perm.of_eq ?_)
    refine List.filterMap_congr fun p _ => ?_
    simp only [Act.ending?]
    cases a.answer? p.1 <;> rfl

theorem Ready.of_hears {d : Client} {news : List News} (hr : c.Ready) (h : Hears c d news) :
    d.Ready :=
  ⟨h.live.1.trans hr.listening, h.live.2.trans hr.publishing⟩

theorem Ready.act (hr : c.Ready) (a : Act) : (c.act a).1.Ready := by
  cases a with
  | make wish accepts =>
    obtain ⟨hlive, _, _⟩ := c.ask_keeps (silent accepts) wish.purpose (wish.request ·)
    simp only [Client.act, make_eq]
    exact ⟨hlive.1.trans hr.listening, hlive.2.trans hr.publishing⟩
  | cancel ticket => exact ⟨hr.listening, hr.publishing⟩
  | failPending err => exact hr.of_hears (c.failPending_hears err)
  | hear a => exact hr.of_hears (c.hear_hears a)

theorem Numbered.act {requests : Nat} (h : c.Numbered requests) (a : Act) :
    (c.act a).1.Numbered (if a.isRequest then requests + 1 else requests) := by
  cases a with
  | make wish accepts =>
    simp only [Client.act, make_eq]
    exact h.ask (silent accepts) wish.purpose (wish.request ·)
  | cancel ticket => exact h.sublist rfl (c.cancel_sublist ticket)
  | failPending err =>
    exact h.sublist rfl (c.failPending_hears err).sublist
  | hear a => exact h.sublist (c.hear_hears a).nextSeq (c.hear_hears a).sublist

end Client

end ProofPanel
