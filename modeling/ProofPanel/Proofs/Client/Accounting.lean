import Mathlib.Data.List.Nodup
import ProofPanel.Proofs.Client.Run

/-!
# Every request is accounted for

As long as there are numbers left, requests are numbered in order, and each one that the link took
is open or has ended, once and not both. A fetch ends by being cancelled or by its only reply, and
there are no other replies, whatever the other side of the link sends.
-/
namespace ProofPanel

namespace Client

def requests (acts : List Act) : Nat := acts.countP Act.isRequest

/-- Every number has been given, in order, and the requests that the link took are those that are
open and those that have ended. -/
structure Balanced (c : Client) (requests : Nat) (history : List RequestEvent) : Prop where
  ready : c.Ready
  numbered : c.Numbered requests
  numbers : history.filterMap RequestEvent.made? = List.range' 1 requests
  balance : (history.filterMap RequestEvent.taken?).Perm
    (c.pending ++ history.filterMap RequestEvent.ended?)

variable {c : Client} {n : Nat} {history : List RequestEvent}

theorem Numbered.nextSeq_eq (h : c.Numbered n) (room : n + 1 < UInt64.size) :
    c.nextSeq = n + 1 := by
  rw [h.nextSeq, maxSeq]
  omega

theorem Balanced.make (h : Balanced c n history) (room : n + 1 < UInt64.size) (wish : Wish)
    (accepts : Json → Except LinkError Unit) :
    let a := Act.make wish accepts
    Balanced (c.act a).1 (n + 1) (history ++ (c.makes a ++ c.ends a)) := by
  intro a
  have fresh := h.numbered.fresh room
  have hmade : (history ++ (c.makes a ++ c.ends a)).filterMap RequestEvent.made? =
      List.range' 1 (n + 1) := by
    rw [List.filterMap_append, h.numbers, ends_make, List.range'_1_concat, Nat.add_comm 1 n,
      ← h.numbered.nextSeq_eq room]
    rfl
  refine ⟨h.ready.act a, h.numbered.act a, hmade, ?_⟩
  have hact : (c.act a).1 = (c.ask (silent accepts) wish.purpose (wish.request ·)).client := by
    rw [act, make_eq]
  rw [ends_make, List.append_nil, List.filterMap_append, List.filterMap_append, hact]
  rcases c.ask_silent accepts wish.purpose (wish.request ·) with ⟨ho, ha⟩ | ⟨err, ho, ha⟩
  all_goals
    simp only [makes, a, ho, ha, List.filterMap_cons, RequestEvent.taken?, RequestEvent.ended?,
      List.filterMap_nil, List.append_nil]
  · rw [opened_pending fresh]
    have hlast := h.balance.append_right [(c.nextSeq, wish.purpose)]
    rw [List.append_assoc] at hlast ⊢
    exact hlast.trans (List.perm_append_comm.append_left _)
  · rw [opened_close_pending fresh]
    exact h.balance

theorem Balanced.other (h : Balanced c n history) {a : Act} (ha : a.isRequest = false) :
    Balanced (c.act a).1 n (history ++ (c.makes a ++ c.ends a)) := by
  have hmakes : c.makes a = [] := by
    cases a with
    | make _ _ => cases ha
    | _ => rfl
  obtain ⟨hmade, htaken⟩ := c.filterMap_made_ends a
  have hnumbered := h.numbered.act a
  rw [ha] at hnumbered
  rw [hmakes, List.nil_append]
  refine ⟨h.ready.act a, hnumbered, ?_, ?_⟩
  · rw [List.filterMap_append, hmade, List.append_nil, h.numbers]
  · rw [List.filterMap_append, List.filterMap_append, htaken, filterMap_ended_ends,
      act_pending h.ready ha, List.append_nil]
    -- The open requests fall into those that stay open and those that end.
    have hsplit := List.filter_append_perm (fun p => (a.ending? p).isNone) c.pending
    simp only [Option.not_isNone] at hsplit
    refine h.balance.trans ((hsplit.symm.append_right _).trans ?_)
    rw [List.append_assoc]
    exact List.perm_append_comm.append_left _

theorem start_numbered : Numbered {} 0 := ⟨List.nodup_nil, rfl, nofun⟩

theorem run_balanced (acts : List Act) (h : requests acts < maxSeq) :
    Balanced (run recorded {} acts).1 (requests acts) (run recorded {} acts).2 := by
  have hstart : Balanced {} (requests []) [] :=
    ⟨⟨rfl, rfl⟩, start_numbered, rfl, List.Perm.refl _⟩
  refine run_history (motive := fun before c history => requests before < maxSeq →
    Balanced c (requests before) history) ?_ (fun _ => hstart) acts h
  intro before c history a hc hroom
  rw [requests, List.countP_append, ← requests, List.countP_singleton] at hroom ⊢
  cases a with
  | make wish accepts =>
    have hroom' : requests before + 1 < maxSeq := hroom
    refine (hc (Nat.lt_of_succ_lt hroom')).make ?_ wish accepts
    rw [maxSeq] at hroom'
    omega
  | _ => exact (hc hroom).other rfl

/-- The replies that come out are those that the history tells of. -/
theorem run_replies (hr : c.Ready) (hn : c.Numbered n) (acts : List Act) :
    ((run act c acts).2.filterMap News.reply?).Perm
      ((run recorded c acts).2.filterMap RequestEvent.reply?) := by
  induction acts generalizing c n with
  | nil => exact List.Perm.refl _
  | cons a rest ih =>
    simp only [run, List.filterMap_append]
    exact (act_replies hr hn.distinct a).append (ih (hr.act a) (hn.act a))

theorem run_recorded_fst (c : Client) (acts : List Act) :
    (run recorded c acts).1 = (run act c acts).1 := by
  have hstep : ∀ c a, (recorded c a).1 = (act c a).1 := fun _ _ => rfl
  exact run_fst_congr hstep c acts

/-! ## What the history tells of a request -/

theorem count_made (history : List RequestEvent) (seq : Nat) :
    (history.filterMap RequestEvent.made?).count seq =
      ((history.filterMap RequestEvent.taken?).map Prod.fst).count seq +
        (history.filterMap RequestEvent.refused?).count seq := by
  induction history with
  | nil => rfl
  | cons event rest ih =>
    cases event with
    | made number purpose outcome =>
      cases outcome <;>
        simp only [List.filterMap_cons, RequestEvent.made?, RequestEvent.taken?,
          RequestEvent.refused?, List.map_cons, List.count_cons, ih] <;>
        omega
    | ended _ _ _ => exact ih

/-- A fetch ends by an answer or by being cancelled. -/
theorem count_ended (history : List RequestEvent) (seq : Nat) (ticket : Ticket) :
    (history.filterMap RequestEvent.ended?).count (seq, .info ticket) =
      (history.filterMap RequestEvent.cancelled?).count (seq, ticket) +
        (history.filterMap RequestEvent.answered?).count (seq, ticket) := by
  induction history with
  | nil => rfl
  | cons event rest ih =>
    match event with
    | .made _ _ _ => exact ih
    | .ended number .sync ending =>
      cases ending <;> simpa [List.filterMap_cons, RequestEvent.ended?, RequestEvent.cancelled?,
        RequestEvent.answered?, List.count_cons] using ih
    | .ended number (.info t) ending =>
      have hsame : ((number, Purpose.info t) = (seq, .info ticket)) =
          ((number, t) = (seq, ticket)) := by simp
      cases ending <;>
        simp only [List.filterMap_cons, RequestEvent.ended?, RequestEvent.cancelled?,
          RequestEvent.answered?, List.count_cons, beq_iff_eq, hsame, ih] <;>
        omega

namespace Balanced

variable (h : Balanced c n history)
include h

theorem count_made_le (seq : Nat) :
    ((history.filterMap RequestEvent.taken?).map Prod.fst).count seq +
      (history.filterMap RequestEvent.refused?).count seq ≤ 1 := by
  rw [← count_made, h.numbers]
  exact List.nodup_iff_count_le_one.mp List.nodup_range' seq

theorem taken_nodup : ((history.filterMap RequestEvent.taken?).map Prod.fst).Nodup :=
  List.nodup_iff_count_le_one.mpr fun seq =>
    Nat.le_trans (Nat.le_add_right _ _) (h.count_made_le seq)

theorem taken_unique {seq : Nat} {purpose other : Purpose}
    (hp : (seq, purpose) ∈ history.filterMap RequestEvent.taken?)
    (ho : (seq, other) ∈ history.filterMap RequestEvent.taken?) : purpose = other :=
  (Prod.mk.inj (List.inj_on_of_nodup_map h.taken_nodup hp ho rfl)).2

theorem taken_of_open {p : Nat × Purpose} (hp : p ∈ c.pending) :
    p ∈ history.filterMap RequestEvent.taken? :=
  h.balance.mem_iff.mpr (List.mem_append_left _ hp)

theorem taken_of_ended {p : Nat × Purpose} (hp : p ∈ history.filterMap RequestEvent.ended?) :
    p ∈ history.filterMap RequestEvent.taken? :=
  h.balance.mem_iff.mpr (List.mem_append_right _ hp)

theorem count_fates {seq : Nat} {ticket : Ticket}
    (ht : (seq, .info ticket) ∈ history.filterMap RequestEvent.taken?) :
    c.pending.count (seq, .info ticket) +
      (history.filterMap RequestEvent.cancelled?).count (seq, ticket) +
      (history.filterMap RequestEvent.answered?).count (seq, ticket) = 1 := by
  have hone : (history.filterMap RequestEvent.taken?).count (seq, .info ticket) = 1 :=
    List.count_eq_one_of_mem h.taken_nodup.of_map ht
  rw [h.balance.count_eq, List.count_append, count_ended] at hone
  omega

theorem taken_of_answered {seq : Nat} {ticket : Ticket}
    (ha : (seq, ticket) ∈ history.filterMap RequestEvent.answered?) :
    (seq, .info ticket) ∈ history.filterMap RequestEvent.taken? := by
  refine h.taken_of_ended (List.count_pos_iff.mp ?_)
  have hpos := List.count_pos_iff.mpr ha
  rw [count_ended]
  omega

theorem ticket_of_answered {seq : Nat} {ticket other : Ticket}
    (ht : (seq, .info ticket) ∈ history.filterMap RequestEvent.taken?)
    (ha : (seq, other) ∈ history.filterMap RequestEvent.answered?) : other = ticket := by
  cases h.taken_unique ht (h.taken_of_answered ha)
  rfl

theorem not_refused_of_taken {p : Nat × Purpose}
    (ht : p ∈ history.filterMap RequestEvent.taken?) :
    p.1 ∉ history.filterMap RequestEvent.refused? := by
  intro hr
  have hle := h.count_made_le p.1
  have htaken := List.count_pos_iff.mpr (List.mem_map_of_mem (f := Prod.fst) ht)
  have hrefused := List.count_pos_iff.mpr hr
  omega

theorem number_of_taken {p : Nat × Purpose}
    (ht : p ∈ history.filterMap RequestEvent.taken?) : p.1 ∈ List.range' 1 n := by
  rw [← h.numbers, ← List.count_pos_iff, count_made]
  have htaken := List.count_pos_iff.mpr (List.mem_map_of_mem (f := Prod.fst) ht)
  omega

theorem pending_length : c.pending.length = ((history.filterMap RequestEvent.taken?).filter
    fun p => p ∉ history.filterMap RequestEvent.ended?).length := by
  have hnodup := h.balance.nodup_iff.mp h.taken_nodup.of_map
  have hdisjoint := List.disjoint_of_nodup_append hnodup
  have hopen : c.pending.filter (fun p => p ∉ history.filterMap RequestEvent.ended?) =
      c.pending :=
    List.filter_eq_self.mpr fun p hp => decide_eq_true (hdisjoint hp)
  have hended : (history.filterMap RequestEvent.ended?).filter
      (fun p => p ∉ history.filterMap RequestEvent.ended?) = [] :=
    List.filter_eq_nil_iff.mpr fun p hp => by simpa using hp
  rw [(h.balance.filter _).length_eq, List.filter_append, hopen, hended, List.append_nil]

end Balanced

/-- The books of a client: how many requests it has made, what came out and what became of the
requests, with what can come next. -/
structure Accounted (c : Client) (n : Nat) (news : List News) (history : List RequestEvent) :
    Prop where
  numbers : history.filterMap RequestEvent.made? = List.range' 1 n
  /-- The value that is handed to the link carries the next number, whether it is taken or not. -/
  next : ∀ (wish : Wish) (accepts : Json → Except LinkError Unit),
    let value := (wish.request (n + 1)).toJson
    let asked := c.make (silent accepts) wish
    (accepts value = .ok () → asked.sent = some value ∧ asked.outcome = .ok (n + 1) ∧
        asked.client.pending = c.pending ++ [(n + 1, wish.purpose)]) ∧
      ∀ err, accepts value = .error err → asked.sent = none ∧
        asked.outcome = .error (refusalOf err) ∧ asked.client.pending = c.pending
  /-- A fetch that the link took is open, cancelled or answered, in one way only and once. -/
  fates : ∀ seq ticket, (seq, .info ticket) ∈ history.filterMap RequestEvent.taken? →
    c.pending.count (seq, .info ticket) +
        (history.filterMap RequestEvent.cancelled?).count (seq, ticket) +
        (history.filterMap RequestEvent.answered?).count (seq, ticket) = 1 ∧
      ∀ other, (seq, other) ∈ history.filterMap RequestEvent.answered? → other = ticket
  replies : (news.filterMap News.reply?).Perm (history.filterMap RequestEvent.reply?)
  /-- Neither a refused request nor a sync nor a number that was never given is answered. -/
  deserved : ∀ seq ticket, (seq, ticket) ∈ history.filterMap RequestEvent.answered? →
    (seq, .info ticket) ∈ history.filterMap RequestEvent.taken? ∧ seq ∈ List.range' 1 n ∧
      seq ∉ history.filterMap RequestEvent.refused? ∧
      (seq, .sync) ∉ history.filterMap RequestEvent.taken? ∧
      (seq, ticket) ∉ history.filterMap RequestEvent.cancelled?
  /-- A response brings no reply if it names no fetch that was taken, or one that has ended. -/
  dropped : ∀ value r seq, Response.ofJson? value = some r → r.seq? = some seq →
    (∀ ticket, (seq, .info ticket) ∈ history.filterMap RequestEvent.taken? →
      (seq, ticket) ∈ history.filterMap RequestEvent.cancelled? ∨
        (seq, ticket) ∈ history.filterMap RequestEvent.answered?) →
    (c.hear (.message value)).2.filterMap News.reply? = []
  open_length : c.pending.length = ((history.filterMap RequestEvent.taken?).filter
    fun p => p ∉ history.filterMap RequestEvent.ended?).length
  /-- When the link is lost, every open fetch is answered once and no request stays open. -/
  lost : ∀ err, isFinal err = true → (c.hear (.failure err)).1.pending = [] ∧
    ((c.hear (.failure err)).2.filterMap News.reply?).Perm
      (c.tickets.map (·, .error .disconnected))
  failed : ∀ err, (c.failPending err).1.pending = [] ∧
    ((c.failPending err).2.filterMap News.reply?).Perm (c.tickets.map (·, .error err))
  passing : ∀ err, isFinal err = false → c.hear (.failure err) = (c, [.failure err])

theorem Balanced.next (h : Balanced c n history) (room : n + 1 < UInt64.size) (wish : Wish)
    (accepts : Json → Except LinkError Unit) :
    let value := (wish.request (n + 1)).toJson
    let asked := c.make (silent accepts) wish
    (accepts value = .ok () → asked.sent = some value ∧ asked.outcome = .ok (n + 1) ∧
        asked.client.pending = c.pending ++ [(n + 1, wish.purpose)]) ∧
      ∀ err, accepts value = .error err → asked.sent = none ∧
        asked.outcome = .error (refusalOf err) ∧ asked.client.pending = c.pending := by
  intro value asked
  have fresh := h.numbered.fresh room
  have hseq := h.numbered.nextSeq_eq room
  have hasked : asked = _ := c.make_eq (silent accepts) wish
  rcases c.ask_silent accepts wish.purpose (wish.request ·) with ⟨ho, ha⟩ | ⟨err, ho, ha⟩
  all_goals
    rw [ha, hseq] at hasked
    rw [hseq] at ho
    rw [hasked]
  · refine ⟨fun _ => ⟨rfl, rfl, ?_⟩, fun err he => ?_⟩
    · rw [opened_pending fresh, hseq]
    · cases ho.symm.trans he
  · refine ⟨fun he => ?_, fun err' he => ?_⟩
    · cases ho.symm.trans he
    · cases ho.symm.trans he
      exact ⟨rfl, rfl, by rw [← hseq]; exact opened_close_pending fresh _⟩

theorem Balanced.deserved (h : Balanced c n history) {seq : Nat} {ticket : Ticket}
    (ha : (seq, ticket) ∈ history.filterMap RequestEvent.answered?) :
    (seq, .info ticket) ∈ history.filterMap RequestEvent.taken? ∧ seq ∈ List.range' 1 n ∧
      seq ∉ history.filterMap RequestEvent.refused? ∧
      (seq, .sync) ∉ history.filterMap RequestEvent.taken? ∧
      (seq, ticket) ∉ history.filterMap RequestEvent.cancelled? := by
  have ht := h.taken_of_answered ha
  have hone := h.count_fates ht
  have hpos := List.count_pos_iff.mpr ha
  refine ⟨ht, h.number_of_taken ht, h.not_refused_of_taken ht, fun hsync => ?_, ?_⟩
  · cases h.taken_unique ht hsync
  · exact List.count_eq_zero.mp (by omega)

/-- Only an open fetch that a response names gets a reply by it. -/
theorem Balanced.dropped (h : Balanced c n history) {value : Json} {r : Response} {seq : Nat}
    (hv : Response.ofJson? value = some r) (hseq : r.seq? = some seq)
    (hended : ∀ ticket, (seq, .info ticket) ∈ history.filterMap RequestEvent.taken? →
      (seq, ticket) ∈ history.filterMap RequestEvent.cancelled? ∨
        (seq, ticket) ∈ history.filterMap RequestEvent.answered?) :
    (c.hear (.message value)).2.filterMap News.reply? = [] := by
  rw [hear_message h.ready hv]
  have hreplies := receive_replies h.ready.publishing h.numbered.distinct r
  have hnone : (c.pending.filterMap fun p => (r.answer? p.1).bind p.2.reply?) = [] := by
    refine List.filterMap_eq_nil_iff.mpr fun ⟨number, purpose⟩ hp => ?_
    cases ha : r.answer? number with
    | none => rfl
    | some answer =>
      cases purpose with
      | sync => rfl
      | info ticket =>
        cases (Response.seq_of_answer ha).symm.trans hseq
        have htaken := h.taken_of_open hp
        have hone := h.count_fates htaken
        have hopen := List.count_pos_iff.mpr hp
        rcases hended ticket htaken with hgone | hgone
        all_goals
          have hpos := List.count_pos_iff.mpr hgone
          omega
  rw [hnone] at hreplies
  exact hreplies.eq_nil

/-- Whatever a client is asked to do and whatever arrives, as long as fewer requests have been made
than there are numbers. -/
theorem run_requests_accounted (acts : List Act) (h : requests acts < maxSeq) :
    Accounted (run act {} acts).1 (requests acts) (run act {} acts).2
      (run recorded {} acts).2 := by
  have hb := run_balanced acts h
  rw [run_recorded_fst] at hb
  have room : requests acts + 1 < UInt64.size := by
    rw [maxSeq] at h
    omega
  exact {
    numbers := hb.numbers
    next := hb.next room
    fates := fun _ _ ht => ⟨hb.count_fates ht, fun _ ha => hb.ticket_of_answered ht ha⟩
    replies := run_replies ⟨rfl, rfl⟩ start_numbered acts
    deserved := fun _ _ ha => hb.deserved ha
    dropped := fun _ _ _ => hb.dropped
    open_length := hb.pending_length
    lost := fun _ hf => hb.ready.lost hf
    failed := fun err => ⟨rfl, List.Perm.of_eq (failPending_replies hb.ready err)⟩
    passing := fun _ hf => hear_passing hb.ready hf }

/-- A fetch is taken and its response comes twice, another fetch is refused, and the link is lost
while a sync is still open. There is one reply. -/
theorem run_requests_accounted_repeated :
    let l : Location := ⟨"/a.lean", 3, 5⟩
    let response : Arrival := .message (Response.ok 1 none).toJson
    let acts : List Act :=
      [.make (.info 7 l) fun _ => .ok (), .make (.sync "/a.lean" "") fun _ => .ok (),
        .make (.info 8 l) fun _ => .error .disposed, .hear response, .hear response,
        .hear (.failure (.io "closed"))]
    requests acts < maxSeq ∧ (run act {} acts).2.filterMap News.reply? = [(7, .ok none)] ∧
      Accounted (run act {} acts).1 (requests acts) (run act {} acts).2
        (run recorded {} acts).2 := by
  intro l response acts
  have h : requests acts < maxSeq := by
    unfold acts
    decide
  refine ⟨h, ?_, run_requests_accounted acts h⟩
  unfold acts response l
  decide +kernel

end Client

end ProofPanel
