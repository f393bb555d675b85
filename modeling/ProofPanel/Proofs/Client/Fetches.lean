import Mathlib.Data.List.Perm.Basic
import ProofPanel.Client

/-!
# The open fetches of the client

Whatever arrives on the link, the tickets of the open fetches and those of the answers among the
news balance: a fetch leaves the open requests exactly when its answer comes out.
-/
namespace ProofPanel

def Purpose.ticket? : Purpose → Option Ticket
  | .info ticket => some ticket
  | .sync => none

def News.ticket? : News → Option Ticket
  | .answer ticket _ => some ticket
  | _ => none

def answeredIn (news : List News) : List Ticket := news.filterMap News.ticket?

@[simp] theorem answeredIn_append (news more : List News) :
    answeredIn (news ++ more) = answeredIn news ++ answeredIn more :=
  List.filterMap_append

theorem mem_answeredIn {ticket : Ticket} {news : List News} :
    ticket ∈ answeredIn news ↔ ∃ answer, News.answer ticket answer ∈ news := by
  constructor
  · intro h
    obtain ⟨n, hn, ht⟩ := List.mem_filterMap.mp h
    cases n with
    | answer t answer =>
      cases ht
      exact ⟨answer, hn⟩
    | _ => cases ht
  · rintro ⟨answer, h⟩
    exact List.mem_filterMap.mpr ⟨_, h, rfl⟩

def Response.answer? (seq : Nat) : Response → Option Answer
  | .ok n record => if n = seq then some (.ok record) else none
  | .error (some n) message => if n = seq then some (.error (.request message)) else none
  | _ => none

/-- The answer that the fetch with a number gets when something arrives while it is open. -/
def Arrival.answer? (seq : Nat) : Arrival → Option Answer
  | .message value => (Response.ofJson? value).bind (Response.answer? seq)
  | .failure err => if Client.isFinal err then some (.error .disconnected) else none

namespace Client

def tickets (c : Client) : List Ticket := c.pending.filterMap (·.2.ticket?)

def Distinct (c : Client) : Prop := (c.pending.map Prod.fst).Nodup

variable {c : Client}

theorem mem_tickets {ticket : Ticket} :
    ticket ∈ c.tickets ↔ ∃ seq, (seq, Purpose.info ticket) ∈ c.pending := by
  constructor
  · intro h
    obtain ⟨⟨seq, purpose⟩, hp, ht⟩ := List.mem_filterMap.mp h
    cases purpose with
    | info t =>
      cases ht
      exact ⟨seq, hp⟩
    | sync => cases ht
  · rintro ⟨seq, h⟩
    exact List.mem_filterMap.mpr ⟨_, h, rfl⟩

/-! ## Closing a request -/

theorem close_pending (c : Client) (seq : Nat) :
    (c.close seq).1.pending = c.pending.filter (·.1 != seq) := rfl

theorem close_fst (c : Client) (seq : Nat) :
    (c.close seq).1 = { c with pending := c.pending.filter (·.1 != seq) } := rfl

theorem mem_of_close {seq : Nat} {purpose : Purpose} (h : (c.close seq).2 = some purpose) :
    (seq, purpose) ∈ c.pending := by
  obtain ⟨⟨n, p⟩, hf, hp⟩ := Option.map_eq_some_iff.mp h
  have hn : n = seq := by simpa using List.find?_some hf
  cases hp
  rw [← hn]
  exact List.mem_of_find?_eq_some hf

theorem close_eq_self {seq : Nat} (h : ∀ p ∈ c.pending, p.1 ≠ seq) : (c.close seq).1 = c := by
  have hf : c.pending.filter (·.1 != seq) = c.pending :=
    List.filter_eq_self.mpr (fun p hp => by simpa using h p hp)
  rw [close_fst, hf]

theorem pending_perm_of_close {l : List (Nat × Purpose)} (hd : (l.map Prod.fst).Nodup) {seq : Nat}
    {p : Nat × Purpose} (h : l.find? (·.1 == seq) = some p) :
    l.Perm (p :: l.filter (·.1 != seq)) := by
  induction l with
  | nil => cases h
  | cons q rest ih =>
    simp only [List.map_cons, List.nodup_cons] at hd
    -- A hit at the head is the only one, as no other entry has its number.
    by_cases hq : q.1 = seq
    · have hrest : rest.filter (·.1 != seq) = rest := by
        refine List.filter_eq_self.mpr (fun r hr => ?_)
        have hne : r.1 ≠ seq := by
          intro he
          exact hd.1 (List.mem_map.mpr ⟨r, hr, he.trans hq.symm⟩)
        simpa using hne
      have hp : q = p := by simpa [hq] using h
      have hdrop : (q.1 != seq) = false := by simp [hq]
      rw [List.filter_cons, hdrop, hrest, hp]
      exact List.Perm.refl _
    · have hf : rest.find? (·.1 == seq) = some p := by simpa [hq] using h
      have hkeep : (q.1 != seq) = true := by simp [hq]
      rw [List.filter_cons, if_pos hkeep]
      exact ((ih hd.2 hf).cons q).trans (List.Perm.swap p q _)

/-- Closing a request takes its ticket, if it has one, out of the open ones. -/
theorem close_perm (hd : c.Distinct) (seq : Nat) :
    c.tickets.Perm (((c.close seq).2.bind Purpose.ticket?).toList ++ (c.close seq).1.tickets) := by
  cases hf : c.pending.find? (·.1 == seq) with
  | none =>
    have hne : ∀ p ∈ c.pending, p.1 ≠ seq := by
      intro p hp he
      simpa [he] using List.find?_eq_none.mp hf p hp
    rw [close_eq_self hne]
    simp [close, hf]
  | some p =>
    have hperm := (pending_perm_of_close hd hf).filterMap (·.2.ticket?)
    refine hperm.trans ?_
    cases ht : p.2.ticket? <;> simp [close, hf, ht, tickets]

/-! ## Hearing the link -/

/-- What hearing the link makes of a client: no request is added, and the tickets balance. -/
structure Hears (c d : Client) (news : List News) : Prop where
  live : d.listening = c.listening ∧ d.publishing = c.publishing
  nextSeq : d.nextSeq = c.nextSeq
  sublist : d.pending.Sublist c.pending
  balance : c.publishing = true → c.Distinct → c.tickets.Perm (answeredIn news ++ d.tickets)

theorem Hears.refl {news : List News} (h : answeredIn news = []) : Hears c c news :=
  ⟨⟨rfl, rfl⟩, rfl, List.Sublist.refl _, fun _ _ => by rw [h]; exact List.Perm.refl _⟩

theorem Distinct.sublist {d : Client} (hd : c.Distinct) (h : d.pending.Sublist c.pending) :
    d.Distinct := List.Nodup.sublist (h.map Prod.fst) hd

theorem Hears.trans {d e : Client} {news more : List News} (h : Hears c d news)
    (h' : Hears d e more) : Hears c e (news ++ more) where
  live := ⟨h'.live.1.trans h.live.1, h'.live.2.trans h.live.2⟩
  nextSeq := h'.nextSeq.trans h.nextSeq
  sublist := h'.sublist.trans h.sublist
  balance hp hd := by
    have hfirst := h.balance hp hd
    have hsecond := h'.balance (h.live.2.trans hp) (hd.sublist h.sublist)
    rw [answeredIn_append, List.append_assoc]
    exact hfirst.trans (hsecond.append_left _)

theorem close_hears {seq : Nat} {news : List News}
    (h : c.publishing = true →
      answeredIn news = ((c.close seq).2.bind Purpose.ticket?).toList) :
    Hears c (c.close seq).1 news where
  live := ⟨rfl, rfl⟩
  nextSeq := rfl
  sublist := List.filter_sublist
  balance hp hd := by
    rw [h hp]
    exact close_perm hd seq

theorem answeredIn_publish_nil (news : List News) (h : answeredIn news = []) :
    answeredIn (c.publish news) = [] := by
  unfold publish
  split
  · exact h
  · rfl

theorem receive_hears (c : Client) (r : Response) : Hears c (c.receive r).1 (c.receive r).2 := by
  cases r with
  | ok seq record =>
    rcases hc : c.close seq with ⟨d, purpose⟩
    have hd : (c.close seq).1 = d := by rw [hc]
    have hp : (c.close seq).2 = purpose := by rw [hc]
    rcases purpose with _ | ticket | _
    all_goals
      simp only [receive, hc]
      rw [← hd]
      refine close_hears (fun hpub => ?_)
      rw [hp]
    · rfl
    · simp [publish, close_fst, hpub, answeredIn, News.ticket?, Purpose.ticket?]
    · rfl
  | error seq message =>
    cases seq with
    | none =>
      exact Hears.refl (answeredIn_publish_nil _ rfl)
    | some seq =>
      rcases hc : c.close seq with ⟨d, purpose⟩
      have hd : (c.close seq).1 = d := by rw [hc]
      have hp : (c.close seq).2 = purpose := by rw [hc]
      rcases purpose with _ | ticket | _
      all_goals
        simp only [receive, hc]
        rw [← hd]
        refine close_hears (fun hpub => ?_)
        rw [hp]
        simp [publish, close_fst, hpub, answeredIn, News.ticket?, Purpose.ticket?, remoteError]
  | allMessages ds => exact Hears.refl (answeredIn_publish_nil _ rfl)
  | currentTasks status =>
    simp only [receive]
    split
    · exact Hears.refl rfl
    · exact ⟨⟨rfl, rfl⟩, rfl, List.Sublist.refl _,
        fun _ _ => by rw [answeredIn_publish_nil _ rfl]; exact List.Perm.refl _⟩

theorem failPending_eq (c : Client) (err : BackendError) : c.failPending err =
    ({ c with pending := [] }, c.publish (c.tickets.map fun t => .answer t (.error err))) := by
  refine Prod.ext rfl (congrArg (fun ts => c.publish (List.map _ ts)) ?_)
  refine List.filterMap_congr (fun p _ => ?_)
  rcases p with ⟨_, _ | _⟩ <;> rfl

theorem failPending_hears (c : Client) (err : BackendError) :
    Hears c (c.failPending err).1 (c.failPending err).2 where
  live := ⟨rfl, rfl⟩
  nextSeq := rfl
  sublist := List.nil_sublist _
  balance hp _ := by
    have hall : answeredIn (c.tickets.map fun t => News.answer t (.error err)) = c.tickets := by
      rw [answeredIn, List.filterMap_map]
      exact List.filterMap_some
    rw [failPending_eq]
    simp only [publish, hp, if_true, hall]
    simp [tickets]

theorem hear_hears (c : Client) (a : Arrival) : Hears c (c.hear a).1 (c.hear a).2 := by
  by_cases hl : c.listening = true
  · cases a with
    | message value =>
      simp only [hear, hl, Bool.not_true, Bool.false_eq_true, if_false]
      cases Response.ofJson? value with
      | none => exact Hears.refl (answeredIn_publish_nil _ rfl)
      | some r => exact c.receive_hears r
    | failure err =>
      have hfailed : Hears c c (c.publish [.failure err]) :=
        Hears.refl (answeredIn_publish_nil _ rfl)
      simp only [hear, hl, Bool.not_true, Bool.false_eq_true, if_false]
      split
      · exact hfailed.trans (c.failPending_hears .disconnected)
      · exact hfailed
  · simp only [Bool.not_eq_true] at hl
    simp only [hear, hl, Bool.not_false, if_true]
    exact Hears.refl rfl

theorem hearAll_hears (c : Client) (arrivals : List Arrival) :
    Hears c (c.hearAll arrivals).1 (c.hearAll arrivals).2 := by
  induction arrivals generalizing c with
  | nil => exact Hears.refl rfl
  | cons a rest ih => exact (c.hear_hears a).trans (ih (c.hear a).1)

theorem mem_publish {n : News} {news : List News} (h : n ∈ c.publish news) : n ∈ news := by
  unfold publish at h
  split at h
  · exact h
  · cases h

theorem receive_answer {r : Response} {ticket : Ticket} {answer : Answer}
    (h : News.answer ticket answer ∈ (c.receive r).2) :
    ∃ seq, (seq, Purpose.info ticket) ∈ c.pending ∧ r.answer? seq = some answer := by
  cases r with
  | ok seq record =>
    have hp := fun purpose => @mem_of_close c seq purpose
    rcases hc : c.close seq with ⟨d, _ | ticket' | _⟩
    all_goals simp only [receive, hc] at h
    · cases h
    · cases List.mem_singleton.mp (mem_publish h)
      exact ⟨seq, hp _ (by rw [hc]), if_pos rfl⟩
    · cases h
  | error seq message =>
    cases seq with
    | none => cases List.mem_singleton.mp (mem_publish h)
    | some seq =>
      have hp := fun purpose => @mem_of_close c seq purpose
      rcases hc : c.close seq with ⟨d, _ | ticket' | _⟩
      all_goals
        simp only [receive, hc] at h
        have hm := List.mem_singleton.mp (mem_publish h)
      · cases hm
      · cases hm
        exact ⟨seq, hp _ (by rw [hc]), if_pos rfl⟩
      · cases hm
  | allMessages ds => cases List.mem_singleton.mp (mem_publish h)
  | currentTasks status =>
    simp only [receive] at h
    split at h
    · cases h
    · cases List.mem_singleton.mp (mem_publish h)

/-- Every answer is to an open fetch, and what arrived gives it. -/
theorem hear_answer {a : Arrival} {ticket : Ticket} {answer : Answer}
    (h : News.answer ticket answer ∈ (c.hear a).2) :
    ∃ seq, (seq, Purpose.info ticket) ∈ c.pending ∧ a.answer? seq = some answer := by
  by_cases hl : c.listening = true
  · simp only [hear, hl, Bool.not_true, Bool.false_eq_true, if_false] at h
    cases a with
    | message value =>
      cases hv : Response.ofJson? value with
      | none =>
        simp only [hv] at h
        cases List.mem_singleton.mp (mem_publish h)
      | some r =>
        simp only [hv] at h
        obtain ⟨seq, hp, hr⟩ := receive_answer h
        exact ⟨seq, hp, by rw [Arrival.answer?, hv, Option.bind_some, hr]⟩
    | failure err =>
      have hfailed : News.answer ticket answer ∉ c.publish [.failure err] := fun hm => by
        cases List.mem_singleton.mp (mem_publish hm)
      cases hf : isFinal err with
      | false =>
        simp only [hf, Bool.false_eq_true, if_false] at h
        exact absurd h hfailed
      | true =>
        simp only [hf, if_true] at h
        have hm := (List.mem_append.mp h).resolve_left hfailed
        rw [failPending_eq] at hm
        obtain ⟨t, ht, he⟩ := List.mem_map.mp (mem_publish hm)
        cases he
        obtain ⟨seq, hp⟩ := mem_tickets.mp ht
        exact ⟨seq, hp, if_pos hf⟩
  · simp only [Bool.not_eq_true] at hl
    simp only [hear, hl, Bool.not_false, if_true] at h
    cases h

theorem hearAll_answer {arrivals : List Arrival} {ticket : Ticket} {answer : Answer}
    (h : News.answer ticket answer ∈ (c.hearAll arrivals).2) :
    ∃ a ∈ arrivals, ∃ seq, (seq, Purpose.info ticket) ∈ c.pending ∧
      a.answer? seq = some answer := by
  induction arrivals generalizing c with
  | nil => cases h
  | cons a rest ih =>
    rcases List.mem_append.mp h with h | h
    · exact ⟨a, List.mem_cons_self, hear_answer h⟩
    · obtain ⟨b, hb, seq, hp, hr⟩ := ih h
      exact ⟨b, List.mem_cons_of_mem a hb, seq, (c.hear_hears a).sublist.subset hp, hr⟩

end Client

end ProofPanel
