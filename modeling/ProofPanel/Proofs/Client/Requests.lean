import ProofPanel.Proofs.Client.Fetches

/-!
# The requests of the client

A request adds its own number and purpose to the open ones. A fetch that the link takes is open or
answered afterwards, one that it refuses leaves nothing behind, and a sync leaves the fetches alone
as long as there are numbers left.
-/
namespace ProofPanel

namespace Client

variable {c : Client}

def opened (c : Client) (purpose : Purpose) : Client :=
  { (c.close c.nextSeq).1 with
    nextSeq := min (c.nextSeq + 1) maxSeq
    pending := (c.close c.nextSeq).1.pending ++ [(c.nextSeq, purpose)] }

theorem mem_opened {purpose : Purpose} {p : Nat × Purpose} :
    p ∈ (c.opened purpose).pending ↔
      p ∈ c.pending ∧ p.1 ≠ c.nextSeq ∨ p = (c.nextSeq, purpose) := by
  simp [opened, close_pending]

theorem eq_of_mem_opened (hn : c.tickets = []) {ticket t : Ticket} {seq : Nat}
    (h : (seq, Purpose.info t) ∈ (c.opened (.info ticket)).pending) :
    seq = c.nextSeq ∧ t = ticket := by
  rcases mem_opened.mp h with ⟨hold, _⟩ | hnew
  · have hmem : t ∈ c.tickets := mem_tickets.mpr ⟨seq, hold⟩
    rw [hn] at hmem
    cases hmem
  · cases hnew
    exact ⟨rfl, rfl⟩

theorem tickets_opened (c : Client) (purpose : Purpose) :
    (c.opened purpose).tickets = (c.close c.nextSeq).1.tickets ++ purpose.ticket?.toList := by
  rw [tickets, opened, List.filterMap_append]
  cases purpose <;> rfl

theorem Distinct.opened (hd : c.Distinct) (purpose : Purpose) : (c.opened purpose).Distinct := by
  have hclosed : ((c.close c.nextSeq).1.pending.map Prod.fst).Nodup :=
    hd.sublist List.filter_sublist
  have hnew : c.nextSeq ∉ (c.close c.nextSeq).1.pending.map Prod.fst := by
    simp [close_pending]
  rw [Distinct, Client.opened, List.map_append]
  exact List.nodup_append.mpr ⟨hclosed, List.pairwise_singleton _ _, fun a ha b hb => by
    rw [List.mem_singleton.mp hb]
    rintro rfl
    exact hnew ha⟩

/-- The link takes the value, or it refuses it and the request is closed again. What arrives
meanwhile is heard either way. -/
theorem ask_cases (c : Client) (link : Json → Delivery) (purpose : Purpose)
    (request : Nat → Request) :
    ∃ d news, (c.opened purpose).hearAll (link (request c.nextSeq).toJson).arrivals = (d, news) ∧
      Hears (c.opened purpose) d news ∧
      (((link (request c.nextSeq).toJson).outcome = .ok () ∧
          c.ask link purpose request =
            ⟨d, some (request c.nextSeq).toJson, news, .ok c.nextSeq⟩) ∨
        ∃ err, (link (request c.nextSeq).toJson).outcome = .error err ∧
          c.ask link purpose request =
            ⟨(d.close c.nextSeq).1, none, news, .error (refusalOf err)⟩) := by
  refine ⟨_, _, rfl, hearAll_hears _ _, ?_⟩
  cases ho : (link (request c.nextSeq).toJson).outcome with
  | ok _ =>
    left
    refine ⟨rfl, ?_⟩
    simp only [ask, ho]
    rfl
  | error err =>
    right
    refine ⟨err, rfl, ?_⟩
    simp only [ask, ho]
    rfl

theorem ask_taken {link : Json → Delivery} (purpose : Purpose) {request : Nat → Request}
    (ho : (link (request c.nextSeq).toJson).outcome = .ok ()) :
    (c.ask link purpose request).sent = some (request c.nextSeq).toJson ∧
      (c.ask link purpose request).outcome = .ok c.nextSeq := by
  obtain ⟨_, _, _, _, ⟨_, ha⟩ | ⟨err, he, _⟩⟩ := c.ask_cases link purpose request
  · rw [ha]
    exact ⟨rfl, rfl⟩
  · rw [ho] at he
    cases he

theorem ask_keeps (c : Client) (link : Json → Delivery) (purpose : Purpose)
    (request : Nat → Request) :
    let d := (c.ask link purpose request).client
    (d.listening = c.listening ∧ d.publishing = c.publishing) ∧
      d.nextSeq = min (c.nextSeq + 1) maxSeq ∧
      d.pending.Sublist (c.opened purpose).pending := by
  obtain ⟨d, news, _, hh, ⟨_, ha⟩ | ⟨_, _, ha⟩⟩ := c.ask_cases link purpose request
  · rw [ha]
    exact ⟨hh.live, hh.nextSeq, hh.sublist⟩
  · rw [ha]
    exact ⟨hh.live, hh.nextSeq, List.filter_sublist.trans hh.sublist⟩

/-- What is answered while a request is made was open then. -/
theorem ask_answered {link : Json → Delivery} {purpose : Purpose} {request : Nat → Request}
    {ticket : Ticket} {answer : Answer}
    (h : News.answer ticket answer ∈ (c.ask link purpose request).news) :
    ∃ a ∈ (link (request c.nextSeq).toJson).arrivals, ∃ seq,
      (seq, Purpose.info ticket) ∈ (c.opened purpose).pending ∧ a.answer? seq = some answer := by
  obtain ⟨d, news, hheard, _, ⟨_, ha⟩ | ⟨_, _, ha⟩⟩ := c.ask_cases link purpose request
  all_goals
    rw [ha] at h
    apply hearAll_answer
    rw [hheard]
    exact h

/-- A fetch that the link takes is open afterwards or has been answered meanwhile, once. -/
theorem askInfo_taken {link : Json → Delivery} {ticket : Ticket} {l : Location} {seq : Nat}
    (hp : c.publishing = true) (hd : c.Distinct) (hn : c.tickets = [])
    (ho : (c.askInfo link ticket l).outcome = .ok seq) :
    [ticket].Perm (answeredIn (c.askInfo link ticket l).news ++
      (c.askInfo link ticket l).client.tickets) := by
  have hopened : (c.opened (.info ticket)).tickets = [ticket] := by
    have hclosed : (c.close c.nextSeq).1.tickets = [] :=
      List.sublist_nil.mp (hn ▸ (List.filter_sublist.filterMap _))
    rw [tickets_opened, hclosed]
    rfl
  obtain ⟨d, news, _, hh, ⟨_, ha⟩ | ⟨_, _, ha⟩⟩ := c.ask_cases link (.info ticket) (.info · l)
  · have hb := hh.balance hp (hd.opened _)
    rw [hopened] at hb
    simpa only [askInfo, ha] using hb
  · rw [askInfo, ha] at ho
    cases ho

theorem askInfo_answered {link : Json → Delivery} {ticket : Ticket} {l : Location}
    (hn : c.tickets = []) : ∀ t ∈ answeredIn (c.askInfo link ticket l).news, t = ticket := by
  intro t ht
  obtain ⟨answer, hm⟩ := mem_answeredIn.mp ht
  obtain ⟨_, _, seq, hp, _⟩ := ask_answered hm
  exact (eq_of_mem_opened hn hp).2

theorem askInfo_refused {link : Json → Delivery} {ticket : Ticket} {l : Location}
    {err : BackendError} (hn : c.tickets = [])
    (ho : (c.askInfo link ticket l).outcome = .error err) :
    (c.askInfo link ticket l).client.tickets = [] := by
  -- The refused request was the only fetch, and it is closed by its number.
  refine List.eq_nil_iff_forall_not_mem.mpr (fun t ht => ?_)
  obtain ⟨d, news, _, hh, ⟨_, ha⟩ | ⟨_, _, ha⟩⟩ := c.ask_cases link (.info ticket) (.info · l)
  · rw [askInfo, ha] at ho
    cases ho
  · rw [askInfo, ha] at ht
    obtain ⟨seq, hm⟩ := mem_tickets.mp ht
    obtain ⟨hm, hne⟩ := List.mem_filter.mp hm
    have hseq := (eq_of_mem_opened hn (hh.sublist.subset hm)).1
    simp [hseq] at hne

/-- A sync touches no fetch but one that has its number. -/
theorem askSync_balance {link : Json → Delivery} {fileName content : String}
    (hp : c.publishing = true) (hd : c.Distinct) :
    (c.close c.nextSeq).1.tickets.Perm (answeredIn (c.askSync link fileName content).news ++
      (c.askSync link fileName content).client.tickets) := by
  have hopened : (c.opened .sync).tickets = (c.close c.nextSeq).1.tickets := by
    rw [tickets_opened]
    exact List.append_nil _
  obtain ⟨d, news, _, hh, hc⟩ := c.ask_cases link .sync (.sync · fileName content)
  have hb := hh.balance hp (hd.opened _)
  rw [hopened] at hb
  rcases hc with ⟨_, ha⟩ | ⟨_, _, ha⟩
  · simpa only [askSync, ha] using hb
  · -- The refused request is no fetch, so closing it answers none.
    have hnone : (d.close c.nextSeq).2.bind Purpose.ticket? = none := by
      cases hc : (d.close c.nextSeq).2 with
      | none => rfl
      | some purpose =>
        rcases mem_opened.mp (hh.sublist.subset (mem_of_close hc)) with ⟨_, hne⟩ | hnew
        · exact absurd rfl hne
        · cases hnew
          rfl
    have hclose := close_perm ((hd.opened _).sublist hh.sublist) c.nextSeq
    rw [hnone] at hclose
    simp only [askSync, ha]
    exact hb.trans (hclose.append_left _)

/-! ## Forgetting a fetch -/

theorem cancel_sublist (c : Client) (ticket : Ticket) :
    (c.cancel ticket).pending.Sublist c.pending := List.filter_sublist

theorem cancel_tickets (h : ∀ t ∈ c.tickets, t = ticket) : (c.cancel ticket).tickets = [] := by
  refine List.eq_nil_iff_forall_not_mem.mpr (fun t ht => ?_)
  obtain ⟨seq, hm⟩ := mem_tickets.mp ht
  obtain ⟨hm, hne⟩ := List.mem_filter.mp hm
  rw [h t (mem_tickets.mpr ⟨seq, hm⟩)] at hne
  simp at hne

/-! ## Numbers -/

structure Numbered (c : Client) (requests : Nat) : Prop where
  distinct : c.Distinct
  nextSeq : c.nextSeq = min (requests + 1) maxSeq
  given : ∀ p ∈ c.pending, p.1 ≤ requests

theorem Numbered.sublist {d : Client} {requests : Nat} (h : c.Numbered requests)
    (hs : d.nextSeq = c.nextSeq) (hp : d.pending.Sublist c.pending) : d.Numbered requests where
  distinct := h.distinct.sublist hp
  nextSeq := hs.trans h.nextSeq
  given p hm := h.given p (hp.subset hm)

theorem Numbered.ask {requests : Nat} (h : c.Numbered requests) (link : Json → Delivery)
    (purpose : Purpose) (request : Nat → Request) :
    (c.ask link purpose request).client.Numbered (requests + 1) := by
  obtain ⟨_, hnext, hsub⟩ := c.ask_keeps link purpose request
  refine ⟨(h.distinct.opened purpose).sublist hsub, ?_, fun p hp => ?_⟩
  · rw [hnext, h.nextSeq]
    omega
  · have hseq := h.nextSeq
    rcases mem_opened.mp (hsub.subset hp) with ⟨hold, _⟩ | hnew
    · have := h.given p hold
      omega
    · rw [hnew]
      omega

/-- The numbers are given once each until they run out. -/
theorem Numbered.fresh {requests : Nat} (h : c.Numbered requests)
    (hr : requests + 1 < UInt64.size) : ∀ p ∈ c.pending, p.1 ≠ c.nextSeq := by
  intro p hp he
  have hgiven := h.given p hp
  rw [he, h.nextSeq, maxSeq] at hgiven
  omega

end Client

end ProofPanel
