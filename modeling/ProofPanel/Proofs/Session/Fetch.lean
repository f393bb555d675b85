import ProofPanel.Proofs.Session.Steps

/-!
# The fetch in a session

The engine's pending fetch is held once by the rest of the session: as an open request of the
client or as an answer in the queue. So the engine never waits for an answer that cannot come any
more, and no open fetch is one that the engine does not wait for.
-/
namespace ProofPanel

namespace Session

def held (s : Session) (ticket : Ticket) : Nat :=
  s.client.tickets.count ticket + (answeredIn s.queue).count ticket

def requests (s : Session) (syncs : Nat) : Nat := s.engine.nextTicket + syncs

structure Tied (s : Session) (syncs : Nat) : Prop where
  publishing : s.publishing = true ∧ s.client.publishing = true
  sound : s.engine.Sound
  numbered : s.client.Numbered (s.requests syncs)
  issued : ∀ ticket, s.engine.pendingTicket? = some ticket ∨ ticket ∈ answeredIn s.queue →
    ticket < s.engine.nextTicket
  owned : ∀ ticket ∈ s.client.tickets, s.engine.pendingTicket? = some ticket
  once : ∀ ticket, s.engine.pendingTicket? = some ticket → s.held ticket ≤ 1
  kept : s.requests syncs < UInt64.size →
    ∀ ticket, s.engine.pendingTicket? = some ticket → s.held ticket = 1

variable {s t : Session} {syncs : Nat}

theorem Tied.tickets_nil (h : s.Tied syncs) (hp : s.engine.pending = none) :
    s.client.tickets = [] := by
  refine List.eq_nil_iff_forall_not_mem.mpr (fun ticket hm => ?_)
  exact Engine.pendingTicket?_ne hp ticket (h.owned ticket hm)

theorem Tied.relieved_tickets (h : s.Tied syncs) : s.relieved.tickets = [] := by
  cases hp : s.engine.pending with
  | none =>
    rw [relieved, hp]
    exact h.tickets_nil hp
  | some fetch =>
    rw [relieved, hp]
    refine Client.cancel_tickets (fun ticket hm => ?_)
    have ho := h.owned ticket hm
    rw [Engine.pendingTicket?_some hp] at ho
    cases ho
    rfl

theorem relieved_keeps (s : Session) : s.relieved.publishing = s.client.publishing ∧
    s.relieved.nextSeq = s.client.nextSeq ∧ s.relieved.pending.Sublist s.client.pending := by
  cases hp : s.engine.pending with
  | none =>
    rw [relieved, hp]
    exact ⟨rfl, rfl, List.Sublist.refl _⟩
  | some fetch =>
    rw [relieved, hp]
    exact ⟨rfl, rfl, s.client.cancel_sublist fetch.ticket⟩

theorem Tied.relieved_numbered (h : s.Tied syncs) :
    s.relieved.Numbered (s.requests syncs) :=
  h.numbered.sublist s.relieved_keeps.2.1 s.relieved_keeps.2.2

theorem Tied.askInfo_client (h : s.Tied syncs) (link : Json → Delivery) (ticket : Ticket)
    (l : Location) : (s.relieved.askInfo link ticket l).client.publishing = true ∧
      (s.relieved.askInfo link ticket l).client.Numbered (s.requests syncs + 1) := by
  have hlive := (s.relieved.ask_keeps link (.info ticket) (.info · l)).1.2
  exact ⟨hlive.trans (s.relieved_keeps.1.trans h.publishing.2), h.relieved_numbered.ask link _ _⟩

theorem Tied.count_next (h : s.Tied syncs) :
    (answeredIn s.queue).count s.engine.nextTicket = 0 := by
  refine List.count_eq_zero.mpr (fun hm => ?_)
  exact Nat.lt_irrefl _ (h.issued _ (Or.inr hm))

theorem Tied.issued_next (h : s.Tied syncs) {e : Engine}
    (next : e.nextTicket = s.engine.nextTicket + 1) {news : List News}
    (hnews : ∀ ticket ∈ answeredIn news, ticket = s.engine.nextTicket) :
    ∀ ticket ∈ answeredIn (s.queue ++ news), ticket < e.nextTicket := by
  have hlt : s.engine.nextTicket < e.nextTicket := next ▸ Nat.lt_succ_self _
  intro ticket hm
  rcases List.mem_append.mp (answeredIn_append s.queue news ▸ hm) with hq | hn
  · exact Nat.lt_trans (h.issued ticket (Or.inr hq)) hlt
  · rwa [hnews ticket hn]

/-! ## Steps -/

/-- News answer some of the fetches that are `still` open when they arrive and leave the others.
Those were open before, and all of them still are while there are numbers left. -/
theorem Tied.heard {c : Client} {news : List News} {k : Nat} (still : List Ticket)
    (h : s.Tied syncs) (hpub : c.publishing = true)
    (hnum : c.Numbered (s.requests (syncs + k)))
    (hsub : still.Sublist s.client.tickets) (hb : still.Perm (answeredIn news ++ c.tickets))
    (hall : s.requests (syncs + k) < UInt64.size → still = s.client.tickets) :
    Tied { s with client := c, queue := s.queue ++ news } (syncs + k) := by
  have hown : ∀ ticket ∈ answeredIn news ++ c.tickets, ticket ∈ s.client.tickets :=
    fun ticket hm => hsub.subset (hb.symm.subset hm)
  have hheld : ∀ ticket, held { s with client := c, queue := s.queue ++ news } ticket =
      still.count ticket + (answeredIn s.queue).count ticket := by
    intro ticket
    have hcount := hb.count_eq ticket
    rw [List.count_append] at hcount
    simp only [held, answeredIn_append, List.count_append]
    omega
  refine ⟨⟨h.publishing.1, hpub⟩, h.sound, hnum, ?_, ?_, ?_, ?_⟩
  · rintro ticket (hp | hm)
    · exact h.issued ticket (Or.inl hp)
    · rcases List.mem_append.mp (answeredIn_append s.queue news ▸ hm) with hq | hn
      · exact h.issued ticket (Or.inr hq)
      · have hc := h.owned ticket (hown ticket (List.mem_append_left _ hn))
        exact h.issued ticket (Or.inl hc)
  · intro ticket hm
    exact h.owned ticket (hown ticket (List.mem_append_right _ hm))
  · intro ticket hp
    have hle := hsub.count_le ticket
    have honce := h.once ticket hp
    rw [held] at honce
    rw [hheld]
    omega
  · intro hr ticket hp
    have hbefore : s.requests syncs < UInt64.size := by
      simp only [requests] at hr ⊢
      omega
    rw [hheld, hall hr]
    exact h.kept hbefore ticket hp

theorem Tied.hear (h : s.Tied syncs) (arrivals : List Arrival) :
    (s.hear arrivals).Tied syncs := by
  have hh := s.client.hearAll_hears arrivals
  have hnum := h.numbered.sublist hh.nextSeq hh.sublist
  rw [hear_eq h.publishing.1]
  exact h.heard (k := 0) s.client.tickets (hh.live.2.trans h.publishing.2) hnum
    (List.Sublist.refl _) (hh.balance h.publishing.2 h.numbered.distinct) (fun _ => rfl)

theorem Tied.sync (h : s.Tied syncs) (link : Json → Delivery) (fileName content : String) :
    (s.sync link fileName content).1.Tied (syncs + 1) := by
  have hkeeps := s.client.ask_keeps link .sync (.sync · fileName content)
  have hnum : (s.client.askSync link fileName content).client.Numbered
      (s.requests (syncs + 1)) := h.numbered.ask link .sync _
  rw [sync_eq h.publishing.1]
  -- The sync closes an open fetch only if it was given that fetch's number, the last one, again.
  refine h.heard (k := 1) (s.client.close s.client.nextSeq).1.tickets
    (hkeeps.1.2.trans h.publishing.2) hnum (List.filter_sublist.filterMap _)
    (s.client.askSync_balance h.publishing.2 h.numbered.distinct) (fun hr => ?_)
  rw [Client.close_eq_self (h.numbered.fresh hr)]

theorem Tied.taken (h : s.Tied syncs) {link : Json → Delivery} {e : Engine} {l : Location}
    {reasons : Reasons} (due : e.due? = some l) (next : e.nextTicket = s.engine.nextTicket + 1)
    {seq : Nat} (ho : (s.relieved.askInfo link s.engine.nextTicket l).outcome = .ok seq) :
    Tied { (s.ask (s.relieved.askInfo link s.engine.nextTicket l)).1 with
      engine := { e with pending := some ⟨s.engine.nextTicket, reasons⟩ } } syncs := by
  have hpub : s.relieved.publishing = true := s.relieved_keeps.1.trans h.publishing.2
  obtain ⟨hlive, hnum⟩ := h.askInfo_client link s.engine.nextTicket l
  have hb := Client.askInfo_taken hpub h.relieved_numbered.distinct h.relieved_tickets ho
  rw [ask_eq h.publishing.1]
  generalize s.relieved.askInfo link s.engine.nextTicket l = asked at ho hb hnum hlive ⊢
  have hown : ∀ ticket ∈ answeredIn asked.news ++ asked.client.tickets,
      ticket = s.engine.nextTicket :=
    fun ticket hm => List.mem_singleton.mp (hb.symm.subset hm)
  have hheld : held { s with
      engine := { e with pending := some ⟨s.engine.nextTicket, reasons⟩ }
      client := asked.client
      queue := s.queue ++ asked.news } s.engine.nextTicket = 1 := by
    have hcount := hb.count_eq s.engine.nextTicket
    rw [List.count_append, List.count_singleton_self] at hcount
    have hnone := h.count_next
    simp only [held, answeredIn_append, List.count_append]
    omega
  have hpend : ∀ ticket, Engine.pendingTicket?
      { e with pending := some ⟨s.engine.nextTicket, reasons⟩ } = some ticket →
        ticket = s.engine.nextTicket := fun ticket hp => (Option.some.inj hp).symm
  refine ⟨⟨h.publishing.1, hlive⟩, fun f _ => ⟨l, due⟩, ?_, ?_, ?_, ?_, ?_⟩
  · simpa only [requests, next, Nat.add_right_comm] using hnum
  · rintro ticket (hp | hm)
    · rw [hpend ticket hp]
      exact next ▸ Nat.lt_succ_self _
    · exact h.issued_next next (fun t ht => hown t (List.mem_append_left _ ht)) ticket hm
  · intro ticket hm
    rw [hown ticket (List.mem_append_right _ hm)]
    rfl
  · intro ticket hp
    rw [hpend ticket hp]
    exact Nat.le_of_eq hheld
  · intro _ ticket hp
    rw [hpend ticket hp, hheld]

theorem tied_of_idle (publishing : s.publishing = true ∧ s.client.publishing = true)
    (numbered : s.client.Numbered (s.requests syncs))
    (issued : ∀ ticket ∈ answeredIn s.queue, ticket < s.engine.nextTicket)
    (pending : s.engine.pending = none) (tickets : s.client.tickets = []) : s.Tied syncs := by
  have hidle := Engine.pendingTicket?_ne pending
  refine ⟨publishing, Engine.sound_of_idle pending, numbered, ?_, ?_, ?_, ?_⟩
  · rintro ticket (hp | hm)
    · exact absurd hp (hidle ticket)
    · exact issued ticket hm
  · intro ticket hm
    rw [tickets] at hm
    cases hm
  · exact fun ticket hp => absurd hp (hidle ticket)
  · exact fun _ ticket hp => absurd hp (hidle ticket)

theorem Tied.refused (h : s.Tied syncs) {link : Json → Delivery} {e : Engine} {l : Location}
    (pending : e.pending = none) (next : e.nextTicket = s.engine.nextTicket + 1)
    {err : BackendError}
    (ho : (s.relieved.askInfo link s.engine.nextTicket l).outcome = .error err) :
    Tied { (s.ask (s.relieved.askInfo link s.engine.nextTicket l)).1 with engine := e } syncs := by
  obtain ⟨hlive, hnum⟩ := h.askInfo_client link s.engine.nextTicket l
  have hnews : ∀ ticket ∈ answeredIn (s.relieved.askInfo link s.engine.nextTicket l).news,
      ticket = s.engine.nextTicket := Client.askInfo_answered h.relieved_tickets
  rw [ask_eq h.publishing.1]
  refine tied_of_idle ⟨h.publishing.1, hlive⟩ ?_ (h.issued_next next hnews) pending
    (Client.askInfo_refused h.relieved_tickets ho)
  simpa only [requests, next, Nat.add_right_comm] using hnum

theorem Tied.giveUp (h : s.Tied syncs) {e : Engine} {fetch : Fetch}
    (was : s.engine.pending = some fetch) (pending : e.pending = none)
    (next : e.nextTicket = s.engine.nextTicket) :
    Tied { s with engine := e, client := s.client.cancel fetch.ticket } syncs := by
  have hrelieved : s.client.cancel fetch.ticket = s.relieved := by rw [relieved, was]
  rw [hrelieved]
  refine tied_of_idle ⟨h.publishing.1, s.relieved_keeps.1.trans h.publishing.2⟩ ?_ ?_ pending
    h.relieved_tickets
  · simpa only [requests, next] using h.relieved_numbered
  · intro ticket hm
    rw [next]
    exact h.issued ticket (Or.inr hm)

/-- The answer in the queue is all that was held of the fetch. -/
theorem Tied.answer (h : s.Tied syncs) {e : Engine} {ticket : Ticket} {answer : Answer}
    {rest : List News} (queue : s.queue = .answer ticket answer :: rest)
    (was : s.engine.pendingTicket? = some ticket) (pending : e.pending = none)
    (next : e.nextTicket = s.engine.nextTicket) :
    Tied { s with engine := e, queue := rest } syncs := by
  have hqueue : answeredIn s.queue = ticket :: answeredIn rest := by
    rw [queue]
    rfl
  refine tied_of_idle h.publishing ?_ ?_ pending ?_
  · simpa only [requests, next] using h.numbered
  · intro t hm
    rw [next]
    exact h.issued t (Or.inr (hqueue ▸ List.mem_cons_of_mem ticket hm))
  · -- An open request for the same fetch would be a second trace of it.
    have honce := h.once ticket was
    rw [held, hqueue, List.count_cons_self] at honce
    refine List.eq_nil_iff_forall_not_mem.mpr (fun t hm => ?_)
    have ht : t = ticket := Option.some.inj ((h.owned t hm).symm.trans was)
    rw [ht] at hm
    have hpos : 0 < s.client.tickets.count ticket := List.count_pos_iff.mpr hm
    omega

theorem Tied.drop (h : s.Tied syncs) {news : News} {rest : List News}
    (queue : s.queue = news :: rest)
    (other : ∀ ticket, s.engine.pendingTicket? = some ticket → news.ticket? ≠ some ticket) :
    Tied { s with queue := rest } syncs := by
  have hheld : ∀ ticket, s.engine.pendingTicket? = some ticket →
      held { s with queue := rest } ticket = s.held ticket := by
    intro ticket hp
    have hne := other ticket hp
    have hqueue : (answeredIn s.queue).count ticket = (answeredIn rest).count ticket := by
      rw [queue]
      cases ht : news.ticket? with
      | none => rw [answeredIn, List.filterMap_cons_none ht, answeredIn]
      | some t =>
        have hnt : t ≠ ticket := by
          rintro rfl
          exact hne ht
        rw [answeredIn, List.filterMap_cons_some ht, List.count_cons_of_ne hnt, answeredIn]
    simp only [held, hqueue]
  refine ⟨h.publishing, h.sound, h.numbered, ?_, h.owned, ?_, ?_⟩
  · rintro ticket (hp | hm)
    · exact h.issued ticket (Or.inl hp)
    · have hsub : rest ⊆ s.queue := queue ▸ List.subset_cons_self news rest
      obtain ⟨answer, ha⟩ := mem_answeredIn.mp hm
      exact h.issued ticket (Or.inr (mem_answeredIn.mpr ⟨answer, hsub ha⟩))
  · intro ticket hp
    rw [hheld ticket hp]
    exact h.once ticket hp
  · intro hr ticket hp
    rw [hheld ticket hp]
    exact h.kept hr ticket hp

theorem Tied.keep (h : s.Tied syncs) {e : Engine} (sound : e.Sound)
    (pending : e.pending = s.engine.pending) (next : e.nextTicket = s.engine.nextTicket) :
    Tied { s with engine := e } syncs := by
  have hp : e.pendingTicket? = s.engine.pendingTicket? := by
    rw [Engine.pendingTicket?, pending, Engine.pendingTicket?]
  refine ⟨h.publishing, sound, ?_, ?_, ?_, ?_, ?_⟩
  · simpa only [requests, next] using h.numbered
  · simpa only [hp, next] using h.issued
  · simpa only [hp] using h.owned
  · intro ticket ht
    exact h.once ticket (hp ▸ ht)
  · intro hr ticket ht
    rw [requests, next] at hr
    exact h.kept hr ticket (hp ▸ ht)

theorem Step.tied {link : Json → Delivery} {sent : List Json} (hs : Step link s sent t)
    (h : s.Tied syncs) : t.Tied syncs := by
  have hsound := hs.sound h.sound
  cases hs with
  | keep e pending next => exact h.keep hsound pending next
  | giveUp e fetch was pending next => exact h.giveUp was pending next
  | taken e l reasons due next asked made seq outcome =>
    subst made
    exact h.taken due next outcome
  | refused e l pending next asked made err outcome =>
    subst made
    exact h.refused pending next outcome
  | drop news rest queue other => exact h.drop queue other
  | answer e ticket answer rest queue was pending next => exact h.answer queue was pending next

theorem Steps.tied {link : Json → Delivery} {sent : List Json} (hs : Steps link s sent t)
    (h : s.Tied syncs) : t.Tied syncs := by
  induction hs with
  | refl => exact h
  | head first _ ih => exact ih (first.tied h)

/-! ## Runs -/

theorem Tied.move (h : s.Tied syncs) {m : Move} (ho : m.act.isOrdinary = true) :
    (s.move m).1.Tied (syncs + if m.act.isSync then 1 else 0) := by
  cases hs : m.act.isSync with
  | false => exact (move_steps (s := s) h.sound ho hs).tied (h.hear m.act.arrivals)
  | true =>
    rcases m with ⟨act, cursor, link⟩
    cases act with
    | sync fileName content => exact h.sync link fileName content
    | _ => cases hs

theorem tied_init (selector : Selector) (assets : Assets) : (init selector assets).Tied 0 := by
  refine tied_of_idle ⟨rfl, rfl⟩ ⟨List.nodup_nil, rfl, ?_⟩ ?_ rfl rfl
  all_goals
    intro x hx
    cases hx

theorem run_tied (selector : Selector) (assets : Assets) {moves : List Move}
    (h : ∀ m ∈ moves, m.act.isOrdinary = true) :
    (run move (init selector assets) moves).1.Tied (moves.countP (·.act.isSync)) := by
  have halong : Along move (fun _ _ m => m.act.isOrdinary = true) (init selector assets) [] moves :=
    along_of_forall (fun m hm _ _ => h m hm) _ _
  refine run_induction
    (motive := fun before (s : Session) _ => s.Tied (before.countP (·.act.isSync))) ?_
    (tied_init selector assets) halong
  intro before s _ m hs hm
  rw [List.countP_append, List.countP_singleton]
  exact hs.move hm

theorem Tied.tickets_le_one (h : s.Tied syncs) : s.client.tickets.length ≤ 1 := by
  cases ht : s.client.tickets with
  | nil => exact Nat.zero_le 1
  | cons ticket rest =>
    have hmem : ticket ∈ s.client.tickets := ht ▸ List.mem_cons_self
    have hall : ∀ other ∈ s.client.tickets, ticket = other := fun other ho =>
      Option.some.inj ((h.owned ticket hmem).symm.trans (h.owned other ho))
    have hcount : s.client.tickets.count ticket = s.client.tickets.length :=
      List.count_eq_length.mpr hall
    have honce := h.once ticket (h.owned ticket hmem)
    rw [held] at honce
    rw [← ht]
    omega

/-- After any run of an undisposed session, whatever arrives and whatever the link refuses, the
client has at most one fetch open, the one that the engine waits for; and a fetch that the engine
waits for is held once. Only a run that makes more requests than there are numbers could reuse the
number of an open fetch and lose it. -/
theorem run_fetch_held (selector : Selector) (assets : Assets) (moves : List Move)
    (h : ∀ m ∈ moves, m.act.isOrdinary = true) :
    let s := (run move (init selector assets) moves).1
    s.client.tickets.length ≤ 1 ∧
      (∀ ticket ∈ s.client.tickets, s.engine.pendingTicket? = some ticket) ∧
      ∀ ticket, s.engine.pendingTicket? = some ticket →
        s.held ticket ≤ 1 ∧
          (s.requests (moves.countP (·.act.isSync)) < UInt64.size → s.held ticket = 1) := by
  intro s
  have ht : s.Tied (moves.countP (·.act.isSync)) := run_tied selector assets h
  exact ⟨ht.tickets_le_one, ht.owned, fun ticket hp =>
    ⟨ht.once ticket hp, fun hr => ht.kept hr ticket hp⟩⟩

/-- A fetch is superseded by one whose request takes the link down, so its answer waits in the
queue behind a refused sync. -/
theorem run_fetch_held_disconnected :
    let cursor : Option Cursor := some ⟨"/a.lean", "lean", ⟨2, 4⟩⟩
    let moves : List Move :=
      [{ act := .trigger (.setMode .onlyState), cursor },
        { act := .sync "/a.lean" "", link := fun _ => { outcome := .error (.io "broken") } },
        { act := .trigger .refresh, cursor, link := fun _ => { arrivals := [.failure .disposed] } }]
    let s := (run move (init {} {}) moves).1
    (∀ m ∈ moves, m.act.isOrdinary = true) ∧ s.engine.pendingTicket? = some 1 ∧
      s.client.tickets = [] ∧ s.held 1 = 1 := by
  intro cursor moves s
  have h : ∀ m ∈ moves, m.act.isOrdinary = true := by simp [moves, Act.isOrdinary]
  have hp : s.engine.pendingTicket? = some 1 := by
    unfold s moves cursor
    decide +kernel
  have ht : s.client.tickets = [] := by
    unfold s moves cursor
    decide +kernel
  have hr : s.requests (moves.countP (·.act.isSync)) < UInt64.size := by
    unfold s moves cursor
    decide +kernel
  exact ⟨h, hp, ht, ((run_fetch_held {} {} moves h).2.2 1 hp).2 hr⟩

end Session

end ProofPanel
