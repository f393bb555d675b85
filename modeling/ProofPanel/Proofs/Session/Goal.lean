import ProofPanel.Proofs.Session.Fetch

/-!
# The goal in a session

The backend knows something about each place. If it answers every fetch with what it knows where
that fetch was made, late or twice or never, and the link loses nothing, then an engine that waits
for no fetch shows the goal of its own location.
-/
namespace ProofPanel

/-- What a backend lets arrive that knows `f` and has been sent these values: notifications, and
for a fetch what it knows there, but no errors. -/
def Honest (f : Location → Option Record) (sent : List Json) : Arrival → Prop
  | .message value =>
    match Response.ofJson? value with
    | some (.ok seq record) => ∀ l, (Request.info seq l).toJson ∈ sent → record = f l
    | some (.error _ _) => False
    | _ => True
  | .failure _ => False

def HonestWhile (f : Location → Option Record) (link : Json → Delivery) (past : List Json) :
    List Json → Prop
  | [] => True
  | value :: rest =>
    (∀ a ∈ (link value).arrivals, Honest f (past ++ [value]) a) ∧
      HonestWhile f link (past ++ [value]) rest

variable {f : Location → Option Record} {link : Json → Delivery} {past sent more : List Json}

theorem Honest.answer {a : Arrival} (h : Honest f sent a) {seq : Nat} {answer : Answer}
    (ha : a.answer? seq = some answer) {l : Location}
    (hl : (Request.info seq l).toJson ∈ sent) : answer = .ok (f l) := by
  cases a with
  | failure err => cases h
  | message value =>
    cases hv : Response.ofJson? value with
    | none =>
      rw [Arrival.answer?, hv] at ha
      cases ha
    | some r =>
      rw [Honest, hv] at h
      rw [Arrival.answer?, hv, Option.bind_some] at ha
      cases r with
      | ok n record =>
        rw [Response.answer?] at ha
        split at ha
        · rename_i hn
          cases ha
          rw [h l (hn ▸ hl)]
        · cases ha
      | error n message => cases h
      | allMessages ds => cases ha
      | currentTasks status => cases ha

theorem honestWhile_append :
    HonestWhile f link past (sent ++ more) ↔
      HonestWhile f link past sent ∧ HonestWhile f link (past ++ sent) more := by
  induction sent generalizing past with
  | nil => simp [HonestWhile]
  | cons value rest ih =>
    simp only [List.cons_append, HonestWhile, ih, and_assoc, List.append_assoc, List.nil_append]

theorem honestWhile_of_silent (h : ∀ value, (link value).arrivals = []) :
    HonestWhile f link past sent := by
  induction sent generalizing past with
  | nil => trivial
  | cons value rest ih =>
    refine ⟨fun a ha => ?_, ih⟩
    rw [h value] at ha
    cases ha

/-- The value that is sent for a fetch tells its number and its place. -/
theorem Request.ofJson?_info (seq : Nat) (l : Location) :
    Request.ofJson? (Request.info seq l).toJson = some (.info seq l) := rfl

namespace Session

structure Faithful (f : Location → Option Record) (s : Session) (past : List SessionEffect)
    (m : Move) : Prop where
  ordinary : m.act.isOrdinary = true
  arrivals : ∀ a ∈ m.act.arrivals, Honest f (sentIn past) a
  takes : ∀ value, (m.link value).outcome = .ok ()
  meanwhile : HonestWhile f m.link (sentIn past) (sentIn (s.move m).2)

/-- Open fetches were sent for where the goal is due, their answers in the queue are what the
backend knows there, and so is the goal when no fetch is pending. -/
structure Backed (f : Location → Option Record) (s : Session) (sent : List Json) : Prop where
  asked : ∀ seq ticket, (seq, Purpose.info ticket) ∈ s.client.pending →
    ∃ l, s.engine.due? = some l ∧ (Request.info seq l).toJson ∈ sent
  queued : ∀ ticket answer, News.answer ticket answer ∈ s.queue →
    s.engine.pendingTicket? = some ticket →
      ∃ l, s.engine.due? = some l ∧ answer = .ok (f l)
  shown : s.engine.pending = none → ∀ l, s.engine.due? = some l →
    s.engine.view.goal = (f l).bind Record.goal?

variable {s t : Session} {syncs : Nat}

theorem backed_of_idle (h : s.Tied syncs) (hp : s.engine.pending = none)
    (hg : ∀ l, s.engine.due? = some l → s.engine.view.goal = (f l).bind Record.goal?) :
    s.Backed f sent where
  asked seq ticket hm := by
    have hticket := Client.mem_tickets.mpr ⟨seq, hm⟩
    rw [h.tickets_nil hp] at hticket
    cases hticket
  queued ticket _ _ ht := absurd ht (Engine.pendingTicket?_ne hp ticket)
  shown _ := hg

/-- The client hears honest news while it makes a request or none, and no fetch is added. -/
theorem Backed.heard (h : s.Backed f sent) {c : Client} {news : List News}
    {arrivals : List Arrival} (hsent : sent ⊆ more) (hh : ∀ a ∈ arrivals, Honest f more a)
    (hold : ∀ seq ticket, (seq, Purpose.info ticket) ∈ c.pending →
      (seq, Purpose.info ticket) ∈ s.client.pending)
    (hnew : ∀ ticket answer, News.answer ticket answer ∈ news →
      ∃ a ∈ arrivals, ∃ seq, (seq, Purpose.info ticket) ∈ s.client.pending ∧
        a.answer? seq = some answer) :
    Backed f { s with client := c, queue := s.queue ++ news } more where
  asked seq ticket hm := by
    obtain ⟨l, hl, hs⟩ := h.asked seq ticket (hold seq ticket hm)
    exact ⟨l, hl, hsent hs⟩
  queued ticket answer hm ht := by
    rcases List.mem_append.mp hm with hq | hn
    · exact h.queued ticket answer hq ht
    · obtain ⟨a, ha, seq, hp, hans⟩ := hnew ticket answer hn
      obtain ⟨l, hl, hs⟩ := h.asked seq ticket hp
      exact ⟨l, hl, (hh a ha).answer hans (hsent hs)⟩
  shown := h.shown

theorem Backed.hear (h : s.Backed f sent) (hp : s.publishing = true) {arrivals : List Arrival}
    (hh : ∀ a ∈ arrivals, Honest f sent a) : (s.hear arrivals).Backed f sent := by
  rw [hear_eq hp]
  exact h.heard (List.Subset.refl sent) hh
    (fun _ _ hm => (s.client.hearAll_hears arrivals).sublist.subset hm)
    (fun _ _ hm => Client.hearAll_answer hm)

theorem Backed.sync (h : s.Backed f sent) (hp : s.publishing = true)
    (ho : ∀ value, (link value).outcome = .ok ()) (fileName content : String)
    (hh : HonestWhile f link sent (sentIn (s.sync link fileName content).2.1)) :
    (s.sync link fileName content).1.Backed f
      (sent ++ sentIn (s.sync link fileName content).2.1) := by
  have hold : ∀ seq ticket, (seq, Purpose.info ticket) ∈ (s.client.opened .sync).pending →
      (seq, Purpose.info ticket) ∈ s.client.pending := by
    intro seq ticket hm
    rcases Client.mem_opened.mp hm with ⟨hold, _⟩ | hnew
    · exact hold
    · cases hnew
  have hkeeps := (s.client.ask_keeps link .sync (.sync · fileName content)).2.2
  have hsent : sentIn (s.sync link fileName content).2.1 =
      [(Request.sync s.client.nextSeq fileName content).toJson] := by
    have hvalue : (s.client.askSync link fileName content).sent =
        some (Request.sync s.client.nextSeq fileName content).toJson :=
      (Client.ask_taken .sync (ho _)).1
    refine (s.sent_ask _).trans ?_
    rw [hvalue]
    rfl
  rw [hsent] at hh ⊢
  rw [sync_eq hp]
  refine h.heard (List.subset_append_left sent _) hh.1
    (fun seq ticket hm => hold seq ticket (hkeeps.subset hm)) (fun ticket answer hm => ?_)
  obtain ⟨a, ha, seq, hopen, hanswer⟩ := Client.ask_answered hm
  exact ⟨a, ha, seq, hold seq ticket hopen, hanswer⟩

/-- The fetch that was just made is the only open one, and only honest news may have answered it
already. -/
theorem Backed.taken (ht : s.Tied syncs) (ho : ∀ value, (link value).outcome = .ok ())
    {e : Engine} {l : Location} {reasons : Reasons} (due : e.due? = some l)
    (hh : HonestWhile f link sent
      (s.relieved.askInfo link s.engine.nextTicket l).sent.toList) :
    Backed f { (s.ask (s.relieved.askInfo link s.engine.nextTicket l)).1 with
      engine := { e with pending := some ⟨s.engine.nextTicket, reasons⟩ } }
      (sent ++ (s.relieved.askInfo link s.engine.nextTicket l).sent.toList) := by
  have hopen : ∀ seq ticket,
      (seq, Purpose.info ticket) ∈ (s.relieved.opened (.info s.engine.nextTicket)).pending →
        seq = s.relieved.nextSeq :=
    fun seq ticket hm => (Client.eq_of_mem_opened ht.relieved_tickets hm).1
  have hkeeps := (s.relieved.ask_keeps link (.info s.engine.nextTicket) (.info · l)).2.2
  have hsent : (s.relieved.askInfo link s.engine.nextTicket l).sent =
      some (Request.info s.relieved.nextSeq l).toJson :=
    (Client.ask_taken (.info s.engine.nextTicket) (ho _)).1
  rw [hsent] at hh ⊢
  rw [ask_eq ht.publishing.1]
  have hmem : (Request.info s.relieved.nextSeq l).toJson ∈
      sent ++ (some (Request.info s.relieved.nextSeq l).toJson).toList :=
    List.mem_append_right _ List.mem_cons_self
  refine ⟨?_, ?_, nofun⟩
  · intro seq ticket hm
    refine ⟨l, due, ?_⟩
    rw [hopen seq ticket (hkeeps.subset hm)]
    exact hmem
  · intro ticket answer hm hp
    refine ⟨l, due, ?_⟩
    rcases List.mem_append.mp hm with hq | hn
    -- What was queued before the fetch was made answers an earlier ticket.
    · have hlt := ht.issued ticket (Or.inr (mem_answeredIn.mpr ⟨answer, hq⟩))
      have hnew : s.engine.nextTicket = ticket := Option.some.inj hp
      exact absurd hlt (by rw [hnew]; exact Nat.lt_irrefl _)
    · obtain ⟨a, ha, seq, hin, hanswer⟩ := Client.ask_answered hn
      rw [hopen seq ticket hin] at hanswer
      exact (hh.1 a ha).answer hanswer hmem

theorem Step.backed {values : List Json} (hs : Step link s values t) (ht : s.Tied syncs)
    (ho : ∀ value, (link value).outcome = .ok ()) (h : s.Backed f sent)
    (hh : HonestWhile f link sent values) : t.Backed f (sent ++ values) := by
  -- Where no fetch is pending afterwards, the client has none open and nothing is left to show but
  -- the goal itself.
  have htied := hs.tied ht
  cases hs with
  | keep e pending next goal =>
    rw [List.append_nil]
    rcases goal with ⟨due, goal⟩ | ⟨hnone, due⟩
    · have hp : e.pendingTicket? = s.engine.pendingTicket? := by
        rw [Engine.pendingTicket?, pending, Engine.pendingTicket?]
      refine ⟨?_, ?_, ?_⟩
      · simpa only [due] using h.asked
      · simpa only [due, hp] using h.queued
      · simpa only [due, goal, pending] using h.shown
    · refine backed_of_idle htied (pending.trans hnone) (fun l hl => ?_)
      rw [due] at hl
      cases hl
  | giveUp e fetch was pending next due =>
    refine backed_of_idle htied pending (fun l hl => ?_)
    rw [due] at hl
    cases hl
  | taken e l reasons due next asked made seq outcome =>
    subst made
    exact Backed.taken ht ho due hh
  | refused e l pending next asked made err outcome =>
    subst made
    have htaken : (s.relieved.askInfo link s.engine.nextTicket l).outcome =
        .ok s.relieved.nextSeq := (Client.ask_taken (.info s.engine.nextTicket) (ho _)).2
    rw [htaken] at outcome
    cases outcome
  | drop news rest queue other =>
    rw [List.append_nil]
    refine ⟨h.asked, fun ticket answer hm => h.queued ticket answer ?_, h.shown⟩
    rw [queue]
    exact List.mem_cons_of_mem news hm
  | answer e ticket answer rest queue was pending next due goal =>
    refine backed_of_idle htied pending (fun l hl => ?_)
    have hmem : News.answer ticket answer ∈ s.queue := by
      rw [queue]
      exact List.mem_cons_self
    obtain ⟨l', hl', hanswer⟩ := h.queued ticket answer hmem was
    rw [due, hl'] at hl
    cases hl
    exact goal (f l) l hanswer (due.trans hl')

theorem Steps.backed {values : List Json} (hs : Steps link s values t) (ht : s.Tied syncs)
    (ho : ∀ value, (link value).outcome = .ok ()) (h : s.Backed f sent)
    (hh : HonestWhile f link sent values) : t.Backed f (sent ++ values) := by
  induction hs generalizing sent with
  | refl s =>
    rw [List.append_nil]
    exact h
  | head first _ ih =>
    obtain ⟨hfirst, hrest⟩ := honestWhile_append.mp hh
    rw [← List.append_assoc]
    exact ih (first.tied ht) (first.backed ht ho h hfirst) hrest

/-! ## Runs -/

theorem Backed.move (ht : s.Tied syncs) {effects : List SessionEffect}
    (h : s.Backed f (sentIn effects)) {m : Move} (hm : s.Faithful f effects m) :
    (s.move m).1.Backed f (sentIn (effects ++ (s.move m).2)) := by
  rw [sentIn_append]
  cases hs : m.act.isSync with
  | false =>
    exact (move_steps ht.sound hm.ordinary hs).backed (ht.hear m.act.arrivals) hm.takes
      (h.hear ht.publishing.1 hm.arrivals) hm.meanwhile
  | true =>
    rcases m with ⟨act, cursor, link⟩
    cases act with
    | sync fileName content => exact h.sync ht.publishing.1 hm.takes fileName content hm.meanwhile
    | _ => cases hs

theorem run_backed (f : Location → Option Record) (selector : Selector) (assets : Assets)
    {moves : List Move} (h : Along move (Faithful f) (init selector assets) [] moves) :
    (run move (init selector assets) moves).1.Backed f
      (sentIn (run move (init selector assets) moves).2) := by
  have hinit : (init selector assets).Backed f (sentIn []) :=
    backed_of_idle (tied_init selector assets) rfl (fun l hl => by cases hl)
  have hboth : (run move (init selector assets) moves).1.Tied (moves.countP (·.act.isSync)) ∧
      (run move (init selector assets) moves).1.Backed f
        (sentIn (run move (init selector assets) moves).2) := by
    refine run_induction
      (motive := fun before (s : Session) effects =>
        s.Tied (before.countP (·.act.isSync)) ∧ s.Backed f (sentIn effects)) ?_
      ⟨tied_init selector assets, hinit⟩ h
    rintro before s effects m ⟨ht, hb⟩ hm
    refine ⟨?_, hb.move ht hm⟩
    rw [List.countP_append, List.countP_singleton]
    exact ht.move hm.ordinary
  exact hboth.2

/-- After any run with an honest backend, an engine that runs, shows goals and waits for no fetch
shows the goal of its location: the state that the backend knows there, unless it is empty. -/
theorem run_goal_eq (f : Location → Option Record) (selector : Selector) (assets : Assets)
    (moves : List Move) (h : Along move (Faithful f) (init selector assets) [] moves) :
    let e := (run move (init selector assets) moves).1.engine
    e.view.stopped = false → e.view.mode = .onlyState → e.pending = none →
      ∀ l, e.location? = some l →
        e.view.goal = (f l).bind fun record => record.state.filter (· != "") := by
  intro e hrun hm hp l hl
  have hb := run_backed f selector assets h
  exact hb.shown hp l ((e.due?_eq_some).mpr ⟨hrun, hm, hl⟩)

/-- The answer to the first fetch comes late, after the second was made, and that to the second
comes twice. -/
theorem run_goal_eq_late :
    let f : Location → Option Record := fun l =>
      if l.line = 3 then some { state := "p" } else some { state := "q" }
    let answers : List Arrival :=
      [.message (Response.ok 1 (some { state := "p" })).toJson,
        .message (Response.ok 2 (some { state := "q" })).toJson,
        .message (Response.ok 2 (some { state := "q" })).toJson]
    let moves : List Move :=
      [{ act := .trigger (.setMode .onlyState), cursor := some ⟨"/a.lean", "lean", ⟨2, 4⟩⟩ },
        { act := .trigger .selectionChanged, cursor := some ⟨"/a.lean", "lean", ⟨5, 0⟩⟩ },
        { act := .pump answers, cursor := some ⟨"/a.lean", "lean", ⟨5, 0⟩⟩ }]
    let e := (run move (init {} {}) moves).1.engine
    Along move (Faithful f) (init {} {}) [] moves ∧ e.view.stopped = false ∧
      e.view.mode = .onlyState ∧ e.pending = none ∧ e.location? = some ⟨"/a.lean", 6, 0⟩ ∧
      e.view.goal = some "q" := by
  intro f answers moves e
  have h : Along move (Faithful f) (init {} {}) [] moves := by
    refine ⟨⟨rfl, nofun, fun _ => rfl, honestWhile_of_silent fun _ => rfl⟩,
      ⟨rfl, nofun, fun _ => rfl, honestWhile_of_silent fun _ => rfl⟩,
      ⟨rfl, ?_, fun _ => rfl, honestWhile_of_silent fun _ => rfl⟩, trivial⟩
    generalize hs : sentIn _ = sent
    have hsent : sent.map Request.ofJson? =
        [some (.info 1 ⟨"/a.lean", 3, 4⟩), some (.info 2 ⟨"/a.lean", 6, 0⟩)] := by
      rw [← hs]
      decide +kernel
    have hknown : ∀ seq l, (Request.info seq l).toJson ∈ sent →
        seq = 1 ∧ f l = some { state := "p" } ∨ seq = 2 ∧ f l = some { state := "q" } := by
      intro seq l hl
      have hmem := List.mem_map_of_mem (f := Request.ofJson?) hl
      simp only [Request.ofJson?_info, hsent, List.mem_cons, Option.some.injEq,
        Request.info.injEq, List.not_mem_nil, or_false] at hmem
      rcases hmem with ⟨rfl, rfl⟩ | ⟨rfl, rfl⟩
      · exact Or.inl ⟨rfl, rfl⟩
      · exact Or.inr ⟨rfl, rfl⟩
    have hfirst : Honest f sent (.message (Response.ok 1 (some { state := "p" })).toJson) := by
      intro l hl
      rcases hknown 1 l hl with ⟨_, hf⟩ | ⟨hseq, _⟩
      · exact hf.symm
      · cases hseq
    have hsecond : Honest f sent (.message (Response.ok 2 (some { state := "q" })).toJson) := by
      intro l hl
      rcases hknown 2 l hl with ⟨hseq, _⟩ | ⟨_, hf⟩
      · cases hseq
      · exact hf.symm
    intro a ha
    rcases List.mem_cons.mp ha with rfl | ha
    · exact hfirst
    · rcases List.mem_cons.mp ha with rfl | ha
      · exact hsecond
      · cases List.mem_singleton.mp ha
        exact hsecond
  have hrun : e.view.stopped = false := by
    unfold e moves answers
    decide +kernel
  have hm : e.view.mode = .onlyState := by
    unfold e moves answers
    decide +kernel
  have hp : e.pending = none := by
    unfold e moves answers
    decide +kernel
  have hl : e.location? = some ⟨"/a.lean", 6, 0⟩ := by
    unfold e moves answers
    decide +kernel
  exact ⟨h, hrun, hm, hp, hl, run_goal_eq f {} {} moves h hrun hm hp _ hl⟩

end Session

end ProofPanel
