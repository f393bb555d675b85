import ProofPanel.Proofs.Client.Cancel

/-!
# What comes of the backend's messages

A message leads to one piece of news at most. Reports of diagnostics come out as they came in, and
so do reports of the status but for those that repeat the one before, whatever else arrives between
them and whatever the client is asked to do meanwhile.
-/
namespace ProofPanel

def Response.diagnostics? : Response → Option (List Diagnostic)
  | .allMessages ds => some ds
  | _ => none

def Response.status? : Response → Option Status
  | .currentTasks s => some s
  | _ => none

def Arrival.response? : Arrival → Option Response
  | .message value => Response.ofJson? value
  | .failure _ => none

def News.diagnostics? : News → Option (List Diagnostic)
  | .diagnostics ds => some ds
  | _ => none

def News.status? : News → Option Status
  | .status s => some s
  | _ => none

def heardAs {α : Type} (kind : Response → Option α) (arrivals : List Arrival) : List α :=
  arrivals.filterMap fun a => a.response?.bind kind

theorem heardAs_append {α : Type} (kind : Response → Option α) (arrivals more : List Arrival) :
    heardAs kind (arrivals ++ more) = heardAs kind arrivals ++ heardAs kind more :=
  List.filterMap_append

theorem heardAs_singleton {α : Type} (kind : Response → Option α) (a : Arrival) :
    heardAs kind [a] = (a.response?.bind kind).toList := by
  rw [heardAs, List.filterMap_eq_flatMap_toList, List.flatMap_singleton]

/-- The statuses that differ from the one before; the first has `start` before it. -/
def changes (start : Status) (statuses : List Status) : List Status :=
  ((statuses.zip (start :: statuses)).filter fun p => p.1 ≠ p.2).map Prod.fst

theorem changes_cons (start status : Status) (rest : List Status) :
    changes start (status :: rest) =
      (if status = start then [] else [status]) ++ changes status rest := by
  by_cases h : status = start <;> simp [changes, h]

theorem changes_append (start : Status) (statuses more : List Status) :
    changes start (statuses ++ more) =
      changes start statuses ++ changes (statuses.getLastD start) more := by
  induction statuses generalizing start with
  | nil => rfl
  | cons status rest ih =>
    rw [List.cons_append, changes_cons, changes_cons, ih, List.append_assoc, List.getLastD_cons]

theorem getLastD_append {α : Type} (start : α) (l more : List α) :
    (l ++ more).getLastD start = more.getLastD (l.getLastD start) := by
  induction l generalizing start with
  | nil => rfl
  | cons x l ih => rw [List.cons_append, List.getLastD_cons, List.getLastD_cons, ih]

namespace Client

/-- The news tell what arrived, as far as it is diagnostics or the status. -/
structure Feeds (c d : Client) (arrivals : List Arrival) (news : List News) : Prop where
  diagnostics : news.filterMap News.diagnostics? = heardAs Response.diagnostics? arrivals
  statuses : news.filterMap News.status? = changes c.status (heardAs Response.status? arrivals)
  status : d.status = (heardAs Response.status? arrivals).getLastD c.status

variable {c d e : Client} {arrivals more : List Arrival} {news later : List News}

theorem Feeds.trans (h : Feeds c d arrivals news) (h' : Feeds d e more later) :
    Feeds c e (arrivals ++ more) (news ++ later) where
  diagnostics := by
    rw [List.filterMap_append, h.diagnostics, h'.diagnostics, heardAs_append]
  statuses := by
    rw [List.filterMap_append, h.statuses, h'.statuses, h.status, heardAs_append,
      changes_append]
  status := by rw [h'.status, h.status, heardAs_append, getLastD_append]

/-! ## One arrival -/

/-- A response leads to one piece of news at most. -/
theorem receive_length (c : Client) (r : Response) : (c.receive r).2.length ≤ 1 := by
  have hone (d : Client) (n : News) : (d.publish [n]).length ≤ 1 := by
    rw [publish]
    split <;> simp
  cases r with
  | ok seq record =>
    rcases hc : c.close seq with ⟨d, _ | _ | _⟩ <;> simp [receive, hc, hone]
  | error seq message => exact hone _ _
  | allMessages ds => exact hone _ _
  | currentTasks status =>
    rw [receive]
    split
    · simp
    · exact hone _ _

theorem hear_length (c : Client) (value : Json) : (c.hear (.message value)).2.length ≤ 1 := by
  rw [hear]
  split
  · simp
  · cases Response.ofJson? value with
    | none =>
      rw [publish]
      dsimp only
      split <;> simp
    | some r => exact c.receive_length r

def Aside (news : List News) : Prop := ∀ n ∈ news, n.diagnostics? = none ∧ n.status? = none

theorem aside_nil : Aside [] := List.forall_mem_nil _

theorem aside_publish (h : Aside news) (c : Client) : Aside (c.publish news) :=
  fun n hn => h n (mem_publish hn)

theorem aside_singleton {n : News} (hd : n.diagnostics? = none) (hs : n.status? = none) :
    Aside [n] := by
  intro m hm
  rw [List.mem_singleton.mp hm]
  exact ⟨hd, hs⟩

theorem Feeds.aside (hs : d.status = c.status) (hd : heardAs Response.diagnostics? arrivals = [])
    (hh : heardAs Response.status? arrivals = []) (hn : Aside news) : Feeds c d arrivals news where
  diagnostics := by rw [hd, List.filterMap_eq_nil_iff.mpr fun n h => (hn n h).1]
  statuses := by
    rw [hh, List.filterMap_eq_nil_iff.mpr fun n h => (hn n h).2]
    rfl
  status := by rw [hs, hh, List.getLastD_nil]

theorem close_status (c : Client) (seq : Nat) : (c.close seq).1.status = c.status := rfl

/-- Responses to requests report nothing. -/
theorem receive_aside (c : Client) {r : Response} (hd : r.diagnostics? = none)
    (hs : r.status? = none) :
    (c.receive r).1.status = c.status ∧ Aside (c.receive r).2 := by
  cases r with
  | ok seq record =>
    have hclose := c.close_status seq
    rcases hc : c.close seq with ⟨d, _ | ticket | _⟩
    all_goals
      rw [hc] at hclose
      simp only [receive, hc]
    · exact ⟨hclose, aside_nil⟩
    · exact ⟨hclose, aside_publish (aside_singleton rfl rfl) d⟩
    · exact ⟨hclose, aside_nil⟩
  | error seq message =>
    cases seq with
    | none => exact ⟨rfl, aside_publish (aside_singleton rfl rfl) c⟩
    | some seq =>
      have hclose := c.close_status seq
      rcases hc : c.close seq with ⟨d, _ | ticket | _⟩
      all_goals
        rw [hc] at hclose
        simp only [receive, hc]
        exact ⟨hclose, aside_publish (aside_singleton rfl rfl) d⟩
  | allMessages ds => cases hd
  | currentTasks status => cases hs

theorem failPending_aside (c : Client) (err : BackendError) :
    Aside (c.failPending err).2 := by
  rw [failPending_eq]
  refine aside_publish (fun n hn => ?_) c
  obtain ⟨ticket, -, rfl⟩ := List.mem_map.mp hn
  exact ⟨rfl, rfl⟩

/-! ## What arrives -/

theorem hear_message_feeds (hr : c.Ready) {value : Json} {r : Response}
    (hv : Response.ofJson? value = some r) :
    Feeds c (c.receive r).1 [.message value] (c.receive r).2 := by
  have hresponse : Arrival.response? (.message value) = some r := hv
  have hd : heardAs Response.diagnostics? [.message value] = r.diagnostics?.toList := by
    rw [heardAs_singleton, hresponse, Option.bind_some]
  have hs : heardAs Response.status? [.message value] = r.status?.toList := by
    rw [heardAs_singleton, hresponse, Option.bind_some]
  cases r with
  | ok seq record =>
    obtain ⟨hstatus, hnews⟩ := c.receive_aside (r := .ok seq record) rfl rfl
    exact .aside hstatus hd hs hnews
  | error seq message =>
    obtain ⟨hstatus, hnews⟩ := c.receive_aside (r := .error seq message) rfl rfl
    exact .aside hstatus hd hs hnews
  | allMessages ds =>
    have hnews : c.publish [.diagnostics ds] = [.diagnostics ds] := if_pos hr.publishing
    exact ⟨by rw [receive, hnews, hd]; rfl, by rw [receive, hnews, hs]; rfl, by rw [hs]; rfl⟩
  | currentTasks status =>
    have hnews : c.publish [.status status] = [.status status] := if_pos hr.publishing
    rw [receive]
    by_cases h : c.status = status
    · rw [if_pos h]
      refine ⟨by rw [hd]; rfl, ?_, by rw [hs]; exact h⟩
      rw [hs, Response.status?, Option.toList_some, changes_cons, if_pos h.symm]
      rfl
    · rw [if_neg h, hnews]
      refine ⟨by rw [hd]; rfl, ?_, by rw [hs]; rfl⟩
      rw [hs, Response.status?, Option.toList_some, changes_cons, if_neg (Ne.symm h)]
      rfl

theorem hear_feeds (hr : c.Ready) (a : Arrival) : Feeds c (c.hear a).1 [a] (c.hear a).2 := by
  cases a with
  | message value =>
    cases hv : Response.ofJson? value with
    | none =>
      have hnone : Arrival.response? (.message value) = none := hv
      rw [hear_noise hr hv]
      refine .aside rfl ?_ ?_ (aside_singleton rfl rfl)
      · rw [heardAs_singleton, hnone]
        rfl
      · rw [heardAs_singleton, hnone]
        rfl
    | some r =>
      rw [hear_message hr hv]
      exact hear_message_feeds hr hv
  | failure err =>
    have hfailed : Feeds c c [.failure err] [.failure err] :=
      .aside rfl rfl rfl (aside_singleton rfl rfl)
    cases hf : isFinal err with
    | false =>
      rw [hear_passing hr hf]
      exact hfailed
    | true =>
      rw [hear_final hr hf]
      exact hfailed.trans (.aside rfl rfl rfl (c.failPending_aside .disconnected))

theorem hearAll_feeds (hr : c.Ready) (arrivals : List Arrival) :
    Feeds c (c.hearAll arrivals).1 arrivals (c.hearAll arrivals).2 := by
  induction arrivals generalizing c with
  | nil => exact .aside rfl rfl rfl aside_nil
  | cons a rest ih => exact (hear_feeds hr a).trans (ih (hr.of_hears (c.hear_hears a)))

/-! ## Runs -/

structure Exchange where
  arrivals : List Arrival := []
  news : List News := []

def exchange (c : Client) : Move → Client × List Exchange
  | .make wish link =>
    let asked := c.make link wish
    (asked.client, [⟨(link (wish.request c.nextSeq).toJson).arrivals, asked.news⟩])
  | .cancel ticket => (c.cancel ticket, [])
  | .failPending err =>
    let (c, news) := c.failPending err
    (c, [⟨[], news⟩])
  | .hear a =>
    let (c, news) := c.hear a
    (c, [⟨[a], news⟩])
  | .dispose => (c.dispose, [])

theorem make_feeds (hr : c.Ready) (wish : Wish) (link : Json → Delivery) :
    Feeds c (c.make link wish).client (link (wish.request c.nextSeq).toJson).arrivals
      (c.make link wish).news := by
  -- Opening the request, and closing it again when it is refused, leaves the status alone.
  have hopened : (c.opened wish.purpose).Ready := ⟨hr.listening, hr.publishing⟩
  obtain ⟨d, news, hheard, -, ⟨-, ha⟩ | ⟨err, -, ha⟩⟩ :=
    c.ask_cases link wish.purpose (wish.request ·)
  all_goals
    have hf := hearAll_feeds hopened (link (wish.request c.nextSeq).toJson).arrivals
    rw [hheard] at hf
    rw [make_eq, ha]
    exact ⟨hf.diagnostics, hf.statuses, hf.status⟩

/-- Until the client is disposed, each move leaves it ready and tells what arrived. -/
theorem exchange_feeds (hr : c.Ready) {m : Move} (hm : m ≠ .dispose) :
    (c.exchange m).1.Ready ∧
      Feeds c (c.exchange m).1 ((c.exchange m).2.flatMap (·.arrivals))
        ((c.exchange m).2.flatMap (·.news)) := by
  cases m with
  | make wish link =>
    obtain ⟨hlistening, hpublishing⟩ := c.make_live link wish
    refine ⟨⟨hlistening.trans hr.listening, hpublishing.trans hr.publishing⟩, ?_⟩
    simpa [exchange] using make_feeds hr wish link
  | cancel ticket => exact ⟨⟨hr.listening, hr.publishing⟩, .aside rfl rfl rfl aside_nil⟩
  | failPending err =>
    refine ⟨hr.of_hears (c.failPending_hears err), ?_⟩
    have hf : Feeds c (c.failPending err).1 [] (c.failPending err).2 :=
      .aside rfl rfl rfl (c.failPending_aside err)
    simpa [exchange] using hf
  | hear a =>
    refine ⟨hr.of_hears (c.hear_hears a), ?_⟩
    simpa [exchange] using hear_feeds hr a
  | dispose => exact absurd rfl hm

theorem run_feeds (hr : c.Ready) {moves : List Move} (h : .dispose ∉ moves) :
    (run exchange c moves).1.Ready ∧
      Feeds c (run exchange c moves).1 ((run exchange c moves).2.flatMap (·.arrivals))
        ((run exchange c moves).2.flatMap (·.news)) := by
  induction moves generalizing c with
  | nil => exact ⟨hr, .aside rfl rfl rfl aside_nil⟩
  | cons m moves ih =>
    rw [List.mem_cons, not_or] at h
    obtain ⟨hready, hfirst⟩ := exchange_feeds hr (Ne.symm h.1)
    obtain ⟨hend, hrest⟩ := ih hready h.2
    refine ⟨hend, ?_⟩
    simp only [run, List.flatMap_append]
    exact hfirst.trans hrest

/-- A message leads to one piece of news at most; one that is no response leads to an error of its
own and changes nothing. In every run until the client is disposed, the reports of diagnostics come
out as they came in, the statuses but for those that repeat the one before, and the client knows the
last one. -/
theorem run_reported_once_per_change :
    (∀ (c : Client) value, (c.hear (.message value)).2.length ≤ 1) ∧
    (∀ (c : Client) value, c.Ready → Response.ofJson? value = none →
      ∃ text, c.hear (.message value) = (c, [.failure (.malformed text)])) ∧
    ∀ moves : List Move, .dispose ∉ moves →
      let (c, exchanges) := run exchange {} moves
      let arrivals := exchanges.flatMap (·.arrivals)
      let news := exchanges.flatMap (·.news)
      c.Ready ∧
        news.filterMap News.diagnostics? = heardAs Response.diagnostics? arrivals ∧
        news.filterMap News.status? = changes {} (heardAs Response.status? arrivals) ∧
        c.status = (heardAs Response.status? arrivals).getLastD {} := by
  refine ⟨hear_length, fun c value hr hv => ⟨_, hear_noise hr hv⟩, fun moves hm => ?_⟩
  obtain ⟨hready, hfeeds⟩ := run_feeds (c := {}) ⟨rfl, rfl⟩ hm
  exact ⟨hready, hfeeds.diagnostics, hfeeds.statuses, hfeeds.status⟩

/-- The status starts and is repeated while a request is made, noise arrives, and it ends. -/
theorem run_reported_once_per_change_repeated :
    let busy : Status := { running := true }
    let report (s : Status) : Arrival := .message (Response.currentTasks s).toJson
    let moves : List Move := [.hear (report {}), .hear (report busy),
      .make (.sync "/a.lean" "") fun _ => { arrivals := [.message .null, report busy] },
      .hear (.message (Response.allMessages []).toJson), .hear (report {})]
    let (c, exchanges) := run exchange {} moves
    .dispose ∉ moves ∧ c.status = {} ∧
      (exchanges.flatMap (·.news)).filterMap News.status? = [busy, {}] ∧
      (exchanges.flatMap (·.news)).filterMap News.diagnostics? = [[]] ∧
      ∃ text, c.hear (.message .null) = (c, [.failure (.malformed text)]) := by
  intro busy report moves
  have hm : .dispose ∉ moves := by simp [moves]
  obtain ⟨hready, hdiagnostics, hstatuses, hstatus⟩ := run_reported_once_per_change.2.2 moves hm
  exact ⟨hm, hstatus, hstatuses, hdiagnostics, run_reported_once_per_change.2.1 _ _ hready rfl⟩

end Client

end ProofPanel
