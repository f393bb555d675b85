import ProofPanel.Proofs.Client.Run
import ProofPanel.Proofs.Session.Steps

/-!
# Pumping until nothing is left

A pump applies the queued news in order and stops behind the first that fails. While nothing more
arrives, also not when a request is sent, pumping again and again applies all that is queued, each
once and in order, as if it were applied one after the other and errors were passed over.
-/
namespace ProofPanel

structure Application where
  news : News
  calls : List Effect
  effects : List SessionEffect
  outcome : Verdict

namespace Session

def calls (s : Session) (cursor : Option Cursor) : News → List Effect
  | .diagnostics ds => (s.engine.react cursor (.diagnostics ds)).calls
  | .status _ => (s.engine.react cursor .statusChanged).calls
  | .answer ticket answer => (s.engine.react cursor (.respond ticket answer)).calls
  | .failure _ => []

/-- Applying news as a step of a run. An error is recorded and ends nothing. -/
def applying (link : Json → Delivery) (cursor : Option Cursor) (s : Session) (news : News) :
    Session × List Application :=
  let (t, effects, outcome) := s.apply link cursor news
  (t, [⟨news, s.calls cursor news, effects, outcome⟩])

def drainRecorded (link : Json → Delivery) (cursor : Option Cursor) :
    (most applied : Nat) → Session →
      (Session × List SessionEffect × Except BackendError Nat) × List Application
  | 0, applied, s => ((s, [], .ok applied), [])
  | most + 1, applied, s =>
    match s.queue with
    | [] => ((s, [], .ok applied), [])
    | news :: rest =>
      let s := { s with queue := rest }
      let calls := s.calls cursor news
      let (s, effects, verdict) := s.apply link cursor news
      match verdict with
      | .error err => ((s, effects, .error err), [⟨news, calls, effects, .error err⟩])
      | .ok () =>
        let ((s, more, outcome), later) := drainRecorded link cursor most (applied + 1) s
        ((s, effects ++ more, outcome), ⟨news, calls, effects, .ok ()⟩ :: later)

def pumpRecorded (s : Session) (link : Json → Delivery) (cursor : Option Cursor) :
    (Session × List SessionEffect × Except BackendError Nat) × List Application :=
  drainRecorded link cursor (2 * s.queue.length) 0 s

/-- Pumps as often as it takes until one succeeds, each with the cursor at that moment: what they
apply, what comes out, and the session that they leave. -/
inductive Pumps (link : Json → Delivery) :
    Session → List Application → List SessionEffect → Session → Prop
  | last {s t : Session} {log : List Application} {effects : List SessionEffect} {count : Nat}
      (cursor : Option Cursor)
      (pumped : s.pumpRecorded link cursor = ((t, effects, .ok count), log)) :
      Pumps link s log effects t
  | again {s t u : Session} {log later : List Application} {effects more : List SessionEffect}
      {err : BackendError} (cursor : Option Cursor)
      (pumped : s.pumpRecorded link cursor = ((t, effects, .error err), log))
      (rest : Pumps link t later more u) : Pumps link s (log ++ later) (effects ++ more) u

def Ends (applied : Nat) (log : List Application) (rest : List News) :
    Except BackendError Nat → Prop
  | .ok count => rest = [] ∧ count = applied + log.length ∧ ∀ a ∈ log, a.outcome = .ok ()
  | .error err => ∃ before last, log = before ++ [last] ∧
      (∀ a ∈ before, a.outcome = .ok ()) ∧ last.outcome = .error err

/-- What a drain does that may take all there is: it applies the first of the queued news, as many
as it takes, and leaves the others as they are. -/
def Takes (link : Json → Delivery) (cursor : Option Cursor) (applied : Nat) (s : Session)
    (done : (Session × List SessionEffect × Except BackendError Nat) × List Application) : Prop :=
  ∃ taken rest outcome, s.queue = taken ++ rest ∧
    let part := run (applying link cursor) s taken
    done = (({ part.1 with queue := rest }, part.2.flatMap (·.effects), outcome), part.2) ∧
      Ends applied part.2 rest outcome

variable {s t u : Session} {link : Json → Delivery} {cursor : Option Cursor}

/-! ## The record of a pump -/

theorem drainRecorded_fst (link : Json → Delivery) (cursor : Option Cursor) (most applied : Nat)
    (s : Session) :
    (drainRecorded link cursor most applied s).1 = drain link cursor most applied s := by
  induction most generalizing applied s with
  | zero => rfl
  | succ most ih =>
    cases hq : s.queue with
    | nil => simp only [drainRecorded, drain, hq]
    | cons news rest =>
      simp only [drainRecorded, drain, hq]
      rcases ({ s with queue := rest } : Session).apply link cursor news with
        ⟨t, effects, err | ⟨⟩⟩
      · rfl
      · simp only [← ih]

theorem pumpRecorded_fst (s : Session) (link : Json → Delivery) (cursor : Option Cursor) :
    (s.pumpRecorded link cursor).1 = s.pump link cursor [] := by
  rw [pumpRecorded, drainRecorded_fst, pump, hear_nil]

/-! ## Applying news while nothing arrives -/

theorem enqueue_nil (s : Session) : s.enqueue [] = s := hear_nil s

theorem askInfo_silent_news (c : Client) (accepts : Json → Except LinkError Unit)
    (ticket : Ticket) (l : Location) :
    (c.askInfo (Client.silent accepts) ticket l).news = [] := by
  rcases c.ask_silent accepts (.info ticket) (.info · l) with ⟨_, h⟩ | ⟨_, _, h⟩ <;>
    rw [Client.askInfo, h]

/-- An effect leaves the queue alone and does not depend on it. -/
theorem perform_queue (s : Session) (accepts : Json → Except LinkError Unit) (effect : Effect)
    (queue : List News) :
    ({ s with queue } : Session).perform (Client.silent accepts) effect =
      ({ (s.perform (Client.silent accepts) effect).1 with queue },
        (s.perform (Client.silent accepts) effect).2) := by
  cases effect with
  | request ticket l => simp only [perform, ask, askInfo_silent_news, enqueue_nil]
  | _ => rfl

theorem performAll_queue (s : Session) (accepts : Json → Except LinkError Unit) (verdict : Verdict)
    (effects : List Effect) (queue : List News) :
    ({ s with queue } : Session).performAll (Client.silent accepts) verdict effects =
      ({ (s.performAll (Client.silent accepts) verdict effects).1 with queue },
        (s.performAll (Client.silent accepts) verdict effects).2) := by
  induction effects generalizing s verdict with
  | nil => rfl
  | cons effect rest ih => simp only [performAll, perform_queue, ih]

theorem trigger_queue (s : Session) (accepts : Json → Except LinkError Unit)
    (cursor : Option Cursor) (t : Trigger) (queue : List News) :
    ({ s with queue } : Session).trigger (Client.silent accepts) cursor t =
      ({ (s.trigger (Client.silent accepts) cursor t).1 with queue },
        (s.trigger (Client.silent accepts) cursor t).2) := by
  have h := performAll_queue { s with engine := (s.engine.react cursor t).engine } accepts
    (.ok ()) (s.engine.react cursor t).effects queue
  simp only [trigger, h]

theorem apply_queue (s : Session) (accepts : Json → Except LinkError Unit)
    (cursor : Option Cursor) (news : News) (queue : List News) :
    ({ s with queue } : Session).apply (Client.silent accepts) cursor news =
      ({ (s.apply (Client.silent accepts) cursor news).1 with queue },
        (s.apply (Client.silent accepts) cursor news).2) := by
  cases news with
  | failure err => rfl
  | _ => exact s.trigger_queue accepts cursor _ queue

theorem calls_queue (s : Session) (cursor : Option Cursor) (news : News) (queue : List News) :
    ({ s with queue } : Session).calls cursor news = s.calls cursor news := by
  cases news <;> rfl

theorem applying_queue (s : Session) (accepts : Json → Except LinkError Unit)
    (cursor : Option Cursor) (news : News) (queue : List News) :
    applying (Client.silent accepts) cursor { s with queue } news =
      ({ (applying (Client.silent accepts) cursor s news).1 with queue },
        (applying (Client.silent accepts) cursor s news).2) := by
  simp only [applying, apply_queue s accepts cursor news queue, calls_queue]

theorem run_applying_queue (s : Session) (accepts : Json → Except LinkError Unit)
    (cursor : Option Cursor) (news queue : List News) :
    run (applying (Client.silent accepts) cursor) { s with queue } news =
      ({ (run (applying (Client.silent accepts) cursor) s news).1 with queue },
        (run (applying (Client.silent accepts) cursor) s news).2) := by
  induction news generalizing s with
  | nil => rfl
  | cons first rest ih => simp only [run, applying_queue, ih]

/-- News reaches the engine without a look at the cursor. -/
theorem applying_cursor (link : Json → Delivery) (cursor cursor' : Option Cursor) :
    applying link cursor = applying link cursor' := by
  funext s news
  cases news <;> rfl

theorem news_run_applying (link : Json → Delivery) (cursor : Option Cursor) (s : Session)
    (news : List News) : (run (applying link cursor) s news).2.map (·.news) = news := by
  induction news generalizing s with
  | nil => rfl
  | cons first rest ih =>
    simp only [run, applying, List.singleton_append, List.map_cons]
    exact congrArg _ (ih _)

/-! ## What a pump takes from the queue -/

theorem Ends.cons {applied : Nat} {a : Application} {log : List Application} {rest : List News}
    {outcome : Except BackendError Nat} (h : Ends (applied + 1) log rest outcome)
    (ha : a.outcome = .ok ()) : Ends applied (a :: log) rest outcome := by
  cases outcome with
  | ok count =>
    obtain ⟨hrest, hcount, hall⟩ := h
    refine ⟨hrest, ?_, List.forall_mem_cons.mpr ⟨ha, hall⟩⟩
    rw [hcount, List.length_cons]
    omega
  | error err =>
    obtain ⟨before, last, hlog, hall, hlast⟩ := h
    exact ⟨a :: before, last, by rw [hlog, List.cons_append],
      List.forall_mem_cons.mpr ⟨ha, hall⟩, hlast⟩

theorem takes_none (hq : s.queue = []) (link : Json → Delivery) (cursor : Option Cursor)
    (applied : Nat) : Takes link cursor applied s ((s, [], .ok applied), []) := by
  refine ⟨[], [], .ok applied, hq, ?_, rfl, rfl, fun a ha => absurd ha List.not_mem_nil⟩
  simp only [run, List.flatMap_nil, ← hq]

theorem takes_failing {news : News} {rest : List News} {effects : List SessionEffect}
    {err : BackendError} (hq : s.queue = news :: rest)
    (ha : s.apply link cursor news = (t, effects, .error err)) (applied : Nat) :
    Takes link cursor applied s (({ t with queue := rest }, effects, .error err),
      [⟨news, s.calls cursor news, effects, .error err⟩]) := by
  have hpart : run (applying link cursor) s [news] =
      (t, [⟨news, s.calls cursor news, effects, .error err⟩]) := by
    simp only [run, applying, ha, List.append_nil]
  refine ⟨[news], rest, .error err, hq, ?_⟩
  rw [hpart]
  exact ⟨by simp, [], _, rfl, fun a h => absurd h List.not_mem_nil, rfl⟩

theorem Takes.next {accepts : Json → Except LinkError Unit} {news : News} {rest : List News}
    {effects more : List SessionEffect} {applied : Nat} {outcome : Except BackendError Nat}
    {later : List Application} (hq : s.queue = news :: rest)
    (ha : s.apply (Client.silent accepts) cursor news = (t, effects, .ok ()))
    (h : Takes (Client.silent accepts) cursor (applied + 1) { t with queue := rest }
      ((u, more, outcome), later)) :
    Takes (Client.silent accepts) cursor applied s
      ((u, effects ++ more, outcome), ⟨news, s.calls cursor news, effects, .ok ()⟩ :: later) := by
  obtain ⟨taken, left, outcome', hrest, hdone, hends⟩ := h
  rw [run_applying_queue] at hdone hends
  have hpart : run (applying (Client.silent accepts) cursor) s (news :: taken) =
      ((run (applying (Client.silent accepts) cursor) t taken).1,
        ⟨news, s.calls cursor news, effects, .ok ()⟩ ::
          (run (applying (Client.silent accepts) cursor) t taken).2) := by
    simp only [run, applying, ha, List.singleton_append]
  simp only [Prod.mk.injEq] at hdone
  obtain ⟨⟨rfl, rfl, rfl⟩, rfl⟩ := hdone
  have hrest : rest = taken ++ left := hrest
  refine ⟨news :: taken, left, outcome, ?_, ?_⟩
  · rw [hq, hrest, List.cons_append]
  · rw [hpart]
    exact ⟨by rw [List.flatMap_cons], hends.cons rfl⟩

theorem drainRecorded_takes (s : Session) (accepts : Json → Except LinkError Unit)
    (cursor : Option Cursor) {most : Nat} (h : s.queue.length ≤ most) (applied : Nat) :
    Takes (Client.silent accepts) cursor applied s
      (drainRecorded (Client.silent accepts) cursor most applied s) := by
  induction most generalizing s applied with
  | zero => exact takes_none (List.length_eq_zero_iff.mp (Nat.le_zero.mp h)) _ _ _
  | succ most ih =>
    cases hq : s.queue with
    | nil =>
      simp only [drainRecorded, hq]
      exact takes_none hq _ _ _
    | cons news rest =>
      simp only [drainRecorded, hq, apply_queue s accepts cursor news rest, calls_queue]
      rcases ha : s.apply (Client.silent accepts) cursor news with ⟨t, effects, err | ⟨⟩⟩
      · exact takes_failing hq ha applied
      · have hlength : rest.length ≤ most := by
          rw [hq, List.length_cons] at h
          omega
        exact (ih { t with queue := rest } hlength (applied + 1)).next hq ha

theorem pumpRecorded_takes (s : Session) (accepts : Json → Except LinkError Unit)
    (cursor : Option Cursor) :
    Takes (Client.silent accepts) cursor 0 s (s.pumpRecorded (Client.silent accepts) cursor) :=
  drainRecorded_takes s accepts cursor (by omega) 0

/-- A pump that fails has taken something. -/
theorem takes_failed {log : List Application} {effects : List SessionEffect} {err : BackendError}
    {applied : Nat} (h : Takes link cursor applied s ((t, effects, .error err), log)) :
    t.queue.length < s.queue.length := by
  obtain ⟨taken, rest, outcome, hq, hdone, hends⟩ := h
  simp only [Prod.mk.injEq] at hdone
  obtain ⟨⟨rfl, _, rfl⟩, _⟩ := hdone
  obtain ⟨before, last, hlog, _⟩ := hends
  have hnews := congrArg List.length (s.news_run_applying link cursor taken)
  rw [hlog] at hnews
  simp only [List.length_map, List.length_append, List.length_singleton] at hnews
  rw [hq, List.length_append]
  simp only
  omega

/-! ## Pumping again and again -/

theorem exists_pumps (s : Session) (accepts : Json → Except LinkError Unit)
    (cursor : Option Cursor) :
    ∃ log effects t, Pumps (Client.silent accepts) s log effects t := by
  induction hn : s.queue.length using Nat.strongRecOn generalizing s with
  | ind n ih =>
    have htakes := s.pumpRecorded_takes accepts cursor
    rcases hp : s.pumpRecorded (Client.silent accepts) cursor with
      ⟨⟨t, effects, err | count⟩, log⟩
    · rw [hp] at htakes
      obtain ⟨later, more, u, hu⟩ := ih _ (hn ▸ takes_failed htakes) t rfl
      exact ⟨_, _, _, .again cursor hp hu⟩
    · exact ⟨_, _, _, .last cursor hp⟩

theorem Pumps.eq_run {accepts : Json → Except LinkError Unit} {log : List Application}
    {effects : List SessionEffect} (h : Pumps (Client.silent accepts) s log effects t)
    (cursor : Option Cursor) :
    t = { (run (applying (Client.silent accepts) cursor) s s.queue).1 with queue := [] } ∧
      log = (run (applying (Client.silent accepts) cursor) s s.queue).2 ∧
      effects = (run (applying (Client.silent accepts) cursor) s s.queue).2.flatMap (·.effects) := by
  induction h with
  | @last s t log effects count cursor' pumped =>
    have htakes := s.pumpRecorded_takes accepts cursor'
    rw [pumped, Takes, applying_cursor _ cursor' cursor] at htakes
    obtain ⟨taken, rest, outcome, hq, hdone, hends⟩ := htakes
    simp only [Prod.mk.injEq] at hdone
    obtain ⟨⟨rfl, rfl, rfl⟩, rfl⟩ := hdone
    obtain ⟨rfl, _⟩ := hends
    rw [hq, List.append_nil]
    exact ⟨rfl, rfl, rfl⟩
  | @again s t u log later effects more err cursor' pumped rest ih =>
    have htakes := s.pumpRecorded_takes accepts cursor'
    rw [pumped, Takes, applying_cursor _ cursor' cursor] at htakes
    obtain ⟨taken, left, outcome, hq, hdone, _⟩ := htakes
    simp only [Prod.mk.injEq] at hdone
    obtain ⟨⟨rfl, rfl, _⟩, rfl⟩ := hdone
    obtain ⟨rfl, rfl, rfl⟩ := ih
    rw [run_applying_queue, hq, run_append, List.flatMap_append]
    exact ⟨rfl, rfl, rfl⟩

/-- When nothing more arrives, pumping until a pump succeeds comes to an end, and it has applied all
that was queued, each once and in order: session, calls to the backend and what comes out are those
of applying the queued news one after the other whatever fails. A pump that fails has taken the
news up to the one that failed and kept the others in order; one that succeeds has applied as much
as it says, which is all that was queued. -/
theorem pumps_apply_queue (s : Session) (accepts : Json → Except LinkError Unit)
    (cursor : Option Cursor) :
    let link := Client.silent accepts
    let whole := run (applying link cursor) s s.queue
    ((∃ log effects t, Pumps link s log effects t) ∧
      ∀ log effects t, Pumps link s log effects t →
        log = whole.2 ∧ log.map (·.news) = s.queue ∧
        effects = log.flatMap (·.effects) ∧ t = { whole.1 with queue := [] }) ∧
    ∃ log t effects outcome rest,
      s.pumpRecorded link cursor = (s.pump link cursor [], log) ∧
      s.pump link cursor [] = (t, effects, outcome) ∧
      s.queue = log.map (·.news) ++ rest ∧ t.queue = rest ∧ Ends 0 log rest outcome := by
  intro link whole
  refine ⟨⟨s.exists_pumps accepts cursor, fun log effects t h => ?_⟩, ?_⟩
  · obtain ⟨rfl, rfl, rfl⟩ := h.eq_run cursor
    exact ⟨rfl, s.news_run_applying link cursor s.queue, rfl, rfl⟩
  · obtain ⟨taken, rest, outcome, hq, hdone, hends⟩ := s.pumpRecorded_takes accepts cursor
    have hpump := congrArg Prod.fst hdone
    rw [pumpRecorded_fst] at hpump
    refine ⟨_, _, _, outcome, rest, ?_, hpump, ?_, rfl, hends⟩
    · rw [hpump]
      exact hdone
    · rw [news_run_applying]
      exact hq

/-- The backend refuses the fetch that a change of its status asks for. An error of the link and
diagnostics wait behind it for the next pump. -/
theorem pumps_apply_queue_refused :
    let cursor : Option Cursor := some ⟨"/a.lean", "lean", ⟨2, 4⟩⟩
    let arrivals : List Arrival :=
      [.message (Response.currentTasks ⟨true, []⟩).toJson, .failure (.json "no value"),
        .message (Response.allMessages [⟨"/a.lean", 3, 0, .error, "", "unknown", none, none⟩]).toJson]
    let s := (run move (init {} {})
      [{ act := .trigger (.setMode .onlyState), cursor }, { act := .hear arrivals }]).1
    let accepts : Json → Except LinkError Unit := fun value =>
      match Request.ofJson? value with
      | some (.info 2 _) => .error (.io "busy")
      | _ => .ok ()
    (s.pump (Client.silent accepts) cursor []).1.queue.length = 2 ∧
      ∃ log effects t, Pumps (Client.silent accepts) s log effects t ∧
        log.map (·.outcome.isOk) = [false, true, true] ∧ log.map (·.news) = s.queue ∧
        t.queue = [] := by
  intro cursor arrivals s accepts
  obtain ⟨⟨⟨log, effects, t, hpumps⟩, hall⟩, _⟩ := pumps_apply_queue s accepts cursor
  obtain ⟨hlog, hnews, _, ht⟩ := hall log effects t hpumps
  refine ⟨?_, log, effects, t, hpumps, ?_, hnews, by rw [ht]⟩
  · unfold accepts s arrivals cursor
    decide +kernel
  · rw [hlog]
    unfold accepts s arrivals cursor
    decide +kernel

end Session

end ProofPanel
