import Mathlib.Data.List.Nodup
import ProofPanel.Proofs.Engine.Fetch

/-!
# Every fetch is accounted for

The history of a run tells what happened to its fetches, in order: the backend was asked for a goal
and took the request or refused it, a fetch was given up, the answer to the pending fetch came in.
Tickets grow, and each fetch that the backend took is either still pending or has been given up or
answered, once and not both. Nothing is ever heard of a refused one again.
-/
namespace ProofPanel

inductive FetchEvent
  | asked (ticket : Ticket) (l : Location) (verdict : Verdict)
  | cancelled (ticket : Ticket)
  /-- The answer came while the fetch was pending, which ends it. -/
  | answered (ticket : Ticket) (answer : Answer)
deriving DecidableEq

namespace FetchEvent

def asked? : FetchEvent → Option Ticket
  | .asked ticket _ _ => some ticket
  | _ => none

def accepted? : FetchEvent → Option Ticket
  | .asked ticket _ (.ok _) => some ticket
  | _ => none

def refused? : FetchEvent → Option Ticket
  | .asked ticket _ (.error _) => some ticket
  | _ => none

def cancelled? : FetchEvent → Option Ticket
  | .cancelled ticket => some ticket
  | _ => none

def answered? : FetchEvent → Option Ticket
  | .answered ticket _ => some ticket
  | _ => none

end FetchEvent

def Effect.fetchEvent? (verdict : Verdict) : Effect → Option FetchEvent
  | .request ticket l => some (.asked ticket l verdict)
  | .cancel ticket => some (.cancelled ticket)
  | _ => none

namespace Engine

def answerEvent (e : Engine) : Trigger → List FetchEvent
  | .respond ticket answer =>
    if e.pendingTicket? = some ticket then [.answered ticket answer] else []
  | _ => []

def fetchEvents (e : Engine) (o : Occasion) : List FetchEvent :=
  e.answerEvent o.trigger ++ (e.meet o).2.filterMap (Effect.fetchEvent? o.verdict)

def recorded (e : Engine) (o : Occasion) : Engine × List FetchEvent :=
  ((e.meet o).1, e.fetchEvents o)

def asking (e : Engine) (l : Location) (verdict : Verdict) : List FetchEvent :=
  e.pendingTicket?.toList.map .cancelled ++ [.asked e.nextTicket l verdict]

inductive Settles (e : Engine) (o : Occasion) : Prop
  | keep (pending : (e.meet o).1.pending = e.pending)
      (next : (e.meet o).1.nextTicket = e.nextTicket) (events : e.fetchEvents o = [])
      (due : (e.meet o).1.due? = e.due? ∨ e.pending = none)
  | giveUp (fetch : Fetch) (was : e.pending = some fetch) (pending : (e.meet o).1.pending = none)
      (next : (e.meet o).1.nextTicket = e.nextTicket)
      (events : e.fetchEvents o = [.cancelled fetch.ticket])
  /-- The backend takes a request under the next ticket, for the place where the goal is due. -/
  | take (l : Location) (reasons : Reasons) (due : (e.meet o).1.due? = some l)
      (pending : (e.meet o).1.pending = some ⟨e.nextTicket, reasons⟩)
      (next : (e.meet o).1.nextTicket = e.nextTicket + 1)
      (events : e.fetchEvents o = e.asking l (.ok ()))
  | refuse (l : Location) (err : BackendError) (due : (e.meet o).1.due? = some l)
      (pending : (e.meet o).1.pending = none)
      (next : (e.meet o).1.nextTicket = e.nextTicket + 1)
      (events : e.fetchEvents o = e.asking l (.error err))
  | answer (fetch : Fetch) (answer : Answer) (was : e.pending = some fetch)
      (trigger : o.trigger = .respond fetch.ticket answer) (pending : (e.meet o).1.pending = none)
      (next : (e.meet o).1.nextTicket = e.nextTicket)
      (events : e.fetchEvents o = [.answered fetch.ticket answer])

variable {e : Engine} {o : Occasion}

theorem filterMap_calls (t : Turn) (verdict : Verdict) :
    t.effects.filterMap (Effect.fetchEvent? verdict) =
      t.calls.filterMap (Effect.fetchEvent? verdict) := by
  rw [Turn.calls, List.filterMap_filter]
  congr 1
  funext effect
  cases effect <;> rfl

theorem filterMap_cancelPending (verdict : Verdict) :
    e.cancelPending.2.filterMap (Effect.fetchEvent? verdict) =
      e.pendingTicket?.toList.map .cancelled := by
  cases h : e.pending <;> simp [cancelPending_snd, pendingTicket?, h, Effect.fetchEvent?]

theorem fetchEvents_ordinary (h : o.trigger.isOrdinary = true) :
    e.fetchEvents o = (e.react o.cursor o.trigger).calls.filterMap
      (Effect.fetchEvent? o.verdict) := by
  rw [fetchEvents, meet_snd, filterMap_calls]
  cases ht : o.trigger with
  | respond _ _ => simp [ht, Trigger.isOrdinary] at h
  | _ => rfl

theorem Deals.settles (h : o.trigger.isOrdinary = true)
    (hd : Deals e (e.react o.cursor o.trigger)) : Settles e o := by
  have hevents := fetchEvents_ordinary (e := e) h
  cases hd with
  | keep asked calls pending next goal =>
    have hmeet : (e.meet o).1 = (e.react o.cursor o.trigger).engine := by
      simp only [meet_fst, Turn.settle, asked]
    refine .keep ?_ ?_ ?_ ?_
    · rw [hmeet, pending]
    · rw [hmeet, next]
    · rw [hevents, calls, List.filterMap_nil]
    · rw [hmeet]
      exact goal.imp And.left And.left
  | giveUp fetch was asked calls pending next due =>
    have hmeet : (e.meet o).1 = (e.react o.cursor o.trigger).engine := by
      simp only [meet_fst, Turn.settle, asked]
    refine .giveUp fetch was ?_ ?_ ?_
    · rw [hmeet, pending]
    · rw [hmeet, next]
    · rw [hevents, calls]
      rfl
  | ask l reasons due asked calls pending next =>
    have hasked : e.fetchEvents o = e.asking l o.verdict := by
      rw [hevents, calls, List.filterMap_append, filterMap_cancelPending]
      rfl
    cases hv : o.verdict with
    | ok _ =>
      have hmeet : (e.meet o).1 = { (e.react o.cursor o.trigger).engine with
          pending := some ⟨e.nextTicket, reasons⟩ } := by
        simp only [meet_fst, Turn.settle, asked, hv]
      refine .take l reasons ?_ ?_ ?_ (hv ▸ hasked)
      · rw [hmeet]
        exact due
      · rw [hmeet]
      · rw [hmeet]
        exact next
    | error err =>
      have hmeet : (e.meet o).1 = (e.react o.cursor o.trigger).engine := by
        simp only [meet_fst, Turn.settle, asked, hv]
      refine .refuse l err ?_ ?_ ?_ (hv ▸ hasked)
      · rw [hmeet, due]
      · rw [hmeet, pending]
      · rw [hmeet, next]

theorem fetchEvents_respond {ticket : Ticket} {answer : Answer}
    (ht : o.trigger = .respond ticket answer) :
    e.fetchEvents o =
      if e.pendingTicket? = some ticket then [.answered ticket answer] else [] := by
  rw [fetchEvents, meet_snd, ht, react, filterMap_calls, (e.receiveAnswer_idle ticket answer).2,
    List.filterMap_nil, List.append_nil, answerEvent]

theorem respond_settles {ticket : Ticket} {answer : Answer}
    (ht : o.trigger = .respond ticket answer) : Settles e o := by
  have hmeet : (e.meet o).1 = (e.receiveAnswer ticket answer).engine := by
    simp only [meet_fst, ht, react, Turn.settle, (e.receiveAnswer_idle ticket answer).1]
  have hevents := fetchEvents_respond (e := e) ht
  rcases e.receiveAnswer_cases ticket answer with ⟨hne, ha⟩ | ⟨fetch, hp, rfl, hends⟩
  · rw [if_neg hne] at hevents
    rw [ha] at hmeet
    exact .keep (by rw [hmeet]) (by rw [hmeet]) hevents (Or.inl (by rw [hmeet]))
  · rw [if_pos (pendingTicket?_some hp)] at hevents
    have hended : (e.receiveAnswer fetch.ticket answer).engine.pending = none ∧
        (e.receiveAnswer fetch.ticket answer).engine.nextTicket = e.nextTicket := by
      rcases hends with ⟨_, ha⟩ | ⟨_, ⟨_, _, ha⟩ | ⟨_, _, ha⟩⟩ <;> rw [ha] <;> exact ⟨rfl, rfl⟩
    exact .answer fetch answer hp ht (hmeet ▸ hended.1) (hmeet ▸ hended.2) hevents

theorem dispose_settles (ht : o.trigger = .dispose) : Settles e o := by
  have hmeet : (e.meet o).1 = { e with pending := none, publishing := false, config := {} } := by
    simp only [meet_fst, ht, react, dispose, Turn.settle, cancelPending_fst]
  have hevents : e.fetchEvents o = e.pendingTicket?.toList.map .cancelled := by
    simp only [fetchEvents, meet_snd, ht, react, answerEvent, dispose, List.nil_append]
    exact filterMap_cancelPending o.verdict
  cases hp : e.pending with
  | none =>
    refine .keep (by rw [hmeet, hp]) (by rw [hmeet]) ?_ (Or.inr hp)
    rw [hevents, pendingTicket?_none hp]
    rfl
  | some fetch =>
    refine .giveUp fetch hp (by rw [hmeet]) (by rw [hmeet]) ?_
    rw [hevents, pendingTicket?_some hp]
    rfl

theorem meet_settles (h : e.Sound) (o : Occasion) : Settles e o := by
  cases ho : o.trigger.isOrdinary with
  | true => exact (react_deals h o.cursor ho).settles ho
  | false =>
    cases ht : o.trigger with
    | respond ticket answer => exact respond_settles ht
    | dispose => exact dispose_settles ht
    | _ => simp [ht, Trigger.isOrdinary] at ho

/-- Tickets are handed out in order, and for each the backend took there is one record of where it
is: pending, given up or answered. -/
structure Balanced (e : Engine) (history : List FetchEvent) : Prop where
  ordered : (history.filterMap FetchEvent.asked?).Pairwise (· < ·)
  below : ∀ ticket ∈ history.filterMap FetchEvent.asked?, ticket < e.nextTicket
  balance : ∀ ticket, e.pendingTicket?.toList.count ticket +
      (history.filterMap FetchEvent.cancelled?).count ticket +
      (history.filterMap FetchEvent.answered?).count ticket =
    (history.filterMap FetchEvent.accepted?).count ticket

variable {history : List FetchEvent}

theorem count_asked (history : List FetchEvent) (ticket : Ticket) :
    (history.filterMap FetchEvent.asked?).count ticket =
      (history.filterMap FetchEvent.accepted?).count ticket +
        (history.filterMap FetchEvent.refused?).count ticket := by
  induction history with
  | nil => rfl
  | cons event rest ih =>
    cases event with
    | asked t l verdict =>
      cases verdict <;>
        simp only [List.filterMap_cons, FetchEvent.asked?, FetchEvent.accepted?,
          FetchEvent.refused?, List.count_cons, ih] <;>
        omega
    | _ => exact ih

theorem filterMap_asking (l : Location) (verdict : Verdict) :
    (e.asking l verdict).filterMap FetchEvent.asked? = [e.nextTicket] ∧
      (e.asking l verdict).filterMap FetchEvent.cancelled? = e.pendingTicket?.toList ∧
      (e.asking l verdict).filterMap FetchEvent.answered? = [] := by
  cases h : e.pendingTicket? <;>
    simp [asking, h, List.filterMap_cons, FetchEvent.asked?, FetchEvent.cancelled?,
      FetchEvent.answered?]

theorem filterMap_asking_accepted (l : Location) (verdict : Verdict) :
    (e.asking l verdict).filterMap FetchEvent.accepted? =
      if verdict = .ok () then [e.nextTicket] else [] := by
  cases h : e.pendingTicket? <;> cases verdict <;>
    simp [asking, h, List.filterMap_cons, FetchEvent.accepted?]

theorem Balanced.asked (h : Balanced e history) (l : Location) (verdict : Verdict) :
    ((history ++ e.asking l verdict).filterMap FetchEvent.asked?).Pairwise (· < ·) ∧
      ∀ ticket ∈ (history ++ e.asking l verdict).filterMap FetchEvent.asked?,
        ticket < e.nextTicket + 1 := by
  rw [List.filterMap_append, (filterMap_asking l verdict).1]
  refine ⟨List.pairwise_append.mpr ⟨h.ordered, List.pairwise_singleton _ _, ?_⟩, ?_⟩
  · intro earlier he ticket ht
    rw [List.mem_singleton.mp ht]
    exact h.below earlier he
  · intro ticket ht
    rcases List.mem_append.mp ht with ht | ht
    · exact Nat.lt_succ_of_lt (h.below ticket ht)
    · rw [List.mem_singleton.mp ht]
      exact Nat.lt_succ_self _

theorem Balanced.ends (h : Balanced e history) {d : Engine} {fetch : Fetch}
    (was : e.pending = some fetch) (pending : d.pending = none) (next : d.nextTicket = e.nextTicket)
    {event : FetchEvent}
    (hevent : event = .cancelled fetch.ticket ∨ ∃ answer, event = .answered fetch.ticket answer) :
    Balanced d (history ++ [event]) := by
  have hasked : (history ++ [event]).filterMap FetchEvent.asked? =
      history.filterMap FetchEvent.asked? := by
    rcases hevent with rfl | ⟨answer, rfl⟩ <;> simp [List.filterMap_cons, FetchEvent.asked?]
  refine ⟨hasked ▸ h.ordered, hasked ▸ next ▸ h.below, fun ticket => ?_⟩
  have hb := h.balance ticket
  simp only [pendingTicket?_some was, Option.toList_some] at hb
  rcases hevent with rfl | ⟨answer, rfl⟩ <;>
    simp only [pendingTicket?_none pending, Option.toList_none, List.count_nil,
      List.filterMap_append, List.count_append, List.filterMap_cons, List.filterMap_nil,
      FetchEvent.cancelled?, FetchEvent.answered?, FetchEvent.accepted?] <;>
    omega

theorem Balanced.meet (hs : e.Sound) (h : Balanced e history) (o : Occasion) :
    Balanced (e.meet o).1 (history ++ e.fetchEvents o) := by
  -- A turn ends at most one fetch and adds at most one, so that the counts stay balanced.
  cases meet_settles hs o with
  | keep pending next events _ =>
    rw [events, List.append_nil]
    refine ⟨h.ordered, next ▸ h.below, ?_⟩
    rw [pendingTicket?, pending]
    exact h.balance
  | giveUp fetch was pending next events =>
    rw [events]
    exact h.ends was pending next (Or.inl rfl)
  | take l reasons _ pending next events =>
    obtain ⟨hordered, hbelow⟩ := h.asked l (.ok ())
    rw [events]
    refine ⟨hordered, next ▸ hbelow, fun ticket => ?_⟩
    have hb := h.balance ticket
    simp only [pendingTicket?_some pending, List.filterMap_append, List.count_append,
      filterMap_asking, filterMap_asking_accepted, Option.toList_some, List.count_nil, if_true]
    omega
  | refuse l err _ pending next events =>
    obtain ⟨hordered, hbelow⟩ := h.asked l (.error err)
    rw [events]
    refine ⟨hordered, next ▸ hbelow, fun ticket => ?_⟩
    have hb := h.balance ticket
    simp only [pendingTicket?_none pending, List.filterMap_append, List.count_append,
      filterMap_asking, filterMap_asking_accepted, Option.toList_none, List.count_nil,
      reduceCtorEq, if_false]
    omega
  | answer fetch answer was _ pending next events =>
    rw [events]
    exact h.ends was pending next (Or.inr ⟨answer, rfl⟩)

theorem start_balanced (selector : Selector) (config : Config) :
    Balanced (start selector config) [] := ⟨List.Pairwise.nil, nofun, fun _ => rfl⟩

theorem run_recorded_fst (e : Engine) (occasions : List Occasion) :
    (run recorded e occasions).1 = (run meet e occasions).1 := by
  have hstep : ∀ e o, (recorded e o).1 = (meet e o).1 := fun _ _ => rfl
  exact run_fst_congr hstep e occasions

theorem run_balanced (selector : Selector) (config : Config) (occasions : List Occasion) :
    (run recorded (start selector config) occasions).1.Sound ∧
      Balanced (run recorded (start selector config) occasions).1
        (run recorded (start selector config) occasions).2 :=
  run_invariant (motive := fun e history => e.Sound ∧ Balanced e history)
    (fun _ _ o h => ⟨meet_sound h.1 o, h.2.meet h.1 o⟩)
    ⟨start_sound selector config, start_balanced selector config⟩ occasions

/-- A request is made under the next ticket and for the place where the engine is. -/
theorem Settles.of_asked (h : Settles e o) {ticket : Ticket} {l : Location} {verdict : Verdict}
    (hm : FetchEvent.asked ticket l verdict ∈ e.fetchEvents o) :
    ticket = e.nextTicket ∧ (e.meet o).1.due? = some l := by
  have of_asking : ∀ {l' verdict'}, FetchEvent.asked ticket l verdict ∈ e.asking l' verdict' →
      ticket = e.nextTicket ∧ l = l' := by
    intro l' verdict' hm
    have hsame : ticket = e.nextTicket ∧ l = l' ∧ verdict = verdict' := by
      simpa [asking] using hm
    exact ⟨hsame.1, hsame.2.1⟩
  cases h with
  | keep _ _ events _ => simp [events] at hm
  | giveUp _ _ _ _ events => simp [events] at hm
  | take l' _ due _ _ events =>
    obtain ⟨rfl, rfl⟩ := of_asking (events ▸ hm)
    exact ⟨rfl, due⟩
  | refuse l' _ due _ _ events =>
    obtain ⟨rfl, rfl⟩ := of_asking (events ▸ hm)
    exact ⟨rfl, due⟩
  | answer _ _ _ _ _ _ events => simp [events] at hm

theorem asked_of_request {ticket : Ticket} {l : Location}
    (h : Effect.request ticket l ∈ (e.meet o).2) :
    FetchEvent.asked ticket l o.verdict ∈ e.fetchEvents o :=
  List.mem_append_right _ (List.mem_filterMap.mpr ⟨_, h, rfl⟩)

inductive Fate (e : Engine) (history : List FetchEvent) (ticket : Ticket) : Prop
  | pending (now : e.pendingTicket? = some ticket)
      (kept : ticket ∉ history.filterMap FetchEvent.cancelled?)
      (unanswered : ticket ∉ history.filterMap FetchEvent.answered?)
  | cancelled (gone : e.pendingTicket? ≠ some ticket)
      (once : (history.filterMap FetchEvent.cancelled?).count ticket = 1)
      (unanswered : ticket ∉ history.filterMap FetchEvent.answered?)
  | answered (gone : e.pendingTicket? ≠ some ticket)
      (kept : ticket ∉ history.filterMap FetchEvent.cancelled?)
      (once : (history.filterMap FetchEvent.answered?).count ticket = 1)

theorem count_toList (ticket : Ticket) (pending : Option Ticket) :
    pending.toList.count ticket = if pending = some ticket then 1 else 0 := by
  cases pending <;> simp [List.count_cons]

namespace Balanced

theorem count_accepted (h : Balanced e history) (ticket : Ticket) :
    (history.filterMap FetchEvent.accepted?).count ticket +
      (history.filterMap FetchEvent.refused?).count ticket ≤ 1 := by
  rw [← count_asked]
  exact List.nodup_iff_count_le_one.mp (h.ordered.imp Nat.ne_of_lt) ticket

theorem fate (h : Balanced e history) {ticket : Ticket}
    (ht : ticket ∈ history.filterMap FetchEvent.accepted?) : Fate e history ticket := by
  have hb := h.balance ticket
  have hle := h.count_accepted ticket
  have hpos := List.count_pos_iff.mpr ht
  rw [count_toList] at hb
  by_cases hp : e.pendingTicket? = some ticket
  · rw [if_pos hp] at hb
    exact .pending hp (List.count_eq_zero.mp (by omega)) (List.count_eq_zero.mp (by omega))
  · rw [if_neg hp] at hb
    by_cases hc : ticket ∈ history.filterMap FetchEvent.cancelled?
    · have hone := List.count_pos_iff.mpr hc
      exact .cancelled hp (by omega) (List.count_eq_zero.mp (by omega))
    · have hzero := List.count_eq_zero.mpr hc
      exact .answered hp hc (by omega)

theorem not_accepted (h : Balanced e history) {ticket : Ticket}
    (ht : ticket ∉ history.filterMap FetchEvent.accepted?) :
    e.pendingTicket? ≠ some ticket ∧ ticket ∉ history.filterMap FetchEvent.cancelled? ∧
      ticket ∉ history.filterMap FetchEvent.answered? := by
  have hb := h.balance ticket
  rw [List.count_eq_zero.mpr ht, count_toList] at hb
  refine ⟨fun hp => ?_, List.count_eq_zero.mp (by omega), List.count_eq_zero.mp (by omega)⟩
  rw [if_pos hp] at hb
  omega

theorem not_accepted_of_refused (h : Balanced e history) {ticket : Ticket}
    (ht : ticket ∈ history.filterMap FetchEvent.refused?) :
    ticket ∉ history.filterMap FetchEvent.accepted? := by
  have hle := h.count_accepted ticket
  have hpos := List.count_pos_iff.mpr ht
  exact List.count_eq_zero.mp (by omega)

end Balanced

/-- After any run, whatever the backend took or refused and also once the engine is disposed of:
requests carry growing tickets, the next one a greater ticket still and the place where the engine
then is; a fetch that was taken has one of three fates; a refused one has none, and nothing else is
ever given up. -/
theorem run_fetches_accounted (selector : Selector) (config : Config)
    (occasions : List Occasion) :
    let e := (run recorded (start selector config) occasions).1
    let history := (run recorded (start selector config) occasions).2
    (history.filterMap FetchEvent.asked?).Pairwise (· < ·) ∧
      (∀ o ticket l, Effect.request ticket l ∈ (e.meet o).2 →
        (∀ earlier ∈ history.filterMap FetchEvent.asked?, earlier < ticket) ∧
          (e.meet o).1.location? = some l) ∧
      (∀ ticket ∈ history.filterMap FetchEvent.accepted?, Fate e history ticket) ∧
      (∀ ticket ∈ history.filterMap FetchEvent.refused?, e.pendingTicket? ≠ some ticket ∧
        ticket ∉ history.filterMap FetchEvent.cancelled? ∧
        ticket ∉ history.filterMap FetchEvent.answered?) ∧
      ∀ ticket ∈ history.filterMap FetchEvent.cancelled?,
        ticket ∈ history.filterMap FetchEvent.accepted? := by
  intro e history
  obtain ⟨hs, hb⟩ : e.Sound ∧ Balanced e history := run_balanced selector config occasions
  refine ⟨hb.ordered, fun o ticket l hr => ?_, fun ticket ht => hb.fate ht, fun ticket ht => ?_,
    fun ticket ht => ?_⟩
  · obtain ⟨rfl, hl⟩ := (meet_settles hs o).of_asked (asked_of_request hr)
    exact ⟨hb.below, ((due?_eq_some _).mp hl).2.2⟩
  · exact hb.not_accepted (hb.not_accepted_of_refused ht)
  · by_contra hne
    exact (hb.not_accepted hne).2.1 ht

end Engine

end ProofPanel
