import ProofPanel.Relay.Network
import ProofPanel.Proofs.Relay.Outlet

/-!
# Who takes the host's messages

Two on a panel follow what the host tells it, its end of the relayed link and its dispatcher.
Between them they take every message, and none is taken by both: it fires one event, once, with
what it says, until the one that it is for is disposed of. So at each event what the host has said
comes out in order and whole, and text that is no JSON costs no more than the one error that
reports it.
-/
namespace ProofPanel.Relay

structure Panel where
  name : String
  network : Network
  dispatcher : Dispatcher := {}

namespace Panel

/-- What handlers of the panel's events do is an act as well: it comes after the message that fired
the event. -/
inductive Act
  | deliver (m : HostMessage)
  | send (value : Json)
  | dispose (r : Recipient)

namespace Act

def message? : Act → Option HostMessage
  | deliver m => some m
  | _ => none

def disposes (r : Recipient) : Act → Bool
  | dispose r' => r' = r
  | _ => false

end Act

inductive Traffic
  | delivered (m : HostMessage) (fired : List Firing)
  | sent (value : Json) (outcome : Except LinkError Unit)

namespace Traffic

def fired : Traffic → List Firing
  | delivered _ fired => fired
  | sent _ _ => []

def request? : Traffic → Option PanelMessage
  | sent value (.ok _) => some (.backendRequest value.print)
  | _ => none

end Traffic

/-- A panel that has just been connected, alone, to a network that delivers. Requests of others may
be waiting there. -/
def opened (n : Network) (name : String) : Panel where
  name
  network := ({ n with delivering := true, ends := [] }.connect name).1

def hear (d : Dispatcher) : NetworkEffect → Dispatcher × List Firing
  | .toPanel m =>
    let (d, notice) := d.dispatch m
    (d, (notice.map .notice).toList)
  | .arrived _ a => (d, [.arrival a])
  | .sent _ => (d, [])

def step (p : Panel) : Act → Panel × List Traffic
  | .deliver m =>
    let (dispatcher, fired) := run hear p.dispatcher (p.network.deliver m)
    ({ p with dispatcher }, [.delivered m fired])
  | .send value =>
    let (network, outcome) := p.network.send p.name value
    ({ p with network }, [.sent value outcome])
  | .dispose .linkEnd => ({ p with network := p.network.disposeEnd p.name }, [])
  | .dispose .dispatcher => ({ p with dispatcher := p.dispatcher.dispose }, [])

/-! ## What the acts so far come to -/

/-- The messages that are delivered before a recipient is disposed of. -/
def heard (r : Recipient) : List Act → List HostMessage
  | [] => []
  | .deliver m :: rest => m :: heard r rest
  | .send _ :: rest => heard r rest
  | .dispose r' :: rest => if r' = r then [] else heard r rest

def endAfter (acts : List Act) : PanelEnd where
  alive := !acts.any (·.disposes .linkEnd)

def dispatcherAfter (acts : List Act) : Dispatcher :=
  if acts.any (·.disposes .dispatcher) then { active := false }
  else { config := Config.settled (HostMessage.patches (heard .dispatcher acts)) }

def firedAfter (acts : List Act) (m : HostMessage) : List Firing :=
  (((dispatcherAfter acts).dispatch m).2.map Firing.notice).toList ++
    (((endAfter acts).receive? m).map Firing.arrival).toList

variable {α : Type} {n : Network} {acts : List Act} {act : Act} {p : Panel} {past : List Traffic}
  {m : HostMessage} {r : Recipient}

theorem disposes_iff : acts.any (·.disposes r) = true ↔ .dispose r ∈ acts := by
  rw [List.any_eq_true]
  constructor
  · rintro ⟨act, hact, hr⟩
    cases act with
    | dispose r' => exact of_decide_eq_true hr ▸ hact
    | _ => cases hr
  · exact fun h => ⟨_, h, decide_eq_true rfl⟩

theorem disposes_snoc (r : Recipient) (acts : List Act) (act : Act) :
    (acts ++ [act]).any (·.disposes r) = (acts.any (·.disposes r) || act.disposes r) := by
  rw [List.any_append, List.any_cons, List.any_nil, Bool.or_false]

theorem heard_snoc (r : Recipient) (acts : List Act) (act : Act) :
    heard r (acts ++ [act]) =
      heard r acts ++ if acts.any (·.disposes r) then [] else act.message?.toList := by
  induction acts with
  | nil =>
    cases act with
    | dispose r' => exact ite_self []
    | _ => rfl
  | cons first rest ih =>
    cases first with
    | dispose r' => by_cases hr : r' = r <;> simp [heard, Act.disposes, hr, ih]
    | _ => simp [heard, Act.disposes, ih]

/-- An act that delivers nothing leaves what has been heard as it is. -/
theorem heard_other (h : act.message? = none) : heard r (acts ++ [act]) = heard r acts := by
  rw [heard_snoc, h, Option.toList_none, ite_self, List.append_nil]

theorem endAfter_other (h : act.disposes .linkEnd = false) :
    endAfter (acts ++ [act]) = endAfter acts := by
  rw [endAfter, disposes_snoc, h, Bool.or_false, endAfter]

theorem endAfter_dispose (acts : List Act) :
    endAfter (acts ++ [.dispose .linkEnd]) = { alive := false } := by
  rw [endAfter, disposes_snoc]
  exact congrArg (fun gone => PanelEnd.mk !gone) (Bool.or_true _)

theorem dispatcherAfter_other (hm : act.message? = none)
    (h : act.disposes .dispatcher = false) :
    dispatcherAfter (acts ++ [act]) = dispatcherAfter acts := by
  rw [dispatcherAfter, disposes_snoc, h, Bool.or_false, heard_other hm, dispatcherAfter]

theorem dispatcherAfter_dispose (acts : List Act) :
    dispatcherAfter (acts ++ [.dispose .dispatcher]) = { active := false } :=
  if_pos (disposes_iff.mpr (List.mem_append_right _ List.mem_cons_self))

/-- The dispatcher takes every patch that it is given, until it is disposed of. -/
theorem dispatcherAfter_deliver (acts : List Act) (m : HostMessage) :
    dispatcherAfter (acts ++ [.deliver m]) = ((dispatcherAfter acts).dispatch m).1 := by
  have hstill : (acts ++ [Act.deliver m]).any (·.disposes .dispatcher) =
      acts.any (·.disposes .dispatcher) := (disposes_snoc _ acts _).trans (Bool.or_false _)
  rw [dispatcherAfter, dispatcherAfter, hstill, heard_snoc]
  split
  · rw [dispatch_inactive rfl]
  · rw [dispatch_settled, Act.message?, Option.toList_some, patches_snoc]

/-- A message fires nothing once the one that it is for is disposed of. -/
theorem firedAfter_disposed (hm : acts.any (·.disposes m.recipient) = true) :
    firedAfter acts m = [] := by
  rw [firedAfter]
  cases hr : m.recipient with
  | linkEnd =>
    rw [hr] at hm
    rw [dispatch_backend _ hr, endAfter, hm]
    rfl
  | dispatcher =>
    rw [hr] at hm
    rw [receive?_other _ hr, dispatcherAfter, if_pos hm]
    rfl

/-- Until then it fires one event with what it says. -/
theorem firedAfter_live (hm : acts.any (·.disposes m.recipient) = false) :
    ∃ f, firedAfter acts m = [f] ∧
      Conveys (HostMessage.patches (heard .dispatcher acts)) m f := by
  rw [firedAfter]
  cases hr : m.recipient with
  | linkEnd =>
    rw [hr] at hm
    obtain ⟨a, ha, hconveys⟩ :=
      receive?_live (HostMessage.patches (heard .dispatcher acts)) hr
    have halive : endAfter acts = {} := by rw [endAfter, hm]; rfl
    rw [dispatch_backend _ hr, halive, ha]
    exact ⟨.arrival a, rfl, hconveys⟩
  | dispatcher =>
    rw [hr] at hm
    obtain ⟨notice, hnotice, hconveys⟩ :=
      dispatch_notice (HostMessage.patches (heard .dispatcher acts)) hr
    rw [receive?_other _ hr, dispatcherAfter, hm, if_neg Bool.false_ne_true, hnotice]
    exact ⟨.notice notice, rfl, hconveys⟩

/-- What a message fires is what it adds to what has been said at each event. -/
theorem said_deliver (acts : List Act) (m : HostMessage) (o : Outlet α) :
    o.said (heard o.owner (acts ++ [.deliver m])) =
      o.said (heard o.owner acts) ++ (firedAfter acts m).filterMap (·.value? o) := by
  cases hm : acts.any (·.disposes m.recipient) with
  | true =>
    rw [firedAfter_disposed hm, List.filterMap_nil, List.append_nil, heard_snoc]
    split
    · rw [List.append_nil]
    · next ho =>
      -- the event's owner still hears, so the message is for the other one
      refine o.said_other _ fun heq => ho ?_
      rw [← heq, hm]
  | false =>
    obtain ⟨f, hf, hconveys⟩ := firedAfter_live hm
    rw [hf, heard_snoc, List.filterMap_cons]
    by_cases howner : m.recipient = o.owner
    · rw [← howner, hm]
      have hsaid := hconveys.said_snoc o (heard m.recipient acts) fun ho => by rw [howner, ho]
      refine hsaid.trans ?_
      cases f.value? o <;> rfl
    · have hvalue : f.value? o = none := f.value?_other o (hconveys.owner_eq ▸ howner)
      rw [hvalue, List.filterMap_nil, List.append_nil]
      split
      · rw [List.append_nil]
      · exact o.said_other _ howner

/-! ## The panel after the acts -/

structure Tracks (n : Network) (acts : List Act) (p : Panel) (past : List Traffic) : Prop where
  delivering : p.network.delivering = true
  ends : p.network.ends = [(p.name, endAfter acts)]
  dispatcher : p.dispatcher = dispatcherAfter acts
  fired : ∀ {α : Type} (o : Outlet α),
    (past.flatMap Traffic.fired).filterMap (·.value? o) = o.said (heard o.owner acts)
  toHost : p.network.toHost = n.toHost ++ past.filterMap Traffic.request?

theorem tracks_opened (n : Network) (name : String) : Tracks n [] (opened n name) [] where
  delivering := rfl
  ends := rfl
  dispatcher := rfl
  fired o := by cases o <;> rfl
  toHost := (List.append_nil _).symm

theorem send_alone {name : String} {e : PanelEnd} (he : n.ends = [(name, e)]) (value : Json) :
    n.send name value =
      if e.alive then ({ n with toHost := n.toHost ++ [.backendRequest value.print] }, .ok ())
      else (n, .error .disposed) := by
  have hend : n.end? name = some e := by rw [Network.end?, he]; simp
  cases ha : e.alive <;> simp [Network.send, hend, PanelEnd.send, ha]

theorem disposeEnd_alone {name : String} {e : PanelEnd} (he : n.ends = [(name, e)]) :
    n.disposeEnd name = { n with ends := [(name, { alive := false })] } := by
  rw [Network.disposeEnd, he, Network.updateLast]
  simp

theorem Tracks.step_deliver (h : Tracks n acts p past) (m : HostMessage) :
    p.step (.deliver m) =
      ({ p with dispatcher := (p.dispatcher.dispatch m).1 }, [.delivered m (firedAfter acts m)]) := by
  have hdeliver : p.network.deliver m =
      .toPanel m :: (((endAfter acts).receive? m).map (NetworkEffect.arrived p.name)).toList := by
    rw [Network.deliver, if_pos h.delivering, h.ends]
    cases hm : (endAfter acts).receive? m <;> simp [hm]
  rw [step, hdeliver, firedAfter, ← h.dispatcher]
  cases (endAfter acts).receive? m <;> simp [run, hear]

/-- A live end posts what it is given to send, and one that has been disposed of refuses it. -/
theorem Tracks.step_send (h : Tracks n acts p past) (value : Json) :
    p.step (.send value) =
      if acts.any (·.disposes .linkEnd) then (p, [.sent value (.error .disposed)])
      else ({ p with network :=
        { p.network with toHost := p.network.toHost ++ [.backendRequest value.print] } },
        [.sent value (.ok ())]) := by
  rw [step, send_alone h.ends, endAfter]
  cases acts.any (·.disposes .linkEnd) <;> rfl

/-- Nothing is fired by an act that delivers nothing. -/
theorem Tracks.fired_other (h : Tracks n acts p past) (hact : act.message? = none)
    {more : List Traffic} (hmore : more.flatMap Traffic.fired = []) (o : Outlet α) :
    ((past ++ more).flatMap Traffic.fired).filterMap (·.value? o) =
      o.said (heard o.owner (acts ++ [act])) := by
  rw [heard_other hact, List.flatMap_append, hmore, List.append_nil, h.fired]

theorem Tracks.toHost_other (h : Tracks n acts p past) {more : List Traffic}
    (hmore : more.filterMap Traffic.request? = []) :
    p.network.toHost = n.toHost ++ (past ++ more).filterMap Traffic.request? := by
  rw [List.filterMap_append, hmore, List.append_nil, h.toHost]

theorem Tracks.deliver (h : Tracks n acts p past) (m : HostMessage) :
    Tracks n (acts ++ [.deliver m]) (p.step (.deliver m)).1
      (past ++ (p.step (.deliver m)).2) := by
  rw [h.step_deliver]
  refine ⟨h.delivering, ?_, ?_, fun o => ?_, h.toHost_other rfl⟩
  · rw [endAfter_other rfl]
    exact h.ends
  · rw [dispatcherAfter_deliver, h.dispatcher]
  · rw [said_deliver, List.flatMap_append, List.filterMap_append, h.fired,
      List.flatMap_singleton]
    rfl

theorem Tracks.send (h : Tracks n acts p past) (value : Json) :
    Tracks n (acts ++ [.send value]) (p.step (.send value)).1
      (past ++ (p.step (.send value)).2) := by
  have hends : p.network.ends = [(p.name, endAfter (acts ++ [.send value]))] := by
    rw [endAfter_other rfl]
    exact h.ends
  have hdispatcher : p.dispatcher = dispatcherAfter (acts ++ [.send value]) := by
    rw [dispatcherAfter_other rfl rfl]
    exact h.dispatcher
  rw [h.step_send]
  split
  · exact ⟨h.delivering, hends, hdispatcher, h.fired_other rfl rfl, h.toHost_other rfl⟩
  · refine ⟨h.delivering, hends, hdispatcher, h.fired_other rfl rfl, ?_⟩
    rw [List.filterMap_append, ← List.append_assoc, ← h.toHost]
    rfl

theorem Tracks.dispose (h : Tracks n acts p past) (r : Recipient) :
    Tracks n (acts ++ [.dispose r]) (p.step (.dispose r)).1
      (past ++ (p.step (.dispose r)).2) := by
  cases r with
  | linkEnd =>
    rw [step, disposeEnd_alone h.ends]
    refine ⟨h.delivering, ?_, ?_, h.fired_other rfl rfl, h.toHost_other rfl⟩
    · rw [endAfter_dispose]
    · rw [dispatcherAfter_other rfl rfl]
      exact h.dispatcher
  | dispatcher =>
    refine ⟨h.delivering, ?_, ?_, h.fired_other rfl rfl, h.toHost_other rfl⟩
    · rw [endAfter_other rfl]
      exact h.ends
    · rw [dispatcherAfter_dispose]
      rfl

theorem Tracks.step (h : Tracks n acts p past) (act : Act) :
    Tracks n (acts ++ [act]) (p.step act).1 (past ++ (p.step act).2) := by
  cases act with
  | deliver m => exact h.deliver m
  | send value => exact h.send value
  | dispose r => exact h.dispose r

theorem run_tracks (n : Network) (name : String) (acts : List Act) :
    Tracks n acts (run step (opened n name) acts).1 (run step (opened n name) acts).2 :=
  run_history (fun _ _ _ act h => h.step act) (tracks_opened n name) acts

/-! ## Along a run -/

/-- A message fires one event with what it says, or nothing if the one that it is for is gone. One
of the backend changes nothing on the panel. -/
theorem Tracks.taken (h : Tracks n acts p past) (m : HostMessage) :
    ∃ fired, (p.step (.deliver m)).2 = [.delivered m fired] ∧
      (.dispose m.recipient ∈ acts → fired = []) ∧
      (.dispose m.recipient ∉ acts → ∃ f, fired = [f] ∧ f.owner = m.recipient ∧
        Conveys (HostMessage.patches (heard .dispatcher acts)) m f) ∧
      (m.recipient = .linkEnd → (p.step (.deliver m)).1 = p) := by
  rw [h.step_deliver]
  refine ⟨_, rfl, fun hm => firedAfter_disposed (disposes_iff.mpr hm), fun hm => ?_, fun hm => ?_⟩
  · obtain ⟨f, hf, hconveys⟩ := firedAfter_live (eq_false_of_ne_true (mt disposes_iff.mp hm))
    exact ⟨f, hf, hconveys.owner_eq, hconveys⟩
  · rw [dispatch_backend _ hm]

theorem Tracks.answered (h : Tracks n acts p past) (value : Json) :
    ∃ outcome, (p.step (.send value)).2 = [.sent value outcome] ∧
      (.dispose .linkEnd ∈ acts → outcome = .error .disposed) ∧
      (.dispose .linkEnd ∉ acts → outcome = .ok ()) := by
  rw [h.step_send]
  split
  · next hd => exact ⟨_, rfl, fun _ => rfl, fun hnot => absurd (disposes_iff.mp hd) hnot⟩
  · next hd => exact ⟨_, rfl, fun hin => absurd (disposes_iff.mpr hin) hd, fun _ => rfl⟩

/-- A run around an act with a single outcome. -/
theorem run_around (p : Panel) (before after : List Act) {act : Act} {t : Traffic}
    (ht : ((run step p before).1.step act).2 = [t]) :
    run step p (before ++ act :: after) =
      ((run step ((run step p before).1.step act).1 after).1,
        (run step p before).2 ++ t :: (run step ((run step p before).1.step act).1 after).2) := by
  have hcons (q : Panel) : run step q (act :: after) =
      ((run step (q.step act).1 after).1, (q.step act).2 ++ (run step (q.step act).1 after).2) :=
    rfl
  rw [run_append, hcons, ht]
  rfl

/-- Whatever is done on a panel, in whatever order: a message fires nothing once the one that it is
for has been disposed of; until then it fires a single event, of the link's end if it is of the
backend and of the dispatcher otherwise, with what it says. A message of the backend leaves no
trace besides, be it JSON or not: all goes on as if it had never come. So each event is fired with
what its owner has heard there, in order. A value is posted to the host as a request as long as the
end is alive; after that it is refused, and nothing is posted. -/
theorem run_message_fires_once (n : Network) (name : String) (acts : List Act) :
    let start := opened n name
    let traffic := (run step start acts).2
    (∀ before m after, acts = before ++ .deliver m :: after → ∃ fired later,
      traffic = (run step start before).2 ++ .delivered m fired :: later ∧
      (.dispose m.recipient ∈ before → fired = []) ∧
      (.dispose m.recipient ∉ before → ∃ f, fired = [f] ∧ f.owner = m.recipient ∧
        Conveys (HostMessage.patches (heard .dispatcher before)) m f) ∧
      (m.recipient = .linkEnd → run step start (before ++ after) =
        ((run step start acts).1, (run step start before).2 ++ later))) ∧
    (∀ {α : Type} (o : Outlet α),
      (traffic.flatMap Traffic.fired).filterMap (·.value? o) = o.said (heard o.owner acts)) ∧
    (∀ before value after, acts = before ++ .send value :: after → ∃ outcome later,
      traffic = (run step start before).2 ++ .sent value outcome :: later ∧
      (.dispose .linkEnd ∈ before → outcome = .error .disposed) ∧
      (.dispose .linkEnd ∉ before → outcome = .ok ())) ∧
    (run step start acts).1.network.toHost = n.toHost ++ traffic.filterMap Traffic.request? := by
  intro start traffic
  have h : Tracks n acts (run step start acts).1 traffic := run_tracks n name acts
  refine ⟨?_, h.fired, ?_, h.toHost⟩
  · rintro before m after rfl
    obtain ⟨fired, hstep, hgone, hlive, hback⟩ := (run_tracks n name before).taken m
    have hrun := run_around start before after hstep
    refine ⟨fired, _, congrArg Prod.snd hrun, hgone, hlive, fun hm => ?_⟩
    rw [hrun, run_append, hback hm]
  · rintro before value after rfl
    obtain ⟨outcome, hstep, hgone, hlive⟩ := (run_tracks n name before).answered value
    have hrun := run_around start before after hstep
    exact ⟨outcome, _, congrArg Prod.snd hrun, hgone, hlive⟩

/-- Between two messages comes one whose text is no JSON; then the end is disposed of and asked to
send. -/
theorem run_message_fires_once_spoilt :
    let start := opened { carriage := .direct } "panel"
    let before : List Act := [.deliver .pause]
    let after : List Act := [.deliver (.backendMessage "1"), .dispose .linkEnd]
    let acts := before ++ .deliver (.backendMessage "\x7bnot json") :: after ++ [.send .null]
    let spoilt := Firing.arrival (.failure
      (.malformed "server_event payload: key must be a string at line 1 column 2"))
    (.dispose .linkEnd ∉ before ∧ .dispose .linkEnd ∈
      before ++ .deliver (.backendMessage "\x7bnot json") :: after) ∧
    ∃ later, (run step start acts).2 = (run step start before).2 ++
        .delivered (.backendMessage "\x7bnot json") [spoilt] :: later ∧
      (run step start (before ++ (after ++ [.send .null]))).2 =
        (run step start before).2 ++ later ∧
      .sent .null (.error .disposed) ∈ (run step start acts).2 := by
  intro start before after acts spoilt
  have hlive : .dispose .linkEnd ∉ before := by simp [before]
  have hgone : .dispose .linkEnd ∈
      before ++ .deliver (.backendMessage "\x7bnot json") :: after := by simp [before, after]
  obtain ⟨hmessages, -, hsends, -⟩ := run_message_fires_once { carriage := .direct } "panel" acts
  obtain ⟨fired, later, htraffic, -, hfired, hwithout⟩ :=
    hmessages before (.backendMessage "\x7bnot json") (after ++ [.send .null]) rfl
  obtain ⟨outcome, rest, hsent, hrefused, -⟩ :=
    hsends (before ++ .deliver (.backendMessage "\x7bnot json") :: after) .null [] rfl
  obtain ⟨f, rfl, -, hconveys⟩ := hfired hlive
  have hparse : Json.parse "\x7bnot json" = .error ⟨.keyNotString, 1, 2⟩ := rfl
  obtain rfl : f = spoilt := by
    cases hconveys with
    | message h => rw [hparse] at h; cases h
    | spoiltMessage h => rw [hparse] at h; cases h; rfl
  refine ⟨⟨hlive, hgone⟩, later, htraffic, congrArg Prod.snd (hwithout rfl), ?_⟩
  rw [hsent, hrefused hgone]
  exact List.mem_append_right _ List.mem_cons_self

end Panel

end ProofPanel.Relay
