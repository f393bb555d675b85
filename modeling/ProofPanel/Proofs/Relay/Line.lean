import ProofPanel.Relay

/-!
# A link relayed from end to end

A panel end and a host that relays its link to it, with one channel in each direction between them.
Whatever the order in which the panel sends, the host handles what it is sent, the link brings
something in and the panel takes what the host has posted: nothing is lost, doubled or reordered.
-/
namespace ProofPanel

def Arrival.payload : Arrival → Json
  | .message value => value
  | .failure err => err.toJson

def Arrival.across : Arrival → Arrival
  | .message value => .message value
  | .failure err => .failure (.remote err.toJson)

/-- Reading what is printed of a value gives the value back. -/
def Json.Faithful (value : Json) : Prop := Json.parse value.print = .ok value

namespace Relay

structure Line where
  toHost : List PanelMessage := []
  toPanel : List HostMessage := []

/-- Something that happens at one of the ends. How the link takes a value may differ each time. -/
inductive Move
  | send (value : Json)
  | handle (link : (value : Json) → Delivery)
  | arrive (a : Arrival)
  | deliver

inductive Traffic
  | sent (value : Json)
  | handled (link : (value : Json) → Delivery) (h : Handled)
  | relayed (a : Arrival)
  | received (a : Option Arrival)

namespace Traffic

def sent? : Traffic → Option Json
  | sent value => some value
  | _ => none

def given? : Traffic → Option Json
  | handled _ h => h.given
  | _ => none

/-- What the host has to tell the panel: what the link brings in, and the error that a request is
answered with. -/
def news : Traffic → List Arrival
  | handled link h =>
    (h.given.map fun value => (link value).arrivals).getD [] ++
      match h.outcome with
      | .ok () => []
      | .error err => [.failure err]
  | relayed a => [a]
  | _ => []

def posted : Traffic → List HostMessage
  | handled _ h => h.posted
  | relayed a => [ofArrival a]
  | _ => []

def fired? : Traffic → Option Arrival
  | received a => a
  | _ => none

def values : Traffic → List Json
  | sent value => [value]
  | t => t.news.map Arrival.payload

end Traffic

namespace Line

def step (s : Line) : Move → Line × List Traffic
  | .send value =>
    match PanelEnd.send {} value with
    | .ok m => ({ s with toHost := s.toHost ++ [m] }, [.sent value])
    | .error _ => (s, [])
  | .handle link =>
    match s.toHost with
    | [] => (s, [])
    | m :: rest =>
      let h := Relay.handle true link m
      ({ toHost := rest, toPanel := s.toPanel ++ h.posted }, [.handled link h])
  | .arrive a => ({ s with toPanel := s.toPanel ++ [ofArrival a] }, [.relayed a])
  | .deliver =>
    match s.toPanel with
    | [] => (s, [])
    | m :: rest => ({ s with toPanel := rest }, [.received (PanelEnd.receive? {} m)])

def run (s : Line) : List Move → Line × List Traffic
  | [] => (s, [])
  | move :: moves =>
    let (s, traffic) := s.step move
    let (s, later) := s.run moves
    (s, traffic ++ later)

end Line

open Traffic

/-! ## Requests -/

/-- A request is taken by the link, and the host posts nothing but what the link brings in
meanwhile; or it is refused, and the host posts one error after that, the one it returns. -/
def Answered (link : Json → Delivery) (h : Handled) (value : Json) : Prop :=
  h.given = some value ∧
    (((link value).outcome = .ok () ∧ h.outcome = .ok () ∧
        h.posted = (link value).arrivals.map ofArrival) ∨
      ∃ err, (link value).outcome = .error err ∧ h.outcome = .error err ∧
        h.posted = (link value).arrivals.map ofArrival ++ [.backendFailure err.toJson.print])

theorem handle_answered {value : Json} (hv : value.Faithful) (link : Json → Delivery) :
    Answered link (handle true link (.backendRequest value.print)) value := by
  have hhandle : handle true link (.backendRequest value.print) =
      match (link value).outcome with
      | .ok () =>
        { given := some value, sent := some value
          posted := (link value).arrivals.map ofArrival }
      | .error err =>
        { given := some value
          posted := (link value).arrivals.map ofArrival ++ [ofFailure err]
          outcome := .error err } := by
    rw [handle, hv]
    rfl
  rw [hhandle, Answered]
  cases (link value).outcome with
  | ok _ => exact ⟨rfl, .inl ⟨rfl, rfl, rfl⟩⟩
  | error err => exact ⟨rfl, .inr ⟨err, rfl, rfl, rfl⟩⟩

/-- What is posted for a request is what there is to tell. -/
theorem Answered.posted {link : Json → Delivery} {h : Handled} {value : Json}
    (ha : Answered link h value) : h.posted = (Traffic.handled link h).news.map ofArrival := by
  obtain ⟨hgiven, ⟨_, houtcome, hposted⟩ | ⟨err, _, houtcome, hposted⟩⟩ := ha
  · simp only [Traffic.news, hgiven, houtcome, hposted, Option.map_some, Option.getD_some,
      List.append_nil]
  · simp only [Traffic.news, hgiven, houtcome, hposted, Option.map_some, Option.getD_some,
      List.map_append, List.map_cons, List.map_nil]
    rfl

/-! ## What arrives at the panel's end -/

theorem receive?_ofArrival {a : Arrival} (ha : a.payload.Faithful) :
    PanelEnd.receive? {} (ofArrival a) = some a.across := by
  cases a with
  | message value =>
    have hparse : Json.parse value.print = .ok value := ha
    rw [PanelEnd.receive?, if_pos rfl, ofArrival, arrival?, hparse]
    rfl
  | failure err =>
    have hparse : Json.parse err.toJson.print = .ok err.toJson := ha
    rw [PanelEnd.receive?, if_pos rfl, ofArrival, ofFailure, arrival?, hparse]
    rfl

/-! ## Along a run -/

/-- The line after some traffic: what has been sent but not yet been given to the link, and what
has been told but not yet reached the panel. -/
structure Line.Carries (s : Line) (past : List Traffic) : Prop where
  requests : ∃ waiting, past.filterMap sent? = past.filterMap given? ++ waiting ∧
    s.toHost = waiting.map fun value => .backendRequest value.print
  news : ∃ told waiting, past.flatMap Traffic.news = told ++ waiting ∧
    s.toPanel = waiting.map ofArrival ∧ past.filterMap fired? = told.map Arrival.across
  answered : ∀ link h, .handled link h ∈ past → ∃ value, Answered link h value
  posted : past.flatMap Traffic.posted = (past.flatMap Traffic.news).map ofArrival

theorem Line.carries_start : Line.Carries {} [] where
  requests := ⟨[], rfl, rfl⟩
  news := ⟨[], [], rfl, rfl, rfl⟩
  answered _ _ := nofun
  posted := rfl

section

variable {s : Line} {past : List Traffic}

theorem sent_faithful (hpast : ∀ t ∈ past, ∀ value ∈ t.values, value.Faithful) {value : Json}
    (h : value ∈ past.filterMap sent?) : value.Faithful := by
  obtain ⟨t, ht, hsent⟩ := List.mem_filterMap.mp h
  cases t with
  | sent value' =>
    obtain rfl : value' = value := Option.some.inj hsent
    exact hpast _ ht value' List.mem_cons_self
  | _ => cases hsent

theorem news_faithful (hpast : ∀ t ∈ past, ∀ value ∈ t.values, value.Faithful) {a : Arrival}
    (h : a ∈ past.flatMap Traffic.news) : a.payload.Faithful := by
  obtain ⟨t, ht, ha⟩ := List.mem_flatMap.mp h
  refine hpast t ht a.payload ?_
  cases t with
  | sent value => cases ha
  | _ => exact List.mem_map_of_mem ha

theorem filterMap_snoc {α : Type} (f : Traffic → Option α) (past : List Traffic) (t : Traffic) :
    (past ++ [t]).filterMap f = past.filterMap f ++ (f t).toList := by
  rw [List.filterMap_append]
  cases h : f t with
  | none => rw [List.filterMap_cons_none h]; rfl
  | some a => rw [List.filterMap_cons_some h]; rfl

theorem flatMap_snoc {α : Type} (f : Traffic → List α) (past : List Traffic) (t : Traffic) :
    (past ++ [t]).flatMap f = past.flatMap f ++ f t := by
  rw [List.flatMap_append, List.flatMap_singleton]

/-- What is left as it is by traffic that is no request's answer. -/
theorem answered_snoc {t : Traffic} (hs : s.Carries past) (ht : ∀ link h, t ≠ .handled link h) :
    ∀ link h, .handled link h ∈ past ++ [t] → ∃ value, Answered link h value := by
  intro link h hmem
  rcases List.mem_append.mp hmem with hpast | hlast
  · exact hs.answered link h hpast
  · exact absurd (List.mem_singleton.mp hlast).symm (ht link h)

theorem Line.Carries.send (hs : s.Carries past) (value : Json) :
    (Line.mk (s.toHost ++ [.backendRequest value.print]) s.toPanel).Carries
      (past ++ [.sent value]) := by
  obtain ⟨waiting, hsent, htoHost⟩ := hs.requests
  obtain ⟨told, untold, hnews, htoPanel, hfired⟩ := hs.news
  refine ⟨⟨waiting ++ [value], ?_, ?_⟩, ⟨told, untold, ?_, htoPanel, ?_⟩,
    answered_snoc hs nofun, ?_⟩
  · rw [filterMap_snoc, filterMap_snoc, hsent, List.append_assoc]
    exact congrArg (· ++ (waiting ++ [value])) (List.append_nil _).symm
  · rw [htoHost, List.map_append]
    rfl
  · rw [flatMap_snoc, hnews]
    exact List.append_nil _
  · rw [filterMap_snoc, hfired]
    exact List.append_nil _
  · rw [flatMap_snoc, flatMap_snoc, hs.posted, List.map_append]
    rfl

theorem Line.Carries.arrive (hs : s.Carries past) (a : Arrival) :
    (Line.mk s.toHost (s.toPanel ++ [ofArrival a])).Carries (past ++ [.relayed a]) := by
  obtain ⟨waiting, hsent, htoHost⟩ := hs.requests
  obtain ⟨told, untold, hnews, htoPanel, hfired⟩ := hs.news
  refine ⟨⟨waiting, ?_, htoHost⟩, ⟨told, untold ++ [a], ?_, ?_, ?_⟩,
    answered_snoc hs nofun, ?_⟩
  · rw [filterMap_snoc, filterMap_snoc, hsent]
    exact (List.append_nil _).trans (congrArg (· ++ waiting) (List.append_nil _).symm)
  · rw [flatMap_snoc, hnews, List.append_assoc]
    rfl
  · rw [htoPanel, List.map_append]
    rfl
  · rw [filterMap_snoc, hfired]
    exact List.append_nil _
  · rw [flatMap_snoc, flatMap_snoc, hs.posted, List.map_append]
    rfl

theorem Line.Carries.handle (hs : s.Carries past)
    (hpast : ∀ t ∈ past, ∀ value ∈ t.values, value.Faithful) (link : Json → Delivery)
    {m : PanelMessage} {rest : List PanelMessage} (hq : s.toHost = m :: rest) :
    (Line.mk rest (s.toPanel ++ (Relay.handle true link m).posted)).Carries
      (past ++ [.handled link (Relay.handle true link m)]) := by
  obtain ⟨waiting, hsent, htoHost⟩ := hs.requests
  obtain ⟨told, untold, hnews, htoPanel, hfired⟩ := hs.news
  rw [hq] at htoHost
  obtain ⟨value, waiting, rfl, rfl, rfl⟩ := List.map_eq_cons_iff.mp htoHost.symm
  have hv : value.Faithful :=
    sent_faithful hpast (hsent ▸ List.mem_append_right _ List.mem_cons_self)
  have ha := handle_answered hv link
  generalize Relay.handle true link (.backendRequest value.print) = h at ha
  refine ⟨⟨waiting, ?_, rfl⟩, ⟨told, untold ++ (Traffic.handled link h).news, ?_, ?_, ?_⟩,
    fun link' h' hmem => ?_, ?_⟩
  · rw [filterMap_snoc, filterMap_snoc, hsent, Traffic.given?, ha.1]
    exact (List.append_nil _).trans (List.append_cons _ _ _)
  · rw [flatMap_snoc, hnews, List.append_assoc]
  · rw [htoPanel, ha.posted, List.map_append]
  · rw [filterMap_snoc, hfired]
    exact List.append_nil _
  · rcases List.mem_append.mp hmem with hearlier | hlast
    · exact hs.answered link' h' hearlier
    · cases List.mem_singleton.mp hlast
      exact ⟨value, ha⟩
  · rw [flatMap_snoc, flatMap_snoc, hs.posted, List.map_append, ← ha.posted]
    rfl

theorem Line.Carries.deliver (hs : s.Carries past)
    (hpast : ∀ t ∈ past, ∀ value ∈ t.values, value.Faithful) {m : HostMessage}
    {rest : List HostMessage} (hq : s.toPanel = m :: rest) :
    (Line.mk s.toHost rest).Carries (past ++ [.received (PanelEnd.receive? {} m)]) := by
  obtain ⟨waiting, hsent, htoHost⟩ := hs.requests
  obtain ⟨told, untold, hnews, htoPanel, hfired⟩ := hs.news
  rw [hq] at htoPanel
  obtain ⟨a, untold, rfl, rfl, rfl⟩ := List.map_eq_cons_iff.mp htoPanel.symm
  have ha : a.payload.Faithful :=
    news_faithful hpast (hnews ▸ List.mem_append_right _ List.mem_cons_self)
  refine ⟨⟨waiting, ?_, htoHost⟩, ⟨told ++ [a], untold, ?_, rfl, ?_⟩, answered_snoc hs nofun, ?_⟩
  · rw [filterMap_snoc, filterMap_snoc, hsent]
    exact (List.append_nil _).trans (congrArg (· ++ waiting) (List.append_nil _).symm)
  · rw [flatMap_snoc, hnews]
    exact (List.append_nil _).trans (List.append_cons _ _ _)
  · rw [filterMap_snoc, hfired, List.map_append, Traffic.fired?, receive?_ofArrival ha]
    rfl
  · rw [flatMap_snoc, flatMap_snoc, hs.posted, List.map_append]
    rfl

theorem Line.Carries.step (hs : s.Carries past)
    (hpast : ∀ t ∈ past, ∀ value ∈ t.values, value.Faithful) (move : Move) :
    (s.step move).1.Carries (past ++ (s.step move).2) := by
  have hstill : s.Carries (past ++ []) := (List.append_nil past).symm ▸ hs
  cases move with
  | send value => exact hs.send value
  | arrive a => exact hs.arrive a
  | handle link =>
    rw [Line.step]
    cases hq : s.toHost with
    | nil => exact hstill
    | cons m rest => exact hs.handle hpast link hq
  | deliver =>
    rw [Line.step]
    cases hq : s.toPanel with
    | nil => exact hstill
    | cons m rest => exact hs.deliver hpast hq

theorem Line.Carries.run (hs : s.Carries past) (moves : List Move)
    (h : ∀ t ∈ past ++ (s.run moves).2, ∀ value ∈ t.values, value.Faithful) :
    (s.run moves).1.Carries (past ++ (s.run moves).2) := by
  induction moves generalizing s past with
  | nil =>
    rw [Line.run, List.append_nil]
    exact hs
  | cons move moves ih =>
    have hpast : ∀ t ∈ past, ∀ value ∈ t.values, value.Faithful :=
      fun t ht => h t (List.mem_append_left _ ht)
    have hrest := ih (hs.step hpast move) (by rw [List.append_assoc]; exact h)
    rw [List.append_assoc] at hrest
    exact hrest

end

/-- On a line between a panel end and a host, over any link and in any order of events: what the
link is given are the first of the values that the panel sent, each once. Every request is taken
without an error posted for it, or refused with one, which is the error that is returned. And what
comes out at the panel's end are the first of the host's postings, messages as they came and errors
as ones of the other side. Reading must give back what was printed of the values in question. -/
theorem run_relayed_in_order (moves : List Move)
    (h : ∀ t ∈ (Line.run {} moves).2, ∀ value ∈ t.values, value.Faithful) :
    let traffic := (Line.run {} moves).2
    traffic.filterMap given? <+: traffic.filterMap sent? ∧
      (∀ link handled, .handled link handled ∈ traffic →
        ∃ value, Answered link handled value) ∧
      traffic.flatMap Traffic.posted = (traffic.flatMap Traffic.news).map ofArrival ∧
      traffic.filterMap fired? <+: (traffic.flatMap Traffic.news).map Arrival.across := by
  intro traffic
  have hrun : (Line.run {} moves).1.Carries traffic := Line.carries_start.run moves h
  obtain ⟨waiting, hsent, _⟩ := hrun.requests
  obtain ⟨told, untold, hnews, _, hfired⟩ := hrun.news
  refine ⟨⟨waiting, hsent.symm⟩, hrun.answered, hrun.posted, ?_⟩
  rw [hfired, hnews, List.map_append]
  exact List.prefix_append _ _

/-- One request is taken while a message arrives, and one is refused. -/
theorem run_relayed_in_order_refused :
    let moves : List Move := [.send (.arr [.str "goal"]), .send .null,
      .handle fun _ => { arrivals := [.message (.arr [.str "a \x22goal\x22"])] },
      .handle fun _ => { outcome := .error .disposed }, .deliver, .deliver]
    let traffic := (Line.run {} moves).2
    (∀ t ∈ traffic, ∀ value ∈ t.values, value.Faithful) ∧
      traffic.filterMap given? <+: traffic.filterMap sent? ∧
      traffic.filterMap given? = [.arr [.str "goal"], .null] ∧
      traffic.filterMap fired? <+: (traffic.flatMap Traffic.news).map Arrival.across ∧
      traffic.filterMap fired? = [.message (.arr [.str "a \x22goal\x22"]),
        .failure (.remote LinkError.disposed.toJson)] := by
  intro moves traffic
  have hasked : Json.parse (Json.print (.arr [.str "goal"])) = .ok (.arr [.str "goal"]) := by cbv
  have hnull : Json.parse (Json.print .null) = .ok .null := by cbv
  have hquoted : Json.parse (Json.print (.arr [.str "a \x22goal\x22"])) =
      .ok (.arr [.str "a \x22goal\x22"]) := by cbv
  have hrefused : Json.parse LinkError.disposed.toJson.print = .ok LinkError.disposed.toJson := by
    have hform : LinkError.disposed.toJson =
        .obj [("error", .str "disposed"), ("message", .str "connection disposed")] := rfl
    rw [hform]
    cbv
  have htraffic : traffic = [.sent (.arr [.str "goal"]), .sent .null,
      .handled (fun _ => { arrivals := [.message (.arr [.str "a \x22goal\x22"])] })
        { given := some (.arr [.str "goal"]), sent := some (.arr [.str "goal"])
          posted := [.backendMessage (Json.print (.arr [.str "a \x22goal\x22"]))] },
      .handled (fun _ => { outcome := .error .disposed })
        { given := some .null, posted := [.backendFailure LinkError.disposed.toJson.print]
          outcome := .error .disposed },
      .received (some (.message (.arr [.str "a \x22goal\x22"]))),
      .received (some (.failure (.remote LinkError.disposed.toJson)))] := by
    simp [traffic, moves, Line.run, Line.step, PanelEnd.send, handle, hasked, hnull,
      PanelEnd.receive?, ofArrival, ofFailure, arrival?, hquoted, hrefused]
  have hvalues : ∀ t ∈ traffic, ∀ value ∈ t.values, value.Faithful := by
    simp [htraffic, Traffic.values, Traffic.news, Arrival.payload, Json.Faithful, hasked, hnull,
      hquoted, hrefused]
  obtain ⟨hgiven, _, _, hfired⟩ := run_relayed_in_order moves hvalues
  refine ⟨hvalues, hgiven, ?_, hfired, ?_⟩
  · rw [htraffic]
    rfl
  · rw [htraffic]
    rfl

end Relay

end ProofPanel
