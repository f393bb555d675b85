import ProofPanel.Proofs.Bus.Handle

/-!
# What a signal comes to

A signal folds the values that its handler at the source is called with. What it has come to since
it was last reset, one value after the other, can be read off the past; and so can which of these
values a subscriber has been called with. The books on a signal say how the two go together.
-/
namespace ProofPanel

open Occurrence Bus

namespace Occurrence

def calledWith? (event number : Nat) : Occurrence → Option Int
  | call i n value => if i = event ∧ n = number then some value else none
  | _ => none

/-- Whether an occurrence is no part of a dispatch, but for the beginning of a round. -/
def isQuiet : Occurrence → Bool
  | call _ _ _ | fired _ _ | settled _ => false
  | _ => true

/-- Whether an occurrence neither subscribes a handler nor resets a signal. -/
def isRegular : Occurrence → Bool
  | subscribed _ _ _ | reset _ => false
  | _ => true

end Occurrence

def valuesCalled (event number : Nat) (past : List Occurrence) : List Int :=
  (past.filterMap (calledWith? event number)).reverse

/-- What a signal follows, by which handler, and the event by which it passes on its values. -/
structure Wiring where
  signal : Nat
  source : Nat
  handler : Nat
  event : Nat
  fold : Fold
  initial : Int

def Signal.wiring (s : Signal) (signal : Nat) : Wiring :=
  ⟨signal, s.source.event, s.source.handler, s.event, s.fold, s.initial⟩

namespace Wiring

/-- The values that the signal's handler was called with since the signal was last reset, the
earliest first. -/
def taken (w : Wiring) : List Occurrence → List Int
  | [] => []
  | o :: past =>
    match o.calledWith? w.source w.handler with
    | some value => w.taken past ++ [value]
    | none => if o = .reset w.signal then [] else w.taken past

def value (w : Wiring) (past : List Occurrence) : Int := (w.taken past).foldl w.fold.apply w.initial

/-- What the signal has come to with each value that its handler was called with, one after the
other. -/
def values (w : Wiring) : List Occurrence → List Int
  | [] => []
  | o :: past =>
    match o.calledWith? w.source w.handler with
    | some _ => w.values past ++ [w.value (o :: past)]
    | none => w.values past

variable {w : Wiring} {past later earlier : List Occurrence} {o : Occurrence} {number : Nat}
  {v x : Int}

theorem calledWith?_own (w : Wiring) (v : Int) :
    (Occurrence.call w.source w.handler v).calledWith? w.source w.handler = some v :=
  if_pos ⟨rfl, rfl⟩

theorem value_own (w : Wiring) (v : Int) (past : List Occurrence) :
    w.value (.call w.source w.handler v :: past) = w.fold.apply (w.value past) v := by
  rw [value, taken, calledWith?_own]
  exact List.foldl_concat ..

theorem values_own (w : Wiring) (v : Int) (past : List Occurrence) :
    w.values (.call w.source w.handler v :: past) =
      w.values past ++ [w.fold.apply (w.value past) v] := by
  rw [values, calledWith?_own, ← value_own]

theorem value_other (h : o.calledWith? w.source w.handler = none) (hreset : o ≠ .reset w.signal)
    (past : List Occurrence) : w.value (o :: past) = w.value past := by
  rw [value, taken, h]
  dsimp only
  rw [if_neg hreset, value]

theorem values_other (h : o.calledWith? w.source w.handler = none) (past : List Occurrence) :
    w.values (o :: past) = w.values past := by
  rw [values, h]

theorem value_append (h : ∀ o ∈ later, o.calledWith? w.source w.handler = none)
    (hreset : .reset w.signal ∉ later) (past : List Occurrence) :
    w.value (later ++ past) = w.value past := by
  induction later with
  | nil => rfl
  | cons o later ih =>
    obtain ⟨ho, hlater⟩ := List.forall_mem_cons.mp h
    rw [List.cons_append, value_other ho (List.ne_of_not_mem_cons hreset).symm,
      ih hlater (List.not_mem_of_not_mem_cons hreset)]

theorem value_eq_initial (h : ∀ o ∈ past, o.calledWith? w.source w.handler = none) :
    w.value past = w.initial := by
  have htaken : w.taken past = [] := by
    induction past with
    | nil => rfl
    | cons o past ih =>
      obtain ⟨ho, hpast⟩ := List.forall_mem_cons.mp h
      rw [taken, ho]
      dsimp only
      rw [ih hpast, ite_self]
  rw [value, htaken]
  rfl

theorem values_eq_nil (h : ∀ o ∈ past, o.calledWith? w.source w.handler = none) :
    w.values past = [] := by
  induction past with
  | nil => rfl
  | cons o past ih =>
    obtain ⟨ho, hpast⟩ := List.forall_mem_cons.mp h
    rw [values_other ho, ih hpast]

/-! ## The books -/

/-- The values under delivery whose turn for the handler is still to come. -/
def due (event number : Nat) (ds : List Frame) : List Int :=
  ds.flatMap fun d => if d.event = event ∧ number ∈ d.rest.map Prod.fst then [d.value] else []

/-- What has happened agrees with what the signal has come to. -/
structure Books (w : Wiring) (past : List Occurrence) (ds : List Frame) : Prop where
  /-- The signal has passed on what it has come to. -/
  fired : valuesFired w.event past = w.values past
  /-- A subscriber has been called with all of it since it was subscribed, or else has a turn. -/
  served : ∀ later number name earlier, past = later ++ .subscribed w.event number name :: earlier →
    number ∈ (subscribers w.event past).map Prod.fst →
    w.values past = w.values earlier ++ valuesCalled w.event number later ++ due w.event number ds
  /-- Only who is subscribed is called, and only in a delivery. -/
  heeded : ∀ later number x earlier, past = later ++ .call w.event number x :: earlier →
    number ∈ (subscribers w.event earlier).map Prod.fst ∧ inDispatch w.event earlier = true
  /-- In a delivery, subscribers are called with the value that the signal has come to, and no other
  value is passed on. -/
  held : ∀ later v earlier, past = later ++ .fired w.event v :: earlier →
    .settled w.event ∉ later →
    (∀ o ∈ later, o.firedOn? w.event = none) ∧
      (∀ number x, .call w.event number x ∈ later → x = v) ∧
      (.reset w.signal ∉ later → w.value past = v)
  /-- A round that is under way is for the value fired last, and no turn in it comes twice. -/
  under : ∀ d ∈ ds, d.event = w.event → ∀ later v earlier,
    past = later ++ .fired w.event v :: earlier → .settled w.event ∉ later →
    d.value = v ∧ ∀ number ∈ d.rest.map Prod.fst, ∀ x, .call w.event number x ∉ later
  /-- Once the signal has been disposed, nothing is taken or passed on any more. -/
  ended : ∀ later earlier, past = later ++ .disposed w.event :: earlier → ∀ o ∈ later,
    o.calledWith? w.source w.handler = none ∧ o.firedOn? w.event = none ∧
      ∀ number x, o ≠ .call w.event number x

structure Aside (w : Wiring) (o : Occurrence) : Prop where
  own : o.calledWith? w.source w.handler = none
  fired : o.firedOn? w.event = none
  call : ∀ number x, o ≠ .call w.event number x
  settled : o ≠ .settled w.event

theorem aside_of_quiet (h : o.isQuiet = true) : w.Aside o := by
  cases o with
  | call _ _ _ => cases h
  | fired _ _ => cases h
  | settled _ => cases h
  | _ => exact ⟨rfl, rfl, fun _ _ => nofun, nofun⟩

variable {ds ds' : List Frame}

theorem valuesFired_other (h : o.firedOn? w.event = none) (past : List Occurrence) :
    valuesFired w.event (o :: past) = valuesFired w.event past :=
  congrArg List.reverse (List.filterMap_cons_none h)

theorem valuesCalled_other (h : ∀ x, o ≠ .call w.event number x) (past : List Occurrence) :
    valuesCalled w.event number (o :: past) = valuesCalled w.event number past := by
  refine congrArg List.reverse (List.filterMap_cons_none ?_)
  cases o <;> first | rfl | skip
  case call i n x =>
    refine if_neg ?_
    rintro ⟨rfl, rfl⟩
    exact h x rfl

/-- One occurrence comes after another one. -/
theorem split_ne {o' : Occurrence} (h : o ≠ o') (heq : o :: past = later ++ o' :: earlier) :
    ∃ later', later = o :: later' ∧ past = later' ++ o' :: earlier := by
  cases later with
  | nil =>
    cases heq
    exact absurd rfl h
  | cons _ later' =>
    cases heq
    exact ⟨later', rfl, rfl⟩

/-- Something else than firing comes after a value was fired. -/
theorem split_fired (h : o.firedOn? w.event = none)
    (heq : o :: past = later ++ .fired w.event v :: earlier) :
    ∃ later', later = o :: later' ∧ past = later' ++ .fired w.event v :: earlier := by
  refine split_ne ?_ heq
  rintro rfl
  simp [firedOn?] at h

theorem mem_numbers {event : Nat} {name : Option String}
    (h : .subscribed event number name ∈ past) : number ∈ numbers event past :=
  List.mem_filterMap.mpr ⟨_, h, if_pos rfl⟩

/-- Who is subscribed either has just been subscribed or was before. -/
theorem subscribed_or_mem {event : Nat}
    (h : number ∈ (subscribers event (o :: past)).map Prod.fst) :
    (∃ name, o = .subscribed event number name) ∨
      number ∈ (subscribers event past).map Prod.fst := by
  obtain ⟨p, hp, rfl⟩ := List.mem_map.mp h
  cases mem_subscribers_cons.mp hp with
  | inl heq => exact .inl ⟨_, heq⟩
  | inr hmem => exact .inr (List.mem_map_of_mem hmem.2.2)

/-- The books on a signal that is new. -/
theorem books_new (hown : ∀ o ∈ past, o.calledWith? w.source w.handler = none)
    (hfired : ∀ o ∈ past, o.firedOn? w.event = none)
    (hcalls : ∀ number x, .call w.event number x ∉ past)
    (hnumbers : numbers w.event past = []) (hlive : .disposed w.event ∉ past) :
    w.Books past ds := by
  have hnone : ∀ later v earlier, past ≠ later ++ .fired w.event v :: earlier := by
    rintro later v earlier rfl
    have hfired := hfired (.fired w.event v) (List.mem_append_right _ List.mem_cons_self)
    simp [firedOn?] at hfired
  exact {
    fired := by rw [valuesFired_eq_nil hfired, values_eq_nil hown]
    served := by
      rintro later number name earlier rfl _
      have hmem := mem_numbers (List.mem_append_right later
        (List.mem_cons_self (a := Occurrence.subscribed w.event number name) (l := earlier)))
      rw [hnumbers] at hmem
      cases hmem
    heeded := by
      rintro later number x earlier rfl
      exact absurd (List.mem_append_right _ List.mem_cons_self) (hcalls number x)
    held := fun later v earlier heq => absurd heq (hnone later v earlier)
    under := fun _ _ _ later v earlier heq => absurd heq (hnone later v earlier)
    ended := by
      rintro later earlier rfl
      exact absurd (List.mem_append_right _ List.mem_cons_self) hlive }

theorem Books.aside (h : w.Books past ds) (ho : w.Aside o)
    (hsubscribed : ∀ number name, o = .subscribed w.event number name →
      number ∉ numbers w.event past ∧ due w.event number ds = []) : w.Books (o :: past) ds where
  fired := by rw [valuesFired_other ho.fired, values_other ho.own, h.fired]
  served := by
    intro later number name earlier heq hmem
    rw [values_other ho.own]
    cases later with
    | nil =>
      cases heq
      rw [(hsubscribed number name rfl).2]
      simp [valuesCalled]
    | cons o' later =>
      cases heq
      rw [valuesCalled_other (ho.call number)]
      refine h.served later number name earlier rfl ((subscribed_or_mem hmem).resolve_left ?_)
      rintro ⟨name', heq⟩
      exact (hsubscribed number name' heq).1
        (mem_numbers (List.mem_append_right _ List.mem_cons_self))
  heeded := by
    intro later number x earlier heq
    obtain ⟨later, rfl, rfl⟩ := split_ne (ho.call number x) heq
    exact h.heeded later number x earlier rfl
  held := by
    intro later v earlier heq hsettled
    obtain ⟨later, rfl, rfl⟩ := split_fired ho.fired heq
    obtain ⟨halone, hcalls, hvalue⟩ :=
      h.held later v earlier rfl (List.not_mem_of_not_mem_cons hsettled)
    refine ⟨List.forall_mem_cons.mpr ⟨ho.fired, halone⟩, fun number x hmem => ?_,
      fun hreset => ?_⟩
    · exact hcalls number x (List.mem_of_ne_of_mem (ho.call number x).symm hmem)
    · rw [value_other ho.own (List.ne_of_not_mem_cons hreset).symm]
      exact hvalue (List.not_mem_of_not_mem_cons hreset)
  under := by
    intro d hd hevent later v earlier heq hsettled
    obtain ⟨later, rfl, rfl⟩ := split_fired ho.fired heq
    obtain ⟨hv, hrest⟩ :=
      h.under d hd hevent later v earlier rfl (List.not_mem_of_not_mem_cons hsettled)
    exact ⟨hv, fun number hnumber x =>
      List.not_mem_cons_of_ne_of_not_mem (ho.call number x).symm (hrest number hnumber x)⟩
  ended := by
    intro later earlier heq
    cases later with
    | nil => exact nofun
    | cons o' later =>
      cases heq
      exact List.forall_mem_cons.mpr
        ⟨⟨ho.own, ho.fired, ho.call⟩, h.ended later earlier rfl⟩

/-- Other rounds are under way, but the same turns of subscribers to come. -/
theorem Books.of_due (h : w.Books past ds)
    (hdue : ∀ number ∈ (subscribers w.event past).map Prod.fst,
      due w.event number ds' = due w.event number ds)
    (hunder : ∀ d' ∈ ds', d'.event = w.event → ∃ d ∈ ds, d.event = w.event ∧ d.value = d'.value ∧
      d'.rest.map Prod.fst ⊆ d.rest.map Prod.fst) : w.Books past ds' where
  fired := h.fired
  served := fun later number name earlier heq hmem => by
    rw [hdue number hmem]
    exact h.served later number name earlier heq hmem
  heeded := h.heeded
  held := h.held
  under := by
    intro d' hd' hevent' later v earlier heq hsettled
    obtain ⟨d, hd, hevent, hvalue, hrest⟩ := hunder d' hd' hevent'
    obtain ⟨hv, hturns⟩ := h.under d hd hevent later v earlier heq hsettled
    exact ⟨hvalue.symm.trans hv, fun number hnumber => hturns number (hrest hnumber)⟩
  ended := h.ended

theorem due_cons_self (event number : Nat) (value : Int) (rest : List (Nat × Handler))
    (ds : List Frame) : due event number (⟨event, value, rest⟩ :: ds) =
      (if number ∈ rest.map Prod.fst then [value] else []) ++ due event number ds := by
  simp only [due, List.flatMap_cons, true_and]

theorem due_cons_ne {event : Nat} {d : Frame} (h : d.event ≠ event) (number : Nat)
    (ds : List Frame) : due event number (d :: ds) = due event number ds := by
  simp [due, h]

theorem due_eq_nil {event : Nat} (h : event ∉ ds.map Frame.event) (number : Nat) :
    due event number ds = [] := by
  refine List.flatMap_eq_nil_iff.mpr fun d hd => if_neg fun hdue => h ?_
  rw [← hdue.1]
  exact List.mem_map_of_mem hd

/-- If no two rounds are of one event, no more than one value is due to a handler. -/
theorem due_cases {event : Nat} (h : (ds.map Frame.event).Nodup) (number : Nat) :
    due event number ds = [] ∨ ∃ d ∈ ds, d.event = event ∧ number ∈ d.rest.map Prod.fst ∧
      due event number ds = [d.value] := by
  induction ds with
  | nil => exact .inl rfl
  | cons d ds ih =>
    obtain ⟨hnotMem, hdistinct⟩ := List.nodup_cons.mp h
    obtain ⟨i, value, rest⟩ := d
    by_cases hevent : i = event
    · subst hevent
      have hdue : due i number ds = [] := due_eq_nil hnotMem number
      rw [due_cons_self, hdue, List.append_nil]
      by_cases hmem : number ∈ rest.map Prod.fst
      · exact .inr ⟨_, List.mem_cons_self, rfl, hmem, if_pos hmem⟩
      · exact .inl (if_neg hmem)
    · rw [due_cons_ne hevent]
      exact (ih hdistinct).imp_right fun ⟨d, hd, hdue⟩ => ⟨d, List.mem_cons_of_mem _ hd, hdue⟩

theorem inDispatch_of_fired {event : Nat} (h : .settled event ∉ later) :
    inDispatch event (later ++ .fired event v :: earlier) = true := by
  induction later with
  | nil => simp [inDispatch]
  | cons o later ih =>
    have ih := ih (List.not_mem_of_not_mem_cons h)
    cases o with
    | settled i =>
      have hne : i ≠ event := fun heq => h (heq ▸ List.mem_cons_self)
      simp [inDispatch, hne, ih]
    | fired i x => simp [inDispatch, ih]
    | _ => exact ih

/-- An event is in a dispatch only if a value was fired on it that is not yet dealt with. -/
theorem exists_fired_of_inDispatch {event : Nat} (h : inDispatch event past = true) :
    ∃ later v earlier, past = later ++ .fired event v :: earlier ∧ .settled event ∉ later := by
  induction past with
  | nil => cases h
  | cons o past ih =>
    -- What comes after that is anything but the end of the dispatch.
    have honward : o ≠ .settled event → inDispatch event past = true →
        ∃ later v earlier, o :: past = later ++ .fired event v :: earlier ∧
          .settled event ∉ later := by
      intro ho hpast
      obtain ⟨later, v, earlier, rfl, hsettled⟩ := ih hpast
      exact ⟨o :: later, v, earlier, rfl,
        List.not_mem_cons_of_ne_of_not_mem ho.symm hsettled⟩
    cases o with
    | fired i x =>
      by_cases hi : i = event
      · exact ⟨[], x, past, by rw [hi, List.nil_append], List.not_mem_nil⟩
      · exact honward (by rintro ⟨⟩) (by simpa [inDispatch, hi] using h)
    | settled i =>
      have hcases : i ≠ event ∧ inDispatch event past = true := by simpa [inDispatch] using h
      refine honward (fun heq => ?_) hcases.2
      cases heq
      exact hcases.1 rfl
    | _ => exact honward (by rintro ⟨⟩) h

/-- Rounds of other events do not matter. -/
theorem books_cons_iff {d : Frame} (hd : d.event ≠ w.event) :
    w.Books past (d :: ds) ↔ w.Books past ds := by
  constructor
  · intro h
    exact h.of_due (fun _ _ => (due_cons_ne hd _ _).symm) fun d' hd' hevent =>
      ⟨d', List.mem_cons_of_mem _ hd', hevent, rfl, List.Subset.refl _⟩
  · intro h
    refine h.of_due (fun _ _ => due_cons_ne hd _ _) fun d' hd' hevent => ?_
    have hne : d' ≠ d := by
      rintro rfl
      exact hd hevent
    have hmem : d' ∈ ds := List.mem_of_ne_of_mem hne hd'
    exact ⟨d', hmem, hevent, rfl, List.Subset.refl _⟩

/-- The turn of one who is not subscribed any more is passed over. -/
theorem Books.gone {value : Int} {handler : Handler} {rest : List (Nat × Handler)}
    (h : w.Books past (⟨w.event, value, (number, handler) :: rest⟩ :: ds))
    (hgone : number ∉ (subscribers w.event past).map Prod.fst) :
    w.Books past (⟨w.event, value, rest⟩ :: ds) := by
  refine h.of_due (fun number' hmem => ?_) fun d' hd' hevent => ?_
  · have hne : number' ≠ number := fun heq => hgone (heq ▸ hmem)
    rw [due_cons_self, due_cons_self, List.map_cons]
    simp only [List.mem_cons, hne, false_or]
  · cases hd' with
    | head => exact ⟨_, List.mem_cons_self, rfl, rfl, List.subset_cons_self _ _⟩
    | tail _ hd' => exact ⟨d', List.mem_cons_of_mem _ hd', hevent, rfl, List.Subset.refl _⟩

/-- A subscriber has its turn. -/
theorem Books.turn {value : Int} {handler : Handler} {rest : List (Nat × Handler)}
    (h : w.Books past (⟨w.event, value, (number, handler) :: rest⟩ :: ds))
    (hds : w.event ∉ ds.map Frame.event) (hrest : number ∉ rest.map Prod.fst)
    (hlive : .disposed w.event ∉ past) (hsource : w.source ≠ w.event)
    (hcalled : number ∈ (subscribers w.event past).map Prod.fst)
    (hin : inDispatch w.event past = true) :
    w.Books (.call w.event number value :: past) (⟨w.event, value, rest⟩ :: ds) := by
  have hown : (Occurrence.call w.event number value).calledWith? w.source w.handler = none :=
    if_neg fun heq => hsource heq.1.symm
  have hhead := h.under _ List.mem_cons_self rfl
  refine ⟨?_, ?_, ?_, ?_, ?_, ?_⟩
  · rw [valuesFired_other rfl, values_other hown, h.fired]
  · intro later number' name earlier heq hmem
    obtain _ | ⟨o, later⟩ := later
    · cases heq
    cases heq
    have hserved := h.served later number' name earlier rfl hmem
    rw [due_cons_self, due_eq_nil hds, List.append_nil] at hserved ⊢
    rw [values_other hown, hserved]
    by_cases hnumber : number' = number
    · have hcalled : valuesCalled w.event number (.call w.event number value :: later) =
          valuesCalled w.event number later ++ [value] := by simp [valuesCalled, calledWith?]
      rw [hnumber, hcalled, if_neg hrest, List.map_cons, if_pos List.mem_cons_self,
        List.append_nil, List.append_assoc]
    · have hcall : ∀ x, Occurrence.call w.event number value ≠ .call w.event number' x := by
        rintro x heq
        cases heq
        exact hnumber rfl
      rw [valuesCalled_other hcall, List.map_cons]
      simp only [List.mem_cons, hnumber, false_or]
  · intro later number' x earlier heq
    obtain _ | ⟨o, later⟩ := later
    · cases heq
      exact ⟨hcalled, hin⟩
    · cases heq
      exact h.heeded later number' x earlier rfl
  · intro later v earlier heq hsettled
    obtain ⟨later, rfl, rfl⟩ := split_fired rfl heq
    have hsettled := List.not_mem_of_not_mem_cons hsettled
    obtain ⟨halone, hcalls, hvalue⟩ := h.held later v earlier rfl hsettled
    refine ⟨List.forall_mem_cons.mpr ⟨rfl, halone⟩, fun number' x hmem => ?_, fun hreset => ?_⟩
    · cases hmem with
      | head => exact (hhead later v earlier rfl hsettled).1
      | tail _ hmem => exact hcalls number' x hmem
    · rw [value_other hown nofun]
      exact hvalue (List.not_mem_of_not_mem_cons hreset)
  · intro d hd hevent later v earlier heq hsettled
    obtain ⟨later, rfl, rfl⟩ := split_fired rfl heq
    cases hd with
    | head =>
      obtain ⟨hv, hturns⟩ := hhead later v earlier rfl (List.not_mem_of_not_mem_cons hsettled)
      refine ⟨hv, fun number' hnumber x hmem => ?_⟩
      cases hmem with
      | head => exact hrest hnumber
      | tail _ hmem => exact hturns number' (List.mem_cons_of_mem _ hnumber) x hmem
    | tail _ hd => exact absurd (hevent ▸ List.mem_map_of_mem hd) hds
  · intro later earlier heq
    obtain _ | ⟨o, later⟩ := later
    · cases heq
    cases heq
    exact absurd (List.mem_append_right _ List.mem_cons_self) hlive

/-- Outside a dispatch, no other value is under delivery than the one that is fired. -/
theorem fired_last {v' : Int} (hin : inDispatch w.event past = false)
    (hsettled : .settled w.event ∉ later)
    (heq : .fired w.event x :: .call w.source w.handler v' :: past =
      later ++ .fired w.event v :: earlier) : later = [] ∧ v = x := by
  obtain ⟨rfl, hfired⟩ | ⟨rest, rfl, hrest⟩ := List.cons_eq_append_iff.mp heq
  · injection hfired with hfired
    injection hfired with _ hv
    exact ⟨rfl, hv⟩
  · obtain ⟨rest, rfl, rfl⟩ := split_fired rfl hrest
    have hdispatch : inDispatch w.event (rest ++ .fired w.event v :: earlier) = true :=
      inDispatch_of_fired fun hmem =>
        hsettled (List.mem_cons_of_mem _ (List.mem_cons_of_mem _ hmem))
    exact absurd (hin.symm.trans hdispatch) Bool.false_ne_true

/-- The signal takes a value and passes on what it comes to. -/
theorem Books.deliver {handlers : List (Nat × Handler)} (h : w.Books past ds)
    (hds : w.event ∉ ds.map Frame.event) (hlive : .disposed w.event ∉ past)
    (hsource : w.source ≠ w.event) (hin : inDispatch w.event past = false)
    (hhandlers : handlers.map Prod.fst = (subscribers w.event past).map Prod.fst)
    (hx : x = w.fold.apply (w.value past) v) :
    w.Books (.fired w.event x :: .call w.source w.handler v :: past)
      (⟨w.event, x, handlers⟩ :: ds) := by
  have hcall : ∀ number x, Occurrence.call w.source w.handler v ≠ .call w.event number x := by
    intro number x heq
    injection heq with hevent
    exact hsource hevent
  have hfired : ∀ number y, Occurrence.fired w.event x ≠ .call w.event number y := by
    rintro _ _ ⟨⟩
  refine ⟨?_, ?_, ?_, ?_, ?_, ?_⟩
  · have hfired : valuesFired w.event (.fired w.event x :: .call w.source w.handler v :: past) =
        valuesFired w.event past ++ [x] := by
      simp [valuesFired, List.filterMap_cons, firedOn?]
    rw [hfired, values_other rfl, values_own, h.fired, hx]
  · intro later number name earlier heq hmem
    obtain _ | ⟨_, later⟩ := later
    · cases heq
    obtain _ | ⟨_, later⟩ := later
    · cases heq
    cases heq
    have hserved := h.served later number name earlier rfl hmem
    have hturn : number ∈ handlers.map Prod.fst := hhandlers ▸ hmem
    rw [due_eq_nil hds, List.append_nil] at hserved
    rw [values_other rfl, values_own, ← hx, due_cons_self, due_eq_nil hds, if_pos hturn,
      valuesCalled_other (hfired number),
      valuesCalled_other (hcall number), hserved, List.append_nil]
  · intro later number x' earlier heq
    obtain ⟨_, rfl, hrest⟩ := split_ne (hfired number x') heq
    obtain ⟨later, rfl, rfl⟩ := split_ne (hcall number x') hrest
    exact h.heeded later number x' earlier rfl
  · intro later v' earlier heq hsettled
    obtain ⟨rfl, rfl⟩ := fired_last hin hsettled heq
    have hreset : Occurrence.fired w.event v' ≠ .reset w.signal := by rintro ⟨⟩
    refine ⟨fun _ ho => absurd ho List.not_mem_nil, fun _ _ hmem => absurd hmem List.not_mem_nil,
      fun _ => ?_⟩
    rw [value_other rfl hreset, value_own, hx]
  · intro d hd hevent later v' earlier heq hsettled
    obtain ⟨rfl, rfl⟩ := fired_last hin hsettled heq
    cases hd with
    | head => exact ⟨rfl, fun _ _ _ => List.not_mem_nil⟩
    | tail _ hd => exact absurd (hevent ▸ List.mem_map_of_mem hd) hds
  · intro later earlier heq
    obtain _ | ⟨_, later⟩ := later
    · cases heq
    obtain _ | ⟨_, later⟩ := later
    · cases heq
    cases heq
    exact absurd (List.mem_append_right _ List.mem_cons_self) hlive

/-- The round is over. -/
theorem Books.settle {value : Int} (h : w.Books past (⟨w.event, value, []⟩ :: ds)) :
    w.Books (.settled w.event :: past) ds := by
  refine ⟨?_, ?_, ?_, ?_, ?_, ?_⟩
  · rw [valuesFired_other rfl, values_other rfl, h.fired]
  · intro later number name earlier heq hmem
    obtain _ | ⟨o, later⟩ := later
    · cases heq
    cases heq
    have hserved := h.served later number name earlier rfl hmem
    rw [due_cons_self, List.map_nil, if_neg List.not_mem_nil, List.nil_append] at hserved
    rw [values_other rfl, valuesCalled_other (o := .settled w.event) fun _ => nofun]
    exact hserved
  · intro later number x earlier heq
    obtain ⟨later, rfl, rfl⟩ := split_ne (by rintro ⟨⟩) heq
    exact h.heeded later number x earlier rfl
  · intro later v earlier heq hsettled
    obtain ⟨later, rfl, _⟩ := split_fired rfl heq
    exact absurd List.mem_cons_self hsettled
  · intro d _ _ later v earlier heq hsettled
    obtain ⟨later, rfl, _⟩ := split_fired rfl heq
    exact absurd List.mem_cons_self hsettled
  · intro later earlier heq
    obtain _ | ⟨o, later⟩ := later
    · cases heq
    cases heq
    exact List.forall_mem_cons.mpr ⟨⟨rfl, rfl, fun _ _ => nofun⟩, h.ended later earlier rfl⟩

end Wiring

end ProofPanel
