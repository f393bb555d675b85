import Mathlib.Data.List.Perm.Subperm
import ProofPanel.Proofs.Bus.Moment
import ProofPanel.Proofs.Bus.Wiring

/-!
# Subscriptions and their handles

Whoever subscribes a handler gets a handle to it, which stands under a name, lies in the bag or is
kept by a signal. At every moment a handle stands for its own handler and for no other one.
-/
namespace ProofPanel

open Occurrence

variable {event number : Nat} {name : Option String} {past : List Occurrence} {o : Occurrence}

theorem mem_subscribers_cons :
    (number, name) ∈ subscribers event (o :: past) ↔ o = .subscribed event number name ∨
      o ≠ .unsubscribed event number ∧ o ≠ .disposed event ∧
        (number, name) ∈ subscribers event past := by
  cases o with
  | subscribed i number' name' =>
    by_cases h : i = event <;> simp only [subscribers, h] <;> grind
  | unsubscribed i number' =>
    by_cases h : i = event <;> simp only [subscribers, h] <;> grind
  | disposed i => by_cases h : i = event <;> simp [subscribers, h]
  | fired i value => simp [subscribers]
  | round i value => simp [subscribers]
  | call i number' value => simp [subscribers]
  | settled i => simp [subscribers]
  | heard name' value => simp [subscribers]
  | read current => simp [subscribers]
  | reset signal => simp [subscribers]

/-! ## Handles -/

namespace Subscription

structure Fits (s : Subscription) (e : Event) : Prop where
  /-- Its number has been given away, or the event gives no numbers any more. -/
  numbered : s.handler < e.nextHandler ∨ s.active = false ∧ e.disposed = true
  live : s.handler ∈ e.handlers.map Prod.fst ↔ s.active = true ∧ e.disposed = false

def Apart (s s' : Subscription) : Prop :=
  s.active = true → s'.active = true → (s.event, s.handler) ≠ (s'.event, s'.handler)

theorem Apart.of_inactive {s : Subscription} (h : s.active = false) (s' : Subscription) :
    s.Apart s' :=
  fun hs => absurd (h.symm.trans hs) Bool.false_ne_true

theorem Apart.symm {s s' : Subscription} (h : s.Apart s') : s'.Apart s :=
  fun hs' hs => (h hs hs').symm

end Subscription

def Disposable.subscription? : Disposable → Option Subscription
  | subscription s => some s
  | _ => none

namespace Bus

def sources (b : Bus) : List Subscription := b.signals.map (·.source)

def handles (b : Bus) : List Subscription :=
  b.subscriptions.map Prod.snd ++ (b.bag.filterMap Disposable.subscription? ++ b.sources)

/-- Each of the handles tells whether its handler is there, and no handler has two of them. -/
structure Keeps (b : Bus) (hs : List Subscription) : Prop where
  fits : ∀ s ∈ hs, s.Fits (b.eventAt s.event)
  apart : hs.Pairwise Subscription.Apart

variable {b b' : Bus} {hs hs' : List Subscription} {s : Subscription} {event i : Nat}

theorem Keeps.of_subperm (h : b.Keeps hs) (hsub : hs'.Subperm hs) : b.Keeps hs' := by
  refine ⟨fun s hmem => h.fits s (hsub.subset hmem), ?_⟩
  obtain ⟨l, hperm, hsublist⟩ := hsub
  exact (hperm.pairwise_iff Subscription.Apart.symm).mp (h.apart.sublist hsublist)

theorem Keeps.of_perm (h : b.Keeps hs) (hperm : hs'.Perm hs) : b.Keeps hs' :=
  h.of_subperm hperm.subperm

theorem Keeps.tail (h : b.Keeps (s :: hs)) : b.Keeps hs :=
  h.of_subperm (List.sublist_cons_self s hs).subperm

/-! ## What happens to an event -/

theorem SameRoster.fits {e e' : Event} (h : SameRoster e e') (hs : s.Fits e) : s.Fits e' :=
  ⟨by rw [h.nextHandler, h.disposed]; exact hs.numbered,
    by rw [h.handlers, h.disposed]; exact hs.live⟩

theorem Keeps.of_roster (h : b.Keeps hs)
    (hroster : ∀ i, SameRoster (b.eventAt i) (b'.eventAt i)) : b'.Keeps hs :=
  ⟨fun s hs => (hroster s.event).fits (h.fits s hs), h.apart⟩

theorem Keeps.addEvent (h : b.Keeps hs) : b.addEvent.1.Keeps hs :=
  h.of_roster fun i => by rw [eventAt_addEvent]; exact .refl _

theorem lt_of_fits (h : s.Fits (b.eventAt s.event)) (hactive : s.active = true) :
    s.event < b.events.length := by
  by_contra hlen
  rw [eventAt, List.getElem?_eq_none_iff.mpr (Nat.le_of_not_lt hlen)] at h
  cases h.numbered with
  | inl hlt => exact Nat.not_lt_zero _ hlt
  | inr hinactive => exact Bool.false_ne_true (hinactive.1.symm.trans hactive)

theorem mem_unsubscribe {e : Event} {number number' : Nat} :
    number' ∈ (e.unsubscribe number).handlers.map Prod.fst ↔
      number' ∈ e.handlers.map Prod.fst ∧ number' ≠ number := by
  have hfilter : (e.unsubscribe number).handlers.map Prod.fst =
      (e.handlers.map Prod.fst).filter (· != number) := by
    rw [List.filter_map]
    rfl
  rw [hfilter, List.mem_filter, bne_iff_ne]

theorem mem_subscribe {e : Event} {handler : Handler} {number : Nat} :
    number ∈ (e.subscribe handler).handlers.map Prod.fst ↔
      number ∈ e.handlers.map Prod.fst ∨ number = e.nextHandler := by
  simp [Event.subscribe]

/-- A disposed handle takes its own handler with it and leaves all others where they are. -/
theorem Keeps.removeHandler (h : b.Keeps (s :: hs)) :
    (b.removeHandler s).Keeps ({ s with active := false } :: hs) := by
  have hs := h.fits s List.mem_cons_self
  rw [Bus.removeHandler]
  cases hactive : s.active with
  | false =>
    have hsame : { s with active := false } = s := by rw [← hactive]
    rw [hsame]
    exact h
  | true =>
    have hlen := lt_of_fits hs hactive
    obtain ⟨hapart, hpairwise⟩ := List.pairwise_cons.mp h.apart
    rw [if_pos rfl]
    refine ⟨List.forall_mem_cons.mpr ⟨?_, fun s' hs' => ?_⟩,
      List.pairwise_cons.mpr ⟨fun s' _ => .of_inactive rfl s', hpairwise⟩⟩
    · rw [eventAt_change hlen]
      exact ⟨hs.numbered.imp_right fun h => ⟨rfl, h.2⟩, by simp [Event.unsubscribe]⟩
    · have hfits := h.fits s' (List.mem_cons_of_mem _ hs')
      by_cases hevent : s.event = s'.event
      · rw [← hevent, eventAt_change hlen]
        rw [← hevent] at hfits
        refine ⟨hfits.numbered, ?_⟩
        rw [mem_unsubscribe, hfits.live]
        refine and_iff_left_of_imp fun hlive heq => ?_
        exact hapart s' hs' hactive hlive.1 (Prod.ext hevent heq.symm)
      · rw [eventAt_change_ne b hevent]
        exact hfits

theorem Keeps.disposeEventAt (h : b.Keeps hs) (event : Nat) :
    (b.disposeEventAt event).Keeps hs := by
  refine ⟨fun s hs => ?_, h.apart⟩
  have hfits := h.fits s hs
  rw [Bus.disposeEventAt]
  by_cases hlen : event < b.events.length
  · by_cases hevent : event = s.event
    · rw [← hevent] at hfits ⊢
      rw [eventAt_change hlen]
      exact ⟨hfits.numbered.imp_right fun h => ⟨h.1, rfl⟩, by simp [Event.dispose]⟩
    · rw [eventAt_change_ne b hevent]
      exact hfits
  · rw [change_eq_self hlen]
    exact hfits

theorem Keeps.addHandler (h : b.Keeps hs) (hsound : b.Sound) (hlen : event < b.events.length)
    (handler : Handler) :
    (b.addHandler event handler).1.Keeps ((b.addHandler event handler).2 :: hs) := by
  cases b.addHandler_cases hlen handler with
  | inl hcase =>
    obtain ⟨hdisposed, heq⟩ := hcase
    rw [heq]
    refine ⟨List.forall_mem_cons.mpr ⟨⟨.inr ⟨rfl, hdisposed⟩, ?_⟩, h.fits⟩,
      List.pairwise_cons.mpr ⟨fun s' _ => .of_inactive rfl s', h.apart⟩⟩
    simp [hsound.retired event hdisposed]
  | inr hcase =>
    obtain ⟨hdisposed, heq⟩ := hcase
    have hlt : ∀ s ∈ hs, event = s.event → s.handler < (b.eventAt event).nextHandler := by
      rintro s hs rfl
      refine (h.fits s hs).numbered.resolve_right fun hinactive => ?_
      exact Bool.false_ne_true (hdisposed.symm.trans hinactive.2)
    rw [heq]
    refine ⟨List.forall_mem_cons.mpr ⟨?_, fun s hs => ?_⟩,
      List.pairwise_cons.mpr ⟨fun s hs _ _ hsame => ?_, h.apart⟩⟩
    · rw [eventAt_change hlen]
      exact ⟨.inl (Nat.lt_succ_self _), by simp [Event.subscribe, hdisposed]⟩
    · have hfits := h.fits s hs
      by_cases hevent : event = s.event
      · have hnumber := hlt s hs hevent
        rw [← hevent] at hfits ⊢
        rw [eventAt_change hlen]
        refine ⟨.inl (Nat.lt_succ_of_lt hnumber), ?_⟩
        rw [mem_subscribe]
        exact (or_iff_left (Nat.ne_of_lt hnumber)).trans hfits.live
      · rw [eventAt_change_ne b hevent]
        exact hfits
    · obtain ⟨hevent, hnumber⟩ := Prod.ext_iff.mp hsame
      exact Nat.ne_of_gt (hlt s hs hevent) hnumber

/-! ## Signals and the bag -/

/-- The handle that a signal keeps is disposed of with the signal. -/
theorem Keeps.disposeSignalAt (h : b.Keeps (hs ++ b.sources)) (signal : Nat) :
    (b.disposeSignalAt signal).Keeps (hs ++ (b.disposeSignalAt signal).sources) := by
  cases hsignal : b.signals[signal]? with
  | none =>
    have hsame : b.disposeSignalAt signal = b := by rw [Bus.disposeSignalAt, hsignal]
    rw [hsame]
    exact h
  | some s =>
    obtain ⟨hlen, rfl⟩ := List.getElem?_eq_some_iff.mp hsignal
    have hsources : b.sources = (b.signals.take signal).map (·.source) ++
        b.signals[signal].source :: (b.signals.drop (signal + 1)).map (·.source) := by
      rw [sources, ← List.map_cons, List.getElem_cons_drop, ← List.map_append,
        List.take_append_drop]
    have hsources' : (b.disposeSignalAt signal).sources =
        (b.signals.take signal).map (·.source) ++
          { b.signals[signal].source with active := false } ::
            (b.signals.drop (signal + 1)).map (·.source) := by
      rw [sources, disposeSignalAt_eq hsignal]
      dsimp only
      rw [List.modify_eq_take_cons_drop hlen, List.map_append, List.map_cons]
    rw [hsources] at h
    rw [hsources']
    generalize (b.signals.take signal).map (·.source) = pre at h ⊢
    generalize (b.signals.drop (signal + 1)).map (·.source) = post at h ⊢
    -- The handle of the signal may as well come first.
    have hmiddle : ∀ s : Subscription,
        (s :: (hs ++ (pre ++ post))).Perm (hs ++ (pre ++ s :: post)) := fun s =>
      List.perm_middle.symm.trans (List.perm_middle.symm.append_left hs)
    have hremoved := (h.of_perm (hmiddle _)).removeHandler.disposeEventAt b.signals[signal].event
    refine (hremoved.of_perm (hmiddle _).symm).of_roster fun i => ?_
    rw [disposeSignalAt_eq hsignal]
    exact .refl _

theorem Keeps.foldl_disposeOf {ds : List Disposable}
    (h : b.Keeps (hs ++ (ds.filterMap Disposable.subscription? ++ b.sources))) :
    (ds.foldl disposeOf b).Keeps (hs ++ (ds.foldl disposeOf b).sources) := by
  induction ds generalizing b with
  | nil => exact h
  | cons d ds ih =>
    refine ih ?_
    cases d with
    | subscription s =>
      have hfirst : b.Keeps
          (s :: (hs ++ (ds.filterMap Disposable.subscription? ++ b.sources))) :=
        h.of_perm List.perm_middle.symm
      have hrest := hfirst.removeHandler.tail
      rw [sources, ← b.signals_removeHandler s] at hrest
      exact hrest
    | event event =>
      have hrest := Keeps.disposeEventAt h event
      rw [sources, ← b.signals_change event (.disposed event) Event.dispose] at hrest
      exact hrest
    | signal signal =>
      have hsplit : b.Keeps ((hs ++ ds.filterMap Disposable.subscription?) ++ b.sources) := by
        rw [List.append_assoc]
        exact h
      have hrest := hsplit.disposeSignalAt signal
      rw [List.append_assoc] at hrest
      exact hrest

/-! ## What every change keeps -/

/-- Names stand for events, and handles for handlers. -/
structure Tracked (b : Bus) : Prop where
  sound : b.Sound
  keeps : b.Keeps b.handles

theorem handles_of_same (hsame : SameBus b b') (hsources : b'.sources = b.sources) :
    b'.handles = b.handles := by
  rw [handles, hsame.subscriptions, hsame.bag, hsources]
  rfl

theorem Tracked.of_roster (h : b.Tracked) (hsame : SameBus b b') (hsources : b'.sources = b.sources)
    (hroster : ∀ i, SameRoster (b.eventAt i) (b'.eventAt i)) : b'.Tracked := by
  refine ⟨h.sound.of_same hsame fun i hd => ?_, ?_⟩
  · rw [(hroster i).handlers]
    exact h.sound.retired i ((hroster i).disposed ▸ hd)
  · rw [handles_of_same hsame hsources]
    exact h.keeps.of_roster hroster

theorem Tracked.record (h : b.Tracked) (o : Occurrence) : (b.record o).Tracked :=
  h.of_roster ⟨rfl, rfl, rfl, rfl, rfl, rfl⟩ rfl fun _ => .refl _

theorem Tracked.modifySignal (h : b.Tracked) (signal : Nat) {f : Signal → Signal}
    (hf : ∀ s, (f s).event = s.event ∧ (f s).source = s.source) :
    (b.modifySignal signal f).Tracked := by
  refine h.of_roster ⟨rfl, rfl, rfl, ?_, ?_, rfl⟩ ?_ fun _ => .refl _
  · exact map_modify_eq (fun s => (hf s).1) b.signals signal
  · exact map_modify_eq (fun s => congrArg (·.event) (hf s).2) b.signals signal
  · exact map_modify_eq (fun s => (hf s).2) b.signals signal

theorem erase_sublist {α : Type} (names : Names α) (name : String) :
    ((names.erase name).map Prod.snd).Sublist (names.map Prod.snd) :=
  List.filter_sublist.map Prod.snd

/-- What goes by a name, together with what goes by other names. -/
theorem erase_subperm {α : Type} {names : Names α} {name : String} {a : α}
    (h : names.get? name = some a) :
    (a :: (names.erase name).map Prod.snd).Subperm (names.map Prod.snd) := by
  have hmem : (name, a) ∈ names.filter (·.1 == name) :=
    List.mem_filter.mpr ⟨Names.mem_of_get? h, beq_self_eq_true name⟩
  have hsingle : [(name, a)].Sublist (names.filter (·.1 == name)) :=
    List.singleton_sublist.mpr hmem
  have hperm := List.filter_append_perm (fun p : String × α => p.1 == name) names
  obtain ⟨l, hl, hsublist⟩ :=
    (hsingle.append_right (names.erase name)).subperm.trans hperm.subperm
  exact ⟨l.map Prod.snd, hl.map Prod.snd, hsublist.map Prod.snd⟩

/-- Other subscriptions go by names, their handles being all accounted for. -/
theorem Tracked.resubscribe (hsound : b.Sound) {subscriptions : Names Subscription}
    {bag : List Disposable} (hbag : ∀ event, .event event ∈ bag → b.Ordinary event)
    (hkeeps : b.Keeps (subscriptions.map Prod.snd ++
      (bag.filterMap Disposable.subscription? ++ b.sources))) :
    Bus.Tracked { b with subscriptions, bag } :=
  ⟨hsound.rename rfl rfl hsound.named hbag, hkeeps.of_roster fun _ => .refl _⟩

theorem Tracked.listen (h : b.Tracked) (event name : String) (body : Int → Body) :
    (b.listen event name body).Tracked := by
  rw [Bus.listen]
  cases hevent : b.eventOf? event with
  | none => exact h
  | some i =>
    have hlen := h.sound.lt_of_eventOf? hevent
    have hsame := b.sameBus_addHandler i (.listener name body)
    have hsignals := b.signals_addHandler i (.listener name body)
    have hsound := h.sound.addHandler hlen (.listener name body)
    have hothers : b.Keeps ((b.subscriptions.erase name).map Prod.snd ++
        (b.bag.filterMap Disposable.subscription? ++ b.sources)) :=
      h.keeps.of_subperm ((erase_sublist _ name).append_right _).subperm
    have hkeeps := hothers.addHandler h.sound hlen (.listener name body)
    dsimp only
    generalize b.addHandler i (.listener name body) = p at *
    refine .resubscribe hsound hsound.bagged ?_
    rw [hsame.bag, hsame.subscriptions, sources, hsignals]
    exact hkeeps

/-- A signal with the newest event, and with the newest handle to what it follows. -/
theorem Tracked.append_signal (h : b.Tracked) (hsound : b'.Sound) (hsame : SameBus b.addEvent.1 b')
    (hsignals : b'.signals = b.signals) (hkeeps : b'.Keeps (s :: b.handles))
    (hs : b.Ordinary s.event) (fold : Fold) (initial : Int) (signalNames : Names Nat) :
    Bus.Tracked { b' with
      signals := b'.signals ++ [⟨fold, initial, initial, b.events.length, s⟩]
      signalNames } := by
  have hlen : b'.events.length = b.events.length + 1 :=
    hsame.length.trans b.length_addEvent
  generalize hc : ({ b' with
    signals := b'.signals ++ [⟨fold, initial, initial, b.events.length, s⟩]
    signalNames } : Bus) = c
  have hrelays : c.relays = b.relays ++ [b.events.length] := by
    rw [← hc, relays, hsignals, List.map_append]
    rfl
  have hfollowed : c.followed = b.followed ++ [s.event] := by
    rw [← hc, Bus.followed, hsignals, List.map_append]
    rfl
  have hsources : c.sources = b.sources ++ [s] := by
    rw [← hc, sources, hsignals, List.map_append]
    rfl
  have hlength : c.events.length = b.events.length + 1 := by rw [← hc]; exact hlen
  have hordinary : ∀ i, b.Ordinary i → c.Ordinary i := fun i hi => by
    refine hi.mono (by omega) fun j hj => ?_
    rw [hrelays, List.mem_append, List.mem_singleton] at hj
    exact hj.imp_right fun heq => Nat.le_of_eq heq.symm
  refine ⟨⟨fun p hp => ?_, fun event hevent => ?_, ?_, ?_, ?_, fun event hd => ?_⟩, ?_⟩
  · rw [← hc] at hp
    exact hordinary _ (h.sound.named p (hsame.names ▸ hp))
  · rw [← hc] at hevent
    exact hordinary _ (h.sound.bagged event (hsame.bag ▸ hevent))
  · rw [hfollowed]
    exact List.forall_mem_append.mpr ⟨fun i hi => hordinary i (h.sound.followed i hi),
      List.forall_mem_singleton.mpr (hordinary _ hs)⟩
  · rw [hrelays, hlength]
    exact List.forall_mem_append.mpr ⟨fun i hi => Nat.lt_succ_of_lt (h.sound.relayed i hi),
      List.forall_mem_singleton.mpr (Nat.lt_succ_self _)⟩
  · rw [hrelays]
    rw [← List.concat_eq_append]
    exact h.sound.distinct.concat fun hmem => Nat.lt_irrefl _ (h.sound.relayed _ hmem)
  · rw [← hc] at hd ⊢
    exact hsound.retired event hd
  · have hhandles : c.handles = b.handles ++ [s] := by
      rw [handles, hsources, ← hc, hsame.subscriptions, hsame.bag, handles, List.append_assoc,
        List.append_assoc]
      rfl
    rw [hhandles, ← hc]
    exact (hkeeps.of_perm (List.perm_append_singleton s b.handles)).of_roster fun _ => .refl _

theorem Tracked.newSignal (h : b.Tracked) (name source : String) (fold : Fold) (initial : Int) :
    (b.manage (.newSignal name source fold initial)).Tracked := by
  rw [Bus.manage]
  cases hsource : b.eventNames.get? source with
  | none => exact h
  | some event =>
    have hevent : b.Ordinary event := h.sound.named _ (Names.mem_of_get? hsource)
    have hlen : event < b.addEvent.1.events.length :=
      Nat.lt_of_lt_of_le hevent.1 (by rw [length_addEvent]; exact Nat.le_succ _)
    have hs : b.Ordinary (b.addEvent.1.addHandler event (.folding b.signals.length)).2.event := by
      rw [addHandler_event hlen]
      exact hevent
    exact h.append_signal (h.sound.addEvent.addHandler hlen _) (sameBus_addHandler _ _ _)
      (signals_addHandler _ _ _) (h.keeps.addEvent.addHandler h.sound.addEvent hlen _) hs fold initial _

theorem Tracked.newEvent (h : b.Tracked) (name : String) : (b.manage (.newEvent name)).Tracked := by
  refine ⟨h.sound.addEvent.rename rfl rfl ?_ h.sound.addEvent.bagged,
    h.keeps.addEvent.of_roster fun _ => .refl _⟩
  refine List.forall_mem_cons.mpr ⟨⟨?_, fun hmem => ?_⟩, fun p hp => ?_⟩
  · rw [length_addEvent]
    exact Nat.lt_succ_self _
  · exact Nat.lt_irrefl _ (h.sound.relayed _ hmem)
  · exact h.sound.addEvent.named p (List.mem_of_mem_filter hp)

theorem Tracked.unsubscribe (h : b.Tracked) (name : String) :
    (b.manage (.unsubscribe name)).Tracked := by
  rw [Bus.manage]
  cases hs : b.subscriptions.get? name with
  | none => exact h
  | some s =>
    have hkeeps := (h.keeps.of_subperm
      ((List.subperm_append_right _).mpr (erase_subperm hs))).removeHandler
    have hsound := h.sound.removeHandler s
    refine .resubscribe hsound hsound.bagged ?_
    rw [removeHandler_subscriptions, sources, signals_removeHandler,
      (b.sameBus_removeHandler s).bag]
    exact hkeeps

theorem Tracked.disposeEventAt (h : b.Tracked) (event : Nat) : (b.disposeEventAt event).Tracked := by
  refine ⟨h.sound.disposeEventAt event, ?_⟩
  rw [Bus.disposeEventAt,
    handles_of_same (b.sameBus_change _ _ _) (by rw [sources, signals_change]; rfl)]
  exact h.keeps.disposeEventAt event

theorem Tracked.disposeSignalAt (h : b.Tracked) (signal : Nat) :
    (b.disposeSignalAt signal).Tracked := by
  refine ⟨h.sound.disposeSignalAt signal, ?_⟩
  have hkeeps := h.keeps
  have hsame := b.sameBus_disposeSignalAt signal
  rw [handles, ← List.append_assoc] at hkeeps
  rw [handles, hsame.subscriptions, hsame.bag, ← List.append_assoc]
  exact hkeeps.disposeSignalAt signal

theorem Tracked.disposeBag (h : b.Tracked) : (b.manage .disposeBag).Tracked := by
  have hsound := h.sound.foldl_disposeOf b.bag
  have hsubscriptions : (b.bag.foldl disposeOf b).subscriptions = b.subscriptions :=
    congrArg (·.subscriptions) (foldl_disposeOf_eq b.bag b)
  refine ⟨hsound.rename rfl rfl hsound.named fun _ hmem => absurd hmem List.not_mem_nil, ?_⟩
  have hkeeps := h.keeps.foldl_disposeOf
  rw [← hsubscriptions] at hkeeps
  exact hkeeps.of_roster fun _ => .refl _

theorem Tracked.resetSignal (h : b.Tracked) (name : String) :
    (b.manage (.resetSignal name)).Tracked := by
  rw [Bus.manage]
  cases b.signalNames.get? name with
  | none => exact h
  | some signal =>
    exact (h.modifySignal signal (f := fun s => { s with current := s.initial })
      fun _ => ⟨rfl, rfl⟩).record (.reset signal)

/-- A handle goes from under its name into the bag. -/
theorem Tracked.bagSubscription (h : b.Tracked) (name : String) :
    (b.manage (.bagSubscription name)).Tracked := by
  rw [Bus.manage]
  cases hs : b.subscriptions.get? name with
  | none => exact h
  | some s =>
    refine .resubscribe h.sound (fun event hevent => h.sound.bagged event ?_)
      (h.keeps.of_subperm ?_)
    · simpa using hevent
    · have hperm : ((b.subscriptions.erase name).map Prod.snd ++
          ((b.bag ++ [Disposable.subscription s]).filterMap Disposable.subscription? ++
            b.sources)).Perm
          (s :: (b.subscriptions.erase name).map Prod.snd ++
            (b.bag.filterMap Disposable.subscription? ++ b.sources)) := by
        rw [List.filterMap_append, List.append_assoc]
        exact (List.perm_middle.append_left _).trans List.perm_middle
      exact hperm.subperm.trans ((List.subperm_append_right _).mpr (erase_subperm hs))

/-- Something that is no handle is put into the bag. -/
theorem Tracked.bag (h : b.Tracked) {d : Disposable} (hd : d.subscription? = none)
    (hordinary : ∀ event, .event event = d → b.Ordinary event) :
    Bus.Tracked { b with bag := b.bag ++ [d] } := by
  refine .resubscribe h.sound (fun event hevent => ?_) ?_
  · cases List.mem_append.mp hevent with
    | inl hevent => exact h.sound.bagged event hevent
    | inr hevent => exact hordinary event (List.mem_singleton.mp hevent)
  · have hnone : [d].filterMap Disposable.subscription? = [] := List.filterMap_cons_none hd
    rw [List.filterMap_append, hnone, List.append_nil]
    exact h.keeps

theorem Tracked.manage (h : b.Tracked) (action : Action) : (b.manage action).Tracked := by
  cases action with
  | fire name amount => exact h
  | newEvent name => exact h.newEvent name
  | newSignal name source fold initial => exact h.newSignal name source fold initial
  | listen event name body => exact h.listen event name body
  | enlist event name routine => exact h.listen event name (b.routines routine)
  | unsubscribe name => exact h.unsubscribe name
  | disposeEvent name =>
    rw [Bus.manage]
    cases b.eventNames.get? name with
    | none => exact h
    | some event => exact h.disposeEventAt event
  | disposeSignal name =>
    rw [Bus.manage]
    cases b.signalNames.get? name with
    | none => exact h
    | some signal => exact h.disposeSignalAt signal
  | resetSignal name => exact h.resetSignal name
  | readSignal name =>
    rw [Bus.manage]
    cases b.signalNames.get? name >>= fun signal => b.signals[signal]? with
    | none => exact h
    | some s => exact h.record _
  | bagSubscription name => exact h.bagSubscription name
  | bagEvent name =>
    rw [Bus.manage]
    cases hs : b.eventNames.get? name with
    | none => exact h
    | some event =>
      refine h.bag rfl fun i hi => ?_
      cases hi
      exact h.sound.named _ (Names.mem_of_get? hs)
  | bagSignal name =>
    rw [Bus.manage]
    cases b.signalNames.get? name with
    | none => exact h
    | some signal =>
      refine h.bag rfl fun _ hi => ?_
      cases hi
  | disposeBag => exact h.disposeBag

/-- A change of an event that leaves its handlers alone. -/
theorem Tracked.modifyEvent (h : b.Tracked) (event : Nat) {f : Event → Event}
    (hf : ∀ e, SameRoster e (f e)) : (b.modifyEvent event f).Tracked := by
  refine h.of_roster ⟨rfl, rfl, rfl, rfl, rfl, List.length_modify ..⟩ rfl fun i => ?_
  simp only [eventAt, Bus.modifyEvent, List.getElem?_modify]
  cases b.events[i]? with
  | none => exact .refl _
  | some e =>
    by_cases hi : event = i
    · simp only [hi, if_true]
      exact hf e
    · simp only [hi, if_false]
      exact .refl e

theorem Tracked.change (h : b.Tracked) (event : Nat) (o : Occurrence) {f : Event → Event}
    (hf : ∀ e, SameRoster e (f e)) : (b.change event o f).Tracked := by
  rw [Bus.change]
  split
  · exact (h.modifyEvent event hf).record o
  · exact h

theorem Tracked.changes (b b' : Bus) (h : b.Tracked) (hchange : Changes b b') : b'.Tracked := by
  cases hchange with
  | round => exact h.record _
  | called _ => exact h.record _
  | heard => exact h.record _
  | queued _ _ _ => exact h.change _ _ fun e => by rw [Event.queue]; split <;> exact ⟨rfl, rfl, rfl⟩
  | begun _ _ _ => exact h.change _ _ fun _ => ⟨rfl, rfl, rfl⟩
  | taken hn =>
    rw [takeNext?] at hn
    split at hn
    · cases hn
    · cases hn
      exact h.modifyEvent _ fun _ => ⟨rfl, rfl, rfl⟩
  | @settled event =>
    exact (h.modifyEvent event (f := Event.settle) fun _ => ⟨rfl, rfl, rfl⟩).record (.settled event)
  | @folded signal current =>
    exact h.modifySignal signal (f := fun s => { s with current }) fun _ => ⟨rfl, rfl⟩
  | managed => exact h.manage _

theorem tracked_start (routines : String → Int → Body) : Bus.Tracked { routines } where
  sound := {
    named := nofun
    bagged := nofun
    followed := nofun
    relayed := nofun
    distinct := .nil
    retired := nofun }
  keeps := ⟨nofun, .nil⟩

/-! ## At every moment -/

variable {routines : String → Int → Body}

theorem Found.recorded (h : Found routines b) : b.Recorded :=
  h.kept Recorded.changes fun event => Event.recorded_nil event

theorem Found.tracked (h : Found routines b) : b.Tracked :=
  h.kept Tracked.changes (tracked_start routines)

end Bus

end ProofPanel
