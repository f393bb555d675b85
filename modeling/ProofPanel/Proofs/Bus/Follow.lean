import ProofPanel.Proofs.Bus.Scan
import ProofPanel.Proofs.Bus.Stack

/-!
# Signals as the past tells

A signal has the value that the past gives it, and the books on it are right. No value waits at its
event, since a round of that is always inside a round of the source. Actions that fire nothing leave
it so, for signals that they make as well.
-/
namespace ProofPanel.Bus

open Occurrence Wiring Relation

/-- A signal is as the past tells, and nothing stands in the way of the next value. -/
structure Follows (b : Bus) (ds : List Frame) (k : Nat) (s : Signal) : Prop where
  current : s.current = (s.wiring k).value b.past
  books : (s.wiring k).Books b.past ds
  /-- No value waits for a round. -/
  waiting : (b.eventAt s.event).queued = []
  /-- Its rounds are inside those of its source. -/
  nested : ∀ inner outer, ds.map Frame.event = inner ++ s.event :: outer →
    s.source.event ∈ outer
  /-- It has left its source once its event has been disposed. -/
  ended : (b.eventAt s.event).disposed = true → s.source.active = false

def Following (b : Bus) (ds : List Frame) : Prop :=
  ∀ k s, b.signals[k]? = some s → b.Follows ds k s

variable {b b' : Bus} {ds : List Frame} {d : Frame} {k j : Nat} {s s' : Signal}
  {event number : Nat} {value : Int} {o : Occurrence} {rest : List (Nat × Handler)}

/-! ## Signals among others -/

theorem mem_relays (hs : b.signals[k]? = some s) : s.event ∈ b.relays :=
  List.mem_map_of_mem (List.mem_of_getElem? hs)

theorem Ordinary.ne (h : b.Ordinary event) (hs : b.signals[k]? = some s) : event ≠ s.event :=
  fun heq => h.2 (heq ▸ mem_relays hs)

theorem Tracked.source_ordinary (ht : b.Tracked) (hs : b.signals[k]? = some s) :
    b.Ordinary s.source.event :=
  ht.sound.followed _ (List.mem_map_of_mem (List.mem_of_getElem? hs))

theorem event_ne (hdistinct : b.relays.Nodup) (hs : b.signals[k]? = some s)
    (hs' : b.signals[j]? = some s') (hne : j ≠ k) : s'.event ≠ s.event := by
  intro heq
  have hk : b.relays[k]? = some s.event := by rw [relays, List.getElem?_map, hs]; rfl
  have hj : b.relays[j]? = some s'.event := by rw [relays, List.getElem?_map, hs']; rfl
  have hlt := (List.getElem?_eq_some_iff.mp hj).1
  exact hne ((List.getElem?_inj hlt hdistinct).mp (by rw [hk, hj, heq]))

theorem getElem?_keys (hs : b.signals[k]? = some s) :
    b.keys[k]? = some (s.source.event, s.source.handler) := by
  rw [keys, List.getElem?_map, hs]
  rfl

/-! ## What is aside -/

theorem aside_of_call (h : (s.source.event, s.source.handler) ≠ (event, number))
    (hne : event ≠ s.event) : (s.wiring k).Aside (.call event number value) := by
  refine ⟨if_neg ?_, rfl, ?_, nofun⟩
  · rintro ⟨rfl, rfl⟩
    exact h rfl
  · rintro _ _ heq
    cases heq
    exact hne rfl

theorem aside_of_fired (hne : event ≠ s.event) : (s.wiring k).Aside (.fired event value) :=
  ⟨rfl, if_neg hne, fun _ _ => nofun, nofun⟩

theorem aside_of_settled (hne : event ≠ s.event) : (s.wiring k).Aside (.settled event) := by
  refine ⟨rfl, rfl, fun _ _ => nofun, ?_⟩
  rintro heq
  cases heq
  exact hne rfl

theorem Follows.congr (h : b.Follows ds k s) (hpast : b'.past = b.past)
    (hat : b'.eventAt s.event = b.eventAt s.event) : b'.Follows ds k s where
  current := hpast ▸ h.current
  books := hpast ▸ h.books
  waiting := hat ▸ h.waiting
  nested := h.nested
  ended := hat ▸ h.ended

/-- Rounds of other events do not matter. -/
theorem follows_cons_iff (hne : d.event ≠ s.event) :
    b.Follows (d :: ds) k s ↔ b.Follows ds k s := by
  constructor
  · intro h
    refine ⟨h.current, (books_cons_iff hne).mp h.books, h.waiting, fun inner outer heq => ?_,
      h.ended⟩
    exact h.nested (d.event :: inner) outer (by rw [List.map_cons, heq]; rfl)
  · intro h
    refine ⟨h.current, (books_cons_iff hne).mpr h.books, h.waiting, fun inner outer heq => ?_,
      h.ended⟩
    obtain _ | ⟨i, inner⟩ := inner
    · exact absurd (List.cons.inj heq).1 hne
    · exact h.nested inner outer (List.cons.inj heq).2

theorem Follows.aside (h : b.Follows ds k s) (hpast : b'.past = o :: b.past)
    (ho : (s.wiring k).Aside o) (hreset : o ≠ .reset k)
    (hsubscribed : ∀ number name, o = .subscribed s.event number name →
      number ∉ numbers s.event b.past ∧ due s.event number ds = [])
    (hqueued : (b'.eventAt s.event).queued = [])
    (hdisposed : (b'.eventAt s.event).disposed = true → s.source.active = false) :
    b'.Follows ds k s where
  current := by
    rw [hpast, value_other ho.own hreset]
    exact h.current
  books := hpast ▸ h.books.aside ho hsubscribed
  waiting := hqueued
  nested := h.nested
  ended := hdisposed

theorem Follows.record (h : b.Follows ds k s) (ho : (s.wiring k).Aside o)
    (hregular : o.isRegular = true) : (b.record o).Follows ds k s := by
  refine h.aside rfl ho ?_ ?_ h.waiting h.ended
  · rintro rfl
    cases hregular
  · rintro _ _ rfl
    cases hregular

theorem Follows.change (h : b.Follows ds k s) {f : Event → Event} (ho : (s.wiring k).Aside o)
    (hreset : o ≠ .reset k)
    (hsubscribed : ∀ number name, o = .subscribed s.event number name →
      number ∉ numbers s.event b.past ∧ due s.event number ds = [])
    (hf : event = s.event → (f (b.eventAt event)).queued = [] ∧
      ((f (b.eventAt event)).disposed = true → s.source.active = false)) :
    (b.change event o f).Follows ds k s := by
  by_cases hlen : event < b.events.length
  · have hpast := past_change hlen o f
    by_cases hevent : event = s.event
    · have hf := hf hevent
      rw [← eventAt_change hlen o f, hevent] at hf
      rw [hevent] at hpast ⊢
      exact h.aside hpast ho hreset hsubscribed hf.1 hf.2
    · have hat := eventAt_change_ne b hevent o f
      exact h.aside hpast ho hreset hsubscribed (hat ▸ h.waiting) (hat ▸ h.ended)
  · rw [change_eq_self hlen]
    exact h

theorem Follows.change_regular (h : b.Follows ds k s) {f : Event → Event}
    (ho : (s.wiring k).Aside o) (hregular : o.isRegular = true)
    (hf : event = s.event → (f (b.eventAt event)).queued = [] ∧
      ((f (b.eventAt event)).disposed = true → s.source.active = false)) :
    (b.change event o f).Follows ds k s := by
  refine h.change ho ?_ ?_ hf
  · rintro rfl
    cases hregular
  · rintro _ _ rfl
    cases hregular

/-! ## Edits -/

theorem Stacked.due_next (h : b.Stacked ds) (event : Nat) :
    due event (b.eventAt event).nextHandler ds = [] := by
  refine List.flatMap_eq_nil_iff.mpr fun d hd => if_neg fun ⟨hevent, hmem⟩ => ?_
  obtain ⟨p, hp, hnumber⟩ := List.mem_map.mp hmem
  have hlt := ((h.turns d hd).2 p hp).numbered
  rw [hevent, hnumber] at hlt
  exact Nat.lt_irrefl _ hlt

theorem Recorded.next_notMem (hr : b.Recorded) (event : Nat) :
    (b.eventAt event).nextHandler ∉ numbers event b.past := by
  rw [(hr event).numbers, List.mem_reverse, List.mem_range]
  exact Nat.lt_irrefl _

theorem Follows.subscribed (h : b.Follows ds k s) (hr : b.Recorded) (hst : b.Stacked ds)
    (handler : Handler) :
    (b.change event (.subscribed event (b.eventAt event).nextHandler handler.name?)
      (·.subscribe handler)).Follows ds k s := by
  refine h.change (aside_of_quiet rfl) (by rintro ⟨⟩) (fun number name heq => ?_) ?_
  · cases heq
    exact ⟨hr.next_notMem _, hst.due_next _⟩
  · rintro rfl
    exact ⟨h.waiting, h.ended⟩

theorem Follows.removeHandler (h : b.Follows ds k s) (handle : Subscription) :
    (b.removeHandler handle).Follows ds k s := by
  rw [Bus.removeHandler]
  split
  · refine h.change_regular (aside_of_quiet rfl) rfl fun hevent => ?_
    rw [hevent]
    exact ⟨h.waiting, h.ended⟩
  · exact h

/-- A signal that is just being made has nothing to its account. -/
theorem follows_new (hr : b.Recorded) (hst : b.Stacked ds) (k event : Nat) (fold : Fold)
    (initial : Int) (active : Bool) : b.Follows ds k ⟨fold, initial, initial, b.events.length,
      ⟨event, (b.eventAt event).nextHandler, active⟩⟩ := by
  have hat : b.eventAt b.events.length = {} := by
    rw [eventAt, List.getElem?_eq_none_iff.mpr (Nat.le_refl _)]
    rfl
  have hlast := hr b.events.length
  rw [hat] at hlast
  have hown : ∀ o ∈ b.past, o.calledWith? event (b.eventAt event).nextHandler = none := by
    intro o ho
    have hknown := hst.known o ho
    cases o with
    | call i number value =>
      refine if_neg ?_
      rintro ⟨rfl, rfl⟩
      exact Nat.lt_irrefl _ hknown
    | _ => rfl
  have hfired : ∀ o ∈ b.past, o.firedOn? b.events.length = none := by
    intro o ho
    have hknown := hst.known o ho
    cases o with
    | fired i value => exact if_neg (Nat.ne_of_lt hknown)
    | _ => rfl
  have hcalls : ∀ number x, .call b.events.length number x ∉ b.past := by
    intro number x ho
    have hknown : number < (b.eventAt b.events.length).nextHandler := hst.known _ ho
    rw [hat] at hknown
    exact Nat.not_lt_zero _ hknown
  have hidle : b.events.length ∉ ds.map Frame.event := by
    rw [← hst.dispatching, hat]
    exact Bool.false_ne_true
  exact {
    current := (value_eq_initial (w := ⟨k, event, _, _, fold, initial⟩) hown).symm
    books := books_new hown hfired hcalls hlast.numbers fun hmem =>
      Bool.false_ne_true (hlast.disposed.mpr hmem)
    waiting := by
      dsimp only
      rw [hat]
    nested := fun inner outer heq => absurd (heq ▸ List.mem_append_right _ List.mem_cons_self) hidle
    ended := by
      dsimp only
      rw [hat]
      exact fun hd => absurd hd Bool.false_ne_true }

theorem value_reset (w : Wiring) (past : List Occurrence) :
    w.value (.reset w.signal :: past) = w.initial := by
  simp [Wiring.value, taken, calledWith?]

theorem Following.reset (h : b.Following ds) (signal : Nat) :
    ((b.modifySignal signal fun s => { s with current := s.initial }).record
      (.reset signal)).Following ds := by
  intro k s hk
  have hk : (b.signals.modify signal fun s => { s with current := s.initial })[k]? = some s := hk
  rw [List.getElem?_modify] at hk
  obtain ⟨s₀, hs₀, rfl⟩ := Option.map_eq_some_iff.mp hk
  have h₀ := h k s₀ hs₀
  by_cases hsignal : signal = k
  · rw [if_pos hsignal, hsignal]
    refine ⟨(value_reset (s₀.wiring k) b.past).symm, ?_, h₀.waiting, h₀.nested, h₀.ended⟩
    exact h₀.books.aside (aside_of_quiet rfl) (by rintro _ _ ⟨⟩)
  · rw [if_neg hsignal]
    have hrecorded : (b.record (.reset signal)).Follows ds k s₀ := by
      refine h₀.aside rfl (aside_of_quiet rfl) ?_ (by rintro _ _ ⟨⟩) h₀.waiting h₀.ended
      rintro ⟨⟩
      exact hsignal rfl
    exact hrecorded.congr rfl rfl

theorem Following.following (h : b.Following ds) (hr : b.Recorded) (hst : b.Stacked ds)
    (hlen : event < b.events.length) (fold : Fold) (initial : Int) :
    (b.withSignal event fold initial).Following ds := by
  intro k s hk
  -- Nothing has happened so far that the new signal would have a part in.
  have hs : b.Follows ds k s := by
    rw [signals_withSignal hlen, List.getElem?_append] at hk
    split at hk
    · exact h k s hk
    · rw [List.mem_singleton.mp (List.mem_of_getElem? hk)]
      exact follows_new hr hst k event fold initial _
  clear hk
  cases withSignal_cases hlen fold initial with
  | inl hcase => exact hs.congr hcase.2.1 (hcase.2.2 _)
  | inr hcase =>
    obtain ⟨_, hpast, hself, hother⟩ := hcase
    have hsubscribed : (b.change event (.subscribed event (b.eventAt event).nextHandler none)
        (·.subscribe (.folding b.signals.length))).Follows ds k s :=
      hs.subscribed hr hst (.folding b.signals.length)
    refine hsubscribed.congr (hpast.trans (past_change hlen _ _).symm) ?_
    by_cases hevent : event = s.event
    · rw [← hevent, hself, eventAt_change hlen]
    · rw [hother _ hevent, eventAt_change_ne b hevent]

theorem Following.silenced (h : b.Following ds) (hdistinct : b.relays.Nodup) (signal : Nat) :
    (b.disposeSignalAt signal).Following ds := by
  cases hsignal : b.signals[signal]? with
  | none =>
    rw [disposeSignalAt, hsignal]
    exact h
  | some s₁ =>
    rw [disposeSignalAt_eq hsignal]
    intro k s hk
    have hk : (b.signals.modify signal fun s =>
        { s with source := { s.source with active := false } })[k]? = some s := hk
    rw [List.getElem?_modify] at hk
    obtain ⟨s₀, hs₀, rfl⟩ := Option.map_eq_some_iff.mp hk
    have h₀ := (h k s₀ hs₀).removeHandler s₁.source
    by_cases heq : signal = k
    · rw [if_pos heq]
      have hleft : (b.removeHandler s₁.source).Follows ds k
          { s₀ with source := { s₀.source with active := false } } :=
        ⟨h₀.current, h₀.books, h₀.waiting, h₀.nested, fun _ => rfl⟩
      have hdisposed : ((b.removeHandler s₁.source).disposeEventAt s₁.event).Follows ds k
          { s₀ with source := { s₀.source with active := false } } :=
        hleft.change_regular (aside_of_quiet rfl) rfl fun _ => ⟨rfl, fun _ => rfl⟩
      exact hdisposed.congr rfl rfl
    · rw [if_neg heq]
      have hdisposed : ((b.removeHandler s₁.source).disposeEventAt s₁.event).Follows ds k s₀ :=
        h₀.change_regular (aside_of_quiet rfl) rfl fun hevent =>
          absurd hevent (event_ne hdistinct hs₀ hsignal heq)
      exact hdisposed.congr rfl rfl

/-- Whatever an edit does, all signals are still as the past tells. -/
theorem Following.edits (h : b.Following ds) (hst : b.Stacked ds) (hedit : Edits b b') :
    b'.Following ds := by
  cases hedit with
  | renamed he hs hp => exact fun k s hk => (h k s (hs ▸ hk)).congr hp (eventAt_congr he _)
  | read =>
    exact fun k s hk => (h k s hk).record (aside_of_quiet rfl) rfl
  | @reset signal => exact h.reset signal
  | created => exact fun k s hk => (h k s hk).congr rfl (b.eventAt_addEvent _)
  | @listening event name body hr _ hlen =>
    intro k s hk
    rw [signals_addHandler] at hk
    cases addHandler_cases hlen (.listener name body) with
    | inl hcase =>
      rw [hcase.2]
      exact h k s hk
    | inr hcase =>
      rw [hcase.2]
      exact (h k s hk).subscribed hr hst (.listener name body)
  | following hr _ hevent => exact h.following hr hst hevent.1 _ _
  | @removed handle =>
    intro k s hk
    rw [signals_removeHandler] at hk
    exact (h k s hk).removeHandler handle
  | @disposed event hevent =>
    intro k s hk
    rw [disposeEventAt, signals_change] at hk
    refine (h k s hk).change_regular (aside_of_quiet rfl) rfl ?_
    rintro rfl
    exact absurd (mem_relays hk) hevent
  | @silenced signal hdistinct => exact h.silenced hdistinct signal

end ProofPanel.Bus
