import ProofPanel.Proofs.Bus.Follow

/-!
# Signals and their sources

At every moment a signal has come to what the values that it has taken fold to, and its subscribers
have been called with all of that, one after the other. A handler that fires the source from inside
does not disturb it: the value waits at the source, never at the signal.
-/
namespace ProofPanel.Bus

open Occurrence Wiring Relation

structure Orderly (b : Bus) (ds : List Frame) : Prop where
  stacked : b.Stacked ds
  following : b.Following ds

variable {b b' : Bus} {ds : List Frame} {q : Bus × List Frame} {k : Nat} {s : Signal}
  {event number : Nat} {value value' x : Int} {handler : Handler} {rest : List (Nat × Handler)}

theorem Orderly.manage (h : b.Orderly ds) (hr : b.Recorded) (ht : b.Tracked) (action : Action) :
    (b.manage action).Orderly ds :=
  keeps_closure (I := fun b => b.Orderly ds)
    (fun _ _ h hedit => ⟨h.stacked.edits hedit, h.following.edits h.stacked hedit⟩)
    (manage_edits hr ht action) h

/-! ## A value is fired -/

theorem Opens.eq_round (h : Opens b event value ds q) (hd : (b.eventAt event).disposed = false) :
    q = (b.record (.round event value), ⟨event, value, (b.eventAt event).handlers⟩ :: ds) := by
  cases h with
  | cut hd' => exact absurd (hd.symm.trans hd') Bool.false_ne_true
  | round _ => rfl

/-- A dispatch begins with its first round. -/
theorem Opens.eq_begin {e : Event}
    (h : Opens (b.change event (.fired event value) Event.begin) event value ds q)
    (he : b.events[event]? = some e) (hd : e.disposed = false) :
    q = ((b.change event (.fired event value) Event.begin).record (.round event value),
      ⟨event, value, (b.eventAt event).handlers⟩ :: ds) := by
  have hat := eventAt_change (lt_of_getElem? he) (.fired event value) Event.begin
  have hq := h.eq_round (by rw [hat, eventAt_eq he]; exact hd)
  rw [hat] at hq
  exact hq

theorem Follows.begin_ne (h : b.Follows ds k s) (hne : event ≠ s.event) (value : Int)
    (handlers : List (Nat × Handler)) :
    ((b.change event (.fired event value) Event.begin).record (.round event value)).Follows
      (⟨event, value, handlers⟩ :: ds) k s := by
  refine (follows_cons_iff hne).mpr ?_
  have haside : (s.wiring k).Aside (.fired event value) := aside_of_fired hne
  have hfired := h.change_regular (f := Event.begin) haside rfl fun heq => absurd heq hne
  exact hfired.record (aside_of_quiet rfl) rfl

/-- Nobody but a signal fires its event. -/
theorem Orderly.starts (h : b.Orderly ds) (hr : b.Recorded) (hevent : b.Ordinary event)
    (hq : Starts b event value ds q) : q.1.Orderly q.2 := by
  cases hq with
  | skipped _ => exact h
  | queued _ _ _ =>
    have hx : b.Extends (b.change event (.fired event value) (·.queue value)) :=
      b.extends_change event
        (fun e => by rw [Event.queue]; split <;> exact ⟨rfl, List.Subset.refl _⟩) fun _ => hevent.1
    refine ⟨h.stacked.steady hx fun i => ?_, fun k s hk => ?_⟩
    · by_cases hi : event = i
      · rw [← hi, eventAt_change hevent.1, Event.queue]
        split <;> rfl
      · rw [eventAt_change_ne b hi]
    · rw [signals_change] at hk
      have hne := hevent.ne hk
      exact (h.following k s hk).change_regular (aside_of_fired hne) rfl fun heq => absurd heq hne
  | opened he hd hi hopens =>
    rw [hopens.eq_begin he hd]
    refine ⟨h.stacked.begin hr hevent.1 (by rw [eventAt_eq he]; exact hi) value,
      fun k s hk => ?_⟩
    have hk : (b.change event (.fired event value) Event.begin).signals[k]? = some s := hk
    rw [signals_change] at hk
    exact (h.following k s hk).begin_ne (hevent.ne hk) value _

/-! ## A handler has its turn -/

/-- At an ordinary event, a turn that is passed over does not concern the signals. -/
theorem Orderly.pass (h : b.Orderly (⟨event, value, (number, handler) :: rest⟩ :: ds))
    (hevent : b.Ordinary event) : b.Orderly (⟨event, value, rest⟩ :: ds) := by
  refine ⟨h.stacked.turn, fun k s hk => ?_⟩
  have hne : event ≠ s.event := hevent.ne hk
  exact (follows_cons_iff hne).mpr ((follows_cons_iff hne).mp (h.following k s hk))

theorem Orderly.gone (h : b.Orderly (⟨event, value, (number, handler) :: rest⟩ :: ds))
    (hr : b.Recorded) (hgone : b.isSubscribed event number = false) :
    b.Orderly (⟨event, value, rest⟩ :: ds) := by
  refine ⟨h.stacked.turn, fun k s hk => ?_⟩
  have hs := h.following k s hk
  by_cases hevent : event = s.event
  · subst hevent
    have hgone : number ∉ (subscribers s.event b.past).map Prod.fst := by
      rw [← hr.isSubscribed_iff, hgone]
      exact Bool.false_ne_true
    exact ⟨hs.current, hs.books.gone hgone, hs.waiting, hs.nested, hs.ended⟩
  · exact (follows_cons_iff hevent).mpr ((follows_cons_iff hevent).mp hs)

/-- A call does not concern the signals that neither take its value nor pass it on. -/
theorem Orderly.call_other
    (h : b.Orderly (⟨event, value, (number, handler) :: rest⟩ :: ds))
    (hk : b.signals[k]? = some s) (hhandler : handler ≠ .folding k) (hne : event ≠ s.event) :
    (b.record (.call event number value)).Follows (⟨event, value, rest⟩ :: ds) k s := by
  have hentry := (h.stacked.turns _ List.mem_cons_self).2 _ List.mem_cons_self
  have hkey : (s.source.event, s.source.handler) ≠ (event, number) := fun heq =>
    hhandler ((hentry.folding k).mpr ((getElem?_keys hk).trans (congrArg some heq)))
  have hs := (follows_cons_iff hne).mp (h.following k s hk)
  exact (follows_cons_iff hne).mpr
    (hs.record (aside_of_call hkey hne) rfl)

/-- A subscriber of the signal is called. -/
theorem Follows.turn
    (h : b.Follows (⟨s.event, value, (number, handler) :: rest⟩ :: ds) k s)
    (hds : s.event ∉ ds.map Frame.event) (hrest : number ∉ rest.map Prod.fst)
    (hlive : .disposed s.event ∉ b.past) (hsource : s.source.event ≠ s.event)
    (hcalled : number ∈ (subscribers s.event b.past).map Prod.fst)
    (hin : inDispatch s.event b.past = true) :
    (b.record (.call s.event number value)).Follows (⟨s.event, value, rest⟩ :: ds) k s := by
  have hown : (Occurrence.call s.event number value).calledWith? s.source.event
      s.source.handler = none :=
    if_neg fun heq => hsource heq.1.symm
  refine ⟨?_, h.books.turn hds hrest hlive hsource hcalled hin, h.waiting, h.nested, h.ended⟩
  exact h.current.trans (value_other (w := s.wiring k) hown nofun b.past).symm

theorem Recorded.live_of_isSubscribed (hr : b.Recorded) (ht : b.Tracked)
    (h : b.isSubscribed event number = true) : .disposed event ∉ b.past := by
  rw [← (hr event).disposed]
  intro hd
  rw [isSubscribed, Event.isSubscribed, ht.sound.retired event hd] at h
  cases h

theorem Orderly.listener {name : String} {body : Int → Body}
    (h : b.Orderly (⟨event, value, (number, .listener name body) :: rest⟩ :: ds))
    (hr : b.Recorded) (ht : b.Tracked) (hcalled : b.isSubscribed event number = true) :
    ((b.record (.call event number value)).record (.heard name value)).Orderly
      (⟨event, value, rest⟩ :: ds) := by
  have hnodup := (h.stacked.turns _ List.mem_cons_self).1
  refine ⟨h.stacked.call.steady (extends_record trivial) fun _ => rfl, fun k s hk => ?_⟩
  have hcall : (b.record (.call event number value)).Follows (⟨event, value, rest⟩ :: ds) k s := by
    by_cases hevent : event = s.event
    · have hsource := (ht.source_ordinary hk).ne hk
      subst hevent
      have hin : inDispatch s.event b.past = true := by
        rw [← (hr s.event).dispatching]
        exact (h.stacked.dispatching s.event).mpr List.mem_cons_self
      exact (h.following k s hk).turn h.stacked.notMem (List.nodup_cons.mp hnodup).1
        (hr.live_of_isSubscribed ht hcalled) hsource ((hr.isSubscribed_iff _ _).mp hcalled) hin
    · exact h.call_other hk nofun hevent
  exact hcall.record (aside_of_quiet rfl) rfl

/-! ## A signal takes a value -/

def taking (b : Bus) (k : Nat) (s : Signal) (value : Int) : Bus :=
  (b.record (.call s.source.event s.source.handler value)).modifySignal k fun s' =>
    { s' with current := s.fold.apply s.current value }

theorem getElem?_taking {s' : Signal} {i : Nat}
    (h : (b.taking k s value).signals[i]? = some s') : ∃ s₀, b.signals[i]? = some s₀ ∧
      s' = if k = i then { s₀ with current := s.fold.apply s.current value } else s₀ := by
  have h : (b.signals.modify k fun s' =>
    { s' with current := s.fold.apply s.current value })[i]? = some s' := h
  rw [List.getElem?_modify] at h
  obtain ⟨s₀, hs₀, rfl⟩ := Option.map_eq_some_iff.mp h
  exact ⟨s₀, hs₀, rfl⟩

/-- The signal begins a round with the value that it has come to. -/
theorem Follows.deliver (h : b.Follows ds k s) (hr : b.Recorded) (hlen : s.event < b.events.length)
    (hlive : (b.eventAt s.event).disposed = false) (hidle : s.event ∉ ds.map Frame.event)
    (hdispatching : (b.eventAt s.event).dispatching = false)
    (hsource : s.source.event ∈ ds.map Frame.event)
    (hx : x = s.fold.apply s.current value) :
    (((b.taking k s value).change s.event (.fired s.event x) Event.begin).record
      (.round s.event x)).Follows (⟨s.event, x, (b.eventAt s.event).handlers⟩ :: ds) k
        { s with current := x } := by
  have hne : s.source.event ≠ s.event := fun heq => hidle (heq ▸ hsource)
  have hlive : .disposed s.event ∉ b.past := by
    rw [← (hr s.event).disposed, hlive]
    exact Bool.false_ne_true
  have hx : x = s.fold.apply ((s.wiring k).value b.past) value := by rw [← h.current, hx]
  have hbooks := h.books.deliver hidle hlive hne
    ((hr s.event).dispatching.symm.trans hdispatching) (hr.numbers_handlers s.event) hx
  have hlen : s.event < (b.taking k s value).events.length := hlen
  have hpast : (((b.taking k s value).change s.event (.fired s.event x) Event.begin).record
      (.round s.event x)).past = .round s.event x :: .fired s.event x ::
        .call s.source.event s.source.handler value :: b.past :=
    congrArg (Occurrence.round s.event x :: ·) (past_change hlen _ _)
  have hat : (((b.taking k s value).change s.event (.fired s.event x) Event.begin).record
      (.round s.event x)).eventAt s.event = (b.eventAt s.event).begin :=
    eventAt_change hlen _ _
  generalize ((b.taking k s value).change s.event (.fired s.event x) Event.begin).record
    (.round s.event x) = b' at hpast hat ⊢
  refine ⟨?_, ?_, hat ▸ h.waiting, fun inner outer heq => ?_, hat ▸ h.ended⟩
  · rw [hpast]
    exact hx.trans (value_own (s.wiring k) value b.past).symm
  · rw [hpast]
    exact hbooks.aside (aside_of_quiet rfl) (by rintro _ _ ⟨⟩)
  · obtain _ | ⟨i, inner⟩ := inner
    · exact (List.cons.inj heq).2 ▸ hsource
    · have htail := (List.cons.inj heq).2
      exact absurd (htail ▸ List.mem_append_right _ List.mem_cons_self) hidle

/-- Whoever is called for a signal finds the event of the signal idle. -/
theorem Orderly.idle (h : b.Orderly (⟨s.source.event, value, rest⟩ :: ds))
    (hs : b.signals[k]? = some s) (hsource : s.source.event ≠ s.event) :
    s.event ∉ (⟨s.source.event, value, rest⟩ :: ds).map Frame.event := by
  intro hmem
  obtain ⟨inner, outer, heq⟩ := List.append_of_mem hmem
  have houter := (h.following k s hs).nested inner outer heq
  obtain _ | ⟨i, inner⟩ := inner
  · exact hsource (List.cons.inj heq).1
  · have htail := (List.cons.inj heq).2
    exact h.stacked.notMem (htail ▸ List.mem_append_right _ (List.mem_cons_of_mem _ houter))

/-- A signal whose handler is subscribed has not been disposed. -/
theorem Orderly.live (h : b.Orderly ds) (ht : b.Tracked) (hs : b.signals[k]? = some s)
    (hcalled : b.isSubscribed s.source.event s.source.handler = true) :
    (b.eventAt s.event).disposed = false := by
  refine Bool.eq_false_iff.mpr fun hd => ?_
  have hhandle : s.source ∈ b.handles := List.mem_append_right _
    (List.mem_append_right _ (List.mem_map_of_mem (List.mem_of_getElem? hs)))
  have hmem : s.source.handler ∈ (b.eventAt s.source.event).handlers.map Prod.fst := by
    simpa [isSubscribed, Event.isSubscribed] using hcalled
  have hactive := ((ht.keeps.fits s.source hhandle).live.mp hmem).1
  exact Bool.false_ne_true (((h.following k s hs).ended hd).symm.trans hactive)

/-- What a signal passes on neither waits nor gets lost. -/
theorem Starts.eq_begin (h : Starts b event value ds q) (hlen : event < b.events.length)
    (hd : (b.eventAt event).disposed = false) (hi : (b.eventAt event).dispatching = false) :
    q = ((b.change event (.fired event value) Event.begin).record (.round event value),
      ⟨event, value, (b.eventAt event).handlers⟩ :: ds) := by
  cases h with
  | skipped hskip =>
    have he := List.getElem?_eq_getElem hlen
    have hd' := hskip _ he
    rw [← eventAt_eq he, hd] at hd'
    cases hd'
  | queued he _ hi' =>
    rw [← eventAt_eq he, hi] at hi'
    cases hi'
  | opened he hd _ hopens => exact hopens.eq_begin he hd

theorem Orderly.folding (h : b.Orderly (⟨event, value, (number, .folding k) :: rest⟩ :: ds))
    (hr : b.Recorded) (ht : b.Tracked) (hcalled : b.isSubscribed event number = true)
    (hs : b.signals[k]? = some s)
    (hq : Starts ((b.record (.call event number value)).modifySignal k fun s' =>
      { s' with current := s.fold.apply s.current value }) s.event
        (s.fold.apply s.current value) (⟨event, value, rest⟩ :: ds) q) : q.1.Orderly q.2 := by
  obtain ⟨_, hentries⟩ := h.stacked.turns _ List.mem_cons_self
  have hentry := hentries _ List.mem_cons_self
  have hkey := (getElem?_keys hs).symm.trans ((hentry.folding k).mp rfl)
  obtain ⟨rfl, rfl⟩ := Prod.ext_iff.mp (Option.some.inj hkey)
  have hordinary := ht.source_ordinary hs
  have hlen : s.event < b.events.length := ht.sound.relayed _ (mem_relays hs)
  have hlive := h.live ht hs hcalled
  have hturned := h.pass hordinary
  have hidle := hturned.idle hs (hordinary.ne hs)
  have hdispatching : (b.eventAt s.event).dispatching = false :=
    Bool.eq_false_iff.mpr fun hi => hidle ((hturned.stacked.dispatching _).mp hi)
  have hstacked : (b.taking k s value).Stacked (⟨s.source.event, value, rest⟩ :: ds) := by
    refine h.stacked.call.steady (extends_modifySignal _ k ?_) fun _ => rfl
    exact fun _ => ⟨rfl, rfl⟩
  have hq : Starts (b.taking k s value) s.event _ _ q := hq
  rw [hq.eq_begin hlen hlive hdispatching]
  refine ⟨hstacked.begin (hr.record rfl) hlen hdispatching _, fun k' s' hk' => ?_⟩
  have hk' : ((b.taking k s value).change s.event _ Event.begin).signals[k']? = some s' := hk'
  rw [signals_change] at hk'
  obtain ⟨s₀, hs₀, rfl⟩ := getElem?_taking hk'
  by_cases hsignal : k = k'
  · subst hsignal
    obtain rfl := Option.some.inj (hs.symm.trans hs₀)
    rw [if_pos rfl]
    exact (hturned.following k s hs).deliver hr hlen hlive hidle hdispatching List.mem_cons_self rfl
  · rw [if_neg hsignal]
    have hhandler : Handler.folding k ≠ .folding k' := fun heq => hsignal (by injection heq)
    have hcall := h.call_other hs₀ hhandler (hordinary.ne hs₀)
    have hother : (b.taking k s value).Follows (⟨s.source.event, value, rest⟩ :: ds) k' s₀ :=
      hcall.congr rfl rfl
    exact hother.begin_ne (event_ne ht.sound.distinct hs₀ hs hsignal) _ _

/-! ## A round is over -/

theorem Orderly.next (h : b.Orderly (⟨event, value, []⟩ :: ds)) (hr : b.Recorded)
    (hn : b.takeNext? event = some (value', b')) (hq : Opens b' event value' ds q) :
    q.1.Orderly q.2 := by
  obtain ⟨waiting, hqueued, hpast, hself, hother⟩ := takeNext?_eq_some hn
  have hd : (b'.eventAt event).disposed = false := by
    rw [hself]
    refine Bool.eq_false_iff.mpr fun hd => ?_
    have hnil := (hr event).waiting (.inl hd)
    rw [hqueued] at hnil
    cases hnil
  have hsignals : b'.signals = b.signals := by
    rw [takeNext?, hqueued] at hn
    cases hn
    rfl
  rw [hq.eq_round hd]
  refine ⟨h.stacked.next hr hn, fun k s hs => ?_⟩
  have hk : b.signals[k]? = some s := hsignals ▸ hs
  -- Only ordinary events have values that wait.
  have hne : event ≠ s.event := fun heq => by
    have hnil := (h.following k s hk).waiting
    rw [← heq, hqueued] at hnil
    cases hnil
  have hs := ((follows_cons_iff hne).mp (h.following k s hk)).congr hpast (hother _ hne)
  exact (follows_cons_iff hne).mpr
    (hs.record (aside_of_quiet rfl) rfl)

theorem Orderly.settle (h : b.Orderly (⟨event, value, []⟩ :: ds)) :
    (b.settle event).Orderly ds := by
  refine ⟨h.stacked.settle, fun k s hk => ?_⟩
  have hs := h.following k s hk
  by_cases hevent : event = s.event
  · subst hevent
    have hat := b.eventAt_settle s.event
    refine ⟨?_, hs.books.settle, ?_, fun inner outer heq => ?_, hat ▸ hs.ended⟩
    · have hsame := value_other (w := s.wiring k) (o := .settled s.event) rfl nofun b.past
      exact hs.current.trans hsame.symm
    · rw [hat]
      rfl
    · exact hs.nested (s.event :: inner) outer (congrArg (s.event :: ·) heq)
  · have hat := b.eventAt_settle_ne hevent
    have hs := (follows_cons_iff hevent).mp hs
    exact hs.aside rfl (aside_of_settled hevent) (by rintro ⟨⟩) (by rintro _ _ ⟨⟩)
      (hat ▸ hs.waiting) (hat ▸ hs.ended)

/-! ## At every moment -/

theorem Orderly.moves {p : Bus × List Frame} (h : p.1.Orderly p.2) (hr : p.1.Recorded)
    (ht : p.1.Tracked) (hmove : Moves p q) : q.1.Orderly q.2 := by
  cases hmove with
  | managed => exact h.manage hr ht _
  | fired hname hstarts =>
    exact h.starts hr (ht.sound.named _ (Names.mem_of_get? hname)) hstarts
  | gone hgone => exact h.gone hr hgone
  | called hcalled henters =>
    cases henters with
    | listener => exact h.listener hr ht hcalled
    | @unknown signal hnone =>
      have hentry := (h.stacked.turns _ List.mem_cons_self).2 _ List.mem_cons_self
      have hkey := (hentry.folding signal).mp rfl
      have hnone := congrArg (Option.map fun s => (s.source.event, s.source.handler)) hnone
      rw [keys, List.getElem?_map] at hkey
      cases hkey.symm.trans hnone
    | folding hs hstarts => exact h.folding hr ht hcalled hs hstarts
  | next hn hopens => exact h.next hr hn hopens
  | settled _ => exact h.settle

theorem orderly_start (routines : String → Int → Body) : Bus.Orderly { routines } [] where
  stacked := {
    entries := nofun
    turns := nofun
    distinct := .nil
    dispatching := fun _ => iff_of_false Bool.false_ne_true List.not_mem_nil
    known := nofun }
  following := nofun

variable {routines : String → Int → Body}

theorem Found.orderly (h : Found routines b) : ∃ ds, b.Orderly ds := by
  obtain ⟨ds, _, _, hb⟩ := h.invariant
    (I := fun p => p.1.Recorded ∧ p.1.Tracked ∧ p.1.Orderly p.2)
    (fun p q ⟨hr, ht, hp⟩ hmove => ⟨hmove.kept Recorded.changes hr, hmove.kept Tracked.changes ht,
      hp.moves hr ht hmove⟩)
    ⟨fun event => Event.recorded_nil event, tracked_start routines, orderly_start routines⟩
  exact ⟨ds, hb⟩

/-- The value is the last one fired on the event, the dispatch is not over, and that is what has
happened since. -/
def Delivering (event : Nat) (value : Int) (during past : List Occurrence) : Prop :=
  (∃ before, past = during ++ .fired event value :: before) ∧ .settled event ∉ during ∧
    ∀ o ∈ during, o.firedOn? event = none

/-- At every moment, whatever the handlers do, even if they fire the source from inside, a signal
has come to what the values fold to that its own handler at the source was called with since the
signal was last reset. It has passed on what it came to with each value, and nothing else. Whoever
is subscribed to it has been called with all of that since it was subscribed, in that order; only in
a delivery its turn may still be to come. Only who is subscribed is called, with the value under
delivery, and until the delivery is over the signal has that value unless it is reset meanwhile.
Once the signal has been disposed of, it takes no value, passes none on, and does not change but by
being reset. -/
theorem signal_eq_foldl_and_subscribers_served (h : Found routines b) (hs : b.signals[k]? = some s) :
    s.current = ((s.wiring k).taken b.past).foldl s.fold.apply s.initial ∧
    valuesFired s.event b.past = (s.wiring k).values b.past ∧
    (∀ later number name earlier, b.past = later ++ .subscribed s.event number name :: earlier →
      b.isSubscribed s.event number = true →
      (s.wiring k).values b.past =
          (s.wiring k).values earlier ++ valuesCalled s.event number later ∨
        ∃ v during, Delivering s.event v during b.past ∧
          (∀ x, .call s.event number x ∉ during) ∧ (s.wiring k).values b.past =
            (s.wiring k).values earlier ++ valuesCalled s.event number later ++ [v]) ∧
    (∀ later number v earlier, b.past = later ++ .call s.event number v :: earlier →
      number ∈ (subscribers s.event earlier).map Prod.fst ∧ (.settled s.event ∉ later →
        ∃ during, Delivering s.event v during b.past ∧
          (.reset k ∉ during → s.current = v))) ∧
    (b.disposeSignalAt k).past.head? = some (.disposed s.event) ∧
    ∀ later earlier, b.past = later ++ .disposed s.event :: earlier →
      (∀ o ∈ later, o.calledWith? s.source.event s.source.handler = none ∧
        o.firedOn? s.event = none ∧ ∀ number x, o ≠ .call s.event number x) ∧
      (.reset k ∉ later → s.current = (s.wiring k).value earlier) := by
  have hr := h.recorded
  have ht := h.tracked
  obtain ⟨ds, hb⟩ := h.orderly
  obtain ⟨hcurrent, hbooks, _, _, _⟩ := hb.following k s hs
  refine ⟨hcurrent, hbooks.fired, fun later number name earlier hpast hsubscribed => ?_,
    fun later number v earlier hpast => ?_, ?_, fun later earlier hpast => ?_⟩
  · have hserved := hbooks.served later number name earlier hpast
      ((hr.isSubscribed_iff _ _).mp hsubscribed)
    cases due_cases hb.stacked.distinct number with
    | inl hnone =>
      rw [hnone, List.append_nil] at hserved
      exact .inl hserved
    | inr hsome =>
      obtain ⟨d, hd, hevent, hturn, hdue⟩ := hsome
      have hsame : d.event = s.event := hevent
      have hin : inDispatch s.event b.past = true := by
        rw [← (hr s.event).dispatching]
        exact (hb.stacked.dispatching _).mpr (hsame ▸ List.mem_map_of_mem hd)
      obtain ⟨during, v, before, hpast, hsettled⟩ := exists_fired_of_inDispatch hin
      obtain ⟨halone, _, _⟩ := hbooks.held during v before hpast hsettled
      obtain ⟨hvalue, hcalls⟩ := hbooks.under d hd hevent during v before hpast hsettled
      rw [hdue, hvalue] at hserved
      exact .inr ⟨v, during, ⟨⟨before, hpast⟩, hsettled, halone⟩, hcalls number hturn, hserved⟩
  · obtain ⟨hmem, hin⟩ := hbooks.heeded later number v earlier hpast
    refine ⟨hmem, fun hsettled => ?_⟩
    obtain ⟨mid, v', before, rfl, hmid⟩ := exists_fired_of_inDispatch hin
    have hmid : .settled s.event ∉ mid := hmid
    have hsplit : b.past =
        (later ++ .call s.event number v :: mid) ++ .fired s.event v' :: before := by
      rw [hpast, List.append_assoc]
      rfl
    have hopen : .settled s.event ∉ later ++ .call s.event number v :: mid := by
      simp [hsettled, hmid]
    obtain ⟨halone, hcalls, hvalue⟩ := hbooks.held _ v' before hsplit hopen
    have hv : v = v' := hcalls number v (List.mem_append_right _ List.mem_cons_self)
    rw [← hv] at hsplit hvalue
    exact ⟨_, ⟨⟨before, hsplit⟩, hopen, halone⟩, fun hreset => hcurrent.trans (hvalue hreset)⟩
  · have hlen : s.event < (b.removeHandler s.source).events.length := by
      rw [(b.sameBus_removeHandler s.source).length]
      exact ht.sound.relayed _ (mem_relays hs)
    rw [disposeSignalAt_eq hs]
    exact congrArg List.head? (past_change hlen _ _)
  · have hended := hbooks.ended later earlier hpast
    refine ⟨hended, fun hreset => ?_⟩
    have hafter := value_append (w := s.wiring k) (fun o ho => (hended o ho).1) hreset
      (.disposed s.event :: earlier)
    have hthen := value_other (w := s.wiring k) (o := .disposed s.event) rfl nofun earlier
    rw [hcurrent, hpast, hafter, hthen]

/-- A subscriber of a signal has fired the source again: it has been called with the one value that
the signal has come to, and the other value waits at the source. -/
theorem signal_eq_foldl_and_subscribers_served_within : ∃ b s, Found (fun _ _ => .done) b ∧ b.signals[0]? = some s ∧
    (b.eventAt 0).queued = [2] ∧ valuesCalled s.event 0 b.past = [1] ∧
    (s.wiring 0).values b.past = [1] ∧ s.current = 1 := by
  let again : Int → Body := fun _ => .act (.fire "event" (.fixed 2)) .done
  let b₀ : Bus :=
    { events := [{ handlers := [(0, .folding 0)], nextHandler := 1 },
        { handlers := [(0, .listener "first" again)], nextHandler := 1 }]
      signals := [⟨.sum, 0, 0, 1, ⟨0, 0, true⟩⟩]
      eventNames := [("event", 0)]
      signalNames := [("total", 0)]
      subscriptions := [("first", ⟨1, 0, true⟩)]
      past := [.subscribed 1 0 (some "first"), .subscribed 0 0 none] }
  let b₁ : Bus := b₀.change 0 (.fired 0 1) Event.begin |>.record (.round 0 1)
    |>.record (.call 0 0 1) |>.modifySignal 0 (fun s => { s with current := 1 })
    |>.change 1 (.fired 1 1) Event.begin |>.record (.round 1 1) |>.record (.call 1 0 1)
    |>.record (.heard "first" 1)
  have hsteps : stepAll {} [.newEvent "event", .newSignal "total" "event" .sum 0,
      .listen "total" "first" again] = some b₀ := by
    simp only [stepAll, List.foldlM_cons, List.foldlM_nil, step, act, Option.pure_def,
      Option.bind_eq_bind, Option.bind_some]
    rfl
  have hfired : Does b₁ (.act 1 (.fire "event" (.fixed 2))) [.fired 0 2]
      (b₁.change 0 (.fired 0 2) (·.queue 2)) := .leads (.fired rfl) (.queued rfl rfl rfl)
  have hparts : ReflTransGen Part (b₀, .act 0 (.fire "event" (.fixed 1)))
      (b₁.change 0 (.fired 0 2) (·.queue 2), .run 1 .done) :=
    .head (.leads (.fired rfl)) <| .head (.rounds rfl rfl rfl) <| .head (.turns rfl) <|
      .head (.called rfl) <| .head (.folding rfl) <| .head (.rounds rfl rfl rfl) <|
      .head (.turns rfl) <| .head (.called rfl) <| .head .listener <| .single (.acted hfired)
  have hfound := Found.inside hsteps hparts
  have hsignals := signal_eq_foldl_and_subscribers_served hfound (k := 0) rfl
  exact ⟨_, _, hfound, rfl, rfl, rfl, hsignals.2.1.symm.trans rfl, hsignals.1.trans rfl⟩

end ProofPanel.Bus
