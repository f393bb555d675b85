import ProofPanel.Proofs.Bus.Edit
import ProofPanel.Proofs.Bus.Rounds

/-!
# Rounds under way

An event is in a dispatch exactly while a round of it is under way, and no two rounds of one event
are under way at once. A handler whose turn is still to come folds into a signal exactly if the
signal follows its event by it, whatever has happened to the event since the round began.
-/
namespace ProofPanel.Bus

def keys (b : Bus) : List (Nat × Nat) := b.signals.map fun s => (s.source.event, s.source.handler)

structure Entry (b : Bus) (event : Nat) (p : Nat × Handler) : Prop where
  numbered : p.1 < (b.eventAt event).nextHandler
  folding : ∀ k, p.2 = .folding k ↔ b.keys[k]? = some (event, p.1)

def Known (b : Bus) : Occurrence → Prop
  | .fired event _ => event < b.events.length
  | .call event number _ => number < (b.eventAt event).nextHandler
  | _ => True

structure Stacked (b : Bus) (ds : List Frame) : Prop where
  entries : ∀ i, ∀ p ∈ (b.eventAt i).handlers, b.Entry i p
  turns : ∀ d ∈ ds, (d.rest.map Prod.fst).Nodup ∧ ∀ p ∈ d.rest, b.Entry d.event p
  distinct : (ds.map Frame.event).Nodup
  dispatching : ∀ i, (b.eventAt i).dispatching = true ↔ i ∈ ds.map Frame.event
  known : ∀ o ∈ b.past, b.Known o

structure Extends (b b' : Bus) : Prop where
  keys : b'.keys = b.keys
  length : b.events.length ≤ b'.events.length
  nextHandler : ∀ i, (b.eventAt i).nextHandler ≤ (b'.eventAt i).nextHandler
  entries : ∀ i, ∀ p ∈ (b'.eventAt i).handlers, p ∈ (b.eventAt i).handlers ∨ b'.Entry i p
  known : ∀ o ∈ b'.past, o ∈ b.past ∨ b'.Known o

variable {b b' b'' : Bus} {ds ds' : List Frame} {event i : Nat} {p : Nat × Handler}
  {o : Occurrence}

theorem Entry.mono (h : b.Entry event p) (hkeys : b'.keys = b.keys)
    (hnext : (b.eventAt event).nextHandler ≤ (b'.eventAt event).nextHandler) : b'.Entry event p :=
  ⟨Nat.lt_of_lt_of_le h.numbered hnext, fun k => by rw [hkeys]; exact h.folding k⟩

theorem Known.mono (h : b.Known o) (hlen : b.events.length ≤ b'.events.length)
    (hnext : ∀ i, (b.eventAt i).nextHandler ≤ (b'.eventAt i).nextHandler) : b'.Known o := by
  cases o with
  | fired i v => exact Nat.lt_of_lt_of_le h hlen
  | call i number v => exact Nat.lt_of_lt_of_le h (hnext i)
  | _ => trivial

/-! ## What extends a bus -/

theorem Extends.refl (b : Bus) : b.Extends b where
  keys := rfl
  length := Nat.le_refl _
  nextHandler _ := Nat.le_refl _
  entries _ _ hp := .inl hp
  known _ ho := .inl ho

theorem Extends.trans (h : b.Extends b') (h' : b'.Extends b'') : b.Extends b'' where
  keys := h'.keys.trans h.keys
  length := Nat.le_trans h.length h'.length
  nextHandler i := Nat.le_trans (h.nextHandler i) (h'.nextHandler i)
  entries i p hp := by
    obtain hp | hp := h'.entries i p hp
    · exact (h.entries i p hp).imp_right fun he => he.mono h'.keys (h'.nextHandler i)
    · exact .inr hp
  known o ho := by
    obtain ho | ho := h'.known o ho
    · exact (h.known o ho).imp_right fun hk => hk.mono h'.length h'.nextHandler
    · exact .inr ho

theorem extends_record (h : b.Known o) : b.Extends (b.record o) where
  keys := rfl
  length := Nat.le_refl _
  nextHandler _ := Nat.le_refl _
  entries _ _ hp := .inl hp
  known := List.forall_mem_cons.mpr ⟨.inr h, fun _ ho => .inl ho⟩

/-- An event either changes or stays as it is. -/
theorem eventAt_modifyEvent_or (b : Bus) (event i : Nat) (f : Event → Event) :
    (b.modifyEvent event f).eventAt i = b.eventAt i ∨
      event = i ∧ (b.modifyEvent event f).eventAt i = f (b.eventAt i) := by
  by_cases hi : event = i
  · by_cases hlen : event < b.events.length
    · rw [← hi]
      exact .inr ⟨rfl, b.eventAt_modifyEvent (.inl hlen)⟩
    · have hnone : b.events[i]? = none := List.getElem?_eq_none_iff.mpr (by omega)
      refine .inl ?_
      simp [eventAt, modifyEvent, List.getElem?_modify, hnone]
  · exact .inl (b.eventAt_modifyEvent_ne hi f)

/-- An event changes but gains no handlers. -/
theorem extends_modifyEvent (b : Bus) (event : Nat) {f : Event → Event}
    (hf : ∀ e, (f e).nextHandler = e.nextHandler ∧ (f e).handlers ⊆ e.handlers) :
    b.Extends (b.modifyEvent event f) where
  keys := rfl
  length := Nat.le_of_eq (List.length_modify ..).symm
  nextHandler i := by
    obtain heq | ⟨_, heq⟩ := b.eventAt_modifyEvent_or event i f
    · rw [heq]
    · rw [heq, (hf _).1]
  entries i p hp := by
    obtain heq | ⟨_, heq⟩ := b.eventAt_modifyEvent_or event i f
    · exact .inl (heq ▸ hp)
    · rw [heq] at hp
      exact .inl ((hf _).2 hp)
  known _ ho := .inl ho

theorem extends_change (b : Bus) (event : Nat) {f : Event → Event}
    (hf : ∀ e, (f e).nextHandler = e.nextHandler ∧ (f e).handlers ⊆ e.handlers)
    (ho : event < b.events.length → b.Known o) : b.Extends (b.change event o f) := by
  rw [change]
  split
  · next hlen =>
    have hmodified := b.extends_modifyEvent event hf
    exact hmodified.trans (extends_record ((ho hlen).mono hmodified.length hmodified.nextHandler))
  · exact .refl b

theorem extends_modifySignal (b : Bus) (signal : Nat) {f : Signal → Signal}
    (hf : ∀ s, (f s).source.event = s.source.event ∧ (f s).source.handler = s.source.handler) :
    b.Extends (b.modifySignal signal f) where
  keys := map_modify_eq (fun s => Prod.ext (hf s).1 (hf s).2) b.signals signal
  length := Nat.le_refl _
  nextHandler _ := Nat.le_refl _
  entries _ _ hp := .inl hp
  known _ ho := .inl ho

theorem extends_addEvent (b : Bus) : b.Extends b.addEvent.1 where
  keys := rfl
  length := by rw [length_addEvent]; exact Nat.le_succ _
  nextHandler i := by rw [eventAt_addEvent]
  entries i p hp := .inl (by rwa [eventAt_addEvent] at hp)
  known _ ho := .inl ho

/-! ## What keeps rounds in order -/

theorem Stacked.extend (h : b.Stacked ds) (hx : b.Extends b')
    (hturns : ∀ d ∈ ds', d ∈ ds ∨
      (d.rest.map Prod.fst).Nodup ∧ ∀ p ∈ d.rest, b.Entry d.event p)
    (hdistinct : (ds'.map Frame.event).Nodup)
    (hdispatching : ∀ i, (b'.eventAt i).dispatching = true ↔ i ∈ ds'.map Frame.event) :
    b'.Stacked ds' where
  entries i p hp := by
    obtain hp | hp := hx.entries i p hp
    · exact (h.entries i p hp).mono hx.keys (hx.nextHandler i)
    · exact hp
  turns d hd := by
    have hd : (d.rest.map Prod.fst).Nodup ∧ ∀ p ∈ d.rest, b.Entry d.event p := by
      obtain hd | hd := hturns d hd
      · exact h.turns d hd
      · exact hd
    exact ⟨hd.1, fun p hp => (hd.2 p hp).mono hx.keys (hx.nextHandler d.event)⟩
  distinct := hdistinct
  dispatching := hdispatching
  known o ho := by
    obtain ho | ho := hx.known o ho
    · exact (h.known o ho).mono hx.length hx.nextHandler
    · exact ho

/-- The same rounds stay under way. -/
theorem Stacked.steady (h : b.Stacked ds) (hx : b.Extends b')
    (hdispatching : ∀ i, (b'.eventAt i).dispatching = (b.eventAt i).dispatching) :
    b'.Stacked ds :=
  h.extend hx (fun _ hd => .inl hd) h.distinct fun i => by rw [hdispatching]; exact h.dispatching i

theorem extends_disposeOf (b : Bus) (d : Disposable) : b.Extends (b.disposeOf d) := by
  have hremoved : ∀ s, b.Extends (b.removeHandler s) := fun s => by
    rw [removeHandler]
    split
    · exact b.extends_change _ (fun _ => ⟨rfl, List.filter_subset_self _⟩) fun _ => trivial
    · exact .refl b
  have hdisposed : ∀ (b : Bus) event, b.Extends (b.disposeEventAt event) := fun b event =>
    b.extends_change _ (fun _ => ⟨rfl, List.nil_subset _⟩) fun _ => trivial
  cases d with
  | subscription s => exact hremoved s
  | event event => exact hdisposed b event
  | signal signal =>
    rw [disposeOf, disposeSignalAt]
    split
    · exact .refl b
    · next s _ =>
      refine ((hremoved s.source).trans (extends_modifySignal _ _ ?_)).trans (hdisposed _ _)
      exact fun _ => ⟨rfl, rfl⟩

theorem dispatching_disposeOf (b : Bus) (d : Disposable) (i : Nat) :
    ((b.disposeOf d).eventAt i).dispatching = (b.eventAt i).dispatching := by
  obtain ⟨_, halters⟩ := disposeOf_alters .disposeBag b d
  exact halters.dispatching_eq i

/-! ## New handlers and signals -/

/-- No signal follows an event by a handler that is still to be subscribed. -/
theorem Tracked.key_ne (h : b.Tracked) (hd : (b.eventAt event).disposed = false) (k : Nat) :
    b.keys[k]? ≠ some (event, (b.eventAt event).nextHandler) := by
  intro hkey
  rw [keys, List.getElem?_map] at hkey
  obtain ⟨s, hs, hkey⟩ := Option.map_eq_some_iff.mp hkey
  obtain ⟨hevent, hnumber⟩ := Prod.ext_iff.mp hkey
  have hsource : s.source ∈ b.handles := List.mem_append_right _
    (List.mem_append_right _ (List.mem_map_of_mem (List.mem_of_getElem? hs)))
  have hfits := h.keeps.fits _ hsource
  dsimp only at hevent hnumber
  rw [hevent] at hfits
  cases hfits.numbered with
  | inl hlt => exact Nat.ne_of_lt hlt hnumber
  | inr hinactive => exact Bool.false_ne_true (hd.symm.trans hinactive.2)

theorem extends_listening (h : b.Tracked) (hlen : event < b.events.length) (name : String)
    (body : Int → Body) : b.Extends (b.addHandler event (.listener name body)).1 := by
  cases addHandler_cases hlen (.listener name body) with
  | inl hcase =>
    rw [hcase.2]
    exact .refl b
  | inr hcase =>
    obtain ⟨hd, heq⟩ := hcase
    rw [heq]
    have hkeys : (b.change event (.subscribed event (b.eventAt event).nextHandler (some name))
        (·.subscribe (.listener name body))).keys = b.keys := by rw [keys, signals_change]; rfl
    refine ⟨hkeys, Nat.le_of_eq (b.sameBus_change ..).length.symm, fun i => ?_, fun i p hp => ?_,
      ?_⟩
    · by_cases hi : event = i
      · rw [← hi, eventAt_change hlen]
        exact Nat.le_succ _
      · rw [eventAt_change_ne b hi]
    · by_cases hi : event = i
      · rw [← hi, eventAt_change hlen] at hp
        refine (List.mem_append.mp hp).imp (fun hp => hi ▸ hp) fun hp => ?_
        cases List.mem_singleton.mp hp
        refine ⟨?_, fun k => iff_of_false nofun ?_⟩
        · rw [← hi, eventAt_change hlen]
          exact Nat.lt_succ_self _
        · rw [← hi, keys, signals_change]
          exact h.key_ne hd k
      · rw [eventAt_change_ne b hi] at hp
        exact .inl hp
    · rw [past_change hlen]
      exact List.forall_mem_cons.mpr ⟨.inr trivial, fun _ ho => .inl ho⟩

/-- A signal that is to follow an event by its next handler has no part in the others. -/
theorem Entry.append_key (h : b.Entry i p)
    (hkeys : b'.keys = b.keys ++ [(event, (b.eventAt event).nextHandler)])
    (hnext : (b.eventAt i).nextHandler ≤ (b'.eventAt i).nextHandler) : b'.Entry i p := by
  refine ⟨Nat.lt_of_lt_of_le h.numbered hnext, fun k => (h.folding k).trans ?_⟩
  rw [hkeys]
  by_cases hk : k < b.keys.length
  · rw [List.getElem?_append_left hk]
  · have hle := Nat.le_of_not_lt hk
    rw [List.getElem?_append_right hle, List.getElem?_eq_none_iff.mpr hle]
    refine iff_of_false nofun fun heq => ?_
    obtain ⟨rfl, hnumber⟩ := Prod.ext_iff.mp (List.mem_singleton.mp (List.mem_of_getElem? heq))
    exact Nat.ne_of_lt h.numbered hnumber

/-- A signal is made, and its handler is subscribed unless its source has been disposed. -/
theorem Stacked.append_key (h : b.Stacked ds)
    (hkeys : b'.keys = b.keys ++ [(event, (b.eventAt event).nextHandler)])
    (hlen : b.events.length ≤ b'.events.length)
    (hnext : ∀ i, (b.eventAt i).nextHandler ≤ (b'.eventAt i).nextHandler)
    (hentries : ∀ i, ∀ p ∈ (b'.eventAt i).handlers, p ∈ (b.eventAt i).handlers ∨ b'.Entry i p)
    (hdispatching : ∀ i, (b'.eventAt i).dispatching = (b.eventAt i).dispatching)
    (hknown : ∀ o ∈ b'.past, o ∈ b.past ∨ b'.Known o) : b'.Stacked ds where
  entries i p hp := by
    obtain hp | hp := hentries i p hp
    · exact (h.entries i p hp).append_key hkeys (hnext i)
    · exact hp
  turns d hd := ⟨(h.turns d hd).1, fun p hp =>
    ((h.turns d hd).2 p hp).append_key hkeys (hnext d.event)⟩
  distinct := h.distinct
  dispatching i := by rw [hdispatching]; exact h.dispatching i
  known o ho := by
    obtain ho | ho := hknown o ho
    · exact (h.known o ho).mono hlen hnext
    · exact ho

theorem Stacked.following (h : b.Stacked ds) (ht : b.Tracked) (hlen : event < b.events.length)
    (fold : Fold) (initial : Int) : (b.withSignal event fold initial).Stacked ds := by
  have hkeys : (b.withSignal event fold initial).keys =
      b.keys ++ [(event, (b.eventAt event).nextHandler)] := by
    rw [keys, signals_withSignal hlen, List.map_append]
    rfl
  have hgrown := b.length_withSignal event fold initial
  have hcases := withSignal_cases hlen fold initial
  generalize b.withSignal event fold initial = b' at hkeys hgrown hcases ⊢
  have hle : b.events.length ≤ b'.events.length := by omega
  cases hcases with
  | inl hcase =>
    obtain ⟨_, hpast, hat⟩ := hcase
    exact h.append_key hkeys hle (fun i => by rw [hat]) (fun i p hp => .inl (hat i ▸ hp))
      (fun i => by rw [hat]) fun o ho => .inl (hpast ▸ ho)
  | inr hcase =>
    obtain ⟨hd, hpast, hself, hother⟩ := hcase
    have hnew : b'.Entry event ((b.eventAt event).nextHandler, .folding b.signals.length) := by
      refine ⟨by rw [hself]; exact Nat.lt_succ_self _, fun k => ?_⟩
      have hkeyslen : b.keys.length = b.signals.length := List.length_map ..
      rw [hkeys, Handler.folding.injEq, ← hkeyslen]
      constructor
      · rintro rfl
        exact List.getElem?_concat_length
      · intro hk
        rw [List.getElem?_append] at hk
        split at hk
        · exact absurd hk (ht.key_ne hd k)
        · have hlt := (List.getElem?_eq_some_iff.mp hk).1
          rw [List.length_singleton] at hlt
          omega
    refine h.append_key hkeys hle (fun i => ?_) (fun i p hp => ?_) (fun i => ?_) fun o ho => ?_
    · by_cases hi : event = i
      · rw [← hi, hself]
        exact Nat.le_succ _
      · rw [hother i hi]
    · by_cases hi : event = i
      · rw [← hi, hself] at hp
        refine (List.mem_append.mp hp).imp (fun hp => hi ▸ hp) fun hp => ?_
        cases List.mem_singleton.mp hp
        exact hi ▸ hnew
      · rw [hother i hi] at hp
        exact .inl hp
    · by_cases hi : event = i
      · rw [← hi, hself]
        rfl
      · rw [hother i hi]
    · rw [hpast] at ho
      cases ho with
      | head => exact .inr trivial
      | tail _ ho => exact .inl ho

/-- No edit disturbs the rounds that are under way. -/
theorem Stacked.edits (h : b.Stacked ds) (hedit : Edits b b') : b'.Stacked ds := by
  have hdisposed : ∀ d, (b.disposeOf d).Stacked ds := fun d =>
    h.steady (b.extends_disposeOf d) (b.dispatching_disposeOf d)
  cases hedit with
  | renamed he hs hp =>
    have hat := eventAt_congr he
    refine h.steady ⟨by rw [keys, hs]; rfl, by rw [he], fun i => by rw [hat], fun i p hp => ?_,
      fun o ho => .inl (hp ▸ ho)⟩ fun i => by rw [hat]
    exact .inl (hat i ▸ hp)
  | read => exact h.steady (extends_record trivial) fun _ => rfl
  | reset =>
    refine h.steady ((extends_modifySignal b _ ?_).trans (extends_record trivial)) fun _ => rfl
    exact fun _ => ⟨rfl, rfl⟩
  | created => exact h.steady b.extends_addEvent fun i => by rw [eventAt_addEvent]
  | @listening event name body _ ht hlen =>
    refine h.steady (extends_listening ht hlen _ _) fun i => ?_
    have hadds : (Action.listen "" name body).Adds b.routines (.listener name body) := rfl
    obtain ⟨_, halters⟩ := addHandler_alters hadds event
    exact halters.dispatching_eq i
  | following _ ht hevent => exact h.following ht hevent.1 _ _
  | @removed s => exact hdisposed (.subscription s)
  | @disposed event _ => exact hdisposed (.event event)
  | @silenced signal _ => exact hdisposed (.signal signal)

/-! ## Moves -/

variable {value : Int} {rest : List (Nat × Handler)}

theorem Stacked.notMem (h : b.Stacked (⟨event, value, rest⟩ :: ds)) :
    event ∉ ds.map Frame.event :=
  (List.nodup_cons.mp h.distinct).1

/-- A turn is taken or passed over. -/
theorem Stacked.turn (h : b.Stacked (⟨event, value, p :: rest⟩ :: ds)) :
    b.Stacked (⟨event, value, rest⟩ :: ds) := by
  have hturns := h.turns _ List.mem_cons_self
  refine h.extend (.refl b) (List.forall_mem_cons.mpr ⟨.inr ⟨?_, ?_⟩, fun d hd => .inl ?_⟩)
    h.distinct h.dispatching
  · exact (List.nodup_cons.mp hturns.1).2
  · exact fun p hp => hturns.2 p (List.mem_cons_of_mem _ hp)
  · exact List.mem_cons_of_mem _ hd

theorem Stacked.call {number : Nat} {handler : Handler}
    (h : b.Stacked (⟨event, value, (number, handler) :: rest⟩ :: ds)) :
    (b.record (.call event number value)).Stacked (⟨event, value, rest⟩ :: ds) := by
  have hentry := (h.turns _ List.mem_cons_self).2 _ List.mem_cons_self
  exact h.turn.steady (extends_record hentry.numbered) fun _ => rfl

theorem Recorded.numbers_handlers (hr : b.Recorded) (event : Nat) :
    (b.eventAt event).handlers.map Prod.fst = (subscribers event b.past).map Prod.fst := by
  rw [← (hr event).handlers, Event.roster, List.map_map]
  rfl

/-- A round begins with the handlers that there are. -/
theorem Stacked.roster (h : b.Stacked ds) (hr : b.Recorded) (i : Nat) :
    ((b.eventAt i).handlers.map Prod.fst).Nodup ∧
      ∀ p ∈ (b.eventAt i).handlers, b.Entry i p := by
  refine ⟨?_, h.entries i⟩
  rw [hr.numbers_handlers]
  exact hr.nodup i

theorem Stacked.begin (h : b.Stacked ds) (hr : b.Recorded) (hlen : event < b.events.length)
    (hi : (b.eventAt event).dispatching = false) (value : Int) :
    ((b.change event (.fired event value) Event.begin).record (.round event value)).Stacked
      (⟨event, value, (b.eventAt event).handlers⟩ :: ds) := by
  have hx : b.Extends (b.change event (.fired event value) Event.begin) :=
    b.extends_change event (fun e => ⟨rfl, List.Subset.refl _⟩) fun _ => hlen
  have hnotMem : event ∉ ds.map Frame.event := fun hmem =>
    Bool.false_ne_true (hi.symm.trans ((h.dispatching event).mpr hmem))
  refine h.extend (hx.trans (extends_record trivial))
    (List.forall_mem_cons.mpr ⟨.inr (h.roster hr event), fun d hd => .inl hd⟩)
    (List.nodup_cons.mpr ⟨hnotMem, h.distinct⟩) fun i => ?_
  have hat : ((b.change event (.fired event value) Event.begin).record
      (.round event value)).eventAt i =
        (b.change event (.fired event value) Event.begin).eventAt i := rfl
  rw [hat, List.map_cons, List.mem_cons]
  by_cases heq : event = i
  · rw [← heq, eventAt_change hlen]
    exact iff_of_true rfl (.inl rfl)
  · rw [eventAt_change_ne b heq, h.dispatching i]
    exact (or_iff_right (Ne.symm heq)).symm

theorem Stacked.settle (h : b.Stacked (⟨event, value, []⟩ :: ds)) :
    (b.settle event).Stacked ds := by
  have hx : b.Extends (b.settle event) :=
    (b.extends_modifyEvent event (f := Event.settle) fun _ => ⟨rfl, List.Subset.refl _⟩).trans
      (extends_record trivial)
  refine h.extend hx (fun d hd => .inl (List.mem_cons_of_mem _ hd))
    (List.nodup_cons.mp h.distinct).2 fun i => ?_
  by_cases heq : event = i
  · rw [← heq, eventAt_settle]
    exact iff_of_false Bool.false_ne_true h.notMem
  · rw [eventAt_settle_ne b heq, h.dispatching i, List.map_cons, List.mem_cons]
    exact or_iff_right (Ne.symm heq)

/-- The next value comes to its round. -/
theorem Stacked.next {value' : Int} (h : b.Stacked (⟨event, value, []⟩ :: ds)) (hr : b.Recorded)
    (hn : b.takeNext? event = some (value', b')) :
    (b'.record (.round event value')).Stacked
      (⟨event, value', (b'.eventAt event).handlers⟩ :: ds) := by
  have hsame : ∀ i, (b'.eventAt i).dispatching = (b.eventAt i).dispatching := by
    obtain ⟨waiting, _, _, hself, hother⟩ := takeNext?_eq_some hn
    intro i
    by_cases heq : event = i
    · rw [← heq, hself]
    · rw [hother i heq]
  have hr' := hr.takeNext hn
  have htaken : b'.Stacked (⟨event, value, []⟩ :: ds) := by
    rw [takeNext?] at hn
    split at hn
    · cases hn
    · cases hn
      exact h.steady (b.extends_modifyEvent event fun _ => ⟨rfl, List.Subset.refl _⟩) hsame
  refine htaken.extend (extends_record trivial)
    (List.forall_mem_cons.mpr ⟨.inr (htaken.roster hr' event), fun d hd => .inl ?_⟩)
    htaken.distinct htaken.dispatching
  exact List.mem_cons_of_mem _ hd

end ProofPanel.Bus
