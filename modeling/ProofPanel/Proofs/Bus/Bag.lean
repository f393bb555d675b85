import ProofPanel.Bus.Dispatch

/-!
# The bag

To put things into the bag and dispose of it is to dispose of the bag as it was and then of each of
the things by itself, in the order that they were put in. All that is different afterwards are names
of subscriptions that are no longer active: a subscription in the bag has lost its name.
-/
namespace ProofPanel

/-! ## Names -/

namespace Names

variable {α : Type} {name name' : String} {a : α}

theorem get?_set_self (names : Names α) (name : String) (a : α) :
    (names.set name a).get? name = some a := by
  simp [get?, set]

theorem get?_erase_self (names : Names α) (name : String) :
    (names.erase name).get? name = none := by
  simp [get?, erase]

theorem get?_erase_ne (names : Names α) (h : name' ≠ name) :
    (names.erase name).get? name' = names.get? name' := by
  rw [get?, get?, erase, List.find?_filter]
  congr 2
  funext p
  by_cases hp : p.1 = name'
  · simp [hp, h]
  · simp [hp]

theorem get?_set_ne (names : Names α) (h : name' ≠ name) :
    (names.set name a).get? name' = names.get? name' := by
  rw [← names.get?_erase_ne h, get?, get?, set, List.find?_cons_of_neg]
  simpa using Ne.symm h

theorem set_set (names : Names α) (name : String) (a a' : α) :
    (names.set name a).set name a' = names.set name a' := by
  simp [set, erase, List.filter_filter]

/-- What goes by a name, and what is there besides. -/
theorem mem_of_get? {names : Names α} (h : names.get? name = some a) : (name, a) ∈ names := by
  obtain ⟨p, hp, rfl⟩ := Option.map_eq_some_iff.mp h
  have hname := List.find?_some hp
  rw [beq_iff_eq] at hname
  rw [← hname]
  exact List.mem_of_find?_eq_some hp

end Names

/-- Something that goes by a name and can be put into the bag. -/
inductive Item
  | subscription (name : String)
  | event (name : String)
  | signal (name : String)

namespace Item

def keep : Item → Action
  | subscription name => .bagSubscription name
  | event name => .bagEvent name
  | signal name => .bagSignal name

def dispose : Item → Action
  | subscription name => .unsubscribe name
  | event name => .disposeEvent name
  | signal name => .disposeSignal name

end Item

namespace Bus

variable {b b' b'' : Bus}

/-! ## What disposing leaves alone -/

def withNames (b c : Bus) : Bus :=
  { b with
    eventNames := c.eventNames
    signalNames := c.signalNames
    subscriptions := c.subscriptions
    bag := c.bag }

theorem withNames_change (b c : Bus) (event : Nat) (o : Occurrence) (f : Event → Event) :
    (b.withNames c).change event o f = (b.change event o f).withNames c := by
  have hevents : (b.withNames c).events = b.events := rfl
  rw [change, change, hevents]
  split <;> rfl

theorem withNames_removeHandler (b c : Bus) (s : Subscription) :
    (b.withNames c).removeHandler s = (b.removeHandler s).withNames c := by
  rw [removeHandler, removeHandler]
  split
  · exact b.withNames_change c _ _ _
  · rfl

theorem withNames_disposeSignalAt (b c : Bus) (signal : Nat) :
    (b.withNames c).disposeSignalAt signal = (b.disposeSignalAt signal).withNames c := by
  have hsignals : (b.withNames c).signals = b.signals := rfl
  rw [disposeSignalAt, disposeSignalAt, hsignals]
  cases b.signals[signal]? with
  | none => rfl
  | some s =>
    simp only [withNames_removeHandler]
    exact withNames_change ((b.removeHandler s.source).modifySignal signal _) c _ _ _

/-- Disposing neither reads nor changes names or the bag. -/
theorem withNames_disposeOf (b c : Bus) (d : Disposable) :
    (b.withNames c).disposeOf d = (b.disposeOf d).withNames c := by
  cases d with
  | subscription s => exact b.withNames_removeHandler c s
  | event event => exact b.withNames_change c _ _ _
  | signal signal => exact b.withNames_disposeSignalAt c signal

theorem withNames_foldl_disposeOf (ds : List Disposable) (b c : Bus) :
    ds.foldl disposeOf (b.withNames c) = (ds.foldl disposeOf b).withNames c := by
  induction ds generalizing b with
  | nil => rfl
  | cons d ds ih => rw [List.foldl_cons, List.foldl_cons, withNames_disposeOf, ih]

theorem disposeOf_eq (b : Bus) (d : Disposable) : b.disposeOf d = (b.disposeOf d).withNames b :=
  b.withNames_disposeOf b d

theorem foldl_disposeOf_eq (ds : List Disposable) (b : Bus) :
    ds.foldl disposeOf b = (ds.foldl disposeOf b).withNames b :=
  withNames_foldl_disposeOf ds b b

theorem disposeOf_subscriptions (b : Bus) (d : Disposable) :
    (b.disposeOf d).subscriptions = b.subscriptions :=
  congrArg (·.subscriptions) (b.disposeOf_eq d)

theorem removeHandler_subscriptions (b : Bus) (s : Subscription) :
    (b.removeHandler s).subscriptions = b.subscriptions :=
  b.disposeOf_subscriptions (.subscription s)

/-! ## Names of subscriptions that are no longer active -/

def activeAt? (b : Bus) (name : String) : Option Subscription :=
  (b.subscriptions.get? name).filter (·.active)

/-- Buses that differ only in the names of subscriptions that are no longer active. -/
structure Alike (b b' : Bus) : Prop where
  bus : b' = { b with subscriptions := b'.subscriptions }
  active : ∀ name, b'.activeAt? name = b.activeAt? name

theorem Alike.refl (b : Bus) : b.Alike b := ⟨rfl, fun _ => rfl⟩

theorem Alike.trans (h : b.Alike b') (h' : b'.Alike b'') : b.Alike b'' := by
  refine ⟨?_, fun name => (h'.active name).trans (h.active name)⟩
  rw [h'.bus, h.bus]

theorem Alike.disposeOf (h : b.Alike b') (d : Disposable) :
    (b.disposeOf d).Alike (b'.disposeOf d) := by
  obtain ⟨hbus, hactive⟩ := h
  have hsame : b'.disposeOf d = { b.disposeOf d with subscriptions := b'.subscriptions } := calc
    b'.disposeOf d = Bus.disposeOf { b with subscriptions := b'.subscriptions } d :=
      congrArg (Bus.disposeOf · d) hbus
    _ = { (b.disposeOf d).withNames b with subscriptions := b'.subscriptions } :=
      b.withNames_disposeOf { b with subscriptions := b'.subscriptions } d
    _ = { b.disposeOf d with subscriptions := b'.subscriptions } := by rw [← disposeOf_eq]
  refine ⟨?_, fun name => ?_⟩
  · rw [hsame]
  · rw [hsame, b.disposeOf_eq d]
    exact hactive name

/-- Once a subscription has been disposed of, nothing active goes by its name. -/
theorem manage_unsubscribe (b : Bus) (name : String) :
    b.manage (.unsubscribe name) =
        { (b.activeAt? name).elim b b.removeHandler with
          subscriptions := (b.manage (.unsubscribe name)).subscriptions } ∧
      ∀ name', (b.manage (.unsubscribe name)).activeAt? name' =
        if name' = name then none else b.activeAt? name' := by
  cases h : b.subscriptions.get? name with
  | none =>
    have hb : b.manage (.unsubscribe name) = b := by simp only [manage, h]
    have hnone : b.activeAt? name = none := by rw [activeAt?, h]; rfl
    rw [hb, hnone]
    refine ⟨rfl, fun name' => ?_⟩
    split
    · next heq => rw [heq, hnone]
    · rfl
  | some s =>
    have hb : b.manage (.unsubscribe name) =
        { b.removeHandler s with
          subscriptions := b.subscriptions.set name { s with active := false } } := by
      simp only [manage, h, removeHandler_subscriptions]
    have hremoved : (b.activeAt? name).elim b b.removeHandler = b.removeHandler s := by
      rw [activeAt?, h]
      cases hs : s.active with
      | false => rw [Option.filter_some_neg (by simp [hs]), removeHandler, hs]; rfl
      | true => rw [Option.filter_some_pos hs]; rfl
    rw [hb, hremoved]
    refine ⟨rfl, fun name' => ?_⟩
    rw [activeAt?]
    split
    · next heq => rw [heq, Names.get?_set_self]; rfl
    · next hne => rw [Names.get?_set_ne _ hne]; rfl

/-- Disposing of a subscription again changes nothing. -/
theorem manage_unsubscribe_twice (b : Bus) (name : String) :
    (b.manage (.unsubscribe name)).manage (.unsubscribe name) = b.manage (.unsubscribe name) := by
  cases h : b.subscriptions.get? name with
  | none => simp only [manage, h]
  | some s =>
    have hnames := b.removeHandler_subscriptions s
    simp only [manage, h, Names.get?_set_self, removeHandler, Bool.false_eq_true, if_false,
      Names.set_set]

theorem Alike.dispose (h : b.Alike b') (item : Item) :
    (b.manage item.dispose).Alike (b'.manage item.dispose) := by
  have hevents : b'.eventNames = b.eventNames := by rw [h.bus]
  have hsignals : b'.signalNames = b.signalNames := by rw [h.bus]
  cases item with
  | subscription name =>
    obtain ⟨hb, hactive⟩ := b.manage_unsubscribe name
    obtain ⟨hb', hactive'⟩ := b'.manage_unsubscribe name
    have hremoved : ((b.activeAt? name).elim b b.removeHandler).Alike
        ((b.activeAt? name).elim b' b'.removeHandler) := by
      cases b.activeAt? name with
      | none => exact h
      | some s => exact h.disposeOf (.subscription s)
    refine ⟨?_, fun name' => ?_⟩
    · rw [Item.dispose, hb', hb, h.active name, hremoved.bus]
    · rw [Item.dispose, hactive, hactive', h.active name']
  | event name =>
    rw [Item.dispose, manage, manage, hevents]
    cases b.eventNames.get? name with
    | none => exact h
    | some event => exact h.disposeOf (.event event)
  | signal name =>
    rw [Item.dispose, manage, manage, hsignals]
    cases b.signalNames.get? name with
    | none => exact h
    | some signal => exact h.disposeOf (.signal signal)

theorem disposeBag_eq (b : Bus) :
    b.manage .disposeBag = (b.manage .disposeBag).withNames { b with bag := [] } := by
  rw [manage, foldl_disposeOf_eq]
  rfl

theorem disposeBag_append (b : Bus) (d : Disposable) (subscriptions : Names Subscription) :
    Bus.manage { b with bag := b.bag ++ [d], subscriptions } .disposeBag =
      { (b.manage .disposeBag).disposeOf d with subscriptions } := by
  have hkept : (b.bag ++ [d]).foldl disposeOf { b with bag := b.bag ++ [d], subscriptions } =
      ((b.bag.foldl disposeOf b).disposeOf d).withNames
        { b with bag := b.bag ++ [d], subscriptions } := by
    have hfoldl : (b.bag ++ [d]).foldl disposeOf b = (b.bag.foldl disposeOf b).disposeOf d := by
      rw [List.foldl_append]
      rfl
    rw [← hfoldl]
    exact withNames_foldl_disposeOf _ b { b with bag := b.bag ++ [d], subscriptions }
  have hdisposed : (b.manage .disposeBag).disposeOf d =
      ((b.bag.foldl disposeOf b).disposeOf d).withNames { b with bag := [] } := by
    rw [disposeBag_eq]
    exact withNames_disposeOf (b.bag.foldl disposeOf b) _ d
  rw [hdisposed, manage, hkept]
  rfl

/-- To put one thing into the bag and dispose of it is to dispose of the bag and of the thing. -/
theorem alike_keep (b : Bus) (item : Item) :
    ((b.manage .disposeBag).manage item.dispose).Alike
      ((b.manage item.keep).manage .disposeBag) := by
  have hevents : (b.manage .disposeBag).eventNames = b.eventNames := by rw [disposeBag_eq]; rfl
  have hsignals : (b.manage .disposeBag).signalNames = b.signalNames := by rw [disposeBag_eq]; rfl
  have hsubscriptions : (b.manage .disposeBag).subscriptions = b.subscriptions := by
    rw [disposeBag_eq]
    rfl
  have happend := b.disposeBag_append
  -- An event or a signal keeps its name.
  have hnamed : ∀ d, ((b.manage .disposeBag).disposeOf d).Alike
      (Bus.manage { b with bag := b.bag ++ [d] } .disposeBag) := by
    intro d
    rw [happend d b.subscriptions]
    refine ⟨rfl, fun name => ?_⟩
    rw [activeAt?, activeAt?, disposeOf_subscriptions, hsubscriptions]
  generalize hc : b.manage .disposeBag = c at hevents hsignals hsubscriptions happend hnamed ⊢
  cases item with
  | subscription name =>
    rw [Item.dispose, Item.keep, manage]
    cases h : b.subscriptions.get? name with
    | none =>
      rw [manage, hsubscriptions, h]
      exact hc ▸ .refl c
    | some s =>
      rw [manage, hsubscriptions, h]
      dsimp only
      rw [happend, removeHandler_subscriptions, hsubscriptions]
      refine ⟨rfl, fun name' => ?_⟩
      rw [activeAt?, activeAt?]
      by_cases heq : name' = name
      · rw [heq, Names.get?_set_self, Names.get?_erase_self]
        rfl
      · rw [Names.get?_set_ne _ heq, Names.get?_erase_ne _ heq]
  | event name =>
    rw [Item.dispose, Item.keep, manage]
    cases h : b.eventNames.get? name with
    | none =>
      rw [manage, hevents, h]
      exact hc ▸ .refl c
    | some event =>
      rw [manage, hevents, h]
      exact hnamed (.event event)
  | signal name =>
    rw [Item.dispose, Item.keep, manage]
    cases h : b.signalNames.get? name with
    | none =>
      rw [manage, hsignals, h]
      exact hc ▸ .refl c
    | some signal =>
      rw [manage, hsignals, h]
      exact hnamed (.signal signal)

/-- Things that are put into the bag are disposed of with it as they would be by themselves. -/
theorem alike_keeps (items : List Item) (b : Bus) :
    ((items.map Item.dispose).foldl manage (b.manage .disposeBag)).Alike
      (((items.map Item.keep).foldl manage b).manage .disposeBag) := by
  have hdispose : ∀ (items : List Item) {b b' : Bus}, b.Alike b' →
      ((items.map Item.dispose).foldl manage b).Alike
        ((items.map Item.dispose).foldl manage b') := by
    intro items
    induction items with
    | nil => exact id
    | cons item items ih => exact fun h => ih (h.dispose item)
  induction items generalizing b with
  | nil => exact .refl _
  | cons item items ih => exact (hdispose items (b.alike_keep item)).trans (ih _)

end Bus

end ProofPanel
