import ProofPanel.Dispatcher
import ProofPanel.Proofs.Engine.Run
import ProofPanel.Proofs.Session.Run

/-!
# The configuration on both sides

Session and panel each keep a configuration and hear of the same patches, the engine at once and
the panel by message. As long as every patch goes through the session the two agree, and a page is
drawn with the configuration that the panel has been told of.
-/
namespace ProofPanel

/-! ## The last value of each setting -/

def lastSet {α : Type} (default : α) (values : List (Option α)) : α :=
  (values.filterMap id).getLast?.getD default

theorem lastSet_snoc {α : Type} (default : α) (values : List (Option α)) (value : Option α) :
    lastSet default (values ++ [value]) = value.getD (lastSet default values) := by
  cases value <;> simp [lastSet]

/-- The configuration in which every setting has the last value that a patch gives it. -/
def Config.settled (patches : List Patch) : Config where
  fontFamily := lastSet ({} : Config).fontFamily (patches.map (·.fontFamily))
  fontSize := lastSet ({} : Config).fontSize (patches.map (·.fontSize))
  customStyle := lastSet ({} : Config).customStyle (patches.map (·.customStyle))
  allErrorsOnLine := lastSet ({} : Config).allErrorsOnLine (patches.map (·.allErrorsOnLine))

theorem Config.settled_snoc (patches : List Patch) (p : Patch) :
    settled (patches ++ [p]) = (settled patches).merge p := by
  simp only [settled, merge, List.map_append, List.map_singleton, lastSet_snoc]

theorem Config.merge_empty (c : Config) : c.merge {} = c := rfl

/-! ## What the engine tells the panel -/

def Silent (effects : List Effect) : Prop := ∀ p, .post (.configChanged p) ∉ effects

theorem Silent.append {effects more : List Effect} (h : Silent effects) (hm : Silent more) :
    Silent (effects ++ more) := fun p hp => (List.mem_append.1 hp).elim (h p) (hm p)

theorem silent_nil : Silent [] := fun _ => List.not_mem_nil

namespace Engine

variable (e : Engine)

theorem redraw_silent : Silent e.redraw := by
  intro p
  unfold redraw
  split <;> simp

theorem post_silent {m : HostMessage} (h : ∀ p, m ≠ .configChanged p) : Silent (e.post m) := by
  intro p
  unfold post
  split
  · simpa using (h p).symm
  · simp

theorem cancelPending_silent : Silent e.cancelPending.2 := by
  intro p
  rw [cancelPending_snd]
  cases e.pending <;> simp

theorem told_silent (reasons : Reasons) : Silent (e.told reasons) := by
  unfold told
  split
  · exact e.redraw_silent
  · split
    · exact silent_nil
    · exact e.post_silent nofun

theorem fetchGoal_silent (reasons : Reasons) : Silent (e.fetchGoal reasons).effects := by
  cases hl : e.location? with
  | none => rw [e.fetchGoal_none hl]; exact silent_nil
  | some l =>
    rw [e.fetchGoal_some hl]
    exact e.cancelPending_silent.append (by simp [Silent])

theorem decide_silent (reasons : Reasons) : Silent (e.decide reasons).effects := by
  cases hm : e.view.mode with
  | allMessages =>
    rw [e.decide_allMessages hm]
    exact e.cancelPending_silent.append (e.told_silent reasons)
  | onlyState =>
    cases hl : e.location? with
    | none =>
      rw [e.decide_onlyState_nowhere hm hl]
      split
      · exact e.redraw_silent
      · exact silent_nil
    | some l =>
      rw [e.decide_onlyState hm (by rw [hl]; rfl)]
      exact e.fetchGoal_silent reasons

variable {e}

theorem Does.silent {cursor : Option Cursor} {t : Trigger} {turn : Turn}
    (h : Does e cursor t turn) : Silent turn.effects := by
  cases h with
  | update _ reasons _ =>
    rcases e.updatePosition_cases cursor reasons with ⟨hu, _⟩ | ⟨_, _, hu⟩
    · rw [hu]; exact silent_nil
    · rw [hu]; exact decide_silent _ _
  | report ds =>
    rcases e.receiveDiagnostics_cases ds with ⟨hr, _⟩ | ⟨l, _, _, _, hr⟩
    · rw [hr]; exact silent_nil
    · rw [hr]; exact decide_silent _ _
  | status =>
    rcases e.statusChanged_cases with hf | ⟨l, _, hf⟩
    · rw [hf]; exact silent_nil
    · rw [hf]; exact e.fetchGoal_silent _
  | answer ticket answer =>
    rcases e.receiveAnswer_cases ticket answer with
      ⟨_, ha⟩ | ⟨fetch, _, _, ⟨_, ha⟩ | ⟨_, ⟨_, _, ha⟩ | ⟨record, _, ha⟩⟩⟩
    · rw [ha]; exact silent_nil
    · rw [ha]; exact silent_nil
    · rw [ha]; exact silent_nil
    · rw [ha, answerEffects]
      split
      · exact redraw_silent _
      · split
        · exact e.post_silent nofun
        · exact silent_nil
  | configure p =>
    intro p' hp'
    rcases List.mem_cons.1 hp' with heq | hp'
    · cases heq
    · exact redraw_silent _ p' hp'
  | pause _ _ =>
    rw [pause_eq]
    exact e.cancelPending_silent.append (e.post_silent nofun)
  | switch _ mode _ =>
    rcases e.setMode_cases cursor mode with ⟨_, _, hm⟩ | ⟨_, hm⟩
    · rw [hm]; exact silent_nil
    · rw [hm]
      refine Silent.append ?_ (decide_silent _ _)
      split
      · exact silent_nil
      · exact e.cancelPending_silent
  | aside _ effects _ haside => exact fun p hp => absurd (haside _ hp) (by simp [Effect.isAside])
  | dispose => exact e.cancelPending_silent

end Engine

/-! ## What the panel hears -/

def SessionEffect.told? : SessionEffect → Option HostMessage
  | .panel m => some m
  | _ => none

def toldIn (effects : List SessionEffect) : List HostMessage :=
  effects.filterMap SessionEffect.told?

@[simp] theorem toldIn_append (effects more : List SessionEffect) :
    toldIn (effects ++ more) = toldIn effects ++ toldIn more := List.filterMap_append

namespace Dispatcher

def hearAll (d : Dispatcher) (messages : List HostMessage) : Dispatcher :=
  messages.foldl (fun d m => (d.dispatch m).1) d

theorem hearAll_append (d : Dispatcher) (messages more : List HostMessage) :
    d.hearAll (messages ++ more) = (d.hearAll messages).hearAll more := List.foldl_append

theorem dispatch_other (d : Dispatcher) {m : HostMessage} (h : ∀ p, m ≠ .configChanged p) :
    (d.dispatch m).1 = d := by
  unfold dispatch
  split
  · rfl
  · cases m with
    | configChanged p => exact absurd rfl (h p)
    | _ => rfl

theorem hearAll_other (d : Dispatcher) {messages : List HostMessage}
    (h : ∀ p, .configChanged p ∉ messages) : d.hearAll messages = d := by
  induction messages with
  | nil => rfl
  | cons m rest ih =>
    have hm : (d.dispatch m).1 = d :=
      d.dispatch_other fun p heq => h p (heq ▸ List.mem_cons_self)
    have hrest : ∀ p, .configChanged p ∉ rest := fun p hp => h p (List.mem_cons_of_mem m hp)
    rw [hearAll, List.foldl_cons, hm]
    exact ih hrest

end Dispatcher

namespace Act

/-- Whether an act leaves the session undisposed and does not configure the engine behind the
session's back. -/
def isOpen : Act → Bool
  | .trigger (.configure _) | .trigger .dispose | .dispose => false
  | _ => true

def patch? : Act → Option Patch
  | .configure p => some p
  | _ => none

end Act

namespace Session

variable {s t u : Session} {effects more : List SessionEffect} {link : Json → Delivery}
  {cursor : Option Cursor}

def wiring (s : Session) : Config × Bool × Bool × Assets :=
  (s.engine.config, s.engine.publishing, s.publishing, s.assets)

structure Leaves (s t : Session) (effects : List SessionEffect) : Prop where
  wiring : t.wiring = s.wiring
  silent : ∀ p, .configChanged p ∉ toldIn effects

namespace Leaves

theorem refl (s : Session) : Leaves s s [] := ⟨rfl, fun _ => List.not_mem_nil⟩

theorem trans (h : Leaves s t effects) (h' : Leaves t u more) :
    Leaves s u (effects ++ more) := by
  refine ⟨h'.wiring.trans h.wiring, fun p hp => ?_⟩
  rw [toldIn_append] at hp
  exact (List.mem_append.1 hp).elim (h.silent p) (h'.silent p)

theorem enqueue (s : Session) (news : List News) : Leaves s (s.enqueue news) [] := by
  refine ⟨?_, fun _ => List.not_mem_nil⟩
  unfold Session.enqueue
  split <;> rfl

theorem ask (s : Session) (asked : Client.Asked) : Leaves s (s.ask asked).1 (s.ask asked).2 := by
  refine ⟨(enqueue { s with client := asked.client } asked.news).wiring, fun p => ?_⟩
  rw [Session.ask]
  cases asked.sent <;> simp [toldIn, SessionEffect.told?]

theorem publish (s : Session) {effect : SessionEffect}
    (h : ∀ p, effect ≠ .panel (.configChanged p)) : Leaves s s (s.publish effect) := by
  refine ⟨rfl, fun p => ?_⟩
  unfold Session.publish
  split
  · cases effect with
    | panel m =>
      have hm : m ≠ .configChanged p := fun heq => h p (by rw [heq])
      simpa [toldIn, SessionEffect.told?] using hm.symm
    | _ => simp [toldIn, SessionEffect.told?]
  · simp [toldIn]

theorem perform (s : Session) (link : Json → Delivery) {effect : Effect}
    (h : ∀ p, effect ≠ .post (.configChanged p)) :
    Leaves s (s.perform link effect).1 (s.perform link effect).2.1 := by
  cases effect with
  | redraw snapshot => exact publish s nofun
  | post m => exact publish s fun p heq => h p (by cases heq; rfl)
  | request ticket l => exact ask s _
  | _ => exact ⟨rfl, fun p => by simp [Session.perform, toldIn, SessionEffect.told?]⟩

theorem performAll (s : Session) (link : Json → Delivery) (verdict : Verdict)
    {effects : List Effect} (h : Silent effects) :
    Leaves s (s.performAll link verdict effects).1 (s.performAll link verdict effects).2.1 := by
  induction effects generalizing s verdict with
  | nil => exact refl s
  | cons effect rest ih =>
    have hother : ∀ p, effect ≠ .post (.configChanged p) := by
      rintro p rfl
      exact h p List.mem_cons_self
    exact (perform s link hother).trans (ih _ _ fun p hp => h p (List.mem_cons_of_mem effect hp))

/-- Only a patch and the end change what an engine's turn leaves alone here. -/
theorem trigger (s : Session) (link : Json → Delivery) (cursor : Option Cursor) {t : Trigger}
    (hp : ∀ p, t ≠ .configure p) (hd : t ≠ .dispose) :
    Leaves s (s.trigger link cursor t).1 (s.trigger link cursor t).2.1 := by
  have hkept : (s.engine.react cursor t).engine.surroundings.2.2 =
      s.engine.surroundings.2.2 := by
    rw [Engine.react_surroundings]
    cases t with
    | configure p => exact absurd rfl (hp p)
    | dispose => exact absurd rfl hd
    | _ => rfl
  have hperform := performAll { s with engine := (s.engine.react cursor t).engine } link (.ok ())
    (s.engine.react_does cursor t).silent
  refine ⟨?_, hperform.silent⟩
  simp only [Session.trigger]
  generalize ({ s with engine := (s.engine.react cursor t).engine } : Session).performAll link
    (.ok ()) (s.engine.react cursor t).effects = done at hperform ⊢
  obtain ⟨pending, hsettle⟩ := Engine.settle_engine (s.engine.react cursor t) done.2.2
  have hw := hperform.wiring
  simp only [Session.wiring, Engine.surroundings, Prod.mk.injEq] at hw hkept ⊢
  rw [hsettle]
  exact ⟨hkept.1, hkept.2, hw.2.2⟩

theorem apply (s : Session) (link : Json → Delivery) (cursor : Option Cursor) (news : News) :
    Leaves s (s.apply link cursor news).1 (s.apply link cursor news).2.1 := by
  cases news with
  | failure err => exact publish s nofun
  | _ => exact trigger s link cursor nofun nofun

theorem drain (s : Session) (link : Json → Delivery) (cursor : Option Cursor)
    (most applied : Nat) :
    Leaves s (drain link cursor most applied s).1 (drain link cursor most applied s).2.1 := by
  induction most generalizing s applied with
  | zero => exact refl s
  | succ most ih =>
    cases hq : s.queue with
    | nil =>
      simp only [Session.drain, hq]
      exact refl s
    | cons news rest =>
      have happly := apply { s with queue := rest } link cursor news
      have hfirst : Leaves s _ _ := ⟨happly.wiring, happly.silent⟩
      simp only [Session.drain, hq]
      generalize ({ s with queue := rest } : Session).apply link cursor news = done at hfirst ⊢
      rcases done with ⟨t, effects, err | ⟨⟩⟩
      · exact hfirst
      · exact hfirst.trans (ih t (applied + 1))

theorem hear (s : Session) (arrivals : List Arrival) : Leaves s (s.hear arrivals) [] :=
  ⟨(enqueue { s with client := (s.client.hearAll arrivals).1 } _).wiring,
    fun _ => List.not_mem_nil⟩

theorem followUri (s : Session) (link : Json → Delivery) (cursor : Option Cursor)
    (uri : String) :
    Leaves s (s.followUri link cursor uri).1 (s.followUri link cursor uri).2.1 := by
  unfold Session.followUri
  split
  · exact refl s
  · exact trigger s link cursor nofun nofun

/-- Any open move that brings no patch. -/
theorem move (s : Session) {m : Move} (ho : m.act.isOpen = true) (hp : m.act.patch? = none) :
    Leaves s (s.move m).1 (s.move m).2 := by
  rcases m with ⟨act, cursor, link⟩
  cases act with
  | trigger t =>
    refine trigger s link cursor ?_ ?_
    · rintro p rfl
      cases ho
    · rintro rfl
      cases ho
  | hear arrivals => exact hear s arrivals
  | pump arrivals => exact (hear s arrivals).trans (drain (s.hear arrivals) link cursor _ 0)
  | drain most => exact drain s link cursor most 0
  | sync fileName content => exact ask s _
  | configure p => cases hp
  | followUri uri => exact followUri s link cursor uri
  | dispose => cases ho

end Leaves

/-! ## Patches -/

def patched (s : Session) (p : Patch) : Session :=
  { s with engine := (s.engine.configure p).engine }

theorem patched_wiring (s : Session) (p : Patch) :
    (s.patched p).wiring =
      (s.engine.config.merge p, s.engine.publishing, s.publishing, s.assets) := by
  have hconfig : (s.engine.configure p).engine.config = s.engine.config.merge p :=
    congrArg (·.2.2.1) (s.engine.react_surroundings none (.configure p))
  have hpublishing : (s.engine.configure p).engine.publishing = s.engine.publishing :=
    s.engine.react_publishing none (.configure p)
  simp only [wiring, patched, hconfig, hpublishing]

/-- A patch that sets something reaches the panel first, and then a page that is drawn with it. -/
theorem configure_eq (he : s.engine.publishing = true) (hs : s.publishing = true) {p : Patch}
    (hp : p ≠ {}) (link : Json → Delivery) (cursor : Option Cursor) :
    s.configure link cursor p = (s.patched p, [.panel (.configChanged p),
      .page (Page.render (s.patched p).engine.snapshot (s.engine.config.merge p) s.assets)]) := by
  have hw := s.patched_wiring p
  simp only [wiring, Prod.mk.injEq] at hw
  have hheard : (s.patched p).engine.publishing = true := hw.2.1.trans he
  have heffects : (s.engine.react cursor (.configure p)).effects =
      [.configured (s.engine.config.merge p), .redraw (s.patched p).engine.snapshot] := by
    have hredraw : (s.patched p).engine.redraw = [.redraw (s.patched p).engine.snapshot] := by
      rw [Engine.redraw, if_pos hheard]
    exact congrArg _ hredraw
  have htrigger : s.trigger link cursor (.configure p) = (s.patched p,
      [.page (Page.render (s.patched p).engine.snapshot (s.engine.config.merge p) s.assets)],
      .ok ()) := by
    have hpage : (s.patched p).publish (.page (Page.render (s.patched p).engine.snapshot
        (s.patched p).engine.config (s.patched p).assets)) = [.page (Page.render
          (s.patched p).engine.snapshot (s.engine.config.merge p) s.assets)] := by
      rw [publish, if_pos (hw.2.2.1.trans hs), hw.1, hw.2.2.2]
    have hturn : { s with engine := (s.engine.react cursor (.configure p)).engine } =
        s.patched p := rfl
    rw [trigger, heffects, hturn]
    simp only [performAll, perform, hpage]
    rfl
  have hempty : ¬ p.isEmpty = true := by simpa [Patch.isEmpty] using hp
  rw [configure, if_neg hempty, htrigger, publish, if_pos hs]
  rfl

theorem configure_empty (s : Session) (link : Json → Delivery) (cursor : Option Cursor) :
    s.configure link cursor {} = (s, []) := rfl

/-! ## Along a run -/

structure Agrees (assets : Assets) (before : List Move) (s : Session)
    (past : List SessionEffect) : Prop where
  wiring : s.wiring = (Config.settled (before.filterMap (·.act.patch?)), true, true, assets)
  panel : Dispatcher.hearAll {} (toldIn past) =
    { config := Config.settled (before.filterMap (·.act.patch?)) }

variable {assets : Assets} {before : List Move} {past : List SessionEffect}

theorem Agrees.leaves (h : Agrees assets before s past) {m : Move} (hm : m.act.patch? = none)
    (hl : Leaves s t effects) : Agrees assets (before ++ [m]) t (past ++ effects) := by
  have hsame : (before ++ [m]).filterMap (·.act.patch?) = before.filterMap (·.act.patch?) := by
    simp [hm]
  constructor
  · rw [hsame]
    exact hl.wiring.trans h.wiring
  · rw [hsame, toldIn_append, Dispatcher.hearAll_append, h.panel,
      Dispatcher.hearAll_other _ hl.silent]

theorem Agrees.configure (h : Agrees assets before s past) {m : Move} {p : Patch}
    (hm : m.act = .configure p) :
    Agrees assets (before ++ [m]) (s.configure m.link m.cursor p).1
      (past ++ (s.configure m.link m.cursor p).2) := by
  have hsettled : Config.settled ((before ++ [m]).filterMap (·.act.patch?)) =
      (Config.settled (before.filterMap (·.act.patch?))).merge p := by
    rw [List.filterMap_append, ← Config.settled_snoc]
    simp [hm, Act.patch?]
  have hw := h.wiring
  simp only [Session.wiring, Prod.mk.injEq] at hw
  obtain ⟨hconfig, he, hs, hassets⟩ := hw
  by_cases hp : p = {}
  · subst hp
    rw [configure_empty, List.append_nil]
    rw [Config.merge_empty] at hsettled
    exact ⟨by rw [hsettled]; exact h.wiring, by rw [hsettled]; exact h.panel⟩
  · rw [configure_eq he hs hp]
    constructor
    · rw [patched_wiring, hsettled, hconfig, he, hs, hassets]
    · rw [hsettled, toldIn_append, Dispatcher.hearAll_append, h.panel]
      rfl

theorem Agrees.move (h : Agrees assets before s past) {m : Move} (ho : m.act.isOpen = true) :
    Agrees assets (before ++ [m]) (s.move m).1 (past ++ (s.move m).2) := by
  cases hm : m.act.patch? with
  | none => exact h.leaves hm (.move s ho hm)
  | some p =>
    have hact : m.act = .configure p := by
      cases ha : m.act <;> simp_all [Act.patch?]
    have hmove : s.move m = s.configure m.link m.cursor p := by rw [Session.move, hact]
    rw [hmove]
    exact h.configure hact

theorem run_agrees (selector : Selector) (assets : Assets) {moves : List Move}
    (h : ∀ m ∈ moves, m.act.isOpen = true) :
    Agrees assets moves (run move (init selector assets) moves).1
      (run move (init selector assets) moves).2 := by
  have hall : Along move (fun _ _ m => m.act.isOpen = true) (init selector assets) [] moves :=
    along_of_forall (fun m hm _ _ => h m hm) _ _
  exact run_induction (motive := Agrees assets) (fun _ _ _ _ ha ho => ha.move ho) ⟨rfl, rfl⟩ hall

/-- As long as configuration changes go through the session, a dispatcher that is given every
message for the panel has the engine's configuration: each setting at the last value that a patch
gave it, or at its default. A patch that sets something reaches the panel before the one page that
is drawn with it, and an empty one does nothing. -/
theorem run_configurations_agree (selector : Selector) (assets : Assets) (moves : List Move)
    (h : ∀ m ∈ moves, m.act.isOpen = true) :
    let s := (run move (init selector assets) moves).1
    let panel := Dispatcher.hearAll {} (toldIn (run move (init selector assets) moves).2)
    panel.config = s.engine.config ∧
      s.engine.config = Config.settled (moves.filterMap (·.act.patch?)) ∧
      ∀ link cursor,
        s.configure link cursor {} = (s, []) ∧
        ∀ p, p ≠ {} → ∃ t,
          s.configure link cursor p = (t, [.panel (.configChanged p),
            .page (Page.render t.engine.snapshot t.engine.config assets)]) ∧
          t.engine.config = s.engine.config.merge p := by
  intro s panel
  obtain ⟨hwiring, hpanel⟩ := run_agrees selector assets h
  simp only [wiring, Prod.mk.injEq] at hwiring
  obtain ⟨hconfig, he, hs, hassets⟩ := hwiring
  refine ⟨?_, hconfig, fun link cursor => ⟨rfl, fun p hp => ⟨s.patched p, ?_, ?_⟩⟩⟩
  · exact (congrArg Dispatcher.config hpanel).trans hconfig.symm
  all_goals have hpatched : (s.patched p).engine.config = s.engine.config.merge p :=
    congrArg Prod.fst (s.patched_wiring p)
  · rw [configure_eq he hs hp, hpatched, hassets]
  · exact hpatched

/-- Two patches for the font, the second over the first, with an empty one and a pause between them,
and then one more patch. -/
theorem run_configurations_agree_fonts :
    let moves : List Move :=
      [{ act := .configure { fontFamily := some "serif", fontSize := some 20 } },
        { act := .configure {} }, { act := .trigger .pause },
        { act := .configure { fontSize := some 12 } }]
    let s := (run move (init {} {}) moves).1
    let last : Patch := { allErrorsOnLine := some true }
    (∀ m ∈ moves, m.act.isOpen = true) ∧ last ≠ {} ∧
      (Dispatcher.hearAll {} (toldIn (run move (init {} {}) moves).2)).config =
        { fontFamily := "serif", fontSize := 12 } ∧
      ∃ t, s.configure (fun _ => {}) none last = (t, [.panel (.configChanged last),
        .page (Page.render t.engine.snapshot t.engine.config {})]) ∧
        t.engine.config = { fontFamily := "serif", fontSize := 12, allErrorsOnLine := true } := by
  intro moves s last
  have hopen : ∀ m ∈ moves, m.act.isOpen = true := by decide
  have hlast : last ≠ {} := by decide
  obtain ⟨hpanel, hconfig, hconfigure⟩ := run_configurations_agree {} {} moves hopen
  have hsettled : s.engine.config = { fontFamily := "serif", fontSize := 12 } :=
    hconfig.trans (by decide)
  obtain ⟨t, heq, ht⟩ := (hconfigure (fun _ => {}) none).2 last hlast
  refine ⟨hopen, hlast, hpanel.trans hsettled, t, heq, ht.trans ?_⟩
  change s.engine.config.merge last = _
  rw [hsettled]
  rfl

end Session

end ProofPanel
