import ProofPanel.Proofs.Engine.Fetch
import ProofPanel.Proofs.Engine.Messages

/-!
# While the engine is stopped

Until it is resumed, a stopped engine shows what it showed and leaves the backend alone. It keeps
the last report and the configuration for the time when it runs again; of all else that came up
meanwhile it knows nothing then.
-/
namespace ProofPanel

def Effect.drawn? : Effect → Option Snapshot
  | .redraw s => some s
  | _ => none

/-- Whether a trigger neither switches the mode nor resumes, if the engine is stopped, nor disposes
of it. -/
def Trigger.isPassive : Trigger → Bool
  | .selectionChanged | .refresh | .diagnostics _ | .statusChanged | .respond _ _ | .configure _
  | .pause | .copyToComment => true
  | .execute c => match c with
    | .reveal _ | .hover _ | .stopHover | .pause | .copyToComment => true
    | _ => false
  | _ => false

def Occasion.patch? (o : Occasion) : Option Patch :=
  match o.trigger with
  | .configure p => some p
  | _ => none

/-- What a stopped engine remembers of all that comes up: the last report and every change of the
configuration, in the order in which they came. -/
def gist : List Occasion → List Occasion
  | [] => []
  | o :: rest =>
    if o.patch?.isSome || (o.report?.isSome && !rest.any (·.report?.isSome)) then o :: gist rest
    else gist rest

theorem gist_sublist (occasions : List Occasion) : (gist occasions).Sublist occasions := by
  induction occasions with
  | nil => exact List.Sublist.refl []
  | cons o rest ih =>
    unfold gist
    split
    · exact ih.cons_cons o
    · exact ih.cons o

theorem filterMap_patch_gist (occasions : List Occasion) :
    (gist occasions).filterMap Occasion.patch? = occasions.filterMap Occasion.patch? := by
  induction occasions with
  | nil => rfl
  | cons o rest ih =>
    cases hp : o.patch? with
    | none =>
      rw [List.filterMap_cons_none hp, ← ih, gist]
      split
      · rw [List.filterMap_cons_none hp]
      · rfl
    | some p =>
      have hkept : gist (o :: rest) = o :: gist rest := by simp only [gist, hp]; rfl
      rw [hkept, List.filterMap_cons_some hp, List.filterMap_cons_some hp, ih]

/-- A report that is not the last one is forgotten. -/
theorem getLast?_report_of_later {o : Occasion} {rest : List Occasion}
    (later : rest.any (·.report?.isSome) = true) :
    ((o :: rest).filterMap Occasion.report?).getLast? =
      (rest.filterMap Occasion.report?).getLast? := by
  obtain ⟨o', ho', hr'⟩ := List.any_eq_true.mp later
  obtain ⟨ds, hds⟩ := Option.isSome_iff_exists.mp hr'
  have hne : rest.filterMap Occasion.report? ≠ [] :=
    List.ne_nil_of_mem (List.mem_filterMap.mpr ⟨o', ho', hds⟩)
  cases hr : o.report? with
  | none => rw [List.filterMap_cons_none hr]
  | some _ =>
    rw [List.filterMap_cons_some hr, List.getLast?_cons_of_ne_nil hne]

theorem getLast?_report_gist (occasions : List Occasion) :
    ((gist occasions).filterMap Occasion.report?).getLast? =
      (occasions.filterMap Occasion.report?).getLast? := by
  induction occasions with
  | nil => rfl
  | cons o rest ih =>
    cases hr : o.report? with
    | none =>
      rw [List.filterMap_cons_none hr, ← ih, gist]
      split
      · rw [List.filterMap_cons_none hr]
      · rfl
    | some ds =>
      unfold gist
      split
      · rw [List.filterMap_cons_some hr, List.filterMap_cons_some hr, List.getLast?_cons, ih,
          List.getLast?_cons]
      case isFalse h =>
        have later : rest.any (·.report?.isSome) = true := by
          by_contra hlast
          rw [Bool.not_eq_true] at hlast
          exact h (by rw [hr, hlast, Bool.or_eq_true]; exact Or.inr rfl)
        rw [getLast?_report_of_later later, ih]

namespace Engine

variable {e : Engine} {o : Occasion}

structure Paused (e : Engine) : Prop where
  stopped : e.view.stopped = true
  idle : e.pending = none
  heard : e.publishing = true

theorem Live.paused (he : e.Live) (hs : e.view.stopped = true) : e.Paused :=
  ⟨hs, he.sound.due_of_pending (due?_eq_none_of_stopped hs), he.publishing⟩

structure Idles (e : Engine) (o : Occasion) (turn : Turn) : Prop where
  engine : turn.engine = e.brought o.trigger
  asked : turn.asked = none
  calls : turn.calls = []
  drawn : turn.effects.filterMap Effect.drawn? = o.patch?.toList.map fun _ => e.snapshot

theorem idles_of_still {turn : Turn} (ht : turn = { engine := e.brought o.trigger })
    (hp : o.patch? = none) : Idles e o turn := by
  rw [ht]
  exact ⟨rfl, rfl, rfl, by rw [hp]; rfl⟩

theorem acceptMessages_stopped (hs : e.view.stopped = true) : e.acceptMessages = (e, false) := by
  simp only [acceptMessages, if_pos hs]

namespace Paused

variable (h : Paused e)
include h

theorem updatePosition (cursor : Option Cursor) (reasons : Reasons) :
    e.updatePosition cursor reasons = { engine := e } := by
  rcases e.updatePosition_cases cursor reasons with ⟨hu, _⟩ | ⟨hrun, _, _⟩
  · exact hu
  · rw [h.stopped] at hrun
    cases hrun

theorem receiveDiagnostics (ds : List Diagnostic) :
    e.receiveDiagnostics ds = { engine := e.brought (.diagnostics ds) } := by
  rcases e.receiveDiagnostics_cases ds with ⟨hr, _⟩ | ⟨_, hrun, _, _, _⟩
  · exact hr
  · rw [h.stopped] at hrun
    cases hrun

theorem statusChanged : e.statusChanged = { engine := e } := by
  rcases e.statusChanged_cases with hf | ⟨l, due, _⟩
  · exact hf
  · rw [due?_eq_none_of_stopped h.stopped] at due
    cases due

theorem receiveAnswer (ticket : Ticket) (answer : Answer) :
    e.receiveAnswer ticket answer = { engine := e } := by
  rcases e.receiveAnswer_cases ticket answer with ⟨_, ha⟩ | ⟨_, hp, _⟩
  · exact ha
  · rw [h.idle] at hp
    cases hp

theorem configure (p : Patch) : e.configure p =
    { engine := e.brought (.configure p)
      effects := [.configured (e.config.merge p), .redraw e.snapshot] } := by
  have hstill := (acceptMessages_stopped (e := e.brought (.configure p)) h.stopped)
  have hdrawn : (e.brought (.configure p)).redraw = [.redraw e.snapshot] := if_pos h.heard
  rw [brought] at hstill hdrawn
  simp only [Engine.configure, hstill, hdrawn, brought]

theorem pause : e.pause = { engine := e, effects := [.post .pause] } := by
  have hsame : { e with view := { e.view with stopped := true }, pending := none } = e := by
    rw [← h.stopped, ← h.idle]
  rw [pause_eq, hsame, cancelPending_snd_none h.idle, post, if_pos h.heard, List.nil_append]

theorem pause_idles (brings : e.brought o.trigger = e) (hp : o.patch? = none) :
    Idles e o e.pause := by
  rw [h.pause]
  exact ⟨brings.symm, rfl, rfl, by rw [hp]; rfl⟩

omit h in
theorem copyToComment_idles (brings : e.brought o.trigger = e) (hp : o.patch? = none) :
    Idles e o (e.copyToComment o.cursor) := by
  cases hc : o.cursor with
  | none => exact idles_of_still (by rw [brings]; rfl) hp
  | some c => exact ⟨brings.symm, rfl, rfl, by rw [hp]; rfl⟩

theorem react (ho : o.trigger.isPassive = true) : Idles e o (e.react o.cursor o.trigger) := by
  obtain ⟨cursor, verdict, t⟩ := o
  cases t with
  | selectionChanged => exact idles_of_still (h.updatePosition cursor _) rfl
  | refresh => exact idles_of_still (h.updatePosition cursor _) rfl
  | diagnostics ds => exact idles_of_still (h.receiveDiagnostics ds) rfl
  | statusChanged => exact idles_of_still h.statusChanged rfl
  | respond ticket answer => exact idles_of_still (h.receiveAnswer ticket answer) rfl
  | configure p =>
    rw [Engine.react, h.configure p]
    exact ⟨rfl, rfl, rfl, rfl⟩
  | pause => exact h.pause_idles rfl rfl
  | copyToComment => exact copyToComment_idles rfl rfl
  | execute c =>
    cases c with
    | reveal _ => exact ⟨rfl, rfl, rfl, rfl⟩
    | hover _ => exact ⟨rfl, rfl, rfl, rfl⟩
    | stopHover => exact ⟨rfl, rfl, rfl, rfl⟩
    | pause => exact h.pause_idles rfl rfl
    | copyToComment => exact copyToComment_idles rfl rfl
    | _ => cases ho
  | _ => cases ho

theorem meet (ho : o.trigger.isPassive = true) :
    (e.meet o).1 = e.brought o.trigger ∧ (e.meet o).2.filter Effect.isCall = [] ∧
      (e.meet o).2.filterMap Effect.drawn? = o.patch?.toList.map fun _ => e.snapshot := by
  have hidles := h.react ho
  refine ⟨?_, hidles.calls, hidles.drawn⟩
  simp only [meet_fst, Turn.settle, hidles.asked]
  exact hidles.engine

theorem brought (ho : o.trigger.isPassive = true) : Paused (e.brought o.trigger) := by
  obtain ⟨_, _, t⟩ := o
  cases t with
  | dispose => cases ho
  | _ => exact ⟨h.stopped, h.idle, h.heard⟩

end Paused

def informed (e : Engine) (occasions : List Occasion) : Engine :=
  { e with
    diagnostics := ((occasions.filterMap Occasion.report?).getLast?).getD e.diagnostics
    config := (occasions.filterMap Occasion.patch?).foldl Config.merge e.config }

theorem informed_snoc (occasions : List Occasion) (ho : o.trigger.isPassive = true) :
    e.informed (occasions ++ [o]) = (e.informed occasions).brought o.trigger := by
  obtain ⟨_, _, t⟩ := o
  cases t with
  | dispose => cases ho
  | _ =>
    simp [informed, Engine.brought, Occasion.report?, Occasion.patch?, List.filterMap_cons]

theorem informed_gist (occasions : List Occasion) :
    e.informed (gist occasions) = e.informed occasions := by
  rw [informed, getLast?_report_gist, filterMap_patch_gist, informed]

/-- What a run tells a stopped engine. -/
theorem Paused.run (h : Paused e) {occasions : List Occasion}
    (hpassive : ∀ o ∈ occasions, o.trigger.isPassive = true) :
    (run Engine.meet e occasions).1 = e.informed occasions ∧
      (run Engine.meet e occasions).2.filter Effect.isCall = [] ∧
      (run Engine.meet e occasions).2.filterMap Effect.drawn? =
        (occasions.filterMap Occasion.patch?).map fun _ => e.snapshot := by
  have hall : Along Engine.meet (fun _ _ o => o.trigger.isPassive = true) e [] occasions :=
    along_of_forall (fun o ho _ _ => hpassive o ho) e []
  refine (run_induction (motive := fun before d effects => Paused d ∧ d = e.informed before ∧
    effects.filter Effect.isCall = [] ∧ effects.filterMap Effect.drawn? =
      (before.filterMap Occasion.patch?).map fun _ => e.snapshot) ?_ ⟨h, rfl, rfl, rfl⟩ hall).2
  rintro before d effects o ⟨hd, hinformed, hcalls, hdrawn⟩ ho
  obtain ⟨hmet, hcalls', hdrawn'⟩ := hd.meet ho
  have hsnapshot : d.snapshot = e.snapshot := by rw [hinformed]; rfl
  refine ⟨by rw [hmet]; exact hd.brought ho, ?_, ?_, ?_⟩
  · rw [hmet, informed_snoc before ho, ← hinformed]
  · rw [List.filter_append, hcalls, hcalls', List.append_nil]
  · rw [List.filterMap_append, hdrawn, hdrawn', hsnapshot, List.filterMap_append, List.map_append]
    cases hp : o.patch? <;> simp [hp]

/-- While an engine is stopped, whatever comes up but a switch, a resumption or the end leaves what
is shown as it was and calls nobody, and only a change of the configuration draws, each once and
what was shown. Resumed thereafter, the engine does what it would do if nothing had come up but
the last report and the changes of the configuration. -/
theorem run_paused (he : e.Live) (hs : e.view.stopped = true) (occasions : List Occasion)
    (h : ∀ o ∈ occasions, o.trigger.isPassive = true) :
    let d := (run meet e occasions).1
    let effects := (run meet e occasions).2
    d.view = e.view ∧ d.pending = none ∧ effects.filter Effect.isCall = [] ∧
      effects.filterMap Effect.drawn? =
        (occasions.filterMap Occasion.patch?).map (fun _ => e.snapshot) ∧
      ∀ cursor verdict, d.step cursor verdict .resume =
        (run meet e (gist occasions)).1.step cursor verdict .resume := by
  intro d effects
  have hpaused : e.Paused := he.paused hs
  obtain ⟨hinformed, hcalls, hdrawn⟩ := hpaused.run h
  have hgist := hpaused.run fun o ho => h o ((gist_sublist occasions).subset ho)
  have hd : d = e.informed occasions := hinformed
  refine ⟨by rw [hd]; rfl, by rw [hd]; exact hpaused.idle, hcalls, hdrawn, fun cursor verdict => ?_⟩
  rw [hd, hgist.1, informed_gist]

/-- A move, two reports, a late answer and a change of the configuration while the engine is
stopped: the configuration and the second report are all that counts. -/
theorem run_paused_reported :
    let there : Option Cursor := some ⟨"/a.lean", "lean", ⟨2, 4⟩⟩
    let here : Option Cursor := some ⟨"/a.lean", "lean", ⟨6, 0⟩⟩
    let ds : List Diagnostic := [⟨"/a.lean", 7, 0, .error, "", "unknown identifier", none, none⟩]
    let patch : Occasion := ⟨here, .ok (), .configure { fontSize := some 16 }⟩
    let last : Occasion := ⟨here, .ok (), .diagnostics ds⟩
    let e := (run meet (start {} {})
      [⟨there, .ok (), .setMode .onlyState⟩, ⟨there, .ok (), .pause⟩]).1
    let occasions : List Occasion :=
      [⟨here, .ok (), .selectionChanged⟩, ⟨here, .ok (), .diagnostics []⟩, patch,
        ⟨here, .ok (), .respond 0 (.ok none)⟩, last]
    let d := (run meet e occasions).1
    let effects := (run meet e occasions).2
    e.Live ∧ e.view.stopped = true ∧ (∀ o ∈ occasions, o.trigger.isPassive = true) ∧
      d.view = e.view ∧ d.pending = none ∧ effects.filter Effect.isCall = [] ∧
      effects.filterMap Effect.drawn? = [e.snapshot] ∧
      ∀ cursor verdict, d.step cursor verdict .resume =
        (run meet e [patch, last]).1.step cursor verdict .resume := by
  intro there here ds patch last e occasions d effects
  have he : e.Live := ⟨{}, {}, _, by simp, rfl⟩
  have hs : e.view.stopped = true := by
    unfold e there
    cbv
  have h : ∀ o ∈ occasions, o.trigger.isPassive = true := by
    unfold occasions last patch
    simp [Trigger.isPassive]
  exact ⟨he, hs, h, run_paused he hs occasions h⟩

end Engine

end ProofPanel
