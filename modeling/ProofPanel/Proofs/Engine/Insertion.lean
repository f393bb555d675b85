import ProofPanel.Proofs.Engine.Run
import ProofPanel.Proofs.Text.BlockComment

/-!
# What is inserted into a file

The engine inserts what it shows between the delimiters of a block comment, as it is. All that is
shown was said by the backend, and nothing that stands between two pieces of it belongs to a
delimiter. So the text that is inserted is one comment exactly if the comments that the pieces open
and close are balanced.
-/
namespace ProofPanel

open BlockComment

def Diagnostic.pieces (d : Diagnostic) : List String :=
  [Path.baseName d.fileName, d.caption, d.text]

def Snapshot.pieces (s : Snapshot) : List String :=
  s.goal.toList ++ s.messages.flatMap Diagnostic.pieces

namespace PlainText

theorem isInert_toString (n : Nat) : (toString n).toList.all isInert := by
  have hlist : (toString n).toList = Nat.toDigits 10 n := by simp [toString]
  rw [hlist, List.all_eq_true]
  intro c hc
  have hdigit := Nat.isDigit_of_mem_toDigits (by decide) (by decide) hc
  rw [isInert, Bool.and_eq_true, bne_iff_ne, bne_iff_ne]
  constructor
  · rintro rfl
    cases hdigit
  · rintro rfl
    cases hdigit

theorem isInert_severity (s : Severity) : s.name.toList.all isInert := by
  cases s <;> decide

theorem through_message (d : Diagnostic) (depth : Nat) :
    through depth (message d) = d.pieces.foldlM through depth := by
  let place := ":" ++ toString d.line ++ ":" ++ toString d.column ++ ": " ++ d.severity.name ++ " "
  have hplace : place.toList.all isInert := by
    simp only [place, String.toList_append, List.all_append, Bool.and_eq_true, isInert_toString,
      isInert_severity, and_true]
    decide
  have hne : place ≠ "" := by
    intro h
    have hlength := congrArg String.length h
    simp [place] at hlength
  have hmessage : message d =
      Path.baseName d.fileName ++ place ++ (d.caption ++ "\n" ++ d.text) := by
    simp only [message, place, String.append_assoc]
  have htext (depth : Nat) : through depth (d.caption ++ "\n" ++ d.text) =
      (through depth d.caption).bind fun depth => through depth d.text :=
    through_append (by decide) (by decide) depth d.caption d.text
  rw [hmessage, through_append hne hplace]
  simp [htext, Diagnostic.pieces]

theorem through_messages (ds : List Diagnostic) (depth : Nat) :
    through depth ("\n".intercalate (ds.map message)) =
      (ds.flatMap Diagnostic.pieces).foldlM through depth := by
  induction ds generalizing depth with
  | nil => rfl
  | cons d ds ih =>
    cases ds with
    | nil => simp [through_message]
    | cons next ds =>
      rw [List.map_cons] at ih
      rw [List.map_cons, List.map_cons, String.intercalate_cons_cons,
        through_append (by decide) (by decide), through_message, List.flatMap_cons,
        List.foldlM_append]
      exact congrArg (Option.bind _) (funext ih)

/-- The comments open and close in the plain text of a snapshot as they do in its pieces. -/
theorem through_render (s : Snapshot) (depth : Nat) :
    through depth (render s) = s.pieces.foldlM through depth := by
  have hempty : through depth "" = some depth := rfl
  rw [render, Snapshot.pieces, List.foldlM_append]
  split
  · next hgoal =>
    rw [hgoal, through_inert (by decide), through_messages]
    rfl
  · next hgoal =>
    rw [hgoal, through_inert (by decide), through_messages]
    rfl
  · next goal _ hgoal =>
    rw [hgoal, String.append_assoc, String.append_assoc, through_inert (by decide),
      ← String.append_assoc, through_append (by decide) (by decide)]
    simp [through_messages]

end PlainText

namespace Diagnostic

theorem mem_of_mem_relevant {ds : List Diagnostic} {l : Location} {mode : Mode} {whole : Bool}
    {d : Diagnostic} (h : d ∈ relevant ds l mode whole) : d ∈ ds := by
  cases mode with
  | allMessages => exact (List.mem_filter.mp (List.mem_mergeSort.mp h)).1
  | onlyState =>
    cases whole with
    | true => exact (List.mem_filter.mp (List.mem_mergeSort.mp h)).1
    | false => exact (List.mem_filter.mp (List.mem_mergeSort.mp (List.mem_of_mem_drop h))).1

end Diagnostic

def Occasion.said (o : Occasion) : List String :=
  match o.trigger with
  | .diagnostics ds => ds.flatMap Diagnostic.pieces
  | .respond _ (.ok record) => (record.bind Record.goal?).toList
  | _ => []

namespace Engine

structure Repeats (texts : String → Prop) (e : Engine) : Prop where
  reported : ∀ d ∈ e.diagnostics, ∀ piece ∈ d.pieces, texts piece
  shown : ∀ d ∈ e.view.messages.getD [], ∀ piece ∈ d.pieces, texts piece
  goal : ∀ goal, e.view.goal = some goal → texts goal

theorem Repeats.pieces {texts : String → Prop} {e : Engine} (h : e.Repeats texts) :
    ∀ piece ∈ e.snapshot.pieces, texts piece := by
  intro piece hpiece
  rcases List.mem_append.mp hpiece with hgoal | hmessages
  · exact h.goal piece (Option.mem_toList.mp hgoal)
  · obtain ⟨d, hd, hpiece⟩ := List.mem_flatMap.mp hmessages
    exact h.shown d hd piece hpiece

theorem repeats_steady (texts : String → Prop) : Steady (Repeats texts) where
  placing _ _ h := ⟨h.reported, h.shown, h.goal⟩
  showing _ _ h :=
    ⟨h.reported, fun d hd => h.reported d (Diagnostic.mem_of_mem_relevant hd), h.goal⟩
  running _ _ _ h := ⟨h.reported, h.shown, h.goal⟩
  fetching _ _ _ h := ⟨h.reported, h.shown, h.goal⟩

theorem receiveAnswer_repeats {texts : String → Prop} {e : Engine} (h : e.Repeats texts)
    (ticket : Ticket) (answer : Answer)
    (hgoal : ∀ record, answer = .ok record →
      ∀ goal, record.bind Record.goal? = some goal → texts goal) :
    (e.receiveAnswer ticket answer).engine.Repeats texts := by
  rcases e.receiveAnswer_cases ticket answer with
    ⟨_, ha⟩ | ⟨_, _, _, ⟨_, ha⟩ | ⟨_, ⟨_, _, ha⟩ | ⟨record, hr, ha⟩⟩⟩
  · rwa [ha]
  · rw [ha]
    exact ⟨h.reported, h.shown, h.goal⟩
  · rw [ha]
    exact ⟨h.reported, h.shown, h.goal⟩
  · rw [ha]
    exact ⟨h.reported, h.shown, hgoal record hr⟩

/-- A turn adds to what the engine knows what the backend says on that occasion. -/
theorem meet_repeats {texts : String → Prop} {e : Engine} (h : e.Repeats texts) (o : Occasion)
    (ho : ∀ text ∈ o.said, texts text) : (e.meet o).1.Repeats texts := by
  obtain ⟨pending, hp⟩ := settle_engine (e.react o.cursor o.trigger) o.verdict
  rw [meet_fst, hp]
  refine (repeats_steady texts).fetching _ pending _ ?_
  cases ht : o.trigger with
  | respond ticket answer =>
    refine receiveAnswer_repeats h ticket answer fun record hr goal hgoal => ho goal ?_
    simp [Occasion.said, ht, hr, hgoal]
  | diagnostics ds =>
    have hreported : ∀ d ∈ ds, ∀ piece ∈ d.pieces, texts piece := by
      intro d hd piece hpiece
      refine ho piece ?_
      simp only [Occasion.said, ht]
      exact List.mem_flatMap.mpr ⟨d, hd, hpiece⟩
    exact (repeats_steady texts).react o.cursor nofun ⟨hreported, h.shown, h.goal⟩
  | _ => exact (repeats_steady texts).react o.cursor nofun ⟨h.reported, h.shown, h.goal⟩

/-- All that is shown after a run was said by the backend. -/
theorem run_pieces_said (selector : Selector) (config : Config) (occasions : List Occasion) :
    ∀ piece ∈ (run meet (start selector config) occasions).1.snapshot.pieces,
      ∃ o ∈ occasions, piece ∈ o.said := by
  have hall : Along meet (fun _ _ o => ∃ other ∈ occasions, o = other) (start selector config) []
      occasions := along_of_forall (fun o ho _ _ => ⟨o, ho, rfl⟩) _ _
  have hstart : (start selector config).Repeats fun text => ∃ o ∈ occasions, text ∈ o.said :=
    ⟨nofun, nofun, nofun⟩
  refine (run_induction (motive := fun _ (e : Engine) _ =>
    e.Repeats fun text => ∃ o ∈ occasions, text ∈ o.said) ?_ hstart hall).pieces
  rintro _ e _ o he ⟨_, ho, rfl⟩
  exact meet_repeats he o fun text htext => ⟨o, ho, htext⟩

/-- After any run, also one that disposes of the engine, what is copied goes as it is shown to the
line after the cursor's, as a command too. It is one closed block comment with a line break behind
it exactly if the comments that are opened and closed in the shown pieces are balanced, so in
particular if the backend never said a delimiter. -/
theorem run_insert_closed_iff (selector : Selector) (config : Config) (occasions : List Occasion)
    (cursor : Cursor) :
    let e := (run meet (start selector config) occasions).1
    (∀ t ∈ [Trigger.copyToComment, .execute .copyToComment],
      (e.react (some cursor) t).effects =
        [.insert cursor.fileName (cursor.position.line + 1) e.comment]) ∧
      (isLine e.comment ↔ e.snapshot.pieces.foldlM through 0 = some 0) ∧
      ((∀ o ∈ occasions, ∀ text ∈ o.said, Undelimited text) → isLine e.comment) := by
  intro e
  have hiff : isLine e.comment ↔ e.snapshot.pieces.foldlM through 0 = some 0 := by
    rw [comment, isLine_iff, PlainText.through_render]
  refine ⟨?_, hiff, fun hquiet => hiff.mpr (foldlM_through (fun piece hpiece => ?_) 0)⟩
  · simp only [List.forall_mem_cons]
    exact ⟨rfl, rfl, nofun⟩
  · obtain ⟨o, ho, hsaid⟩ := run_pieces_said selector config occasions piece hpiece
    exact hquiet o ho piece hsaid

/-- A goal and an error, neither of them with a delimiter. -/
theorem run_insert_closed_iff_shown :
    let cursor : Cursor := ⟨"/a.lean", "lean", ⟨2, 5⟩⟩
    let occasions : List Occasion :=
      [⟨some cursor, .ok (), .setMode .onlyState⟩,
        ⟨some cursor, .ok (), .respond 0 (.ok (some { state := some "x / y : ℕ\n⊢ P" }))⟩,
        ⟨some cursor, .ok (), .diagnostics [⟨"/a.lean", 3, 5, .error, "", "x - y", none, none⟩]⟩]
    let e := (run meet (start {} {}) occasions).1
    (∀ o ∈ occasions, ∀ text ∈ o.said, Undelimited text) ∧ isLine e.comment ∧
      e.comment =
        "/-\nTactic State:\nx / y : ℕ\n⊢ P\na.lean:3:5: error \nx - y\n-/\n" := by
  intro cursor occasions e
  have hquiet : ∀ o ∈ occasions, ∀ text ∈ o.said, Undelimited text := by
    unfold occasions cursor
    decide +kernel
  refine ⟨hquiet, (run_insert_closed_iff {} {} occasions cursor).2.2 hquiet, ?_⟩
  unfold e occasions cursor
  decide +kernel

/-- An error about a delimiter that stands alone closes the comment before its end. -/
theorem run_insert_closed_early :
    let cursor : Cursor := ⟨"/a.lean", "lean", ⟨2, 0⟩⟩
    let occasions : List Occasion :=
      [⟨some cursor, .ok (), .selectionChanged⟩,
        ⟨some cursor, .ok (), .diagnostics
          [⟨"/a.lean", 3, 0, .error, "", "unexpected token '-/'; expected command", none, none⟩]⟩]
    let e := (run meet (start {} {}) occasions).1
    (e.react (some cursor) .copyToComment).effects = [.insert "/a.lean" 3 e.comment] ∧
      e.comment = "/-\na.lean:3:0: error \nunexpected token '-/'; expected command\n-/\n" ∧
      isLine e.comment = false := by
  intro cursor occasions e
  have hcomment : e.comment =
      "/-\na.lean:3:0: error \nunexpected token '-/'; expected command\n-/\n" := by
    unfold e occasions cursor
    decide +kernel
  refine ⟨rfl, hcomment, ?_⟩
  rw [hcomment]
  decide +kernel

end Engine

end ProofPanel
