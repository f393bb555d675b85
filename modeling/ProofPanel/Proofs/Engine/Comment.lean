import ProofPanel.Proofs.Engine.Validity
import ProofPanel.Proofs.Page.Shown

/-!
# What is copied

The text that is copied as a comment lists the diagnostics that the page shows. It shows the goal
that the engine has kept, and the page shows that goal as long as the mode shows goals. So the two
agree exactly in that mode and where no goal has been kept.
-/
namespace ProofPanel

namespace Page

/-- A text with a goal is no text without one. -/
theorem Shown.plainText_goal_ne (goal : String) (entries : List (String × String)) :
    (Shown.mk (some goal) entries).plainText ≠ (Shown.mk none entries).plainText := by
  intro h
  have hlength := congrArg String.length h
  simp only [plainText, String.length_append] at hlength
  have hmark : "Tactic State:\n".length = 14 := by decide
  have hnone : "".length = 0 := by decide
  omega

end Page

namespace Engine

open Page

/-- A run never leaves an empty goal. -/
theorem run_goal_ne_empty (selector : Selector) (config : Config) (occasions : List Occasion) :
    (run meet (start selector config) occasions).1.view.goal ≠ some "" := by
  obtain ⟨_, _, hcurrent⟩ := run_current selector config occasions
  rw [run_recorded_fst] at hcurrent
  rw [hcurrent.goal]
  exact newestGoal_ne_empty _

theorem filter_goal {goal : Option String} (h : goal ≠ some "") : goal.filter (· != "") = goal := by
  cases goal with
  | none => rfl
  | some text => simpa [Option.filter] using h

theorem shownGoal?_snapshot {e : Engine} (h : e.view.goal ≠ some "") :
    e.snapshot.shownGoal? = if e.view.mode = .onlyState then e.view.goal else none := by
  have hshown : e.snapshot.shownGoal? =
      e.view.goal.filter fun goal => e.view.mode = .onlyState && goal != "" := rfl
  rw [hshown]
  split
  · rename_i hmode
    simp only [hmode, decide_true, Bool.true_and]
    exact filter_goal h
  · rename_i hmode
    simp [hmode]

/-- In every state with a location that a run reaches, the page and the comment show the same
diagnostics in the same order. The page shows the goal that the engine has if the mode shows goals,
and the comment shows that goal in every mode; so it says what the page shows exactly if the mode
shows goals or there is no goal. -/
theorem run_comment_shows (selector : Selector) (config : Config) (occasions : List Occasion)
    (c : Config) (a : Assets) (cursor : Cursor)
    (located : (run meet (start selector config) occasions).1.location?.isSome) :
    let e := (run meet (start selector config) occasions).1
    ∃ shown text, Shown.ofPage? (render e.snapshot c a) = some shown ∧
      (e.react (some cursor) .copyToComment).effects = [.insert cursor.fileName
        (cursor.position.line + 1) ("/-\n" ++ text ++ "\n-/\n")] ∧
      shown.entries = e.snapshot.messages.map (fun d => (heading d, d.text)) ∧
      shown.goal = (if e.view.mode = .onlyState then e.view.goal else none) ∧
      text = Shown.plainText { shown with goal := e.view.goal } ∧
      (text = shown.plainText ↔ e.view.mode = .onlyState ∨ e.view.goal = none) := by
  intro e
  have hgoal : e.view.goal ≠ some "" := run_goal_ne_empty selector config occasions
  have htext := plainText_eq e.snapshot
  rw [show e.snapshot.goal = e.view.goal from rfl, filter_goal hgoal] at htext
  refine ⟨_, PlainText.render e.snapshot, ofPage?_render located c a, rfl, rfl,
    shownGoal?_snapshot hgoal, htext, ?_⟩
  rw [htext, shownGoal?_snapshot hgoal]
  cases hkept : e.view.goal with
  | none => simp
  | some goal =>
    by_cases hmode : e.view.mode = .onlyState
    · simp [hmode]
    · simp [hmode, Shown.plainText_goal_ne]

/-- The page shows a goal and the comment shows it too. -/
theorem run_comment_shows_goal :
    let cursor : Cursor := ⟨"/a.lean", "lean", ⟨2, 5⟩⟩
    let occasions : List Occasion :=
      [⟨some cursor, .ok (), .setMode .onlyState⟩,
        ⟨some cursor, .ok (), .respond 0 (.ok (some { state := some "⊢ P" }))⟩]
    let e := (run meet (start {} {}) occasions).1
    e.location?.isSome ∧ ∃ shown, Shown.ofPage? (render e.snapshot {} {}) = some shown ∧
      shown.goal = some "⊢ P" ∧ (e.react (some cursor) .copyToComment).effects =
        [.insert "/a.lean" 3 ("/-\n" ++ shown.plainText ++ "\n-/\n")] := by
  intro cursor occasions e
  have located : e.location?.isSome := by
    unfold e occasions cursor
    decide +kernel
  have hview : e.view.mode = .onlyState ∧ e.view.goal = some "⊢ P" := by
    unfold e occasions cursor
    decide +kernel
  obtain ⟨shown, text, hpage, hcomment, _, hgoal, _, hagree⟩ :=
    run_comment_shows {} {} occasions {} {} cursor located
  refine ⟨located, shown, hpage, ?_, ?_⟩
  · rw [hgoal]
    exact (if_pos hview.1).trans hview.2
  · rw [← hagree.mpr (.inl hview.1)]
    exact hcomment

/-- The goal has been shown, and then the mode has been changed to one that shows no goals. It is
copied nevertheless. -/
theorem run_comment_leftover :
    let cursor : Cursor := ⟨"/a.lean", "lean", ⟨2, 5⟩⟩
    let occasions : List Occasion :=
      [⟨some cursor, .ok (), .setMode .onlyState⟩,
        ⟨some cursor, .ok (), .respond 0 (.ok (some { state := some "⊢ P" }))⟩,
        ⟨some cursor, .ok (), .setMode .allMessages⟩]
    let e := (run meet (start {} {}) occasions).1
    e.location?.isSome ∧ Shown.ofPage? (render e.snapshot {} {}) = some ⟨none, []⟩ ∧
      (e.react (some cursor) .copyToComment).effects =
        [.insert "/a.lean" 3 "/-\nTactic State:\n⊢ P\n\n-/\n"] ∧
      "/-\nTactic State:\n⊢ P\n\n-/\n" ≠ "/-\n" ++ (Shown.mk none []).plainText ++ "\n-/\n" := by
  intro cursor occasions e
  have hsnapshot : e.snapshot = ⟨false, .allMessages, some ⟨"/a.lean", 3, 5⟩, some "⊢ P", []⟩ := by
    unfold e occasions cursor
    decide +kernel
  have located : e.snapshot.location.isSome := by rw [hsnapshot]; rfl
  refine ⟨located, ?_, ?_, by decide⟩
  · rw [ofPage?_render located, hsnapshot]
    rfl
  · unfold e occasions cursor
    decide +kernel

end Engine

end ProofPanel
