import ProofPanel.Proofs.Diagnostic.Nearest
import ProofPanel.Proofs.Engine.Messages

/-!
# Reports that say the same

Of a report on the workspace a running engine looks at the cursor's file only, and there at what
stands at each place, in its order, by the compared fields. Other files, the ends of diagnostics
and how the places are mixed make no difference: a report that says the same there as the last one
is kept, and that is all.
-/
namespace ProofPanel

namespace Diagnostic

variable {a b : List Diagnostic} {l : Location}

theorem sameList_trans {c : List Diagnostic} (hab : sameList a b = true)
    (hbc : sameList b c = true) : sameList a c = true :=
  sameList_iff.mpr ((sameList_iff.mp hab).trans (sameList_iff.mp hbc))

/-- What is picked by the compared fields is the same in lists that are. -/
theorem sameList_filter (h : sameList a b = true)
    (p : String × Nat × Nat × Severity × String × String → Bool) :
    sameList (a.filter fun d => p d.identity) (b.filter fun d => p d.identity) = true := by
  have hfilter := congrArg (List.filter p) (sameList_iff.mp h)
  rw [List.filter_map, List.filter_map] at hfilter
  exact sameList_iff.mpr hfilter

theorem sameList_fromNearest (h : sameList a b = true) (column : Nat) :
    sameList (fromNearest a column) (fromNearest b column) = true := by
  have hcolumns : a.map (·.column) = b.map (·.column) := by
    have hmap := congrArg (List.map (·.2.2.1)) (sameList_iff.mp h)
    rwa [List.map_map, List.map_map] at hmap
  have hnearest : nearestColumn a column = nearestColumn b column := by
    rw [nearestColumn, hcolumns, nearestColumn]
  rw [fromNearest, fromNearest, hnearest]
  exact sameList_filter h fun i => nearestColumn b column ≤ i.2.2.1

section
variable (h : ∀ line column, sameList (standing a l.fileName line column)
  (standing b l.fileName line column) = true)
include h

/-- The places of diagnostics are among the compared fields, so that these are sorted with them. -/
theorem sameList_allMessages (whole : Bool) :
    sameList (relevant a l .allMessages whole) (relevant b l .allMessages whole) = true := by
  have hordered : ∀ ds, ((relevant ds l .allMessages whole).map identity).Pairwise
      fun i j => toLex (i.2.1, i.2.2.1) ≤ toLex (j.2.1, j.2.2.1) :=
    fun ds => List.pairwise_map.mpr (allMessages_stablySorted ds l whole).ordered
  have hstanding : ∀ ds line column, ((relevant ds l .allMessages whole).map identity).filter
      (fun i => toLex (i.2.1, i.2.2.1) = toLex (line, column)) =
        (standing ds l.fileName line column).map identity := by
    intro ds line column
    rw [List.filter_map, ← allMessages_standing ds l whole]
    rfl
  refine sameList_iff.mpr (eq_of_filter_key (hordered a) (hordered b) fun k => ?_)
  obtain ⟨line, column⟩ := k
  calc _ = (standing a l.fileName line column).map identity := hstanding a line column
    _ = (standing b l.fileName line column).map identity := sameList_iff.mp (h line column)
    _ = _ := (hstanding b line column).symm

/-- What is relevant at a place depends on nothing but what stands at each place of its file. -/
theorem sameList_relevant (mode : Mode) (whole : Bool) :
    sameList (relevant a l mode whole) (relevant b l mode whole) = true := by
  cases mode with
  | allMessages => exact sameList_allMessages h whole
  | onlyState =>
    have hline : sameList (relevant a l .onlyState true) (relevant b l .onlyState true) = true := by
      rw [relevant_onLine a l true, relevant_onLine b l true]
      exact sameList_filter (sameList_allMessages h true) fun i => i.2.1 = l.line
    cases whole with
    | true => exact hline
    | false =>
      rw [relevant_nearest, relevant_nearest]
      exact sameList_fromNearest hline l.column

end

end Diagnostic

namespace Engine

variable {e : Engine} {l : Location}

theorem Coherent.receiveDiagnostics_of_same (hc : e.Coherent) (hrun : e.view.stopped = false)
    (hl : e.location? = some l) {report : List Diagnostic}
    (h : ∀ line column, Diagnostic.sameList (Diagnostic.standing e.diagnostics l.fileName line column)
      (Diagnostic.standing report l.fileName line column) = true) :
    e.receiveDiagnostics report = { engine := { e with diagnostics := report } } := by
  obtain ⟨old, ho, hsame⟩ := hc.here hrun l hl
  have hkept : (e.brought (.diagnostics report)).acceptMessages =
      (e.brought (.diagnostics report), false) :=
    acceptMessages_of_same _ hl ho (Diagnostic.sameList_trans hsame
      (Diagnostic.sameList_relevant h e.view.mode e.config.allErrorsOnLine))
  rcases e.receiveDiagnostics_cases report with ⟨hr, _⟩ | ⟨_, _, _, hnew, _⟩
  · exact hr
  · rw [hkept] at hnew
    cases congrArg Prod.snd hnew

/-- A running engine with a location takes a report that says the same of its file as the last one
without a word: all that changes is the report it keeps. -/
theorem run_same_report (selector : Selector) (config : Config) (occasions : List Occasion)
    (h : ∀ o ∈ occasions, o.trigger ≠ .dispose) (report : List Diagnostic) :
    let e := (run meet (start selector config) occasions).1
    e.view.stopped = false → ∀ l, e.location? = some l →
      (∀ line column, Diagnostic.sameList
        (Diagnostic.standing (lastReport occasions) l.fileName line column)
        (Diagnostic.standing report l.fileName line column) = true) →
      ∀ cursor verdict, e.step cursor verdict (.diagnostics report) =
        ({ e with diagnostics := report }, [], .ok ()) := by
  intro e hrun l hl hsame cursor verdict
  obtain ⟨hc, hd⟩ := run_coherent selector config occasions h
  rw [← hd] at hsame
  rw [step, react, hc.receiveDiagnostics_of_same hrun hl hsame]
  rfl

/-- Two diagnostics come again with one of another file before them, the second of them first and
without its end. -/
theorem run_same_report_mixed :
    let cursor : Option Cursor := some ⟨"/a.lean", "lean", ⟨2, 4⟩⟩
    let first : Diagnostic := ⟨"/a.lean", 3, 0, .error, "", "unknown identifier", none, none⟩
    let second : Diagnostic := ⟨"/a.lean", 5, 2, .warning, "", "unused variable", some 5, some 9⟩
    let other : Diagnostic := ⟨"/b.lean", 3, 0, .error, "", "unexpected token", none, none⟩
    let occasions : List Occasion :=
      [⟨cursor, .ok (), .setMode .onlyState⟩, ⟨cursor, .ok (), .diagnostics [first, second]⟩]
    let report := [other, { second with endLine := none, endColumn := none }, first]
    let e := (run meet (start {} {}) occasions).1
    e.pendingTicket? = some 1 ∧ e.step cursor (.ok ()) (.diagnostics report) =
      ({ e with diagnostics := report }, [], .ok ()) := by
  intro cursor first second other occasions report e
  have h : ∀ o ∈ occasions, o.trigger ≠ .dispose := by simp [occasions]
  have hrun : e.view.stopped = false := by unfold e occasions second first cursor; cbv
  have hl : e.location? = some ⟨"/a.lean", 3, 4⟩ := by
    unfold e occasions second first cursor; cbv
  have hpending : e.pendingTicket? = some 1 := by unfold e occasions second first cursor; cbv
  have hlast : lastReport occasions = [first, second] := rfl
  refine ⟨hpending, run_same_report {} {} occasions h report hrun _ hl (fun line column => ?_)
    cursor (.ok ())⟩
  rw [hlast, Diagnostic.sameList_iff]
  -- No two of them stand at one place.
  by_cases hline : line = 3
  · simp [Diagnostic.standing, report, other, first, second, hline, List.filter_cons]
  · have hne : ¬ 3 = line := fun heq => hline heq.symm
    simp [Diagnostic.standing, report, other, first, second, hne, List.filter_cons, apply_ite,
      Diagnostic.identity]

end Engine

end ProofPanel
