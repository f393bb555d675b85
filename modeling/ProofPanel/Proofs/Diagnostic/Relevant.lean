import ProofPanel.Proofs.Diagnostic.Order

/-!
# What is relevant at a place

The diagnostics at a place are in its file and in the order of their positions, and where the goal
is shown they are on its line. This holds as well of any list that differs from them only in what
does not take part in comparisons.
-/
namespace ProofPanel.Diagnostic

structure Listed (l : Location) (mode : Mode) (ds : List Diagnostic) : Prop where
  inFile : ∀ d ∈ ds, d.fileName = l.fileName
  onLine : mode = .onlyState → ∀ d ∈ ds, d.line = l.line
  ordered : ds.Pairwise fun a b => a.line < b.line ∨ a.line = b.line ∧ a.column ≤ b.column

theorem allMessages_listed (ds : List Diagnostic) (l : Location) (whole : Bool) :
    Listed l .allMessages (relevant ds l .allMessages whole) := by
  have hsorted := allMessages_stablySorted ds l whole
  refine ⟨fun d hd => ?_, nofun, hsorted.ordered.imp place_le_iff.mp⟩
  have hmem := List.mem_filter.mp (hsorted.perm.subset hd)
  simpa [inFile] using hmem.2

theorem onLine_listed (ds : List Diagnostic) (l : Location) :
    Listed l .onlyState (relevant ds l .onlyState true) := by
  have hsorted := onLine_stablySorted ds l
  have hplace : ∀ d ∈ relevant ds l .onlyState true, d.fileName = l.fileName ∧ d.line = l.line := by
    intro d hd
    have hmem := List.mem_filter.mp (hsorted.perm.subset hd)
    simpa [onLine] using hmem.2
  refine ⟨fun d hd => (hplace d hd).1, fun _ d hd => (hplace d hd).2, ?_⟩
  refine hsorted.ordered.imp_of_mem fun {a b} ha hb hab => Or.inr ⟨?_, hab⟩
  exact (hplace a ha).2.trans (hplace b hb).2.symm

theorem Listed.sublist {l : Location} {mode : Mode} {ds more : List Diagnostic}
    (h : Listed l mode more) (hs : ds.Sublist more) : Listed l mode ds :=
  ⟨fun d hd => h.inFile d (hs.subset hd), fun hm d hd => h.onLine hm d (hs.subset hd),
    h.ordered.sublist hs⟩

theorem relevant_listed (ds : List Diagnostic) (l : Location) (mode : Mode) (whole : Bool) :
    Listed l mode (relevant ds l mode whole) := by
  cases mode with
  | allMessages => exact allMessages_listed ds l whole
  | onlyState =>
    cases whole with
    | true => exact onLine_listed ds l
    | false => exact (onLine_listed ds l).sublist (List.drop_sublist _ _)

theorem sameList_iff {a b : List Diagnostic} :
    sameList a b = true ↔ a.map identity = b.map identity := by
  simp [sameList]

/-- Whatever speaks of the compared fields only holds of both lists or of none. -/
theorem Listed.of_sameList {l : Location} {mode : Mode} {ds old : List Diagnostic}
    (h : Listed l mode ds) (hs : sameList old ds = true) : Listed l mode old := by
  have hmap : old.map identity = ds.map identity := sameList_iff.mp hs
  have hmem : ∀ d ∈ old, ∃ d' ∈ ds, d'.fileName = d.fileName ∧ d'.line = d.line := by
    intro d hd
    have hid : d.identity ∈ ds.map identity := hmap ▸ List.mem_map_of_mem hd
    obtain ⟨d', hd', heq⟩ := List.mem_map.mp hid
    exact ⟨d', hd', congrArg Prod.fst heq, congrArg (·.2.1) heq⟩
  refine ⟨fun d hd => ?_, fun hm d hd => ?_, ?_⟩
  · obtain ⟨d', hd', hfile, _⟩ := hmem d hd
    exact hfile ▸ h.inFile d' hd'
  · obtain ⟨d', hd', _, hline⟩ := hmem d hd
    exact hline ▸ h.onLine hm d' hd'
  · have horder : (ds.map identity).Pairwise
        fun a b => a.2.1 < b.2.1 ∨ a.2.1 = b.2.1 ∧ a.2.2.1 ≤ b.2.2.1 :=
      List.pairwise_map.mpr h.ordered
    rw [← hmap] at horder
    exact List.pairwise_map.mp horder

end ProofPanel.Diagnostic
