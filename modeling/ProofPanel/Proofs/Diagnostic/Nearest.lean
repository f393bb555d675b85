import Mathlib.Order.Bounds.Basic
import ProofPanel.Proofs.Diagnostic.Relevant

/-!
# The nearest diagnostics

Of the diagnostics on the cursor's line those stay that are not left of the nearest column, which
is the greatest one not right of the cursor. The search that stops early finds where they start in
any list in the order of columns. So both modes select by a rule that mentions no search and no
sorting, and the rule says how a selection changes with the mode and the cursor.
-/
namespace ProofPanel.Diagnostic

/-! ## The rule -/

/-- The greatest column of a diagnostic that is not right of the given one, or zero. -/
def nearestColumn (ds : List Diagnostic) (column : Nat) : Nat :=
  ((ds.map (·.column)).filter (· ≤ column)).max?.getD 0

/-- The diagnostics that are not left of the nearest column. If all are right of the given column,
none is left of zero and all stay. -/
def fromNearest (ds : List Diagnostic) (column : Nat) : List Diagnostic :=
  ds.filter (nearestColumn ds column ≤ ·.column)

variable {ds : List Diagnostic} {column : Nat}

theorem nearestColumn_cases (ds : List Diagnostic) (column : Nat) :
    (∀ d ∈ ds, column < d.column) ∧ nearestColumn ds column = 0 ∨
      IsGreatest {c | c ≤ column ∧ ∃ d ∈ ds, d.column = c} (nearestColumn ds column) := by
  have hmem : ∀ c, c ∈ (ds.map (·.column)).filter (· ≤ column) ↔
      (∃ d ∈ ds, d.column = c) ∧ c ≤ column := by
    intro c
    simp
  rw [nearestColumn]
  cases hmax : ((ds.map (·.column)).filter (· ≤ column)).max? with
  | none =>
    rw [List.max?_eq_none_iff] at hmax
    refine Or.inl ⟨fun d hd => Nat.lt_of_not_le fun hle => ?_, rfl⟩
    have hnone := (hmem d.column).mpr ⟨⟨d, hd, rfl⟩, hle⟩
    rw [hmax] at hnone
    cases hnone
  | some c =>
    obtain ⟨hc, hgreatest⟩ := List.max?_eq_some_iff.mp hmax
    obtain ⟨hd, hle⟩ := (hmem c).mp hc
    exact Or.inr ⟨⟨hle, hd⟩, fun b hb => hgreatest b ((hmem b).mpr ⟨hb.2, hb.1⟩)⟩

theorem nearestColumn_eq {c : Nat} (h : IsGreatest {c | c ≤ column ∧ ∃ d ∈ ds, d.column = c} c) :
    nearestColumn ds column = c := by
  rcases nearestColumn_cases ds column with ⟨hright, _⟩ | hgreatest
  · obtain ⟨⟨hle, d, hd, rfl⟩, _⟩ := h
    exact absurd (hright d hd) (Nat.not_lt.mpr hle)
  · exact hgreatest.unique h

theorem nearestColumn_le_iff {n : Nat} :
    nearestColumn ds column ≤ n ↔ ∀ d ∈ ds, d.column ≤ column → d.column ≤ n := by
  rcases nearestColumn_cases ds column with ⟨hright, hzero⟩ | ⟨⟨hle, d, hd, heq⟩, hgreatest⟩
  · rw [hzero]
    refine iff_of_true (Nat.zero_le n) fun d hd hle => ?_
    exact absurd (hright d hd) (Nat.not_lt.mpr hle)
  · refine ⟨fun hn x hx hxle => Nat.le_trans (hgreatest ⟨hxle, x, hx, rfl⟩) hn, fun h => ?_⟩
    rw [← heq] at hle ⊢
    exact h d hd hle

theorem fromNearest_of_right (h : ∀ d ∈ ds, column < d.column) : fromNearest ds column = ds := by
  have hzero : nearestColumn ds column ≤ 0 := nearestColumn_le_iff.mpr fun d hd hle =>
    absurd (h d hd) (Nat.not_lt.mpr hle)
  refine List.filter_eq_self.mpr fun d _ => ?_
  simpa using Nat.le_trans hzero (Nat.zero_le d.column)

/-! ## The search -/

/-- What the search may have found among the diagnostics that it has seen: none, if all are right
of the column, or the first of those in the nearest column. -/
inductive Found (column : Nat) : List Diagnostic → Option (Nat × Nat) → Prop
  | none {seen : List Diagnostic} (right : ∀ x ∈ seen, column < x.column) :
      Found column seen none
  | first {left : List Diagnostic} {d : Diagnostic} {right : List Diagnostic}
      (before : ∀ x ∈ left, x.column < d.column) (reach : d.column ≤ column)
      (after : ∀ x ∈ right, x.column ≤ column → x.column ≤ d.column) :
      Found column (left ++ d :: right) (some (d.column, left.length))

variable {seen rest : List Diagnostic} {nearest : Option (Nat × Nat)}

theorem Found.append (h : Found column seen nearest) (hr : ∀ x ∈ rest, column < x.column) :
    Found column (seen ++ rest) nearest := by
  cases h with
  | none right => exact .none (List.forall_mem_append.mpr ⟨right, hr⟩)
  | first before reach after =>
    rw [List.append_assoc, List.cons_append]
    refine .first before reach (List.forall_mem_append.mpr ⟨after, fun x hx hle => ?_⟩)
    exact absurd (hr x hx) (Nat.not_lt.mpr hle)

/-- A diagnostic left of the column takes over if it is nearer than what was found before. -/
theorem Found.next (h : Found column seen nearest) (hl : ∀ x ∈ seen, x.column < column)
    {d : Diagnostic} (hd : d.column < column) :
    Found column (seen ++ [d])
      (if nearest.all (·.1 < d.column) then some (d.column, seen.length) else nearest) := by
  cases h with
  | none right =>
    have hnil : seen = [] := by
      refine List.eq_nil_iff_forall_not_mem.mpr fun x hx => ?_
      exact Nat.lt_asymm (right x hx) (hl x hx)
    subst hnil
    exact @Found.first column [] d [] nofun (Nat.le_of_lt hd) nofun
  | @first left e right before reach after =>
    split
    case isTrue hnearer =>
      have hlt : e.column < d.column := by simpa using hnearer
      refine @Found.first column _ d [] (fun x hx => ?_) (Nat.le_of_lt hd) nofun
      rcases List.mem_append.mp hx with hx' | hx'
      · exact Nat.lt_trans (before x hx') hlt
      rcases List.mem_cons.mp hx' with rfl | hx'
      · exact hlt
      · have hle := after x hx' (Nat.le_of_lt (hl x hx))
        exact Nat.lt_of_le_of_lt hle hlt
    case isFalse hnearer =>
      have hle : d.column ≤ e.column := by simpa using hnearer
      rw [List.append_assoc, List.cons_append]
      refine .first before reach (List.forall_mem_append.mpr ⟨after, fun x hx _ => ?_⟩)
      rw [List.mem_singleton.mp hx]
      exact hle

/-- On the way the diagnostics seen are all left of the column, as the search has not ended yet. -/
theorem nearestLeft_found (h : Found column seen nearest) (hl : ∀ x ∈ seen, x.column < column)
    (hs : rest.Pairwise fun a b => a.column ≤ b.column) :
    Found column (seen ++ rest) (nearestLeft column nearest seen.length rest) := by
  induction rest generalizing seen nearest with
  | nil => simpa [nearestLeft] using h
  | cons d rest ih =>
    obtain ⟨hle, hs⟩ := List.pairwise_cons.mp hs
    rcases Nat.lt_trichotomy column d.column with hright | hexact | hleft
    · rw [nearestLeft, if_pos hright]
      refine h.append (List.forall_mem_cons.mpr ⟨hright, fun x hx => ?_⟩)
      exact Nat.lt_of_lt_of_le hright (hle x hx)
    · rw [nearestLeft, if_neg (by omega), if_pos hexact]
      refine .first (fun x hx => ?_) (by omega) fun x _ hx => ?_
      · rw [← hexact]
        exact hl x hx
      · rw [← hexact]
        exact hx
    · rw [nearestLeft, if_neg (by omega), if_neg (by omega)]
      have hnext := ih (h.next hl hleft)
        (List.forall_mem_append.mpr ⟨hl, by simpa using hleft⟩) hs
      rw [List.append_assoc, List.length_append, List.length_singleton] at hnext
      exact hnext

/-- Where the search says that they start, the diagnostics from the nearest column on start. -/
theorem drop_nearestLeftStart (hs : ds.Pairwise fun a b => a.column ≤ b.column) (column : Nat) :
    ds.drop ((nearestLeftStart ds column).getD 0) = fromNearest ds column := by
  have hfound : Found column ds (nearestLeft column none 0 ds) :=
    @nearestLeft_found column [] ds none (.none nofun) nofun hs
  rw [nearestLeftStart]
  generalize nearestLeft column none 0 ds = found at hfound
  cases hfound with
  | none right => exact (fromNearest_of_right right).symm
  | @first left d right before reach after =>
    have hstart : ((some left.length).filter (0 < ·)).getD 0 = left.length := by
      cases left <;> rfl
    have hnearest : nearestColumn (left ++ d :: right) column = d.column := by
      refine nearestColumn_eq ⟨⟨reach, d, by simp, rfl⟩, ?_⟩
      rintro c ⟨hle, x, hx, rfl⟩
      rcases List.mem_append.mp hx with hx | hx
      · exact Nat.le_of_lt (before x hx)
      rcases List.mem_cons.mp hx with rfl | hx
      · exact Nat.le_refl _
      · exact after x hx hle
    obtain ⟨_, hs, _⟩ := List.pairwise_append.mp hs
    have hcut : left.filter (d.column ≤ ·.column) = [] :=
      List.filter_eq_nil_iff.mpr fun x hx => by simpa using before x hx
    have hkept : (d :: right).filter (d.column ≤ ·.column) = d :: right := by
      refine List.filter_eq_self.mpr (List.forall_mem_cons.mpr ⟨by simp, fun x hx => ?_⟩)
      simpa using (List.pairwise_cons.mp hs).1 x hx
    rw [Option.map_some, hstart, List.drop_left, fromNearest, hnearest, List.filter_append, hcut, hkept,
      List.nil_append]

/-! ## What is selected -/

theorem relevant_nearest (ds : List Diagnostic) (l : Location) :
    relevant ds l .onlyState false = fromNearest (relevant ds l .onlyState true) l.column :=
  drop_nearestLeftStart (onLine_stablySorted ds l).ordered l.column

/-- All messages of the file are shown in the order of their places. With the goal, those on the
line are shown in the order of their columns: all of them if that is wanted or if all are right of
the cursor, else those that are not left of the greatest column that is not right of it. -/
theorem relevant_selects (ds : List Diagnostic) (l : Location) (whole : Bool) :
    StablySorted place (ds.filter (·.fileName = l.fileName)) (relevant ds l .allMessages whole) ∧
    ∃ line, StablySorted (·.column)
        (ds.filter fun d => d.fileName = l.fileName ∧ d.line = l.line) line ∧
      (whole = true ∨ (∀ d ∈ line, l.column < d.column) → relevant ds l .onlyState whole = line) ∧
      (whole = false → (∃ d ∈ line, d.column ≤ l.column) →
        ∃ c, IsGreatest {c | c ≤ l.column ∧ ∃ d ∈ line, d.column = c} c ∧
          relevant ds l .onlyState whole = line.filter (c ≤ ·.column)) := by
  have hline : ds.filter (onLine l) =
      ds.filter fun d => d.fileName = l.fileName ∧ d.line = l.line :=
    List.filter_congr fun d _ => by rw [Bool.eq_iff_iff]; simp [onLine]
  refine ⟨allMessages_stablySorted ds l whole, relevant ds l .onlyState true,
    hline ▸ onLine_stablySorted ds l, ?_, ?_⟩
  · rintro (rfl | hright)
    · rfl
    · cases whole with
      | true => rfl
      | false => rw [relevant_nearest, fromNearest_of_right hright]
  · rintro rfl ⟨d, hd, hle⟩
    rcases nearestColumn_cases (relevant ds l .onlyState true) l.column with
      ⟨hright, _⟩ | hgreatest
    · exact absurd (hright d hd) (Nat.not_lt.mpr hle)
    · exact ⟨_, hgreatest, relevant_nearest ds l⟩

/-! ## How a selection changes -/

theorem filter_le_suffix (hs : ds.Pairwise fun a b => a.column ≤ b.column) {c c' : Nat}
    (h : c ≤ c') : ds.filter (c' ≤ ·.column) <:+ ds.filter (c ≤ ·.column) := by
  induction ds with
  | nil => exact List.suffix_refl []
  | cons d ds ih =>
    obtain ⟨hle, hs⟩ := List.pairwise_cons.mp hs
    by_cases hd : c' ≤ d.column
    · -- From here on all are kept on either side.
      have hall : ∀ b ≤ d.column, (d :: ds).filter (b ≤ ·.column) = d :: ds := by
        intro b hb
        refine List.filter_eq_self.mpr (List.forall_mem_cons.mpr ⟨by simpa using hb, ?_⟩)
        intro x hx
        simpa using Nat.le_trans hb (hle x hx)
      exact ⟨[], (hall c' hd).trans (hall c (Nat.le_trans h hd)).symm⟩
    · rw [List.filter_cons_of_neg (by simpa using hd)]
      refine (ih hs).trans ?_
      rw [List.filter_cons]
      split
      · exact List.suffix_cons d _
      · exact List.suffix_refl _

theorem fromNearest_suffix (hs : ds.Pairwise fun a b => a.column ≤ b.column) :
    fromNearest ds column <:+ ds := by
  have hall : ds.filter (0 ≤ ·.column) = ds := List.filter_eq_self.mpr fun d _ => by simp
  have hsuffix := filter_le_suffix hs (Nat.zero_le (nearestColumn ds column))
  rwa [hall] at hsuffix

theorem fromNearest_ne_nil (h : ds ≠ []) : fromNearest ds column ≠ [] := by
  rcases nearestColumn_cases ds column with ⟨hright, _⟩ | ⟨⟨_, d, hd, heq⟩, _⟩
  · rwa [fromNearest_of_right hright]
  · refine List.ne_nil_of_mem (a := d) (List.mem_filter.mpr ⟨hd, ?_⟩)
    simp [heq]

/-- Further to the right the nearest column is no smaller. -/
theorem fromNearest_mono (hs : ds.Pairwise fun a b => a.column ≤ b.column) {column' : Nat}
    (h : column ≤ column') : fromNearest ds column' <:+ fromNearest ds column := by
  refine filter_le_suffix hs (nearestColumn_le_iff.mpr fun d hd hle => ?_)
  exact nearestColumn_le_iff.mp le_rfl d hd (Nat.le_trans hle h)

/-- Among the kept ones the nearest column is no greater. -/
theorem fromNearest_fromNearest (ds : List Diagnostic) (column : Nat) :
    fromNearest (fromNearest ds column) column = fromNearest ds column := by
  have hle : nearestColumn (fromNearest ds column) column ≤ nearestColumn ds column :=
    nearestColumn_le_iff.mpr fun d hd =>
      nearestColumn_le_iff.mp le_rfl d (List.mem_filter.mp hd).1
  refine List.filter_eq_self.mpr fun d hd => ?_
  have hkept : nearestColumn ds column ≤ d.column := by simpa using (List.mem_filter.mp hd).2
  simpa using Nat.le_trans hle hkept

theorem Listed.relevant_allMessages {l : Location} (h : Listed l .allMessages ds) (whole : Bool) :
    relevant ds l .allMessages whole = ds := by
  have hall : ds.filter (Diagnostic.inFile l.fileName) = ds :=
    List.filter_eq_self.mpr fun d hd => by simpa [Diagnostic.inFile] using h.inFile d hd
  have hsorted := allMessages_stablySorted ds l whole
  rw [hall] at hsorted
  exact hsorted.unique (.refl (h.ordered.imp place_le_iff.mpr))

theorem Listed.relevant_onlyState {l : Location} (h : Listed l .onlyState ds) :
    relevant ds l .onlyState true = ds := by
  have hall : ds.filter (Diagnostic.onLine l) = ds :=
    List.filter_eq_self.mpr fun d hd => by
      simpa [Diagnostic.onLine] using ⟨h.inFile d hd, h.onLine rfl d hd⟩
  have hsorted := onLine_stablySorted ds l
  rw [hall] at hsorted
  refine hsorted.unique (.refl (h.ordered.imp_of_mem fun {a b} ha hb hab => ?_))
  have hline : a.line = b.line := (h.onLine rfl a ha).trans (h.onLine rfl b hb).symm
  omega

/-- What is relevant at a place is all that is relevant of it there. -/
theorem relevant_relevant (ds : List Diagnostic) (l : Location) (mode : Mode) (whole : Bool) :
    relevant (relevant ds l mode whole) l mode whole = relevant ds l mode whole := by
  have hlisted := relevant_listed ds l mode whole
  cases mode with
  | allMessages => exact hlisted.relevant_allMessages whole
  | onlyState =>
    have hline := hlisted.relevant_onlyState
    cases whole with
    | true => exact hline
    | false => rw [relevant_nearest (relevant ds l .onlyState false), hline, relevant_nearest,
        fromNearest_fromNearest]

/-- The modes agree on a line. Cutting keeps a suffix of it, with something in it if there is
anything on the line, and the shorter one the further the cursor is to the right. What is selected
once stays selected. -/
theorem relevant_modes_agree (ds : List Diagnostic) (l : Location) (whole : Bool) :
    relevant ds l .onlyState true =
      (relevant ds l .allMessages whole).filter (·.line = l.line) ∧
    relevant ds l .onlyState false <:+ relevant ds l .onlyState true ∧
    (relevant ds l .onlyState true ≠ [] → relevant ds l .onlyState false ≠ []) ∧
    (∀ mode column, l.column ≤ column →
      relevant ds { l with column } mode whole <:+ relevant ds l mode whole) ∧
    ∀ mode, relevant (relevant ds l mode whole) l mode whole = relevant ds l mode whole := by
  have hs : (relevant ds l .onlyState true).Pairwise fun a b => a.column ≤ b.column :=
    (onLine_stablySorted ds l).ordered
  refine ⟨relevant_onLine ds l whole, ?_, ?_, fun mode column h => ?_,
    fun mode => relevant_relevant ds l mode whole⟩
  · rw [relevant_nearest]
    exact fromNearest_suffix hs
  · rw [relevant_nearest]
    exact fromNearest_ne_nil
  · -- Only the cut looks at the column.
    cases mode with
    | allMessages => exact List.suffix_refl _
    | onlyState =>
      cases whole with
      | true => exact List.suffix_refl _
      | false =>
        rw [relevant_nearest, relevant_nearest]
        exact fromNearest_mono hs h

end ProofPanel.Diagnostic
