import Mathlib.Data.Prod.Lex
import ProofPanel.Diagnostic.Relevant

/-!
# The order of diagnostics

Sorting is stable: diagnostics with the same key keep the order that they came in. There is only
one list like that, and what stands at each key determines it. So the diagnostics on a line, sorted
by their columns, are those of the file, sorted by their positions, less the other lines.
-/
namespace ProofPanel

section Stable
variable {α κ : Type} [LinearOrder κ]

/-- The given list in the order of a key, where what has the same key stays in the given order. -/
structure StablySorted (key : α → κ) (given sorted : List α) : Prop where
  perm : sorted.Perm given
  ordered : sorted.Pairwise fun a b => key a ≤ key b
  stable : ∀ k, sorted.filter (key · = k) = given.filter (key · = k)

variable {key : α → κ} {xs ys : List α}

theorem mem_of_filter_key (h : ∀ k, xs.filter (key · = k) = ys.filter (key · = k)) {x : α}
    (hx : x ∈ xs) : x ∈ ys := by
  have hmem : x ∈ xs.filter (key · = key x) := List.mem_filter.mpr ⟨hx, by simp⟩
  rw [h] at hmem
  exact (List.mem_filter.mp hmem).1

/-- Lists in the order of a key are equal if they are at each key. -/
theorem eq_of_filter_key (hx : xs.Pairwise fun a b => key a ≤ key b)
    (hy : ys.Pairwise fun a b => key a ≤ key b)
    (h : ∀ k, xs.filter (key · = k) = ys.filter (key · = k)) : xs = ys := by
  induction xs generalizing ys with
  | nil =>
    refine (List.eq_nil_iff_forall_not_mem.mpr fun y hm => ?_).symm
    exact List.not_mem_nil (mem_of_filter_key (fun k => (h k).symm) hm)
  | cons x xs ih =>
    cases ys with
    | nil => exact absurd (mem_of_filter_key h List.mem_cons_self) List.not_mem_nil
    | cons y ys =>
      obtain ⟨hleast, hxs⟩ := List.pairwise_cons.mp hx
      obtain ⟨hleast', hys⟩ := List.pairwise_cons.mp hy
      -- Each head stands in the other list, so that they have the same key and come first there.
      have hle : key y ≤ key x := by
        rcases List.mem_cons.mp (mem_of_filter_key h List.mem_cons_self) with heq | hm
        · rw [heq]
        · exact hleast' x hm
      have hge : key x ≤ key y := by
        rcases List.mem_cons.mp (mem_of_filter_key (fun k => (h k).symm) List.mem_cons_self) with
          heq | hm
        · rw [heq]
        · exact hleast y hm
      have hkey : key x = key y := le_antisymm hge hle
      have hhead : x = y := by
        have hk := h (key y)
        rw [List.filter_cons_of_pos (by simpa using hkey),
          List.filter_cons_of_pos (by simp)] at hk
        exact (List.cons.inj hk).1
      rw [hhead]
      refine congrArg (y :: ·) (ih hxs hys fun k => ?_)
      have hk := h k
      rw [hhead, List.filter_cons, List.filter_cons] at hk
      split at hk
      · exact (List.cons.inj hk).2
      · exact hk

theorem StablySorted.unique {given : List α} (hx : StablySorted key given xs)
    (hy : StablySorted key given ys) : xs = ys :=
  eq_of_filter_key hx.ordered hy.ordered fun k => (hx.stable k).trans (hy.stable k).symm

theorem StablySorted.refl (h : xs.Pairwise fun a b => key a ≤ key b) : StablySorted key xs xs :=
  ⟨List.Perm.refl xs, h, fun _ => rfl⟩

theorem mergeSort_stablySorted {le : α → α → Bool} (hle : ∀ a b, le a b = true ↔ key a ≤ key b)
    (given : List α) : StablySorted key given (given.mergeSort le) := by
  have htrans : ∀ a b c, le a b = true → le b c = true → le a c = true := by
    intro a b c hab hbc
    rw [hle] at hab hbc ⊢
    exact le_trans hab hbc
  have htotal : ∀ a b, (le a b || le b a) = true := by
    intro a b
    rw [Bool.or_eq_true, hle, hle]
    exact le_total _ _
  refine ⟨List.mergeSort_perm _ _, ?_, fun k => ?_⟩
  · exact (List.pairwise_mergeSort htrans htotal given).imp fun {a b} => (hle a b).mp
  · -- What has one key is in order already, so that it stays a sublist.
    have hsame : (given.filter (key · = k)).Pairwise (fun a b => le a b = true) := by
      refine List.pairwise_of_forall_mem_list fun a ha b hb => ?_
      have hka : key a = k := by simpa using (List.mem_filter.mp ha).2
      have hkb : key b = k := by simpa using (List.mem_filter.mp hb).2
      rw [hle, hka, hkb]
    have hsub := (List.sublist_mergeSort htrans htotal hsame List.filter_sublist).filter
      fun x => Decidable.decide (key x = k)
    simp only [List.filter_filter, Bool.and_self] at hsub
    have hlength := ((List.mergeSort_perm given le).filter fun x => Decidable.decide (key x = k))
    exact (hsub.eq_of_length hlength.length_eq.symm).symm

end Stable

namespace Diagnostic

def place (d : Diagnostic) : ℕ ×ₗ ℕ := toLex (d.line, d.column)

/-- The diagnostics at one place of a file, in the given order. -/
def standing (ds : List Diagnostic) (fileName : String) (line column : Nat) : List Diagnostic :=
  ds.filter fun d => d.fileName = fileName ∧ d.line = line ∧ d.column = column

theorem place_eq_iff {d : Diagnostic} {line column : Nat} :
    d.place = toLex (line, column) ↔ d.line = line ∧ d.column = column := by
  simp [place]

theorem place_le_iff {a b : Diagnostic} :
    a.place ≤ b.place ↔ a.line < b.line ∨ a.line = b.line ∧ a.column ≤ b.column :=
  Prod.Lex.toLex_le_toLex

theorem positionLE_iff (a b : Diagnostic) : positionLE a b = true ↔ a.place ≤ b.place := by
  simp [positionLE, place_le_iff]

variable (ds : List Diagnostic) (l : Location)

theorem allMessages_stablySorted (whole : Bool) :
    StablySorted place (ds.filter (inFile l.fileName)) (relevant ds l .allMessages whole) :=
  mergeSort_stablySorted positionLE_iff _

theorem onLine_stablySorted :
    StablySorted column (ds.filter (onLine l)) (relevant ds l .onlyState true) :=
  mergeSort_stablySorted (fun a b => by simp [columnLE]) _

theorem allMessages_standing (whole : Bool) (line column : Nat) :
    (relevant ds l .allMessages whole).filter (·.place = toLex (line, column)) =
      standing ds l.fileName line column := by
  rw [(allMessages_stablySorted ds l whole).stable, List.filter_filter, standing]
  refine List.filter_congr fun d _ => ?_
  rw [Bool.eq_iff_iff]
  simp [inFile, place_eq_iff, and_comm]

theorem onLine_standing (column : Nat) :
    (relevant ds l .onlyState true).filter (·.column = column) =
      standing ds l.fileName l.line column := by
  rw [(onLine_stablySorted ds l).stable, List.filter_filter, standing]
  refine List.filter_congr fun d _ => ?_
  rw [Bool.eq_iff_iff]
  simp [onLine, and_assoc, and_left_comm, and_comm]

/-- What is shown on a line is what is shown of its file, less the other lines. -/
theorem relevant_onLine (whole : Bool) : relevant ds l .onlyState true =
    (relevant ds l .allMessages whole).filter (·.line = l.line) := by
  have hfile := (allMessages_stablySorted ds l whole).ordered
  refine eq_of_filter_key (onLine_stablySorted ds l).ordered ?_ fun column => ?_
  · refine (hfile.filter _).imp_of_mem fun {a b} ha hb hab => ?_
    have hla : a.line = l.line := by simpa using (List.mem_filter.mp ha).2
    have hlb : b.line = l.line := by simpa using (List.mem_filter.mp hb).2
    rw [place_le_iff, hla, hlb] at hab
    omega
  · calc (relevant ds l .onlyState true).filter (·.column = column)
        = standing ds l.fileName l.line column := onLine_standing ds l column
      _ = (relevant ds l .allMessages whole).filter (·.place = toLex (l.line, column)) :=
          (allMessages_standing ds l whole l.line column).symm
      _ = ((relevant ds l .allMessages whole).filter (·.line = l.line)).filter
            (·.column = column) := by
          rw [List.filter_filter]
          refine List.filter_congr fun d _ => ?_
          rw [Bool.eq_iff_iff]
          simp [place_eq_iff, and_comm]

end Diagnostic

end ProofPanel
