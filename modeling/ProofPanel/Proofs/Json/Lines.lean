import Mathlib.Data.List.Forall2
import Mathlib.Data.List.TakeWhile
import Mathlib.Data.String.Basic
import ProofPanel.Json.Lines
import ProofPanel.Proofs.Text.Utf8

/-!
# A stream is what its lines say

The stream is cut at its line breaks, and each line is read on its own: it says nothing if it is
blank, and one thing if it is not. Whatever a line holds, the lines next to it say what they would
say without it.
-/
namespace ProofPanel

/-! ## Trimmed text -/

theorem Text.trim_eq_nil_iff {text : List Char} : trim text = [] ↔ ∀ c ∈ text, isBlank c := by
  have hends : trim text = [] ↔ ∀ c ∈ text.dropWhile isBlank, isBlank c := by
    simp only [trim, trimEnd, List.reverse_eq_nil_iff, List.dropWhile_eq_nil_iff,
      List.mem_reverse]
  rw [hends]
  constructor
  · intro h c hc
    have hparts : text.takeWhile isBlank ++ text.dropWhile isBlank = text :=
      List.takeWhile_append_dropWhile
    rw [← hparts, List.mem_append] at hc
    exact hc.elim List.mem_takeWhile_imp (h c)
  · exact fun h c hc => h c (List.dropWhile_subset isBlank hc)

namespace Json

/-! ## Lines -/

/-- The lines of a stream, without their breaks. The last one may lack a break. -/
def lines : List UInt8 → List (List UInt8)
  | [] => []
  | b :: rest =>
    if b = newline then [] :: lines rest
    else
      match lines rest with
      | [] => [[b]]
      | line :: more => (b :: line) :: more

theorem lines_newline (rest : List UInt8) : lines (newline :: rest) = [] :: lines rest := by
  simp [lines]

theorem lines_cons_of_ne {b : UInt8} (hb : b ≠ newline) (rest : List UInt8) :
    lines (b :: rest) = (b :: (lines rest).headD []) :: (lines rest).tail := by
  cases h : lines rest <;> simp [lines, hb, h]

theorem newline_notMem_of_mem_lines {octets line : List UInt8} (h : line ∈ lines octets) :
    newline ∉ line := by
  induction octets generalizing line with
  | nil => simp [lines] at h
  | cons b rest ih =>
    by_cases hb : b = newline
    · subst hb
      rw [lines_newline] at h
      rcases List.mem_cons.1 h with rfl | h
      · exact List.not_mem_nil
      · exact ih h
    · rw [lines_cons_of_ne hb] at h
      rcases List.mem_cons.1 h with rfl | h
      · cases hr : lines rest with
        | nil => simp [Ne.symm hb]
        | cons first more => simp [Ne.symm hb, ih (show first ∈ lines rest by simp [hr])]
      · exact ih (List.mem_of_mem_tail h)

/-- The lines make up the stream, but for the break that the last one may lack. -/
theorem flatMap_lines (octets : List UInt8) :
    (lines octets).flatMap (· ++ [newline]) = octets ∨
      (lines octets).flatMap (· ++ [newline]) = octets ++ [newline] := by
  induction octets with
  | nil => exact .inl rfl
  | cons b rest ih =>
    by_cases hb : b = newline
    · subst hb
      simpa [lines_newline] using ih
    · rw [lines_cons_of_ne hb]
      cases hr : lines rest with
      | nil =>
        have hrest : rest = [] := by simpa [hr] using ih
        simp [hrest]
      | cons line more => simpa [hr] using ih

theorem lines_ne_nil {octets : List UInt8} (h : octets ≠ []) : lines octets ≠ [] := by
  cases octets with
  | nil => exact absurd rfl h
  | cons b rest =>
    by_cases hb : b = newline
    · subst hb
      simp [lines_newline]
    · simp [lines_cons_of_ne hb]

/-- What follows a line break begins a line. -/
theorem lines_append_newline (before after : List UInt8) :
    lines (before ++ newline :: after) = lines (before ++ [newline]) ++ lines after := by
  induction before with
  | nil => simp [lines_newline, lines]
  | cons b before ih =>
    by_cases hb : b = newline
    · subst hb
      simp [lines_newline, ih]
    · have hne : lines (before ++ [newline]) ≠ [] := lines_ne_nil (by simp)
      obtain ⟨line, more, hl⟩ := List.exists_cons_of_ne_nil hne
      simp [lines_cons_of_ne hb, ih, hl]

/-- A break at the end ends the last line, or else an empty one. -/
theorem lines_snoc_newline (octets : List UInt8) :
    lines (octets ++ [newline]) = lines octets ∨
      lines (octets ++ [newline]) = lines octets ++ [[]] := by
  induction octets with
  | nil => exact .inr rfl
  | cons b rest ih =>
    by_cases hb : b = newline
    · subst hb
      simpa [lines_newline] using ih
    · rw [List.cons_append, lines_cons_of_ne hb, lines_cons_of_ne hb]
      rcases ih with h | h
      · exact .inl (by rw [h])
      · rw [h]
        cases lines rest with
        | nil => exact .inl rfl
        | cons line more => exact .inr (by simp)

/-! ## Reading on to the end -/

/-- The first line, and the lines of what is left when it is cut off. -/
theorem lines_of_ne_nil {octets : List UInt8} (h : octets ≠ []) :
    lines octets = octets.takeWhile (· != newline) ::
      lines ((octets.dropWhile (· != newline)).drop 1) := by
  induction octets with
  | nil => exact absurd rfl h
  | cons b octets ih =>
    by_cases hb : b = newline
    · subst hb
      simp [lines_newline]
    · cases octets with
      | nil => simp [lines, hb]
      | cons b' octets =>
        rw [lines_cons_of_ne hb, ih (List.cons_ne_nil b' octets)]
        simp [hb]

theorem lines_of_nextLine? {octets line rest : List UInt8}
    (h : nextLine? octets = some (line, rest)) : lines octets = line :: lines rest := by
  unfold nextLine? at h
  split at h
  · cases h
  next hne =>
    cases h
    exact lines_of_ne_nil hne

theorem filterMap_lines_of_next?_none {octets : List UInt8} (h : next? octets = none) :
    (lines octets).filterMap readLine = [] := by
  fun_induction next? octets with
  | case1 octets hnext =>
    unfold nextLine? at hnext
    split at hnext
    · rfl
    · cases hnext
  | case2 => cases h
  | case3 octets line rest hnext hread ih =>
    rw [lines_of_nextLine? hnext, List.filterMap_cons_none hread, ih h]

theorem filterMap_lines_of_next? {octets rest : List UInt8} {result : Except LineFault Json}
    (h : next? octets = some (result, rest)) :
    (lines octets).filterMap readLine = result :: (lines rest).filterMap readLine := by
  fun_induction next? octets with
  | case1 => cases h
  | case2 octets line after hnext found hread =>
    cases h
    rw [lines_of_nextLine? hnext, List.filterMap_cons_some hread]
  | case3 octets line after hnext hread ih =>
    rw [lines_of_nextLine? hnext, List.filterMap_cons_none hread, ih h]

theorem readAll_eq_filterMap (octets : List UInt8) :
    readAll octets = (lines octets).filterMap readLine := by
  fun_induction readAll octets with
  | case1 octets hnext => rw [filterMap_lines_of_next?_none hnext]
  | case2 octets result rest hnext ih => rw [filterMap_lines_of_next? hnext, ih]

theorem readLine_nil : readLine [] = none := rfl

theorem readAll_append_newline (before after : List UInt8) :
    readAll (before ++ newline :: after) = readAll before ++ readAll after := by
  have hbefore : (lines (before ++ [newline])).filterMap readLine = readAll before := by
    rw [readAll_eq_filterMap]
    rcases lines_snoc_newline before with h | h
    · rw [h]
    · rw [h, List.filterMap_append, List.filterMap_cons_none readLine_nil, List.filterMap_nil,
        List.append_nil]
  rw [readAll_eq_filterMap, lines_append_newline, List.filterMap_append, hbefore,
    ← readAll_eq_filterMap]

inductive Drained : List UInt8 → List (Except LineFault Json) → Prop
  | done {octets : List UInt8} (nothing : next? octets = none) : Drained octets []
  | more {octets rest : List UInt8} {result : Except LineFault Json}
      {results : List (Except LineFault Json)} (read : next? octets = some (result, rest))
      (later : Drained rest results) : Drained octets (result :: results)

theorem drained_iff {octets : List UInt8} {results : List (Except LineFault Json)} :
    Drained octets results ↔ results = readAll octets := by
  constructor
  · intro h
    induction h with
    | done nothing => rw [readAll_eq_filterMap, filterMap_lines_of_next?_none nothing]
    | more read later ih =>
      rw [ih, readAll_eq_filterMap, readAll_eq_filterMap, filterMap_lines_of_next? read]
  · rintro rfl
    fun_induction readAll octets with
    | case1 octets hnext => exact .done hnext
    | case2 octets result rest hnext ih => exact .more hnext ih

/-! ## What one line says -/

/-- What a line says: nothing if it is blank text, what its text says without the blanks at its ends
if there is anything else in it, and a fault if it is no text. -/
inductive Says : List UInt8 → List (Except LineFault Json) → Prop
  | blank {text : List Char} (blank : ∀ c ∈ text, Text.isBlank c) : Says (Utf8.encode text) []
  | value {text : List Char} {value : Json} (full : ∃ c ∈ text, ¬ Text.isBlank c)
      (parsed : parse (.ofList (Text.trim text)) = .ok value) : Says (Utf8.encode text) [.ok value]
  | notJson {text : List Char} {fault : Fault} (full : ∃ c ∈ text, ¬ Text.isBlank c)
      (refused : parse (.ofList (Text.trim text)) = .error fault) :
      Says (Utf8.encode text) [.error (.notJson fault)]
  | notText {line : List UInt8} (nothing : ∀ text, line ≠ Utf8.encode text) :
      Says line [.error .notText]

theorem says_readLine (line : List UInt8) : Says line (readLine line).toList := by
  cases hd : Utf8.decode? line with
  | none =>
    have hnothing : ∀ text, line ≠ Utf8.encode text := fun text heq => by
      rw [Utf8.decode?_eq_some_iff.2 heq] at hd
      cases hd
    have hread : readLine line = some (.error .notText) := by simp only [readLine, hd]
    rw [hread]
    exact .notText hnothing
  | some text =>
    obtain rfl := Utf8.decode?_eq_some_iff.1 hd
    by_cases hblank : ∀ c ∈ text, Text.isBlank c
    · have hread : readLine (Utf8.encode text) = none := by
        simp only [readLine, hd, Text.trim_eq_nil_iff.2 hblank]
      rw [hread]
      exact .blank hblank
    · have hfull : ∃ c ∈ text, ¬ Text.isBlank c := by simpa using hblank
      have hread : readLine (Utf8.encode text) =
          some ((parse (.ofList (Text.trim text))).mapError .notJson) := by
        cases ht : Text.trim text with
        | nil => exact absurd (Text.trim_eq_nil_iff.1 ht) hblank
        | cons c rest => simp only [readLine, hd, ht, parse, String.toList_ofList]
      rw [hread]
      cases hp : parse (.ofList (Text.trim text)) with
      | error fault => exact .notJson hfull hp
      | ok value => exact .value hfull hp

/-- Lines never spoil one another: two streams joined by a line break say what they say apart.
Reading comes to an end on every stream, and what it gives is what its lines say in their order, no
more than one result for each. -/
theorem readAll_lines :
    (∀ before after, readAll (before ++ newline :: after) = readAll before ++ readAll after) ∧
    ∀ octets,
      (∀ results, Drained octets results ↔ results = readAll octets) ∧
      (readAll octets).length ≤ (lines octets).length ∧
      (∃ parts, List.Forall₂ Says (lines octets) parts ∧ readAll octets = parts.flatten) ∧
      (∀ line ∈ lines octets, newline ∉ line) ∧
      ((lines octets).flatMap (· ++ [newline]) = octets ∨
        (lines octets).flatMap (· ++ [newline]) = octets ++ [newline]) := by
  refine ⟨readAll_append_newline, fun octets => ⟨fun _ => drained_iff, ?_, ?_,
    fun _ => newline_notMem_of_mem_lines, flatMap_lines octets⟩⟩
  · rw [readAll_eq_filterMap]
    exact List.length_filterMap_le readLine (lines octets)
  · refine ⟨(lines octets).map fun line => (readLine line).toList, ?_, ?_⟩
    · rw [List.forall₂_map_right_iff]
      exact List.forall₂_same.2 fun line _ => says_readLine line
    · rw [readAll_eq_filterMap, List.filterMap_eq_flatMap_toList, List.flatMap_def]

/-- A line that is no text, before a value whose line has no break. -/
theorem readAll_lines_no_text :
    [0xFF] ∈ lines ([0xFF] ++ newline :: [0x31]) ∧ newline ∉ [(0xFF : UInt8)] ∧
      readAll ([0xFF] ++ newline :: [0x31]) = [.error .notText, .ok (.int 1)] := by
  have hline : [0xFF] ∈ lines ([0xFF] ++ newline :: [0x31]) := by decide
  refine ⟨hline, (readAll_lines.2 _).2.2.2.1 _ hline, ?_⟩
  rw [readAll_lines.1, readAll_eq_filterMap, readAll_eq_filterMap]
  rfl

end Json

end ProofPanel
