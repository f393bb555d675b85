import ProofPanel.Proofs.Json.Lines
import ProofPanel.Proofs.Json.RoundTrip

/-!
# Values come back from their lines

The text of a value holds no line break, whatever its strings hold, and neither begins nor ends with
a blank. So the line of a value ends where its text does, and trimming leaves the text as it is:
a stream of values says these values in their order, and nothing after them.
-/
namespace ProofPanel

/-! ## Text without blanks at its ends -/

namespace Text

structure Tight (text : List Char) : Prop where
  first : ∃ c ∈ text.head?, isBlank c = false
  last : ∃ c ∈ text.getLast?, isBlank c = false

variable {text : List Char}

theorem Tight.ne_nil (h : Tight text) : text ≠ [] := by
  rintro rfl
  obtain ⟨c, hc, -⟩ := h.first
  cases hc

theorem dropWhile_isBlank (h : ∃ c ∈ text.head?, isBlank c = false) :
    text.dropWhile isBlank = text := by
  obtain ⟨c, hc, hblank⟩ := h
  cases text with
  | nil => cases hc
  | cons d rest =>
    cases Option.some_inj.mp hc
    exact List.dropWhile_cons_of_neg (by simp [hblank])

theorem trim_of_tight (h : Tight text) : trim text = text := by
  have hlast : ∃ c ∈ text.reverse.head?, isBlank c = false := by
    rw [List.head?_reverse]
    exact h.last
  rw [trim, dropWhile_isBlank h.first, trimEnd, dropWhile_isBlank hlast, List.reverse_reverse]

theorem tight_of_solid (hne : text ≠ []) (h : ∀ c ∈ text, isBlank c = false) : Tight text where
  first := ⟨text.head hne, List.head?_eq_some_head hne, h _ (List.head_mem hne)⟩
  last := ⟨text.getLast hne, List.getLast?_eq_some_getLast hne, h _ (List.getLast_mem hne)⟩

theorem tight_enclosed {opening closing : Char} (ho : isBlank opening = false)
    (hc : isBlank closing = false) (inside : List Char) :
    Tight (opening :: inside ++ [closing]) where
  first := ⟨opening, rfl, ho⟩
  last := ⟨closing, List.getLast?_concat, hc⟩

end Text

/-! ## Numbers -/

def IsFigure (c : Char) : Prop := c.isDigit ∨ c ∈ ['-', '.', 'e']

instance : DecidablePred IsFigure := fun c => inferInstanceAs (Decidable (c.isDigit ∨ _))

theorem IsFigure.not_blank {c : Char} (h : IsFigure c) : Text.isBlank c = false := by
  rcases h with h | h
  · have hrange : 48 ≤ c.toNat ∧ c.toNat ≤ 57 := by
      simpa [Char.isDigit, Char.le_def, UInt32.le_iff_toNat_le] using h
    simp [Text.isBlank]
    omega
  · simp only [List.mem_cons, List.not_mem_nil, or_false] at h
    rcases h with rfl | rfl | rfl <;> decide

theorem isFigure_toDigits {n : Nat} {c : Char} (h : c ∈ Nat.toDigits 10 n) : IsFigure c :=
  .inl (Nat.isDigit_of_mem_toDigits (by decide) (by decide) h)

namespace Decimal

theorem isFigure_zeros (n : Nat) : ∀ c ∈ List.replicate n '0', IsFigure c := by
  intro c hc
  rw [List.eq_of_mem_replicate hc]
  decide

/-- The exponent's part of a number, from its mark on. -/
theorem isFigure_exponent (n : Int) :
    ∀ c ∈ 'e' :: (if n < 0 then ['-'] else []) ++ Nat.toDigits 10 n.natAbs, IsFigure c := by
  have hsign : ∀ c ∈ (if n < 0 then ['-'] else []), IsFigure c := by
    split_ifs <;> simp [IsFigure]
  rw [List.cons_append, List.forall_mem_cons, List.forall_mem_append]
  exact ⟨by decide, hsign, fun _ => isFigure_toDigits⟩

theorem isFigure_write (d : Scaled) : ∀ c ∈ d.write, IsFigure c := by
  have hzero : IsFigure '0' := by decide
  have hpoint : IsFigure '.' := by decide
  have hdigits : ∀ c ∈ Nat.toDigits 10 d.digits, IsFigure c := fun _ => isFigure_toDigits
  rw [Scaled.write]
  dsimp only
  split
  · simp only [List.forall_mem_append, List.forall_mem_cons]
    exact ⟨⟨hdigits, isFigure_zeros _⟩, hpoint, hzero, List.forall_mem_nil _⟩
  split
  · simp only [List.forall_mem_append, List.forall_mem_cons]
    exact ⟨fun c hc => hdigits c (List.mem_of_mem_take hc), hpoint,
      fun c hc => hdigits c (List.mem_of_mem_drop hc)⟩
  split
  · simp only [List.cons_append, List.forall_mem_append, List.forall_mem_cons]
    exact ⟨hzero, hpoint, isFigure_zeros _, hdigits⟩
  split
  · exact isFigure_exponent _
  · next digit heq =>
    rw [heq] at hdigits
    exact List.forall_mem_cons.mpr ⟨hdigits digit List.mem_cons_self, isFigure_exponent _⟩
  · next digit more _ heq =>
    rw [heq, List.forall_mem_cons] at hdigits
    have hfront : ∀ c ∈ digit :: '.' :: more, IsFigure c := by
      rw [List.forall_mem_cons, List.forall_mem_cons]
      exact ⟨hdigits.1, hpoint, hdigits.2⟩
    exact List.forall_mem_append.mpr ⟨hfront, isFigure_exponent _⟩

theorem write_ne_nil (d : Scaled) : d.write ≠ [] := by
  rw [Scaled.write]
  dsimp only
  split
  · simp
  split
  · simp
  split
  · simp
  split <;> simp

theorem isFigure_ofFloat (x : Float) : ∀ c ∈ (ofFloat x).toList, IsFigure c := by
  have hzero : ∀ c ∈ ['0', '.', '0'], IsFigure c := by simp [IsFigure]
  rw [ofFloat]
  dsimp only
  rw [String.toList_ofList]
  split_ifs
  · rw [List.forall_mem_cons]
    refine ⟨by decide, ?_⟩
    split
    · exact hzero
    · exact isFigure_write _
  · split
    · exact hzero
    · exact isFigure_write _

theorem ofFloat_ne_nil (x : Float) : (ofFloat x).toList ≠ [] := by
  rw [ofFloat]
  dsimp only
  rw [String.toList_ofList]
  split_ifs
  · exact List.cons_ne_nil _ _
  · split
    · exact List.cons_ne_nil _ _
    · exact write_ne_nil _

end Decimal

namespace Json

theorem isFigure_writeInt (n : Int) : ∀ c ∈ writeInt n, IsFigure c := by
  cases n with
  | ofNat n => exact fun _ => isFigure_toDigits
  | negSucc n => exact List.forall_mem_cons.mpr ⟨by decide, fun _ => isFigure_toDigits⟩

theorem writeInt_ne_nil (n : Int) : writeInt n ≠ [] := by
  cases n with
  | ofNat n => exact Nat.toDigits_ne_nil
  | negSucc n => exact List.cons_ne_nil _ _

/-! ## The text of a value -/

theorem tight_of_figures {text : List Char} (hne : text ≠ []) (h : ∀ c ∈ text, IsFigure c) :
    Text.Tight text := Text.tight_of_solid hne fun c hc => (h c hc).not_blank

theorem writeItems_eq_concat (items : List Json) : ∃ inside, writeItems items = inside ++ [']'] := by
  induction items with
  | nil => exact ⟨[], rfl⟩
  | cons item items ih =>
    obtain ⟨inside, h⟩ := ih
    exact ⟨',' :: write item ++ inside, by rw [writeItems, h, List.append_assoc]⟩

theorem writeMembers_eq_concat (members : Members) :
    ∃ inside, writeMembers members = inside ++ ['\x7d'] := by
  induction members with
  | nil => exact ⟨[], rfl⟩
  | cons member members ih =>
    obtain ⟨inside, h⟩ := ih
    exact ⟨',' :: quote member.1 ++ ':' :: write member.2 ++ inside,
      by simp only [writeMembers, h, List.append_assoc, List.cons_append]⟩

/-- No value is written with blanks at the ends, not even a string of blanks. -/
theorem tight_write (value : Json) : Text.Tight (write value) := by
  cases value with
  | null => exact Text.tight_enclosed (by decide) (by decide) ['u', 'l']
  | bool b =>
    cases b with
    | true => exact Text.tight_enclosed (by decide) (by decide) ['r', 'u']
    | false => exact Text.tight_enclosed (by decide) (by decide) ['a', 'l', 's']
  | int n => exact tight_of_figures (writeInt_ne_nil n) (isFigure_writeInt n)
  | float x =>
    exact tight_of_figures (Decimal.ofFloat_ne_nil x) (Decimal.isFigure_ofFloat x)
  | str s => exact Text.tight_enclosed (by decide) (by decide) _
  | arr items =>
    cases items with
    | nil => exact Text.tight_enclosed (by decide) (by decide) []
    | cons item items =>
      obtain ⟨inside, h⟩ := writeItems_eq_concat items
      rw [write, h, ← List.append_assoc]
      exact Text.tight_enclosed (by decide) (by decide) _
  | obj members =>
    rcases members with _ | ⟨⟨key, value⟩, members⟩
    · exact Text.tight_enclosed (by decide) (by decide) []
    · obtain ⟨inside, h⟩ := writeMembers_eq_concat members
      rw [write, h, ← List.append_assoc]
      exact Text.tight_enclosed (by decide) (by decide) _

theorem newline_notMem_figures {text : List Char} (h : ∀ c ∈ text, IsFigure c) : '\n' ∉ text := by
  intro hn
  exact absurd (h _ hn).not_blank (by decide)

theorem newline_notMem_escapeChar (c : Char) : '\n' ∉ escapeChar c := by
  unfold escapeChar
  split_ifs with h1 h2 h3 h4 h5 h6 h7 h8
  · decide
  · decide
  · decide
  · decide
  · decide
  · decide
  · decide
  · have hdigit : ∀ n < 16, hexDigit n ≠ '\n' := by decide
    have hhigh := hdigit (c.toNat / 16) (by omega)
    have hlow := hdigit (c.toNat % 16) (by omega)
    simp [hhigh.symm, hlow.symm]
  · rw [List.mem_singleton]
    exact Ne.symm h5

theorem newline_notMem_quote (s : String) : '\n' ∉ quote s := by
  simp [quote, newline_notMem_escapeChar]

mutual

/-- The text of a value is one line. -/
theorem newline_notMem_write : (value : Json) → '\n' ∉ write value
  | .null => by decide
  | .bool true => by decide
  | .bool false => by decide
  | .int n => newline_notMem_figures (isFigure_writeInt n)
  | .float x => newline_notMem_figures (Decimal.isFigure_ofFloat x)
  | .str s => newline_notMem_quote s
  | .arr [] => by decide
  | .arr (item :: rest) => by
    simp [write, newline_notMem_write item, newline_notMem_writeItems rest]
  | .obj [] => by decide
  | .obj ((key, value) :: rest) => by
    simp [write, newline_notMem_quote key, newline_notMem_write value,
      newline_notMem_writeMembers rest]

theorem newline_notMem_writeItems : (items : List Json) → '\n' ∉ writeItems items
  | [] => by decide
  | item :: rest => by
    simp [writeItems, newline_notMem_write item, newline_notMem_writeItems rest]

theorem newline_notMem_writeMembers : (members : Members) → '\n' ∉ writeMembers members
  | [] => by decide
  | (key, value) :: rest => by
    simp [writeMembers, newline_notMem_quote key, newline_notMem_write value,
      newline_notMem_writeMembers rest]

end

/-! ## Its line -/

theorem newline_notMem_encode (value : Json) : newline ∉ Utf8.encode (write value) := by
  have hoctet : newline = UInt8.ofNat '\n'.toNat := rfl
  rw [hoctet, Utf8.mem_encode_iff (by decide)]
  exact newline_notMem_write value

theorem lines_of_notMem {octets : List UInt8} (h : newline ∉ octets) (hne : octets ≠ []) :
    lines octets = [octets] := by
  have hkeep : ∀ b ∈ octets, (b != newline) = true := by
    intro b hb
    rw [bne_iff_ne]
    rintro rfl
    exact h hb
  rw [lines_of_ne_nil hne, List.takeWhile_eq_self_iff.mpr hkeep,
    List.dropWhile_eq_nil_iff.mpr hkeep]
  rfl

/-- A value that is read back from its text is read back from its line. -/
theorem readLine_write {value : Json} (h : parse value.print = .ok value) :
    readLine (Utf8.encode (write value)) = some (.ok value) := by
  have htight := tight_write value
  have hdecode : Utf8.decode? (Utf8.encode (write value)) = some (write value) :=
    Utf8.decode?_eq_some_iff.mpr rfl
  have hparse : parseWithin maxDepth (write value) = .ok value := by
    rwa [parse, print, String.toList_ofList] at h
  simp only [readLine, hdecode, Text.trim_of_tight htight]
  split
  · next hnil => exact absurd hnil htight.ne_nil
  · rw [hparse]
    rfl

theorem readAll_write {value : Json} (h : parse value.print = .ok value) :
    readAll (Utf8.encode (write value)) = [.ok value] := by
  have hread := readLine_write h
  have hne : Utf8.encode (write value) ≠ [] := by
    intro hnil
    rw [hnil, readLine_nil] at hread
    cases hread
  -- Without a line break in it, the text is the only line.
  rw [readAll_eq_filterMap, lines_of_notMem (newline_notMem_encode value) hne,
    List.filterMap_cons_some hread, List.filterMap_nil]

theorem readAll_nil : readAll [] = [] := by rw [readAll_eq_filterMap]; rfl

theorem readAll_flatMap_writeLine {values : List Json}
    (h : ∀ value ∈ values, parse value.print = .ok value) :
    readAll (values.flatMap writeLine) = values.map .ok := by
  induction values with
  | nil => exact readAll_nil
  | cons value values ih =>
    rw [List.forall_mem_cons] at h
    rw [List.flatMap_cons, writeLine, List.append_assoc, List.singleton_append,
      readAll_append_newline, readAll_write h.1, ih h.2]
    rfl

theorem count_newline_flatMap (values : List Json) :
    (values.flatMap writeLine).count newline = values.length := by
  induction values with
  | nil => rfl
  | cons value values ih =>
    rw [List.flatMap_cons, List.count_append, ih, writeLine, List.count_append,
      List.count_eq_zero.mpr (newline_notMem_encode value), List.length_cons]
    simp [Nat.add_comm]

/-- Values that are read back from their texts are read back from a stream of them, in their order
and with nothing after them, and they take a line each. Values that nest no deeper than the reader
goes and hold no floats are read back from their texts. -/
theorem written_lines :
    (∀ values : List Json, (values.flatMap writeLine).count newline = values.length) ∧
    (∀ values : List Json, (∀ value ∈ values, parse value.print = .ok value) →
      ∀ results, Drained (values.flatMap writeLine) results ↔ results = values.map .ok) ∧
    ∀ value, Exact maxDepth value → parse value.print = .ok value := by
  refine ⟨count_newline_flatMap, fun values h results => ?_, fun value => parse_print⟩
  rw [drained_iff, readAll_flatMap_writeLine h]

/-- Strings of blanks and line breaks, an empty one, and one inside an object with an empty key. -/
theorem written_lines_blank :
    let values : List Json := [.str "\n \r\u0085\u2028", .str "", .obj [("", .arr [.str "\n"])]]
    (∀ value ∈ values, Exact maxDepth value) ∧
      (∀ value ∈ values, parse value.print = .ok value) ∧
      Drained (values.flatMap writeLine) (values.map .ok) ∧
      (values.flatMap writeLine).count newline = 3 := by
  intro values
  have hexact : ∀ value ∈ values, Exact maxDepth value := by
    simp [values, Exact, maxDepth]
  have hparse : ∀ value ∈ values, parse value.print = .ok value := fun value hv =>
    written_lines.2.2 value (hexact value hv)
  exact ⟨hexact, hparse, (written_lines.2.1 values hparse _).mpr rfl, written_lines.1 values⟩

end Json

end ProofPanel
