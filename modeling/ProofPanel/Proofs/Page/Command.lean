import ProofPanel.Command
import ProofPanel.Markup.Token
import ProofPanel.Proofs.Json.RoundTrip
import ProofPanel.Proofs.Text.FileUri

/-!
# Commands in URIs

The URI of a command is read back as that command, with the file name in normal form. It is made of
characters that stand for themselves in HTML.
-/
namespace ProofPanel

namespace Location

def Fits (l : Location) : Prop := l.line < UInt64.size ∧ l.column < UInt64.size

def normalized (l : Location) : Location := { l with fileName := FileUri.normal l.fileName }

theorem normalized_eq_self_iff (l : Location) :
    l.normalized = l ↔ FileUri.normal l.fileName = l.fileName := by
  cases l
  simp [normalized]

end Location

namespace Command

def target? : Command → Option Location
  | .reveal target | .hover target => some target
  | _ => none

def normalized : Command → Command
  | .reveal target => .reveal target.normalized
  | .hover target => .hover target.normalized
  | c => c

theorem normalized_eq_self_iff (c : Command) :
    c.normalized = c ↔ ∀ l, c.target? = some l → FileUri.normal l.fileName = l.fileName := by
  cases c <;> simp [normalized, target?, Location.normalized_eq_self_iff]

variable {c : Command}

/-! ## Arguments -/

theorem exact_placeArguments {l : Location} (h : l.Fits) (depth : Nat) :
    Json.Exact (depth + 1) (placeArguments l) := by
  intro item hitem
  simp only [List.mem_cons, List.not_mem_nil, or_false] at hitem
  rcases hitem with rfl | rfl | rfl
  · cases depth <;> exact trivial
  · have := h.1
    cases depth <;> (refine ⟨?_, ?_⟩ <;> omega)
  · have := h.2
    cases depth <;> (refine ⟨?_, ?_⟩ <;> omega)

theorem exact_arguments (h : ∀ l, c.target? = some l → l.Fits) :
    Json.Exact Json.maxDepth c.arguments := by
  cases c with
  | reveal target => exact exact_placeArguments (h target rfl) _
  | hover target => exact exact_placeArguments (h target rfl) _
  | _ => exact fun item hitem => absurd hitem List.not_mem_nil

theorem fileOfUri?_ofFileName (fileName : String) :
    fileOfUri? (FileUri.ofFileName fileName) = some (FileUri.normal fileName) := by
  have hscheme : FileUri.scheme.isPrefixOf (FileUri.ofFileName fileName).toList = true := by
    rw [FileUri.ofFileName, String.toList_ofList]
    exact List.isPrefixOf_iff_prefix.mpr (List.prefix_append _ _)
  rw [fileOfUri?, if_pos hscheme, FileUri.toFileName?_ofFileName]

theorem placeOfArguments_placeArguments (l : Location) :
    placeOfArguments (placeArguments l) = .ok l.normalized := by
  simp only [placeOfArguments, placeArguments, Json.asString?, Json.ofNat, fileOfUri?_ofFileName]
  rfl

/-- A command's name and arguments are understood. -/
theorem ofArguments_arguments (c : Command) : ofArguments c.id c.arguments = .ok c.normalized := by
  cases c with
  | reveal target => simp [ofArguments, id, arguments, placeOfArguments_placeArguments, normalized]
  | hover target => simp [ofArguments, id, arguments, placeOfArguments_placeArguments, normalized]
  | setMode mode => cases mode <;> rfl
  | _ => rfl

/-! ## URIs -/

theorem id_no_mark (c : Command) : ∀ x ∈ c.id.toList, (x != '?') = true := by
  have hall : c.id.toList.all (· != '?') = true := by
    unfold id
    split <;> rfl
  exact List.all_eq_true.mp hall

theorem toList_toUri (c : Command) :
    c.toUri.toList = scheme ++ (c.id.toList ++
      '?' :: (Percent.encodeComponent c.arguments.print).toList) := by
  simp [toUri]

theorem print_arguments_ne_nil (c : Command) : c.arguments.print.toList ≠ [] := by
  cases c <;> simp [arguments, placeArguments, Json.print, Json.write]

/-- The URI of a command is read back as that command, with the file name in normal form. -/
theorem ofUri_toUri (h : ∀ l, c.target? = some l → l.Fits) : ofUri c.toUri = .ok c.normalized := by
  generalize hq : (Percent.encodeComponent c.arguments.print).toList = query
  have htake := @List.takeWhile_append_of_pos _ _ _ ('?' :: query) c.id_no_mark
  have hdrop := @List.dropWhile_append_of_pos _ _ _ ('?' :: query) c.id_no_mark
  rw [List.takeWhile_cons_of_neg (by decide), List.append_nil] at htake
  rw [List.dropWhile_cons_of_neg (by decide)] at hdrop
  have hdecode : Percent.decode (.ofList query) = c.arguments.print := by
    rw [← hq, String.ofList_toList, Percent.decode_encodeComponent]
  rw [ofUri, toList_toUri, hq, FileUri.isPrefixOf?_append]
  dsimp only
  rw [htake, hdrop, String.ofList_toList]
  split
  · next hnil => cases hnil
  · next heq =>
    cases heq
    exact absurd hq (Percent.encodeComponent_ne_nil c.print_arguments_ne_nil)
  · next heq =>
    cases heq
    rw [hdecode, Json.parse_print (exact_arguments h)]
    exact c.ofArguments_arguments

/-! ## In a page -/

theorem escapeChar_percent : Markup.escapeChar '%' = ['%'] := by decide

theorem escapeChar_unreserved {c : Char} (h : Percent.Unreserved c) :
    Markup.escapeChar c = [c] := by
  have hne {d : Char} (hd : ¬ Percent.Unreserved d) : c ≠ d := by
    rintro rfl
    exact hd h
  rw [Markup.escapeChar, if_neg (hne (by decide)), if_neg (hne (by decide)),
    if_neg (hne (by decide)), if_neg (hne (by decide)), if_neg (hne (by decide))]

theorem escapeChars_eq_self {text : List Char} (h : ∀ c ∈ text, Markup.escapeChar c = [c]) :
    Markup.escapeChars text = text := by
  rw [Markup.escapeChars, List.flatMap_congr h, List.flatMap_singleton']

/-- The URI of a command stands in a page as it is. -/
theorem escape_toUri (c : Command) : Markup.escape c.toUri = c.toUri := by
  have hid : ∀ x ∈ scheme ++ (c.id.toList ++ ['?']), Markup.escapeChar x = [x] := by
    have hall : (scheme ++ (c.id.toList ++ ['?'])).all (fun x => Markup.escapeChar x == [x]) =
        true := by
      unfold id
      split <;> rfl
    exact fun x hx => eq_of_beq (List.all_eq_true.mp hall x hx)
  have hquery : ∀ x ∈ (Percent.encodeComponent c.arguments.print).toList,
      Markup.escapeChar x = [x] := by
    intro x hx
    rcases Percent.mem_encodeComponent hx with rfl | hx
    · exact escapeChar_percent
    · exact escapeChar_unreserved hx
  rw [Markup.escape, escapeChars_eq_self, String.ofList_toList]
  intro x hx
  have hsplit : c.toUri.toList = scheme ++ (c.id.toList ++ ['?']) ++
      (Percent.encodeComponent c.arguments.print).toList := by
    rw [toList_toUri]
    simp
  rw [hsplit, List.mem_append] at hx
  exact hx.elim (hid x) (hquery x)

end Command

end ProofPanel
