import ProofPanel.Proofs.Markup.Reader

/-!
# Tags and texts of tokens

The tags that tokens put into a page, and what is left of coloured text when the strong elements
are taken out: the text as it was.
-/
namespace ProofPanel

namespace Markup

namespace Content

def put (tokens : List Token) (c : Content) : Content := tokens.foldr Token.before c

theorem put_append (tokens more : List Token) (c : Content) :
    c.put (tokens ++ more) = (c.put more).put tokens := List.foldr_append

end Content

/-- Blocks on lines of their own: the first one, and each other one behind a line break. -/
theorem flatten_intersperse {α : Type} (f : α → List Token) (x : α) (xs : List α) :
    (((x :: xs).map f).intersperse [lineBreak]).flatten =
      f x ++ xs.flatMap fun next => lineBreak :: f next := by
  induction xs generalizing x with
  | nil => simp
  | cons next xs ih =>
    have hnext := ih next
    rw [List.map_cons] at hnext
    rw [List.map_cons, List.map_cons, List.intersperse_cons_cons, List.flatten_cons,
      List.flatten_cons, hnext]
    rfl

/-! ## Tags without their values -/

def Token.shape? : Token → Option Shape
  | .opening name attributes => some ⟨false, name, attributes.map Attribute.name⟩
  | .closing name => some ⟨true, name, []⟩
  | .text _ => none

def shapes (tokens : List Token) : List Shape := tokens.filterMap Token.shape?

theorem Content.shapes_ofTokens (tokens : List Token) :
    (Content.ofTokens tokens).shapes = Markup.shapes tokens := by
  induction tokens with
  | nil => rfl
  | cons token tokens ih =>
    cases token with
    | opening name attributes =>
      have hnames : attributes.map (·.field.name) = attributes.map Attribute.name :=
        List.map_congr_left fun a _ => by cases a <;> rfl
      change ⟨false, name, (attributes.map Attribute.field).map (·.name)⟩ ::
        (Content.ofTokens tokens).shapes = _
      rw [ih, List.map_map]
      exact congrArg (fun names => (⟨false, name, names⟩ : Shape) :: _) hnames
    | closing name => exact congrArg (⟨true, name, []⟩ :: ·) ih
    | text content => exact ih

@[simp] theorem shapes_nil : shapes [] = [] := rfl

@[simp] theorem shapes_append (tokens more : List Token) :
    shapes (tokens ++ more) = shapes tokens ++ shapes more := List.filterMap_append

@[simp] theorem shapes_opening (name : String) (attributes : List Attribute)
    (tokens : List Token) :
    shapes (.opening name attributes :: tokens) =
      ⟨false, name, attributes.map Attribute.name⟩ :: shapes tokens := rfl

@[simp] theorem shapes_closing (name : String) (tokens : List Token) :
    shapes (.closing name :: tokens) = ⟨true, name, []⟩ :: shapes tokens := rfl

@[simp] theorem shapes_said (content : String) (tokens : List Token) :
    shapes (said content :: tokens) = shapes tokens := rfl

@[simp] theorem shapes_lineBreak (tokens : List Token) :
    shapes (lineBreak :: tokens) = shapes tokens := rfl

def framed (name : String) (fields : List String) (inner : List Shape) : List Shape :=
  ⟨false, name, fields⟩ :: inner ++ [⟨true, name, []⟩]

@[simp] theorem shapes_element (name : String) (attributes : List Attribute)
    (content : List Token) : shapes (element name attributes content) =
      framed name (attributes.map Attribute.name) (shapes content) := by
  simp [element, framed]

/-! ## Colours -/

/-- Without its strong elements, what is marked up says the plain tokens. -/
def Uncoloured (tokens plain : List Token) : Prop :=
  ∀ c : Content, (c.put tokens).without "strong" = (c.without "strong").put plain

theorem uncoloured_nil : Uncoloured [] [] := fun _ => rfl

theorem Uncoloured.append {tokens plain more plainMore : List Token} (h : Uncoloured tokens plain)
    (hmore : Uncoloured more plainMore) : Uncoloured (tokens ++ more) (plain ++ plainMore) := by
  intro c
  rw [Content.put_append, Content.put_append, h, hmore]

theorem Uncoloured.flatMap {α : Type} {f g : α → List Token} (h : ∀ x, Uncoloured (f x) (g x))
    (xs : List α) : Uncoloured (xs.flatMap f) (xs.flatMap g) := by
  induction xs with
  | nil => exact uncoloured_nil
  | cons x xs ih =>
    rw [List.flatMap_cons, List.flatMap_cons]
    exact (h x).append ih

theorem uncoloured_opening (name : String) (h : name ≠ "strong")
    (attributes : List Attribute) :
    Uncoloured [.opening name attributes] [.opening name attributes] := by
  intro c
  exact (Content.without_behind "strong" _).trans (if_neg h)

theorem uncoloured_closing (name : String) (h : name ≠ "strong") :
    Uncoloured [.closing name] [.closing name] := by
  intro c
  exact (Content.without_behind "strong" _).trans (if_neg h)

theorem uncoloured_text (content : List Char) : Uncoloured [.text content] [.text content] :=
  fun _ => Content.without_said "strong" content

theorem Uncoloured.element {tokens plain : List Token} (h : Uncoloured tokens plain)
    (name : String) (hname : name ≠ "strong") (attributes : List Attribute) :
    Uncoloured (element name attributes tokens) (element name attributes plain) :=
  ((uncoloured_opening name hname attributes).append h).append (uncoloured_closing name hname)

theorem uncoloured_colourLine (line : List Char) :
    Uncoloured (colourLine line) [.text line] := by
  unfold colourLine
  split
  · exact uncoloured_text line
  · rename_i mark n _
    intro c
    have hjoin : line.take n ++ line.drop n = line := List.take_append_drop n line
    change (((((c.said (line.drop n)).behind _).said (line.take n)).behind _).without _) = _
    rw [Content.without_behind, if_pos rfl, Content.without_said, Content.without_behind,
      if_pos rfl, Content.without_said, Content.said_said, hjoin]
    rfl

/-- A text in two parts is the whole text. -/
theorem Uncoloured.join {tokens : List Token} {text more : List Char}
    (h : Uncoloured tokens [.text text, .text more]) : Uncoloured tokens [.text (text ++ more)] := by
  intro c
  rw [h]
  exact Content.said_said text more

theorem uncoloured_lines (first : List Char) (rest : List (List Char)) :
    Uncoloured (colourLine first ++ rest.flatMap fun line => lineBreak :: colourLine line)
      [.text (['\n'].intercalate (first :: rest))] := by
  induction rest generalizing first with
  | nil => simpa using uncoloured_colourLine first
  | cons next rest ih =>
    rw [List.intercalate_cons_cons, List.append_assoc]
    exact ((uncoloured_colourLine first).append
      ((uncoloured_text ['\n']).append (ih next)).join).join

/-- Without colours a text is what it was. -/
theorem uncoloured_colour (text : String) : Uncoloured (colour text) [said text] := by
  have hjoin : ['\n'].intercalate (text.toList.splitOn '\n') = text.toList :=
    List.intercalate_splitOn '\n'
  unfold colour said
  cases hlines : text.toList.splitOn '\n' with
  | nil => exact absurd hlines (List.splitOn_ne_nil _ _)
  | cons first rest =>
    rw [← hjoin, hlines]
    exact uncoloured_lines first rest

end Markup

end ProofPanel
