import Mathlib.Data.List.Basic
import ProofPanel.Markup.Colour

/-!
# Reading markup

A reader knows tags, names, attribute values in single and in double quotes and the five entities,
but nothing of how a text came about. In a text that was written as markup it finds the tags that
were written and no others, and in between and in the values the texts as they were meant.
-/
namespace ProofPanel.Markup

/-! ## The content of a page -/

inductive Quote
  | single
  | double
deriving DecidableEq

def Quote.mark : Quote → Char
  | .single => '\x27'
  | .double => '\x22'

structure Field where
  name : String
  quote : Quote
  value : List Char
deriving DecidableEq

structure Tag where
  closing : Bool
  name : String
  fields : List Field := []
deriving DecidableEq

structure Shape where
  closing : Bool
  name : String
  fields : List String := []
deriving DecidableEq

def Tag.shape (tag : Tag) : Shape := ⟨tag.closing, tag.name, tag.fields.map (·.name)⟩

/-- The tags of a page, each with the text up to the next one, and the text before all tags. -/
structure Content where
  text : List Char := []
  tags : List (Tag × List Char) := []
deriving DecidableEq

def Field.map (f : List Char → List Char) (field : Field) : Field :=
  { field with value := f field.value }

def Tag.map (f : List Char → List Char) (tag : Tag) : Tag :=
  { tag with fields := tag.fields.map (Field.map f) }

namespace Content

def said (text : List Char) (c : Content) : Content := { c with text := text ++ c.text }

def behind (tag : Tag) (c : Content) : Content := { tags := (tag, c.text) :: c.tags }

def map (f : List Char → List Char) (c : Content) : Content :=
  ⟨f c.text, c.tags.map fun (tag, text) => (tag.map f, f text)⟩

def shapes (c : Content) : List Shape := c.tags.map (·.1.shape)

/-- The content without the tags of a name; the texts on both sides of such a tag become one. -/
def without (name : String) (c : Content) : Content :=
  let drop (first : Tag × List Char) (rest : Content) : Content :=
    if first.1.name = name then rest.said first.2 else (rest.said first.2).behind first.1
  (c.tags.foldr drop {}).said c.text

variable {c : Content}

@[simp] theorem said_nil (c : Content) : c.said [] = c := rfl

@[simp] theorem said_said (text more : List Char) :
    (c.said more).said text = c.said (text ++ more) := by
  simp [said]

theorem map_said (text : List Char) :
    (c.said text).map escapeChars = (c.map escapeChars).said (escapeChars text) := by
  simp [map, said, escapeChars]

theorem map_behind (tag : Tag) :
    (c.behind tag).map escapeChars = (c.map escapeChars).behind (tag.map escapeChars) := rfl

theorem shapes_map (f : List Char → List Char) (c : Content) : (c.map f).shapes = c.shapes := by
  simp [shapes, map, Tag.shape, Tag.map, Field.map, Function.comp_def]

theorem without_said (name : String) (text : List Char) :
    (c.said text).without name = (c.without name).said text := by
  simp [without, said]

theorem without_behind (name : String) (tag : Tag) :
    (c.behind tag).without name =
      if tag.name = name then c.without name else (c.without name).behind tag := by
  simp only [without, behind, List.foldr_cons, said_nil]

/-- Whether a tag is left out depends on its name alone. -/
theorem without_map (name : String) (c : Content) :
    (c.map escapeChars).without name = (c.without name).map escapeChars := by
  obtain ⟨text, tags⟩ := c
  induction tags generalizing text with
  | nil => simp [without, map, said, escapeChars]
  | cons first tags ih =>
    have hsplit (text : List Char) (tag : Tag) (more : List Char) :
        (⟨text, (tag, more) :: tags⟩ : Content) = ((⟨more, tags⟩ : Content).behind tag).said text := by
      simp [said, behind]
    rw [hsplit, map_said, map_behind, without_said, without_said, without_behind, without_behind,
      ih, map_said]
    have hname : (first.1.map escapeChars).name = first.1.name := rfl
    rw [hname]
    split
    · rfl
    · rw [map_behind]

end Content

/-! ## Entities -/

def unescape : List Char → List Char
  | '&' :: 'a' :: 'm' :: 'p' :: ';' :: rest => '&' :: unescape rest
  | '&' :: 'l' :: 't' :: ';' :: rest => '<' :: unescape rest
  | '&' :: 'g' :: 't' :: ';' :: rest => '>' :: unescape rest
  | '&' :: 'q' :: 'u' :: 'o' :: 't' :: ';' :: rest => '\x22' :: unescape rest
  | '&' :: '#' :: '0' :: '3' :: '9' :: ';' :: rest => '\x27' :: unescape rest
  | c :: rest => c :: unescape rest
  | [] => []

theorem unescape_plain {c : Char} (h : c ≠ '&') (rest : List Char) :
    unescape (c :: rest) = c :: unescape rest := by
  rw [unescape]
  all_goals
    intros
    exact h ‹_›

theorem unescape_escapeChar (c : Char) (rest : List Char) :
    unescape (escapeChar c ++ rest) = c :: unescape rest := by
  unfold escapeChar
  split_ifs with hand hless hgreater hquote happly
  · rw [hand]
    rfl
  · rw [hless]
    rfl
  · rw [hgreater]
    rfl
  · rw [hquote]
    rfl
  · rw [happly]
    rfl
  · exact unescape_plain hand rest

theorem unescape_escapeChars (text : List Char) : unescape (escapeChars text) = text := by
  induction text with
  | nil => rfl
  | cons c text ih =>
    rw [escapeChars, List.flatMap_cons, unescape_escapeChar]
    exact congrArg (c :: ·) ih

theorem Content.map_unescape (c : Content) : (c.map escapeChars).map unescape = c := by
  simp [map, Tag.map, Field.map, Function.comp_def, unescape_escapeChars]

/-- What stands in a page for a character is no tag and ends no attribute value. -/
theorem notMem_escapeChars {c : Char} (h : c = '<' ∨ c = '\x22' ∨ c = '\x27') (text : List Char) :
    c ∉ escapeChars text := by
  intro hmem
  obtain ⟨d, _, hd⟩ := List.mem_flatMap.mp hmem
  unfold escapeChar at hd
  split_ifs at hd with hand hless hgreater hquote happly
  case neg =>
    rw [List.mem_singleton.mp hd] at h
    rcases h with h | h | h
    · exact hless h
    · exact hquote h
    · exact happly h
  all_goals
    rcases h with rfl | rfl | rfl <;> revert hd <;> decide

/-! ## The reader -/

inductive Spot
  | text
  /-- Behind the bracket that opens a tag. -/
  | opened
  | name (closing : Bool) (name : List Char)
  /-- Before an attribute. -/
  | before (tag : Tag)
  | field (tag : Tag) (name : List Char)
  /-- Before an attribute's value. -/
  | equals (tag : Tag) (name : List Char)
  | value (tag : Tag) (name : List Char) (quote : Quote) (value : List Char)
  | after (tag : Tag)
deriving DecidableEq

inductive Found
  | nothing
  | character (c : Char)
  | tag (tag : Tag)

def Found.before : Found → Content → Content
  | .nothing, content => content
  | .character c, content => content.said [c]
  | .tag t, content => content.behind t

def isNameChar (c : Char) : Bool := c.isAlphanum || c = '-'

def leave (tag : Tag) (c : Char) : Option (Spot × Found) :=
  if c = '>' then some (.text, .tag tag)
  else if c = ' ' then some (.before tag, .nothing)
  else none

/-- Where a character leads to and what is found with it, unless it does not belong there. -/
def Spot.step : Spot → Char → Option (Spot × Found)
  | .text, c => if c = '<' then some (.opened, .nothing) else some (.text, .character c)
  | .opened, c =>
    if c = '/' then some (.name true [], .nothing)
    else if isNameChar c then some (.name false [c], .nothing)
    else none
  | .name closing begun, c =>
    if isNameChar c then some (.name closing (begun ++ [c]), .nothing)
    else leave { closing, name := .ofList begun } c
  | .before tag, c => if isNameChar c then some (.field tag [c], .nothing) else none
  | .field tag begun, c =>
    if isNameChar c then some (.field tag (begun ++ [c]), .nothing)
    else if c = '=' then some (.equals tag begun, .nothing)
    else none
  | .equals tag begun, c =>
    if c = Quote.double.mark then some (.value tag begun .double [], .nothing)
    else if c = Quote.single.mark then some (.value tag begun .single [], .nothing)
    else none
  | .value tag begun quote said, c =>
    if c = quote.mark then
      some (.after { tag with fields := tag.fields ++ [⟨.ofList begun, quote, said⟩] }, .nothing)
    else some (.value tag begun quote (said ++ [c]), .nothing)
  | .after tag, c => leave tag c

def read (spot : Spot) : List Char → Option Content
  | [] => if spot = .text then some {} else none
  | c :: rest =>
    match spot.step c with
    | none => none
    | some (next, found) => (read next rest).map found.before

theorem read_found {spot next : Spot} {c : Char} {found : Found}
    (h : spot.step c = some (next, found)) (rest : List Char) :
    read spot (c :: rest) = (read next rest).map found.before := by
  rw [read, h]

theorem read_on {spot next : Spot} {c : Char} (h : spot.step c = some (next, .nothing))
    (rest : List Char) : read spot (c :: rest) = read next rest := by
  rw [read_found h]
  exact Option.map_id_apply

/-! ## Reading tokens -/

def Attribute.name : Attribute → String
  | .valued name _ => name
  | .bare name => name

def Attribute.field : Attribute → Field
  | .valued name value => ⟨name, .double, value.toList⟩
  | .bare name => ⟨name, .single, []⟩

def Token.before : Token → Content → Content
  | .opening name attributes, c =>
    c.behind { closing := false, name, fields := attributes.map Attribute.field }
  | .closing name, c => c.behind { closing := true, name }
  | .text content, c => c.said content

namespace Content

def ofTokens (tokens : List Token) : Content := tokens.foldr Token.before {}

end Content

def isName (name : String) : Bool := name != "" && name.toList.all isNameChar

def Token.isProper : Token → Bool
  | .opening name attributes => isName name && attributes.all (isName ·.name)
  | .closing name => isName name
  | .text _ => true

theorem read_text {text : List Char} (h : '<' ∉ text) (rest : List Char) :
    read .text (text ++ rest) = (read .text rest).map (·.said text) := by
  induction text with
  | nil => simp
  | cons c text ih =>
    obtain ⟨hc, htext⟩ := not_or.mp (mt List.mem_cons.mpr h)
    have hstep : Spot.text.step c = some (.text, .character c) := if_neg (Ne.symm hc)
    rw [List.cons_append, read_found hstep, ih htext, Option.map_map]
    simp [Function.comp_def, Found.before]

/-- Characters that a spot only collects. -/
theorem read_collected (spot : List Char → Spot) {text : List Char}
    (h : ∀ c ∈ text, ∀ begun, (spot begun).step c = some (spot (begun ++ [c]), .nothing))
    (begun rest : List Char) :
    read (spot begun) (text ++ rest) = read (spot (begun ++ text)) rest := by
  induction text generalizing begun with
  | nil => simp
  | cons c text ih =>
    have hstep := h c List.mem_cons_self begun
    rw [List.cons_append, read_on hstep, ih fun d hd => h d (List.mem_cons_of_mem c hd)]
    simp

theorem read_name {name : List Char} (h : name.all isNameChar) (closing : Bool)
    (begun rest : List Char) :
    read (.name closing begun) (name ++ rest) = read (.name closing (begun ++ name)) rest :=
  read_collected (.name closing) (fun c hc _ => if_pos (List.all_eq_true.mp h c hc)) begun rest

theorem read_field {name : List Char} (h : name.all isNameChar) (tag : Tag)
    (begun rest : List Char) :
    read (.field tag begun) (name ++ rest) = read (.field tag (begun ++ name)) rest :=
  read_collected (.field tag) (fun c hc _ => if_pos (List.all_eq_true.mp h c hc)) begun rest

theorem read_value {value : List Char} {quote : Quote} (h : quote.mark ∉ value) (tag : Tag)
    (name begun rest : List Char) :
    read (.value tag name quote begun) (value ++ rest) =
      read (.value tag name quote (begun ++ value)) rest := by
  have hgoes : ∀ c ∈ value, c ≠ quote.mark := fun c hc he => h (he ▸ hc)
  exact read_collected (.value tag name quote) (fun c hc _ => if_neg (hgoes c hc)) begun rest

theorem exists_cons_of_isName {name : String} (h : isName name) :
    ∃ c rest, name.toList = c :: rest ∧ isNameChar c ∧ rest.all isNameChar := by
  obtain ⟨hne, hall⟩ := Bool.and_eq_true_iff.mp h
  cases hn : name.toList with
  | nil =>
    rw [String.toList_eq_nil_iff.mp hn] at hne
    cases hne
  | cons c rest =>
    rw [hn] at hall
    obtain ⟨hc, hrest⟩ := Bool.and_eq_true_iff.mp hall
    exact ⟨c, rest, rfl, hc, hrest⟩

/-- A quoted value with its name, behind the space that separates it. -/
theorem read_quoted {name : String} (h : isName name) {quote : Quote} {value : List Char}
    (hv : quote.mark ∉ value) (tag : Tag) (rest : List Char) :
    read (.before tag) (name.toList ++ '=' :: quote.mark :: value ++ quote.mark :: rest) =
      read (.after { tag with fields := tag.fields ++ [⟨name, quote, value⟩] }) rest := by
  obtain ⟨c, more, hn, hc, hmore⟩ := exists_cons_of_isName h
  have hname : String.ofList ([c] ++ more) = name := by
    rw [List.singleton_append, ← hn, String.ofList_toList]
  have hbegin : (Spot.before tag).step c = some (.field tag [c], .nothing) := if_pos hc
  have hequals (begun : List Char) :
      (Spot.field tag begun).step '=' = some (.equals tag begun, .nothing) := rfl
  have hopen (begun : List Char) :
      (Spot.equals tag begun).step quote.mark = some (.value tag begun quote [], .nothing) := by
    cases quote <;> rfl
  have hclose (begun value : List Char) : (Spot.value tag begun quote value).step quote.mark =
      some (.after { tag with fields := tag.fields ++ [⟨.ofList begun, quote, value⟩] },
        .nothing) := if_pos rfl
  rw [hn]
  simp only [List.cons_append, List.append_assoc]
  rw [read_on hbegin, read_field hmore, read_on (hequals _), read_on (hopen _), read_value hv,
    read_on (hclose _ _), List.nil_append, hname]

def Spot.tag? : Spot → Option Tag
  | .name closing begun => some { closing, name := .ofList begun }
  | .after tag => some tag
  | _ => none

theorem step_leave {spot : Spot} {tag : Tag} (h : spot.tag? = some tag) {c : Char}
    (hc : isNameChar c = false) : spot.step c = leave tag c := by
  cases spot with
  | name closing begun =>
    cases h
    exact if_neg (Bool.eq_false_iff.mp hc)
  | after tag =>
    cases h
    rfl
  | _ => cases h

/-- Behind a name or an attribute a space leads to the next attribute. -/
theorem read_space {spot : Spot} {tag : Tag} (h : spot.tag? = some tag) (rest : List Char) :
    read spot (' ' :: rest) = read (.before tag) rest :=
  read_on (step_leave h (by decide)) rest

theorem read_end {spot : Spot} {tag : Tag} (h : spot.tag? = some tag) (rest : List Char) :
    read spot ('>' :: rest) = (read .text rest).map (·.behind tag) :=
  read_found (step_leave h (c := '>') (by decide)) rest

theorem read_attribute {a : Attribute} (h : isName a.name) {spot : Spot}
    {tag : Tag} (hs : spot.tag? = some tag) (rest : List Char) :
    read spot (a.write ++ rest) = read
      (.after { tag with fields := tag.fields ++ [a.field.map escapeChars] }) rest := by
  cases a with
  | valued name value =>
    have hv : Quote.double.mark ∉ escapeChars value.toList := notMem_escapeChars (by decide) _
    refine Eq.trans ?_ (read_quoted h hv tag rest)
    simp only [Attribute.write, List.cons_append, List.append_assoc, List.nil_append]
    rw [read_space hs]
    rfl
  | bare name =>
    have hv : Quote.single.mark ∉ ([] : List Char) := List.not_mem_nil
    refine Eq.trans ?_ (read_quoted h hv tag rest)
    simp only [Attribute.write, List.cons_append, List.append_assoc, List.nil_append]
    rw [read_space hs]
    rfl

theorem read_attributes {attributes : List Attribute} (h : attributes.all (isName ·.name))
    {spot : Spot} {tag : Tag} (hs : spot.tag? = some tag) (rest : List Char) :
    read spot (attributes.flatMap Attribute.write ++ '>' :: rest) =
      (read .text rest).map (·.behind { tag with
        fields := tag.fields ++ attributes.map fun a => a.field.map escapeChars }) := by
  induction attributes generalizing spot tag with
  | nil =>
    simp only [List.flatMap_nil, List.nil_append, List.map_nil, List.append_nil]
    rw [read_end hs]
  | cons a attributes ih =>
    obtain ⟨hfirst, hothers⟩ := Bool.and_eq_true_iff.mp h
    rw [List.flatMap_cons, List.append_assoc, read_attribute hfirst hs, ih hothers rfl]
    simp

/-- A token is read as it is meant, in escaped form. -/
theorem read_token {token : Token} (h : token.isProper) {rest : List Char} {c : Content}
    (hrest : read .text rest = some (c.map escapeChars)) :
    read .text (token.write ++ rest) = some ((token.before c).map escapeChars) := by
  have hopen : Spot.text.step '<' = some (.opened, .nothing) := rfl
  cases token with
  | text content =>
    rw [Token.write, read_text (notMem_escapeChars (.inl rfl) content), hrest, Token.before,
      Content.map_said]
    rfl
  | closing name =>
    obtain ⟨_, hname⟩ := Bool.and_eq_true_iff.mp h
    have hslash : Spot.opened.step '/' = some (.name true [], .nothing) := rfl
    have htag : (Spot.name true ([] ++ name.toList)).tag? = some ⟨true, name, []⟩ := by
      simp [Spot.tag?]
    simp only [Token.write, List.cons_append, List.append_assoc, List.nil_append]
    rw [read_on hopen, read_on hslash, read_name hname, read_end htag, hrest]
    rfl
  | opening name attributes =>
    obtain ⟨hname, hattributes⟩ := Bool.and_eq_true_iff.mp h
    obtain ⟨first, more, hn, hfirst, hmore⟩ := exists_cons_of_isName hname
    have hslash : first ≠ '/' := by
      rintro rfl
      cases hfirst
    have hbegin : Spot.opened.step first = some (.name false [first], .nothing) :=
      (if_neg hslash).trans (if_pos hfirst)
    have htag : (Spot.name false ([first] ++ more)).tag? = some ⟨false, name, []⟩ := by
      simp [Spot.tag?, ← hn]
    simp only [Token.write, hn, List.cons_append, List.append_assoc, List.nil_append]
    rw [read_on hopen, read_on hbegin, read_name hmore, read_attributes hattributes htag, hrest]
    simp [Token.before, Content.map_behind, Tag.map, Function.comp_def]

/-- Whatever texts and values the tokens have, they are read back, and no other tags. -/
theorem read_write {tokens : List Token} (h : tokens.all Token.isProper) :
    read .text (tokens.flatMap Token.write) =
      some ((Content.ofTokens tokens).map escapeChars) := by
  induction tokens with
  | nil => rfl
  | cons token tokens ih =>
    obtain ⟨hfirst, hothers⟩ := Bool.and_eq_true_iff.mp h
    exact read_token hfirst (ih hothers)

end ProofPanel.Markup
