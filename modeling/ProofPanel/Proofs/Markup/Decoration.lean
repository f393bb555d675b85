import ProofPanel.Proofs.Markup.Colour

/-!
# Colouring decorates

A coloured text is the escaped text, line by line, with the beginning of some lines in a strong
element. The rules that work on the whole text write what the tokens of the page write, and whoever
deletes the tags again has the escaped text.
-/
namespace ProofPanel.Markup

/-! ## Lines of a text -/

/-- A text is a line, or a line and what stands behind its line break. -/
theorem lines_induction {motive : List Char → Prop} (line : ∀ l, '\n' ∉ l → motive l)
    (newline : ∀ l more, '\n' ∉ l → motive more → motive (l ++ '\n' :: more))
    (text : List Char) : motive text := by
  induction hn : text.length using Nat.strong_induction_on generalizing text with
  | h n ih =>
    by_cases hbreak : '\n' ∈ text
    · obtain ⟨l, more, rfl, hl⟩ := List.eq_append_cons_of_mem hbreak
      refine newline l more hl (ih more.length ?_ more rfl)
      rw [← hn, List.length_append, List.length_cons]
      omega
    · exact line text hbreak

def decoratedLine (line : List Char) : List Char :=
  decorated (escapeChars line) (firstMarks? rules (escapeChars line))

theorem newline_notMem_escapeChars {line : List Char} (h : '\n' ∉ line) :
    '\n' ∉ escapeChars line := (mem_escapeChars (by decide) line).not.mpr h

theorem colorizeChars_line {line : List Char} (h : '\n' ∉ line) :
    colorizeChars line = decoratedLine line := by
  rw [colorizeChars, foldl_replace_line rules (newline_notMem_escapeChars h),
    foldl_applied skipsTags_rules]
  rfl

theorem colorizeChars_cons_newline {line : List Char} (h : '\n' ∉ line) (more : List Char) :
    colorizeChars (line ++ '\n' :: more) = decoratedLine line ++ '\n' :: colorizeChars more := by
  have hescaped : escapeChars (line ++ '\n' :: more) =
      escapeChars line ++ '\n' :: escapeChars more := escapeChars_append line _
  rw [colorizeChars, hescaped, foldl_replace_newline rules (newline_notMem_escapeChars h),
    foldl_applied skipsTags_rules]
  rfl

theorem colorizeChars_newline (text more : List Char) :
    colorizeChars (text ++ '\n' :: more) = colorizeChars text ++ '\n' :: colorizeChars more := by
  induction text using lines_induction with
  | line l hl => rw [colorizeChars_cons_newline hl, colorizeChars_line hl]
  | newline l between hl ih =>
    rw [List.append_assoc, List.cons_append, colorizeChars_cons_newline hl, ih,
      colorizeChars_cons_newline hl, List.append_assoc, List.cons_append]

/-! ## Tokens and rules -/

theorem write_opening (mark : Mark) :
    (Token.opening "strong" [.valued "class" mark.className]).write = mark.opening := by
  cases mark <;> decide

theorem decoratedLine_of_none {line : List Char} (h : '\n' ∉ line) (hmark : mark? line = none) :
    decoratedLine line = escapeChars line := by
  rw [decoratedLine, firstMarks?_rules h, hmark]
  rfl

theorem decoratedLine_of_some {line : List Char} (h : '\n' ∉ line) {mark : Mark} {n : Nat}
    (hmark : mark? line = some (mark, n)) :
    decoratedLine line = mark.opening ++ (escapeChars (line.take n) ++
      (strongClosing ++ escapeChars (line.drop n))) := by
  have hsplit : escapeChars line = escapeChars (line.take n) ++ escapeChars (line.drop n) := by
    rw [← escapeChars_append, List.take_append_drop]
  have hdrop : (escapeChars line).drop (escapeChars (line.take n)).length =
      escapeChars (line.drop n) := by
    rw [hsplit, List.drop_left]
  rw [decoratedLine, firstMarks?_rules h, hmark]
  simp only [Option.map_some, decorated, hdrop, List.append_assoc]

/-- What is marked is not empty. -/
theorem take_ne_nil_of_mark? {line : List Char} (h : '\n' ∉ line) {mark : Mark} {n : Nat}
    (hmark : mark? line = some (mark, n)) : line.take n ≠ [] := by
  have hfirst : firstMarks? rules (escapeChars line) = some (mark, escapeChars (line.take n)) := by
    rw [firstMarks?_rules h, hmark]
    rfl
  obtain ⟨r, -, hr⟩ := List.exists_of_findSome?_eq_some hfirst
  obtain ⟨marked, hmarked, heq⟩ := Option.map_eq_some_iff.mp hr
  obtain ⟨hne, -⟩ := Rule.eq_append_of_marks? hmarked
  intro hnil
  rw [hnil] at heq
  exact hne (congrArg Prod.snd heq)

theorem write_colourLine {line : List Char} (h : '\n' ∉ line) :
    (colourLine line).flatMap Token.write = decoratedLine line := by
  have htext (content : List Char) : (Token.text content).write = escapeChars content := rfl
  have hclosing : (Token.closing "strong").write = strongClosing := by decide
  rw [colourLine]
  cases hmark : mark? line with
  | none =>
    rw [decoratedLine_of_none h hmark]
    simp [htext]
  | some found =>
    rw [decoratedLine_of_some h hmark]
    simp only [element, List.flatMap_cons, List.flatMap_nil, List.cons_append, List.nil_append,
      write_opening, hclosing, htext, List.append_nil]

/-- What the tokens of a coloured text write is what the rules make of it. -/
theorem flatMap_write_colour (text : List Char) :
    (colour (.ofList text)).flatMap Token.write = colorizeChars text := by
  induction text using lines_induction with
  | line l hl =>
    rw [colour, String.toList_ofList, List.splitOn_eq_singleton hl, colorizeChars_line hl,
      ← write_colourLine hl]
    simp
  | newline l more hl ih =>
    rw [colorizeChars_cons_newline hl, ← ih, ← write_colourLine hl]
    have hbreak : lineBreak.write = ['\n'] := by decide
    simp only [colour, String.toList_ofList]
    rw [List.splitOn_append_cons_self_of_not_mem hl]
    cases hlines : more.splitOn '\n' with
    | nil => exact absurd hlines (List.splitOn_ne_nil '\n' more)
    | cons first rest => simp [hbreak]

/-! ## Deleting the tags -/

def strongTags : List (List Char) :=
  strongClosing :: [Mark.turnstile, .goals, .caseTag, .hypothesis].map Mark.opening

/-- Deletes the tags of strong elements from left to right. `tag` tells how many characters of a
tag are still to come. -/
def dropTags (tag : Nat) : List Char → List Char
  | [] => []
  | c :: rest =>
    match tag with
    | tag + 1 => dropTags tag rest
    | 0 =>
      match strongTags.find? (·.isPrefixOf (c :: rest)) with
      | none => c :: dropTags 0 rest
      | some tag => dropTags (tag.length - 1) rest

def withoutStrong (html : String) : String := .ofList (dropTags 0 html.toList)

theorem dropTags_text {text : List Char} (h : '<' ∉ text) (rest : List Char) :
    dropTags 0 (text ++ rest) = text ++ dropTags 0 rest := by
  induction text with
  | nil => rfl
  | cons c text ih =>
    obtain ⟨hc, htext⟩ := not_or.mp (mt List.mem_cons.mpr h)
    have hnone : strongTags.find? (·.isPrefixOf (c :: (text ++ rest))) = none := by
      refine List.find?_eq_none.mpr fun tag htag hprefix => ?_
      have hbegins : ∀ tag ∈ strongTags, tag.head? = some '<' := by decide
      obtain ⟨name, rfl⟩ := List.head?_eq_some_iff.mp (hbegins tag htag)
      exact hc (List.cons_prefix_cons.mp (List.isPrefixOf_iff_prefix.mp hprefix)).1
    rw [List.cons_append, dropTags, hnone]
    exact congrArg (c :: ·) (ih htext)

theorem dropTags_within (text rest : List Char) :
    dropTags text.length (text ++ rest) = dropTags 0 rest := by
  induction text with
  | nil => rfl
  | cons c text ih => exact ih

theorem find?_tag {tag : List Char} (h : tag ∈ strongTags) (rest : List Char) :
    strongTags.find? (·.isPrefixOf (tag ++ rest)) = some tag := by
  simp only [strongTags, List.map_cons, List.map_nil, List.mem_cons, List.not_mem_nil,
    or_false] at h
  rcases h with rfl | rfl | rfl | rfl | rfl <;> rfl

theorem dropTags_tag {tag : List Char} (h : tag ∈ strongTags) (rest : List Char) :
    dropTags 0 (tag ++ rest) = dropTags 0 rest := by
  have hfind := find?_tag h rest
  cases tag with
  | nil => rfl
  | cons c tag =>
    rw [List.cons_append] at hfind ⊢
    rw [dropTags, hfind]
    exact dropTags_within tag rest

theorem opening_mem_strongTags (mark : Mark) : mark.opening ∈ strongTags := by
  cases mark <;> decide

/-- Without its tags a coloured line is the escaped line. -/
theorem dropTags_decoratedLine {line : List Char} (h : '\n' ∉ line) (rest : List Char) :
    dropTags 0 (decoratedLine line ++ rest) = escapeChars line ++ dropTags 0 rest := by
  have hless (text : List Char) : '<' ∉ escapeChars text := notMem_escapeChars (.inl rfl) text
  cases hmark : mark? line with
  | none => rw [decoratedLine_of_none h hmark, dropTags_text (hless line)]
  | some found =>
    obtain ⟨mark, n⟩ := found
    have hclosing : strongClosing ∈ strongTags := List.mem_cons_self
    rw [decoratedLine_of_some h hmark]
    simp only [List.append_assoc]
    rw [dropTags_tag (opening_mem_strongTags mark), dropTags_text (hless _), dropTags_tag hclosing,
      dropTags_text (hless _), ← List.append_assoc, ← escapeChars_append, List.take_append_drop]

theorem dropTags_colorizeChars (text : List Char) :
    dropTags 0 (colorizeChars text) = escapeChars text := by
  induction text using lines_induction with
  | line l hl =>
    have hline := dropTags_decoratedLine hl []
    rwa [List.append_nil, dropTags, List.append_nil, ← colorizeChars_line hl] at hline
  | newline l more hl ih =>
    have hbreak : dropTags 0 ('\n' :: colorizeChars more) =
        '\n' :: dropTags 0 (colorizeChars more) :=
      dropTags_text (by decide : '<' ∉ ['\n']) _
    rw [colorizeChars_cons_newline hl, dropTags_decoratedLine hl, hbreak, ih, escapeChars_append]
    rfl

/-! ## Whole texts -/

theorem write_colour (text : String) : write (colour text) = colorize text := by
  rw [write, colorize, ← flatMap_write_colour, String.ofList_toList]

theorem colorize_newline (text more : String) :
    colorize (text ++ "\n" ++ more) = colorize text ++ "\n" ++ colorize more := by
  have hsplit : (text ++ "\n" ++ more).toList = text.toList ++ '\n' :: more.toList := by simp
  rw [colorize, hsplit, colorizeChars_newline]
  simp [colorize, String.ofList_append, String.append_assoc]

theorem colorize_line {line : String} (h : '\n' ∉ line.toList) :
    colorize line = escape line ∨
      ∃ (mark : Mark) (front behind : String), front ≠ "" ∧ line = front ++ behind ∧
        colorize line = "<strong class=\"" ++ mark.className ++ "\">" ++ escape front ++
          "</strong>" ++ escape behind := by
  rw [colorize, colorizeChars_line h]
  cases hmark : mark? line.toList with
  | none =>
    left
    rw [decoratedLine_of_none h hmark, escape]
  | some found =>
    obtain ⟨mark, n⟩ := found
    refine .inr ⟨mark, .ofList (line.toList.take n), .ofList (line.toList.drop n), ?_, ?_, ?_⟩
    · have hne := take_ne_nil_of_mark? h hmark
      simpa using hne
    · rw [← String.ofList_append, List.take_append_drop, String.ofList_toList]
    · have hopening : String.ofList mark.opening =
          "<strong class=\"" ++ mark.className ++ "\">" := String.ofList_toList
      have hclosing : String.ofList strongClosing = "</strong>" := String.ofList_toList
      rw [decoratedLine_of_some h hmark]
      simp only [String.ofList_append, hopening, hclosing, escape, String.toList_ofList,
        String.append_assoc]

/-- Colouring sets nothing but tags around text. The tokens of a coloured text write what the rules
make of it; they work line by line; a line is escaped, and a part at its beginning may stand in one
strong element that no entity is cut by; without the tags the text is the escaped text. -/
theorem colour_decorates :
    (∀ text, write (colour text) = colorize text) ∧
      (∀ text more, colorize (text ++ "\n" ++ more) = colorize text ++ "\n" ++ colorize more) ∧
      (∀ line, '\n' ∉ line.toList → colorize line = escape line ∨
        ∃ (mark : Mark) (front behind : String), front ≠ "" ∧ line = front ++ behind ∧
          colorize line = "<strong class=\"" ++ mark.className ++ "\">" ++ escape front ++
            "</strong>" ++ escape behind) ∧
      ∀ text, withoutStrong (colorize text) = escape text := by
  refine ⟨write_colour, colorize_newline, fun line h => colorize_line h, fun text => ?_⟩
  rw [withoutStrong, colorize, String.toList_ofList, dropTags_colorizeChars, escape]

/-- An entity in the names of a hypothesis stays whole. -/
theorem colour_decorates_names :
    '\n' ∉ "a<b c : T".toList ∧ (colorize "a<b c : T" = escape "a<b c : T" ∨
      ∃ (mark : Mark) (front behind : String), front ≠ "" ∧ "a<b c : T" = front ++ behind ∧
        colorize "a<b c : T" = "<strong class=\"" ++ mark.className ++ "\">" ++ escape front ++
          "</strong>" ++ escape behind) ∧
    colorize "a<b c : T" = "<strong class=\"goal-hyp\">a&lt;b c</strong> : T" :=
  ⟨by decide, colour_decorates.2.2.1 "a<b c : T" (by decide), by decide⟩

end ProofPanel.Markup
