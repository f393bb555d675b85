import ProofPanel.Proofs.Markup.Outline
import ProofPanel.Proofs.Page.Head

/-!
# What a reader finds in a page

The tags of a page are fixed but for five things: whether there is a location, the mode, whether
the engine has stopped, whether a goal is shown, and how many diagnostics there are. Every string
of a snapshot stands in a text or in a double-quoted value and can be read there as it is; colours
only add strong elements.
-/
namespace ProofPanel.Page

open Markup

/-! ## The page without its colours -/

def lineColumn (d : Diagnostic) : String := ":" ++ toString d.line ++ ":" ++ toString d.column

def heading (d : Diagnostic) : String :=
  Path.baseName d.fileName ++ lineColumn d ++ ": " ++ d.severity.name ++ " " ++ d.caption

def plainGoal (goal : String) : List Token :=
  element "div" [.valued "id" "goal"]
    (element "h1" [] [said "Tactic State"] ++ element "pre" [] [said goal]) ++ [lineBreak]

def plainMessage (d : Diagnostic) : List Token :=
  element "div"
    [.valued "class" ("message " ++ d.severity.name), .valued "data-line" (toString d.line),
     .valued "data-column" (toString d.column)]
    (element "h1" [.valued "title" (d.fileName ++ lineColumn d)]
      (element "a" [.valued "href" (Command.reveal ⟨d.fileName, d.line, d.column⟩).toUri]
        [said (heading d)]) ++
     element "pre" [] [said d.text])

def bodyAttributes (l : Location) (mode : Mode) (stopped : Bool) : List Attribute :=
  [.valued "data-uri" (FileUri.ofFileName l.fileName), .valued "data-line" (toString l.line),
   .valued "data-column" (toString l.column)] ++
  (if mode = .allMessages then [.bare "data-messages"] else []) ++
  (if stopped then [.bare "data-paused"] else [])

/-- Where the strings of a snapshot stand in its page. -/
def outline (s : Snapshot) (a : Assets) : List Token :=
  match s.location with
  | none => element "body" [] [said "No file active"] ++ [.closing "html"]
  | some l =>
    element "body" (bodyAttributes l s.mode s.stopped)
      (lineBreak :: runState a ++ (s.shownGoal?.map plainGoal).getD [] ++
        element "div" [.valued "id" "messages"]
          ((s.messages.map plainMessage).intersperse [lineBreak]).flatten ++ [lineBreak]) ++
    [.closing "html"]

theorem uncoloured_runLink (id word title icon : String) (command : Command) :
    Uncoloured (runLink id word title icon command) (runLink id word title icon command) := by
  have himg := uncoloured_opening "img" (by decide)
    [.valued "title" title, .valued "src" icon]
  have hlink := himg.element "a" (by decide) [.valued "href" command.toUri]
  exact (((uncoloured_text _).append hlink).element "span" (by decide) _).append
    (uncoloured_text _)

theorem uncoloured_runState (a : Assets) : Uncoloured (runState a) (runState a) := by
  have hlinks := (uncoloured_runLink "state-continue" "Stopped " "Continue Updating" a.continueIcon
    .continue).append (uncoloured_runLink "state-pause" "Updating " "Stop Updating" a.pauseIcon
    .pause)
  exact (((uncoloured_text ['\n']).append hlinks).element "div" (by decide) _).append
    (uncoloured_text _)

theorem uncoloured_goal (s : Snapshot) :
    Uncoloured (goal s) ((s.shownGoal?.map plainGoal).getD []) := by
  unfold goal
  cases s.shownGoal? with
  | none => exact uncoloured_nil
  | some goal =>
    have htitle := (uncoloured_text "Tactic State".toList).element "h1" (by decide) []
    have hgoal := (uncoloured_colour goal).element "pre" (by decide) []
    exact ((htitle.append hgoal).element "div" (by decide) _).append (uncoloured_text _)

theorem uncoloured_message (d : Diagnostic) : Uncoloured (message d) (plainMessage d) := by
  have htext : Uncoloured (if d.severity = .error then colour d.text else [said d.text])
      [said d.text] := by
    split
    · exact uncoloured_colour d.text
    · exact uncoloured_text _
  have hlink := (uncoloured_text (heading d).toList).element "a" (by decide)
    [.valued "href" (Command.reveal ⟨d.fileName, d.line, d.column⟩).toUri]
  have htitle := hlink.element "h1" (by decide)
    [.valued "title" (d.fileName ++ lineColumn d)]
  exact (htitle.append (htext.element "pre" (by decide) _)).element "div" (by decide) _

theorem uncoloured_messages (ds : List Diagnostic) : Uncoloured (messages ds)
    (element "div" [.valued "id" "messages"]
      ((ds.map plainMessage).intersperse [lineBreak]).flatten) := by
  refine Uncoloured.element ?_ "div" (by decide) _
  cases ds with
  | nil => exact uncoloured_nil
  | cons d ds =>
    rw [flatten_intersperse, flatten_intersperse]
    exact (uncoloured_message d).append
      (Uncoloured.flatMap (fun next => (uncoloured_text ['\n']).append (uncoloured_message next)) ds)

/-- Taking the colours out of a page leaves its outline. -/
theorem uncoloured_body (s : Snapshot) (a : Assets) : Uncoloured (body s a) (outline s a) := by
  have hclosing := uncoloured_closing "html" (by decide)
  unfold body outline
  cases s.location with
  | none => exact ((uncoloured_text _).element "body" (by decide) _).append hclosing
  | some l =>
    have hbreak : Uncoloured [lineBreak] [lineBreak] := uncoloured_text _
    have hstate := hbreak.append (uncoloured_runState a)
    have hinner := ((hstate.append (uncoloured_goal s)).append
      (uncoloured_messages s.messages)).append hbreak
    exact (hinner.element "body" (by decide) _).append hclosing

/-! ## The names in a page -/

theorem all_isProper_element (name : String) (attributes : List Attribute)
    (content : List Token) : (element name attributes content).all Token.isProper =
      (isName name && attributes.all (isName ·.name) && content.all Token.isProper) := by
  cases h : isName name <;> simp [element, Token.isProper, h]

theorem all_isProper_colour (text : String) : (colour text).all Token.isProper := by
  have hline (line : List Char) : (colourLine line).all Token.isProper := by
    unfold colourLine
    split <;> simp [element, Token.isProper, Attribute.name, isName, isNameChar]
  unfold colour
  split
  · rfl
  · simp [hline, List.all_flatMap, lineBreak, Token.isProper]

theorem all_isProper_message (d : Diagnostic) : (message d).all Token.isProper := by
  unfold message
  split_ifs <;> simp [all_isProper_element, all_isProper_colour, Token.isProper, said,
    Attribute.name, isName, isNameChar]

theorem all_isProper_messages (ds : List Diagnostic) : (messages ds).all Token.isProper := by
  have hbetween : ((ds.map message).intersperse [lineBreak]).flatten.all Token.isProper := by
    cases ds with
    | nil => rfl
    | cons d ds =>
      rw [flatten_intersperse]
      simp [all_isProper_message, List.all_flatMap, lineBreak, Token.isProper]
  simp [messages, all_isProper_element, hbetween, Attribute.name, isName, isNameChar]

theorem all_isProper_runState (a : Assets) : (runState a).all Token.isProper := by
  simp [runState, runLink, all_isProper_element, said, lineBreak, Token.isProper, Attribute.name,
    isName, isNameChar]

theorem all_isProper_goal (s : Snapshot) : (goal s).all Token.isProper := by
  unfold goal
  split <;> simp [all_isProper_element, all_isProper_colour, said, lineBreak, Token.isProper,
    Attribute.name, isName, isNameChar]

theorem all_isProper_body (s : Snapshot) (a : Assets) : (body s a).all Token.isProper := by
  unfold body
  split
  · simp [all_isProper_element, said, Token.isProper, isName, isNameChar]
  · split_ifs <;> simp [all_isProper_element, all_isProper_runState, all_isProper_goal,
      all_isProper_messages, lineBreak, Token.isProper, Attribute.name, isName, isNameChar]

/-! ## The tags of a page -/

def linkTags : List Shape :=
  framed "span" ["id"] (framed "a" ["href"] [⟨false, "img", ["title", "src"]⟩])

def goalTags : List Shape := framed "div" ["id"] (framed "h1" [] [] ++ framed "pre" [] [])

def messageTags : List Shape :=
  framed "div" ["class", "data-line", "data-column"]
    (framed "h1" ["title"] (framed "a" ["href"] []) ++ framed "pre" [] [])

def tags (located : Bool) (mode : Mode) (stopped goal : Bool) (messages : Nat) : List Shape :=
  if located then
    framed "body"
      (["data-uri", "data-line", "data-column"] ++
        (if mode = .allMessages then ["data-messages"] else []) ++
        (if stopped then ["data-paused"] else []))
      (framed "div" ["id"] (linkTags ++ linkTags) ++ (if goal then goalTags else []) ++
        framed "div" ["id"] (List.replicate messages messageTags).flatten) ++
    [⟨true, "html", []⟩]
  else framed "body" [] [] ++ [⟨true, "html", []⟩]

theorem shapes_plainMessage (d : Diagnostic) : shapes (plainMessage d) = messageTags := by
  simp [plainMessage, messageTags, Attribute.name]

theorem shapes_plainMessages (ds : List Diagnostic) :
    shapes ((ds.map plainMessage).intersperse [lineBreak]).flatten =
      (List.replicate ds.length messageTags).flatten := by
  cases ds with
  | nil => rfl
  | cons d ds =>
    have hothers : shapes (ds.flatMap fun next => lineBreak :: plainMessage next) =
        (List.replicate ds.length messageTags).flatten := by
      induction ds with
      | nil => rfl
      | cons next ds ih => simp [shapes_plainMessage, ih, List.replicate_succ]
    rw [flatten_intersperse, shapes_append, shapes_plainMessage, hothers, List.length_cons,
      List.replicate_succ, List.flatten_cons]

theorem shapes_outline (s : Snapshot) (a : Assets) : shapes (outline s a) =
    tags s.location.isSome s.mode s.stopped s.showsGoal s.messages.length := by
  unfold outline tags Snapshot.showsGoal
  cases s.location with
  | none => simp
  | some l =>
    cases s.shownGoal? <;> cases s.stopped <;> cases s.mode <;>
      simp [bodyAttributes, plainGoal, goalTags, linkTags, runState, runLink, shapes_plainMessages,
        Attribute.name]

/-- A page is read, and without colours it says what its outline says. -/
theorem exists_read_body (s : Snapshot) (a : Assets) :
    ∃ shown, read .text ((lineBreak :: body s a).flatMap Token.write) = some shown ∧
      (shown.without "strong").map unescape = .ofTokens (lineBreak :: outline s a) := by
  have hproper : (lineBreak :: body s a).all Token.isProper := all_isProper_body s a
  have huncoloured : (Content.ofTokens (lineBreak :: body s a)).without "strong" =
      .ofTokens (lineBreak :: outline s a) :=
    ((uncoloured_text ['\n']).append (uncoloured_body s a)) {}
  refine ⟨_, read_write hproper, ?_⟩
  rw [Content.without_map, Content.map_unescape, huncoloured]

theorem exists_read_remainder (a : Assets) :
    ∃ links, read .text (remainder a) = some links ∧
      links.map unescape = .ofTokens (lineBreak :: script a) := by
  have hproper : (lineBreak :: script a).all Token.isProper := by
    unfold script
    split <;> simp [all_isProper_element, lineBreak, Token.isProper, Attribute.name, isName,
      isNameChar]
  exact ⟨_, read_write hproper, Content.map_unescape _⟩

/-- Nothing that a snapshot, the configuration or the assets say becomes markup. Behind the head,
which ends where its first end tag stands, a page has fixed tags, apart from those that colours
add. Its texts and its values in double quotes, as a reader of HTML understands them, are those of
the outline. In the head the style goes as far as its end tag and nowhere contains the beginning
of one, and behind it there is at most the script. -/
theorem render_no_injection (s : Snapshot) (c : Config) (a : Assets) :
    ∃ head page shown,
      (render s c a).toList.dropInfix? "</head>".toList = some (head, page) ∧
      read .text page = some shown ∧
      (shown.without "strong").shapes =
        tags s.location.isSome s.mode s.stopped s.showsGoal s.messages.length ∧
      (shown.without "strong").map unescape = .ofTokens (lineBreak :: outline s a) ∧
      ∃ front styled css behind links,
        head.dropInfix? "<style>".toList = some (front, styled) ∧
        styled.dropInfix? "</style>".toList = some (css, behind) ∧
        ¬ "</".toList <:+: css ∧
        read .text behind = some links ∧
        links.map unescape = .ofTokens (lineBreak :: script a) := by
  obtain ⟨shown, hread, hplain⟩ := exists_read_body s a
  obtain ⟨links, hlinks, hscript⟩ := exists_read_remainder a
  have hstyle : ¬ "</".toList <:+: guardClosing (style c a).toList :=
    not_infix_of_passes (passes_style [] [] c a) (by simp)
  refine ⟨_, _, shown, dropInfix?_head s c a, hread, ?_, hplain, _, _, _, _, links,
    dropInfix?_style _, dropInfix?_endOfStyle c a _, hstyle, hlinks, hscript⟩
  rw [← Content.shapes_map unescape, hplain, Content.shapes_ofTokens]
  exact shapes_outline s a

end ProofPanel.Page
