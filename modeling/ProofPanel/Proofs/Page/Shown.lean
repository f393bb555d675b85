import ProofPanel.PlainText
import ProofPanel.Proofs.Page.Outline

/-!
# What a page shows

A page shows a goal and diagnostics, each under its heading. Who reads it finds those of the
snapshot, and can say the same in plain text: for the diagnostics this is the plain text of the
snapshot.
-/
namespace ProofPanel

namespace Markup

/-! ## Blocks of a page -/

def Tag.value? (name : String) (tag : Tag) : Option (List Char) :=
  (tag.fields.find? (·.name == name)).map (·.value)

def behindEach (kind : Tag → Bool) : List (Tag × List Char) → List (List (Tag × List Char))
  | [] => []
  | (tag, _) :: rest => if kind tag then rest :: behindEach kind rest else behindEach kind rest

def textBehind (name : String) (tags : List (Tag × List Char)) : String :=
  .ofList (((tags.find? (·.1.name == name)).map (·.2)).getD [])

end Markup

namespace Page

open Markup

/-- A goal, if one is shown, and the diagnostics: headings with texts. -/
structure Shown where
  goal : Option String
  entries : List (String × String)

def isGoal (tag : Tag) : Bool := tag.value? "id" == some "goal".toList

def isMessage (tag : Tag) : Bool :=
  (tag.value? "class").any fun value => "message ".toList.isPrefixOf value

def entry (rest : List (Tag × List Char)) : String × String :=
  (textBehind "a" rest, textBehind "pre" rest)

namespace Shown

def ofContent (c : Content) : Shown where
  goal := (behindEach isGoal c.tags).head?.map (textBehind "pre")
  entries := (behindEach isMessage c.tags).map entry

/-- What somebody sees who reads a page as HTML. -/
def ofPage? (page : String) : Option Shown := do
  let (_, rest) ← page.toList.dropInfix? "</head>".toList
  let content ← read .text rest
  return ofContent ((content.without "strong").map unescape)

def plainText (shown : Shown) : String :=
  (match shown.goal with
    | none => ""
    | some goal => "Tactic State:\n" ++ goal ++ "\n") ++
  "\n".intercalate (shown.entries.map fun (heading, text) => heading ++ "\n" ++ text)

end Shown

/-! ## Reading the blocks of an outline -/

theorem goals_plainGoal (goal : String) (c : Content) :
    ∃ rest, behindEach isGoal (c.put (plainGoal goal)).tags = rest :: behindEach isGoal c.tags ∧
      textBehind "pre" rest = goal := by
  refine ⟨_, rfl, ?_⟩
  change String.ofList (goal.toList ++ []) = goal
  simp

def inside (d : Diagnostic) (c : Content) : List (Tag × List Char) :=
  (⟨false, "h1", [⟨"title", .double, (d.fileName ++ lineColumn d).toList⟩]⟩, []) ::
  (⟨false, "a", [⟨"href", .double,
    (Command.reveal ⟨d.fileName, d.line, d.column⟩).toUri.toList⟩]⟩, (heading d).toList) ::
  (⟨true, "a", []⟩, []) :: (⟨true, "h1", []⟩, []) :: (⟨false, "pre", []⟩, d.text.toList) ::
  (⟨true, "pre", []⟩, []) :: (⟨true, "div", []⟩, c.text) :: c.tags

theorem tags_plainMessage (d : Diagnostic) (c : Content) :
    (c.put (plainMessage d)).tags =
      (⟨false, "div", [⟨"class", .double, ("message " ++ d.severity.name).toList⟩,
        ⟨"data-line", .double, (toString d.line).toList⟩,
        ⟨"data-column", .double, (toString d.column).toList⟩]⟩, []) :: inside d c := by
  simp [plainMessage, inside, element, said, Content.put, Token.before, Content.behind,
    Content.said, Attribute.field]

theorem entry_inside (d : Diagnostic) (c : Content) : entry (inside d c) = (heading d, d.text) := by
  simp [entry, textBehind, inside]

def Lacks (kind : Tag → Bool) (tokens : List Token) : Prop :=
  ∀ c : Content, behindEach kind (c.put tokens).tags = behindEach kind c.tags

theorem Lacks.append {kind : Tag → Bool} {tokens more : List Token} (h : Lacks kind tokens)
    (hmore : Lacks kind more) : Lacks kind (tokens ++ more) := by
  intro c
  rw [Content.put_append, h, hmore]

theorem lacks_goal_plainMessage (d : Diagnostic) : Lacks isGoal (plainMessage d) := by
  intro c
  rw [tags_plainMessage]
  simp [behindEach, isGoal, Tag.value?, inside]

theorem lacks_goal_lines (ds : List Diagnostic) :
    Lacks isGoal (ds.flatMap fun next => lineBreak :: plainMessage next) := by
  induction ds with
  | nil => exact fun _ => rfl
  | cons d ds ih =>
    intro c
    rw [List.flatMap_cons, List.cons_append]
    exact ((lacks_goal_plainMessage d).append ih) c

theorem lacks_goal_messages (ds : List Diagnostic) :
    Lacks isGoal ((ds.map plainMessage).intersperse [lineBreak]).flatten := by
  cases ds with
  | nil => exact fun _ => rfl
  | cons d ds =>
    rw [flatten_intersperse]
    exact (lacks_goal_plainMessage d).append (lacks_goal_lines ds)

theorem entries_plainMessage (d : Diagnostic) (c : Content) :
    (behindEach isMessage (c.put (plainMessage d)).tags).map entry =
      (heading d, d.text) :: (behindEach isMessage c.tags).map entry := by
  have hfirst : behindEach isMessage (c.put (plainMessage d)).tags =
      inside d c :: behindEach isMessage c.tags := by
    rw [tags_plainMessage]
    cases d.severity <;> simp [behindEach, isMessage, Tag.value?, inside, Severity.name]
  rw [hfirst, List.map_cons, entry_inside]

theorem entries_lines (ds : List Diagnostic) (c : Content) :
    (behindEach isMessage
        (c.put (ds.flatMap fun next => lineBreak :: plainMessage next)).tags).map entry =
      (ds.map fun d => (heading d, d.text)) ++ (behindEach isMessage c.tags).map entry := by
  induction ds with
  | nil => rfl
  | cons d ds ih =>
    rw [List.flatMap_cons, List.cons_append, List.map_cons, List.cons_append, ← ih,
      ← entries_plainMessage, ← Content.put_append]
    rfl

theorem entries_messages (ds : List Diagnostic) (c : Content) :
    (behindEach isMessage
        (c.put ((ds.map plainMessage).intersperse [lineBreak]).flatten).tags).map entry =
      (ds.map fun d => (heading d, d.text)) ++ (behindEach isMessage c.tags).map entry := by
  cases ds with
  | nil => rfl
  | cons d ds =>
    rw [flatten_intersperse, Content.put_append, entries_plainMessage, entries_lines]
    rfl

def opened (l : Location) (mode : Mode) (stopped : Bool) (a : Assets) : List Token :=
  lineBreak :: .opening "body" (bodyAttributes l mode stopped) :: lineBreak :: runState a

def listed (ds : List Diagnostic) : List Token :=
  .opening "div" [.valued "id" "messages"] ::
    ((ds.map plainMessage).intersperse [lineBreak]).flatten ++
    [.closing "div", lineBreak, .closing "body", .closing "html"]

theorem outline_eq {s : Snapshot} {l : Location} (h : s.location = some l) (a : Assets) :
    lineBreak :: outline s a = opened l s.mode s.stopped a ++
      ((s.shownGoal?.map plainGoal).getD [] ++ listed s.messages) := by
  simp [outline, h, element, opened, listed]

theorem lacks_goal_opened (l : Location) (mode : Mode) (stopped : Bool) (a : Assets) :
    Lacks isGoal (opened l mode stopped a) := by
  cases mode <;> cases stopped <;> exact fun _ => rfl

theorem lacks_message_opened (l : Location) (mode : Mode) (stopped : Bool) (a : Assets) :
    Lacks isMessage (opened l mode stopped a) := by
  cases mode <;> cases stopped <;> exact fun _ => rfl

theorem lacks_goal_listed (ds : List Diagnostic) : Lacks isGoal (listed ds) := by
  intro c
  exact ((lacks_goal_messages ds).append fun _ => rfl) c

theorem entries_listed (ds : List Diagnostic) :
    (behindEach isMessage (Content.put (listed ds) {}).tags).map entry =
      ds.map fun d => (heading d, d.text) := by
  have hlisted : behindEach isMessage (Content.put (listed ds) {}).tags =
      behindEach isMessage (Content.put ((ds.map plainMessage).intersperse [lineBreak]).flatten
        (Content.put [.closing "div", lineBreak, .closing "body", .closing "html"] {})).tags := by
    rw [← Content.put_append]
    rfl
  rw [hlisted, entries_messages]
  exact List.append_nil _

/-- What is read out of an outline is the goal and the diagnostics that were put there. -/
theorem ofContent_outline {s : Snapshot} (h : s.location.isSome) (a : Assets) :
    Shown.ofContent (.ofTokens (lineBreak :: outline s a)) =
      ⟨s.shownGoal?, s.messages.map fun d => (heading d, d.text)⟩ := by
  obtain ⟨l, hl⟩ := Option.isSome_iff_exists.mp h
  have hput : Content.ofTokens (lineBreak :: outline s a) =
      ((Content.put (listed s.messages) {}).put ((s.shownGoal?.map plainGoal).getD [])).put
        (opened l s.mode s.stopped a) := by
    rw [← Content.put_append, ← Content.put_append, List.append_assoc, ← outline_eq hl a]
    rfl
  have hnone : behindEach isGoal (Content.put (listed s.messages) {}).tags = [] :=
    lacks_goal_listed s.messages {}
  have hgoal : (behindEach isGoal ((Content.put (listed s.messages) {}).put
      ((s.shownGoal?.map plainGoal).getD [])).tags).head?.map (textBehind "pre") =
      s.shownGoal? := by
    cases s.shownGoal? with
    | none => exact congrArg (fun found => (List.head? found).map (textBehind "pre")) hnone
    | some goal =>
      obtain ⟨rest, hfound, htext⟩ := goals_plainGoal goal (Content.put (listed s.messages) {})
      rw [Option.map_some, Option.getD_some, hfound, List.head?_cons, Option.map_some, htext]
  have hmessages : behindEach isMessage ((Content.put (listed s.messages) {}).put
      ((s.shownGoal?.map plainGoal).getD [])).tags =
      behindEach isMessage (Content.put (listed s.messages) {}).tags := by
    cases s.shownGoal? <;> rfl
  rw [Shown.ofContent, hput, lacks_goal_opened, lacks_message_opened, hgoal, hmessages,
    entries_listed]

/-- A page with a location shows the goal that its mode shows, and the diagnostics in their
order. -/
theorem ofPage?_render {s : Snapshot} (h : s.location.isSome) (c : Config) (a : Assets) :
    Shown.ofPage? (render s c a) =
      some ⟨s.shownGoal?, s.messages.map fun d => (heading d, d.text)⟩ := by
  obtain ⟨shown, hread, hplain⟩ := exists_read_body s a
  simp only [Shown.ofPage?, dropInfix?_head, Option.bind_eq_bind, Option.bind_some, hread, hplain,
    ofContent_outline h]
  rfl

/-- The plain text of a snapshot shows the goal in every mode. -/
theorem plainText_eq (s : Snapshot) : PlainText.render s =
    Shown.plainText ⟨s.goal.filter (· != ""), s.messages.map fun d => (heading d, d.text)⟩ := by
  have hmessage (d : Diagnostic) : PlainText.message d = heading d ++ "\n" ++ d.text := by
    simp [PlainText.message, heading, lineColumn, String.append_assoc]
  have hmessages : s.messages.map PlainText.message =
      (s.messages.map fun d => (heading d, d.text)).map fun (heading, text) =>
        heading ++ "\n" ++ text := by
    rw [List.map_map]
    exact List.map_congr_left fun d _ => hmessage d
  rw [PlainText.render, Shown.plainText, hmessages]
  rcases hg : s.goal with _ | goal
  · rfl
  · by_cases hempty : goal = ""
    · rw [hempty]
      rfl
    · simp [Option.filter, hempty]

end Page

end ProofPanel
