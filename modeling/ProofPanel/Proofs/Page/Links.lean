import ProofPanel.Proofs.Page.Command
import ProofPanel.Session

/-!
# Links in a page

The page of a snapshot has two links to pause and to continue, and one for each diagnostic. Who
follows the link of a diagnostic is shown its place, in the file that its name stands for in normal
form.
-/
namespace ProofPanel

namespace Markup

def Attribute.href? : Attribute → Option String
  | .valued "href" uri => some uri
  | _ => none

def Token.hrefs : Token → List String
  | .opening _ attributes => attributes.filterMap Attribute.href?
  | _ => []

def hrefs (tokens : List Token) : List String := tokens.flatMap Token.hrefs

@[simp] theorem hrefs_nil : hrefs [] = [] := rfl

@[simp] theorem hrefs_append (tokens more : List Token) :
    hrefs (tokens ++ more) = hrefs tokens ++ hrefs more := List.flatMap_append

@[simp] theorem hrefs_cons (token : Token) (tokens : List Token) :
    hrefs (token :: tokens) = token.hrefs ++ hrefs tokens := rfl

@[simp] theorem Token.hrefs_opening (name : String) (attributes : List Attribute) :
    (opening name attributes).hrefs = attributes.filterMap Attribute.href? := rfl

@[simp] theorem Token.hrefs_closing (name : String) : (closing name).hrefs = [] := rfl

@[simp] theorem Token.hrefs_text (content : List Char) : (text content).hrefs = [] := rfl

@[simp] theorem hrefs_said (content : String) : (said content).hrefs = [] := rfl

@[simp] theorem hrefs_lineBreak : lineBreak.hrefs = [] := rfl

@[simp] theorem hrefs_element (name : String) (attributes : List Attribute) (content : List Token) :
    hrefs (element name attributes content) =
      attributes.filterMap Attribute.href? ++ hrefs content := by
  simp [element]

theorem hrefs_colourLine (line : List Char) : hrefs (colourLine line) = [] := by
  unfold colourLine
  split <;> simp [Attribute.href?]

/-- Colours make no links. -/
@[simp] theorem hrefs_colour (text : String) : hrefs (colour text) = [] := by
  have hlines (lines : List (List Char)) :
      hrefs (lines.flatMap fun line => lineBreak :: colourLine line) = [] := by
    induction lines with
    | nil => rfl
    | cons line lines ih => simp [hrefs_colourLine, ih]
  unfold colour
  split
  · rfl
  · rw [hrefs_append, hrefs_colourLine, hlines, List.append_nil]

end Markup

namespace Page

open Markup

def place (d : Diagnostic) : Location := ⟨d.fileName, d.line, d.column⟩

@[simp] theorem hrefs_runState (a : Assets) :
    hrefs (runState a) = [Command.continue.toUri, Command.pause.toUri] := by
  simp [runState, runLink, Attribute.href?]

@[simp] theorem hrefs_goal (s : Snapshot) : hrefs (goal s) = [] := by
  unfold goal
  split <;> simp [Attribute.href?]

@[simp] theorem hrefs_message (d : Diagnostic) :
    hrefs (message d) = [(Command.reveal (place d)).toUri] := by
  unfold message
  split_ifs <;> simp [Attribute.href?, place]

@[simp] theorem hrefs_messages (ds : List Diagnostic) :
    hrefs (messages ds) = ds.map fun d => (Command.reveal (place d)).toUri := by
  have hbetween : hrefs ((ds.map message).intersperse [lineBreak]).flatten =
      ds.map fun d => (Command.reveal (place d)).toUri := by
    induction ds with
    | nil => rfl
    | cons d ds ih =>
      cases ds with
      | nil => simp
      | cons next ds => simpa using ih
  simp [messages, Attribute.href?, hbetween]

/-- The links of a page: to continue, to pause, and to the place of each diagnostic. -/
theorem hrefs_body {s : Snapshot} {l : Location} (h : s.location = some l) (a : Assets) :
    hrefs (body s a) = Command.continue.toUri :: Command.pause.toUri ::
      s.messages.map fun d => (Command.reveal (place d)).toUri := by
  unfold body
  rw [h]
  split_ifs <;> simp [Attribute.href?]

end Page

namespace Session

/-- Who follows a link to a place is shown it in the editor, and nothing else happens. -/
theorem followUri_reveal (s : Session) (link : Json → Delivery) (cursor : Option Cursor)
    {l : Location} (h : l.Fits) :
    s.followUri link cursor (Command.reveal l).toUri =
      (s, [.reveal (FileUri.normal l.fileName) l.toPosition], .ok ()) := by
  have huri : Command.ofUri (Command.reveal l).toUri = .ok (.reveal l.normalized) := by
    refine Command.ofUri_toUri fun l' hl => ?_
    cases hl
    exact h
  simp only [followUri, huri]
  rfl

/-- Every command is read back from its URI with its file name in normal form, and the URI stands
in a page as it is. So the links of a page's diagnostics lead to their places. -/
theorem followUri_links (s : Session) (link : Json → Delivery) (cursor : Option Cursor) :
    (∀ c : Command, (∀ l, c.target? = some l → l.Fits) →
      Command.ofUri c.toUri = .ok c.normalized ∧
      (Command.ofUri c.toUri = .ok c ↔
        ∀ l, c.target? = some l → FileUri.normal l.fileName = l.fileName) ∧
      Markup.escape c.toUri = c.toUri ∧
      (Markup.Attribute.valued "href" c.toUri).write =
        " href=\x22".toList ++ c.toUri.toList ++ ['\x22']) ∧
    ∀ (shown : Snapshot) (l : Location) (a : Assets), shown.location = some l →
      (∀ d ∈ shown.messages, (Page.place d).Fits) →
      ∃ uris, Markup.hrefs (Page.body shown a) =
          Command.continue.toUri :: Command.pause.toUri :: uris ∧
        uris.map (s.followUri link cursor) = shown.messages.map fun d =>
          (s, [.reveal (FileUri.normal d.fileName) ⟨d.line - 1, d.column⟩], .ok ()) := by
  refine ⟨fun c hc => ?_, fun shown l a hl hd => ?_⟩
  · have hread := Command.ofUri_toUri hc
    have hescape := c.escape_toUri
    refine ⟨hread, ?_, hescape, ?_⟩
    · rw [hread, Except.ok.injEq, Command.normalized_eq_self_iff]
    · have hchars := congrArg String.toList hescape
      rw [Markup.escape, String.toList_ofList] at hchars
      rw [Markup.Attribute.write, hchars]
      simp
  · refine ⟨_, Page.hrefs_body hl a, ?_⟩
    rw [List.map_map]
    refine List.map_congr_left fun d hmem => ?_
    rw [Function.comp_apply, s.followUri_reveal link cursor (hd d hmem)]
    rfl

theorem followUri_links_quoted :
    let d : Diagnostic := ⟨"C:\\α \x22?%2F&.lean", 0, 7, .error, "", "unknown", none, none⟩
    let shown : Snapshot := { location := some ⟨"/a.lean", 1, 0⟩, messages := [d] }
    (Page.place d).Fits ∧
    ∃ uri, Markup.hrefs (Page.body shown {}) =
        [Command.continue.toUri, Command.pause.toUri, uri] ∧
      (init {} {}).followUri (fun _ => {}) none uri =
        (init {} {}, [.reveal "C:/α \x22?%2F&.lean" ⟨0, 7⟩], .ok ()) := by
  intro d shown
  have hfits : (Page.place d).Fits := ⟨by decide, by decide⟩
  obtain ⟨uris, hpage, hfollow⟩ := (followUri_links (init {} {}) (fun _ => {}) none).2 shown
    ⟨"/a.lean", 1, 0⟩ {} rfl (fun e he => by rwa [List.mem_singleton.mp he])
  obtain ⟨uri, rfl, huri⟩ := List.map_eq_singleton_iff.mp hfollow
  have hname : FileUri.normal d.fileName = "C:/α \x22?%2F&.lean" := by decide
  refine ⟨hfits, uri, hpage, ?_⟩
  rw [huri, ← hname]
  rfl

end Session

end ProofPanel
