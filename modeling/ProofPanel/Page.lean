import ProofPanel.Command
import ProofPanel.Markup.Colour
import ProofPanel.Page.Style
import ProofPanel.Text.Path

/-!
# The page

A snapshot as the page that the panel shows: the goal at the cursor and the diagnostics, each with
a link to its place in the file.
-/
namespace ProofPanel.Page

open Markup

def head (c : Config) (a : Assets) : String :=
  "<!DOCTYPE html>\n<html>\n<head>\n" ++
  "<meta http-equiv=\"Content-type\" content=\"text/html;charset=utf-8\">\n" ++
  "<style>" ++ .ofList (guardClosing (style c a).toList) ++ "</style>\n" ++
  (if a.script = "" then ""
    else "<script charset=\"utf-8\" src=\"" ++ escape a.script ++ "\"></script>\n") ++
  "</head>\n"

def runLink (id word title icon : String) (command : Command) : List Token :=
  element "span" [.valued "id" id]
    (said word ::
      element "a" [.valued "href" command.toUri]
        [.opening "img" [.valued "title" title, .valued "src" icon]]) ++ [lineBreak]

def runState (a : Assets) : List Token :=
  element "div" [.valued "id" "run-state"]
    (lineBreak ::
      runLink "state-continue" "Stopped " "Continue Updating" a.continueIcon .continue ++
      runLink "state-pause" "Updating " "Stop Updating" a.pauseIcon .pause) ++ [lineBreak]

def goal (s : Snapshot) : List Token :=
  match s.shownGoal? with
  | none => []
  | some goal =>
    element "div" [.valued "id" "goal"]
      (element "h1" [] [said "Tactic State"] ++ element "pre" [] (colour goal)) ++ [lineBreak]

def message (d : Diagnostic) : List Token :=
  let place := ":" ++ toString d.line ++ ":" ++ toString d.column
  element "div"
    [.valued "class" ("message " ++ d.severity.name), .valued "data-line" (toString d.line),
     .valued "data-column" (toString d.column)]
    (element "h1" [.valued "title" (d.fileName ++ place)]
      (element "a" [.valued "href" (Command.reveal ⟨d.fileName, d.line, d.column⟩).toUri]
        [said (Path.baseName d.fileName ++ place ++ ": " ++ d.severity.name ++ " " ++
          d.caption)]) ++
     element "pre" [] (if d.severity = .error then colour d.text else [said d.text]))

def messages (ds : List Diagnostic) : List Token :=
  element "div" [.valued "id" "messages"] ((ds.map message).intersperse [lineBreak]).flatten

def body (s : Snapshot) (a : Assets) : List Token :=
  match s.location with
  | none => element "body" [] [said "No file active"] ++ [.closing "html"]
  | some l =>
    element "body"
      ([.valued "data-uri" (FileUri.ofFileName l.fileName),
        .valued "data-line" (toString l.line), .valued "data-column" (toString l.column)] ++
       (if s.mode = .allMessages then [.bare "data-messages"] else []) ++
       (if s.stopped then [.bare "data-paused"] else []))
      (lineBreak :: runState a ++ goal s ++ messages s.messages ++ [lineBreak]) ++
    [.closing "html"]

def render (s : Snapshot) (c : Config) (a : Assets) : String := head c a ++ write (body s a)

end ProofPanel.Page
