import ProofPanel.FileUri
import ProofPanel.Json.Printer
import ProofPanel.Json.Reader
import ProofPanel.Snapshot

/-!
# Commands

What a user can ask for from the panel. In the page a command is a link, whose URI holds the name
of the command and its arguments as percent-encoded JSON.
-/
namespace ProofPanel

inductive Command
  | reveal (target : Location)
  | hover (target : Location)
  | stopHover
  | pause
  | continue
  | toggleUpdating
  | setMode (mode : Mode)
  | copyToComment
deriving DecidableEq

inductive ArgumentFault
  | notATriple
  | uriNotString
  | malformedUri
  | lineNotNat
  | columnNotNat
deriving DecidableEq

def ArgumentFault.message : ArgumentFault → String
  | .notATriple => "expected [uri, line, column]"
  | .uriNotString => "uri must be a string"
  | .malformedUri => "malformed file uri"
  | .lineNotNat => "line must be a non-negative integer"
  | .columnNotNat => "column must be a non-negative integer"

inductive CommandError
  | unknown (text : String)
  | invalidArguments (id : String) (fault : ArgumentFault)
  | notJson (fault : Json.Fault)
deriving DecidableEq

def CommandError.message : CommandError → String
  | .unknown text => "unknown command: " ++ text
  | .invalidArguments id fault => "invalid arguments for " ++ id ++ ": " ++ fault.message
  | .notJson fault => "JSON error: " ++ fault.message

namespace Command

def id : Command → String
  | .reveal _ => "infoview.revealPosition"
  | .hover _ => "infoview.hoverPosition"
  | .stopHover => "infoview.stopHover"
  | .pause => "infoview.pause"
  | .continue => "infoview.continue"
  | .toggleUpdating => "infoview.toggleUpdating"
  | .setMode .onlyState => "infoview.displayGoal"
  | .setMode .allMessages => "infoview.displayList"
  | .copyToComment => "infoview.copyToComment"

def placeArguments (target : Location) : Json :=
  .arr [.str (FileUri.ofFileName target.fileName), .ofNat target.line, .ofNat target.column]

def arguments : Command → Json
  | .reveal target => placeArguments target
  | .hover target => placeArguments target
  | _ => .arr []

def scheme : List Char := "command:".toList

def toUri (c : Command) : String :=
  .ofList scheme ++ c.id ++ "?" ++ Percent.encodeComponent c.arguments.print

def fileOfUri? (uri : String) : Option String :=
  if FileUri.scheme.isPrefixOf uri.toList then FileUri.toFileName? uri else some uri

def placeOfArguments : Json → Except ArgumentFault Location
  | .arr [uri, line, column] => do
    let some uri := uri.asString? | throw .uriNotString
    let some fileName := fileOfUri? uri | throw .malformedUri
    let some line := line.asNat? | throw .lineNotNat
    let some column := column.asNat? | throw .columnNotNat
    return ⟨fileName, line, column⟩
  | _ => throw .notATriple

/-- The command of the given name. Only places need arguments; others may have any. -/
def ofArguments (id : String) (arguments : Json) : Except CommandError Command :=
  let placed (make : Location → Command) :=
    match placeOfArguments arguments with
    | .ok target => .ok (make target)
    | .error fault => .error (.invalidArguments id fault)
  match id with
  | "infoview.revealPosition" => placed .reveal
  | "infoview.hoverPosition" => placed .hover
  | "infoview.stopHover" => .ok .stopHover
  | "infoview.pause" => .ok .pause
  | "infoview.continue" => .ok .continue
  | "infoview.toggleUpdating" => .ok .toggleUpdating
  | "infoview.displayGoal" => .ok (.setMode .onlyState)
  | "infoview.displayList" => .ok (.setMode .allMessages)
  | "infoview.copyToComment" => .ok .copyToComment
  | _ => .error (.unknown id)

def ofUri (uri : String) : Except CommandError Command :=
  match scheme.isPrefixOf? uri.toList with
  | none => .error (.unknown uri)
  | some rest =>
    let id := String.ofList (rest.takeWhile (· != '?'))
    match rest.dropWhile (· != '?') with
    | [] | [_] => ofArguments id (.arr [])
    | _ :: query =>
      match Json.parse (Percent.decode (.ofList query)) with
      | .ok arguments => ofArguments id arguments
      | .error fault => .error (.notJson fault)

end Command

end ProofPanel
