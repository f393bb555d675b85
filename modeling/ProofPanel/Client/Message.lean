import ProofPanel.Backend

/-!
# Messages to and from the backend

Requests name their kind under `command` and carry a number that the backend repeats in its
responses, which name their kind under `response`.
-/
namespace ProofPanel

inductive Request
  | info (seq : Nat) (location : Location)
  | sync (seq : Nat) (fileName content : String)
deriving DecidableEq

namespace Request

def seq : Request → Nat
  | .info seq _ => seq
  | .sync seq _ _ => seq

def toJson : Request → Json
  | .info seq l => .object
    [("command", .str "info"), ("seq_num", .ofNat seq), ("file_name", .str l.fileName),
     ("line", .ofNat l.line), ("column", .ofNat l.column)]
  | .sync seq fileName content => .object
    [("command", .str "sync"), ("seq_num", .ofNat seq), ("file_name", .str fileName),
     ("content", .str content)]

def variant? : String → Option (Json.Take Request)
  | "info" => some do
    let seq ← Json.field "seq_num" Json.nat?
    let fileName ← Json.field "file_name" Json.asString?
    let line ← Json.field "line" Json.nat?
    let column ← Json.field "column" Json.nat?
    return .info seq ⟨fileName, line, column⟩
  | "sync" => some do
    let seq ← Json.field "seq_num" Json.nat?
    let fileName ← Json.field "file_name" Json.asString?
    let content ← Json.field "content" Json.asString?
    return .sync seq fileName content
  | _ => none

def ofJson? : Json → Option Request := Json.tagged "command" variant?

end Request

/-- Something the backend is working on. -/
structure Task where
  fileName : String
  line : Nat
  column : Nat
  endLine : Nat
  endColumn : Nat
  description : String
deriving DecidableEq

namespace Task

def toJson (t : Task) : Json := .object
  [("file_name", .str t.fileName), ("pos_line", .ofNat t.line), ("pos_col", .ofNat t.column),
   ("end_pos_line", .ofNat t.endLine), ("end_pos_col", .ofNat t.endColumn),
   ("desc", .str t.description)]

def ofJson? : Json → Option Task := Json.record do
  let fileName ← Json.field "file_name" Json.asString?
  let line ← Json.field "pos_line" Json.nat?
  let column ← Json.field "pos_col" Json.nat?
  let endLine ← Json.field "end_pos_line" Json.nat?
  let endColumn ← Json.field "end_pos_col" Json.nat?
  let description ← Json.fieldOr "desc" "" Json.asString?
  return { fileName, line, column, endLine, endColumn, description }

end Task

structure Status where
  running : Bool := false
  tasks : List Task := []
deriving DecidableEq

def Status.members (s : Status) : List (String × Json) :=
  [("is_running", .bool s.running), ("tasks", .arr (s.tasks.map Task.toJson))]

inductive Response
  | ok (seq : Nat) (record : Option Record)
  | error (seq : Option Nat) (message : String)
  | allMessages (ds : List Diagnostic)
  | currentTasks (status : Status)
deriving DecidableEq

namespace Response

def toJson : Response → Json
  | .ok seq record => .objectOf
    [some ("response", .str "ok"), some ("seq_num", .ofNat seq),
     Json.optional "record" (record.map Record.toJson)]
  | .error seq message => .objectOf
    [some ("response", .str "error"), Json.optional "seq_num" (seq.map .ofNat),
     some ("message", .str message)]
  | .allMessages ds => .object
    [("response", .str "all_messages"), ("msgs", Diagnostic.listToJson ds)]
  | .currentTasks status => .object (("response", .str "current_tasks") :: status.members)

def variant? : String → Option (Json.Take Response)
  | "ok" => some do
    let seq ← Json.field "seq_num" Json.nat?
    let record ← Json.field? "record" Record.ofJson?
    return .ok seq record
  | "error" => some do
    let seq ← Json.field? "seq_num" Json.nat?
    let message ← Json.field "message" Json.asString?
    return .error seq message
  | "all_messages" => some do
    return .allMessages (← Json.field "msgs" (Json.listOf? (Diagnostic.ofJson? .inMessage)))
  | "current_tasks" => some do
    let running ← Json.field "is_running" Json.asBool?
    let tasks ← Json.fieldOr "tasks" [] (Json.listOf? Task.ofJson?)
    return .currentTasks { running, tasks }
  | _ => none

def ofJson? : Json → Option Response := Json.tagged "response" variant?

end Response

end ProofPanel
